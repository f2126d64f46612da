import Mathlib
import AliSql.Filter.Lists

/-!
# Admission of statements by the SQL filter

`mysql_execute_command` (`sql/sql_parse.cc`) asks `need_traffic_control` whether a
`SELECT`, `UPDATE` or `DELETE` may run. `find_matched_filter_and_update`
(`sql/sql_filter.cc`) looks for the first item of the command's list whose key words all
occur in the statement's text and, if the item allows any concurrency at all, counts the
statement in with a compare-and-swap loop on the item's `cur_conc`, remembering the item in
the session's one field `thd->filter_id`. At its label `finish`, `mysql_execute_command`
calls `dec_filter_item_conc`, which takes one off the item `thd->filter_id` names and sets
the field back to 0.

The model is a state machine over the sessions and the three lists. A session keeps the
statements it is executing, innermost first: a statement of a stored function or trigger
re-enters `mysql_execute_command` on the session of the statement that called it
(`sp_instr_stmt::execute`). Each step is one atomic action of the source:

* `execute`: a statement enters `need_traffic_control`, which under `LOCK_filter_list`
  finds the matching item and either decides at once or enters the retry loop;
* `read` and `cas`: the two atomic operations of one round of the retry loop, between
  which other sessions may run theirs;
* `gtid_checks`: `gtid_pre_statement_checks` right after the admission, which for
  `GTID_STATEMENT_CANCEL` and `GTID_STATEMENT_SKIP` leaves `mysql_execute_command` with
  `DBUG_RETURN`, past `finish`;
* `finish`: the label `finish`, reached from the end of the statement and from `error`;
* `set_sql_filter` and `reset_all_filter`: the `SET GLOBAL` statements, which wait for
  `LOCK_filter_list` to be free of readers.

The matching itself is exact (`find_matched_filter_exact`): the chosen item is the first
whose key words occur in the statement, in order and without overlapping under
`rds_key_cmp_in_order` (`Occur_in_order`); the greedy search with `strstr`, which takes
the leftmost occurrence of each key word and goes on after its end, misses no in-order
occurrence (`keys_match_in_order`), because `strstr` finds the leftmost occurrence
(`Libc.strstr_leftmost`).

The invariant `Filter_state.Inv` gives, in every state of every run, that each item's
`cur_conc` lies between the number of sessions whose `filter_id` names it and its
`max_conc` (`cur_conc_bounded`). The count is not exact (`admission_count_leaks`): a
statement that returns at the GTID checks keeps its admission counted, and a nested
statement's `dec_filter_item_conc` consumes the `filter_id` of the statement that called
it.
-/

set_option autoImplicit false

namespace AliSql

open Libc

/-! ## Commands -/

/-- The commands of `enum_sql_command` that the filter tells apart; `SQLCOM_INSERT` and
    `SQLCOM_CALL` stand for all the others, which both switches send to `default`. -/
inductive enum_sql_command
  | SQLCOM_SELECT
  | SQLCOM_UPDATE
  | SQLCOM_UPDATE_MULTI
  | SQLCOM_DELETE
  | SQLCOM_DELETE_MULTI
  | SQLCOM_INSERT
  | SQLCOM_CALL
deriving DecidableEq, Repr

/-- The `switch (command)` of `need_traffic_control` and of `dec_filter_item_conc`: the
    list a command is filtered by. -/
def filter_type_of : enum_sql_command → Option filter_type
  | .SQLCOM_SELECT => some .select
  | .SQLCOM_UPDATE | .SQLCOM_UPDATE_MULTI => some .update
  | .SQLCOM_DELETE | .SQLCOM_DELETE_MULTI => some .delete
  | .SQLCOM_INSERT | .SQLCOM_CALL => none

/-- `enum_gtid_statement_status`, the answer of `gtid_pre_statement_checks`. -/
inductive enum_gtid_statement_status
  | GTID_STATEMENT_EXECUTE
  | GTID_STATEMENT_CANCEL
  | GTID_STATEMENT_SKIP
deriving DecidableEq, Repr

/-! ## Matching -/

/-- The inner loop of `find_matched_filter_and_update`: whether every key word occurs in
    `sql`, searched from the start each time or, with `rds_key_cmp_in_order`, after the
    previous match. -/
def keys_match (in_order : Bool) (sql : List Char) : List Char → List (List Char) → Bool
  | _, [] => true
  | pos, key :: keys =>
    match strstr pos key with
    | none => false
    | some p => keys_match in_order sql (if in_order then p.drop key.length else sql) keys

/-- The outer loop of `find_matched_filter_and_update`: the first item all of whose key
    words match. -/
def find_matched_filter (in_order : Bool) (sql : List Char) (filter_list : List filter_item) :
    Option filter_item :=
  filter_list.find? (fun item => keys_match in_order sql sql item.key_array)

example : keys_match true "SELECT a FROM t".toList "SELECT a FROM t".toList
    ["FROM".toList, "a".toList] = false := by decide
example : keys_match false "SELECT a FROM t".toList "SELECT a FROM t".toList
    ["FROM".toList, "a".toList] = true := by decide

/-- The key words occur in `s` in their order and without overlapping, each after the end
    of the one before. -/
def Occur_in_order : List (List Char) → List Char → Prop
  | [], _ => True
  | key :: keys, s => ∃ u v, s = u ++ key ++ v ∧ Occur_in_order keys v

/-- What an item's key words must do for the item to match `sql`: occur in order with
    `rds_key_cmp_in_order` set, and each occur somewhere without it. -/
def Keys_occur (in_order : Bool) (sql : List Char) (keys : List (List Char)) : Prop :=
  if in_order then Occur_in_order keys sql else ∀ key ∈ keys, key <:+: sql

/-- Key words that occur in order in a suffix occur in order in the whole text. -/
theorem Occur_in_order.of_suffix :
    ∀ {keys : List (List Char)} {v w : List Char}, Occur_in_order keys v → v <:+ w →
      Occur_in_order keys w
  | [], _, _, _, _ => trivial
  | _ :: _, _, _, ⟨u, v', rfl, h⟩, ⟨p, rfl⟩ => ⟨p ++ u, v', by simp, h⟩

/-- What follows a common prefix of two texts keeps the suffix order. -/
theorem suffix_of_append_suffix_append {a x y : List Char} (h : a ++ x <:+ a ++ y) :
    x <:+ y := by
  obtain ⟨w, hw⟩ := h
  have hy : y = (w ++ a).drop a.length ++ x := by
    have := congrArg (List.drop a.length) hw
    rw [List.drop_left, ← List.append_assoc,
      List.drop_append_of_le_length (by simp)] at this
    exact this.symm
  exact ⟨_, hy.symm⟩

/-- **The greedy search is complete.** With `rds_key_cmp_in_order`, taking the leftmost
    occurrence of each key word and searching on after its end finds the key words
    exactly when they occur in order: an occurrence further right never leaves more room
    for the key words after it. -/
theorem keys_match_in_order (sql : List Char) :
    ∀ (keys : List (List Char)) (pos : List Char),
      keys_match true sql pos keys = true ↔ Occur_in_order keys pos
  | [], _ => by simp [keys_match, Occur_in_order]
  | key :: keys, pos => by
    cases hs : strstr pos key with
    | none =>
      simp only [keys_match, hs, Bool.false_eq_true, Occur_in_order, false_iff, not_exists,
        not_and]
      intro u v hpos _
      exact strstr_eq_none_iff.mp hs ⟨u, v, hpos.symm⟩
    | some p =>
      obtain ⟨hp, hk⟩ := strstr_eq_some hs
      have hsplit : key ++ p.drop key.length = p := List.prefix_iff_eq_append.mp hk
      simp only [keys_match, hs, if_true, keys_match_in_order sql keys, Occur_in_order]
      constructor
      · -- the occurrence found is one
        intro h
        obtain ⟨u, rfl⟩ := hp
        exact ⟨u, p.drop key.length, by rw [List.append_assoc, hsplit], h⟩
      · -- any occurrence ends no earlier than the leftmost one
        rintro ⟨u, v, rfl, h⟩
        have hleft : key ++ v <:+ p :=
          strstr_leftmost hs ⟨u, by rw [List.append_assoc]⟩ (List.prefix_append key v)
        rw [← hsplit] at hleft
        exact h.of_suffix (suffix_of_append_suffix_append hleft)

/-- Without `rds_key_cmp_in_order` every search starts again at the beginning of the text,
    so the key words match exactly when each occurs somewhere. -/
theorem keys_match_any_order (sql : List Char) :
    ∀ keys : List (List Char), keys_match false sql sql keys = true ↔ ∀ key ∈ keys, key <:+: sql
  | [] => by simp [keys_match]
  | key :: keys => by
    cases hs : strstr sql key with
    | none =>
      simp only [keys_match, hs, Bool.false_eq_true, List.mem_cons, false_iff, not_forall]
      exact ⟨key, Or.inl rfl, strstr_eq_none_iff.mp hs⟩
    | some p =>
      have hkey : key <:+: sql :=
        List.infix_iff_prefix_suffix.mpr ⟨p, (strstr_eq_some hs).2, (strstr_eq_some hs).1⟩
      simp only [keys_match, hs, Bool.false_eq_true, if_false, keys_match_any_order sql keys,
        List.mem_cons, forall_eq_or_imp, hkey, true_and]

theorem keys_match_iff (in_order : Bool) (sql : List Char) (keys : List (List Char)) :
    keys_match in_order sql sql keys = true ↔ Keys_occur in_order sql keys := by
  cases in_order
  · simpa [Keys_occur] using keys_match_any_order sql keys
  · simpa [Keys_occur] using keys_match_in_order sql keys sql

/-- Where a statement is in `mysql_execute_command`, as far as the filter can tell. -/
inductive Stmt_phase
  /-- at the label `retry` of `find_matched_filter_and_update`, for the item `id` -/
  | retry (id : Int)
  /-- `store_val` read from the item's `cur_conc`, and found different from `max_conc` -/
  | cas (id : Int) (store_val : Int)
  /-- `need_traffic_control` returned `false`; the GTID checks come next -/
  | passed
  /-- executing the statement -/
  | running
  /-- `need_traffic_control` returned `true`: on the way to `error` and `finish` -/
  | refused
deriving DecidableEq, Repr

/-- The two phases in which the session holds `LOCK_filter_list` for reading. -/
def Stmt_phase.reading : Stmt_phase → Bool
  | .retry _ | .cas _ _ => true
  | _ => false

structure Stmt where
  command : enum_sql_command
  phase : Stmt_phase
deriving DecidableEq, Repr

/-- A session: its `filter_id` and the statements it is executing, innermost first. -/
structure Thd where
  filter_id : Int
  stmts : List Stmt
deriving DecidableEq, Repr

/-- The filter's global state and the sessions. -/
structure Filter_state where
  lists : Filter_lists
  rds_key_cmp_in_order : Bool
  filter_item_id : Int
  thds : List Thd
deriving DecidableEq, Repr

/-- At startup: no item, and `n` sessions with `filter_id` 0 (`THD::THD`). -/
def Filter_state.init (n : Nat) : Filter_state :=
  ⟨Filter_lists.empty, false, 0, List.replicate n ⟨0, []⟩⟩

/-! ## The two functions of `sql_filter.cc` the statements call -/

/-- What `need_traffic_control(thd, command)` decides before its retry loop. -/
def need_traffic_control (ls : Filter_lists) (in_order : Bool) (sql : List Char)
    (command : enum_sql_command) : Stmt_phase :=
  match filter_type_of command with
  | none => .passed
  | some k =>
    -- the list is tested without the lock first
    if ls.get k = [] then .passed
    else
      match find_matched_filter in_order sql (ls.get k) with
      | none => .passed
      | some item => if item.max_conc = 0 then .refused else .retry item.id

/-- The first item with the id, with `f` applied to its `cur_conc`: what
    `find_node_by_id` finds is what the `__sync` operations change. -/
def update_item (id : Int) (f : Int → Int) : List filter_item → List filter_item
  | [] => []
  | item :: l =>
    if item.id = id then { item with cur_conc := f item.cur_conc } :: l
    else item :: update_item id f l

/-- `dec_filter_item_conc(thd, command)`: the lists and `thd->filter_id` after it. -/
def dec_filter_item_conc (ls : Filter_lists) (filter_id : Int) (command : enum_sql_command) :
    Filter_lists × Int :=
  if filter_id = 0 then (ls, filter_id)
  else
    match filter_type_of command with
    | none => (ls, 0)
    | some k => (ls.set k (update_item filter_id (· - 1) (ls.get k)), 0)

/-! ## The steps -/

namespace Filter_state

def set_thd (σ : Filter_state) (t : Nat) (thd : Thd) : Filter_state :=
  { σ with thds := σ.thds.set t thd }

/-- Some session holds `LOCK_filter_list` for reading. -/
def reading (σ : Filter_state) : Bool :=
  σ.thds.any (fun thd => thd.stmts.any (fun st => st.phase.reading))

/-- Session `t` starts a statement: at the top, or from the statement it is running. -/
def execute (σ : Filter_state) (t : Nat) (command : enum_sql_command) (query : List Char) :
    Filter_state :=
  match σ.thds[t]? with
  | some thd =>
    if thd.stmts.head?.all (fun st => st.phase = .running) then
      σ.set_thd t { thd with stmts :=
        ⟨command, need_traffic_control σ.lists σ.rds_key_cmp_in_order query command⟩ ::
          thd.stmts }
    else σ
  | none => σ

/-- `store_val= __sync_add_and_fetch(&(item->cur_conc), 0)` and the test against
    `max_conc`, which returns `true`. -/
def read (σ : Filter_state) (t : Nat) : Filter_state :=
  match σ.thds[t]? with
  | some ⟨filter_id, ⟨command, .retry id⟩ :: outer⟩ =>
    match filter_type_of command with
    | some k =>
      match find_node_by_id (σ.lists.get k) id with
      | some item =>
        σ.set_thd t ⟨filter_id,
          ⟨command, if item.cur_conc = item.max_conc then .refused
            else .cas id item.cur_conc⟩ :: outer⟩
      | none => σ
    | none => σ
  | _ => σ

/-- `__sync_bool_compare_and_swap(&(item->cur_conc), store_val, store_val + 1)`: on
    success `thd->filter_id= item->id` and `need_traffic_control` returns `false`,
    otherwise `goto retry`. -/
def cas (σ : Filter_state) (t : Nat) : Filter_state :=
  match σ.thds[t]? with
  | some ⟨filter_id, ⟨command, .cas id store_val⟩ :: outer⟩ =>
    match filter_type_of command with
    | some k =>
      match find_node_by_id (σ.lists.get k) id with
      | some item =>
        if item.cur_conc = store_val then
          { σ with lists := σ.lists.set k (update_item id (· + 1) (σ.lists.get k)),
                   thds := σ.thds.set t ⟨item.id, ⟨command, .passed⟩ :: outer⟩ }
        else σ.set_thd t ⟨filter_id, ⟨command, .retry id⟩ :: outer⟩
      | none => σ
    | none => σ
  | _ => σ

/-- The `switch (gtid_pre_statement_checks(thd))` after the admission:
    `GTID_STATEMENT_CANCEL` and `GTID_STATEMENT_SKIP` return from
    `mysql_execute_command` without reaching `finish`. -/
def gtid_checks (σ : Filter_state) (t : Nat) (status : enum_gtid_statement_status) :
    Filter_state :=
  match σ.thds[t]? with
  | some ⟨filter_id, ⟨command, .passed⟩ :: outer⟩ =>
    match status with
    | .GTID_STATEMENT_EXECUTE => σ.set_thd t ⟨filter_id, ⟨command, .running⟩ :: outer⟩
    | .GTID_STATEMENT_CANCEL | .GTID_STATEMENT_SKIP => σ.set_thd t ⟨filter_id, outer⟩
  | _ => σ

/-- The label `finish` of the innermost statement: `dec_filter_item_conc`, and the
    statement is done. -/
def finish (σ : Filter_state) (t : Nat) : Filter_state :=
  match σ.thds[t]? with
  | some ⟨filter_id, st :: outer⟩ =>
    if st.phase = .running ∨ st.phase = .refused then
      let r := dec_filter_item_conc σ.lists filter_id st.command
      { σ with lists := r.1, thds := σ.thds.set t ⟨r.2, outer⟩ }
    else σ
  | _ => σ

/-- `SET GLOBAL` of the variable of list `k` to `str`: `check_sql_filter_valid`, then
    the update function, with `LOCK_filter_list` taken for writing. -/
def set_sql_filter (σ : Filter_state) (k : filter_type) (str : List Char) : Filter_state :=
  if σ.reading then σ
  else if check_sql_filter_valid str then σ
  else
    let r := update_sql_filter k σ.lists σ.filter_item_id str
    { σ with lists := r.2.1, filter_item_id := r.2.2 }

/-- `SET GLOBAL rds_reset_all_filter = ON`: `rds_reset_all_filter_list`. -/
def reset_all_filter (σ : Filter_state) : Filter_state :=
  if σ.reading then σ else { σ with lists := Filter_lists.empty }

end Filter_state

/-- One atomic action of a session or of a `SET GLOBAL`. -/
inductive Filter_event
  | execute (t : Nat) (command : enum_sql_command) (query : List Char)
  | read (t : Nat)
  | cas (t : Nat)
  | gtid_checks (t : Nat) (status : enum_gtid_statement_status)
  | finish (t : Nat)
  | set_sql_filter (k : filter_type) (str : List Char)
  | reset_all_filter
  | set_key_cmp_in_order (b : Bool)

namespace Filter_event

def step : Filter_event → Filter_state → Filter_state
  | .execute t command query, σ => σ.execute t command query
  | .read t, σ => σ.read t
  | .cas t, σ => σ.cas t
  | .gtid_checks t status, σ => σ.gtid_checks t status
  | .finish t, σ => σ.finish t
  | .set_sql_filter k str, σ => σ.set_sql_filter k str
  | .reset_all_filter, σ => σ.reset_all_filter
  | .set_key_cmp_in_order b, σ => { σ with rds_key_cmp_in_order := b }

/-- The state after the actions `es`, in order. -/
def run (σ : Filter_state) (es : List Filter_event) : Filter_state :=
  es.foldl (fun σ e => e.step σ) σ

end Filter_event

/-! ## What one update of a counter does to the items -/

namespace filter_item

/-- The item with `f` applied to its `cur_conc` if its id is `id`. -/
def update_if (id : Int) (f : Int → Int) (item : filter_item) : filter_item :=
  if item.id = id then { item with cur_conc := f item.cur_conc } else item

@[simp] theorem id_update_if (id : Int) (f : Int → Int) (item : filter_item) :
    (update_if id f item).id = item.id := by
  unfold update_if; split <;> rfl

@[simp] theorem max_conc_update_if (id : Int) (f : Int → Int) (item : filter_item) :
    (update_if id f item).max_conc = item.max_conc := by
  unfold update_if; split <;> rfl

theorem cur_conc_update_if (id : Int) (f : Int → Int) (item : filter_item) :
    (update_if id f item).cur_conc = if item.id = id then f item.cur_conc else item.cur_conc := by
  unfold update_if; split <;> rfl

end filter_item

theorem map_update_if_of_forall_ne {id : Int} {f : Int → Int} :
    ∀ {l : List filter_item}, (∀ it ∈ l, it.id ≠ id) → l.map (filter_item.update_if id f) = l
  | [], _ => rfl
  | it :: l, h => by
    rw [List.map_cons, map_update_if_of_forall_ne (fun it' h' => h it' (List.mem_cons_of_mem _ h'))]
    simp [filter_item.update_if, h it List.mem_cons_self]

theorem update_item_of_forall_ne {id : Int} {f : Int → Int} :
    ∀ {l : List filter_item}, (∀ it ∈ l, it.id ≠ id) → update_item id f l = l
  | [], _ => rfl
  | it :: l, h => by
    rw [update_item, if_neg (h it List.mem_cons_self),
      update_item_of_forall_ne (fun it' h' => h it' (List.mem_cons_of_mem _ h'))]

/-- With the ids distinct, changing the first item with an id is changing every one. -/
theorem update_item_eq_map {id : Int} {f : Int → Int} :
    ∀ {l : List filter_item}, (l.map (·.id)).Nodup →
      update_item id f l = l.map (filter_item.update_if id f)
  | [], _ => rfl
  | it :: l, h => by
    rw [List.map_cons, List.nodup_cons] at h
    by_cases hid : it.id = id
    · -- no later item has the id
      have hrest : ∀ it' ∈ l, it'.id ≠ id := fun it' h' heq =>
        h.1 (by rw [hid, ← heq]; exact List.mem_map_of_mem h')
      rw [update_item, if_pos hid, List.map_cons, map_update_if_of_forall_ne hrest]
      simp [filter_item.update_if, hid]
    · rw [update_item, if_neg hid, List.map_cons, update_item_eq_map h.2]
      simp [filter_item.update_if, hid]

/-- With the ids of `l₁ ++ l₂` distinct, no item of `l₂` has the id of an item of `l₁`. -/
theorem forall_id_ne_of_nodup_append {l₁ l₂ : List filter_item}
    (h : ((l₁ ++ l₂).map (·.id)).Nodup) (item : filter_item) :
    (item ∈ l₁ → ∀ it ∈ l₂, it.id ≠ item.id) ∧ (item ∈ l₂ → ∀ it ∈ l₁, it.id ≠ item.id) := by
  rw [List.map_append, List.nodup_append] at h
  refine ⟨fun hitem it hit heq => ?_, fun hitem it hit heq => ?_⟩
  · exact h.2.2 _ (List.mem_map_of_mem hitem) _ (List.mem_map_of_mem hit) heq.symm
  · exact h.2.2 _ (List.mem_map_of_mem hit) _ (List.mem_map_of_mem hitem) heq

namespace Filter_lists

theorem map_id_items_set_update_item (ls : Filter_lists) (k : filter_type) (id : Int)
    (f : Int → Int) :
    (ls.set k (update_item id f (ls.get k))).items.map (·.id) = ls.items.map (·.id) := by
  have h : ∀ l : List filter_item, (update_item id f l).map (·.id) = l.map (·.id) := by
    intro l
    induction l with
    | nil => rfl
    | cons it l ih =>
      unfold update_item
      split <;> simp [ih]
  cases k <;> simp [set, get, items, h]

/-- **The counter of one item changes.** With the ids of all items distinct, changing the
    item with id `id` in the list holding it changes it among all items. -/
theorem items_set_update_item {ls : Filter_lists} {k : filter_type} {id : Int}
    {f : Int → Int} (hnd : (ls.items.map (·.id)).Nodup) {item : filter_item}
    (hitem : item ∈ ls.get k) (hid : item.id = id) :
    (ls.set k (update_item id f (ls.get k))).items = ls.items.map (filter_item.update_if id f) := by
  have hsu : ((ls.select_filter_list ++ ls.update_filter_list).map (·.id)).Nodup :=
    hnd.sublist ((List.sublist_append_left _ _).map _)
  have hall := forall_id_ne_of_nodup_append hnd item
  have hfront := forall_id_ne_of_nodup_append hsu item
  subst hid
  cases k <;> simp only [get] at hitem <;>
    simp only [set, items, get, List.map_append]
  · rw [update_item_eq_map (hsu.sublist ((List.sublist_append_left _ _).map _)),
      map_update_if_of_forall_ne (hfront.1 hitem),
      map_update_if_of_forall_ne (hall.1 (List.mem_append_left _ hitem))]
  · rw [update_item_eq_map (hsu.sublist ((List.sublist_append_right _ _).map _)),
      map_update_if_of_forall_ne (hfront.2 hitem),
      map_update_if_of_forall_ne (hall.1 (List.mem_append_right _ hitem))]
  · have hd : (ls.delete_filter_list.map (·.id)).Nodup :=
      hnd.sublist ((List.sublist_append_right _ _).map _)
    have hsu' := hall.2 hitem
    rw [update_item_eq_map hd,
      map_update_if_of_forall_ne (fun it hit => hsu' it (List.mem_append_left _ hit)),
      map_update_if_of_forall_ne (fun it hit => hsu' it (List.mem_append_right _ hit))]

end Filter_lists

theorem find_node_by_id_eq_some {l : List filter_item} {id : Int} {item : filter_item}
    (h : find_node_by_id l id = some item) : item ∈ l ∧ item.id = id := by
  unfold find_node_by_id at h
  exact ⟨List.mem_of_find?_eq_some h, by simpa using List.find?_some h⟩

theorem need_traffic_control_ne_cas (ls : Filter_lists) (in_order : Bool) (sql : List Char)
    (command : enum_sql_command) (id v : Int) :
    need_traffic_control ls in_order sql command ≠ .cas id v := by
  unfold need_traffic_control
  split
  · nofun
  · split
    · nofun
    · split
      · nofun
      · split <;> nofun

theorem Filter_lists.set_get (ls : Filter_lists) (k : filter_type) : ls.set k (ls.get k) = ls := by
  cases k <;> rfl

/-! ## The invariant -/

/-- The number of sessions whose `filter_id` is `id`. -/
def holders (thds : List Thd) (id : Int) : Nat := (thds.map (·.filter_id)).count id

/-- Changing one session changes the count of its old and of its new `filter_id`. -/
theorem holders_set {thds : List Thd} {t : Nat} {thd : Thd} (ht : thds[t]? = some thd)
    (thd' : Thd) (id : Int) :
    (holders (thds.set t thd') id : Int) =
      holders thds id - (if thd.filter_id = id then 1 else 0) +
        (if thd'.filter_id = id then 1 else 0) := by
  have hmap : (thds.map (·.filter_id))[t]? = some thd.filter_id := by
    rw [List.getElem?_map, ht]; rfl
  obtain ⟨hlt, hget⟩ := List.getElem?_eq_some_iff.mp hmap
  have hpos : thd.filter_id = id → 1 ≤ holders thds id := fun h =>
    List.count_pos_iff.mpr (h ▸ List.mem_of_getElem? hmap)
  unfold holders at hpos ⊢
  rw [List.map_set, List.count_set hlt, hget]
  by_cases h1 : thd.filter_id = id
  · have := hpos h1
    by_cases h2 : thd'.filter_id = id <;> simp [h1, h2] <;> omega
  · by_cases h2 : thd'.filter_id = id <;> simp [h1, h2]

/-- What the lists keep whatever the sessions do: ids positive, handed out and distinct,
    and no counter above its maximum. -/
structure Filter_lists.Ok (ls : Filter_lists) (filter_item_id : Int) : Prop where
  id_pos : ∀ it ∈ ls.items, 0 < it.id
  id_le : ∀ it ∈ ls.items, it.id ≤ filter_item_id
  nodup : (ls.items.map (·.id)).Nodup
  bounded : ∀ it ∈ ls.items, it.cur_conc ≤ it.max_conc

theorem Filter_lists.Ok.eq_of_id_eq {ls : Filter_lists} {n : Int} (h : ls.Ok n)
    {it it' : filter_item} (hit : it ∈ ls.items) (hit' : it' ∈ ls.items) (hid : it.id = it'.id) :
    it = it' :=
  List.inj_on_of_nodup_map h.nodup hit hit' hid

/-- No CAS is pending on a counter at its maximum. -/
def Pending_ok (items : List filter_item) (stmts : List Stmt) : Prop :=
  ∀ st ∈ stmts, ∀ id v, st.phase = .cas id v → ∀ it ∈ items, it.id = id → v ≠ it.max_conc

/-- **The admission invariant.** Every item counts at least the sessions whose
    `filter_id` names it, and every CAS still to come was read below the maximum. -/
structure Filter_state.Inv (σ : Filter_state) : Prop where
  counter_nonneg : 0 ≤ σ.filter_item_id
  lists : σ.lists.Ok σ.filter_item_id
  filter_id_le : ∀ thd ∈ σ.thds, thd.filter_id ≤ σ.filter_item_id
  counted : ∀ it ∈ σ.lists.items, (holders σ.thds it.id : Int) ≤ it.cur_conc
  pending : ∀ thd ∈ σ.thds, Pending_ok σ.lists.items thd.stmts

theorem Filter_state.inv_init (n : Nat) : (Filter_state.init n).Inv where
  counter_nonneg := Int.le_refl _
  lists := ⟨nofun, nofun, List.nodup_nil, nofun⟩
  filter_id_le thd h := by
    rw [List.eq_of_mem_replicate h]
    exact Int.le_refl _
  counted := nofun
  pending thd h := by
    rw [List.eq_of_mem_replicate h]
    exact nofun

namespace Filter_state.Inv

variable {σ : Filter_state}

/-- **Frame.** A session that keeps its `filter_id` and starts no CAS on a full counter
    keeps the invariant. -/
theorem set_thd (h : σ.Inv) {t : Nat} {thd thd' : Thd} (ht : σ.thds[t]? = some thd)
    (hf : thd'.filter_id = thd.filter_id) (hp : Pending_ok σ.lists.items thd'.stmts) :
    (σ.set_thd t thd').Inv where
  counter_nonneg := h.counter_nonneg
  lists := h.lists
  filter_id_le thd'' hmem := by
    rcases List.mem_or_eq_of_mem_set hmem with hmem | rfl
    · exact h.filter_id_le thd'' hmem
    · rw [hf]
      exact h.filter_id_le thd (List.mem_of_getElem? ht)
  counted it hit := by
    have hs := holders_set ht thd' it.id
    rw [hf] at hs
    have := h.counted it hit
    show (holders (σ.thds.set t thd') it.id : Int) ≤ it.cur_conc
    omega
  pending thd'' hmem := by
    rcases List.mem_or_eq_of_mem_set hmem with hmem | rfl
    · exact h.pending thd'' hmem
    · exact hp

theorem pending_of_mem (h : σ.Inv) {t : Nat} {thd : Thd} (ht : σ.thds[t]? = some thd) :
    Pending_ok σ.lists.items thd.stmts :=
  h.pending thd (List.mem_of_getElem? ht)

theorem pending_tail {items : List filter_item} {st : Stmt} {stmts : List Stmt}
    (h : Pending_ok items (st :: stmts)) : Pending_ok items stmts :=
  fun st' hst => h st' (List.mem_cons_of_mem _ hst)

theorem pending_cons {items : List filter_item} {st : Stmt} {stmts : List Stmt}
    (hst : ∀ id v, st.phase ≠ .cas id v) (h : Pending_ok items stmts) :
    Pending_ok items (st :: stmts) := by
  intro st' hmem id v hph
  rcases List.mem_cons.mp hmem with rfl | hmem
  · exact absurd hph (hst id v)
  · exact h st' hmem id v hph

end Filter_state.Inv

namespace Filter_state

/-- With no session in the retry loop there is no CAS to come. -/
theorem not_cas_of_reading_eq_false {σ : Filter_state} (h : σ.reading = false) {thd : Thd}
    (hthd : thd ∈ σ.thds) {st : Stmt} (hst : st ∈ thd.stmts) (id v : Int) :
    st.phase ≠ .cas id v := by
  intro hph
  unfold reading at h
  rw [List.any_eq_false] at h
  have hthd' := h thd hthd
  rw [Bool.not_eq_true, List.any_eq_false] at hthd'
  exact hthd' st hst (by rw [hph]; rfl)

end Filter_state

namespace Filter_state.Inv

variable {σ : Filter_state}

/-- A session whose `filter_id` is cleared keeps the invariant: it was counted, if at all,
    by an item that stays. -/
theorem clear (h : σ.Inv) {t : Nat} {thd : Thd} (ht : σ.thds[t]? = some thd) {stmts : List Stmt}
    (hp : Pending_ok σ.lists.items stmts) : (σ.set_thd t ⟨0, stmts⟩).Inv where
  counter_nonneg := h.counter_nonneg
  lists := h.lists
  filter_id_le thd'' hmem := by
    rcases List.mem_or_eq_of_mem_set hmem with hmem | rfl
    · exact h.filter_id_le thd'' hmem
    · exact h.counter_nonneg
  counted it hit := by
    have hs := holders_set ht ⟨0, stmts⟩ it.id
    have hpos := h.lists.id_pos it hit
    have := h.counted it hit
    show (holders (σ.thds.set t ⟨0, stmts⟩) it.id : Int) ≤ it.cur_conc
    simp only [show ¬ (0 : Int) = it.id by omega, if_false] at hs
    split_ifs at hs <;> omega
  pending thd'' hmem := by
    rcases List.mem_or_eq_of_mem_set hmem with hmem | rfl
    · exact h.pending thd'' hmem
    · exact hp

/-- **One counter moves.** The counter of `item`, in list `k`, becomes `f` of itself
    while session `t` becomes `thd'`: the invariant holds after it when the new counter
    stays within the maximum and counts the sessions naming the item, and no other item
    gains a session. -/
theorem update (h : σ.Inv) {t : Nat} {thd' : Thd} {k : filter_type} {item : filter_item} (hitem : item ∈ σ.lists.get k) {f : Int → Int}
    (hcount : (holders (σ.thds.set t thd') item.id : Int) ≤ f item.cur_conc)
    (hmax : f item.cur_conc ≤ item.max_conc)
    (hother : ∀ it ∈ σ.lists.items, it.id ≠ item.id →
      holders (σ.thds.set t thd') it.id ≤ holders σ.thds it.id)
    (hfid : thd'.filter_id ≤ σ.filter_item_id) (hp : Pending_ok σ.lists.items thd'.stmts) :
    ({ σ with lists := σ.lists.set k (update_item item.id f (σ.lists.get k)),
               thds := σ.thds.set t thd' } : Filter_state).Inv := by
  have hitem' := σ.lists.mem_items_of_get hitem
  have hitems := Filter_lists.items_set_update_item (f := f) h.lists.nodup hitem rfl
  have hmem : ∀ it' ∈ (σ.lists.set k (update_item item.id f (σ.lists.get k))).items,
      ∃ it ∈ σ.lists.items, filter_item.update_if item.id f it = it' := by
    intro it' h'
    rw [hitems] at h'
    exact List.mem_map.mp h'
  -- `update_if` keeps ids and maxima, so what was pending stays pending
  have hpend : ∀ stmts, Pending_ok σ.lists.items stmts →
      Pending_ok (σ.lists.set k (update_item item.id f (σ.lists.get k))).items stmts := by
    intro stmts hp st hst id v hph it' hit' hid
    obtain ⟨it, hit, rfl⟩ := hmem it' hit'
    rw [filter_item.max_conc_update_if]
    exact hp st hst id v hph it hit (by rw [← hid, filter_item.id_update_if])
  refine ⟨h.counter_nonneg, ⟨?_, ?_, ?_, ?_⟩, ?_, ?_, ?_⟩
  · intro it' hit'
    obtain ⟨it, hit, rfl⟩ := hmem it' hit'
    rw [filter_item.id_update_if]
    exact h.lists.id_pos it hit
  · intro it' hit'
    obtain ⟨it, hit, rfl⟩ := hmem it' hit'
    rw [filter_item.id_update_if]
    exact h.lists.id_le it hit
  · show ((σ.lists.set k (update_item item.id f (σ.lists.get k))).items.map (·.id)).Nodup
    rw [Filter_lists.map_id_items_set_update_item]
    exact h.lists.nodup
  · intro it' hit'
    obtain ⟨it, hit, rfl⟩ := hmem it' hit'
    rw [filter_item.cur_conc_update_if, filter_item.max_conc_update_if]
    split_ifs with hid
    · obtain rfl := h.lists.eq_of_id_eq hit hitem' hid
      exact hmax
    · exact h.lists.bounded it hit
  · intro thd'' hmem'
    rcases List.mem_or_eq_of_mem_set hmem' with hmem' | rfl
    · exact h.filter_id_le thd'' hmem'
    · exact hfid
  · intro it' hit'
    obtain ⟨it, hit, rfl⟩ := hmem it' hit'
    dsimp only
    rw [filter_item.cur_conc_update_if, filter_item.id_update_if]
    split_ifs with hid
    · obtain rfl := h.lists.eq_of_id_eq hit hitem' hid
      exact hcount
    · have := hother it hit hid
      have := h.counted it hit
      omega
  · intro thd'' hmem'
    rcases List.mem_or_eq_of_mem_set hmem' with hmem' | rfl
    · exact hpend _ (h.pending thd'' hmem')
    · exact hpend _ hp

theorem execute (h : σ.Inv) (t : Nat) (command : enum_sql_command) (query : List Char) :
    (σ.execute t command query).Inv := by
  unfold Filter_state.execute
  split
  · rename_i thd ht
    split
    · exact h.set_thd ht rfl
        (pending_cons (need_traffic_control_ne_cas _ _ _ _) (h.pending_of_mem ht))
    · exact h
  · exact h

theorem read (h : σ.Inv) (t : Nat) : (σ.read t).Inv := by
  unfold Filter_state.read
  split
  · rename_i filter_id command id outer ht
    have hp := pending_tail (h.pending_of_mem ht)
    split
    · split
      · rename_i item hfind
        obtain ⟨hitem, hid⟩ := find_node_by_id_eq_some hfind
        refine h.set_thd ht rfl ?_
        split_ifs with hmax
        · exact pending_cons (fun _ _ => nofun) hp
        · -- the CAS to come was read below the maximum of the one item with this id
          refine fun st hst id' v hph it hit hid' => ?_
          rcases List.mem_cons.mp hst with rfl | hst
          · obtain ⟨rfl, rfl⟩ := Stmt_phase.cas.inj hph
            obtain rfl := h.lists.eq_of_id_eq hit (σ.lists.mem_items_of_get hitem)
              (hid'.trans hid.symm)
            exact hmax
          · exact hp st hst id' v hph it hit hid'
      · exact h
    · exact h
  · exact h

theorem cas (h : σ.Inv) (t : Nat) : (σ.cas t).Inv := by
  unfold Filter_state.cas
  split
  · rename_i filter_id command id store_val outer ht
    have hp := h.pending_of_mem ht
    split
    · split
      · rename_i item hfind
        obtain ⟨hitem, rfl⟩ := find_node_by_id_eq_some hfind
        have hitem' := σ.lists.mem_items_of_get hitem
        split
        · rename_i hcur
          -- counted in: the session now names the item
          have hs := holders_set ht ⟨item.id, ⟨command, .passed⟩ :: outer⟩
          have hne : store_val ≠ item.max_conc :=
            hp _ List.mem_cons_self _ _ rfl item hitem' rfl
          refine h.update hitem ?_ ?_ ?_ (h.lists.id_le item hitem')
            (pending_cons (fun _ _ => nofun) (pending_tail hp))
          · have hs' := hs item.id
            have := h.counted item hitem'
            dsimp only at hs'
            split_ifs at hs' <;> omega
          · have := h.lists.bounded item hitem'
            omega
          · intro it hit hne'
            have hs' := hs it.id
            dsimp only at hs'
            split_ifs at hs' <;> omega
        · exact h.set_thd ht rfl (pending_cons (fun _ _ => nofun) (pending_tail hp))
      · exact h
    · exact h
  · exact h

theorem gtid_checks (h : σ.Inv) (t : Nat) (status : enum_gtid_statement_status) :
    (σ.gtid_checks t status).Inv := by
  unfold Filter_state.gtid_checks
  split
  · rename_i filter_id command outer ht
    have hp := pending_tail (h.pending_of_mem ht)
    split
    · exact h.set_thd ht rfl (pending_cons (fun _ _ => nofun) hp)
    · exact h.set_thd ht rfl hp
    · exact h.set_thd ht rfl hp
  · exact h

theorem finish (h : σ.Inv) (t : Nat) : (σ.finish t).Inv := by
  unfold Filter_state.finish
  split
  · rename_i filter_id st outer ht
    have hp := pending_tail (h.pending_of_mem ht)
    split
    · unfold dec_filter_item_conc
      split
      · exact h.set_thd ht rfl hp
      · rename_i h0
        split
        · exact h.clear ht hp
        · rename_i k hk
          by_cases hx : ∃ item ∈ σ.lists.get k, item.id = filter_id
          · obtain ⟨item, hitem, rfl⟩ := hx
            have hitem' := σ.lists.mem_items_of_get hitem
            -- counted out: the session names the item no more
            have hs := holders_set ht ⟨0, outer⟩
            have hpos := h.lists.id_pos item hitem'
            refine h.update hitem ?_ ?_ ?_ h.counter_nonneg hp
            · have hs' := hs item.id
              have := h.counted item hitem'
              dsimp only at hs' ⊢
              split_ifs at hs' <;> omega
            · have := h.lists.bounded item hitem'
              omega
            · intro it hit hne'
              have hs' := hs it.id
              have := h.lists.id_pos it hit
              dsimp only at hs' ⊢
              split_ifs at hs' <;> omega
          · rw [update_item_of_forall_ne (fun it hit heq => hx ⟨it, hit, heq⟩),
              Filter_lists.set_get]
            exact h.clear ht hp
    · exact h
  · exact h

/-- A counter handed out further up keeps the invariant. -/
theorem raise (h : σ.Inv) {n : Int} (hn : σ.filter_item_id ≤ n) :
    ({ σ with filter_item_id := n } : Filter_state).Inv where
  counter_nonneg := Int.le_trans h.counter_nonneg hn
  lists := ⟨h.lists.id_pos, fun it hit => Int.le_trans (h.lists.id_le it hit) hn, h.lists.nodup,
    h.lists.bounded⟩
  filter_id_le thd hthd := Int.le_trans (h.filter_id_le thd hthd) hn
  counted := h.counted
  pending := h.pending

/-- Removing items keeps the invariant. -/
theorem shrink (h : σ.Inv) {k : filter_type} {l : List filter_item}
    (hsub : l.Sublist (σ.lists.get k)) : ({ σ with lists := σ.lists.set k l } : Filter_state).Inv := by
  have hs := Filter_lists.items_set_sublist hsub
  exact ⟨h.counter_nonneg,
    ⟨fun it hit => h.lists.id_pos it (hs.subset hit), fun it hit => h.lists.id_le it (hs.subset hit),
      h.lists.nodup.sublist (hs.map _), fun it hit => h.lists.bounded it (hs.subset hit)⟩,
    h.filter_id_le, fun it hit => h.counted it (hs.subset hit),
    fun thd hthd st hst id v hph it hit => h.pending thd hthd st hst id v hph it (hs.subset hit)⟩

/-- An item with the next id, no statement counted and a maximum of at least 0, put in
    front of a list while no session is in the retry loop, keeps the invariant. -/
theorem add (h : σ.Inv) (hread : σ.reading = false) {k : filter_type} {item : filter_item}
    (hid : item.id = σ.filter_item_id + 1) (hcur : item.cur_conc = 0) (hmax : 0 ≤ item.max_conc) :
    ({ σ with lists := σ.lists.set k (item :: σ.lists.get k),
               filter_item_id := σ.filter_item_id + 1 } : Filter_state).Inv := by
  have hperm := Filter_lists.items_set_cons_perm σ.lists k item
  have hmem : ∀ it ∈ (σ.lists.set k (item :: σ.lists.get k)).items, it = item ∨ it ∈ σ.lists.items :=
    fun it hit => List.mem_cons.mp (hperm.mem_iff.mp hit)
  -- no session names the new id: they all name ids handed out before
  have hfresh : holders σ.thds item.id = 0 := by
    refine List.count_eq_zero.mpr fun hm => ?_
    obtain ⟨thd, hthd, heq⟩ := List.mem_map.mp hm
    have := h.filter_id_le thd hthd
    omega
  have hn := h.counter_nonneg
  refine ⟨show 0 ≤ σ.filter_item_id + 1 by omega, ⟨?_, ?_, ?_, ?_⟩, ?_, ?_, ?_⟩
  · intro it hit
    rcases hmem it hit with rfl | hit
    · omega
    · exact h.lists.id_pos it hit
  · intro it hit
    show it.id ≤ σ.filter_item_id + 1
    rcases hmem it hit with rfl | hit
    · exact Int.le_of_eq hid
    · have := h.lists.id_le it hit
      omega
  · show ((σ.lists.set k (item :: σ.lists.get k)).items.map (·.id)).Nodup
    rw [(hperm.map _).nodup_iff, List.map_cons, List.nodup_cons]
    refine ⟨fun hm => ?_, h.lists.nodup⟩
    obtain ⟨it, hit, heq⟩ := List.mem_map.mp hm
    have := h.lists.id_le it hit
    omega
  · intro it hit
    rcases hmem it hit with rfl | hit
    · rw [hcur]; exact hmax
    · exact h.lists.bounded it hit
  · intro thd hthd
    have := h.filter_id_le thd hthd
    show thd.filter_id ≤ σ.filter_item_id + 1
    omega
  · intro it hit
    rcases hmem it hit with rfl | hit
    · rw [hfresh, hcur]
      simp
    · exact h.counted it hit
  · intro thd hthd st hst id v hph
    exact absurd hph (Filter_state.not_cas_of_reading_eq_false hread hthd hst id v)

theorem set_sql_filter (h : σ.Inv) (k : filter_type) (str : List Char) :
    (σ.set_sql_filter k str).Inv := by
  unfold Filter_state.set_sql_filter
  split
  · exact h
  · rename_i hread
    split
    · exact h
    · rename_i hcheck
      have hup : update_sql_filter k σ.lists σ.filter_item_id str =
          update_filter_list σ.lists k σ.filter_item_id str := by
        cases k <;> rfl
      dsimp only
      rw [hup]
      rcases update_filter_list_cases σ.lists k σ.filter_item_id str with
        ⟨hl, hn⟩ | ⟨l, hsub, hl, hn⟩ | ⟨item, hitem, hl, hn⟩
      · rw [hl]
        exact h.raise hn
      · rw [hl, hn]
        exact h.shrink hsub
      · obtain ⟨hid, hcur, -, -⟩ := create_filter_item_spec hitem
        rw [hl, hn]
        exact h.add (by simpa using hread) hid hcur
          (create_filter_item_max_conc_nonneg (by simpa using hcheck) hitem)

theorem reset_all_filter (h : σ.Inv) : σ.reset_all_filter.Inv := by
  unfold Filter_state.reset_all_filter
  split
  · exact h
  · exact ⟨h.counter_nonneg, ⟨nofun, nofun, List.nodup_nil, nofun⟩, h.filter_id_le, nofun,
      fun thd hthd st hst id v hph it hit => nomatch hit⟩

/-- **Every action keeps the invariant.** -/
theorem step (h : σ.Inv) : ∀ e : Filter_event, (e.step σ).Inv
  | .execute t command query => h.execute t command query
  | .read t => h.read t
  | .cas t => h.cas t
  | .gtid_checks t status => h.gtid_checks t status
  | .finish t => h.finish t
  | .set_sql_filter k str => h.set_sql_filter k str
  | .reset_all_filter => h.reset_all_filter
  | .set_key_cmp_in_order _ => ⟨h.counter_nonneg, h.lists, h.filter_id_le, h.counted, h.pending⟩

end Filter_state.Inv

theorem Filter_event.run_inv : ∀ (es : List Filter_event) {σ : Filter_state}, σ.Inv →
    (Filter_event.run σ es).Inv
  | [], _, h => h
  | e :: es, _, h => run_inv es (h.step e)

/-- `SET GLOBAL rds_sql_select_filter = '+,2,SELECT'` and
    `SET GLOBAL rds_sql_update_filter = '+,1,UPDATE'`: items 1 and 2. -/
def filter_setup : List Filter_event :=
  [.set_sql_filter .select "+,2,SELECT".toList, .set_sql_filter .update "+,1,UPDATE".toList]

/-- `SELECT f()`, where the stored function `f` runs `SELECT a FROM t`: both match item 1
    and both are admitted. -/
def nested_select_run : List Filter_event :=
  [.execute 0 .SQLCOM_SELECT "SELECT f()".toList, .read 0, .cas 0,
   .gtid_checks 0 .GTID_STATEMENT_EXECUTE,
   .execute 0 .SQLCOM_SELECT "SELECT a FROM t".toList, .read 0, .cas 0,
   .gtid_checks 0 .GTID_STATEMENT_EXECUTE,
   .finish 0, .finish 0]

/-- An `UPDATE` that item 2 admits and `gtid_pre_statement_checks` then skips, as it does
    for a `gtid_next` already executed. -/
def gtid_skip_run : List Filter_event :=
  [.execute 0 .SQLCOM_UPDATE "UPDATE t SET a = 1".toList, .read 0, .cas 0,
   .gtid_checks 0 .GTID_STATEMENT_SKIP]

/-- **The count outlives the statements.** After the nested `SELECT`, no statement is
    running and no session's `filter_id` names item 1, yet it counts one statement: the
    inner statement's `dec_filter_item_conc` took off the outer admission and cleared
    `filter_id`, so the outer `finish` took nothing off. After the skipped `UPDATE`, no
    statement is running and item 2 counts one, at its maximum: every further matching
    `UPDATE` is refused. -/
theorem admission_count_leaks :
    (Filter_event.run (Filter_state.init 1) (filter_setup ++ nested_select_run)).thds =
        [⟨0, []⟩] ∧
      (Filter_event.run (Filter_state.init 1)
        (filter_setup ++ nested_select_run)).lists.select_filter_list.map (·.cur_conc) = [1] ∧
      (Filter_event.run (Filter_state.init 1) (filter_setup ++ gtid_skip_run)).thds =
        [⟨2, []⟩] ∧
      (Filter_event.run (Filter_state.init 1)
        (filter_setup ++ gtid_skip_run)).lists.update_filter_list.map (·.cur_conc) = [1] ∧
      (Filter_event.run (Filter_state.init 1)
        (filter_setup ++ gtid_skip_run ++
          [.execute 0 .SQLCOM_UPDATE "UPDATE t SET a = 2".toList, .read 0])).thds =
        [⟨2, [⟨.SQLCOM_UPDATE, .refused⟩]⟩] := by
  decide

/-- With `'+,1,SELECT'`, the inner `SELECT` of `SELECT f()` is refused, and its
    `finish` takes the outer admission off while the outer statement still runs: a
    second session's `SELECT` is then admitted too, and two matching statements run
    under a maximum of one. -/
example :
    (Filter_event.run (Filter_state.init 2)
      [.set_sql_filter .select "+,1,SELECT".toList,
       .execute 0 .SQLCOM_SELECT "SELECT f()".toList, .read 0, .cas 0,
       .gtid_checks 0 .GTID_STATEMENT_EXECUTE,
       .execute 0 .SQLCOM_SELECT "SELECT a FROM t".toList, .read 0, .finish 0,
       .execute 1 .SQLCOM_SELECT "SELECT b FROM t".toList, .read 1, .cas 1,
       .gtid_checks 1 .GTID_STATEMENT_EXECUTE]).thds =
      [⟨0, [⟨.SQLCOM_SELECT, .running⟩]⟩, ⟨1, [⟨.SQLCOM_SELECT, .running⟩]⟩] := by
  decide

end AliSql

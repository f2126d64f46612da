import Mathlib
import AliSql.Libc.Basic

/-!
# SQL filter items and the three filter lists

`sql/sql_filter.cc` keeps three lists of *filter items*, one for `SELECT`, one for `UPDATE`
and one for `DELETE`. An item is a maximum concurrency and a list of key words; a
statement whose text contains every key word of an item is let through only while fewer
than that many statements matched the item run. The lists change only through
`SET GLOBAL rds_sql_{select,update,delete}_filter` and `SET GLOBAL rds_reset_all_filter`
(`sql/sys_vars.cc`), whose update functions run with `LOCK_filter_list` held for writing.

This module models the items and what those `SET` statements do to the lists:

* `check_sql_filter_valid`, the `ON_CHECK` of the three variables, which refuses a value
  unless it is `+,N,key~key…` or `-,id,id…`;
* `create_filter_item`, `add_filter_item`, `delete_filter_item` and
  `free_item_by_id`, over a list of items, newest first as `list_add` links them;
* `update_select_filter`, `update_update_filter`, `update_delete_filter`: one
  function, `update_filter_list`, applied to the list each variable names.

Items are told apart by their `id`, which the global counter `filter_item_id` hands out
increasing from 1; an item's pointer is modelled by its `id`. The `int` counter is not
wrapped: that would take 2^31 items. Allocation failures (`my_malloc` with `MY_FAE`
aborts the server) and the `DBUG_EXECUTE_IF` error injections are left out, and so is
`orig_str`, which only the `INFORMATION_SCHEMA` listing reads.
-/

set_option autoImplicit false

namespace AliSql

open Libc

/-- `SQL_FILTER_STR_LEN` (`sql/sql_const.h`). -/
def SQL_FILTER_STR_LEN : Nat := 10240

/-- `MAX_KEY_WORDS` (`sql/sql_filter.h`). -/
def MAX_KEY_WORDS : Nat := 128

/-- `SQL_FILTER_SPLIT`, which separates the key words of an item. -/
def SQL_FILTER_SPLIT : Char := '~'

/-- `struct filter_item`; `key_num` is the length of `key_array`. -/
structure filter_item where
  id : Int
  max_conc : Int
  cur_conc : Int
  key_array : List (List Char)
deriving DecidableEq, Repr

/-! ## `check_sql_filter_valid` -/

/-- The loop of `check_sql_filter_valid` after the number: `true` (refused) for an empty
    field between two separators, a non-digit in a list of ids, a last field of spaces
    only, or `MAX_KEY_WORDS` separators or more. -/
def check_sql_filter_valid.scan (op split_char : Char) :
    List Char → Bool → Nat → Bool
  | [], all_space, comma_count => all_space || decide (MAX_KEY_WORDS ≤ comma_count)
  | c :: s, all_space, comma_count =>
    if c = split_char then
      if all_space then true else scan op split_char s true (comma_count + 1)
    else if op = '-' ∧ isdigit c = false then true
    else scan op split_char s (all_space && c = ' ') comma_count

/-- `check_sql_filter_valid(str)`: `false` when `str` may be stored. An empty value is
    accepted here and ignored by the update functions. -/
def check_sql_filter_valid (str : List Char) : Bool :=
  match str with
  | [] => false
  | op :: rest =>
    if SQL_FILTER_STR_LEN ≤ str.length then true
    else match rest with
      | ',' :: s =>
        if op ≠ '-' ∧ op ≠ '+' then true
        else
          let (digits, after) := s.span isdigit
          if digits = [] then true
          else if op = '-' ∧ after = [] then false
          else match after with
            | ',' :: tail =>
              check_sql_filter_valid.scan op (if op = '-' then ',' else SQL_FILTER_SPLIT)
                tail true 0
            | _ => true
      | _ => true

example : check_sql_filter_valid "+,2,tb1~ a= 13".toList = false := by decide
example : check_sql_filter_valid "-,3,5,6".toList = false := by decide
example : check_sql_filter_valid "+,1,~".toList = true := by decide
example : check_sql_filter_valid "+,x,t".toList = true := by decide

/-- A value `check_sql_filter_valid` accepts is empty or starts with an operator, a comma
    and a digit. -/
theorem check_sql_filter_valid_eq_false {str : List Char}
    (h : check_sql_filter_valid str = false) :
    str = [] ∨ ∃ op s, str = op :: ',' :: s ∧ isdigit (peek s) = true := by
  rcases str with _ | ⟨op, _ | ⟨c, s⟩⟩
  · exact Or.inl rfl
  · simp [check_sql_filter_valid] at h
  · by_cases hc : c = ','
    · subst hc
      refine Or.inr ⟨op, s, rfl, ?_⟩
      -- the number after the comma has a first digit
      cases s with
      | nil => simp [check_sql_filter_valid, List.span_eq_takeWhile_dropWhile] at h
      | cons d s =>
        by_contra hd
        simp only [peek_cons, Bool.not_eq_true] at hd
        simp [check_sql_filter_valid, List.span_eq_takeWhile_dropWhile, hd] at h
    · simp [check_sql_filter_valid, hc] at h

/-! ## Items and the list operations -/

/-- `create_filter_item(item_str)`, with `filter_item_id` the counter before its
    increment: the concurrency is the number after `"+,"`, the key words are the text
    after the next comma cut at every `SQL_FILTER_SPLIT` (the `strstr` loop is
    `List.splitOn`). `none` stands for the `NULL` a missing comma would make `begin`,
    which `check_sql_filter_valid` rules out. -/
def create_filter_item (filter_item_id : Int) (item_str : List Char) : Option filter_item :=
  match strstr (item_str.drop 3) [','] with
  | none => none
  | some b =>
    some { id := filter_item_id + 1, max_conc := atoll (item_str.drop 2), cur_conc := 0,
           key_array := (b.drop 1).splitOn SQL_FILTER_SPLIT }

example : create_filter_item 4 "+,2,tb1~ a= 13".toList =
    some ⟨5, 2, 0, ["tb1".toList, " a= 13".toList]⟩ := by decide

/-- What `create_filter_item` makes: the next id, no statement counted, and the number
    after `"+,"` as maximum. -/
theorem create_filter_item_spec {n : Int} {str : List Char} {item : filter_item}
    (h : create_filter_item n str = some item) :
    item.id = n + 1 ∧ item.cur_conc = 0 ∧ item.max_conc = atoll (str.drop 2) ∧ str ≠ [] := by
  unfold create_filter_item at h
  split at h
  · cases h
  · rename_i b hb
    cases h
    refine ⟨rfl, rfl, rfl, ?_⟩
    rintro rfl
    simp [strstr] at hb

/-- An item made from a value `check_sql_filter_valid` accepts has a maximum of at least 0. -/
theorem create_filter_item_max_conc_nonneg {n : Int} {str : List Char} {item : filter_item}
    (hcheck : check_sql_filter_valid str = false) (h : create_filter_item n str = some item) :
    0 ≤ item.max_conc := by
  obtain ⟨-, -, hmax, hne⟩ := create_filter_item_spec h
  rcases check_sql_filter_valid_eq_false hcheck with rfl | ⟨op, s, rfl, hs⟩
  · exact absurd rfl hne
  · rw [hmax]
    exact atoll_nonneg hs

/-- `add_filter_item`: `list_add` links the new node in front. -/
def add_filter_item (filter_list : List filter_item) (item : filter_item) : List filter_item :=
  item :: filter_list

/-- `find_node_by_id`: the first item with the id. -/
def find_node_by_id (filter_list : List filter_item) (item_id : Int) : Option filter_item :=
  filter_list.find? (fun item => item.id = item_id)

/-- `free_item_by_id`: `list_delete` of the node `find_node_by_id` finds. -/
def free_item_by_id (filter_list : List filter_item) (id : Int) : List filter_item :=
  filter_list.eraseP (fun item => item.id = id)

/-- The loop of `delete_filter_item`: `begin` is at the character before an id (the comma
    after the `-`, then each comma `strstr` finds); the id is what `atoi` reads after it. -/
def delete_filter_item.loop : List Char → List filter_item → List filter_item
  | [], filter_list => filter_list
  | _ :: b, filter_list =>
    match _h : strstr b [','] with
    | none => free_item_by_id filter_list (atoi b)
    | some b' => loop b' (free_item_by_id filter_list (atoi b))
termination_by b => b.length
decreasing_by
  have := (strstr_eq_some ‹_›).1.length_le
  simp only [List.length_cons]
  omega

/-- `delete_filter_item(filter_list, item_str)` for `item_str` of the form `-,id,id…`. -/
def delete_filter_item (filter_list : List filter_item) (item_str : List Char) :
    List filter_item :=
  if filter_list = [] then [] else delete_filter_item.loop (item_str.drop 1) filter_list

/-- Deleting only removes items. -/
theorem delete_filter_item.loop_sublist :
    ∀ (b : List Char) (filter_list : List filter_item),
      (delete_filter_item.loop b filter_list).Sublist filter_list
  | [], _ => by simp [delete_filter_item.loop]
  | _ :: b, filter_list => by
    rw [delete_filter_item.loop]
    split
    · exact List.eraseP_sublist
    · exact (loop_sublist _ _).trans List.eraseP_sublist
termination_by b => b.length
decreasing_by
  have := (strstr_eq_some ‹_›).1.length_le
  simp only [List.length_cons]
  omega

theorem delete_filter_item_sublist (filter_list : List filter_item) (item_str : List Char) :
    (delete_filter_item filter_list item_str).Sublist filter_list := by
  unfold delete_filter_item
  split
  · exact List.nil_sublist _
  · exact delete_filter_item.loop_sublist _ _

/-- **An id past the range of `int` deletes another item.** `-,4294967297` is a valid
    value, but `atoi` cuts `2^32 + 1` to the `int` 1, so `delete_filter_item` removes the
    item with id 1, which the value does not list. -/
theorem delete_filter_item_int_wrap :
    check_sql_filter_valid "-,4294967297".toList = false ∧
      delete_filter_item [⟨2, 1, 0, ["t2".toList]⟩, ⟨1, 1, 0, ["t1".toList]⟩]
        "-,4294967297".toList = [⟨2, 1, 0, ["t2".toList]⟩] := by
  refine ⟨by decide, ?_⟩
  -- one round of the loop: no comma follows the id
  rw [delete_filter_item, if_neg (by decide)]
  rw [show "-,4294967297".toList.drop 1 = ',' :: "4294967297".toList from rfl,
    delete_filter_item.loop]
  decide

/-! ## The three lists -/

/-- The lists a statement can be filtered by. -/
inductive filter_type
  | select
  | update
  | delete
deriving DecidableEq, Repr

/-- `select_filter_list`, `update_filter_list` and `delete_filter_list`. -/
structure Filter_lists where
  select_filter_list : List filter_item
  update_filter_list : List filter_item
  delete_filter_list : List filter_item
deriving DecidableEq, Repr

namespace Filter_lists

/-- All three lists empty, as at startup and after `rds_reset_all_filter`. -/
def empty : Filter_lists := ⟨[], [], []⟩

def get (ls : Filter_lists) : filter_type → List filter_item
  | .select => ls.select_filter_list
  | .update => ls.update_filter_list
  | .delete => ls.delete_filter_list

def set (ls : Filter_lists) : filter_type → List filter_item → Filter_lists
  | .select, l => { ls with select_filter_list := l }
  | .update, l => { ls with update_filter_list := l }
  | .delete, l => { ls with delete_filter_list := l }

/-- The items of all three lists. -/
def items (ls : Filter_lists) : List filter_item :=
  ls.select_filter_list ++ ls.update_filter_list ++ ls.delete_filter_list

@[simp] theorem items_empty : empty.items = [] := rfl

theorem get_sublist_items (ls : Filter_lists) (k : filter_type) : (ls.get k).Sublist ls.items := by
  cases k <;> simp [get, items]

theorem mem_items_of_get {ls : Filter_lists} {k : filter_type} {it : filter_item}
    (h : it ∈ ls.get k) : it ∈ ls.items :=
  (ls.get_sublist_items k).subset h

/-- Replacing one list by a sublist of it leaves a sublist of the items. -/
theorem items_set_sublist {ls : Filter_lists} {k : filter_type} {l : List filter_item}
    (h : l.Sublist (ls.get k)) : (ls.set k l).items.Sublist ls.items := by
  cases k <;> simp only [set, items, get] at h ⊢
  · exact (h.append (List.Sublist.refl _)).append (List.Sublist.refl _)
  · exact ((List.Sublist.refl _).append h).append (List.Sublist.refl _)
  · exact (List.Sublist.refl _).append h

/-- Putting an item in front of one list puts it among the items. -/
theorem items_set_cons_perm (ls : Filter_lists) (k : filter_type) (a : filter_item) :
    (ls.set k (a :: ls.get k)).items.Perm (a :: ls.items) := by
  cases k <;> simp only [set, items, get]
  · exact List.Perm.refl _
  · simp only [List.append_assoc, List.cons_append]
    exact List.perm_middle
  · exact List.perm_middle

end Filter_lists

/-! ## The update functions of the three variables -/

/-- `modify_filter_list(filter_list, item_str)`, with the counter before and after: `[]`
    is also the `NULL` it returns for a value that is neither `+…` nor `-…`. -/
def modify_filter_list (filter_list : List filter_item) (filter_item_id : Int)
    (item_str : List Char) : List filter_item × Int :=
  match item_str with
  | '+' :: _ =>
    -- the counter is incremented before anything can fail
    match create_filter_item filter_item_id item_str with
    | none => ([], filter_item_id + 1)
    | some item => (add_filter_item filter_list item, filter_item_id + 1)
  | '-' :: _ => (delete_filter_item filter_list item_str, filter_item_id)
  | _ => ([], filter_item_id)

/-- `update_select_filter`, `update_update_filter` and `update_delete_filter`, on the list
    `k` names: the error flag, the lists and the counter after it. A failed `+` keeps the
    list; a `-` stores what it returns even when that is the empty list. -/
def update_filter_list (ls : Filter_lists) (k : filter_type) (filter_item_id : Int)
    (str : List Char) : Bool × Filter_lists × Int :=
  if str = [] then (false, ls, filter_item_id)
  else
    let (tmp, filter_item_id) := modify_filter_list (ls.get k) filter_item_id str
    if str.head? = some '+' ∧ tmp = [] then (true, ls, filter_item_id)
    else if tmp ≠ [] ∨ str.head? = some '-' then (false, ls.set k tmp, filter_item_id)
    else (false, ls, filter_item_id)

/-- `update_select_filter`, for `rds_sql_select_filter`. -/
def update_select_filter (ls : Filter_lists) (filter_item_id : Int)
    (rds_sql_select_filter : List Char) : Bool × Filter_lists × Int :=
  update_filter_list ls .select filter_item_id rds_sql_select_filter

/-- `update_update_filter`, for `rds_sql_update_filter`. -/
def update_update_filter (ls : Filter_lists) (filter_item_id : Int)
    (rds_sql_update_filter : List Char) : Bool × Filter_lists × Int :=
  update_filter_list ls .update filter_item_id rds_sql_update_filter

/-- `update_delete_filter`, for `rds_sql_delete_filter`. -/
def update_delete_filter (ls : Filter_lists) (filter_item_id : Int)
    (rds_sql_delete_filter : List Char) : Bool × Filter_lists × Int :=
  update_filter_list ls .delete filter_item_id rds_sql_delete_filter

/-- The `ON_UPDATE` function of the variable for list `k`. -/
def update_sql_filter : filter_type → Filter_lists → Int → List Char → Bool × Filter_lists × Int
  | .select => update_select_filter
  | .update => update_update_filter
  | .delete => update_delete_filter

example : (update_update_filter Filter_lists.empty 0 "+,1,UPDATE t".toList).2 =
    (⟨[], [⟨1, 1, 0, ["UPDATE t".toList]⟩], []⟩, 1) := by decide

/-- The three things `modify_filter_list` can do, by the operator in front. -/
theorem modify_filter_list_cases (l : List filter_item) (n : Int) (str : List Char) :
    (str.head? = some '+' ∧
      ((create_filter_item n str = none ∧ modify_filter_list l n str = ([], n + 1)) ∨
        ∃ item, create_filter_item n str = some item ∧
          modify_filter_list l n str = (item :: l, n + 1))) ∨
    (str.head? = some '-' ∧ modify_filter_list l n str = (delete_filter_item l str, n)) ∨
    (str.head? ≠ some '+' ∧ str.head? ≠ some '-' ∧ modify_filter_list l n str = ([], n)) := by
  unfold modify_filter_list
  split
  · rename_i tail
    left
    refine ⟨rfl, ?_⟩
    cases create_filter_item n ('+' :: tail) with
    | none => exact Or.inl ⟨rfl, rfl⟩
    | some item => exact Or.inr ⟨item, rfl, rfl⟩
  · exact Or.inr (Or.inl ⟨rfl, rfl⟩)
  · rename_i hp hm
    refine Or.inr (Or.inr ⟨?_, ?_, rfl⟩) <;> cases str <;> simp_all

/-- What an update does to the lists: they stay, or one of them loses items, or one gains
    an item with the next id in front. -/
theorem update_filter_list_cases (ls : Filter_lists) (k : filter_type) (n : Int)
    (str : List Char) :
    let r := update_filter_list ls k n str
    (r.2.1 = ls ∧ n ≤ r.2.2) ∨
      (∃ l, l.Sublist (ls.get k) ∧ r.2.1 = ls.set k l ∧ r.2.2 = n) ∨
      (∃ item, create_filter_item n str = some item ∧
        r.2.1 = ls.set k (item :: ls.get k) ∧ r.2.2 = n + 1) := by
  unfold update_filter_list
  by_cases hs : str = []
  · refine Or.inl ⟨?_, ?_⟩ <;> simp [hs]
  · simp only [hs, if_false]
    rcases modify_filter_list_cases (ls.get k) n str with
      ⟨hp, ⟨-, hm⟩ | ⟨item, hitem, hm⟩⟩ | ⟨hm', hm⟩ | ⟨hp, hm', hm⟩
    · -- a failed `+` keeps the list
      refine Or.inl ⟨?_, ?_⟩ <;> simp [hm, hp]
    · refine Or.inr (Or.inr ⟨item, hitem, ?_, ?_⟩) <;> simp [hm, hp]
    · refine Or.inr (Or.inl ⟨_, delete_filter_item_sublist (ls.get k) str, ?_, ?_⟩) <;>
        simp [hm, hm']
    · refine Or.inl ⟨?_, ?_⟩ <;> simp [hm, hp, hm']

end AliSql

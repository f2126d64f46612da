import Mathlib
import AliSql.Mysys.Queues

/-!
# `sql/event_queue.cc`: the event scheduler's queue

The scheduler keeps its events in a `QUEUE` of `Event_queue_element`s with the least on top,
ordered by `event_queue_element_compare_q`: a disabled event compares as 1 against an enabled
one, and so does an enabled one against a disabled one; two enabled events compare by
`execute_at`. `create_event` computes the next execution time of a new event and queues it
when it is still enabled; `find_n_remove_event` and `drop_matching_events` remove events at
any position with `queue_remove`; `recalculate_activation_times` recomputes every queued
event, calls `queue_fix`, and removes disabled events from the end of the array, stopping at
the first enabled one, on the assumption that `queue_fix` moved the disabled events there.

`compute_next_execution_time` is modelled in the branches that do not read the interval:
an event that is not enabled is left as it is; a one-time event that was executed is
disabled; a recurring event whose `ENDS` has passed is disabled with `execute_at` 0; one whose
`STARTS` is still ahead is scheduled at `STARTS`. The schedule from `STARTS`, `ENDS`,
`last_executed` and the interval (`get_next_time`) is the function `next_schedule`, and the
current time `query_start()` is `time_now`. Names are compared as they are, without the
collation of `sortcmp_lex_string`.

What is proved: the comparison is not antisymmetric (`event_queue_element_compare_q_both_one`),
so a disabled event above an enabled child breaks the order (`not_heap_ordered_of_disabled_top`),
and `queue_fix` does not move a disabled event from the top when its first child is enabled:
for every schedule of recurring events, three events created at time 0, a recurring one
started first and two one-time ones after it, leave after `recalculate_activation_times` at
time 10, when the first has ended, a queue whose top is that disabled event, above two
enabled ones, and that is not ordered (`recalculate_activation_times_keeps_disabled_top`).
-/

set_option autoImplicit false

namespace AliSql

/-- `Event_parse_data::enum_status`. -/
inductive enum_status where
  | ENABLED
  | DISABLED
  | SLAVESIDE_DISABLED
deriving DecidableEq, Repr

/-- The fields of `Event_queue_element` (with those of `Event_basic`) that the queue and the
    modelled branches of `compute_next_execution_time` read or write. `expression` is 0 for
    a one-time event. -/
structure Event_queue_element where
  dbname : List Char
  name : List Char
  status : enum_status
  execute_at : Int
  expression : Int
  starts : Int
  starts_null : Bool
  ends : Int
  ends_null : Bool
  last_executed : Int
deriving DecidableEq, Repr

/-- `event_queue_element_compare_q`. -/
def event_queue_element_compare_q (left right : Event_queue_element) : Int :=
  if left.status = .DISABLED then (if right.status ≠ .DISABLED then 1 else 0)
  else if right.status = .DISABLED then 1
  else if left.execute_at < right.execute_at then -1
  else if left.execute_at > right.execute_at then 1
  else 0

/-- `Event_queue_element::compute_next_execution_time()` at time `time_now`; the schedule
    that `get_next_time` computes is `next_schedule`. -/
def Event_queue_element.compute_next_execution_time (time_now : Int)
    (next_schedule : Event_queue_element → Event_queue_element) (e : Event_queue_element) :
    Event_queue_element :=
  if e.status ≠ .ENABLED then e
  -- one-time: disabled once executed
  else if e.expression = 0 then
    if e.last_executed ≠ 0 then { e with status := .DISABLED } else e
  -- after `ENDS`: no more executions
  else if !e.ends_null ∧ e.ends < time_now then { e with execute_at := 0, status := .DISABLED }
  -- before `STARTS`: scheduled at `STARTS`, unless it ran at `STARTS` already
  else if !e.starts_null ∧ time_now ≤ e.starts ∧
      ¬ (time_now = e.starts ∧ e.starts = e.last_executed) then { e with execute_at := e.starts }
  else next_schedule e

/-- `EVENT_QUEUE_INITIAL_SIZE`. -/
def EVENT_QUEUE_INITIAL_SIZE : Nat := 30

/-- `EVENT_QUEUE_EXTENT`. -/
def EVENT_QUEUE_EXTENT : Nat := 30

/-- The part of `Event_queue` its queue operations use. -/
structure Event_queue where
  queue : QUEUE Event_queue_element

/-- `Event_queue::init_queue`: `init_queue_ex` with the least on top, before the events are
    loaded; `root` is the array `init_queue` allocates. -/
def Event_queue.init_queue (root : Nat → Event_queue_element) : Event_queue :=
  ⟨AliSql.init_queue EVENT_QUEUE_INITIAL_SIZE false event_queue_element_compare_q root⟩

/-- `Event_queue::create_event(thd, new_element, &created)`: the queue and `created`. -/
def Event_queue.create_event (q : Event_queue) (time_now : Int)
    (next_schedule : Event_queue_element → Event_queue_element)
    (new_element : Event_queue_element) : Event_queue × Bool :=
  let new_element := new_element.compute_next_execution_time time_now next_schedule
  if new_element.status ≠ .ENABLED then (q, false)
  else
    let r := queue_insert_safe q.queue EVENT_QUEUE_EXTENT new_element
    (⟨r.1⟩, r.2 = 0)

/-- `event_basic_identifier_equal(db, name, b)`. -/
def event_basic_identifier_equal (db name : List Char) (b : Event_queue_element) : Bool :=
  b.name == name && b.dbname == db

/-- The loop of `find_n_remove_event` from position `i`, `fuel` rounds at most: the first
    event with the name is removed. -/
def Event_queue.find_n_remove_event.loop (db name : List Char) (queue : QUEUE Event_queue_element) :
    Nat → Nat → QUEUE Event_queue_element
  | 0, _ => queue
  | fuel + 1, i =>
    if i < queue.elements then
      if event_basic_identifier_equal db name (queue_element queue i) then (queue_remove queue i).1
      else Event_queue.find_n_remove_event.loop db name queue fuel (i + 1)
    else queue

/-- `Event_queue::find_n_remove_event(db, name)`. -/
def Event_queue.find_n_remove_event (q : Event_queue) (db name : List Char) : Event_queue :=
  ⟨Event_queue.find_n_remove_event.loop db name q.queue q.queue.elements 0⟩

/-- The loop of `drop_matching_events` from position `i`, `fuel` rounds at most: a matching
    event is removed and `i` stays, to look at the event moved into its place. -/
def Event_queue.drop_matching_events.loop (pattern : List Char)
    (comparator : List Char → Event_queue_element → Bool) :
    Nat → QUEUE Event_queue_element → Nat → QUEUE Event_queue_element
  | 0, queue, _ => queue
  | fuel + 1, queue, i =>
    if i < queue.elements then
      if comparator pattern (queue_element queue i) then
        Event_queue.drop_matching_events.loop pattern comparator fuel (queue_remove queue i).1 i
      else Event_queue.drop_matching_events.loop pattern comparator fuel queue (i + 1)
    else queue

/-- `Event_queue::drop_matching_events(thd, pattern, comparator)`: each round removes an
    event or moves `i` on, so `elements` rounds end the loop. -/
def Event_queue.drop_matching_events (q : Event_queue) (pattern : List Char)
    (comparator : List Char → Event_queue_element → Bool) : Event_queue :=
  ⟨Event_queue.drop_matching_events.loop pattern comparator q.queue.elements q.queue 0⟩

/-- The second loop of `recalculate_activation_times`, from the end of the array: disabled
    events are removed until the first one that is not. -/
def Event_queue.recalculate_activation_times.remove_disabled (queue : QUEUE Event_queue_element) :
    Nat → QUEUE Event_queue_element
  | 0 => queue
  | i + 1 =>
    if (queue_element queue i).status ≠ .DISABLED then queue
    else Event_queue.recalculate_activation_times.remove_disabled (queue_remove queue i).1 i

/-- `Event_queue::recalculate_activation_times(thd)`. The first loop recomputes every queued
    event in its place. -/
def Event_queue.recalculate_activation_times (q : Event_queue) (time_now : Int)
    (next_schedule : Event_queue_element → Event_queue_element) : Event_queue :=
  let queue := { q.queue with
    root := fun j => if 1 ≤ j ∧ j ≤ q.queue.elements then
      (q.queue.root j).compute_next_execution_time time_now next_schedule else q.queue.root j }
  let queue := queue_fix queue
  ⟨Event_queue.recalculate_activation_times.remove_disabled queue queue.elements⟩

/-! ## The comparison -/

/-- A disabled and an enabled event compare as 1 both ways round: the comparison is no
    order, and the heap order it gives cannot hold across a disabled and an enabled event. -/
theorem event_queue_element_compare_q_both_one {d e : Event_queue_element}
    (hd : d.status = .DISABLED) (he : e.status ≠ .DISABLED) :
    event_queue_element_compare_q d e = 1 ∧ event_queue_element_compare_q e d = 1 := by
  unfold event_queue_element_compare_q
  simp [hd, he]

/-- With the least on top, a disabled event above an enabled child breaks the queue's order:
    the comparison puts neither before the other. -/
theorem not_heap_ordered_of_disabled_top {queue : QUEUE Event_queue_element}
    (hcompare : queue.compare = event_queue_element_compare_q) (hmin : queue.max_at_top = 1)
    (hn : 2 ≤ queue.elements) (hd : (queue_top queue).status = .DISABLED)
    (he : (queue.root 2).status ≠ .DISABLED) : ¬ Heap_ordered queue := by
  intro h
  have hle : heap_le queue.compare queue.max_at_top (queue.root 1) (queue.root 2) :=
    h 2 (le_refl 2) hn (by norm_num)
  have hcmp := (event_queue_element_compare_q_both_one hd he).1
  rw [heap_le, hcompare, hmin, queue_top] at *
  omega

/-! ## Recalculating leaves a disabled event on top -/

/-- A recurring event from `STARTS` 1 to `ENDS` 5. -/
def recurring_event : Event_queue_element :=
  ⟨"db".toList, "e1".toList, .ENABLED, 0, 1, 1, false, 5, false, 0⟩

/-- A one-time event at `at`, not executed yet. -/
def one_time_event (name : List Char) (at_time : Int) : Event_queue_element :=
  ⟨"db".toList, name, .ENABLED, at_time, 0, 0, true, 0, true, 0⟩

/-- The recurring event is scheduled at its `STARTS` at time 0, and disabled at time 10;
    one-time events that did not run stay as they are. None of these reads the schedule. -/
theorem compute_recurring_event_start (next_schedule : Event_queue_element → Event_queue_element) :
    recurring_event.compute_next_execution_time 0 next_schedule = { recurring_event with execute_at := 1 } :=
  rfl

theorem compute_recurring_event_end (next_schedule : Event_queue_element → Event_queue_element) :
    ({ recurring_event with execute_at := 1 } : Event_queue_element).compute_next_execution_time 10
      next_schedule = { recurring_event with execute_at := 0, status := .DISABLED } :=
  rfl

theorem compute_one_time_event (time_now : Int) (next_schedule : Event_queue_element → Event_queue_element)
    (name : List Char) (at_time : Int) :
    (one_time_event name at_time).compute_next_execution_time time_now next_schedule =
      one_time_event name at_time :=
  rfl

/-- Creating an event depends on the schedule only through its computed time. -/
theorem Event_queue.create_event_congr {q : Event_queue} {time_now : Int}
    {next_schedule next_schedule' : Event_queue_element → Event_queue_element} {e : Event_queue_element}
    (h : e.compute_next_execution_time time_now next_schedule =
      e.compute_next_execution_time time_now next_schedule') :
    q.create_event time_now next_schedule e = q.create_event time_now next_schedule' e := by
  unfold Event_queue.create_event
  rw [h]

/-- Recalculating depends on the schedule only through the computed times of the queued
    events. -/
theorem Event_queue.recalculate_activation_times_congr {q : Event_queue} {time_now : Int}
    {next_schedule next_schedule' : Event_queue_element → Event_queue_element}
    (h : ∀ j, 1 ≤ j → j ≤ q.queue.elements →
      (q.queue.root j).compute_next_execution_time time_now next_schedule =
        (q.queue.root j).compute_next_execution_time time_now next_schedule') :
    q.recalculate_activation_times time_now next_schedule =
      q.recalculate_activation_times time_now next_schedule' := by
  have hroot : (fun j => if 1 ≤ j ∧ j ≤ q.queue.elements then
        (q.queue.root j).compute_next_execution_time time_now next_schedule else q.queue.root j) =
      fun j => if 1 ≤ j ∧ j ≤ q.queue.elements then
        (q.queue.root j).compute_next_execution_time time_now next_schedule' else q.queue.root j := by
    funext j
    split_ifs with hj
    · exact h j hj.1 hj.2
    · rfl
  simp only [Event_queue.recalculate_activation_times, hroot]

/-- The queue after creating the three events at time 0, in the array `init_queue`
    allocated (whose first cells hold any event). -/
def created (next_schedule : Event_queue_element → Event_queue_element) : Event_queue :=
  let q := (Event_queue.init_queue fun _ => recurring_event).create_event 0 next_schedule
    recurring_event
  let q := q.1.create_event 0 next_schedule (one_time_event "e2".toList 2)
  (q.1.create_event 0 next_schedule (one_time_event "e3".toList 3)).1

/-- The queue after recalculating at time 10. -/
def recalculated (next_schedule : Event_queue_element → Event_queue_element) : Event_queue :=
  (created next_schedule).recalculate_activation_times 10 next_schedule

theorem created_schedule_free (next_schedule : Event_queue_element → Event_queue_element) :
    created next_schedule = created id := by
  unfold created
  dsimp only
  rw [Event_queue.create_event_congr ((compute_recurring_event_start next_schedule).trans
      (compute_recurring_event_start id).symm),
    Event_queue.create_event_congr ((compute_one_time_event 0 next_schedule _ _).trans
      (compute_one_time_event 0 id _ _).symm),
    Event_queue.create_event_congr ((compute_one_time_event 0 next_schedule _ _).trans
      (compute_one_time_event 0 id _ _).symm)]

/-- The run never reaches the schedule of recurring events. -/
theorem recalculated_schedule_free (next_schedule : Event_queue_element → Event_queue_element) :
    recalculated next_schedule = recalculated id := by
  unfold recalculated
  rw [created_schedule_free]
  apply Event_queue.recalculate_activation_times_congr
  have hn : (created id).queue.elements = 3 := by decide
  intro j h1 hj
  rw [hn] at hj
  -- the three queued events: the recurring one on top, then the one-time ones
  interval_cases j
  · rw [show (created id).queue.root 1 = { recurring_event with execute_at := 1 } by decide]
    exact (compute_recurring_event_end next_schedule).trans (compute_recurring_event_end id).symm
  · rw [show (created id).queue.root 2 = one_time_event "e2".toList 2 by decide]
    exact (compute_one_time_event 10 next_schedule _ _).trans (compute_one_time_event 10 id _ _).symm
  · rw [show (created id).queue.root 3 = one_time_event "e3".toList 3 by decide]
    exact (compute_one_time_event 10 next_schedule _ _).trans (compute_one_time_event 10 id _ _).symm

/-- `recalculate_activation_times` leaves a disabled event on top of two enabled ones, in a
    queue that is not ordered, whatever the schedule of recurring events. -/
theorem recalculate_activation_times_keeps_disabled_top
    (next_schedule : Event_queue_element → Event_queue_element) :
    (recalculated next_schedule).queue.elements = 3 ∧
      (queue_top (recalculated next_schedule).queue).status = .DISABLED ∧
      (queue_element (recalculated next_schedule).queue 1).status = .ENABLED ∧
      (queue_element (recalculated next_schedule).queue 2).status = .ENABLED ∧
      ¬ Heap_ordered (recalculated next_schedule).queue := by
  rw [recalculated_schedule_free]
  have htop : (queue_top (recalculated id).queue).status = .DISABLED := by decide
  have hchild : (queue_element (recalculated id).queue 1).status = .ENABLED := by decide
  refine ⟨by decide, htop, hchild, by decide, ?_⟩
  -- the order fails at the top: `queue_fix` kept the disabled event above its enabled child
  have he : ((recalculated id).queue.root 2).status ≠ .DISABLED := by
    change (queue_element (recalculated id).queue 1).status ≠ _
    rw [hchild]
    decide
  exact not_heap_ordered_of_disabled_top rfl rfl (by decide) htop he

end AliSql

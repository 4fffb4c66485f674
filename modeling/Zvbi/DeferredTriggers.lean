import Zvbi.GuardedRuns
import Zvbi.LinkedRecords

/-!
# Triggers that fire later

A trigger whose fire time has not come is stored in a linked list. The list is traversed with
a pointer to the link that leads to the current trigger; a step without a result follows a
link of a trigger that was freed.
-/

namespace DeferredTriggers

open GuardedRuns LinkedRecords RecordHeap

/-- The `double` operations on times. -/
structure Times (Time : Type*) where
  /-- The first is less than or equal to the second. -/
  le : Time → Time → Bool
  /-- The second is greater than the first. -/
  less : Time → Time → Bool
  /-- They are less than 0.1 s apart. -/
  near : Time → Time → Bool

/-- `vbi_link`; the URL without its terminating NUL. -/
structure Link (Rest : Type*) where
  url : List UInt8
  rest : Rest
  deriving DecidableEq, Repr

/-- `vbi_trigger`. -/
structure Trigger (Time Rest : Type*) where
  next : Option Nat
  link : Link Rest
  fire : Time
  view : UInt8
  delete : Bool
  deriving DecidableEq, Repr

variable {Time Rest : Type}

/-- The fields of `vbi_decoder` that matter here, the allocated triggers and the links sent
with `VBI_EVENT_TRIGGER`. -/
structure State (Time Rest : Type) where
  triggers : Option Nat
  time : Time
  heap : Heap (Trigger Time Rest)
  sent : List (Link Rest)

/-- What `tp` points to: the head of the list or the link of a trigger. -/
inductive Place where
  | head
  | next (t : Nat)
  deriving DecidableEq, Repr

/-- `*tp`. -/
def load (s : State Time Rest) : Place → Option (Option Nat)
  | .head => some s.triggers
  | .next t => (s.heap.lookup t).map Trigger.next

/-- `*tp = t`. -/
def store (s : State Time Rest) (t : Option Nat) : Place → Option (State Time Rest)
  | .head => some { s with triggers := t }
  | .next t' => do
      let r ← s.heap.lookup t'
      return { s with heap := s.heap.insert t' { r with next := t } }

/-- The loops that unlink and free triggers, for at most `fuel` turns. -/
def unlinkLoop (unlinks : Trigger Time Rest → Bool) (sends : Bool) :
    Nat → Place → State Time Rest → Option (State Time Rest)
  | 0, _, _ => none
  | fuel + 1, tp, s => do
      match ← load s tp with
      | none => return s
      | some t =>
          let r ← s.heap.lookup t
          if unlinks r then
            let s := if sends then { s with sent := s.sent ++ [r.link] } else s
            let s ← store s r.next tp
            unlinkLoop unlinks sends fuel (.next t) { s with heap := s.heap.erase t }
          else unlinkLoop unlinks sends fuel (.next t) s

def turns (s : State Time Rest) : Nat := s.heap.entries.length + 1

def vbiDeferredTrigger (times : Times Time) (s : State Time Rest) : Option (State Time Rest) :=
  unlinkLoop (fun t => times.le t.fire s.time) true (turns s) .head s

def matching (times : Times Time) (a t : Trigger Time Rest) : Bool :=
  a.link.url = t.link.url && times.near a.fire t.fire

def findLoop (times : Times Time) (a : Trigger Time Rest) (s : State Time Rest) :
    Nat → Option Nat → Option Bool
  | 0, _ => none
  | _ + 1, none => some false
  | fuel + 1, some t => do
      let r ← s.heap.lookup t
      if matching times a r then return true else findLoop times a s fuel r.next

/-- `add_trigger`. The `memory` is the address `malloc` returns and what is found there. -/
def addTrigger (times : Times Time) (s : State Time Rest) (a : Trigger Time Rest)
    (memory : Nat × Trigger Time Rest) : Option (State Time Rest) :=
  if a.delete then unlinkLoop (matching times a) false (turns s) .head s
  else do
    if ← findLoop times a s (turns s) s.triggers then return s
    else if times.le a.fire s.time then return { s with sent := s.sent ++ [a.link] }
    else
      return { s with
        heap := s.heap.insert memory.1 { memory.2 with next := s.triggers }
        triggers := some memory.1 }

/-- The loop of `vbi_trigger_flush`, for at most `fuel` turns. -/
def flushLoop : Nat → State Time Rest → Option (State Time Rest)
  | 0, _ => none
  | fuel + 1, s =>
      match s.triggers with
      | none => some s
      | some t => do
          let r ← s.heap.lookup t
          flushLoop fuel { s with triggers := r.next, heap := s.heap.erase t }

def vbiTriggerFlush (s : State Time Rest) : Option (State Time Rest) := flushLoop (turns s) s

inductive Op (Time Rest : Type) where
  /-- A trigger was received. -/
  | add (a : Trigger Time Rest) (memory : Nat × Trigger Time Rest)
  /-- A frame was decoded: the time of the decoder, which does not go back, is set and
  `vbi_deferred_trigger` called. -/
  | deferred (time : Time)
  | flush

def advance (times : Times Time) (now time : Time) : Time :=
  if times.less now time then time else now

def step (times : Times Time) (s : State Time Rest) : Op Time Rest → Option (State Time Rest)
  | .add a memory => addTrigger times s a memory
  | .deferred time => vbiDeferredTrigger times { s with time := advance times s.time time }
  | .flush => vbiTriggerFlush s

def start (time : Time) : State Time Rest where
  triggers := none
  time := time
  heap := ∅
  sent := []

structure Schedule (Time Rest : Type) where
  pending : List (Link Rest × Time)
  time : Time
  sent : List (Link Rest)

def same (times : Times Time) (a : Trigger Time Rest) (p : Link Rest × Time) : Bool :=
  a.link.url = p.1.url && times.near a.fire p.2

def Schedule.receive (times : Times Time) (sch : Schedule Time Rest) (a : Trigger Time Rest) :
    Schedule Time Rest :=
  if a.delete then { sch with pending := sch.pending.filter fun p => !same times a p }
  else if sch.pending.any (same times a) then sch
  else if times.le a.fire sch.time then { sch with sent := sch.sent ++ [a.link] }
  else { sch with pending := (a.link, a.fire) :: sch.pending }

def Schedule.fire (times : Times Time) (sch : Schedule Time Rest) (time : Time) :
    Schedule Time Rest :=
  let now := advance times sch.time time
  { sch with
    time := now
    pending := sch.pending.filter fun p => !times.le p.2 now
    sent := sch.sent ++ (sch.pending.filter fun p => times.le p.2 now).map Prod.fst }

def Schedule.step (times : Times Time) (sch : Schedule Time Rest) :
    Op Time Rest → Schedule Time Rest
  | .add a _ => sch.receive times a
  | .deferred time => sch.fire times time
  | .flush => { sch with pending := [] }

def schedule (times : Times Time) (time : Time) (ops : List (Op Time Rest)) :
    Schedule Time Rest :=
  ops.foldl (Schedule.step times) { pending := [], time := time, sent := [] }

variable {sch : Schedule Time Rest} {unlinks : Trigger Time Rest → Bool}

section steps

variable {times : Times Time} {s : State Time Rest}
variable {cells : List (Nat × Trigger Time Rest)}

theorem unlinkLoop_nothing (sends : Bool) {first : Option Nat}
    (hchain : Chain Trigger.next s.heap first cells)
    (hnothing : ∀ cell ∈ cells, unlinks cell.2 = false) {fuel : Nat} (hfuel : cells.length < fuel)
    {tp : Place} (htp : load s tp = some first) :
    unlinkLoop unlinks sends fuel tp s = some s := by
  induction hchain generalizing fuel tp with
  | nil =>
    obtain ⟨fuel, rfl⟩ := Nat.exists_eq_add_of_lt hfuel
    simp only [unlinkLoop, htp, Option.bind_eq_bind, Option.bind_some]
    rfl
  | @cons t r rest hrecord hrest ih =>
    obtain ⟨fuel, rfl⟩ := Nat.exists_eq_add_one_of_ne_zero (Nat.ne_zero_of_lt hfuel)
    have hkeep : ¬ unlinks r = true := by
      rw [hnothing (t, r) List.mem_cons_self]
      exact Bool.false_ne_true
    have hload : load s (.next t) = some r.next := by rw [load, hrecord, Option.map_some]
    simp only [unlinkLoop, htp, Option.bind_eq_bind, Option.bind_some, hrecord, if_neg hkeep]
    exact ih (fun cell hcell => hnothing cell (List.mem_cons_of_mem _ hcell))
      (Nat.lt_of_succ_lt_succ hfuel) hload

theorem findLoop_eq {a : Trigger Time Rest} {first : Option Nat}
    (hchain : Chain Trigger.next s.heap first cells) {fuel : Nat}
    (hfuel : cells.length < fuel) :
    findLoop times a s fuel first = some (cells.any fun cell => matching times a cell.2) := by
  induction hchain generalizing fuel with
  | nil =>
    obtain ⟨fuel, rfl⟩ := Nat.exists_eq_add_one_of_ne_zero (Nat.ne_zero_of_lt hfuel)
    rfl
  | @cons t r rest hrecord hrest ih =>
    obtain ⟨fuel, rfl⟩ := Nat.exists_eq_add_one_of_ne_zero (Nat.ne_zero_of_lt hfuel)
    simp only [findLoop, hrecord, Option.bind_eq_bind, Option.bind_some, List.any_cons]
    by_cases hmatch : matching times a r = true
    · rw [if_pos hmatch, hmatch, Bool.true_or]
      rfl
    · rw [if_neg hmatch, Bool.eq_false_iff.mpr hmatch, Bool.false_or]
      exact ih (Nat.lt_of_succ_lt_succ hfuel)

theorem flushLoop_eq (hwhole : Whole Trigger.next s.heap s.triggers cells) {fuel : Nat}
    (hfuel : cells.length < fuel) :
    ∃ heap, flushLoop fuel s = some { s with triggers := none, heap := heap } ∧
      Whole Trigger.next heap none [] := by
  induction cells generalizing s fuel with
  | nil =>
    obtain ⟨fuel, rfl⟩ := Nat.exists_eq_add_one_of_ne_zero (Nat.ne_zero_of_lt hfuel)
    obtain ⟨triggers, time, heap, sent⟩ := s
    cases hwhole.chain with
    | nil => exact ⟨heap, rfl, hwhole⟩
  | cons cell rest ih =>
    obtain ⟨fuel, rfl⟩ := Nat.exists_eq_add_one_of_ne_zero (Nat.ne_zero_of_lt hfuel)
    obtain ⟨triggers, time, heap, sent⟩ := s
    cases hwhole.chain with
    | @cons t r _ hrecord _ =>
      obtain ⟨heap', hflush, hempty⟩ :=
        @ih { triggers := r.next, time := time, heap := heap.erase t, sent := sent }
          hwhole.tail _ (Nat.lt_of_succ_lt_succ hfuel)
      refine ⟨heap', ?_, hempty⟩
      simp only [flushLoop, Option.bind_eq_bind]
      rw [hrecord, Option.bind_some, hflush]

structure Related (s : State Time Rest) (sch : Schedule Time Rest) : Prop where
  stored : ∃ cells, Whole Trigger.next s.heap s.triggers cells ∧
    cells.map (fun cell => (cell.2.link, cell.2.fire)) = sch.pending
  time : s.time = sch.time
  sent : s.sent = sch.sent

/-- `malloc` returns memory that is not in use. -/
def Allocates (s : State Time Rest) : Op Time Rest → Prop
  | .add _ memory => s.heap.lookup memory.1 = none
  | _ => True

/-- No trigger is unlinked by a traversal, and a trigger that is stored finds its link and
fire time in the memory it is given. -/
def Meets (times : Times Time) (s : State Time Rest) : Op Time Rest → Prop
  | .add a memory =>
      if a.delete then ∀ e ∈ s.heap.entries, matching times a e.2 = false
      else (∀ e ∈ s.heap.entries, matching times a e.2 = false) → times.le a.fire s.time = false →
        memory.2.link = a.link ∧ memory.2.fire = a.fire
  | .deferred time =>
      ∀ e ∈ s.heap.entries, times.le e.2.fire (advance times s.time time) = false
  | .flush => True

theorem forall_entries (hwhole : Whole Trigger.next s.heap s.triggers cells) :
    (∀ e ∈ s.heap.entries, unlinks e.2 = false) ↔ ∀ cell ∈ cells, unlinks cell.2 = false := by
  rw [← @forall_lookup _ s.heap fun _ r => unlinks r = false]
  constructor
  · intro h cell hcell
    exact h cell.1 cell.2 (hwhole.chain.lookup cell hcell)
  · intro h a r hrecord
    exact h (a, r) (hwhole.all a r hrecord)

theorem length_lt_turns (hwhole : Whole Trigger.next s.heap s.triggers cells) :
    cells.length < turns s :=
  Nat.lt_succ_of_le hwhole.length_le

/-- A traversal keeps a schedule in which nothing is unlinked. -/
theorem unlink_nothing (h : Related s sch) (sends : Bool)
    (hnothing : ∀ e ∈ s.heap.entries, unlinks e.2 = false) :
    unlinkLoop unlinks sends (turns s) .head s = some s := by
  obtain ⟨cells, hwhole, -⟩ := h.stored
  exact unlinkLoop_nothing sends hwhole.chain ((forall_entries hwhole).mp hnothing)
    (length_lt_turns hwhole) rfl

theorem pending_forall (h : Related s sch) {p : Link Rest × Time → Bool}
    (hsame : ∀ t, unlinks t = p (t.link, t.fire))
    (hnothing : ∀ e ∈ s.heap.entries, unlinks e.2 = false) :
    ∀ pending ∈ sch.pending, p pending = false := by
  obtain ⟨cells, hwhole, hpending⟩ := h.stored
  intro pending hmem
  rw [← hpending] at hmem
  obtain ⟨cell, hcell, rfl⟩ := List.mem_map.mp hmem
  rw [← hsame]
  exact (forall_entries hwhole).mp hnothing cell hcell

theorem related_deferred (h : Related s sch) (time : Time)
    (hmeets : ∀ e ∈ s.heap.entries, times.le e.2.fire (advance times s.time time) = false) :
    ∃ s', vbiDeferredTrigger times { s with time := advance times s.time time } = some s' ∧
      Related s' (sch.fire times time) := by
  have hlater : Related { s with time := advance times s.time time }
      { sch with time := advance times sch.time time } :=
    ⟨h.stored, by rw [h.time], h.sent⟩
  refine ⟨_, unlink_nothing hlater true hmeets, ?_⟩
  have hnone := pending_forall hlater
    (p := fun p => times.le p.2 (advance times s.time time)) (fun _ => rfl) hmeets
  rw [h.time] at hnone
  have hkept : sch.pending.filter (fun p => !times.le p.2 (advance times sch.time time)) =
      sch.pending := List.filter_eq_self.mpr fun p hp => by rw [hnone p hp]; rfl
  have hfired : sch.pending.filter (fun p => times.le p.2 (advance times sch.time time)) = [] :=
    List.filter_eq_nil_iff.mpr fun p hp => by rw [hnone p hp]; exact Bool.false_ne_true
  rw [Schedule.fire, hkept, hfired, List.map_nil, List.append_nil]
  exact hlater

theorem related_flush (h : Related s sch) :
    ∃ s', vbiTriggerFlush s = some s' ∧ Related s' { sch with pending := [] } := by
  obtain ⟨cells, hwhole, -⟩ := h.stored
  obtain ⟨heap, hflush, hempty⟩ := flushLoop_eq hwhole (length_lt_turns hwhole)
  exact ⟨_, hflush, ⟨[], hempty, rfl⟩, h.time, h.sent⟩

theorem related_add (h : Related s sch) (a : Trigger Time Rest) (memory : Nat × Trigger Time Rest)
    (hfresh : s.heap.lookup memory.1 = none) (hmeets : Meets times s (.add a memory)) :
    ∃ s', addTrigger times s a memory = some s' ∧ Related s' (sch.receive times a) := by
  by_cases hdelete : a.delete = true
  · rw [Meets, if_pos hdelete] at hmeets
    refine ⟨s, ?_, ?_⟩
    · rw [addTrigger, if_pos hdelete]
      exact unlink_nothing h false hmeets
    · have hnone := pending_forall h (p := same times a) (fun _ => rfl) hmeets
      have hkept : sch.pending.filter (fun p => !same times a p) = sch.pending :=
        List.filter_eq_self.mpr fun p hp => by rw [hnone p hp]; rfl
      rw [Schedule.receive, if_pos hdelete, hkept]
      exact h
  · rw [Meets, if_neg hdelete] at hmeets
    obtain ⟨cells, hwhole, hpending⟩ := h.stored
    have hfind := @findLoop_eq _ _ times _ _ a _ hwhole.chain _ (length_lt_turns hwhole)
    have hany : sch.pending.any (same times a) = cells.any fun cell => matching times a cell.2 := by
      rw [← hpending, List.any_map]
      rfl
    rw [Schedule.receive, if_neg hdelete, hany]
    simp only [addTrigger, if_neg hdelete, hfind, Option.bind_eq_bind, Option.bind_some]
    by_cases hfound : (cells.any fun cell => matching times a cell.2) = true
    · rw [if_pos hfound, if_pos hfound]
      exact ⟨s, rfl, h⟩
    · have hnow : times.le a.fire sch.time = times.le a.fire s.time := by rw [h.time]
      rw [if_neg hfound, if_neg hfound, hnow]
      by_cases hdue : times.le a.fire s.time = true
      · rw [if_pos hdue, if_pos hdue]
        exact ⟨_, rfl, h.stored, h.time, by rw [h.sent]⟩
      · rw [if_neg hdue, if_neg hdue]
        have hnone : ∀ e ∈ s.heap.entries, matching times a e.2 = false := by
          refine (forall_entries hwhole).mpr fun cell hcell => ?_
          exact Bool.eq_false_iff.mpr fun hmatch =>
            hfound (List.any_eq_true.mpr ⟨cell, hcell, hmatch⟩)
        obtain ⟨hlink, hfire⟩ := hmeets hnone (Bool.eq_false_iff.mpr hdue)
        refine ⟨_, rfl, ⟨_, hwhole.cons hfresh rfl, ?_⟩, h.time, h.sent⟩
        rw [List.map_cons, hpending, hlink, hfire]

theorem related_step (h : Related s sch) (op : Op Time Rest) (hallocates : Allocates s op)
    (hmeets : Meets times s op) :
    ∃ s', step times s op = some s' ∧ Related s' (sch.step times op) := by
  cases op with
  | add a memory => exact related_add h a memory hallocates hmeets
  | deferred time => exact related_deferred h time hmeets
  | flush => exact related_flush h

end steps

def milliseconds : Times Int where
  le a b := decide (a ≤ b)
  less a b := decide (a < b)
  near a b := decide (a - b < 100 ∧ b - a < 100)

def trigger (fire : Int) : Trigger Int Unit where
  next := none
  link := { url := [120], rest := () }
  fire := fire
  view := 0
  delete := false

end DeferredTriggers

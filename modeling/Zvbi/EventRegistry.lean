import Zvbi.EventHandlers

/-!
# What the event handler list is for

A registry of handlers in which a removal takes effect at once. Every event that is being
delivered has the list of the handlers whose turn has not come; a handler that is removed or
changed is removed or changed there too, and a new one is called last.
-/

namespace EventRegistry

open EventHandlers

structure Reg (Callback UserData : Type*) where
  address : Nat
  callback : Callback
  userData : UserData
  eventMask : EventMask
  /-- How many events were sent before it was registered for these events. -/
  since : Nat
  deriving DecidableEq, Repr

structure Turn (Callback UserData : Type*) where
  event : Nat
  type : EventMask
  waiting : List (Reg Callback UserData)
  deriving DecidableEq, Repr

structure Registry (Callback UserData : Type*) where
  regs : List (Reg Callback UserData)
  turns : List (Turn Callback UserData)
  sent : List EventMask
  log : List (Entry Callback UserData)
  deriving DecidableEq, Repr

variable {Callback UserData : Type*}

def start : Registry Callback UserData where
  regs := []
  turns := []
  sent := []
  log := []

def edit (a : Registry Callback UserData)
    (f : Reg Callback UserData → Option (Reg Callback UserData)) :
    Registry Callback UserData :=
  { a with
    regs := a.regs.filterMap f
    turns := a.turns.map fun t => { t with waiting := t.waiting.filterMap f } }

def append (a : Registry Callback UserData) (r : Reg Callback UserData) :
    Registry Callback UserData :=
  { a with
    regs := a.regs ++ [r]
    turns := a.turns.map fun t => { t with waiting := t.waiting ++ [r] } }

def nextTurn (type : EventMask) :
    List (Reg Callback UserData) → Option (Reg Callback UserData × List (Reg Callback UserData))
  | [] => none
  | r :: rest => if r.eventMask &&& type ≠ 0 then some (r, rest) else nextTurn type rest

/-- The next handler receives the event, if there is one. -/
def deliver (a : Registry Callback UserData) (event : Nat) (type : EventMask)
    (waiting : List (Reg Callback UserData)) : Registry Callback UserData :=
  match nextTurn type waiting with
  | none => a
  | some (r, rest) =>
      { a with
        turns := { event := event, type := type, waiting := rest } :: a.turns
        log := a.log ++ [.called event r.address r.callback r.userData] }

/-- Without the handlers of `eventMask`, and the others no longer for these events. -/
def narrow (eventMask : EventMask) (r : Reg Callback UserData) : Option (Reg Callback UserData) :=
  if r.eventMask &&& ~~~eventMask = 0 then none
  else some { r with eventMask := r.eventMask &&& ~~~eventMask }

def withoutAddress (address : Nat) (r : Reg Callback UserData) :
    Option (Reg Callback UserData) :=
  if r.address = address then none else some r

section keys

variable [DecidableEq Callback] [DecidableEq UserData]

def IsFor (callback : Callback) (userData : UserData) (r : Reg Callback UserData) : Prop :=
  r.callback = callback ∧ r.userData = userData

instance (callback : Callback) (userData : UserData) (r : Reg Callback UserData) :
    Decidable (IsFor callback userData r) :=
  inferInstanceAs (Decidable (_ ∧ _))

def withoutKey (callback : Callback) (userData : UserData) (r : Reg Callback UserData) :
    Option (Reg Callback UserData) :=
  if IsFor callback userData r then none else some r

def retarget (callback : Callback) (userData : UserData) (eventMask : EventMask) (since : Nat)
    (r : Reg Callback UserData) : Option (Reg Callback UserData) :=
  if IsFor callback userData r then some { r with eventMask := eventMask, since := since }
  else some r

def register (a : Registry Callback UserData) (eventMask : EventMask) (callback : Callback)
    (userData : UserData) (memory : Option Nat) : Option Nat × Registry Callback UserData :=
  if eventMask = 0 then (none, edit a (withoutKey callback userData))
  else
    match (a.regs.filter fun r => IsFor callback userData r).getLast? with
    | some r => (some r.address, edit a (retarget callback userData eventMask a.sent.length))
    | none =>
        match memory with
        | none => (none, a)
        | some address =>
            (some address, append a {
              address := address
              callback := callback
              userData := userData
              eventMask := eventMask
              since := a.sent.length })

def step (a : Registry Callback UserData) : Op Callback UserData → Registry Callback UserData
  | .add eventMask callback userData memory =>
      let added := register a eventMask callback userData memory
      { added.2 with log := added.2.log ++ [.added added.1] }
  | .remove eh => edit a (withoutAddress eh)
  | .removeByEvent eventMask => edit a (narrow eventMask)
  | .removeByCallback callback userData => edit a (withoutKey callback userData)
  | .send type => deliver { a with sent := a.sent ++ [type] } a.sent.length type a.regs
  | .handlerReturns =>
      match a.turns with
      | [] => a
      | t :: turns => deliver { a with turns := turns } t.event t.type t.waiting

def after (ops : List (Op Callback UserData)) : Registry Callback UserData :=
  ops.foldl step start

end keys

def Served (a : Registry Callback UserData) (event : Nat) (r : Reg Callback UserData) : Prop :=
  .called event r.address r.callback r.userData ∈ a.log ∨
    ∃ t ∈ a.turns, t.event = event ∧ r ∈ t.waiting

/-- Every event is received by the handlers that have been registered for it since before it
was sent. -/
structure Fair (a : Registry Callback UserData) : Prop where
  types : ∀ t ∈ a.turns, a.sent[t.event]? = some t.type
  served : ∀ event type, a.sent[event]? = some type → ∀ r ∈ a.regs, r.since ≤ event →
    r.eventMask &&& type ≠ 0 → Served a event r

structure Narrows (sent : List EventMask)
    (f : Reg Callback UserData → Option (Reg Callback UserData)) : Prop where
  same : ∀ r r', f r = some r' →
    r'.address = r.address ∧ r'.callback = r.callback ∧ r'.userData = r.userData
  narrower : ∀ r r', f r = some r' → r'.since < sent.length →
    r.since ≤ r'.since ∧ ∀ type, r'.eventMask &&& type ≠ 0 → r.eventMask &&& type ≠ 0

variable {type : EventMask} {a : Registry Callback UserData}
  {waiting : List (Reg Callback UserData)}

variable {event : Nat} {r : Reg Callback UserData}

theorem lt_of_sent {sent : List EventMask} (hsent : sent[event]? = some type) :
    event < sent.length := by
  exact (List.getElem?_eq_some_iff.mp hsent).1

theorem fair_edit (ha : Fair a) {f : Reg Callback UserData → Option (Reg Callback UserData)}
    (hf : Narrows a.sent f) : Fair (edit a f) := by
  constructor
  · intro t ht
    obtain ⟨old, hold, rfl⟩ := List.mem_map.mp ht
    exact ha.types old hold
  · intro event type hsent r' hr' hsince hmask
    obtain ⟨r, hr, hedit⟩ := List.mem_filterMap.mp hr'
    obtain ⟨haddress, hcallback, huserData⟩ := hf.same r r' hedit
    obtain ⟨hold, hmore⟩ :=
      hf.narrower r r' hedit (Nat.lt_of_le_of_lt hsince (lt_of_sent hsent))
    rcases ha.served event type hsent r hr (Nat.le_trans hold hsince) (hmore type hmask) with
      hcalled | ⟨t, ht, hevent, hwaiting⟩
    · left
      rw [haddress, hcallback, huserData]
      exact hcalled
    · right
      exact ⟨_, List.mem_map_of_mem ht, hevent, List.mem_filterMap.mpr ⟨r, hwaiting, hedit⟩⟩

theorem fair_append (ha : Fair a) (hsince : r.since = a.sent.length) : Fair (append a r) := by
  constructor
  · intro t ht
    obtain ⟨old, hold, rfl⟩ := List.mem_map.mp ht
    exact ha.types old hold
  · intro event type hsent r' hr' hbefore hmask
    have hlt := lt_of_sent hsent
    rcases List.mem_append.mp hr' with hr' | hr'
    · rcases ha.served event type hsent r' hr' hbefore hmask with
        hcalled | ⟨t, ht, hevent, hwaiting⟩
      · exact .inl hcalled
      · right
        exact ⟨_, List.mem_map_of_mem ht, hevent, List.mem_append_left _ hwaiting⟩
    · obtain rfl := List.mem_singleton.mp hr'
      exact absurd (hsince ▸ hbefore) (Nat.not_le.mpr hlt)

theorem served_log (h : Served a event r) (entries : List (Entry Callback UserData)) :
    Served { a with log := a.log ++ entries } event r :=
  h.imp (fun hcalled => List.mem_append_left _ hcalled) id

/-- The handlers before the next one do not wait for the event. -/
theorem nextTurn_some {rest : List (Reg Callback UserData)}
    (h : nextTurn type waiting = some (r, rest)) :
    ∀ r' ∈ waiting, r'.eventMask &&& type ≠ 0 → r' = r ∨ r' ∈ rest := by
  induction waiting with
  | nil => cases h
  | cons head tail ih =>
    intro r' hr' hmask
    rw [nextTurn] at h
    by_cases hhead : head.eventMask &&& type ≠ 0
    · rw [if_pos hhead] at h
      cases h
      exact List.mem_cons.mp hr'
    · rw [if_neg hhead] at h
      rcases List.mem_cons.mp hr' with rfl | hr'
      · exact absurd hmask hhead
      · exact ih h r' hr' hmask

theorem nextTurn_none (h : nextTurn type waiting = none) :
    ∀ r ∈ waiting, ¬ r.eventMask &&& type ≠ 0 := by
  induction waiting with
  | nil => exact fun r hr => by cases hr
  | cons head tail ih =>
    intro r hr
    rw [nextTurn] at h
    by_cases hhead : head.eventMask &&& type ≠ 0
    · rw [if_pos hhead] at h
      cases h
    · rw [if_neg hhead] at h
      rcases List.mem_cons.mp hr with rfl | hr
      · exact hhead
      · exact ih h r hr

theorem nextTurn_disjoint (h : ∀ r ∈ waiting, r.eventMask &&& type = 0) :
    nextTurn type waiting = none := by
  induction waiting with
  | nil => rfl
  | cons head tail ih =>
    have hhead : ¬ head.eventMask &&& type ≠ 0 := not_not.mpr (h head List.mem_cons_self)
    rw [nextTurn, if_neg hhead]
    exact ih fun r hr => h r (List.mem_cons_of_mem _ hr)

/-- The delivery of one event goes on. Its waiting handlers are not in a turn now. -/
theorem fair_deliver
    (htype : a.sent[event]? = some type)
    (htypes : ∀ t ∈ a.turns, a.sent[t.event]? = some t.type)
    (hserved : ∀ event' type', a.sent[event']? = some type' → ∀ r ∈ a.regs,
      r.since ≤ event' → r.eventMask &&& type' ≠ 0 →
      Served a event' r ∨ event' = event ∧ r ∈ waiting) :
    Fair (deliver a event type waiting) := by
  rw [deliver]
  cases hnext : nextTurn type waiting with
  | none =>
    refine ⟨htypes, ?_⟩
    intro event' type' hsent r hr hsince hmask
    rcases hserved event' type' hsent r hr hsince hmask with hdone | ⟨rfl, hwaiting⟩
    · exact hdone
    · obtain rfl := Option.some.inj (htype.symm.trans hsent)
      exact absurd hmask (nextTurn_none hnext r hwaiting)
  | some next =>
    obtain ⟨next, rest⟩ := next
    constructor
    · intro t ht
      rcases List.mem_cons.mp ht with rfl | ht
      · exact htype
      · exact htypes t ht
    · intro event' type' hsent r hr hsince hmask
      rcases hserved event' type' hsent r hr hsince hmask with
        (hcalled | ⟨t, ht, hevent, hwaiting⟩) | ⟨rfl, hwaiting⟩
      · exact .inl (List.mem_append_left _ hcalled)
      · exact .inr ⟨t, List.mem_cons_of_mem _ ht, hevent, hwaiting⟩
      · obtain rfl := Option.some.inj (htype.symm.trans hsent)
        rcases nextTurn_some hnext r hwaiting hmask with rfl | hrest
        · exact .inl (List.mem_append_right _ List.mem_cons_self)
        · exact .inr ⟨_, List.mem_cons_self, rfl, hrest⟩

theorem narrows_drop (sent : List EventMask) {f : Reg Callback UserData → Option (Reg _ _)}
    (hf : ∀ r r', f r = some r' → r' = r) : Narrows sent f := by
  constructor
  · intro r r' hedit
    obtain rfl := hf r r' hedit
    exact ⟨rfl, rfl, rfl⟩
  · intro r r' hedit _
    obtain rfl := hf r r' hedit
    exact ⟨Nat.le_refl _, fun _ h => h⟩

theorem narrows_withoutAddress (sent : List EventMask) (address : Nat) :
    Narrows sent (@withoutAddress Callback UserData address) := by
  refine narrows_drop sent fun r r' hedit => ?_
  simp only [withoutAddress, Option.ite_none_left_eq_some, Option.some.injEq] at hedit
  exact hedit.2.symm

theorem narrows_narrow (sent : List EventMask) (eventMask : EventMask) :
    Narrows sent (@narrow Callback UserData eventMask) := by
  constructor
  · intro r r' hedit
    simp only [narrow, Option.ite_none_left_eq_some, Option.some.injEq] at hedit
    obtain ⟨-, rfl⟩ := hedit
    exact ⟨rfl, rfl, rfl⟩
  · intro r r' hedit _
    simp only [narrow, Option.ite_none_left_eq_some, Option.some.injEq] at hedit
    obtain ⟨-, rfl⟩ := hedit
    refine ⟨Nat.le_refl _, fun type hmask hzero => hmask ?_⟩
    change r.eventMask &&& ~~~eventMask &&& type = 0
    rw [BitVec.and_assoc, BitVec.and_comm (~~~eventMask), ← BitVec.and_assoc, hzero]
    exact BitVec.zero_and

theorem fair_send (ha : Fair a) (type : EventMask) :
    Fair (deliver { a with sent := a.sent ++ [type] } a.sent.length type a.regs) := by
  have hold {event : Nat} {type' : EventMask} (hsent : a.sent[event]? = some type') :
      (a.sent ++ [type])[event]? = some type' := by
    rw [List.getElem?_append_left (lt_of_sent hsent)]
    exact hsent
  refine fair_deliver ?_ (fun t ht => hold (ha.types t ht)) ?_
  · change (a.sent ++ [type])[a.sent.length]? = some type
    rw [List.getElem?_append_right (Nat.le_refl _), Nat.sub_self]
    rfl
  · intro event' type' hsent r hr hsince hmask
    change (a.sent ++ [type])[event']? = some type' at hsent
    by_cases hnew : event' = a.sent.length
    · exact .inr ⟨hnew, hr⟩
    · have hlt : event' < a.sent.length := by
        have hbound := lt_of_sent hsent
        rw [List.length_append, List.length_singleton] at hbound
        omega
      rw [List.getElem?_append_left hlt] at hsent
      exact .inl (ha.served event' type' hsent r hr hsince hmask)

theorem fair_returns (ha : Fair a) {t : Turn Callback UserData}
    {turns : List (Turn Callback UserData)} (hturns : a.turns = t :: turns) :
    Fair (deliver { a with turns := turns } t.event t.type t.waiting) := by
  have htypes := ha.types
  rw [hturns] at htypes
  refine fair_deliver (htypes t List.mem_cons_self)
    (fun t' ht' => htypes t' (List.mem_cons_of_mem _ ht')) ?_
  intro event' type' hsent r hr hsince hmask
  rcases ha.served event' type' hsent r hr hsince hmask with
    hcalled | ⟨t', ht', hevent, hwaiting⟩
  · exact .inl (.inl hcalled)
  · rw [hturns] at ht'
    rcases List.mem_cons.mp ht' with rfl | ht'
    · exact .inr ⟨hevent.symm, hwaiting⟩
    · exact .inl (.inr ⟨t', ht', hevent, hwaiting⟩)

section runs

variable [DecidableEq Callback] [DecidableEq UserData]

theorem narrows_withoutKey (sent : List EventMask) (callback : Callback) (userData : UserData) :
    Narrows sent (withoutKey callback userData) := by
  refine narrows_drop sent fun r r' hedit => ?_
  simp only [withoutKey, Option.ite_none_left_eq_some, Option.some.injEq] at hedit
  exact hedit.2.symm

theorem narrows_retarget (sent : List EventMask) (callback : Callback) (userData : UserData)
    (eventMask : EventMask) :
    Narrows sent (retarget callback userData eventMask sent.length) := by
  constructor
  · intro r r' hedit
    by_cases hkey : IsFor callback userData r
    · rw [retarget, if_pos hkey] at hedit
      cases hedit
      exact ⟨rfl, rfl, rfl⟩
    · rw [retarget, if_neg hkey] at hedit
      cases hedit
      exact ⟨rfl, rfl, rfl⟩
  · intro r r' hedit hsince
    by_cases hkey : IsFor callback userData r
    · rw [retarget, if_pos hkey] at hedit
      cases hedit
      exact absurd hsince (Nat.lt_irrefl _)
    · rw [retarget, if_neg hkey] at hedit
      cases hedit
      exact ⟨Nat.le_refl _, fun _ h => h⟩

theorem fair_register (ha : Fair a) (eventMask : EventMask) (callback : Callback)
    (userData : UserData) (memory : Option Nat) :
    Fair (register a eventMask callback userData memory).2 := by
  unfold register
  split
  · exact fair_edit ha (narrows_withoutKey _ _ _)
  · split
    · exact fair_edit ha (narrows_retarget _ _ _ _)
    · cases memory with
      | none => exact ha
      | some address => exact fair_append ha rfl

theorem fair_step (ha : Fair a) (op : Op Callback UserData) : Fair (step a op) := by
  cases op with
  | add eventMask callback userData memory =>
    have hregister := fair_register ha eventMask callback userData memory
    exact ⟨hregister.types, fun event type hsent r hr hsince hmask =>
      served_log (hregister.served event type hsent r hr hsince hmask) _⟩
  | remove eh => exact fair_edit ha (narrows_withoutAddress _ eh)
  | removeByEvent eventMask => exact fair_edit ha (narrows_narrow _ eventMask)
  | removeByCallback callback userData => exact fair_edit ha (narrows_withoutKey _ _ _)
  | send type => exact fair_send ha type
  | handlerReturns =>
    rw [step]
    cases hturns : a.turns with
    | nil => exact ha
    | cons t turns => exact fair_returns ha hturns

/-- Every event is received, whatever the application and the handlers do. -/
theorem fair_after (ops : List (Op Callback UserData)) : Fair (after ops) := by
  have hstart : Fair (start : Registry Callback UserData) := by
    constructor
    · intro t ht
      cases ht
    · intro event type hsent
      cases hsent
  rw [after]
  generalize (start : Registry Callback UserData) = a at hstart
  induction ops generalizing a with
  | nil => exact hstart
  | cons op ops ih => exact ih _ (fair_step hstart op)

end runs

end EventRegistry

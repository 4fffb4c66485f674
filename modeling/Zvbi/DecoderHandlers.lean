import Zvbi.EventRegistry
import Zvbi.GuardedRuns
import Mathlib.Data.List.Nodup

/-!
# The event handlers of the decoder

The decoder keeps its own list of handlers. While an event is sent the decoder points to the
handler which is called next, and a function which frees that handler moves the pointer on. The
machine here stops whenever a handler is called: its next steps are the calls the handler
makes, and the step in which the handler returns.
-/

namespace DecoderHandlers

open EventHandlers (EventMask Entry)
open EventRegistry (Reg Turn Registry edit append nextTurn deliver Fair Served)

/-- `struct event_handler`, with the address `calloc` gave it. -/
structure EventHandler (Callback UserData : Type*) where
  address : Nat
  eventMask : EventMask
  handler : Callback
  userData : UserData
deriving DecidableEq, Repr

/-- The handlers of a `vbi_decoder`, and what has been sent and seen. -/
structure Decoder (Callback UserData : Type*) where
  handlers : List (EventHandler Callback UserData)
  nextHandler : Option Nat
  eventMask : EventMask
  /-- `event_mutex`. -/
  locked : Bool
  /-- The number and type of the event while a handler is called. -/
  sending : Option (Nat × EventMask)
  sent : List EventMask
  log : List (Entry Callback UserData)
deriving DecidableEq, Repr

variable {Callback UserData : Type*}

/-- The loop of `vbi_event_handler_register` and its result. -/
structure Visited (Callback UserData : Type*) where
  handlers : List (EventHandler Callback UserData)
  nextHandler : Option Nat
  found : Bool
  mask : EventMask

def visit (isFor : Callback → UserData → Bool) (eventMask : EventMask) :
    List (EventHandler Callback UserData) → Option Nat → Visited Callback UserData
  | [], nextHandler => ⟨[], nextHandler, false, 0⟩
  | eh :: rest, nextHandler =>
    if isFor eh.handler eh.userData then
      if eventMask = 0 then
        let nextHandler :=
          if nextHandler = some eh.address then rest.head?.map (·.address) else nextHandler
        { visit isFor eventMask rest nextHandler with found := true }
      else
        let v := visit isFor eventMask rest nextHandler
        ⟨{ eh with eventMask } :: v.handlers, v.nextHandler, true, eventMask ||| v.mask⟩
    else
      let v := visit isFor eventMask rest nextHandler
      ⟨eh :: v.handlers, v.nextHandler, v.found, eh.eventMask ||| v.mask⟩

/-- `vbi_event_handler_register` and `vbi_event_handler_add`, which differ in the handlers they
look for. The mutex remains locked where `calloc` fails. -/
def registerBy (isFor : Callback → UserData → Bool) (vbi : Decoder Callback UserData)
    (eventMask : EventMask) (handler : Callback) (userData : UserData) (calloc : Option Nat) :
    Bool × Decoder Callback UserData :=
  let v := visit isFor eventMask vbi.handlers vbi.nextHandler
  let vbi := { vbi with handlers := v.handlers, nextHandler := v.nextHandler }
  if v.found = false ∧ eventMask ≠ 0 then
    match calloc with
    | none => (false, { vbi with locked := true })
    | some address =>
      (true, { vbi with
        handlers := vbi.handlers ++ [⟨address, eventMask, handler, userData⟩]
        eventMask := v.mask ||| eventMask })
  else
    (true, { vbi with eventMask := v.mask })

section keys
variable [DecidableEq Callback] [DecidableEq UserData]

def vbiEventHandlerRegister (vbi : Decoder Callback UserData) (eventMask : EventMask)
    (handler : Callback) (userData : UserData) (calloc : Option Nat) :
    Bool × Decoder Callback UserData :=
  registerBy (fun h u => h = handler ∧ u = userData) vbi eventMask handler userData calloc

def vbiEventHandlerAdd (vbi : Decoder Callback UserData) (eventMask : EventMask)
    (handler : Callback) (userData : UserData) (calloc : Option Nat) :
    Bool × Decoder Callback UserData :=
  registerBy (fun h _ => h = handler) vbi eventMask handler userData calloc

end keys

/-- The loop of `vbi_send_event` from these handlers on, up to the next call or the end. -/
def proceed (event : Nat) (type : EventMask) :
    List (EventHandler Callback UserData) → Decoder Callback UserData →
      Decoder Callback UserData
  | [], vbi => { vbi with locked := false, sending := none }
  | eh :: rest, vbi =>
    let vbi := { vbi with nextHandler := rest.head?.map (·.address) }
    if eh.eventMask &&& type ≠ 0 then
      { vbi with
        sending := some (event, type)
        log := vbi.log ++ [.called event eh.address eh.handler eh.userData] }
    else
      proceed event type rest vbi

/-- `vbi_send_event`. It does not return when the mutex is locked. -/
def vbiSendEvent (vbi : Decoder Callback UserData) (type : EventMask) :
    Option (Decoder Callback UserData) :=
  if vbi.locked then
    none
  else
    some (proceed vbi.sent.length type vbi.handlers
      { vbi with locked := true, sent := vbi.sent ++ [type] })

/-- The handler returns, and the loop goes on with `next_handler`, which must not have been
freed. -/
def handlerReturns (vbi : Decoder Callback UserData) : Option (Decoder Callback UserData) :=
  match vbi.sending, vbi.nextHandler with
  | none, _ => some vbi
  | some (event, type), none => some (proceed event type [] vbi)
  | some (event, type), some address =>
    match vbi.handlers.dropWhile (·.address ≠ address) with
    | [] => none
    | eh :: rest => some (proceed event type (eh :: rest) vbi)

/-- A call made by the application or by a handler, or the return of a handler. -/
inductive Op (Callback UserData : Type*) where
  | register (eventMask : EventMask) (handler : Callback) (userData : UserData)
      (calloc : Option Nat)
  | add (eventMask : EventMask) (handler : Callback) (userData : UserData)
      (calloc : Option Nat)
  | send (type : EventMask)
  | handlerReturns
deriving DecidableEq, Repr

/-- `vbi_event_handler_unregister`. -/
def Op.unregister (handler : Callback) (userData : UserData) : Op Callback UserData :=
  .register 0 handler userData none

/-- `vbi_event_handler_remove`. -/
def Op.remove (null : UserData) (handler : Callback) : Op Callback UserData :=
  .add 0 handler null none

section runs
variable [DecidableEq Callback] [DecidableEq UserData]

def step (vbi : Decoder Callback UserData) :
    Op Callback UserData → Option (Decoder Callback UserData)
  | .register eventMask handler userData calloc =>
    some (vbiEventHandlerRegister vbi eventMask handler userData calloc).2
  | .add eventMask handler userData calloc =>
    some (vbiEventHandlerAdd vbi eventMask handler userData calloc).2
  | .send type => vbiSendEvent vbi type
  | .handlerReturns => handlerReturns vbi

end runs

def init : Decoder Callback UserData where
  handlers := []
  nextHandler := none
  eventMask := 0
  locked := false
  sending := none
  sent := []
  log := []

def registered (isFor : Callback → UserData → Bool) (a : Registry Callback UserData)
    (eventMask : EventMask) (handler : Callback) (userData : UserData) (calloc : Option Nat) :
    Registry Callback UserData :=
  if eventMask = 0 then
    edit a fun r => if isFor r.callback r.userData then none else some r
  else if a.regs.any fun r => isFor r.callback r.userData then
    edit a fun r =>
      some (if isFor r.callback r.userData then { r with eventMask, since := a.sent.length } else r)
  else
    match calloc with
    | none => a
    | some address => append a ⟨address, handler, userData, eventMask, a.sent.length⟩

section runs
variable [DecidableEq Callback] [DecidableEq UserData]

def promised (a : Registry Callback UserData) : Op Callback UserData → Registry Callback UserData
  | .register eventMask handler userData calloc =>
    registered (fun h u => h = handler ∧ u = userData) a eventMask handler userData calloc
  | .add eventMask handler userData calloc =>
    registered (fun h _ => h = handler) a eventMask handler userData calloc
  | .send type => deliver { a with sent := a.sent ++ [type] } a.sent.length type a.regs
  | .handlerReturns =>
    match a.turns with
    | [] => a
    | t :: turns => deliver { a with turns := turns } t.event t.type t.waiting

end runs

def record (r : Reg Callback UserData) : EventHandler Callback UserData :=
  ⟨r.address, r.eventMask, r.callback, r.userData⟩

def unionOf (handlers : List (EventHandler Callback UserData)) : EventMask :=
  handlers.foldr (fun eh mask => eh.eventMask ||| mask) 0

/-- The decoder has called the handlers as promised, and decodes what they wait for. -/
structure Agrees (vbi : Decoder Callback UserData) (a : Registry Callback UserData) : Prop where
  log : vbi.log = a.log
  handlers : vbi.handlers = a.regs.map record
  sending : vbi.sending = a.turns.head?.map fun t => (t.event, t.type)
  eventMask : vbi.eventMask = unionOf vbi.handlers

variable {handlers : List (EventHandler Callback UserData)} {next : Option Nat}

section visiting
variable (isFor : Callback → UserData → Bool) (eventMask : EventMask)

def changed (eh : EventHandler Callback UserData) : Option (EventHandler Callback UserData) :=
  if isFor eh.handler eh.userData then
    if eventMask = 0 then none else some { eh with eventMask }
  else
    some eh

lemma changed_address {eh eh' : EventHandler Callback UserData}
    (h : changed isFor eventMask eh = some eh') : eh'.address = eh.address := by
  simp only [changed] at h
  split at h
  · split at h
    · simp at h
    · simp only [Option.some.injEq] at h
      simp [← h]
  · simp only [Option.some.injEq] at h
    simp [← h]

lemma visit_handlers (handlers : List (EventHandler Callback UserData)) (next : Option Nat) :
    (visit isFor eventMask handlers next).handlers =
      handlers.filterMap (changed isFor eventMask) := by
  induction handlers generalizing next with
  | nil => rfl
  | cons eh rest ih =>
    simp only [visit, List.filterMap_cons, changed]
    split
    · split
      · exact ih _
      · exact congrArg _ (ih _)
    · exact congrArg _ (ih _)

lemma visit_mask (handlers : List (EventHandler Callback UserData)) (next : Option Nat) :
    (visit isFor eventMask handlers next).mask =
      unionOf (visit isFor eventMask handlers next).handlers := by
  induction handlers generalizing next with
  | nil => rfl
  | cons eh rest ih =>
    simp only [visit]
    split
    · split
      · exact ih _
      · simp [unionOf, ih]
    · simp [unionOf, ih]

lemma visit_found (handlers : List (EventHandler Callback UserData)) (next : Option Nat) :
    (visit isFor eventMask handlers next).found =
      handlers.any fun eh => isFor eh.handler eh.userData := by
  induction handlers generalizing next with
  | nil => rfl
  | cons eh rest ih =>
    simp only [visit, List.any_cons]
    split
    · rename_i hfor
      split <;> simp [hfor]
    · rename_i hfor
      simp [hfor, ih]

/-- The pointer moves only when its handler is removed. -/
lemma visit_next_other (h : ∀ eh ∈ handlers, next ≠ some eh.address) :
    (visit isFor eventMask handlers next).nextHandler = next := by
  induction handlers generalizing next with
  | nil => rfl
  | cons eh rest ih =>
    have hrest := ih fun eh' heh' => h eh' (List.mem_cons_of_mem _ heh')
    have hother := h eh List.mem_cons_self
    simp only [visit, if_neg hother]
    split
    · split <;> exact hrest
    · exact hrest

/-- A pointer to a handler moves to the first handler from there on which is not removed. -/
lemma visit_next {before rest : List (EventHandler Callback UserData)}
    (hnodup : ((before ++ rest).map (·.address)).Nodup) :
    (visit isFor eventMask (before ++ rest) (rest.head?.map (·.address))).nextHandler =
      (rest.filterMap (changed isFor eventMask)).head?.map (·.address) := by
  induction before with
  | nil =>
    induction rest with
    | nil => rfl
    | cons eh rest ih =>
      simp only [List.nil_append, List.map_cons, List.nodup_cons] at hnodup ih
      have hkept : (visit isFor eventMask rest (some eh.address)).nextHandler =
          some eh.address := by
        refine visit_next_other isFor eventMask fun eh' heh' heq => hnodup.1 ?_
        rw [Option.some.inj heq]
        exact List.mem_map_of_mem heh'
      simp only [List.nil_append, visit, List.filterMap_cons, changed, List.head?_cons,
        Option.map_some, if_true]
      split
      · split
        · exact ih hnodup.2
        · exact hkept
      · exact hkept
  | cons eh before ih =>
    simp only [List.cons_append, List.map_cons, List.nodup_cons] at hnodup
    have hother : rest.head?.map (·.address) ≠ some eh.address := by
      intro heq
      obtain ⟨eh', hhead, haddress⟩ := Option.map_eq_some_iff.1 heq
      refine hnodup.1 (List.mem_map.2 ⟨eh', List.mem_append_right _ ?_, haddress⟩)
      exact List.mem_of_head? hhead
    simp only [List.cons_append, visit, if_neg hother]
    split
    · split <;> exact ih hnodup.2
    · exact ih hnodup.2

end visiting

structure Lists (vbi : Decoder Callback UserData) (a : Registry Callback UserData) : Prop where
  log : vbi.log = a.log
  handlers : vbi.handlers = a.regs.map record
  eventMask : vbi.eventMask = unionOf vbi.handlers
  addresses : (a.regs.map (·.address)).Nodup
  sent : vbi.sent = a.sent

def Points (vbi : Decoder Callback UserData) (regs waiting : List (Reg Callback UserData)) :
    Prop :=
  waiting <:+ regs ∧
    (vbi.nextHandler = waiting.head?.map (·.address) ∨ vbi.nextHandler = none)

inductive Sends (vbi : Decoder Callback UserData) (a : Registry Callback UserData) : Prop where
  | idle (turns : a.turns = []) (sending : vbi.sending = none) (next : vbi.nextHandler = none)
      (locked : vbi.locked = false)
  | busy (t : Turn Callback UserData) (turns : a.turns = [t])
      (sending : vbi.sending = some (t.event, t.type)) (locked : vbi.locked = true)
      (points : Points vbi a.regs t.waiting)

structure Related (vbi : Decoder Callback UserData) (a : Registry Callback UserData) : Prop where
  lists : Lists vbi a
  sends : Sends vbi a

variable {a : Registry Callback UserData} {vbi : Decoder Callback UserData}

lemma Related.agrees (h : Related vbi a) : Agrees vbi a := by
  refine ⟨h.lists.log, h.lists.handlers, ?_, h.lists.eventMask⟩
  cases h.sends with
  | idle turns sending => simp [turns, sending]
  | busy t turns sending => simp [turns, sending]

lemma unionOf_append (handlers : List (EventHandler Callback UserData))
    (eh : EventHandler Callback UserData) :
    unionOf (handlers ++ [eh]) = unionOf handlers ||| eh.eventMask := by
  induction handlers with
  | nil => simp [unionOf]
  | cons head tail ih =>
    simp only [unionOf, List.cons_append, List.foldr_cons] at ih ⊢
    rw [ih, BitVec.or_assoc]

lemma head_record (waiting : List (Reg Callback UserData)) :
    (waiting.map record).head?.map (·.address) = waiting.head?.map (·.address) := by
  cases waiting <;> rfl

lemma map_record_address (regs : List (Reg Callback UserData)) :
    (regs.map record).map (·.address) = regs.map (·.address) := by
  simp [record]

section editing
variable {isFor : Callback → UserData → Bool} {eventMask : EventMask}
  {g : Reg Callback UserData → Option (Reg Callback UserData)}

lemma filterMap_record (hg : ∀ r, changed isFor eventMask (record r) = (g r).map record)
    (regs : List (Reg Callback UserData)) :
    (regs.map record).filterMap (changed isFor eventMask) = (regs.filterMap g).map record := by
  rw [List.filterMap_map, List.map_filterMap]
  exact List.filterMap_congr fun r _ => hg r

lemma edit_address (hg : ∀ r, changed isFor eventMask (record r) = (g r).map record)
    {r r' : Reg Callback UserData} (h : g r = some r') : r'.address = r.address := by
  have := hg r
  rw [h] at this
  exact changed_address isFor eventMask this

lemma filterMap_addresses (hg : ∀ r, changed isFor eventMask (record r) = (g r).map record)
    (regs : List (Reg Callback UserData)) :
    ((regs.filterMap g).map (·.address)).Sublist (regs.map (·.address)) := by
  induction regs with
  | nil => exact List.Sublist.slnil
  | cons r regs ih =>
    cases h : g r with
    | none =>
      rw [List.filterMap_cons_none h]
      exact ih.cons _
    | some r' =>
      rw [List.filterMap_cons_some h, List.map_cons, List.map_cons, edit_address hg h]
      exact ih.cons_cons _

lemma points_visit (hg : ∀ r, changed isFor eventMask (record r) = (g r).map record)
    {vbi' : Decoder Callback UserData} {regs waiting : List (Reg Callback UserData)}
    (hhandlers : vbi.handlers = regs.map record) (hnodup : (regs.map (·.address)).Nodup)
    (hpoints : Points vbi regs waiting)
    (hnext : vbi'.nextHandler = (visit isFor eventMask vbi.handlers vbi.nextHandler).nextHandler) :
    Points vbi' (regs.filterMap g) (waiting.filterMap g) := by
  obtain ⟨⟨before, rfl⟩, hhead | hnone⟩ := hpoints
  · refine ⟨⟨before.filterMap g, by simp⟩, Or.inl ?_⟩
    rw [hnext, hhandlers, hhead, List.map_append, ← head_record, visit_next,
      filterMap_record hg, head_record]
    rwa [← List.map_append, map_record_address]
  · refine ⟨⟨before.filterMap g, by simp⟩, Or.inr ?_⟩
    rw [hnext, hnone]
    exact visit_next_other isFor eventMask fun eh _ => by simp

/-- A call which adds no handler does what it does to the registry. -/
lemma related_edit (hg : ∀ r, changed isFor eventMask (record r) = (g r).map record)
    (h : Related vbi a) :
    Related { vbi with
        handlers := (visit isFor eventMask vbi.handlers vbi.nextHandler).handlers
        nextHandler := (visit isFor eventMask vbi.handlers vbi.nextHandler).nextHandler
        eventMask := (visit isFor eventMask vbi.handlers vbi.nextHandler).mask } (edit a g) := by
  have hl := h.lists
  refine ⟨⟨hl.log, ?_, visit_mask _ _ _ _, hl.addresses.sublist (filterMap_addresses hg _),
    hl.sent⟩, ?_⟩
  · simp only [visit_handlers, hl.handlers, edit, filterMap_record hg]
  · cases h.sends with
    | idle turns sending next locked =>
      refine .idle (by simp [edit, turns]) sending ?_ locked
      simp only [next]
      exact visit_next_other isFor eventMask fun eh _ => by simp
    | busy t turns sending locked points =>
      refine .busy { t with waiting := t.waiting.filterMap g }
        (by simp only [edit, turns, List.map_cons, List.map_nil]) sending locked ?_
      exact points_visit hg hl.handlers hl.addresses points rfl

end editing

/-- A new handler is the last, also of the event which is sent. -/
lemma related_append (h : Related vbi a) (r : Reg Callback UserData)
    (hfresh : r.address ∉ vbi.handlers.map (·.address)) :
    Related { vbi with
        handlers := vbi.handlers ++ [record r]
        eventMask := vbi.eventMask ||| r.eventMask } (append a r) := by
  have hl := h.lists
  rw [hl.handlers, map_record_address] at hfresh
  refine ⟨⟨hl.log, ?_, ?_, ?_, hl.sent⟩, ?_⟩
  · simp [append, hl.handlers]
  · simp only [unionOf_append, hl.eventMask]
    rfl
  · simp only [append, List.map_append, List.map_cons, List.map_nil]
    refine List.nodup_append.2 ⟨hl.addresses, List.nodup_singleton _, fun x hx y hy heq => ?_⟩
    rw [List.mem_singleton] at hy
    exact hfresh (hy ▸ heq ▸ hx)
  · cases h.sends with
    | idle turns sending next locked => exact .idle (by simp [append, turns]) sending next locked
    | busy t turns sending locked points =>
      refine .busy { t with waiting := t.waiting ++ [r] }
        (by simp only [append, turns, List.map_cons, List.map_nil]) sending locked ?_
      obtain ⟨⟨before, hbefore⟩, hnext⟩ := points
      refine ⟨⟨before, by simp [append, ← hbefore]⟩, ?_⟩
      rcases hnext with hhead | hnone
      · cases hw : t.waiting with
        | nil => exact Or.inr (by simpa [hw] using hhead)
        | cons head tail => exact Or.inl (by simpa [hw] using hhead)
      · exact Or.inr hnone

def edited (isFor : Callback → UserData → Bool) (eventMask : EventMask) (since : Nat)
    (r : Reg Callback UserData) : Option (Reg Callback UserData) :=
  if eventMask = 0 then
    if isFor r.callback r.userData then none else some r
  else
    some (if isFor r.callback r.userData then { r with eventMask, since } else r)

lemma changed_record (isFor : Callback → UserData → Bool) (eventMask : EventMask) (since : Nat)
    (r : Reg Callback UserData) :
    changed isFor eventMask (record r) = (edited isFor eventMask since r).map record := by
  cases hfor : isFor r.callback r.userData
  · by_cases hnull : eventMask = 0 <;> simp [changed, edited, record, hfor]
  · by_cases hnull : eventMask = 0
    · rw [changed, edited, if_pos hnull, if_pos hnull, if_pos (by exact hfor), if_pos hfor]
      rfl
    · rw [changed, edited, if_neg hnull, if_neg hnull, if_pos (by exact hfor), if_pos hfor]
      rfl

/-- Nothing changes where there is no such handler. -/
lemma visit_unknown {isFor : Callback → UserData → Bool} {eventMask : EventMask}
    (h : handlers.any (fun eh => isFor eh.handler eh.userData) = false) :
    visit isFor eventMask handlers next = ⟨handlers, next, false, unionOf handlers⟩ := by
  induction handlers generalizing next with
  | nil => rfl
  | cons eh rest ih =>
    simp only [List.any_cons, Bool.or_eq_false_iff] at h
    simp only [visit, h.1, ih h.2]
    rfl

lemma any_record (isFor : Callback → UserData → Bool) (regs : List (Reg Callback UserData)) :
    (regs.map record).any (fun eh => isFor eh.handler eh.userData) =
      regs.any fun r => isFor r.callback r.userData := by
  simp [record, Function.comp_def]

/-- What `calloc` returns is not in use, and there is memory outside of handlers. -/
def Calloc (vbi : Decoder Callback UserData) (eventMask : EventMask) (calloc : Option Nat) :
    Prop :=
  (∀ address ∈ calloc, address ∉ vbi.handlers.map (·.address)) ∧
    (eventMask ≠ 0 → vbi.sending = none → calloc ≠ none)

instance (vbi : Decoder Callback UserData) (eventMask : EventMask) (calloc : Option Nat) :
    Decidable (Calloc vbi eventMask calloc) :=
  inferInstanceAs (Decidable ((∀ address ∈ calloc, _) ∧ (_ → _ → _)))

lemma related_registerBy (h : Related vbi a) (isFor : Callback → UserData → Bool)
    (eventMask : EventMask) (handler : Callback) (userData : UserData) {calloc : Option Nat}
    (hcalloc : Calloc vbi eventMask calloc) :
    Related (registerBy isFor vbi eventMask handler userData calloc).2
      (registered isFor a eventMask handler userData calloc) := by
  have hl := h.lists
  have hedit := related_edit (changed_record isFor eventMask a.sent.length) h
  by_cases hnull : eventMask = 0
  · have hg : edited isFor eventMask a.sent.length =
        fun r : Reg Callback UserData => if isFor r.callback r.userData then none else some r := by
      funext r
      rw [edited, if_pos hnull]
    rw [hg] at hedit
    simp only [registered, if_pos hnull, registerBy]
    rw [if_neg (by simp [hnull])]
    exact hedit
  · simp only [registered, if_neg hnull, registerBy, visit_found]
    have hany := any_record isFor a.regs
    rw [← hl.handlers] at hany
    cases hfound : vbi.handlers.any (fun eh => isFor eh.handler eh.userData) with
    | true =>
      have hg : edited isFor eventMask a.sent.length = fun r : Reg Callback UserData =>
          some (if isFor r.callback r.userData then
            { r with eventMask, since := a.sent.length } else r) := by
        funext r
        rw [edited, if_neg hnull]
      rw [hg] at hedit
      rw [if_neg (by simp), if_pos (by rw [← hany, hfound])]
      exact hedit
    | false =>
      rw [if_pos ⟨rfl, hnull⟩, if_neg (by rw [← hany, hfound]; simp), visit_unknown hfound]
      cases calloc with
      | none =>
        cases h.sends with
        | idle turns sending next locked => exact absurd rfl (hcalloc.2 hnull sending)
        | busy t turns sending locked points =>
          simp only [← locked]
          exact h
      | some address =>
        simp only [← hl.eventMask]
        exact related_append h ⟨address, handler, userData, eventMask, a.sent.length⟩
          (hcalloc.1 address rfl)

lemma related_proceed {vbi : Decoder Callback UserData} {a : Registry Callback UserData}
    (hlists : Lists vbi a) (hturns : a.turns = []) (hlocked : vbi.locked = true) (event : Nat)
    (type : EventMask) {waiting : List (Reg Callback UserData)} (hsuffix : waiting <:+ a.regs)
    (hnext : waiting = [] → vbi.nextHandler = none) :
    Related (proceed event type (waiting.map record) vbi) (deliver a event type waiting) := by
  induction waiting generalizing vbi with
  | nil =>
    simp only [List.map_nil, proceed, deliver, nextTurn]
    exact ⟨⟨hlists.log, hlists.handlers, hlists.eventMask, hlists.addresses, hlists.sent⟩,
      .idle hturns rfl (hnext rfl) rfl⟩
  | cons r rest ih =>
    have hrest : rest <:+ a.regs := (List.suffix_cons r rest).trans hsuffix
    by_cases hmask : r.eventMask &&& type ≠ 0
    · have hdeliver : deliver a event type (r :: rest) = { a with
          turns := { event := event, type := type, waiting := rest } :: a.turns
          log := a.log ++ [.called event r.address r.callback r.userData] } := by
        rw [deliver, nextTurn, if_pos hmask]
      have hproceed : proceed event type ((r :: rest).map record) vbi = { vbi with
          nextHandler := rest.head?.map (·.address)
          sending := some (event, type)
          log := vbi.log ++ [.called event r.address r.callback r.userData] } := by
        rw [List.map_cons, proceed, if_pos (by exact hmask), head_record]
        rfl
      rw [hdeliver, hproceed]
      refine ⟨⟨congrArg (· ++ _) hlists.log, hlists.handlers, hlists.eventMask,
        hlists.addresses, hlists.sent⟩, .busy ⟨event, type, rest⟩ (by simp [hturns]) rfl hlocked
          ⟨hrest, Or.inl rfl⟩⟩
    · have hdeliver : deliver a event type (r :: rest) = deliver a event type rest := by
        rw [deliver, nextTurn, if_neg hmask]
        rfl
      rw [hdeliver, List.map_cons, proceed]
      simp only
      rw [if_neg (by exact hmask)]
      refine ih ⟨hlists.log, hlists.handlers, hlists.eventMask, hlists.addresses, hlists.sent⟩
        hlocked hrest fun hnil => ?_
      simp [hnil]

lemma dropWhile_address {before rest : List (Reg Callback UserData)}
    {r : Reg Callback UserData} (hnodup : ((before ++ r :: rest).map (·.address)).Nodup) :
    ((before ++ r :: rest).map record).dropWhile (·.address ≠ r.address) =
      record r :: rest.map record := by
  induction before with
  | nil => simp [record]
  | cons head before ih =>
    simp only [List.cons_append, List.map_cons, List.nodup_cons] at hnodup
    have hother : head.address ≠ r.address := by
      intro heq
      refine hnodup.1 ?_
      rw [heq]
      exact List.mem_map_of_mem (List.mem_append_right _ List.mem_cons_self)
    rw [List.cons_append, List.map_cons, List.dropWhile_cons,
      if_pos (by exact decide_eq_true hother)]
    exact ih hnodup.2

def Forgotten (vbi : Decoder Callback UserData) (t : Turn Callback UserData) : Prop :=
  vbi.nextHandler = none ∧ ∃ r ∈ t.waiting, r.eventMask &&& t.type ≠ 0

instance (vbi : Decoder Callback UserData) (t : Turn Callback UserData) :
    Decidable (Forgotten vbi t) :=
  inferInstanceAs (Decidable (_ ∧ ∃ r ∈ t.waiting, _))

/-- The loop goes on with the next handler of the registry, unless it was forgotten. -/
lemma related_returns (h : Related vbi a) {t : Turn Callback UserData} (hturns : a.turns = [t]) :
    ∃ vbi', handlerReturns vbi = some vbi' ∧
      if Forgotten vbi t then
        ¬ Agrees vbi' (deliver { a with turns := [] } t.event t.type t.waiting)
      else
        Related vbi' (deliver { a with turns := [] } t.event t.type t.waiting) := by
  have hl := h.lists
  have hl' : Lists vbi { a with turns := [] } :=
    ⟨hl.log, hl.handlers, hl.eventMask, hl.addresses, hl.sent⟩
  cases h.sends with
  | idle turns => simp [hturns] at turns
  | busy t' turns sending locked points =>
    obtain rfl : t = t' := by simpa [hturns] using turns
    obtain ⟨hsuffix, hnext⟩ := points
    cases hptr : vbi.nextHandler with
    | none =>
      refine ⟨proceed t.event t.type [] vbi, by simp only [handlerReturns, sending, hptr], ?_⟩
      by_cases hforgotten : Forgotten vbi t
      · rw [if_pos hforgotten]
        intro hagrees
        obtain ⟨-, r, hr, hmask⟩ := hforgotten
        have hlog := hagrees.log
        cases hturn : nextTurn t.type t.waiting with
        | none => exact EventRegistry.nextTurn_none hturn r hr hmask
        | some next =>
          rw [deliver, hturn] at hlog
          simp [proceed, hl.log] at hlog
      · rw [if_neg hforgotten]
        have hturn : nextTurn t.type t.waiting = none := by
          refine EventRegistry.nextTurn_disjoint fun r hr => ?_
          by_contra hmask
          exact hforgotten ⟨hptr, r, hr, hmask⟩
        have hnone : deliver { a with turns := [] } t.event t.type t.waiting =
            deliver { a with turns := [] } t.event t.type [] := by
          rw [deliver, hturn]
          rfl
        rw [hnone]
        exact related_proceed hl' rfl locked t.event t.type (List.nil_suffix) fun _ => hptr
    | some address =>
      have hforgotten : ¬ Forgotten vbi t := fun hf => by simp [Forgotten, hptr] at hf
      simp only [if_neg hforgotten]
      rw [hptr] at hnext
      simp only [reduceCtorEq, or_false] at hnext
      cases hwaiting : t.waiting with
      | nil => simp [hwaiting] at hnext
      | cons r rest =>
        obtain rfl : address = r.address := by simpa [hwaiting] using hnext
        obtain ⟨before, hbefore⟩ := hsuffix
        rw [hwaiting] at hbefore
        have hdrop := @dropWhile_address _ _ before rest r
          (by rw [hbefore]; exact hl.addresses)
        rw [hbefore, ← hl.handlers] at hdrop
        refine ⟨proceed t.event t.type (record r :: rest.map record) vbi,
          by simp only [handlerReturns, sending, hptr, hdrop], ?_⟩
        exact @related_proceed _ _ _ _ hl' rfl locked t.event t.type (r :: rest)
          ⟨before, hbefore⟩ (by simp)

lemma related_init : Related (init : Decoder Callback UserData) EventRegistry.start :=
  ⟨⟨rfl, rfl, rfl, List.nodup_nil, rfl⟩, .idle rfl rfl rfl rfl⟩

section runs
variable [DecidableEq Callback] [DecidableEq UserData]

/-- Handlers make calls only which change the list, and what `calloc` returns is not in use. -/
def Domain (vbi : Decoder Callback UserData) : Op Callback UserData → Prop
  | .register eventMask _ _ calloc | .add eventMask _ _ calloc => Calloc vbi eventMask calloc
  | .send _ => vbi.sending = none
  | .handlerReturns => True

instance (vbi : Decoder Callback UserData) (op : Op Callback UserData) :
    Decidable (Domain vbi op) :=
  match op with
  | .register _ _ _ _ | .add _ _ _ _ => inferInstanceAs (Decidable (Calloc _ _ _))
  | .send _ => inferInstanceAs (Decidable (_ = none))
  | .handlerReturns => isTrue trivial

/-- When a handler returns and the decoder points to no further one, no handler whose turn has
not come waits for the event. -/
def Meets (p : Decoder Callback UserData × Registry Callback UserData) :
    Op Callback UserData → Prop
  | .handlerReturns => ∀ t ∈ p.2.turns, ¬ Forgotten p.1 t
  | _ => True

instance (p : Decoder Callback UserData × Registry Callback UserData)
    (op : Op Callback UserData) : Decidable (Meets p op) :=
  match op with
  | .handlerReturns => inferInstanceAs (Decidable (∀ t ∈ p.2.turns, ¬ Forgotten p.1 t))
  | .register _ _ _ _ | .add _ _ _ _ | .send _ => isTrue trivial

/-- The decoder and what is promised, side by side. -/
def stepBoth (p : Decoder Callback UserData × Registry Callback UserData)
    (op : Op Callback UserData) :
    Option (Decoder Callback UserData × Registry Callback UserData) :=
  (step p.1 op).map fun vbi => (vbi, promised p.2 op)

/-- One step: the decoder does as promised just when it meets the condition. -/
lemma related_step (h : Related vbi a) (op : Op Callback UserData) (hdomain : Domain vbi op) :
    ∃ vbi', step vbi op = some vbi' ∧ (Meets (vbi, a) op → Related vbi' (promised a op)) ∧
      (¬ Meets (vbi, a) op → ¬ Agrees vbi' (promised a op)) := by
  cases op with
  | register eventMask handler userData calloc =>
    exact ⟨_, rfl, fun _ => related_registerBy h _ _ _ _ hdomain, fun hn => absurd trivial hn⟩
  | add eventMask handler userData calloc =>
    exact ⟨_, rfl, fun _ => related_registerBy h _ _ _ _ hdomain, fun hn => absurd trivial hn⟩
  | send type =>
    have hl := h.lists
    cases h.sends with
    | idle turns sending next locked =>
      refine ⟨_, by rw [step, vbiSendEvent, if_neg (by simp [locked])], fun _ => ?_,
        fun hn => absurd trivial hn⟩
      have hproceed := @related_proceed _ _
        { vbi with locked := true, sent := a.sent ++ [type] } { a with sent := a.sent ++ [type] }
        ⟨hl.log, hl.handlers, hl.eventMask, hl.addresses, rfl⟩ turns rfl a.sent.length type _
        (List.suffix_refl _) fun _ => next
      simp only [← hl.handlers] at hproceed
      rw [hl.sent]
      exact hproceed
    | busy t turns sending => simp [Domain, sending] at hdomain
  | handlerReturns =>
    cases h.sends with
    | idle turns sending next locked =>
      refine ⟨vbi, by simp only [step, handlerReturns, sending], fun _ => ?_, fun hn => ?_⟩
      · simpa [promised, turns] using h
      · exact absurd (fun t ht => by simp [turns] at ht) hn
    | busy t turns sending locked points =>
      obtain ⟨vbi', hstep, hiff⟩ := related_returns h turns
      have hmeets : Meets (vbi, a) .handlerReturns ↔ ¬ Forgotten vbi t := by
        simp [Meets, turns]
      refine ⟨vbi', hstep, fun hm => ?_, fun hn => ?_⟩
      · rw [if_neg (hmeets.1 hm)] at hiff
        simpa [promised, turns] using hiff
      · rw [if_pos (not_not.1 (mt hmeets.2 hn))] at hiff
        simpa [promised, turns] using hiff

/-- In every prefix of a run the handlers are called as promised, just when every step meets the
condition. -/
lemma run_iff (h : Related vbi a) {ops : List (Op Callback UserData)}
    (hdomain : GuardedRuns.Permitted step Domain vbi ops) :
    (∀ first, first <+: ops → ∃ vbi', GuardedRuns.run step vbi first = some vbi' ∧
      Agrees vbi' (first.foldl promised a)) ↔
      GuardedRuns.Permitted stepBoth Meets (vbi, a) ops := by
  induction ops generalizing vbi a with
  | nil =>
    refine ⟨fun _ => trivial, fun _ first hfirst => ?_⟩
    obtain rfl := List.prefix_nil.1 hfirst
    exact ⟨vbi, rfl, h.agrees⟩
  | cons op ops ih =>
    obtain ⟨vbi', hstep, hgood, hbad⟩ := related_step h op hdomain.1
    have hboth : stepBoth (vbi, a) op = some (vbi', promised a op) := by
      simp [stepBoth, hstep]
    constructor
    · intro hall
      by_cases hmeets : Meets (vbi, a) op
      · refine ⟨hmeets, fun p hp => ?_⟩
        obtain rfl := Option.some.inj (hboth.symm.trans hp)
        refine (ih (hgood hmeets) (hdomain.2 vbi' hstep)).1 fun first hfirst => ?_
        obtain ⟨vbi'', hrun, hagrees⟩ := hall (op :: first) (List.cons_prefix_cons.2 ⟨rfl, hfirst⟩)
        rw [GuardedRuns.run_cons, hstep, Option.bind_some] at hrun
        exact ⟨vbi'', hrun, hagrees⟩
      · obtain ⟨vbi'', hrun, hagrees⟩ := hall [op] (by simp)
        rw [GuardedRuns.run_cons, hstep, Option.bind_some] at hrun
        obtain rfl := Option.some.inj hrun
        exact absurd hagrees (hbad hmeets)
    · rintro ⟨hmeets, hrest⟩ first hfirst
      cases first with
      | nil => exact ⟨vbi, rfl, h.agrees⟩
      | cons op' first =>
        obtain ⟨rfl, hrest'⟩ := List.cons_prefix_cons.1 hfirst
        rw [GuardedRuns.run_cons, hstep, Option.bind_some]
        exact (ih (hgood hmeets) (hdomain.2 vbi' hstep)).2 (hrest _ hboth) first hrest'

/-- Every handler registered since before an event was sent has received it, or will when its
turn comes. -/
lemma fair_promised (ha : Fair a) (op : Op Callback UserData) : Fair (promised a op) := by
  have hregistered (isFor : Callback → UserData → Bool) (eventMask : EventMask)
      (handler : Callback) (userData : UserData) (calloc : Option Nat) :
      Fair (registered isFor a eventMask handler userData calloc) := by
    simp only [registered]
    split
    · refine EventRegistry.fair_edit ha (EventRegistry.narrows_drop _ fun r r' h => ?_)
      simp only [Option.ite_none_left_eq_some, Option.some.injEq] at h
      exact h.2.symm
    · split
      · refine EventRegistry.fair_edit ha ⟨fun r r' h => ?_, fun r r' h hsince => ?_⟩
        · cases hfor : isFor r.callback r.userData <;> simp [hfor] at h <;> simp [← h]
        · cases hfor : isFor r.callback r.userData <;> simp [hfor] at h
          · simp [← h]
          · simp [← h] at hsince
      · cases calloc with
        | none => exact ha
        | some address => exact EventRegistry.fair_append ha rfl
  cases op with
  | register eventMask handler userData calloc =>
    exact hregistered (fun h u => h = handler ∧ u = userData) eventMask handler userData calloc
  | add eventMask handler userData calloc =>
    exact hregistered (fun h _ => h = handler) eventMask handler userData calloc
  | send type => exact EventRegistry.fair_send ha type
  | handlerReturns =>
    cases hturns : a.turns with
    | nil => simpa [promised, hturns] using ha
    | cons t turns => simpa [promised, hturns] using EventRegistry.fair_returns ha hturns

/-- What is promised after these steps. -/
def promise (ops : List (Op Callback UserData)) : Registry Callback UserData :=
  ops.foldl promised EventRegistry.start

lemma fair_promise (ops : List (Op Callback UserData)) : Fair (promise ops) := by
  have hstart : Fair (EventRegistry.start : Registry Callback UserData) := by
    constructor
    · intro t ht
      cases ht
    · intro event type hsent
      cases hsent
  rw [promise]
  generalize (EventRegistry.start : Registry Callback UserData) = a at hstart
  induction ops generalizing a with
  | nil => exact hstart
  | cons op ops ih => exact ih _ (fair_promised hstart op)

/-- Whatever calls the handlers make, no freed handler is accessed, every event is delivered in
registration order to the handlers that wait for it when their turn comes, and the event mask
is the union of theirs, just when no handler is forgotten. -/
theorem handlers_called_iff {ops : List (Op Callback UserData)}
    (hdomain : GuardedRuns.Permitted step Domain init ops) :
    (∀ first, first <+: ops → ∃ vbi, GuardedRuns.run step init first = some vbi ∧
      Agrees vbi (promise first) ∧ Fair (promise first)) ↔
      GuardedRuns.Permitted stepBoth Meets (init, EventRegistry.start) ops := by
  rw [← run_iff related_init hdomain]
  constructor
  · intro h first hfirst
    obtain ⟨vbi, hrun, hagrees, -⟩ := h first hfirst
    exact ⟨vbi, hrun, hagrees⟩
  · intro h first hfirst
    obtain ⟨vbi, hrun, hagrees⟩ := h first hfirst
    exact ⟨vbi, hrun, hagrees, fair_promise first⟩

/-- A handler which removes the next one and itself and adds another. -/
def replacing : List (Op Nat Nat) :=
  [.register 1 0 0 (some 0), .register 1 1 0 (some 1), .register 1 2 0 (some 2), .send 1,
    .unregister 1 0, .remove 0 0, .add 1 3 0 (some 0), .handlerReturns, .handlerReturns]

theorem handlers_called_replacing :
    ∃ vbi, GuardedRuns.run step init replacing = some vbi ∧
      vbi.log = [.called 0 0 0 0, .called 0 2 2 0, .called 0 0 3 0] := by
  obtain ⟨vbi, hrun, hagrees, -⟩ :=
    (@handlers_called_iff Nat Nat _ _ replacing (by decide)).2 (by decide) replacing
      List.prefix_rfl
  exact ⟨vbi, hrun, hagrees.log.trans (by decide)⟩

/-- A handler which adds another one while it is the last. -/
def adding : List (Op Nat Nat) :=
  [.register 1 0 0 (some 0), .send 1, .register 1 1 0 (some 1), .handlerReturns]

/-- The handler which was added waits for the event, and is not called. -/
theorem added_handler_forgotten :
    GuardedRuns.Permitted step Domain init adding ∧
      ∃ vbi, GuardedRuns.run step init adding = some vbi ∧ vbi.sending = none ∧
        vbi.handlers = [⟨0, 1, 0, 0⟩, ⟨1, 1, 1, 0⟩] ∧ vbi.log = [.called 0 0 0 0] ∧
        (promise adding).log = [.called 0 0 0 0, .called 0 1 1 0] := by
  exact ⟨by decide, _, rfl, by decide, by decide, by decide, by decide⟩

end runs

end DecoderHandlers

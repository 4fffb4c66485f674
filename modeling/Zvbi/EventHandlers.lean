import Mathlib.Data.List.Basic

/-!
# The list of event handlers

Handlers may add and remove handlers and send further events while an event is being
delivered. A handler removed then stays in the list with a flag, until the first of the
nested sends is done. The machine here stops whenever a handler is called: its next steps
are the calls the handler makes, and the step in which the handler returns.
-/

namespace EventHandlers

/-- `vbi_event_mask`. -/
abbrev EventMask := BitVec 32

/-- `_vbi_event_handler_rec`, with the address `vbi_malloc` gave it. -/
structure HandlerRec (Callback UserData : Type*) where
  address : Nat
  callback : Callback
  userData : UserData
  eventMask : EventMask
  remove : Bool
  deriving DecidableEq, Repr

/-- `_vbi_event_handler_list`. -/
structure HandlerList (Callback UserData : Type*) where
  first : List (HandlerRec Callback UserData)
  eventMask : EventMask
  refCount : BitVec 32
  deriving DecidableEq, Repr

/-- A send that has called a handler: its local variables, and the number of its event. -/
structure Frame where
  event : Nat
  type : EventMask
  /-- The address of the handler that was called. -/
  eh : Nat
  refCount : BitVec 32
  deriving DecidableEq, Repr

inductive Entry (Callback UserData : Type*) where
  /-- The callback received the event. -/
  | called (event address : Nat) (callback : Callback) (userData : UserData)
  /-- The result of `_vbi_event_handler_list_add`. -/
  | added (result : Option Nat)
  deriving DecidableEq, Repr

variable {Callback UserData : Type*} [DecidableEq Callback] [DecidableEq UserData]

def unionOf (handlers : List (HandlerRec Callback UserData)) : EventMask :=
  handlers.foldl (fun event_union eh => event_union ||| eh.eventMask) 0

def unlink (refCount : BitVec 32) (eh : HandlerRec Callback UserData) :
    Option (HandlerRec Callback UserData) :=
  if refCount = 0 then none else some { eh with remove := true }

/-- `_vbi_event_handler_list_remove_by_event`. -/
def removeByEvent (el : HandlerList Callback UserData) (eventMask : EventMask) :
    HandlerList Callback UserData :=
  { el with
    first := el.first.filterMap fun eh =>
      let eh := { eh with eventMask := eh.eventMask &&& ~~~eventMask }
      if eh.eventMask = 0 then unlink el.refCount eh else some eh
    eventMask := el.eventMask &&& ~~~eventMask }

/-- `_vbi_event_handler_list_remove`; the handler is given by its address. -/
def removeHandler (el : HandlerList Callback UserData) (eh : Nat) :
    HandlerList Callback UserData :=
  { el with
    first := el.first.filterMap fun eh1 =>
      if eh1.address = eh then unlink el.refCount eh1 else some eh1
    eventMask := unionOf (el.first.filter fun eh1 => eh1.address ≠ eh) }

def Matches (callback : Callback) (userData : UserData)
    (eh : HandlerRec Callback UserData) : Prop :=
  eh.callback = callback ∧ eh.userData = userData

instance (callback : Callback) (userData : UserData) (eh : HandlerRec Callback UserData) :
    Decidable (Matches callback userData eh) :=
  inferInstanceAs (Decidable (_ ∧ _))

/-- `_vbi_event_handler_list_add` with a null event mask. -/
def removeMatches (el : HandlerList Callback UserData) (callback : Callback)
    (userData : UserData) : HandlerList Callback UserData :=
  { el with
    first := el.first.filterMap fun eh =>
      if Matches callback userData eh then unlink el.refCount eh else some eh
    eventMask := unionOf (el.first.filter fun eh => ¬ Matches callback userData eh) }

def renewed (eventMask : EventMask) (callback : Callback) (userData : UserData)
    (eh : HandlerRec Callback UserData) : HandlerRec Callback UserData :=
  if Matches callback userData eh then { eh with eventMask := eventMask } else eh

/-- `_vbi_event_handler_list_add`, its result and the list. The `memory` is what `vbi_malloc`
returns when it is called. -/
def addHandler (el : HandlerList Callback UserData) (eventMask : EventMask)
    (callback : Callback) (userData : UserData) (memory : Option Nat) :
    Option Nat × HandlerList Callback UserData :=
  if eventMask = 0 then (none, removeMatches el callback userData)
  else
    let first := el.first.map (renewed eventMask callback userData)
    let event_union := unionOf first
    match (first.filter fun eh => Matches callback userData eh).getLast? with
    | some found => (some found.address, { el with first := first, eventMask := event_union })
    | none =>
        match memory with
        | none => (none, { el with first := first, eventMask := event_union })
        | some address =>
            let found := {
              address := address
              callback := callback
              userData := userData
              eventMask := eventMask
              remove := false }
            (some found.address,
              { el with first := first ++ [found], eventMask := event_union ||| eventMask })

/-- `_vbi_event_handler_list_remove_by_callback`. -/
def removeByCallback (el : HandlerList Callback UserData) (callback : Callback)
    (userData : UserData) : HandlerList Callback UserData :=
  (addHandler el 0 callback userData none).2

/-- The list, the sends that wait for a handler to return (the innermost first), the events
sent so far and what was seen. -/
structure State (Callback UserData : Type*) where
  el : HandlerList Callback UserData
  stack : List Frame
  sent : List EventMask
  log : List (Entry Callback UserData)
  deriving DecidableEq, Repr

/-- `_vbi_event_handler_list_init`, before the first event. -/
def init : State Callback UserData where
  el := { first := [], eventMask := 0, refCount := 0 }
  stack := []
  sent := []
  log := []

def nextHandler (type : EventMask) (rest : List (HandlerRec Callback UserData)) :
    Option (HandlerRec Callback UserData) :=
  rest.find? fun eh => eh.eventMask &&& type ≠ 0 ∧ eh.remove = false

/-- The loop of a send from the handlers `rest` on: up to the next call of a handler, or to
the end with its deferred clean-up. -/
def proceed (s : State Callback UserData) (event : Nat) (type : EventMask)
    (refCount : BitVec 32) (rest : List (HandlerRec Callback UserData)) :
    State Callback UserData :=
  match nextHandler type rest with
  | some eh =>
      { s with
        stack := { event := event, type := type, eh := eh.address, refCount := refCount } ::
          s.stack
        log := s.log ++ [.called event eh.address eh.callback eh.userData] }
  | none =>
      let el := { s.el with refCount := refCount - 1 }
      if 0 < refCount - 1 then { s with el := el }
      else { s with el := { el with first := el.first.filter fun eh => !eh.remove } }

/-- `__vbi_event_handler_list_send`. -/
def send (s : State Callback UserData) (type : EventMask) : State Callback UserData :=
  let event := s.sent.length
  let s := { s with sent := s.sent ++ [type] }
  if s.el.eventMask &&& type = 0 then s
  else
    let refCount := s.el.refCount + 1
    if refCount = 0 then s
    else proceed { s with el := { s.el with refCount := refCount } } event type refCount s.el.first

/-- The handlers behind the one at `address`, which must not have been freed. -/
def following (first : List (HandlerRec Callback UserData)) (address : Nat) :
    Option (List (HandlerRec Callback UserData)) :=
  match first with
  | [] => none
  | eh :: rest => if eh.address = address then some rest else following rest address

/-- The handler that was called last returns to its send. -/
def handlerReturns (s : State Callback UserData) : Option (State Callback UserData) :=
  match s.stack with
  | [] => some s
  | frame :: stack => do
      let rest ← following s.el.first frame.eh
      return proceed { s with stack := stack } frame.event frame.type frame.refCount rest

/-- A call made by the application or by a handler, or the return of a handler. -/
inductive Op (Callback UserData : Type*) where
  | add (eventMask : EventMask) (callback : Callback) (userData : UserData)
      (memory : Option Nat)
  | remove (eh : Nat)
  | removeByEvent (eventMask : EventMask)
  | removeByCallback (callback : Callback) (userData : UserData)
  | send (type : EventMask)
  | handlerReturns
  deriving DecidableEq, Repr

/-- One step; a step without a result has read a handler that was freed. -/
def step (s : State Callback UserData) :
    Op Callback UserData → Option (State Callback UserData)
  | .add eventMask callback userData memory =>
      let added := addHandler s.el eventMask callback userData memory
      some { s with el := added.2, log := s.log ++ [.added added.1] }
  | .remove eh => some { s with el := removeHandler s.el eh }
  | .removeByEvent eventMask => some { s with el := removeByEvent s.el eventMask }
  | .removeByCallback callback userData =>
      some { s with el := removeByCallback s.el callback userData }
  | .send type => some (send s type)
  | .handlerReturns => handlerReturns s

end EventHandlers

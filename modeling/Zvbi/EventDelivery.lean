import Zvbi.EventRegistry
import Zvbi.GuardedRuns
import Mathlib.Data.List.Forall2
import Mathlib.Data.List.Nodup

/-!
# Events are delivered to the registered handlers

The handlers in the list which are not flagged are the registered handlers, also behind the
handler a send has called. So the list delivers every event as the registry does, as long as
no handler is added again while it waits to be freed.
-/

namespace EventDelivery

open EventHandlers EventRegistry

variable {Callback UserData : Type*}

def record (r : Reg Callback UserData) : HandlerRec Callback UserData where
  address := r.address
  callback := r.callback
  userData := r.userData
  eventMask := r.eventMask
  remove := false

def live (first : List (HandlerRec Callback UserData)) : List (HandlerRec Callback UserData) :=
  first.filter fun eh => !eh.remove

def Lists (regs : List (Reg Callback UserData)) (first : List (HandlerRec Callback UserData)) :
    Prop :=
  regs.map record = live first

variable {eh : HandlerRec Callback UserData} {rest first : List (HandlerRec Callback UserData)}
  {regs : List (Reg Callback UserData)} {refCount : BitVec 32} {eventMask : EventMask}

theorem live_cons_of_flagged (hflag : eh.remove = true) : live (eh :: rest) = live rest := by
  simp [live, hflag]

theorem live_cons_of_live (hflag : eh.remove = false) :
    live (eh :: rest) = eh :: live rest := by
  simp [live, hflag]

/-- The first handler that is not flagged is the first registration. -/
theorem Lists.cons {regs : List (Reg Callback UserData)} {eh : HandlerRec Callback UserData}
    {rest : List (HandlerRec Callback UserData)} (hflag : eh.remove = false)
    (h : Lists regs (eh :: rest)) :
    ∃ r regs', regs = r :: regs' ∧ record r = eh ∧ Lists regs' rest := by
  rw [Lists, live_cons_of_live hflag] at h
  cases regs with
  | nil => cases h
  | cons r regs' =>
    obtain ⟨hhead, htail⟩ := List.cons.inj h
    exact ⟨r, regs', rfl, hhead, htail⟩

theorem Lists.of_flagged (hflag : eh.remove = true) (h : Lists regs (eh :: rest)) :
    Lists regs rest := by
  rwa [Lists, live_cons_of_flagged hflag] at h

/-- A traversal of the list `f`, which unlinks handlers or flags them, does what `g` does to
the registrations. -/
structure Edits (refCount : BitVec 32)
    (f : HandlerRec Callback UserData → Option (HandlerRec Callback UserData))
    (g : Reg Callback UserData → Option (Reg Callback UserData)) : Prop where
  address : ∀ eh eh', f eh = some eh' → eh'.address = eh.address
  /-- A handler is unlinked only while the list is not traversed. -/
  busy : refCount ≠ 0 → ∀ eh, f eh ≠ none
  idle : refCount = 0 → ∀ eh eh', f eh = some eh' → eh'.remove = eh.remove
  flagged : ∀ eh eh', f eh = some eh' → eh.remove = true → eh'.remove = true
  dropped : ∀ r, g r = none → ∀ eh', f (record r) = some eh' → eh'.remove = true
  edited : ∀ r r', g r = some r' → f (record r) = some (record r')

variable {f : HandlerRec Callback UserData → Option (HandlerRec Callback UserData)}
  {g : Reg Callback UserData → Option (Reg Callback UserData)} {eh' : HandlerRec Callback UserData}

theorem lists_filterMap (h : Edits refCount f g) (hlists : Lists regs first) :
    Lists (regs.filterMap g) (first.filterMap f) := by
  induction first generalizing regs with
  | nil =>
    obtain rfl := List.map_eq_nil_iff.mp hlists
    exact hlists
  | cons eh rest ih =>
    cases hflag : eh.remove with
    | true =>
      have hrest := ih (hlists.of_flagged hflag)
      cases hedit : f eh with
      | none => rwa [List.filterMap_cons_none hedit]
      | some eh' =>
        rw [List.filterMap_cons_some hedit, Lists,
          live_cons_of_flagged (h.flagged eh eh' hedit hflag)]
        exact hrest
    | false =>
      obtain ⟨r, regs', rfl, rfl, htail⟩ := hlists.cons hflag
      have hrest := ih htail
      cases hedit : g r with
      | none =>
        rw [List.filterMap_cons_none hedit]
        cases hrecord : f (record r) with
        | none => rwa [List.filterMap_cons_none hrecord]
        | some eh' =>
          rw [List.filterMap_cons_some hrecord, Lists,
            live_cons_of_flagged (h.dropped r hedit eh' hrecord)]
          exact hrest
      | some r' =>
        rw [List.filterMap_cons_some hedit, List.filterMap_cons_some (h.edited r r' hedit),
          Lists, List.map_cons, live_cons_of_live rfl]
        exact congrArg _ hrest

theorem lists_append {regs' : List (Reg Callback UserData)}
    {first' : List (HandlerRec Callback UserData)} (h : Lists regs first)
    (h' : Lists regs' first') : Lists (regs ++ regs') (first ++ first') := by
  rw [Lists, List.map_append, h, h', live, live, live, List.filter_append]

theorem following_filterMap (haddress : ∀ eh eh', f eh = some eh' → eh'.address = eh.address)
    (hkeeps : ∀ eh, f eh ≠ none) (first : List (HandlerRec Callback UserData)) (address : Nat) :
    following (first.filterMap f) address =
      (following first address).map fun rest => rest.filterMap f := by
  induction first with
  | nil => rfl
  | cons eh rest ih =>
    obtain ⟨eh', hedit⟩ := Option.ne_none_iff_exists'.mp (hkeeps eh)
    rw [List.filterMap_cons_some hedit, following, following, haddress eh eh' hedit]
    by_cases hfound : eh.address = address
    · rw [if_pos hfound, if_pos hfound, Option.map_some]
    · rw [if_neg hfound, if_neg hfound, ih]

variable {address : Nat} {handlers : List (HandlerRec Callback UserData)}
  {p : HandlerRec Callback UserData → Prop} {callback : Callback} {userData : UserData}
  {stack : List Frame}

theorem following_append (h : following first address = some rest)
    (more : List (HandlerRec Callback UserData)) :
    following (first ++ more) address = some (rest ++ more) := by
  induction first with
  | nil => cases h
  | cons eh tail ih =>
    rw [following] at h
    rw [List.cons_append, following]
    by_cases hfound : eh.address = address
    · rw [if_pos hfound] at h ⊢
      cases h
      rfl
    · rw [if_neg hfound] at h ⊢
      exact ih h

/-- A pointer into the list leads to the handlers behind the one it points to. -/
theorem following_split {before : List (HandlerRec Callback UserData)}
    (hnodup : ((before ++ eh :: rest).map HandlerRec.address).Nodup) :
    following (before ++ eh :: rest) eh.address = some rest := by
  induction before with
  | nil => rw [List.nil_append, following, if_pos rfl]
  | cons head before ih =>
    rw [List.cons_append, List.map_cons, List.nodup_cons] at hnodup
    have hother : head.address ≠ eh.address := by
      intro hsame
      apply hnodup.1
      rw [hsame]
      exact List.mem_map_of_mem (List.mem_append_right _ List.mem_cons_self)
    rw [List.cons_append, following, if_neg hother]
    exact ih hnodup.2

theorem following_suffix (h : following first address = some rest) :
    ∃ before, first = before ++ rest := by
  induction first with
  | nil => cases h
  | cons eh tail ih =>
    rw [following] at h
    by_cases hfound : eh.address = address
    · rw [if_pos hfound] at h
      cases h
      exact ⟨[eh], rfl⟩
    · rw [if_neg hfound] at h
      obtain ⟨before, rfl⟩ := ih h
      exact ⟨eh :: before, rfl⟩

structure Waits (first : List (HandlerRec Callback UserData)) (frame : Frame)
    (t : Turn Callback UserData) : Prop where
  event : t.event = frame.event
  type : t.type = frame.type
  rest : ∃ rest, following first frame.eh = some rest ∧ Lists t.waiting rest

def Counts : List Frame → Prop
  | [] => True
  | frame :: stack => frame.refCount.toNat = stack.length + 1 ∧ Counts stack

def Covers (eventMask : EventMask) (eh : HandlerRec Callback UserData) : Prop :=
  eh.eventMask ||| eventMask = eventMask

structure Traversed (s : State Callback UserData) (a : Registry Callback UserData) : Prop where
  sent : s.sent = a.sent
  log : s.log = a.log
  regs : Lists a.regs s.el.first
  turns : List.Forall₂ (Waits s.el.first) s.stack a.turns
  addresses : (s.el.first.map HandlerRec.address).Nodup
  counts : Counts s.stack
  masks : ∀ eh ∈ live s.el.first, Covers s.el.eventMask eh

structure Related (s : State Callback UserData) (a : Registry Callback UserData) : Prop
    extends Traversed s a where
  refCount : s.el.refCount.toNat = s.stack.length
  clean : s.stack = [] → ∀ eh ∈ s.el.first, eh.remove = false

section masks

theorem covers_disjoint {type : EventMask} (h : Covers eventMask eh)
    (hnone : eventMask &&& type = 0) : eh.eventMask &&& type = 0 := by
  rw [← h, BitVec.and_or_distrib_right] at hnone
  exact (BitVec.or_eq_zero_iff.mp hnone).1

theorem covers_narrowed {narrowed : EventMask} (h : Covers eventMask eh)
    (hmask : eh'.eventMask = eh.eventMask &&& narrowed) :
    Covers (eventMask &&& narrowed) eh' := by
  rw [Covers, hmask, ← BitVec.and_or_distrib_right, h]

theorem covers_or (h : Covers eventMask eh) (more : EventMask) :
    Covers (eventMask ||| more) eh := by
  rw [Covers, ← BitVec.or_assoc, h]

theorem covers_own (eventMask : EventMask) (eh : HandlerRec Callback UserData) :
    Covers (eventMask ||| eh.eventMask) eh := by
  rw [Covers, BitVec.or_comm eventMask, ← BitVec.or_assoc, BitVec.or_self]

theorem covers_foldl {event_union : EventMask} (h : Covers event_union eh) :
    Covers (handlers.foldl (fun event_union eh => event_union ||| eh.eventMask) event_union)
      eh := by
  induction handlers generalizing event_union with
  | nil => exact h
  | cons head tail ih => exact ih (covers_or h _)

theorem covers_unionOf (heh : eh ∈ handlers) : Covers (unionOf handlers) eh := by
  rw [unionOf]
  generalize (0 : EventMask) = event_union
  induction handlers generalizing event_union with
  | nil => cases heh
  | cons head tail ih =>
    rcases List.mem_cons.mp heh with hhead | heh
    · subst hhead
      rw [List.foldl_cons]
      exact covers_foldl (covers_own event_union eh)
    · exact ih heh _

end masks

section edits

theorem mem_live : eh ∈ live first ↔ eh ∈ first ∧ eh.remove = false := by
  simp [live]

theorem related_edit {s : State Callback UserData} {a : Registry Callback UserData}
    (h : Related s a) (hedits : Edits s.el.refCount f g)
    (hmasks : ∀ eh ∈ live (s.el.first.filterMap f), Covers eventMask eh) :
    Related { s with el := { s.el with
      first := s.el.first.filterMap f
      eventMask := eventMask } } (edit a g) := by
  refine ⟨⟨h.sent, h.log, lists_filterMap hedits h.regs, ?_, ?_, h.counts, hmasks⟩,
    h.refCount, ?_⟩
  · by_cases hidle : s.stack = []
    · have hturns := h.turns
      rw [hidle, List.forall₂_nil_left_iff] at hturns
      change List.Forall₂ _ s.stack (a.turns.map _)
      rw [hidle, hturns]
      exact .nil
    · have hbusy : s.el.refCount ≠ 0 := by
        intro hzero
        have hcount := h.refCount
        rw [hzero] at hcount
        exact hidle (List.length_eq_zero_iff.mp hcount.symm)
      refine List.forall₂_map_right_iff.mpr (h.turns.imp fun frame t hwaits => ?_)
      obtain ⟨rest, hrest, hlists⟩ := hwaits.rest
      refine ⟨hwaits.event, hwaits.type, rest.filterMap f, ?_, lists_filterMap hedits hlists⟩
      change following (s.el.first.filterMap f) frame.eh = _
      rw [following_filterMap hedits.address (hedits.busy hbusy), hrest, Option.map_some]
  · refine h.addresses.sublist ?_
    change ((s.el.first.filterMap f).map HandlerRec.address).Sublist _
    generalize s.el.first = first
    induction first with
    | nil => exact .slnil
    | cons eh rest ih =>
      cases hedit : f eh with
      | none =>
        rw [List.filterMap_cons_none hedit]
        exact ih.cons _
      | some eh' =>
        rw [List.filterMap_cons_some hedit, List.map_cons, List.map_cons,
          hedits.address eh eh' hedit]
        exact ih.cons_cons _
  · intro hstack eh' heh'
    obtain ⟨eh, heh, hedit⟩ := List.mem_filterMap.mp heh'
    have hidle : s.el.refCount = 0 := by
      apply BitVec.eq_of_toNat_eq
      rw [h.refCount, hstack]
      rfl
    rw [hedits.idle hidle eh eh' hedit]
    exact h.clean hstack eh heh

/-- A handler stays as it is, or it has the property and is flagged. -/
theorem unlink_cases [DecidablePred p]
    (h : (if p eh then unlink refCount eh else some eh) = some eh') :
    p eh ∧ refCount ≠ 0 ∧ eh' = { eh with remove := true } ∨ ¬ p eh ∧ eh' = eh := by
  by_cases hp : p eh
  · rw [if_pos hp, unlink, Option.ite_none_left_eq_some] at h
    exact .inl ⟨hp, h.1, (Option.some.inj h.2).symm⟩
  · rw [if_neg hp] at h
    exact .inr ⟨hp, (Option.some.inj h).symm⟩

theorem edits_unlink (refCount : BitVec 32) (p : HandlerRec Callback UserData → Prop)
    [DecidablePred p] (hg : ∀ r, g r = if p (record r) then none else some r) :
    Edits refCount (fun eh => if p eh then unlink refCount eh else some eh) g := by
  constructor
  · intro eh eh' hedit
    rcases unlink_cases hedit with ⟨-, -, rfl⟩ | ⟨-, rfl⟩
    · rfl
    · rfl
  · intro hbusy eh
    by_cases hp : p eh
    · rw [if_pos hp, unlink, if_neg hbusy]
      exact Option.some_ne_none _
    · rw [if_neg hp]
      exact Option.some_ne_none _
  · intro hidle eh eh' hedit
    rcases unlink_cases hedit with ⟨-, hbusy, -⟩ | ⟨-, rfl⟩
    · exact absurd hidle hbusy
    · rfl
  · intro eh eh' hedit hflag
    rcases unlink_cases hedit with ⟨-, -, rfl⟩ | ⟨-, rfl⟩
    · rfl
    · exact hflag
  · intro r hnone eh' hedit
    rcases unlink_cases hedit with ⟨-, -, rfl⟩ | ⟨hp, -⟩
    · rfl
    · rw [hg, if_neg hp] at hnone
      cases hnone
  · intro r r' hsome
    rw [hg, Option.ite_none_left_eq_some] at hsome
    obtain ⟨hp, hsame⟩ := hsome
    cases hsame
    exact if_neg hp

/-- The union of the other masks includes the masks of the handlers that are left. -/
theorem covers_unlink [DecidablePred p] :
    ∀ eh ∈ live (first.filterMap fun eh => if p eh then unlink refCount eh else some eh),
      Covers (unionOf (first.filter fun eh => ¬ p eh)) eh := by
  intro eh' heh'
  obtain ⟨hmem, hlive⟩ := mem_live.mp heh'
  obtain ⟨eh, heh, hedit⟩ := List.mem_filterMap.mp hmem
  rcases unlink_cases hedit with ⟨-, -, rfl⟩ | ⟨hp, rfl⟩
  · cases hlive
  · exact covers_unionOf (List.mem_filter.mpr ⟨heh, by simpa using hp⟩)

theorem related_removeHandler {s : State Callback UserData} {a : Registry Callback UserData}
    (h : Related s a) (eh : Nat) :
    Related { s with el := removeHandler s.el eh } (edit a (withoutAddress eh)) :=
  related_edit h (edits_unlink _ (fun eh1 => eh1.address = eh) fun _ => rfl) covers_unlink

theorem related_removeMatches [DecidableEq Callback] [DecidableEq UserData]
    {s : State Callback UserData} {a : Registry Callback UserData} (h : Related s a)
    (callback : Callback) (userData : UserData) :
    Related { s with el := removeMatches s.el callback userData }
      (edit a (withoutKey callback userData)) :=
  related_edit h (edits_unlink _ (Matches callback userData) fun _ => rfl) covers_unlink

def narrowed (eventMask : EventMask) (eh : HandlerRec Callback UserData) :
    HandlerRec Callback UserData :=
  { eh with eventMask := eh.eventMask &&& ~~~eventMask }

theorem narrowed_cases
    (h : (if (narrowed eventMask eh).eventMask = 0 then unlink refCount (narrowed eventMask eh)
      else some (narrowed eventMask eh)) = some eh') :
    eh.eventMask &&& ~~~eventMask = 0 ∧ refCount ≠ 0 ∧
        eh' = { narrowed eventMask eh with remove := true } ∨
      eh.eventMask &&& ~~~eventMask ≠ 0 ∧ eh' = narrowed eventMask eh :=
  unlink_cases (p := fun eh => eh.eventMask = 0) h

theorem edits_narrowed (refCount : BitVec 32) (eventMask : EventMask) :
    Edits refCount (fun eh : HandlerRec Callback UserData =>
        if (narrowed eventMask eh).eventMask = 0 then unlink refCount (narrowed eventMask eh)
        else some (narrowed eventMask eh))
      (narrow eventMask) := by
  constructor
  · intro eh eh' hedit
    rcases narrowed_cases hedit with ⟨-, -, rfl⟩ | ⟨-, rfl⟩
    · rfl
    · rfl
  · intro hbusy eh
    by_cases hnone : (narrowed eventMask eh).eventMask = 0
    · rw [if_pos hnone, unlink, if_neg hbusy]
      exact Option.some_ne_none _
    · rw [if_neg hnone]
      exact Option.some_ne_none _
  · intro hidle eh eh' hedit
    rcases narrowed_cases hedit with ⟨-, hbusy, -⟩ | ⟨-, rfl⟩
    · exact absurd hidle hbusy
    · rfl
  · intro eh eh' hedit hflag
    rcases narrowed_cases hedit with ⟨-, -, rfl⟩ | ⟨-, rfl⟩
    · rfl
    · exact hflag
  · intro r hnone eh' hedit
    rcases narrowed_cases hedit with ⟨-, -, rfl⟩ | ⟨hsome, -⟩
    · rfl
    · change r.eventMask &&& ~~~eventMask ≠ 0 at hsome
      rw [narrow, if_neg hsome] at hnone
      cases hnone
  · intro r r' hsome
    rw [narrow, Option.ite_none_left_eq_some] at hsome
    obtain ⟨hmask, hsame⟩ := hsome
    cases hsame
    exact if_neg hmask

theorem related_removeByEvent {s : State Callback UserData} {a : Registry Callback UserData}
    (h : Related s a) (eventMask : EventMask) :
    Related { s with el := removeByEvent s.el eventMask } (edit a (narrow eventMask)) := by
  refine related_edit h (edits_narrowed _ _) ?_
  intro eh' heh'
  obtain ⟨hmem, hlive⟩ := mem_live.mp heh'
  obtain ⟨eh, heh, hedit⟩ := List.mem_filterMap.mp hmem
  rcases narrowed_cases hedit with ⟨-, -, rfl⟩ | ⟨-, rfl⟩
  · cases hlive
  · exact covers_narrowed (h.masks eh (mem_live.mpr ⟨heh, hlive⟩)) rfl

end edits

section appending

variable {s : State Callback UserData} {a : Registry Callback UserData}

theorem related_append (h : Related s a) (r : Reg Callback UserData)
    (hfresh : r.address ∉ s.el.first.map HandlerRec.address) :
    Related { s with el := { s.el with
        first := s.el.first ++ [record r]
        eventMask := unionOf s.el.first ||| r.eventMask } } (append a r) := by
  have hlists : Lists [r] [record r] := rfl
  refine ⟨⟨h.sent, h.log, lists_append h.regs hlists, ?_, ?_, h.counts, ?_⟩, h.refCount, ?_⟩
  · refine List.forall₂_map_right_iff.mpr (h.turns.imp fun frame t hwaits => ?_)
    obtain ⟨rest, hrest, hwaiting⟩ := hwaits.rest
    exact ⟨hwaits.event, hwaits.type, rest ++ [record r], following_append hrest _,
      lists_append hwaiting hlists⟩
  · change ((s.el.first ++ [record r]).map HandlerRec.address).Nodup
    rw [List.map_append, List.nodup_append]
    refine ⟨h.addresses, List.nodup_singleton _, ?_⟩
    rintro address haddress new hnew rfl
    obtain rfl := List.mem_singleton.mp hnew
    exact hfresh haddress
  · intro eh heh
    obtain ⟨hmem, -⟩ := mem_live.mp heh
    rcases List.mem_append.mp hmem with hold | hnew
    · exact covers_or (covers_unionOf hold) _
    · obtain rfl := List.mem_singleton.mp hnew
      exact covers_own (unionOf s.el.first) (record r)
  · intro hstack eh heh
    rcases List.mem_append.mp heh with hold | hnew
    · exact h.clean hstack eh hold
    · obtain rfl := List.mem_singleton.mp hnew
      rfl

/-- What is added to the log is added on both sides. -/
theorem related_log (h : Related s a) (entry : Entry Callback UserData) :
    Related { s with log := s.log ++ [entry] } { a with log := a.log ++ [entry] } :=
  ⟨⟨h.sent, congrArg (· ++ [entry]) h.log, h.regs, h.turns, h.addresses, h.counts, h.masks⟩,
    h.refCount, h.clean⟩

end appending

section adding

variable [DecidableEq Callback] [DecidableEq UserData]
variable {s : State Callback UserData} {a : Registry Callback UserData}

theorem renewed_frame (eventMask : EventMask) (callback : Callback) (userData : UserData)
    (eh : HandlerRec Callback UserData) :
    (renewed eventMask callback userData eh).address = eh.address ∧
      (renewed eventMask callback userData eh).remove = eh.remove ∧
      (Matches callback userData (renewed eventMask callback userData eh) ↔
        Matches callback userData eh) := by
  by_cases hkey : Matches callback userData eh
  · rw [renewed, if_pos hkey]
    exact ⟨rfl, rfl, Iff.rfl⟩
  · rw [renewed, if_neg hkey]
    exact ⟨rfl, rfl, Iff.rfl⟩

theorem edits_renewed (refCount : BitVec 32) (eventMask : EventMask) (callback : Callback)
    (userData : UserData) (since : Nat) :
    Edits refCount (fun eh => some (renewed eventMask callback userData eh))
      (retarget callback userData eventMask since) := by
  constructor
  · rintro eh eh' hedit
    cases hedit
    exact (renewed_frame _ _ _ eh).1
  · intro _ eh
    exact Option.some_ne_none _
  · rintro _ eh eh' hedit
    cases hedit
    exact (renewed_frame _ _ _ eh).2.1
  · rintro eh eh' hedit hflag
    cases hedit
    exact (renewed_frame _ _ _ eh).2.1.trans hflag
  · intro r hnone
    rw [retarget] at hnone
    split at hnone
    · cases hnone
    · cases hnone
  · intro r r' hsome
    by_cases hkey : IsFor callback userData r
    · rw [retarget, if_pos hkey] at hsome
      cases hsome
      exact congrArg some (if_pos hkey)
    · rw [retarget, if_neg hkey] at hsome
      cases hsome
      exact congrArg some (if_neg hkey)

theorem related_renewed (h : Related s a) (eventMask : EventMask) (callback : Callback)
    (userData : UserData) :
    Related { s with el := { s.el with
        first := s.el.first.map (renewed eventMask callback userData)
        eventMask := unionOf (s.el.first.map (renewed eventMask callback userData)) } }
      (edit a (retarget callback userData eventMask a.sent.length)) := by
  have hmap : s.el.first.filterMap (fun eh => some (renewed eventMask callback userData eh)) =
      s.el.first.map (renewed eventMask callback userData) :=
    congrFun List.filterMap_eq_map s.el.first
  rw [← hmap]
  exact related_edit h (edits_renewed _ _ _ _ _) fun eh heh => covers_unionOf (mem_live.mp heh).1

def NoneFlagged (el : HandlerList Callback UserData) (callback : Callback)
    (userData : UserData) : Prop :=
  ∀ eh ∈ el.first, Matches callback userData eh → eh.remove = false

instance (el : HandlerList Callback UserData) (callback : Callback) (userData : UserData) :
    Decidable (NoneFlagged el callback userData) :=
  inferInstanceAs (Decidable (∀ _ ∈ _, _ → _))

/-- The list and the registry find the same handlers. -/
theorem found_addresses (hlists : Lists regs first)
    (hflags : ∀ eh ∈ first, Matches callback userData eh → eh.remove = false)
    (eventMask : EventMask) :
    (((first.map (renewed eventMask callback userData)).filter
        fun eh => Matches callback userData eh).map HandlerRec.address) =
      (regs.filter fun r => IsFor callback userData r).map Reg.address := by
  induction first generalizing regs with
  | nil =>
    obtain rfl := List.map_eq_nil_iff.mp hlists
    rfl
  | cons eh rest ih =>
    obtain ⟨haddress, -, hmatches⟩ := renewed_frame eventMask callback userData eh
    have hrest : ∀ eh ∈ rest, Matches callback userData eh → eh.remove = false :=
      fun eh heh => hflags eh (List.mem_cons_of_mem _ heh)
    cases hflag : eh.remove with
    | true =>
      have hother : ¬ Matches callback userData eh := by
        intro hkey
        rw [hflags eh List.mem_cons_self hkey] at hflag
        cases hflag
      have hnot := hmatches.not.mpr hother
      rw [List.map_cons, List.filter_cons_of_neg (by simpa using hnot),
        ih (hlists.of_flagged hflag) hrest]
    | false =>
      obtain ⟨r, regs', rfl, rfl, htail⟩ := hlists.cons hflag
      by_cases hkey : IsFor callback userData r
      · have hsame := hmatches.mpr hkey
        rw [List.map_cons, List.filter_cons_of_pos (by simpa using hsame),
          List.filter_cons_of_pos (by simpa using hkey), List.map_cons, List.map_cons, haddress,
          ih htail hrest]
        rfl
      · have hnot := hmatches.not.mpr hkey
        rw [List.map_cons, List.filter_cons_of_neg (by simpa using hnot),
          List.filter_cons_of_neg (by simpa using hkey), ih htail hrest]

theorem map_renewed_eq
    (hnone : (first.map (renewed eventMask callback userData)).filter
      (fun eh => Matches callback userData eh) = []) :
    first.map (renewed eventMask callback userData) = first := by
  refine List.map_congr_left (fun eh heh => ?_) |>.trans (List.map_id first)
  have hkey : ¬ Matches callback userData eh := by
    intro hkey
    have hmem : renewed eventMask callback userData eh ∈
        (first.map (renewed eventMask callback userData)).filter
          (fun eh => Matches callback userData eh) :=
      List.mem_filter.mpr ⟨List.mem_map_of_mem heh,
        decide_eq_true ((renewed_frame eventMask callback userData eh).2.2.mpr hkey)⟩
    rw [hnone] at hmem
    cases hmem
  exact if_neg hkey

/-- The list finds, changes or adds the handler the registry does. -/
theorem related_addHandler (h : Related s a) (eventMask : EventMask) (callback : Callback)
    (userData : UserData) (memory : Option Nat)
    (hflags : eventMask ≠ 0 → NoneFlagged s.el callback userData)
    (hfresh : ∀ address, memory = some address → address ∉ s.el.first.map HandlerRec.address) :
    (addHandler s.el eventMask callback userData memory).1 =
        (register a eventMask callback userData memory).1 ∧
      Related { s with el := (addHandler s.el eventMask callback userData memory).2 }
        (register a eventMask callback userData memory).2 := by
  by_cases hnull : eventMask = 0
  · simp only [addHandler, register, if_pos hnull]
    exact ⟨trivial, related_removeMatches h callback userData⟩
  · have hfound := found_addresses h.regs (hflags hnull) eventMask
    have hlast := congrArg List.getLast? hfound
    rw [List.getLast?_map, List.getLast?_map] at hlast
    cases hregs : (a.regs.filter fun r => IsFor callback userData r).getLast? with
    | some r =>
      rw [hregs, Option.map_some] at hlast
      obtain ⟨found, hsome, haddress⟩ := Option.map_eq_some_iff.mp hlast
      simp only [addHandler, register, if_neg hnull, hregs, hsome, haddress]
      exact ⟨trivial, related_renewed h eventMask callback userData⟩
    | none =>
      rw [hregs, Option.map_none] at hlast
      have hnone := Option.map_eq_none_iff.mp hlast
      have hsame := map_renewed_eq (List.getLast?_eq_none_iff.mp hnone)
      rw [hsame] at hnone
      cases memory with
      | none =>
        simp only [addHandler, register, if_neg hnull, hregs, hnone, hsame]
        exact ⟨trivial, ⟨h.sent, h.log, h.regs, h.turns, h.addresses, h.counts,
          fun eh heh => covers_unionOf (mem_live.mp heh).1⟩, h.refCount, h.clean⟩
      | some address =>
        simp only [addHandler, register, if_neg hnull, hregs, hnone, hsame]
        exact ⟨trivial, related_append h {
          address := address
          callback := callback
          userData := userData
          eventMask := eventMask
          since := a.sent.length } (hfresh address rfl)⟩

end adding

section sending

variable {s : State Callback UserData} {a : Registry Callback UserData}

theorem exists_frame {turns : List (Turn Callback UserData)}
    (h : List.Forall₂ (Waits first) stack turns) {t : Turn Callback UserData} (ht : t ∈ turns) :
    ∃ frame ∈ stack, Waits first frame t := by
  induction h with
  | nil => cases ht
  | cons hwaits htail ih =>
    rcases List.mem_cons.mp ht with rfl | ht
    · exact ⟨_, List.mem_cons_self, hwaits⟩
    · obtain ⟨frame, hframe, hsame⟩ := ih ht
      exact ⟨frame, List.mem_cons_of_mem _ hframe, hsame⟩

theorem next_related (type : EventMask) {waiting : List (Reg Callback UserData)}
    (hlists : Lists waiting rest) :
    nextHandler type rest = none ∧ nextTurn type waiting = none ∨
      ∃ before r tail waiting', rest = before ++ record r :: tail ∧
        nextHandler type rest = some (record r) ∧ nextTurn type waiting = some (r, waiting') ∧
        Lists waiting' tail := by
  induction rest generalizing waiting with
  | nil =>
    obtain rfl := List.map_eq_nil_iff.mp hlists
    exact .inl ⟨rfl, rfl⟩
  | cons eh rest ih =>
    cases hflag : eh.remove with
    | true =>
      have hskip : nextHandler type (eh :: rest) = nextHandler type rest := by
        rw [nextHandler, List.find?_cons_of_neg (by simp [hflag])]
        rfl
      rcases ih (hlists.of_flagged hflag) with hnone | ⟨before, r, tail, waiting', hsplit, hnext,
        hturn, htail⟩
      · exact .inl ⟨hskip.trans hnone.1, hnone.2⟩
      · exact .inr ⟨eh :: before, r, tail, waiting', congrArg _ hsplit, hskip.trans hnext, hturn,
          htail⟩
    | false =>
      obtain ⟨r, regs', rfl, rfl, htail⟩ := hlists.cons hflag
      by_cases hmask : r.eventMask &&& type ≠ 0
      · right
        refine ⟨[], r, rest, regs', rfl, ?_, if_pos hmask, htail⟩
        rw [nextHandler, List.find?_cons_of_pos (by simpa [record] using hmask)]
      · have hskip : nextHandler type (record r :: rest) = nextHandler type rest := by
          rw [nextHandler, List.find?_cons_of_neg (by simpa [record] using hmask)]
          rfl
        have hturn : nextTurn type (r :: regs') = nextTurn type regs' := if_neg hmask
        rcases ih htail with hnone | ⟨before, r', tail, waiting', hsplit, hnext, hnextTurn,
          hrest⟩
        · exact .inl ⟨hskip.trans hnone.1, hturn.trans hnone.2⟩
        · exact .inr ⟨record r :: before, r', tail, waiting', congrArg _ hsplit,
            hskip.trans hnext, hturn.trans hnextTurn, hrest⟩

/-- The outermost send frees the flagged handlers. -/
theorem lists_live (h : Lists regs first) : Lists regs (live first) := by
  rw [Lists, h, live, live, List.filter_filter]
  simp

/-- The loop of a send does what the delivery does, up to the next call or to the end. -/
theorem related_proceed (h : Traversed s a) (event : Nat) (type : EventMask)
    (hcount : s.el.refCount.toNat = s.stack.length + 1)
    {before rest : List (HandlerRec Callback UserData)} (hrest : s.el.first = before ++ rest)
    {waiting : List (Reg Callback UserData)} (hwaiting : Lists waiting rest) :
    Related (proceed s event type s.el.refCount rest) (deliver a event type waiting) := by
  rcases next_related type hwaiting with ⟨hnext, hturn⟩ | ⟨skipped, r, tail, waiting', rfl,
    hnext, hturn, htail⟩
  · have hdeliver : deliver a event type waiting = a := by rw [deliver, hturn]
    have hdown : (s.el.refCount - 1).toNat = s.stack.length := by
      have hbound := s.el.refCount.isLt
      rw [BitVec.toNat_sub]
      change (2 ^ 32 - 1 + s.el.refCount.toNat) % 2 ^ 32 = s.stack.length
      omega
    rw [hdeliver, proceed, hnext]
    by_cases hnested : 0 < s.el.refCount - 1
    · have hstack : s.stack ≠ [] := by
        intro hnil
        rw [BitVec.lt_def, hdown, hnil] at hnested
        exact Nat.lt_irrefl _ hnested
      simp only [if_pos hnested]
      exact ⟨⟨h.sent, h.log, h.regs, h.turns, h.addresses, h.counts, h.masks⟩, hdown,
        fun hnil => absurd hnil hstack⟩
    · have hstack : s.stack = [] := by
        rw [BitVec.lt_def, hdown] at hnested
        exact List.length_eq_zero_iff.mp (by simpa using hnested)
      simp only [if_neg hnested]
      refine ⟨⟨h.sent, h.log, lists_live h.regs, ?_, ?_, h.counts, ?_⟩, hdown, ?_⟩
      · have hturns := h.turns
        rw [hstack, List.forall₂_nil_left_iff] at hturns
        change List.Forall₂ _ s.stack a.turns
        rw [hstack, hturns]
        exact .nil
      · exact h.addresses.sublist (List.filter_sublist.map _)
      · intro eh heh
        exact h.masks eh (mem_live.mpr ⟨(mem_live.mp (mem_live.mp heh).1).1, (mem_live.mp heh).2⟩)
      · intro _ eh heh
        exact (mem_live.mp heh).2
  · have hdeliver : deliver a event type waiting = { a with
        turns := { event := event, type := type, waiting := waiting' } :: a.turns
        log := a.log ++ [.called event r.address r.callback r.userData] } := by
      rw [deliver, hturn]
    rw [hdeliver, proceed, hnext]
    have hnodup := h.addresses
    rw [hrest, ← List.append_assoc] at hnodup
    refine ⟨⟨h.sent, congrArg (· ++ _) h.log, h.regs, .cons ⟨rfl, rfl, tail, ?_, htail⟩ h.turns,
      h.addresses, ⟨hcount, h.counts⟩, h.masks⟩, hcount, fun hnil => by cases hnil⟩
    change following s.el.first r.address = some tail
    rw [hrest, ← List.append_assoc]
    exact following_split hnodup

/-- A send counts itself before its loop. -/
theorem related_send (h : Related s a) (type : EventMask)
    (hdepth : s.el.refCount ≠ 0xFFFFFFFF) :
    Related (send s type)
      (deliver { a with sent := a.sent ++ [type] } a.sent.length type a.regs) := by
  have hsent : s.sent ++ [type] = a.sent ++ [type] := congrArg (· ++ [type]) h.sent
  have hlt : s.el.refCount.toNat ≠ 0xFFFFFFFF := by
    intro heq
    exact hdepth (BitVec.eq_of_toNat_eq heq)
  have hup : (s.el.refCount + 1).toNat = s.el.refCount.toNat + 1 := by
    have hbound := s.el.refCount.isLt
    rw [BitVec.toNat_add]
    change (s.el.refCount.toNat + 1) % 2 ^ 32 = s.el.refCount.toNat + 1
    omega
  have hnonzero : s.el.refCount + 1 ≠ 0 := by
    intro hzero
    rw [hzero] at hup
    cases hup
  by_cases hnone : s.el.eventMask &&& type = 0
  · have hturn : nextTurn type a.regs = none := by
      refine nextTurn_disjoint fun r hr => ?_
      have hmem : record r ∈ live s.el.first := h.regs ▸ List.mem_map_of_mem hr
      exact covers_disjoint (h.masks _ hmem) hnone
    have hdeliver : deliver { a with sent := a.sent ++ [type] } a.sent.length type a.regs =
        { a with sent := a.sent ++ [type] } := by
      rw [deliver, hturn]
    rw [hdeliver, send]
    simp only [if_pos hnone]
    exact ⟨⟨hsent, h.log, h.regs, h.turns, h.addresses, h.counts, h.masks⟩, h.refCount, h.clean⟩
  · rw [send]
    simp only [if_neg hnone, if_neg hnonzero, h.sent]
    exact @related_proceed _ _
      { s with
        sent := a.sent ++ [type]
        el := { s.el with refCount := s.el.refCount + 1 } }
      { a with sent := a.sent ++ [type] }
      ⟨rfl, h.log, h.regs, h.turns, h.addresses, h.counts, h.masks⟩ a.sent.length type
      (hup.trans (congrArg (· + 1) h.refCount)) [] s.el.first rfl a.regs h.regs

/-- A send goes on behind the handler it has called. -/
theorem related_returns (h : Related s a) {frame : Frame} (hstack : s.stack = frame :: stack) :
    ∃ t turns, a.turns = t :: turns ∧ ∃ s', handlerReturns s = some s' ∧
      Related s' (deliver { a with turns := turns } t.event t.type t.waiting) := by
  have hturns := h.turns
  rw [hstack] at hturns
  obtain ⟨t, turns, hwaits, htail, hsplit⟩ := List.forall₂_cons_left_iff.mp hturns
  obtain ⟨rest, hrest, hwaiting⟩ := hwaits.rest
  obtain ⟨before, hbefore⟩ := following_suffix hrest
  have hcounts := h.counts
  rw [hstack] at hcounts
  have hcount := h.refCount
  rw [hstack, List.length_cons] at hcount
  have hsame : frame.refCount = s.el.refCount :=
    BitVec.eq_of_toNat_eq (hcounts.1.trans hcount.symm)
  refine ⟨t, turns, hsplit, proceed { s with stack := stack } frame.event frame.type
    frame.refCount rest, ?_, ?_⟩
  · rw [handlerReturns, hstack]
    simp only [hrest, Option.bind_eq_bind, Option.bind_some]
    rfl
  · rw [hwaits.event, hwaits.type, hsame]
    exact @related_proceed _ _ { s with stack := stack } { a with turns := turns }
      ⟨h.sent, h.log, h.regs, htail, h.addresses, hcounts.2, h.masks⟩ frame.event frame.type
      hcount before rest hbefore t.waiting hwaiting

theorem related_init :
    Related (init : State Callback UserData) (start : Registry Callback UserData) :=
  ⟨⟨rfl, rfl, rfl, .nil, List.nodup_nil, trivial, fun eh heh => by cases heh⟩, rfl,
    fun _ eh heh => by cases heh⟩

end sending

section runs

variable [DecidableEq Callback] [DecidableEq UserData]

/-- `vbi_malloc` returns memory that is not in use. -/
def Allocates (s : State Callback UserData) : Op Callback UserData → Prop
  | .add _ _ _ memory => ∀ address ∈ memory, address ∉ s.el.first.map HandlerRec.address
  | _ => True

instance (s : State Callback UserData) (op : Op Callback UserData) : Decidable (Allocates s op) :=
  match op with
  | .add _ _ _ memory =>
      inferInstanceAs (Decidable (∀ address ∈ memory, address ∉ _))
  | .remove _ | .removeByEvent _ | .removeByCallback _ _ | .send _ | .handlerReturns =>
      isTrue trivial

/-- No handler is added while it waits to be freed, and another send can be counted. -/
def Meets (s : State Callback UserData) : Op Callback UserData → Prop
  | .add eventMask callback userData _ => eventMask ≠ 0 → NoneFlagged s.el callback userData
  | .send _ => s.el.refCount ≠ 0xFFFFFFFF
  | _ => True

instance (s : State Callback UserData) (op : Op Callback UserData) : Decidable (Meets s op) :=
  match op with
  | .add eventMask callback userData _ =>
      inferInstanceAs (Decidable (eventMask ≠ 0 → NoneFlagged s.el callback userData))
  | .send _ => inferInstanceAs (Decidable (s.el.refCount ≠ 0xFFFFFFFF))
  | .remove _ | .removeByEvent _ | .removeByCallback _ _ | .handlerReturns => isTrue trivial

theorem related_step {s : State Callback UserData} {a : Registry Callback UserData}
    (h : Related s a) (op : Op Callback UserData) (hallocates : Allocates s op)
    (hmeets : Meets s op) :
    ∃ s', EventHandlers.step s op = some s' ∧ Related s' (EventRegistry.step a op) := by
  cases op with
  | add eventMask callback userData memory =>
    obtain ⟨hresult, hrelated⟩ :=
      related_addHandler h eventMask callback userData memory hmeets hallocates
    refine ⟨_, rfl, ?_⟩
    have hlog := related_log hrelated
      (.added (addHandler s.el eventMask callback userData memory).1)
    rw [EventRegistry.step]
    rw [hresult] at hlog ⊢
    exact hlog
  | remove eh => exact ⟨_, rfl, related_removeHandler h eh⟩
  | removeByEvent eventMask => exact ⟨_, rfl, related_removeByEvent h eventMask⟩
  | removeByCallback callback userData =>
    exact ⟨_, rfl, related_removeMatches h callback userData⟩
  | send type => exact ⟨_, rfl, related_send h type hmeets⟩
  | handlerReturns =>
    cases hstack : s.stack with
    | nil =>
      have hturns := h.turns
      rw [hstack, List.forall₂_nil_left_iff] at hturns
      refine ⟨s, ?_, ?_⟩
      · rw [EventHandlers.step, handlerReturns, hstack]
      · rw [EventRegistry.step, hturns]
        exact h
    | cons frame stack =>
      obtain ⟨t, turns, hturns, s', hstep, hrelated⟩ := related_returns h hstack
      refine ⟨s', hstep, ?_⟩
      rw [EventRegistry.step, hturns]
      exact hrelated

/-- In every run in which no handler is added while it waits to be freed, no freed handler is
accessed and the handlers see what the registry says: every event is delivered in list order
to the handlers registered for it when their turn comes. The event mask of the list includes
theirs, and a handler registered since before an event was sent has received it unless the
event is still being delivered. -/
theorem events_delivered {ops : List (Op Callback UserData)}
    (hmeets : GuardedRuns.Permitted EventHandlers.step
      (fun s op => Allocates s op ∧ Meets s op) init ops) :
    ∃ s, GuardedRuns.run EventHandlers.step init ops = some s ∧ s.log = (after ops).log ∧
      live s.el.first = (after ops).regs.map record ∧
      (∀ eh ∈ live s.el.first, Covers s.el.eventMask eh) ∧
      ∀ event type, s.sent[event]? = some type → ∀ r ∈ (after ops).regs, r.since ≤ event →
        r.eventMask &&& type ≠ 0 →
        .called event r.address r.callback r.userData ∈ s.log ∨
          ∃ frame ∈ s.stack, frame.event = event := by
  obtain ⟨s, hrun, hrelated⟩ := GuardedRuns.run_simulates EventRegistry.step Related
    (fun s a op h hok => related_step h op hok.1 hok.2) related_init hmeets
  refine ⟨s, hrun, hrelated.log, hrelated.regs.symm, hrelated.masks, ?_⟩
  intro event type hsent r hr hsince hmask
  rw [hrelated.sent] at hsent
  rcases (fair_after ops).served event type hsent r hr hsince hmask with
    hcalled | ⟨t, ht, hevent, -⟩
  · left
    rw [hrelated.log]
    exact hcalled
  · right
    obtain ⟨frame, hframe, hwaits⟩ := exists_frame hrelated.turns ht
    exact ⟨frame, hframe, hwaits.event.symm.trans hevent⟩

/-- One handler that removes itself and adds another one while it is called. -/
def exchange : List (Op Nat Nat) :=
  [.add 1 0 0 (some 0), .send 1, .removeByCallback 0 0, .add 1 1 0 (some 1), .handlerReturns,
    .handlerReturns, .send 1, .handlerReturns]

theorem events_delivered_exchange :
    ∃ s, GuardedRuns.run EventHandlers.step init exchange = some s ∧
      s.log = [.added (some 0), .called 0 0 0 0, .added (some 1), .called 0 1 1 0,
        .called 1 1 1 0] := by
  obtain ⟨s, hrun, hlog, -⟩ := @events_delivered Nat Nat _ _ exchange (by decide)
  exact ⟨s, hrun, hlog.trans (by decide)⟩

/-- A handler that removes and adds itself while it is called: the second event is not
received. -/
theorem readded_handler_freed :
    ∃ s : State Nat Nat, GuardedRuns.run EventHandlers.step init
        [.add 1 0 0 (some 0), .send 1, .removeByCallback 0 0, .add 1 0 0 none, .handlerReturns,
          .send 1] = some s ∧
      s.log = [.added (some 0), .called 0 0 0 0, .added (some 0)] ∧ s.sent = [1, 1] ∧
      s.stack = [] := by
  exact ⟨_, rfl, by decide, by decide, by decide⟩

end runs

end EventDelivery

import Zvbi.ProxyCycles

/-!
# Who is scheduled next

Since a client was started, those which were started before it wait for their turn. Of the
others, at most one has a reservation which is not over, and no later client on the list has
a smaller counter. The counters of the rest are not smaller than those of the clients which wait.
-/

namespace ProxyTurns
open ProxyDaemon ProxyToken ProxyCycles RunningChoice

def members (dev : Nat) (l : List Clnt) : List Clnt := l.filter (Clnt.on dev)

variable {c u v w c' z : Clnt}

theorem mem_members {dev : Nat} {l : List Clnt} :
    c ∈ members dev l ↔ c ∈ l ∧ c.devIdx = dev := by
  rw [members, List.mem_filter, on_iff]

/-- All clients of the device take part in the scheduling with the same sub-priority. -/
def Peers (dev subPrio : Nat) (l : List Clnt) : Prop :=
  ∀ c ∈ members dev l, c.scheduled dev = true ∧ c.chnProfile.subPrio = subPrio

def Ripe (now : Int) (c : Clnt) : Prop := c.chnProfile.minDuration ≤ now - c.chnState.lastStart

variable {now' : Int} {r : List Clnt} {sched : Option Nat}

theorem Ripe.later {now : Int} (h : Ripe now c) (hnow : now ≤ now') : Ripe now' c :=
  Int.le_trans h (Int.sub_le_sub_right hnow _)

structure Running (now : Int) (c : Clnt) : Prop where
  holds : Holds c.token
  isCompleted : c.chnState.isCompleted = false
  notRipe : ¬ Ripe now c

/-- The reservation of the client is over, and the clients which were last started before
time `t` do not have larger counters. -/
structure Spent (dev : Nat) (t now : Int) (l : List Clnt) (c : Clnt) : Prop where
  ripe : Ripe now c
  most : ∀ u ∈ members dev l, u.chnState.lastStart < t →
    u.chnState.cycleCount ≤ c.chnState.cycleCount

/-- Clients which were last started before time `t` wait for their turn. -/
structure Waiting (dev : Nat) (t now : Int) (l : List Clnt) : Prop where
  exists_started : ∃ c ∈ members dev l, t ≤ c.chnState.lastStart
  turn : ∀ c ∈ members dev l, t ≤ c.chnState.lastStart →
    Spent dev t now l c ∨ (Holds c.token ∧ c.chnState.isCompleted = false)
  ahead : (members dev l).Pairwise fun v w =>
    Running now v → v.chnState.cycleCount ≤ w.chnState.cycleCount

theorem Waiting.later {dev : Nat} {t now : Int} {l : List Clnt} (h : Waiting dev t now l)
    (hnow : now ≤ now') : Waiting dev t now' l := by
  refine ⟨h.exists_started, ?_, ?_⟩
  · intro c hc hstarted
    exact (h.turn c hc hstarted).imp_left fun hspent => ⟨hspent.ripe.later hnow, hspent.most⟩
  · refine h.ahead.imp fun {v w} hahead hrunning => hahead ⟨hrunning.holds, hrunning.isCompleted, ?_⟩
    exact fun hripe => hrunning.notRipe (hripe.later hnow)

/-- Clients which wait do not have the token, since its owner was started last. -/
theorem waiting_token {dev : Nat} {time t : Int} {l : List Clnt} (h : Fair dev time l)
    (hsome : ∃ c ∈ members dev l, t ≤ c.chnState.lastStart) (hu : u ∈ members dev l)
    (hold : u.chnState.lastStart < t) : u.token = .none := by
  obtain ⟨x, hx, hstarted⟩ := hsome
  rw [mem_members] at hu hx
  by_contra htoken
  have hlatest := (h.leads u hu.1 hu.2 htoken).latest x hx.1 hx.2
  omega

/-- Client `u` is chosen rather than `v`, whatever their order on the list. -/
structure Yields (u v : Clnt) : Prop where
  subPrio : u.chnProfile.subPrio = v.chnProfile.subPrio
  token : u.token = .none
  lastStart : u.chnState.lastStart < v.chnState.lastStart
  count : u.chnState.cycleCount ≤ v.chnState.cycleCount
  stopped : (v.controls && !v.chnState.isCompleted) = false

theorem controls_none (h : c.token = .none) : c.controls = false :=
  congrArg TokenState.controlsChn h

theorem cycles_idle (h : (c.controls && c.chnState.isCompleted) = false) :
    c.cycles = c.chnState.cycleCount := by
  rw [Clnt.cycles, h]
  exact Int.add_zero _

theorem le_cycles (c : Clnt) : c.chnState.cycleCount ≤ c.cycles := by
  rw [Clnt.cycles]
  split <;> omega

theorem Yields.cycles_le (h : Yields u v) : u.cycles ≤ v.cycles := by
  have hcontrols : (u.controls && u.chnState.isCompleted) = false := by
    rw [controls_none h.token, Bool.false_and]
  rw [cycles_idle hcontrols]
  exact Int.le_trans h.count (le_cycles v)

theorem Yields.keeps (h : Yields u v) : v.wins u = false := by
  have hcycles : ¬ v.cycles < u.cycles := Int.not_lt.mpr h.cycles_le
  have hsub : ¬ v.chnProfile.subPrio > u.chnProfile.subPrio := by
    rw [h.subPrio]
    exact Nat.lt_irrefl _
  have hstart := h.lastStart
  rw [Clnt.wins, if_neg hcycles, if_neg hsub, if_pos h.subPrio.symm, h.stopped,
    controls_none h.token, if_neg Bool.false_ne_true, Bool.false_and, if_neg Bool.false_ne_true]
  split
  · rw [decide_eq_false (by omega), decide_eq_false (by omega)]
    rfl
  · rfl

theorem Yields.takes (h : Yields u v) : u.wins v = true := by
  rw [Clnt.wins]
  split
  · rfl
  · split
    · rfl
    · rw [if_pos h.subPrio, controls_none h.token, Bool.false_and, if_neg Bool.false_ne_true]
      cases hv : v.controls with
      | true =>
        have hcompleted := h.stopped
        rw [hv, Bool.true_and, Bool.not_eq_false'] at hcompleted
        rw [hcompleted]
        rfl
      | false =>
        rw [Bool.false_and, if_neg Bool.false_ne_true, decide_eq_true h.lastStart]
        rfl

/-- A client whose reservation is not over keeps the channel. -/
theorem running_keeps (hsub : w.chnProfile.subPrio = v.chnProfile.subPrio) (hv : v.controls = true)
    (hgoing : v.chnState.isCompleted = false) (hw : w.controls = false)
    (hcount : v.chnState.cycleCount ≤ w.chnState.cycleCount) : w.wins v = false := by
  have hcycles : ¬ w.cycles < v.cycles := by
    rw [cycles_idle (c := v) (by rw [hgoing, Bool.and_false])]
    exact Int.not_lt.mpr (Int.le_trans hcount (le_cycles w))
  rw [Clnt.wins, if_neg hcycles, if_neg (by omega), if_pos hsub, hw, hv, hgoing]
  rfl

theorem running_takes (hsub : v.chnProfile.subPrio = w.chnProfile.subPrio) (hv : v.controls = true)
    (hgoing : v.chnState.isCompleted = false) : v.wins w = true := by
  rw [Clnt.wins, if_pos hsub, hv, hgoing]
  split
  · rfl
  · split <;> rfl

variable {a : Clnt} {R : Clnt → Clnt → Prop}

theorem Completes.mono {u' : Clnt} {top : Int} (hu : Completes a top u u')
    (hc : Completes a top c c') (hua : u.id ≠ a.id) (hca : c.id ≠ a.id) (hdev : u.devIdx = c.devIdx)
    (hcount : u.chnState.cycleCount ≤ c.chnState.cycleCount) :
    u'.chnState.cycleCount ≤ c'.chnState.cycleCount := by
  have hon : u.on a.devIdx = c.on a.devIdx := by
    rw [Clnt.on, Clnt.on, hdev]
  rw [(hu.rest hua).2, (hc.rest hca).2, hon]
  exact leveled_mono _ hcount

/-- A client on the list of members, before a change. -/
theorem members_related (hR : ∀ c c', R c c' → Placed c c') {dev : Nat} {l l' : List Clnt}
    (hl : List.Forall₂ R l l') (hc' : c' ∈ members dev l') : ∃ c ∈ members dev l, R c c' := by
  obtain ⟨hmem, hdev⟩ := mem_members.mp hc'
  obtain ⟨c, hc, hcc'⟩ := forall₂_mem_right hl hmem
  exact ⟨c, mem_members.mpr ⟨hc, (hR c c' hcc').devIdx.symm.trans hdev⟩, hcc'⟩

theorem members_forall₂ (hR : ∀ c c', R c c' → Placed c c') {dev : Nat} {l l' : List Clnt}
    (hl : List.Forall₂ R l l') : List.Forall₂ R (members dev l) (members dev l') := by
  refine List.rel_filter (fun c c' hcc' => ?_) hl
  change c.on dev = true ↔ c'.on dev = true
  rw [on_iff, on_iff, (hR c c' hcc').devIdx]

/-- A property of pairs on a list goes over to a related list. -/
theorem pairwise_related {P Q : Clnt → Clnt → Prop} {l l' : List Clnt}
    (hPQ : ∀ v ∈ l, ∀ v' ∈ l', R v v' → ∀ w w', R w w' → P v w → Q v' w') (hl : List.Forall₂ R l l')
    (h : l.Pairwise P) : l'.Pairwise Q := by
  induction hl with
  | nil => exact .nil
  | @cons v v' l l' hvv' hl ih =>
    obtain ⟨hfirst, hrest⟩ := List.pairwise_cons.mp h
    refine List.pairwise_cons.mpr ⟨fun w' hw' => ?_, ih (fun a ha a' ha' =>
      hPQ a (List.mem_cons_of_mem v ha) a' (List.mem_cons_of_mem v' ha')) hrest⟩
    obtain ⟨w, hw, hww'⟩ := forall₂_mem_right hl hw'
    exact hPQ v List.mem_cons_self v' List.mem_cons_self hvv' w w' hww' (hfirst w hw)

theorem quiet_controls (h : Quiet c c') : c'.controls = c.controls :=
  congrArg TokenState.controlsChn h.token

/-- What the scheduler meets: the token was sent to its owner, whose reservation is over. -/
structure Ready (dev subPrio : Nat) (t time now : Int) (l : List Clnt) : Prop where
  fair : Fair dev time l
  peers : Peers dev subPrio l
  waiting : Waiting dev t now l
  sent : ∀ c ∈ members dev l, c.token ≠ .grant
  finished : ∀ c ∈ members dev l, ¬ Running now c

section
variable {dev subPrio : Nat} {t time now : Int} {l l' : List Clnt} {wins : Nat → Nat → Bool}

/-- A client which does not have the token is spent, if it does not wait. -/
theorem Ready.spent (h : Ready dev subPrio t time now l) (hc : c ∈ members dev l)
    (hstarted : t ≤ c.chnState.lastStart)
    (hcontrols : (c.controls && !c.chnState.isCompleted) = false) : Spent dev t now l c := by
  rcases h.waiting.turn c hc hstarted with hspent | ⟨hholds, hgoing⟩
  · exact hspent
  · have hcc : c.controls = true := by
      rcases hholds with htoken | htoken | htoken
      · exact absurd htoken (h.sent c hc)
      · exact congrArg TokenState.controlsChn htoken
      · exact congrArg TokenState.controlsChn htoken
    rw [hcc, hgoing] at hcontrols
    cases hcontrols

theorem Ready.expired (h : Ready dev subPrio t time now l) (hc : c ∈ members dev l)
    (hcontrols : c.controls = true) (hgoing : c.chnState.isCompleted = false) :
    c.expired now = true := by
  have hripe : c.chnProfile.minDuration ≤ now - c.chnState.lastStart := by
    by_contra hnot
    exact h.finished c hc ⟨holds_of_controls hcontrols, hgoing, hnot⟩
  rw [Clnt.expired, hgoing, decide_eq_true hripe]
  rfl

/-- Before client `a` completes its reservation, it is the only one with the token. -/
theorem Ready.stopped (h : Ready dev subPrio t time now l) (ha : a ∈ members dev l)
    (hcontrols : a.controls = true) (hc : c ∈ members dev l) (hne : c.id ≠ a.id) :
    c.controls = false := by
  rw [mem_members] at ha hc
  refine Bool.eq_false_iff.mpr fun hcc => hne (congrArg Clnt.id ?_)
  exact h.fair.owner ha.1 ha.2 (controls_ne_none hcontrols) hc.1 hc.2 (controls_ne_none hcc)

/-- After a turn the clients which do not wait are spent. -/
theorem Turn.spent (hturn : Turn dev now l l' wins) (h : Ready dev subPrio t time now l)
    (hc' : c' ∈ members dev l') (hstarted : t ≤ c'.chnState.lastStart) :
    Spent dev t now l' c' ∧ (c'.controls && !c'.chnState.isCompleted) = false := by
  cases hturn with
  | idle hset =>
    have hstopped : (c'.controls && !c'.chnState.isCompleted) = false := by
      refine Bool.eq_false_iff.mpr fun hgoing => ?_
      rw [Bool.and_eq_true, Bool.not_eq_true'] at hgoing
      have hexpired := h.expired hc' hgoing.1 hgoing.2
      have hnot := hset c' (mem_members.mp hc').1 (List.mem_map_of_mem (mem_members.mp hc').1)
        (h.peers c' hc').1
      rw [hgoing.1, hexpired] at hnot
      cases hnot
    exact ⟨h.spent hc' hstarted hstopped, hstopped⟩
  | done a top first rest ha hadev hcontrols hexpired hids hl htop =>
    have ham : a ∈ members dev l := mem_members.mpr ⟨ha, hadev⟩
    have hplaced : ∀ c c', Completes a top c c' → Placed c c' := fun _ _ hcc' => hcc'.toPlaced
    obtain ⟨c, hc, hcc'⟩ := members_related hplaced hl hc'
    rw [hcc'.lastStart] at hstarted
    have hcdev := (mem_members.mp hc).2
    by_cases hid : c.id = a.id
    · obtain rfl := h.fair.unique.eq (mem_members.mp hc).1 ha hid
      obtain ⟨hcompleted, hcount⟩ := hcc'.self rfl
      refine ⟨⟨?_, ?_⟩, by rw [hcompleted, Bool.not_true, Bool.and_false]⟩
      · rw [Clnt.expired, Bool.and_eq_true, decide_eq_true_iff] at hexpired
        rw [Ripe, hcc'.chnProfile, hcc'.lastStart]
        exact hexpired.2
      · intro u' hu' _
        obtain ⟨u, hu, huu'⟩ := members_related hplaced hl hu'
        rw [hcount]
        exact huu'.count_le htop (mem_members.mp hu).1 ((mem_members.mp hu).2.trans hcdev.symm)
    · have hstopped := h.stopped ham hcontrols hc hid
      have hspent := h.spent hc hstarted (by rw [hstopped, Bool.false_and])
      refine ⟨⟨?_, ?_⟩, by rw [quiet_controls hcc'.toQuiet, hstopped, Bool.false_and]⟩
      · rw [Ripe, hcc'.chnProfile, hcc'.lastStart]
        exact hspent.ripe
      · intro u' hu' hold
        obtain ⟨u, hu, huu'⟩ := members_related hplaced hl hu'
        rw [huu'.lastStart] at hold
        have hua : u.id ≠ a.id := by
          intro heq
          obtain rfl := h.fair.unique.eq (mem_members.mp hu).1 ha heq
          exact controls_ne_none hcontrols (waiting_token h.fair h.waiting.exists_started hu hold)
        exact Completes.mono huu' hcc' hua hid ((mem_members.mp hu).2.trans hcdev.symm)
          (hspent.most u hu hold)

theorem winsIn_eq (h : Fair dev time l) (hw : w ∈ l) (hv : v ∈ l) :
    winsIn l w.id v.id = w.wins v := by
  rw [winsIn, h.find hw, h.find hv]

/-- All clients of the device are compared. -/
theorem takers_members (h : Fair dev time l) (hp : Peers dev subPrio l) :
    takers dev l (l.map Clnt.id) = (members dev l).map Clnt.id := by
  rw [takers, List.filter_map, members]
  refine congrArg (List.map Clnt.id) (List.filter_congr fun c hc => ?_)
  rw [Function.comp_apply, h.find hc, Option.any_some]
  by_cases hdev : c.devIdx = dev
  · rw [on_iff.mpr hdev]
    exact (hp c (mem_members.mpr ⟨hc, hdev⟩)).1
  · rw [Bool.eq_false_iff.mpr fun hon => hdev (on_iff.mp hon),
      Bool.eq_false_iff.mpr fun hs => hdev (scheduled_iff.mp hs).1]

theorem members_eq (h : Fair dev time l) (hu : u ∈ members dev l) (hv : v ∈ members dev l)
    (hid : u.id = v.id) : u = v :=
  h.unique.eq (mem_members.mp hu).1 (mem_members.mp hv).1 hid

/-- An element of the first part of a list is not behind one of the second part. -/
theorem first_of_sublist {first rest : List Nat} (hnodup : (first ++ rest).Nodup) {v w : Nat}
    (hsub : [v, w].Sublist (first ++ rest)) (hw : w ∈ first) : v ∈ first := by
  have hpairwise : (first ++ rest).Pairwise fun v w => w ∈ first → v ∈ first := by
    obtain ⟨-, -, hdisjoint⟩ := List.nodup_append.mp hnodup
    have hrest : ∀ w ∈ rest, w ∉ first := fun w hw hmem => hdisjoint w hmem w hw rfl
    refine List.pairwise_append.mpr ⟨?_, ?_, fun v hv w _ _ => hv⟩
    · exact List.Pairwise.imp_of_mem (fun hv _ _ _ => hv)
        (List.pairwise_of_forall fun _ _ => trivial)
    · exact List.Pairwise.imp_of_mem (fun _ hw _ hmem => absurd hmem (hrest _ hw))
        (List.pairwise_of_forall fun _ _ => trivial)
  exact List.pairwise_iff_forall_sublist.mp hpairwise hsub hw

/-- A client which waits is chosen rather than one which does not. -/
theorem Turn.yields (hturn : Turn dev now l l' wins) (h : Ready dev subPrio t time now l)
    (hu : u ∈ members dev l) (hv : v ∈ members dev l) (hold : u.chnState.lastStart < t)
    (hstarted : t ≤ v.chnState.lastStart) :
    wins v.id u.id = false ∧
      ([v, u].Sublist (members dev l) → wins u.id v.id = true) := by
  have hyields : ∀ {m : List Clnt} {u v : Clnt}, u.token = .none → u ∈ members dev m →
      u.chnProfile.subPrio = v.chnProfile.subPrio → u.chnState.lastStart < t →
      t ≤ v.chnState.lastStart → Spent dev t now m v →
      (v.controls && !v.chnState.isCompleted) = false → Yields u v :=
    fun htoken hum hsub hold hstarted hspent hstopped =>
      ⟨hsub, htoken, Int.lt_of_lt_of_le hold hstarted, hspent.most _ hum hold, hstopped⟩
  have htoken := waiting_token h.fair h.waiting.exists_started hu hold
  have hsub : u.chnProfile.subPrio = v.chnProfile.subPrio :=
    (h.peers u hu).2.trans (h.peers v hv).2.symm
  have hul := (mem_members.mp hu).1
  have hvl := (mem_members.mp hv).1
  cases hturn with
  | idle hset =>
    obtain ⟨hspent, hstopped⟩ := Turn.spent (.idle hset) h hv hstarted
    have huv := hyields htoken hu hsub hold hstarted hspent hstopped
    exact ⟨(winsIn_eq h.fair hvl hul).trans huv.keeps,
      fun _ => (winsIn_eq h.fair hul hvl).trans huv.takes⟩
  | done a top first rest ha hadev hcontrols hexpired hids hl htop =>
    have hfair' := h.fair.completes ha hadev (controls_ne_none hcontrols) hl htop
    have hnodup : (first ++ a.id :: rest).Nodup := hids ▸ h.fair.unique
    -- Before the turn of client `a`.
    have hbefore : v.id ≠ a.id → Yields u v := by
      intro hne
      have hstopped := h.stopped (mem_members.mpr ⟨ha, hadev⟩) hcontrols hv hne
      have hgoing : (v.controls && !v.chnState.isCompleted) = false := by
        rw [hstopped, Bool.false_and]
      exact hyields htoken hu hsub hold hstarted (h.spent hv hstarted hgoing) hgoing
    -- From its turn on.
    obtain ⟨u', hu', huu'⟩ := forall₂_mem_left hl hul
    obtain ⟨v', hv', hvv'⟩ := forall₂_mem_left hl hvl
    have hafter : Yields u' v' := by
      have hum : u' ∈ members dev l' :=
        mem_members.mpr ⟨hu', huu'.devIdx.trans (mem_members.mp hu).2⟩
      have hvm : v' ∈ members dev l' :=
        mem_members.mpr ⟨hv', hvv'.devIdx.trans (mem_members.mp hv).2⟩
      have hstarted' : t ≤ v'.chnState.lastStart := hvv'.lastStart ▸ hstarted
      obtain ⟨hspent, hstopped⟩ :=
        Turn.spent (.done a top first rest ha hadev hcontrols hexpired hids hl htop) h hvm hstarted'
      refine hyields (huu'.token.trans htoken) hum ?_ (huu'.lastStart ▸ hold) hstarted' hspent
        hstopped
      rw [huu'.chnProfile, hvv'.chnProfile]
      exact hsub
    have hne : ∀ i ∈ first, i ≠ a.id := by
      rintro i hi rfl
      exact (not_mem_of_nodup hnodup).1 hi
    have heq : winsIn l' v.id u.id = v'.wins u' ∧ winsIn l' u.id v.id = u'.wins v' := by
      rw [← huu'.id, ← hvv'.id]
      exact ⟨winsIn_eq hfair' hv' hu', winsIn_eq hfair' hu' hv'⟩
    constructor
    · dsimp only
      split
      · rename_i hfirst
        exact (winsIn_eq h.fair hvl hul).trans (hbefore (hne _ hfirst)).keeps
      · exact heq.1.trans hafter.keeps
    · intro hsub
      have horder : [v.id, u.id].Sublist (first ++ a.id :: rest) :=
        hids ▸ (hsub.trans List.filter_sublist).map Clnt.id
      dsimp only
      split
      · rename_i hfirst
        have hvfirst := first_of_sublist hnodup horder hfirst
        exact (winsIn_eq h.fair hul hvl).trans (hbefore (hne _ hvfirst)).takes
      · exact heq.2.trans hafter.takes

theorem Turn.chooses_waiting (hturn : Turn dev now l l' wins) (h : Ready dev subPrio t time now l)
    (hsome : ∃ u ∈ members dev l, u.chnState.lastStart < t) :
    ∃ u ∈ members dev l, u.chnState.lastStart < t ∧
      choose wins none ((members dev l).map Clnt.id) = some u.id := by
  have hkind : ∃ z, choose wins none ((members dev l).map Clnt.id) = some z ∧
      ∃ u ∈ members dev l, u.id = z ∧ u.chnState.lastStart < t := by
    have hstarted : ∀ {v : Clnt}, v ∈ members dev l →
        (¬ ∃ u ∈ members dev l, u.id = v.id ∧ u.chnState.lastStart < t) →
          t ≤ v.chnState.lastStart :=
      fun hv hnot => Int.not_lt.mp fun hlt => hnot ⟨_, hv, rfl, hlt⟩
    apply choose_kind
    · exact fun v hv => absurd hv (Option.some_ne_none v).symm
    · refine List.pairwise_map.mpr (List.pairwise_iff_forall_sublist.mpr ?_)
      rintro u v hsub ⟨u', hu', hid, hold⟩ hv
      have hum := hsub.subset List.mem_cons_self
      have hvm := hsub.subset (List.mem_cons_of_mem _ List.mem_cons_self)
      obtain rfl := members_eq h.fair hu' hum hid
      exact (Turn.yields hturn h hum hvm hold (hstarted hvm hv)).1
    · refine List.pairwise_map.mpr (List.pairwise_iff_forall_sublist.mpr ?_)
      rintro v u hsub hv ⟨u', hu', hid, hold⟩
      have hvm := hsub.subset List.mem_cons_self
      have hum := hsub.subset (List.mem_cons_of_mem _ List.mem_cons_self)
      obtain rfl := members_eq h.fair hu' hum hid
      exact (Turn.yields hturn h hum hvm hold (hstarted hvm hv)).2 hsub
    · obtain ⟨u, hu, hold⟩ := hsome
      exact ⟨u.id, List.mem_map_of_mem hu, u, hu, rfl, hold⟩
  obtain ⟨z, hz, u, hu, rfl, hold⟩ := hkind
  exact ⟨u, hu, hold, hz⟩

/-- A client whose reservation is not over is scheduled again. -/
theorem Turn.keeps_running (hturn : Turn dev now l l' wins) (hfair : Fair dev time l)
    (hpeers : Peers dev subPrio l) (hw : Waiting dev t now l) {r : Clnt} (hr : r ∈ members dev l)
    (hcontrols : r.controls = true) (hrunning : Running now r) :
    l' = l ∧ choose wins none ((members dev l).map Clnt.id) = some r.id := by
  have hrl := (mem_members.mp hr).1
  have hstopped : ∀ c ∈ members dev l, c.id ≠ r.id → c.controls = false := by
    intro c hc hne
    refine Bool.eq_false_iff.mpr fun hcc => hne (congrArg Clnt.id ?_)
    exact hfair.owner hrl (mem_members.mp hr).2 (controls_ne_none hcontrols) (mem_members.mp hc).1
      (mem_members.mp hc).2 (controls_ne_none hcc)
  cases hturn with
  | done a top first rest ha hadev hacontrols hexpired hids hl htop =>
    have hid : a.id = r.id := by
      by_contra hne
      rw [hstopped a (mem_members.mpr ⟨ha, hadev⟩) hne] at hacontrols
      cases hacontrols
    obtain rfl := hfair.unique.eq ha hrl hid
    rw [Clnt.expired, Bool.and_eq_true, decide_eq_true_iff] at hexpired
    exact absurd hexpired.2 hrunning.notRipe
  | idle hset =>
    refine ⟨rfl, ?_⟩
    have hsub : ∀ c ∈ members dev l, c.chnProfile.subPrio = r.chnProfile.subPrio := fun c hc =>
      (hpeers c hc).2.trans (hpeers r hr).2.symm
    have hkind : ∃ z, choose (winsIn l) none ((members dev l).map Clnt.id) = some z ∧ z = r.id := by
      apply choose_kind
      · exact fun v hv => absurd hv (Option.some_ne_none v).symm
      · refine List.pairwise_map.mpr (List.pairwise_iff_forall_sublist.mpr ?_)
        intro v c hbehind hv hc
        have hcm := hbehind.subset (List.mem_cons_of_mem _ List.mem_cons_self)
        obtain rfl := members_eq hfair (hbehind.subset List.mem_cons_self) hr hv
        have hcount := List.pairwise_iff_forall_sublist.mp hw.ahead hbehind hrunning
        rw [winsIn_eq hfair (mem_members.mp hcm).1 hrl]
        exact running_keeps (hsub c hcm) hcontrols hrunning.isCompleted (hstopped c hcm hc) hcount
      · refine List.pairwise_map.mpr (List.pairwise_iff_forall_sublist.mpr ?_)
        intro c v hbehind hc hv
        have hcm := hbehind.subset List.mem_cons_self
        obtain rfl := members_eq hfair
          (hbehind.subset (List.mem_cons_of_mem _ List.mem_cons_self)) hr hv
        rw [winsIn_eq hfair hrl (mem_members.mp hcm).1]
        exact running_takes (hsub c hcm).symm hcontrols hrunning.isCompleted
      · exact ⟨r.id, List.mem_map_of_mem hr, rfl⟩
    obtain ⟨z, hz, rfl⟩ := hkind
    exact hz

/-- The counter of the client which is scheduled is not larger than those of later clients. -/
theorem not_wins_le (hw : w.controls = false) (hz : z.controls = false) (h : w.wins z = false) :
    z.chnState.cycleCount ≤ w.chnState.cycleCount := by
  have hidle : ∀ {c : Clnt}, c.controls = false → c.cycles = c.chnState.cycleCount := fun hc =>
    cycles_idle (by rw [hc, Bool.false_and])
  rw [← hidle hw, ← hidle hz]
  by_contra hlt
  rw [Clnt.wins, if_pos (Int.not_le.mp hlt)] at h
  cases h

theorem Turn.started (hturn : Turn dev now l l' wins) :
    List.Forall₂ (fun c c' => Quiet c c' ∧ c'.chnState.lastStart = c.chnState.lastStart) l l' := by
  cases hturn with
  | idle hset => exact List.forall₂_same.mpr fun c _ => ⟨.refl c, rfl⟩
  | done a top first rest ha hadev hcontrols hexpired hids hl htop =>
    exact hl.imp fun _ _ hcc' => ⟨hcc'.toQuiet, hcc'.lastStart⟩

theorem Turn.ahead (hturn : Turn dev now l l' wins) (h : Ready dev subPrio t time now l)
    (hz : z ∈ members dev l) (hold : z.chnState.lastStart < t)
    (hchosen : choose wins none ((members dev l).map Clnt.id) = some z.id) :
    (members dev l').Pairwise fun v w =>
      v.id = z.id → v.chnState.cycleCount ≤ w.chnState.cycleCount := by
  have hplaced : ∀ c c', Quiet c c' ∧ c'.chnState.lastStart = c.chnState.lastStart →
      Placed c c' := fun _ _ hcc' => hcc'.1.toPlaced
  have hids : (members dev l').map Clnt.id = (members dev l).map Clnt.id :=
    ids_eq hplaced (members_forall₂ hplaced (Turn.started hturn))
  have hnodup : ((members dev l).map Clnt.id).Nodup :=
    h.fair.unique.sublist (List.filter_sublist.map Clnt.id)
  refine List.pairwise_iff_forall_sublist.mpr fun {z' w'} hsub hid => ?_
  have hzm' := hsub.subset List.mem_cons_self
  have hwm' := hsub.subset (List.mem_cons_of_mem _ List.mem_cons_self)
  obtain ⟨z₀, hz₀, hzz', hzstart⟩ := members_related hplaced (Turn.started hturn) hzm'
  obtain ⟨w, hwm, hww', hwstart⟩ := members_related hplaced (Turn.started hturn) hwm'
  obtain rfl := members_eq h.fair hz₀ hz (hzz'.id.symm.trans hid)
  have hloses : wins w.id z₀.id = false := by
    refine choose_after ?_ hnodup hchosen
    rw [← hids, ← hzz'.id, ← hww'.id]
    exact hsub.map Clnt.id
  by_cases hstarted : t ≤ w'.chnState.lastStart
  · exact (Turn.spent hturn h hwm' hstarted).1.most z' hzm' (hzstart ▸ hold)
  · have hztoken := waiting_token h.fair h.waiting.exists_started hz hold
    have hwtoken := waiting_token h.fair h.waiting.exists_started hwm
      (hwstart ▸ Int.not_le.mp hstarted)
    have hfair' := hturn.fair h.fair
    have hafter : winsIn l' w.id z₀.id = false →
        z'.chnState.cycleCount ≤ w'.chnState.cycleCount := by
      intro hlater
      rw [← hww'.id, ← hzz'.id,
        winsIn_eq hfair' (mem_members.mp hwm').1 (mem_members.mp hzm').1] at hlater
      exact not_wins_le (controls_none (hww'.token.trans hwtoken))
        (controls_none (hzz'.token.trans hztoken)) hlater
    cases hturn with
    | idle hset => exact hafter hloses
    | done a top first rest ha hadev hcontrols hexpired hids' hl htop =>
      dsimp only at hloses
      split at hloses
      · have hne : ∀ {c : Clnt}, c ∈ members dev l → c.token = .none → c.id ≠ a.id := by
          intro c hc htoken hca
          obtain rfl := h.fair.unique.eq (mem_members.mp hc).1 ha hca
          exact controls_ne_none hcontrols htoken
        have hcompletes : ∀ {c c' : Clnt}, c ∈ members dev l → c' ∈ members dev l' → c'.id = c.id →
            Completes a top c c' := by
          intro c c' hc hc' hcid
          obtain ⟨b, hb, hbc⟩ := forall₂_mem_right hl (mem_members.mp hc').1
          obtain rfl := h.fair.unique.eq hb (mem_members.mp hc).1 (hbc.id.symm.trans hcid)
          exact hbc
        rw [winsIn_eq h.fair (mem_members.mp hwm).1 (mem_members.mp hz).1] at hloses
        have hle := not_wins_le (controls_none hwtoken) (controls_none hztoken) hloses
        exact Completes.mono (hcompletes hz hzm' hzz'.id) (hcompletes hwm hwm' hww'.id)
          (hne hz hztoken) (hne hwm hwtoken)
          ((mem_members.mp hz).2.trans (mem_members.mp hwm).2.symm) hle
      · exact hafter hloses

/-- At most, a reservation of the client which was scheduled starts. -/
structure Starts (sched : Option Nat) (now : Int) (c c' : Clnt) : Prop extends Kept c c' where
  count : c'.chnState.cycleCount = c.chnState.cycleCount
  start : c'.chnState.lastStart = c.chnState.lastStart ∨
    (sched = some c.id ∧ c'.chnState.lastStart = now ∧ Holds c'.token ∧
      c'.chnState.isCompleted = false)

theorem Calm.starts (h : Calm c c') (sched : Option Nat) (now : Int) : Starts sched now c c' :=
  ⟨h.toKept, h.count, Or.inl h.lastStart⟩

theorem Granted.starts {z : Nat} (h : Granted dev z now c c') : Starts (some z) now c c' := by
  refine ⟨h.toKept, h.count, ?_⟩
  by_cases hid : c.id = z
  · obtain ⟨hholds, hgoing, hstart⟩ := h.self hid
    exact Or.inr ⟨congrArg some hid.symm, hstart, hholds, hgoing⟩
  · exact Or.inl (h.rest hid).1

theorem Calm.trans_starts {b : Clnt} (h : Calm a b) (hs : Starts sched now b c) :
    Starts sched now a c :=
  ⟨h.toKept.trans hs.toKept, hs.count.trans h.count, h.lastStart ▸ h.id ▸ hs.start⟩

theorem grant_fair {m : List Clnt} (hm : Fair dev time m) (htime : time ≤ now) (hz : z ∈ m)
    (hscheduled : z.scheduled dev = true) :
    ∃ r, grantScheduled m (some z.id) now = some r ∧ Fair dev now r ∧
      List.Forall₂ (Starts (some z.id) now) m r := by
  obtain ⟨r, hr, hcases⟩ := grantScheduled_outcome hm hz (scheduled_iff.mp hscheduled).1 now
  refine ⟨r, hr, ?_⟩
  rcases hcases with ⟨-, rfl⟩ | hcalm | hgranted
  · exact ⟨hm.later htime, List.forall₂_same.mpr fun c _ => Calm.starts (.refl c) _ now⟩
  · exact ⟨(hm.calm hcalm).later htime, hcalm.imp fun _ _ hc => Calm.starts hc _ now⟩
  · exact ⟨hm.granted htime hz hscheduled hgranted, hgranted.imp fun _ _ hg => Granted.starts hg⟩

/-- A run of the scheduler and the grant to the client it chose. -/
theorem schedule_outcome (h : Fair dev time l) (hp : Peers dev subPrio l) (htime : time ≤ now) :
    ∃ l' wins sched r, Turn dev now l l' wins ∧
      sched = choose wins none ((members dev l).map Clnt.id) ∧
      channelSchedule l dev now = some (release dev sched l', sched) ∧
      grantScheduled (release dev sched l') sched now = some r ∧ Fair dev now r ∧
      List.Forall₂ (Starts sched now) l' r := by
  obtain ⟨l', wins, hturn, hschedule⟩ := channelSchedule_turn h now
  rw [takers_members h hp] at hschedule
  generalize hsched : choose wins none ((members dev l).map Clnt.id) = sched at hschedule
  have hcalm := release_calm dev sched l'
  have hm := (hturn.fair h).calm hcalm
  cases sched with
  | none =>
    exact ⟨l', wins, none, _, hturn, hsched.symm, hschedule, rfl, hm.later htime,
      hcalm.imp fun _ _ hc => Calm.starts hc none now⟩
  | some i =>
    obtain ⟨c, hc, rfl⟩ := List.mem_map.mp (choose_mem hsched)
    obtain ⟨b, hb, hcb⟩ := forall₂_mem_left hturn.quiet (mem_members.mp hc).1
    obtain ⟨a, ha, hba⟩ := forall₂_mem_left hcalm hb
    have hid : a.id = c.id := hba.id.trans hcb.id
    have hscheduled : a.scheduled dev = true := by
      rw [hba.toKept.scheduled, hcb.toKept.scheduled]
      exact (hp c hc).1
    obtain ⟨r, hr, hfair, hstarts⟩ := grant_fair hm htime ha hscheduled
    rw [hid] at hr hstarts
    have htrans : ∀ a b d, Calm a b → Starts (some c.id) now b d → Starts (some c.id) now a d :=
      fun _ _ _ hab hbd => Calm.trans_starts hab hbd
    exact ⟨l', wins, some c.id, r, hturn, hsched.symm, hschedule, hr, hfair,
      forall₂_trans htrans hcalm hstarts⟩

/-- When a client which waited was scheduled, the others go on waiting. -/
theorem Turn.waiting (hturn : Turn dev now l l' wins) (h : Ready dev subPrio t time now l)
    (htime : time ≤ now) (hz : z ∈ members dev l) (hold : z.chnState.lastStart < t)
    (hchosen : choose wins none ((members dev l).map Clnt.id) = some z.id)
    (hr : List.Forall₂ (Starts (some z.id) now) l' r) (hfair : Fair dev now r) :
    Waiting dev t now r := by
  have hplaced : ∀ c c', Starts (some z.id) now c c' → Placed c c' := fun _ _ hs => hs.toPlaced
  have htnow : t ≤ now := by
    obtain ⟨x, hx, hstarted⟩ := h.waiting.exists_started
    have hstart := h.fair.start x (mem_members.mp hx).1 (mem_members.mp hx).2
    omega
  have hspent : ∀ c' ∈ members dev l', ∀ c'' ∈ members dev r, Starts (some z.id) now c' c'' →
      c''.chnState.lastStart = c'.chnState.lastStart → t ≤ c''.chnState.lastStart →
        Spent dev t now r c'' := by
    intro c' hc' c'' _ hs hsame hstarted
    have hold := (Turn.spent hturn h hc' (hsame ▸ hstarted)).1
    refine ⟨?_, ?_⟩
    · rw [Ripe, hs.chnProfile, hsame]
      exact hold.ripe
    · intro u'' hu'' hwaits
      obtain ⟨u', hu', huu''⟩ := members_related hplaced hr hu''
      rw [huu''.count, hs.count]
      refine hold.most u' hu' ?_
      rcases huu''.start with hsame | ⟨-, hnow, -⟩ <;> omega
  have hsome : ∃ c ∈ members dev r, t ≤ c.chnState.lastStart := by
    obtain ⟨x, hx, hstarted⟩ := h.waiting.exists_started
    obtain ⟨x', hx', hxx', hsame⟩ := forall₂_mem_left (Turn.started hturn) (mem_members.mp hx).1
    obtain ⟨x'', hx'', hs⟩ := forall₂_mem_left hr hx'
    have hdev : x''.devIdx = dev := hs.devIdx.trans (hxx'.devIdx.trans (mem_members.mp hx).2)
    refine ⟨x'', mem_members.mpr ⟨hx'', hdev⟩, ?_⟩
    rcases hs.start with hsame' | ⟨-, hnow, -⟩ <;> omega
  refine ⟨hsome, ?_, ?_⟩
  · intro c'' hc'' hstarted
    obtain ⟨c', hc', hs⟩ := members_related hplaced hr hc''
    rcases hs.start with hsame | ⟨-, -, hholds, hgoing⟩
    · exact Or.inl (hspent c' hc' c'' hc'' hs hsame hstarted)
    · exact Or.inr ⟨hholds, hgoing⟩
  · refine pairwise_related ?_ (members_forall₂ hplaced hr) (Turn.ahead hturn h hz hold hchosen)
    intro v' hv' v'' hv'' hvv'' w' w'' hww'' hahead hrunning
    have hid : v'.id = z.id := by
      rcases hvv''.start with hsame | ⟨hid, -⟩
      · exfalso
        by_cases hstarted : t ≤ v''.chnState.lastStart
        · exact hrunning.notRipe (hspent v' hv' v'' hv'' hvv'' hsame hstarted).ripe
        · exact hrunning.holds.ne_none
            (waiting_token hfair hsome hv'' (Int.not_le.mp hstarted))
      · exact (Option.some.inj hid).symm
    rw [hvv''.count, hww''.count]
    exact hahead hid

/-- While clients wait, the scheduler chooses one of them, or goes on with the client whose
reservation is not over. -/
theorem schedule_waiting (hturn : Turn dev now l l' wins) (hfair : Fair dev time l)
    (hpeers : Peers dev subPrio l) (hw : Waiting dev t now l)
    (sent : ∀ c ∈ members dev l, c.token ≠ .grant)
    (hsome : ∃ u ∈ members dev l, u.chnState.lastStart < t) (htime : time ≤ now)
    (hsched : sched = choose wins none ((members dev l).map Clnt.id))
    (hgrant : grantScheduled (release dev sched l') sched now = some r) (hr : Fair dev now r)
    (hstarts : List.Forall₂ (Starts sched now) l' r) :
    (∃ z ∈ members dev l, sched = some z.id ∧ (z.chnState.lastStart < t ∨ Running now z)) ∧
      Waiting dev t now r := by
  by_cases hrunning : ∃ z ∈ members dev l, Running now z
  · obtain ⟨z, hz, hrun⟩ := hrunning
    obtain ⟨hzl, hzdev⟩ := mem_members.mp hz
    have hcontrols : z.controls = true := by
      rcases hrun.holds with htoken | htoken | htoken
      · exact absurd htoken (sent z hz)
      · exact congrArg TokenState.controlsChn htoken
      · exact congrArg TokenState.controlsChn htoken
    obtain ⟨rfl, hchosen⟩ := Turn.keeps_running hturn hfair hpeers hw hz hcontrols hrun
    rw [← hsched] at hchosen
    have hkept : release dev sched l' = l' := by
      refine release_eq fun c hc hdev hcc => ?_
      have htoken := controls_ne_none hcontrols
      rw [hfair.owner hzl hzdev htoken hc hdev (controls_ne_none hcc)]
      exact hchosen
    rw [hkept, grantScheduled, hchosen, Option.bind_some, hfair.find hzl] at hgrant
    dsimp only at hgrant
    rw [if_pos hcontrols] at hgrant
    obtain rfl := Option.some.inj hgrant
    exact ⟨⟨z, hz, hchosen, Or.inr hrun⟩, hw⟩
  · have hready : Ready dev subPrio t time now l :=
      ⟨hfair, hpeers, hw, sent, fun c hc hrun => hrunning ⟨c, hc, hrun⟩⟩
    obtain ⟨z, hz, hold, hchosen⟩ := Turn.chooses_waiting hturn hready hsome
    obtain rfl := hsched.trans hchosen
    exact ⟨⟨z, hz, rfl, Or.inl hold⟩,
      Turn.waiting hturn hready htime hz hold hchosen hstarts hr⟩

end

end ProxyTurns

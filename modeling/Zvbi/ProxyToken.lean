import Mathlib.Data.List.Nodup
import Zvbi.GuardedRuns
import Zvbi.ProxyDaemon

/-!
# Token owners of the proxy daemon

The functions of the channel control only change the scheduling state of the clients
on a list. What they do to the token states is a relation between the clients before
and after. From it follow when a device has one token owner at most, and when one of
its clients has the token while others wait.
-/

namespace ProxyToken
open ProxyDaemon

section
universe u
variable {α : Type u}

theorem forall₂_trans {R S T : α → α → Prop} (h : ∀ a b c, R a b → S b c → T a c)
    {l₁ l₂ l₃ : List α} (h₁ : List.Forall₂ R l₁ l₂) (h₂ : List.Forall₂ S l₂ l₃) :
    List.Forall₂ T l₁ l₃ := by
  induction h₁ generalizing l₃ with
  | nil =>
    cases h₂
    exact .nil
  | cons hab _ ih =>
    cases h₂ with
    | cons hbc htail => exact .cons (h _ _ _ hab hbc) (ih htail)

theorem forall₂_mem_right {R : α → α → Prop} {l₁ l₂ : List α} (h : List.Forall₂ R l₁ l₂) {b : α}
    (hb : b ∈ l₂) : ∃ a ∈ l₁, R a b := by
  induction h with
  | nil => cases hb
  | cons hab _ ih =>
    rcases List.mem_cons.mp hb with rfl | hb
    · exact ⟨_, List.mem_cons_self, hab⟩
    · obtain ⟨a, ha, hab⟩ := ih hb
      exact ⟨a, List.mem_cons_of_mem _ ha, hab⟩

theorem forall₂_mem_left {R : α → α → Prop} {l₁ l₂ : List α} (h : List.Forall₂ R l₁ l₂) {a : α}
    (ha : a ∈ l₁) : ∃ b ∈ l₂, R a b := by
  induction h with
  | nil => cases ha
  | cons hab _ ih =>
    rcases List.mem_cons.mp ha with rfl | ha
    · exact ⟨_, List.mem_cons_self, hab⟩
    · obtain ⟨b, hb, hab⟩ := ih ha
      exact ⟨b, List.mem_cons_of_mem _ hb, hab⟩

theorem forall₂_map {R : α → α → Prop} {f : α → α} {l : List α} (h : ∀ a ∈ l, R a (f a)) :
    List.Forall₂ R l (l.map f) :=
  List.forall₂_map_right_iff.mpr (List.forall₂_same.mpr h)

end

structure Placed (c c' : Clnt) : Prop where
  id : c'.id = c.id
  devIdx : c'.devIdx = c.devIdx

structure Kept (c c' : Clnt) : Prop extends Placed c c' where
  chnProfile : c'.chnProfile = c.chnProfile
  chnPrio : c'.chnPrio = c.chnPrio

structure Quiet (c c' : Clnt) : Prop extends Kept c c' where
  token : c'.token = c.token

structure Stops (dev : Nat) (c c' : Clnt) : Prop extends Kept c c' where
  token : c'.token = c.token ∨ (c.devIdx = dev ∧ c.controls = true ∧ c'.token = c.token.stopped)

structure Within (dev : Nat) (c c' : Clnt) : Prop extends Kept c c' where
  elsewhere : c.devIdx ≠ dev → c'.token = c.token

theorem Placed.refl (c : Clnt) : Placed c c := ⟨rfl, rfl⟩

variable {a b c c' req : Clnt} {dev : Nat} {l₁ l₂ l l' clnts r : List Clnt} {R : Clnt → Clnt → Prop}
  {now : Int}

theorem Placed.trans (h₁ : Placed a b) (h₂ : Placed b c) : Placed a c :=
  ⟨h₂.id.trans h₁.id, h₂.devIdx.trans h₁.devIdx⟩

theorem Kept.refl (c : Clnt) : Kept c c := ⟨⟨rfl, rfl⟩, rfl, rfl⟩

theorem Kept.trans (h₁ : Kept a b) (h₂ : Kept b c) : Kept a c :=
  ⟨⟨h₂.id.trans h₁.id, h₂.devIdx.trans h₁.devIdx⟩, h₂.chnProfile.trans h₁.chnProfile,
    h₂.chnPrio.trans h₁.chnPrio⟩

theorem Kept.setChn (c : Clnt) (f : ChnState → ChnState) : Kept c (c.setChn f) :=
  ⟨⟨rfl, rfl⟩, rfl, rfl⟩

theorem Quiet.refl (c : Clnt) : Quiet c c := ⟨.refl c, rfl⟩

theorem Quiet.trans (h₁ : Quiet a b) (h₂ : Quiet b c) : Quiet a c :=
  ⟨h₁.toKept.trans h₂.toKept, h₂.token.trans h₁.token⟩

theorem Quiet.stops (dev : Nat) (h : Quiet c c') : Stops dev c c' :=
  ⟨h.toKept, Or.inl h.token⟩

theorem Stops.refl (dev : Nat) (c : Clnt) : Stops dev c c := (Quiet.refl c).stops dev

theorem Quiet.within (dev : Nat) (h : Quiet c c') : Within dev c c' :=
  ⟨h.toKept, fun _ => h.token⟩

theorem Stops.within (h : Stops dev c c') : Within dev c c' := by
  refine ⟨h.toKept, fun hdev => ?_⟩
  rcases h.token with hsame | ⟨hdev', -⟩
  · exact hsame
  · exact absurd hdev' hdev

theorem Within.trans (h₁ : Within dev a b) (h₂ : Within dev b c) : Within dev a c := by
  refine ⟨h₁.toKept.trans h₂.toKept, fun hdev => ?_⟩
  exact (h₂.elsewhere (h₁.devIdx.symm ▸ hdev)).trans (h₁.elsewhere hdev)

theorem stopped_not_controls (t : TokenState) : t.stopped.controlsChn = false := by
  cases t <;> rfl

theorem Stops.trans (h₁ : Stops dev a b) (h₂ : Stops dev b c) : Stops dev a c := by
  refine ⟨h₁.toKept.trans h₂.toKept, ?_⟩
  rcases h₁.token with hab | ⟨hdev, ha, hab⟩
  · have hcontrols : b.controls = a.controls := congrArg TokenState.controlsChn hab
    rw [← hab, ← hcontrols, ← h₁.devIdx]
    exact h₂.token
  · right
    rcases h₂.token with hbc | ⟨-, hb, -⟩
    · exact ⟨hdev, ha, hbc.trans hab⟩
    · rw [Clnt.controls, hab, stopped_not_controls] at hb
      cases hb

variable {l₃ : List Clnt} {id : Nat} {f : Clnt → Clnt} {sched : Option Nat} {forcedSwitch : Bool}

theorem quiet_trans (h₁ : List.Forall₂ Quiet l₁ l₂) (h₂ : List.Forall₂ Quiet l₂ l₃) :
    List.Forall₂ Quiet l₁ l₃ :=
  forall₂_trans (fun _ _ _ hab hbc => hab.trans hbc) h₁ h₂

theorem stops_trans (h₁ : List.Forall₂ (Stops dev) l₁ l₂) (h₂ : List.Forall₂ (Stops dev) l₂ l₃) :
    List.Forall₂ (Stops dev) l₁ l₃ :=
  forall₂_trans (fun _ _ _ hab hbc => hab.trans hbc) h₁ h₂

theorem quiet_refl (l : List Clnt) : List.Forall₂ Quiet l l :=
  List.forall₂_same.mpr fun c _ => .refl c

theorem quiet_stops (dev : Nat) (h : List.Forall₂ Quiet l₁ l₂) :
    List.Forall₂ (Stops dev) l₁ l₂ :=
  h.imp fun _ _ => Quiet.stops dev

theorem stops_refl (dev : Nat) (l : List Clnt) : List.Forall₂ (Stops dev) l l :=
  quiet_stops dev (quiet_refl l)

theorem Kept.on (h : Kept c c') (dev : Nat) : c'.on dev = c.on dev := by
  rw [Clnt.on, Clnt.on, h.devIdx]

def DistinctIds (clnts : List Clnt) : Prop := (clnts.map Clnt.id).Nodup

theorem ids_eq (hR : ∀ c c', R c c' → Placed c c') (h : List.Forall₂ R l l') :
    l'.map Clnt.id = l.map Clnt.id := by
  induction h with
  | nil => rfl
  | cons hab _ ih => rw [List.map_cons, List.map_cons, (hR _ _ hab).id, ih]

theorem DistinctIds.of_placed (hR : ∀ c c', R c c' → Placed c c') (hl : DistinctIds l)
    (h : List.Forall₂ R l l') : DistinctIds l' := by
  rw [DistinctIds, ids_eq hR h]
  exact hl

theorem DistinctIds.eq (h : DistinctIds clnts) (ha : a ∈ clnts) (hb : b ∈ clnts)
    (hid : a.id = b.id) : a = b :=
  List.inj_on_of_nodup_map h ha hb hid

theorem findClnt_some (h : findClnt clnts id = some c) : c ∈ clnts ∧ c.id = id :=
  ⟨List.mem_of_find?_eq_some h, by simpa using List.find?_some h⟩

theorem findClnt_mem (h : DistinctIds clnts) (hc : c ∈ clnts) :
    findClnt clnts c.id = some c := by
  cases hfind : findClnt clnts c.id with
  | none =>
    have hnot := List.find?_eq_none.mp hfind c hc
    exact absurd (decide_eq_true rfl) hnot
  | some a =>
    obtain ⟨ha, hid⟩ := findClnt_some hfind
    rw [h.eq ha hc hid]

/-- What a change of one client does to the list. -/
theorem setChn_related (hrefl : ∀ c, R c c) {f : ChnState → ChnState}
    (h : ∀ c ∈ clnts, c.id = id → R c (c.setChn f)) :
    List.Forall₂ R clnts (setChn id f clnts) := by
  apply forall₂_map
  intro c hc
  split
  · rename_i hid
    exact h c hc hid
  · exact hrefl c

theorem levelCycles_quiet (req : Clnt) (cycle : Int) (clnts : List Clnt) :
    List.Forall₂ Quiet clnts (levelCycles req cycle clnts) := by
  rw [levelCycles]
  split
  · apply forall₂_map
    intro c _
    split
    · exact ⟨.setChn c _, rfl⟩
    · exact .refl c
  · split
    · exact setChn_related Quiet.refl fun c _ _ => ⟨.setChn c _, rfl⟩
    · exact quiet_refl clnts

theorem channelCompleted_quiet (whence : Int) (h : req.controls = true) :
    ∃ r, channelCompleted clnts req whence = some r ∧ List.Forall₂ Quiet clnts r := by
  rw [channelCompleted, if_pos h]
  refine ⟨_, rfl, quiet_trans ?_ (levelCycles_quiet _ _ _)⟩
  exact setChn_related Quiet.refl fun c _ _ => ⟨.setChn c _, rfl⟩

theorem channelStopped_stops (hunique : DistinctIds clnts) (hreq : req ∈ clnts)
    (hdev : req.devIdx = dev) (now : Int) (h : req.controls = true) :
    ∃ r, channelStopped clnts req now = some r ∧ List.Forall₂ (Stops dev) clnts r := by
  have hcompleted : ∃ l,
      (if req.expired now then channelCompleted clnts req now else some clnts) = some l ∧
        List.Forall₂ Quiet clnts l := by
    split
    · exact channelCompleted_quiet now h
    · exact ⟨clnts, rfl, quiet_refl clnts⟩
  obtain ⟨l, hl, hquiet⟩ := hcompleted
  rw [channelStopped, if_pos h]
  dsimp only
  rw [hl]
  refine ⟨_, rfl, stops_trans (quiet_stops dev hquiet) ?_⟩
  apply setChn_related (Stops.refl dev)
  intro c hc hid
  obtain ⟨a, ha, hac⟩ := forall₂_mem_right hquiet hc
  obtain rfl : a = req := hunique.eq ha hreq (hac.id.symm.trans hid)
  refine ⟨.setChn c _, Or.inr ⟨hac.devIdx.trans hdev, ?_, rfl⟩⟩
  rw [Clnt.controls, hac.token]
  exact h

theorem on_iff : c.on dev = true ↔ c.devIdx = dev := decide_eq_true_iff

theorem stopClnt_stops (h : DistinctIds clnts) (dev : Nat) (now : Int) (id : Nat) :
    ∃ r, stopClnt dev now clnts id = some r ∧ List.Forall₂ (Stops dev) clnts r := by
  rw [stopClnt]
  cases hfind : findClnt clnts id with
  | none => exact ⟨clnts, rfl, stops_refl dev clnts⟩
  | some c =>
    dsimp only
    split
    · rename_i hc
      rw [Bool.and_eq_true, on_iff] at hc
      exact channelStopped_stops h (findClnt_some hfind).1 hc.1 now hc.2
    · exact ⟨clnts, rfl, stops_refl dev clnts⟩

theorem stopAll_stops (h : DistinctIds clnts) (dev : Nat) (now : Int) :
    ∃ r, stopAll clnts dev now = some r ∧ List.Forall₂ (Stops dev) clnts r := by
  have hloop : ∀ (ids : List Nat) (l : List Clnt), DistinctIds l →
      ∃ r, ids.foldlM (stopClnt dev now) l = some r ∧ List.Forall₂ (Stops dev) l r := by
    intro ids
    induction ids with
    | nil => exact fun l _ => ⟨l, rfl, stops_refl dev l⟩
    | cons id ids ih =>
      intro l hl
      obtain ⟨m, hm, hstops⟩ := stopClnt_stops hl dev now id
      obtain ⟨r, hr, hrest⟩ := ih m (hl.of_placed (fun _ _ h => h.toPlaced) hstops)
      refine ⟨r, ?_, stops_trans hstops hrest⟩
      rw [List.foldlM_cons, hm]
      exact hr
  exact hloop _ clnts h

theorem Kept.scheduled (h : Kept c c') (dev : Nat) : c'.scheduled dev = c.scheduled dev := by
  rw [Clnt.scheduled, Clnt.scheduled, h.on, h.chnProfile, h.chnPrio]

theorem scheduled_iff :
    c.scheduled dev = true ↔
      c.devIdx = dev ∧ c.chnProfile.isValid = true ∧ c.chnPrio = vbiChnPrioBackground := by
  rw [Clnt.scheduled, Bool.and_eq_true, Bool.and_eq_true, on_iff, decide_eq_true_iff, and_assoc]

structure Scheduling (dev : Nat) (clnts : List Clnt) (r : Schedule) : Prop where
  quiet : List.Forall₂ Quiet clnts r.clnts
  sched : ∀ id, r.sched = some id → ∃ c ∈ clnts, c.id = id ∧ c.scheduled dev = true
  active : ∀ id, r.active = some id →
    ∃ c ∈ clnts, c.id = id ∧ c.scheduled dev = true ∧ c.controls = true

theorem scheduleClnt_scheduling (h : DistinctIds clnts) (now : Int) {r : Schedule}
    (hr : Scheduling dev clnts r) (id : Nat) :
    ∃ r', scheduleClnt dev now r id = some r' ∧ Scheduling dev clnts r' ∧
      (r.sched ≠ none → r'.sched ≠ none) ∧
      ∀ c ∈ clnts, c.id = id → c.scheduled dev = true → r'.sched ≠ none := by
  rw [scheduleClnt]
  cases hfind : findClnt r.clnts id with
  | none =>
    refine ⟨r, rfl, hr, fun h => h, ?_⟩
    intro c hc hid
    obtain ⟨c', hc', hquiet⟩ := forall₂_mem_left hr.quiet hc
    have hunique := h.of_placed (fun _ _ h => h.toPlaced) hr.quiet
    have hsome := findClnt_mem hunique hc'
    rw [hquiet.id, hid, hfind] at hsome
    cases hsome
  | some walk =>
    obtain ⟨hmem, hid⟩ := findClnt_some hfind
    obtain ⟨w, hw, hquiet⟩ := forall₂_mem_right hr.quiet hmem
    have hwid : w.id = id := hquiet.id.symm.trans hid
    dsimp only
    by_cases hscheduled : walk.scheduled dev = true
    · rw [if_pos hscheduled]
      have hcompleted : ∃ l, (if walk.controls && walk.expired now then
          channelCompleted r.clnts walk now else some r.clnts) = some l ∧
            List.Forall₂ Quiet r.clnts l := by
        split
        · rename_i hcontrols
          exact channelCompleted_quiet now (Bool.and_eq_true _ _ ▸ hcontrols).1
        · exact ⟨r.clnts, rfl, quiet_refl r.clnts⟩
      obtain ⟨l, hl, hlquiet⟩ := hcompleted
      rw [hl]
      have hwscheduled : w.scheduled dev = true := (hquiet.toKept.scheduled dev).symm.trans hscheduled
      refine ⟨_, rfl, ⟨quiet_trans hr.quiet hlquiet, ?_, ?_⟩, fun _ => Option.some_ne_none _,
        fun _ _ _ _ => Option.some_ne_none _⟩
      · intro i hi
        dsimp only at hi
        split at hi
        · exact ⟨w, hw, hwid.trans (Option.some.inj hi), hwscheduled⟩
        · rename_i s hs
          split at hi
          · exact ⟨w, hw, hwid.trans (Option.some.inj hi), hwscheduled⟩
          · obtain ⟨q, hq, hfound⟩ := Option.bind_eq_some_iff.mp hs
            obtain ⟨c, hc, hcid, hcs⟩ := hr.sched q hq
            refine ⟨c, hc, ?_, hcs⟩
            rw [hcid, ← (findClnt_some hfound).2]
            exact Option.some.inj hi
      · intro i hi
        dsimp only at hi
        split at hi
        · rename_i hcontrols
          refine ⟨w, hw, hwid.trans (Option.some.inj hi), hwscheduled, ?_⟩
          rw [Clnt.controls, ← hquiet.token]
          exact hcontrols
        · exact hr.active i hi
    · rw [if_neg hscheduled]
      refine ⟨r, rfl, hr, fun h => h, ?_⟩
      intro c hc hcid hcs
      obtain rfl : c = w := h.eq hc hw (hcid.trans hwid.symm)
      rw [hquiet.toKept.scheduled] at hscheduled
      exact absurd hcs hscheduled

theorem scheduleLoop_scheduling (h : DistinctIds clnts) (now : Int) (ids : List Nat) {r : Schedule}
    (hr : Scheduling dev clnts r) :
    ∃ r', ids.foldlM (scheduleClnt dev now) r = some r' ∧ Scheduling dev clnts r' ∧
      (r.sched ≠ none → r'.sched ≠ none) ∧
      ∀ c ∈ clnts, c.id ∈ ids → c.scheduled dev = true → r'.sched ≠ none := by
  induction ids generalizing r with
  | nil => exact ⟨r, rfl, hr, fun h => h, fun _ _ hmem => by cases hmem⟩
  | cons id ids ih =>
    obtain ⟨m, hm, hscheduling, hkeep, hfound⟩ := scheduleClnt_scheduling h now hr id
    obtain ⟨r', hr', hfinal, hkeep', hfound'⟩ := ih hscheduling
    refine ⟨r', ?_, hfinal, fun hne => hkeep' (hkeep hne), ?_⟩
    · rw [List.foldlM_cons, hm]
      exact hr'
    · intro c hc hmem hcs
      rcases List.mem_cons.mp hmem with hid | hmem
      · exact hkeep' (hfound c hc hid hcs)
      · exact hfound' c hc hmem hcs

/-- The scheduler chooses a client if there is one to choose, and at most takes the
channel from others. -/
theorem channelSchedule_spec (h : DistinctIds clnts) (dev : Nat) (now : Int) :
    ∃ r sched, channelSchedule clnts dev now = some (r, sched) ∧ List.Forall₂ (Stops dev) clnts r ∧
      (∀ id, sched = some id → ∃ c ∈ clnts, c.id = id ∧ c.scheduled dev = true) ∧
      ∀ c ∈ clnts, c.scheduled dev = true → sched ≠ none := by
  have hstart : Scheduling dev clnts ⟨clnts, none, none⟩ :=
    ⟨quiet_refl clnts, fun _ h => (nomatch h), fun _ h => (nomatch h)⟩
  obtain ⟨s, hs, hscheduling, -, hfound⟩ :=
    scheduleLoop_scheduling h now (clnts.map Clnt.id) hstart
  have hall : ∀ c ∈ clnts, c.scheduled dev = true → s.sched ≠ none := by
    intro c hc
    exact hfound c hc (List.mem_map_of_mem hc)
  have hunique := h.of_placed (fun _ _ h => h.toPlaced) hscheduling.quiet
  rw [channelSchedule, hs, Option.bind_some]
  cases hactive : s.active.bind (findClnt s.clnts) with
  | none =>
    exact ⟨s.clnts, s.sched, rfl, quiet_stops dev hscheduling.quiet, hscheduling.sched, hall⟩
  | some p =>
    dsimp only
    by_cases hother : s.sched ≠ s.active
    · obtain ⟨i, hi, hp⟩ := Option.bind_eq_some_iff.mp hactive
      obtain ⟨hpmem, hpid⟩ := findClnt_some hp
      obtain ⟨a, ha, haid, hascheduled, hcontrols⟩ := hscheduling.active i hi
      obtain ⟨b, hb, hquiet⟩ := forall₂_mem_right hscheduling.quiet hpmem
      obtain rfl : a = b := h.eq ha hb (haid.trans (hpid.symm.trans hquiet.id))
      have hpcontrols : p.controls = true := by
        rw [Clnt.controls, hquiet.token]
        exact hcontrols
      have hpdev : p.devIdx = dev := hquiet.devIdx.trans (scheduled_iff.mp hascheduled).1
      obtain ⟨r, hr, hstops⟩ := channelStopped_stops hunique hpmem hpdev now hpcontrols
      rw [if_pos hother, hr]
      exact ⟨r, s.sched, rfl, stops_trans (quiet_stops dev hscheduling.quiet) hstops,
        hscheduling.sched, hall⟩
    · rw [if_neg hother]
      exact ⟨s.clnts, s.sched, rfl, quiet_stops dev hscheduling.quiet, hscheduling.sched, hall⟩

theorem selectClnt_spec (h : DistinctIds clnts) (dev : Nat) (forcedSwitch : Bool) (now : Int) :
    ∃ r sched, selectClnt clnts dev forcedSwitch now = some (r, sched) ∧
      List.Forall₂ (Stops dev) clnts r ∧
      (∀ id, sched = some id → ∃ c ∈ r, c.id = id ∧ c.scheduled dev = true) ∧
      (maxChnPrio clnts dev = vbiChnPrioBackground →
        ∀ c ∈ clnts, c.scheduled dev = true → sched ≠ none) := by
  have hstopped : ∃ l, (if !decide (maxChnPrio clnts dev = vbiChnPrioBackground) || forcedSwitch
      then stopAll clnts dev now else some clnts) = some l ∧ List.Forall₂ (Stops dev) clnts l := by
    split
    · exact stopAll_stops h dev now
    · exact ⟨clnts, rfl, stops_refl dev clnts⟩
  obtain ⟨l, hl, hstops⟩ := hstopped
  rw [selectClnt]
  rw [hl, Option.bind_some]
  by_cases hbackground : maxChnPrio clnts dev = vbiChnPrioBackground
  · obtain ⟨r, sched, hr, hrest, hsome, hall⟩ :=
      channelSchedule_spec (h.of_placed (fun _ _ h => h.toPlaced) hstops) dev now
    rw [if_pos (decide_eq_true hbackground)]
    refine ⟨r, sched, hr, stops_trans hstops hrest, ?_, ?_⟩
    · intro id hid
      obtain ⟨c, hc, hcid, hcs⟩ := hsome id hid
      obtain ⟨c', hc', hkept⟩ := forall₂_mem_left hrest hc
      exact ⟨c', hc', hkept.id.trans hcid, (hkept.toKept.scheduled dev).trans hcs⟩
    · intro _ c hc hcs
      obtain ⟨c', hc', hkept⟩ := forall₂_mem_left hstops hc
      exact hall c' hc' ((hkept.toKept.scheduled dev).trans hcs)
  · rw [if_neg (by simpa using hbackground)]
    exact ⟨l, none, rfl, hstops, fun _ h => (nomatch h), fun h => absurd h hbackground⟩

theorem nextOwner_owned (dev : Nat) (p : Clnt) (clnts : List Clnt) :
    clnts.foldlM (nextOwner dev) (some p) =
      if clnts.filter (Clnt.owns dev) = [] then some (some p) else none := by
  induction clnts with
  | nil => rfl
  | cons c clnts ih =>
    rw [List.foldlM_cons, nextOwner, List.filter_cons]
    by_cases hc : c.owns dev = true
    · rw [if_pos hc, if_pos hc, if_neg (List.cons_ne_nil _ _)]
      rfl
    · rw [if_neg hc, if_neg hc]
      exact ih

theorem getTokenOwner_eq (clnts : List Clnt) (dev : Nat) :
    getTokenOwner clnts dev =
      match clnts.filter (Clnt.owns dev) with
      | [] => some none
      | [p] => some (some p)
      | _ => none := by
  rw [getTokenOwner]
  induction clnts with
  | nil => rfl
  | cons c clnts ih =>
    rw [List.foldlM_cons, nextOwner, List.filter_cons]
    by_cases hc : c.owns dev = true
    · rw [if_pos hc, if_pos hc]
      have hrest := nextOwner_owned dev c clnts
      cases howners : clnts.filter (Clnt.owns dev) with
      | nil => exact hrest.trans (if_pos howners)
      | cons q rest =>
        refine hrest.trans (if_neg ?_)
        rw [howners]
        exact List.cons_ne_nil _ _
    · rw [if_neg hc, if_neg hc]
      exact ih

inductive Granting (clnts : List Clnt) (req : Clnt) : List Clnt × Bool → Prop
  | free (hreq : req.token = .none) (howner : ∀ c ∈ clnts, c.owns req.devIdx = false) :
    Granting clnts req (setToken req.id .grant clnts, true)
  | swap (p : Clnt) (hreq : req.token = .none) (hp : p ∈ clnts) (howns : p.owns req.devIdx = true)
    (howner : ∀ c ∈ clnts, c.owns req.devIdx = true → c = p)
    (htoken : p.token = .grant ∨ p.token = .returned) :
    Granting clnts req (setToken p.id .none (setToken req.id .grant clnts), true)
  | reclaim (p : Clnt) (hreq : req.token = .none) (hp : p ∈ clnts)
    (howns : p.owns req.devIdx = true) (htoken : p.token = .granted ∨ p.token = .reclaim) :
    Granting clnts req (setToken p.id .reclaim clnts, false)
  | wait (p : Clnt) (hreq : req.token = .none) (hp : p ∈ clnts)
    (howns : p.owns req.devIdx = true) (htoken : p.token = .release) :
    Granting clnts req (clnts, false)
  | same (hreq : req.token = .grant ∨ req.token = .granted ∨ req.token = .returned) :
    Granting clnts req (clnts, true)
  | keep (hreq : req.token = .reclaim) : Granting clnts req (setToken req.id .granted clnts, true)
  | again (hreq : req.token = .release) : Granting clnts req (setToken req.id .grant clnts, true)

theorem tokenGrant_granting {r : List Clnt × Bool} (h : tokenGrant clnts req = some r) :
    Granting clnts req r := by
  rw [tokenGrant] at h
  cases hreq : req.token with
  | none =>
    rw [hreq, getTokenOwner_eq] at h
    dsimp only at h
    cases howners : clnts.filter (Clnt.owns req.devIdx) with
    | nil =>
      rw [howners] at h
      obtain rfl := Option.some.inj h
      refine .free hreq fun c hc => ?_
      have hnot := List.filter_eq_nil_iff.mp howners c hc
      exact Bool.not_eq_true _ ▸ hnot
    | cons p rest =>
      have hmem : p ∈ clnts.filter (Clnt.owns req.devIdx) := by
        rw [howners]
        exact List.mem_cons_self
      obtain ⟨hp, howns⟩ := List.mem_filter.mp hmem
      rw [howners] at h
      cases rest with
      | cons q rest => cases h
      | nil =>
        dsimp only [Option.map_some] at h
        have hnone : p.token ≠ .none := by
          rw [Clnt.owns, Bool.and_eq_true, decide_eq_true_eq, decide_eq_true_eq] at howns
          exact howns.2
        have honly : ∀ c ∈ clnts, c.owns req.devIdx = true → c = p := by
          intro c hc hcowns
          have hcmem := List.mem_filter.mpr ⟨hc, hcowns⟩
          rw [howners] at hcmem
          exact List.mem_singleton.mp hcmem
        split at h
        · rename_i htoken
          obtain rfl := Option.some.inj h
          exact .swap p hreq hp howns honly htoken
        · rename_i hkept
          split at h
          · rename_i hrelease
            obtain rfl := Option.some.inj h
            refine .reclaim p hreq hp howns ?_
            cases htoken : p.token <;> simp_all
          · rename_i hrelease
            obtain rfl := Option.some.inj h
            exact .wait p hreq hp howns (not_not.mp hrelease)
  | grant =>
    rw [hreq] at h
    obtain rfl := Option.some.inj h
    exact .same (Or.inl hreq)
  | granted =>
    rw [hreq] at h
    obtain rfl := Option.some.inj h
    exact .same (Or.inr (Or.inl hreq))
  | returned =>
    rw [hreq] at h
    obtain rfl := Option.some.inj h
    exact .same (Or.inr (Or.inr hreq))
  | reclaim =>
    rw [hreq] at h
    obtain rfl := Option.some.inj h
    exact .keep hreq
  | release =>
    rw [hreq] at h
    obtain rfl := Option.some.inj h
    exact .again hreq

theorem modify_mem (h : c' ∈ modifyClnt id f clnts) :
    ∃ c ∈ clnts, (c.id = id ∧ c' = f c) ∨ (c.id ≠ id ∧ c' = c) := by
  rw [modifyClnt, List.mem_map] at h
  obtain ⟨c, hc, rfl⟩ := h
  by_cases hid : c.id = id
  · rw [if_pos hid]
    exact ⟨c, hc, Or.inl ⟨hid, rfl⟩⟩
  · rw [if_neg hid]
    exact ⟨c, hc, Or.inr ⟨hid, rfl⟩⟩

theorem setToken_eq (id : Nat) (t : TokenState) (clnts : List Clnt) :
    setToken id t clnts = modifyClnt id (fun c => c.setChn fun s => s.setToken t) clnts := rfl

theorem modify_related (hrefl : ∀ c, R c c) (h : ∀ c, R c (f c)) (id : Nat) (clnts : List Clnt) :
    List.Forall₂ R clnts (modifyClnt id f clnts) := by
  apply forall₂_map
  intro c _
  split
  · exact h c
  · exact hrefl c

theorem setToken_kept (id : Nat) (t : TokenState) (clnts : List Clnt) :
    List.Forall₂ Kept clnts (setToken id t clnts) :=
  setChn_related Kept.refl fun c _ _ => .setChn c _

theorem setToken_comm {i j : Nat} (h : i ≠ j) (t u : TokenState) (clnts : List Clnt) :
    setToken i t (setToken j u clnts) = setToken j u (setToken i t clnts) := by
  rw [setToken, setToken, setToken, setToken, setChn, setChn, setChn, setChn, List.map_map,
    List.map_map]
  apply List.map_congr_left
  intro c _
  by_cases hi : c.id = i
  · have hj : c.id ≠ j := fun hj => h (hi.symm.trans hj)
    simp [hi, h, Clnt.setChn]
  · by_cases hj : c.id = j
    · simp [hj, Ne.symm h, Clnt.setChn]
    · simp [hi, hj]

def Sole (T : TokenState → Prop) (clnts : List Clnt) : Prop :=
  ∀ a ∈ clnts, ∀ b ∈ clnts, T a.token → T b.token → a.devIdx = b.devIdx → a.id = b.id

structure TokenKind (T : TokenState → Prop) : Prop where
  none : ¬ T .none
  grant : T .grant
  granted : T .granted
  reclaim : T .reclaim
  release : T .release

variable {t : TokenState}

section
variable {T : TokenState → Prop}

theorem Sole.of_related (h : Sole T l) (hl : List.Forall₂ R l l')
    (hR : ∀ c c', R c c' → Placed c c') (hT : ∀ c c', R c c' → T c'.token → T c.token) :
    Sole T l' := by
  intro a' ha' b' hb' hTa hTb hdev
  obtain ⟨a, ha, haR⟩ := forall₂_mem_right hl ha'
  obtain ⟨b, hb, hbR⟩ := forall₂_mem_right hl hb'
  have hka := hR a a' haR
  have hkb := hR b b' hbR
  rw [hka.id, hkb.id]
  apply h a ha b hb (hT a a' haR hTa) (hT b b' hbR hTb)
  rw [← hka.devIdx, ← hkb.devIdx]
  exact hdev

theorem Sole.of_quiet (h : Sole T l) (hl : List.Forall₂ Quiet l l') : Sole T l' :=
  h.of_related hl (fun _ _ hq => hq.toPlaced) fun _ _ hq hT => hq.token ▸ hT

theorem stopped_kind (hT : TokenKind T) (ht : t.controlsChn = true) (h : T t.stopped) : T t := by
  cases t with
  | granted => exact hT.granted
  | returned => exact absurd h hT.none
  | none => cases ht
  | reclaim => cases ht
  | release => cases ht
  | grant => cases ht

theorem Sole.of_stops (hT : TokenKind T) (h : Sole T l) (hl : List.Forall₂ (Stops dev) l l') :
    Sole T l' := by
  apply h.of_related hl (fun _ _ hs => hs.toPlaced)
  intro c c' hs hTc
  rcases hs.token with hsame | ⟨-, hcontrols, hstopped⟩
  · exact hsame ▸ hTc
  · exact stopped_kind hT hcontrols (hstopped ▸ hTc)

/-- A client is changed while no other client has a token state of the kind, unless the
client itself gets none. -/
theorem Sole.modify (hunique : DistinctIds clnts) (h : Sole T clnts) (hreq : req ∈ clnts)
    (hf : ∀ c, Placed c (f c))
    (hothers : T (f req).token → ∀ c ∈ clnts, c.devIdx = req.devIdx → T c.token → c.id = req.id) :
    Sole T (modifyClnt req.id f clnts) := by
  intro a' ha' b' hb' hTa hTb hdev
  obtain ⟨a, ha, ⟨haid, rfl⟩ | ⟨haid, rfl⟩⟩ := modify_mem ha'
  · obtain rfl := hunique.eq ha hreq haid
    obtain ⟨b, hb, ⟨hbid, rfl⟩ | ⟨hbid, rfl⟩⟩ := modify_mem hb'
    · rw [(hf a).id, (hf b).id, hbid]
    · have hbdev : b'.devIdx = a.devIdx := hdev.symm.trans (hf a).devIdx
      exact absurd (hothers hTa b' hb hbdev hTb) hbid
  · obtain ⟨b, hb, ⟨hbid, rfl⟩ | ⟨hbid, rfl⟩⟩ := modify_mem hb'
    · obtain rfl := hunique.eq hb hreq hbid
      have hadev : a'.devIdx = b.devIdx := hdev.trans (hf b).devIdx
      exact absurd (hothers hTb a' ha hadev hTa) haid
    · exact h a' ha b' hb hTa hTb hdev

theorem Sole.setToken (hunique : DistinctIds clnts) (h : Sole T clnts) (hreq : req ∈ clnts)
    (hothers : T t → ∀ c ∈ clnts, c.devIdx = req.devIdx → T c.token → c.id = req.id) :
    Sole T (setToken req.id t clnts) := by
  rw [setToken_eq]
  exact h.modify hunique hreq (fun _ => ⟨rfl, rfl⟩) hothers

theorem owns_kind (hT : TokenKind T) (hdev : c.devIdx = dev) (h : T c.token) :
    c.owns dev = true := by
  rw [Clnt.owns, Bool.and_eq_true, decide_eq_true_eq, decide_eq_true_eq]
  refine ⟨hdev, fun hnone => ?_⟩
  rw [hnone] at h
  exact hT.none h

theorem owns_iff : c.owns dev = true ↔ c.devIdx = dev ∧ c.token ≠ .none := by
  rw [Clnt.owns, Bool.and_eq_true, decide_eq_true_eq, decide_eq_true_eq]

theorem Granting.sole (hT : TokenKind T) (hunique : DistinctIds clnts) (h : Sole T clnts)
    (hreq : req ∈ clnts) {r : List Clnt × Bool} (hr : Granting clnts req r) : Sole T r.1 := by
  cases hr with
  | free hnone howner =>
    apply h.setToken hunique hreq
    intro _ c hc hdev hTc
    have howns := owns_kind hT hdev hTc
    rw [howner c hc] at howns
    cases howns
  | swap p hnone hp howns howner htoken =>
    have hne : p.id ≠ req.id := by
      intro hid
      obtain rfl := hunique.eq hp hreq hid
      exact (owns_iff.mp howns).2 hnone
    rw [setToken_comm hne]
    have hremoved : Sole T (ProxyDaemon.setToken p.id .none clnts) :=
      h.setToken hunique hp fun hT' => absurd hT' hT.none
    have hkept := setToken_kept p.id .none clnts
    have hmem : req ∈ ProxyDaemon.setToken p.id .none clnts := by
      rw [ProxyDaemon.setToken, setChn, List.mem_map]
      exact ⟨req, hreq, if_neg (Ne.symm hne)⟩
    apply hremoved.setToken (hunique.of_placed (fun _ _ h => h.toPlaced) hkept) hmem
    intro _ c' hc' hdev hTc
    exfalso
    obtain ⟨c, hc, ⟨-, rfl⟩ | ⟨hid, rfl⟩⟩ := modify_mem hc'
    · exact hT.none hTc
    · exact hid (congrArg Clnt.id (howner c' hc (owns_kind hT hdev hTc)))
  | reclaim p hnone hp howns htoken =>
    apply h.setToken hunique hp
    intro _ c hc hdev hTc
    apply h c hc p hp hTc _ hdev
    rcases htoken with htoken | htoken
    · exact htoken ▸ hT.granted
    · exact htoken ▸ hT.reclaim
  | wait p hnone hp howns htoken => exact h
  | same hsame => exact h
  | keep hreclaim =>
    apply h.setToken hunique hreq
    intro _ c hc hdev hTc
    exact h c hc req hreq hTc (hreclaim ▸ hT.reclaim) hdev
  | again hrelease =>
    apply h.setToken hunique hreq
    intro _ c hc hdev hTc
    exact h c hc req hreq hTc (hrelease ▸ hT.release) hdev

theorem setToken_within (hunique : DistinctIds clnts) (hreq : req ∈ clnts) (t : TokenState) :
    List.Forall₂ (Within req.devIdx) clnts (ProxyDaemon.setToken req.id t clnts) := by
  apply setChn_related fun c => (Quiet.refl c).within _
  intro c hc hid
  obtain rfl := hunique.eq hc hreq hid
  exact ⟨.setChn c _, fun hdev => absurd rfl hdev⟩

theorem within_trans (h₁ : List.Forall₂ (Within dev) l₁ l₂) (h₂ : List.Forall₂ (Within dev) l₂ l₃) :
    List.Forall₂ (Within dev) l₁ l₃ :=
  forall₂_trans (fun _ _ _ hab hbc => hab.trans hbc) h₁ h₂

theorem within_refl (dev : Nat) (l : List Clnt) : List.Forall₂ (Within dev) l l :=
  List.forall₂_same.mpr fun c _ => (Quiet.refl c).within dev

theorem Granting.within (hunique : DistinctIds clnts) (hreq : req ∈ clnts) {r : List Clnt × Bool}
    (hr : Granting clnts req r) : List.Forall₂ (Within req.devIdx) clnts r.1 := by
  cases hr with
  | free => exact setToken_within hunique hreq _
  | swap p hnone hp howns =>
    have hgrant := setToken_within hunique hreq .grant
    refine within_trans hgrant ?_
    obtain ⟨p', hp', hkept⟩ := forall₂_mem_left hgrant hp
    rw [← hkept.id, ← (owns_iff.mp howns).1, ← hkept.devIdx]
    exact setToken_within (hunique.of_placed (fun _ _ h => h.toPlaced) hgrant) hp' _
  | reclaim p hnone hp howns =>
    rw [← (owns_iff.mp howns).1]
    exact setToken_within hunique hp _
  | wait p => exact within_refl _ clnts
  | same => exact within_refl _ clnts
  | keep => exact setToken_within hunique hreq _
  | again => exact setToken_within hunique hreq _

/-- After a grant some client has the token, or has to give it back first. -/
theorem Granting.owner (hunique : DistinctIds clnts) (hreq : req ∈ clnts) {r : List Clnt × Bool}
    (hr : Granting clnts req r) : ∃ c ∈ r.1, c.owns req.devIdx = true := by
  have hset : ∀ p ∈ clnts, ∀ t, t ≠ .none → p.devIdx = req.devIdx →
      ∃ c ∈ ProxyDaemon.setToken p.id t clnts, c.owns req.devIdx = true := by
    intro p hp t ht hdev
    refine ⟨p.setChn fun s => s.setToken t, ?_, owns_iff.mpr ⟨hdev, ht⟩⟩
    rw [ProxyDaemon.setToken, setChn, List.mem_map]
    exact ⟨p, hp, if_pos rfl⟩
  cases hr with
  | free => exact hset req hreq .grant nofun rfl
  | swap p hnone hp howns howner htoken =>
    have hne : req.id ≠ p.id := by
      intro hid
      obtain rfl := hunique.eq hreq hp hid
      exact (owns_iff.mp howns).2 hnone
    refine ⟨req.setChn fun s => s.setToken .grant, ?_, owns_iff.mpr ⟨rfl, nofun⟩⟩
    rw [ProxyDaemon.setToken, setChn, List.mem_map]
    refine ⟨req.setChn fun s => s.setToken .grant, ?_, if_neg hne⟩
    rw [ProxyDaemon.setToken, setChn, List.mem_map]
    exact ⟨req, hreq, if_pos rfl⟩
  | reclaim p hnone hp howns => exact hset p hp .reclaim nofun (owns_iff.mp howns).1
  | wait p hnone hp howns => exact ⟨p, hp, howns⟩
  | same hsame =>
    refine ⟨req, hreq, owns_iff.mpr ⟨rfl, ?_⟩⟩
    rcases hsame with h | h | h
    all_goals
      rw [h]
      exact nofun
  | keep => exact hset req hreq .granted nofun rfl
  | again => exact hset req hreq .grant nofun rfl

end

/-- A grant does not fail if the device has one owner at most. -/
theorem tokenGrant_some (hunique : DistinctIds clnts) (h : Sole (fun t => t ≠ .none) clnts)
    (req : Clnt) : ∃ r, tokenGrant clnts req = some r := by
  rw [tokenGrant]
  cases req.token with
  | none =>
    dsimp only
    rw [getTokenOwner_eq]
    have hnodup : (clnts.filter (Clnt.owns req.devIdx)).Nodup := hunique.of_map.filter _
    have hmem : ∀ c ∈ clnts.filter (Clnt.owns req.devIdx), c ∈ clnts ∧ c.owns req.devIdx = true :=
      fun c hc => List.mem_filter.mp hc
    cases howners : clnts.filter (Clnt.owns req.devIdx) with
    | nil => exact ⟨_, rfl⟩
    | cons p rest =>
      cases rest with
      | nil => exact ⟨_, rfl⟩
      | cons q rest =>
        exfalso
        rw [howners] at hnodup hmem
        obtain ⟨hp, hpowns⟩ := hmem p List.mem_cons_self
        obtain ⟨hq, hqowns⟩ := hmem q (List.mem_cons_of_mem _ List.mem_cons_self)
        rw [owns_iff] at hpowns hqowns
        have hid := h p hp q hq hpowns.2 hqowns.2 (hpowns.1.trans hqowns.1.symm)
        obtain rfl := hunique.eq hp hq hid
        exact (List.nodup_cons.mp hnodup).1 List.mem_cons_self
  | reclaim => exact ⟨_, rfl⟩
  | release => exact ⟨_, rfl⟩
  | grant => exact ⟨_, rfl⟩
  | granted => exact ⟨_, rfl⟩
  | returned => exact ⟨_, rfl⟩

theorem grantScheduled_cases (h : grantScheduled clnts sched now = some r) :
    (sched.bind (findClnt clnts) = none ∧ r = clnts) ∨
    (∃ c, sched.bind (findClnt clnts) = some c ∧ c.controls = true ∧ r = clnts) ∨
    ∃ c m, sched.bind (findClnt clnts) = some c ∧ Granting clnts c m ∧
      List.Forall₂ Quiet m.1 r := by
  rw [grantScheduled] at h
  cases hsched : sched.bind (findClnt clnts) with
  | none =>
    rw [hsched] at h
    exact Or.inl ⟨rfl, (Option.some.inj h).symm⟩
  | some c =>
    rw [hsched] at h
    dsimp only at h
    by_cases hcontrols : c.controls = true
    · rw [if_pos hcontrols] at h
      exact Or.inr (Or.inl ⟨c, rfl, hcontrols, (Option.some.inj h).symm⟩)
    · rw [if_neg hcontrols] at h
      obtain ⟨m, hm, rfl⟩ := Option.map_eq_some_iff.mp h
      refine Or.inr (Or.inr ⟨c, m, rfl, tokenGrant_granting hm, ?_⟩)
      split
      · exact setChn_related Quiet.refl fun c _ _ => ⟨.setChn c _, rfl⟩
      · exact quiet_refl m.1

theorem grantScheduled_within (hunique : DistinctIds clnts)
    (hsched : ∀ id, sched = some id → ∃ c ∈ clnts, c.id = id ∧ c.scheduled dev = true)
    (h : grantScheduled clnts sched now = some r) : List.Forall₂ (Within dev) clnts r := by
  rcases grantScheduled_cases h with ⟨-, rfl⟩ | ⟨_, -, -, rfl⟩ | ⟨c, m, hc, hm, hquiet⟩
  · exact within_refl dev _
  · exact within_refl dev _
  · obtain ⟨id, hid, hfind⟩ := Option.bind_eq_some_iff.mp hc
    obtain ⟨hmem, hcid⟩ := findClnt_some hfind
    obtain ⟨a, ha, haid, hascheduled⟩ := hsched id hid
    obtain rfl := hunique.eq ha hmem (haid.trans hcid.symm)
    obtain rfl := (scheduled_iff.mp hascheduled).1
    exact within_trans (hm.within hunique hmem) (hquiet.imp fun _ _ hq => hq.within _)

theorem grantScheduled_sole {T : TokenState → Prop} (hT : TokenKind T) (hunique : DistinctIds clnts)
    (hsole : Sole T clnts) (h : grantScheduled clnts sched now = some r) : Sole T r := by
  rcases grantScheduled_cases h with ⟨-, rfl⟩ | ⟨_, -, -, rfl⟩ | ⟨c, m, hc, hm, hquiet⟩
  · exact hsole
  · exact hsole
  · obtain ⟨id, -, hfind⟩ := Option.bind_eq_some_iff.mp hc
    exact (hm.sole hT hunique hsole (findClnt_some hfind).1).of_quiet hquiet

theorem grantScheduled_some (hunique : DistinctIds clnts) (h : Sole (fun t => t ≠ .none) clnts)
    (sched : Option Nat) (now : Int) : ∃ r, grantScheduled clnts sched now = some r := by
  rw [grantScheduled]
  cases sched.bind (findClnt clnts) with
  | none => exact ⟨clnts, rfl⟩
  | some c =>
    dsimp only
    split
    · exact ⟨clnts, rfl⟩
    · obtain ⟨r, hr⟩ := tokenGrant_some hunique h c
      rw [hr]
      exact ⟨_, rfl⟩

theorem updateClnts_parts (hunique : DistinctIds clnts)
    (h : updateClnts clnts dev forcedSwitch now = some r) :
    ∃ m sched, selectClnt clnts dev forcedSwitch now = some (m, sched) ∧
      List.Forall₂ (Stops dev) clnts m ∧
      (∀ id, sched = some id → ∃ c ∈ m, c.id = id ∧ c.scheduled dev = true) ∧
      (maxChnPrio clnts dev = vbiChnPrioBackground →
        ∀ c ∈ clnts, c.scheduled dev = true → sched ≠ none) ∧
      grantScheduled m sched now = some r := by
  obtain ⟨m, sched, hselect, hstops, hsched, hall⟩ :=
    selectClnt_spec hunique dev forcedSwitch now
  rw [updateClnts, hselect] at h
  exact ⟨m, sched, hselect, hstops, hsched, hall, h⟩

theorem updateClnts_within (hunique : DistinctIds clnts)
    (h : updateClnts clnts dev forcedSwitch now = some r) :
    List.Forall₂ (Within dev) clnts r := by
  obtain ⟨m, sched, -, hstops, hsched, -, hr⟩ := updateClnts_parts hunique h
  have hmunique := hunique.of_placed (fun _ _ h => h.toPlaced) hstops
  exact within_trans (hstops.imp fun _ _ hs => hs.within)
    (grantScheduled_within hmunique hsched hr)

theorem updateClnts_sole {T : TokenState → Prop} (hT : TokenKind T) (hunique : DistinctIds clnts)
    (hsole : Sole T clnts) (h : updateClnts clnts dev forcedSwitch now = some r) : Sole T r := by
  obtain ⟨m, sched, -, hstops, -, -, hr⟩ := updateClnts_parts hunique h
  exact grantScheduled_sole hT (hunique.of_placed (fun _ _ h => h.toPlaced) hstops)
    (hsole.of_stops hT hstops) hr

theorem owned_kind : TokenKind fun t => t ≠ .none := by
  constructor <;> decide

def Assigned (t : TokenState) : Prop := t ≠ .none ∧ t ≠ .returned

theorem assigned_kind : TokenKind Assigned := by
  constructor <;> simp [Assigned]

theorem updateClnts_some (hunique : DistinctIds clnts) (h : Sole (fun t => t ≠ .none) clnts)
    (dev : Nat) (forcedSwitch : Bool) (now : Int) :
    ∃ r, updateClnts clnts dev forcedSwitch now = some r := by
  obtain ⟨m, sched, hselect, hstops, -⟩ := selectClnt_spec hunique dev forcedSwitch now
  rw [updateClnts, hselect]
  exact grantScheduled_some (hunique.of_placed (fun _ _ h => h.toPlaced) hstops)
    (h.of_stops owned_kind hstops) sched now

end ProxyToken

import Zvbi.ProxyToken
import Zvbi.RunningChoice

/-!
# Cycle counters of the proxy daemon

Clients of background priority with the same sub-priority share a channel. When a client has
completed its minimum duration its counter becomes the largest one, and all counters are
lowered before one exceeds 2. The scheduler chooses the first client in the order of the
counters, the activity and the start times, although counters are lowered while it compares.
-/

namespace ProxyCycles
open ProxyDaemon ProxyToken RunningChoice

/-- The token was granted to the client and was not taken away. -/
def Holds (t : TokenState) : Prop := t = .grant ∨ t = .granted ∨ t = .returned

instance (t : TokenState) : Decidable (Holds t) :=
  inferInstanceAs (Decidable (t = .grant ∨ t = .granted ∨ t = .returned))

variable {c a z : Clnt} {dev id : Nat} {l l' m : List Clnt} {now top time : Int}
  {sched : Option Nat}

theorem holds_of_controls (h : c.controls = true) : Holds c.token := by
  rw [Clnt.controls] at h
  cases htoken : c.token with
  | granted => exact Or.inr (Or.inl rfl)
  | returned => exact Or.inr (Or.inr rfl)
  | _ =>
    rw [htoken] at h
    exact absurd h Bool.false_ne_true

variable {t : TokenState} {n : Int} {c' : Clnt} {m' : List Clnt} {ids first rest : List Nat}
  {wins : Nat → Nat → Bool}

theorem Holds.ne_none (h : Holds t) : t ≠ .none := by
  rintro rfl
  rcases h with h | h | h <;> cases h

/-- The owner of the token takes part in the scheduling and was started last. When it completed
its reservation, no counter is larger. -/
structure Leads (dev : Nat) (clnts : List Clnt) (a : Clnt) : Prop where
  scheduled : a.scheduled dev = true
  latest : ∀ c ∈ clnts, c.devIdx = dev → c.chnState.lastStart ≤ a.chnState.lastStart
  top : a.chnState.isCompleted = true → ∀ c ∈ clnts, c.devIdx = dev →
    c.chnState.cycleCount ≤ a.chnState.cycleCount

structure Fair (dev : Nat) (now : Int) (clnts : List Clnt) : Prop where
  unique : DistinctIds clnts
  sole : Sole (fun t => t ≠ .none) clnts
  count : ∀ c ∈ clnts, c.devIdx = dev → 0 ≤ c.chnState.cycleCount ∧ c.chnState.cycleCount ≤ 2
  start : ∀ c ∈ clnts, c.devIdx = dev → 0 ≤ c.chnState.lastStart ∧ c.chnState.lastStart ≤ now
  leads : ∀ a ∈ clnts, a.devIdx = dev → a.token ≠ .none → Leads dev clnts a

theorem Fair.owner (h : Fair dev now l) {b : Clnt} (ha : a ∈ l) (hadev : a.devIdx = dev)
    (hatoken : a.token ≠ .none) (hb : b ∈ l) (hbdev : b.devIdx = dev) (hbtoken : b.token ≠ .none) :
    b = a :=
  h.unique.eq hb ha (h.sole b hb a ha hbtoken hatoken (hbdev.trans hadev.symm))

theorem Fair.find (h : Fair dev now l) (hc : c ∈ l) :
    findClnt l c.id = some c := findClnt_mem h.unique hc

def leveled (level : Bool) (count : Int) : Int :=
  if level && decide (0 < count) then count - 1 else count

/-- What a completed reservation of client `a` does to a client. -/
structure Completes (a : Clnt) (top : Int) (c c' : Clnt) : Prop extends Quiet c c' where
  lastStart : c'.chnState.lastStart = c.chnState.lastStart
  self : c.id = a.id → c'.chnState.isCompleted = true ∧ c'.chnState.cycleCount = top
  rest : c.id ≠ a.id → c'.chnState.isCompleted = c.chnState.isCompleted ∧
    c'.chnState.cycleCount =
      leveled (c.on a.devIdx && decide (a.chnState.cycleCount = 2)) c.chnState.cycleCount

structure Top (l : List Clnt) (a : Clnt) (top : Int) : Prop where
  le_two : top ≤ 2
  pos : 0 < top
  ge : a.chnState.cycleCount ≤ top
  most : ∀ c ∈ l, c.devIdx = a.devIdx → c.id ≠ a.id →
    leveled (c.on a.devIdx && decide (a.chnState.cycleCount = 2)) c.chnState.cycleCount ≤ top

theorem leveled_false (count : Int) : leveled false count = count := rfl

theorem leveled_le (level : Bool) (count : Int) : leveled level count ≤ count := by
  rw [leveled]
  split <;> omega

theorem leveled_mono (level : Bool) {m : Int} (h : n ≤ m) :
    leveled level n ≤ leveled level m := by
  rw [leveled, leveled]
  cases level with
  | false => exact h
  | true =>
    simp only [Bool.true_and, decide_eq_true_eq]
    split <;> split <;> omega

theorem leveled_nonneg (level : Bool) (h : 0 ≤ n) : 0 ≤ leveled level n := by
  rw [leveled]
  split
  · rename_i hpos
    rw [Bool.and_eq_true, decide_eq_true_iff] at hpos
    omega
  · exact h

theorem completes_rest (hne : c.id ≠ a.id) (hlevel : a.chnState.cycleCount ≠ 2) :
    Completes a top c c := by
  refine ⟨.refl c, rfl, fun hid => absurd hid hne, fun _ => ⟨rfl, ?_⟩⟩
  rw [decide_eq_false hlevel, Bool.and_false, leveled_false]

def completed (now count : Int) (s : ChnState) : ChnState :=
  { s with lastDuration := now - s.lastStart, isCompleted := true, cycleCount := count }

theorem completes_self (now : Int) : Completes a top a (a.setChn (completed now top)) :=
  ⟨⟨.setChn a _, rfl⟩, rfl, fun _ => ⟨rfl, rfl⟩, fun hne => absurd rfl hne⟩

def lower (dev : Nat) (c : Clnt) : Clnt :=
  if c.on dev && decide (0 < c.chnState.cycleCount) then
    c.setChn fun s => { s with cycleCount := s.cycleCount - 1 }
  else
    c

theorem lower_eq (dev : Nat) (c : Clnt) :
    lower dev c = c.setChn fun s => { s with cycleCount := leveled (c.on dev) s.cycleCount } := by
  unfold lower leveled
  split
  · rename_i h
    simp [Clnt.setChn, h]
  · rename_i h
    simp [Clnt.setChn, h]

theorem channelCompleted_completes (h : Fair a.devIdx time l) (ha : a ∈ l)
    (hcontrols : a.controls = true) (now : Int) :
    ∃ l' top, channelCompleted l a now = some l' ∧ List.Forall₂ (Completes a top) l l' ∧
      Top l a top := by
  obtain ⟨hnonneg, hle⟩ := h.count a ha rfl
  have hself : ∀ c ∈ l, c.id = a.id → c = a := fun c hc hid => h.unique.eq hc ha hid
  rw [channelCompleted, if_pos hcontrols]
  by_cases htwo : a.chnState.cycleCount = 2
  · have hover : 2 < a.chnState.cycleCount + 1 := by omega
    dsimp only
    rw [levelCycles, if_pos hover, setChn, List.map_map]
    refine ⟨_, 2, rfl, forall₂_map fun c hc => ?_, ⟨Int.le_refl 2, by decide, hle, ?_⟩⟩
    · change Completes a 2 c (lower a.devIdx (if c.id = a.id then
        c.setChn (completed now (a.chnState.cycleCount + 1)) else c))
      rw [lower_eq]
      by_cases hid : c.id = a.id
      · obtain rfl := hself c hc hid
        have hon : c.on c.devIdx = true := on_iff.mpr rfl
        rw [if_pos rfl, htwo]
        refine ⟨⟨(Kept.setChn c _).trans (.setChn _ _), rfl⟩, rfl, fun _ => ⟨rfl, ?_⟩,
          fun hne => absurd rfl hne⟩
        change leveled (c.on c.devIdx) (2 + 1) = 2
        rw [hon]
        rfl
      · rw [if_neg hid]
        refine ⟨⟨.setChn c _, rfl⟩, rfl, fun hself => absurd hself hid, fun _ => ⟨rfl, ?_⟩⟩
        rw [decide_eq_true htwo, Bool.and_true]
        rfl
    · intro c hc hdev hne
      exact Int.le_trans (leveled_le _ _) (h.count c hc hdev).2
  · have hnot : ¬ 2 < a.chnState.cycleCount + 1 := by omega
    have hkeep : ∀ c ∈ l, c.devIdx = a.devIdx → c.id ≠ a.id →
        leveled (c.on a.devIdx && decide (a.chnState.cycleCount = 2)) c.chnState.cycleCount =
          c.chnState.cycleCount := by
      intro c _ _ _
      rw [decide_eq_false htwo, Bool.and_false, leveled_false]
    dsimp only
    rw [levelCycles, if_neg hnot]
    split
    · -- The counter hops to 2.
      rename_i hhop
      rw [setChn, setChn, List.map_map]
      refine ⟨_, 2, rfl, forall₂_map fun c hc => ?_, ⟨Int.le_refl 2, by decide, hle, ?_⟩⟩
      · by_cases hid : c.id = a.id
        · obtain rfl := hself c hc hid
          rw [Function.comp_apply, if_pos (rfl : c.id = c.id), if_pos ((Kept.setChn c _).id)]
          exact ⟨⟨(Kept.setChn c _).trans (.setChn _ _), rfl⟩, rfl, fun _ => ⟨rfl, rfl⟩,
            fun hne => absurd rfl hne⟩
        · rw [Function.comp_apply, if_neg hid, if_neg hid]
          exact completes_rest hid htwo
      · intro c hc hdev hne
        rw [hkeep c hc hdev hne]
        exact (h.count c hc hdev).2
    · rename_i hstay
      rw [setChn]
      refine ⟨_, a.chnState.cycleCount + 1, rfl, forall₂_map fun c hc => ?_,
        ⟨by omega, by omega, by omega, ?_⟩⟩
      · by_cases hid : c.id = a.id
        · obtain rfl := hself c hc hid
          rw [if_pos rfl]
          exact completes_self now
        · rw [if_neg hid]
          exact completes_rest hid htwo
      · intro c hc hdev hne
        rw [hkeep c hc hdev hne]
        by_cases hone : a.chnState.cycleCount = 1
        · have hcount := (h.count c hc hdev).2
          omega
        · by_contra hgt
          refine hstay ⟨by omega, List.any_eq_true.mpr ⟨c, ?_, ?_⟩⟩
          · rw [setChn]
            exact List.mem_map.mpr ⟨c, hc, if_neg hne⟩
          · rw [Bool.and_eq_true, on_iff, decide_eq_true_iff]
            exact ⟨hdev, by omega⟩

theorem Completes.count_le (h : Completes a top c c') (htop : Top l a top) (hc : c ∈ l)
    (hdev : c.devIdx = a.devIdx) : c'.chnState.cycleCount ≤ top := by
  by_cases hid : c.id = a.id
  · exact Int.le_of_eq (h.self hid).2
  · rw [(h.rest hid).2]
    exact htop.most c hc hdev hid

theorem Fair.completes (h : Fair dev now l) (ha : a ∈ l) (hadev : a.devIdx = dev)
    (hatoken : a.token ≠ .none) (hl : List.Forall₂ (Completes a top) l l') (htop : Top l a top) :
    Fair dev now l' := by
  have hquiet : List.Forall₂ Quiet l l' := hl.imp fun _ _ hc => hc.toQuiet
  have hold : ∀ c' ∈ l', c'.devIdx = dev → ∃ c ∈ l, c.devIdx = dev ∧ Completes a top c c' := by
    intro c' hc' hdev
    obtain ⟨c, hc, hcc'⟩ := forall₂_mem_right hl hc'
    exact ⟨c, hc, hcc'.devIdx.symm.trans hdev, hcc'⟩
  refine ⟨h.unique.of_placed (fun _ _ hq => hq.toPlaced) hquiet, h.sole.of_quiet hquiet, ?_, ?_, ?_⟩
  · intro c' hc' hdev
    obtain ⟨c, hc, hcdev, hcc'⟩ := hold c' hc' hdev
    refine ⟨?_, Int.le_trans (hcc'.count_le htop hc (hcdev.trans hadev.symm)) htop.le_two⟩
    by_cases hid : c.id = a.id
    · rw [(hcc'.self hid).2]
      exact Int.le_of_lt htop.pos
    · rw [(hcc'.rest hid).2]
      exact leveled_nonneg _ (h.count c hc hcdev).1
  · intro c' hc' hdev
    obtain ⟨c, hc, hcdev, hcc'⟩ := hold c' hc' hdev
    rw [hcc'.lastStart]
    exact h.start c hc hcdev
  · intro b' hb' hbdev hbtoken
    obtain ⟨b, hb, hbdev, hbb'⟩ := hold b' hb' hbdev
    obtain rfl := h.owner ha hadev hatoken hb hbdev (hbb'.token ▸ hbtoken)
    have hleads := h.leads b hb hbdev hatoken
    refine ⟨(hbb'.toKept.scheduled dev).trans hleads.scheduled, ?_, ?_⟩
    · intro c' hc' hdev
      obtain ⟨c, hc, hcdev, hcc'⟩ := hold c' hc' hdev
      rw [hcc'.lastStart, hbb'.lastStart]
      exact hleads.latest c hc hcdev
    · intro _ c' hc' hdev
      obtain ⟨c, hc, hcdev, hcc'⟩ := hold c' hc' hdev
      rw [(hbb'.self rfl).2]
      exact hcc'.count_le htop hc (hcdev.trans hadev.symm)

def Settled (dev : Nat) (now : Int) (m : List Clnt) (ids : List Nat) : Prop :=
  ∀ c ∈ m, c.id ∈ ids → c.scheduled dev = true → (c.controls && c.expired now) = false

def winsIn (m : List Clnt) (w s : Nat) : Bool :=
  match findClnt m w, findClnt m s with
  | some cw, some cs => cw.wins cs
  | _, _ => false

def takers (dev : Nat) (m : List Clnt) (ids : List Nat) : List Nat :=
  ids.filter fun i => (findClnt m i).any (Clnt.scheduled dev)

def Found (m : List Clnt) (sched : Option Nat) : Prop :=
  ∀ s, sched = some s → ∃ c, findClnt m s = some c

/-- A round for a client which takes part. -/
theorem scheduleClnt_taker (active : Option Nat) {w : Clnt} (hfind : findClnt m id = some c)
    (hc : c.scheduled dev = true)
    (hm : (if c.controls && c.expired now then channelCompleted m c now else some m) = some m')
    (hwalk : findClnt m' id = some w) (hsched : Found m' sched) :
    scheduleClnt dev now ⟨m, sched, active⟩ id =
      some ⟨m', choose (winsIn m') sched [id], if c.controls then some id else active⟩ := by
  rw [scheduleClnt]
  dsimp only
  rw [hfind]
  dsimp only
  rw [if_pos hc, hm, Option.map_some, hwalk, Option.getD_some]
  cases sched with
  | none => rfl
  | some s =>
    obtain ⟨cs, hcs⟩ := hsched s rfl
    have hid : cs.id = s := (findClnt_some hcs).2
    rw [Option.bind_some, hcs]
    dsimp only
    rw [choose, choose, winsIn, hwalk, hcs, hid]

/-- A client which does not take part is skipped. -/
theorem scheduleClnt_other {r : Schedule}
    (h : (findClnt r.clnts id).any (Clnt.scheduled dev) = false) :
    scheduleClnt dev now r id = some r := by
  rw [scheduleClnt]
  cases hfind : findClnt r.clnts id with
  | none => rfl
  | some c =>
    rw [hfind] at h
    exact if_neg (Bool.eq_false_iff.mp h)

def track (dev : Nat) (m : List Clnt) (active : Option Nat) (id : Nat) : Option Nat :=
  if (findClnt m id).any fun c => c.scheduled dev && c.controls then some id else active

theorem found_choose (h : Found m sched) (hfind : findClnt m id = some c) :
    Found m (choose (winsIn m) sched [id]) := by
  intro s hs
  cases sched with
  | none =>
    obtain rfl := Option.some.inj hs
    exact ⟨c, hfind⟩
  | some t =>
    obtain ⟨z, hz, hmem⟩ := choose_some (winsIn m) t [id]
    obtain rfl : z = s := Option.some.inj (hz.symm.trans hs)
    rcases hmem with rfl | hmem
    · exact h z rfl
    · obtain rfl := List.mem_singleton.mp hmem
      exact ⟨c, hfind⟩

theorem takers_cons (dev : Nat) (m : List Clnt) (id : Nat) (ids : List Nat) :
    takers dev m (id :: ids) =
      (if (findClnt m id).any (Clnt.scheduled dev) then [id] else []) ++ takers dev m ids := by
  rw [takers]
  rw [List.filter_cons]
  split <;> rfl

theorem scheduleLoop_settled (h : Settled dev now m ids) (hsched : Found m sched)
    (active : Option Nat) :
    ids.foldlM (scheduleClnt dev now) ⟨m, sched, active⟩ =
      some ⟨m, choose (winsIn m) sched (takers dev m ids), ids.foldl (track dev m) active⟩ := by
  induction ids generalizing sched active with
  | nil => rfl
  | cons id ids ih =>
    have hrest : Settled dev now m ids := fun c hc hid => h c hc (List.mem_cons_of_mem id hid)
    rw [List.foldlM_cons, List.foldl_cons, takers_cons]
    by_cases htaker : (findClnt m id).any (Clnt.scheduled dev) = true
    · obtain ⟨c, hfind⟩ : ∃ c, findClnt m id = some c := by
        cases hfind : findClnt m id with
        | none =>
          rw [hfind] at htaker
          exact absurd htaker Bool.false_ne_true
        | some c => exact ⟨c, rfl⟩
      have hc : c.scheduled dev = true := by
        rw [hfind] at htaker
        exact htaker
      obtain ⟨hmem, hid⟩ := findClnt_some hfind
      have hstays := h c hmem (List.mem_cons.mpr (Or.inl hid)) hc
      have htrack : track dev m active id = if c.controls then some id else active := by
        rw [track]
        rw [hfind, Option.any_some, hc, Bool.true_and]
      rw [if_pos htaker, choose_append, htrack, scheduleClnt_taker active hfind hc
        (if_neg (Bool.eq_false_iff.mp hstays)) hfind hsched]
      exact ih hrest (found_choose hsched hfind) _
    · have htrack : track dev m active id = active := by
        rw [track]
        cases hfind : findClnt m id with
        | none => rfl
        | some c =>
          rw [hfind] at htaker
          have hc : c.scheduled dev = false := Bool.eq_false_iff.mpr htaker
          rw [Option.any_some, hc]
          rfl
      rw [scheduleClnt_other (Bool.eq_false_iff.mpr htaker), if_neg htaker, List.nil_append, htrack]
      exact ih hrest hsched active

theorem controls_ne_none (h : c.controls = true) : c.token ≠ .none :=
  (holds_of_controls h).ne_none

theorem track_active (h : Fair dev time l) (ha : a ∈ l) (hadev : a.devIdx = dev)
    (hcontrols : a.controls = true) (hmem : a.id ∈ ids) (active : Option Nat) :
    ids.foldl (track dev l) active = some a.id := by
  have htrack : ∀ act, track dev l act a.id = some a.id := by
    intro act
    rw [track]
    have hscheduled := (h.leads a ha hadev (controls_ne_none hcontrols)).scheduled
    rw [h.find ha, Option.any_some, hscheduled, hcontrols]
    rfl
  have honly : ∀ act id, track dev l act id = some a.id ∨ track dev l act id = act := by
    intro act id
    rw [track]
    split
    · rename_i hactive
      left
      cases hfind : findClnt l id with
      | none =>
        rw [hfind] at hactive
        exact absurd hactive Bool.false_ne_true
      | some c =>
        rw [hfind, Option.any_some, Bool.and_eq_true] at hactive
        obtain ⟨hc, hid⟩ := findClnt_some hfind
        obtain rfl := h.owner ha hadev (controls_ne_none hcontrols) hc
          (scheduled_iff.mp hactive.1).1 (controls_ne_none hactive.2)
        rw [hid]
    · exact Or.inr rfl
  have hkept : ∀ ids : List Nat, ids.foldl (track dev l) (some a.id) = some a.id := by
    intro ids
    induction ids with
    | nil => rfl
    | cons id ids ih =>
      rw [List.foldl_cons]
      rcases honly (some a.id) id with hid | hid <;> rw [hid] <;> exact ih
  induction ids generalizing active with
  | nil => exact absurd hmem List.not_mem_nil
  | cons id ids ih =>
    rw [List.foldl_cons]
    rcases List.mem_cons.mp hmem with rfl | hrest
    · rw [htrack]
      exact hkept ids
    · exact ih hrest _

theorem track_none (h : ∀ c ∈ l, c.devIdx = dev → c.controls = false) (ids : List Nat) :
    ids.foldl (track dev l) none = none := by
  induction ids with
  | nil => rfl
  | cons id ids ih =>
    have htrack : track dev l none id = none := by
      rw [track]
      cases hfind : findClnt l id with
      | none => rfl
      | some c =>
        have hc := h c (findClnt_some hfind).1
        by_cases hs : c.scheduled dev = true
        · rw [Option.any_some, hc (scheduled_iff.mp hs).1, Bool.and_false]
          rfl
        · rw [Option.any_some, Bool.eq_false_iff.mpr hs]
          rfl
    rw [List.foldl_cons, htrack]
    exact ih

/-- What the scheduler does to the counters, and how it compares the clients: either no
reservation is completed, or the one of client `a` is when its turn comes, and the clients
behind it are compared by the new counters. -/
inductive Turn (dev : Nat) (now : Int) (l : List Clnt) : List Clnt → (Nat → Nat → Bool) → Prop
  | idle (hset : Settled dev now l (l.map Clnt.id)) : Turn dev now l l (winsIn l)
  | done {l' : List Clnt} (a : Clnt) (top : Int) (first rest : List Nat) (ha : a ∈ l)
    (hadev : a.devIdx = dev) (hcontrols : a.controls = true) (hexpired : a.expired now = true)
    (hids : l.map Clnt.id = first ++ a.id :: rest) (hl : List.Forall₂ (Completes a top) l l')
    (htop : Top l a top) :
    Turn dev now l l' fun w s => if w ∈ first then winsIn l w s else winsIn l' w s

/-- A client is found on both lists or on none. -/
theorem find_related {R : Clnt → Clnt → Prop} (hR : ∀ c c', R c c' → Placed c c')
    (hl : List.Forall₂ R l l') (id : Nat) :
    (findClnt l id = none ∧ findClnt l' id = none) ∨
      ∃ c c', findClnt l id = some c ∧ findClnt l' id = some c' ∧ R c c' := by
  induction hl with
  | nil => exact Or.inl ⟨rfl, rfl⟩
  | @cons c c' l l' hcc' _ ih =>
    unfold findClnt at ih ⊢
    rw [List.find?_cons, List.find?_cons, (hR c c' hcc').id]
    by_cases hid : c.id = id
    · rw [decide_eq_true hid]
      exact Or.inr ⟨c, c', rfl, rfl, hcc'⟩
    · rw [decide_eq_false hid]
      exact ih

theorem find_of_related (hl : List.Forall₂ (Completes a top) l l') (hc : findClnt l id = some c) :
    ∃ c', findClnt l' id = some c' ∧ Completes a top c c' := by
  rcases find_related (fun _ _ hq => hq.toPlaced) hl id with ⟨hnone, -⟩ | ⟨d, d', hd, hd', hdd'⟩
  · exact absurd (hnone.symm.trans hc) (Option.some_ne_none c).symm
  · obtain rfl : d = c := Option.some.inj (hd.symm.trans hc)
    exact ⟨d', hd', hdd'⟩

theorem not_mem_of_nodup {a : Nat} (h : (first ++ a :: rest).Nodup) :
    a ∉ first ∧ a ∉ rest := by
  obtain ⟨-, hright, hdisjoint⟩ := List.nodup_append.mp h
  exact ⟨fun hmem => hdisjoint a hmem a List.mem_cons_self rfl, (List.nodup_cons.mp hright).1⟩

theorem takers_related (hl : List.Forall₂ Quiet l l') (ids : List Nat) :
    takers dev l' ids = takers dev l ids := by
  refine List.filter_congr fun id _ => ?_
  rcases find_related (fun _ _ hq => hq.toPlaced) hl id with ⟨hnone, hnone'⟩ | ⟨c, c', hc, hc', hq⟩
  · rw [hnone, hnone']
  · rw [hc, hc', Option.any_some, Option.any_some, hq.toKept.scheduled]

theorem track_related (hl : List.Forall₂ Quiet l l') : track dev l' = track dev l := by
  funext active id
  rw [track, track]
  rcases find_related (fun _ _ hq => hq.toPlaced) hl id with ⟨hnone, hnone'⟩ | ⟨c, c', hc, hc', hq⟩
  · rw [hnone, hnone']
  · have hcontrols : c'.controls = c.controls := congrArg TokenState.controlsChn hq.token
    rw [hc, hc', Option.any_some, Option.any_some, hq.toKept.scheduled, hcontrols]

theorem completes_quiet (hl : List.Forall₂ (Completes a top) l l') : List.Forall₂ Quiet l l' :=
  hl.imp fun _ _ hc => hc.toQuiet

theorem not_expired_of_completed (h : c.chnState.isCompleted = true) (now : Int) :
    c.expired now = false := by
  rw [Clnt.expired]
  rw [h]
  rfl

/-- The comparisons before and after the counters are changed. -/
theorem choose_turn {before after : Nat → Nat → Bool} {a : Nat}
    (hnodup : (first ++ a :: rest).Nodup) {ws vs : List Nat} (hws : ∀ w ∈ ws, w ∈ first)
    (hvs : ∀ w ∈ vs, w ∈ rest) :
    choose (fun w s => if w ∈ first then before w s else after w s) none (ws ++ ([a] ++ vs)) =
      choose after (choose after (choose before none ws) [a]) vs := by
  obtain ⟨-, -, hdisjoint⟩ := List.nodup_append.mp hnodup
  have hfirst : ∀ w ∈ ws, ∀ s, (if w ∈ first then before w s else after w s) = before w s :=
    fun w hw _ => if_pos (hws w hw)
  have hlater : ∀ w ∈ a :: rest, ∀ s, (if w ∈ first then before w s else after w s) = after w s :=
    fun w hw _ => if_neg fun hmem => hdisjoint w hmem w hw rfl
  rw [choose_append, choose_append, choose_congr ws hfirst,
    choose_congr [a] fun w hw => hlater w (List.mem_singleton.mp hw ▸ List.mem_cons_self),
    choose_congr vs fun w hw => hlater w (List.mem_cons_of_mem a (hvs w hw))]

theorem scheduleLoop_turn (h : Fair dev time l) (now : Int) :
    ∃ l' wins, Turn dev now l l' wins ∧
      (l.map Clnt.id).foldlM (scheduleClnt dev now) ⟨l, none, none⟩ =
        some ⟨l', choose wins none (takers dev l (l.map Clnt.id)),
          (l.map Clnt.id).foldl (track dev l) none⟩ := by
  by_cases hset : Settled dev now l (l.map Clnt.id)
  · exact ⟨l, winsIn l, .idle hset,
      scheduleLoop_settled hset (fun _ hs => absurd hs (Option.some_ne_none _).symm) none⟩
  · simp only [Settled, not_forall] at hset
    obtain ⟨a, ha, -, hascheduled, hnot⟩ := hset
    rw [Bool.not_eq_false, Bool.and_eq_true] at hnot
    obtain ⟨hcontrols, hexpired⟩ := hnot
    have hadev := (scheduled_iff.mp hascheduled).1
    obtain ⟨l', top, hcompleted, hl, htop⟩ :=
      channelCompleted_completes (hadev.symm ▸ h) ha hcontrols now
    have hquiet := completes_quiet hl
    obtain ⟨first, rest, hids⟩ := List.append_of_mem (List.mem_map_of_mem (f := Clnt.id) ha)
    refine ⟨l', _, .done a top first rest ha hadev hcontrols hexpired hids hl htop, ?_⟩
    have hnodup : (first ++ a.id :: rest).Nodup := hids ▸ h.unique
    obtain ⟨hfirst, hrest⟩ := not_mem_of_nodup hnodup
    obtain ⟨a', hfind', haa'⟩ := find_of_related hl (h.find ha)
    have honly : ∀ c ∈ l, c.scheduled dev = true → c.controls = true → c = a := fun c hc hs hcc =>
      h.owner ha hadev (controls_ne_none hcontrols) hc (scheduled_iff.mp hs).1
        (controls_ne_none hcc)
    have hset₁ : Settled dev now l first := by
      intro c hc hid hs
      by_cases hcc : c.controls = true
      · exact absurd (honly c hc hs hcc ▸ hid) hfirst
      · rw [Bool.eq_false_iff.mpr hcc, Bool.false_and]
    have hset₂ : Settled dev now l' rest := by
      intro c' hc' hid hs
      obtain ⟨c, hc, hcc'⟩ := forall₂_mem_right hquiet hc'
      by_cases hcontrols' : c'.controls = true
      · have hcc : c.controls = true := by
          rw [Clnt.controls, ← hcc'.token]
          exact hcontrols'
        obtain rfl := honly c hc ((hcc'.toKept.scheduled dev).symm.trans hs) hcc
        exact absurd (hcc'.id ▸ hid) hrest
      · rw [Bool.eq_false_iff.mpr hcontrols', Bool.false_and]
    have hfound : Found l' (choose (winsIn l) none (takers dev l first)) := by
      intro s hs
      have hany := (List.mem_filter.mp (choose_mem hs)).2
      cases hfind : findClnt l s with
      | none =>
        rw [hfind] at hany
        exact absurd hany Bool.false_ne_true
      | some c =>
        obtain ⟨c', hc', -⟩ := find_of_related hl hfind
        exact ⟨c', hc'⟩
    have htaker : (findClnt l a.id).any (Clnt.scheduled dev) = true := by
      rw [h.find ha]
      exact hascheduled
    have htrack : track dev l (first.foldl (track dev l) none) a.id =
        if a.controls then some a.id else first.foldl (track dev l) none := by
      rw [track]
      rw [h.find ha, Option.any_some, hascheduled, Bool.true_and]
    have hexpire : (a.controls && a.expired now) = true := by
      rw [hcontrols, hexpired]
      rfl
    rw [hids, List.foldlM_append, scheduleLoop_settled hset₁
      (fun _ hs => absurd hs (Option.some_ne_none _).symm) none, Option.bind_eq_bind,
      Option.bind_some, List.foldlM_cons, scheduleClnt_taker _ (h.find ha) hascheduled
      ((if_pos hexpire).trans hcompleted) hfind' hfound, Option.bind_eq_bind, Option.bind_some,
      scheduleLoop_settled hset₂ (found_choose hfound hfind')]
    have htakers : takers dev l (first ++ a.id :: rest) =
        takers dev l first ++ ([a.id] ++ takers dev l' rest) := by
      rw [takers, List.filter_append, ← takers, ← takers, takers_cons, if_pos htaker,
        takers_related hquiet]
    have hws : ∀ w ∈ takers dev l first, w ∈ first := fun _ hw => (List.mem_filter.mp hw).1
    have hvs : ∀ w ∈ takers dev l' rest, w ∈ rest := fun _ hw => (List.mem_filter.mp hw).1
    rw [htakers, choose_turn hnodup hws hvs, List.foldl_append, List.foldl_cons, htrack,
      track_related hquiet]

theorem Turn.quiet (h : Turn dev now l l' wins) : List.Forall₂ Quiet l l' := by
  cases h with
  | idle hset => exact quiet_refl l
  | done a top first rest ha hadev hcontrols hexpired hids hl htop => exact completes_quiet hl

theorem Turn.fair (h : Turn dev now l l' wins) (hfair : Fair dev time l) :
    Fair dev time l' := by
  cases h with
  | idle hset => exact hfair
  | done a top first rest ha hadev hcontrols hexpired hids hl htop =>
    exact hfair.completes ha hadev (controls_ne_none hcontrols) hl htop

/-- No reservation which is still active is expired after a turn. -/
theorem Turn.not_expired (h : Turn dev now l l' wins) (hfair : Fair dev time l) (hc : c ∈ l')
    (hdev : c.devIdx = dev) (hcontrols : c.controls = true) : c.expired now = false := by
  have hs := ((h.fair hfair).leads c hc hdev (controls_ne_none hcontrols)).scheduled
  cases h with
  | idle hset =>
    have hnot := hset c hc (List.mem_map_of_mem hc) hs
    rwa [hcontrols, Bool.true_and] at hnot
  | done a top first rest ha hadev hacontrols hexpired hids hl htop =>
    obtain ⟨b, hb, hbc⟩ := forall₂_mem_right hl hc
    have hbtoken : b.token ≠ .none := hbc.token ▸ controls_ne_none hcontrols
    obtain rfl := hfair.owner ha hadev (controls_ne_none hacontrols) hb
      (hbc.devIdx.symm.trans hdev) hbtoken
    exact not_expired_of_completed (hbc.self rfl).1 now

def stop (s : ChnState) : ChnState :=
  { s with isCompleted := false, tokenState := s.tokenState.stopped }

def release (dev : Nat) (sched : Option Nat) (m : List Clnt) : List Clnt :=
  m.map fun c => if c.devIdx = dev ∧ c.controls = true ∧ sched ≠ some c.id then c.setChn stop else c

theorem release_eq (h : ∀ c ∈ m, c.devIdx = dev → c.controls = true → sched = some c.id) :
    release dev sched m = m := by
  refine (List.map_congr_left fun c hc => ?_).trans (List.map_id m)
  exact if_neg fun ⟨hdev, hcontrols, hne⟩ => hne (h c hc hdev hcontrols)

/-- The scheduler is a turn, a choice by its comparisons, and the end of a reservation. -/
theorem channelSchedule_turn (h : Fair dev time l) (now : Int) :
    ∃ l' wins, Turn dev now l l' wins ∧
      channelSchedule l dev now =
        some (release dev (choose wins none (takers dev l (l.map Clnt.id))) l',
          choose wins none (takers dev l (l.map Clnt.id))) := by
  obtain ⟨l', wins, hturn, hloop⟩ := scheduleLoop_turn h now
  have hfair := hturn.fair h
  refine ⟨l', wins, hturn, ?_⟩
  rw [channelSchedule, hloop, Option.bind_some]
  dsimp only
  generalize choose wins none (takers dev l (l.map Clnt.id)) = sched
  by_cases hactive : ∃ a ∈ l', a.devIdx = dev ∧ a.controls = true
  · obtain ⟨a', ha', hdev', hcontrols'⟩ := hactive
    obtain ⟨a, ha, haa'⟩ := forall₂_mem_right hturn.quiet ha'
    have hcontrols : a.controls = true := by
      rw [Clnt.controls, ← haa'.token]
      exact hcontrols'
    have honly : ∀ c ∈ l', c.devIdx = dev → c.controls = true → c = a' := fun c hc hdev hcc =>
      hfair.owner ha' hdev' (controls_ne_none hcontrols') hc hdev (controls_ne_none hcc)
    rw [track_active h ha (haa'.devIdx.symm.trans hdev') hcontrols (List.mem_map_of_mem ha),
      Option.bind_some, ← haa'.id, hfair.find ha']
    dsimp only
    by_cases hsched : sched = some a'.id
    · rw [if_neg (not_not.mpr hsched), release_eq fun c hc hdev hcc => ?_]
      rw [honly c hc hdev hcc]
      exact hsched
    · rw [if_pos hsched, channelStopped, if_pos hcontrols',
        hturn.not_expired h ha' hdev' hcontrols']
      refine congrArg (fun m => some (m, sched)) (List.map_congr_left fun c hc => ?_)
      by_cases hid : c.id = a'.id
      · obtain rfl := hfair.unique.eq hc ha' hid
        rw [if_pos rfl, if_pos ⟨hdev', hcontrols', hsched⟩]
        rfl
      · rw [if_neg hid, if_neg fun hstop => hid (congrArg Clnt.id (honly c hc hstop.1 hstop.2.1))]
  · have hnone : ∀ c ∈ l', c.devIdx = dev → c.controls = false := fun c hc hdev =>
      Bool.eq_false_iff.mpr fun hcontrols => hactive ⟨c, hc, hdev, hcontrols⟩
    rw [← track_related hturn.quiet, track_none hnone, release_eq fun c hc hdev hcc => ?_]
    · rfl
    · rw [hnone c hc hdev] at hcc
      cases hcc

structure Eased (dev : Nat) (c c' : Clnt) : Prop extends Placed c c' where
  count : c'.chnState.cycleCount = c.chnState.cycleCount ∨ c'.chnState.cycleCount = 0
  lastStart : c'.chnState.lastStart = c.chnState.lastStart ∨ c'.chnState.lastStart = 0
  token : c'.token ≠ .none → c.token ≠ .none
  owner : c'.token ≠ .none → c'.scheduled dev = c.scheduled dev ∧
    c'.chnState.cycleCount = c.chnState.cycleCount ∧
    c'.chnState.lastStart = c.chnState.lastStart ∧
    (c'.chnState.isCompleted = true → c.chnState.isCompleted = true)

theorem Fair.eased (h : Fair dev now l) (hl : List.Forall₂ (Eased dev) l l') : Fair dev now l' := by
  have hold : ∀ c' ∈ l', c'.devIdx = dev → ∃ c ∈ l, c.devIdx = dev ∧ Eased dev c c' := by
    intro c' hc' hdev
    obtain ⟨c, hc, hcc'⟩ := forall₂_mem_right hl hc'
    exact ⟨c, hc, hcc'.devIdx.symm.trans hdev, hcc'⟩
  refine ⟨h.unique.of_placed (fun _ _ he => he.toPlaced) hl,
    h.sole.of_related hl (fun _ _ he => he.toPlaced) fun _ _ he => he.token, ?_, ?_, ?_⟩
  · intro c' hc' hdev
    obtain ⟨c, hc, hcdev, hcc'⟩ := hold c' hc' hdev
    have hcount := h.count c hc hcdev
    rcases hcc'.count with hsame | hzero <;> omega
  · intro c' hc' hdev
    obtain ⟨c, hc, hcdev, hcc'⟩ := hold c' hc' hdev
    have hstart := h.start c hc hcdev
    rcases hcc'.lastStart with hsame | hzero <;> omega
  · intro a' ha' hadev htoken
    obtain ⟨a, ha, hadev, haa'⟩ := hold a' ha' hadev
    obtain ⟨hscheduled, hcount, hstart, hcompleted⟩ := haa'.owner htoken
    have hleads := h.leads a ha hadev (haa'.token htoken)
    refine ⟨hscheduled.trans hleads.scheduled, ?_, ?_⟩
    · intro c' hc' hdev
      obtain ⟨c, hc, hcdev, hcc'⟩ := hold c' hc' hdev
      have hle := hleads.latest c hc hcdev
      have hpos := h.start c hc hcdev
      rcases hcc'.lastStart with hsame | hzero <;> omega
    · intro htrue c' hc' hdev
      obtain ⟨c, hc, hcdev, hcc'⟩ := hold c' hc' hdev
      have hle := hleads.top (hcompleted htrue) c hc hcdev
      have hpos := h.count c hc hcdev
      rcases hcc'.count with hsame | hzero <;> omega

theorem Fair.later {now' : Int} (h : Fair dev now l) (hnow : now ≤ now') : Fair dev now' l :=
  ⟨h.unique, h.sole, h.count,
    fun c hc hdev => ⟨(h.start c hc hdev).1, Int.le_trans (h.start c hc hdev).2 hnow⟩, h.leads⟩

structure Calm (c c' : Clnt) : Prop extends Kept c c' where
  count : c'.chnState.cycleCount = c.chnState.cycleCount
  lastStart : c'.chnState.lastStart = c.chnState.lastStart
  token : c'.token ≠ .none → c.token ≠ .none
  isCompleted : c'.chnState.isCompleted = true → c.chnState.isCompleted = true

theorem Calm.refl (c : Clnt) : Calm c c := ⟨.refl c, rfl, rfl, id, id⟩

theorem Calm.eased (h : Calm c c') (dev : Nat) : Eased dev c c' :=
  ⟨h.toPlaced, Or.inl h.count, Or.inl h.lastStart, h.token,
    fun _ => ⟨h.toKept.scheduled dev, h.count, h.lastStart, h.isCompleted⟩⟩

theorem Fair.calm (h : Fair dev now l) (hl : List.Forall₂ Calm l l') : Fair dev now l' :=
  h.eased (hl.imp fun _ _ hc => hc.eased dev)

theorem stop_calm (c : Clnt) : Calm c (c.setChn stop) :=
  ⟨.setChn c _, rfl, rfl, fun hne hnone => hne (congrArg TokenState.stopped hnone),
    fun hcompleted => absurd hcompleted Bool.false_ne_true⟩

theorem stops_calm (l : List Clnt) (p : Clnt → Prop) [DecidablePred p] :
    List.Forall₂ Calm l (l.map fun c => if p c then c.setChn stop else c) := by
  refine forall₂_map fun c _ => ?_
  split
  · exact stop_calm c
  · exact .refl c

theorem release_calm (dev : Nat) (sched : Option Nat) (l : List Clnt) :
    List.Forall₂ Calm l (release dev sched l) := stops_calm l _

/-- A forced switch stops the active client, and completes an expired reservation. -/
theorem stopAll_fair (h : Fair dev time l) (now : Int) :
    ∃ l', stopAll l dev now = some l' ∧ Fair dev time l' := by
  have hloop : ∀ (ids : List Nat) (l : List Clnt), Fair dev time l →
      ∃ l', ids.foldlM (stopClnt dev now) l = some l' ∧ Fair dev time l' := by
    intro ids
    induction ids with
    | nil => exact fun l hl => ⟨l, rfl, hl⟩
    | cons id ids ih =>
      intro l hl
      obtain ⟨m, hm, hmfair⟩ : ∃ m, stopClnt dev now l id = some m ∧ Fair dev time m := by
        rw [stopClnt]
        cases hfind : findClnt l id with
        | none => exact ⟨l, rfl, hl⟩
        | some c =>
          dsimp only
          split
          · rename_i hc
            rw [Bool.and_eq_true, on_iff] at hc
            obtain ⟨hdev, hcontrols⟩ := hc
            have hcl := (findClnt_some hfind).1
            rw [channelStopped, if_pos hcontrols]
            dsimp only
            split
            · obtain ⟨l', top, hcompleted, hl', htop⟩ :=
                channelCompleted_completes (hdev.symm ▸ hl) hcl hcontrols now
              rw [hcompleted]
              have hfair := hl.completes hcl hdev (controls_ne_none hcontrols) hl' htop
              exact ⟨_, rfl, hfair.calm (stops_calm l' _)⟩
            · exact ⟨_, rfl, hl.calm (stops_calm l _)⟩
          · exact ⟨l, rfl, hl⟩
      obtain ⟨l', hl', hfair⟩ := ih m hmfair
      refine ⟨l', ?_, hfair⟩
      rw [List.foldlM_cons, hm]
      exact hl'
  exact hloop _ l h

/-- The token is granted to client `z`, and a reservation starts. -/
structure Granted (dev z : Nat) (now : Int) (c c' : Clnt) : Prop extends Kept c c' where
  count : c'.chnState.cycleCount = c.chnState.cycleCount
  self : c.id = z → Holds c'.token ∧ c'.chnState.isCompleted = false ∧ c'.chnState.lastStart = now
  rest : c.id ≠ z → c'.chnState.lastStart = c.chnState.lastStart ∧
    c'.chnState.isCompleted = c.chnState.isCompleted
  others : c.id ≠ z → c.devIdx = dev → c'.token = .none
  elsewhere : c.devIdx ≠ dev → c'.token = c.token

def started (now : Int) (s : ChnState) : ChnState :=
  { s with isCompleted := false, lastDuration := 0, lastStart := now }

/-- The token is with client `z`. -/
structure Given (dev z : Nat) (c c' : Clnt) : Prop extends Kept c c' where
  count : c'.chnState.cycleCount = c.chnState.cycleCount
  lastStart : c'.chnState.lastStart = c.chnState.lastStart
  isCompleted : c'.chnState.isCompleted = c.chnState.isCompleted
  self : c.id = z → Holds c'.token
  others : c.id ≠ z → c.devIdx = dev → c'.token = .none
  elsewhere : c.devIdx ≠ dev → c'.token = c.token

theorem Given.started {z : Nat} (hm : List.Forall₂ (Given dev z) m m') :
    List.Forall₂ (Granted dev z now) m (setChn z (started now) m') := by
  refine List.forall₂_map_right_iff.mpr (hm.imp fun c c' h => ?_)
  by_cases hid : c'.id = z
  · have hcid : c.id = z := h.id.symm.trans hid
    rw [if_pos hid]
    exact ⟨h.toKept.trans (.setChn c' _), h.count, fun _ => ⟨h.self hcid, rfl, rfl⟩,
      fun hne => absurd hcid hne, fun hne => absurd hcid hne, h.elsewhere⟩
  · have hcid : c.id ≠ z := fun hc => hid (h.id.trans hc)
    rw [if_neg hid]
    exact ⟨h.toKept, h.count, fun hc => absurd hc hcid, fun _ => ⟨h.lastStart, h.isCompleted⟩,
      h.others, h.elsewhere⟩

theorem given_setToken (hunique : DistinctIds m) (hz : z ∈ m) (ht : Holds t)
    (hnone : ∀ c ∈ m, c.id ≠ z.id → c.devIdx = z.devIdx → c.token = .none) :
    List.Forall₂ (Given z.devIdx z.id) m (setToken z.id t m) := by
  refine forall₂_map fun c hc => ?_
  by_cases hid : c.id = z.id
  · obtain rfl := hunique.eq hc hz hid
    rw [if_pos rfl]
    exact ⟨.setChn c _, rfl, rfl, rfl, fun _ => ht, fun hne => absurd rfl hne,
      fun hne => absurd rfl hne⟩
  · rw [if_neg hid]
    exact ⟨.refl c, rfl, rfl, rfl, fun h => absurd h hid, hnone c hc, fun _ => rfl⟩

/-- A grant to a client starts a reservation, or the client has to wait. -/
theorem tokenGrant_outcome (h : Fair dev time m) (hz : z ∈ m) (hdev : z.devIdx = dev)
    {r : List Clnt × Bool} (hr : Granting m z r) :
    (r.2 = false ∧ List.Forall₂ Calm m r.1) ∨
      (r.2 = true ∧ List.Forall₂ (Given dev z.id) m r.1) := by
  have hnone : z.token ≠ .none → ∀ c ∈ m, c.id ≠ z.id → c.devIdx = z.devIdx → c.token = .none := by
    intro hztoken c hc hne hcdev
    by_contra htoken
    exact hne (congrArg Clnt.id (h.owner hz hdev hztoken hc (hcdev.trans hdev) htoken))
  subst hdev
  cases hr with
  | free hreq howner =>
    refine Or.inr ⟨rfl, given_setToken h.unique hz (Or.inl rfl) fun c hc _ hdev => ?_⟩
    by_contra htoken
    have howns := owns_iff.mpr ⟨hdev, htoken⟩
    rw [howner c hc] at howns
    cases howns
  | swap p hreq hp howns howner htoken =>
    have hpz : p.id ≠ z.id := by
      intro hid
      obtain rfl := h.unique.eq hp hz hid
      exact (owns_iff.mp howns).2 hreq
    refine Or.inr ⟨rfl, ?_⟩
    rw [setToken_comm hpz, setToken, setToken, setChn, setChn, List.map_map]
    refine forall₂_map fun c hc => ?_
    rw [Function.comp_apply]
    by_cases hid : c.id = z.id
    · obtain rfl := h.unique.eq hc hz hid
      rw [if_neg (Ne.symm hpz), if_pos rfl]
      exact ⟨.setChn c _, rfl, rfl, rfl, fun _ => Or.inl rfl, fun hne => absurd rfl hne,
        fun hne => absurd rfl hne⟩
    · by_cases hcp : c.id = p.id
      · obtain rfl := h.unique.eq hc hp hcp
        rw [if_pos rfl, if_neg (show ¬ (c.setChn _).id = z.id from hpz)]
        exact ⟨.setChn c _, rfl, rfl, rfl, fun hself => absurd hself hid, fun _ _ => rfl,
          fun hne => absurd (owns_iff.mp howns).1 hne⟩
      · rw [if_neg hcp, if_neg hid]
        refine ⟨.refl c, rfl, rfl, rfl, fun hself => absurd hself hid, fun _ hcdev => ?_,
          fun _ => rfl⟩
        by_contra htoken
        exact hcp (congrArg Clnt.id (howner c hc (owns_iff.mpr ⟨hcdev, htoken⟩)))
  | reclaim p hreq hp howns htoken =>
    refine Or.inl ⟨rfl, forall₂_map fun c hc => ?_⟩
    by_cases hid : c.id = p.id
    · obtain rfl := h.unique.eq hc hp hid
      rw [if_pos rfl]
      exact ⟨.setChn c _, rfl, rfl, fun _ => (owns_iff.mp howns).2, id⟩
    · rw [if_neg hid]
      exact .refl c
  | wait p hreq hp howns htoken => exact Or.inl ⟨rfl, List.forall₂_same.mpr fun c _ => .refl c⟩
  | same hsame =>
    have hztoken : Holds z.token := hsame
    refine Or.inr ⟨rfl, List.forall₂_same.mpr fun c hc =>
      ⟨.refl c, rfl, rfl, rfl, ?_, ?_, fun _ => rfl⟩⟩
    · intro hid
      rw [h.unique.eq hc hz hid]
      exact hztoken
    · exact hnone hztoken.ne_none c hc
  | keep hreclaim =>
    exact Or.inr ⟨rfl, given_setToken h.unique hz (Or.inr (Or.inl rfl))
      (hnone (hreclaim ▸ TokenState.noConfusion))⟩
  | again hrelease =>
    exact Or.inr ⟨rfl, given_setToken h.unique hz (Or.inl rfl)
      (hnone (hrelease ▸ TokenState.noConfusion))⟩

/-- After a grant the owner of the token was started last. -/
theorem Fair.granted {r : List Clnt} (h : Fair dev time m) (htime : time ≤ now) (hz : z ∈ m)
    (hscheduled : z.scheduled dev = true) (hr : List.Forall₂ (Granted dev z.id now) m r) :
    Fair dev now r := by
  have hzdev : z.devIdx = dev := (scheduled_iff.mp hscheduled).1
  have hold : ∀ c' ∈ r, c'.devIdx = dev → ∃ c ∈ m, c.devIdx = dev ∧ Granted dev z.id now c c' := by
    intro c' hc' hdev
    obtain ⟨c, hc, hcc'⟩ := forall₂_mem_right hr hc'
    exact ⟨c, hc, hcc'.devIdx.symm.trans hdev, hcc'⟩
  have hnow : 0 ≤ now := by
    obtain ⟨hpos, hle⟩ := h.start z hz hzdev
    omega
  have hstart : ∀ c' ∈ r, c'.devIdx = dev →
      0 ≤ c'.chnState.lastStart ∧ c'.chnState.lastStart ≤ now := by
    intro c' hc' hdev
    obtain ⟨c, hc, hcdev, hcc'⟩ := hold c' hc' hdev
    by_cases hid : c.id = z.id
    · rw [(hcc'.self hid).2.2]
      exact ⟨hnow, Int.le_refl now⟩
    · rw [(hcc'.rest hid).1]
      obtain ⟨hpos, hle⟩ := h.start c hc hcdev
      exact ⟨hpos, Int.le_trans hle htime⟩
  refine ⟨h.unique.of_placed (fun _ _ hg => hg.toPlaced) hr, ?_, ?_, hstart, ?_⟩
  · intro a' ha' b' hb' hatoken hbtoken hdev
    obtain ⟨a, ha, haa'⟩ := forall₂_mem_right hr ha'
    obtain ⟨b, hb, hbb'⟩ := forall₂_mem_right hr hb'
    have hab : a.devIdx = b.devIdx := haa'.devIdx.symm.trans (hdev.trans hbb'.devIdx)
    rw [haa'.id, hbb'.id]
    by_cases hadev : a.devIdx = dev
    · have haz : a.id = z.id := by
        by_contra hne
        exact hatoken (haa'.others hne hadev)
      have hbz : b.id = z.id := by
        by_contra hne
        exact hbtoken (hbb'.others hne (hab.symm.trans hadev))
      exact haz.trans hbz.symm
    · exact h.sole a ha b hb (haa'.elsewhere hadev ▸ hatoken)
        (hbb'.elsewhere (fun hb => hadev (hab.trans hb)) ▸ hbtoken) hab
  · intro c' hc' hdev
    obtain ⟨c, hc, hcdev, hcc'⟩ := hold c' hc' hdev
    rw [hcc'.count]
    exact h.count c hc hcdev
  · intro a' ha' hadev htoken
    obtain ⟨a, ha, hadev, haa'⟩ := hold a' ha' hadev
    have haz : a.id = z.id := by
      by_contra hne
      exact htoken (haa'.others hne hadev)
    obtain rfl := h.unique.eq ha hz haz
    obtain ⟨-, hcompleted, hlast⟩ := haa'.self rfl
    refine ⟨(haa'.toKept.scheduled dev).trans hscheduled, ?_, ?_⟩
    · intro c' hc' hdev
      rw [hlast]
      exact (hstart c' hc' hdev).2
    · intro htrue
      rw [hcompleted] at htrue
      cases htrue

/-- What a grant to the chosen client does: nothing if it is active, or a start or a wait. -/
theorem grantScheduled_outcome (h : Fair dev time m) (hz : z ∈ m) (hdev : z.devIdx = dev)
    (now : Int) :
    ∃ r, grantScheduled m (some z.id) now = some r ∧
      ((z.controls = true ∧ r = m) ∨ List.Forall₂ Calm m r ∨
        List.Forall₂ (Granted dev z.id now) m r) := by
  rw [grantScheduled]
  rw [Option.bind_some, h.find hz]
  dsimp only
  by_cases hcontrols : z.controls = true
  · rw [if_pos hcontrols]
    exact ⟨m, rfl, Or.inl ⟨hcontrols, rfl⟩⟩
  · obtain ⟨r, hr⟩ := tokenGrant_some h.unique h.sole z
    rw [if_neg hcontrols, hr, Option.map_some]
    rcases tokenGrant_outcome h hz hdev (tokenGrant_granting hr) with ⟨hno, hcalm⟩ | ⟨hyes, hgiven⟩
    · rw [hno]
      exact ⟨_, rfl, Or.inr (Or.inl hcalm)⟩
    · rw [hyes]
      exact ⟨_, rfl, Or.inr (Or.inr (Given.started hgiven))⟩

end ProxyCycles

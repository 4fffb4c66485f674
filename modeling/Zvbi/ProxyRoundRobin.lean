import Zvbi.ProxyTurns
import Zvbi.ProxyWaiting

/-!
# Turns of background clients

Clients of background priority which share a channel and send no further requests take turns:
a client which was active for its minimum duration is not scheduled again before each of the
others was. Two things break this. Start times are full seconds, so the order is lost between
clients which were started in the same one. A client whose grant is taken back before it was
sent counts as started, and then an older client can pass one with fewer cycles.
-/

namespace ProxyRoundRobin
open ProxyDaemon ProxyToken ProxyWaiting ProxyCycles ProxyTurns RunningChoice GuardedRuns

/-- The clients, the time of the last update of a device, and the clients which
`vbi_proxyd_channel_schedule()` returned so far. -/
structure Channel where
  clnts : List Clnt
  now : Int
  scheds : List Nat

/-- What happens on a device: connections, requests, messages about the token, and updates. -/
inductive Op
  | accept (id devIdx : Nat)
  | close (id : Nat)
  | tokenReq (id : Nat) (chnPrio : Int) (chnProfile : ChnProfile)
  | notify (id : Nat) (flags : NotifyFlags)
  | transmit (id : Nat)
  | reclaimCnf (id : Nat)
  | update (forcedSwitch : Bool) (now : Int)

/-- A pending message about the token is sent. -/
def transmit (c : Clnt) : Clnt :=
  if c.token = .reclaim then c.setChn fun s => s.setToken .release
  else if c.token = .grant then c.setChn fun s => s.setToken .granted
  else c

def reclaimCnf (c : Clnt) : Clnt :=
  if c.token = .release then c.setChn fun s => s.setToken .none else c

def Channel.modify (s : Channel) (id : Nat) (f : Clnt → Clnt) : Channel :=
  { s with clnts := modifyClnt id f s.clnts }

def step (dev : Nat) (s : Channel) (op : Op) : Option Channel :=
  match op with
  | .accept id devIdx =>
    some { s with
      clnts := s.clnts ++ [⟨id, devIdx, .waitConReq, 0, ⟨false, 0, 0⟩, clearChnState,
        vbiChnPrioInteractive⟩] }
  | .close id => some { s with clnts := s.clnts.filter fun c => c.id ≠ id }
  | .tokenReq id chnPrio chnProfile => some (s.modify id fun c => c.request chnPrio chnProfile)
  | .notify id flags => some (s.modify id fun c => c.notify flags)
  | .transmit id => some (s.modify id transmit)
  | .reclaimCnf id => some (s.modify id reclaimCnf)
  | .update forcedSwitch now =>
    (selectClnt s.clnts dev forcedSwitch now).bind fun r =>
      (grantScheduled r.1 r.2 now).map fun clnts => ⟨clnts, now, s.scheds ++ r.2.toList⟩

def start : Channel := ⟨[], 0, []⟩

/-- Identifiers are new, a token is only given back by its owner, and time does not go back. -/
def Orderly (s : Channel) : Op → Prop
  | .accept id _ => ∀ c ∈ s.clnts, c.id ≠ id
  | .notify id flags => flags.release = false → flags.token = true →
    ∀ c ∈ s.clnts, c.id = id → c.token ≠ .none
  | .update _ now => s.now ≤ now
  | _ => True

instance decidableOrderly (s : Channel) : ∀ op, Decidable (Orderly s op)
  | .accept id _ => inferInstanceAs (Decidable (∀ c ∈ s.clnts, c.id ≠ id))
  | .notify id flags => inferInstanceAs (Decidable (flags.release = false → flags.token = true →
    ∀ c ∈ s.clnts, c.id = id → c.token ≠ .none))
  | .update _ now => inferInstanceAs (Decidable (s.now ≤ now))
  | .close _ => isTrue trivial
  | .tokenReq _ _ _ => isTrue trivial
  | .transmit _ => isTrue trivial
  | .reclaimCnf _ => isTrue trivial

variable {l : List Clnt} {now : Int} {id : Nat}

variable {time : Int} {c : Clnt}

/-- An update always has a result, and only clients which take part are chosen. -/
theorem update_fair {dev : Nat} (h : Fair dev time l) (hnow : time ≤ now) (forcedSwitch : Bool) :
    ∃ m sched r, selectClnt l dev forcedSwitch now = some (m, sched) ∧
      grantScheduled m sched now = some r ∧ Fair dev now r := by
  obtain ⟨m, sched, hselect, hm, hsched⟩ : ∃ m sched,
      selectClnt l dev forcedSwitch now = some (m, sched) ∧ Fair dev time m ∧
        ∀ id, sched = some id → ∃ c ∈ m, c.id = id ∧ c.scheduled dev = true := by
    obtain ⟨k, hk, hkfair⟩ : ∃ k,
        (if !decide (maxChnPrio l dev = vbiChnPrioBackground) || forcedSwitch then
          stopAll l dev now else some l) = some k ∧ Fair dev time k := by
      split
      · exact stopAll_fair h now
      · exact ⟨l, rfl, h⟩
    rw [selectClnt, hk, Option.bind_some]
    split
    · obtain ⟨k', wins, hturn, hschedule⟩ := channelSchedule_turn hkfair now
      refine ⟨_, _, hschedule, (hturn.fair hkfair).calm (release_calm dev _ k'), ?_⟩
      intro id hid
      have htaker := (List.mem_filter.mp (choose_mem hid)).2
      cases hfind : findClnt k id with
      | none =>
        rw [hfind] at htaker
        exact absurd htaker Bool.false_ne_true
      | some c =>
        rw [hfind] at htaker
        obtain ⟨hc, hcid⟩ := findClnt_some hfind
        obtain ⟨b, hb, hcb⟩ := forall₂_mem_left hturn.quiet hc
        obtain ⟨a, ha, hba⟩ := forall₂_mem_left (release_calm dev _ k') hb
        refine ⟨a, ha, hba.id.trans (hcb.id.trans hcid), ?_⟩
        rw [hba.toKept.scheduled, hcb.toKept.scheduled]
        exact htaker
    · exact ⟨k, none, rfl, hkfair, fun id hid => absurd hid (Option.some_ne_none id).symm⟩
  cases sched with
  | none => exact ⟨m, none, m, hselect, rfl, hm.later hnow⟩
  | some id =>
    obtain ⟨z, hz, rfl, hscheduled⟩ := hsched id rfl
    obtain ⟨r, hr, hfair, -⟩ := grant_fair hm hnow hz hscheduled
    exact ⟨m, _, r, hselect, hr, hfair⟩

theorem transmit_calm (c : Clnt) : Calm c (transmit c) := by
  rw [transmit]
  split
  · rename_i htoken
    exact ⟨.setChn c _, rfl, rfl, fun _ => htoken ▸ TokenState.noConfusion, id⟩
  · split
    · rename_i htoken
      exact ⟨.setChn c _, rfl, rfl, fun _ => htoken ▸ TokenState.noConfusion, id⟩
    · exact .refl c

theorem reclaimCnf_calm (c : Clnt) : Calm c (reclaimCnf c) := by
  rw [reclaimCnf]
  split
  · exact ⟨.setChn c _, rfl, rfl, fun hne => absurd rfl hne, id⟩
  · exact .refl c

theorem notify_calm {flags : NotifyFlags} (hrelease : flags.release = false)
    (htoken : flags.token = true → c.token ≠ .none) : Calm c (c.notify flags) := by
  rw [Clnt.notify, hrelease, if_neg Bool.false_ne_true]
  split
  · rename_i hflag
    exact ⟨.setChn c _, rfl, rfl, fun _ => htoken hflag, id⟩
  · exact .refl c

variable {f : Clnt → Clnt} {l' : List Clnt}

theorem modify_forall₂ {R : Clnt → Clnt → Prop} (hrefl : ∀ c, R c c)
    (h : ∀ c ∈ l, c.id = id → R c (f c)) : List.Forall₂ R l (modifyClnt id f l) := by
  refine forall₂_map fun c hc => ?_
  split
  · rename_i hid
    exact h c hc hid
  · exact hrefl c

theorem request_eased (dev : Nat) (c : Clnt) (chnPrio : Int) (chnProfile : ChnProfile) :
    Eased dev c (c.request chnPrio chnProfile) :=
  ⟨⟨rfl, rfl⟩, Or.inr rfl, Or.inr rfl, fun hne => absurd rfl hne, fun hne => absurd rfl hne⟩

theorem release_eased (dev : Nat) (c : Clnt) :
    Eased dev c (c.setChn fun s => s.setToken .none).invalidate :=
  ⟨⟨rfl, rfl⟩, Or.inl rfl, Or.inl rfl, fun hne => absurd rfl hne, fun hne => absurd rfl hne⟩

theorem Fair.accept {dev : Nat} (h : Fair dev now l) (hnow : 0 ≤ now) (hid : ∀ a ∈ l, a.id ≠ c.id)
    (hclear : c.chnState = clearChnState) : Fair dev now (l ++ [c]) := by
  have hmem : ∀ {a : Clnt}, a ∈ l ++ [c] → a ∈ l ∨ a = c := fun ha =>
    (List.mem_append.mp ha).imp_right List.mem_singleton.mp
  have htoken : c.token = .none := congrArg ChnState.tokenState hclear
  refine ⟨?_, ?_, ?_, ?_, ?_⟩
  · rw [DistinctIds, List.map_append]
    refine List.nodup_append.mpr ⟨h.unique, List.nodup_singleton _, ?_⟩
    rintro i hi j hj rfl
    obtain ⟨a, ha, rfl⟩ := List.mem_map.mp hi
    exact hid a ha (List.mem_singleton.mp hj)
  · intro a ha b hb hatoken hbtoken hdev
    rcases hmem ha with ha | rfl
    · rcases hmem hb with hb | rfl
      · exact h.sole a ha b hb hatoken hbtoken hdev
      · exact absurd htoken hbtoken
    · exact absurd htoken hatoken
  · intro a ha hdev
    rcases hmem ha with ha | rfl
    · exact h.count a ha hdev
    · rw [hclear]
      decide
  · intro a ha hdev
    rcases hmem ha with ha | rfl
    · exact h.start a ha hdev
    · rw [hclear]
      exact ⟨Int.le_refl 0, hnow⟩
  · intro a ha hadev hatoken
    rcases hmem ha with hal | rfl
    · have hleads := h.leads a hal hadev hatoken
      refine ⟨hleads.scheduled, ?_, ?_⟩
      · intro b hb hdev
        rcases hmem hb with hbl | rfl
        · exact hleads.latest b hbl hdev
        · rw [hclear]
          exact (h.start a hal hadev).1
      · intro hcompleted b hb hdev
        rcases hmem hb with hbl | rfl
        · exact hleads.top hcompleted b hbl hdev
        · rw [hclear]
          exact (h.count a hal hadev).1
    · exact absurd htoken hatoken

theorem Fair.sublist {dev : Nat} (h : Fair dev now l) (hl : l'.Sublist l) : Fair dev now l' :=
  ⟨h.unique.sublist (hl.map Clnt.id),
    fun a ha b hb => h.sole a (hl.subset ha) b (hl.subset hb),
    fun c hc => h.count c (hl.subset hc), fun c hc => h.start c (hl.subset hc),
    fun a ha hdev htoken =>
      have hleads := h.leads a (hl.subset ha) hdev htoken
      ⟨hleads.scheduled, fun c hc => hleads.latest c (hl.subset hc),
        fun hcompleted c hc => hleads.top hcompleted c (hl.subset hc)⟩⟩

/-- What holds after every orderly run. -/
def Sound (dev : Nat) (s : Channel) : Prop := 0 ≤ s.now ∧ Fair dev s.now s.clnts

theorem start_sound (dev : Nat) : Sound dev start := by
  refine ⟨Int.le_refl 0, List.nodup_nil, ?_, ?_, ?_, ?_⟩
  · exact fun a ha => absurd ha List.not_mem_nil
  · exact fun c hc => absurd hc List.not_mem_nil
  · exact fun c hc => absurd hc List.not_mem_nil
  · exact fun a ha => absurd ha List.not_mem_nil

theorem step_sound {dev : Nat} (s : Channel) (op : Op) (h : Sound dev s) (hok : Orderly s op) :
    ∃ t, step dev s op = some t ∧ Sound dev t := by
  obtain ⟨hnow, hfair⟩ := h
  have hmodify : ∀ {id : Nat} {f : Clnt → Clnt}, (∀ c ∈ s.clnts, c.id = id → Eased dev c (f c)) →
      Sound dev (s.modify id f) := fun hf =>
    ⟨hnow, hfair.eased (modify_forall₂ (fun c => (Calm.refl c).eased dev) hf)⟩
  cases op with
  | accept id devIdx => exact ⟨_, rfl, hnow, Fair.accept hfair hnow hok rfl⟩
  | close id => exact ⟨_, rfl, hnow, Fair.sublist hfair List.filter_sublist⟩
  | tokenReq id chnPrio chnProfile =>
    exact ⟨_, rfl, hmodify fun c _ _ => request_eased dev c chnPrio chnProfile⟩
  | notify id flags =>
    refine ⟨_, rfl, hmodify fun c hc hid => ?_⟩
    cases hrelease : flags.release with
    | true =>
      rw [Clnt.notify, hrelease, if_pos rfl]
      exact release_eased dev c
    | false =>
      exact (notify_calm hrelease fun htoken => hok hrelease htoken c hc hid).eased dev
  | transmit id => exact ⟨_, rfl, hmodify fun c _ _ => (transmit_calm c).eased dev⟩
  | reclaimCnf id => exact ⟨_, rfl, hmodify fun c _ _ => (reclaimCnf_calm c).eased dev⟩
  | update forcedSwitch now =>
    obtain ⟨m, sched, r, hselect, hgrant, hr⟩ := update_fair hfair hok forcedSwitch
    refine ⟨⟨r, now, s.scheds ++ sched.toList⟩, ?_, Int.le_trans hnow hok, hr⟩
    rw [step, hselect, Option.bind_some, hgrant]
    rfl

def Elsewhere (dev id : Nat) (s : Channel) : Prop := ∀ c ∈ s.clnts, c.id = id → c.devIdx ≠ dev

/-- No client of the device connects, sends a request, or gives up its profile. A token which
was granted is sent before the next update, and no update is forced. -/
def Undisturbed (dev : Nat) (s : Channel) : Op → Prop
  | .accept _ devIdx => devIdx ≠ dev
  | .close id => Elsewhere dev id s
  | .tokenReq id _ _ => Elsewhere dev id s
  | .notify id flags => flags.release = true → Elsewhere dev id s
  | .update forcedSwitch _ =>
    forcedSwitch = false ∧ ∀ c ∈ s.clnts, c.devIdx = dev → c.token ≠ .grant
  | _ => True

/-- Client `x` is not scheduled before each of the others was. -/
def InTurn (x : Nat) (others scheds : List Nat) : Prop :=
  x ∈ scheds → ∀ i ∈ others, i ∈ scheds.takeWhile fun j => j ≠ x

theorem mem_takeWhile_append {p : Nat → Bool} {i : Nat} (l l' : List Nat)
    (h : i ∈ l.takeWhile p) : i ∈ (l ++ l').takeWhile p := by
  induction l with
  | nil => exact absurd h List.not_mem_nil
  | cons j l ih =>
    rw [List.cons_append, List.takeWhile_cons]
    rw [List.takeWhile_cons] at h
    split at h
    · rename_i hj
      rw [if_pos hj]
      exact (List.mem_cons.mp h).elim (fun heq => heq ▸ List.mem_cons_self)
        fun hmem => List.mem_cons_of_mem j (ih hmem)
    · exact absurd h List.not_mem_nil

theorem InTurn.append {x : Nat} {others log : List Nat} (h : InTurn x others log) {z : Nat}
    (hz : z = x → ∀ i ∈ others, i ∈ log) : InTurn x others (log ++ [z]) := by
  intro hmem i hi
  by_cases hx : x ∈ log
  · exact mem_takeWhile_append log [z] (h hx i hi)
  · have hzx : z = x := by
      rcases List.mem_append.mp hmem with hlog | hlast
      · exact absurd hlog hx
      · exact (List.mem_singleton.mp hlast).symm
    have hall : ∀ j ∈ log, decide (j ≠ x) = true := fun j hj =>
      decide_eq_true fun heq => hx (heq ▸ hj)
    rw [List.takeWhile_append_of_pos hall]
    exact List.mem_append_left _ (hz hzx i hi)

/-- Since the reservation of client `x` was over, the clients in `others` wait until they are
scheduled. -/
structure Window (dev subPrio : Nat) (t : Int) (x : Nat) (others before : List Nat)
    (s : Channel) : Prop where
  sound : Sound dev s
  peers : Peers dev subPrio s.clnts
  present : ∀ i ∈ others, ∃ c ∈ members dev s.clnts, c.id = i ∧ c.id ≠ x
  self : ∀ c ∈ members dev s.clnts, c.id = x → t ≤ c.chnState.lastStart
  ripe : (∃ u ∈ members dev s.clnts, u.chnState.lastStart < t) →
    ∀ c ∈ members dev s.clnts, c.id = x → Ripe s.now c
  waiting : (∃ u ∈ members dev s.clnts, u.chnState.lastStart < t) →
    Waiting dev t s.now s.clnts
  log : ∃ log, s.scheds = before ++ log ∧ InTurn x others log ∧
    ∀ c ∈ members dev s.clnts, c.id ≠ x → c.id ∉ log → c.chnState.lastStart < t

section
variable {dev subPrio : Nat} {t : Int} {x : Nat} {others before : List Nat} {s s' : Channel}

theorem Waiting.congr (h : Waiting dev t now l) (hl : members dev l' = members dev l) :
    Waiting dev t now l' := by
  refine ⟨hl ▸ h.exists_started, ?_, hl ▸ h.ahead⟩
  intro c hc hstarted
  refine (h.turn c (hl ▸ hc) hstarted).imp_left fun hspent => ⟨hspent.ripe, ?_⟩
  rw [hl]
  exact hspent.most

/-- Clients of other devices do not matter. -/
theorem Window.elsewhere (h : Window dev subPrio t x others before s) (hsound : Sound dev s')
    (hl : members dev s'.clnts = members dev s.clnts) (hnow : s'.now = s.now)
    (hscheds : s'.scheds = s.scheds) : Window dev subPrio t x others before s' := by
  refine ⟨hsound, ?_, ?_, ?_, ?_, ?_, ?_⟩
  · rw [Peers, hl]
    exact h.peers
  · rw [hl]
    exact h.present
  · rw [hl]
    exact h.self
  · rw [hl, hnow]
    exact h.ripe
  · rw [hl, hnow]
    exact fun hsome => Waiting.congr (h.waiting hsome) hl
  · rw [hl, hscheds]
    exact h.log

structure Exchange (c c' : Clnt) : Prop extends Calm c c' where
  holds : Holds c.token → Holds c'.token

theorem Exchange.refl (c : Clnt) : Exchange c c := ⟨.refl c, id⟩

theorem exchange_placed (c c' : Clnt) (h : Exchange c c') : Placed c c' := h.toPlaced

theorem Waiting.exchange (h : Waiting dev t now l) (hfair : Fair dev time l)
    (hl : List.Forall₂ Exchange l l') : Waiting dev t now l' := by
  have hturn : ∀ c ∈ members dev l, ∀ c', Exchange c c' → t ≤ c.chnState.lastStart →
      Spent dev t now l' c' ∨ (Holds c'.token ∧ c'.chnState.isCompleted = false) := by
    intro c hc c' hcc' hstarted
    rcases h.turn c hc hstarted with hspent | ⟨hholds, hgoing⟩
    · refine Or.inl ⟨?_, ?_⟩
      · rw [Ripe, hcc'.chnProfile, hcc'.lastStart]
        exact hspent.ripe
      · intro u' hu' hold
        obtain ⟨u, hu, huu'⟩ := members_related exchange_placed hl hu'
        rw [huu'.count, hcc'.count]
        exact hspent.most u hu (huu'.lastStart ▸ hold)
    · refine Or.inr ⟨hcc'.holds hholds, Bool.eq_false_iff.mpr fun hcompleted => ?_⟩
      rw [hcc'.isCompleted hcompleted] at hgoing
      cases hgoing
  refine ⟨?_, ?_, ?_⟩
  · obtain ⟨c, hc, hstarted⟩ := h.exists_started
    obtain ⟨c', hc', hcc'⟩ := forall₂_mem_left (members_forall₂ exchange_placed hl) hc
    exact ⟨c', hc', hcc'.lastStart ▸ hstarted⟩
  · intro c' hc' hstarted
    obtain ⟨c, hc, hcc'⟩ := members_related exchange_placed hl hc'
    exact hturn c hc c' hcc' (hcc'.lastStart ▸ hstarted)
  · refine pairwise_related ?_ (members_forall₂ exchange_placed hl) h.ahead
    intro v hv v' hv' hvv' w w' hww' hahead hrunning
    have hnotRipe : ¬ Ripe now v := by
      rw [Ripe, ← hvv'.chnProfile, ← hvv'.lastStart]
      exact hrunning.notRipe
    have hstarted : t ≤ v.chnState.lastStart := by
      by_contra hold
      exact hvv'.token hrunning.holds.ne_none
        (waiting_token hfair h.exists_started hv (Int.not_le.mp hold))
    rw [hvv'.count, hww'.count]
    rcases h.turn v hv hstarted with hspent | ⟨hholds, hgoing⟩
    · exact absurd hspent.ripe hnotRipe
    · exact hahead ⟨hholds, hgoing, hnotRipe⟩

theorem Window.exchange (h : Window dev subPrio t x others before s) (hsound : Sound dev s')
    (hl : List.Forall₂ Exchange s.clnts s'.clnts) (hnow : s'.now = s.now)
    (hscheds : s'.scheds = s.scheds) : Window dev subPrio t x others before s' := by
  have hold : ∀ {c' : Clnt}, c' ∈ members dev s'.clnts →
      ∃ c ∈ members dev s.clnts, Exchange c c' := fun hc' =>
    members_related exchange_placed hl hc'
  have hsome : (∃ u ∈ members dev s'.clnts, u.chnState.lastStart < t) →
      ∃ u ∈ members dev s.clnts, u.chnState.lastStart < t := by
    rintro ⟨u', hu', hwaits⟩
    obtain ⟨u, hu, huu'⟩ := hold hu'
    exact ⟨u, hu, huu'.lastStart ▸ hwaits⟩
  refine ⟨hsound, ?_, ?_, ?_, ?_, ?_, ?_⟩
  · intro c' hc'
    obtain ⟨c, hc, hcc'⟩ := hold hc'
    rw [hcc'.toKept.scheduled, hcc'.chnProfile]
    exact h.peers c hc
  · intro i hi
    obtain ⟨c, hc, rfl, hne⟩ := h.present i hi
    obtain ⟨c', hc', hcc'⟩ := forall₂_mem_left (members_forall₂ exchange_placed hl) hc
    exact ⟨c', hc', hcc'.id, hcc'.id ▸ hne⟩
  · intro c' hc' hid
    obtain ⟨c, hc, hcc'⟩ := hold hc'
    rw [hcc'.lastStart]
    exact h.self c hc (hcc'.id.symm.trans hid)
  · intro hwait c' hc' hid
    obtain ⟨c, hc, hcc'⟩ := hold hc'
    rw [hnow, Ripe, hcc'.chnProfile, hcc'.lastStart]
    exact h.ripe (hsome hwait) c hc (hcc'.id.symm.trans hid)
  · intro hwait
    rw [hnow]
    exact Waiting.exchange (h.waiting (hsome hwait)) h.sound.2 hl
  · obtain ⟨log, hlog, hturn, hrest⟩ := h.log
    refine ⟨log, hscheds.trans hlog, hturn, fun c' hc' hne hnot => ?_⟩
    obtain ⟨c, hc, hcc'⟩ := hold hc'
    rw [hcc'.lastStart]
    exact hrest c hc (hcc'.id ▸ hne) (hcc'.id ▸ hnot)

structure Moves (sched : Option Nat) (now : Int) (c c' : Clnt) : Prop extends Kept c c' where
  start : c'.chnState.lastStart = c.chnState.lastStart ∨
    (sched = some c.id ∧ c'.chnState.lastStart = now)

theorem select_background (h : Peers dev subPrio l) :
    selectClnt l dev false now = channelSchedule l dev now := by
  have hbackground : maxChnPrio l dev = vbiChnPrioBackground :=
    maxChnPrio_background fun c hc hdev =>
      (scheduled_iff.mp (h c (mem_members.mpr ⟨hc, hdev⟩)).1).2.2
  rw [selectClnt, decide_eq_true hbackground]
  rfl

theorem Window.update (h : Window dev subPrio t x others before s) (hnow : s.now ≤ now)
    (hsent : ∀ c ∈ s.clnts, c.devIdx = dev → c.token ≠ .grant) :
    ∃ s', step dev s (.update false now) = some s' ∧
      Window dev subPrio t x others before s' := by
  obtain ⟨hpos, hfair⟩ := h.sound
  obtain ⟨l', wins, sched, r, hturn, hsched, hschedule, hgrant, hr, hstarts⟩ :=
    schedule_outcome hfair h.peers hnow
  have hmoves : List.Forall₂ (Moves sched now) s.clnts r := by
    refine forall₂_trans (fun a b c hab hbc => ?_) (Turn.started hturn) hstarts
    refine ⟨hab.1.toKept.trans hbc.toKept, ?_⟩
    rcases hbc.start with hsame | ⟨hid, hstart, -⟩
    · exact Or.inl (hsame.trans hab.2)
    · exact Or.inr ⟨hab.1.id ▸ hid, hstart⟩
  have hplaced : ∀ c c', Moves sched now c c' → Placed c c' := fun _ _ hm => hm.toPlaced
  have hold : ∀ {c' : Clnt}, c' ∈ members dev r → ∃ c ∈ members dev s.clnts, Moves sched now c c' :=
    fun hc' => members_related hplaced hmoves hc'
  have hlate : ∀ {c c' : Clnt}, c ∈ members dev s.clnts → Moves sched now c c' →
      t ≤ c.chnState.lastStart → t ≤ c'.chnState.lastStart := by
    intro c c' hc hcc' hstarted
    have hstart := hfair.start c (mem_members.mp hc).1 (mem_members.mp hc).2
    rcases hcc'.start with hsame | ⟨-, hmoved⟩ <;> omega
  have hpeers : Peers dev subPrio r := by
    intro c' hc'
    obtain ⟨c, hc, hcc'⟩ := hold hc'
    rw [hcc'.toKept.scheduled, hcc'.chnProfile]
    exact h.peers c hc
  have hpresent : ∀ i ∈ others, ∃ c ∈ members dev r, c.id = i ∧ c.id ≠ x := by
    intro i hi
    obtain ⟨c, hc, rfl, hne⟩ := h.present i hi
    obtain ⟨c', hc', hcc'⟩ := forall₂_mem_left (members_forall₂ hplaced hmoves) hc
    exact ⟨c', hc', hcc'.id, hcc'.id ▸ hne⟩
  have hself : ∀ c ∈ members dev r, c.id = x → t ≤ c.chnState.lastStart := by
    intro c' hc' hid
    obtain ⟨c, hc, hcc'⟩ := hold hc'
    exact hlate hc hcc' (h.self c hc (hcc'.id.symm.trans hid))
  obtain ⟨log, hlog, hinTurn, hrest⟩ := h.log
  have hstep : step dev s (.update false now) = some ⟨r, now, s.scheds ++ sched.toList⟩ := by
    rw [step, select_background h.peers, hschedule, Option.bind_some, hgrant]
    rfl
  by_cases hsome : ∃ u ∈ members dev s.clnts, u.chnState.lastStart < t
  · have hsent' : ∀ c ∈ members dev s.clnts, c.token ≠ .grant := fun c hc =>
      hsent c (mem_members.mp hc).1 (mem_members.mp hc).2
    obtain ⟨⟨z, hz, rfl, hkind⟩, hwaiting⟩ := schedule_waiting hturn hfair h.peers
      ((h.waiting hsome).later hnow) hsent' hsome hnow hsched hgrant hr hstarts
    have hzx : z.id ≠ x := by
      intro hid
      rcases hkind with hwaits | hrunning
      · exact Int.not_lt.mpr (h.self z hz hid) hwaits
      · exact hrunning.notRipe ((h.ripe hsome z hz hid).later hnow)
    have hstays : ∀ {c c' : Clnt}, Moves (some z.id) now c c' → c.id ≠ z.id →
        c'.chnState.lastStart = c.chnState.lastStart := by
      intro c c' hcc' hne
      rcases hcc'.start with hsame | ⟨hid, -⟩
      · exact hsame
      · exact absurd (Option.some.inj hid).symm hne
    refine ⟨_, hstep, ⟨Int.le_trans hpos hnow, hr⟩, hpeers, hpresent, hself, ?_, fun _ => hwaiting,
      log ++ [z.id], ?_, hinTurn.append fun hid => absurd hid hzx, ?_⟩
    · intro _ c' hc' hid
      obtain ⟨c, hc, hcc'⟩ := hold hc'
      have hcx : c.id = x := hcc'.id.symm.trans hid
      rw [Ripe, hcc'.chnProfile, hstays hcc' fun hcz => hzx (hcz.symm.trans hcx)]
      exact (h.ripe hsome c hc hcx).later hnow
    · exact (congrArg (· ++ [z.id]) hlog).trans (List.append_assoc _ _ _)
    · intro c' hc' hne hnot
      obtain ⟨c, hc, hcc'⟩ := hold hc'
      rw [List.mem_append, List.mem_singleton, not_or, hcc'.id] at hnot
      rw [hstays hcc' hnot.2]
      exact hrest c hc (hcc'.id ▸ hne) hnot.1
  · -- All clients were scheduled.
    have hnone : ¬ ∃ u ∈ members dev r, u.chnState.lastStart < t := by
      rintro ⟨u', hu', hwaits⟩
      obtain ⟨u, hu, huu'⟩ := hold hu'
      refine Int.not_lt.mpr (hlate hu huu' ?_) hwaits
      exact Int.not_lt.mp fun hlt => hsome ⟨u, hu, hlt⟩
    have hall : ∀ c ∈ members dev s.clnts, c.id ≠ x → c.id ∈ log := by
      intro c hc hne
      by_contra hnot
      exact hsome ⟨c, hc, hrest c hc hne hnot⟩
    refine ⟨_, hstep, ⟨Int.le_trans hpos hnow, hr⟩, hpeers, hpresent, hself,
      fun hwait => absurd hwait hnone, fun hwait => absurd hwait hnone, log ++ sched.toList,
      ?_, ?_, ?_⟩
    · exact (congrArg (· ++ sched.toList) hlog).trans (List.append_assoc _ _ _)
    · cases sched with
      | none => exact (List.append_nil log).symm ▸ hinTurn
      | some z =>
        refine hinTurn.append fun _ i hi => ?_
        obtain ⟨c, hc, rfl, hne⟩ := h.present i hi
        exact hall c hc hne
    · intro c' hc' hne hnot
      obtain ⟨c, hc, hcc'⟩ := hold hc'
      rw [hcc'.id] at hnot hne
      exact absurd (List.mem_append_left _ (hall c hc hne)) hnot

theorem members_modify (hf : ∀ c, Placed c (f c)) (h : Elsewhere dev id s) :
    members dev (s.modify id f).clnts = members dev s.clnts := by
  have hon : ∀ c, (if c.id = id then f c else c).on dev = c.on dev := by
    intro c
    split
    · rw [Clnt.on, (hf c).devIdx, Clnt.on]
    · rfl
  rw [members, Channel.modify, modifyClnt, List.filter_map, members]
  have hfilter : s.clnts.filter (Clnt.on dev ∘ fun c => if c.id = id then f c else c) =
      s.clnts.filter (Clnt.on dev) := List.filter_congr fun c _ => hon c
  rw [hfilter]
  refine (List.map_congr_left fun c hc => ?_).trans (List.map_id _)
  obtain ⟨hmem, hdev⟩ := mem_members.mp hc
  exact if_neg fun hid => h c hmem hid hdev

theorem members_close (h : Elsewhere dev id s) :
    members dev (s.clnts.filter fun c => c.id ≠ id) = members dev s.clnts := by
  rw [members, List.filter_filter, members]
  refine List.filter_congr fun c hc => ?_
  by_cases hdev : c.devIdx = dev
  · have hne : c.id ≠ id := fun hid => h c hc hid hdev
    rw [on_iff.mpr hdev, decide_eq_true hne]
    rfl
  · rw [Bool.eq_false_iff.mpr fun hon => hdev (on_iff.mp hon), Bool.false_and]

theorem exchange_modify (h : ∀ c ∈ s.clnts, c.id = id → Exchange c (f c)) :
    List.Forall₂ Exchange s.clnts (s.modify id f).clnts :=
  modify_forall₂ Exchange.refl h

theorem step_window (s : Channel) (op : Op) (h : Window dev subPrio t x others before s)
    (hok : Orderly s op ∧ Undisturbed dev s op) :
    ∃ s', step dev s op = some s' ∧ Window dev subPrio t x others before s' := by
  obtain ⟨horderly, hok⟩ := hok
  obtain ⟨s', hs', hsound⟩ := step_sound s op h.sound horderly
  cases op with
  | accept id devIdx =>
    obtain rfl := Option.some.inj hs'
    refine ⟨_, rfl, h.elsewhere hsound ?_ rfl rfl⟩
    have hnot : decide (devIdx = dev) = false := decide_eq_false hok
    rw [members, List.filter_append, List.filter_cons, Clnt.on, hnot]
    exact List.append_nil _
  | close id =>
    obtain rfl := Option.some.inj hs'
    exact ⟨_, rfl, h.elsewhere hsound (members_close hok) rfl rfl⟩
  | tokenReq id chnPrio chnProfile =>
    obtain rfl := Option.some.inj hs'
    exact ⟨_, rfl, h.elsewhere hsound (members_modify (fun _ => ⟨rfl, rfl⟩) hok) rfl rfl⟩
  | notify id flags =>
    obtain rfl := Option.some.inj hs'
    refine ⟨_, rfl, ?_⟩
    cases hrelease : flags.release with
    | true =>
      refine h.elsewhere hsound (members_modify (fun c => ?_) (hok hrelease)) rfl rfl
      rw [Clnt.notify, if_pos hrelease]
      exact ⟨rfl, rfl⟩
    | false =>
      refine h.exchange hsound (exchange_modify fun c hc hid => ?_) rfl rfl
      refine ⟨notify_calm hrelease fun htoken => horderly hrelease htoken c hc hid, ?_⟩
      intro hholds
      rw [Clnt.notify, hrelease, if_neg Bool.false_ne_true]
      split
      · exact Or.inr (Or.inr rfl)
      · exact hholds
  | transmit id =>
    obtain rfl := Option.some.inj hs'
    refine ⟨_, rfl, h.exchange hsound (exchange_modify fun c _ _ => ?_) rfl rfl⟩
    refine ⟨transmit_calm c, fun hholds => ?_⟩
    rw [transmit]
    split
    · rename_i hreclaim
      rw [hreclaim] at hholds
      rcases hholds with htoken | htoken | htoken <;> cases htoken
    · split
      · exact Or.inr (Or.inl rfl)
      · exact hholds
  | reclaimCnf id =>
    obtain rfl := Option.some.inj hs'
    refine ⟨_, rfl, h.exchange hsound (exchange_modify fun c _ _ => ?_) rfl rfl⟩
    refine ⟨reclaimCnf_calm c, fun hholds => ?_⟩
    rw [reclaimCnf]
    split
    · rename_i hrelease
      rw [hrelease] at hholds
      rcases hholds with htoken | htoken | htoken <;> cases htoken
    · exact hholds
  | update forcedSwitch now =>
    obtain ⟨rfl, hsent⟩ := hok
    exact h.update horderly hsent

end

/-- Client `x` is active, and its minimum duration is over. -/
def Over (now : Int) (x : Clnt) : Prop := x.controls = true ∧ Ripe now x

def others (dev : Nat) (x : Clnt) (s : Channel) : List Clnt :=
  (members dev s.clnts).filter fun c => c.id ≠ x.id

/-- When the reservation of a client is over, the others begin to wait. -/
theorem window_start {dev subPrio : Nat} {s : Channel} (h : Sound dev s)
    (hpeers : Peers dev subPrio s.clnts) {x : Clnt} (hx : x ∈ members dev s.clnts)
    (hnow : s.now ≤ now) (hover : Over now x)
    (halone : ∀ c ∈ others dev x s, c.chnState.lastStart ≠ x.chnState.lastStart) :
    Window dev subPrio x.chnState.lastStart x.id ((others dev x s).map Clnt.id) s.scheds
      { s with now := now } := by
  obtain ⟨hpos, hfair⟩ := h
  obtain ⟨hcontrols, hripe⟩ := hover
  have hxl := (mem_members.mp hx).1
  have hxdev := (mem_members.mp hx).2
  have hleads := hfair.leads x hxl hxdev (controls_ne_none hcontrols)
  have hself : ∀ c ∈ members dev s.clnts, c.id = x.id → c = x := fun c hc hid =>
    members_eq hfair hc hx hid
  have hold : ∀ c ∈ members dev s.clnts, c.id ≠ x.id →
      c.chnState.lastStart < x.chnState.lastStart := by
    intro c hc hne
    have hle := hleads.latest c (mem_members.mp hc).1 (mem_members.mp hc).2
    have hother := halone c (List.mem_filter.mpr ⟨hc, decide_eq_true hne⟩)
    omega
  have hmember : ∀ c ∈ members dev s.clnts,
      x.chnState.lastStart ≤ c.chnState.lastStart → c = x := by
    intro c hc hstarted
    refine hself c hc ?_
    by_contra hne
    exact Int.not_lt.mpr hstarted (hold c hc hne)
  refine ⟨⟨Int.le_trans hpos hnow, hfair.later hnow⟩, hpeers, ?_, ?_, ?_, ?_, [], ?_, ?_, ?_⟩
  · intro i hi
    obtain ⟨c, hc, rfl⟩ := List.mem_map.mp hi
    obtain ⟨hmem, hne⟩ := List.mem_filter.mp hc
    exact ⟨c, hmem, rfl, of_decide_eq_true hne⟩
  · intro c hc hid
    obtain rfl := hself c hc hid
    exact Int.le_refl _
  · intro _ c hc hid
    rw [hself c hc hid]
    exact hripe
  · refine fun _ => ⟨⟨x, hx, Int.le_refl _⟩, ?_, ?_⟩
    · intro c hc hstarted
      rw [hmember c hc hstarted]
      cases hcompleted : x.chnState.isCompleted with
      | true =>
        exact Or.inl ⟨hripe, fun u hu _ =>
          hleads.top hcompleted u (mem_members.mp hu).1 (mem_members.mp hu).2⟩
      | false => exact Or.inr ⟨holds_of_controls hcontrols, rfl⟩
    · refine List.pairwise_iff_forall_sublist.mpr fun {v w} hsub hrunning => ?_
      obtain ⟨hv, hvdev⟩ := mem_members.mp (hsub.subset List.mem_cons_self)
      obtain rfl := hfair.owner hxl hxdev (controls_ne_none hcontrols) hv hvdev
        hrunning.holds.ne_none
      exact absurd hripe hrunning.notRipe
  · exact (List.append_nil _).symm
  · exact fun hmem => absurd hmem List.not_mem_nil
  · exact fun c hc hne _ => hold c hc hne

/-- The counters stay in range. When the minimum duration of a client is over, no other client
was started in the same second, and no requests follow, the client is not scheduled again
before each of the others was. -/
theorem round_robin {dev : Nat} {past : List Op} (hpast : Permitted (step dev) Orderly start past) :
    ∃ s, run (step dev) start past = some s ∧
      (∀ c ∈ members dev s.clnts, 0 ≤ c.chnState.cycleCount ∧ c.chnState.cycleCount ≤ 2) ∧
      ∀ subPrio now, Peers dev subPrio s.clnts → ∀ x ∈ members dev s.clnts, Over now x →
        (∀ c ∈ others dev x s, c.chnState.lastStart ≠ x.chnState.lastStart) → ∀ window,
        Permitted (step dev) (fun s op => Orderly s op ∧ Undisturbed dev s op) s
          (.update false now :: window) →
        ∃ s' log, run (step dev) s (.update false now :: window) = some s' ∧
          s'.scheds = s.scheds ++ log ∧ InTurn x.id ((others dev x s).map Clnt.id) log := by
  obtain ⟨s, hs, hsound⟩ := run_keeps (Sound dev) step_sound (start_sound dev) hpast
  refine ⟨s, hs, ?_, ?_⟩
  · intro c hc
    exact hsound.2.count c (mem_members.mp hc).1 (mem_members.mp hc).2
  · intro subPrio now hpeers x hx hover halone window hwindow
    obtain ⟨⟨horderly, -, hsent⟩, hrest⟩ := hwindow
    have hstart := window_start hsound hpeers hx horderly hover halone
    obtain ⟨s₁, hs₁, hfirst⟩ := hstart.update (Int.le_refl now) hsent
    -- An update does not depend on the time of the last one.
    have hstep : step dev s (.update false now) = some s₁ := hs₁
    obtain ⟨s', hs', hlast⟩ := run_keeps _ step_window hfirst (hrest s₁ hstep)
    obtain ⟨log, hlog, hturn, -⟩ := hlast.log
    refine ⟨s', log, ?_, hlog, hturn⟩
    rw [run_cons, hstep]
    exact hs'

instance decidableOver (now : Int) (x : Clnt) : Decidable (Over now x) :=
  inferInstanceAs (Decidable (x.controls = true ∧
    x.chnProfile.minDuration ≤ now - x.chnState.lastStart))

instance decidablePeers (dev subPrio : Nat) (l : List Clnt) : Decidable (Peers dev subPrio l) :=
  inferInstanceAs (Decidable (∀ c ∈ members dev l,
    c.scheduled dev = true ∧ c.chnProfile.subPrio = subPrio))

instance decidableInTurn (x : Nat) (others scheds : List Nat) :
    Decidable (InTurn x others scheds) :=
  inferInstanceAs (Decidable (x ∈ scheds → ∀ i ∈ others, i ∈ scheds.takeWhile fun j => j ≠ x))

instance decidableElsewhere (dev id : Nat) (s : Channel) : Decidable (Elsewhere dev id s) :=
  inferInstanceAs (Decidable (∀ c ∈ s.clnts, c.id = id → c.devIdx ≠ dev))

instance decidableUndisturbed (dev : Nat) (s : Channel) : ∀ op, Decidable (Undisturbed dev s op)
  | .accept _ devIdx => inferInstanceAs (Decidable (devIdx ≠ dev))
  | .close id => inferInstanceAs (Decidable (Elsewhere dev id s))
  | .tokenReq id _ _ => inferInstanceAs (Decidable (Elsewhere dev id s))
  | .notify id flags => inferInstanceAs (Decidable (flags.release = true → Elsewhere dev id s))
  | .transmit _ => isTrue trivial
  | .reclaimCnf _ => isTrue trivial
  | .update forcedSwitch _ => inferInstanceAs (Decidable (forcedSwitch = false ∧
    ∀ c ∈ s.clnts, c.devIdx = dev → c.token ≠ .grant))

/-- A run of the scheduler, whose messages are sent and answered. -/
def turn (now : Int) : List Op :=
  [.update false now, .transmit 0, .transmit 1, .transmit 2, .reclaimCnf 0, .reclaimCnf 1,
    .reclaimCnf 2]

def request (id : Nat) (now : Int) : List Op :=
  .tokenReq id vbiChnPrioBackground ⟨true, 0, 0⟩ :: turn now

def join (id : Nat) (now : Int) : List Op := .accept id 0 :: request id now

def joined : List Op := join 0 1 ++ join 1 2 ++ turn 2 ++ join 2 3 ++ turn 3

/-- The third client is scheduled again after the other two. -/
theorem round_robin_joined :
    ∃ s x s', run (step 0) start joined = some s ∧ x ∈ members 0 s.clnts ∧
      run (step 0) s (turn 4 ++ turn 5 ++ turn 6 ++ turn 7 ++ turn 8) = some s' ∧
      InTurn x.id ((others 0 x s).map Clnt.id) (s'.scheds.drop s.scheds.length) := by
  obtain ⟨s, hs, -, hturns⟩ := @round_robin 0 joined (by decide +kernel)
  have hcheck : (run (step 0) start joined).all (fun s =>
      decide (Peers 0 0 s.clnts) && (members 0 s.clnts).any fun x =>
        decide (Over 4 x) &&
          decide (∀ c ∈ others 0 x s, c.chnState.lastStart ≠ x.chnState.lastStart) &&
            decide (Permitted (step 0) (fun s op => Orderly s op ∧ Undisturbed 0 s op) s
              (turn 4 ++ turn 5 ++ turn 6 ++ turn 7 ++ turn 8))) = true := by
    decide +kernel
  rw [hs, Option.all_some, Bool.and_eq_true, decide_eq_true_iff] at hcheck
  obtain ⟨hpeers, hany⟩ := hcheck
  obtain ⟨x, hx, hx'⟩ := List.any_eq_true.mp hany
  simp only [Bool.and_eq_true, decide_eq_true_iff] at hx'
  obtain ⟨⟨hover, halone⟩, hwindow⟩ := hx'
  obtain ⟨s', log, hrun, hlog, hturn⟩ := hturns 0 4 hpeers x hx hover halone _ hwindow
  refine ⟨s, x, s', hs, hx, hrun, ?_⟩
  rw [hlog, List.drop_left]
  exact hturn

def answers : Op → Bool
  | .transmit _ => true
  | .reclaimCnf _ => true
  | .update forcedSwitch _ => !forcedSwitch
  | _ => false

/-- A client is scheduled again before each of the others was. -/
def OutOfTurn (now : Int) (past window : List Op) : Prop :=
  Permitted (step 0) Orderly start past ∧ ∃ s ∈ run (step 0) start past, Peers 0 0 s.clnts ∧
    Permitted (step 0) (fun s op => Orderly s op ∧ answers op = true) s
      (.update false now :: window) ∧
    ∃ s' ∈ run (step 0) s (.update false now :: window), ∃ x ∈ members 0 s.clnts, Over now x ∧
      ¬ InTurn x.id ((others 0 x s).map Clnt.id) (s'.scheds.drop s.scheds.length)

instance decidableOutOfTurn (now : Int) (past window : List Op) :
    Decidable (OutOfTurn now past window) :=
  inferInstanceAs (Decidable (Permitted (step 0) Orderly start past ∧
    ∃ s ∈ run (step 0) start past, Peers 0 0 s.clnts ∧
      Permitted (step 0) (fun s op => Orderly s op ∧ answers op = true) s
        (.update false now :: window) ∧
      ∃ s' ∈ run (step 0) s (.update false now :: window), ∃ x ∈ members 0 s.clnts, Over now x ∧
        ¬ InTurn x.id ((others 0 x s).map Clnt.id) (s'.scheds.drop s.scheds.length)))

/-- Clients which were started in the same second are confused, and so is a client whose grant
was taken back before it was sent. -/
theorem out_of_turn :
    OutOfTurn 5 (join 0 5 ++ join 1 5 ++ join 2 5 ++ turn 5 ++ turn 5 ++ request 0 5 ++ turn 5)
        ([.transmit 0, .reclaimCnf 0] ++ turn 5) ∧
      OutOfTurn 6
        (join 0 1 ++ turn 2 ++ join 1 3 ++ turn 3 ++ turn 4 ++ turn 4 ++ join 2 5 ++ turn 5)
        [.transmit 2, .reclaimCnf 2, .update false 6, .update false 7] := by
  decide +kernel

end ProxyRoundRobin

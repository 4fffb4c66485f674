import Zvbi.ProxyOwner

/-!
# Waiting clients of the proxy daemon

While all clients of a device have background priority and one has a valid profile,
some client has the token. A lost connection can break this, when the capture device
is not open without the client: then the channel is not updated.
-/

namespace ProxyWaiting
open ProxyDaemon ProxyToken ProxyOwner

/-- The scheduler has to choose a client of the device. -/
def Competing (dev : Nat) (clnts : List Clnt) : Prop :=
  (∀ c ∈ clnts, c.devIdx = dev → c.chnPrio = vbiChnPrioBackground) ∧
    ∃ c ∈ clnts, c.devIdx = dev ∧ c.chnProfile.isValid = true

instance decidableCompeting (dev : Nat) (clnts : List Clnt) : Decidable (Competing dev clnts) :=
  inferInstanceAs (Decidable ((∀ c ∈ clnts, c.devIdx = dev → c.chnPrio = vbiChnPrioBackground) ∧
    ∃ c ∈ clnts, c.devIdx = dev ∧ c.chnProfile.isValid = true))

def Served (dev : Nat) (clnts : List Clnt) : Prop :=
  Competing dev clnts → ∃ c ∈ clnts, c.owns dev = true

instance decidableServed (dev : Nat) (clnts : List Clnt) : Decidable (Served dev clnts) :=
  inferInstanceAs (Decidable (Competing dev clnts → ∃ c ∈ clnts, c.owns dev = true))

structure Lasting (c c' : Clnt) : Prop extends Placed c c' where
  chnPrio : c'.chnPrio = c.chnPrio
  isValid : c'.chnProfile.isValid = true → c.chnProfile.isValid = true
  token : c.token ≠ .none → c'.token ≠ .none

structure Apart (dev : Nat) (c c' : Clnt) : Prop extends Placed c c' where
  lasting : c.devIdx ≠ dev → Lasting c c'

variable {c c' : Clnt} {l l' : List Clnt} {forcedSwitch : Bool} {now : Int} {d' : Daemon}
  {env : Env} {op : Op}

theorem lasting_of_quiet (h : Quiet c c') : Lasting c c' :=
  ⟨h.toPlaced, h.chnPrio, fun hvalid => h.chnProfile ▸ hvalid, fun htoken => h.token ▸ htoken⟩

theorem Lasting.refl (c : Clnt) : Lasting c c := lasting_of_quiet (.refl c)

variable {dev : Nat} {clnts : List Clnt} {req : Clnt} {d : Daemon}

theorem apart_of_within (h : Within dev c c') : Apart dev c c' :=
  ⟨h.toPlaced, fun hdev => lasting_of_quiet ⟨h.toKept, h.elsewhere hdev⟩⟩

theorem Served.of_apart {dev' : Nat} (hne : dev' ≠ dev) (hl : List.Forall₂ (Apart dev) l l')
    (h : Served dev' l) : Served dev' l' := by
  rintro ⟨hprio, c', hc', hdev, hvalid⟩
  have hold : Competing dev' l := by
    constructor
    · intro a ha hadev
      obtain ⟨a', ha', hapart⟩ := forall₂_mem_left hl ha
      rw [← (hapart.lasting (hadev ▸ hne)).chnPrio]
      exact hprio a' ha' (hapart.devIdx.trans hadev)
    · obtain ⟨c, hc, hapart⟩ := forall₂_mem_right hl hc'
      have hcdev : c.devIdx = dev' := hapart.devIdx.symm.trans hdev
      exact ⟨c, hc, hcdev, (hapart.lasting (hcdev ▸ hne)).isValid hvalid⟩
  obtain ⟨a, ha, howns⟩ := h hold
  obtain ⟨a', ha', hapart⟩ := forall₂_mem_left hl ha
  obtain ⟨hadev, htoken⟩ := owns_iff.mp howns
  exact ⟨a', ha', owns_iff.mpr ⟨hapart.devIdx.trans hadev,
    (hapart.lasting (hadev ▸ hne)).token htoken⟩⟩

theorem Served.of_lasting (hl : List.Forall₂ Lasting l l') (h : Served dev l) :
    Served dev l' := by
  have hapart : List.Forall₂ (Apart (dev + 1)) l l' :=
    hl.imp fun _ _ hlast => ⟨hlast.toPlaced, fun _ => hlast⟩
  exact h.of_apart (Nat.ne_of_lt (Nat.lt_succ_self dev)) hapart

theorem Served.of_quiet (hl : List.Forall₂ Quiet l l') (h : Served dev l) : Served dev l' :=
  h.of_lasting (hl.imp fun _ _ => lasting_of_quiet)

theorem setToken_served {id : Nat} {t : TokenState} (ht : t ≠ .none) (h : Served dev clnts) :
    Served dev (setToken id t clnts) := by
  apply h.of_lasting
  apply setChn_related Lasting.refl
  intro c _ _
  exact ⟨⟨rfl, rfl⟩, rfl, fun hvalid => hvalid, fun _ => ht⟩

theorem modify_apart (hunique : DistinctIds clnts) (hreq : req ∈ clnts) {f : Clnt → Clnt}
    (hf : ∀ c, Placed c (f c)) :
    List.Forall₂ (Apart req.devIdx) clnts (modifyClnt req.id f clnts) := by
  apply forall₂_map
  intro c hc
  split
  · rename_i hid
    obtain rfl := hunique.eq hc hreq hid
    exact ⟨hf c, fun hdev => absurd rfl hdev⟩
  · exact ⟨⟨rfl, rfl⟩, fun _ => .refl c⟩

theorem maxChnPrio_background (h : ∀ c ∈ clnts, c.devIdx = dev → c.chnPrio = vbiChnPrioBackground) :
    maxChnPrio clnts dev = vbiChnPrioBackground := by
  rw [maxChnPrio]
  induction clnts with
  | nil => rfl
  | cons c clnts ih =>
    have hfirst : (if c.on dev && decide (vbiChnPrioBackground < c.chnPrio) then c.chnPrio
        else vbiChnPrioBackground) = vbiChnPrioBackground := by
      split
      · rename_i hc
        rw [Bool.and_eq_true, on_iff] at hc
        exact h c List.mem_cons_self hc.1
      · rfl
    rw [List.foldl_cons, hfirst]
    exact ih fun a ha => h a (List.mem_cons_of_mem c ha)

theorem updateClnts_served (hunique : DistinctIds clnts) {r : List Clnt}
    (h : updateClnts clnts dev forcedSwitch now = some r) : Served dev r := by
  have hwithin := updateClnts_within hunique h
  obtain ⟨m, sched, -, hstops, hsched, hall, hr⟩ := updateClnts_parts hunique h
  rintro ⟨hprio, c', hc', hdev, hvalid⟩
  obtain ⟨c, hc, hkept⟩ := forall₂_mem_right hwithin hc'
  have hprio' : ∀ a ∈ clnts, a.devIdx = dev → a.chnPrio = vbiChnPrioBackground := by
    intro a ha hadev
    obtain ⟨a', ha', hkept'⟩ := forall₂_mem_left hwithin ha
    rw [← hkept'.chnPrio]
    exact hprio a' ha' (hkept'.devIdx.trans hadev)
  have hcdev : c.devIdx = dev := hkept.devIdx.symm.trans hdev
  have hscheduled : c.scheduled dev = true := by
    refine scheduled_iff.mpr ⟨hcdev, ?_, hprio' c hc hcdev⟩
    rw [← hkept.chnProfile]
    exact hvalid
  obtain ⟨id, hid⟩ := Option.ne_none_iff_exists'.mp
    (hall (maxChnPrio_background hprio') c hc hscheduled)
  obtain ⟨p, hp, hpid, hpscheduled⟩ := hsched id hid
  have hmunique := hunique.of_placed (fun _ _ h => h.toPlaced) hstops
  have hfind : sched.bind (findClnt m) = some p := by
    rw [hid, Option.bind_some, ← hpid]
    exact findClnt_mem hmunique hp
  have hpdev := (scheduled_iff.mp hpscheduled).1
  rcases grantScheduled_cases hr with ⟨hnone, -⟩ | ⟨a, ha, hcontrols, rfl⟩ | ⟨a, g, ha, hg, hquiet⟩
  · rw [hfind] at hnone
    cases hnone
  · obtain rfl := Option.some.inj (hfind.symm.trans ha)
    refine ⟨p, hp, owns_iff.mpr ⟨hpdev, fun hnone => ?_⟩⟩
    rw [Clnt.controls, hnone] at hcontrols
    cases hcontrols
  · obtain rfl := Option.some.inj (hfind.symm.trans ha)
    obtain ⟨o, ho, howns⟩ := hg.owner hmunique hp
    obtain ⟨o', ho', hq⟩ := forall₂_mem_left hquiet ho
    obtain ⟨hodev, hotoken⟩ := owns_iff.mp howns
    refine ⟨o', ho', owns_iff.mpr ⟨hq.devIdx.trans (hodev.trans hpdev), ?_⟩⟩
    rw [hq.token]
    exact hotoken

/-- An update serves its device, and the others are served as before. -/
theorem channelUpdate_served (hunique : DistinctIds d.clnts)
    (h : channelUpdate d dev forcedSwitch now = some d')
    (hothers : ∀ dev', dev' ≠ dev → Served dev' d.clnts) (dev' : Nat) : Served dev' d'.clnts := by
  obtain ⟨hr, -⟩ := channelUpdate_parts h
  by_cases hdev : dev' = dev
  · rw [hdev]
    exact updateClnts_served hunique hr
  · exact (hothers dev' hdev).of_apart hdev
      ((updateClnts_within hunique hr).imp fun _ _ => apart_of_within)

def captures (d : Daemon) (req : Clnt) (env : Env) : Bool :=
  ((servicesAfter d req env).dev req.devIdx).capture

theorem removeClnt_served (hunique : DistinctIds d.clnts) (hreq : req ∈ d.clnts)
    (hdev : dev ≠ req.devIdx) (h : Served dev d.clnts) :
    Served dev (removeClnt d req.id).clnts := by
  have hmem : ∀ c ∈ d.clnts, c.devIdx = dev → c ∈ (removeClnt d req.id).clnts := by
    intro c hc hcdev
    refine List.mem_filter.mpr ⟨hc, decide_eq_true fun hid => ?_⟩
    obtain rfl := hunique.eq hc hreq hid
    exact hdev hcdev.symm
  rintro ⟨hprio, c, hc, hcdev, hvalid⟩
  obtain ⟨o, ho, howns⟩ := h ⟨fun a ha hadev => hprio a (hmem a ha hadev) hadev, c,
    (List.mem_filter.mp hc).1, hcdev, hvalid⟩
  exact ⟨o, hmem o ho (owns_iff.mp howns).1, howns⟩

theorem closeConnection_served (hunique : DistinctIds d.clnts) (hreq : req ∈ d.clnts)
    (h : closeConnection d req env = some d') (hserved : ∀ dev, Served dev d.clnts)
    (hok : captures d req env = true ∨ Served req.devIdx (removeClnt d req.id).clnts) (dev : Nat) :
    Served dev d'.clnts := by
  have hquiet := servicesAfter_quiet d req env
  have hothers : ∀ dev', dev' ≠ req.devIdx → Served dev' (servicesAfter d req env).clnts :=
    fun dev' hdev => (removeClnt_served hunique hreq hdev (hserved dev')).of_quiet hquiet
  have hafter : DistinctIds (servicesAfter d req env).clnts := by
    have hsub : (removeClnt d req.id).clnts.Sublist d.clnts := List.filter_sublist
    have hremoved : DistinctIds (removeClnt d req.id).clnts := hunique.sublist (hsub.map Clnt.id)
    exact hremoved.of_placed (fun _ _ hq => hq.toPlaced) hquiet
  rw [closeConnection] at h
  split at h
  · exact channelUpdate_served hafter h hothers dev
  · rename_i hclosed
    obtain rfl := Option.some.inj h
    by_cases hdev : dev = req.devIdx
    · rw [hdev]
      exact (hok.resolve_left hclosed).of_quiet hquiet
    · exact hothers dev hdev

theorem notify_served {flags : NotifyFlags} (hunique : DistinctIds d.clnts) (hreq : req ∈ d.clnts)
    (hupdate : req.notifyUpdates flags = false) (h : Served dev d.clnts) :
    Served dev (d.modify req.id fun c => c.notify flags).clnts := by
  apply h.of_lasting
  apply forall₂_map
  intro c hc
  split
  · rename_i hid
    obtain rfl := hunique.eq hc hreq hid
    rw [Clnt.notifyUpdates, Bool.or_eq_false_iff] at hupdate
    dsimp only [Clnt.notify]
    split
    · rename_i hrelease
      have hnone : c.token = .none := by
        have htoken := hupdate.2
        rw [if_pos hrelease] at htoken
        exact not_not.mp (of_decide_eq_false htoken)
      exact ⟨⟨rfl, rfl⟩, rfl, nofun, fun htoken => absurd hnone htoken⟩
    · rename_i hrelease
      have htoken := hupdate.2
      rw [if_neg hrelease] at htoken
      rw [htoken]
      exact .refl c
  · exact .refl c

theorem takeMessage_served (hunique : DistinctIds d.clnts) (hreq : req ∈ d.clnts) {msg : Msg}
    (hserved : ∀ dev, Served dev d.clnts) {r : Daemon × Bool × List Reply}
    (hr : takeMessage d req msg env = some r) (dev : Nat) : Served dev r.1.clnts := by
  have hmodified : ∀ f : Clnt → Clnt, (∀ c, Placed c (f c)) →
      DistinctIds (d.modify req.id f).clnts ∧
        ∀ dev', dev' ≠ req.devIdx → Served dev' (d.modify req.id f).clnts := by
    intro f hf
    have hapart := modify_apart hunique hreq hf
    exact ⟨hunique.of_placed (fun _ _ ha => ha.toPlaced) hapart,
      fun dev' hdev => (hserved dev').of_apart hdev hapart⟩
  cases habout : aboutToken req msg with
  | false =>
    obtain ⟨d', replies, htake, hquiet, -⟩ := takeMessage_quiet (d := d) env habout
    obtain rfl := Option.some.inj (htake.symm.trans hr)
    exact (hserved dev).of_quiet hquiet
  | true =>
    obtain ⟨chnPrio, chnProfile, rfl, htake⟩ | ⟨flags, rfl, htake⟩ | ⟨rfl, -, htake⟩ :=
      takeMessage_token (d := d) env habout
    · rw [htake] at hr
      obtain ⟨d', hd', rfl⟩ := Option.map_eq_some_iff.mp hr
      obtain ⟨hids, hothers⟩ := hmodified (fun c => c.request chnPrio chnProfile)
        fun _ => ⟨rfl, rfl⟩
      have hupdated := channelUpdate_served hids hd' hothers dev
      split
      · exact setToken_served (t := .granted) (by decide) hupdated
      · exact hupdated
    · rw [htake] at hr
      split at hr
      · obtain ⟨d', hd', rfl⟩ := Option.map_eq_some_iff.mp hr
        obtain ⟨hids, hothers⟩ := hmodified (fun c => c.notify flags) (notify_placed flags)
        exact channelUpdate_served hids hd' hothers dev
      · rename_i hupdate
        obtain rfl := Option.some.inj hr
        exact notify_served hunique hreq (Bool.eq_false_iff.mpr hupdate) (hserved dev)
    · rw [htake] at hr
      obtain ⟨d', hd', rfl⟩ := Option.map_eq_some_iff.mp hr
      obtain ⟨hids, hothers⟩ := hmodified (fun c => c.setChn fun s => s.setToken .none)
        fun _ => ⟨rfl, rfl⟩
      exact channelUpdate_served hids hd' hothers dev

def closing (d : Daemon) (op : Op) : Option (Clnt × Env) :=
  match op with
  | .message id msg env =>
    (findClnt d.clnts id).bind fun req => if accepts req msg then none else some (req, env)
  | .disconnect id env => (findClnt d.clnts id).map fun req => (req, env)
  | _ => none

/-- When a connection ends, the capture device stays open, or the other clients of the
device are served already. -/
def attended (d : Daemon) (op : Op) : Bool :=
  (closing d op).all fun p =>
    captures d p.1 p.2 || decide (Served p.1.devIdx (removeClnt d p.1.id).clnts)

theorem attended_closing (h : attended d op = true) (hclosing : closing d op = some (req, env)) :
    captures d req env = true ∨ Served req.devIdx (removeClnt d req.id).clnts := by
  rw [attended, hclosing, Option.all_some, Bool.or_eq_true, decide_eq_true_iff] at h
  exact h

theorem addConnection_served (dev' : Nat) (h : Served dev d.clnts) :
    Served dev (addConnection d dev').clnts := by
  rintro ⟨hprio, c, hc, hcdev, hvalid⟩
  have hold : c ∈ d.clnts := by
    rcases List.mem_append.mp hc with hc | hc
    · exact hc
    · obtain rfl := List.mem_singleton.mp hc
      cases hvalid
  obtain ⟨o, ho, howns⟩ := h ⟨fun a ha => hprio a (List.mem_append_left _ ha), c, hold, hcdev, hvalid⟩
  exact ⟨o, List.mem_append_left _ ho, howns⟩

theorem step_served (hunique : DistinctIds d.clnts) (hok : attended d op = true)
    (hserved : ∀ dev, Served dev d.clnts) {r : Daemon × List Reply} (hr : step d op = some r)
    (dev : Nat) : Served dev r.1.clnts := by
  cases op with
  | accept dev' =>
    obtain rfl := Option.some.inj hr
    exact addConnection_served dev' (hserved dev)
  | message id msg env =>
    rw [step] at hr
    cases hfind : findClnt d.clnts id with
    | none =>
      rw [hfind] at hr
      obtain rfl := Option.some.inj hr
      exact hserved dev
    | some req =>
      rw [hfind] at hr
      have hreq := (findClnt_some hfind).1
      rcases handleMessage_parts hr with ⟨-, htake⟩ | ⟨hrefused, -, hclose⟩
      · exact takeMessage_served hunique hreq hserved htake dev
      · refine closeConnection_served hunique hreq hclose hserved (attended_closing hok ?_) dev
        rw [closing, hfind, Option.bind_some, hrefused]
        rfl
  | disconnect id env =>
    rw [step] at hr
    cases hfind : findClnt d.clnts id with
    | none =>
      rw [hfind] at hr
      obtain rfl := Option.some.inj hr
      exact hserved dev
    | some req =>
      rw [hfind] at hr
      obtain ⟨d', hd', rfl⟩ := Option.map_eq_some_iff.mp hr
      refine closeConnection_served hunique (findClnt_some hfind).1 hd' hserved
        (attended_closing hok ?_) dev
      rw [closing, hfind]
      rfl
  | transmit id =>
    rw [step] at hr
    cases hfind : findClnt d.clnts id with
    | none =>
      rw [hfind] at hr
      obtain rfl := Option.some.inj hr
      exact hserved dev
    | some req =>
      rw [hfind] at hr
      obtain rfl := Option.some.inj hr
      rw [transmitToken]
      split
      · exact setToken_served (t := .release) (by decide) (hserved dev)
      · split
        · exact setToken_served (t := .granted) (by decide) (hserved dev)
        · exact hserved dev
  | timer dev' now =>
    rw [step, channelTimer] at hr
    obtain ⟨d', hd', rfl⟩ := Option.map_eq_some_iff.mp hr
    split at hd'
    · exact channelUpdate_served hunique hd' (fun dev'' _ => hserved dev'') dev
    · obtain rfl := Option.some.inj hd'
      exact hserved dev

/-- If every lost connection is attended to, the token is never idle while clients of
background priority compete for it. -/
theorem token_not_idle {ops : List Op}
    (h : GuardedRuns.Permitted next (fun d op => attended d op = true) initial ops) {d : Daemon}
    (hd : GuardedRuns.run next initial ops = some d) (dev : Nat) (hcompeting : Competing dev d.clnts) :
    ∃ c ∈ d.clnts, c.owns dev = true := by
  have hinv := GuardedRuns.run_invariant
    (fun d => Sound Assigned d ∧ ∀ dev, Served dev d.clnts)
    (fun d op t hinv hok ht => by
      obtain ⟨r, hr, rfl⟩ := Option.map_eq_some_iff.mp ht
      exact ⟨step_sound assigned_kind hinv.1 (fun hreturned => absurd rfl hreturned.2) hr,
        step_served hinv.1.unique hok hinv.2 hr⟩)
    ⟨initial_sound, fun dev hcompeting => by
      obtain ⟨-, c, hc, -⟩ := hcompeting
      cases hc⟩ h hd
  exact hinv.2 dev hcompeting

/-- Two clients without services, the first of which gets the token. -/
def firstOwns : List Op :=
  [.accept 0, .accept 0, .message 0 (.connectReq true) ⟨0, false, false, true, fun _ => 0⟩,
    .message 1 (.connectReq true) ⟨0, false, false, true, fun _ => 0⟩,
    .message 0 (.chnTokenReq 1 ⟨true, 0, 10⟩) ⟨0, false, false, true, fun _ => 0⟩,
    .message 1 (.chnTokenReq 1 ⟨true, 0, 10⟩) ⟨0, false, false, true, fun _ => 0⟩]

theorem token_not_idle_first :
    ∃ d, GuardedRuns.run next initial firstOwns = some d ∧ Competing 0 d.clnts ∧
      ∃ c ∈ d.clnts, c.owns 0 = true := by
  have hpermitted : GuardedRuns.Permitted next (fun d op => attended d op = true) initial firstOwns :=
    by decide
  have hcompeting : (GuardedRuns.run next initial firstOwns).map (fun d =>
      decide (Competing 0 d.clnts)) = some true := by decide
  obtain ⟨d, hrun, hd⟩ := Option.map_eq_some_iff.mp hcompeting
  exact ⟨d, hrun, of_decide_eq_true hd,
    token_not_idle hpermitted hrun 0 (of_decide_eq_true hd)⟩

/-- The first client is gone, and the other one is not served. -/
theorem token_idle :
    (GuardedRuns.run next initial (firstOwns ++
      [.disconnect 0 ⟨0, false, false, true, fun _ => 0⟩])).map (fun d =>
        decide (Competing 0 d.clnts) && !d.clnts.any (Clnt.owns 0)) = some true := by
  decide

end ProxyWaiting

import Zvbi.ProxyToken

/-!
# The single token owner of a device

A step of the daemon keeps that one client of a device has the token at most, unless
the client returns a token which another client has. Without such a notification no
assertion about the owner fails in a run.
-/

namespace ProxyOwner
open ProxyDaemon ProxyToken

/-- Clients have different identifiers, and token states of a kind are exclusive. -/
structure Sound (T : TokenState → Prop) (d : Daemon) : Prop where
  unique : DistinctIds d.clnts
  fresh : ∀ c ∈ d.clnts, c.id < d.nextId
  sole : Sole T d.clnts

variable {d d' : Daemon} {msg : Msg} {req : Clnt}

variable {dev : Nat} {env : Env} {f : Clnt → Clnt} {forcedSwitch : Bool} {now : Int} {op : Op}
  {r : Daemon × List Reply}

section
variable {T : TokenState → Prop}

theorem Sound.of_placed {R : Clnt → Clnt → Prop} (h : Sound T d) (hR : ∀ c c', R c c' → Placed c c')
    (hl : List.Forall₂ R d.clnts d'.clnts) (hid : d'.nextId = d.nextId) (hsole : Sole T d'.clnts) :
    Sound T d' := by
  refine ⟨h.unique.of_placed hR hl, ?_, hsole⟩
  intro c' hc'
  obtain ⟨c, hc, hplaced⟩ := forall₂_mem_right hl hc'
  rw [hid, (hR c c' hplaced).id]
  exact h.fresh c hc

theorem Sound.of_quiet (h : Sound T d) (hl : List.Forall₂ Quiet d.clnts d'.clnts)
    (hid : d'.nextId = d.nextId) : Sound T d' :=
  h.of_placed (fun _ _ hq => hq.toPlaced) hl hid (h.sole.of_quiet hl)

theorem Sound.modify (h : Sound T d) (hreq : req ∈ d.clnts) (hf : ∀ c, Placed c (f c))
    (hothers : T (f req).token → ∀ c ∈ d.clnts, c.devIdx = req.devIdx → T c.token → c.id = req.id) :
    Sound T (d.modify req.id f) :=
  h.of_placed (fun _ _ hp => hp) (modify_related (fun _ => ⟨rfl, rfl⟩) hf req.id d.clnts) rfl
    (h.sole.modify h.unique hreq hf hothers)

/-- The token state of a client changes within the kind. -/
theorem Sound.setToken (h : Sound T d) (hreq : req ∈ d.clnts) {t : TokenState}
    (ht : T t → T req.token) : Sound T (d.setClnts (setToken req.id t d.clnts)) := by
  apply h.modify (f := fun c => c.setChn fun s => s.setToken t) hreq fun _ => ⟨rfl, rfl⟩
  intro hTt c hc hdev hTc
  exact h.sole c hc req hreq hTc (ht hTt) hdev

theorem Sound.remove (h : Sound T d) (id : Nat) : Sound T (removeClnt d id) := by
  have hsub : (removeClnt d id).clnts.Sublist d.clnts := List.filter_sublist
  refine ⟨h.unique.sublist (hsub.map Clnt.id), fun c hc => h.fresh c (hsub.subset hc), ?_⟩
  intro a ha b hb
  exact h.sole a (hsub.subset ha) b (hsub.subset hb)

theorem Sound.add (hT : TokenKind T) (h : Sound T d) (dev : Nat) :
    Sound T (addConnection d dev) := by
  refine ⟨?_, ?_, ?_⟩
  · rw [DistinctIds, addConnection, List.map_append, List.nodup_append]
    refine ⟨h.unique, List.nodup_singleton _, ?_⟩
    intro i hi j hj
    obtain ⟨c, hc, rfl⟩ := List.mem_map.mp hi
    obtain rfl := List.mem_singleton.mp hj
    exact Nat.ne_of_lt (h.fresh c hc)
  · intro c hc
    rcases List.mem_append.mp hc with hc | hc
    · exact Nat.lt_succ_of_lt (h.fresh c hc)
    · obtain rfl := List.mem_singleton.mp hc
      exact Nat.lt_succ_self _
  · intro a ha b hb hTa hTb
    have hold : ∀ c ∈ (addConnection d dev).clnts, T c.token → c ∈ d.clnts := by
      intro c hc hTc
      rcases List.mem_append.mp hc with hc | hc
      · exact hc
      · obtain rfl := List.mem_singleton.mp hc
        exact absurd hTc hT.none
    exact h.sole a (hold a ha hTa) b (hold b hb hTb) hTa hTb

theorem channelUpdate_parts (h : channelUpdate d dev forcedSwitch now = some d') :
    updateClnts d.clnts dev forcedSwitch now = some d'.clnts ∧ d'.nextId = d.nextId := by
  rw [channelUpdate] at h
  obtain ⟨r, hr, rfl⟩ := Option.map_eq_some_iff.mp h
  exact ⟨hr, rfl⟩

theorem channelUpdate_sound (hT : TokenKind T) (h : Sound T d)
    (hd : channelUpdate d dev forcedSwitch now = some d') : Sound T d' := by
  obtain ⟨hr, hid⟩ := channelUpdate_parts hd
  exact h.of_placed (fun _ _ hw => hw.toPlaced) (updateClnts_within h.unique hr) hid
    (updateClnts_sole hT h.unique h.sole hr)

theorem channelUpdate_some (h : Sound (fun t => t ≠ .none) d) (dev : Nat) (forcedSwitch : Bool)
    (now : Int) : ∃ d', channelUpdate d dev forcedSwitch now = some d' := by
  obtain ⟨r, hr⟩ := updateClnts_some h.unique h.sole dev forcedSwitch now
  rw [channelUpdate, hr]
  exact ⟨_, rfl⟩

theorem updateServices_quiet (d : Daemon) (dev : Nat) (acq : Acquisition) :
    List.Forall₂ Quiet d.clnts (updateServices d dev acq).clnts := by
  apply forall₂_map
  intro c _
  split
  · exact ⟨⟨⟨rfl, rfl⟩, rfl, rfl⟩, rfl⟩
  · exact .refl c

theorem servicesAfter_quiet (d : Daemon) (req : Clnt) (env : Env) :
    List.Forall₂ Quiet (removeClnt d req.id).clnts (servicesAfter d req env).clnts := by
  rw [servicesAfter]
  split
  · exact updateServices_quiet _ _ _
  · exact quiet_refl _

theorem modify_quiet (d : Daemon) (id : Nat) (hf : ∀ c, Quiet c (f c)) :
    List.Forall₂ Quiet d.clnts (d.modify id f).clnts :=
  modify_related Quiet.refl hf id d.clnts

theorem setState_quiet (state : ReqState) (c : Clnt) : Quiet c (c.setState state) :=
  ⟨⟨⟨rfl, rfl⟩, rfl, rfl⟩, rfl⟩

theorem servicesAfter_sound (h : Sound T d) (req : Clnt) (env : Env) :
    Sound T (servicesAfter d req env) := by
  apply (h.remove req.id).of_quiet (servicesAfter_quiet d req env)
  rw [servicesAfter]
  split
  · rfl
  · rfl

theorem closeConnection_sound (hT : TokenKind T) (h : Sound T d)
    (hd : closeConnection d req env = some d') : Sound T d' := by
  rw [closeConnection] at hd
  have hafter := servicesAfter_sound h req env
  split at hd
  · exact channelUpdate_sound hT hafter hd
  · obtain rfl := Option.some.inj hd
    exact hafter

def accepts (req : Clnt) (msg : Msg) : Bool :=
  match msg with
  | .connectReq _ => req.state = .waitConReq
  | .daemonPidReq => req.state = .waitConReq
  | .serviceReq => req.state = .forward
  | .chnTokenReq _ _ => req.state = .forward
  | .chnNotifyReq _ => req.state = .forward
  | .chnSuspendReq => true
  | .chnIoctlReq => req.state = .forward
  | .chnReclaimCnf => true
  | .closeReq => false
  | .unexpected => false

def aboutToken (req : Clnt) (msg : Msg) : Bool :=
  match msg with
  | .chnTokenReq _ _ => req.state = .forward
  | .chnNotifyReq _ => req.state = .forward
  | .chnReclaimCnf => req.token = .release
  | _ => false

/-- A message which is not about the token leaves the channel control as it is. -/
theorem takeMessage_quiet (env : Env) (h : aboutToken req msg = false) :
    ∃ d' replies, takeMessage d req msg env = some (d', accepts req msg, replies) ∧
      List.Forall₂ Quiet d.clnts d'.clnts ∧ d'.nextId = d.nextId ∧
      (accepts req msg = false → d' = d) ∧ ∀ reply ∈ replies, reply = .cnf := by
  have hcnf : ∀ reply ∈ [Reply.cnf], reply = .cnf := fun _ => List.mem_singleton.mp
  have hnil : ∀ reply ∈ ([] : List Reply), reply = .cnf := fun _ hmem => (nomatch hmem)
  have hclose : List.Forall₂ Quiet d.clnts (d.modify req.id fun c => c.setState .waitClose).clnts :=
    modify_quiet d req.id (setState_quiet .waitClose)
  have hsame : List.Forall₂ Quiet d.clnts d.clnts := quiet_refl d.clnts
  cases msg with
  | connectReq compatible =>
    by_cases hstate : req.state = .waitConReq
    · have hopen : accepts req (.connectReq compatible) = true := decide_eq_true hstate
      rw [takeMessage, if_pos hstate, hopen]
      cases compatible with
      | false => exact ⟨_, _, rfl, hclose, rfl, nofun, hcnf⟩
      | true =>
        have hforward := modify_quiet d req.id (setState_quiet .forward)
        have hservices := quiet_trans hforward (updateServices_quiet _ req.devIdx env.acq)
        rw [if_pos rfl]
        dsimp only
        split
        · exact ⟨_, _, rfl, hservices, rfl, nofun, hcnf⟩
        · refine ⟨_, _, rfl, quiet_trans hservices ?_, rfl, nofun, hcnf⟩
          exact modify_quiet _ req.id (setState_quiet .waitClose)
    · have hclosed : accepts req (.connectReq compatible) = false := decide_eq_false hstate
      rw [takeMessage, if_neg hstate, hclosed]
      exact ⟨d, [], rfl, hsame, rfl, fun _ => rfl, hnil⟩
  | daemonPidReq =>
    by_cases hstate : req.state = .waitConReq
    · have hopen : accepts req .daemonPidReq = true := decide_eq_true hstate
      rw [takeMessage, if_pos hstate, hopen]
      exact ⟨_, _, rfl, hclose, rfl, nofun, hcnf⟩
    · have hclosed : accepts req .daemonPidReq = false := decide_eq_false hstate
      rw [takeMessage, if_neg hstate, hclosed]
      exact ⟨d, [], rfl, hsame, rfl, fun _ => rfl, hnil⟩
  | serviceReq =>
    by_cases hstate : req.state = .forward
    · have hopen : accepts req .serviceReq = true := decide_eq_true hstate
      rw [takeMessage, if_pos hstate, hopen]
      exact ⟨_, _, rfl, updateServices_quiet _ _ _, rfl, nofun, hcnf⟩
    · have hclosed : accepts req .serviceReq = false := decide_eq_false hstate
      rw [takeMessage, if_neg hstate, hclosed]
      exact ⟨d, [], rfl, hsame, rfl, fun _ => rfl, hnil⟩
  | chnTokenReq chnPrio chnProfile =>
    have hclosed : accepts req (.chnTokenReq chnPrio chnProfile) = false := h
    rw [takeMessage, if_neg (of_decide_eq_false h), hclosed]
    exact ⟨d, [], rfl, hsame, rfl, fun _ => rfl, hnil⟩
  | chnNotifyReq flags =>
    have hclosed : accepts req (.chnNotifyReq flags) = false := h
    rw [takeMessage, if_neg (of_decide_eq_false h), hclosed]
    exact ⟨d, [], rfl, hsame, rfl, fun _ => rfl, hnil⟩
  | chnSuspendReq => exact ⟨d, _, rfl, hsame, rfl, fun _ => rfl, hcnf⟩
  | chnIoctlReq =>
    by_cases hstate : req.state = .forward
    · have hopen : accepts req .chnIoctlReq = true := decide_eq_true hstate
      rw [takeMessage, if_pos hstate, hopen]
      split
      · exact ⟨_, _, rfl, hsame, rfl, nofun, hcnf⟩
      · exact ⟨_, _, rfl, hsame, rfl, nofun, hcnf⟩
    · have hclosed : accepts req .chnIoctlReq = false := decide_eq_false hstate
      rw [takeMessage, if_neg hstate, hclosed]
      exact ⟨d, [], rfl, hsame, rfl, fun _ => rfl, hnil⟩
  | chnReclaimCnf =>
    rw [takeMessage, if_neg (of_decide_eq_false h)]
    exact ⟨d, [], rfl, hsame, rfl, fun _ => rfl, hnil⟩
  | closeReq => exact ⟨d, [], rfl, hsame, rfl, fun _ => rfl, hnil⟩
  | unexpected => exact ⟨d, [], rfl, hsame, rfl, fun _ => rfl, hnil⟩

theorem takeMessage_token (env : Env) (h : aboutToken req msg = true) :
    (∃ chnPrio chnProfile, msg = .chnTokenReq chnPrio chnProfile ∧
      takeMessage d req msg env =
        (channelUpdate (d.modify req.id fun c => c.request chnPrio chnProfile) req.devIdx false
          env.now).map fun d =>
            if ((findClnt d.clnts req.id).map Clnt.token) = some .grant then
              (d.setClnts (setToken req.id .granted d.clnts), true, [.chnTokenCnf true])
            else
              (d, true, [.chnTokenCnf false])) ∨
    (∃ flags, msg = .chnNotifyReq flags ∧
      takeMessage d req msg env =
        if req.notifyUpdates flags then
          (channelUpdate (d.modify req.id fun c => c.notify flags) req.devIdx
            (flags.flush && !req.controls) env.now).map fun d => (d, true, [.cnf])
        else
          some (d.modify req.id fun c => c.notify flags, true, [.cnf])) ∨
    (msg = .chnReclaimCnf ∧ req.token = .release ∧
      takeMessage d req msg env =
        (channelUpdate (d.modify req.id fun c => c.setChn fun s => s.setToken .none) req.devIdx false
          env.now).map fun d => (d, true, [])) := by
  cases msg with
  | chnTokenReq chnPrio chnProfile =>
    left
    exact ⟨chnPrio, chnProfile, rfl, if_pos (of_decide_eq_true h)⟩
  | chnNotifyReq flags =>
    right
    left
    exact ⟨flags, rfl, if_pos (of_decide_eq_true h)⟩
  | chnReclaimCnf =>
    right
    right
    have hrelease : req.token = .release := of_decide_eq_true h
    exact ⟨rfl, hrelease, if_pos hrelease⟩
  | connectReq compatible => cases h
  | daemonPidReq => cases h
  | serviceReq => cases h
  | chnSuspendReq => cases h
  | chnIoctlReq => cases h
  | closeReq => cases h
  | unexpected => cases h

theorem aboutToken_accepts (h : aboutToken req msg = true) : accepts req msg = true := by
  cases msg with
  | chnTokenReq chnPrio chnProfile => exact h
  | chnNotifyReq flags => exact h
  | chnReclaimCnf => rfl
  | connectReq compatible => cases h
  | daemonPidReq => cases h
  | serviceReq => cases h
  | chnSuspendReq => cases h
  | chnIoctlReq => cases h
  | closeReq => cases h
  | unexpected => cases h

theorem handleMessage_parts (h : handleMessage d req msg env = some r) :
    (accepts req msg = true ∧ takeMessage d req msg env = some (r.1, true, r.2)) ∨
    (accepts req msg = false ∧ r.2 = [] ∧ closeConnection d req env = some r.1) := by
  rw [handleMessage] at h
  obtain ⟨⟨d', keep, replies⟩, ht, hr⟩ := Option.bind_eq_some_iff.mp h
  have hparts : keep = accepts req msg ∧ (accepts req msg = false → d' = d) := by
    cases habout : aboutToken req msg with
    | false =>
      obtain ⟨e, replies', htake, -, -, hsame, -⟩ := takeMessage_quiet (d := d) env habout
      obtain ⟨rfl, rfl, -⟩ := Option.some.inj (htake.symm.trans ht)
      exact ⟨rfl, hsame⟩
    | true =>
      have hopen := aboutToken_accepts habout
      rw [hopen]
      refine ⟨?_, nofun⟩
      obtain ⟨chnPrio, chnProfile, rfl, htake⟩ | ⟨flags, rfl, htake⟩ | ⟨rfl, -, htake⟩ :=
        takeMessage_token (d := d) env habout
      · rw [htake] at ht
        obtain ⟨e, -, he⟩ := Option.map_eq_some_iff.mp ht
        split at he
        · exact (Prod.mk.inj (Prod.mk.inj he).2).1.symm
        · exact (Prod.mk.inj (Prod.mk.inj he).2).1.symm
      · rw [htake] at ht
        split at ht
        · obtain ⟨e, -, he⟩ := Option.map_eq_some_iff.mp ht
          exact (Prod.mk.inj (Prod.mk.inj he).2).1.symm
        · exact (Prod.mk.inj (Prod.mk.inj (Option.some.inj ht)).2).1.symm
      · rw [htake] at ht
        obtain ⟨e, -, he⟩ := Option.map_eq_some_iff.mp ht
        exact (Prod.mk.inj (Prod.mk.inj he).2).1.symm
  obtain ⟨rfl, hsame⟩ := hparts
  dsimp only at hr
  split at hr
  · rename_i hopen
    obtain rfl := Option.some.inj hr
    rw [hopen] at ht
    exact Or.inl ⟨hopen, ht⟩
  · rename_i hrefused
    have hfalse := Bool.eq_false_iff.mpr hrefused
    obtain ⟨e, he, rfl⟩ := Option.map_eq_some_iff.mp hr
    rw [hsame hfalse] at he
    exact Or.inr ⟨hfalse, rfl, he⟩

/-- A client returns a token which another client of the device has. -/
def returnsOther (d : Daemon) (op : Op) : Bool :=
  match op with
  | .message id (.chnNotifyReq flags) _ =>
    match findClnt d.clnts id with
    | none => false
    | some req =>
      decide (req.state = .forward) && flags.token && !flags.release &&
        d.clnts.any fun c => c.owns req.devIdx && decide (c.id ≠ id)
  | _ => false

theorem notify_placed (flags : NotifyFlags) (c : Clnt) : Placed c (c.notify flags) := by
  rw [Clnt.notify]
  split
  · exact ⟨rfl, rfl⟩
  · split
    · exact ⟨rfl, rfl⟩
    · exact ⟨rfl, rfl⟩

theorem notify_token (flags : NotifyFlags) (c : Clnt) :
    (c.notify flags).token =
      if flags.release then .none else if flags.token then .returned else c.token := by
  rw [Clnt.notify]
  split
  · rfl
  · split
    · rfl
    · rfl

theorem notify_sound (hT : TokenKind T) (h : Sound T d) (hfind : findClnt d.clnts req.id = some req)
    (hforward : req.state = .forward) (flags : NotifyFlags) (env : Env)
    (hok : T .returned → returnsOther d (.message req.id (.chnNotifyReq flags) env) = false) :
    Sound T (d.modify req.id fun c => c.notify flags) := by
  have hreq := (findClnt_some hfind).1
  apply h.modify hreq (notify_placed flags)
  intro hTf c hc hdev hTc
  rw [notify_token] at hTf
  split at hTf
  · exact absurd hTf hT.none
  · rename_i hrelease
    split at hTf
    · rename_i htoken
      have hguard := hok hTf
      rw [returnsOther, hfind] at hguard
      dsimp only at hguard
      rw [hforward, htoken, Bool.eq_false_iff.mpr hrelease] at hguard
      have hall := List.any_eq_false.mp hguard c hc
      rw [owns_kind hT hdev hTc, Bool.true_and, decide_eq_true_eq] at hall
      exact not_not.mp hall
    · exact h.sole c hc req hreq hTc hTf hdev

/-- A message keeps the token states of a kind exclusive. -/
theorem takeMessage_sound (hT : TokenKind T) (h : Sound T d)
    (hfind : findClnt d.clnts req.id = some req) {msg : Msg}
    (hok : T .returned → returnsOther d (.message req.id msg env) = false)
    {r : Daemon × Bool × List Reply} (hr : takeMessage d req msg env = some r) : Sound T r.1 := by
  have hreq := (findClnt_some hfind).1
  cases habout : aboutToken req msg with
  | false =>
    obtain ⟨d', replies, htake, hquiet, hid, -⟩ := takeMessage_quiet env habout
    obtain rfl := Option.some.inj (htake.symm.trans hr)
    exact h.of_quiet hquiet hid
  | true =>
    obtain ⟨chnPrio, chnProfile, rfl, htake⟩ | ⟨flags, rfl, htake⟩ | ⟨rfl, -, htake⟩ :=
      takeMessage_token env habout
    · rw [htake] at hr
      obtain ⟨d', hd', rfl⟩ := Option.map_eq_some_iff.mp hr
      have hrequest : Sound T (d.modify req.id fun c => c.request chnPrio chnProfile) :=
        h.modify hreq (fun _ => ⟨rfl, rfl⟩) fun hTf => absurd hTf hT.none
      have hsound := channelUpdate_sound hT hrequest hd'
      split
      · rename_i hgrant
        obtain ⟨c, hc, htoken⟩ := Option.map_eq_some_iff.mp hgrant
        obtain ⟨hmem, hid⟩ := findClnt_some hc
        rw [← hid]
        exact hsound.setToken hmem fun _ => htoken ▸ hT.grant
      · exact hsound
    · rw [htake] at hr
      have hnotify := notify_sound hT h hfind (of_decide_eq_true habout) flags env hok
      split at hr
      · obtain ⟨d', hd', rfl⟩ := Option.map_eq_some_iff.mp hr
        exact channelUpdate_sound hT hnotify hd'
      · obtain rfl := Option.some.inj hr
        exact hnotify
    · rw [htake] at hr
      obtain ⟨d', hd', rfl⟩ := Option.map_eq_some_iff.mp hr
      have hreclaim : Sound T (d.modify req.id fun c => c.setChn fun s => s.setToken .none) :=
        h.modify hreq (fun _ => ⟨rfl, rfl⟩) fun hTf => absurd hTf hT.none
      exact channelUpdate_sound hT hreclaim hd'

theorem takeMessage_some (h : Sound (fun t => t ≠ .none) d)
    (hfind : findClnt d.clnts req.id = some req) (msg : Msg) (env : Env)
    (hok : returnsOther d (.message req.id msg env) = false) :
    ∃ r, takeMessage d req msg env = some r := by
  have hreq := (findClnt_some hfind).1
  cases habout : aboutToken req msg with
  | false =>
    obtain ⟨d', replies, htake, -⟩ := takeMessage_quiet (d := d) env habout
    exact ⟨_, htake⟩
  | true =>
    obtain ⟨chnPrio, chnProfile, rfl, htake⟩ | ⟨flags, rfl, htake⟩ | ⟨rfl, -, htake⟩ :=
      takeMessage_token (d := d) env habout
    · have hrequest : Sound (fun t => t ≠ .none)
          (d.modify req.id fun c => c.request chnPrio chnProfile) :=
        h.modify hreq (fun _ => ⟨rfl, rfl⟩) fun hTf => absurd rfl hTf
      obtain ⟨d', hd'⟩ := channelUpdate_some hrequest req.devIdx false env.now
      rw [htake, hd']
      exact ⟨_, rfl⟩
    · rw [htake]
      split
      · have hnotify := notify_sound owned_kind h hfind (of_decide_eq_true habout) flags env
          fun _ => hok
        obtain ⟨d', hd'⟩ := channelUpdate_some hnotify req.devIdx
          (flags.flush && !req.controls) env.now
        rw [hd']
        exact ⟨_, rfl⟩
      · exact ⟨_, rfl⟩
    · have hreclaim : Sound (fun t => t ≠ .none)
          (d.modify req.id fun c => c.setChn fun s => s.setToken .none) :=
        h.modify hreq (fun _ => ⟨rfl, rfl⟩) fun hTf => absurd rfl hTf
      obtain ⟨d', hd'⟩ := channelUpdate_some hreclaim req.devIdx false env.now
      rw [htake, hd']
      exact ⟨_, rfl⟩

theorem transmitToken_sound (hT : TokenKind T) (h : Sound T d) (hreq : req ∈ d.clnts) :
    Sound T (transmitToken d req).1 := by
  rw [transmitToken]
  split
  · rename_i hreclaim
    exact h.setToken hreq fun _ => hreclaim ▸ hT.reclaim
  · split
    · rename_i hgrant
      exact h.setToken hreq fun _ => hgrant ▸ hT.grant
    · exact h

/-- A step keeps the token states of a kind exclusive. -/
theorem step_sound (hT : TokenKind T) (h : Sound T d)
    (hok : T .returned → returnsOther d op = false) (hr : step d op = some r) : Sound T r.1 := by
  cases op with
  | accept dev =>
    obtain rfl := Option.some.inj hr
    exact h.add hT dev
  | message id msg env =>
    rw [step] at hr
    cases hfind : findClnt d.clnts id with
    | none =>
      rw [hfind] at hr
      obtain rfl := Option.some.inj hr
      exact h
    | some req =>
      obtain rfl := (findClnt_some hfind).2
      rw [hfind] at hr
      dsimp only [handleMessage] at hr
      obtain ⟨t, ht, hclose⟩ := Option.bind_eq_some_iff.mp hr
      have hsound := takeMessage_sound hT h hfind hok ht
      split at hclose
      · obtain rfl := Option.some.inj hclose
        exact hsound
      · obtain ⟨d', hd', rfl⟩ := Option.map_eq_some_iff.mp hclose
        exact closeConnection_sound hT hsound hd'
  | disconnect id env =>
    rw [step] at hr
    cases hfind : findClnt d.clnts id with
    | none =>
      rw [hfind] at hr
      obtain rfl := Option.some.inj hr
      exact h
    | some req =>
      rw [hfind] at hr
      obtain ⟨d', hd', rfl⟩ := Option.map_eq_some_iff.mp hr
      exact closeConnection_sound hT h hd'
  | transmit id =>
    rw [step] at hr
    cases hfind : findClnt d.clnts id with
    | none =>
      rw [hfind] at hr
      obtain rfl := Option.some.inj hr
      exact h
    | some req =>
      rw [hfind] at hr
      obtain rfl := Option.some.inj hr
      exact transmitToken_sound hT h (findClnt_some hfind).1
  | timer dev now =>
    rw [step, channelTimer] at hr
    obtain ⟨d', hd', rfl⟩ := Option.map_eq_some_iff.mp hr
    split at hd'
    · exact channelUpdate_sound hT h hd'
    · obtain rfl := Option.some.inj hd'
      exact h

theorem closeConnection_some (h : Sound (fun t => t ≠ .none) d) (req : Clnt) (env : Env) :
    ∃ d', closeConnection d req env = some d' := by
  rw [closeConnection]
  split
  · exact channelUpdate_some (servicesAfter_sound h req env) _ _ _
  · exact ⟨_, rfl⟩

/-- No assertion about the owner of the token fails in a step. -/
theorem step_some (h : Sound (fun t => t ≠ .none) d) (hok : returnsOther d op = false) :
    ∃ r, step d op = some r := by
  cases op with
  | accept dev => exact ⟨_, rfl⟩
  | message id msg env =>
    rw [step]
    cases hfind : findClnt d.clnts id with
    | none => exact ⟨_, rfl⟩
    | some req =>
      obtain rfl := (findClnt_some hfind).2
      obtain ⟨t, ht⟩ := takeMessage_some h hfind msg env hok
      dsimp only [handleMessage]
      rw [ht, Option.bind_some]
      split
      · exact ⟨_, rfl⟩
      · obtain ⟨d', hd'⟩ := closeConnection_some
          (takeMessage_sound owned_kind h hfind (fun _ => hok) ht) req env
        rw [hd']
        exact ⟨_, rfl⟩
  | disconnect id env =>
    rw [step]
    cases hfind : findClnt d.clnts id with
    | none => exact ⟨_, rfl⟩
    | some req =>
      obtain ⟨d', hd'⟩ := closeConnection_some h req env
      dsimp only
      rw [hd']
      exact ⟨_, rfl⟩
  | transmit id =>
    rw [step]
    cases hfind : findClnt d.clnts id with
    | none => exact ⟨_, rfl⟩
    | some req => exact ⟨_, rfl⟩
  | timer dev now =>
    rw [step, channelTimer]
    split
    · obtain ⟨d', hd'⟩ := channelUpdate_some h dev false now
      rw [hd']
      exact ⟨_, rfl⟩
    · exact ⟨_, rfl⟩

theorem initial_sound : Sound T initial :=
  ⟨List.nodup_nil, fun _ hc => (nomatch hc), fun _ ha => (nomatch ha)⟩

theorem owners_le_one (h : Sound (fun t => t ≠ .none) d) (dev : Nat) :
    (d.clnts.filter (Clnt.owns dev)).length ≤ 1 := by
  have hnodup : (d.clnts.filter (Clnt.owns dev)).Nodup := h.unique.of_map.filter _
  have heq : ∀ a ∈ d.clnts.filter (Clnt.owns dev), ∀ b ∈ d.clnts.filter (Clnt.owns dev), a = b := by
    intro a ha b hb
    obtain ⟨hac, haowns⟩ := List.mem_filter.mp ha
    obtain ⟨hbc, hbowns⟩ := List.mem_filter.mp hb
    rw [owns_iff] at haowns hbowns
    have hid := h.sole a hac b hbc haowns.2 hbowns.2 (haowns.1.trans hbowns.1.symm)
    exact h.unique.eq hac hbc hid
  cases howners : d.clnts.filter (Clnt.owns dev) with
  | nil => exact Nat.zero_le 1
  | cons a rest =>
    cases rest with
    | nil => exact Nat.le_refl 1
    | cons b rest =>
      exfalso
      rw [howners] at hnodup heq
      obtain rfl := heq a List.mem_cons_self b (List.mem_cons_of_mem _ List.mem_cons_self)
      exact (List.nodup_cons.mp hnodup).1 List.mem_cons_self

/-- If no client returns a token which another client has, no assertion fails and each
device has one owner of the token at most. -/
theorem single_owner {ops : List Op}
    (h : GuardedRuns.Permitted next (fun d op => returnsOther d op = false) initial ops) :
    ∃ d, GuardedRuns.run next initial ops = some d ∧
      ∀ dev, (d.clnts.filter (Clnt.owns dev)).length ≤ 1 := by
  obtain ⟨d, hd, hsound⟩ := GuardedRuns.run_keeps (Sound fun t => t ≠ .none)
    (fun d op hsound hok => by
      obtain ⟨r, hr⟩ := step_some hsound hok
      refine ⟨r.1, ?_, step_sound owned_kind hsound (fun _ => hok) hr⟩
      rw [next, hr]
      rfl) initial_sound h
  exact ⟨d, hd, owners_le_one hsound⟩

end

/-- A client without a valid profile, and one which gets the token. -/
def secondOwns : List Op :=
  [.accept 0, .accept 0, .message 0 (.connectReq true) ⟨0, true, true, true, fun _ => 1⟩,
    .message 1 (.connectReq true) ⟨0, false, true, true, fun _ => 1⟩,
    .message 0 (.chnTokenReq 1 ⟨false, 0, 10⟩) ⟨0, false, true, true, fun _ => 1⟩,
    .message 1 (.chnTokenReq 1 ⟨true, 0, 10⟩) ⟨0, false, true, true, fun _ => 1⟩]

theorem single_owner_second :
    ∃ d, GuardedRuns.run next initial secondOwns = some d ∧
      ∀ dev, (d.clnts.filter (Clnt.owns dev)).length ≤ 1 :=
  single_owner (by decide)

/-- The first client returns the token of the second one. -/
def foreignReturn : Op :=
  .message 0 (.chnNotifyReq ⟨false, true, false, false, false⟩) ⟨0, false, true, true, fun _ => 1⟩

def thirdRequest : List Op :=
  [.accept 0, .message 2 (.connectReq true) ⟨0, false, true, true, fun _ => 1⟩,
    .message 2 (.chnTokenReq 1 ⟨true, 1, 10⟩) ⟨0, false, true, true, fun _ => 1⟩]

/-- With the foreign return the device has two owners, and the next request fails the
assertion. -/
theorem two_owners :
    (GuardedRuns.run next initial (secondOwns ++ [foreignReturn])).map (fun d =>
      (d.clnts.filter (Clnt.owns 0)).length) = some 2 ∧
    (GuardedRuns.run next initial (secondOwns ++ [foreignReturn] ++ thirdRequest)).isNone := by
  constructor
  · decide
  · decide

end ProxyOwner

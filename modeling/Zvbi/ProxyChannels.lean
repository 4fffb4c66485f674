import Zvbi.ProxyOwner

/-!
# Token messages between the proxy daemon and its clients

Each client has a channel to the daemon and one from it. A client holds the token from
the receipt of a grant until it sends a message which gives the token up, or closes the
connection. While a grant is on its way or the client holds the token, the daemon has
to know it as the owner.
-/

namespace ProxyChannels
open ProxyDaemon ProxyToken ProxyOwner

def grants : Reply → Bool
  | .chnTokenCnf tokenInd => tokenInd
  | .chnTokenInd => true
  | .chnReclaimReq => false
  | .cnf => false

def givesUp : Msg → Bool
  | .chnTokenReq _ _ => true
  | .chnNotifyReq flags => flags.token || flags.release
  | .chnReclaimCnf => true
  | _ => false

structure Endpoint where
  devIdx : Nat
  holds : Bool
  closed : Bool
  inbox : List Reply
  outbox : List Msg

/-- The client holds the token, or will when it reads its messages. -/
def Endpoint.live (e : Endpoint) : Bool := e.holds || (!e.closed && e.inbox.any grants)

def Endpoint.send (e : Endpoint) (msg : Msg) : Endpoint :=
  { e with holds := e.holds && !givesUp msg, outbox := e.outbox ++ [msg] }

def Endpoint.receive (e : Endpoint) : Endpoint :=
  match e.inbox with
  | [] => e
  | reply :: rest => { e with holds := e.holds || grants reply, inbox := rest }

def Endpoint.close (e : Endpoint) : Endpoint := { e with holds := false, closed := true }

def Endpoint.post (e : Endpoint) (replies : List Reply) : Endpoint :=
  { e with inbox := e.inbox ++ replies }

def Endpoint.take (e : Endpoint) : Endpoint := { e with outbox := e.outbox.tail }

structure System where
  daemon : Daemon
  endpoint : Nat → Endpoint

def System.change (s : System) (id : Nat) (f : Endpoint → Endpoint) : System :=
  ⟨s.daemon, fun i => if i = id then f (s.endpoint i) else s.endpoint i⟩

/-- Something a client or the daemon does. -/
inductive Event
  | accept (dev : Nat)
  | send (id : Nat) (msg : Msg)
  | receive (id : Nat)
  | close (id : Nat)
  | deliver (id : Nat) (env : Env)
  | disconnect (id : Nat) (env : Env)
  | transmit (id : Nat)
  | timer (dev : Nat) (now : Int)

def System.op (s : System) : Event → Option Op
  | .accept dev => some (.accept dev)
  | .send _ _ => none
  | .receive _ => none
  | .close _ => none
  | .deliver id env => (s.endpoint id).outbox.head?.map fun msg => .message id msg env
  | .disconnect id env => some (.disconnect id env)
  | .transmit id => some (.transmit id)
  | .timer dev now => some (.timer dev now)

def System.react (s : System) (id : Nat) (op : Op) : Option System :=
  (ProxyDaemon.step s.daemon op).map fun r =>
    ⟨r.1, (s.change id fun e => e.post r.2).endpoint⟩

def System.connected (s : System) (id : Nat) : Bool :=
  (findClnt s.daemon.clnts id).isSome && !(s.endpoint id).closed

/-- An event. It has no result if an assertion of the daemon fails. -/
def System.step (s : System) : Event → Option System
  | .accept dev =>
    (s.change s.daemon.nextId fun _ => ⟨dev, false, false, [], []⟩).react s.daemon.nextId
      (.accept dev)
  | .send id msg => some (if s.connected id then s.change id fun e => e.send msg else s)
  | .receive id => some (if (s.endpoint id).closed then s else s.change id Endpoint.receive)
  | .close id => some (s.change id Endpoint.close)
  | .deliver id env =>
    match (s.endpoint id).outbox with
    | [] => some s
    | msg :: _ => (s.change id Endpoint.take).react id (.message id msg env)
  | .disconnect id env => s.react id (.disconnect id env)
  | .transmit id => s.react id (.transmit id)
  | .timer dev now => s.react 0 (.timer dev now)

def start : System := ⟨initial, fun _ => ⟨0, false, false, [], []⟩⟩

def yields (d : Daemon) : Op → Option Nat
  | .message id msg _ =>
    (findClnt d.clnts id).bind fun req =>
      if !accepts req msg || (aboutToken req msg && givesUp msg) then some id else none
  | .disconnect id _ => some id
  | _ => none

structure Update where
  clnts : List Clnt
  dev : Nat
  forcedSwitch : Bool
  now : Int

def closeUpdate (d : Daemon) (req : Clnt) (env : Env) : Option Update :=
  if ((servicesAfter d req env).dev req.devIdx).capture then
    some ⟨(servicesAfter d req env).clnts, req.devIdx, false, env.now⟩
  else
    none

def messageUpdate (d : Daemon) (req : Clnt) (msg : Msg) (env : Env) : Option Update :=
  if aboutToken req msg then
    match msg with
    | .chnTokenReq chnPrio chnProfile =>
      some ⟨(d.modify req.id fun c => c.request chnPrio chnProfile).clnts, req.devIdx, false, env.now⟩
    | .chnNotifyReq flags =>
      if req.notifyUpdates flags then
        some ⟨(d.modify req.id fun c => c.notify flags).clnts, req.devIdx,
          flags.flush && !req.controls, env.now⟩
      else
        none
    | _ =>
      some ⟨(d.modify req.id fun c => c.setChn fun s => s.setToken .none).clnts, req.devIdx, false,
        env.now⟩
  else if accepts req msg then
    none
  else
    closeUpdate d req env

def stepUpdate (d : Daemon) : Op → Option Update
  | .message id msg env => (findClnt d.clnts id).bind fun req => messageUpdate d req msg env
  | .disconnect id env => (findClnt d.clnts id).bind fun req => closeUpdate d req env
  | .timer dev now => if timerDue d dev now then some ⟨d.clnts, dev, false, now⟩ else none
  | _ => none

def Update.chosen (u : Update) : Option Nat :=
  (selectClnt u.clnts u.dev u.forcedSwitch u.now).bind Prod.snd

def chosen (d : Daemon) (op : Op) : Option Nat := (stepUpdate d op).bind Update.chosen

/-- No client holds the token or will get it when the daemon takes it back, ends the
connection, or chooses the client anew after the reclaim was sent. -/
def orderly (s : System) (e : Event) : Bool :=
  (s.op e).all fun op =>
    ((yields s.daemon op).all fun id => !(s.endpoint id).live) &&
      s.daemon.clnts.all fun c =>
        !(decide (chosen s.daemon op = some c.id) && decide (c.token = .release) &&
          (s.endpoint c.id).live)

def Held (t : TokenState) : Prop := t = .granted ∨ t = .reclaim ∨ t = .release

variable {t : TokenState} {c : Clnt} {dev : Nat} {u : Update} {replies : List Reply}

theorem assigned_of_held (h : Held t) : Assigned t := by
  rcases h with rfl | rfl | rfl
  all_goals exact ⟨nofun, nofun⟩

theorem stops_held {c' : Clnt} (hs : Stops dev c c') (h : Held c.token) :
    Held c'.token ∧ (c'.token = .release → c.token = .release) := by
  rcases hs.token with hsame | ⟨-, hcontrols, hstopped⟩
  · rw [hsame]
    exact ⟨h, fun hrelease => hrelease⟩
  · rcases h with h | h | h
    · rw [h] at hstopped
      rw [hstopped]
      exact ⟨Or.inr (Or.inl rfl), nofun⟩
    · rw [Clnt.controls, h] at hcontrols
      cases hcontrols
    · rw [Clnt.controls, h] at hcontrols
      cases hcontrols

variable {a req : Clnt} {r : Daemon × List Reply} {s : System}

variable {clnts : List Clnt} {env : Env} {msg : Msg} {e : Endpoint} {s' : System}

/-- A change of one token state, seen from any client. -/
theorem setToken_client (id : Nat) (t : TokenState) (ha : a ∈ clnts) :
    ∃ a' ∈ setToken id t clnts, Placed a a' ∧
      ((a.id = id ∧ a'.token = t) ∨ (a.id ≠ id ∧ a'.token = a.token)) := by
  refine ⟨if a.id = id then a.setChn fun s => s.setToken t else a,
    List.mem_map.mpr ⟨a, ha, rfl⟩, ?_⟩
  by_cases hid : a.id = id
  · rw [if_pos hid]
    exact ⟨⟨rfl, rfl⟩, Or.inl ⟨hid, rfl⟩⟩
  · rw [if_neg hid]
    exact ⟨⟨rfl, rfl⟩, Or.inr ⟨hid, rfl⟩⟩

theorem setToken_held (id : Nat) (ha : a ∈ clnts) (h : Held a.token) (ht : a.id = id → Held t) :
    ∃ a' ∈ setToken id t clnts, Placed a a' ∧ Held a'.token := by
  obtain ⟨a', ha', hplaced, ⟨hid, htoken⟩ | ⟨-, htoken⟩⟩ := setToken_client id t ha
  · exact ⟨a', ha', hplaced, htoken ▸ ht hid⟩
  · exact ⟨a', ha', hplaced, htoken ▸ h⟩

/-- A grant takes the token from no client which holds it, unless it goes to a client
whose reclaim was sent. -/
theorem granting_held (hunique : DistinctIds clnts) (hreq : req ∈ clnts) {r : List Clnt × Bool}
    (hr : Granting clnts req r) (ha : a ∈ clnts) (h : Held a.token)
    (hrelease : a.id = req.id → a.token ≠ .release) :
    ∃ a' ∈ r.1, Placed a a' ∧ Held a'.token := by
  have hself : ∀ p ∈ clnts, a.id = p.id → a = p := fun p hp hid => hunique.eq ha hp hid
  cases hr with
  | free hnone =>
    apply setToken_held req.id ha h
    intro hid
    rw [hself req hreq hid, hnone] at h
    exact absurd rfl (assigned_of_held h).1
  | swap p hnone hp howns howner htoken =>
    obtain ⟨b, hb, hplaced, ⟨hid, -⟩ | ⟨-, hsame⟩⟩ := setToken_client req.id .grant ha
    · rw [hself req hreq hid, hnone] at h
      exact absurd rfl (assigned_of_held h).1
    · obtain ⟨c, hc, hplaced', hheld⟩ := setToken_held p.id hb (t := .none) (hsame ▸ h) (by
        intro hid
        rw [hself p hp (hplaced.id.symm.trans hid)] at h
        rcases htoken with htoken | htoken
        · rw [htoken] at h
          rcases h with h | h | h <;> cases h
        · rw [htoken] at h
          rcases h with h | h | h <;> cases h)
      exact ⟨c, hc, hplaced.trans hplaced', hheld⟩
  | reclaim p => exact setToken_held p.id ha h fun _ => Or.inr (Or.inl rfl)
  | wait p => exact ⟨a, ha, ⟨rfl, rfl⟩, h⟩
  | same => exact ⟨a, ha, ⟨rfl, rfl⟩, h⟩
  | keep => exact setToken_held req.id ha h fun _ => Or.inl rfl
  | again hreleased =>
    apply setToken_held req.id ha h
    intro hid
    rw [← hself req hreq hid] at hreleased
    exact absurd hreleased (hrelease hid)

/-- An update takes the token from no client which holds it, unless it chooses a client
whose reclaim was sent. -/
theorem updateClnts_held (hunique : DistinctIds u.clnts) {r : List Clnt}
    (hr : updateClnts u.clnts u.dev u.forcedSwitch u.now = some r) (ha : a ∈ u.clnts)
    (h : Held a.token) (hrelease : u.chosen = some a.id → a.token ≠ .release) :
    ∃ a' ∈ r, Placed a a' ∧ Held a'.token := by
  obtain ⟨m, sched, hselect, hstops, hsched, -, hgrant⟩ := updateClnts_parts hunique hr
  obtain ⟨b, hb, hstop⟩ := forall₂_mem_left hstops ha
  obtain ⟨hbheld, hbrelease⟩ := stops_held hstop h
  have hmunique := hunique.of_placed (fun _ _ h => h.toPlaced) hstops
  rcases grantScheduled_cases hgrant with ⟨-, rfl⟩ | ⟨_, -, -, rfl⟩ | ⟨c, g, hc, hg, hquiet⟩
  · exact ⟨b, hb, hstop.toPlaced, hbheld⟩
  · exact ⟨b, hb, hstop.toPlaced, hbheld⟩
  · obtain ⟨id, hid, hfind⟩ := Option.bind_eq_some_iff.mp hc
    obtain ⟨hcmem, hcid⟩ := findClnt_some hfind
    obtain ⟨e, he, hplaced, heheld⟩ := granting_held hmunique hcmem hg hb hbheld (by
      intro hbid hreleased
      refine hrelease ?_ (hbrelease hreleased)
      rw [Update.chosen, hselect, Option.bind_some, hid, ← hcid, ← hbid, hstop.id])
    obtain ⟨e', he', hq⟩ := forall₂_mem_left hquiet he
    exact ⟨e', he', (hstop.toPlaced.trans hplaced).trans hq.toPlaced, hq.token ▸ heheld⟩

def about (d : Daemon) : Op → Nat
  | .accept _ => d.nextId
  | .message id _ _ => id
  | .disconnect id _ => id
  | .transmit id => id
  | .timer _ _ => 0

/-- The clients before the update of a channel: but for one which gives up the token, they
have the same token states as before the step. -/
structure Follows (d : Daemon) (op : Op) (l : List Clnt) : Prop where
  unique : DistinctIds l
  origin : ∀ c' ∈ l, ∃ c ∈ d.clnts, Placed c c'
  same : ∀ a ∈ d.clnts, yields d op ≠ some a.id → ∃ a' ∈ l, Placed a a' ∧ a'.token = a.token

structure Outcome (d : Daemon) (op : Op) (r : Daemon × List Reply) : Prop where
  origin : ∀ c' ∈ r.1.clnts, ∃ c ∈ d.clnts, Placed c c'
  held : ∀ a ∈ d.clnts, Held a.token → yields d op ≠ some a.id →
    (chosen d op = some a.id → a.token ≠ .release) →
    ∃ a' ∈ r.1.clnts, Placed a a' ∧ Held a'.token
  granted : ∀ reply ∈ r.2, grants reply = true →
    ∃ c ∈ r.1.clnts, c.id = about d op ∧ Held c.token

section
variable {d : Daemon} {op : Op}

theorem Follows.of_quiet (hunique : DistinctIds d.clnts) {l : List Clnt}
    (hl : List.Forall₂ Quiet d.clnts l) : Follows d op l := by
  refine ⟨hunique.of_placed (fun _ _ hq => hq.toPlaced) hl, ?_, ?_⟩
  · intro c' hc'
    obtain ⟨c, hc, hq⟩ := forall₂_mem_right hl hc'
    exact ⟨c, hc, hq.toPlaced⟩
  · intro a ha _
    obtain ⟨a', ha', hq⟩ := forall₂_mem_left hl ha
    exact ⟨a', ha', hq.toPlaced, hq.token⟩

/-- One client changes, which keeps its token state or gives up the token. -/
theorem Follows.of_modify (hunique : DistinctIds d.clnts) (hreq : req ∈ d.clnts) {f : Clnt → Clnt}
    (hf : ∀ c, Placed c (f c)) (h : yields d op = some req.id ∨ (f req).token = req.token) :
    Follows d op (d.modify req.id f).clnts := by
  have hplaced := modify_related (R := Placed) Placed.refl hf req.id d.clnts
  refine ⟨hunique.of_placed (fun _ _ hp => hp) hplaced, ?_, ?_⟩
  · intro c' hc'
    exact forall₂_mem_right hplaced hc'
  · intro a ha hyields
    refine ⟨if a.id = req.id then f a else a, List.mem_map.mpr ⟨a, ha, rfl⟩, ?_⟩
    by_cases hid : a.id = req.id
    · rw [if_pos hid]
      obtain rfl := hunique.eq ha hreq hid
      exact ⟨hf a, h.resolve_left hyields⟩
    · rw [if_neg hid]
      exact ⟨.refl a, rfl⟩

theorem Follows.of_removal (hunique : DistinctIds d.clnts) (h : yields d op = some req.id) :
    Follows d op (servicesAfter d req env).clnts := by
  have hsub : (removeClnt d req.id).clnts.Sublist d.clnts := List.filter_sublist
  have hremoved : DistinctIds (removeClnt d req.id).clnts := hunique.sublist (hsub.map Clnt.id)
  have hquiet := servicesAfter_quiet d req env
  refine ⟨hremoved.of_placed (fun _ _ hq => hq.toPlaced) hquiet, ?_, ?_⟩
  · intro c' hc'
    obtain ⟨c, hc, hq⟩ := forall₂_mem_right hquiet hc'
    exact ⟨c, hsub.subset hc, hq.toPlaced⟩
  · intro a ha hyields
    have hmem : a ∈ (removeClnt d req.id).clnts := by
      refine List.mem_filter.mpr ⟨ha, decide_eq_true fun hid => ?_⟩
      rw [hid] at hyields
      exact hyields h
    obtain ⟨a', ha', hq⟩ := forall₂_mem_left hquiet hmem
    exact ⟨a', ha', hq.toPlaced, hq.token⟩

theorem no_grants (h : ∀ reply ∈ replies, reply = .cnf) {reply : Reply} (hmem : reply ∈ replies) :
    grants reply ≠ true := by
  rw [h reply hmem]
  exact nofun

/-- A step without an update of a channel. -/
theorem Outcome.of_follows (h : Follows d op r.1.clnts)
    (hreplies : ∀ reply ∈ r.2, grants reply ≠ true) : Outcome d op r := by
  refine ⟨h.origin, ?_, fun reply hmem hgrants => absurd hgrants (hreplies reply hmem)⟩
  intro a ha hheld hyields _
  obtain ⟨a', ha', hplaced, hsame⟩ := h.same a ha hyields
  exact ⟨a', ha', hplaced, hsame ▸ hheld⟩

theorem Outcome.of_update (hu : stepUpdate d op = some u) (h : Follows d op u.clnts)
    (hr : updateClnts u.clnts u.dev u.forcedSwitch u.now = some r.1.clnts)
    (hreplies : ∀ reply ∈ r.2, grants reply ≠ true) : Outcome d op r := by
  have hwithin := updateClnts_within h.unique hr
  refine ⟨?_, ?_, fun reply hmem hgrants => absurd hgrants (hreplies reply hmem)⟩
  · intro c' hc'
    obtain ⟨b, hb, hw⟩ := forall₂_mem_right hwithin hc'
    obtain ⟨c, hc, hplaced⟩ := h.origin b hb
    exact ⟨c, hc, hplaced.trans hw.toPlaced⟩
  · intro a ha hheld hyields hrelease
    obtain ⟨b, hb, hplaced, hsame⟩ := h.same a ha hyields
    obtain ⟨a', ha', hplaced', hheld'⟩ := updateClnts_held h.unique hr hb (hsame ▸ hheld) (by
      intro hchosen
      rw [hsame]
      apply hrelease
      rw [chosen, hu, Option.bind_some, hchosen, hplaced.id])
    exact ⟨a', ha', hplaced.trans hplaced', hheld'⟩

/-- A step at the end of which the client gets the token it was granted. -/
theorem Outcome.promote {e : Daemon} (replies : List Reply) (h : Outcome d op (e, []))
    (hc : findClnt e.clnts (about d op) = some c) :
    Outcome d op (e.setClnts (setToken (about d op) .granted e.clnts), replies) := by
  obtain ⟨hmem, hid⟩ := findClnt_some hc
  refine ⟨?_, ?_, ?_⟩
  · intro c' hc'
    obtain ⟨b, hb, hkept⟩ := forall₂_mem_right (setToken_kept _ _ e.clnts) hc'
    obtain ⟨a, ha, hplaced⟩ := h.origin b hb
    exact ⟨a, ha, hplaced.trans hkept.toPlaced⟩
  · intro a ha hheld hyields hrelease
    obtain ⟨b, hb, hplaced, hbheld⟩ := h.held a ha hheld hyields hrelease
    obtain ⟨a', ha', hplaced', hheld'⟩ := setToken_held (about d op) hb hbheld (t := .granted)
      fun _ => Or.inl rfl
    exact ⟨a', ha', hplaced.trans hplaced', hheld'⟩
  · intro _ _ _
    obtain ⟨c', hc', hplaced, ⟨-, htoken⟩ | ⟨hne, -⟩⟩ :=
      setToken_client (about d op) .granted hmem
    · exact ⟨c', hc', hplaced.id.trans hid, Or.inl htoken⟩
    · exact absurd hid hne

end

theorem close_outcome {d : Daemon} {op : Op} (hunique : DistinctIds d.clnts)
    (hyields : yields d op = some req.id) (hupdate : stepUpdate d op = closeUpdate d req env)
    (hclose : closeConnection d req env = some r.1) (hnil : r.2 = []) : Outcome d op r := by
  have hfollows : Follows d op (servicesAfter d req env).clnts := .of_removal hunique hyields
  have hreplies : ∀ reply ∈ r.2, grants reply ≠ true := by
    rw [hnil]
    exact fun _ hmem => absurd hmem List.not_mem_nil
  rw [closeConnection] at hclose
  split at hclose
  · rename_i hcapture
    rw [closeUpdate, if_pos hcapture] at hupdate
    exact .of_update hupdate hfollows (channelUpdate_parts hclose).1 hreplies
  · apply Outcome.of_follows _ hreplies
    rw [← Option.some.inj hclose]
    exact hfollows

theorem messageUpdate_refused {d : Daemon} (env : Env) (habout : aboutToken req msg ≠ true)
    (hrefused : accepts req msg = false) :
    messageUpdate d req msg env = closeUpdate d req env := by
  unfold messageUpdate
  rw [if_neg habout, hrefused]
  rfl

theorem message_outcome {d : Daemon} (hunique : DistinctIds d.clnts) {id : Nat}
    (hfind : findClnt d.clnts id = some req) (hr : handleMessage d req msg env = some r) :
    Outcome d (.message id msg env) r := by
  obtain ⟨hreq, hid⟩ := findClnt_some hfind
  have hupdate : stepUpdate d (.message id msg env) = messageUpdate d req msg env := by
    rw [stepUpdate, hfind, Option.bind_some]
  have hyields : yields d (.message id msg env) =
      if !accepts req msg || (aboutToken req msg && givesUp msg) then some req.id else none := by
    rw [yields, hfind, Option.bind_some, hid]
  rcases handleMessage_parts hr with ⟨hopen, htake⟩ | ⟨hrefused, hnil, hclose⟩
  · cases habout : aboutToken req msg with
    | false =>
      obtain ⟨d', replies, htake', hquiet, -, -, hcnf⟩ := takeMessage_quiet (d := d) env habout
      have heq := Option.some.inj (htake'.symm.trans htake)
      obtain rfl := congrArg Prod.fst heq
      obtain rfl := congrArg (fun p => p.2.2) heq
      exact .of_follows (.of_quiet hunique hquiet) fun _ hmem => no_grants hcnf hmem
    | true =>
      rw [hopen, habout, Bool.not_true, Bool.false_or, Bool.true_and] at hyields
      obtain ⟨chnPrio, chnProfile, rfl, htoken⟩ | ⟨flags, rfl, htoken⟩ | ⟨rfl, -, htoken⟩ :=
        takeMessage_token (d := d) env habout
      · rw [htoken] at htake
        rw [messageUpdate, if_pos habout] at hupdate
        obtain ⟨e, he, heq⟩ := Option.map_eq_some_iff.mp htake
        have hfollows := Follows.of_modify hunique hreq
          (f := fun c => c.request chnPrio chnProfile) (fun _ => ⟨rfl, rfl⟩) (Or.inl hyields)
        have hbase : Outcome d (.message id (.chnTokenReq chnPrio chnProfile) env) (e, []) :=
          .of_update hupdate hfollows (channelUpdate_parts he).1
            fun _ hmem => absurd hmem List.not_mem_nil
        split at heq
        · rename_i hgrant
          obtain ⟨c, hc, -⟩ := Option.map_eq_some_iff.mp hgrant
          rw [hid] at heq hc
          obtain ⟨hfst, hsnd⟩ := Prod.mk.inj heq
          have hpromoted := hbase.promote r.2 hc
          rw [about, hfst] at hpromoted
          exact hpromoted
        · obtain ⟨hfst, hsnd⟩ := Prod.mk.inj heq
          have hreplies := (Prod.mk.inj hsnd).2
          refine .of_update hupdate hfollows ?_ ?_
          · rw [← hfst]
            exact (channelUpdate_parts he).1
          · rw [← hreplies]
            intro reply hmem
            rw [List.mem_singleton.mp hmem]
            exact nofun
      · rw [htoken] at htake
        rw [messageUpdate, if_pos habout] at hupdate
        have hkeeps : yields d (.message id (.chnNotifyReq flags) env) = some req.id ∨
            (req.notify flags).token = req.token := by
          cases hgives : givesUp (.chnNotifyReq flags) with
          | true =>
            rw [hgives] at hyields
            exact Or.inl hyields
          | false =>
            rw [givesUp, Bool.or_eq_false_iff] at hgives
            right
            rw [notify_token, hgives.1, hgives.2]
            rfl
        have hfollows := Follows.of_modify hunique hreq (notify_placed flags) hkeeps
        have hcnf : ∀ reply ∈ [Reply.cnf], grants reply ≠ true := by
          intro reply hmem
          rw [List.mem_singleton.mp hmem]
          exact nofun
        split at htake
        · rename_i hupdates
          rw [if_pos hupdates] at hupdate
          obtain ⟨e, he, heq⟩ := Option.map_eq_some_iff.mp htake
          obtain ⟨rfl, hsnd⟩ := Prod.mk.inj heq
          refine .of_update hupdate hfollows (channelUpdate_parts he).1 ?_
          rw [← (Prod.mk.inj hsnd).2]
          exact hcnf
        · obtain ⟨hfst, hsnd⟩ := Prod.mk.inj (Option.some.inj htake)
          apply Outcome.of_follows
          · rw [← hfst]
            exact hfollows
          · rw [← (Prod.mk.inj hsnd).2]
            exact hcnf
      · rw [htoken] at htake
        replace hupdate := hupdate.trans (if_pos habout)
        obtain ⟨e, he, heq⟩ := Option.map_eq_some_iff.mp htake
        obtain ⟨rfl, hsnd⟩ := Prod.mk.inj heq
        have hfollows := Follows.of_modify hunique hreq
          (f := fun c => c.setChn fun s => s.setToken .none) (fun _ => ⟨rfl, rfl⟩) (Or.inl hyields)
        refine .of_update hupdate hfollows (channelUpdate_parts he).1 ?_
        rw [← (Prod.mk.inj hsnd).2]
        exact fun _ hmem => absurd hmem List.not_mem_nil
  · have habout : aboutToken req msg ≠ true := by
      intro habout
      rw [aboutToken_accepts habout] at hrefused
      cases hrefused
    rw [messageUpdate_refused env habout hrefused] at hupdate
    rw [hrefused] at hyields
    exact close_outcome hunique hyields hupdate hclose hnil

/-- What a step keeps, but for a new client. -/
theorem step_outcome {d : Daemon} (hunique : DistinctIds d.clnts) {op : Op}
    (hop : ∀ dev, op ≠ .accept dev) (hr : step d op = some r) : Outcome d op r := by
  have hsame : Follows d op d.clnts := .of_quiet hunique (quiet_refl d.clnts)
  cases op with
  | accept dev => exact absurd rfl (hop dev)
  | message id msg env =>
    rw [step] at hr
    cases hfind : findClnt d.clnts id with
    | none =>
      rw [hfind] at hr
      obtain rfl := Option.some.inj hr
      exact .of_follows hsame fun _ hmem => absurd hmem List.not_mem_nil
    | some req =>
      rw [hfind] at hr
      exact message_outcome hunique hfind hr
  | disconnect id env =>
    rw [step] at hr
    cases hfind : findClnt d.clnts id with
    | none =>
      rw [hfind] at hr
      obtain rfl := Option.some.inj hr
      exact .of_follows hsame fun _ hmem => absurd hmem List.not_mem_nil
    | some req =>
      rw [hfind] at hr
      obtain ⟨d', hd', rfl⟩ := Option.map_eq_some_iff.mp hr
      refine close_outcome hunique ?_ ?_ hd' rfl
      · rw [yields, (findClnt_some hfind).2]
      · rw [stepUpdate, hfind, Option.bind_some]
  | transmit id =>
    rw [step] at hr
    cases hfind : findClnt d.clnts id with
    | none =>
      rw [hfind] at hr
      obtain rfl := Option.some.inj hr
      exact .of_follows hsame fun _ hmem => absurd hmem List.not_mem_nil
    | some req =>
      rw [hfind] at hr
      obtain rfl := Option.some.inj hr
      obtain ⟨hreq, rfl⟩ := findClnt_some hfind
      rw [transmitToken]
      split
      · refine ⟨?_, ?_, ?_⟩
        · intro c' hc'
          obtain ⟨c, hc, hkept⟩ := forall₂_mem_right (setToken_kept _ _ d.clnts) hc'
          exact ⟨c, hc, hkept.toPlaced⟩
        · intro a ha hheld _ _
          exact setToken_held req.id ha hheld fun _ => Or.inr (Or.inr rfl)
        · intro reply hmem hgrants
          obtain rfl := List.mem_singleton.mp hmem
          cases hgrants
      · split
        · exact (Outcome.of_follows (r := (d, [])) hsame fun _ hmem => absurd hmem List.not_mem_nil).promote _ hfind
        · exact .of_follows hsame fun _ hmem => absurd hmem List.not_mem_nil
  | timer dev now =>
    rw [step, channelTimer] at hr
    obtain ⟨d', hd', rfl⟩ := Option.map_eq_some_iff.mp hr
    split at hd'
    · rename_i hdue
      refine .of_update (u := ⟨d.clnts, dev, false, now⟩) (if_pos hdue) hsame
        (channelUpdate_parts hd').1 fun _ hmem => absurd hmem List.not_mem_nil
    · obtain rfl := Option.some.inj hd'
      exact .of_follows hsame fun _ hmem => absurd hmem List.not_mem_nil

/-- The daemon knows each client which holds the token, or will. -/
structure Consistent (s : System) : Prop where
  sound : Sound Assigned s.daemon
  placed : ∀ c ∈ s.daemon.clnts, (s.endpoint c.id).devIdx = c.devIdx
  held : ∀ id, (s.endpoint id).live = true → ∃ c ∈ s.daemon.clnts, c.id = id ∧ Held c.token

theorem change_endpoint (s : System) (id : Nat) (f : Endpoint → Endpoint) (i : Nat) :
    (s.change id f).endpoint i = if i = id then f (s.endpoint i) else s.endpoint i := rfl

/-- What a client does alone. -/
theorem Consistent.change (h : Consistent s) (id : Nat) {f : Endpoint → Endpoint}
    (hdev : ∀ e, (f e).devIdx = e.devIdx)
    (hlive : (f (s.endpoint id)).live = true → (s.endpoint id).live = true) :
    Consistent (s.change id f) := by
  refine ⟨h.sound, ?_, ?_⟩
  · intro c hc
    rw [change_endpoint]
    split
    · exact (hdev _).trans (h.placed c hc)
    · exact h.placed c hc
  · intro i hi
    rw [change_endpoint] at hi
    split at hi
    · rename_i hid
      rw [hid] at hi ⊢
      exact h.held id (hlive hi)
    · exact h.held i hi

theorem send_live (h : (e.send msg).live = true) : e.live = true := by
  rw [Endpoint.live, Bool.or_eq_true] at h ⊢
  rcases h with h | h
  · exact Or.inl (Bool.and_eq_true_iff.mp h).1
  · exact Or.inr h

theorem receive_live (hopen : e.closed = false) (h : e.receive.live = true) :
    e.live = true := by
  rw [Endpoint.receive] at h
  cases hinbox : e.inbox with
  | nil =>
    rw [hinbox] at h
    exact h
  | cons reply rest =>
    rw [hinbox] at h
    rw [Endpoint.live, Bool.or_eq_true, Bool.or_eq_true] at h
    rw [Endpoint.live, hinbox, hopen, List.any_cons]
    rcases h with (h | h) | h
    · rw [h]
      rfl
    · rw [h]
      exact Bool.or_true _
    · have hany : rest.any grants = true := (Bool.and_eq_true_iff.mp h).2
      rw [hany, Bool.or_true]
      exact Bool.or_true _

theorem post_live (h : (e.post replies).live = true) :
    e.live = true ∨ ∃ reply ∈ replies, grants reply = true := by
  rw [Endpoint.live, Bool.or_eq_true] at h
  rw [Endpoint.live, Bool.or_eq_true]
  rcases h with h | h
  · exact Or.inl (Or.inl h)
  · obtain ⟨hopen, hany⟩ := Bool.and_eq_true_iff.mp h
    dsimp only [Endpoint.post] at hopen hany
    rw [List.any_append, Bool.or_eq_true] at hany
    rcases hany with hany | hany
    · left
      right
      rw [hopen, hany]
      rfl
    · exact Or.inr (List.any_eq_true.mp hany)

/-- A step of the daemon, if no client which holds the token loses it. -/
theorem Consistent.react (h : Consistent s) {op : Op} (hop : ∀ dev, op ≠ .accept dev)
    (hyields : ∀ id, yields s.daemon op = some id → (s.endpoint id).live = false)
    (hchosen : ∀ c ∈ s.daemon.clnts, chosen s.daemon op = some c.id → c.token = .release →
      (s.endpoint c.id).live = false)
    (hs : s.react (about s.daemon op) op = some s') : Consistent s' := by
  obtain ⟨r, hr, rfl⟩ := Option.map_eq_some_iff.mp hs
  have hout := step_outcome h.sound.unique hop hr
  refine ⟨step_sound assigned_kind h.sound (fun hreturned => absurd rfl hreturned.2) hr, ?_, ?_⟩
  · intro c' hc'
    obtain ⟨c, hc, hplaced⟩ := hout.origin c' hc'
    dsimp only
    rw [change_endpoint, hplaced.id, hplaced.devIdx]
    split
    · exact h.placed c hc
    · exact h.placed c hc
  · intro i hi
    have hkept : (s.endpoint i).live = true → ∃ c ∈ r.1.clnts, c.id = i ∧ Held c.token := by
      intro hlive
      obtain ⟨c, hc, rfl, hheld⟩ := h.held i hlive
      obtain ⟨c', hc', hplaced, hheld'⟩ := hout.held c hc hheld
        (fun hy => by
          rw [hyields c.id hy] at hlive
          cases hlive)
        (fun hch hrelease => by
          rw [hchosen c hc hch hrelease] at hlive
          cases hlive)
      exact ⟨c', hc', hplaced.id, hheld'⟩
    dsimp only at hi
    rw [change_endpoint] at hi
    split at hi
    · rename_i hid
      rcases post_live hi with hlive | ⟨reply, hmem, hgrants⟩
      · exact hkept hlive
      · rw [hid]
        exact hout.granted reply hmem hgrants
    · exact hkept hi

theorem Consistent.accept (h : Consistent s) (hs : s.step (.accept dev) = some s') :
    Consistent s' := by
  rw [System.step, System.react] at hs
  obtain ⟨r, hr, rfl⟩ := Option.map_eq_some_iff.mp hs
  obtain rfl := Option.some.inj hr
  have hold : ∀ i, i ≠ s.daemon.nextId →
      (((s.change s.daemon.nextId fun _ => ⟨dev, false, false, [], []⟩).change s.daemon.nextId
        fun e => e.post []).endpoint i) = s.endpoint i := by
    intro i hi
    rw [change_endpoint, if_neg hi, change_endpoint, if_neg hi]
  have hnew : (((s.change s.daemon.nextId fun _ => ⟨dev, false, false, [], []⟩).change
      s.daemon.nextId fun e => e.post []).endpoint s.daemon.nextId) =
        ⟨dev, false, false, [], []⟩ := by
    rw [change_endpoint, if_pos rfl, change_endpoint, if_pos rfl]
    rfl
  refine ⟨h.sound.add assigned_kind dev, ?_, ?_⟩
  · intro c hc
    rcases List.mem_append.mp hc with hc | hc
    · dsimp only
      rw [hold c.id (Nat.ne_of_lt (h.sound.fresh c hc))]
      exact h.placed c hc
    · obtain rfl := List.mem_singleton.mp hc
      exact congrArg Endpoint.devIdx hnew
  · intro i hi
    dsimp only at hi
    by_cases hid : i = s.daemon.nextId
    · rw [hid, hnew] at hi
      cases hi
    · rw [hold i hid] at hi
      obtain ⟨c, hc, hcid, hheld⟩ := h.held i hi
      exact ⟨c, List.mem_append_left _ hc, hcid, hheld⟩

theorem orderly_op {e : Event} (h : orderly s e = true) {op : Op} (hop : s.op e = some op) :
    (∀ id, yields s.daemon op = some id → (s.endpoint id).live = false) ∧
    ∀ c ∈ s.daemon.clnts, chosen s.daemon op = some c.id → c.token = .release →
      (s.endpoint c.id).live = false := by
  rw [orderly, hop, Option.all_some, Bool.and_eq_true] at h
  constructor
  · intro id hid
    have hall := h.1
    rw [hid, Option.all_some, Bool.not_eq_true'] at hall
    exact hall
  · intro c hc hchosen hrelease
    have hall := List.all_eq_true.mp h.2 c hc
    rw [decide_eq_true hchosen, decide_eq_true hrelease, Bool.true_and, Bool.true_and,
      Bool.not_eq_true'] at hall
    exact hall

theorem Consistent.step (h : Consistent s) {e : Event} (hok : orderly s e = true)
    (hs : s.step e = some s') : Consistent s' := by
  cases e with
  | accept dev => exact h.accept hs
  | send id msg =>
    obtain rfl := Option.some.inj hs
    split
    · exact h.change id (fun _ => rfl) send_live
    · exact h
  | receive id =>
    obtain rfl := Option.some.inj hs
    split
    · exact h
    · rename_i hopen
      refine h.change id ?_ (receive_live (Bool.eq_false_iff.mpr hopen))
      intro e
      rw [Endpoint.receive]
      split
      · rfl
      · rfl
  | close id =>
    obtain rfl := Option.some.inj hs
    exact h.change id (fun _ => rfl) nofun
  | deliver id env =>
    rw [System.step] at hs
    cases houtbox : (s.endpoint id).outbox with
    | nil =>
      rw [houtbox] at hs
      obtain rfl := Option.some.inj hs
      exact h
    | cons msg rest =>
      rw [houtbox] at hs
      have hop : s.op (.deliver id env) = some (.message id msg env) := by
        rw [System.op, houtbox]
        rfl
      obtain ⟨hyields, hchosen⟩ := orderly_op hok hop
      have hlive : ∀ i, ((s.change id Endpoint.take).endpoint i).live = (s.endpoint i).live := by
        intro i
        rw [change_endpoint]
        split
        · rfl
        · rfl
      have htaken : Consistent (s.change id Endpoint.take) :=
        h.change id (fun _ => rfl) fun hl => hl
      have hs' : (s.change id Endpoint.take).react (about s.daemon (.message id msg env))
          (.message id msg env) = some s' := hs
      refine htaken.react (by rintro _ ⟨⟩) ?_ ?_ hs'
      · intro i hi
        rw [hlive]
        exact hyields i hi
      · intro c hc hch hrelease
        rw [hlive]
        exact hchosen c hc hch hrelease
  | disconnect id env =>
    obtain ⟨hyields, hchosen⟩ := orderly_op hok rfl
    exact h.react (by rintro _ ⟨⟩) hyields hchosen hs
  | transmit id =>
    obtain ⟨hyields, hchosen⟩ := orderly_op hok rfl
    exact h.react (by rintro _ ⟨⟩) hyields hchosen hs
  | timer dev now =>
    obtain ⟨hyields, hchosen⟩ := orderly_op hok rfl
    exact h.react (by rintro _ ⟨⟩) hyields hchosen hs

/-- In a run of orderly events no two clients of a device hold the token. -/
theorem exclusion {events : List Event}
    (h : GuardedRuns.Permitted System.step (fun s e => orderly s e = true) start events) {s : System}
    (hs : GuardedRuns.run System.step start events = some s) (i j : Nat)
    (hdev : (s.endpoint i).devIdx = (s.endpoint j).devIdx) (hi : (s.endpoint i).holds = true)
    (hj : (s.endpoint j).holds = true) : i = j := by
  have hstart : Consistent start :=
    ⟨initial_sound, fun _ hc => (nomatch hc), fun _ hlive => (nomatch hlive)⟩
  have hinv := GuardedRuns.run_invariant Consistent
    (fun s e t hinv hok ht => hinv.step hok ht) hstart h hs
  have hlive : ∀ k, (s.endpoint k).holds = true → (s.endpoint k).live = true := by
    intro k hk
    rw [Endpoint.live, hk]
    rfl
  obtain ⟨a, ha, rfl, hheld⟩ := hinv.held i (hlive i hi)
  obtain ⟨b, hb, rfl, hheld'⟩ := hinv.held j (hlive j hj)
  apply hinv.sound.sole a ha b hb (assigned_of_held hheld) (assigned_of_held hheld')
  rw [← hinv.placed a ha, ← hinv.placed b hb]
  exact hdev

def running : Env := ⟨0, false, true, true, fun _ => 1⟩

/-- Two clients ask for the token, which the first one gets. -/
def firstGranted : List Event :=
  [.accept 0, .accept 0, .send 0 (.connectReq true), .deliver 0 running,
    .send 1 (.connectReq true), .deliver 1 running, .send 0 (.chnTokenReq 1 ⟨true, 0, 10⟩),
    .send 1 (.chnTokenReq 1 ⟨true, 0, 10⟩), .deliver 1 running, .deliver 0 running, .receive 0,
    .receive 0]

theorem exclusion_first :
    ∃ s, GuardedRuns.run System.step start firstGranted = some s ∧ (s.endpoint 0).holds = true ∧
      ∀ i, (s.endpoint i).devIdx = (s.endpoint 0).devIdx → (s.endpoint i).holds = true → i = 0 := by
  have hpermitted : GuardedRuns.Permitted System.step (fun s e => orderly s e = true) start
      firstGranted := by decide
  have hholds : (GuardedRuns.run System.step start firstGranted).map (fun s =>
      (s.endpoint 0).holds) = some true := by decide
  obtain ⟨s, hrun, hs⟩ := Option.map_eq_some_iff.mp hholds
  exact ⟨s, hrun, hs, fun i hdev hi => exclusion hpermitted hrun i 0 hdev hi hs⟩

/-- The second client notifies the daemon of a return while the grant is on its way to it,
and the first client asks for the token again. -/
def crossing : List Event :=
  [.send 1 (.chnNotifyReq ⟨false, true, false, false, false⟩),
    .send 0 (.chnNotifyReq ⟨true, false, false, false, false⟩), .deliver 0 running, .transmit 1,
    .deliver 1 running, .receive 1, .receive 1, .receive 1,
    .send 0 (.chnTokenReq 1 ⟨true, 1, 10⟩), .deliver 0 running, .receive 0, .receive 0]

/-- Then both clients hold the token. -/
theorem two_holders :
    (GuardedRuns.run System.step start (firstGranted ++ crossing)).map (fun s =>
      decide ((s.endpoint 0).devIdx = (s.endpoint 1).devIdx) && (s.endpoint 0).holds &&
        (s.endpoint 1).holds) = some true := by
  decide

end ProxyChannels

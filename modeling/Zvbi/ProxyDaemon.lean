import Mathlib.Data.List.Forall2

/-!
# Channel control of the proxy daemon

Clients ask the daemon for the right to switch the channel of a capture device. The
right is a token, and a client has a token state. A scheduler chooses between clients
of background priority. A step is a connection, a message, the transmission of a
pending message, a timer or a lost connection. It has no result if an assertion fails.
-/

namespace ProxyDaemon

/-- `REQ_TOKEN_STATE`. -/
inductive TokenState
  | none
  | reclaim
  | release
  | grant
  | granted
  | returned
  deriving DecidableEq

/-- `REQ_CONTROLS_CHN`. -/
def TokenState.controlsChn : TokenState → Bool
  | .granted => true
  | .returned => true
  | _ => false

/-- `VBIPROXY_CHN_STATE`. -/
structure ChnState where
  tokenState : TokenState
  isCompleted : Bool
  cycleCount : Int
  lastStart : Int
  lastDuration : Int

/-- The fields of `vbi_channel_profile` which the scheduler uses. -/
structure ChnProfile where
  isValid : Bool
  subPrio : Nat
  minDuration : Int

/-- `REQ_STATE`. Closed connections are removed at once. -/
inductive ReqState
  | waitConReq
  | waitClose
  | forward
  deriving DecidableEq

/-- `VBI_CHN_PRIO`, where messages can have other values. -/
def vbiChnPrioBackground : Int := 1
def vbiChnPrioInteractive : Int := 2

/-- `PROXY_CLNT`. -/
structure Clnt where
  id : Nat
  devIdx : Nat
  state : ReqState
  allServices : Nat
  chnProfile : ChnProfile
  chnState : ChnState
  chnPrio : Int

/-- `PROXY_DEV`. -/
structure Dev where
  capture : Bool
  chnPrio : Int

/-- `PROXY_SRV`, and the next identifier of a client. -/
structure Daemon where
  clnts : List Clnt
  dev : Nat → Dev
  nextId : Nat

def Clnt.token (c : Clnt) : TokenState := c.chnState.tokenState

def Clnt.controls (c : Clnt) : Bool := c.token.controlsChn

def Clnt.on (dev : Nat) (c : Clnt) : Bool := c.devIdx = dev

/-- A client of a device with a token state other than none. -/
def Clnt.owns (dev : Nat) (c : Clnt) : Bool := c.devIdx = dev && c.token ≠ .none

def Clnt.setChn (c : Clnt) (f : ChnState → ChnState) : Clnt := { c with chnState := f c.chnState }

def ChnState.setToken (s : ChnState) (t : TokenState) : ChnState := { s with tokenState := t }

def setChn (id : Nat) (f : ChnState → ChnState) (clnts : List Clnt) : List Clnt :=
  clnts.map fun c => if c.id = id then c.setChn f else c

def setToken (id : Nat) (t : TokenState) (clnts : List Clnt) : List Clnt :=
  setChn id (fun s => s.setToken t) clnts

def findClnt (clnts : List Clnt) (id : Nat) : Option Clnt := clnts.find? fun c => c.id = id

def nextOwner (dev : Nat) (owner : Option Clnt) (c : Clnt) : Option (Option Clnt) :=
  if c.owns dev then
    match owner with
    | none => some (some c)
    | some _ => none
  else
    some owner

/-- `vbi_proxyd_get_token_owner()`. -/
def getTokenOwner (clnts : List Clnt) (dev : Nat) : Option (Option Clnt) :=
  clnts.foldlM (nextOwner dev) none

/-- `vbi_proxyd_token_grant()`. -/
def tokenGrant (clnts : List Clnt) (req : Clnt) : Option (List Clnt × Bool) :=
  match req.token with
  | .none =>
    (getTokenOwner clnts req.devIdx).map fun owner =>
      match owner with
      | none => (setToken req.id .grant clnts, true)
      | some p =>
        if p.token = .grant ∨ p.token = .returned then
          (setToken p.id .none (setToken req.id .grant clnts), true)
        else if p.token ≠ .release then
          (setToken p.id .reclaim clnts, false)
        else
          (clnts, false)
  | .grant => some (clnts, true)
  | .reclaim => some (setToken req.id .granted clnts, true)
  | .release => some (setToken req.id .grant clnts, true)
  | .granted => some (clnts, true)
  | .returned => some (clnts, true)

/-- The cycle counters of a device after one became `cycle`. -/
def levelCycles (req : Clnt) (cycle : Int) (clnts : List Clnt) : List Clnt :=
  if 2 < cycle then
    clnts.map fun c =>
      if c.on req.devIdx && decide (0 < c.chnState.cycleCount) then
        c.setChn fun s => { s with cycleCount := s.cycleCount - 1 }
      else
        c
  else if cycle = 1 ∧ (clnts.any fun c => c.on req.devIdx && decide (2 ≤ c.chnState.cycleCount)) then
    setChn req.id (fun s => { s with cycleCount := 2 }) clnts
  else
    clnts

/-- `vbi_proxyd_channel_completed()`. -/
def channelCompleted (clnts : List Clnt) (req : Clnt) (whence : Int) : Option (List Clnt) :=
  if req.controls then
    let cycle := req.chnState.cycleCount + 1
    some (levelCycles req cycle (setChn req.id (fun s =>
      { s with lastDuration := whence - s.lastStart, isCompleted := true, cycleCount := cycle })
      clnts))
  else
    none

def Clnt.expired (c : Clnt) (now : Int) : Bool :=
  !c.chnState.isCompleted && decide (c.chnProfile.minDuration ≤ now - c.chnState.lastStart)

def TokenState.stopped : TokenState → TokenState
  | .granted => .reclaim
  | _ => .none

/-- `vbi_proxyd_channel_stopped()`. -/
def channelStopped (clnts : List Clnt) (req : Clnt) (now : Int) : Option (List Clnt) :=
  if req.controls then
    let completed := if req.expired now then channelCompleted clnts req now else some clnts
    completed.map (setChn req.id fun s =>
      { s with isCompleted := false, tokenState := s.tokenState.stopped })
  else
    none

def Clnt.cycles (c : Clnt) : Int :=
  c.chnState.cycleCount + if c.controls && c.chnState.isCompleted then 1 else 0

/-- Client `c` is chosen before `s`, which comes first in the list. -/
def Clnt.wins (c s : Clnt) : Bool :=
  if c.cycles < s.cycles then true
  else if c.chnProfile.subPrio > s.chnProfile.subPrio then true
  else if c.chnProfile.subPrio = s.chnProfile.subPrio then
    if c.controls && !c.chnState.isCompleted then true
    else if s.controls && s.chnState.isCompleted then true
    else if !c.controls && !s.controls then
      decide (c.chnState.lastStart < s.chnState.lastStart) ||
        (decide (c.chnState.lastStart = s.chnState.lastStart) &&
          decide (c.chnProfile.minDuration < s.chnProfile.minDuration))
    else false
  else false

def Clnt.scheduled (dev : Nat) (c : Clnt) : Bool :=
  c.on dev && c.chnProfile.isValid && decide (c.chnPrio = vbiChnPrioBackground)

structure Schedule where
  clnts : List Clnt
  sched : Option Nat
  active : Option Nat

def scheduleClnt (dev : Nat) (now : Int) (r : Schedule) (id : Nat) : Option Schedule :=
  match findClnt r.clnts id with
  | none => some r
  | some c =>
    if c.scheduled dev then
      let completed :=
        if c.controls && c.expired now then channelCompleted r.clnts c now else some r.clnts
      completed.map fun clnts =>
        let walk := (findClnt clnts id).getD c
        let sched :=
          match r.sched.bind (findClnt clnts) with
          | none => id
          | some s => if walk.wins s then id else s.id
        ⟨clnts, some sched, if c.controls then some id else r.active⟩
    else
      some r

/-- `vbi_proxyd_channel_schedule()`. -/
def channelSchedule (clnts : List Clnt) (dev : Nat) (now : Int) :
    Option (List Clnt × Option Nat) :=
  ((clnts.map Clnt.id).foldlM (scheduleClnt dev now) ⟨clnts, none, none⟩).bind fun r =>
    match r.active.bind (findClnt r.clnts) with
    | some p =>
      if r.sched ≠ r.active then (channelStopped r.clnts p now).map fun clnts => (clnts, r.sched)
      else some (r.clnts, r.sched)
    | none => some (r.clnts, r.sched)

def stopClnt (dev : Nat) (now : Int) (clnts : List Clnt) (id : Nat) : Option (List Clnt) :=
  match findClnt clnts id with
  | none => some clnts
  | some c => if c.on dev && c.controls then channelStopped clnts c now else some clnts

def stopAll (clnts : List Clnt) (dev : Nat) (now : Int) : Option (List Clnt) :=
  (clnts.map Clnt.id).foldlM (stopClnt dev now) clnts

def maxChnPrio (clnts : List Clnt) (dev : Nat) : Int :=
  clnts.foldl (fun m c => if c.on dev && decide (m < c.chnPrio) then c.chnPrio else m)
    vbiChnPrioBackground

def grantScheduled (clnts : List Clnt) (sched : Option Nat) (now : Int) : Option (List Clnt) :=
  match sched.bind (findClnt clnts) with
  | none => some clnts
  | some c =>
    if c.controls then
      some clnts
    else
      (tokenGrant clnts c).map fun r =>
        if r.2 then
          setChn c.id (fun s => { s with isCompleted := false, lastDuration := 0, lastStart := now })
            r.1
        else
          r.1

/-- The clients and `p_sched` of `vbi_proxyd_channel_update()` before the grant. Without a
client of background priority the token is not granted. -/
def selectClnt (clnts : List Clnt) (dev : Nat) (forcedSwitch : Bool) (now : Int) :
    Option (List Clnt × Option Nat) :=
  let background : Bool := maxChnPrio clnts dev = vbiChnPrioBackground
  let stopped := if !background || forcedSwitch then stopAll clnts dev now else some clnts
  stopped.bind fun clnts =>
    if background then channelSchedule clnts dev now else some (clnts, none)

/-- The token changes of `vbi_proxyd_channel_update()`. -/
def updateClnts (clnts : List Clnt) (dev : Nat) (forcedSwitch : Bool) (now : Int) :
    Option (List Clnt) :=
  (selectClnt clnts dev forcedSwitch now).bind fun r => grantScheduled r.1 r.2 now

def Daemon.setClnts (d : Daemon) (clnts : List Clnt) : Daemon := { d with clnts := clnts }

def Daemon.setDev (d : Daemon) (dev : Nat) (v : Dev) : Daemon :=
  { d with dev := fun i => if i = dev then v else d.dev i }

/-- `vbi_proxyd_channel_update()`. -/
def channelUpdate (d : Daemon) (dev : Nat) (forcedSwitch : Bool) (now : Int) : Option Daemon :=
  (updateClnts d.clnts dev forcedSwitch now).map fun clnts =>
    (d.setClnts clnts).setDev dev ⟨(d.dev dev).capture, maxChnPrio d.clnts dev⟩

def timerDue (d : Daemon) (dev : Nat) (now : Int) : Bool :=
  decide ((d.dev dev).chnPrio = vbiChnPrioBackground) &&
    (d.clnts.any fun c => c.on dev && c.controls && c.expired now) &&
    decide (1 < (d.clnts.filter (Clnt.on dev)).length)

/-- A round of the loop over the devices in `vbi_proxyd_channel_timer()`. -/
def channelTimer (d : Daemon) (dev : Nat) (now : Int) : Option Daemon :=
  if timerDue d dev now then channelUpdate d dev false now else some d

/-- `VBI_PROXY_CHN_FLAGS` of a notification. -/
structure NotifyFlags where
  release : Bool
  token : Bool
  flush : Bool
  norm : Bool
  fail : Bool

inductive Msg
  | connectReq (compatible : Bool)
  | daemonPidReq
  | serviceReq
  | chnTokenReq (chnPrio : Int) (chnProfile : ChnProfile)
  | chnNotifyReq (flags : NotifyFlags)
  | chnSuspendReq
  | chnIoctlReq
  | chnReclaimCnf
  | closeReq
  | unexpected

inductive Reply
  | chnTokenCnf (tokenInd : Bool)
  | chnTokenInd
  | chnReclaimReq
  | cnf

/-- What the capture device did for an update of the services: if it was opened, if it
is open now, if the request was granted, and the services of each client. -/
structure Acquisition where
  started : Bool
  capture : Bool
  accepted : Bool
  services : Nat → Nat

structure Env where
  now : Int
  acq : Acquisition

def Clnt.setState (c : Clnt) (state : ReqState) : Clnt := { c with state := state }

def Clnt.setServices (c : Clnt) (services : Nat) : Clnt := { c with allServices := services }

def modifyClnt (id : Nat) (f : Clnt → Clnt) (clnts : List Clnt) : List Clnt :=
  clnts.map fun c => if c.id = id then f c else c

def Daemon.modify (d : Daemon) (id : Nat) (f : Clnt → Clnt) : Daemon :=
  d.setClnts (modifyClnt id f d.clnts)

/-- What the outcome of `vbi_proxyd_update_services()` changes here. -/
def updateServices (d : Daemon) (dev : Nat) (acq : Acquisition) : Daemon :=
  let prio := if acq.started then vbiChnPrioInteractive else (d.dev dev).chnPrio
  (d.setClnts (d.clnts.map fun c =>
    if c.on dev && decide (c.state = .forward) then c.setServices (acq.services c.id) else c)).setDev
    dev ⟨acq.capture, prio⟩

/-- `memset (&req->chn_state, 0)`. -/
def clearChnState : ChnState := ⟨.none, false, 0, 0, 0⟩

/-- The new priority and profile of a token request. -/
def Clnt.request (c : Clnt) (chnPrio : Int) (chnProfile : ChnProfile) : Clnt :=
  { c with chnPrio := chnPrio, chnProfile := chnProfile, chnState := clearChnState }

def Clnt.invalidate (c : Clnt) : Clnt :=
  { c with chnProfile := { c.chnProfile with isValid := false } }

def Clnt.notify (c : Clnt) (flags : NotifyFlags) : Clnt :=
  if flags.release then (c.setChn fun s => s.setToken .none).invalidate
  else if flags.token then c.setChn fun s => s.setToken .returned
  else c

def Clnt.notifyUpdates (c : Clnt) (flags : NotifyFlags) : Bool :=
  flags.flush || (if flags.release then decide (c.token ≠ .none) else flags.token)

/-- `vbi_proxyd_take_message()`: the daemon, whether the connection stays open, and the
answer to the client. -/
def takeMessage (d : Daemon) (req : Clnt) (msg : Msg) (env : Env) :
    Option (Daemon × Bool × List Reply) :=
  match msg with
  | .connectReq compatible =>
    if req.state = .waitConReq then
      if compatible then
        let d := updateServices (d.modify req.id fun c => c.setState .forward) req.devIdx env.acq
        if env.acq.accepted then some (d, true, [.cnf])
        else some (d.modify req.id fun c => c.setState .waitClose, true, [.cnf])
      else
        some (d.modify req.id fun c => c.setState .waitClose, true, [.cnf])
    else
      some (d, false, [])
  | .daemonPidReq =>
    if req.state = .waitConReq then
      some (d.modify req.id fun c => c.setState .waitClose, true, [.cnf])
    else
      some (d, false, [])
  | .serviceReq =>
    if req.state = .forward then some (updateServices d req.devIdx env.acq, true, [.cnf])
    else some (d, false, [])
  | .chnTokenReq chnPrio chnProfile =>
    if req.state = .forward then
      let d := d.modify req.id fun c => c.request chnPrio chnProfile
      (channelUpdate d req.devIdx false env.now).map fun d =>
        if ((findClnt d.clnts req.id).map Clnt.token) = some .grant then
          (d.setClnts (setToken req.id .granted d.clnts), true, [.chnTokenCnf true])
        else
          (d, true, [.chnTokenCnf false])
    else
      some (d, false, [])
  | .chnNotifyReq flags =>
    if req.state = .forward then
      let notified := d.modify req.id fun c => c.notify flags
      if req.notifyUpdates flags then
        (channelUpdate notified req.devIdx (flags.flush && !req.controls) env.now).map fun d =>
          (d, true, [.cnf])
      else
        some (notified, true, [.cnf])
    else
      some (d, false, [])
  | .chnSuspendReq => some (d, true, [.cnf])
  | .chnIoctlReq =>
    if req.state = .forward then
      if (d.dev req.devIdx).capture then
        some (d, true, [.cnf])
      else
        -- The device is opened for the request and closed again.
        some (d.setDev req.devIdx ⟨false, if env.acq.started then vbiChnPrioInteractive
          else (d.dev req.devIdx).chnPrio⟩, true, [.cnf])
    else
      some (d, false, [])
  | .chnReclaimCnf =>
    if req.token = .release then
      (channelUpdate (d.modify req.id fun c => c.setChn fun s => s.setToken .none) req.devIdx false
        env.now).map fun d => (d, true, [])
    else
      some (d, true, [])
  | .closeReq => some (d, false, [])
  | .unexpected => some (d, false, [])

inductive Op
  | accept (dev : Nat)
  | message (id : Nat) (msg : Msg) (env : Env)
  | disconnect (id : Nat) (env : Env)
  | transmit (id : Nat)
  | timer (dev : Nat) (now : Int)

/-- `vbi_proxyd_add_connection()`. -/
def addConnection (d : Daemon) (dev : Nat) : Daemon :=
  { d with
    clnts := d.clnts ++ [⟨d.nextId, dev, .waitConReq, 0, ⟨false, 0, 0⟩, clearChnState,
      vbiChnPrioInteractive⟩]
    nextId := d.nextId + 1 }

def removeClnt (d : Daemon) (id : Nat) : Daemon :=
  d.setClnts (d.clnts.filter fun c => c.id ≠ id)

def servicesAfter (d : Daemon) (req : Clnt) (env : Env) : Daemon :=
  if req.allServices ≠ 0 then updateServices (removeClnt d req.id) req.devIdx env.acq
  else removeClnt d req.id

def closeConnection (d : Daemon) (req : Clnt) (env : Env) : Option Daemon :=
  let d := servicesAfter d req env
  if (d.dev req.devIdx).capture then channelUpdate d req.devIdx false env.now else some d

def transmitToken (d : Daemon) (req : Clnt) : Daemon × List Reply :=
  if req.token = .reclaim then
    (d.setClnts (setToken req.id .release d.clnts), [.chnReclaimReq])
  else if req.token = .grant then
    (d.setClnts (setToken req.id .granted d.clnts), [.chnTokenInd])
  else
    (d, [])

def handleMessage (d : Daemon) (req : Clnt) (msg : Msg) (env : Env) :
    Option (Daemon × List Reply) :=
  (takeMessage d req msg env).bind fun r =>
    if r.2.1 then some (r.1, r.2.2) else (closeConnection r.1 req env).map fun d => (d, [])

/-- A step of the daemon, and what it sends to the client it is about. -/
def step (d : Daemon) (op : Op) : Option (Daemon × List Reply) :=
  match op with
  | .accept dev => some (addConnection d dev, [])
  | .message id msg env =>
    match findClnt d.clnts id with
    | none => some (d, [])
    | some req => handleMessage d req msg env
  | .disconnect id env =>
    match findClnt d.clnts id with
    | none => some (d, [])
    | some req => (closeConnection d req env).map fun d => (d, [])
  | .transmit id =>
    match findClnt d.clnts id with
    | none => some (d, [])
    | some req => some (transmitToken d req)
  | .timer dev now => (channelTimer d dev now).map fun d => (d, [])

def next (d : Daemon) (op : Op) : Option Daemon := (step d op).map Prod.fst

def initial : Daemon := ⟨[], fun _ => ⟨false, 0⟩, 0⟩

end ProxyDaemon

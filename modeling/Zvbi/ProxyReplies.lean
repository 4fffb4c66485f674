import Mathlib.Data.List.Basic
import Zvbi.ProxyDaemon

/-!
# Replies of the proxy daemon and the end of a connection

In each pass over its clients the daemon reads a message of a client or writes a part
of a pending message, queues indications and frames when nothing is pending, and
closes connections. A pass over one client is modelled with all which it does to the
connection. What the other clients, the device and the kernel do is its input.
-/

namespace ProxyReplies
open ProxyDaemon (TokenState)

/-- `VBIPROXY_MSG_TYPE`, those the daemon sends. -/
inductive MsgType
  | connectCnf
  | connectRej
  | slicedInd
  | serviceCnf
  | serviceRej
  | chnTokenCnf
  | chnTokenInd
  | chnNotifyCnf
  | chnReclaimReq
  | chnSuspendRej
  | chnIoctlCnf
  | chnIoctlRej
  | chnChangeInd
  | daemonPidCnf
  deriving DecidableEq

def MsgType.isReply : MsgType → Bool
  | .slicedInd => false
  | .chnTokenInd => false
  | .chnReclaimReq => false
  | .chnChangeInd => false
  | _ => true

structure Msg where
  type : MsgType
  len : Nat

/-- `sizeof(VBIPROXY_MSG_HEADER)`. -/
def headerSize : Nat := 8

/-- The write side of `VBIPROXY_MSG_STATE`. Nothing is written while `writeLen` is 0. -/
structure MsgState where
  writeBuf : Option Msg
  writeOff : Nat
  lastIoTime : Int

inductive ReqState
  | waitConReq
  | waitClose
  | forward
  | closed
  deriving DecidableEq

/-- Why a connection was closed: an error or the end of the socket, a request of the
client, or another reason of the daemon. -/
inductive Cause
  | socket
  | request
  | daemon
  deriving DecidableEq

/-- `PROXY_CLNT`, with the frames of its queue given by the length of their message.
The last three fields are a history: the messages queued, those which were sent
completely, and why the connection was closed. -/
structure Clnt where
  state : ReqState
  token : TokenState
  chnStatusInd : Bool
  sliced : List Nat
  noTimeouts : Bool
  io : MsgState
  queued : List Msg
  sent : List Msg
  cause : Option Cause

/-- `vbi_proxyd_add_connection()`. -/
def addConnection (now : Int) : Clnt :=
  ⟨.waitConReq, .none, false, [], false, ⟨none, 0, now⟩, [], [], none⟩

/-- `vbi_proxyd_close()`. -/
def close (cause : Cause) (req : Clnt) : Clnt :=
  if req.state = .closed then
    req
  else
    { req with state := .closed, sliced := [], cause := some cause }

/-- `vbi_proxy_msg_write()`, with the assertion that no message is pending. -/
def msgWrite (now : Int) (type : MsgType) (msgLen : Nat) (req : Clnt) : Option Clnt :=
  if req.io.writeBuf.isNone then
    some { req with
      io := ⟨some ⟨type, headerSize + msgLen⟩, 0, now⟩
      queued := req.queued ++ [⟨type, headerSize + msgLen⟩] }
  else
    none

/-- What `send()` returns: `n + 1` bytes, `EAGAIN`, `EINTR`, zero or an error. -/
inductive Send
  | accepted (n : Nat)
  | again
  | interrupted
  | zero
  | error
  deriving DecidableEq

structure Written where
  req : Clnt
  result : Bool
  blocked : Bool

def advance (now : Int) (m : Msg) (len : Nat) (req : Clnt) : Written :=
  if m.len ≤ req.io.writeOff + len then
    ⟨{ req with io := ⟨none, req.io.writeOff + len, now⟩, sent := req.sent ++ [m] }, true, false⟩
  else
    ⟨{ req with io := ⟨some m, req.io.writeOff + len, now⟩ }, true, true⟩

/-- The result of `send()` for the rest of a message. -/
def writePart (now : Int) (m : Msg) (req : Clnt) : Send → Written
  | .accepted n => advance now m (min (n + 1) (m.len - req.io.writeOff)) req
  | .again => ⟨req, true, true⟩
  | .interrupted => ⟨req, true, false⟩
  | .zero => ⟨req, true, true⟩
  | .error => ⟨req, false, false⟩

/-- `vbi_proxy_msg_handle_write()`, with the assertions that a message is pending and
not complete. -/
def handleWrite (now : Int) (send : Send) (req : Clnt) : Option Written :=
  req.io.writeBuf.bind fun m =>
    if req.io.writeOff < m.len then some (writePart now m req send) else none

/-- The messages of a client, with what the daemon uses of them. The last one is a
message which only a client expects. -/
inductive Request
  | connectReq (compatible noTimeouts : Bool)
  | daemonPidReq
  | serviceReq
  | chnTokenReq
  | chnNotifyReq
  | chnSuspendReq
  | chnIoctlReq (cnfSize : Nat)
  | chnReclaimCnf
  | closeReq
  | other

/-- What the device and the scheduler make of a message: whether the services or the
device control succeed, and the token of the client afterwards. -/
structure Env where
  serviceOk : Bool
  ioctlOk : Bool
  token : TokenState

variable (bodySize : MsgType → Nat)

def reply (now : Int) (type : MsgType) (req : Clnt) : Option (Clnt × Bool) :=
  (msgWrite now type (bodySize type) req).map fun req => (req, true)

def takeConnectReq (now : Int) (env : Env) (compatible noTimeouts : Bool) (req : Clnt) :
    Option (Clnt × Bool) :=
  if compatible then
    let req := { req with state := .forward, noTimeouts := noTimeouts }
    if env.serviceOk then
      reply bodySize now .connectCnf req
    else
      (reply bodySize now .connectRej req).map fun r => ({ r.1 with state := .waitClose }, r.2)
  else
    (reply bodySize now .connectRej req).map fun r => ({ r.1 with state := .waitClose }, r.2)

def takenToken : TokenState → TokenState
  | .grant => .granted
  | token => token

/-- `vbi_proxyd_take_message()`. -/
def takeMessage (now : Int) (env : Env) (req : Clnt) : Request → Option (Clnt × Bool)
  | .connectReq compatible noTimeouts =>
    if req.state = .waitConReq then
      takeConnectReq bodySize now env compatible noTimeouts req
    else
      some (req, false)
  | .daemonPidReq =>
    if req.state = .waitConReq then
      (reply bodySize now .daemonPidCnf req).map fun r => ({ r.1 with state := .waitClose }, r.2)
    else
      some (req, false)
  | .serviceReq =>
    if req.state = .forward then
      reply bodySize now (if env.serviceOk then .serviceCnf else .serviceRej)
        { req with sliced := [] }
    else
      some (req, false)
  | .chnTokenReq =>
    if req.state = .forward then
      reply bodySize now .chnTokenCnf { req with token := takenToken env.token }
    else
      some (req, false)
  | .chnNotifyReq =>
    if req.state = .forward then
      reply bodySize now .chnNotifyCnf { req with token := env.token, chnStatusInd := false }
    else
      some (req, false)
  | .chnSuspendReq => reply bodySize now .chnSuspendRej req
  | .chnIoctlReq cnfSize =>
    if req.state = .forward then
      if env.ioctlOk then
        (msgWrite now .chnIoctlCnf cnfSize req).map fun req => (req, true)
      else
        reply bodySize now .chnIoctlRej req
    else
      some (req, false)
  | .chnReclaimCnf =>
    some (if req.token = .release then { req with token := env.token } else req, true)
  | .closeReq => some (close .request req, true)
  | .other => some (req, false)

/-- What reading from the socket ends with: nothing was available, a complete message,
a complete message which fails its check, an error or the end of the socket before a
message, or a part of a message. -/
inductive Read
  | nothing (blocked : Bool)
  | message (m : Request)
  | invalid
  | failed
  | part

structure Pass where
  rd : Bool
  wr : Bool
  read : Read
  env : Env
  send : Nat → Send
  now : Int

inductive ReadState
  | idle
  | complete
  | incomplete
  deriving DecidableEq

structure Handled where
  req : Clnt
  read : ReadState
  blocked : Bool

def handleRead (p : Pass) (req : Clnt) : Option Handled :=
  match p.read with
  | .nothing blocked => some ⟨req, .idle, blocked⟩
  | .message m =>
    (takeMessage bodySize p.now p.env req m).map fun r =>
      ⟨if r.2 then r.1 else close .daemon r.1, .idle, false⟩
  | .invalid => some ⟨close .daemon req, .complete, false⟩
  | .failed => some ⟨close .socket req, .idle, false⟩
  | .part => some ⟨req, .incomplete, true⟩

def handleSocket (p : Pass) (req : Clnt) : Option Handled :=
  if p.rd ∧ req.io.writeBuf.isNone then
    handleRead bodySize p req
  else if p.wr ∧ req.io.writeBuf.isSome then
    (handleWrite p.now (p.send 0) req).map fun w =>
      ⟨if w.result then w.req else close .socket w.req, .idle, w.blocked⟩
  else
    some ⟨req, .idle, false⟩

/-- `vbi_proxy_msg_is_idle()`, with the assertion that no message is incomplete. -/
def isIdle (h : Handled) : Option Bool :=
  match h.read with
  | .idle => some h.req.io.writeBuf.isNone
  | .complete => some false
  | .incomplete => none

def forwardSliced (now : Int) (send : Nat → Send) : List Nat → Nat → Bool → Clnt → Option Clnt
  | [], _, _, req => some req
  | len :: frames, i, blocked, req =>
    if blocked then
      some req
    else
      (msgWrite now .slicedInd len req).bind fun req =>
        (handleWrite now (send i) req).bind fun w =>
          if w.result then
            forwardSliced now send frames (i + 1) (w.blocked || w.req.io.writeBuf.isSome)
              { w.req with sliced := frames }
          else
            some (close .socket w.req)

def indicate (p : Pass) (blocked : Bool) (req : Clnt) : Option Clnt :=
  if req.token = .reclaim then
    (msgWrite p.now .chnReclaimReq (bodySize .chnReclaimReq) req).map fun req =>
      { req with token := .release }
  else if req.token = .grant then
    (msgWrite p.now .chnTokenInd (bodySize .chnTokenInd) req).map fun req =>
      { req with token := .granted }
  else if req.chnStatusInd then
    (msgWrite p.now .chnChangeInd (bodySize .chnChangeInd) req).map fun req =>
      { req with chnStatusInd := false }
  else
    forwardSliced p.now p.send req.sliced 1 blocked req

/-- `SRV_IO_TIMEOUT` and `SRV_CONNECT_TIMEOUT`. -/
def srvIoTimeout : Int := 60
def srvConnectTimeout : Int := 60

def checkTimeouts (now : Int) (req : Clnt) : Clnt :=
  if req.state = .closed then
    req
  else if req.state = .waitConReq ∧ ¬ req.noTimeouts ∧
      req.io.lastIoTime + srvIoTimeout < now ∧ req.io.writeBuf.isSome then
    close .daemon req
  else if req.state = .waitConReq ∧ req.io.lastIoTime + srvConnectTimeout < now then
    close .daemon req
  else
    req

/-- The body of the loop of `vbi_proxyd_handle_client_sockets()`. -/
def pass (p : Pass) (req : Clnt) : Option Clnt :=
  (handleSocket bodySize p req).bind fun h =>
    (if h.req.state = .waitClose then
      some (close .daemon h.req)
    else
      (isIdle h).bind fun idle =>
        if idle then indicate bodySize p h.blocked h.req else some h.req).map
      (checkTimeouts p.now)

/-- A pass, or what the daemon does between two passes for other clients and for the
device: change the token, request an indication and change the queue of frames. -/
inductive Event
  | pass (p : Pass)
  | others (token : TokenState) (chnStatusInd : Bool) (sliced : List Nat)

/-- An event, which has no result if an assertion fails. A closed connection is gone. -/
def step (req : Clnt) : Event → Option Clnt
  | .pass p => if req.state = .closed then some req else pass bodySize p req
  | .others token chnStatusInd sliced =>
    if req.state = .closed then
      some req
    else
      some { req with token := token, chnStatusInd := chnStatusInd, sliced := sliced }

def run (req : Clnt) (events : List Event) : Option Clnt := events.foldlM (step bodySize) req

/-- If the daemon closed the connection by itself, all replies were sent before. -/
def Delivered (req : Clnt) : Prop :=
  req.cause = some .daemon →
    (req.sent.filter fun m => m.type.isReply) = req.queued.filter fun m => m.type.isReply

def PendingReply (req : Clnt) : Prop := ∃ m, req.io.writeBuf = some m ∧ m.type.isReply

def History (req : Clnt) : Prop := req.queued = req.sent ++ req.io.writeBuf.toList

def Closed (req : Clnt) : Prop := req.state = .closed ↔ req.cause.isSome

theorem History.delivered_iff {req : Clnt} (h : History req) :
    Delivered req ↔ (req.cause = some .daemon → ¬ PendingReply req) := by
  unfold Delivered PendingReply
  rw [h]
  cases hbuf : req.io.writeBuf with
  | none => simp
  | some m => simp [List.filter_append]

theorem not_pendingReply {req : Clnt} (h : req.io.writeBuf = none) : ¬ PendingReply req := by
  rintro ⟨m, hm, -⟩
  simp [h] at hm

section Close
variable {cause : Cause} {req : Clnt}

@[simp] theorem close_io : (close cause req).io = req.io := by
  unfold close
  split <;> rfl

@[simp] theorem close_state : (close cause req).state = .closed := by
  unfold close
  split
  · assumption
  · rfl

theorem History.close (h : History req) : History (close cause req) := by
  unfold ProxyReplies.close
  split
  · exact h
  · exact h

theorem Closed.close (h : Closed req) : Closed (close cause req) := by
  unfold ProxyReplies.close
  split
  · exact h
  · simp [Closed]

theorem close_cause (h : req.state ≠ .closed) : (close cause req).cause = some cause := by
  simp [close, h]

end Close

variable {w : Written} {req₀ : Clnt} {blocked : Bool}

variable {send : Send} {read : ReadState}

section Write
variable {now : Int} {type : MsgType} {len : Nat} {req req' : Clnt}

/-- What queueing a message does. -/
theorem msgWrite_eq_some (h : msgWrite now type len req = some req') :
    req.io.writeBuf = none ∧
      req' = { req with
        io := ⟨some ⟨type, headerSize + len⟩, 0, now⟩
        queued := req.queued ++ [⟨type, headerSize + len⟩] } := by
  unfold msgWrite at h
  split at h
  · rename_i hnone
    exact ⟨Option.isNone_iff_eq_none.1 hnone, (Option.some.inj h).symm⟩
  · cases h

theorem History.msgWrite (h : History req) (hw : msgWrite now type len req = some req') :
    History req' := by
  obtain ⟨hnone, rfl⟩ := msgWrite_eq_some hw
  unfold History at *
  simp [h, hnone]

structure Wrote (now : Int) (req : Clnt) (w : Written) : Prop where
  history : History w.req
  state : w.req.state = req.state
  cause : w.req.cause = req.cause
  sliced : w.req.sliced = req.sliced
  buf : w.req.io.writeBuf = none ∨ w.req.io.writeBuf = req.io.writeBuf
  time : w.req.io.lastIoTime = req.io.lastIoTime ∨ w.req.io.lastIoTime = now

theorem wrote_advance (now : Int) (h : History req) {m : Msg}
    (hm : req.io.writeBuf = some m) (len : Nat) :
    Wrote now req (advance now m len req) ∧
      (advance now m len req).req.io.lastIoTime = now := by
  unfold History at h
  unfold advance
  split
  · refine ⟨⟨?_, rfl, rfl, rfl, Or.inl rfl, Or.inr rfl⟩, rfl⟩
    simp [History, h, hm]
  · refine ⟨⟨?_, rfl, rfl, rfl, Or.inr hm.symm, Or.inr rfl⟩, rfl⟩
    simp [History, h, hm]

theorem wrote_same (h : History req) (result blocked : Bool) :
    Wrote now req ⟨req, result, blocked⟩ :=
  ⟨h, rfl, rfl, rfl, Or.inr rfl, Or.inl rfl⟩

theorem wrote_writePart (now : Int) (h : History req) {m : Msg}
    (hm : req.io.writeBuf = some m) (send : Send) :
    Wrote now req (writePart now m req send) := by
  cases send with
  | accepted n => exact (wrote_advance now h hm _).1
  | again => exact wrote_same h true true
  | interrupted => exact wrote_same h true false
  | zero => exact wrote_same h true true
  | error => exact wrote_same h false false

theorem handleWrite_eq_some (h : handleWrite now send req = some w) :
    ∃ m, req.io.writeBuf = some m ∧ w = writePart now m req send := by
  obtain ⟨m, hm, hw⟩ := Option.bind_eq_some_iff.1 h
  split at hw
  · exact ⟨m, hm, (Option.some.inj hw).symm⟩
  · cases hw

end Write

/-- What the second part of a pass does to a connection without a pending message:
it stays as it is, or a write error ends it, and no reply is pending. -/
structure Indicated (req req' : Clnt) : Prop where
  history : History req'
  pending : ¬ PendingReply req'
  state : req'.state = req.state ∧ req'.cause = req.cause ∨
    req'.state = .closed ∧ req'.cause = some .socket

theorem Indicated.refl {req : Clnt} (h : History req) (hbuf : req.io.writeBuf = none) :
    Indicated req req :=
  ⟨h, not_pendingReply hbuf, Or.inl ⟨rfl, rfl⟩⟩

theorem indicated_msgWrite {now : Int} {type : MsgType} {len : Nat} {req req' : Clnt}
    (h : History req) (htype : type.isReply = false)
    (hw : msgWrite now type len req = some req') : Indicated req req' := by
  have hhistory := h.msgWrite hw
  obtain ⟨-, rfl⟩ := msgWrite_eq_some hw
  refine ⟨hhistory, ?_, Or.inl ⟨rfl, rfl⟩⟩
  rintro ⟨m, hm, hreply⟩
  cases hm
  simp [htype] at hreply

theorem Indicated.trans {req req₁ req₂ : Clnt} (h₁ : Indicated req req₁)
    (h₂ : Indicated req₁ req₂) : Indicated req req₂ := by
  refine ⟨h₂.history, h₂.pending, ?_⟩
  rcases h₁.state with ⟨hs₁, hc₁⟩ | ⟨hs₁, hc₁⟩ <;>
    rcases h₂.state with ⟨hs₂, hc₂⟩ | ⟨hs₂, hc₂⟩ <;> grind

theorem indicated_close {req req' : Clnt} (h : Indicated req req') :
    Indicated req (close .socket req') := by
  refine ⟨h.history.close, ?_, ?_⟩
  · unfold PendingReply
    rw [close_io]
    exact h.pending
  · by_cases hclosed : req'.state = .closed
    · rw [close, if_pos hclosed]
      exact h.state
    · exact Or.inr ⟨close_state, close_cause hclosed⟩

theorem indicated_handleWrite {now : Int} {req req' : Clnt} (h : Indicated req req')
    (hw : handleWrite now send req' = some w) : Indicated req w.req := by
  obtain ⟨m, hm, rfl⟩ := handleWrite_eq_some hw
  have hwrote := wrote_writePart now h.history hm send
  refine ⟨hwrote.history, ?_, ?_⟩
  · rintro ⟨m', hm', hreply⟩
    rcases hwrote.buf with hbuf | hbuf
    · simp [hbuf] at hm'
    · exact h.pending ⟨m', hbuf ▸ hm', hreply⟩
  · rw [hwrote.state, hwrote.cause]
    exact h.state

theorem indicated_forwardSliced (now : Int) (send : Nat → Send) (frames : List Nat) (i : Nat)
    (blocked : Bool) {req req' : Clnt} (h : Indicated req₀ req)
    (hf : forwardSliced now send frames i blocked req = some req') : Indicated req₀ req' := by
  induction frames generalizing i blocked req with
  | nil =>
    cases hf
    exact h
  | cons len frames ih =>
    unfold forwardSliced at hf
    split at hf
    · cases hf
      exact h
    · obtain ⟨req₁, hqueue, hf⟩ := Option.bind_eq_some_iff.1 hf
      obtain ⟨w, hwrite, hf⟩ := Option.bind_eq_some_iff.1 hf
      have hw := indicated_handleWrite (h.trans (indicated_msgWrite h.history rfl hqueue)) hwrite
      split at hf
      · have hnext : Indicated req₀ { w.req with sliced := frames } :=
          ⟨hw.history, hw.pending, hw.state⟩
        exact ih _ _ hnext hf
      · cases hf
        exact indicated_close hw

theorem indicated_indicate {p : Pass} {req req' : Clnt} (h : History req)
    (hbuf : req.io.writeBuf = none) (hi : indicate bodySize p blocked req = some req') :
    Indicated req req' := by
  unfold indicate at hi
  split at hi
  · obtain ⟨req₁, hw, rfl⟩ := Option.map_eq_some_iff.1 hi
    obtain ⟨hhistory, hpending, hstate⟩ := indicated_msgWrite h rfl hw
    exact ⟨hhistory, hpending, hstate⟩
  · split at hi
    · obtain ⟨req₁, hw, rfl⟩ := Option.map_eq_some_iff.1 hi
      obtain ⟨hhistory, hpending, hstate⟩ := indicated_msgWrite h rfl hw
      exact ⟨hhistory, hpending, hstate⟩
    · split at hi
      · obtain ⟨req₁, hw, rfl⟩ := Option.map_eq_some_iff.1 hi
        obtain ⟨hhistory, hpending, hstate⟩ := indicated_msgWrite h rfl hw
        exact ⟨hhistory, hpending, hstate⟩
      · exact indicated_forwardSliced p.now p.send req.sliced 1 blocked
          (Indicated.refl h hbuf) hi

def Late (now : Int) (req : Clnt) : Prop :=
  req.state = .waitConReq ∧ req.io.lastIoTime + srvConnectTimeout < now

/-- Both timeouts have one duration, so that the second one decides. -/
theorem checkTimeouts_late {now : Int} {req : Clnt} (h : Late now req) :
    checkTimeouts now req = close .daemon req := by
  have hopen : req.state ≠ .closed := by simp [h.1]
  unfold checkTimeouts
  rw [if_neg hopen]
  split
  · rfl
  · exact if_pos h

theorem checkTimeouts_not_late {now : Int} {req : Clnt} (h : ¬ Late now req) :
    checkTimeouts now req = req := by
  unfold checkTimeouts
  split
  · rfl
  · split
    · rename_i hearly
      exact (h ⟨hearly.1, hearly.2.2.1⟩).elim
    · exact if_neg h

/-- The daemon answers the message and then closes the connection: a request for the
daemon's pid, or a connection which is rejected. -/
def Refused (env : Env) (req : Clnt) : Request → Prop
  | .connectReq compatible _ => req.state = .waitConReq ∧ ¬ (compatible ∧ env.serviceOk)
  | .daemonPidReq => req.state = .waitConReq
  | _ => False

structure Ready (req : Clnt) : Prop where
  history : History req
  waitClose : req.state ≠ .waitClose
  isOpen : req.state ≠ .closed
  cause : req.cause = none

/-- A connection whose pending reply, if any, was queued or continued at once. -/
structure Fresh (now : Int) (req : Clnt) : Prop where
  history : History req
  closed : Closed req
  time : PendingReply req → req.io.lastIoTime = now ∧ req.cause ≠ some .daemon

theorem Ready.closed {req : Clnt} (h : Ready req) : Closed req := by
  simp [Closed, h.isOpen, h.cause]

theorem Ready.fresh {now : Int} {req : Clnt} (h : Ready req) (hbuf : req.io.writeBuf = none) :
    Fresh now req :=
  ⟨h.history, h.closed, fun hpending => (not_pendingReply hbuf hpending).elim⟩

theorem Ready.fresh_close {now : Int} {cause : Cause} {req : Clnt} (h : Ready req)
    (hbuf : req.io.writeBuf = none) : Fresh now (close cause req) := by
  have hpending : ¬ PendingReply (close cause req) := not_pendingReply (by rw [close_io, hbuf])
  exact ⟨h.history.close, h.closed.close, fun hp => (hpending hp).elim⟩

theorem fresh_msgWrite {now : Int} {type : MsgType} {len : Nat} {req req' : Clnt}
    (h : Ready req) (hw : msgWrite now type len req = some req') :
    Ready req' ∧ Fresh now req' ∧ (type.isReply → PendingReply req') := by
  have hhistory := h.history.msgWrite hw
  obtain ⟨-, rfl⟩ := msgWrite_eq_some hw
  refine ⟨⟨hhistory, h.waitClose, h.isOpen, h.cause⟩, ⟨hhistory, h.closed, ?_⟩, ?_⟩
  · intro _
    refine ⟨rfl, ?_⟩
    simp [h.cause]
  · exact fun hreply => ⟨_, rfl, hreply⟩

/-- What a message does: the answer of a refused one is pending when the connection is
to be closed, and one which is not accepted does nothing. -/
structure Taken (now : Int) (env : Env) (req : Clnt) (m : Request) (r : Clnt × Bool) : Prop
    extends Fresh now r.1 where
  waitClose : r.1.state = .waitClose ↔ Refused env req m
  pending : Refused env req m → PendingReply r.1
  rejected : r.2 = false → r.1 = req ∧ ¬ Refused env req m

section Take
variable {now : Int} {env : Env} {req : Clnt} {m : Request} {r : Clnt × Bool}

/-- A message which is accepted and leaves the connection open. -/
theorem taken_accepted (hm : ¬ Refused env req m) {req' : Clnt} (hfresh : Fresh now req')
    (hwait : req'.state ≠ .waitClose) : Taken now env req m (req', true) :=
  ⟨hfresh, iff_of_false hwait hm, fun hrefused => (hm hrefused).elim, by simp⟩

/-- A message which is not accepted in the state of the connection. -/
theorem taken_unexpected (h : Ready req) (hm : ¬ Refused env req m)
    (hbuf : req.io.writeBuf = none) (hr : some (req, false) = some r) :
    Taken now env req m r := by
  cases hr
  exact ⟨h.fresh hbuf, iff_of_false h.waitClose hm, fun hrefused => (hm hrefused).elim,
    fun _ => ⟨rfl, hm⟩⟩

theorem taken_msgWrite (hm : ¬ Refused env req m) (h₀ : Ready req₀) {type : MsgType} {len : Nat}
    (hr : (msgWrite now type len req₀).map (fun req => (req, true)) = some r) :
    Taken now env req m r := by
  obtain ⟨req', hw, rfl⟩ := Option.map_eq_some_iff.1 hr
  obtain ⟨hready, hfresh, -⟩ := fresh_msgWrite h₀ hw
  exact taken_accepted hm hfresh hready.waitClose

/-- A message which is answered before the connection is closed. -/
theorem taken_refusal (hm : Refused env req m) (h₀ : Ready req₀)
    {type : MsgType} (htype : type.isReply)
    (hr : (reply bodySize now type req₀).map
      (fun r => ({ r.1 with state := .waitClose }, r.2)) = some r) :
    Taken now env req m r := by
  obtain ⟨r₀, hr₀, rfl⟩ := Option.map_eq_some_iff.1 hr
  obtain ⟨req', hw, rfl⟩ := Option.map_eq_some_iff.1 hr₀
  obtain ⟨hready, hfresh, hpending⟩ := fresh_msgWrite h₀ hw
  have hclosed : Closed { req' with state := .waitClose } := by simp [Closed, hready.cause]
  refine ⟨⟨hfresh.history, hclosed, hfresh.time⟩, iff_of_true rfl hm, ?_, ?_⟩
  · exact fun _ => hpending htype
  · simp

theorem taken_takeConnectReq {compatible noTimeouts : Bool} (h : Ready req)
    (hstate : req.state = .waitConReq)
    (hr : takeConnectReq bodySize now env compatible noTimeouts req = some r) :
    Taken now env req (.connectReq compatible noTimeouts) r := by
  have hforward : Ready { req with state := .forward, noTimeouts := noTimeouts } :=
    ⟨h.history, by simp, by simp, h.cause⟩
  unfold takeConnectReq at hr
  split at hr
  · rename_i hcompatible
    dsimp only at hr
    split at hr
    · rename_i hservice
      exact taken_msgWrite (fun hrefused => hrefused.2 ⟨hcompatible, hservice⟩) hforward hr
    · rename_i hservice
      exact taken_refusal bodySize ⟨hstate, fun hboth => hservice hboth.2⟩ hforward rfl hr
  · rename_i hcompatible
    exact taken_refusal bodySize ⟨hstate, fun hboth => hcompatible hboth.1⟩ h rfl hr

theorem taken_takeMessage (h : Ready req) (hbuf : req.io.writeBuf = none)
    (hr : takeMessage bodySize now env req m = some r) : Taken now env req m r := by
  have hnot (hm : ¬ Refused env req m) (hr : some (req, false) = some r) :
      Taken now env req m r := taken_unexpected h hm hbuf hr
  cases m with
  | connectReq compatible noTimeouts =>
    simp only [takeMessage] at hr
    split at hr
    · rename_i hstate
      exact taken_takeConnectReq bodySize h hstate hr
    · rename_i hstate
      exact hnot (fun hrefused => hstate hrefused.1) hr
  | daemonPidReq =>
    simp only [takeMessage] at hr
    split at hr
    · rename_i hstate
      have hrefused : Refused env req .daemonPidReq := hstate
      exact taken_refusal bodySize hrefused h rfl hr
    · rename_i hstate
      exact hnot hstate hr
  | serviceReq =>
    simp only [takeMessage] at hr
    split at hr
    · have hflushed : Ready { req with sliced := [] } :=
        ⟨h.history, h.waitClose, h.isOpen, h.cause⟩
      exact taken_msgWrite id hflushed hr
    · exact hnot id hr
  | chnTokenReq =>
    simp only [takeMessage] at hr
    split at hr
    · have htoken : Ready { req with token := takenToken env.token } :=
        ⟨h.history, h.waitClose, h.isOpen, h.cause⟩
      exact taken_msgWrite id htoken hr
    · exact hnot id hr
  | chnNotifyReq =>
    simp only [takeMessage] at hr
    split at hr
    · have hnotified : Ready { req with token := env.token, chnStatusInd := false } :=
        ⟨h.history, h.waitClose, h.isOpen, h.cause⟩
      exact taken_msgWrite id hnotified hr
    · exact hnot id hr
  | chnSuspendReq => exact taken_msgWrite id h hr
  | chnIoctlReq cnfSize =>
    simp only [takeMessage] at hr
    split at hr
    · split at hr
      · exact taken_msgWrite id h hr
      · exact taken_msgWrite id h hr
    · exact hnot id hr
  | chnReclaimCnf =>
    cases hr
    split
    · exact taken_accepted id ⟨h.history, h.closed, (h.fresh hbuf).time⟩ h.waitClose
    · exact taken_accepted id (h.fresh hbuf) h.waitClose
  | closeReq =>
    cases hr
    exact taken_accepted id (h.fresh_close hbuf) (by simp)
  | other => exact hnot id hr

end Take

def Refuses (p : Pass) (req : Clnt) : Prop :=
  p.rd ∧ req.io.writeBuf = none ∧ ∃ m, p.read = .message m ∧ Refused p.env req m

def Send.progress : Send → Bool
  | .accepted _ => true
  | .error => true
  | _ => false

def TimesOut (p : Pass) (req : Clnt) : Prop :=
  PendingReply req ∧ Late p.now req ∧ ¬ (p.wr ∧ (p.send 0).progress)

structure Stage (p : Pass) (req : Clnt) (h : Handled) : Prop where
  history : History h.req
  closed : Closed h.req
  waitClose : h.req.state = .waitClose ↔ Refuses p req
  pending : Refuses p req → PendingReply h.req
  cause : PendingReply h.req → h.req.cause ≠ some .daemon
  late : PendingReply h.req ∧ Late p.now h.req ↔ TimesOut p req

theorem not_late_self {now : Int} {req : Clnt} (h : req.io.lastIoTime = now) : ¬ Late now req := by
  rintro ⟨-, hlate⟩
  rw [h, srvConnectTimeout] at hlate
  omega

theorem not_late_closed {now : Int} {req : Clnt} (h : req.state = .closed) : ¬ Late now req := by
  rintro ⟨hstate, -⟩
  simp [h] at hstate

section Stages
variable {p : Pass} {req : Clnt} {h : Handled}

theorem stage_fresh {req' : Clnt} (hbuf : req.io.writeBuf = none) (hfresh : Fresh p.now req')
    (hwait : req'.state = .waitClose ↔ Refuses p req)
    (hpending : Refuses p req → PendingReply req') :
    Stage p req ⟨req', read, blocked⟩ where
  history := hfresh.history
  closed := hfresh.closed
  waitClose := hwait
  pending := hpending
  cause := fun hp => (hfresh.time hp).2
  late := by
    constructor
    · rintro ⟨hp, hlate⟩
      exact (not_late_self (hfresh.time hp).1 hlate).elim
    · exact fun hout => (not_pendingReply hbuf hout.1).elim

theorem stage_handleRead (hready : Ready req) (hrd : p.rd) (hbuf : req.io.writeBuf = none)
    (hh : handleRead bodySize p req = some h) : Stage p req h := by
  have hrefuses {m : Request} (hm : p.read = .message m) : Refuses p req ↔ Refused p.env req m := by
    simp [Refuses, hrd, hbuf, hm]
  have hnot (hread : ∀ m, p.read ≠ .message m) : ¬ Refuses p req :=
    fun ⟨_, _, m, hm, _⟩ => hread m hm
  unfold handleRead at hh
  split at hh
  · rename_i hread
    cases hh
    have hno := hnot (by simp [hread])
    exact stage_fresh hbuf (hready.fresh hbuf) (iff_of_false hready.waitClose hno)
      fun hrefuses => (hno hrefuses).elim
  · rename_i m hread
    obtain ⟨r, hr, rfl⟩ := Option.map_eq_some_iff.1 hh
    have htaken := taken_takeMessage bodySize hready hbuf hr
    have hm := hrefuses hread
    by_cases hresult : r.2
    · rw [if_pos hresult]
      exact stage_fresh hbuf htaken.toFresh (htaken.waitClose.trans hm.symm)
        fun hrefuses => htaken.pending (hm.1 hrefuses)
    · obtain ⟨hsame, hno⟩ := htaken.rejected (by simpa using hresult)
      rw [if_neg hresult, hsame]
      exact stage_fresh hbuf (hready.fresh_close hbuf) (iff_of_false (by simp) (mt hm.1 hno))
        fun hrefuses => (hno (hm.1 hrefuses)).elim
  · rename_i hread
    cases hh
    have hno := hnot (by simp [hread])
    exact stage_fresh hbuf (hready.fresh_close hbuf) (iff_of_false (by simp) hno)
      fun hrefuses => (hno hrefuses).elim
  · rename_i hread
    cases hh
    have hno := hnot (by simp [hread])
    exact stage_fresh hbuf (hready.fresh_close hbuf) (iff_of_false (by simp) hno)
      fun hrefuses => (hno hrefuses).elim
  · rename_i hread
    cases hh
    have hno := hnot (by simp [hread])
    exact stage_fresh hbuf (hready.fresh hbuf) (iff_of_false hready.waitClose hno)
      fun hrefuses => (hno hrefuses).elim

theorem stage_handleWrite (hready : Ready req) (hwr : p.wr) (hbuf : req.io.writeBuf.isSome)
    (hw : handleWrite p.now (p.send 0) req = some w) :
    Stage p req ⟨if w.result then w.req else close .socket w.req, read, w.blocked⟩ := by
  have hno : ¬ Refuses p req := by
    rintro ⟨-, hnone, -⟩
    simp [hnone] at hbuf
  obtain ⟨m, hm, rfl⟩ := handleWrite_eq_some hw
  have hwrote := wrote_writePart p.now hready.history hm (p.send 0)
  have hopen : (writePart p.now m req (p.send 0)).req.state ≠ .closed := by
    rw [hwrote.state]
    exact hready.isOpen
  have hwait : (writePart p.now m req (p.send 0)).req.state ≠ .waitClose := by
    rw [hwrote.state]
    exact hready.waitClose
  have hcause : (writePart p.now m req (p.send 0)).req.cause = none := by
    rw [hwrote.cause, hready.cause]
  have hclosed : Closed (writePart p.now m req (p.send 0)).req := by
    simp [Closed, hopen, hcause]
  by_cases hresult : (writePart p.now m req (p.send 0)).result
  · rw [if_pos hresult]
    refine ⟨hwrote.history, hclosed, iff_of_false hwait hno, fun h => (hno h).elim, ?_, ?_⟩
    · simp [hcause]
    · cases hsend : p.send 0 with
      | accepted n =>
        have htime := (wrote_advance p.now hready.history hm
          (min (n + 1) (m.len - req.io.writeOff))).2
        constructor
        · exact fun hlate => (not_late_self htime hlate.2).elim
        · exact fun hout => (hout.2.2 ⟨hwr, by simp [hsend, Send.progress]⟩).elim
      | again => simp [TimesOut, writePart, hsend, Send.progress]
      | interrupted => simp [TimesOut, writePart, hsend, Send.progress]
      | zero => simp [TimesOut, writePart, hsend, Send.progress]
      | error =>
        rw [hsend] at hresult
        simp [writePart] at hresult
  · rw [if_neg hresult]
    refine ⟨hwrote.history.close, hclosed.close, iff_of_false (by simp) hno,
      fun h => (hno h).elim, ?_, ?_⟩
    · simp [close_cause hopen]
    · have hsend : p.send 0 = .error := by
        cases hsend : p.send 0 with
        | accepted n =>
          rw [hsend] at hresult
          refine (hresult ?_).elim
          unfold writePart advance
          dsimp only
          split <;> rfl
        | again => simp [writePart, hsend] at hresult
        | interrupted => simp [writePart, hsend] at hresult
        | zero => simp [writePart, hsend] at hresult
        | error => rfl
      constructor
      · exact fun hlate => (not_late_closed close_state hlate.2).elim
      · exact fun hout => (hout.2.2 ⟨hwr, by simp [hsend, Send.progress]⟩).elim

theorem stage_handleSocket (hready : Ready req) (hh : handleSocket bodySize p req = some h) :
    Stage p req h := by
  unfold handleSocket at hh
  split at hh
  · rename_i hrd
    exact stage_handleRead bodySize hready hrd.1 (Option.isNone_iff_eq_none.1 hrd.2) hh
  · rename_i hrd
    split at hh
    · rename_i hwr
      obtain ⟨w, hw, rfl⟩ := Option.map_eq_some_iff.1 hh
      exact stage_handleWrite hready hwr.1 hwr.2 hw
    · rename_i hwr
      cases hh
      have hno : ¬ Refuses p req := by
        rintro ⟨hset, hnone, -⟩
        exact hrd ⟨hset, by simp [hnone]⟩
      refine ⟨hready.history, hready.closed, iff_of_false hready.waitClose hno,
        fun hrefuses => (hno hrefuses).elim, by simp [hready.cause], ?_⟩
      constructor
      · intro hlate
        refine ⟨hlate.1, hlate.2, fun hset => hwr ⟨hset.1, ?_⟩⟩
        obtain ⟨m, hm, -⟩ : PendingReply req := hlate.1
        simp [hm]
      · exact fun hout => ⟨hout.1, hout.2.1⟩

end Stages

def Loses (p : Pass) (req : Clnt) : Prop := Refuses p req ∨ TimesOut p req

structure Settled (req : Clnt) : Prop where
  history : History req
  closed : Closed req
  waitClose : req.state ≠ .waitClose

theorem Settled.ready {req : Clnt} (h : Settled req) (hopen : req.state ≠ .closed) : Ready req :=
  ⟨h.history, h.waitClose, hopen, by simpa using mt h.closed.2 hopen⟩

theorem Settled.checkTimeouts {now : Int} {req : Clnt} (h : Settled req) :
    Settled (checkTimeouts now req) := by
  by_cases hlate : Late now req
  · rw [checkTimeouts_late hlate]
    exact ⟨h.history.close, h.closed.close, by simp⟩
  · rw [checkTimeouts_not_late hlate]
    exact h

/-- The timeouts at the end of a pass lose a pending reply when they apply. -/
theorem delivered_checkTimeouts {now : Int} {req : Clnt} (h : Settled req)
    (hcause : PendingReply req → req.cause ≠ some .daemon) :
    Delivered (checkTimeouts now req) ↔ ¬ (PendingReply req ∧ Late now req) := by
  by_cases hlate : Late now req
  · have hopen : req.state ≠ .closed := by simp [hlate.1]
    rw [checkTimeouts_late hlate, h.history.close.delivered_iff, close_cause hopen]
    simp [PendingReply, hlate]
  · rw [checkTimeouts_not_late hlate, h.history.delivered_iff]
    simp only [hlate, and_false, not_false_eq_true, iff_true]
    exact fun hdaemon hpending => hcause hpending hdaemon

theorem writeBuf_of_isIdle {h : Handled} (hidle : isIdle h = some true) :
    h.req.io.writeBuf = none := by
  unfold isIdle at hidle
  split at hidle
  · simpa using hidle
  · simp at hidle
  · cases hidle

/-- A pass over an open connection loses a reply exactly when it refuses a message or
when a timeout hits. -/
theorem delivered_pass {p : Pass} {req req' : Clnt} (hready : Ready req)
    (hp : pass bodySize p req = some req') :
    Settled req' ∧ (Delivered req' ↔ ¬ Loses p req) := by
  obtain ⟨h, hh, hp⟩ := Option.bind_eq_some_iff.1 hp
  have hstage := stage_handleSocket bodySize hready hh
  obtain ⟨req₁, hrest, rfl⟩ := Option.map_eq_some_iff.1 hp
  split at hrest
  · rename_i hwait
    cases hrest
    have hrefuses := hstage.waitClose.1 hwait
    have hopen : h.req.state ≠ .closed := by simp [hwait]
    have hsettled : Settled (close .daemon h.req) :=
      ⟨hstage.history.close, hstage.closed.close, by simp⟩
    refine ⟨hsettled.checkTimeouts, ?_⟩
    rw [checkTimeouts_not_late (not_late_closed close_state), hsettled.history.delivered_iff,
      close_cause hopen]
    have hpending : PendingReply (close .daemon h.req) := by
      unfold PendingReply
      rw [close_io]
      exact hstage.pending hrefuses
    simp [hpending, Loses, hrefuses]
  · rename_i hwait
    have hno : ¬ Refuses p req := mt hstage.waitClose.2 hwait
    obtain ⟨idle, hidle, hrest⟩ := Option.bind_eq_some_iff.1 hrest
    split at hrest
    · rename_i htrue
      have hbuf := writeBuf_of_isIdle (htrue ▸ hidle)
      have hindicated := indicated_indicate bodySize hstage.history hbuf hrest
      have hsettled : Settled req₁ := by
        refine ⟨hindicated.history, ?_, ?_⟩
        · rcases hindicated.state with ⟨hstate, hcause⟩ | ⟨hstate, hcause⟩
          · simpa [Closed, hstate, hcause] using hstage.closed
          · simp [Closed, hstate, hcause]
        · rcases hindicated.state with ⟨hstate, -⟩ | ⟨hstate, -⟩
          · rwa [hstate]
          · simp [hstate]
      have hout : ¬ TimesOut p req := fun hout => not_pendingReply hbuf (hstage.late.2 hout).1
      refine ⟨hsettled.checkTimeouts, ?_⟩
      rw [delivered_checkTimeouts hsettled fun hpending => (hindicated.pending hpending).elim]
      simp [Loses, hno, hout, hindicated.pending]
    · cases hrest
      have hsettled : Settled h.req := ⟨hstage.history, hstage.closed, hwait⟩
      refine ⟨hsettled.checkTimeouts, ?_⟩
      rw [delivered_checkTimeouts hsettled hstage.cause, hstage.late]
      simp [Loses, hno]

def LosesAt (req : Clnt) : Event → Prop
  | .pass p => req.state ≠ .closed ∧ Loses p req
  | .others _ _ _ => False

def Keeps (req : Clnt) : List Event → Prop
  | [] => True
  | e :: events => ¬ LosesAt req e ∧ ∀ req', step bodySize req e = some req' → Keeps req' events

theorem run_closed {req : Clnt} (h : req.state = .closed) (events : List Event) :
    run bodySize req events = some req ∧ Keeps bodySize req events := by
  induction events with
  | nil => exact ⟨rfl, trivial⟩
  | cons e events ih =>
    have hstep : step bodySize req e = some req := by cases e <;> simp [step, h]
    have hkeeps : ¬ LosesAt req e := by cases e <;> simp [LosesAt, h]
    refine ⟨by simpa [run, hstep] using ih.1, hkeeps, fun req' hreq' => ?_⟩
    rw [hstep] at hreq'
    cases hreq'
    exact ih.2

/-- A step keeps the connection settled, and delivers the replies exactly if it does not
lose one. -/
theorem settled_step {req req' : Clnt} {e : Event} (h : Settled req) (hd : Delivered req)
    (hs : step bodySize req e = some req') :
    Settled req' ∧ (Delivered req' ↔ ¬ LosesAt req e) := by
  by_cases hclosed : req.state = .closed
  · have hsame : step bodySize req e = some req := by cases e <;> simp [step, hclosed]
    cases hs.symm.trans hsame
    have hkeeps : ¬ LosesAt req e := by cases e <;> simp [LosesAt, hclosed]
    exact ⟨h, iff_of_true hd hkeeps⟩
  · cases e with
    | pass p =>
      rw [step, if_neg hclosed] at hs
      have hpass := delivered_pass bodySize (h.ready hclosed) hs
      simpa [LosesAt, hclosed] using hpass
    | others token chnStatusInd sliced =>
      rw [step, if_neg hclosed] at hs
      cases hs
      exact ⟨⟨h.history, h.closed, h.waitClose⟩, iff_of_true hd id⟩

/-- A connection whose replies were not all sent is closed. -/
theorem closed_of_not_delivered {req : Clnt} (h : Settled req) (hd : ¬ Delivered req) :
    req.state = .closed := by
  by_contra hopen
  have hcause := (h.ready hopen).cause
  exact hd fun hdaemon => by simp [hcause] at hdaemon

theorem delivered_run_of_settled {req req' : Clnt} (h : Settled req) (hd : Delivered req)
    (events : List Event) (hr : run bodySize req events = some req') :
    Delivered req' ↔ Keeps bodySize req events := by
  induction events generalizing req with
  | nil =>
    cases hr
    exact iff_of_true hd trivial
  | cons e events ih =>
    rw [run, List.foldlM_cons] at hr
    obtain ⟨req₁, hs, hr⟩ := Option.bind_eq_some_iff.1 hr
    obtain ⟨hsettled, hstep⟩ := settled_step bodySize h hd hs
    by_cases hd₁ : Delivered req₁
    · have hkeeps : Keeps bodySize req (e :: events) ↔ Keeps bodySize req₁ events := by
        simp [Keeps, hs, hstep.1 hd₁]
      exact (ih hsettled hd₁ hr).trans hkeeps.symm
    · have hclosed := (run_closed bodySize (closed_of_not_delivered hsettled hd₁) events).1
      cases hr.symm.trans hclosed
      have hloses : LosesAt req e := by
        by_contra hno
        exact hd₁ (hstep.2 hno)
      exact iff_of_false hd₁ fun hkeeps => hkeeps.1 hloses

/-- In any run of a new connection, all replies were sent before the daemon closed the
connection by itself, if and only if no event refused a message or was a timeout with a
reply pending. -/
theorem delivered_run (now : Int) (events : List Event) (req : Clnt)
    (hr : run bodySize (addConnection now) events = some req) :
    Delivered req ↔ Keeps bodySize (addConnection now) events := by
  have hsettled : Settled (addConnection now) :=
    ⟨rfl, by simp [Closed, addConnection], by simp [addConnection]⟩
  have hdelivered : Delivered (addConnection now) := by simp [Delivered, addConnection]
  exact delivered_run_of_settled bodySize hsettled hdelivered events hr

def readPass (m : Request) : Event :=
  .pass ⟨true, false, .message m, ⟨true, true, .none⟩, fun _ => .again, 0⟩

/-- A pass in which the socket takes all bytes. -/
def writePass : Event :=
  .pass ⟨false, true, .nothing true, ⟨true, true, .none⟩, fun _ => .accepted 100, 0⟩

/-- A connection is confirmed, and a second request for one ends it. -/
theorem delivered_run_confirmed :
    ∃ req, run (fun _ => 4) (addConnection 0)
        [readPass (.connectReq true true), writePass, readPass (.connectReq true true)] =
          some req ∧
      req.sent = [⟨.connectCnf, 12⟩] ∧ req.cause = some .daemon ∧
      (Delivered req ↔ Keeps (fun _ => 4) (addConnection 0)
        [readPass (.connectReq true true), writePass, readPass (.connectReq true true)]) :=
  ⟨_, rfl, rfl, rfl, delivered_run (fun _ => 4) 0
    [readPass (.connectReq true true), writePass, readPass (.connectReq true true)] _ rfl⟩

/-- The pid of the daemon is queued and never sent. -/
theorem daemonPid_lost :
    ∃ req, run (fun _ => 4) (addConnection 0) [readPass .daemonPidReq, writePass] = some req ∧
      req.queued = [⟨.daemonPidCnf, 12⟩] ∧ req.sent = [] ∧ ¬ Delivered req := by
  refine ⟨_, rfl, rfl, rfl, ?_⟩
  intro hdelivered
  cases hdelivered rfl

def Unsent (req : Clnt) : Prop := ∀ m, req.io.writeBuf = some m → req.io.writeOff < m.len

/-- A pass does not stop in the middle of a message. -/
def Whole (p : Pass) : Prop := p.read ≠ .part

/-- A function which succeeds for a connection and keeps what is pending incomplete. -/
def Succeeds (result : Option Clnt) : Prop := ∃ req, result = some req ∧ Unsent req

theorem unsent_of_none {req : Clnt} (h : req.io.writeBuf = none) : Unsent req := by
  simp [Unsent, h]

theorem Unsent.close {cause : Cause} {req : Clnt} (h : Unsent req) : Unsent (close cause req) := by
  unfold Unsent
  rw [close_io]
  exact h

theorem succeeds_msgWrite (now : Int) (type : MsgType) (len : Nat) {req : Clnt}
    (h : req.io.writeBuf = none) : Succeeds (msgWrite now type len req) := by
  refine ⟨_, if_pos (by simp [h]), ?_⟩
  simp only [Unsent, headerSize, Option.some.injEq, forall_eq']
  omega

theorem unsent_writePart {now : Int} {m : Msg} {req : Clnt} (h : Unsent req) (send : Send) :
    Unsent (writePart now m req send).req := by
  cases send with
  | accepted n =>
    unfold writePart advance
    dsimp only
    split
    · exact unsent_of_none rfl
    · rename_i hpart
      intro m' hm'
      cases hm'
      exact Nat.lt_of_not_le hpart
  | again => exact h
  | interrupted => exact h
  | zero => exact h
  | error => exact h

/-- A pending message can be written. -/
theorem handleWrite_isSome (now : Int) (send : Send) {req : Clnt} (h : Unsent req)
    (hbuf : req.io.writeBuf.isSome) : ∃ w, handleWrite now send req = some w ∧ Unsent w.req := by
  obtain ⟨m, hm⟩ := Option.isSome_iff_exists.1 hbuf
  refine ⟨writePart now m req send, ?_, unsent_writePart h send⟩
  simp [handleWrite, hm, h m hm]

theorem succeeds_forwardSliced (now : Int) (send : Nat → Send) (frames : List Nat) (i : Nat)
    (blocked : Bool) {req : Clnt} (h : Unsent req) (hbuf : req.io.writeBuf.isSome → blocked) :
    Succeeds (forwardSliced now send frames i blocked req) := by
  induction frames generalizing i blocked req with
  | nil => exact ⟨req, rfl, h⟩
  | cons len frames ih =>
    unfold forwardSliced
    split
    · exact ⟨req, rfl, h⟩
    · rename_i hblocked
      have hnone : req.io.writeBuf = none := by
        simpa using mt hbuf hblocked
      obtain ⟨req₁, hqueue, hunsent⟩ :=
        succeeds_msgWrite now .slicedInd len hnone
      have hsome : req₁.io.writeBuf.isSome := by
        rw [(msgWrite_eq_some hqueue).2]
        rfl
      obtain ⟨w, hwrite, hw⟩ := handleWrite_isSome now (send i) hunsent hsome
      rw [hqueue, Option.bind_some, hwrite, Option.bind_some]
      split
      · have hnext : Unsent { w.req with sliced := frames } := hw
        exact ih (i + 1) _ hnext (by simp +contextual)
      · exact ⟨_, rfl, hw.close⟩

def Takes (result : Option (Clnt × Bool)) : Prop := ∃ r, result = some r ∧ Unsent r.1

theorem takes_reply {now : Int} {type : MsgType} {req : Clnt} (h : req.io.writeBuf = none) :
    Takes (reply bodySize now type req) := by
  obtain ⟨req', hqueue, hunsent⟩ :=
    succeeds_msgWrite now type (bodySize type) h
  exact ⟨(req', true), by rw [reply, hqueue, Option.map_some], hunsent⟩

theorem Takes.waitClose {result : Option (Clnt × Bool)} (h : Takes result) :
    Takes (result.map fun r => ({ r.1 with state := .waitClose }, r.2)) := by
  obtain ⟨r, rfl, hunsent⟩ := h
  exact ⟨_, rfl, hunsent⟩

theorem takes_same {req : Clnt} {accepted : Bool} (h : req.io.writeBuf = none) :
    Takes (some (req, accepted)) :=
  ⟨_, rfl, unsent_of_none h⟩

theorem takes_takeMessage (now : Int) (env : Env) {req : Clnt} (h : req.io.writeBuf = none)
    (m : Request) : Takes (takeMessage bodySize now env req m) := by
  cases m with
  | connectReq compatible noTimeouts =>
    have hforward : { req with state := .forward, noTimeouts := noTimeouts }.io.writeBuf = none := h
    simp only [takeMessage, takeConnectReq]
    split
    · split
      · split
        · exact takes_reply bodySize hforward
        · exact (takes_reply bodySize hforward).waitClose
      · exact (takes_reply bodySize h).waitClose
    · exact takes_same h
  | daemonPidReq =>
    simp only [takeMessage]
    split
    · exact (takes_reply bodySize h).waitClose
    · exact takes_same h
  | serviceReq =>
    simp only [takeMessage]
    split
    · exact takes_reply bodySize h
    · exact takes_same h
  | chnTokenReq =>
    simp only [takeMessage]
    split
    · exact takes_reply bodySize h
    · exact takes_same h
  | chnNotifyReq =>
    simp only [takeMessage]
    split
    · exact takes_reply bodySize h
    · exact takes_same h
  | chnSuspendReq => exact takes_reply bodySize h
  | chnIoctlReq cnfSize =>
    simp only [takeMessage]
    split
    · split
      · obtain ⟨req', hqueue, hunsent⟩ :=
          succeeds_msgWrite now .chnIoctlCnf cnfSize h
        exact ⟨(req', true), by rw [hqueue, Option.map_some], hunsent⟩
      · exact takes_reply bodySize h
    · exact takes_same h
  | chnReclaimCnf =>
    refine ⟨_, rfl, ?_⟩
    split
    · exact unsent_of_none h
    · exact unsent_of_none h
  | closeReq => exact ⟨_, rfl, (unsent_of_none h).close⟩
  | other => exact takes_same h

/-- Unless a part of a message is read, the first part of a pass leaves no incomplete one. -/
theorem handleSocket_isSome {p : Pass} {req : Clnt} (hp : Whole p) (h : Unsent req) :
    ∃ handled, handleSocket bodySize p req = some handled ∧ Unsent handled.req ∧
      handled.read ≠ .incomplete := by
  unfold handleSocket
  split
  · rename_i hrd
    have hbuf := Option.isNone_iff_eq_none.1 hrd.2
    unfold handleRead
    split
    · exact ⟨_, rfl, h, by simp⟩
    · rename_i m hread
      obtain ⟨r, hr, hunsent⟩ := takes_takeMessage bodySize p.now p.env hbuf m
      rw [hr]
      refine ⟨_, rfl, ?_, by simp⟩
      dsimp only
      split
      · exact hunsent
      · exact hunsent.close
    · exact ⟨_, rfl, h.close, by simp⟩
    · exact ⟨_, rfl, h.close, by simp⟩
    · rename_i hread
      exact (hp hread).elim
  · split
    · rename_i hwr
      obtain ⟨w, hw, hunsent⟩ := handleWrite_isSome p.now (p.send 0) h hwr.2
      rw [hw]
      refine ⟨_, rfl, ?_, by simp⟩
      dsimp only
      split
      · exact hunsent
      · exact hunsent.close
    · exact ⟨_, rfl, h, by simp⟩

theorem succeeds_indicate {p : Pass} {req : Clnt} (h : req.io.writeBuf = none) :
    Succeeds (indicate bodySize p blocked req) := by
  have hqueued (type : MsgType) (f : Clnt → Clnt) (hf : ∀ req, (f req).io = req.io) :
      Succeeds ((msgWrite p.now type (bodySize type) req).map f) := by
    obtain ⟨req', hqueue, hunsent⟩ :=
      succeeds_msgWrite p.now type (bodySize type) h
    refine ⟨f req', by rw [hqueue, Option.map_some], ?_⟩
    unfold Unsent
    rw [hf]
    exact hunsent
  unfold indicate
  split
  · exact hqueued _ _ fun _ => rfl
  · split
    · exact hqueued _ _ fun _ => rfl
    · split
      · exact hqueued _ _ fun _ => rfl
      · exact succeeds_forwardSliced _ _ _ _ _ (unsent_of_none h) (by simp [h])

theorem Unsent.checkTimeouts {now : Int} {req : Clnt} (h : Unsent req) :
    Unsent (checkTimeouts now req) := by
  by_cases hlate : Late now req
  · rw [checkTimeouts_late hlate]
    exact h.close
  · rw [checkTimeouts_not_late hlate]
    exact h

/-- No assertion fails in a pass which does not stop in the middle of a message. -/
theorem succeeds_pass {p : Pass} {req : Clnt} (hp : Whole p) (h : Unsent req) :
    Succeeds (pass bodySize p req) := by
  obtain ⟨handled, hsocket, hunsent, hread⟩ := handleSocket_isSome bodySize hp h
  rw [pass, hsocket, Option.bind_some]
  split
  · exact ⟨_, rfl, hunsent.close.checkTimeouts⟩
  · cases hidle : isIdle handled with
    | none =>
      unfold isIdle at hidle
      split at hidle
      · cases hidle
      · cases hidle
      · rename_i hpart
        exact (hread hpart).elim
    | some idle =>
      rw [Option.bind_some]
      split
      · rename_i htrue
        have hbuf := writeBuf_of_isIdle (htrue ▸ hidle)
        obtain ⟨req', hindicate, hunsent'⟩ := succeeds_indicate bodySize hbuf
        rw [hindicate, Option.map_some]
        exact ⟨_, rfl, hunsent'.checkTimeouts⟩
      · exact ⟨_, rfl, hunsent.checkTimeouts⟩

/-- No assertion fails in a run whose passes do not stop in the middle of a message. -/
theorem run_isSome (now : Int) (events : List Event) (h : ∀ p, .pass p ∈ events → Whole p) :
    Succeeds (run bodySize (addConnection now) events) := by
  have hrun (req : Clnt) (hunsent : Unsent req) : Succeeds (run bodySize req events) := by
    induction events generalizing req with
    | nil => exact ⟨req, rfl, hunsent⟩
    | cons e events ih =>
      have hstep : Succeeds (step bodySize req e) := by
        cases e with
        | pass p =>
          rw [step]
          split
          · exact ⟨req, rfl, hunsent⟩
          · exact succeeds_pass bodySize (h p List.mem_cons_self) hunsent
        | others token chnStatusInd sliced =>
          rw [step]
          split
          · exact ⟨req, rfl, hunsent⟩
          · exact ⟨_, rfl, hunsent⟩
      obtain ⟨req₁, hs, hunsent₁⟩ := hstep
      obtain ⟨req₂, hr, hunsent₂⟩ := ih (fun p hp => h p (List.mem_cons_of_mem _ hp)) req₁ hunsent₁
      exact ⟨req₂, by rw [run, List.foldlM_cons, hs]; exact hr, hunsent₂⟩
  exact hrun (addConnection now) (unsent_of_none rfl)

theorem run_isSome_confirmed : Succeeds
    (run (fun _ => 4) (addConnection 0) [readPass (.connectReq true true), writePass]) :=
  run_isSome (fun _ => 4) 0 _ (by simp [Whole, readPass, writePass])

end ProxyReplies

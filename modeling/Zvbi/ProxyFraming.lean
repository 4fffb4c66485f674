import Mathlib.Data.List.Basic

/-!
# Framing of the proxy messages

A message is read in two phases, first a header with its length and then the rest. The
socket returns any part of the bytes which are available, so that a message can come
in many parts. The daemon reads at most once in a pass over its clients. A client of
the daemon waits in a loop, for the reply of a call or for a message with data.

What the two sides do with a complete message is not modelled.
-/

namespace ProxyFraming

structure Msg where
  type : Nat
  body : List UInt8

/-- `sizeof(VBIPROXY_MSG_HEADER)`. -/
def headerSize : Nat := 8

def htonl (n : Nat) : List UInt8 :=
  [UInt8.ofNat (n / 0x1000000), UInt8.ofNat (n / 0x10000), UInt8.ofNat (n / 0x100), UInt8.ofNat n]

/-- `ntohl()` of the first four bytes. -/
def ntohl : List UInt8 → Nat
  | a :: b :: c :: d :: _ => a.toNat * 0x1000000 + b.toNat * 0x10000 + c.toNat * 0x100 + d.toNat
  | _ => 0

def Msg.len (m : Msg) : Nat := headerSize + m.body.length

def encode (m : Msg) : List UInt8 := htonl m.len ++ (htonl m.type ++ m.body)

def encodeAll (msgs : List Msg) : List UInt8 := msgs.flatMap encode

/-- `VBIPROXY_MSG_TYPE`. -/
inductive MsgType
  | connectReq
  | connectCnf
  | connectRej
  | closeReq
  | slicedInd
  | serviceReq
  | serviceCnf
  | serviceRej
  | chnTokenReq
  | chnTokenCnf
  | chnTokenInd
  | chnNotifyReq
  | chnNotifyCnf
  | chnReclaimReq
  | chnReclaimCnf
  | chnSuspendReq
  | chnSuspendCnf
  | chnSuspendRej
  | chnIoctlReq
  | chnIoctlCnf
  | chnIoctlRej
  | chnChangeInd
  | daemonPidReq
  | daemonPidCnf
  deriving DecidableEq

def msgTypes : List MsgType :=
  [.connectReq, .connectCnf, .connectRej, .closeReq, .slicedInd, .serviceReq, .serviceCnf,
    .serviceRej, .chnTokenReq, .chnTokenCnf, .chnTokenInd, .chnNotifyReq, .chnNotifyCnf,
    .chnReclaimReq, .chnReclaimCnf, .chnSuspendReq, .chnSuspendCnf, .chnSuspendRej,
    .chnIoctlReq, .chnIoctlCnf, .chnIoctlRej, .chnChangeInd, .daemonPidReq, .daemonPidCnf]

/-- How the compiler lays out the bodies of the messages: the size of each structure,
whether `protocol_magic` is right, and the values of the fields the checks use. -/
structure Layout where
  size : MsgType → Nat
  magicOk : MsgType → List UInt8 → Bool
  endianMagic : MsgType → List UInt8 → Nat
  argSize : MsgType → List UInt8 → Nat
  slicedLines : List UInt8 → Nat
  rawLines : List UInt8 → Nat
  slicedSize : Nat

def endianMagic : Nat := 0x11223344
def endianMismatch : Nat := 0x44332211
def rawLineSize : Nat := 2048

/-- `VBIPROXY_CHN_IOCTL_REQ_SIZE` and `VBIPROXY_CHN_IOCTL_CNF_SIZE`. -/
def Layout.ioctlSize (lay : Layout) (t : MsgType) (body : List UInt8) : Nat :=
  lay.size t + lay.argSize t body - 1

/-- `VBIPROXY_SLICED_IND_SIZE`. -/
def Layout.slicedIndSize (lay : Layout) (body : List UInt8) : Nat :=
  lay.size .slicedInd - lay.slicedSize + lay.slicedLines body * lay.slicedSize +
    lay.rawLines body * rawLineSize

/-- `vbi_proxyd_check_msg()`. A request to suspend has the size of a notification. -/
def proxydCheckMsg (lay : Layout) (len : Nat) (m : Msg) : Bool :=
  match msgTypes[m.type]? with
  | some .connectReq =>
    len = headerSize + lay.size .connectReq && lay.magicOk .connectReq m.body &&
      (lay.endianMagic .connectReq m.body = endianMagic ||
        lay.endianMagic .connectReq m.body = endianMismatch)
  | some .serviceReq => len = headerSize + lay.size .serviceReq
  | some .chnTokenReq => len = headerSize + lay.size .chnTokenReq
  | some .chnNotifyReq => len = headerSize + lay.size .chnNotifyReq
  | some .chnSuspendReq => len = headerSize + lay.size .chnNotifyReq
  | some .chnIoctlReq => len = headerSize + lay.ioctlSize .chnIoctlReq m.body
  | some .chnReclaimCnf => len = headerSize + lay.size .chnReclaimCnf
  | some .closeReq => len = headerSize
  | some .daemonPidReq =>
    len = headerSize + lay.size .daemonPidReq && lay.magicOk .daemonPidReq m.body &&
      lay.endianMagic .daemonPidReq m.body = endianMagic
  | some .daemonPidCnf => len = headerSize + lay.size .daemonPidCnf
  | _ => false

/-- `proxy_client_check_msg()`. -/
def proxyClientCheckMsg (lay : Layout) (len : Nat) (m : Msg) : Bool :=
  match msgTypes[m.type]? with
  | some .connectCnf =>
    len = headerSize + lay.size .connectCnf && lay.magicOk .connectCnf m.body
  | some .connectRej =>
    len = headerSize + lay.size .connectRej && lay.magicOk .connectRej m.body
  | some .slicedInd => len = headerSize + lay.slicedIndSize m.body
  | some .serviceCnf => len = headerSize + lay.size .serviceCnf
  | some .serviceRej => len = headerSize + lay.size .serviceRej
  | some .closeReq => len = headerSize
  | some .chnTokenCnf => len = headerSize + lay.size .chnTokenCnf
  | some .chnTokenInd => len = headerSize + lay.size .chnTokenInd
  | some .chnNotifyCnf => len = headerSize + lay.size .chnNotifyCnf
  | some .chnSuspendCnf => len = headerSize + lay.size .chnSuspendCnf
  | some .chnSuspendRej => len = headerSize + lay.size .chnSuspendRej
  | some .chnIoctlCnf => len = headerSize + lay.ioctlSize .chnIoctlCnf m.body
  | some .chnIoctlRej => len = headerSize + lay.size .chnIoctlRej
  | some .chnReclaimReq => len = headerSize + lay.size .chnReclaimReq
  | some .chnChangeInd => len = headerSize + lay.size .chnChangeInd
  | _ => false

/-- A message which fits in the buffer of the receiver and passes its check. -/
structure WellFormed (check : Nat → Msg → Bool) (maxReadLen : Nat) (m : Msg) : Prop where
  type : m.type < 0x100000000
  len : m.len < 0x100000000
  fits : m.len ≤ maxReadLen
  check : check m.len m

/-- The messages a peer may send. -/
abbrev Sent (check : Nat → Msg → Bool) (maxReadLen : Nat) : Type :=
  { m : Msg // WellFormed check maxReadLen m }

/-- A connection: the bytes which were sent and not yet received, and what the next
calls of `recv()` return, which is at most `n + 1` bytes or `EAGAIN`. -/
structure Socket where
  pending : List UInt8
  script : List (Option Nat)

/-- `recv()`. Without bytes it is `EAGAIN`. -/
def recv (s : Socket) (len : Nat) : Option (List UInt8) × Socket :=
  match s.script with
  | [] => (none, s)
  | none :: script => (none, ⟨s.pending, script⟩)
  | some n :: script =>
    match s.pending.take (min len (n + 1)) with
    | [] => (none, ⟨s.pending, script⟩)
    | bytes => (some bytes, ⟨s.pending.drop (min len (n + 1)), script⟩)

/-- The read side of `VBIPROXY_MSG_STATE`, where `readOff` is the length of `buf`. The
buffer holds the message in network byte order. -/
structure MsgState where
  socket : Socket
  buf : List UInt8
  readLen : Nat

/-- The second phase, with the assertion that the message fits. The length which is
requested is an unsigned difference. -/
def readBody (maxReadLen : Nat) (result : Bool) (io : MsgState) : Option (Bool × MsgState) :=
  if io.readLen ≤ maxReadLen then
    let r := recv io.socket ((io.readLen + 0x100000000 - io.buf.length) % 0x100000000)
    some (result, ⟨r.2, io.buf ++ r.1.getD [], io.readLen⟩)
  else
    none

/-- `vbi_proxy_msg_handle_read()`. -/
def handleRead (maxReadLen : Nat) (io : MsgState) : Option (Bool × MsgState) :=
  if io.buf.length < headerSize then
    if io.readLen = 0 then
      let r := recv io.socket (headerSize - io.buf.length)
      match r.1 with
      | none => some (true, { io with socket := r.2 })
      | some bytes =>
        let buf := io.buf ++ bytes
        if headerSize ≤ buf.length then
          readBody maxReadLen (ntohl buf ≤ maxReadLen && headerSize ≤ ntohl buf)
            ⟨r.2, buf, ntohl buf⟩
        else
          some (true, ⟨r.2, buf, 0⟩)
    else
      none
  else
    readBody maxReadLen true io

/-- The assertion of the idle tests and of `vbi_proxy_msg_close_read()`. -/
def Settled (io : MsgState) : Prop := io.buf.length = 0 ∨ io.buf.length = io.readLen

instance (io : MsgState) : Decidable (Settled io) := inferInstanceAs (Decidable (_ ∨ _))

/-- `vbi_proxy_msg_close_read()`. -/
def closeRead (io : MsgState) : MsgState := ⟨io.socket, [], 0⟩

def message (io : MsgState) : Msg :=
  ⟨ntohl (io.buf.drop 4), (io.buf.take io.readLen).drop headerSize⟩

structure Clnt where
  io : MsgState
  received : List Msg
  closed : Bool

def takeRead (lay : Layout) (req : Clnt) (result : Bool) (io : MsgState) : Clnt :=
  if result then
    if io.buf.length ≠ 0 ∧ io.buf.length = io.readLen then
      if proxydCheckMsg lay io.readLen (message io) then
        { req with io := closeRead io, received := req.received ++ [message io] }
      else
        { req with io := io, closed := true }
    else
      { req with io := io }
  else
    { req with io := io, closed := true }

/-- A pass of `vbi_proxyd_handle_client_sockets()` over a client which can be read, with
the assertion of the test whether the connection is idle. -/
def daemonPass (lay : Layout) (maxReadLen : Nat) (req : Clnt) : Option Clnt :=
  if req.closed then
    some req
  else
    (handleRead maxReadLen req.io).bind fun r =>
      let req := takeRead lay req r.1 r.2
      if Settled req.io then some req else none

def daemonRun (lay : Layout) (maxReadLen : Nat) : Nat → Clnt → Option Clnt
  | 0, req => some req
  | n + 1, req => (daemonPass lay maxReadLen req).bind (daemonRun lay maxReadLen n)

/-- What a client of the daemon does: nothing, wait in `proxy_client_wait_idle()` for the
rest of a message and then call the daemon, wait in `proxy_client_rpc()` for one of two
replies, or wait in `proxy_client_read_message()`. -/
inductive Mode
  | idle
  | waitIdle (reply1 reply2 : Nat)
  | rpc (reply1 reply2 : Nat)
  | readMessage

/-- `vbi_proxy_client`, with the messages it received. -/
structure ProxyClient where
  io : MsgState
  mode : Mode
  received : List Msg
  failed : Bool

/-- A call of the daemon, a call to read a message, or the end of a `select()` which waits
for the socket. -/
inductive Event
  | callRpc (reply1 reply2 : Nat)
  | callReadMessage
  | readable
  | timeout

/-- Check a message and go on in `mode`, with the assertion of `vbi_proxy_msg_close_read()`. -/
def takeMessage (lay : Layout) (vpc : ProxyClient) (io : MsgState) (mode : Mode) :
    Option ProxyClient :=
  if proxyClientCheckMsg lay io.readLen (message io) then
    if Settled io then
      some { vpc with io := closeRead io, mode := mode, received := vpc.received ++ [message io] }
    else
      none
  else
    some { vpc with io := io, failed := true }

def afterReply (type reply1 reply2 : Nat) : Mode :=
  if type = reply1 ∨ type = reply2 then .idle else .rpc reply1 reply2

/-- Start a call. The assertion is that of `vbi_proxy_msg_write()` for the request. -/
def callRpc (lay : Layout) (reply1 reply2 : Nat) (vpc : ProxyClient) : Option ProxyClient :=
  if vpc.io.buf.length = 0 then
    if vpc.io.readLen = 0 then some { vpc with mode := .rpc reply1 reply2 } else none
  else if vpc.io.buf.length < vpc.io.readLen then
    some { vpc with mode := .waitIdle reply1 reply2 }
  else
    takeMessage lay vpc vpc.io (.rpc reply1 reply2)

/-- Start to read a message, with the assertion of `proxy_client_read_message()`. -/
def callReadMessage (vpc : ProxyClient) : Option ProxyClient :=
  if vpc.io.buf.length = 0 ∨ vpc.io.readLen < vpc.io.buf.length then
    some { vpc with mode := .readMessage }
  else
    none

def takeClientRead (lay : Layout) (vpc : ProxyClient) (io : MsgState) : Option ProxyClient :=
  match vpc.mode with
  | .idle => some vpc
  | .waitIdle reply1 reply2 =>
    if io.buf.length < io.readLen then
      some { vpc with io := io }
    else
      takeMessage lay vpc io (.rpc reply1 reply2)
  | .rpc reply1 reply2 =>
    if io.buf.length = 0 ∨ io.buf.length < io.readLen then
      some { vpc with io := io }
    else
      takeMessage lay vpc io (afterReply (message io).type reply1 reply2)
  | .readMessage =>
    if io.buf.length < io.readLen then
      some { vpc with io := io }
    else
      takeMessage lay vpc io .idle

def clientRead (lay : Layout) (maxReadLen : Nat) (vpc : ProxyClient) : Option ProxyClient :=
  (handleRead maxReadLen vpc.io).bind fun r =>
    if r.1 then takeClientRead lay vpc r.2 else some { vpc with io := r.2, failed := true }

def clientTimeout (vpc : ProxyClient) : ProxyClient :=
  match vpc.mode with
  | .idle => vpc
  | .waitIdle _ _ => { vpc with failed := true }
  | .rpc _ _ => { vpc with failed := true }
  | .readMessage => { vpc with mode := .idle }

def Mode.waits : Mode → Bool
  | .idle => false
  | _ => true

/-- An event, which has no result if an assertion fails. A client which failed has closed
its connection. Calls are made while it does not wait, and `select()` ends while it does. -/
def clientStep (lay : Layout) (maxReadLen : Nat) (vpc : ProxyClient) (e : Event) :
    Option ProxyClient :=
  if vpc.failed then
    some vpc
  else
    match e with
    | .callRpc reply1 reply2 => if vpc.mode.waits then some vpc else callRpc lay reply1 reply2 vpc
    | .callReadMessage => if vpc.mode.waits then some vpc else callReadMessage vpc
    | .readable => if vpc.mode.waits then clientRead lay maxReadLen vpc else some vpc
    | .timeout => some (clientTimeout vpc)

def clientRun (lay : Layout) (maxReadLen : Nat) (vpc : ProxyClient) (events : List Event) :
    Option ProxyClient :=
  events.foldlM (clientStep lay maxReadLen) vpc

/-- The messages which were received are the first ones of those which were sent, and
the bytes of the others are in the buffer and on their way. -/
def Receiving (msgs received : List Msg) (io : MsgState) : Prop :=
  ∃ rest, msgs = received ++ rest ∧ io.buf ++ io.socket.pending = encodeAll rest

/-- A connection over which these messages are sent. -/
def connection (msgs : List Msg) (script : List (Option Nat)) : MsgState :=
  ⟨⟨encodeAll msgs, script⟩, [], 0⟩

def daemonAfter (lay : Layout) (maxReadLen : Nat) (msgs : List Msg)
    (script : List (Option Nat)) (n : Nat) : Option Clnt :=
  daemonRun lay maxReadLen n ⟨connection msgs script, [], false⟩

def newClient (msgs : List Msg) (script : List (Option Nat)) : ProxyClient :=
  ⟨connection msgs script, .idle, [], false⟩

def DaemonReceives (lay : Layout) (maxReadLen : Nat) (msgs : List Msg)
    (script : List (Option Nat)) (n : Nat) : Prop :=
  ∃ req, daemonAfter lay maxReadLen msgs script n = some req ∧ req.closed = false ∧
    Receiving msgs req.received req.io

/-- A client of the daemon receives what is sent. -/
def ClientReceives (lay : Layout) (maxReadLen : Nat) (msgs : List Msg)
    (script : List (Option Nat)) (events : List Event) : Prop :=
  ∃ vpc, clientRun lay maxReadLen (newClient msgs script) events = some vpc ∧
    vpc.failed = false ∧ Receiving msgs vpc.received vpc.io

@[simp] theorem length_htonl (n : Nat) : (htonl n).length = 4 := rfl

theorem ntohl_htonl_append {n : Nat} (h : n < 0x100000000) (l : List UInt8) :
    ntohl (htonl n ++ l) = n := by
  simp only [htonl, List.cons_append, ntohl, UInt8.toNat_ofNat']
  omega

@[simp] theorem length_encode (m : Msg) : (encode m).length = m.len := by
  simp only [encode, Msg.len, headerSize, List.length_append, length_htonl]
  omega

@[simp] theorem encodeAll_nil : encodeAll [] = [] := rfl

@[simp] theorem encodeAll_cons (m : Msg) (msgs : List Msg) :
    encodeAll (m :: msgs) = encode m ++ encodeAll msgs := rfl

theorem headerSize_le_len (m : Msg) : headerSize ≤ m.len := Nat.le_add_right _ _

/-- The beginning of a message which holds the header holds its length. -/
theorem ntohl_of_prefix {m : Msg} (hm : m.len < 0x100000000) {buf rest : List UInt8}
    (h : buf ++ rest = encode m) (hbuf : headerSize ≤ buf.length) : ntohl buf = m.len := by
  have hhead : buf = htonl m.len ++ buf.drop 4 := by
    have htake : (buf ++ rest).take 4 = htonl m.len := by
      rw [h, encode, List.take_append_of_le_length (by simp), List.take_of_length_le (by simp)]
    rw [List.take_append_of_le_length (by unfold headerSize at hbuf; omega)] at htake
    rw [← htake, List.take_append_drop]
  rw [hhead, ntohl_htonl_append hm]

/-- The first bytes of a stream of messages are those of the first message. -/
theorem encode_of_prefix {m : Msg} {msgs : List Msg} {buf rest : List UInt8}
    (h : buf ++ rest = encodeAll (m :: msgs)) (hbuf : buf.length ≤ m.len) :
    ∃ tail, buf ++ tail = encode m ∧ rest = tail ++ encodeAll msgs := by
  rw [encodeAll_cons] at h
  have hhead : buf <+: encode m :=
    List.prefix_of_prefix_length_le ⟨rest, h⟩ ⟨encodeAll msgs, rfl⟩ (by simpa using hbuf)
  obtain ⟨tail, htail⟩ := hhead
  refine ⟨tail, htail, ?_⟩
  rw [← htail, List.append_assoc] at h
  exact List.append_cancel_left h

/-- Only the messages which were sent completely come before the end of the stream. -/
theorem exists_cons_of_encodeAll {msgs : List Msg} {bytes rest : List UInt8}
    (h : bytes ++ rest = encodeAll msgs) (hbytes : bytes ≠ []) :
    ∃ m msgs', msgs = m :: msgs' := by
  cases msgs with
  | nil => simp [hbytes] at h
  | cons m msgs' => exact ⟨m, msgs', rfl⟩

/-- What `recv()` does to the stream. -/
structure Recv (s : Socket) (len : Nat) (r : Option (List UInt8) × Socket) : Prop where
  stream : r.1.getD [] ++ r.2.pending = s.pending
  length : (r.1.getD []).length ≤ len
  nonempty : ∀ bytes, r.1 = some bytes → bytes ≠ []

theorem recv_spec (s : Socket) (len : Nat) : Recv s len (recv s len) := by
  have hagain (s' : Socket) (h : s'.pending = s.pending) : Recv s len (none, s') :=
    ⟨by simpa using h, Nat.zero_le _, by simp⟩
  unfold recv
  split
  · exact hagain s rfl
  · exact hagain _ rfl
  · rename_i n script _
    split
    · exact hagain _ rfl
    · rename_i bytes hbytes
      have htake : (some (s.pending.take (min len (n + 1)))).getD [] =
        s.pending.take (min len (n + 1)) := rfl
      refine ⟨List.take_append_drop _ _, ?_, ?_⟩
      · rw [htake, List.length_take]
        omega
      · simpa using hbytes

/-- The messages `rest` are still to be received, and the first one is read up to `buf`. -/
structure Body (m : Msg) (rest : List Msg) (io : MsgState) : Prop where
  stream : io.buf ++ io.socket.pending = encodeAll (m :: rest)
  header : headerSize ≤ io.buf.length
  length : io.buf.length ≤ m.len
  readLen : io.readLen = m.len

structure Between (rest : List Msg) (io : MsgState) : Prop where
  stream : io.socket.pending = encodeAll rest
  buf : io.buf = []
  readLen : io.readLen = 0

section Read
variable {check : Nat → Msg → Bool} {maxReadLen : Nat} {m : Msg} {rest : List Msg} {io : MsgState}

theorem Body.length_ne_zero (h : Body m rest io) : io.buf.length ≠ 0 := by
  have := h.header
  unfold headerSize at this
  omega

theorem Body.ne_nil (h : Body m rest io) : io.buf ≠ [] := fun hnil =>
  h.length_ne_zero (by rw [hnil, List.length_nil])

theorem Body.readBody (hm : WellFormed check maxReadLen m) (h : Body m rest io) (result : Bool) :
    ∃ io', readBody maxReadLen result io = some (result, io') ∧ Body m rest io' ∧
      io'.buf = io.buf ++ (recv io.socket (m.len - io.buf.length)).1.getD [] := by
  have hfits : io.readLen ≤ maxReadLen := h.readLen ▸ hm.fits
  have hlen : (io.readLen + 0x100000000 - io.buf.length) % 0x100000000 = m.len - io.buf.length := by
    have := h.length
    have := hm.len
    rw [h.readLen]
    omega
  have hrecv := recv_spec io.socket (m.len - io.buf.length)
  refine ⟨_, if_pos hfits, ?_, ?_⟩
  · rw [hlen]
    refine ⟨?_, ?_, ?_, h.readLen⟩
    · dsimp only
      rw [List.append_assoc, hrecv.stream, h.stream]
    · have := h.header
      simp only [List.length_append]
      omega
    · have := h.length
      have := hrecv.length
      simp only [List.length_append]
      omega
  · rw [hlen]

theorem Body.complete (hm : WellFormed check maxReadLen m) (h : Body m rest io)
    (hcomplete : io.buf.length = io.readLen) :
    message io = m ∧ Between rest (closeRead io) := by
  obtain ⟨tail, htail, hpending⟩ := encode_of_prefix h.stream h.length
  have hnil : tail = [] := by
    have hlen := congrArg List.length htail
    rw [List.length_append, length_encode, hcomplete, h.readLen] at hlen
    exact List.length_eq_zero_iff.1 (by omega)
  subst hnil
  rw [List.append_nil] at htail
  refine ⟨?_, hpending, rfl, rfl⟩
  have htake : io.buf.take io.readLen = io.buf := List.take_of_length_le (by omega)
  have htype : io.buf.drop 4 = htonl m.type ++ m.body := by
    rw [htail, encode, List.drop_append_of_le_length (by simp), List.drop_of_length_le (by simp)]
    rfl
  have hbody : io.buf.drop headerSize = m.body := by
    have hdrop : io.buf.drop headerSize = (io.buf.drop 4).drop 4 := by
      rw [List.drop_drop]
      rfl
    rw [hdrop, htype, List.drop_append_of_le_length (by simp), List.drop_of_length_le (by simp)]
    rfl
  rw [message, htake, htype, hbody, ntohl_htonl_append hm.type]

end Read

/-- What the first read of a message ends with: nothing was available, a part of the
header was, or the header and what the second `recv()` returns. -/
inductive FirstRead (rest : List Msg) (io io' : MsgState) : Prop
  | nothing (hrecv : (recv io.socket headerSize).1 = none) (h : Between rest io')
  | part (header : List UInt8) (hrecv : (recv io.socket headerSize).1 = some header)
      (hlen : header.length < headerSize) (hne : header ≠ []) (hbuf : io'.buf = header)
      (hreadLen : io'.readLen = 0)
  | body (header : List UInt8) (m : Msg) (rest' : List Msg)
      (hrecv : (recv io.socket headerSize).1 = some header) (hlen : header.length = headerSize)
      (hrest : rest = m :: rest') (hntohl : ntohl header = m.len) (h : Body m rest' io')
      (hbuf : io'.buf = header ++
        (recv (recv io.socket headerSize).2 (m.len - headerSize)).1.getD [])

section Handle
variable {check : Nat → Msg → Bool} {maxReadLen : Nat} {rest : List Msg} {io : MsgState}

theorem handleRead_between (hrest : ∀ m ∈ rest, WellFormed check maxReadLen m)
    (h : Between rest io) :
    ∃ io', handleRead maxReadLen io = some (true, io') ∧ FirstRead rest io io' := by
  have hrecv := recv_spec io.socket headerSize
  have hphase : io.buf.length < headerSize := by simp [h.buf, headerSize]
  have hlen : headerSize - io.buf.length = headerSize := by simp [h.buf]
  rw [handleRead, if_pos hphase, if_pos h.readLen, hlen]
  dsimp only
  cases hheader : (recv io.socket headerSize).1 with
  | none =>
    have hstream := hrecv.stream
    rw [hheader] at hstream
    exact ⟨_, rfl, .nothing hheader ⟨hstream.trans h.stream, h.buf, h.readLen⟩⟩
  | some header =>
    have hstream := hrecv.stream
    have hle := hrecv.length
    have hne := hrecv.nonempty header hheader
    rw [hheader, Option.getD_some] at hstream hle
    rw [h.stream] at hstream
    dsimp only
    rw [h.buf, List.nil_append]
    by_cases hpart : header.length < headerSize
    · rw [if_neg (by omega)]
      exact ⟨_, rfl, .part header hheader hpart hne rfl rfl⟩
    · have heq : header.length = headerSize := by omega
      have hlong : headerSize ≤ header.length := by omega
      obtain ⟨m, rest', rfl⟩ := exists_cons_of_encodeAll hstream hne
      have hm := hrest m List.mem_cons_self
      have hmlen := headerSize_le_len m
      obtain ⟨tail, htail, -⟩ := encode_of_prefix hstream (by omega)
      have hntohl := ntohl_of_prefix hm.len htail (by omega)
      have hbody : Body m rest' ⟨(recv io.socket headerSize).2, header, ntohl header⟩ :=
        ⟨hstream, hlong, by dsimp only; omega, hntohl⟩
      have hok : (decide (ntohl header ≤ maxReadLen) && decide (headerSize ≤ ntohl header)) =
          true := by
        simp [hntohl, hm.fits, hmlen]
      rw [if_pos hlong, hok]
      obtain ⟨io', hread, hbody', hbuf⟩ := hbody.readBody hm true
      refine ⟨io', hread, .body header m rest' hheader heq rfl hntohl hbody' ?_⟩
      rw [hbuf, heq]

theorem handleRead_body {m : Msg} {rest' : List Msg} (hm : WellFormed check maxReadLen m)
    (h : Body m rest' io) :
    ∃ io', handleRead maxReadLen io = some (true, io') ∧ Body m rest' io' := by
  have hphase : ¬ io.buf.length < headerSize := by
    have := h.header
    omega
  rw [handleRead, if_neg hphase]
  obtain ⟨io', hread, hbody, -⟩ := h.readBody hm true
  exact ⟨io', hread, hbody⟩

end Handle

/-- The next two calls of `recv()` return a whole message, or the first one returns
nothing. -/
def DeliversWhole (s : Socket) : Prop :=
  ∀ header, (recv s headerSize).1 = some header →
    header.length = headerSize ∧
      ((recv (recv s headerSize).2 (ntohl header - headerSize)).1.getD []).length =
        ntohl header - headerSize

structure DaemonInv (msgs : List Msg) (req : Clnt) : Prop where
  isOpen : req.closed = false
  between : ∃ rest, msgs = req.received ++ rest ∧ Between rest req.io

section Daemon
variable {lay : Layout} {maxReadLen : Nat} {msgs : List Msg} {req : Clnt}

theorem takeRead_nothing {io : MsgState} (h : io.buf.length ≠ io.readLen ∨ io.buf = []) :
    takeRead lay req true io = { req with io := io } := by
  have hno : ¬ (io.buf.length ≠ 0 ∧ io.buf.length = io.readLen) := by
    rintro ⟨hne, heq⟩
    rcases h with h | h
    · exact h heq
    · simp [h] at hne
  rw [takeRead, if_pos rfl, if_neg hno]

theorem takeRead_complete {m : Msg} {rest : List Msg} {io : MsgState}
    (hm : WellFormed (proxydCheckMsg lay) maxReadLen m) (h : Body m rest io)
    (hcomplete : io.buf.length = io.readLen) :
    takeRead lay req true io =
      { req with io := closeRead io, received := req.received ++ [m] } := by
  have hmessage := (h.complete hm hcomplete).1
  rw [takeRead, if_pos rfl, if_pos ⟨h.length_ne_zero, hcomplete⟩, hmessage, h.readLen,
    if_pos hm.check]

/-- A pass receives a message or nothing, if `recv()` delivers so. -/
theorem daemonPass_whole (hmsgs : ∀ m ∈ msgs, WellFormed (proxydCheckMsg lay) maxReadLen m)
    (h : DaemonInv msgs req) (hwhole : DeliversWhole req.io.socket) :
    ∃ req', daemonPass lay maxReadLen req = some req' ∧ DaemonInv msgs req' := by
  obtain ⟨rest, hsplit, hbetween⟩ := h.between
  have hrest : ∀ m ∈ rest, WellFormed (proxydCheckMsg lay) maxReadLen m :=
    fun m hm => hmsgs m (hsplit ▸ List.mem_append_right _ hm)
  obtain ⟨io', hread, hfirst⟩ := handleRead_between hrest hbetween
  rw [daemonPass, if_neg (by simp [h.isOpen]), hread, Option.bind_some]
  cases hfirst with
  | nothing hrecv hb =>
    rw [takeRead_nothing (Or.inr hb.buf)]
    exact ⟨_, if_pos (Or.inl (by simp [hb.buf])), h.isOpen, rest, hsplit, hb⟩
  | part header hrecv hlen hne hbuf hreadLen =>
    have := (hwhole header hrecv).1
    omega
  | body header m rest' hrecv hlen hrest' hntohl hbody hbuf =>
    subst hrest'
    have hbodyLen := (hwhole header hrecv).2
    rw [hntohl] at hbodyLen
    have hcomplete : io'.buf.length = io'.readLen := by
      have := headerSize_le_len m
      rw [hbuf, List.length_append, hlen, hbodyLen, hbody.readLen]
      omega
    have hm := hrest m List.mem_cons_self
    dsimp only
    rw [takeRead_complete hm hbody hcomplete]
    refine ⟨_, if_pos (Or.inl rfl), h.isOpen, rest', ?_, (hbody.complete hm hcomplete).2⟩
    simp [hsplit]

/-- An assertion fails in a pass which receives a part of a message. -/
theorem daemonPass_part (hmsgs : ∀ m ∈ msgs, WellFormed (proxydCheckMsg lay) maxReadLen m)
    (h : DaemonInv msgs req) (hpart : ¬ DeliversWhole req.io.socket) :
    daemonPass lay maxReadLen req = none := by
  obtain ⟨rest, hsplit, hbetween⟩ := h.between
  have hrest : ∀ m ∈ rest, WellFormed (proxydCheckMsg lay) maxReadLen m :=
    fun m hm => hmsgs m (hsplit ▸ List.mem_append_right _ hm)
  obtain ⟨io', hread, hfirst⟩ := handleRead_between hrest hbetween
  rw [daemonPass, if_neg (by simp [h.isOpen]), hread, Option.bind_some]
  cases hfirst with
  | nothing hrecv hb =>
    refine (hpart fun header hheader => ?_).elim
    rw [hrecv] at hheader
    cases hheader
  | part header hrecv hlen hne hbuf hreadLen =>
    have hlength : io'.buf.length ≠ 0 := by simpa [hbuf] using hne
    have hread : io'.buf.length ≠ io'.readLen := by omega
    dsimp only
    rw [takeRead_nothing (Or.inl hread)]
    exact if_neg fun hsettled => hsettled.elim hlength hread
  | body header m rest' hrecv hlen hrest' hntohl hbody hbuf =>
    have hread : io'.buf.length ≠ io'.readLen := by
      intro hcomplete
      refine hpart fun header' hheader' => ?_
      rw [hrecv] at hheader'
      cases hheader'
      rw [hbuf, List.length_append, hbody.readLen] at hcomplete
      refine ⟨hlen, ?_⟩
      rw [hntohl]
      omega
    dsimp only
    rw [takeRead_nothing (Or.inl hread)]
    exact if_neg fun hsettled => hsettled.elim hbody.length_ne_zero hread

/-- Every pass from a state which is reached delivers a whole message or nothing. -/
def PassesWhole (lay : Layout) (maxReadLen : Nat) (req : Clnt) (n : Nat) : Prop :=
  ∀ k < n, ∀ req', daemonRun lay maxReadLen k req = some req' → DeliversWhole req'.io.socket

theorem passesWhole_succ {n : Nat} (req' : Clnt)
    (hpass : daemonPass lay maxReadLen req = some req') :
    PassesWhole lay maxReadLen req (n + 1) ↔
      DeliversWhole req.io.socket ∧ PassesWhole lay maxReadLen req' n := by
  have hstep (k : Nat) :
      daemonRun lay maxReadLen (k + 1) req = daemonRun lay maxReadLen k req' := by
    rw [daemonRun, hpass, Option.bind_some]
  constructor
  · intro hwhole
    refine ⟨hwhole 0 (Nat.zero_lt_succ n) req rfl, fun k hk req'' hrun => ?_⟩
    exact hwhole (k + 1) (Nat.succ_lt_succ hk) req'' ((hstep k).trans hrun)
  · rintro ⟨hfirst, hwhole⟩ k hk req'' hrun
    cases k with
    | zero =>
      cases hrun
      exact hfirst
    | succ k => exact hwhole k (Nat.lt_of_succ_lt_succ hk) req'' ((hstep k).symm.trans hrun)

/-- The daemon receives what is sent if and only if all passes deliver whole messages. -/
theorem daemonRun_iff (hmsgs : ∀ m ∈ msgs, WellFormed (proxydCheckMsg lay) maxReadLen m)
    (n : Nat) (h : DaemonInv msgs req) :
    (∃ req', daemonRun lay maxReadLen n req = some req' ∧ req'.closed = false ∧
        Receiving msgs req'.received req'.io) ↔
      PassesWhole lay maxReadLen req n := by
  induction n generalizing req with
  | zero =>
    obtain ⟨rest, hsplit, hbetween⟩ := h.between
    refine iff_of_true ⟨req, rfl, h.isOpen, rest, hsplit, ?_⟩ fun k hk => by omega
    rw [hbetween.buf, List.nil_append, hbetween.stream]
  | succ n ih =>
    by_cases hwhole : DeliversWhole req.io.socket
    · obtain ⟨req', hpass, hinv⟩ := daemonPass_whole hmsgs h hwhole
      rw [passesWhole_succ req' hpass, daemonRun, hpass, Option.bind_some, ih hinv]
      exact ⟨fun hrun => ⟨hwhole, hrun⟩, fun hboth => hboth.2⟩
    · have hnone := daemonPass_part hmsgs h hwhole
      refine iff_of_false ?_ fun hpasses => hwhole (hpasses 0 (Nat.zero_lt_succ n) req rfl)
      rintro ⟨req', hrun, -⟩
      rw [daemonRun, hnone] at hrun
      cases hrun

end Daemon

theorem headerSize_le_of_check {lay : Layout} {len : Nat} {m : Msg}
    (h : proxyClientCheckMsg lay len m) : headerSize ≤ len := by
  unfold proxyClientCheckMsg at h
  split at h <;> simp only [Bool.and_eq_true, decide_eq_true_eq, Bool.false_eq_true] at h <;> omega

/-- The next call of `recv()` returns a whole header or nothing. -/
def HeaderWhole (s : Socket) : Prop :=
  ∀ header, (recv s headerSize).1 = some header → header.length = headerSize

/-- An event with which the framing works. A message is not read on in a new call to read
one, a header is not received in parts, and there is one when a message is read. The time
to wait does not end in a call of the daemon. -/
def Fits (vpc : ProxyClient) : Event → Prop
  | .callRpc _ _ => True
  | .callReadMessage => vpc.mode.waits = false → vpc.io.buf = []
  | .readable =>
    vpc.mode.waits → vpc.io.buf = [] → HeaderWhole vpc.io.socket ∧
      (vpc.mode = .readMessage → (recv vpc.io.socket headerSize).1 ≠ none)
  | .timeout => vpc.mode.waits → vpc.mode = .readMessage

structure ClientInv (msgs : List Msg) (vpc : ProxyClient) : Prop where
  isOpen : vpc.failed = false
  reading : ∃ rest, msgs = vpc.received ++ rest ∧
    (Between rest vpc.io ∨
      ∃ m rest', rest = m :: rest' ∧ Body m rest' vpc.io ∧ vpc.io.buf.length < vpc.io.readLen)
  waitIdle : ∀ reply1 reply2, vpc.mode = .waitIdle reply1 reply2 → vpc.io.buf ≠ []

def Fails (result : Option ProxyClient) : Prop :=
  ∀ vpc, result = some vpc → vpc.failed = true

def GoesOn (msgs : List Msg) (result : Option ProxyClient) : Prop :=
  ∃ vpc, result = some vpc ∧ ClientInv msgs vpc

section Client
variable {lay : Layout} {maxReadLen : Nat} {msgs : List Msg} {vpc : ProxyClient}

theorem goesOn_takeMessage {m : Msg} {rest : List Msg} {io : MsgState} {mode : Mode}
    (hm : WellFormed (proxyClientCheckMsg lay) maxReadLen m) (hopen : vpc.failed = false)
    (hsplit : msgs = vpc.received ++ m :: rest) (h : Body m rest io)
    (hcomplete : io.buf.length = io.readLen) (hmode : ∀ r1 r2, mode ≠ .waitIdle r1 r2) :
    GoesOn msgs (takeMessage lay vpc io mode) := by
  obtain ⟨hmessage, hbetween⟩ := h.complete hm hcomplete
  have hsettled : Settled io := Or.inr hcomplete
  rw [takeMessage, hmessage, h.readLen, if_pos hm.check, if_pos hsettled]
  refine ⟨_, rfl, hopen, ⟨rest, by simp [hsplit], Or.inl hbetween⟩, ?_⟩
  exact fun r1 r2 heq => (hmode r1 r2 heq).elim

/-- Without a whole header there is no message. -/
theorem fails_takeMessage {io : MsgState} {mode : Mode} (h : io.readLen = 0) :
    Fails (takeMessage lay vpc io mode) := by
  have hcheck : ¬ proxyClientCheckMsg lay io.readLen (message io) := by
    intro hcheck
    have := headerSize_le_of_check hcheck
    unfold headerSize at this
    omega
  rw [takeMessage, if_neg hcheck]
  rintro _ ⟨⟩
  rfl

theorem goesOn_part {m : Msg} {rest : List Msg} {io : MsgState} (h : ClientInv msgs vpc)
    (hsplit : msgs = vpc.received ++ m :: rest) (hbody : Body m rest io)
    (hpart : io.buf.length < io.readLen) : ClientInv msgs { vpc with io := io } where
  isOpen := h.isOpen
  reading := ⟨m :: rest, hsplit, Or.inr ⟨m, rest, rfl, hbody, hpart⟩⟩
  waitIdle := fun _ _ _ => hbody.ne_nil

theorem mode_afterReply (type reply1 reply2 r1 r2 : Nat) :
    afterReply type reply1 reply2 ≠ .waitIdle r1 r2 := by
  unfold afterReply
  split <;> simp

theorem goesOn_takeClientRead {m : Msg} {rest : List Msg} {io : MsgState}
    (hm : WellFormed (proxyClientCheckMsg lay) maxReadLen m) (h : ClientInv msgs vpc)
    (hsplit : msgs = vpc.received ++ m :: rest) (hbody : Body m rest io) :
    GoesOn msgs (takeClientRead lay vpc io) := by
  have hle : io.buf.length ≤ io.readLen := hbody.readLen ▸ hbody.length
  have htake {mode : Mode} (hmode : ∀ r1 r2, mode ≠ .waitIdle r1 r2)
      (hcomplete : ¬ io.buf.length < io.readLen) :
      GoesOn msgs (takeMessage lay vpc io mode) :=
    goesOn_takeMessage hm h.isOpen hsplit hbody (by omega) hmode
  unfold takeClientRead
  split
  · exact ⟨vpc, rfl, h⟩
  · split
    · rename_i hpart
      exact ⟨_, rfl, goesOn_part h hsplit hbody hpart⟩
    · exact htake (by simp) (by assumption)
  · split
    · rename_i hpart
      exact ⟨_, rfl, goesOn_part h hsplit hbody (hpart.resolve_left hbody.length_ne_zero)⟩
    · rename_i hcomplete
      exact htake (mode_afterReply _ _ _) fun hpart => hcomplete (Or.inr hpart)
  · split
    · rename_i hpart
      exact ⟨_, rfl, goesOn_part h hsplit hbody hpart⟩
    · exact htake (by simp) (by assumption)

/-- After a read of nothing, a call of the daemon waits on. -/
theorem goesOn_nothing {rest : List Msg} {io : MsgState} (h : ClientInv msgs vpc)
    (hsplit : msgs = vpc.received ++ rest) (hbetween : Between rest io) {r1 r2 : Nat}
    (hmode : vpc.mode = .rpc r1 r2) : GoesOn msgs (takeClientRead lay vpc io) := by
  simp only [takeClientRead, hmode, hbetween.buf, List.length_nil, true_or, if_true]
  refine ⟨_, rfl, h.isOpen, ⟨rest, hsplit, Or.inl hbetween⟩, ?_⟩
  simp

/-- After a read without a whole header, a message is taken which is none. -/
theorem fails_takeClientRead {io : MsgState} (hwaits : vpc.mode.waits) (hreadLen : io.readLen = 0)
    (hread : io.buf ≠ [] ∨ vpc.mode = .readMessage) : Fails (takeClientRead lay vpc io) := by
  have hlt : ¬ io.buf.length < io.readLen := by omega
  unfold takeClientRead
  split
  · rename_i hmode
    simp [hmode, Mode.waits] at hwaits
  · rw [if_neg hlt]
    exact fails_takeMessage hreadLen
  · rename_i hmode
    have hne : io.buf.length ≠ 0 := by
      have := hread.resolve_right (by simp [hmode])
      simpa using this
    rw [if_neg (fun hor => hor.elim hne hlt)]
    exact fails_takeMessage hreadLen
  · rw [if_neg hlt]
    exact fails_takeMessage hreadLen

theorem clientRead_iff (hmsgs : ∀ m ∈ msgs, WellFormed (proxyClientCheckMsg lay) maxReadLen m)
    (h : ClientInv msgs vpc) (hwaits : vpc.mode.waits) :
    (Fits vpc .readable → GoesOn msgs (clientRead lay maxReadLen vpc)) ∧
      (¬ Fits vpc .readable → Fails (clientRead lay maxReadLen vpc)) := by
  obtain ⟨rest, hsplit, hbetween | ⟨m, rest', rfl, hbody, hpart⟩⟩ := h.reading
  · have hrest : ∀ m ∈ rest, WellFormed (proxyClientCheckMsg lay) maxReadLen m :=
      fun m hm => hmsgs m (hsplit ▸ List.mem_append_right _ hm)
    obtain ⟨io', hread, hfirst⟩ := handleRead_between hrest hbetween
    rw [clientRead, hread, Option.bind_some, if_pos rfl]
    have hfits : Fits vpc .readable ↔ HeaderWhole vpc.io.socket ∧
        (vpc.mode = .readMessage → (recv vpc.io.socket headerSize).1 ≠ none) := by
      simp [Fits, hwaits, hbetween.buf]
    rw [hfits]
    cases hfirst with
    | nothing hrecv hb =>
      have hheader : HeaderWhole vpc.io.socket := by
        intro header hheader
        rw [hrecv] at hheader
        cases hheader
      constructor
      · intro hfit
        cases hmode : vpc.mode with
        | idle => simp [hmode, Mode.waits] at hwaits
        | waitIdle r1 r2 => exact (h.waitIdle r1 r2 hmode hbetween.buf).elim
        | rpc r1 r2 => exact goesOn_nothing h hsplit hb hmode
        | readMessage => exact (hfit.2 hmode hrecv).elim
      · intro hnot
        have hmode : vpc.mode = .readMessage := by
          by_contra hmode
          exact hnot ⟨hheader, fun heq => (hmode heq).elim⟩
        exact fails_takeClientRead hwaits hb.readLen (Or.inr hmode)
    | part header hrecv hlen hne hbuf hreadLen =>
      constructor
      · intro hfit
        have := hfit.1 header hrecv
        omega
      · exact fun _ => fails_takeClientRead hwaits hreadLen (Or.inl (hbuf ▸ hne))
    | body header m rest' hrecv hlen hrest' hntohl hbody hbuf =>
      subst hrest'
      have hm := hrest m List.mem_cons_self
      refine ⟨fun _ => goesOn_takeClientRead hm h hsplit hbody, fun hnot => (hnot ⟨?_, ?_⟩).elim⟩
      · intro header' hheader'
        rw [hrecv] at hheader'
        cases hheader'
        exact hlen
      · simp [hrecv]
  · have hm := hmsgs m (hsplit ▸ List.mem_append_right _ List.mem_cons_self)
    obtain ⟨io', hread, hbody'⟩ := handleRead_body hm hbody
    rw [clientRead, hread, Option.bind_some, if_pos rfl]
    refine ⟨fun _ => goesOn_takeClientRead hm h hsplit hbody', fun hnot => (hnot ?_).elim⟩
    exact fun _ hnil => (hbody.ne_nil hnil).elim

theorem clientStep_iff (hmsgs : ∀ m ∈ msgs, WellFormed (proxyClientCheckMsg lay) maxReadLen m)
    (h : ClientInv msgs vpc) (e : Event) :
    (Fits vpc e → GoesOn msgs (clientStep lay maxReadLen vpc e)) ∧
      (¬ Fits vpc e → Fails (clientStep lay maxReadLen vpc e)) := by
  have hsame : GoesOn msgs (some vpc) := ⟨vpc, rfl, h⟩
  obtain ⟨rest, hsplit, hphase⟩ := h.reading
  have hmode (mode : Mode) (hmode : ∀ r1 r2, mode = .waitIdle r1 r2 → vpc.io.buf ≠ []) :
      GoesOn msgs (some { vpc with mode := mode }) :=
    ⟨_, rfl, h.isOpen, ⟨rest, hsplit, hphase⟩, hmode⟩
  unfold clientStep
  rw [if_neg (by simp [h.isOpen])]
  cases e with
  | callRpc reply1 reply2 =>
    refine ⟨fun _ => ?_, fun hnot => (hnot trivial).elim⟩
    dsimp only
    split
    · exact hsame
    · unfold callRpc
      rcases hphase with hbetween | ⟨m, rest', rfl, hbody, hpart⟩
      · rw [if_pos (by simp [hbetween.buf]), if_pos hbetween.readLen]
        exact hmode _ (by simp)
      · rw [if_neg hbody.length_ne_zero, if_pos hpart]
        exact hmode _ fun _ _ _ => hbody.ne_nil
  | callReadMessage =>
    dsimp only
    split
    · rename_i hwaits
      refine ⟨fun _ => hsame, fun hnot => (hnot ?_).elim⟩
      simp [Fits, hwaits]
    · rename_i hwaits
      have hidle : vpc.mode.waits = false := by simpa using hwaits
      unfold callReadMessage
      constructor
      · intro hfits
        rw [if_pos (Or.inl (by simp [hfits hidle]))]
        exact hmode _ (by simp)
      · intro hnot
        have hne : vpc.io.buf ≠ [] := fun hnil => hnot fun _ => hnil
        rcases hphase with hbetween | ⟨m, rest', rfl, hbody, hpart⟩
        · exact (hne hbetween.buf).elim
        · rw [if_neg (fun hor => hor.elim hbody.length_ne_zero fun hlt => by omega)]
          rintro _ ⟨⟩
  | readable =>
    dsimp only
    split
    · rename_i hwaits
      exact clientRead_iff hmsgs h hwaits
    · rename_i hwaits
      exact ⟨fun _ => hsame, fun hnot => (hnot fun hw => (hwaits hw).elim).elim⟩
  | timeout =>
    unfold clientTimeout
    dsimp only
    split
    · rename_i hidle
      refine ⟨fun _ => hsame, fun hnot => (hnot fun hw => ?_).elim⟩
      simp [hidle, Mode.waits] at hw
    · rename_i hwait
      constructor
      · intro hfits
        have := hfits (by simp [hwait, Mode.waits])
        simp [hwait] at this
      · rintro - _ ⟨⟩
        rfl
    · rename_i hwait
      constructor
      · intro hfits
        have := hfits (by simp [hwait, Mode.waits])
        simp [hwait] at this
      · rintro - _ ⟨⟩
        rfl
    · rename_i hread
      exact ⟨fun _ => hmode _ (by simp), fun hnot => (hnot fun _ => hread).elim⟩

def EventsFit (lay : Layout) (maxReadLen : Nat) (vpc : ProxyClient) : List Event → Prop
  | [] => True
  | e :: events =>
    Fits vpc e ∧ ∀ vpc', clientStep lay maxReadLen vpc e = some vpc' →
      EventsFit lay maxReadLen vpc' events

theorem clientRun_failed (h : vpc.failed = true) (events : List Event) :
    clientRun lay maxReadLen vpc events = some vpc := by
  induction events with
  | nil => rfl
  | cons e events ih =>
    have hstep : clientStep lay maxReadLen vpc e = some vpc := by
      unfold clientStep
      exact if_pos h
    rw [clientRun, List.foldlM_cons, hstep]
    exact ih

/-- A client receives what is sent if and only if all events fit. -/
theorem clientRun_iff (hmsgs : ∀ m ∈ msgs, WellFormed (proxyClientCheckMsg lay) maxReadLen m)
    (events : List Event) (h : ClientInv msgs vpc) :
    (∃ vpc', clientRun lay maxReadLen vpc events = some vpc' ∧ vpc'.failed = false ∧
        Receiving msgs vpc'.received vpc'.io) ↔
      EventsFit lay maxReadLen vpc events := by
  induction events generalizing vpc with
  | nil =>
    obtain ⟨rest, hsplit, hphase⟩ := h.reading
    refine iff_of_true ⟨vpc, rfl, h.isOpen, rest, hsplit, ?_⟩ trivial
    rcases hphase with hbetween | ⟨m, rest', rfl, hbody, -⟩
    · rw [hbetween.buf, List.nil_append, hbetween.stream]
    · exact hbody.stream
  | cons e events ih =>
    rw [clientRun, List.foldlM_cons]
    by_cases hfits : Fits vpc e
    · obtain ⟨vpc', hstep, hinv⟩ := (clientStep_iff hmsgs h e).1 hfits
      rw [hstep]
      refine (ih hinv).trans ?_
      simp [EventsFit, hfits, hstep]
    · have hfails := (clientStep_iff hmsgs h e).2 hfits
      refine iff_of_false ?_ fun hall => hfits hall.1
      rintro ⟨vpc', hrun, hopen, -⟩
      obtain ⟨vpc₁, hstep, hrun⟩ := Option.bind_eq_some_iff.1 hrun
      have hfailed := hfails vpc₁ hstep
      cases hrun.symm.trans (clientRun_failed hfailed events)
      simp [hfailed] at hopen

end Client

/-- Any messages, delivered in any way, are received by the daemon in any number of passes
if and only if the passes deliver whole messages, and by a client in any run of calls if
and only if its events fit. -/
theorem messages_received_iff (lay : Layout) (maxDaemon maxClient : Nat)
    (toDaemon : List (Sent (proxydCheckMsg lay) maxDaemon)) (daemonScript : List (Option Nat))
    (n : Nat) (toClient : List (Sent (proxyClientCheckMsg lay) maxClient))
    (clientScript : List (Option Nat)) (events : List Event) :
    (DaemonReceives lay maxDaemon (toDaemon.map Subtype.val) daemonScript n ↔
        PassesWhole lay maxDaemon
          ⟨connection (toDaemon.map Subtype.val) daemonScript, [], false⟩ n) ∧
      (ClientReceives lay maxClient (toClient.map Subtype.val) clientScript events ↔
        EventsFit lay maxClient (newClient (toClient.map Subtype.val) clientScript) events) := by
  have hwf {check : Nat → Msg → Bool} {maxReadLen : Nat} (msgs : List (Sent check maxReadLen)) :
      ∀ m ∈ msgs.map Subtype.val, WellFormed check maxReadLen m := by
    intro m hm
    obtain ⟨m', -, rfl⟩ := List.mem_map.1 hm
    exact m'.2
  have hbetween (msgs : List Msg) (script : List (Option Nat)) :
      Between msgs (connection msgs script) := ⟨rfl, rfl, rfl⟩
  constructor
  · exact daemonRun_iff (hwf toDaemon) n ⟨rfl, _, rfl, hbetween _ _⟩
  · refine clientRun_iff (hwf toClient) events ⟨rfl, ⟨_, rfl, Or.inl (hbetween _ _)⟩, ?_⟩
    simp [newClient]

/-- A layout in which all bodies are of length 0 but that of a request for services. -/
def smallLayout : Layout :=
  ⟨fun t => if t = .serviceReq then 4 else 0, fun _ _ => true, fun _ _ => endianMagic,
    fun _ _ => 1, fun _ => 0, fun _ => 0, 0⟩

def serviceReq : Msg := ⟨5, [1, 2, 3, 4]⟩

def serviceCnf : Msg := ⟨6, []⟩

/-- An assertion fails in the daemon when a request comes in two parts, and a client loses
the connection when the header of a reply does. -/
theorem parts_not_received :
    WellFormed (proxydCheckMsg smallLayout) 100 serviceReq ∧
      daemonAfter smallLayout 100 [serviceReq] [some 7, some 1, some 1] 1 = none ∧
      ¬ DaemonReceives smallLayout 100 [serviceReq] [some 7, some 1, some 1] 1 ∧
      WellFormed (proxyClientCheckMsg smallLayout) 100 serviceCnf ∧
      ¬ ClientReceives smallLayout 100 [serviceCnf] [some 3, some 3] [.callRpc 6 7, .readable] := by
  have hnone : daemonAfter smallLayout 100 [serviceReq] [some 7, some 1, some 1] 1 = none := by
    decide
  refine ⟨⟨by decide, by decide, by decide, by decide⟩, hnone, ?_,
    ⟨by decide, by decide, by decide, by decide⟩, ?_⟩
  · rintro ⟨req, hreq, -⟩
    rw [hnone] at hreq
    cases hreq
  · rintro ⟨vpc, hrun, hopen, -⟩
    cases hrun
    cases hopen

end ProxyFraming

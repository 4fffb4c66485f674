import Zvbi.ProxyFraming
import Zvbi.ProxyServiceUpdate
import Zvbi.StructLayout

/-!
# Memory accesses for a message of a client

A message is read into a buffer of the size of `VBIPROXY_MSG`, and the reply is made in the
same buffer. An access outside of an object is modelled as `none`. The layout is that of a
64 bit little endian host.

What a message does to the queue, the token and the connection is modelled elsewhere.
-/

namespace ProxyMessageBounds
open StructLayout
open ProxyFraming (MsgType msgTypes headerSize htonl proxydCheckMsg)
open ProxyServiceUpdate (Clnt Dev levels)

def u8 : Layout := scalar 0
def u16 : Layout := scalar 1
def u32 : Layout := scalar 3
def u64 : Layout := scalar 7

/-- `VBIPROXY_MAGICS`. -/
def magics : List Layout := [u8.array 16, u32, u32, u32]

/-- `vbi_sliced`. -/
def sliced : List Layout := [u32, u32, u8.array 56]

/-- `vbi_channel_profile`. -/
def channelProfile : List Layout := [u8, u8, u8, u8, u64, u64, u8.array 16]

/-- `vbi_bit_slicer`, which starts with a pointer. -/
def bitSlicer : List Layout :=
  [u64, u32, u32, u32, u32, u32, u32, u32, u32, u32, u32, u32, u32, u32]

/-- `struct _vbi_raw_decoder_job`. -/
def rawDecoderJob : List Layout := [u32, u32, struct bitSlicer]

variable (mutexWords : Nat)

/-- `vbi_raw_decoder`, with a `pthread_mutex_t` of some words. -/
def rawDecoder : List Layout :=
  [u32, u32, u32, u32, u32, u32.array 2, u32.array 2, u32, u32, u64.array mutexWords, u32, u32,
    u64, (struct rawDecoderJob).array 8]

def fields : MsgType → List Layout
  | .connectReq => [struct magics, u8.array 64, u32, u32, u32, u8, u32, u8, u32.array 32]
  | .connectCnf =>
    [struct magics, u8.array 128, u32, u32, u32, u32, struct (rawDecoder mutexWords), u32.array 32]
  | .connectRej => [struct magics, u8.array 128]
  | .closeReq => []
  | .slicedInd => [u64, u32, u32, union [(struct sliced).array 1, u8.array 1]]
  | .serviceReq => [u8, u8, u8, u32]
  | .serviceCnf => [u32, struct (rawDecoder mutexWords)]
  | .serviceRej => [u8.array 128]
  | .chnTokenReq => [u32, struct channelProfile]
  | .chnTokenCnf => [u32, u32, u32]
  | .chnTokenInd => []
  | .chnNotifyReq => [u32, u32, u32, u8.array 32]
  | .chnNotifyCnf => [u32, u8.array 32]
  | .chnReclaimReq => []
  | .chnReclaimCnf => []
  | .chnSuspendReq => [u32, u32]
  | .chnSuspendCnf => []
  | .chnSuspendRej => []
  | .chnIoctlReq => [u32, u32, u32, u32, u8.array 0]
  | .chnIoctlCnf => [u32, u32, u32, u32, u8.array 0]
  | .chnIoctlRej => []
  | .chnChangeInd => [u32, u32, u8.array 32]
  | .daemonPidReq => [struct magics]
  | .daemonPidCnf => [struct magics, u32]

/-- The members of `VBIPROXY_MSG_BODY`. A request to close has no body. -/
def bodies : List Layout :=
  (msgTypes.filter (· ≠ .closeReq)).map fun t => struct (fields mutexWords t)

/-- `VBIPROXY_MSG`, which is a `VBIPROXY_MSG_HEADER` and a body. -/
def msgFields : List Layout := [struct [u32, u32], union (bodies mutexWords)]

def msg : Layout := struct (msgFields mutexWords)

variable {mutexWords}

theorem mem_bodies {t : MsgType} (h : t ≠ .closeReq) :
    struct (fields mutexWords t) ∈ bodies mutexWords := by
  refine List.mem_map_of_mem (List.mem_filter.mpr ⟨?_, decide_eq_true h⟩)
  cases t <;> decide

/-- The body follows the header without padding. -/
theorem maxAlign_bodies : maxAlign (bodies mutexWords) = 8 := by
  simp [bodies, msgTypes, fields, maxAlign, struct, union, u8, u32, u64, scalar, Layout.array,
    rawDecoder, magics, sliced, channelProfile, rawDecoderJob, bitSlicer]

def headLen : Part (msg mutexWords) :=
  (Part.field (msgFields mutexWords) 0 (by decide : 0 < 2)).comp
    (Part.field [u32, u32] 0 (by decide))

def headType : Part (msg mutexWords) :=
  (Part.field (msgFields mutexWords) 0 (by decide : 0 < 2)).comp
    (Part.field [u32, u32] 1 (by decide))

def body (t : MsgType) (h : t ≠ .closeReq) : Part (msg mutexWords) :=
  (Part.field (msgFields mutexWords) 1 (by decide : 1 < 2)).comp
    (Part.member _ (mem_bodies h))

def bodyField (t : MsgType) (h : t ≠ .closeReq) (i : Nat) (hi : i < (fields mutexWords t).length) :
    Part (msg mutexWords) :=
  (body t h).comp (Part.field (fields mutexWords t) i hi)

attribute [irreducible] msg

def videoCapability : List Layout := [u8.array 32, u32, u32, u32, u32, u32, u32, u32]
def videoChannel : List Layout := [u32, u8.array 32, u32, u32, u16, u16]
def videoTuner : List Layout := [u32, u8.array 32, u64, u64, u32, u16, u16]
def videoUnit : List Layout := [u32, u32, u32, u32, u32]

def v4l2Capability : List Layout :=
  [u8.array 16, u8.array 32, u8.array 32, u32, u32, u32.array 4]
def v4l2Fract : List Layout := [u32, u32]
def v4l2Standard : List Layout :=
  [u32, u64, u8.array 24, struct v4l2Fract, u32, u32.array 4]
def v4l2Input : List Layout := [u32, u8.array 32, u32, u32, u32, u64, u32, u32.array 4]
def v4l2Control : List Layout := [u32, u32]
def v4l2Tuner : List Layout :=
  [u32, u8.array 32, u32, u32, u32, u32, u32, u32, u32, u32, u32.array 4]
def v4l2Queryctrl : List Layout :=
  [u32, u32, u8.array 32, u32, u32, u32, u32, u32, u32.array 2]
def v4l2Querymenu : List Layout := [u32, u32, u8.array 32, u32]
def v4l2Modulator : List Layout := [u32, u8.array 32, u32, u32, u32, u32, u32.array 4]
def v4l2Frequency : List Layout := [u32, u32, u32, u32.array 8]

/-- A request to a device: its number, its argument, and if it needs the permission to switch
channels. -/
structure Control where
  request : Nat
  arg : Layout
  reqPerm : Bool

def ioc (dir type nr : Nat) (arg : Layout) : Nat :=
  dir * 0x40000000 + arg.size * 0x10000 + type * 0x100 + nr

/-- A request which is numbered by `_IOW()`, `_IOR()` or `_IOWR()`, where `dir` is 1, 2 or 3. -/
def control (dir type nr : Nat) (arg : Layout) (reqPerm : Bool) : Control :=
  ⟨ioc dir type nr arg, arg, reqPerm⟩

/-- The cases of `vbi_proxy_msg_v4l_ioctl()`, with requests of the type `v`. -/
def v4lControls : List Control :=
  [control 2 0x76 1 (struct videoCapability) false,
    control 3 0x76 2 (struct videoChannel) false,
    control 1 0x76 3 (struct videoChannel) true,
    control 3 0x76 4 (struct videoTuner) false,
    control 1 0x76 5 (struct videoTuner) true,
    control 2 0x76 14 u64 false,
    control 1 0x76 15 u64 true,
    control 2 0x76 21 (struct videoUnit) false]

/-- The cases of `vbi_proxy_msg_v4l2_ioctl()`, with requests of the type `V`. -/
def v4l2Controls : List Control :=
  [control 2 0x56 0 (struct v4l2Capability) false,
    control 2 0x56 63 u64 false,
    control 2 0x56 23 u64 false,
    control 1 0x56 24 u64 true,
    control 3 0x56 25 (struct v4l2Standard) false,
    control 3 0x56 26 (struct v4l2Input) false,
    control 3 0x56 27 (struct v4l2Control) false,
    control 3 0x56 28 (struct v4l2Control) false,
    control 3 0x56 29 (struct v4l2Tuner) false,
    control 1 0x56 30 (struct v4l2Tuner) true,
    control 3 0x56 36 (struct v4l2Queryctrl) false,
    control 3 0x56 37 (struct v4l2Querymenu) false,
    control 2 0x56 38 u32 false,
    control 3 0x56 39 u32 true,
    control 3 0x56 54 (struct v4l2Modulator) false,
    control 1 0x56 55 (struct v4l2Modulator) true,
    control 3 0x56 56 (struct v4l2Frequency) false,
    control 1 0x56 57 (struct v4l2Frequency) true]

/-- `VBI_DRIVER_API_REV`. -/
inductive Api
  | unknown
  | v4l1
  | v4l2
  | bktr
  deriving DecidableEq

def Api.toNat : Api → Nat
  | .unknown => 0
  | .v4l1 => 1
  | .v4l2 => 2
  | .bktr => 3

/-- What was compiled in, `ENABLE_V4L` and `ENABLE_V4L2`. -/
structure Config where
  v4l : Bool
  v4l2 : Bool

def controls (config : Config) : Api → List Control
  | .v4l1 => if config.v4l then v4lControls else []
  | .v4l2 =>
    (if config.v4l2 then v4l2Controls else []) ++ if config.v4l then v4lControls else []
  | _ => []

/-- `vbi_proxy_msg_check_ioctl()`: the size of the argument or -1, and `req_perm`. -/
def checkIoctl (config : Config) (api : Api) (request : Nat) : Int × Bool :=
  match (controls config api).find? (·.request = request) with
  | some c => (c.arg.size, c.reqPerm)
  | none => (-1, false)

/-- The largest argument is a `struct v4l2_capability`. -/
theorem arg_size_le : ∀ c ∈ v4lControls ++ v4l2Controls, c.arg.size ≤ 104 := by decide

theorem mem_of_mem_controls {config : Config} {api : Api} {c : Control}
    (h : c ∈ controls config api) : c ∈ v4lControls ++ v4l2Controls := by
  obtain ⟨v4l, v4l2⟩ := config
  cases api <;> cases v4l <;> cases v4l2 <;> simp_all [controls, or_comm]

theorem checkIoctl_le (config : Config) (api : Api) (request : Nat) :
    (checkIoctl config api request).1 ≤ 104 := by
  unfold checkIoctl
  split
  · rename_i c hfind
    have hle := arg_size_le c (mem_of_mem_controls (List.mem_of_find?_eq_some hfind))
    exact Int.ofNat_le.mpr hle
  · decide

structure Profile where
  clientFlags : Nat
  bufferCount : Nat
  chnPrio : Nat
  chnProfile : List UInt8

/-- A client with its message buffer, and the clients before and after it in the list. The
length of a message which is to be written counts the header. -/
structure State (mutexWords : Nat) where
  before : List Clnt
  req : Clnt
  after : List Clnt
  dev : Dev
  scanning : Nat
  profile : Profile
  buf : Object (msg mutexWords)
  writeLen : Option Nat

/-- What the rest of the daemon, the system and the device do: the answers of the device to
a service update and the text of its error, its name, API and decoder, whether it has a file
handle, the scanning and the token after an update of the channel, whether the client may
switch channels, and what a request to the device writes into the argument and returns. -/
structure Env where
  config : Config
  debugLevel : Nat
  pid : Nat
  services : ProxyServiceUpdate.Env
  errorStr : Option (List UInt8)
  devName : List UInt8
  api : Api
  decoder : Option (Nat → UInt8)
  vbiFd : Bool
  updateScanning : Nat → Nat
  tokenInd : Bool
  reqPerm : Bool
  ioctl : Nat → List UInt8 → (Nat → UInt8) × Nat × Nat

variable {len : Nat} {p : Part (msg mutexWords)}

variable {n : Nat} {s : State mutexWords} {strict : Int} {type : MsgType}

section
variable (env : Env)

/-- `DBG_MSG` and `DBG_CLNT`. -/
def Env.logMsg : Bool := env.debugLevel.testBit 0
def Env.logClnt : Bool := env.debugLevel.testBit 2

/-- `vbi_proxy_msg_debug_get_type_str()`, with the type for its name. -/
def debugGetTypeStr (type : Nat) : Option (Option MsgType) :=
  if type < msgTypes.length then msgTypes[type]?.map some else some none

def logType (flag : Bool) (type : Nat) : Option Unit :=
  if flag then (debugGetTypeStr type).map fun _ => () else some ()

def chars (s : String) : List UInt8 := s.toList.map fun c => UInt8.ofNat c.toNat

/-- `strlcpy()`, after which the last character of the destination is terminated again. -/
def copyString (s : List UInt8) (n : Nat) (p : Part (msg mutexWords))
    (buf : Object (msg mutexWords)) : Option (Object (msg mutexWords)) := do
  let buf ← buf.write p.off (s.take (n - 1) ++ [0])
  buf.write (p.off + (n - 1)) [0]

/-- A field of a `VBIPROXY_MAGICS`. -/
def magicsField (p : Part (msg mutexWords)) (h : p.type = struct magics) (i : Nat)
    (hi : i < magics.length) : Part (msg mutexWords) :=
  p.sub (offset magics i) magics[i] (h ▸ offset_add_size_le magics i hi)

/-- `VBIPROXY_MAGIC_STR`. -/
def magicStr : List UInt8 := chars "LIBZVBI VBIPROXY"

/-- `VBIPROXY_VERSION` and `VBIPROXY_COMPAT_VERSION`. -/
def version : Nat := 0x100

/-- `vbi_proxy_msg_fill_magics()`. -/
def fillMagics (p : Part (msg mutexWords)) (h : p.type = struct magics)
    (buf : Object (msg mutexWords)) : Object (msg mutexWords) :=
  (((buf.put (magicsField p h 0 (by decide)) fun i => magicStr.getD i 0).set
    (magicsField p h 1 (by decide)) version).set
    (magicsField p h 2 (by decide)) version).set
    (magicsField p h 3 (by decide)) ProxyFraming.endianMagic

/-- `vbi_proxy_msg_write()`. The message is sent from the buffer later. -/
def msgWrite (type : MsgType) (msgLen : Nat) (s : State mutexWords) :
    Option (State mutexWords) := do
  let _ ← s.buf.read 0 (headerSize + msgLen)
  some { s with
    writeLen := some (headerSize + msgLen)
    buf := (s.buf.put headLen fun i => (htonl (headerSize + msgLen)).getD i 0).put
      headType fun i => (htonl (msgTypes.idxOf type)).getD i 0 }

def reply (type : MsgType) (s : State mutexWords) : Option (State mutexWords) :=
  msgWrite type (struct (fields mutexWords type)).size s

def minStrict : Int := -1
def maxStrict : Int := 2

/-- An `int8_t`. -/
def int8 (b : UInt8) : Int := if b.toNat < 128 then b.toNat else b.toNat - 256

/-- `VBI_GET_SERVICE_P()` is an element of `services`, if there is such an element. -/
def hasLevel (strict : Int) : Bool :=
  decide (0 ≤ strict - minStrict) && decide (strict - minStrict < maxStrict - minStrict + 1)

def servicesAt (req : Clnt) (strict : Int) : Option UInt32 :=
  if hasLevel strict then some (req.services strict) else none

def setServices (req : Clnt) (strict : Int) (services : UInt32) : Option Clnt :=
  if hasLevel strict then
    some { req with services := fun i => if i = strict then services else req.services i }
  else
    none

def removeServices (services : UInt32) (req : Clnt) (strict : Int) : Option Clnt := do
  let old ← servicesAt req strict
  setServices req strict (old &&& ~~~services)

/-- `vbi_proxyd_update_services()`. -/
def updateServices (s : State mutexWords) : State mutexWords × Bool :=
  let u := ProxyServiceUpdate.updateServices env.services s.req.devIdx (some s.req.id)
    (s.before ++ s.req :: s.after) s.dev
  ({ s with
    before := u.clnts.take s.before.length
    req := u.clnts.getD s.before.length s.req
    after := u.clnts.drop (s.before.length + 1)
    dev := u.dev }, u.result)

def errorText (newServices : UInt32) (newStrict : Int) (req : Clnt) : Option (List UInt8) :=
  match env.errorStr with
  | some text => some text
  | none => do
    let granted ← servicesAt req newStrict
    if granted &&& newServices = 0 ∧ newServices ≠ 0 then
      some (chars "Sorry, proxy cannot capture any of the requested data services.")
    else
      some (chars "Internal error in service update.")

/-- `vbi_proxyd_take_service_req()`. -/
def takeServiceReq (newServices : UInt32) (newStrict : Int) (errormsg : Part (msg mutexWords))
    (s : State mutexWords) : Option (State mutexWords × Bool) := do
  let req ← levels.foldlM (removeServices newServices) s.req
  let old ← servicesAt req newStrict
  let req ← setServices req newStrict (old ||| newServices)
  let u := updateServices env { s with req := req }
  if u.2 = false ∨ u.1.req.allServices &&& newServices = 0 ∧ newServices ≠ 0 then
    let text ← errorText env newServices newStrict u.1.req
    let buf ← copyString text 128 errormsg u.1.buf
    some ({ u.1 with buf := buf }, false)
  else
    some (u.1, true)

/-- A field of the decoder in a `VBIPROXY_CONNECT_CNF`. -/
def decField (i : Nat) (hi : i < (rawDecoder mutexWords).length) : Part (msg mutexWords) :=
  (bodyField .connectCnf (by decide) 6 (by decide : 6 < 8)).comp
    (Part.field (rawDecoder mutexWords) i hi)

def decStart (i : Nat) (hi : i < 2) : Part (msg mutexWords) :=
  (decField 5 (by decide : 5 < 14) : Part (msg mutexWords)).comp (Part.element u32 2 i hi)

/-- Copy the decoder of the device to a reply. The pattern and the decoder without capturing
are those of a confirmed connection for all replies. -/
def fillDecoder (dec : Part (msg mutexWords)) (buf : Object (msg mutexWords)) :
    Object (msg mutexWords) :=
  match env.decoder with
  | some decoder => (buf.put dec decoder).set (decField 12 (by decide : 12 < 14)) 0
  | none =>
    ((buf.put (bodyField .connectCnf (by decide) 6 (by decide : 6 < 8))
      fun _ => 0).set (decStart 0 (by decide)) 0xFFFFFFFF).set (decStart 1 (by decide)) 0xFFFFFFFF

def confirmConnect (s : State mutexWords) : Option (State mutexWords) := do
  let buf := fillMagics (bodyField .connectCnf (by decide) 0 (by decide : 0 < 8)) rfl s.buf
  let buf ← copyString env.devName 128
    (bodyField .connectCnf (by decide) 1 (by decide : 1 < 8)) buf
  let buf := buf.set (bodyField .connectCnf (by decide) 2 (by decide : 2 < 8)) env.pid
  let buf := buf.set (bodyField .connectCnf (by decide) 3 (by decide : 3 < 8))
    env.api.toNat
  let buf := buf.set (bodyField .connectCnf (by decide) 4 (by decide : 4 < 8))
    (if 0 < env.debugLevel then 1 else 0)
  let buf := buf.set (bodyField .connectCnf (by decide) 5 (by decide : 5 < 8))
    s.req.allServices.toNat
  let buf := fillDecoder env
    (bodyField .connectCnf (by decide) 6 (by decide : 6 < 8)) buf
  reply .connectCnf { s with buf := buf }

def rejectConnect (s : State mutexWords) : Option (State mutexWords) := do
  let s ← reply .connectRej { s with
    buf := fillMagics (bodyField .connectRej (by decide) 0 (by decide : 0 < 2)) rfl s.buf }
  some { s with req := { s.req with state := .waitClose } }

/-- `connect_req.strict`, and the strictness which is read there. -/
def connectStrict : Part (msg mutexWords) :=
  bodyField .connectReq (by decide) 7 (by decide : 7 < 9)

def strictOf (p : Part (msg mutexWords)) (buf : Object (msg mutexWords)) : Int :=
  int8 (buf.byte p.off)

def clampStrict (buf : Object (msg mutexWords)) : Object (msg mutexWords) :=
  if strictOf connectStrict buf < minStrict then buf.set connectStrict 0xFF
  else if maxStrict < strictOf connectStrict buf then buf.set connectStrict 2
  else buf

def openConnection (s : State mutexWords) : State mutexWords :=
  let scanning := s.buf.get (bodyField .connectReq (by decide) 4 (by decide : 4 < 9))
  { s with
    scanning := if scanning ≠ 0 then scanning else s.scanning
    req := { s.req with state := .forward }
    profile := { s.profile with
      bufferCount := s.buf.get (bodyField .connectReq (by decide) 5 (by decide : 5 < 9))
      clientFlags := s.buf.get (bodyField .connectReq (by decide) 3 (by decide : 3 < 9)) }
    buf := clampStrict s.buf }

def compatVersion (buf : Object (msg mutexWords)) : Nat :=
  buf.get (magicsField (bodyField .connectReq (by decide) 0 (by decide : 0 < 9)) rfl 1
    (by decide))

/-- `connect_req.client_name`. -/
def clientName : Part (msg mutexWords) :=
  bodyField .connectReq (by decide) 1 (by decide : 1 < 9)

def logClient (buf : Object (msg mutexWords)) : Option Unit :=
  if env.logMsg then (buf.readString clientName).map fun _ => () else some ()

def connectErrorstr : Part (msg mutexWords) :=
  bodyField .connectRej (by decide) 1 (by decide : 1 < 2)

def serviceErrorstr : Part (msg mutexWords) :=
  bodyField .serviceRej (by decide) 0 (by decide : 0 < 1)

def takeConnectReq (s : State mutexWords) : Option (State mutexWords) := do
  if compatVersion s.buf = version then
    logClient env s.buf
    let s := openConnection s
    let services := s.buf.get (bodyField .connectReq (by decide) 6 (by decide : 6 < 9))
    let r ← takeServiceReq env (UInt32.ofNat services) (strictOf connectStrict s.buf)
      connectErrorstr s
    if r.2 then confirmConnect env r.1 else rejectConnect r.1
  else
    let buf ← copyString (chars "Incompatible proxy protocol version") 128 connectErrorstr s.buf
    rejectConnect { s with buf := buf }

def takeDaemonPidReq (s : State mutexWords) : Option (State mutexWords) := do
  let buf := fillMagics (bodyField .daemonPidCnf (by decide) 0 (by decide : 0 < 2)) rfl
    s.buf
  let buf := buf.set (bodyField .daemonPidCnf (by decide) 1 (by decide : 1 < 2)) env.pid
  let s ← reply .daemonPidCnf { s with buf := buf }
  some { s with req := { s.req with state := .waitClose } }

/-- `service_req.strict`. -/
def serviceStrict : Part (msg mutexWords) :=
  bodyField .serviceReq (by decide) 2 (by decide : 2 < 4)

/-- A request with `reset` set starts from no services. -/
def resetServices (s : State mutexWords) : Clnt :=
  if s.buf.get (bodyField .serviceReq (by decide) 0 (by decide : 0 < 4)) ≠ 0 then
    { s.req with services := fun _ => 0 }
  else
    s.req

def takeServiceMsg (s : State mutexWords) : Option (State mutexWords) := do
  let services := s.buf.get (bodyField .serviceReq (by decide) 3 (by decide : 3 < 4))
  let r ← takeServiceReq env (UInt32.ofNat services) (strictOf serviceStrict s.buf)
    serviceErrorstr { s with req := resetServices s }
  if r.2 then
    let buf := fillDecoder env
      (bodyField .serviceCnf (by decide) 1 (by decide : 1 < 2)) r.1.buf
    let buf := buf.set (bodyField .serviceCnf (by decide) 0 (by decide : 0 < 2))
      r.1.req.allServices.toNat
    reply .serviceCnf { r.1 with buf := buf }
  else
    reply .serviceRej r.1

def takeTokenReq (s : State mutexWords) : Option (State mutexWords) :=
  let prio := bodyField .chnTokenReq (by decide) 0 (by decide : 0 < 2)
  let profile : Part (msg mutexWords) := bodyField .chnTokenReq (by decide) 1 (by decide : 1 < 2)
  let buf := s.buf.put (body .chnTokenCnf (by decide)) fun _ => 0
  reply .chnTokenCnf { s with
    profile := { s.profile with
      chnPrio := s.buf.get prio
      chnProfile := s.buf.bytes profile.off profile.type.size }
    buf := buf.set (bodyField .chnTokenCnf (by decide) 0 (by decide : 0 < 3))
      (if env.tokenInd then 1 else 0) }

/-- `VBI_PROXY_CHN_NORM` of `notify_flags` is bit 3. -/
def takeNotifyReq (s : State mutexWords) : Option (State mutexWords) :=
  let flags := s.buf.get (bodyField .chnNotifyReq (by decide) 0 (by decide : 0 < 4))
  let norm := s.buf.get (bodyField .chnNotifyReq (by decide) 1 (by decide : 1 < 4))
  let scanning := if flags.testBit 3 then env.updateScanning norm else s.scanning
  let buf := s.buf.put (body .chnNotifyCnf (by decide)) fun _ => 0
  reply .chnNotifyCnf { s with
    scanning := scanning
    buf := buf.set (bodyField .chnNotifyCnf (by decide) 0 (by decide : 0 < 2)) scanning }

/-- A number as an `int`. -/
def toInt (n : Nat) : Int := if n < 0x80000000 then n else n - 0x100000000

/-- `chn_ioctl_req.arg_size` and `arg_data`. -/
def argSize : Part (msg mutexWords) :=
  bodyField .chnIoctlReq (by decide) 3 (by decide : 3 < 5)

def argData : Part (msg mutexWords) :=
  bodyField .chnIoctlReq (by decide) 4 (by decide : 4 < 5)

/-- `chn_ioctl_cnf.result` and `errcode`. -/
def ioctlResult : Part (msg mutexWords) :=
  bodyField .chnIoctlCnf (by decide) 1 (by decide : 1 < 5)

def ioctlErrcode : Part (msg mutexWords) :=
  bodyField .chnIoctlCnf (by decide) 2 (by decide : 2 < 5)

def ioctl (request len : Nat) (s : State mutexWords) : Option (State mutexWords) := do
  let arg ← s.buf.read (argData : Part (msg mutexWords)).off len
  let r := env.ioctl request arg
  let buf ← s.buf.write (argData : Part (msg mutexWords)).off ((List.range len).map r.1)
  some { s with buf := (buf.set ioctlResult r.2.1).set ioctlErrcode r.2.2 }

/-- `vbi_proxyd_take_ioctl_req()`. -/
def takeIoctlReq (s : State mutexWords) : Option (State mutexWords × Bool) :=
  let request := s.buf.get (bodyField .chnIoctlReq (by decide) 0 (by decide : 0 < 5))
  let size := (checkIoctl env.config env.api request).1
  let needed := (checkIoctl env.config env.api request).2
  if env.vbiFd ∧ 0 ≤ size ∧ size = toInt (s.buf.get argSize) ∧ (needed = false ∨ env.reqPerm) then
    (ioctl env request size.toNat s).map fun s => (s, true)
  else
    some (s, false)

def takeIoctlMsg (s : State mutexWords) : Option (State mutexWords) := do
  let r ← takeIoctlReq env s
  if r.2 then
    msgWrite .chnIoctlCnf ((struct (fields mutexWords .chnIoctlCnf)).size + r.1.buf.get argSize - 1)
      r.1
  else
    reply .chnIoctlRej r.1

/-- `vbi_proxyd_take_message()` for a message whose type is known. -/
def takeType (s : State mutexWords) : MsgType → Option (State mutexWords × Bool)
  | .connectReq =>
    if s.req.state = .waitConReq then (takeConnectReq env s).map fun s => (s, true)
    else some (s, false)
  | .daemonPidReq =>
    if s.req.state = .waitConReq then (takeDaemonPidReq env s).map fun s => (s, true)
    else some (s, false)
  | .serviceReq =>
    if s.req.state = .forward then (takeServiceMsg env s).map fun s => (s, true)
    else some (s, false)
  | .chnTokenReq =>
    if s.req.state = .forward then (takeTokenReq env s).map fun s => (s, true)
    else some (s, false)
  | .chnNotifyReq =>
    if s.req.state = .forward then (takeNotifyReq env s).map fun s => (s, true)
    else some (s, false)
  | .chnSuspendReq => (reply .chnSuspendRej s).map fun s => (s, true)
  | .chnIoctlReq =>
    if s.req.state = .forward then (takeIoctlMsg env s).map fun s => (s, true)
    else some (s, false)
  | .chnReclaimCnf => some (s, true)
  | .closeReq => some ({ s with req := { s.req with state := .closed } }, true)
  | _ => some (s, false)

/-- `vbi_proxyd_take_message()`. -/
def takeMessage (s : State mutexWords) : Option (State mutexWords × Bool) := do
  logType env.logClnt (s.buf.get headType)
  let r ←
    match msgTypes[s.buf.get headType]? with
    | some t => takeType env s t
    | none => some (s, false)
  logType (!r.2 && env.logMsg) (r.1.buf.get headType)
  some r

def layout (mutexWords : Nat) : ProxyFraming.Layout where
  size t := (struct (fields mutexWords t)).size
  magicOk _ body := body.take 16 = magicStr
  endianMagic _ body := littleEndian ((body.drop (offset magics 3)).take 4)
  argSize _ body := littleEndian ((body.drop (offset (fields mutexWords .chnIoctlReq) 3)).take 4)
  slicedLines body := littleEndian ((body.drop 8).take 4)
  rawLines body := littleEndian ((body.drop 12).take 4)
  slicedSize := (struct sliced).size

/-- `vbi_proxyd_check_msg()` of the message in a buffer, whose header is in host order. -/
def accepted (buf : Object (msg mutexWords)) : Bool :=
  proxydCheckMsg (layout mutexWords) (buf.get headLen)
    ⟨buf.get headType, buf.bytes headerSize (union (bodies mutexWords)).size⟩

/-- A complete message is checked and taken. The connection is closed when one of them fails. -/
def receive (s : State mutexWords) : Option (State mutexWords) :=
  if accepted s.buf then
    (takeMessage env s).map fun r =>
      if r.2 then r.1 else { r.1 with req := { r.1.req with state := .closed } }
  else
    (logType env.logMsg (s.buf.get headType)).map fun _ =>
      { s with req := { s.req with state := .closed } }

theorem debugGetTypeStr_isSome (type : Nat) : (debugGetTypeStr type).isSome := by
  unfold debugGetTypeStr
  by_cases h : type < msgTypes.length
  · rw [if_pos h, List.getElem?_eq_getElem h]
    rfl
  · rw [if_neg h]
    rfl

theorem logType_isSome (flag : Bool) (type : Nat) : (logType flag type).isSome := by
  unfold logType
  cases flag with
  | false => rfl
  | true => exact Option.isSome_map.trans (debugGetTypeStr_isSome type)

/-- A string is cut where its destination ends. -/
theorem copyString_isSome (text : List UInt8) (hn : 0 < n) (hp : n ≤ p.type.size)
    (buf : Object (msg mutexWords)) : (copyString text n p buf).isSome := by
  have hin := p.inside
  have htake : (text.take (n - 1)).length ≤ n - 1 := List.length_take_le _ _
  refine isSome_bind ((buf.write_isSome _ _).mpr ?_) fun buf _ => (buf.write_isSome _ _).mpr ?_
  · rw [List.length_append, List.length_singleton]
    omega
  · rw [List.length_singleton]
    omega

theorem body_off (t : MsgType) (h : t ≠ .closeReq) :
    (body t h : Part (msg mutexWords)).off = headerSize := by
  have halign : (union (bodies mutexWords)).align = 8 := maxAlign_bodies
  simp only [body, Part.comp, Part.sub, Part.field, Part.member, offset, offsetFrom, msgFields,
    halign]
  rfl

theorem bodyField_off (t : MsgType) (h : t ≠ .closeReq) (i : Nat)
    (hi : i < (fields mutexWords t).length) :
    (bodyField t h i hi).off = headerSize + offset (fields mutexWords t) i := by
  rw [← body_off t h]
  rfl

theorem msgWrite_isSome (h : headerSize + len ≤ (msg mutexWords).size) :
    (msgWrite type len s).isSome :=
  isSome_bind ((s.buf.read_isSome _ _).mpr (by omega)) fun _ _ => rfl

theorem reply_isSome (h : type ≠ .closeReq) (s : State mutexWords) :
    (reply type s).isSome := by
  have hin := (body type h : Part (msg mutexWords)).inside
  rw [body_off] at hin
  exact msgWrite_isSome hin

theorem hasLevel_iff (strict : Int) :
    hasLevel strict ↔ minStrict ≤ strict ∧ strict ≤ maxStrict := by
  unfold hasLevel minStrict maxStrict
  rw [Bool.and_eq_true, decide_eq_true_iff, decide_eq_true_iff]
  omega

theorem servicesAt_isSome (req : Clnt) (strict : Int) :
    (servicesAt req strict).isSome ↔ hasLevel strict := by
  unfold servicesAt
  split <;> simp_all

theorem setServices_isSome (req : Clnt) (strict : Int) (services : UInt32) :
    (setServices req strict services).isSome ↔ hasLevel strict := by
  unfold setServices
  split <;> simp_all

theorem removeServices_isSome (services : UInt32) (req : Clnt) (h : hasLevel strict) :
    (removeServices services req strict).isSome :=
  isSome_bind ((servicesAt_isSome _ _).mpr h) fun _ _ => (setServices_isSome _ _ _).mpr h

/-- The loop over the levels stays in the array. -/
theorem foldlM_removeServices_isSome (services : UInt32) (strict : List Int) (req : Clnt)
    (h : ∀ i ∈ strict, hasLevel i) : (strict.foldlM (removeServices services) req).isSome := by
  induction strict generalizing req with
  | nil => rfl
  | cons i strict ih =>
    exact isSome_bind (removeServices_isSome services req (h i List.mem_cons_self))
      fun req _ => ih req fun j hj => h j (List.mem_cons_of_mem _ hj)

theorem hasLevel_levels : ∀ strict ∈ levels, hasLevel strict := by decide

theorem errorText_isSome (services : UInt32) (req : Clnt) (h : hasLevel strict) :
    (errorText env services strict req).isSome := by
  unfold errorText
  split
  · rfl
  · refine isSome_bind ((servicesAt_isSome _ _).mpr h) fun granted _ => ?_
    split <;> rfl

/-- The strictness is an index, and nothing else of the request can be outside. -/
theorem takeServiceReq_isSome (services : UInt32) (strict : Int) (hp : 128 ≤ p.type.size)
    (s : State mutexWords) :
    (takeServiceReq env services strict p s).isSome ↔ hasLevel strict := by
  constructor
  · intro h
    obtain ⟨_, _, hrest⟩ := isSome_of_bind h
    obtain ⟨old, hold, _⟩ := isSome_of_bind hrest
    exact (servicesAt_isSome _ _).mp (Option.isSome_of_eq_some hold)
  · intro h
    refine isSome_bind (foldlM_removeServices_isSome services levels s.req hasLevel_levels)
      fun req _ => ?_
    refine isSome_bind ((servicesAt_isSome req strict).mpr h) fun old _ => ?_
    refine isSome_bind ((setServices_isSome req strict _).mpr h) fun req _ => ?_
    dsimp only
    split
    · refine isSome_bind (errorText_isSome env services _ h) fun text _ => ?_
      exact isSome_bind (copyString_isSome text (by decide) hp _) fun _ _ => rfl
    · rfl

theorem connectErrorstr_size : 128 ≤ (connectErrorstr : Part (msg mutexWords)).type.size :=
  Nat.le_refl 128

theorem serviceErrorstr_size : 128 ≤ (serviceErrorstr : Part (msg mutexWords)).type.size :=
  Nat.le_refl 128

theorem strictOf_set (h : 0 < p.type.size) (n : Nat) (buf : Object (msg mutexWords)) :
    strictOf p (buf.set p n) = int8 (UInt8.ofNat n) :=
  congrArg int8 (buf.byte_set_of_lt p n h)

theorem hasLevel_clampStrict (buf : Object (msg mutexWords)) :
    hasLevel (strictOf connectStrict (clampStrict buf)) := by
  unfold clampStrict
  by_cases hmin : strictOf connectStrict buf < minStrict
  · rw [if_pos hmin, strictOf_set Nat.one_pos]
    rfl
  · rw [if_neg hmin]
    by_cases hmax : maxStrict < strictOf connectStrict buf
    · rw [if_pos hmax, strictOf_set Nat.one_pos]
      rfl
    · rw [if_neg hmax]
      exact (hasLevel_iff _).mpr ⟨Int.not_lt.mp hmin, Int.not_lt.mp hmax⟩

theorem confirmConnect_isSome (s : State mutexWords) : (confirmConnect env s).isSome :=
  isSome_bind (copyString_isSome env.devName (by decide) (Nat.le_refl 128) _)
    fun _ _ => reply_isSome (by decide) _

theorem rejectConnect_isSome (s : State mutexWords) : (rejectConnect s).isSome :=
  isSome_bind (reply_isSome (by decide) _) fun _ _ => rfl

def Named (buf : Object (msg mutexWords)) : Prop :=
  0 ∈ buf.bytes (clientName : Part (msg mutexWords)).off
    (clientName : Part (msg mutexWords)).type.size

theorem logClient_isSome (buf : Object (msg mutexWords)) :
    (logClient env buf).isSome ↔ (env.logMsg → Named buf) := by
  unfold logClient
  cases env.logMsg with
  | false => simp
  | true => simp [buf.readString_isSome, Named]

/-- The strictness was clamped, so that only the output of the name can be outside. -/
theorem takeConnectReq_isSome (s : State mutexWords) :
    (takeConnectReq env s).isSome ↔
      (compatVersion s.buf = version → env.logMsg → Named s.buf) := by
  unfold takeConnectReq
  by_cases hversion : compatVersion s.buf = version
  · rw [if_pos hversion]
    constructor
    · intro h _
      obtain ⟨_, hlog, _⟩ := isSome_of_bind h
      exact (logClient_isSome env s.buf).mp (Option.isSome_of_eq_some hlog)
    · intro h
      refine isSome_bind ((logClient_isSome env s.buf).mpr (h hversion)) fun _ _ => ?_
      refine isSome_bind ((takeServiceReq_isSome env _ _ connectErrorstr_size _).mpr
        (hasLevel_clampStrict s.buf)) fun r _ => ?_
      split
      · exact confirmConnect_isSome env r.1
      · exact rejectConnect_isSome r.1
  · rw [if_neg hversion]
    refine iff_of_true ?_ fun h => absurd h hversion
    exact isSome_bind (copyString_isSome _ (by decide) connectErrorstr_size s.buf)
      fun _ _ => rejectConnect_isSome _

theorem takeDaemonPidReq_isSome (s : State mutexWords) : (takeDaemonPidReq env s).isSome :=
  isSome_bind (reply_isSome (by decide) _) fun _ _ => rfl

theorem takeServiceMsg_isSome (s : State mutexWords) :
    (takeServiceMsg env s).isSome ↔ hasLevel (strictOf serviceStrict s.buf) := by
  constructor
  · intro h
    obtain ⟨r, hr, _⟩ := isSome_of_bind h
    exact (takeServiceReq_isSome env _ _ serviceErrorstr_size _).mp (Option.isSome_of_eq_some hr)
  · intro h
    refine isSome_bind ((takeServiceReq_isSome env _ _ serviceErrorstr_size _).mpr h)
      fun r _ => ?_
    dsimp only
    split
    · exact reply_isSome (by decide) _
    · exact reply_isSome (by decide) _

theorem connectReq_size : (struct (fields mutexWords .connectReq)).size = 244 := by
  have hfields : fields mutexWords .connectReq =
    [struct magics, u8.array 64, u32, u32, u32, u8, u32, u8, u32.array 32] := rfl
  rw [hfields]
  decide

/-- The largest argument ends inside of a message, as a connect request is longer. -/
theorem argData_inside (h : len ≤ 104) :
    (argData : Part (msg mutexWords)).off + len ≤ (msg mutexWords).size := by
  have hin := (body .connectReq (by decide) : Part (msg mutexWords)).inside
  have hsize : (body .connectReq (by decide) : Part (msg mutexWords)).type.size = 244 :=
    connectReq_size
  have hdata : (argData : Part (msg mutexWords)).off = headerSize + 16 := bodyField_off _ _ _ _
  rw [body_off, hsize] at hin
  rw [hdata]
  omega

/-- The argument and the result are stored around the size of the argument. -/
theorem ioctl_argSize {request : Nat} {s' : State mutexWords}
    (h : ioctl env request len s = some s') : s'.buf.get argSize = s.buf.get argSize := by
  obtain ⟨arg, _, h⟩ := Option.bind_eq_some_iff.mp h
  obtain ⟨buf, hwrite, h⟩ := Option.bind_eq_some_iff.mp h
  obtain rfl := Option.some.inj h
  have hsize : (argSize : Part (msg mutexWords)).off = headerSize + 12 := bodyField_off _ _ _ _
  have hdata : (argData : Part (msg mutexWords)).off = headerSize + 16 := bodyField_off _ _ _ _
  have hlen : (argSize : Part (msg mutexWords)).type.size = 4 := rfl
  have hkeep : buf.get argSize = s.buf.get argSize :=
    Object.get_write_of_disjoint hwrite (Or.inl (by rw [hsize, hlen, hdata]))
  have hresult : (ioctlResult : Part (msg mutexWords)).off = headerSize + 4 :=
    bodyField_off _ _ _ _
  have herrcode : (ioctlErrcode : Part (msg mutexWords)).off = headerSize + 8 :=
    bodyField_off _ _ _ _
  have hsizes : (ioctlResult : Part (msg mutexWords)).type.size = 4 ∧
    (ioctlErrcode : Part (msg mutexWords)).type.size = 4 := ⟨rfl, rfl⟩
  refine (Object.get_set_of_disjoint _ _ (Or.inr ?_)).trans
    ((Object.get_set_of_disjoint _ _ (Or.inr ?_)).trans hkeep)
  · rw [hsize, herrcode, hsizes.2]
  · rw [hsize, hresult, hsizes.1]
    exact Nat.add_le_add_left (by decide : 4 + 4 ≤ 12) _

theorem ioctl_isSome (h : len ≤ 104) (request : Nat) (s : State mutexWords) :
    (ioctl env request len s).isSome := by
  refine isSome_bind ((s.buf.read_isSome _ _).mpr (argData_inside h)) fun arg _ => ?_
  refine isSome_bind ((s.buf.write_isSome _ _).mpr ?_) fun buf _ => rfl
  rw [List.length_map, List.length_range]
  exact argData_inside h

theorem le_of_toInt {bound : Nat} (hn : n < 0x100000000) (hpos : 0 ≤ toInt n)
    (hle : toInt n ≤ bound) : n ≤ bound := by
  unfold toInt at hpos hle
  split at hle <;> omega

/-- A request to the device which is known has an argument inside of the buffer. -/
theorem takeIoctlReq_argSize (s : State mutexWords) :
    ∃ r, takeIoctlReq env s = some r ∧ (r.2 = true → r.1.buf.get argSize ≤ 104) := by
  let request := s.buf.get (bodyField .chnIoctlReq (by decide) 0 (by decide : 0 < 5))
  have hle := checkIoctl_le env.config env.api request
  by_cases hknown : env.vbiFd ∧ 0 ≤ (checkIoctl env.config env.api request).1 ∧
    (checkIoctl env.config env.api request).1 = toInt (s.buf.get argSize) ∧
      ((checkIoctl env.config env.api request).2 = false ∨ env.reqPerm)
  · have hlen : (checkIoctl env.config env.api request).1.toNat ≤ 104 := by omega
    obtain ⟨s', hs'⟩ := Option.isSome_iff_exists.mp (ioctl_isSome env hlen request s)
    refine ⟨(s', true), (if_pos hknown).trans (congrArg (Option.map fun s => (s, true)) hs'),
      fun _ => ?_⟩
    obtain ⟨_, hpos, hsize, _⟩ := hknown
    rw [hsize] at hle hpos
    rw [ioctl_argSize env hs']
    exact le_of_toInt (s.buf.get_lt argSize) hpos hle
  · exact ⟨(s, false), if_neg hknown, fun h => absurd h Bool.false_ne_true⟩

theorem takeIoctlMsg_isSome (s : State mutexWords) : (takeIoctlMsg env s).isSome := by
  obtain ⟨r, hr, hsize⟩ := takeIoctlReq_argSize env s
  refine isSome_bind (Option.isSome_of_eq_some hr) fun r' hr' => ?_
  obtain rfl : r = r' := Option.some.inj (hr.symm.trans hr')
  by_cases hdone : r.2 = true
  · rw [if_pos hdone]
    have hin : (argData : Part (msg mutexWords)).off + r.1.buf.get argSize ≤
      (msg mutexWords).size := argData_inside (hsize hdone)
    have hdata : (argData : Part (msg mutexWords)).off = headerSize + 16 := bodyField_off _ _ _ _
    have hcnf : (struct [u32, u32, u32, u32, u8.array 0]).size = 16 := by decide
    rw [hdata] at hin
    refine msgWrite_isSome ?_
    rw [fields, hcnf]
    omega
  · rw [if_neg hdone]
    exact reply_isSome (by decide) r.1

/-- A message with which the daemon leaves its objects: a service request with a strictness
out of bounds, or a name which is not terminated when it is to be output. -/
def Overruns (s : State mutexWords) : MsgType → Prop
  | .serviceReq =>
    s.req.state = .forward ∧ ¬ (minStrict ≤ strictOf serviceStrict s.buf ∧
      strictOf serviceStrict s.buf ≤ maxStrict)
  | .connectReq =>
    s.req.state = .waitConReq ∧ compatVersion s.buf = version ∧ env.logMsg ∧ ¬ Named s.buf
  | _ => False

theorem isSome_ite {p : Prop} [Decidable p] {o : Option (State mutexWords)}
    (s : State mutexWords) :
    (if p then o.map (fun s => (s, true)) else some (s, false)).isSome ↔ (p → o.isSome) := by
  by_cases h : p
  · simp [h]
  · simp [h]

theorem takeTokenReq_isSome (s : State mutexWords) : (takeTokenReq env s).isSome :=
  reply_isSome (by decide) _

theorem takeNotifyReq_isSome (s : State mutexWords) : (takeNotifyReq env s).isSome :=
  reply_isSome (by decide) _

theorem takeType_isSome (s : State mutexWords) (t : MsgType) :
    (takeType env s t).isSome ↔ ¬ Overruns env s t := by
  cases t with
  | connectReq =>
    refine (isSome_ite s).trans ?_
    rw [takeConnectReq_isSome]
    exact ⟨fun h hover => hover.2.2.2 (h hover.1 hover.2.1 hover.2.2.1),
      fun h hstate hversion hlog => Classical.byContradiction fun hname =>
        h ⟨hstate, hversion, hlog, hname⟩⟩
  | serviceReq =>
    refine (isSome_ite s).trans ?_
    rw [takeServiceMsg_isSome, hasLevel_iff]
    exact ⟨fun h hover => hover.2 (h hover.1),
      fun h hforward => Classical.byContradiction fun hlevel => h ⟨hforward, hlevel⟩⟩
  | daemonPidReq => exact iff_of_true ((isSome_ite s).mpr fun _ => takeDaemonPidReq_isSome env s) id
  | chnTokenReq => exact iff_of_true ((isSome_ite s).mpr fun _ => takeTokenReq_isSome env s) id
  | chnNotifyReq => exact iff_of_true ((isSome_ite s).mpr fun _ => takeNotifyReq_isSome env s) id
  | chnIoctlReq => exact iff_of_true ((isSome_ite s).mpr fun _ => takeIoctlMsg_isSome env s) id
  | chnSuspendReq => exact iff_of_true (Option.isSome_map.trans (reply_isSome (by decide) s)) id
  | _ => exact iff_of_true rfl id

def typeOf (buf : Object (msg mutexWords)) : Option MsgType := msgTypes[buf.get headType]?

theorem takeMessage_isSome (s : State mutexWords) :
    (takeMessage env s).isSome ↔ ∀ t, typeOf s.buf = some t → ¬ Overruns env s t := by
  unfold takeMessage typeOf
  cases htype : msgTypes[s.buf.get headType]? with
  | none =>
    refine iff_of_true ?_ fun t ht => absurd ht (Option.some_ne_none t).symm
    exact isSome_bind (logType_isSome _ _) fun _ _ => isSome_bind rfl fun r _ =>
      isSome_bind (logType_isSome _ _) fun _ _ => rfl
  | some t =>
    refine Iff.trans ⟨fun h => ?_, fun h => ?_⟩ ((takeType_isSome env s t).trans
      ⟨fun h t' ht => Option.some.inj ht ▸ h, fun h => h t rfl⟩)
    · obtain ⟨_, _, h⟩ := isSome_of_bind h
      obtain ⟨r, hr, _⟩ := isSome_of_bind h
      exact Option.isSome_of_eq_some hr
    · exact isSome_bind (logType_isSome _ _) fun _ _ => isSome_bind h fun r _ =>
        isSome_bind (logType_isSome _ _) fun _ _ => rfl

/-- For each content of the buffer, in each state, the daemon stays in its objects unless it
accepts one of the two messages. -/
theorem receive_isSome (s : State mutexWords) :
    (receive env s).isSome ↔
      ¬ (accepted s.buf ∧ ∃ t, typeOf s.buf = some t ∧ Overruns env s t) := by
  unfold receive
  by_cases haccepted : accepted s.buf
  · rw [if_pos haccepted, Option.isSome_map, takeMessage_isSome]
    simp [haccepted]
  · rw [if_neg haccepted, Option.isSome_map]
    exact iff_of_true (logType_isSome _ _) fun h => haccepted h.1

end

/-- A connected client, and a device without a file handle. -/
def strictState (bytes : List UInt8) : State 5 where
  before := []
  req := ⟨0, 0, .forward, fun _ => 0, 0⟩
  after := []
  dev := ⟨true, true, 0, 0⟩
  scanning := 625
  profile := ⟨0, 5, 0, []⟩
  buf := ⟨fun i => bytes.getD i 0⟩
  writeLen := none

def quietEnv : Env where
  config := ⟨true, true⟩
  debugLevel := 0
  pid := 1
  services := ⟨true, fun _ => 0, 0, true⟩
  errorStr := none
  devName := []
  api := .v4l2
  decoder := none
  vbiFd := false
  updateScanning := id
  tokenInd := false
  reqPerm := false
  ioctl := fun _ _ => (fun _ => 0, 0, 0)

def strictRequest : List UInt8 := [16, 0, 0, 0, 5, 0, 0, 0, 0, 0, 127, 0, 1, 0, 0, 0]

theorem receive_strictRequest :
    accepted (strictState strictRequest).buf = true ∧
      (receive quietEnv (strictState strictRequest)).isSome = false := by
  decide +kernel

end ProxyMessageBounds

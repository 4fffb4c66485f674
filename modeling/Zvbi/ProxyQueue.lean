import Zvbi.ProxyDaemon

/-!
# Frame queues of the proxy daemon

A captured frame is a buffer in the queue of its device, with a reference for each
client which was active when it arrived. A client has a pointer to the first frame it
was not sent yet, and releases the frames one after another. Buffers without
references are in a free list. A step has no result if an assertion fails or a client
reads a buffer which is not in the queue.
-/

namespace ProxyQueue
open ProxyDaemon (ReqState)

/-- `PROXY_QUEUE`, where the identifier stands for the address. -/
structure Buf where
  id : Nat
  refCount : Nat

/-- The fields of `PROXY_CLNT` for the queue. -/
structure Clnt where
  id : Nat
  devIdx : Nat
  state : ReqState
  allServices : Nat
  bufferCount : Nat
  pSliced : Option Nat

/-- The fields of `PROXY_DEV` for the queue. -/
structure Dev where
  capture : Bool
  pSliced : List Buf
  pFree : List Nat

/-- `PROXY_SRV`, the next identifiers of a client and of a buffer, and `opt_buffer_count`. -/
structure Server where
  clnts : List Clnt
  dev : Nat → Dev
  nextClnt : Nat
  nextBuf : Nat
  optBufferCount : Nat

def Server.setClnts (s : Server) (clnts : List Clnt) : Server := { s with clnts := clnts }

def Server.setDev (s : Server) (dev : Nat) (v : Dev) : Server :=
  { s with dev := fun i => if i = dev then v else s.dev i }

def Clnt.point (c : Clnt) (p : Option Nat) : Clnt := { c with pSliced := p }

def Clnt.setState (c : Clnt) (state : ReqState) : Clnt := { c with state := state }

def Clnt.setServices (c : Clnt) (services : Nat) : Clnt := { c with allServices := services }

def modifyClnt (id : Nat) (f : Clnt → Clnt) (clnts : List Clnt) : List Clnt :=
  clnts.map fun c => if c.id = id then f c else c

def findClnt (clnts : List Clnt) (id : Nat) : Option Clnt := clnts.find? fun c => c.id = id

def Clnt.active (c : Clnt) : Bool := decide (c.state = .forward) && decide (c.allServices ≠ 0)

def framesFrom (id : Nat) : List Buf → List Buf
  | [] => []
  | b :: queue => if b.id = id then b :: queue else framesFrom id queue

def unref (id : Nat) (queue : List Buf) : List Buf :=
  queue.map fun b => if b.id = id then { b with refCount := b.refCount - 1 } else b

/-- A reference to a frame is dropped. The last one has to be to the head of the queue, which
becomes free. -/
def releaseBuf (d : Dev) (b : Buf) : Option Dev :=
  if b.refCount - 1 = 0 then
    match d.pSliced with
    | [] => none
    | head :: queue =>
      if head.id = b.id then some ⟨d.capture, queue, b.id :: d.pFree⟩ else none
  else
    some ⟨d.capture, unref b.id d.pSliced, d.pFree⟩

/-- `vbi_proxy_queue_release_sliced()`. -/
def releaseSliced (s : Server) (req : Clnt) : Option Server :=
  req.pSliced.bind fun id =>
    match framesFrom id (s.dev req.devIdx).pSliced with
    | [] => none
    | b :: queue =>
      (releaseBuf (s.dev req.devIdx) b).map fun d =>
        (s.setClnts (modifyClnt req.id (fun c => c.point ((queue.head?).map Buf.id)) s.clnts)).setDev
          req.devIdx d

def releaseLoop (id : Nat) : Nat → Server → Option Server
  | 0, _ => none
  | fuel + 1, s =>
    match findClnt s.clnts id with
    | none => some s
    | some req =>
      if req.pSliced = none then some s
      else (releaseSliced s req).bind (releaseLoop id fuel)

def releaseFrames (s : Server) (req : Clnt) : Option Server :=
  releaseLoop req.id ((s.dev req.devIdx).pSliced.length + 1) s

/-- `vbi_proxy_queue_release_all()`. -/
def releaseAll (s : Server) (dev : Nat) : Server :=
  let d := s.dev dev
  (s.setClnts (s.clnts.map fun c => if c.devIdx = dev then c.point none else c)).setDev dev
    ⟨d.capture, [], (d.pSliced.map Buf.id).reverse ++ d.pFree⟩

def bufferCount (s : Server) (dev : Nat) : Nat :=
  let clnts := s.clnts.filter fun c => c.devIdx = dev
  (clnts.foldl (fun n c => max n c.bufferCount) s.optBufferCount) + clnts.length

/-- `vbi_proxy_queue_allocate()`, where `malloc` buffers can be had at most. -/
def allocate (s : Server) (dev malloc : Nat) : Server :=
  let d := s.dev dev
  let count := bufferCount s dev
  let free := if count < d.pFree.length + d.pSliced.length then [] else d.pFree
  let more := min malloc (count - (free.length + d.pSliced.length))
  { s.setDev dev ⟨d.capture, d.pSliced, (List.range' s.nextBuf more).reverse ++ free⟩ with
    nextBuf := s.nextBuf + more }

/-- The round of a client in `vbi_proxy_queue_force_free()`. -/
def forceClnt (dev : Nat) (s : Server) (id : Nat) : Option Server :=
  match findClnt s.clnts id with
  | none => some s
  | some req =>
    if req.pSliced = ((s.dev dev).pSliced.head?).map Buf.id then releaseSliced s req else some s

/-- `vbi_proxy_queue_force_free()`. -/
def forceFree (s : Server) (dev : Nat) : Option Server :=
  if (s.dev dev).pFree = [] ∧ (s.dev dev).pSliced.isEmpty = false then
    (s.clnts.map Clnt.id).foldlM (forceClnt dev) s
  else
    some s

def Clnt.wants (dev : Nat) (c : Clnt) : Bool := decide (c.devIdx = dev) && c.active

def Clnt.receive (dev id : Nat) (c : Clnt) : Clnt :=
  if c.wants dev && c.pSliced.isNone then c.point (some id) else c

def queueFrame (s : Server) (dev id : Nat) : Server :=
  let refs := s.clnts.countP (Clnt.wants dev)
  let d := s.dev dev
  if 0 < refs then
    (s.setClnts (s.clnts.map (Clnt.receive dev id))).setDev dev
      ⟨d.capture, d.pSliced ++ [⟨id, refs⟩], d.pFree⟩
  else
    s.setDev dev ⟨d.capture, d.pSliced, id :: d.pFree⟩

def captureFrame (s : Server) (dev : Nat) (captured : Bool) : Server :=
  match (s.dev dev).pFree with
  | [] => s
  | id :: free =>
    let taken := s.setDev dev ⟨(s.dev dev).capture, (s.dev dev).pSliced, free⟩
    if captured then queueFrame taken dev id
    else taken.setDev dev ⟨(s.dev dev).capture, (s.dev dev).pSliced, id :: free⟩

/-- `vbi_proxyd_forward_data()`. -/
def forwardData (s : Server) (dev : Nat) (captured : Bool) : Option Server :=
  (forceFree s dev).map fun s => captureFrame s dev captured

/-- `vbi_proxy_stop_acquisition()`. -/
def stopAcquisition (s : Server) (dev : Nat) : Server :=
  if (s.dev dev).capture then s.setDev dev ⟨false, [], []⟩ else s

/-- What happens outside: if the device can be opened, how many buffers can be had, and
the services which the device can give to each client. -/
structure Env where
  opens : Bool
  malloc : Nat
  granted : Nat → Nat

def openCapture (s : Server) (dev : Nat) : Server :=
  s.setDev dev ⟨true, (s.dev dev).pSliced, (s.dev dev).pFree⟩

/-- `vbi_proxy_start_acquisition()`. -/
def startAcquisition (s : Server) (dev : Nat) (env : Env) : Server :=
  if env.opens then allocate (openCapture s dev) dev env.malloc else s

def grantServices (s : Server) (dev : Nat) (env : Env) : Server :=
  s.setClnts (s.clnts.map fun c =>
    if c.devIdx = dev ∧ c.state = .forward then c.setServices (env.granted c.id) else c)

/-- `vbi_proxyd_update_services()` for a device which can be waited for with `select()`. -/
def updateServices (s : Server) (dev : Nat) (env : Env) : Server :=
  let s := if (s.dev dev).capture then s else startAcquisition s dev env
  if (s.dev dev).capture then
    let s := grantServices s dev env
    if s.clnts.any fun c => decide (c.devIdx = dev) && c.active then allocate s dev env.malloc
    else stopAcquisition s dev
  else
    s

inductive Op
  | accept (dev : Nat)
  | connect (id bufferCount : Nat) (accepted : Bool) (env : Env)
  | service (id : Nat) (env : Env)
  | frame (dev : Nat) (captured : Bool)
  | forward (id : Nat)
  | flush (id : Nat)
  | ioctl (id : Nat) (env : Env)
  | close (id : Nat) (env : Env)

/-- `vbi_proxyd_add_connection()`. -/
def addConnection (s : Server) (dev : Nat) : Server :=
  { s with
    clnts := s.clnts ++ [⟨s.nextClnt, dev, .waitConReq, 0, 0, none⟩]
    nextClnt := s.nextClnt + 1 }

def Clnt.connect (c : Clnt) (bufferCount : Nat) : Clnt :=
  { c with state := .forward, bufferCount := bufferCount }

def connectReq (s : Server) (req : Clnt) (bufferCount : Nat) (accepted : Bool) (env : Env) :
    Server :=
  let s := updateServices
    (s.setClnts (modifyClnt req.id (fun c => c.connect bufferCount) s.clnts)) req.devIdx env
  if accepted then s
  else s.setClnts (modifyClnt req.id (fun c => c.setState .waitClose) s.clnts)

def closeConnection (s : Server) (req : Clnt) (env : Env) : Option Server :=
  (releaseFrames s req).map fun s =>
    let s := s.setClnts (s.clnts.filter fun c => c.id ≠ req.id)
    if req.allServices ≠ 0 then updateServices s req.devIdx env else s

def clntStep (s : Server) (req : Clnt) : Op → Option Server
  | .connect _ bufferCount accepted env =>
    if req.state = .waitConReq then some (connectReq s req bufferCount accepted env) else some s
  | .service _ env =>
    if req.state = .forward then
      (releaseFrames s req).map fun s => updateServices s req.devIdx env
    else
      some s
  | .forward _ => if req.pSliced = none then some s else releaseSliced s req
  | .flush _ =>
    if req.state = .forward ∧ (s.dev req.devIdx).capture then some (releaseAll s req.devIdx)
    else some s
  | .ioctl _ env =>
    if req.state = .forward ∧ (s.dev req.devIdx).capture = false then
      some (stopAcquisition (startAcquisition s req.devIdx env) req.devIdx)
    else
      some s
  | .close _ env => closeConnection s req env
  | .accept _ => some s
  | .frame _ _ => some s

def Op.clnt : Op → Option Nat
  | .accept _ => none
  | .connect id _ _ _ => some id
  | .service id _ => some id
  | .frame _ _ => none
  | .forward id => some id
  | .flush id => some id
  | .ioctl id _ => some id
  | .close id _ => some id

def step (s : Server) (op : Op) : Option Server :=
  match op with
  | .accept dev => some (addConnection s dev)
  | .frame dev captured =>
    if (s.dev dev).capture then forwardData s dev captured else some s
  | op =>
    match op.clnt.bind (findClnt s.clnts) with
    | none => some s
    | some req => clntStep s req op

def initial (optBufferCount : Nat) : Server := ⟨[], fun _ => ⟨false, [], []⟩, 0, 0, optBufferCount⟩

end ProxyQueue

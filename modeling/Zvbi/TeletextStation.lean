import Zvbi.PageCacheCounts
import Zvbi.TeletextLop

/-!
# The page cache in the Teletext decoder

Here the functions which get pages from the cache or put pages into it are those of the
decoder, and the cache is the one of `PageCache`. Each page a call returns is referenced and
must be released. The decoder stores pages which are complete, continues pages which are in
the cache already, and looks at them to find out the character set of subtitles. When it
notices a new channel it changes to another network.
-/

namespace TeletextStation
open Hamming TeletextHeader TeletextLop
open PageCache (VbiCache Addr TtxPage PageFunction)
open PageCacheReferences (Consistent)
open PageCachePut (PutFits)
open PageCacheCounts

/-- `enum vbi_page_type`, the types not needed elsewhere. -/
def vbiCurrentProgr : Nat := 0x7C
def vbiProgrSchedule : Nat := 0x81
def vbiCaDataBroadcast : Nat := 0xE0
def vbiKeywordSearchList : Nat := 0xF9

/-- `struct ttx_page_link`. -/
structure TtxPageLink where
  function : Int
  pgno : Nat
  subno : Nat

/-- What is used of `vbi->network`. -/
structure Network where
  nuid : Nat
  cni8301 : Nat
  cni8302 : Nat
  cycle : Nat

inductive Event
  | ttxPage (event : TtxPageEvent)
  | network (n : Network)
  | networkId (n : Network)
  | aspect
  | localTime
  | progId
  | trigger

/-- What the decoder knows besides the pages in progress. There is no cache any more after
undefined behaviour: memory was used which is not allocated, or an assertion failed.
`contents` are the cached pages, `allocations` the number of allocations so far, and `links`
stands for the magazines and the initial page of the network. -/
structure Station (Client Links Rest : Type) where
  cache : Option VbiCache
  cn : Addr
  contents : Addr → Page (PageData Rest)
  allocations : Nat
  newCp : Option Addr
  network : Network
  aspectSource : Nat
  bttLink : Nat → TtxPageLink
  links : Links
  client : Client

abbrev World (Client Links Rest : Type) := LopWorld (Station Client Links Rest)

variable {Client Links Rest : Type}

structure Handlers (Client : Type) where
  handle : Client → VbiCache → Addr → Event → Client × VbiCache
  balanced : ∀ client ca n event, Consistent ca → networkRefs ca n = 1 →
    Consistent (handle client ca n event).2 ∧ SameRefs ca (handle client ca n event).2

/-- The functions which do not use the cache, the events the client wants, its handlers,
and the success of each allocation. -/
structure Environment (Client Links Rest : Type) where
  handlers : Handlers Client
  malloc : Nat → Bool
  bsdataEvents : Bool
  localTimeEvents : Bool
  progIdEvents : Bool
  triggerEvents : Bool
  stationLookup : Nat → Nat → Nat
  pageLanguage : World Client Links Rest → Option (Page (PageData Rest)) → Int → Nat → Nat
  convertDrcs : Page (PageData Rest) → Rest × Bool
  clearLinks : Rest → Rest
  clearModes : Rest → Rest
  convertData : Links → (Int → PageStat) → Page (PageData Rest) → Int →
    Links × (Int → PageStat) × Option (PageData Rest)
  parseData : Links → (Int → PageStat) → Page (PageData Rest) → Nat → Packet →
    Links × (Int → PageStat) × PageData Rest × Bool
  parse27 : Page (PageData Rest) → Packet → Rest × Bool
  parse28 : Links → Page (PageData Rest) → Packet → Rest × Nat × Bool
  drcsModes : Packet → Rest → Rest
  parseMagazine : Links → Fin 8 → Packet → Links × Bool
  resetLinks : Links → Links
  parseInitialPage : Links → Packet → Links × Bool
  decodeLocalTime : Packet → Bool
  decodePdc : Packet → Bool

variable (env : Environment Client Links Rest)

def cacheFunction (function : Int) : PageFunction :=
  if function = pageFunctionEpg then .epg
  else if function = pageFunctionEacemTrigger then .eacemTrigger
  else if function = pageFunctionDiscard then .discard
  else if function = pageFunctionLop then .lop
  else if function = pageFunctionGpop then .gpop
  else if function = pageFunctionPop then .pop
  else if function = pageFunctionGdrcs then .gdrcs
  else if function = pageFunctionDrcs then .drcs
  else if function = pageFunctionMot then .mot
  else if function = pageFunctionMip then .mip
  else if function = pageFunctionBtt then .btt
  else if function = pageFunctionAit then .ait
  else if function = pageFunctionMpt then .mpt
  else if function = pageFunctionMptEx then .mptEx
  else .unknown

def ttxPage (vtp : Page (PageData Rest)) : TtxPage where
  function := cacheFunction vtp.function
  pgno := vtp.pgno.toNat
  subno := vtp.subno
  national := vtp.national
  flags := UInt32.ofNat vtp.flags.toNat
  lopPackets := UInt32.ofNat vtp.lopPackets
  x26Designations := UInt32.ofNat vtp.x26Designations
  x27Designations := UInt32.ofNat vtp.x27Designations
  x28Designations := UInt32.ofNat vtp.x28Designations
  data := []

def setStation (w : World Client Links Rest) (s : Station Client Links Rest) :
    World Client Links Rest :=
  { w with other := s }

/-- The cache, which takes the type of the page from the table of the network. The block a
page is written to must be large enough, and a page is not replaced twice. -/
def putInto (ca : VbiCache) (n : Addr) (pageType : Nat) (cp : TtxPage) (memory : Bool) :
    Option (VbiCache × Option Addr) :=
  (PageCache.setPageType ca n cp.pgno (UInt8.ofNat pageType)).bind fun ca =>
    if PutFits ca n cp then PageCache.vbiCachePutPage ca n cp memory else none

/-- `_vbi_cache_put_page()`. -/
def cachePut (w : World Client Links Rest) (vtp : Page (PageData Rest)) :
    World Client Links Rest × Option Addr :=
  let s := w.other
  let r := s.cache.bind fun ca =>
    putInto ca s.cn (w.pageStat vtp.pgno).pageType (ttxPage vtp) (env.malloc s.allocations)
  match r with
  | none => (setStation w { s with cache := none }, none)
  | some (ca, none) =>
    (setStation w { s with cache := some ca, allocations := s.allocations + 1 }, none)
  | some (ca, some a) =>
    (setStation w { s with
      cache := some ca
      allocations := s.allocations + 1
      contents := Function.update s.contents a vtp }, some a)

/-- `_vbi_cache_get_page()`. -/
def cacheGet (w : World Client Links Rest) (pgno subno mask : Nat) :
    World Client Links Rest × Option Addr :=
  let s := w.other
  match s.cache.bind fun ca => PageCache.vbiCacheGetPage ca s.cn pgno subno mask with
  | none => (setStation w { s with cache := none }, none)
  | some (ca, a) => (setStation w { s with cache := some ca }, a)

/-- `cache_page_unref()`, which accepts a null pointer. -/
def release (w : World Client Links Rest) : Option Addr → World Client Links Rest
  | none => w
  | some a => setStation w { w.other with
      cache := w.other.cache.bind fun ca => PageCache.cachePageUnref ca a }

def peekPage (w : World Client Links Rest) (pgno subno mask : Nat) :
    World Client Links Rest × Option (Page (PageData Rest)) :=
  let r := cacheGet w pgno subno mask
  (release r.1 r.2, r.2.map r.1.other.contents)

/-- `vbi_send_event()`. -/
def sendEvent (w : World Client Links Rest) (event : Event) : World Client Links Rest :=
  match w.other.cache with
  | none => w
  | some ca =>
    let r := env.handlers.handle w.other.client ca w.other.cn event
    setStation w { w.other with client := r.1, cache := some r.2 }

/-- Put a page into the cache. The page stored by `store_lop()` is in use until the event was
sent. Otherwise the decoder releases it, unless it is a page with DRCS. -/
def putPage (w : World Client Links Rest) (vtp : Page (PageData Rest)) :
    World Client Links Rest × Bool :=
  let r := cachePut env w vtp
  if vtp.function = pageFunctionLop then
    (setStation r.1 { r.1.other with newCp := r.2 }, r.2.isSome)
  else if vtp.function = pageFunctionDrcs ∨ vtp.function = pageFunctionGdrcs then
    (r.1, r.2.isSome)
  else
    (release r.1 r.2, r.2.isSome)

def announcePage (w : World Client Links Rest) (event : TtxPageEvent) :
    World Client Links Rest :=
  let w := sendEvent env w (.ttxPage event)
  release (setStation w { w.other with newCp := none }) w.other.newCp

def updatePageStat (w : World Client Links Rest) (pgno : Int) (f : PageStat → PageStat) :
    World Client Links Rest :=
  { w with pageStat := Function.update w.pageStat pgno (f (w.pageStat pgno)) }

def subcodeRow (index : Nat) : Nat := index / 13 + 15
def subcodeByte (index : Nat) : Nat := index % 13 * 3 + 1

def tabledPage (code : Nat) (vtp : Page (PageData Rest)) (index : Nat) : Option (Nat × Nat) :=
  let raw := vtp.data.raw (subcodeRow index)
  let low := vbiUnham16p (raw (subcodeByte index)) (raw (subcodeByte index + 1))
  let high := vbiUnham8 (raw (subcodeByte index + 2))
  if low < 0 ∨ high < 0 then
    none
  else
    let subc := (low + high * 256).toNat
    if code &&& 15 ≠ 1 ∧ subc < 2 then
      none
    else
      let pageType :=
        if code = 0xF8 then vbiKeywordSearchList
        else if code = 0x7B then vbiCurrentProgr
        else if 0xE0 ≤ code then vbiCaDataBroadcast
        else if 0xD0 ≤ code then vbiProgrSchedule
        else vbiNormalPage
      some (pageType, if code &&& 15 = 1 then subc + 0x1000 else subc)

/-- The end of `parse_mip_page()`. What was learned from the page itself counts more. -/
def notePage (w : World Client Links Rest) (pgno : Int) (pageType subc : Nat) :
    World Client Links Rest :=
  updatePageStat w pgno fun ps =>
    { ps with
      pageType :=
        if ps.pageType = vbiUnknownPage ∨ ps.pageType = vbiSubtitlePage ∨ pageType ≠ vbiNoPage then
          pageType
        else ps.pageType
      subcode := if ps.pageType = vbiUnknownPage ∨ ps.subcode < subc then subc else ps.subcode }

def noteSubtitles (w : World Client Links Rest) (pgno : Int) : World Client Links Rest :=
  let r := peekPage w pgno.toNat 0 0
  updatePageStat r.1 pgno fun ps => { ps with charsetCode := env.pageLanguage w r.2 pgno 0 }

/-- `parse_mip_page()`, with the index of the next entry in the table of subcodes. -/
def parseMipPage (vtp : Page (PageData Rest)) (w : World Client Links Rest) (pgno : Int)
    (code : Int) (index : Nat) : World Client Links Rest × Nat × Bool :=
  let c := code.toNat
  if code < 0 then
    (w, index, false)
  else if (0x52 ≤ c ∧ c ≤ 0x6F) ∨ (0xD2 ≤ c ∧ c ≤ 0xDF) ∨ (0xFA ≤ c ∧ c ≤ 0xFC) ∨ c = 0xFF then
    (w, index, true)
  else if (0x02 ≤ c ∧ c ≤ 0x4F) ∨ (0x82 ≤ c ∧ c ≤ 0xCF) then
    (notePage w pgno (if 0x80 ≤ c then vbiProgrSchedule else vbiNormalPage) (c &&& 0x7F),
      index, true)
  else if 0x70 ≤ c ∧ c ≤ 0x77 then
    (notePage (noteSubtitles env w pgno) pgno vbiSubtitlePage 0, index, true)
  else if c = 0x50 ∨ c = 0x51 ∨ c = 0xD0 ∨ c = 0xD1 ∨ c = 0xE0 ∨ c = 0xE1 ∨ c = 0x7B ∨ c = 0xF8 then
    if 10 * 13 < index then
      (w, index, false)
    else
      match tabledPage c vtp index with
      | none => (w, index + 1, false)
      | some (pageType, subc) => (notePage w pgno pageType subc, index + 1, true)
  else
    (notePage w pgno c 0, index, true)

def mipOffsets (packet : Nat) : List Nat :=
  if packet ≤ 8 then List.range' 0 10 ++ List.range' 0x10 10
  else if packet = 14 then List.range' 0x0A 6
  else List.range' 0x0A 6 ++ List.range' 0x1A 6 ++ List.range' 0x2A 6

def mipBase (packet : Nat) : Int :=
  if packet ≤ 8 then (packet - 1 : Nat) * 0x20 else (packet - 9 : Nat) * 0x30

/-- The entries of the rows received: a page number after the first one of the magazine,
and the code. -/
def mipEntries (vtp : Page (PageData Rest)) : List (Int × Int) :=
  ((List.range' 1 14).filter vtp.lopPackets.testBit).flatMap fun packet =>
    (mipOffsets packet).zipIdx.map fun entry =>
      (mipBase packet + entry.1, vbiUnham16p (vtp.data.raw packet (2 * entry.2))
        (vtp.data.raw packet (2 * entry.2 + 1)))

/-- The loops of `parse_mip()`, which end at the first error. -/
def parseMipEntries (vtp : Page (PageData Rest)) :
    List (Int × Int) → Nat → World Client Links Rest → World Client Links Rest
  | [], _, w => w
  | (offset, code) :: entries, index, w =>
    let r := parseMipPage env vtp w (vtp.pgno / 256 % 16 * 256 + offset) code index
    if r.2.2 then parseMipEntries vtp entries r.2.1 r.1 else r.1

def parseMip (w : World Client Links Rest) (vtp : Page (PageData Rest)) :
    World Client Links Rest :=
  parseMipEntries env vtp (mipEntries vtp) 0 w

def dec2bcdp (i : Nat) : Nat :=
  [0x000, 0x040, 0x080, 0x120, 0x160, 0x200, 0x240, 0x280, 0x320, 0x360,
    0x400, 0x440, 0x480, 0x520, 0x560, 0x600, 0x640, 0x680, 0x720, 0x760].getD i 0

def bttPageType (code : Int) : Nat :=
  if code = 2 ∨ code = 3 then vbiProgrSchedule
  else if code = 4 ∨ code = 5 then vbiTopBlock
  else if code = 6 ∨ code = 7 then vbiTopGroup
  else if 8 ≤ code ∧ code ≤ 11 then vbiNormalPage
  else vbiNoPage

/-- An entry of the BTT. Pages with subpages, whose codes are 3, 5, 7 and 10, and pages
which do not exist keep their subcode. -/
def bttEntry (w : World Client Links Rest) (pgno : Int) (code : Int) : World Client Links Rest :=
  if code = 1 then
    let w := updatePageStat w pgno fun ps => { ps with pageType := vbiSubtitlePage }
    let r := peekPage w pgno.toNat 0 0
    updatePageStat r.1 pgno fun ps =>
      { ps with
        charsetCode :=
          if r.2.isSome then env.pageLanguage w r.2 0 0 else ps.charsetCode
        subcode := 0 }
  else
    updatePageStat w pgno fun ps =>
      { ps with
        pageType := bttPageType code
        subcode :=
          if bttPageType code = vbiNoPage ∨ code = 3 ∨ code = 5 ∨ code = 7 ∨ code = 10 then ps.subcode
          else 0 }

def bttTens (buf : Packet) :
    Nat → Nat → Nat → World Client Links Rest → World Client Links Rest × Nat × Nat
  | 0, index, byte, w => (w, index, byte)
  | n + 1, index, byte, w =>
    let code := vbiUnham8 (buf (byte + 2))
    if code < 0 then (w, index, byte + 1)
    else bttTens buf n (index + 1) (byte + 1) (bttEntry env w (0x100 + index) code)

def bttRow (buf : Packet) : Nat → Nat → Nat → World Client Links Rest → World Client Links Rest
  | 0, _, _, w => w
  | n + 1, index, byte, w =>
    let r := bttTens env buf 10 index byte w
    bttRow buf n (r.2.1 + if r.2.1 &&& 0xFF = 0x9A then 0x66 else 0x06) r.2.2 r.1

def unhamTopPageLink (buffer : Nat → UInt8) : Option TtxPageLink :=
  let n (i : Nat) : Nat := (vbiUnham8 (buffer i)).toNat
  let pgno := n 0 * 256 + n 1 * 16 + n 2
  if (List.range 8).any (fun i => vbiUnham8 (buffer i) < 0) ∨ pgno < 0x100 ∨ 0x8FF < pgno then
    none
  else
    let function :=
      if n 7 = 2 then pageFunctionAit
      else if n 7 = 1 then pageFunctionMpt
      else if n 7 = 3 then pageFunctionMptEx
      else pageFunctionUnknown
    some ⟨function, pgno, (n 3 * 0x1000 + n 4 * 256 + n 5 * 16 + n 6) &&& 0x3F7F⟩

def bttPageLink (buf : Packet) (packet : Nat) (w : World Client Links Rest) (i : Nat) :
    World Client Links Rest :=
  match unhamTopPageLink fun j => buf (2 + 8 * i + j) with
  | none => w
  | some link =>
    let s := w.other
    let w := setStation w { s with
      bttLink := Function.update s.bttLink ((packet - 21) * 5 + i) link }
    if link.function = pageFunctionUnknown then w
    else updatePageStat w link.pgno fun ps => { ps with pageType := vbiTopPage, subcode := 0 }

/-- `parse_btt()`. -/
def parseBtt (w : World Client Links Rest) (packet : Nat) (buf : Packet) :
    World Client Links Rest :=
  if packet ≤ 20 then
    bttRow env buf 4 (dec2bcdp (packet - 1)) 0 w
  else if packet ≤ 23 then
    (List.range 5).foldl (bttPageLink buf packet) w
  else
    w

def parseData (w : World Client Links Rest) (vtp : Page (PageData Rest)) (packet : Nat)
    (buf : Packet) : World Client Links Rest × PageData Rest × Bool :=
  if vtp.function = pageFunctionBtt then
    (parseBtt env w packet buf, vtp.data, true)
  else
    let r := env.parseData w.other.links w.pageStat vtp packet buf
    ({ w with pageStat := r.2.1, other := { w.other with links := r.1 } }, r.2.2)

/-- The part of `vbi_convert_page()` for those pages. -/
def convertData (w : World Client Links Rest) (vtp : Page (PageData Rest)) (function : Int) :
    World Client Links Rest × Option (PageData Rest) :=
  let r := env.convertData w.other.links w.pageStat vtp function
  ({ w with pageStat := r.2.1, other := { w.other with links := r.1 } }, r.2.2)

/-- `eacem_trigger()`. The page is formatted at Level 1.5, at which the decoder does not
look for other pages. -/
def eacemTrigger (w : World Client Links Rest) (_ : Page (PageData Rest)) :
    World Client Links Rest :=
  if env.triggerEvents then sendEvent env w .trigger else w

def switchNetwork (s : Station Client Links Rest) : Station Client Links Rest :=
  let r := s.cache.bind fun ca => (PageCache.cacheNetworkUnref ca s.cn).bind fun ca =>
    PageCache.vbiCacheAddNetwork ca none (env.malloc s.allocations)
  match r with
  | some (ca, some n) =>
    { s with
      cache := some ca
      cn := n
      allocations := s.allocations + 1
      bttLink := if n = s.cn then s.bttLink else fun _ => ⟨pageFunctionLop, 0, 0⟩
      links := env.resetLinks s.links }
  | _ => { s with cache := none }

def vbiChswReset (identified : Nat) (w : World Client Links Rest) : World Client Links Rest :=
  let old := w.other.network.nuid
  let w : World Client Links Rest :=
    { setStation w (switchNetwork env w.other) with pageStat := fun _ => ⟨vbiUnknownPage, 0xFF, 0⟩ }
  let w :=
    if identified = 0 then
      let w := setStation w { w.other with network := ⟨0, 0, 0, 0⟩ }
      if old ≠ 0 then sendEvent env w (.network w.other.network) else w
    else
      w
  let w := if 0 < w.other.aspectSource then sendEvent env w .aspect else w
  { setStation w { w.other with aspectSource := 0 } with headerPgno := 0, chswcd := 0 }

/-- The second time a network identifies itself. This is a channel change if another network
was identified before. -/
def identifyNetwork (id : Nat) (w : World Client Links Rest) : World Client Links Rest × Bool :=
  let old := w.other.network.nuid
  let changed := id ≠ old ∧ old ≠ 0
  let w := if changed then vbiChswReset env id w else w
  let w :=
    if id ≠ old then
      let w := setStation w { w.other with network := { w.other.network with nuid := id } }
      sendEvent env w (.network w.other.network)
    else
      w
  let w := sendEvent env w (.networkId w.other.network)
  (setStation w { w.other with network := { w.other.network with cycle := 2 } }, changed)

def cni8301 (buf : Packet) : Nat := (vbiRev8 (buf 9)).toNat * 256 + (vbiRev8 (buf 10)).toNat

def cni8302 (buf : Packet) : Option Nat :=
  let t (i : Nat) : Int := vbiUnham16p (buf (2 * i + 8)) (buf (2 * i + 9))
  let b (i : Nat) : Nat := (vbiRev8 (UInt8.ofNat (t i).toNat)).toNat
  if (List.range 7).any fun i => t i < 0 then
    none
  else
    let cni := ((b 4 &&& 0x03) <<< 10) + ((b 5 &&& 0xC0) <<< 2) + (b 2 &&& 0xC0) + (b 5 &&& 0x3F) +
      ((b 1 &&& 0x0F) <<< 12)
    some (if cni = 0x0DC3 then (if b 2 &&& 0x10 ≠ 0 then 0x0DC2 else 0x0DC1) else cni)

/-- `parse_bsd()`. The last component tells that the decoder was reset. -/
def parseBsd (w : World Client Links Rest) (designation : Nat) (buf : Packet) :
    World Client Links Rest × Bool × Bool :=
  let n := w.other.network
  if designation ≤ 1 then
    let cni := cni8301 buf
    if cni ≠ n.cni8301 then
      (setStation w { w.other with network := { n with cni8301 := cni, cycle := 1 } }, true, false)
    else if n.cycle = 1 then
      let r := identifyNetwork env (env.stationLookup 1 cni) w
      (r.1, true, r.2)
    else
      (w, true, false)
  else if designation ≤ 3 then
    match cni8302 buf with
    | none => (w, false, false)
    | some cni =>
      if cni ≠ n.cni8302 then
        (setStation w { w.other with network := { n with cni8302 := cni, cycle := 1 } }, true, false)
      else if n.cycle = 1 then
        let r := identifyNetwork env (env.stationLookup 2 cni) w
        (r.1, true, r.2)
      else
        (w, true, false)
  else
    (w, true, false)

/-- The events at the end of `parse_8_30()`. -/
def sendBroadcast (w : World Client Links Rest) (designation : Nat) (buf : Packet) :
    World Client Links Rest × Bool :=
  if designation < 2 then
    if env.localTimeEvents then
      if env.decodeLocalTime buf then (sendEvent env w .localTime, true) else (w, false)
    else
      (w, true)
  else if env.progIdEvents then
    if env.decodePdc buf then (sendEvent env w .progId, true) else (w, false)
  else
    (w, true)

def parse830 (w : World Client Links Rest) (buf : Packet) : World Client Links Rest × Bool × Bool :=
  let designation := vbiUnham8 (buf 2)
  if designation < 0 then
    (w, false, false)
  else if 4 < designation then
    (w, true, false)
  else
    let initial := env.parseInitialPage w.other.links buf
    let w := setStation w { w.other with links := initial.1 }
    if initial.2 = false then
      (w, false, false)
    else
      let r := if env.bsdataEvents then parseBsd env w designation.toNat buf else (w, true, false)
      if r.2.1 = false then
        r
      else
        let sent := sendBroadcast env r.1 designation.toNat buf
        (sent.1, sent.2, r.2.2)

def otherFunctions : OtherFunctions (Station Client Links Rest) Rest where
  vbiCachePutPage := putPage env
  vbiCacheGetPage w pgno subno := peekPage w pgno.toNat subno 0xFFFFFFFF
  vbiSendEvent := announcePage env
  vbiChswReset := vbiChswReset env 0
  pageLanguage w vtp := env.pageLanguage w (some vtp) 0 0
  convertDrcs := env.convertDrcs
  parseMip := parseMip env
  eacemTrigger := eacemTrigger env
  bttLink w i := ((w.other.bttLink i).pgno, (w.other.bttLink i).function)
  clearLinks := env.clearLinks
  clearModes := env.clearModes
  convertData := convertData env
  parseData := parseData env
  parse27 := env.parse27
  parse28 w := env.parse28 w.other.links
  drcsModes := env.drcsModes
  parseMagazine w mag0 buf :=
    let r := env.parseMagazine w.other.links mag0 buf
    (setStation w { w.other with links := r.1 }, r.2)
  parseService w mag0 packet buf :=
    if mag0.val = 0 ∧ packet % 2 = 0 then parse830 env w buf else (w, true, false)

abbrev TtxDecoder (Client Links Rest : Type) :=
  Decoder (World Client Links Rest) (PageData Rest)

/-- `vbi_decode_teletext()`, without a result after undefined behaviour. -/
def step (d : TtxDecoder Client Links Rest) (buf : Packet) : Option (TtxDecoder Client Links Rest) :=
  let d := (vbiDecodeTeletext (lopFunctions (otherFunctions env)) d buf).decoder
  if d.world.other.cache.isSome then some d else none

end TeletextStation

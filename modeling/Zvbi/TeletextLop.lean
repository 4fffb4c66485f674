import Zvbi.Hamming24
import Zvbi.PageCache
import Zvbi.PopPointers
import Zvbi.TeletextHeader

/-!
# Rows of Teletext pages

The rows of a page with text are kept apart from the page until it is complete,
because the X/26 packets which follow have a say in their parity check. Other pages
are changed at once. The header of a complete page is compared with the header of the
page before, which is how the decoder finds out that the channel was changed.
-/

namespace TeletextLop
open Hamming TeletextHeader
open PopPointers (Triplet)

variable {Other Rest : Type}

def pageFunctionGpop : Int := 2

def vbiNoPage : Nat := 0x00
def vbiNormalPage : Nat := 0x01
def vbiSubtitlePage : Nat := 0x70
def vbiUnknownPage : Nat := 0xFF

/-- `struct ttx_page_stat`. -/
structure PageStat where
  pageType : Nat
  charsetCode : Nat
  subcode : Nat

/-- What the decoder knows besides the pages in progress. `other` stands for the cache,
the links of the network and the event handlers. -/
structure LopWorld (Other : Type) where
  headerPgno : Int
  header : Nat → UInt8
  chswcd : Int
  pageStat : Int → PageStat
  other : Other

structure PageData (Rest : Type) where
  raw : Nat → Nat → UInt8
  enh : Nat → Triplet
  rest : Rest

/-- `VBI_EVENT_TTX_PAGE`. -/
structure TtxPageEvent where
  pgno : Int
  subno : Nat
  rollHeader : Bool
  headerUpdate : Bool
  clockUpdate : Option Bool
  rawHeader : Option (Nat → UInt8)
  pnOffset : Int

/-- The functions which are not about rows. Those which parse packets of a page return
only what they can change. -/
structure OtherFunctions (Other Rest : Type) where
  vbiCachePutPage : LopWorld Other → Page (PageData Rest) → LopWorld Other × Bool
  vbiCacheGetPage : LopWorld Other → Int → Nat → LopWorld Other × Option (Page (PageData Rest))
  vbiSendEvent : LopWorld Other → TtxPageEvent → LopWorld Other
  vbiChswReset : LopWorld Other → LopWorld Other
  pageLanguage : LopWorld Other → Page (PageData Rest) → Nat
  convertDrcs : Page (PageData Rest) → Rest × Bool
  parseMip : LopWorld Other → Page (PageData Rest) → LopWorld Other
  eacemTrigger : LopWorld Other → Page (PageData Rest) → LopWorld Other
  bttLink : LopWorld Other → Fin 8 → Int × Int
  clearLinks : Rest → Rest
  clearModes : Rest → Rest
  convertData : LopWorld Other → Page (PageData Rest) → Int →
    LopWorld Other × Option (PageData Rest)
  parseData : LopWorld Other → Page (PageData Rest) → Nat → Packet →
    LopWorld Other × PageData Rest × Bool
  parse27 : Page (PageData Rest) → Packet → Rest × Bool
  parse28 : LopWorld Other → Page (PageData Rest) → Packet → Rest × Nat × Bool
  drcsModes : Packet → Rest → Rest
  parseMagazine : LopWorld Other → Fin 8 → Packet → LopWorld Other × Bool
  parseService : LopWorld Other → Fin 8 → Nat → Packet → LopWorld Other × Bool × Bool

def rowBytes (buf : Packet) : Nat → UInt8 := fun i => buf (i + 2)

def rowGood (row : Nat → UInt8) : Bool := (List.range 40).all fun i => 0 ≤ vbiUnpar8 (row i)

/-- The size of `ttx_enhancement`. -/
def enhancementCount : Nat := 16 * 13 + 1

def placesCharacter (mode : UInt8) : Bool :=
  mode = 0x01 ∨ mode = 0x02 ∨ mode = 0x0B ∨ mode = 0x08 ∨ mode = 0x09 ∨ mode = 0x0D ∨
    mode = 0x0F ∨ 0x10 ≤ mode ∧ mode ≤ 0x1F

def selectRow (t : Triplet) (row : Nat) : Nat :=
  if t.mode = 0x01 ∨ t.mode = 0x04 then
    if t.address = 40 then 24 else t.address.toNat - 40
  else if t.mode = 0x07 then
    0
  else
    row

def setParity (lopRaw : Nat → Nat → UInt8) (row column : Nat) : Nat → Nat → UInt8 :=
  Function.update lopRaw row
    (Function.update (lopRaw row) column (vbiPar8 (lopRaw row column)))

def fixFallback (lopRaw : Nat → Nat → UInt8) : List Triplet → Nat → Nat → Nat → UInt8
  | [], _ => lopRaw
  | t :: trips, row =>
    if t.address < 40 then
      if placesCharacter t.mode then
        fixFallback (setParity lopRaw row t.address.toNat) trips row
      else
        fixFallback lopRaw trips row
    else if 63 < t.address then
      lopRaw
    else
      fixFallback lopRaw trips (selectRow t row)

def checkRow (lopPackets : Nat) (lopRaw : Nat → Nat → UInt8)
    (page : (Nat → Nat → UInt8) × Nat) (packet : Nat) : (Nat → Nat → UInt8) × Nat :=
  if lopPackets.testBit packet ∧ rowGood (lopRaw packet) then
    (Function.update page.1 packet (lopRaw packet), page.2 ||| 1 <<< packet)
  else
    page

/-- `lop_parity_check()`. -/
def lopParityCheck (r : RawPage (PageData Rest)) :
    PageData Rest × Nat × (Nat → Nat → UInt8) :=
  let lopRaw :=
    if r.page.x26Designations ≠ 0 then
      fixFallback r.lopRaw ((List.range enhancementCount).map r.page.data.enh) 0
    else
      r.lopRaw
  let checked := (List.range' 1 25).foldl (checkRow r.lopPackets lopRaw)
    (r.page.data.raw, r.page.lopPackets)
  ({ r.page.data with raw := checked.1 }, checked.2, lopRaw)

/-- What `same_header()` returns: `TRUE`, `FALSE`, -1 or -2. -/
inductive HeaderMatch
  | same
  | different
  | newDay
  | useless
  deriving DecidableEq

def pageDigits (pgno : Int) : UInt8 × UInt8 × UInt8 :=
  let digit (n : Nat) : UInt8 := vbiPar8 (UInt8.ofNat (n + 0x30))
  (digit (pgno.toNat >>> 8), digit (pgno.toNat >>> 4 &&& 15), digit (pgno.toNat &&& 15))

/-- The variables `j`, `err` and `neq` of the loop over columns 8 to 31. The page number
is skipped once, with the character behind it. -/
def compareHeaders (digits : UInt8 × UInt8 × UInt8) (cur ref : Nat → UInt8) :
    Nat → Nat → Nat → Bool → Bool → Nat × Bool × Bool
  | 0, _, j, err, neq => (j, err, neq)
  | fuel + 1, i, j, err, neq =>
    if i < 32 then
      if i < j ∧ (cur i, cur (i + 1), cur (i + 2)) = digits then
        compareHeaders digits cur ref fuel (i + 4) i err neq
      else
        compareHeaders digits cur ref fuel (i + 1) j
          (err || vbiUnpar8 (cur i) < 0 || vbiUnpar8 (ref i) < 0) (neq || cur i ≠ ref i)
    else
      (j, err, neq)

/-- `same_header()`, with the position of the page number. The last test reads the columns
from 64 on. -/
def sameHeader (curPgno : Int) (cur ref : Nat → UInt8) : HeaderMatch × Int :=
  let r := compareHeaders (pageDigits curPgno) cur ref 24 8 29 false false
  if r.2.1 = true ∨ 29 ≤ r.1 then
    (.useless, -1)
  else if r.2.2 = false then
    (.same, r.1)
  else if ((ref 64).toNat * 256 + (ref 65).toNat) &&& 0x7F7F = 0x3233 ∧
      ((cur 64).toNat * 256 + (cur 65).toNat) &&& 0x7F7F = 0x3030 then
    (.newDay, r.1)
  else
    (.different, r.1)

/-- `same_clock()`, which is given the first of the 40 columns. -/
def sameClock (cur ref : Nat → UInt8) : Bool :=
  (List.range 8).all fun i =>
    cur i = ref i ∨ vbiUnpar8 (cur i) < 0 ∨ vbiUnpar8 (ref i) < 0

def pageMemory (vtp : Page (PageData Rest)) : Nat → UInt8 := fun i => vtp.data.raw (i / 40) (i % 40)

def suppressesHeader (flags : Int) : Bool := flags.toNat &&& 0xDC000 ≠ 0

def rollHeader (vtp : Page (PageData Rest)) : Bool :=
  suppressesHeader vtp.flags = false ∧
    (vtp.pgno ≤ 0x199 ∨ magazineSerial vtp.flags = true) ∧ PageCache.vbiIsBcd vtp.pgno.toNat

def LopWorld.setHeader (w : LopWorld Other) (vtp : Page (PageData Rest)) : LopWorld Other :=
  { w with
    headerPgno := vtp.pgno
    header := fun i => if 8 ≤ i ∧ i < 40 then vtp.data.raw 0 i else w.header i }

/-- The comparison with the header of the page before, with the page itself after a
channel change. -/
def matchHeader (w : LopWorld Other) (vtp : Page (PageData Rest)) : HeaderMatch × Int :=
  sameHeader vtp.pgno (pageMemory vtp) (if w.headerPgno = 0 then pageMemory vtp else w.header)

def pageEvent (vtp : Page (PageData Rest)) : TtxPageEvent where
  pgno := vtp.pgno
  subno := vtp.subno
  rollHeader := rollHeader vtp
  headerUpdate := false
  clockUpdate := none
  rawHeader := none
  pnOffset := -1

def rolledEvent (w : LopWorld Other) (vtp : Page (PageData Rest)) : TtxPageEvent :=
  { pageEvent vtp with
    headerUpdate := w.headerPgno = 0
    clockUpdate := some (if w.headerPgno = 0 then true else !sameClock (pageMemory vtp) w.header)
    pnOffset := (matchHeader w vtp).2 }

def updateStat (f : OtherFunctions Other Rest) (w : LopWorld Other)
    (vtp : Page (PageData Rest)) : LopWorld Other :=
  let ps := w.pageStat vtp.pgno
  let ps :=
    if ps.pageType = vbiSubtitlePage then
      if ps.charsetCode = 0xFF then { ps with charsetCode := f.pageLanguage w vtp } else ps
    else if ps.pageType = vbiNoPage ∨ ps.pageType = vbiUnknownPage then
      { ps with pageType := vbiNormalPage }
    else
      ps
  let ps := if 0xFFFE ≤ ps.subcode ∨ ps.subcode < vtp.subno then { ps with subcode := vtp.subno }
    else ps
  { w with pageStat := Function.update w.pageStat vtp.pgno ps }

def putPage (f : OtherFunctions Other Rest) (w : LopWorld Other) (vtp : Page (PageData Rest))
    (event : TtxPageEvent) : LopWorld Other :=
  let r := f.vbiCachePutPage (updateStat f w vtp) vtp
  if r.2 then f.vbiSendEvent r.1 event else r.1

def storeLop (f : OtherFunctions Other Rest) (w : LopWorld Other) (vtp : Page (PageData Rest)) :
    LopResult (LopWorld Other) :=
  if rollHeader vtp then
    let event := rolledEvent w vtp
    let r := (matchHeader w vtp).1
    if r = .same then
      let w := { w with chswcd := 0 }.setHeader vtp
      .stored (putPage f w vtp { event with rawHeader := some w.header })
    else if r = .different ∧ vtp.pgno / 256 % 16 = w.headerPgno / 256 % 16 then
      .chswReset (f.vbiChswReset w)
    else if 0 < w.chswcd then
      .ignored w
    else if r = .newDay then
      let w := w.setHeader vtp
      .stored (putPage f w vtp { event with rawHeader := some w.header })
    else
      .stored (putPage f w vtp { event with rollHeader := false, clockUpdate := some false })
  else
    .stored (putPage f w vtp (pageEvent vtp))

def markPacket (vtp : Page (PageData Rest)) (packet : Nat) : Page (PageData Rest) :=
  { vtp with lopPackets := vtp.lopPackets ||| 1 <<< packet }

def setData (vtp : Page (PageData Rest)) (data : PageData Rest) : Page (PageData Rest) :=
  { vtp with data := data }

def setRest (vtp : Page (PageData Rest)) (rest : Rest) : Page (PageData Rest) :=
  setData vtp { vtp.data with rest := rest }

def isParsed (function : Int) : Bool :=
  function = pageFunctionMot ∨ function = pageFunctionGpop ∨ function = pageFunctionPop ∨
    function = pageFunctionBtt ∨ function = pageFunctionAit ∨ function = pageFunctionMpt ∨
    function = pageFunctionMptEx

def parseText (f : OtherFunctions Other Rest) (w : LopWorld Other)
    (r : RawPage (PageData Rest)) (packet : Nat) (buf : Packet) :
    LopWorld Other × RawPage (PageData Rest) × Bool × Bool :=
  let vtp := r.page
  if isParsed vtp.function then
    let parsed := f.parseData w vtp packet buf
    let vtp := setData vtp parsed.2.1
    (parsed.1, r.setPage (if parsed.2.2 then markPacket vtp packet else vtp), parsed.2.2, false)
  else if vtp.function = pageFunctionLop then
    (w, { r with
      lopRaw := Function.update r.lopRaw packet (rowBytes buf)
      lopPackets := r.lopPackets ||| 1 <<< packet }, true, false)
  else if vtp.function = pageFunctionEpg then
    (w, r.setPage (markPacket vtp packet), true, false)
  else if vtp.function = pageFunctionEacemTrigger ∧ rowGood (rowBytes buf) = false then
    (w, r, false, false)
  else
    let data := { vtp.data with raw := Function.update vtp.data.raw packet (rowBytes buf) }
    (w, r.setPage (markPacket (setData vtp data) packet), true, false)

/-- The triplet at position `i` of packets 26 to 28. -/
def tripletBits (buf : Packet) (i : Nat) : BitVec 32 :=
  vbiUnham24p (buf (3 + 3 * i)) (buf (4 + 3 * i)) (buf (5 + 3 * i))

def storeTriplets (buf : Packet) : List Nat → Int → (Nat → Triplet) → Int × (Nat → Triplet)
  | [], n, enh => (n, enh)
  | i :: is, n, enh =>
    if (tripletBits buf i).msb then
      (n, enh)
    else
      let t := (tripletBits buf i).toNat
      storeTriplets buf is (n + 1) (Function.update enh n.toNat
        ⟨UInt8.ofNat (t &&& 0x3F), UInt8.ofNat (t >>> 6 &&& 0x1F), UInt8.ofNat (t >>> 11)⟩)

def excludesEnhancement (function : Int) : Bool :=
  function = pageFunctionGdrcs ∨ function = pageFunctionDrcs ∨ function = pageFunctionBtt ∨
    function = pageFunctionAit ∨ function = pageFunctionMpt ∨ function = pageFunctionMptEx

def parse26 (f : OtherFunctions Other Rest) (w : LopWorld Other)
    (r : RawPage (PageData Rest)) (buf : Packet) :
    LopWorld Other × RawPage (PageData Rest) × Bool × Bool :=
  let vtp := r.page
  if vtp.function = pageFunctionGpop ∨ vtp.function = pageFunctionPop then
    let parsed := f.parseData w vtp 26 buf
    (parsed.1, r.setPage (setData vtp parsed.2.1), parsed.2.2, false)
  else if excludesEnhancement vtp.function then
    (w, r, true, true)
  else
    let designation := vbiUnham8 (buf 2)
    if designation < 0 then
      (w, r, false, false)
    else if 16 * 13 ≤ r.numTriplets ∨ r.numTriplets ≠ designation * 13 then
      (w, { r with numTriplets := -1 }, false, false)
    else
      let stored := storeTriplets buf (List.range 13) r.numTriplets vtp.data.enh
      let vtp := setData vtp { vtp.data with enh := stored.2 }
      (w, { r with
        page := { vtp with x26Designations := vtp.x26Designations ||| 1 <<< designation.toNat }
        numTriplets := stored.1 }, true, false)

def namedFunction (buf : Packet) : Int := ((tripletBits buf 0).toNat &&& 15 : Nat)

def parse283 (f : OtherFunctions Other Rest) (vtp : Page (PageData Rest)) (buf : Packet) :
    Page (PageData Rest) × Bool :=
  let function := namedFunction buf
  if (List.range 13).any (fun i => (tripletBits buf i).msb) then
    (vtp, false)
  else if function ≠ pageFunctionGdrcs ∧ function ≠ pageFunctionDrcs then
    (vtp, false)
  else if vtp.function = pageFunctionUnknown ∨ vtp.function = function then
    (setRest (vtp.setFunction function) (f.drcsModes buf vtp.data.rest), true)
  else
    (vtp.setFunction pageFunctionDiscard, false)

def parse28 (f : OtherFunctions Other Rest) (w : LopWorld Other) (vtp : Page (PageData Rest))
    (buf : Packet) : Page (PageData Rest) × Bool :=
  let designation := vbiUnham8 (buf 2)
  if designation < 0 then
    (vtp, false)
  else if designation = 3 then
    parse283 f vtp buf
  else
    let parsed := f.parse28 w vtp buf
    ({ setRest vtp parsed.1 with x28Designations := parsed.2.1 }, parsed.2.2)

def parseRow (f : OtherFunctions Other Rest) (w : LopWorld Other) (r : RawPage (PageData Rest))
    (packet : Nat) (buf : Packet) : LopWorld Other × RawPage (PageData Rest) × Bool × Bool :=
  if packet ≤ 25 then
    parseText f w r packet buf
  else if packet = 26 then
    parse26 f w r buf
  else if packet = 27 then
    let parsed := f.parse27 r.page buf
    (w, r.setPage (setRest r.page parsed.1), parsed.2, false)
  else
    let parsed := parse28 f w r.page buf
    (w, r.setPage parsed.1, parsed.2, false)

def copyHeader (function : Int) (buf : Packet) (data : PageData Rest) : PageData Rest :=
  if function = pageFunctionUnknown ∨ function = pageFunctionLop then
    { data with raw := Function.update data.raw 0 (rowBytes buf) }
  else
    data

def noTriplet : Triplet := ⟨0xFF, 0xFF, 0xFF⟩

def clearData (f : OtherFunctions Other Rest) (function : Int) (buf : Packet)
    (data : PageData Rest) : PageData Rest :=
  if function = pageFunctionEacemTrigger then
    { data with raw := fun _ _ => 0x20, enh := fun _ => noTriplet }
  else if function = pageFunctionUnknown then
    { raw := Function.update (fun _ _ => 0x20) 0 (rowBytes buf)
      enh := fun _ => noTriplet
      rest := f.clearLinks data.rest }
  else
    data

/-- `vbi_convert_page()` for a page in progress, whose function is unknown. -/
def vbiConvertPage (f : OtherFunctions Other Rest) (w : LopWorld Other)
    (vtp : Page (PageData Rest)) (function : Int) : LopWorld Other × Page (PageData Rest) :=
  if function = pageFunctionLop then
    (w, vtp.setFunction function)
  else if function = pageFunctionGdrcs ∨ function = pageFunctionDrcs then
    let converted := f.convertDrcs (setRest vtp (f.clearModes vtp.data.rest))
    if converted.2 then (w, setRest (vtp.setFunction function) converted.1) else (w, vtp)
  else if function = pageFunctionGpop ∨ function = pageFunctionPop ∨
      function = pageFunctionAit ∨ function = pageFunctionMpt ∨ function = pageFunctionMptEx then
    let converted := f.convertData w vtp function
    match converted.2 with
    | none => (converted.1, vtp)
    | some data => (converted.1, setData (vtp.setFunction function) data)
  else
    (w, vtp)

def lopFunctions (f : OtherFunctions Other Rest) :
    Functions (LopWorld Other) (PageData Rest) where
  lopParityCheck := lopParityCheck
  storeLop := storeLop f
  convertDrcs vtp := ({ vtp.data with rest := (f.convertDrcs vtp).1 }, (f.convertDrcs vtp).2)
  vbiCachePutPage w vtp := (f.vbiCachePutPage w vtp).1
  vbiCacheGetPage := f.vbiCacheGetPage
  parseMip := f.parseMip
  eacemTrigger := f.eacemTrigger
  pageType w pgno := (w.pageStat pgno).pageType
  setPageType w pgno pageType := { w with
    pageStat := Function.update w.pageStat pgno { w.pageStat pgno with pageType := pageType } }
  clearSubcode w pgno := { w with
    pageStat := Function.update w.pageStat pgno { w.pageStat pgno with subcode := 0 } }
  bttLink := f.bttLink
  copyHeader := copyHeader
  clearData := clearData f
  vbiConvertPage := vbiConvertPage f
  parseRow := parseRow f
  parseMagazine := f.parseMagazine
  parseService := f.parseService

end TeletextLop

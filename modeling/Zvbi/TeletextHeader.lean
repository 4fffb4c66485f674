import Mathlib.Logic.Function.Basic
import Mathlib.Data.Fintype.Basic
import Zvbi.Hamming

/-!
# Teletext page headers

Packet X/0 ends the page in progress and starts the next one of its magazine. Its
first eight bytes have the page number, the subcode and the control bits. The rows
which follow belong to the page of their magazine unless its function is
`PAGE_FUNCTION_DISCARD`.
-/

namespace TeletextHeader
open Hamming

variable {World Data : Type}

/-- `enum ttx_page_function`. -/
def pageFunctionEpg : Int := -4
def pageFunctionEacemTrigger : Int := -3
def pageFunctionDiscard : Int := -2
def pageFunctionUnknown : Int := -1
def pageFunctionLop : Int := 0
def pageFunctionPop : Int := 3
def pageFunctionGdrcs : Int := 4
def pageFunctionDrcs : Int := 5
def pageFunctionMot : Int := 6
def pageFunctionMip : Int := 7
def pageFunctionBtt : Int := 8
def pageFunctionAit : Int := 9
def pageFunctionMpt : Int := 10
def pageFunctionMptEx : Int := 11

/-- `enum vbi_page_type`. -/
def vbiNotPublic : Nat := 0x80
def vbiEpgData : Nat := 0xE3
def vbiSystemPage : Nat := 0xE7
def vbiDispSystemPage : Nat := 0xF7
def vbiTopBlock : Nat := 0xFA
def vbiTopGroup : Nat := 0xFB
def vbiTriggerData : Nat := 0xFC
def vbiAci : Nat := 0xFD
def vbiTopPage : Nat := 0xFE

/-- A page in progress. `data` stands for its contents. -/
structure Page (Data : Type) where
  function : Int
  pgno : Int
  subno : Nat
  national : Nat
  flags : Int
  lopPackets : Nat
  x26Designations : Nat
  x27Designations : Nat
  x28Designations : Nat
  extDesignations : Nat
  data : Data

/-- `struct raw_page`. -/
structure RawPage (Data : Type) where
  page : Page Data
  lopRaw : Nat → Nat → UInt8
  lopPackets : Nat
  numTriplets : Int

/-- The decoder. `World` stands for the cache, the network, the event handlers and
other state which does not belong to a page in progress. -/
structure Decoder (World Data : Type) where
  ttxEvents : Bool
  current : Option (Fin 8)
  rawPage : Fin 8 → RawPage Data
  world : World

abbrev Packet := Nat → UInt8

/-- What `store_lop()` did: the page was stored, the decoder was reset for a new
channel, or neither. -/
inductive LopResult (World : Type)
  | stored (w : World)
  | chswReset (w : World)
  | ignored (w : World)

/-- The other functions. Each one has the state it may change, and those which may
reset the decoder say so. -/
structure Functions (World Data : Type) where
  lopParityCheck : RawPage Data → Data × Nat × (Nat → Nat → UInt8)
  storeLop : World → Page Data → LopResult World
  convertDrcs : Page Data → Data × Bool
  vbiCachePutPage : World → Page Data → World
  vbiCacheGetPage : World → Int → Nat → World × Option (Page Data)
  parseMip : World → Page Data → World
  eacemTrigger : World → Page Data → World
  pageType : World → Int → Nat
  setPageType : World → Int → Nat → World
  clearSubcode : World → Int → World
  bttLink : World → Fin 8 → Int × Int
  copyHeader : Int → Packet → Data → Data
  clearData : Int → Packet → Data → Data
  vbiConvertPage : World → Page Data → Int → World × Page Data
  parseRow : World → RawPage Data → Nat → Packet → World × RawPage Data × Bool × Bool
  parseMagazine : World → Fin 8 → Packet → World × Bool
  parseService : World → Fin 8 → Nat → Packet → World × Bool × Bool

/-- The decoder after a packet, what `vbi_decode_teletext()` returned, and the pages
it passed to the cache. -/
structure Outcome (World Data : Type) where
  decoder : Decoder World Data
  result : Bool
  stored : List (Page Data)

def RawPage.setPage (r : RawPage Data) (page : Page Data) : RawPage Data :=
  { r with page := page }

def Page.setFunction (p : Page Data) (function : Int) : Page Data := { p with function := function }

def Decoder.setRaw (d : Decoder World Data) (m : Fin 8) (r : RawPage Data) :
    Decoder World Data :=
  { d with rawPage := Function.update d.rawPage m r }

def Decoder.setPage (d : Decoder World Data) (m : Fin 8) (page : Page Data) :
    Decoder World Data :=
  d.setRaw m ((d.rawPage m).setPage page)

def Decoder.setWorld (d : Decoder World Data) (w : World) : Decoder World Data :=
  { d with world := w }

def Decoder.page (d : Decoder World Data) (m : Fin 8) : Page Data := (d.rawPage m).page

def Decoder.discard (d : Decoder World Data) (m : Fin 8) : Decoder World Data :=
  d.setPage m ((d.page m).setFunction pageFunctionDiscard)

def vbiTeletextDesync (d : Decoder World Data) : Decoder World Data :=
  { d with rawPage := fun m =>
      (d.rawPage m).setPage ((d.page m).setFunction pageFunctionDiscard) }

/-- `C11_MAGAZINE_SERIAL`, and `C4_ERASE_PAGE`. -/
def magazineSerial (flags : Int) : Bool := flags / 0x100000 % 2 = 1
def erasePage (flags : Int) : Bool := flags / 0x80 % 2 = 1

/-- `lop_parity_check()` for the page of magazine `m`. -/
def checkParity (f : Functions World Data) (d : Decoder World Data) (m : Fin 8) :
    Decoder World Data :=
  let r := d.rawPage m
  let checked := f.lopParityCheck r
  d.setRaw m { r with
    page := { r.page with data := checked.1, lopPackets := checked.2.1 }
    lopRaw := checked.2.2 }

/-- Store the page of magazine `m` according to its function. -/
def storePage (f : Functions World Data) (d : Decoder World Data) (m : Fin 8) :
    Decoder World Data × List (Page Data) :=
  let vtp := d.page m
  if vtp.function = pageFunctionDiscard ∨ vtp.function = pageFunctionEpg then
    (d, [])
  else if vtp.function = pageFunctionLop then
    let d := checkParity f d m
    match f.storeLop d.world (d.page m) with
    | .stored w => (d.setWorld w, [d.page m])
    | .chswReset w => (vbiTeletextDesync (d.setWorld w), [])
    | .ignored w => (d.setWorld w, [])
  else if vtp.function = pageFunctionDrcs ∨ vtp.function = pageFunctionGdrcs then
    let converted := f.convertDrcs vtp
    let vtp := { vtp with data := converted.1 }
    let d := d.setPage m vtp
    if converted.2 then (d.setWorld (f.vbiCachePutPage d.world vtp), [vtp]) else (d, [])
  else if vtp.function = pageFunctionMip then
    (d.setWorld (f.parseMip d.world vtp), [])
  else if vtp.function = pageFunctionEacemTrigger then
    (d.setWorld (f.eacemTrigger d.world vtp), [])
  else
    (d.setWorld (f.vbiCachePutPage d.world vtp), [vtp])

def endPage (f : Functions World Data) (d : Decoder World Data) (m : Fin 8) :
    Decoder World Data × List (Page Data) :=
  let r := storePage f d m
  (r.1.discard m, r.2)

/-- The loop which looks for the page terminated by a new header. In serial mode this
is the current page, else the one of the same magazine, unless the header repeats its
page number. -/
def terminatePage (f : Functions World Data) (d : Decoder World Data) (mag0 : Fin 8)
    (pgno page : Int) : Decoder World Data × List (Page Data) :=
  match d.current with
  | none => (d, [])
  | some curr =>
    if magazineSerial (d.page curr).flags then
      if (d.page curr).pgno = pgno then (d, []) else endPage f d curr
    else if (d.page mag0).pgno % 256 = page then
      (d, [])
    else
      endPage f d mag0

def functionOf (f : Functions World Data) (w : World) (pgno page : Int) : Int :=
  let t := f.pageType w pgno
  if (0x01 ≤ t ∧ t ≤ 0x51) ∨ (0x70 ≤ t ∧ t ≤ 0x7F) ∨ (0x81 ≤ t ∧ t ≤ 0xD1) ∨
      (0xF4 ≤ t ∧ t ≤ 0xF7) ∨ t = vbiTopBlock ∨ t = vbiTopGroup then
    pageFunctionLop
  else if t = vbiSystemPage then
    pageFunctionUnknown
  else if t = vbiTopPage then
    match (List.finRange 8).find? fun i => (f.bttLink w i).1 = pgno with
    | none => pageFunctionUnknown
    | some i =>
      let function := (f.bttLink w i).2
      if function = pageFunctionAit ∨ function = pageFunctionMpt ∨ function = pageFunctionMptEx then
        function
      else
        pageFunctionUnknown
  else if t = 0xE5 ∨ (0xE8 ≤ t ∧ t ≤ 0xEB) then
    pageFunctionDrcs
  else if t = 0xE6 ∨ (0xEC ≤ t ∧ t ≤ 0xEF) then
    pageFunctionPop
  else if t = vbiTriggerData then
    pageFunctionEacemTrigger
  else if t = vbiEpgData ∨ (0x52 ≤ t ∧ t ≤ 0x6F) ∨ t = vbiAci ∨ t = vbiNotPublic ∨
      (0xD2 ≤ t ∧ t ≤ 0xDF) ∨ (0xE0 ≤ t ∧ t ≤ 0xE2) ∨ t = 0xE4 ∨ (0xF0 ≤ t ∧ t ≤ 0xF3) then
    pageFunctionDiscard
  else if page ≤ 0x99 ∧ page % 16 ≤ 9 then
    pageFunctionLop
  else
    pageFunctionUnknown

def continuePage (f : Functions World Data) (cvtp vtp : Page Data) (p : Packet) : Page Data :=
  { cvtp with
    function := vtp.function
    lopPackets := vtp.lopPackets
    x26Designations := vtp.x26Designations
    x27Designations := vtp.x27Designations
    x28Designations := vtp.x28Designations
    data := f.copyHeader vtp.function p vtp.data }

def newFunction (f : Functions World Data) (w : World) (pgno page : Int) : World × Int :=
  if pgno = 0x1F0 then
    (f.setPageType w pgno vbiTopPage, pageFunctionBtt)
  else if pgno = 0x1E7 then
    (f.clearSubcode (f.setPageType w pgno vbiDispSystemPage) pgno, pageFunctionEacemTrigger)
  else if page = 0xFD then
    (f.setPageType w pgno vbiSystemPage, pageFunctionMip)
  else if page = 0xFE then
    (f.setPageType w pgno vbiSystemPage, pageFunctionMot)
  else
    (w, pageFunctionUnknown)

def rebuildPage (f : Functions World Data) (w : World) (cvtp : Page Data) (page : Int)
    (p : Packet) : World × Page Data :=
  let r := newFunction f w cvtp.pgno page
  (r.1, { cvtp with
    function := r.2
    flags := if erasePage cvtp.flags then cvtp.flags else cvtp.flags + 0x80
    lopPackets := 1
    x26Designations := 0
    x27Designations := 0
    x28Designations := 0
    data := f.clearData r.2 p cvtp.data })

def startPage (f : Functions World Data) (w : World) (cvtp : Page Data) (page : Int)
    (p : Packet) : World × Page Data :=
  let cached :=
    if cvtp.pgno ≠ 0x1E7 ∧ erasePage cvtp.flags = false then
      f.vbiCacheGetPage w cvtp.pgno cvtp.subno
    else
      (w, none)
  let started :=
    match cached.2 with
    | some vtp => (cached.1, continuePage f cvtp vtp p)
    | none => rebuildPage f cached.1 cvtp page p
  let converted :=
    if started.2.function = pageFunctionUnknown then
      let function := functionOf f started.1 cvtp.pgno page
      if function ≠ pageFunctionUnknown then f.vbiConvertPage started.1 started.2 function
      else started
    else
      started
  (converted.1, { converted.2 with extDesignations := 0 })

def headerPage (buf : Packet) : Int := vbiUnham16p (buf 2) (buf 3)
def headerSubpage (buf : Packet) : Int :=
  vbiUnham16p (buf 4) (buf 5) + vbiUnham16p (buf 6) (buf 7) * 256
def headerFlags (buf : Packet) : Int := vbiUnham16p (buf 8) (buf 9)

/-- The tests of a header whose page number is good. Negative is the sign bit of
`subpage | flags`. -/
def headerBad (buf : Packet) : Bool :=
  headerPage buf = 0xFF ∨ headerSubpage buf < 0 ∨ headerFlags buf < 0

def headerFields (cvtp : Page Data) (buf : Packet) : Page Data :=
  { cvtp with
    subno := (headerSubpage buf).toNat &&& 0x3F7F
    national := (vbiRev8 (UInt8.ofNat (headerFlags buf).toNat)).toNat &&& 7
    flags := headerFlags buf * 0x10000 + headerSubpage buf }

def mag8 (mag0 : Fin 8) : Int := if mag0 = 0 then 8 else mag0.val

def decodeHeader (f : Functions World Data) (d : Decoder World Data) (mag0 : Fin 8)
    (buf : Packet) : Outcome World Data :=
  if headerPage buf < 0 then
    ⟨vbiTeletextDesync d, false, []⟩
  else
    let pgno := mag8 mag0 * 256 + headerPage buf
    let ended := terminatePage f d mag0 pgno (headerPage buf)
    let d := ended.1
    let d := d.setPage mag0 { d.page mag0 with pgno := pgno }
    let d := { d with current := some mag0 }
    if headerBad buf then
      ⟨d.discard mag0, false, ended.2⟩
    else
      let started := startPage f d.world (headerFields (d.page mag0) buf) (headerPage buf) buf
      let r : RawPage Data :=
        { d.rawPage mag0 with page := started.2, lopPackets := 0, numTriplets := 0 }
      ⟨(d.setWorld started.1).setRaw mag0 r, true, ended.2⟩

def decodeRow (f : Functions World Data) (d : Decoder World Data) (mag0 : Fin 8) (packet : Nat)
    (buf : Packet) : Outcome World Data :=
  if (d.page mag0).function = pageFunctionDiscard then
    ⟨d, true, []⟩
  else
    let r := f.parseRow d.world (d.rawPage mag0) packet buf
    let d := (d.setWorld r.1).setRaw mag0 r.2.1
    ⟨if r.2.2.2 then vbiTeletextDesync d else d, r.2.2.1, []⟩

/-- `vbi_decode_teletext()`. -/
def vbiDecodeTeletext (f : Functions World Data) (d : Decoder World Data) (buf : Packet) :
    Outcome World Data :=
  let pmag := vbiUnham16p (buf 0) (buf 1)
  if pmag < 0 then
    ⟨d, false, []⟩
  else
    let mag0 := Fin.ofNat 8 pmag.toNat
    let packet := pmag.toNat / 8
    if packet < 30 ∧ d.ttxEvents = false then
      ⟨d, true, []⟩
    else if packet = 0 then
      decodeHeader f d mag0 buf
    else if packet ≤ 28 then
      decodeRow f d mag0 packet buf
    else if packet = 29 then
      let r := f.parseMagazine d.world mag0 buf
      ⟨d.setWorld r.1, r.2, []⟩
    else
      let r := f.parseService d.world mag0 packet buf
      let d := d.setWorld r.1
      ⟨if r.2.2 then vbiTeletextDesync d else d, r.2.1, []⟩

def address (buf : Packet) : Int := vbiUnham16p (buf 0) (buf 1)

structure IsPacket (mag0 : Fin 8) (packet : Nat) (buf : Packet) : Prop where
  good : 0 ≤ address buf
  magazine : Fin.ofNat 8 (address buf).toNat = mag0
  number : (address buf).toNat / 8 = packet

def StartsPage (mag0 : Fin 8) (buf : Packet) : Prop :=
  IsPacket mag0 0 buf ∧ 0 ≤ headerPage buf ∧ headerBad buf = false

/-- An uncorrectable byte in the page number, the subcode or the control bits. -/
def HeaderError (buf : Packet) : Prop := ∃ i, 2 ≤ i ∧ i ≤ 9 ∧ vbiUnham8 (buf i) < 0

def decodeAll (f : Functions World Data) (d : Decoder World Data) (packets : List Packet) :
    Decoder World Data :=
  packets.foldl (fun d buf => (vbiDecodeTeletext f d buf).decoder) d

/-- What becomes of a bad header. Only pages which were in progress are stored, and no
row belongs to a page until a good header is received. -/
structure Rejected (f : Functions World Data) (d : Decoder World Data) (mag0 : Fin 8)
    (buf : Packet) : Prop where
  result : (vbiDecodeTeletext f d buf).result = false
  stored : ∀ vtp ∈ (vbiDecodeTeletext f d buf).stored, ∃ m,
    vtp.pgno = (d.page m).pgno ∧ vtp.subno = (d.page m).subno
  discarded : ((vbiDecodeTeletext f d buf).decoder.page mag0).function = pageFunctionDiscard
  rows : ∀ packets : List Packet, (∀ b ∈ packets, ¬ StartsPage mag0 b) →
    ∀ row n, IsPacket mag0 n row → 1 ≤ n → n ≤ 28 →
      let after := decodeAll f (vbiDecodeTeletext f d buf).decoder packets
      (vbiDecodeTeletext f after row).decoder = after ∧
        (vbiDecodeTeletext f after row).stored = []

/-- An error in the lower half of the subcode is lost in the sum if the upper half is
not zero. -/
def Missed (buf : Packet) : Prop :=
  0 ≤ headerPage buf ∧ headerPage buf ≠ 0xFF ∧ 0 ≤ headerFlags buf ∧
    0 < vbiUnham16p (buf 6) (buf 7)

variable {buf : Packet} {n : Fin 8}

/-- The test of the sum finds every error but those. -/
theorem headerBad_iff (h : HeaderError buf) (hpage : 0 ≤ headerPage buf) :
    headerBad buf = true ↔ ¬ Missed buf := by
  obtain ⟨i, hlow, hhigh, hi⟩ := h
  have hbytes : vbiUnham8 (buf 2) < 0 ∨ vbiUnham8 (buf 3) < 0 ∨ vbiUnham8 (buf 4) < 0 ∨
      vbiUnham8 (buf 5) < 0 ∨ vbiUnham8 (buf 6) < 0 ∨ vbiUnham8 (buf 7) < 0 ∨
      vbiUnham8 (buf 8) < 0 ∨ vbiUnham8 (buf 9) < 0 := by
    have hcases : i = 2 ∨ i = 3 ∨ i = 4 ∨ i = 5 ∨ i = 6 ∨ i = 7 ∨ i = 8 ∨ i = 9 := by omega
    rcases hcases with rfl | rfl | rfl | rfl | rfl | rfl | rfl | rfl
    all_goals simp only [hi, true_or, or_true]
  have hpageBytes := (vbiUnham16p_spec (buf 2) (buf 3)).1
  have hlowBytes := (vbiUnham16p_spec (buf 4) (buf 5)).1
  have hhighBytes := (vbiUnham16p_spec (buf 6) (buf 7)).1
  have hflagBytes := (vbiUnham16p_spec (buf 8) (buf 9)).1
  have hlowGe := vbiUnham16p_ge (buf 4) (buf 5)
  have hlowLe := vbiUnham16p_le (buf 4) (buf 5)
  rw [headerBad, Missed, headerSubpage, decide_eq_true_eq]
  unfold headerPage headerFlags at *
  omega

theorem page_setRaw_same (d : Decoder World Data) (m : Fin 8) (r : RawPage Data) :
    (d.setRaw m r).page m = r.page := by
  rw [Decoder.page, Decoder.setRaw]
  dsimp only
  rw [Function.update_self]

variable {m : Fin 8} {d : Decoder World Data}

theorem page_setRaw_of_ne (h : n ≠ m) (d : Decoder World Data) (r : RawPage Data) :
    (d.setRaw m r).page n = d.page n := by
  rw [Decoder.page, Decoder.setRaw]
  dsimp only
  rw [Function.update_of_ne h]
  rfl

def Idle (d : Decoder World Data) (m : Fin 8) : Prop :=
  (d.page m).function = pageFunctionDiscard

theorem idle_desync (d : Decoder World Data) (m : Fin 8) : Idle (vbiTeletextDesync d) m := rfl

theorem idle_discard_same (d : Decoder World Data) (m : Fin 8) : Idle (d.discard m) m := by
  rw [Idle, Decoder.discard, Decoder.setPage, page_setRaw_same]
  rfl

theorem Idle.setRaw (h : Idle d m) (hne : m ≠ n) (r : RawPage Data) :
    Idle (d.setRaw n r) m := by
  rw [Idle, page_setRaw_of_ne hne]
  exact h

theorem Idle.discard (h : Idle d m) (n : Fin 8) : Idle (d.discard n) m := by
  by_cases hne : m = n
  · rw [hne]
    exact idle_discard_same d n
  · exact h.setRaw hne _

theorem storePage_idle (f : Functions World Data) (h : Idle d m) : storePage f d m = (d, []) := by
  rw [storePage]
  exact if_pos (Or.inl h)

theorem Idle.storePage (h : Idle d m) (f : Functions World Data) (n : Fin 8) :
    Idle (storePage f d n).1 m := by
  by_cases hne : m = n
  · subst hne
    rw [storePage_idle f h]
    exact h
  · have hparity : Idle (checkParity f d n) m := h.setRaw hne _
    unfold TeletextHeader.storePage
    dsimp only
    split
    · exact h
    · split
      · split
        · exact hparity
        · exact idle_desync _ _
        · exact hparity
      · split
        · split
          all_goals exact h.setRaw hne _
        · repeat' split
          all_goals exact h

theorem Idle.endPage (h : Idle d m) (f : Functions World Data) (n : Fin 8) :
    Idle (endPage f d n).1 m :=
  (h.storePage f n).discard n

theorem Idle.terminatePage (h : Idle d m) (f : Functions World Data) (mag0 : Fin 8)
    (pgno page : Int) : Idle (terminatePage f d mag0 pgno page).1 m := by
  rw [TeletextHeader.terminatePage]
  split
  · exact h
  · repeat' split
    all_goals first
      | exact h
      | exact h.endPage f _

theorem Idle.decodeHeader (h : Idle d m) (f : Functions World Data) {mag0 : Fin 8}
    (hbad : mag0 = m → 0 ≤ headerPage buf → headerBad buf = true) :
    Idle (decodeHeader f d mag0 buf).decoder m := by
  have hended := h.terminatePage f mag0 (mag8 mag0 * 256 + headerPage buf) (headerPage buf)
  rw [TeletextHeader.decodeHeader]
  split
  · exact idle_desync d m
  · rename_i hpage
    dsimp only
    by_cases hne : m = mag0
    · subst hne
      rw [if_pos (hbad rfl (not_lt.mp hpage))]
      exact idle_discard_same _ m
    · split
      · exact ((hended.setRaw hne _).discard mag0 :)
      · exact (hended.setRaw hne _).setRaw hne _

theorem Idle.decodeRow (h : Idle d m) (f : Functions World Data) (mag0 : Fin 8) (packet : Nat)
    (buf : Packet) : Idle (decodeRow f d mag0 packet buf).decoder m := by
  rw [TeletextHeader.decodeRow]
  split
  · exact h
  · rename_i hbusy
    have hne : m ≠ mag0 := by
      rintro rfl
      exact hbusy h
    dsimp only
    split
    · exact idle_desync _ m
    · exact h.setRaw hne _

theorem Idle.decode (h : Idle d m) (f : Functions World Data) (hbuf : ¬ StartsPage m buf) :
    Idle (vbiDecodeTeletext f d buf).decoder m := by
  rw [vbiDecodeTeletext]
  dsimp only
  split
  · exact h
  · rename_i hgood
    split
    · exact h
    · split
      · rename_i hnumber
        apply h.decodeHeader f
        intro hmag hpage
        by_contra hheader
        rw [Bool.not_eq_true] at hheader
        exact hbuf ⟨⟨not_lt.mp hgood, hmag, hnumber⟩, hpage, hheader⟩
      · split
        · exact h.decodeRow f _ _ buf
        · repeat' split
          all_goals first
            | exact h
            | exact idle_desync _ m

theorem Idle.decodeAll (h : Idle d m) (f : Functions World Data) {packets : List Packet}
    (hpackets : ∀ b ∈ packets, ¬ StartsPage m b) : Idle (decodeAll f d packets) m := by
  induction packets generalizing d with
  | nil => exact h
  | cons buf packets ih =>
    rw [List.forall_mem_cons] at hpackets
    exact ih (h.decode f hpackets.1) hpackets.2

/-- The rows of a magazine without a page in progress are ignored. -/
theorem decode_row_idle (f : Functions World Data) (h : Idle d m) {row : Packet} {n : Nat}
    (hrow : IsPacket m n row) (hfirst : 1 ≤ n) (hlast : n ≤ 28) :
    vbiDecodeTeletext f d row = ⟨d, true, []⟩ := by
  have hgood := hrow.good
  have hnumber := hrow.number
  have hmag := hrow.magazine
  unfold address at hgood hnumber hmag
  rw [vbiDecodeTeletext]
  dsimp only
  rw [if_neg (not_lt.mpr hgood), hnumber, hmag]
  split
  · rfl
  · rw [if_neg (Nat.ne_of_gt hfirst), decodeRow]
    exact if_pos h

theorem storePage_stored (f : Functions World Data) (d : Decoder World Data) (m : Fin 8) :
    ∀ vtp ∈ (storePage f d m).2, vtp.pgno = (d.page m).pgno ∧ vtp.subno = (d.page m).subno := by
  have hparity : ((checkParity f d m).page m).pgno = (d.page m).pgno ∧
      ((checkParity f d m).page m).subno = (d.page m).subno := by
    rw [checkParity, page_setRaw_same]
    exact ⟨rfl, rfl⟩
  unfold storePage
  dsimp only
  intro vtp hvtp
  split at hvtp
  · cases hvtp
  · split at hvtp
    · split at hvtp
      · rw [List.mem_singleton] at hvtp
        subst hvtp
        exact hparity
      · cases hvtp
      · cases hvtp
    · repeat' split at hvtp
      all_goals first
        | rw [List.mem_singleton] at hvtp
          subst hvtp
          exact ⟨rfl, rfl⟩
        | cases hvtp

theorem terminatePage_stored (f : Functions World Data) (d : Decoder World Data) (mag0 : Fin 8)
    (pgno page : Int) : ∀ vtp ∈ (terminatePage f d mag0 pgno page).2, ∃ m,
      vtp.pgno = (d.page m).pgno ∧ vtp.subno = (d.page m).subno := by
  rw [terminatePage]
  intro vtp hvtp
  repeat' split at hvtp
  all_goals first
    | exact ⟨_, storePage_stored f d _ vtp hvtp⟩
    | cases hvtp

/-- A header is rejected exactly if its error is not missed, and the decoder looks at
page headers at all. -/
theorem rejected_iff (f : Functions World Data) (d : Decoder World Data) {mag0 : Fin 8}
    {buf : Packet} (hbuf : IsPacket mag0 0 buf) (herror : HeaderError buf) :
    Rejected f d mag0 buf ↔ d.ttxEvents = true ∧ ¬ Missed buf := by
  have hgood := hbuf.good
  have hnumber := hbuf.number
  have hmag := hbuf.magazine
  unfold address at hgood hnumber hmag
  have hdecode : vbiDecodeTeletext f d buf =
      if d.ttxEvents = false then ⟨d, true, []⟩ else decodeHeader f d mag0 buf := by
    rw [vbiDecodeTeletext]
    dsimp only
    rw [if_neg (not_lt.mpr hgood), hnumber, hmag, if_pos rfl]
    simp only [Nat.zero_lt_succ, true_and]
  constructor
  · intro h
    have hresult := h.result
    rw [hdecode] at hresult
    split at hresult
    · cases hresult
    · rename_i hevents
      refine ⟨Bool.of_not_eq_false hevents, fun hmissed => ?_⟩
      rw [decodeHeader, if_neg (not_lt.mpr hmissed.1)] at hresult
      dsimp only at hresult
      rw [if_neg (fun hbad => (headerBad_iff herror hmissed.1).mp hbad hmissed)] at hresult
      cases hresult
  · rintro ⟨hevents, hmissed⟩
    have hheader : vbiDecodeTeletext f d buf = decodeHeader f d mag0 buf := by
      rw [hdecode, if_neg (by rw [hevents]; decide)]
    have hidle : Idle (vbiDecodeTeletext f d buf).decoder mag0 := by
      rw [hheader, decodeHeader]
      split
      · exact idle_desync d mag0
      · rename_i hpage
        dsimp only
        rw [if_pos ((headerBad_iff herror (not_lt.mp hpage)).mpr hmissed)]
        exact idle_discard_same _ mag0
    refine ⟨?_, ?_, hidle, ?_⟩
    · rw [hheader, decodeHeader]
      split
      · rfl
      · rename_i hpage
        exact congrArg Outcome.result
          (if_pos ((headerBad_iff herror (not_lt.mp hpage)).mpr hmissed))
    · rw [hheader, decodeHeader]
      split
      · intro vtp hvtp
        cases hvtp
      · dsimp only
        split
        all_goals exact terminatePage_stored f d mag0 _ _
    · intro packets hpackets row n hrow hfirst hlast
      dsimp only
      rw [decode_row_idle f (hidle.decodeAll f hpackets) hrow hfirst hlast]
      exact ⟨rfl, rfl⟩

/-- The other functions with an empty cache and an empty page table. -/
def bareFunctions : Functions Unit Unit where
  lopParityCheck r := ((), r.page.lopPackets ||| r.lopPackets, r.lopRaw)
  storeLop _ _ := .stored ()
  convertDrcs _ := ((), true)
  vbiCachePutPage _ _ := ()
  vbiCacheGetPage _ _ _ := ((), none)
  parseMip _ _ := ()
  eacemTrigger _ _ := ()
  pageType _ _ := 0xFF
  setPageType _ _ _ := ()
  clearSubcode _ _ := ()
  bttLink _ _ := (-1, pageFunctionUnknown)
  copyHeader _ _ _ := ()
  clearData _ _ _ := ()
  vbiConvertPage _ page function := ((), page.setFunction function)
  parseRow _ r packet _ := ((), { r with lopPackets := r.lopPackets ||| 1 <<< packet }, true, false)
  parseMagazine _ _ _ := ((), false)
  parseService _ _ _ _ := ((), true, false)

def freshDecoder : Decoder Unit Unit where
  ttxEvents := true
  current := none
  rawPage _ := ⟨⟨pageFunctionDiscard, 0, 0, 0, 0, 0, 0, 0, 0, 0, ()⟩, fun _ _ => 0, 0, 0⟩
  world := ()

/-- The header of page 100 with a subcode whose first byte is uncorrectable. -/
def subcodeHeader (s3 : Fin 16) : Packet := fun i =>
  if i = 0 then vbiHam8 1 else if i = 4 then 1 else if i = 6 then vbiHam8 s3 else vbiHam8 0

theorem rejected_iff_subcode : Rejected bareFunctions freshDecoder 1 (subcodeHeader 0) ↔
    freshDecoder.ttxEvents = true ∧ ¬ Missed (subcodeHeader 0) :=
  rejected_iff bareFunctions freshDecoder
    ⟨by decide +kernel, by decide +kernel, by decide +kernel⟩
    ⟨4, by decide, by decide, by decide +kernel⟩

/-- The header is taken for one of page 100, subpage 7F. -/
theorem subcode_error_missed : IsPacket 1 0 (subcodeHeader 1) ∧ HeaderError (subcodeHeader 1) ∧
    ¬ Rejected bareFunctions freshDecoder 1 (subcodeHeader 1) := by
  refine ⟨⟨by decide +kernel, by decide +kernel, by decide +kernel⟩,
    ⟨4, by decide, by decide, by decide +kernel⟩, ?_⟩
  intro h
  have hresult := h.result
  revert hresult
  decide +kernel

end TeletextHeader

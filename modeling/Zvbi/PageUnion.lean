import Zvbi.ExtensionPackets
import Zvbi.StructLayout
import Zvbi.TeletextStation

/-!
# The union of page data

The data of all kinds of pages share one union. A page in progress is here the bytes of the
union in front of the X/28 extension, and the extension itself. The characters of a DRCS page,
which are made of its rows when the page is complete, are left out.

The parsers return their stores, the offset and the value of each byte, in the order of the
source. Integers are stored with the least significant byte first.
-/

namespace PageUnion
open Hamming StructLayout TeletextHeader TeletextStation
open TeletextLop (pageFunctionGpop)
open PopPointers (Raw triplet half storeIndex pairs designatesPointers)

/-- `int`, and enumerations. -/
def int : Layout := scalar 3

/-- `struct ttx_page_link`. -/
def ttxPageLink : Layout := struct [int, int, int]

/-- The fields of `struct ttx_lop`. -/
def ttxLop : List Layout := [(scalar 0).array (26 * 40), ttxPageLink.array 36, int]

/-- `struct ttx_triplet`. -/
def ttxTriplet : Layout := struct [scalar 0, scalar 0, scalar 0]

/-- `data.enh_lop` without the extension. -/
def enhLop : List Layout := [struct ttxLop, ttxTriplet.array (16 * 13 + 1)]

/-- `data.pop`. -/
def pop : List Layout := [(scalar 1).array (4 * 12 * 2), ttxTriplet.array (39 * 13 + 1)]

/-- `struct ttx_ait_title`. -/
def ttxAitTitle : List Layout := [ttxPageLink, (scalar 0).array 12]

/-- `data.ait`. -/
def ait : List Layout := [(struct ttxAitTitle).array 46, int]

def extension : Nat := alignUp (offset enhLop 2) int.align

abbrev Store := Nat × UInt8

def put (data : Nat → UInt8) (s : Store) : Nat → UInt8 := Function.update data s.1 s.2

def storeInt (offset n value : Nat) : List Store :=
  (List.range n).map fun k => (offset + k, UInt8.ofNat (value / 256 ^ k))

theorem foldl_put_of_not_mem {stores : List Store} {b : Nat} (h : ∀ t ∈ stores, t.1 ≠ b)
    (data : Nat → UInt8) : stores.foldl put data b = data b := by
  induction stores generalizing data with
  | nil => rfl
  | cons t stores ih =>
    rw [List.foldl_cons, ih fun u hu => h u (List.mem_cons_of_mem _ hu)]
    exact Function.update_of_ne (h t List.mem_cons_self).symm _ _

def linkOffset (link : Nat) : Nat := offset ttxLop 1 + ttxPageLink.size * link

def linkMagazine (magazine m : Nat) : Nat := if magazine ^^^ m = 0 then 8 else magazine ^^^ m

/-- `unham_page_link()`, where the link is at an offset in the packet. -/
def unhamPageLink (raw : Raw) (p magazine link : Nat) : List Store :=
  let b1 := vbiUnham16p (raw p) (raw (p + 1))
  let b2 := vbiUnham16p (raw (p + 2)) (raw (p + 3))
  let b3 := vbiUnham16p (raw (p + 4)) (raw (p + 5))
  if b1 < 0 ∨ b2 < 0 ∨ b3 < 0 then
    []
  else
    let m := (b3.toNat >>> 5 &&& 6) + b2.toNat >>> 7
    storeInt (linkOffset link + 4) 4 (linkMagazine magazine m * 256 + b1.toNat) ++
      storeInt (linkOffset link + 8) 4 ((b3.toNat * 256 + b2.toNat) &&& 0x3f7f)

/-- Link `i` of designations 4 and 5, if it has no error. -/
def compositionLink (raw : Raw) (mag0 link i : Nat) : Option (List Store) :=
  let t1 := triplet raw (2 * i)
  let t2 := triplet raw (2 * i + 1)
  if (t1 ||| t2).msb then
    none
  else
    let t1 := t1.toNat
    let pgno := linkMagazine mag0 (t1 >>> 12 &&& 7) * 256 + (t1 >>> 11 &&& 0xF0) + (t1 >>> 7 &&& 15)
    some (storeInt (linkOffset link) 4 (t1 &&& 3) ++ storeInt (linkOffset link + 4) 4 pgno ++
      storeInt (linkOffset link + 8) 4 (t2.toNat >>> 3 &&& 0xFFFF))

def compositionLinks (raw : Raw) (mag0 designation : Nat) : List Nat → List Store
  | [] => []
  | i :: is =>
    match compositionLink raw mag0 (designation * 6 + i) i with
    | none => []
    | some stores => stores ++ compositionLinks raw mag0 designation is

/-- `parse_27()`, unless the page is to be discarded. -/
def parse27 (raw : Raw) (mag0 : Nat) : List Store :=
  let designation := vbiUnham8 (raw 0)
  let links := (List.range 6).flatMap fun i =>
    unhamPageLink raw (1 + 6 * i) mag0 (designation.toNat * 6 + i)
  if designation < 0 then []
  else if designation = 0 then
    let control := vbiUnham8 (raw 37)
    if control < 0 then []
    else storeInt (offset ttxLop 2) 4 (control.toNat >>> 3) ++ links
  else if designation ≤ 3 then links
  else if designation ≤ 5 then
    compositionLinks raw mag0 designation.toNat (List.range 6)
  else []

/-- The loop of `parse_pop()` over the pointers. -/
def popPointers (raw : Raw) (packet : Nat) : List Store :=
  pairs.flatMap fun i =>
    if (triplet raw i).msb then []
    else
      storeInt (2 * storeIndex packet i) 2 (half (triplet raw i) 0).toNat ++
        storeInt (2 * (storeIndex packet i + 1)) 2 (half (triplet raw i) 1).toNat

def storeTriplet (offset : Nat) (t : BitVec 32) : List Store :=
  [(offset, UInt8.ofNat (t.toNat &&& 0x3f)), (offset + 1, UInt8.ofNat (t.toNat >>> 6 &&& 0x1f)),
    (offset + 2, UInt8.ofNat (t.toNat >>> 11))]

def popTriplets (raw : Raw) (packet : Nat) : List Store :=
  (List.range 13).flatMap fun i =>
    if (triplet raw i).msb then []
    else storeTriplet (offset pop 1 + ttxTriplet.size * ((packet - 3) * 13 + i)) (triplet raw i)

def parsePop (raw : Raw) (packet : Nat) : List Store :=
  let designation := vbiUnham8 (raw 0)
  let packet := if packet = 26 then packet + designation.toNat else packet
  if designation < 0 then []
  else if packet = 1 ∨ packet = 2 then
    if designatesPointers raw then popPointers raw packet else []
  else if packet = 3 ∨ packet = 4 then
    if designatesPointers raw then popPointers raw packet else popTriplets raw packet
  else if 5 ≤ packet ∧ packet ≤ 42 then popTriplets raw packet
  else []

/-- A title of `parse_ait()`. -/
def aitTitle (raw : Raw) (title : Nat) : List Store :=
  match unhamTopPageLink raw with
  | none => []
  | some link =>
    let offset := (struct ttxAitTitle).size * title
    storeInt offset 4 (link.function % 0x100000000).toNat ++ storeInt (offset + 4) 4 link.pgno ++
      storeInt (offset + 8) 4 link.subno ++
      (List.range 12).flatMap fun i =>
        if vbiUnpar8 (raw (i + 8)) < 0 then []
        else [(offset + 12 + i, UInt8.ofNat (vbiUnpar8 (raw (i + 8))).toNat)]

def parseAit (raw : Raw) (packet : Nat) : List Store :=
  if packet < 1 ∨ 23 < packet then []
  else
    aitTitle raw ((packet - 1) * 2) ++
      aitTitle (fun i => raw (20 + i)) ((packet - 1) * 2 + 1)

def rawRow (raw : Raw) (packet : Nat) : List Store :=
  (List.range 40).map fun i => (packet * 40 + i, raw i)

/-- The loop over the triplets of packet X/26, which ends at the first error. -/
def enhancement (raw : Raw) (numTriplets : Int) : List Nat → List Store × Int
  | [] => ([], numTriplets)
  | i :: is =>
    let t := triplet raw i
    if t.msb then
      ([], numTriplets)
    else
      let r := enhancement raw (numTriplets + 1) is
      (storeTriplet (offset enhLop 1 + ttxTriplet.size * numTriplets.toNat) t ++ r.1, r.2)

structure Reception where
  page : ExtensionPackets.State
  data : Nat → UInt8
  numTriplets : Int

def Reception.function (s : Reception) : Int := s.page.cvtp.function

def Reception.store (s : Reception) (stores : List Store) : Reception :=
  { s with data := stores.foldl put s.data }

/-- Packets 1 to 25. Those of MOT, BTT and MPT pages change the network and those of plain
pages are kept apart from the page. -/
def rowStores (function : Int) (packet : Nat) (raw : Raw) : List Store :=
  if function = pageFunctionDiscard ∨ function = pageFunctionMot ∨ function = pageFunctionBtt ∨
      function = pageFunctionMpt ∨ function = pageFunctionMptEx ∨ function = pageFunctionEpg ∨
      function = pageFunctionLop then
    []
  else if function = pageFunctionGpop ∨ function = pageFunctionPop then parsePop raw packet
  else if function = pageFunctionAit then parseAit raw packet
  else if function = pageFunctionEacemTrigger ∧
      (List.range 40).any (fun i => vbiUnpar8 (raw i) < 0) then
    []
  else rawRow raw packet

def withoutEnhancement (function : Int) : Bool :=
  function = pageFunctionGdrcs ∨ function = pageFunctionDrcs ∨ function = pageFunctionBtt ∨
    function = pageFunctionAit ∨ function = pageFunctionMpt ∨ function = pageFunctionMptEx

def decode26 (raw : Raw) (s : Reception) : Reception :=
  let designation := vbiUnham8 (raw 0)
  if s.function = pageFunctionDiscard then s
  else if s.function = pageFunctionGpop ∨ s.function = pageFunctionPop then
    s.store (parsePop raw 26)
  else if withoutEnhancement s.function then
    { s with page := { s.page with
      cvtp := { s.page.cvtp with function := pageFunctionDiscard } } }
  else if designation < 0 then s
  else if 16 * 13 ≤ s.numTriplets ∨ s.numTriplets ≠ designation * 13 then
    { s with numTriplets := -1 }
  else
    let r := enhancement raw s.numTriplets (List.range 13)
    { s.store r.1 with numTriplets := r.2 }

/-- The packets which follow a header in `vbi_decode_teletext()`, as far as they concern the
page in progress. -/
def decodePacket (mag0 packet : Nat) (raw : Raw) (s : Reception) : Reception :=
  if 1 ≤ packet ∧ packet ≤ 25 then s.store (rowStores s.function packet raw)
  else if packet = 26 then decode26 raw s
  else if packet = 27 then
    if s.function = pageFunctionDiscard then s else s.store (parse27 raw mag0)
  else if packet = 28 ∧ s.function = pageFunctionDiscard then s
  else if packet = 28 ∨ packet = 29 then
    { s with page := (ExtensionPackets.parse2829 packet raw s.page).1 }
  else s

def popData (data : Nat → UInt8) : PopPointers.PopData where
  pointer i := UInt16.ofNat ((data (2 * i)).toNat + 256 * (data (2 * i + 1)).toNat)
  triplet i := ⟨data (192 + 3 * i), data (192 + 3 * i + 1), data (192 + 3 * i + 2)⟩

structure SameObjects (vtp : PopPointers.PopData) (data : Nat → UInt8) : Prop where
  pointers : ∀ i < PopPointers.pointerCount, vtp.pointer i = (popData data).pointer i
  triplets : ∀ i, vtp.triplet i = (popData data).triplet i

theorem two_bytes (v : UInt16) :
    UInt16.ofNat ((UInt8.ofNat v.toNat).toNat + 256 * (UInt8.ofNat (v.toNat / 256)).toNat) = v := by
  have hv := v.toNat_lt
  apply UInt16.toNat_inj.mp
  rw [UInt16.toNat_ofNat', UInt8.toNat_ofNat', UInt8.toNat_ofNat']
  omega

section
variable {vtp : PopPointers.PopData} {data : Nat → UInt8}

theorem SameObjects.setPointer (h : SameObjects vtp data) {i : Nat}
    (hi : i < PopPointers.pointerCount) (v : UInt16) :
    SameObjects { vtp with pointer := Function.update vtp.pointer i v }
      ((storeInt (2 * i) 2 v.toNat).foldl put data) := by
  have hcount : PopPointers.pointerCount = 96 := rfl
  have hstores : storeInt (2 * i) 2 v.toNat =
      [(2 * i, UInt8.ofNat v.toNat), (2 * i + 1, UInt8.ofNat (v.toNat / 256))] := by
    rw [storeInt]
    simp [List.range_succ]
  have hother : ∀ b, b ≠ 2 * i → b ≠ 2 * i + 1 →
      (storeInt (2 * i) 2 v.toNat).foldl put data b = data b := by
    intro b hfirst hsecond
    refine foldl_put_of_not_mem (fun t ht => ?_) data
    rw [hstores] at ht
    rcases List.mem_cons.mp ht with rfl | ht
    · exact hfirst.symm
    · obtain rfl := List.mem_singleton.mp ht
      exact hsecond.symm
  constructor
  · intro k hk
    by_cases hki : k = i
    · subst hki
      have hlow : (storeInt (2 * k) 2 v.toNat).foldl put data (2 * k) = UInt8.ofNat v.toNat := by
        rw [hstores]
        exact (Function.update_of_ne (by omega) _ _).trans (Function.update_self _ _ _)
      have hhigh : (storeInt (2 * k) 2 v.toNat).foldl put data (2 * k + 1) =
          UInt8.ofNat (v.toNat / 256) := by
        rw [hstores]
        exact Function.update_self _ _ _
      dsimp only [popData]
      rw [Function.update_self, hlow, hhigh, two_bytes]
    · dsimp only [popData]
      rw [Function.update_of_ne hki, hother _ (by omega) (by omega),
        hother _ (by omega) (by omega)]
      exact h.pointers k hk
  · intro k
    dsimp only [popData]
    rw [hother _ (by omega) (by omega), hother _ (by omega) (by omega),
      hother _ (by omega) (by omega)]
    exact h.triplets k

theorem SameObjects.setTriplet (h : SameObjects vtp data) (i : Nat) (t : BitVec 32) :
    SameObjects
      { vtp with
        triplet := Function.update vtp.triplet i
          ⟨UInt8.ofNat (t.toNat &&& 0x3f), UInt8.ofNat (t.toNat >>> 6 &&& 0x1f),
            UInt8.ofNat (t.toNat >>> 11)⟩ }
      ((storeTriplet (192 + 3 * i) t).foldl put data) := by
  have hcount : PopPointers.pointerCount = 96 := rfl
  have hother : ∀ b, b < 192 + 3 * i ∨ 192 + 3 * i + 3 ≤ b →
      (storeTriplet (192 + 3 * i) t).foldl put data b = data b := by
    intro b hb
    refine foldl_put_of_not_mem (fun u hu => ?_) data
    rcases List.mem_cons.mp hu with rfl | hu
    · dsimp only
      omega
    rcases List.mem_cons.mp hu with rfl | hu
    · dsimp only
      omega
    · obtain rfl := List.mem_singleton.mp hu
      dsimp only
      omega
  constructor
  · intro k hk
    dsimp only [popData]
    rw [hother _ (by omega), hother _ (by omega)]
    exact h.pointers k hk
  · intro k
    by_cases hki : k = i
    · subst hki
      have hfields : (popData ((storeTriplet (192 + 3 * k) t).foldl put data)).triplet k =
          ⟨UInt8.ofNat (t.toNat &&& 0x3f), UInt8.ofNat (t.toNat >>> 6 &&& 0x1f),
            UInt8.ofNat (t.toNat >>> 11)⟩ := by
        dsimp only [popData, storeTriplet, List.foldl_cons, List.foldl_nil, put]
        rw [Function.update_of_ne (by omega), Function.update_of_ne (by omega),
          Function.update_self, Function.update_of_ne (by omega), Function.update_self,
          Function.update_self]
      rw [hfields]
      exact Function.update_self _ _ _
    · dsimp only [popData]
      rw [Function.update_of_ne hki, hother _ (by omega), hother _ (by omega),
        hother _ (by omega)]
      exact h.triplets k

/-- The pointers of packets 1 to 3 are inside of their array, some of packet 4 are not. -/
theorem SameObjects.pointers_loop (h : SameObjects vtp data) (raw : Raw) {packet : Nat}
    (hpacket : 1 ≤ packet ∧ packet ≤ 3) :
    SameObjects (PopPointers.storePointers raw packet vtp)
      ((popPointers raw packet).foldl put data) := by
  have hloop : ∀ is : List Nat, (∀ i ∈ is, i ≤ 12) → ∀ (vtp : PopPointers.PopData)
      (data : Nat → UInt8), SameObjects vtp data →
      SameObjects { vtp with pointer := is.foldl (PopPointers.storePair raw packet) vtp.pointer }
        ((is.flatMap fun i => if (triplet raw i).msb then []
          else storeInt (2 * storeIndex packet i) 2 (half (triplet raw i) 0).toNat ++
            storeInt (2 * (storeIndex packet i + 1)) 2
              (half (triplet raw i) 1).toNat).foldl put data) := by
    intro is
    induction is with
    | nil => exact fun _ _ _ h => h
    | cons i is ih =>
      intro his vtp data h
      have hi := his i List.mem_cons_self
      have hcount : PopPointers.pointerCount = 96 := rfl
      have hindex : storeIndex packet i + 1 < PopPointers.pointerCount := by
        rw [storeIndex]
        omega
      rw [List.flatMap_cons, List.foldl_append, List.foldl_cons]
      have hrest := ih fun j hj => his j (List.mem_cons_of_mem _ hj)
      rw [PopPointers.storePair]
      split
      · exact hrest vtp data h
      · rw [List.foldl_append]
        have hfirst := h.setPointer (Nat.lt_of_succ_lt hindex) (half (triplet raw i) 0)
        exact hrest _ _ (hfirst.setPointer hindex (half (triplet raw i) 1))
  refine hloop pairs (fun i hi => ?_) vtp data h
  have hlt := (List.mem_range'_1.mp hi).2
  omega

theorem SameObjects.triplets_loop (h : SameObjects vtp data) (raw : Raw) (packet : Nat) :
    SameObjects (PopPointers.storeTriplets raw packet vtp)
      ((popTriplets raw packet).foldl put data) := by
  have hloop : ∀ (is : List Nat) (vtp : PopPointers.PopData) (data : Nat → UInt8),
      SameObjects vtp data →
      SameObjects { vtp with
        triplet := is.foldl (PopPointers.storeTriplet raw packet) vtp.triplet }
        ((is.flatMap fun i => if (triplet raw i).msb then []
          else storeTriplet (offset pop 1 + ttxTriplet.size * ((packet - 3) * 13 + i))
            (triplet raw i)).foldl put data) := by
    intro is
    induction is with
    | nil => exact fun _ _ h => h
    | cons i is ih =>
      intro vtp data h
      rw [List.flatMap_cons, List.foldl_append, List.foldl_cons]
      rw [PopPointers.storeTriplet]
      split
      · exact ih vtp data h
      · exact ih _ _ (h.setTriplet ((packet - 3) * 13 + i) (triplet raw i))
  exact hloop (List.range 13) vtp data h

/-- The parser stores what it stores where the pointers and the triplets are apart, unless it
stores pointers of packet 4. -/
theorem SameObjects.parsePop (h : SameObjects vtp data) (raw : Raw) {packet : Nat}
    (hpointers : packet = 4 → designatesPointers raw = false) :
    SameObjects (PopPointers.parsePop vtp raw packet).1
      ((PageUnion.parsePop raw packet).foldl put data) := by
  rw [PopPointers.parsePop, PageUnion.parsePop]
  dsimp only
  by_cases hdesignation : vbiUnham8 (raw 0) < 0
  · rw [if_pos hdesignation, if_pos hdesignation]
    exact h
  rw [if_neg hdesignation, if_neg hdesignation]
  have hnumber : (if packet = 26 then packet + (vbiUnham8 (raw 0)).toNat else packet) = 4 →
      designatesPointers raw = false := by
    intro hfour
    split at hfour
    · omega
    · exact hpointers hfour
  generalize (if packet = 26 then packet + (vbiUnham8 (raw 0)).toNat else packet) = number
    at hnumber
  by_cases hfirst : number = 1 ∨ number = 2
  · rw [if_pos hfirst, if_pos hfirst]
    split
    · exact h.pointers_loop raw (by omega)
    · exact h
  rw [if_neg hfirst, if_neg hfirst]
  by_cases hthird : number = 3 ∨ number = 4
  · rw [if_pos hthird, if_pos hthird]
    split
    · rename_i hpairs
      have hnot : number ≠ 4 := fun hfour => absurd ((hnumber hfour).symm.trans hpairs) (by decide)
      exact h.pointers_loop raw (by omega)
    · exact h.triplets_loop raw number
  rw [if_neg hthird, if_neg hthird]
  split
  · exact h.triplets_loop raw number
  · exact h

end

/-- The objects of a page, as its packets leave them in the bytes of the union. -/
theorem pop_packets_stored (data : Nat → UInt8) (packets : List (Raw × Nat))
    (hpointers : ∀ p ∈ packets, p.2 = 4 → designatesPointers p.1 = false) :
    SameObjects
      (packets.foldl (fun vtp p => (PopPointers.parsePop vtp p.1 p.2).1) (popData data))
      (packets.foldl (fun data p => (parsePop p.1 p.2).foldl put data) data) := by
  have hrun (vtp : PopPointers.PopData) (data : Nat → UInt8) (h : SameObjects vtp data) :
      SameObjects (packets.foldl (fun vtp p => (PopPointers.parsePop vtp p.1 p.2).1) vtp)
        (packets.foldl (fun data p => (parsePop p.1 p.2).foldl put data) data) := by
    induction packets generalizing vtp data with
    | nil => exact h
    | cons p packets ih =>
      exact ih (fun q hq => hpointers q (List.mem_cons_of_mem _ hq)) _ _
        (h.parsePop p.1 (hpointers p List.mem_cons_self))
  exact hrun _ data ⟨fun _ _ => rfl, fun _ => rfl⟩

theorem pop_packets_stored_two :
    SameObjects
      ([(fun _ => 0x02, 1), (fun _ => 0x15, 4)].foldl
        (fun vtp p => (PopPointers.parsePop vtp p.1 p.2).1) (popData fun _ => 0))
      ([(fun _ => 0x02, 1), (fun _ => 0x15, 4)].foldl
        (fun data p => (parsePop p.1 p.2).foldl put data) fun _ => 0) :=
  pop_packets_stored _ _ (by decide)

end PageUnion

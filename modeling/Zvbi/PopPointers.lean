import Mathlib.Data.List.Induction
import Mathlib.Logic.Function.Basic
import Zvbi.Hamming24

/-!
# Object pointers of a POP page

Packets 1 to 4 of a public object page hold 12 triplets with two object pointers
each. The parser numbers the pointers by 26 a packet, the function which resolves
an object address by 24. The pointers are elements of an array of 96, here a
function on their positions. From position 96 on it stands for the memory behind
the array.
-/

namespace PopPointers
open Hamming

/-- `ttx_triplet`. -/
structure Triplet where
  address : UInt8
  mode : UInt8
  data : UInt8

/-- `data.pop` of a page. -/
structure PopData where
  pointer : Nat → UInt16
  triplet : Nat → Triplet

/-- The elements of `pointer`. -/
def pointerCount : Nat := 4 * 12 * 2

/-- A packet without its first two bytes. -/
abbrev Raw := Nat → UInt8

/-- `triplet[i]`, negative if the error cannot be corrected. -/
def triplet (raw : Raw) (i : Nat) : BitVec 32 :=
  vbiUnham24p (raw (1 + 3 * i)) (raw (2 + 3 * i)) (raw (3 + 3 * i))

def half (t : BitVec 32) (b : Nat) : UInt16 :=
  UInt16.ofNat (if b = 0 then t.toNat &&& 0x1ff else t.toNat >>> 9)

/-- The position of the first pointer of triplet `i` in packet number `packet`. -/
def storeIndex (packet i : Nat) : Nat := (packet - 1) * 26 + 2 * i

def storePair (raw : Raw) (packet : Nat) (pointer : Nat → UInt16) (i : Nat) : Nat → UInt16 :=
  if (triplet raw i).msb then
    pointer
  else
    Function.update (Function.update pointer (storeIndex packet i) (half (triplet raw i) 0))
      (storeIndex packet i + 1) (half (triplet raw i) 1)

def pairs : List Nat := List.range' 1 12

/-- The loop of `parse_pop()` over the pointers. -/
def storePointers (raw : Raw) (packet : Nat) (vtp : PopData) : PopData :=
  { vtp with pointer := pairs.foldl (storePair raw packet) vtp.pointer }

def storeTriplet (raw : Raw) (packet : Nat) (trip : Nat → Triplet) (i : Nat) : Nat → Triplet :=
  if (triplet raw i).msb then
    trip
  else
    let t := (triplet raw i).toNat
    Function.update trip ((packet - 3) * 13 + i)
      ⟨UInt8.ofNat (t &&& 0x3f), UInt8.ofNat (t >>> 6 &&& 0x1f), UInt8.ofNat (t >>> 11)⟩

def storeTriplets (raw : Raw) (packet : Nat) (vtp : PopData) : PopData :=
  { vtp with triplet := (List.range 13).foldl (storeTriplet raw packet) vtp.triplet }

def designatesPointers (raw : Raw) : Bool :=
  0 ≤ vbiUnham8 (raw 0) && (vbiUnham8 (raw 0)).toNat % 2 = 1

def parsePop (vtp : PopData) (raw : Raw) (packet : Nat) : PopData × Bool :=
  let designation := vbiUnham8 (raw 0)
  if designation < 0 then
    (vtp, false)
  else
    let packet := if packet = 26 then packet + designation.toNat else packet
    if packet = 1 ∨ packet = 2 then
      if designatesPointers raw then (storePointers raw packet vtp, true) else (vtp, false)
    else if packet = 3 ∨ packet = 4 then
      if designatesPointers raw then (storePointers raw packet vtp, true)
      else (storeTriplets raw packet vtp, true)
    else if 5 ≤ packet ∧ packet ≤ 42 then
      (storeTriplets raw packet vtp, true)
    else
      (vtp, false)

/-- The types of objects a pointer can refer to. -/
inductive ObjectType
  | active
  | adaptive
  | passive

/-- `enum ttx_object_type`. -/
def ObjectType.code : ObjectType → Nat
  | .active => 1
  | .adaptive => 2
  | .passive => 3

/-- The pointer packet an address refers to, counting from zero. -/
def addressPacket (address : Nat) : Nat := address >>> 7 &&& 3

def addressTriplet (type : ObjectType) (address : Nat) : Nat :=
  (address >>> 5 &&& 3) * 3 + type.code

def addressHalf (address : Nat) : Nat := address >>> 4 &&& 1

/-- The position of the pointer which `resolve_obj_address()` reads. -/
def resolveIndex (type : ObjectType) (address : Nat) : Nat :=
  addressPacket address * 24 + addressTriplet type address * 2 + addressHalf address

/-- `resolve_obj_address()` for the page it found. The position of the triplet behind
the object definition, and how many triplets follow this definition. -/
def resolveObjAddress (vtp : PopData) (type : ObjectType) (address : Nat) : Option (Nat × Nat) :=
  let pointer := (vtp.pointer (resolveIndex type address)).toNat
  if 506 < pointer then
    none
  else
    let trip := vtp.triplet pointer
    let rest := address ^^^ trip.address.toNat <<< 7 ^^^ trip.data.toNat
    if trip.mode.toNat ≠ type.code + 0x14 ∨ rest &&& 0x1ff ≠ 0 then none
    else some (pointer + 1, 39 * 13 + 1 - (pointer + 1))

abbrev Packet := Nat × Raw

def build (vtp : PopData) (packets : List Packet) : PopData :=
  packets.foldl (fun vtp p => (parsePop vtp p.2 p.1).1) vtp

def pointerIn (p : Packet) (packet i b : Nat) : Option UInt16 :=
  if p.1 = packet ∧ designatesPointers p.2 = true ∧ (triplet p.2 i).msb = false then
    some (half (triplet p.2 i) b)
  else
    none

def lastPointer (packets : List Packet) (packet i b : Nat) : Option UInt16 :=
  packets.foldl (fun last p => (pointerIn p packet i b).or last) none

/-- Both functions access the array for an address, and they agree on the pointer,
on every page which was built from pointer packets. -/
def Agree (type : ObjectType) (address : Nat) : Prop :=
  ∀ (vtp : PopData) (packets : List Packet), (∀ p ∈ packets, 1 ≤ p.1 ∧ p.1 ≤ 4) →
    storeIndex (addressPacket address + 1) (addressTriplet type address) + addressHalf address <
      pointerCount ∧
    resolveIndex type address < pointerCount ∧
    ∀ v, lastPointer packets (addressPacket address + 1) (addressTriplet type address)
      (addressHalf address) = some v →
        (build vtp packets).pointer (resolveIndex type address) = v

variable {i j b : Nat}

theorem storePair_other (raw : Raw) (packet : Nat) (pointer : Nat → UInt16)
    (h0 : j ≠ storeIndex packet i) (h1 : j ≠ storeIndex packet i + 1) :
    storePair raw packet pointer i j = pointer j := by
  rw [storePair]
  split
  · rfl
  · rw [Function.update_of_ne h1, Function.update_of_ne h0]

variable {raw : Raw} {is : List Nat}

theorem storePair_same (packet : Nat) (pointer : Nat → UInt16) (hb : b < 2) :
    storePair raw packet pointer i (storeIndex packet i + b) =
      if (triplet raw i).msb then pointer (storeIndex packet i + b) else half (triplet raw i) b := by
  rw [storePair]
  split
  · rfl
  · rcases Nat.lt_succ_iff_lt_or_eq.mp hb with h0 | h1
    · obtain rfl : b = 0 := by omega
      have hne : storeIndex packet i + 0 ≠ storeIndex packet i + 1 := by omega
      rw [Function.update_of_ne hne]
      exact Function.update_self _ _ _
    · subst h1
      exact Function.update_self _ _ _

theorem storePairs_other (raw : Raw) (packet : Nat) (pointer : Nat → UInt16)
    (h : ∀ i ∈ is, j ≠ storeIndex packet i ∧ j ≠ storeIndex packet i + 1) :
    is.foldl (storePair raw packet) pointer j = pointer j := by
  induction is generalizing pointer with
  | nil => rfl
  | cons i is ih =>
    rw [List.forall_mem_cons] at h
    rw [List.foldl_cons, ih _ h.2]
    exact storePair_other raw packet pointer h.1.1 h.1.2

/-- Each pointer of a packet is stored at a position of its own. -/
theorem storePairs_same (packet : Nat) (pointer : Nat → UInt16) (hb : b < 2) (hi : i ∈ is)
    (hnodup : is.Nodup) :
    is.foldl (storePair raw packet) pointer (storeIndex packet i + b) =
      if (triplet raw i).msb then pointer (storeIndex packet i + b) else half (triplet raw i) b := by
  induction is generalizing pointer with
  | nil => cases hi
  | cons k is ih =>
    rw [List.nodup_cons] at hnodup
    rw [List.foldl_cons]
    rcases List.mem_cons.mp hi with rfl | hmem
    · rw [storePairs_other, storePair_same packet pointer hb]
      intro k hk
      have hne : k ≠ i := by
        rintro rfl
        exact hnodup.1 hk
      unfold storeIndex
      omega
    · have hne : i ≠ k := by
        rintro rfl
        exact hnodup.1 hmem
      rw [ih _ hmem hnodup.2, storePair_other]
      all_goals
        unfold storeIndex
        omega

theorem mem_pairs : i ∈ pairs ↔ 1 ≤ i ∧ i ≤ 12 := by
  rw [pairs, List.mem_range'_1]
  omega

theorem pairs_nodup : pairs.Nodup := by
  decide

theorem addressHalf_lt (address : Nat) : addressHalf address < 2 :=
  Nat.lt_succ_of_le Nat.and_le_right

theorem addressPacket_lt (address : Nat) : addressPacket address < 4 :=
  Nat.lt_succ_of_le Nat.and_le_right

theorem addressTriplet_mem (type : ObjectType) (address : Nat) :
    addressTriplet type address ∈ pairs := by
  have hfield : address >>> 5 &&& 3 ≤ 3 := Nat.and_le_right
  rw [mem_pairs, addressTriplet]
  cases type <;> simp only [ObjectType.code] <;> omega

/-- The packet with number 1 is the only one with pointers below position 28. -/
theorem parsePop_pointer {vtp : PopData} {p : Packet} (hp : 1 ≤ p.1 ∧ p.1 ≤ 4) (hi : i ∈ pairs)
    (hb : b < 2) :
    (parsePop vtp p.2 p.1).1.pointer (storeIndex 1 i + b) =
      (pointerIn p 1 i b).getD (vtp.pointer (storeIndex 1 i + b)) := by
  obtain ⟨n, raw⟩ := p
  have hrange := mem_pairs.mp hi
  have hkeep : n ≠ 1 → pointerIn (n, raw) 1 i b = none := by
    intro hn
    exact if_neg fun h => hn h.1
  have hother : n ≠ 1 → (storePointers raw n vtp).pointer (storeIndex 1 i + b) =
      vtp.pointer (storeIndex 1 i + b) := by
    intro hn
    apply storePairs_other
    intro k hk
    have hk := mem_pairs.mp hk
    dsimp only at hp
    unfold storeIndex
    omega
  dsimp only at hp ⊢
  rw [parsePop]
  dsimp only
  split
  · rename_i hbad
    rw [pointerIn, if_neg, Option.getD_none]
    rintro ⟨-, hdesignates, -⟩
    rw [designatesPointers, Bool.and_eq_true, decide_eq_true_eq] at hdesignates
    exact absurd hbad (not_lt.mpr hdesignates.1)
  · rw [if_neg (by omega : n ≠ 26)]
    by_cases hn : n = 1
    · subst hn
      rw [if_pos (Or.inl rfl)]
      by_cases hdesignates : designatesPointers raw = true
      · rw [if_pos hdesignates, storePointers]
        dsimp only
        rw [storePairs_same 1 vtp.pointer hb hi pairs_nodup, pointerIn]
        cases hmsb : (triplet raw i).msb with
        | true =>
          rw [if_pos rfl, if_neg]
          · rfl
          · rintro ⟨-, -, h⟩
            cases h
        | false =>
          rw [if_neg Bool.false_ne_true, if_pos ⟨rfl, hdesignates, rfl⟩, Option.getD_some]
      · rw [if_neg hdesignates, pointerIn, if_neg]
        · rfl
        · rintro ⟨-, h, -⟩
          exact hdesignates h
    · rw [hkeep hn, Option.getD_none]
      repeat' split
      all_goals first
        | exact hother hn
        | rfl

/-- What is left in the page is the pointer transmitted last. -/
theorem build_pointer (hi : i ∈ pairs) (hb : b < 2) (vtp : PopData) {packets : List Packet}
    (h : ∀ p ∈ packets, 1 ≤ p.1 ∧ p.1 ≤ 4) :
    (build vtp packets).pointer (storeIndex 1 i + b) =
      (lastPointer packets 1 i b).getD (vtp.pointer (storeIndex 1 i + b)) := by
  induction packets using List.reverseRecOn with
  | nil => rfl
  | append_singleton packets p ih =>
    rw [List.forall_mem_append, List.forall_mem_singleton] at h
    rw [build, List.foldl_append, lastPointer, List.foldl_append]
    change (parsePop (build vtp packets) p.2 p.1).1.pointer _ =
      ((pointerIn p 1 i b).or (lastPointer packets 1 i b)).getD _
    rw [parsePop_pointer h.2 hi hb, ih h.1]
    cases pointerIn p 1 i b <;> rfl

def singleRaw (i : Nat) : Raw := fun j =>
  if j = 0 then vbiHam8 1
  else if j = 1 + 3 * i then 6
  else if j = 2 + 3 * i then 160
  else if j = 3 + 3 * i then 128
  else 0

theorem singleRaw_same (i : Nat) : triplet (singleRaw i) i = 0x201 := by
  have h1 : singleRaw i (1 + 3 * i) = 6 := by
    rw [singleRaw, if_neg (by omega), if_pos rfl]
  have h2 : singleRaw i (2 + 3 * i) = 160 := by
    rw [singleRaw, if_neg (by omega), if_neg (by omega), if_pos rfl]
  have h3 : singleRaw i (3 + 3 * i) = 128 := by
    rw [singleRaw, if_neg (by omega), if_neg (by omega), if_neg (by omega), if_pos rfl]
  rw [triplet, h1, h2, h3]
  decide +kernel

theorem singleRaw_other {k : Nat} (h : k ≠ i) : (triplet (singleRaw i) k).msb = true := by
  have hzero : ∀ j, 1 + 3 * k ≤ j → j ≤ 3 + 3 * k → singleRaw i j = 0 := by
    intro j hlow hhigh
    rw [singleRaw, if_neg (by omega), if_neg (by omega), if_neg (by omega), if_neg (by omega)]
  rw [triplet, hzero _ le_rfl (by omega), hzero _ (by omega) (by omega),
    hzero _ (by omega) le_rfl]
  decide +kernel

theorem singleRaw_pointer {n : Nat} (hn : 1 ≤ n ∧ n ≤ 4) (vtp : PopData) (h0 : j ≠ storeIndex n i)
    (h1 : j ≠ storeIndex n i + 1) :
    (parsePop vtp (singleRaw i) n).1.pointer j = vtp.pointer j := by
  have hpairs : (storePointers (singleRaw i) n vtp).pointer j = vtp.pointer j := by
    have hfold : ∀ (is : List Nat) (pointer : Nat → UInt16),
        is.foldl (storePair (singleRaw i) n) pointer j = pointer j := by
      intro is
      induction is with
      | nil => exact fun _ => rfl
      | cons k is ih =>
        intro pointer
        rw [List.foldl_cons, ih]
        by_cases hk : k = i
        · subst hk
          exact storePair_other _ _ _ h0 h1
        · rw [storePair, if_pos (singleRaw_other hk)]
    exact hfold _ _
  have hdesignates : designatesPointers (singleRaw i) = true := by
    rw [designatesPointers, singleRaw, if_pos rfl]
    decide +kernel
  rw [parsePop]
  dsimp only
  rw [hdesignates, if_neg (by omega : n ≠ 26)]
  repeat' split
  all_goals first
    | exact hpairs
    | rfl

/-- The position which is read for another packet is not the one which was stored. -/
theorem not_agree {type : ObjectType} {address : Nat} (h : addressPacket address ≠ 0) :
    ¬ Agree type address := by
  intro hagree
  have hpacket := addressPacket_lt address
  have hhalf := addressHalf_lt address
  have hnumber : ∀ p ∈ [((addressPacket address + 1, singleRaw (addressTriplet type address)) :
      Packet)], 1 ≤ p.1 ∧ p.1 ≤ 4 := by
    intro p hp
    rw [List.mem_singleton] at hp
    subst hp
    dsimp only
    omega
  have hread := (hagree ⟨fun _ => 0, fun _ => ⟨0, 0, 0⟩⟩ _ hnumber).2.2 1
  have hlast : lastPointer [((addressPacket address + 1, singleRaw (addressTriplet type address)) :
      Packet)] (addressPacket address + 1) (addressTriplet type address) (addressHalf address) =
      some 1 := by
    change (pointerIn _ _ _ _).or none = some 1
    rw [Option.or_none, pointerIn]
    dsimp only
    rw [singleRaw_same, if_pos]
    · rcases Nat.lt_succ_iff_lt_or_eq.mp hhalf with h0 | h1
      · obtain h0 : addressHalf address = 0 := by omega
        rw [h0]
        decide
      · rw [h1]
        decide
    · refine ⟨rfl, ?_, by decide⟩
      rw [designatesPointers, singleRaw, if_pos rfl]
      decide +kernel
  have hstored := hread hlast
  change (parsePop _ _ _).1.pointer _ = 1 at hstored
  rw [singleRaw_pointer (by omega)] at hstored
  · cases hstored
  all_goals
    rw [resolveIndex, storeIndex]
    omega

/-- The functions agree on the pointers of packet 1, and on no others. -/
theorem agree_iff_first_packet (type : ObjectType) (address : Nat) :
    Agree type address ↔ addressPacket address = 0 := by
  constructor
  · intro hagree
    by_contra h
    exact not_agree h hagree
  · intro h vtp packets hpackets
    have hi := addressTriplet_mem type address
    have hrange := mem_pairs.mp hi
    have hb := addressHalf_lt address
    have hindex : resolveIndex type address =
        storeIndex 1 (addressTriplet type address) + addressHalf address := by
      rw [resolveIndex, storeIndex, h]
      omega
    have hcount : pointerCount = 96 := rfl
    refine ⟨?_, ?_, ?_⟩
    · rw [h, storeIndex]
      omega
    · rw [hindex, storeIndex]
      omega
    · intro v hv
      rw [h] at hv
      rw [hindex, build_pointer hi hb vtp hpackets, hv, Option.getD_some]

/-- An active object in packet 2. -/
theorem not_all_agree : ¬ ∀ type address, Agree type address := fun h =>
  not_agree (by decide) (h .active 0x80)

end PopPointers

import Mathlib.Logic.Function.Basic
import Zvbi.PopPointers

/-!
# Packets X/28 and M/29

The parser reads its fields from 13 triplets through a buffer of bits. Designations
0 and 4 set the colours and character sets of a page or magazine, designation 1 the
DRCS colour table, and designation 3 the modes of a DRCS page.
-/

namespace ExtensionPackets
open Hamming PopPointers

/-- `struct ttx_ext_fallback`. -/
structure Fallback where
  blackBgSubstitution : BitVec 32
  leftPanelColumns : BitVec 32
  rightPanelColumns : BitVec 32

/-- `struct ttx_extension`. -/
structure Extension where
  designations : BitVec 32
  charsetCode : Nat → BitVec 32
  defScreenColor : BitVec 32
  defRowColor : BitVec 32
  foregroundClut : UInt8
  backgroundClut : UInt8
  fallback : Fallback
  drcsClut : Nat → UInt8
  colorMap : Nat → BitVec 32

/-- `enum ttx_page_function`. -/
def pageFunctionDiscard : Int := -2
def pageFunctionUnknown : Int := -1
def pageFunctionLop : Int := 0
def pageFunctionGdrcs : Int := 4
def pageFunctionDrcs : Int := 5

/-- What the parser uses of the current page. -/
structure Page where
  function : Int
  x28Designations : BitVec 32
  ext : Extension
  drcsMode : Nat → UInt8

structure State where
  cvtp : Page
  magazine : Extension

/-- `struct bit_stream`, where `triplet` is the array from the next element on. -/
structure BitStream where
  triplet : Nat → BitVec 32
  buffer : BitVec 32
  left : Nat

/-- `get_bits()`. -/
def getBits (count : Nat) : StateM BitStream (BitVec 32) := fun bs =>
  let mask : BitVec 32 := 1#32 <<< count - 1
  if bs.left < count then
    let n := count - bs.left
    let next := bs.triplet 0
    ((bs.buffer ||| next <<< bs.left) &&& mask,
      ⟨fun i => bs.triplet (i + 1), next >>> n, 18 - n⟩)
  else
    (bs.buffer &&& mask, ⟨bs.triplet, bs.buffer >>> count, bs.left - count⟩)

/-- `++bs.triplet`. -/
def skipTriplet : StateM BitStream Unit := fun bs =>
  ((), { bs with triplet := fun i => bs.triplet (i + 1) })

def bitStream (raw : Raw) : BitStream := ⟨triplet raw, 0, 0⟩

/-- `err`, which is negative if a triplet is. -/
def tripletErrors (raw : Raw) : BitVec 32 :=
  (List.range 13).foldl (fun err i => err ||| triplet raw i) 0

def vbiRgba (r g b : BitVec 32) : BitVec 32 :=
  (r &&& 0xFF) ||| (g &&& 0xFF) <<< 8 ||| (b &&& 0xFF) <<< 16 ||| 0xFF#32 <<< 24

def readPanels (ext : Extension) : StateM BitStream Extension := do
  let charset0 ← getBits 7
  let charset1 ← getBits 7
  let leftPanel ← getBits 1
  let rightPanel ← getBits 1
  let _ ← getBits 1
  let columns ← getBits 4
  let leftColumns := if leftPanel ≠ 0 ∧ columns = 0 then 16 else columns
  return { ext with
    charsetCode := Function.update (Function.update ext.charsetCode 0 charset0) 1 charset1
    fallback := { ext.fallback with
      leftPanelColumns := leftColumns &&& -leftPanel
      rightPanelColumns := (16 - leftColumns) &&& -rightPanel } }

def readColors (first : Nat) (ext : Extension) : StateM BitStream Extension :=
  (List.range' first 16).foldlM (fun ext i => do
    let col ← getBits 12
    if i = 8 then
      return ext
    else
      let col := vbiRgba (col &&& 15) (col >>> 4 &&& 15) (col >>> 8 &&& 15)
      return { ext with colorMap := Function.update ext.colorMap i (col ||| col <<< 4) }) ext

def remapForeground : List UInt8 := [0, 0, 0, 8, 8, 16, 16, 16]
def remapBackground : List UInt8 := [0, 8, 16, 8, 16, 8, 16, 24]

def readDefaults (ext : Extension) : StateM BitStream Extension := do
  let screen ← getBits 5
  let row ← getBits 5
  let substitution ← getBits 1
  let i ← getBits 3
  return { ext with
    defScreenColor := screen
    defRowColor := row
    fallback := { ext.fallback with blackBgSubstitution := substitution }
    foregroundClut := remapForeground.getD i.toNat 0
    backgroundClut := remapBackground.getD i.toNat 0 }

/-- Bit `designation` of a set. -/
def designated (designation : Nat) : BitVec 32 := 1#32 <<< designation

/-- The fields of designations 0 and 4. The latter leaves those which came with the
former, and both have colours of their own. -/
def readLevel2 (designation : Nat) (ext : Extension) : StateM BitStream Extension := do
  let keep := designation = 4 ∧ ext.designations &&& designated 0 ≠ 0
  let ext ← if keep then (do let _ ← getBits 21; return ext) else readPanels ext
  let ext ← readColors (if designation = 4 then 0 else 16) ext
  let ext ← if keep then (do let _ ← getBits 14; return ext) else readDefaults ext
  return { ext with designations := ext.designations ||| designated designation }

def readClut (clut : Nat → UInt8) : StateM BitStream (Nat → UInt8) :=
  (List.range' 2 40).foldlM (fun clut i => do
    let bits ← getBits 5
    return Function.update clut i (vbiRev8 (UInt8.ofNat bits.toNat) >>> 3)) clut

def readDrcsClut (ext : Extension) : StateM BitStream Extension := do
  skipTriplet
  let clut ← readClut ext.drcsClut
  return { ext with
    drcsClut := clut
    designations := ext.designations ||| designated 1 }

/-- Change the extension of the page or of the magazine. An X/28 packet is first to
copy the extension of the magazine if it is the first one of its page. -/
def updateExtension (packet designation : Nat) (read : Extension → Extension) (s : State) :
    State :=
  if packet = 28 then
    let ext := if s.cvtp.ext.designations = 0 then s.magazine else s.cvtp.ext
    { s with cvtp := { s.cvtp with
        x28Designations := s.cvtp.x28Designations ||| designated designation
        ext := read ext } }
  else
    { s with magazine := read s.magazine }

def parseLevel2 (packet designation : Nat) (raw : Raw) (s : State) : State :=
  if (tripletErrors raw).msb then
    s
  else
    let start := (getBits 4).run (bitStream raw)
    let function : Int := start.1.toNat
    let coding := (getBits 3).run start.2
    if function ≠ pageFunctionLop ∧ packet = 28 ∧ s.cvtp.function ≠ pageFunctionUnknown ∧
        s.cvtp.function ≠ function then
      s
    else if function ≠ pageFunctionLop then
      s
    else
      updateExtension packet designation
        (fun ext => ((readLevel2 designation ext).run coding.2).1) s

def parseDrcsClut (packet : Nat) (raw : Raw) (s : State) : State :=
  updateExtension packet 1 (fun ext => ((readDrcsClut ext).run (bitStream raw)).1) s

def readModes (mode : Nat → UInt8) : StateM BitStream (Nat → UInt8) := do
  let _ ← getBits 11
  (List.range 48).foldlM (fun mode i => do
    let bits ← getBits 4
    return Function.update mode i (UInt8.ofNat bits.toNat)) mode

def parseDrcsModes (raw : Raw) (s : State) : State × Bool :=
  if (tripletErrors raw).msb then
    (s, false)
  else
    let start := (getBits 4).run (bitStream raw)
    let function : Int := start.1.toNat
    let coding := (getBits 3).run start.2
    let mode := ((readModes s.cvtp.drcsMode).run coding.2).1
    if function ≠ pageFunctionGdrcs ∧ function ≠ pageFunctionDrcs then
      (s, false)
    else if s.cvtp.function = pageFunctionUnknown then
      ({ s with cvtp := { s.cvtp with function := function, drcsMode := mode } }, true)
    else if s.cvtp.function ≠ function then
      ({ s with cvtp := { s.cvtp with function := pageFunctionDiscard } }, false)
    else
      ({ s with cvtp := { s.cvtp with drcsMode := mode } }, true)

def parse2829 (packet : Nat) (raw : Raw) (s : State) : State × Bool :=
  let designation := vbiUnham8 (raw 0)
  if designation < 0 then (s, false)
  else if designation = 0 ∨ designation = 4 then
    (parseLevel2 packet designation.toNat raw s, false)
  else if designation = 1 then (parseDrcsClut packet raw s, false)
  else if designation = 3 ∧ packet ≠ 29 then parseDrcsModes raw s
  else (s, true)

def firstUsed (designation : Int) : Nat := if designation = 1 then 1 else 0

structure Broken (raw : Raw) : Prop where
  designation : vbiUnham8 (raw 0) = 0 ∨ vbiUnham8 (raw 0) = 1 ∨ vbiUnham8 (raw 0) = 4
  error : ∃ i, firstUsed (vbiUnham8 (raw 0)) ≤ i ∧ i < 13 ∧ (triplet raw i).msb = true

/-- The parser leaves every page and magazine as it was. -/
def Ignored (packet : Nat) (raw : Raw) : Prop :=
  ∀ s : State, (parse2829 packet raw s).1 = s

theorem tripletErrors_msb (raw : Raw) :
    (tripletErrors raw).msb = true ↔ ∃ i < 13, (triplet raw i).msb = true := by
  have hfold : ∀ (is : List Nat) (err : BitVec 32),
      (is.foldl (fun err i => err ||| triplet raw i) err).msb = true ↔
        err.msb = true ∨ ∃ i ∈ is, (triplet raw i).msb = true := by
    intro is
    induction is with
    | nil =>
      intro err
      simp only [List.foldl_nil, List.not_mem_nil, false_and, exists_false, or_false]
    | cons i is ih =>
      intro err
      rw [List.foldl_cons, ih, BitVec.msb_or, Bool.or_eq_true, or_assoc]
      simp only [List.mem_cons, exists_eq_or_imp]
  rw [tripletErrors, hfold]
  have hzero : ¬ (0 : BitVec 32).msb = true := by decide
  rw [or_iff_right hzero]
  simp only [List.mem_range]

theorem parseLevel2_error {raw : Raw} (h : ∃ i < 13, (triplet raw i).msb = true)
    (packet designation : Nat) (s : State) : parseLevel2 packet designation raw s = s := by
  rw [parseLevel2, if_pos ((tripletErrors_msb raw).mpr h)]

/-- The colour table is marked as received. -/
theorem readDrcsClut_designations (ext : Extension) (bs : BitStream) :
    ((readDrcsClut ext).run bs).1.designations = ext.designations ||| designated 1 := by
  rw [readDrcsClut]
  generalize readClut ext.drcsClut = read
  rfl

def emptyExtension : Extension :=
  ⟨0, fun _ => 0, 0, 0, 0, 0, ⟨0, 0, 0⟩, fun _ => 0, fun _ => 0⟩

def emptyState : State := ⟨⟨pageFunctionLop, 0, emptyExtension, fun _ => 0⟩, emptyExtension⟩

theorem parseDrcsClut_changes (packet : Nat) (raw : Raw) :
    parseDrcsClut packet raw emptyState ≠ emptyState := by
  intro h
  rw [parseDrcsClut, updateExtension] at h
  split at h
  · have hpage := congrArg (fun s => s.cvtp.x28Designations) h
    change emptyState.cvtp.x28Designations ||| designated 1 = emptyState.cvtp.x28Designations at hpage
    revert hpage
    decide
  · have hmagazine := congrArg (fun s => s.magazine.designations) h
    revert hmagazine
    dsimp only
    rw [readDrcsClut_designations]
    decide

/-- A broken packet is ignored unless it has designation 1, whatever the bits of its
other triplets are. -/
theorem ignored_iff {raw : Raw} (h : Broken raw) (packet : Nat) :
    Ignored packet raw ↔ vbiUnham8 (raw 0) ≠ 1 := by
  constructor
  · intro hignored hdesignation
    have hempty := hignored emptyState
    rw [parse2829, hdesignation] at hempty
    exact parseDrcsClut_changes packet raw hempty
  · intro hdesignation s
    obtain ⟨i, -, hi, hbad⟩ := h.error
    have hlevel2 := parseLevel2_error ⟨i, hi, hbad⟩ packet (vbiUnham8 (raw 0)).toNat s
    rcases h.designation with h0 | h1 | h4
    · rw [parse2829, h0]
      rw [h0] at hlevel2
      exact hlevel2
    · exact absurd h1 hdesignation
    · rw [parse2829, h4]
      rw [h4] at hlevel2
      exact hlevel2

/-- A packet with a designation, and errors in all triplets. -/
def designationRaw (designation : Fin 16) : Raw := fun j =>
  if j = 0 then vbiHam8 designation else 0

theorem designationRaw_triplet (designation : Fin 16) (i : Nat) :
    (triplet (designationRaw designation) i).msb = true := by
  have hzero : ∀ j, 0 < j → designationRaw designation j = 0 := by
    intro j hj
    exact if_neg hj.ne'
  rw [triplet, hzero _ (by omega), hzero _ (by omega), hzero _ (by omega)]
  decide +kernel

theorem ignored_iff_level2 :
    Ignored 28 (designationRaw 0) ↔ vbiUnham8 (designationRaw 0 0) ≠ 1 :=
  ignored_iff ⟨Or.inl (by decide +kernel),
    ⟨1, by decide +kernel, by decide, designationRaw_triplet 0 1⟩⟩ 28

/-- A DRCS colour table is stored in spite of its errors. -/
theorem broken_not_ignored : Broken (designationRaw 1) ∧ ¬ Ignored 29 (designationRaw 1) := by
  have hdesignation : vbiUnham8 (designationRaw 1 0) = 1 := by decide +kernel
  constructor
  · refine ⟨Or.inr (Or.inl hdesignation), 1, ?_, by decide, designationRaw_triplet 1 1⟩
    rw [hdesignation]
    decide
  · intro hignored
    have hempty := hignored emptyState
    rw [parse2829, hdesignation] at hempty
    exact parseDrcsClut_changes 29 _ hempty

end ExtensionPackets

import Zvbi.Cc608Decoder

/-!
# Formatting a caption row

A row of codes becomes 32 characters, or 34 with a space before and behind the words.
Spacing attributes and characters take one column each, as do preamble address codes
from the first visible column on. `format_row()` checks with an assertion that it filled
the row.
-/

namespace Cc608Format
open Cc608Decoder

inductive VbiOpacity
  | transparentSpace
  | transparentFull
  | semiTransparent
  | fullOpaque
  deriving DecidableEq

/-- The fields of `vbi_char` the formatter uses. -/
structure VbiChar where
  underline : Bool
  italic : Bool
  flash : Bool
  foreground : Nat
  background : Nat
  opacity : VbiOpacity
  unicode : Nat
  deriving DecidableEq

def vbiBlack : Nat := 0
def vbiWhite : Nat := 7

/-- `color_map[]`. -/
def colorMap (i : Nat) : Nat := [7, 2, 4, 6, 1, 3, 5, 0].getD i 0

/-- `vbi_char_clear_attr (cp, -1)`. -/
def VbiChar.clearAttr (c : VbiChar) : VbiChar :=
  { c with underline := false, italic := false, flash := false }

/-- `caption[]`, the standard characters which are no ASCII characters. -/
def captionStandard (c : Nat) : Nat × Nat :=
  match c with
  | 0x2A => (0x00E1, 0x00C1) | 0x5C => (0x00E9, 0x00C9) | 0x5E => (0x00ED, 0x00CD)
  | 0x5F => (0x00F3, 0x00D3) | 0x60 => (0x00FA, 0x00DA) | 0x7B => (0x00E7, 0x00C7)
  | 0x7C => (0x00F7, 0x00F7) | 0x7D => (0x00D1, 0x00D1) | 0x7E => (0x00F1, 0x00D1)
  | 0x7F => (0x25A0, 0x25A0)
  | _ => (c, if 0x61 ≤ c ∧ c ≤ 0x7A then c - 0x20 else c)

def captionSpecial : List (Nat × Nat) := [
  (0x00AE, 0x00AE), (0x00B0, 0x00B0), (0x00BD, 0x00BD), (0x00BF, 0x00BF), (0x2122, 0x2122),
  (0x00A2, 0x00A2), (0x00A3, 0x00A3), (0x266A, 0x266A), (0x00E0, 0x00C0), (0x0020, 0x0020),
  (0x00E8, 0x00C8), (0x00E2, 0x00C2), (0x00EA, 0x00CA), (0x00EE, 0x00CE), (0x00F4, 0x00D4),
  (0x00FB, 0x00DB)]

def captionExtended2 : List (Nat × Nat) := [
  (0x00C1, 0x00C1), (0x00C9, 0x00C9), (0x00D3, 0x00D3), (0x00DA, 0x00DA), (0x00DC, 0x00DC),
  (0x00FC, 0x00DC), (0x2018, 0x2018), (0x00A1, 0x00A1), (0x002A, 0x002A), (0x0027, 0x0027),
  (0x2500, 0x2500), (0x00A9, 0x00A9), (0x2120, 0x2120), (0x2022, 0x2022), (0x201C, 0x201C),
  (0x201D, 0x201D), (0x00C0, 0x00C0), (0x00C2, 0x00C2), (0x00C7, 0x00C7), (0x00C8, 0x00C8),
  (0x00CA, 0x00CA), (0x00CB, 0x00CB), (0x00EB, 0x00CB), (0x00CE, 0x00CE), (0x00CF, 0x00CF),
  (0x00EF, 0x00CF), (0x00D4, 0x00D4), (0x00D9, 0x00D9), (0x00F9, 0x00D9), (0x00DB, 0x00DB),
  (0x00AB, 0x00AB), (0x00BB, 0x00BB)]

def captionExtended3 : List (Nat × Nat) := [
  (0x00C3, 0x00C3), (0x00E3, 0x00C3), (0x00CD, 0x00CD), (0x00CC, 0x00CC), (0x00EC, 0x00CC),
  (0x00D2, 0x00D2), (0x00F2, 0x00D2), (0x00D5, 0x00D5), (0x00F5, 0x00D5), (0x007B, 0x007B),
  (0x007D, 0x007D), (0x005C, 0x005C), (0x005E, 0x005E), (0x005F, 0x005F), (0x007C, 0x007C),
  (0x007E, 0x007E), (0x00C4, 0x00C4), (0x00E4, 0x00C4), (0x00D6, 0x00D6), (0x00F6, 0x00D6),
  (0x00DF, 0x00DF), (0x00A5, 0x00A5), (0x00A4, 0x00A4), (0x2502, 0x2502), (0x00C5, 0x00C5),
  (0x00E5, 0x00C5), (0x00D8, 0x00D8), (0x00F8, 0x00D8), (0x250C, 0x250C), (0x2510, 0x2510),
  (0x2514, 0x2514), (0x2518, 0x2518)]

def vbiCaptionUnicode (c : Nat) (toUpper : Bool) : Nat :=
  let pick (p : Nat × Nat) := if toUpper then p.2 else p.1
  if c < 0x80 then
    if 0x20 ≤ c then pick (captionStandard c) else 0
  else
    let c := if c.testBit 11 then c - 0x0800 else c
    if c < 0x1240 then
      if c < 0x1140 ∧ 0x1130 ≤ c then pick (captionSpecial.getD (c - 0x1130) (0, 0))
      else if 0x1220 ≤ c then pick (captionExtended2.getD (c - 0x1220) (0, 0))
      else 0
    else if c < 0x1340 ∧ 0x1320 ≤ c then pick (captionExtended3.getD (c - 0x1320) (0, 0))
    else 0

structure Formatted where
  ac : VbiChar
  out : List VbiChar

/-- How `format_row()` was called. -/
structure Format where
  toUpper : Bool
  padding : Bool
  alpha : Bool

def endsWord (out : List VbiChar) : Bool :=
  out.head?.any fun p => p.opacity ≠ .transparentSpace && p.unicode ≠ 0x20

def putBlank (f : Format) (i : Nat) (ac : VbiChar) (out : List VbiChar) : List VbiChar :=
  if f.padding && endsWord out then
    ac.clearAttr :: out
  else if 0 < i then
    { ac with
      opacity := .transparentSpace
      foreground := if f.alpha then 16 + ac.foreground % 8 else ac.foreground
      background := if f.alpha then 16 + ac.background % 8 else ac.background } :: out
  else
    out

def padBefore (f : Format) (ac : VbiChar) (out : List VbiChar) : List VbiChar :=
  match out with
  | [] => []
  | p :: rest =>
    if f.padding && p.opacity = .transparentSpace then ac.clearAttr :: rest else p :: rest

def putSpacing (ac : VbiChar) (out : List VbiChar) : Formatted :=
  ⟨ac, (if ac.unicode = 0x20 then ac.clearAttr else ac) :: out⟩

def putExtended (ac : VbiChar) (out : List VbiChar) : Formatted :=
  if ac.unicode &&& 0xFFE0 = 0x2500 then ⟨ac, { ac with underline := false, italic := false } :: out⟩
  else putSpacing ac out

def pacAttr (ac : VbiChar) (c : Nat) : VbiChar :=
  let ac := { ac with underline := c.testBit 0, italic := false }
  if c.testBit 4 then { ac with foreground := vbiWhite }
  else if c >>> 1 &&& 7 = 7 then { ac with foreground := vbiWhite, italic := true }
  else { ac with foreground := colorMap (c >>> 1 &&& 7) }

def midrowAttr (ac : VbiChar) (c : Nat) : VbiChar :=
  let ac := { ac.clearAttr with underline := c.testBit 0 }
  if c >>> 1 &&& 7 = 7 then { ac with italic := true }
  else { ac with foreground := colorMap (c >>> 1 &&& 7) }

def backgroundAttr (f : Format) (ac : VbiChar) (c : Nat) : VbiChar :=
  let background := colorMap (c >>> 1 &&& 7)
  if c.testBit 0 then
    { ac with
      background := if f.alpha then background + 8 else background
      opacity := .semiTransparent }
  else
    { ac with background := background, opacity := .fullOpaque }

/-- One pass of the loop of `format_row()`, where `none` is a failed assertion. -/
def formatCell (f : Format) (i c : Nat) (s : Formatted) : Option Formatted :=
  let ac := { s.ac with unicode := 0x20 }
  if c = 0 then
    some ⟨ac, putBlank f i ac s.out⟩
  else if c < 0x1020 then
    let upper := if 0x61 ≤ c ∧ c ≤ 0x7A ∨ c = 0x7E then false else f.toUpper
    some (putSpacing { ac with unicode := vbiCaptionUnicode c upper } (padBefore f ac s.out))
  else if c < 0x1040 then
    some (putSpacing (backgroundAttr f ac c) s.out)
  else if c < 0x1120 then
    some ⟨pacAttr ac c, putBlank f i ac s.out⟩
  else if c < 0x1130 then
    some (putSpacing (midrowAttr ac c) s.out)
  else if c < 0x1220 then
    if c = 0x1139 then none
    else
      some (putSpacing { ac with unicode := vbiCaptionUnicode c f.toUpper } (padBefore f ac s.out))
  else if c < 0x1428 then
    some (putExtended { ac with unicode := vbiCaptionUnicode c false } (padBefore f ac s.out))
  else if c < 0x172D then
    some (putSpacing { ac with flash := true } s.out)
  else if c < 0x172E then
    some (putSpacing { ac with
      opacity := .transparentFull
      background := if f.alpha then 16 + ac.background % 8 else ac.background } s.out)
  else if c ≤ 0x172F then
    some (putSpacing { ac.clearAttr with
      underline := c.testBit 0
      foreground := vbiBlack } s.out)
  else
    some (putSpacing ac s.out)

/-- The loop over columns `i` and on. -/
def formatCells (f : Format) (cell : Nat → Nat) : List Nat → Formatted → Option Formatted
  | [], s => some s
  | i :: is, s => (formatCell f i (cell i) s).bind (formatCells f cell is)

def transparentSpace (f : Format) : VbiChar where
  underline := false
  italic := false
  flash := false
  foreground := if f.alpha then vbiWhite + 16 else vbiWhite
  background := if f.alpha then vbiBlack + 16 else vbiBlack
  opacity := .transparentSpace
  unicode := 0x20

def defaultAttr : VbiChar := ⟨false, false, false, vbiWhite, vbiBlack, .fullOpaque, 0⟩

def putLast (f : Format) (s : Formatted) : List VbiChar :=
  if f.padding then
    let ac := { s.ac.clearAttr with unicode := 0x20 }
    if endsWord s.out then ac :: s.out
    else
      { ac with
        opacity := .transparentSpace
        foreground := 16 + ac.foreground % 8
        background := 16 + ac.background % 8 } :: s.out
  else
    s.out

/-- How many characters `format_row()` produces. -/
def formatWidth (f : Format) : Nat := if f.padding then maxColumns + 2 else maxColumns

def startRow (f : Format) : Formatted :=
  ⟨defaultAttr, if f.padding then [transparentSpace f] else []⟩

/-- `format_row()`, where `none` is a failed assertion. -/
def formatRow (maxColumns : Nat) (s : Screen) (row : Nat) (f : Format) : Option (List VbiChar) :=
  if maxColumns < formatWidth f then none
  else if s.isDirty row = false then
    some (List.replicate (formatWidth f) (transparentSpace f))
  else
    (formatCells f (s.cell row) (List.range (lastColumn + 1)) (startRow f)).bind fun r =>
      let out := putLast f r
      if out.length = formatWidth f then some out.reverse else none

def Preamble (c : Nat) : Prop := c = 0 ∨ 0x1040 ≤ c ∧ c < 0x1080

/-- The codes `put_char()` stores in the other columns. -/
def Code (c : Nat) : Prop :=
  Preamble c ∨
  0x20 ≤ c ∧ c < 0x80 ∨
  0x1020 ≤ c ∧ c < 0x1030 ∨
  0x1120 ≤ c ∧ c < 0x1140 ∧ c ≠ 0x1139 ∨
  0x1220 ≤ c ∧ c < 0x1240 ∨
  0x1320 ≤ c ∧ c < 0x1340 ∨
  c = 0x1428 ∨
  0x172D ≤ c ∧ c ≤ 0x172F

variable {i c : Nat}

theorem putBlank_length (f : Format) (h : 0 < i) (ac : VbiChar) (out : List VbiChar) :
    (putBlank f i ac out).length = out.length + 1 := by
  rw [putBlank, if_pos h]
  split <;> rfl

theorem padBefore_length (f : Format) (ac : VbiChar) (out : List VbiChar) :
    (padBefore f ac out).length = out.length := by
  cases out with
  | nil => rfl
  | cons p rest =>
    show (if f.padding && p.opacity = .transparentSpace then ac.clearAttr :: rest
      else p :: rest).length = _
    split <;> rfl

theorem putSpacing_length (ac : VbiChar) (out : List VbiChar) :
    (putSpacing ac out).out.length = out.length + 1 := rfl

theorem putExtended_length (ac : VbiChar) (out : List VbiChar) :
    (putExtended ac out).out.length = out.length + 1 := by
  unfold putExtended
  split
  · rfl
  · exact putSpacing_length ac out

/-- A cell of a visible column becomes one character. -/
theorem formatCell_length (f : Format) (hi : 0 < i) (hc : c ≠ 0x1139) (s : Formatted) :
    ∃ r, formatCell f i c s = some r ∧ r.out.length = s.out.length + 1 := by
  have hblank := putBlank_length f hi { s.ac with unicode := 0x20 } s.out
  have hpad := padBefore_length f { s.ac with unicode := 0x20 } s.out
  unfold formatCell
  by_cases h1 : c = 0
  · exact ⟨_, if_pos h1, hblank⟩
  rw [if_neg h1]
  by_cases h2 : c < 0x1020
  · exact ⟨_, if_pos h2, (putSpacing_length _ _).trans (congrArg Nat.succ hpad)⟩
  rw [if_neg h2]
  by_cases h3 : c < 0x1040
  · exact ⟨_, if_pos h3, putSpacing_length _ _⟩
  rw [if_neg h3]
  by_cases h4 : c < 0x1120
  · exact ⟨_, if_pos h4, hblank⟩
  rw [if_neg h4]
  by_cases h5 : c < 0x1130
  · exact ⟨_, if_pos h5, putSpacing_length _ _⟩
  rw [if_neg h5]
  by_cases h6 : c < 0x1220
  · rw [if_pos h6, if_neg hc]
    exact ⟨_, rfl, (putSpacing_length _ _).trans (congrArg Nat.succ hpad)⟩
  rw [if_neg h6]
  by_cases h7 : c < 0x1428
  · exact ⟨_, if_pos h7, (putExtended_length _ _).trans (congrArg Nat.succ hpad)⟩
  rw [if_neg h7]
  by_cases h8 : c < 0x172D
  · exact ⟨_, if_pos h8, putSpacing_length _ _⟩
  rw [if_neg h8]
  by_cases h9 : c < 0x172E
  · exact ⟨_, if_pos h9, putSpacing_length _ _⟩
  rw [if_neg h9]
  by_cases h10 : c ≤ 0x172F
  · exact ⟨_, if_pos h10, putSpacing_length _ _⟩
  · exact ⟨_, if_neg h10, putSpacing_length _ _⟩

theorem formatCells_length (f : Format) {cell : Nat → Nat} {is : List Nat}
    (hi : ∀ i ∈ is, 0 < i) (hc : ∀ i ∈ is, cell i ≠ 0x1139) (s : Formatted) :
    ∃ r, formatCells f cell is s = some r ∧ r.out.length = s.out.length + is.length := by
  induction is generalizing s with
  | nil => exact ⟨s, rfl, rfl⟩
  | cons i is ih =>
    obtain ⟨r, hr, hlength⟩ :=
      formatCell_length f (hi i List.mem_cons_self) (hc i List.mem_cons_self) s
    obtain ⟨r', hr', hlength'⟩ := ih (fun j hj => hi j (List.mem_cons_of_mem i hj))
      (fun j hj => hc j (List.mem_cons_of_mem i hj)) r
    refine ⟨r', ?_, ?_⟩
    · rw [formatCells, hr, Option.bind_some, hr']
    · rw [hlength', hlength, List.length_cons]
      omega

theorem formatCell_zeroth (f : Format) (hc : Preamble c) {s : Formatted}
    (h : endsWord s.out = false) : ∃ ac, formatCell f 0 c s = some ⟨ac, s.out⟩ := by
  have hblank : putBlank f 0 { s.ac with unicode := 0x20 } s.out = s.out := by
    rw [putBlank, h, Bool.and_false, if_neg (by decide), if_neg (Nat.lt_irrefl 0)]
  unfold formatCell
  rcases hc with rfl | ⟨hlow, hhigh⟩
  · refine ⟨{ s.ac with unicode := 0x20 }, ?_⟩
    rw [if_pos rfl, hblank]
  · refine ⟨pacAttr { s.ac with unicode := 0x20 } c, ?_⟩
    rw [if_neg (by omega), if_neg (by omega), if_neg (by omega), if_pos (by omega), hblank]

theorem putLast_length (f : Format) (s : Formatted) :
    (putLast f s).length = s.out.length + if f.padding then 1 else 0 := by
  rw [putLast]
  split
  · split <;> rfl
  · rfl

theorem startRow_endsWord (f : Format) : endsWord (startRow f).out = false := by
  unfold startRow
  cases f.padding <;> rfl

theorem startRow_length (f : Format) :
    (startRow f).out.length = if f.padding then 1 else 0 := by
  unfold startRow
  cases f.padding <;> rfl

/-- A row with these codes passes the assertions of `format_row()`. -/
theorem formatRow_width (s : Screen) (row : Nat) (hzeroth : Preamble (s.cell row 0))
    (hcells : ∀ i, 1 ≤ i → i ≤ lastColumn → s.cell row i ≠ 0x1139) (f : Format)
    {maxColumns : Nat} (hmax : formatWidth f ≤ maxColumns) :
    ∃ out, formatRow maxColumns s row f = some out ∧ out.length = formatWidth f := by
  have hrange : List.range (lastColumn + 1) = 0 :: List.range' 1 lastColumn := by decide
  have hmem : ∀ i ∈ List.range' 1 lastColumn, 1 ≤ i ∧ i ≤ lastColumn := by
    intro i hi
    rw [List.mem_range'_1] at hi
    omega
  obtain ⟨ac, hfirst⟩ := formatCell_zeroth f hzeroth (startRow_endsWord f)
  obtain ⟨r, hr, hlength⟩ := formatCells_length f (fun i hi => (hmem i hi).1)
    (fun i hi => hcells i (hmem i hi).1 (hmem i hi).2) ⟨ac, (startRow f).out⟩
  have hwidth : (putLast f r).length = formatWidth f := by
    rw [putLast_length, hlength, startRow_length, formatWidth, List.length_range']
    split <;> rfl
  unfold formatRow
  rw [if_neg (Nat.not_lt.mpr hmax)]
  by_cases hdirty : s.isDirty row = false
  · exact ⟨_, if_pos hdirty, List.length_replicate⟩
  · refine ⟨(putLast f r).reverse, ?_, ?_⟩
    · rw [if_neg hdirty, hrange, formatCells, hfirst, Option.bind_some, hr, Option.bind_some,
        if_pos hwidth]
    · rw [List.length_reverse, hwidth]

end Cc608Format

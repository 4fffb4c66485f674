import Mathlib.Tactic.Ring
import Zvbi.PageText

/-!
# Pages as images

A region of a Teletext page is drawn with 12 x 10 pixels for a character. Characters of double
width also draw the cell to their right, those of double height draw every line of their half
twice.
-/

namespace PageRendering

open PageText (Size)

/-- The members of `vbi_char` which decide how it is drawn. -/
structure VbiChar where
  unicode : Nat
  size : Size
  underline : Bool
  bold : Bool
  italic : Bool
  flash : Bool
  conceal : Bool
  drcsClutOffs : Nat
deriving DecidableEq, Repr

/-- `vbi_page`. A DRCS font is missing where its pointer is `NULL`. -/
structure Page where
  columns : Nat
  rows : Nat
  text : Nat → VbiChar
  drcs : Nat → Option (Nat → UInt8)

/-- The image of the Teletext font, its characters in a line, and `unicode_wstfont2`. -/
structure Fonts where
  wstfont2 : Nat → UInt8
  cpl : Nat
  glyph : Nat → Bool → Nat

structure Poke where
  offset : Nat
  pen : Nat
deriving DecidableEq, Repr

/-- `vbi_is_drcs`. -/
def isDrcs (unicode : Nat) : Bool := 0xF000 ≤ unicode

def tcw : Nat := 12
def tch : Nat := 10

def lineBits (font : Nat → UInt8) (src shift : Nat) (bold underlined : Bool) : Nat :=
  if underlined then
    2 ^ 32 - 1
  else
    let bits := ((font (src + 1)).toNat * 256 + (font src).toNat) >>> shift
    if bold then bits ||| bits <<< 1 else bits

def drawChar (canvasType canvas rowstride : Nat) (font : Nat → UInt8) (cpl cw ch glyph : Nat)
    (bold : Bool) (underline : Nat) (size : Size) : List Poke :=
  let shift := glyph * cw % 8
  let src := glyph * cw / 8
  let lower := size = .doubleHeight2 ∨ size = .doubleSize2
  let src := if lower then src + cpl * cw / 8 * ch / 2 else src
  let underline := if lower then underline >>> (ch / 2) else underline
  let ch := if lower ∨ size = .doubleHeight ∨ size = .doubleSize then ch / 2 else ch
  (List.range ch).flatMap fun y =>
    let bits := lineBits font (src + y * (cpl * cw / 8)) shift bold (underline.testBit y)
    (List.range cw).flatMap fun x =>
      let col := (bits.testBit x).toNat
      match size with
      | .normalSize => [⟨canvas + y * rowstride + x * canvasType, col⟩]
      | .doubleHeight | .doubleHeight2 =>
        [⟨canvas + y * (rowstride * 2) + x * canvasType, col⟩,
          ⟨canvas + y * (rowstride * 2) + (x + rowstride / canvasType) * canvasType, col⟩]
      | .doubleWidth =>
        [⟨canvas + y * rowstride + (x * 2) * canvasType, col⟩,
          ⟨canvas + y * rowstride + (x * 2 + 1) * canvasType, col⟩]
      | .doubleSize | .doubleSize2 =>
        [⟨canvas + y * (rowstride * 2) + (x * 2) * canvasType, col⟩,
          ⟨canvas + y * (rowstride * 2) + (x * 2 + 1) * canvasType, col⟩,
          ⟨canvas + y * (rowstride * 2) + (x * 2 + rowstride / canvasType) * canvasType, col⟩,
          ⟨canvas + y * (rowstride * 2) + (x * 2 + rowstride / canvasType + 1) * canvasType, col⟩]
      | .overTop | .overBottom => []

/-- `draw_drcs`. Each byte has two pixels. -/
def drawDrcs (canvasType canvas rowstride color : Nat) (font : Nat → UInt8) (glyph : Nat)
    (size : Size) : List Poke :=
  let src := glyph * 60
  let src := if size = .doubleHeight2 ∨ size = .doubleSize2 then src + 30 else src
  let first (y x : Nat) := color + (font (src + y * 6 + x)).toNat % 16
  let second (y x : Nat) := color + (font (src + y * 6 + x)).toNat / 16
  match size with
  | .normalSize =>
    (List.range tch).flatMap fun y => (List.range 6).flatMap fun x =>
      [⟨canvas + y * rowstride + (x * 2) * canvasType, first y x⟩,
        ⟨canvas + y * rowstride + (x * 2 + 1) * canvasType, second y x⟩]
  | .doubleHeight | .doubleHeight2 =>
    (List.range (tch / 2)).flatMap fun y => (List.range 6).flatMap fun x =>
      let line := canvas + y * (rowstride * 2)
      [⟨line + (x * 2) * canvasType, first y x⟩,
        ⟨line + (x * 2 + rowstride / canvasType) * canvasType, first y x⟩,
        ⟨line + (x * 2 + 1) * canvasType, second y x⟩,
        ⟨line + (x * 2 + rowstride / canvasType + 1) * canvasType, second y x⟩]
  | .doubleWidth =>
    (List.range tch).flatMap fun y => (List.range 6).flatMap fun x =>
      let line := canvas + y * rowstride
      [⟨line + (x * 4) * canvasType, first y x⟩, ⟨line + (x * 4 + 1) * canvasType, first y x⟩,
        ⟨line + (x * 4 + 2) * canvasType, second y x⟩,
        ⟨line + (x * 4 + 3) * canvasType, second y x⟩]
  | .doubleSize | .doubleSize2 =>
    (List.range (tch / 2)).flatMap fun y => (List.range 6).flatMap fun x =>
      let line := canvas + y * (rowstride * 2)
      [⟨line + (x * 4) * canvasType, first y x⟩, ⟨line + (x * 4 + 1) * canvasType, first y x⟩,
        ⟨line + (x * 4 + rowstride / canvasType) * canvasType, first y x⟩,
        ⟨line + (x * 4 + rowstride / canvasType + 1) * canvasType, first y x⟩,
        ⟨line + (x * 4 + 2) * canvasType, second y x⟩,
        ⟨line + (x * 4 + 3) * canvasType, second y x⟩,
        ⟨line + (x * 4 + rowstride / canvasType + 2) * canvasType, second y x⟩,
        ⟨line + (x * 4 + rowstride / canvasType + 3) * canvasType, second y x⟩]
  | .overTop | .overBottom => []

def drawBlank (canvasType canvas rowstride color cw ch : Nat) : List Poke :=
  (List.range ch).flatMap fun y => (List.range cw).map fun x =>
    ⟨canvas + y * rowstride + x * canvasType, color⟩

def doubleWidth (size : Size) : Bool :=
  size = .doubleWidth ∨ size = .doubleSize ∨ size = .doubleSize2

def doubleHeight (size : Size) : Bool :=
  size = .doubleHeight ∨ size = .doubleHeight2 ∨ size = .doubleSize ∨ size = .doubleSize2

/-- `vbi_pixfmt`. -/
inductive Pixfmt where
  | rgba32LE
  | pal8
  | other
deriving DecidableEq, Repr

/-- The arguments of `vbi_draw_vt_page_region`. -/
structure Arguments where
  fonts : Fonts
  page : Page
  fmt : Pixfmt
  rowstride : Int
  column : Nat
  row : Nat
  width : Nat
  height : Nat
  reveal : Bool
  flashOn : Bool

namespace Arguments
variable (a : Arguments)

def canvasType : Nat :=
  match a.fmt with
  | .rgba32LE => 4
  | .pal8 => 1
  | .other => 0

/-- `rowstride`, or its default for -1. -/
def stride : Nat :=
  if a.rowstride = -1 then a.page.columns * 12 * a.canvasType else a.rowstride.toNat

def rowAdv : Nat := a.stride * 10 - a.width * 12 * a.canvasType

def cell (i j : Nat) : VbiChar :=
  a.page.text ((a.row + i) * a.page.columns + a.column + j)

def unicode (ac : VbiChar) : Nat :=
  if (ac.conceal ∧ ¬ a.reveal) ∨ (ac.flash ∧ ¬ a.flashOn) then 0x20 else ac.unicode

/-- The body of the loops of `vbi_draw_vt_page_region`. -/
def drawCell (canvas : Nat) (ac : VbiChar) : List Poke :=
  if ac.size = .overTop ∨ ac.size = .overBottom then
    []
  else if isDrcs (a.unicode ac) then
    match a.page.drcs (a.unicode ac / 64 % 32) with
    | some font =>
      drawDrcs a.canvasType canvas a.stride ac.drcsClutOffs font (a.unicode ac % 64) ac.size
    | none => drawBlank a.canvasType canvas a.stride 0 tcw tch
  else
    drawChar a.canvasType canvas a.stride a.fonts.wstfont2 a.fonts.cpl tcw tch
      (a.fonts.glyph (a.unicode ac) ac.italic) ac.bold (ac.underline.toNat <<< 9) ac.size

/-- `vbi_draw_vt_page_region`, or nothing where `rowstride * 10` overflows. -/
def vbiDrawVtPageRegion : Option (List Poke) :=
  if a.fmt = .other then
    some []
  else if 2 ^ 31 ≤ a.stride * 10 then
    none
  else
    some ((List.range a.height).flatMap fun i => (List.range a.width).flatMap fun j =>
      a.drawCell (i * (a.width * (tcw * a.canvasType) + a.rowAdv) + j * (tcw * a.canvasType))
        (a.cell i j))

end Arguments

/-- A region inside of the page, and an image of its width in one of the permitted formats. -/
structure Region extends Arguments where
  permitted : fmt ≠ .other
  width_pos : 0 < width
  height_pos : 0 < height
  column_le : column + width ≤ page.columns
  row_le : row + height ≤ page.rows
  stride_le : rowstride = -1 ∨ (width * 12 * toArguments.canvasType : Int) ≤ rowstride

namespace Region
variable (r : Region)

def pixel (x y : Nat) : Nat := y * r.stride + x * r.canvasType

def Inside (offset : Nat) : Prop :=
  ∃ x y, x < r.width * 12 ∧ y < r.height * 10 ∧ offset = r.pixel x y

def overCell (i j : Nat) : Bool := (r.cell i j).size = .overTop ∨ (r.cell i j).size = .overBottom

def missing (i j : Nat) : Bool :=
  isDrcs (r.unicode (r.cell i j)) ∧ (r.page.drcs (r.unicode (r.cell i j) / 64 % 32)).isNone

def wide (i j : Nat) : Bool := doubleWidth (r.cell i j).size && !r.missing i j

def tall (i j : Nat) : Bool := doubleHeight (r.cell i j).size && !r.missing i j

def Covered : Prop :=
  ∀ i < r.height, ∀ j < r.width, r.overCell i j = true →
    0 < j ∧ doubleWidth (r.cell i (j - 1)).size = true

/-- Only the rectangle is written, and all of it where it is covered. -/
def Meets : Prop :=
  ∃ pokes, r.vbiDrawVtPageRegion = some pokes ∧ (∀ p ∈ pokes, r.Inside p.offset) ∧
    (r.Covered → ∀ x < r.width * 12, ∀ y < r.height * 10, ∃ p ∈ pokes, p.offset = r.pixel x y)

structure Holds : Prop where
  /-- The distance of two rows of characters is an `int`. -/
  fits : r.stride * 10 < 2 ^ 31
  /-- A wide character in the last column continues in the next line. -/
  lastColumn : ∀ i < r.height, r.wide i (r.width - 1) = true →
    r.stride = r.width * 12 * r.canvasType ∧ i + 1 < r.height
  /-- The lower one of two equal lines starts at a pixel. -/
  lines : ∀ i < r.height, ∀ j < r.width, r.tall i j = true → r.canvasType ∣ r.stride
  /-- The right half of a missing character is not drawn. -/
  rightHalf : r.Covered → ∀ i < r.height, ∀ j, j + 1 < r.width →
    doubleWidth (r.cell i j).size = true → r.missing i j = true → r.overCell i (j + 1) = false

end Region

def Writes (pokes : List Poke) (o : Nat) : Prop := ∃ p ∈ pokes, p.offset = o

variable {o y x i j : Nat}

@[simp] theorem writes_nil : ¬ Writes [] o := by simp [Writes]

@[simp] theorem writes_cons {p : Poke} {l : List Poke} :
    Writes (p :: l) o ↔ p.offset = o ∨ Writes l o := by simp [Writes]

variable {α : Type} {w : Bool} {n x' y' : Nat} {size : Size}

@[simp] theorem writes_flatMap {l : List α} {f : α → List Poke} :
    Writes (l.flatMap f) o ↔ ∃ a ∈ l, Writes (f a) o := by
  simp only [Writes, List.mem_flatMap]
  constructor
  · rintro ⟨p, ⟨a, ha, hp⟩, ho⟩
    exact ⟨a, ha, p, hp, ho⟩
  · rintro ⟨a, ha, p, hp, ho⟩
    exact ⟨p, ⟨a, ha, hp⟩, ho⟩

@[simp] theorem writes_map {l : List α} {f : α → Poke} :
    Writes (l.map f) o ↔ ∃ a ∈ l, (f a).offset = o := by simp [Writes]

def lineOffset (ct rs : Nat) (tall : Bool) (y : Nat) : Nat :=
  if tall then y / 2 * (rs * 2) + y % 2 * (rs / ct * ct) else y * rs

def Drawn (ct rs c : Nat) (tall wide : Bool) (o : Nat) : Prop :=
  ∃ y < 10, ∃ x < (if wide then 24 else 12), c + lineOffset ct rs tall y + x * ct = o

theorem exists_parts (n k : Nat) (P : Nat → Prop) :
    (∃ i < n * k, P i) ↔ ∃ i < n, ∃ d < k, P (i * k + d) := by
  constructor
  · rintro ⟨i, hi, h⟩
    have hk : 0 < k := Nat.pos_of_ne_zero (by rintro rfl; simp at hi)
    exact ⟨i / k, Nat.div_lt_of_lt_mul (Nat.mul_comm n k ▸ hi), i % k, Nat.mod_lt i hk,
      by simpa [Nat.div_add_mod'] using h⟩
  · rintro ⟨i, hi, d, hd, h⟩
    refine ⟨i * k + d, ?_, h⟩
    calc i * k + d < (i + 1) * k := by simp [Nat.add_mul, hd]
      _ ≤ n * k := Nat.mul_le_mul_right k hi

theorem exists_lt_two (P : Nat → Prop) : (∃ d < 2, P d) ↔ P 0 ∨ P 1 := by
  constructor
  · rintro ⟨d, hd, h⟩
    obtain rfl | rfl : d = 0 ∨ d = 1 := by omega
    · exact Or.inl h
    · exact Or.inr h
  · rintro (h | h)
    · exact ⟨0, by simp, h⟩
    · exact ⟨1, by simp, h⟩

theorem exists_lt_four (P : Nat → Prop) : (∃ d < 4, P d) ↔ P 0 ∨ P 1 ∨ P 2 ∨ P 3 := by
  have h := exists_parts 2 2 P
  simp only [exists_lt_two, or_assoc] at h
  exact h

variable {ct rs c : Nat} {font : Nat → UInt8}

theorem lineOffset_tall {b : Nat} (hb : b < 2) :
    lineOffset ct rs true (y * 2 + b) = y * (rs * 2) + b * (rs / ct * ct) := by
  simp [lineOffset, show (y * 2 + b) / 2 = y by omega, show (y * 2 + b) % 2 = b by omega]

theorem drawn_lines : Drawn ct rs c true w o ↔
    ∃ y < 5, ∃ x < (if w then 24 else 12), c + y * (rs * 2) + x * ct = o ∨
      c + y * (rs * 2) + (x + rs / ct) * ct = o := by
  have h := exists_parts 5 2 fun y =>
    ∃ x < (if w then 24 else 12), c + lineOffset ct rs true y + x * ct = o
  simp only [Drawn]
  refine h.trans ?_
  refine exists_congr fun y => and_congr_right fun hy => ?_
  rw [exists_lt_two]
  simp only [lineOffset_tall Nat.zero_lt_two, lineOffset_tall Nat.one_lt_two]
  simp only [and_or_left, exists_or, Nat.add_mul]
  simp only [Nat.zero_mul, Nat.add_zero, Nat.one_mul, ← Nat.add_assoc,
    Nat.add_right_comm _ (rs / ct * ct)]

theorem pixels_two (P : Nat → Prop) :
    (∃ x < n * 2, P x) ↔ ∃ x < n, P (x * 2) ∨ P (x * 2 + 1) := by
  simp only [exists_parts, exists_lt_two, Nat.add_zero]

theorem pixels_four (P : Nat → Prop) :
    (∃ x < n * 4, P x) ↔
      ∃ x < n, P (x * 4) ∨ P (x * 4 + 1) ∨ P (x * 4 + 2) ∨ P (x * 4 + 3) := by
  simp only [exists_parts, exists_lt_four, Nat.add_zero]

theorem drawn_normal : Drawn ct rs c false w o ↔
    ∃ y < 10, ∃ x < (if w then 24 else 12), c + y * rs + x * ct = o := by
  simp [Drawn, lineOffset]

/-- A character draws both halves in each line, and each line of a half twice. -/
theorem writes_drawChar (cpl glyph ul : Nat) (bold : Bool) (o : Nat) (ht : size ≠ .overTop)
    (hb : size ≠ .overBottom) :
    Writes (drawChar ct c rs font cpl 12 10 glyph bold ul size) o ↔
      Drawn ct rs c (doubleHeight size) (doubleWidth size) o := by
  cases size
  case overTop => exact absurd rfl ht
  case overBottom => exact absurd rfl hb
  case normalSize => simp [drawChar, drawn_normal, doubleHeight, doubleWidth]
  case doubleHeight | doubleHeight2 => simp [drawChar, drawn_lines, doubleHeight, doubleWidth]
  case doubleWidth =>
    simp [drawChar, drawn_normal, doubleHeight, doubleWidth, pixels_two (n := 12)]
  case doubleSize | doubleSize2 =>
    simp [drawChar, drawn_lines, doubleHeight, doubleWidth, pixels_two (n := 12), or_assoc,
      or_left_comm, Nat.add_right_comm _ 1 (rs / ct)]

theorem or_pairs {a b c d a' b' c' d' : Prop} :
    (a ∨ b ∨ a' ∨ b' ∨ c ∨ d ∨ c' ∨ d') ↔ (a ∨ a') ∨ (b ∨ b') ∨ (c ∨ c') ∨ d ∨ d' := by
  tauto

theorem writes_drawDrcs (color glyph o : Nat) (ht : size ≠ .overTop) (hb : size ≠ .overBottom) :
    Writes (drawDrcs ct c rs color font glyph size) o ↔
      Drawn ct rs c (doubleHeight size) (doubleWidth size) o := by
  cases size
  case overTop => exact absurd rfl ht
  case overBottom => exact absurd rfl hb
  case normalSize =>
    simp [drawDrcs, tch, drawn_normal, doubleHeight, doubleWidth, pixels_two (n := 6)]
  case doubleHeight | doubleHeight2 =>
    simp [drawDrcs, tch, drawn_lines, doubleHeight, doubleWidth, pixels_two (n := 6), or_assoc,
      Nat.add_right_comm _ 1 (rs / ct)]
  case doubleWidth =>
    simp [drawDrcs, tch, drawn_normal, doubleHeight, doubleWidth, pixels_four (n := 6)]
  case doubleSize | doubleSize2 =>
    simp [drawDrcs, tch, drawn_lines, doubleHeight, doubleWidth, pixels_four (n := 6),
      Nat.add_right_comm _ _ (rs / ct)]
    exact exists_congr fun y => and_congr_right fun _ =>
      exists_congr fun x => and_congr_right fun _ => or_pairs

theorem writes_drawBlank (color o : Nat) :
    Writes (drawBlank ct c rs color 12 10) o ↔ Drawn ct rs c false false o := by
  simp [drawBlank, drawn_normal]

theorem offset_unique {rs : Nat} (hx : x < rs) (hx' : x' < rs) (h : y * rs + x = y' * rs + x') :
    y = y' ∧ x = x' := by
  have div {a b : Nat} (hb : b < rs) : (a * rs + b) / rs = a := by
    simp [Nat.mul_comm a, Nat.mul_add_div (Nat.zero_lt_of_lt hb), Nat.div_eq_of_lt hb]
  have hy : y = y' := by simpa [div hx, div hx'] using congrArg (· / rs) h
  subst hy
  exact ⟨rfl, Nat.add_left_cancel h⟩

theorem lineOffset_eq {ct rs : Nat} {tall : Bool} (h : tall = true → ct ∣ rs) (y : Nat) :
    lineOffset ct rs tall y = y * rs := by
  cases tall with
  | false => simp [lineOffset]
  | true =>
    calc lineOffset ct rs true y = (y / 2 * 2 + y % 2) * rs := by
          simp [lineOffset, Nat.div_mul_cancel (h rfl), Nat.add_mul, Nat.mul_assoc, Nat.mul_comm rs]
      _ = y * rs := by simp [Nat.div_add_mod']

namespace Region
variable (r : Region)

theorem canvasType_pos : 0 < r.canvasType := by
  have h := r.permitted
  cases hf : r.fmt <;> simp_all [Arguments.canvasType]

theorem width_le_stride : r.width * 12 * r.canvasType ≤ r.stride := by
  by_cases hs : r.rowstride = -1
  · have hw : r.width ≤ r.page.columns := Nat.le_of_add_left_le r.column_le
    simpa [Arguments.stride, hs] using
      Nat.mul_le_mul_right r.canvasType (Nat.mul_le_mul_right 12 hw)
  · have h := r.stride_le.resolve_left hs
    simp only [Arguments.stride, hs, if_false]
    have e : ((r.width * 12 * r.canvasType : Nat) : Int) ≤ r.rowstride := by simpa using h
    generalize r.width * 12 * r.canvasType = n at e ⊢
    omega

theorem row_distance : r.width * (tcw * r.canvasType) + r.rowAdv = r.stride * 10 := by
  have h := r.width_le_stride
  have e : r.width * (tcw * r.canvasType) = r.width * 12 * r.canvasType := by
    simp [tcw, Nat.mul_assoc]
  simp only [Arguments.rowAdv]
  omega

theorem column_lt_stride (hx : x < r.width * 12) : x * r.canvasType < r.stride :=
  Nat.lt_of_lt_of_le (Nat.mul_lt_mul_of_pos_right hx r.canvasType_pos) r.width_le_stride

/-- Pixels inside of the lines are different bytes. -/
theorem pixel_unique (hx : x * r.canvasType < r.stride) (hx' : x' * r.canvasType < r.stride)
    (h : r.pixel x y = r.pixel x' y') : x = x' ∧ y = y' := by
  obtain ⟨hy, he⟩ := offset_unique hx hx' h
  exact ⟨Nat.eq_of_mul_eq_mul_right r.canvasType_pos he, hy⟩

def CellWrites (i j o : Nat) : Prop :=
  r.overCell i j = false ∧ Drawn r.canvasType r.stride
    (i * (r.stride * 10) + j * (12 * r.canvasType)) (r.tall i j) (r.wide i j) o

theorem writes_drawCell (i j canvas o : Nat) :
    Writes (r.drawCell canvas (r.cell i j)) o ↔
      r.overCell i j = false ∧ Drawn r.canvasType r.stride canvas (r.tall i j) (r.wide i j) o := by
  generalize hc : r.cell i j = ac
  by_cases ho : ac.size = .overTop ∨ ac.size = .overBottom
  · simp [Arguments.drawCell, overCell, hc, ho]
  · have hs : ac.size ≠ .overTop ∧ ac.size ≠ .overBottom := not_or.1 ho
    by_cases hd : isDrcs (r.unicode ac) = true
    · cases hf : r.page.drcs (r.unicode ac / 64 % 32) with
      | none =>
        simp [Arguments.drawCell, overCell, tall, wide, missing, hc, hs, hd, hf, tcw, tch,
          writes_drawBlank]
      | some font =>
        simp [Arguments.drawCell, overCell, tall, wide, missing, hc, hs, hd, hf,
          writes_drawDrcs _ _ _ hs.1 hs.2]
    · simp [Arguments.drawCell, overCell, tall, wide, missing, hc, hs, hd, tcw, tch,
        writes_drawChar _ _ _ _ _ hs.1 hs.2]

theorem draw_of_fits (h : r.stride * 10 < 2 ^ 31) : ∃ pokes,
    r.vbiDrawVtPageRegion = some pokes ∧
      ∀ o, Writes pokes o ↔ ∃ i < r.height, ∃ j < r.width, r.CellWrites i j o := by
  simp only [Arguments.vbiDrawVtPageRegion, if_neg r.permitted, if_neg (Nat.not_le.2 h)]
  refine ⟨_, rfl, fun o => ?_⟩
  simp [writes_drawCell, CellWrites, ← r.row_distance, tcw]

theorem fits_of_draw {pokes : List Poke} (h : r.vbiDrawVtPageRegion = some pokes) :
    r.stride * 10 < 2 ^ 31 := by
  by_contra hn
  simp only [Arguments.vbiDrawVtPageRegion, if_neg r.permitted, if_pos (Nat.not_lt.1 hn)] at h
  cases h

/-- Where its lines start at pixels a character writes its pixels. -/
theorem cellWrites_iff (h : r.tall i j = true → r.canvasType ∣ r.stride) :
    r.CellWrites i j o ↔ r.overCell i j = false ∧
      ∃ y < 10, ∃ x < (if r.wide i j then 24 else 12), r.pixel (12 * j + x) (10 * i + y) = o := by
  have e (x y : Nat) : i * (r.stride * 10) + j * (12 * r.canvasType) + y * r.stride +
      x * r.canvasType = r.pixel (12 * j + x) (10 * i + y) := by
    simp only [pixel]
    ring
  simp [CellWrites, Drawn, lineOffset_eq h, e]

def Stays : Prop := ∀ i < r.height, ∀ j < r.width, ∀ o, r.CellWrites i j o → r.Inside o

theorem meets_iff_stays : r.Meets ↔ r.stride * 10 < 2 ^ 31 ∧ r.Stays ∧
    (r.Covered → ∀ x < r.width * 12, ∀ y < r.height * 10,
      ∃ i < r.height, ∃ j < r.width, r.CellWrites i j (r.pixel x y)) := by
  constructor
  · rintro ⟨pokes, hd, hi, hc⟩
    have fits := r.fits_of_draw hd
    obtain ⟨pokes', hd', hw⟩ := r.draw_of_fits fits
    obtain rfl : pokes' = pokes := Option.some.inj (hd'.symm.trans hd)
    refine ⟨fits, ?_, ?_⟩
    · intro i hi' j hj o ho
      obtain ⟨p, hp, rfl⟩ := (hw o).2 ⟨i, hi', j, hj, ho⟩
      exact hi p hp
    · intro cov x hx y hy
      exact (hw _).1 (hc cov x hx y hy)
  · rintro ⟨fits, stays, covers⟩
    obtain ⟨pokes, hd, hw⟩ := r.draw_of_fits fits
    refine ⟨pokes, hd, ?_, ?_⟩
    · intro p hp
      obtain ⟨i, hi, j, hj, ho⟩ := (hw p.offset).1 ⟨p, hp, rfl⟩
      exact stays i hi j hj _ ho
    · intro cov x hx y hy
      exact (hw _).2 (covers cov x hx y hy)

theorem over_of_tall (h : r.tall i j = true) : r.overCell i j = false := by
  simp only [tall, doubleHeight, overCell] at h ⊢
  cases hs : (r.cell i j).size <;> simp_all

theorem over_of_doubleWidth (h : doubleWidth (r.cell i j).size = true) :
    r.overCell i j = false := by
  simp only [doubleWidth, overCell] at h ⊢
  cases hs : (r.cell i j).size <;> simp_all

theorem doubleWidth_of_wide (h : r.wide i j = true) :
    doubleWidth (r.cell i j).size = true := (Bool.and_eq_true_iff.1 h).1

/-- The lower one of two equal lines is a line of the image. -/
theorem lines_of_stays (h : r.Stays) (hi : i < r.height) (hj : j < r.width)
    (ht : r.tall i j = true) : r.canvasType ∣ r.stride := by
  have hct := r.canvasType_pos
  have hw := r.width_le_stride
  -- the first pixel of the second line
  obtain ⟨x, y, hx, -, he⟩ := h i hi j hj _
    ⟨r.over_of_tall ht, 1, by simp, 0, by split <;> simp, rfl⟩
  have hxs := r.column_lt_stride hx
  have hk : r.stride / r.canvasType * r.canvasType + r.stride % r.canvasType = r.stride :=
    Nat.div_add_mod' _ _
  by_contra hn
  have hm : 0 < r.stride % r.canvasType :=
    Nat.pos_of_ne_zero fun h0 => hn (Nat.dvd_of_mod_eq_zero h0)
  have hm' := Nat.mod_lt r.stride hct
  have he : 10 * i * r.stride + 12 * j * r.canvasType + r.stride / r.canvasType * r.canvasType =
      y * r.stride + x * r.canvasType := by
    calc _ = i * (r.stride * 10) + j * (12 * r.canvasType) +
          lineOffset r.canvasType r.stride true 1 + 0 * r.canvasType := by
          simp [lineOffset]
          ring
      _ = _ := by simpa [ht, pixel] using he
  cases j with
  | zero =>
    have hlt : r.stride / r.canvasType * r.canvasType < r.stride := by omega
    have he' : 10 * i * r.stride + r.stride / r.canvasType * r.canvasType =
        y * r.stride + x * r.canvasType := by simpa using he
    obtain ⟨-, e⟩ := offset_unique hlt hxs he'
    have hle : r.width * 12 ≤ r.stride / r.canvasType := (Nat.le_div_iff_mul_le hct).2 hw
    have := Nat.eq_of_mul_eq_mul_right hct e
    omega
  | succ j =>
    have hle : r.canvasType ≤ 12 * (j + 1) * r.canvasType := Nat.le_mul_of_pos_left _ (by simp)
    have hlt := r.column_lt_stride (x := 12 * (j + 1)) (by omega)
    have he' : (10 * i + 1) * r.stride + (12 * (j + 1) * r.canvasType - r.stride % r.canvasType) =
        y * r.stride + x * r.canvasType := by
      simp only [Nat.add_mul, Nat.one_mul] at he hle ⊢
      omega
    obtain ⟨-, e⟩ := offset_unique (by omega) hxs he'
    have hd : r.canvasType ∣ r.stride % r.canvasType := by
      have : r.stride % r.canvasType = (12 * (j + 1) - x) * r.canvasType := by
        simp [Nat.sub_mul]
        omega
      simp [this]
    exact absurd (Nat.le_of_dvd hm hd) (Nat.not_le.2 hm')

/-- The pixels right of the rectangle are those of the next line, or outside of it. -/
theorem inside_right (h : r.Inside (r.pixel (r.width * 12) y)) :
    r.stride = r.width * 12 * r.canvasType ∧ y + 1 < r.height * 10 := by
  obtain ⟨x', y', hx, hy, he⟩ := h
  have hxs := r.column_lt_stride hx
  have hs : r.stride = r.width * 12 * r.canvasType := by
    by_contra hn
    have hlt := Nat.lt_of_le_of_ne r.width_le_stride (Ne.symm hn)
    obtain ⟨e, -⟩ := r.pixel_unique hlt hxs he
    omega
  refine ⟨hs, ?_⟩
  have e1 : r.pixel (r.width * 12) y = r.pixel 0 (y + 1) := by
    simp [pixel, ← hs, Nat.add_mul]
  obtain ⟨-, e⟩ := r.pixel_unique (by simp; omega) hxs (e1.symm.trans he)
  omega

theorem pixel_right (hs : r.stride = r.width * 12 * r.canvasType) :
    r.pixel (r.width * 12 + x) y = r.pixel x (y + 1) := by
  simp only [pixel, Nat.add_mul, ← hs, Nat.one_mul]
  omega

theorem lastColumn_of_stays (h : r.Stays) (hi : i < r.height) (hw : r.wide i (r.width - 1) = true) :
    r.stride = r.width * 12 * r.canvasType ∧ i + 1 < r.height := by
  have hp := r.width_pos
  have right (y : Nat) (hy : y < 10) : r.Inside (r.pixel (r.width * 12) (10 * i + y)) := by
    refine h i hi (r.width - 1) (by omega) _ ((r.cellWrites_iff ?_).2 ⟨?_, y, hy, 12, ?_, ?_⟩)
    · exact r.lines_of_stays h hi (by omega)
    · exact r.over_of_doubleWidth (r.doubleWidth_of_wide hw)
    · simp [hw]
    · congr 1
      omega
  have last := r.inside_right (right 9 (by simp))
  exact ⟨last.1, by omega⟩

variable {r}

theorem stays_of_holds (h : r.Holds) : r.Stays := by
  intro i hi j hj o ho
  obtain ⟨-, y, hy, x, hx, rfl⟩ := (r.cellWrites_iff (h.lines i hi j hj)).1 ho
  by_cases hin : 12 * j + x < r.width * 12
  · exact ⟨_, _, hin, by omega, rfl⟩
  · -- the right half of the last column
    have hw : r.wide i j = true := by
      by_contra hn
      simp [hn] at hx
      omega
    have hx' : x < 24 := by simpa [hw] using hx
    obtain rfl : j = r.width - 1 := by omega
    obtain ⟨hs, hlast⟩ := h.lastColumn i hi hw
    refine ⟨x - 12, 10 * i + y + 1, by omega, by omega, ?_⟩
    rw [← r.pixel_right hs]
    congr 1
    omega

theorem covers_of_holds (h : r.Holds) (cov : r.Covered) (hx : x < r.width * 12)
    (hy : y < r.height * 10) :
    ∃ i < r.height, ∃ j < r.width, r.CellWrites i j (r.pixel x y) := by
  have hi : y / 10 < r.height := Nat.div_lt_of_lt_mul (by omega)
  have hj : x / 12 < r.width := Nat.div_lt_of_lt_mul (by omega)
  have hxe : 12 * (x / 12) + x % 12 = x := Nat.div_add_mod x 12
  have hye : 10 * (y / 10) + y % 10 = y := Nat.div_add_mod y 10
  cases ho : r.overCell (y / 10) (x / 12) with
  | false =>
    refine ⟨_, hi, _, hj, (r.cellWrites_iff (h.lines _ hi _ hj)).2
      ⟨ho, y % 10, Nat.mod_lt _ (by simp), x % 12, ?_, by simp [hxe, hye]⟩⟩
    have := Nat.mod_lt x (show 0 < 12 by simp)
    split <;> omega
  | true =>
    obtain ⟨hpos, hd⟩ := cov _ hi _ hj ho
    have hleft : x / 12 - 1 + 1 = x / 12 := Nat.sub_add_cancel hpos
    have hm : r.missing (y / 10) (x / 12 - 1) = false := by
      by_contra hm
      have := h.rightHalf cov _ hi (x / 12 - 1) (by omega) hd (by simpa using hm)
      simp [hleft, ho] at this
    have hw : r.wide (y / 10) (x / 12 - 1) = true := by simp [wide, hd, hm]
    have hj' : x / 12 - 1 < r.width := by omega
    refine ⟨_, hi, _, hj', (r.cellWrites_iff (h.lines _ hi _ hj')).2
      ⟨r.over_of_doubleWidth hd, y % 10, Nat.mod_lt _ (by simp), 12 + x % 12, ?_, ?_⟩⟩
    · simp [hw]
      omega
    · congr 1
      omega

theorem rightHalf_of_covers (stays : r.Stays) (covers : ∀ x < r.width * 12, ∀ y < r.height * 10,
      ∃ i < r.height, ∃ j < r.width, r.CellWrites i j (r.pixel x y))
    (hi : i < r.height) (hj : j + 1 < r.width) (hm : r.missing i j = true) :
    r.overCell i (j + 1) = false := by
  obtain ⟨i', hi', j', hj', hc⟩ := covers (12 * (j + 1)) (by omega) (10 * i) (by omega)
  obtain ⟨ho, y, hy, x, hx, he⟩ :=
    (r.cellWrites_iff (r.lines_of_stays stays hi' hj')).1 hc
  have hlt := r.column_lt_stride (x := 12 * (j + 1)) (by omega)
  by_cases hin : 12 * j' + x < r.width * 12
  · obtain ⟨ex, ey⟩ := r.pixel_unique (r.column_lt_stride hin) hlt he
    obtain rfl : i' = i := by omega
    by_cases hx12 : x < 12
    · obtain rfl : j' = j + 1 := by omega
      exact ho
    · -- the character with the missing font draws a single cell
      have hw : r.wide i' j' = true := by
        by_contra hn
        simp [hn] at hx
        omega
      have hx' : x < 24 := by simpa [hw] using hx
      obtain rfl : j' = j := by omega
      simp [wide, hm] at hw
  · have hw : r.wide i' j' = true := by
      by_contra hn
      simp [hn] at hx
      omega
    have hx' : x < 24 := by simpa [hw] using hx
    obtain rfl : j' = r.width - 1 := by omega
    obtain ⟨hs, -⟩ := r.lastColumn_of_stays stays hi' hw
    have e : 12 * (r.width - 1) + x = r.width * 12 + (x - 12) := by omega
    rw [e, r.pixel_right hs] at he
    obtain ⟨ex, -⟩ := r.pixel_unique (r.column_lt_stride (by omega)) hlt he
    omega

end Region

/-- A region is drawn inside of its rectangle, and covers it, under exactly these conditions. -/
theorem vbiDrawVtPageRegion_meets_iff (r : Region) : r.Meets ↔ r.Holds := by
  rw [r.meets_iff_stays]
  constructor
  · rintro ⟨fits, stays, covers⟩
    exact {
      fits := fits
      lastColumn := fun i hi hw => r.lastColumn_of_stays stays hi hw
      lines := fun i hi j hj ht => r.lines_of_stays stays hi hj ht
      rightHalf := fun cov i hi j hj _ hm =>
        Region.rightHalf_of_covers stays (covers cov) hi hj hm }
  · intro h
    exact ⟨h.fits, Region.stays_of_holds h, fun cov x hx y hy =>
      Region.covers_of_holds h cov hx hy⟩

def leftColumn : Region where
  fonts := { wstfont2 := fun _ => 0, cpl := 1, glyph := fun _ _ => 0 }
  page := {
    columns := 2
    rows := 1
    text := fun i => {
      unicode := 0x41
      size := if i = 0 then .doubleWidth else .overTop
      underline := false
      bold := false
      italic := false
      flash := false
      conceal := false
      drcsClutOffs := 0 }
    drcs := fun _ => none }
  fmt := .pal8
  rowstride := 12
  column := 0
  row := 0
  width := 1
  height := 1
  reveal := true
  flashOn := true
  permitted := Pixfmt.noConfusion
  width_pos := Nat.one_pos
  height_pos := Nat.one_pos
  column_le := Nat.le_succ 1
  row_le := Nat.le_refl 1
  stride_le := Or.inr (Int.le_refl 12)

/-- The right half of its last line is drawn after the end of the image. -/
theorem leftColumn_outside : ¬ leftColumn.Meets := by
  intro h
  obtain ⟨-, stays, -⟩ := leftColumn.meets_iff_stays.1 h
  obtain ⟨x, y, hx, hy, he⟩ := stays 0 (by decide) 0 (by decide) 120
    ⟨by decide, 9, by decide, 12, by decide, by decide⟩
  have hs : leftColumn.pixel x y = y * 12 + x * 1 := rfl
  simp only [leftColumn] at hx hy
  omega

end PageRendering
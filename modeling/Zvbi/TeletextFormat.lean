import Zvbi.ExtensionPackets
import Zvbi.TeletextEnhance

/-!
# Formatting of Teletext pages

A page is formatted at Level 1.0, without navigation. A row is a list of characters and spacing
attributes. Some attributes apply from their own column on and some from the next one. A double
height character extends into the next row, which is not formatted then, and a 41st column is
made of the columns 0 and 39.

The text is here a function of row and column. The character sets are a parameter.
-/

namespace TeletextFormat
open Hamming TeletextHeader TeletextEnhance
open ExtensionPackets (Extension)

/-- `enum ttx_flags`. -/
def c5Newsflash : Nat := 0x4000
def c6Subtitle : Nat := 0x8000
def c7SuppressHeader : Nat := 0x10000
def c10InhibitDisplay : Nat := 0x80000

structure LopData where
  raw : Nat → Nat → UInt8
  ext : Extension

abbrev LopPage := Page LopData

/-- The text of a `vbi_page`. -/
abbrev Text := Nat → Nat → VbiChar

/-- `vbi_teletext_unicode()` with the first or second character set which
`character_set_designation()` has chosen for the page. -/
abbrev CharacterSets := Extension → LopPage → Bool → Nat → Nat

def hasFlag (p : LopPage) (flags : Nat) : Bool := p.flags.toNat &&& flags ≠ 0

/-- `pg->page_opacity[row > 0]`. -/
def pageOpacity (p : LopPage) (row : Nat) : Nat :=
  if row = 0 ∧ hasFlag p c7SuppressHeader then vbiTransparentSpace
  else if hasFlag p (c5Newsflash ||| c6Subtitle ||| c10InhibitDisplay) then vbiTransparentSpace
  else vbiOpaque

/-- `pg->boxed_opacity[row > 0]`. -/
def boxedOpacity (p : LopPage) (row : Nat) : Nat :=
  if row = 0 ∧ hasFlag p c7SuppressHeader then vbiTransparentSpace
  else if hasFlag p c10InhibitDisplay then vbiTransparentSpace
  else vbiSemiTransparent

def extensionOf (magazine : Extension) (p : LopPage) : Extension :=
  if p.x28Designations &&& 0x11 ≠ 0 then p.data.ext else magazine

/-- A digit of `%x`. -/
def hexDigit (n : Nat) : Nat := if n % 16 < 10 then 0x30 + n % 16 else 0x57 + n % 16

/-- The current page number in the header, `"\2%x.%02x\7"`. The page number has three digits. -/
def pageNumber (p : LopPage) : List Nat :=
  let pgno := p.pgno.toNat
  [2, hexDigit (pgno / 256), hexDigit (pgno / 16), hexDigit pgno, 0x2E, hexDigit (p.subno / 16),
    hexDigit p.subno, 7]

def rawChar (p : LopPage) (row column : Nat) : Nat :=
  if row = 0 ∧ column < 8 then (pageNumber p).getD column 0
  else if vbiUnpar8 (p.data.raw row column) < 0 then 0x20
  else (vbiUnpar8 (p.data.raw row column)).toNat

structure RowState where
  ac : VbiChar
  mosaicUnicodes : Nat
  heldMosaicUnicode : Nat
  esc : Bool
  hold : Bool
  mosaic : Bool
  doubleHeight : Bool
  wideChar : Bool
  acp : Nat → VbiChar

def clearedChar : VbiChar := ⟨false, false, false, false, false, false, 0, 0, 0, 0, 0⟩

def blankChar (ext : Extension) (opacity : Nat) : VbiChar :=
  { clearedChar with
    unicode := 0x0020
    foreground := ext.foregroundClut.toNat + vbiWhite
    background := ext.backgroundClut.toNat + vbiBlack
    opacity := opacity }

variable (sets : CharacterSets) (ext : Extension) (p : LopPage)

def startRow (text : Text) (row : Nat) : RowState where
  ac := blankChar ext (pageOpacity p row)
  mosaicUnicodes := 0xEE20
  heldMosaicUnicode := 0xEE20
  esc := false
  hold := false
  mosaic := false
  doubleHeight := false
  wideChar := false
  acp := Function.update (text row) columns (blankChar ext (pageOpacity p row))

def setAt (raw : Nat) (s : RowState) : RowState :=
  match raw with
  | 0x09 => { s with ac := { s.ac with flash := false } }
  | 0x0C => { s with ac := { s.ac with size := vbiNormalSize } }
  | 0x18 => { s with ac := { s.ac with conceal := true } }
  | 0x19 => { s with mosaicUnicodes := 0xEE20 }
  | 0x1A => { s with mosaicUnicodes := 0xEE00 }
  | 0x1C => { s with ac := { s.ac with background := ext.backgroundClut.toNat + vbiBlack } }
  | 0x1D =>
    { s with ac := { s.ac with
      background := ext.backgroundClut.toNat + (s.ac.foreground &&& 7) } }
  | 0x1E => { s with hold := true }
  | _ => s

def setUnicode (raw : Nat) (s : RowState) : RowState :=
  if raw ≤ 0x1F then
    { s with ac := { s.ac with
      unicode := if s.hold && s.mosaic then s.heldMosaicUnicode else 0x0020 } }
  else if s.mosaic ∧ raw &&& 0x20 ≠ 0 then
    { s with
      heldMosaicUnicode := s.mosaicUnicodes + raw - 0x20
      ac := { s.ac with unicode := s.mosaicUnicodes + raw - 0x20 } }
  else
    { s with ac := { s.ac with unicode := sets ext p s.esc raw } }

def place (column : Nat) (s : RowState) : RowState :=
  if s.wideChar then
    { s with wideChar := false }
  else if s.ac.size &&& vbiDoubleWidth = 0 then
    { s with acp := Function.update s.acp column s.ac }
  else if column < columns - 1 then
    { s with
      acp := Function.update (Function.update s.acp column s.ac) (column + 1)
        { s.ac with size := vbiOverTop }
      wideChar := true }
  else
    { s with acp := Function.update s.acp column { s.ac with size := vbiNormalSize } }

def setAfter (row column raw : Nat) (s : RowState) : RowState :=
  let next := vbiUnpar8 (p.data.raw row (column + 1))
  if raw ≤ 0x07 then
    { s with
      ac := { s.ac with foreground := ext.foregroundClut.toNat + (raw &&& 7), conceal := false }
      mosaic := false }
  else if raw = 0x08 then { s with ac := { s.ac with flash := true } }
  else if raw = 0x0A then
    if column < columns - 1 ∧ next = 0x0A then
      { s with ac := { s.ac with opacity := pageOpacity p row } }
    else s
  else if raw = 0x0B then
    if column < columns - 1 ∧ next = 0x0B then
      { s with ac := { s.ac with opacity := boxedOpacity p row } }
    else s
  else if raw = 0x0D then
    if row = 0 ∨ 23 ≤ row then s
    else { s with ac := { s.ac with size := vbiDoubleHeight }, doubleHeight := true }
  else if raw = 0x0E then
    if column < columns - 1 then { s with ac := { s.ac with size := vbiDoubleWidth } } else s
  else if raw = 0x0F then
    if columns - 1 ≤ column ∨ row = 0 ∨ 23 ≤ row then s
    else { s with ac := { s.ac with size := vbiDoubleSize }, doubleHeight := true }
  else if 0x10 ≤ raw ∧ raw ≤ 0x17 then
    { s with
      ac := { s.ac with foreground := ext.foregroundClut.toNat + (raw &&& 7), conceal := false }
      mosaic := true }
  else if raw = 0x1F then { s with hold := false }
  else if raw = 0x1B then { s with esc := !s.esc }
  else s

def formatChar (row : Nat) (s : RowState) (column : Nat) : RowState :=
  let raw := rawChar p row column
  setAfter ext p row column raw (place column (setUnicode sets ext p raw (setAt ext raw s)))

def formatRow (text : Text) (row : Nat) : RowState :=
  (List.range columns).foldl (formatChar sets ext p row) (startRow ext p text row)

def lowerRow (acp : Nat → VbiChar) : Nat → Nat → (Nat → VbiChar) → Nat → VbiChar
  | 0, _, lower => lower
  | n + 1, column, lower =>
    let ac := acp column
    if extColumns ≤ column then
      lower
    else if ac.size = vbiDoubleHeight then
      lowerRow acp n (column + 1)
        (Function.update lower column { ac with size := vbiDoubleHeight2 })
    else if ac.size = vbiDoubleSize then
      lowerRow acp n (column + 2)
        (Function.update (Function.update lower column { ac with size := vbiDoubleSize2 })
          (column + 1) { ac with size := vbiOverBottom })
    else
      lowerRow acp n (column + 1)
        (Function.update lower column { ac with size := vbiNormalSize, unicode := 0x0020 })

def formatRows (displayRows : Nat) : Nat → Nat → Text → Text
  | 0, _, text => text
  | n + 1, row, text =>
    if displayRows ≤ row then
      text
    else
      let s := formatRow sets ext p text row
      let text := Function.update text row s.acp
      if s.doubleHeight then
        formatRows displayRows n (row + 2)
          (Function.update text (row + 1) (lowerRow s.acp extColumns 0 (text (row + 1))))
      else
        formatRows displayRows n (row + 1) text

def bodyRows : List Nat := List.range' 1 24

def black0 (text : Text) : Bool :=
  bodyRows.all fun row =>
    (text row 0).unicode = 0x0020 ∧
      ((text row 0).background = vbiBlack ∨ (text row 0).background = 32)

def cont39 (text : Text) : Bool :=
  bodyRows.all fun row =>
    !vbiIsGfx (text row 39).unicode ∨ ((text row 38).unicode = (text row 39).unicode ∧
      (text row 38).foreground = (text row 39).foreground ∧
      (text row 38).background = (text row 39).background)

def setLast (text : Text) (row : Nat) (ac : VbiChar) : Text :=
  Function.update text row (Function.update (text row) 40 ac)

/-- `column_41()`, less the cell of a row behind the last one. -/
def column41 (displayRows : Nat) (text : Text) : Text :=
  let text := setLast text 0 { text 0 39 with unicode := 0x0020 }
  if displayRows = 1 then
    text
  else if !black0 text ∧ cont39 text then
    bodyRows.foldl (fun text row =>
      setLast text row (if vbiIsGfx (text row 39).unicode then text row 39
        else { text row 39 with unicode := 0x0020 })) text
  else
    bodyRows.foldl (fun text row => setLast text row (blankChar ext (pageOpacity p 1))) text

/-- `vbi_format_vt_page()` at Level 1.0 without navigation. -/
def vbiFormatVtPage (magazine : Extension) (text : Text) (displayRows : Nat) : Option Text :=
  if p.function ≠ pageFunctionLop ∧ p.function ≠ pageFunctionEacemTrigger then
    none
  else
    let ext := extensionOf magazine p
    let displayRows := max 1 (min displayRows rows)
    some (column41 ext p displayRows (formatRows sets ext p displayRows rows 0 text))

end TeletextFormat

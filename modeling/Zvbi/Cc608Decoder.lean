import Mathlib.Logic.Function.Basic
import Zvbi.Hamming

/-!
# The EIA 608 caption decoder

All eight channels are decoded in parallel. A channel has two buffers, of which one
is displayed, and a snapshot of the displayed one at the last stream event. A mask of
dirty rows goes with each buffer. Events and time stamps are left out.
-/

namespace Cc608Decoder
open Hamming

def firstRow : Nat := 0
def lastRow : Nat := 14
def maxRows : Nat := 15
def firstColumn : Nat := 1
def lastColumn : Nat := 32
def maxColumns : Nat := 32

def allRowsMask : BitVec 32 := (1 <<< maxRows) - 1

inductive FieldNum
  | field1
  | field2
  deriving DecidableEq

inductive Mode
  | unknown
  | rollUp
  | popOn
  | paintOn
  | text
  deriving DecidableEq

/-- `buffer[b]` and `dirty[b]` of a channel. The zeroth column is not visible. -/
structure Screen where
  cell : Nat → Nat → Nat
  dirty : BitVec 32

structure Channel where
  buffer : Fin 3 → Screen
  displayedBuffer : Bool
  currRow : Nat
  currColumn : Nat
  windowRows : Nat
  lastPac : Nat
  uppercasePredictor : BitVec 32
  mode : Mode

/-- The number of a channel bit by bit: caption or text, field 1 or 2, primary or
secondary channel. -/
structure ChannelNum where
  text : Bool
  field : FieldNum
  second : Bool
  deriving DecidableEq

/-- `none` stands for `UNKNOWN_CHANNEL`, or for no repeated control code to be
expected. -/
structure Decoder where
  channel : ChannelNum → Channel
  currChNum : FieldNum → Option ChannelNum
  expectCtrl : FieldNum → Option (Int × Int)
  inXds : FieldNum → Bool
  errorHistory : BitVec 32

/-- `pac_row_map[]`. -/
def pacRowMap (i : Nat) : Option Nat :=
  match i % 16 with
  | 0 => some 10 | 1 => none | 2 => some 0 | 3 => some 1 | 4 => some 2 | 5 => some 3
  | 6 => some 11 | 7 => some 12 | 8 => some 13 | 9 => some 14 | 10 => some 4 | 11 => some 5
  | 12 => some 6 | 13 => some 7 | 14 => some 8 | _ => some 9

namespace Screen

def blank : Screen := ⟨fun _ _ => 0, 0⟩

def setCell (s : Screen) (row column c : Nat) : Screen :=
  { s with cell := fun r i => if r = row ∧ i = column then c else s.cell r i }

def clearFrom (s : Screen) (row column : Nat) : Screen :=
  { s with cell := fun r i =>
      if r = row ∧ column ≤ i ∧ i ≤ lastColumn then 0 else s.cell r i }

/-- `memset()` of `n` rows. -/
def clearRows (s : Screen) (first n : Nat) : Screen :=
  { s with cell := fun r i => if first ≤ r ∧ r < first + n then 0 else s.cell r i }

/-- `memmove()` of `n` rows. -/
def moveRows (s : Screen) (dst src n : Nat) : Screen :=
  { s with cell := fun r i =>
      if dst ≤ r ∧ r < dst + n then s.cell (r - dst + src) i else s.cell r i }

def setDirty (s : Screen) (dirty : BitVec 32) : Screen := { s with dirty := dirty }

/-- `0 != (dirty & (1 << row))`. -/
def isDirty (s : Screen) (row : Nat) : Bool := s.dirty.getLsbD row

/-- The row has a nonzero cell in the columns from the first one up to `column`. -/
def hasCell (s : Screen) (row column : Nat) : Bool :=
  (List.range' firstColumn column).any fun i => s.cell row i != 0

/-- `dirty |= 1 << row`. -/
def markRow (s : Screen) (row : Nat) : Screen := s.setDirty (s.dirty ||| 1#32 <<< row)

/-- `dirty &= ~((0 == c) << row)`. -/
def unmarkRow (s : Screen) (row : Nat) (c : Bool) : Screen :=
  s.setDirty (s.dirty &&& ~~~ ((if c then 0#32 else 1#32) <<< row))

end Screen

namespace Channel

def index (b : Bool) : Fin 3 := if b then 1 else 0

def displayed (ch : Channel) : Screen := ch.buffer (index ch.displayedBuffer)

def currBuffer (ch : Channel) : Bool := ch.displayedBuffer ^^ (ch.mode == .popOn)

def onBuffer (ch : Channel) (b : Fin 3) (f : Screen → Screen) : Channel :=
  { ch with buffer := Function.update ch.buffer b (f (ch.buffer b)) }

def onDisplayed (ch : Channel) (f : Screen → Screen) : Channel :=
  ch.onBuffer (index ch.displayedBuffer) f

/-- The change of `uppercase_predictor` by a displayable character. -/
def predict (predictor : BitVec 32) (c : Nat) : BitVec 32 :=
  if 0x61 ≤ c ∧ c ≤ 0x7A then 0
  else if 0x41 ≤ c ∧ c ≤ 0x5A then
    if predictor + 1 = 0 then predictor else predictor + 1
  else predictor

def storePac (s : Screen) (row column lastPac : Nat) : Screen :=
  if column = firstColumn ∨ s.cell row (column - 1) = 0 then s.setCell row (column - 1) lastPac
  else s

/-- What `put_char()` does with the buffer. -/
def putCell (s : Screen) (row column lastPac c : Nat) (displayable : Bool) : Screen :=
  let s := s.setCell row column c
  if displayable = false ∧ c = 0 then s.unmarkRow row (s.hasCell row lastColumn)
  else (storePac s row column lastPac).markRow row

/-- The column `put_char()` writes to. -/
def putColumn (ch : Channel) (backspace : Bool) : Nat :=
  if backspace ∧ firstColumn < ch.currColumn then ch.currColumn - 1 else ch.currColumn

def putChar (ch : Channel) (c : Nat) (displayable backspace : Bool) : Channel :=
  { ch.onBuffer (index ch.currBuffer) fun s =>
      putCell s ch.currRow (ch.putColumn backspace) ch.lastPac c displayable with
    currColumn :=
      if backspace = false ∧ ch.currColumn < lastColumn then ch.currColumn + 1
      else ch.currColumn
    uppercasePredictor :=
      if displayable then predict ch.uppercasePredictor c else ch.uppercasePredictor }

def extControlCode (ch : Channel) (c2 : Nat) : Channel :=
  if 0x21 ≤ c2 ∧ c2 ≤ 0x23 then
    { ch with currColumn := min (ch.currColumn + (c2 &&& 3)) lastColumn }
  else if 0x2D ≤ c2 ∧ c2 ≤ 0x2F then
    ch.putChar (0x1700 ||| c2) false true
  else
    ch

/-- The comparison of a cell with its snapshot in `stream_event_if_changed()`. -/
def cellChanged (c1 c2 : Nat) : Bool :=
  let c1 :=
    if 0x1040 ≤ c1 then
      if c1 < 0x1120 then 0
      else if c1 < 0x1130 ∨ 0x1428 ≤ c1 then 0x20
      else c1
    else c1
  if 0x1040 ≤ c2 then
    if c2 < 0x1120 then c1 != 0
    else if c2 < 0x1130 ∨ 0x1428 ≤ c2 then 0x20 != c2
    else c1 != c2
  else c1 != c2

def rowChanged (ch : Channel) : Bool :=
  ch.displayed.isDirty ch.currRow &&
    (List.range' firstColumn maxColumns).any fun i =>
      cellChanged (ch.displayed.cell ch.currRow i) ((ch.buffer 2).cell ch.currRow i)

/-- `stream_event_if_changed()`. -/
def streamEventIfChanged (ch : Channel) : Channel :=
  if ch.rowChanged then
    ch.onBuffer 2 fun s =>
      { cell := fun r i => if r = ch.currRow then ch.displayed.cell r i else s.cell r i
        dirty := ch.displayed.dirty }
  else
    ch

def eventIfPaintOn (ch : Channel) : Channel :=
  if ch.mode = .paintOn then ch.streamEventIfChanged else ch

def endOfCaption (ch : Channel) : Channel :=
  if ch.mode = .text then ch
  else
    { ch.eventIfPaintOn with
      displayedBuffer := !ch.displayedBuffer
      mode := .popOn }

def scroll (s : Screen) (row windowRows : Nat) : Screen :=
  let firstRow := row + 1 - windowRows
  ((s.moveRows firstRow (firstRow + 1) (windowRows - 1)).setDirty (s.dirty >>> 1)).clearRows row 1

def carriageReturn (ch : Channel) : Channel :=
  match ch.mode with
  | .unknown | .popOn | .paintOn => ch
  | .rollUp =>
    let ch := { ch with currColumn := firstColumn, lastPac := 0 }
    if ch.displayed.dirty = 0 then ch
    else ch.onDisplayed fun s => scroll s ch.currRow (min (ch.currRow + 1 - firstRow) ch.windowRows)
  | .text =>
    let ch := { ch with currColumn := firstColumn, lastPac := 0 }
    if ch.currRow ≠ lastRow then { ch with currRow := ch.currRow + 1 }
    else if ch.displayed.dirty = 0 then ch
    else ch.onDisplayed fun s => scroll s ch.currRow maxRows

def eraseMemory (ch : Channel) (b : Bool) : Channel :=
  if (ch.buffer (index b)).dirty ≠ 0 then ch.onBuffer (index b) fun _ => Screen.blank else ch

def eraseDisplayedMemory (ch : Channel) : Channel :=
  if ch.mode = .text then ch
  else
    let ch := ch.eventIfPaintOn
    ch.eraseMemory ch.displayedBuffer

def textRestart (ch : Channel) : Channel :=
  { ch.eraseMemory ch.displayedBuffer with
    currRow := firstRow
    currColumn := firstColumn }

/-- `resume_direct_captioning()`. The snapshot of the rows is taken, but not that of
their dirty bits. -/
def resumeDirectCaptioning (ch : Channel) : Channel :=
  match ch.mode with
  | .text => ch
  | .paintOn => { ch with mode := .paintOn }
  | .unknown | .popOn | .rollUp =>
    { ch.onBuffer 2 fun s => { s with cell := ch.displayed.cell } with mode := .paintOn }

def resizeWindow (ch : Channel) (newRows : Nat) : Channel :=
  if ch.displayed.dirty = 0 then ch
  else
    let row1 := ch.currRow + 1
    let maxRows := row1 - firstRow
    let oldRows := min ch.windowRows maxRows
    let newRows := min newRows maxRows
    if newRows = 0 ∨ oldRows ≤ newRows then ch
    else
      ch.onDisplayed fun s =>
        (s.clearRows (row1 - oldRows) (oldRows - newRows)).setDirty
          (s.dirty &&& (-1#32) <<< (row1 - newRows))

def rollUpCaption (ch : Channel) (c2 : Nat) : Channel :=
  let windowRows := (c2 &&& 7) - 3
  match ch.mode with
  | .text => ch
  | .rollUp => { ch.resizeWindow windowRows with mode := .rollUp, windowRows := windowRows }
  | .unknown => { ch with mode := .rollUp, windowRows := windowRows }
  | .paintOn | .popOn =>
    let ch := { ch.eventIfPaintOn with
      mode := .rollUp
      windowRows := windowRows
      currRow := lastRow
      currColumn := firstColumn }
    (ch.eraseMemory ch.displayedBuffer).eraseMemory (!ch.displayedBuffer)

def deleteToEndOfRow (ch : Channel) : Channel :=
  if (ch.buffer (index ch.currBuffer)).isDirty ch.currRow then
    ch.onBuffer (index ch.currBuffer) fun s =>
      let s := s.clearFrom ch.currRow ch.currColumn
      s.unmarkRow ch.currRow (s.hasCell ch.currRow (ch.currColumn - firstColumn))
  else
    ch

def backspace (ch : Channel) : Channel :=
  if ch.currColumn ≤ firstColumn then ch
  else
    let ch := { ch with currColumn := ch.currColumn - 1 }
    if (ch.buffer (index ch.currBuffer)).cell ch.currRow ch.currColumn ≠ 0 then
      ch.onBuffer (index ch.currBuffer) fun s =>
        let s := s.setCell ch.currRow ch.currColumn 0
        s.unmarkRow ch.currRow (s.hasCell ch.currRow lastColumn)
    else
      ch

def resumeCaptionLoading (ch : Channel) : Channel :=
  if ch.mode = .text then ch else { ch.eventIfPaintOn with mode := .popOn }

/-- `move_window()`, in rows where the source counts bytes. -/
def moveWindow (ch : Channel) (newBaseRow : Nat) : Channel :=
  if newBaseRow = ch.currRow ∨ ch.displayed.dirty = 0 then ch
  else
    let oldMaxRows := ch.currRow + 1 - firstRow
    let newMaxRows := newBaseRow + 1 - firstRow
    let copyRows := min (min oldMaxRows newMaxRows) ch.windowRows
    if newBaseRow < ch.currRow then
      let eraseBegin := newBaseRow + 1
      let eraseEnd := ch.currRow + 1
      ch.onDisplayed fun s =>
        ((s.moveRows (eraseBegin - copyRows) (eraseEnd - copyRows) copyRows).setDirty
          (s.dirty >>> (ch.currRow - newBaseRow))).clearRows eraseBegin (eraseEnd - eraseBegin)
    else
      let eraseBegin := ch.currRow + 1 - copyRows
      let eraseEnd := newBaseRow + 1 - copyRows
      ch.onDisplayed fun s =>
        ((s.moveRows eraseEnd eraseBegin copyRows).setDirty
          (s.dirty <<< (newBaseRow - ch.currRow) &&& allRowsMask)).clearRows eraseBegin
            (eraseEnd - eraseBegin)

def addressColumn (ch : Channel) (c2 : Nat) : Channel :=
  { ch with
    currColumn := if c2 &&& 0x10 ≠ 0 then firstColumn + (c2 &&& 0x0E) * 2 else ch.currColumn
    lastPac := 0x1000 ||| c2 }

def preambleAddressCode (ch : Channel) (c1 c2 : Nat) : Channel :=
  match pacRowMap ((c1 &&& 7) * 2 + (c2 >>> 5 &&& 1)) with
  | none => ch
  | some row =>
    match ch.mode with
    | .unknown => ch
    | .rollUp =>
      let row := if row + 1 < ch.windowRows then ch.windowRows - 1 else row
      addressColumn { ch.moveWindow row with currRow := row } c2
    | .paintOn | .popOn => addressColumn { ch.eventIfPaintOn with currRow := row } c2
    | .text => ch.addressColumn c2

/-- `characters()`, and what it returns. -/
def characters (ch : Channel) (c : Int) : Channel × Bool :=
  if c = 0 then (ch, true)
  else if c < 0x20 then
    (if c < 0 ∧ ch.mode ≠ .unknown then ch.putChar 0x7F true false else ch, false)
  else
    (if ch.mode ≠ .unknown then ch.putChar c.toNat true false else ch, true)

end Channel

namespace Decoder

def onChannel (d : Decoder) (k : ChannelNum) (f : Channel → Channel) : Decoder :=
  { d with channel := Function.update d.channel k (f (d.channel k)) }

def switchChannel (d : Decoder) (k : ChannelNum) (f : FieldNum) : Decoder :=
  { d with currChNum := Function.update d.currChNum f (some k) }

def setExpect (d : Decoder) (f : FieldNum) (e : Option (Int × Int)) : Decoder :=
  { d with expectCtrl := Function.update d.expectCtrl f e }

def setXds (d : Decoder) (f : FieldNum) (b : Bool) : Decoder :=
  { d with inXds := Function.update d.inXds f b }

def remember (d : Decoder) (successful : Bool) : Decoder :=
  { d with errorHistory := d.errorHistory * 2 + if successful then 1 else 0 }

def active (d : Decoder) (k : ChannelNum) (f : FieldNum) : Bool :=
  (d.currChNum f).isSome && (d.channel k).mode != .unknown

def onActive (d : Decoder) (k : ChannelNum) (f : FieldNum) (g : Channel → Channel) : Decoder :=
  if d.active k f then d.onChannel k g else d

/-- `misc_control_code()` for channel `k`. -/
def miscControlCode (d : Decoder) (k : ChannelNum) (c2 : Nat) (f : FieldNum) : Decoder :=
  let caption := { k with text := false }
  let text := { k with text := true }
  match c2 &&& 15 with
  | 0 => (d.switchChannel caption f).onChannel caption Channel.resumeCaptionLoading
  | 1 => d.onActive k f Channel.backspace
  | 4 => d.onActive k f Channel.deleteToEndOfRow
  | 5 | 6 | 7 => (d.switchChannel caption f).onChannel caption fun ch => ch.rollUpCaption c2
  | 8 => d.onActive k f fun ch => ch.putChar 0x1428 false false
  | 9 => (d.switchChannel caption f).onChannel caption Channel.resumeDirectCaptioning
  | 10 => (d.switchChannel text f).onChannel text Channel.textRestart
  | 11 => d.switchChannel text f
  | 12 => d.onChannel caption Channel.eraseDisplayedMemory
  | 13 => if (d.currChNum f).isSome then d.onChannel k Channel.carriageReturn else d
  | 14 => d.onChannel caption fun ch => ch.eraseMemory (!ch.displayedBuffer)
  | 15 => (d.switchChannel caption f).onChannel caption Channel.endOfCaption
  | _ => d

def controlChannel (d : Decoder) (c1 : Nat) (f : FieldNum) : ChannelNum :=
  ⟨(d.currChNum f).elim true ChannelNum.text, f, c1.testBit 3⟩

def controlCode (d : Decoder) (c1 c2 : Nat) (f : FieldNum) : Decoder :=
  let k := d.controlChannel c1 f
  if 0x40 ≤ c2 then
    if (d.currChNum f).isSome then d.onChannel k fun ch => ch.preambleAddressCode c1 c2 else d
  else
    match c1 &&& 7 with
    | 0 =>
      if c2 < 0x30 then d.onActive k f fun ch => ch.putChar (0x1000 ||| c2) false true else d
    | 1 =>
      d.onActive k f fun ch =>
        if c2 < 0x30 then ch.putChar (0x1100 ||| c2) false false
        else if c2 = 0x39 then ch.putChar 0 false false
        else ch.putChar (0x1100 ||| c2) true false
    | 2 | 3 => d.onActive k f fun ch => ch.putChar ((c1 * 256 + c2) &&& 0x777F) true true
    | 4 | 5 => if c2 < 0x30 then d.miscControlCode k c2 f else d
    | 7 => d.onActive k f fun ch => ch.extControlCode c2
    | _ => d

def characterChannel (d : Decoder) (f : FieldNum) : Option ChannelNum :=
  (d.currChNum f).map fun k => { k with field := f }

def feedCharacters (d : Decoder) (c1 c2 : Int) (f : FieldNum) : Decoder × Bool :=
  match d.characterChannel f with
  | none => (d, true)
  | some k =>
    let first := (d.channel k).characters c1
    let second := first.1.characters c2
    (d.onChannel k fun _ => second.1, first.2 && second.2)

def lineField (line : Nat) : Option FieldNum :=
  if line = 21 ∨ line = 22 then some .field1 else if line = 284 then some .field2 else none

def feedField (d : Decoder) (c1 c2 : Int) (f : FieldNum) : Decoder × Bool :=
  let parityError (d : Decoder) := (d.setExpect f none, false)
  if c1 < 0 then
    parityError d
  else if d.expectCtrl f = some (c1, c2) then
    -- already acted upon
    (d.setExpect f none, true)
  else if 0x10 ≤ c1 ∧ c1 < 0x20 then
    let d := d.setXds f false
    if c2 < 0x20 then parityError d
    else ((d.controlCode c1.toNat c2.toNat f).setExpect f (some (c1, c2)), true)
  else
    let d := d.setExpect f none
    if c1 < 0x10 then
      if f = .field1 then d.feedCharacters 0 c2 f
      else if c1 = 0x0F then (d.setXds .field2 false, true)
      else if 0x01 ≤ c1 then (d.setXds .field2 true, true)
      else d.feedCharacters c1 c2 f
    else
      d.feedCharacters c1 c2 f

/-- `_vbi_cc608_decoder_feed()`. -/
def feed (d : Decoder) (buffer : UInt8 × UInt8) (line : Nat) : Decoder × Bool :=
  match lineField line with
  | none => (d, false)
  | some f =>
    let r := d.feedField (vbiUnpar8 buffer.1) (vbiUnpar8 buffer.2) f
    (r.1.remember r.2, r.2)

/-- What `_vbi_cc608_decoder_reset()` does with a channel. -/
def resetChannel (k : ChannelNum) (ch : Channel) : Channel :=
  { ch with
    mode := if k.text then .text else .unknown
    currRow := if k.text then firstRow else lastRow
    currColumn := firstColumn
    windowRows := if k.text then 0 else 4
    displayedBuffer := false
    lastPac := 0
    buffer := fun _ => Screen.blank }

/-- `_vbi_cc608_decoder_reset()`. -/
def reset (d : Decoder) : Decoder :=
  { d with
    channel := fun k => resetChannel k (d.channel k)
    currChNum := fun _ => none
    expectCtrl := fun _ => none
    inXds := fun _ => false }

/-- `_vbi_cc608_decoder_init()`. -/
def init : Decoder :=
  reset
    { channel := fun _ => ⟨fun _ => Screen.blank, false, 0, 0, 0, 0, 0, .unknown⟩
      currChNum := fun _ => none
      expectCtrl := fun _ => none
      inXds := fun _ => false
      errorHistory := 0 }

/-- A call of `_vbi_cc608_decoder_feed()` or `_vbi_cc608_decoder_reset()`. -/
inductive Op
  | feed (buffer : UInt8 × UInt8) (line : Nat)
  | reset

def step (d : Decoder) : Op → Decoder
  | .feed buffer line => (d.feed buffer line).1
  | .reset => d.reset

def run (ops : List Op) : Decoder := ops.foldl step init

end Decoder

end Cc608Decoder

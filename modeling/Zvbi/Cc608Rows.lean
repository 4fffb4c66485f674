import Zvbi.Cc608Commands

/-!
# The rows of a caption channel

Every command keeps the cursor on the screen, the codes in the cells and the preamble
address codes in the zeroth column. The window of a roll-up channel is clipped at the
first row wherever it is used.
-/

namespace Cc608Rows
open Cc608Decoder Cc608Decoder.Decoder Cc608Format Cc608Commands

/-- What may be stored in row `r` and column `i`, where nothing is stored off the screen. -/
structure Placed (r i c : Nat) : Prop where
  code : Code c
  zeroth : i = 0 → Preamble c
  inside : maxRows ≤ r ∨ lastColumn < i → c = 0

def OnScreen (column : Nat) : Prop := firstColumn ≤ column ∧ column ≤ lastColumn

def ScreenValid (s : Screen) : Prop := ∀ r i, Placed r i (s.cell r i)

structure ChannelValid (ch : Channel) : Prop where
  screens : ∀ b, ScreenValid (ch.buffer b)
  row : ch.currRow ≤ lastRow
  column : OnScreen ch.currColumn
  pac : Preamble ch.lastPac
  window : ch.mode = .rollUp → 2 ≤ ch.windowRows ∧ ch.windowRows ≤ 4

theorem placed_zero (r i : Nat) : Placed r i 0 :=
  ⟨Or.inl (Or.inl rfl), fun _ => Or.inl rfl, fun _ => rfl⟩

variable {c i r column row windowRows c2 : Nat}

theorem placed_code (hr : r ≤ lastRow) (hi : OnScreen i) (h : Code c) : Placed r i c := by
  have hrow : r < maxRows := Nat.lt_succ_of_le hr
  have hcolumn : 0 < i := hi.1
  refine ⟨h, fun hz => absurd hz hcolumn.ne', ?_⟩
  rintro (hout | hout)
  · exact absurd hout (Nat.not_le.mpr hrow)
  · exact absurd hi.2 (Nat.not_le.mpr hout)

theorem placed_preamble (hr : r ≤ lastRow) (hi : i ≤ lastColumn) (h : Preamble c) :
    Placed r i c := by
  have hrow : r < maxRows := Nat.lt_succ_of_le hr
  refine ⟨Or.inl h, fun _ => h, ?_⟩
  rintro (hout | hout)
  · exact absurd hout (Nat.not_le.mpr hrow)
  · exact absurd hi (Nat.not_le.mpr hout)

theorem firstColumn_onScreen : OnScreen firstColumn := ⟨Nat.le_refl _, by decide⟩

theorem Placed.move {r' : Nat} (h : Placed r i c) (hr : r' < maxRows) : Placed r' i c := by
  refine ⟨h.code, h.zeroth, ?_⟩
  rintro (hout | hout)
  · exact absurd hout (Nat.not_le.mpr hr)
  · exact h.inside (Or.inr hout)

namespace ScreenValid
variable {s : Screen}

theorem blank : ScreenValid Screen.blank := placed_zero

theorem setDirty (h : ScreenValid s) (m : BitVec 32) : ScreenValid (s.setDirty m) := h

theorem setCell (h : ScreenValid s) (hc : Placed row column c) :
    ScreenValid (s.setCell row column c) := by
  intro r i
  show Placed r i (if r = row ∧ i = column then c else s.cell r i)
  split
  · rename_i hpos
    rw [hpos.1, hpos.2]
    exact hc
  · exact h r i

theorem clearFrom (h : ScreenValid s) (row column : Nat) :
    ScreenValid (s.clearFrom row column) := by
  intro r i
  show Placed r i (if r = row ∧ column ≤ i ∧ i ≤ lastColumn then 0 else s.cell r i)
  split
  · exact placed_zero r i
  · exact h r i

theorem clearRows (h : ScreenValid s) (first n : Nat) : ScreenValid (s.clearRows first n) := by
  intro r i
  show Placed r i (if first ≤ r ∧ r < first + n then 0 else s.cell r i)
  split
  · exact placed_zero r i
  · exact h r i

theorem moveRows (h : ScreenValid s) {dst src n : Nat} (hn : dst + n ≤ maxRows) :
    ScreenValid (s.moveRows dst src n) := by
  intro r i
  show Placed r i (if dst ≤ r ∧ r < dst + n then s.cell (r - dst + src) i else s.cell r i)
  split
  · rename_i hrow
    exact (h (r - dst + src) i).move (Nat.lt_of_lt_of_le hrow.2 hn)
  · exact h r i

theorem markRow (h : ScreenValid s) (row : Nat) : ScreenValid (s.markRow row) := h

theorem unmarkRow (h : ScreenValid s) (row : Nat) (c : Bool) : ScreenValid (s.unmarkRow row c) := h

theorem storePac (h : ScreenValid s) {lastPac : Nat} (hr : row ≤ lastRow) (hc : column ≤ lastColumn)
    (hpac : Preamble lastPac) : ScreenValid (Channel.storePac s row column lastPac) := by
  rw [Channel.storePac]
  split
  · exact h.setCell (placed_preamble hr (Nat.le_trans (Nat.sub_le column 1) hc) hpac)
  · exact h

theorem putCell (h : ScreenValid s) {lastPac : Nat} (hr : row ≤ lastRow) (hcolumn : OnScreen column)
    (hpac : Preamble lastPac) (hc : Code c) (displayable : Bool) :
    ScreenValid (Channel.putCell s row column lastPac c displayable) := by
  have hset := h.setCell (placed_code hr hcolumn hc)
  rw [Channel.putCell]
  split
  · exact hset.unmarkRow row _
  · exact (hset.storePac hr hcolumn.2 hpac).markRow row

theorem scroll (h : ScreenValid s) (hr : row ≤ lastRow) (hw : windowRows ≤ row + 1) :
    ScreenValid (Channel.scroll s row windowRows) := by
  have hrow : row < maxRows := Nat.lt_succ_of_le hr
  exact ((h.moveRows (by omega)).setDirty _).clearRows row 1

end ScreenValid

namespace ChannelValid
variable {ch : Channel}

theorem onBuffer (h : ChannelValid ch) (b : Fin 3) {f : Screen → Screen}
    (hf : ScreenValid (f (ch.buffer b))) : ChannelValid (ch.onBuffer b f) := by
  refine ⟨fun b' => ?_, h.row, h.column, h.pac, h.window⟩
  show ScreenValid (Function.update ch.buffer b (f (ch.buffer b)) b')
  by_cases hb : b' = b
  · rw [hb, Function.update_self]
    exact hf
  · rw [Function.update_of_ne hb]
    exact h.screens b'

theorem displayed (h : ChannelValid ch) : ScreenValid ch.displayed := h.screens _

theorem reset (k : ChannelNum) (ch : Channel) : ChannelValid (resetChannel k ch) := by
  refine ⟨fun _ => ScreenValid.blank, ?_, firstColumn_onScreen, Or.inl rfl, ?_⟩
  · show (if k.text then firstRow else lastRow) ≤ lastRow
    split <;> decide
  · show (if k.text then Mode.text else Mode.unknown) = .rollUp → _
    split
    · intro hmode
      exact absurd hmode (by decide)
    · intro hmode
      exact absurd hmode (by decide)

theorem putColumn (h : ChannelValid ch) (bs : Bool) :
    OnScreen (ch.putColumn bs) := by
  have hcolumn := h.column
  rw [Channel.putColumn]
  split
  · rw [OnScreen] at hcolumn ⊢
    omega
  · exact hcolumn

theorem putChar (h : ChannelValid ch) (hc : Code c) (displayable bs : Bool) :
    ChannelValid (ch.putChar c displayable bs) := by
  have hbuffer := h.onBuffer (Channel.index ch.currBuffer)
    (f := fun s => Channel.putCell s ch.currRow (ch.putColumn bs) ch.lastPac c displayable)
    ((h.screens _).putCell h.row (h.putColumn bs) h.pac hc displayable)
  have hcolumn := h.column
  refine ⟨hbuffer.screens, h.row, ?_, h.pac, h.window⟩
  show OnScreen (if bs = false ∧ ch.currColumn < lastColumn then ch.currColumn + 1
    else ch.currColumn)
  split
  · rw [OnScreen] at hcolumn ⊢
    omega
  · exact hcolumn

theorem extControlCode (h : ChannelValid ch) (c2 : Nat) : ChannelValid (ch.extControlCode c2) := by
  rw [Channel.extControlCode]
  split
  · have hcolumn := h.column
    refine ⟨h.screens, h.row, ?_, h.pac, h.window⟩
    show OnScreen (min (ch.currColumn + (c2 &&& 3)) lastColumn)
    rw [OnScreen] at hcolumn ⊢
    have hwidth : firstColumn ≤ lastColumn := by decide
    omega
  split
  · rename_i hc
    have hcode : ∀ c2 < 0x30, 0x2D ≤ c2 → Code (0x1700 ||| c2) := by decide
    exact h.putChar (hcode c2 (by omega) hc.1) false true
  · exact h

theorem streamEventIfChanged (h : ChannelValid ch) : ChannelValid ch.streamEventIfChanged := by
  rw [Channel.streamEventIfChanged]
  split
  · apply h.onBuffer
    intro r i
    show Placed r i (if r = ch.currRow then ch.displayed.cell r i else _)
    split
    · exact h.displayed r i
    · exact h.screens 2 r i
  · exact h

theorem eventIfPaintOn (h : ChannelValid ch) : ChannelValid ch.eventIfPaintOn := by
  rw [Channel.eventIfPaintOn]
  split
  · exact h.streamEventIfChanged
  · exact h

/-- In another mode than roll-up the window does not matter. -/
theorem setMode (h : ChannelValid ch) (mode : Mode) (hmode : mode ≠ .rollUp) :
    ChannelValid { ch with mode := mode } :=
  ⟨h.screens, h.row, h.column, h.pac, fun hroll => absurd hroll hmode⟩

theorem endOfCaption (h : ChannelValid ch) : ChannelValid ch.endOfCaption := by
  rw [Channel.endOfCaption]
  split
  · exact h
  · have hevent := h.eventIfPaintOn.setMode .popOn (by decide)
    exact ⟨hevent.screens, hevent.row, hevent.column, hevent.pac, hevent.window⟩

theorem homeColumn (h : ChannelValid ch) :
    ChannelValid { ch with currColumn := firstColumn, lastPac := 0 } :=
  ⟨h.screens, h.row, firstColumn_onScreen, Or.inl rfl, h.window⟩

theorem onScroll (h : ChannelValid ch) (hw : windowRows ≤ ch.currRow + 1) :
    ChannelValid (ch.onDisplayed fun s => Channel.scroll s ch.currRow windowRows) :=
  h.onBuffer _ ((h.screens _).scroll h.row hw)

theorem carriageReturn (h : ChannelValid ch) : ChannelValid ch.carriageReturn := by
  unfold Channel.carriageReturn
  split
  · exact h
  · exact h
  · exact h
  · dsimp only
    split
    · exact h.homeColumn
    · exact h.homeColumn.onScroll (Nat.min_le_left _ _)
  · dsimp only
    split
    · rename_i hrow
      have hlast : ch.currRow < lastRow := Nat.lt_of_le_of_ne h.row hrow
      have hhome := h.homeColumn
      exact ⟨hhome.screens, hlast, hhome.column, hhome.pac, hhome.window⟩
    split
    · exact h.homeColumn
    · rename_i hrow _
      have hlast : ch.currRow = lastRow := not_not.mp hrow
      exact h.homeColumn.onScroll (by rw [hlast]; decide)

theorem eraseMemory (h : ChannelValid ch) (b : Bool) : ChannelValid (ch.eraseMemory b) := by
  rw [Channel.eraseMemory]
  split
  · exact h.onBuffer _ ScreenValid.blank
  · exact h

theorem eraseDisplayedMemory (h : ChannelValid ch) : ChannelValid ch.eraseDisplayedMemory := by
  rw [Channel.eraseDisplayedMemory]
  split
  · exact h
  · exact h.eventIfPaintOn.eraseMemory _

theorem textRestart (h : ChannelValid ch) : ChannelValid ch.textRestart := by
  have herase := h.eraseMemory ch.displayedBuffer
  exact ⟨herase.screens, Nat.zero_le _, firstColumn_onScreen, herase.pac, herase.window⟩

theorem resumeDirectCaptioning (h : ChannelValid ch) :
    ChannelValid ch.resumeDirectCaptioning := by
  have hcopy : ChannelValid (ch.onBuffer 2 fun s => { s with cell := ch.displayed.cell }) :=
    h.onBuffer 2 h.displayed
  unfold Channel.resumeDirectCaptioning
  split
  · exact h
  · exact h.setMode .paintOn (by decide)
  all_goals exact hcopy.setMode .paintOn (by decide)

theorem resizeWindow (h : ChannelValid ch) (newRows : Nat) :
    ChannelValid (ch.resizeWindow newRows) := by
  unfold Channel.resizeWindow
  dsimp only
  split
  · exact h
  split
  · exact h
  · exact h.onBuffer _ ((h.displayed.clearRows _ _).setDirty _)

theorem setWindow (h : ChannelValid ch) (hw : 2 ≤ windowRows ∧ windowRows ≤ 4) :
    ChannelValid { ch with mode := .rollUp, windowRows := windowRows } :=
  ⟨h.screens, h.row, h.column, h.pac, fun _ => hw⟩

theorem bottomWindow (h : ChannelValid ch) (hw : 2 ≤ windowRows ∧ windowRows ≤ 4) :
    ChannelValid { ch with
      mode := .rollUp
      windowRows := windowRows
      currRow := lastRow
      currColumn := firstColumn } :=
  ⟨h.screens, Nat.le_refl _, firstColumn_onScreen, h.pac, fun _ => hw⟩

theorem rollUpCaption (h : ChannelValid ch) (hc : 5 ≤ c2 &&& 7 ∧ c2 &&& 7 ≤ 7) :
    ChannelValid (ch.rollUpCaption c2) := by
  have hw : 2 ≤ (c2 &&& 7) - 3 ∧ (c2 &&& 7) - 3 ≤ 4 := by omega
  unfold Channel.rollUpCaption
  dsimp only
  split
  · exact h
  · exact (h.resizeWindow _).setWindow hw
  · exact h.setWindow hw
  all_goals exact ((h.eventIfPaintOn.bottomWindow hw).eraseMemory _).eraseMemory _

theorem deleteToEndOfRow (h : ChannelValid ch) : ChannelValid ch.deleteToEndOfRow := by
  unfold Channel.deleteToEndOfRow
  split
  · exact h.onBuffer _ (((h.screens _).clearFrom _ _).unmarkRow _ _)
  · exact h

theorem backColumn (h : ChannelValid ch) (hcolumn : ¬ ch.currColumn ≤ firstColumn) :
    ChannelValid { ch with currColumn := ch.currColumn - 1 } := by
  have hback : OnScreen (ch.currColumn - 1) := by
    have hle := h.column.2
    rw [OnScreen]
    omega
  exact ⟨h.screens, h.row, hback, h.pac, h.window⟩

theorem backspace (h : ChannelValid ch) : ChannelValid ch.backspace := by
  unfold Channel.backspace
  split
  · exact h
  · rename_i hcolumn
    have hback := h.backColumn hcolumn
    dsimp only
    split
    · exact hback.onBuffer _ (((hback.screens _).setCell (placed_zero _ _)).unmarkRow _ _)
    · exact hback

theorem resumeCaptionLoading (h : ChannelValid ch) : ChannelValid ch.resumeCaptionLoading := by
  rw [Channel.resumeCaptionLoading]
  split
  · exact h
  · exact h.eventIfPaintOn.setMode .popOn (by decide)

theorem moveWindow (h : ChannelValid ch) {newBaseRow : Nat} (hrow : newBaseRow ≤ lastRow) :
    ChannelValid (ch.moveWindow newBaseRow) := by
  have hlast : lastRow + 1 = maxRows := rfl
  have hcurr := h.row
  unfold Channel.moveWindow
  dsimp only
  split
  · exact h
  split
  · refine h.onBuffer _ (((h.displayed.moveRows ?_).setDirty _).clearRows _ _)
    rw [firstRow]
    omega
  · refine h.onBuffer _ (((h.displayed.moveRows ?_).setDirty _).clearRows _ _)
    rw [firstRow]
    omega

theorem addressColumn (h : ChannelValid ch) (hc : 0x40 ≤ c2 ∧ c2 < 0x80) :
    ChannelValid (ch.addressColumn c2) := by
  have hpac : ∀ c2 < 0x80, 0x40 ≤ c2 → Preamble (0x1000 ||| c2) := by decide
  have hindent : OnScreen (firstColumn + (c2 &&& 0x0E) * 2) := by
    have hle : c2 &&& 0x0E ≤ 0x0E := Nat.and_le_right
    rw [OnScreen, firstColumn, lastColumn]
    omega
  refine ⟨h.screens, h.row, ?_, hpac c2 hc.2 hc.1, h.window⟩
  show OnScreen (if c2 &&& 0x10 ≠ 0 then firstColumn + (c2 &&& 0x0E) * 2 else ch.currColumn)
  split
  · exact hindent
  · exact h.column

theorem pacRow_le (h : pacRowMap i = some row) : row ≤ lastRow := by
  have hn : i % 16 < 16 := Nat.mod_lt i (by decide)
  rw [pacRowMap] at h
  generalize i % 16 = n at h hn
  interval_cases n
  case «1» => cases h
  all_goals
    cases h
    decide

theorem setRow (h : ChannelValid ch) (hrow : row ≤ lastRow) :
    ChannelValid { ch with currRow := row } :=
  ⟨h.screens, hrow, h.column, h.pac, h.window⟩

/-- The base row addressed in roll-up mode, below the window. -/
theorem baseRow (h : ChannelValid ch) (hmode : ch.mode = .rollUp) (hrow : row ≤ lastRow) :
    (if row + 1 < ch.windowRows then ch.windowRows - 1 else row) ≤ lastRow := by
  have hwindow := h.window hmode
  rw [lastRow] at hrow ⊢
  split <;> omega

theorem preambleAddressCode (h : ChannelValid ch) (c1 : Nat) (hc : 0x40 ≤ c2 ∧ c2 < 0x80) :
    ChannelValid (ch.preambleAddressCode c1 c2) := by
  unfold Channel.preambleAddressCode
  split
  · exact h
  · rename_i row hmap
    have hrow := pacRow_le hmap
    split
    · exact h
    · rename_i hmode
      have hbase := h.baseRow hmode hrow
      exact ((h.moveWindow hbase).setRow hbase).addressColumn hc
    · exact (h.eventIfPaintOn.setRow hrow).addressColumn hc
    · exact (h.eventIfPaintOn.setRow hrow).addressColumn hc
    · exact h.addressColumn hc

theorem characters (h : ChannelValid ch) {c : Int} (hc : c < 0x80) :
    ChannelValid (ch.characters c).1 := by
  unfold Channel.characters
  split
  · exact h
  split
  · dsimp only
    split
    · exact h.putChar (by decide) true false
    · exact h
  · dsimp only
    split
    · exact h.putChar (Or.inr (Or.inl (by omega))) true false
    · exact h

theorem act (h : ChannelValid ch) (c : Command) (hc : c.Allowed ch.mode) :
    ChannelValid (c.act ch) := by
  cases c with
  | resumeCaptionLoading => exact h.resumeCaptionLoading
  | backspace => exact h.backspace
  | deleteToEndOfRow => exact h.deleteToEndOfRow
  | rollUpCaption c2 => exact h.rollUpCaption hc
  | resumeDirectCaptioning => exact h.resumeDirectCaptioning
  | textRestart => exact h.textRestart
  | eraseDisplayedMemory => exact h.eraseDisplayedMemory
  | carriageReturn => exact h.carriageReturn
  | eraseNonDisplayedMemory => exact h.eraseMemory _
  | endOfCaption => exact h.endOfCaption
  | putChar c displayable bs => exact h.putChar hc.2.1 displayable bs
  | extControlCode c2 => exact h.extControlCode c2
  | preambleAddressCode c1 c2 => exact h.preambleAddressCode c1 hc
  | characters c1 c2 => exact (h.characters hc.1).characters hc.2

end ChannelValid

theorem run_valid (ops : List Op) (k : ChannelNum) : ChannelValid ((run ops).channel k) :=
  run_invariant ChannelValid.reset (fun c _ hc h => h.act c hc) ops k

/-- The top row of the roll-up window, which may be above the screen. -/
def windowTop (ch : Channel) : Int := ch.currRow - ch.windowRows + 1

def clippedTop (ch : Channel) : Int :=
  ch.currRow - (min (ch.currRow + 1 - firstRow) ch.windowRows : Nat) + 1

/-- The state of a channel which `format_row()` and the roll-up commands rely on. -/
structure Formattable (ch : Channel) : Prop where
  valid : ChannelValid ch
  window : ch.mode = .rollUp → clippedTop ch = max (firstRow : Int) (windowTop ch) ∧
    firstRow ≤ clippedTop ch ∧ clippedTop ch ≤ ch.currRow
  format : ∀ b row f, ∃ out, formatRow (formatWidth f) (ch.buffer b) row f = some out ∧
    out.length = formatWidth f

theorem not_transparent (h : Code c) : c ≠ 0x1139 := by
  rw [Code, Preamble] at h
  omega

theorem ChannelValid.formattable {ch : Channel} (h : ChannelValid ch) : Formattable ch where
  valid := h
  window hmode := by
    have hrows := h.window hmode
    rw [clippedTop, windowTop, firstRow]
    omega
  format b row f := formatRow_width (ch.buffer b) row ((h.screens b row 0).zeroth rfl)
    (fun i _ _ => not_transparent (h.screens b row i).code) f (Nat.le_refl _)

/-- After every sequence of calls the rows of every channel can be formatted. -/
theorem run_formattable (ops : List Op) (k : ChannelNum) : Formattable ((run ops).channel k) :=
  (run_valid ops k).formattable

def cc1 : ChannelNum := ⟨false, .field1, false⟩

/-- Two rows at the top of the screen, and then four. -/
def tallWindow : List Op := [
  .feed (0x94, 0x25) 21, .feed (0x91, 0x40) 21, .feed (0x94, 0xA7) 21]

theorem tallWindow_top :
    ((run tallWindow).channel cc1).mode = .rollUp ∧
      windowTop ((run tallWindow).channel cc1) = -2 := by
  constructor <;> decide +kernel

end Cc608Rows

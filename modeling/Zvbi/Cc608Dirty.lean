import Zvbi.Cc608Rows
import Zvbi.GuardedRuns

/-!
# Dirty rows

Bit `r` of the mask of a buffer tells whether row `r` has a nonzero cell in a visible
column. Three commands break this: a carriage return shifts the bit of the top row of the
window to the row above, and snapshots are taken of all cells without the mask, or of
one row with the whole mask. All other commands keep it.
-/

namespace Cc608Dirty
open Cc608Decoder Cc608Decoder.Decoder Cc608Format Cc608Commands Cc608Rows

def Occupied (s : Screen) (r : Nat) : Prop := ∃ i, OnScreen i ∧ s.cell r i ≠ 0

def RowsMatch (s : Screen) : Prop := ∀ r, s.isDirty r = true ↔ Occupied s r

variable {r row : Nat} {d : Decoder}

theorem occupied_congr {s s' : Screen} {r' : Nat} (h : ∀ i, s'.cell r i = s.cell r' i) :
    Occupied s' r ↔ Occupied s r' := by
  constructor
  · rintro ⟨i, hi, hc⟩
    exact ⟨i, hi, h i ▸ hc⟩
  · rintro ⟨i, hi, hc⟩
    exact ⟨i, hi, (h i).symm ▸ hc⟩

theorem not_occupied {s : Screen} (h : ∀ i, s.cell r i = 0) : ¬ Occupied s r :=
  fun ⟨i, _, hc⟩ => hc (h i)

theorem hasCell_iff (s : Screen) (row column : Nat) :
    s.hasCell row column = true ↔ ∃ i, firstColumn ≤ i ∧ i ≤ column ∧ s.cell row i ≠ 0 := by
  rw [Screen.hasCell, List.any_eq_true]
  constructor
  · rintro ⟨i, hi, hc⟩
    rw [List.mem_range'_1, firstColumn] at hi
    exact ⟨i, hi.1, by omega, bne_iff_ne.mp hc⟩
  · rintro ⟨i, hfirst, hlast, hc⟩
    refine ⟨i, ?_, bne_iff_ne.mpr hc⟩
    rw [List.mem_range'_1]
    rw [firstColumn] at hfirst ⊢
    omega

theorem hasCell_occupied (s : Screen) (row : Nat) :
    s.hasCell row lastColumn = true ↔ Occupied s row := by
  rw [hasCell_iff]
  constructor
  · rintro ⟨i, hfirst, hlast, hc⟩
    exact ⟨i, ⟨hfirst, hlast⟩, hc⟩
  · rintro ⟨i, hi, hc⟩
    exact ⟨i, hi.1, hi.2, hc⟩

theorem getLsbD_row (hrow : row ≤ lastRow) (r : Nat) :
    (1#32 <<< row).getLsbD r = decide (r = row) := by
  rw [lastRow] at hrow
  rw [BitVec.getLsbD_shiftLeft, BitVec.getLsbD_one]
  by_cases h : r = row
  · subst h
    simp
    omega
  · simp [h]
    omega

theorem isDirty_markRow (s : Screen) (hrow : row ≤ lastRow) (r : Nat) :
    (s.markRow row).isDirty r = (s.isDirty r || decide (r = row)) := by
  show (s.dirty ||| 1#32 <<< row).getLsbD r = (s.dirty.getLsbD r || decide (r = row))
  rw [BitVec.getLsbD_or, getLsbD_row hrow]

theorem isDirty_unmarkRow (s : Screen) (hrow : row ≤ lastRow) (c : Bool) (r : Nat) :
    (s.unmarkRow row c).isDirty r = (s.isDirty r && (decide (r ≠ row) || c)) := by
  show (s.dirty &&& ~~~ ((if c then 0#32 else 1#32) <<< row)).getLsbD r =
    (s.dirty.getLsbD r && (decide (r ≠ row) || c))
  rw [BitVec.getLsbD_and, BitVec.getLsbD_not]
  by_cases hr : r < 32
  · cases c with
    | false =>
      rw [if_neg Bool.false_ne_true, getLsbD_row hrow, decide_eq_true hr, Bool.true_and,
        Bool.or_false, decide_not]
    | true =>
      rw [if_pos rfl, BitVec.zero_shiftLeft, BitVec.getLsbD_zero, decide_eq_true hr, Bool.or_true]
      rfl
  · rw [BitVec.getLsbD_of_ge _ _ (Nat.not_lt.mp hr), Bool.false_and, Bool.false_and]

/-- Every row of the new screen is a row of the old one with its bit, or is cleared. -/
theorem RowsMatch.of_rows {s s' : Screen} (h : RowsMatch s)
    (hrows : ∀ r, (∃ r', (∀ i, s'.cell r i = s.cell r' i) ∧ s'.isDirty r = s.isDirty r') ∨
      (∀ i, s'.cell r i = 0) ∧ s'.isDirty r = false) : RowsMatch s' := by
  intro r
  rcases hrows r with ⟨r', hcell, hdirty⟩ | ⟨hcell, hdirty⟩
  · rw [hdirty, occupied_congr hcell]
    exact h r'
  · rw [hdirty]
    exact iff_of_false Bool.false_ne_true (not_occupied hcell)

variable {column windowRows newRow c2 : Nat} {f : Screen → Screen} {c : Command}

variable {displayable : Bool} {newRows : Nat} {op : Op}

namespace RowsMatch
variable {s s' : Screen}

theorem blank : RowsMatch Screen.blank := by
  intro r
  refine iff_of_false ?_ (not_occupied fun _ => rfl)
  show (0#32).getLsbD r ≠ true
  rw [BitVec.getLsbD_zero]
  exact Bool.false_ne_true

/-- A row gets a nonzero cell and its bit. -/
theorem mark (h : RowsMatch s) (hrow : row ≤ lastRow)
    (hother : ∀ r, r ≠ row → ∀ i, s'.cell r i = s.cell r i) (hdirty : s'.dirty = s.dirty)
    (hoccupied : Occupied s' row) : RowsMatch (s'.markRow row) := by
  intro r
  have hbit : s'.isDirty r = s.isDirty r := by rw [Screen.isDirty, hdirty, Screen.isDirty]
  rw [isDirty_markRow s' hrow, hbit]
  by_cases hr : r = row
  · rw [hr, decide_eq_true rfl, Bool.or_true]
    exact iff_of_true rfl hoccupied
  · rw [decide_eq_false hr, Bool.or_false, h r]
    have hcongr : Occupied s' r ↔ Occupied s r := occupied_congr (hother r hr)
    exact hcongr.symm

/-- Cells of a row are cleared, and its bit if no other cells remain. -/
theorem unmark (h : RowsMatch s) (hrow : row ≤ lastRow)
    (hother : ∀ r, r ≠ row → ∀ i, s'.cell r i = s.cell r i) (hdirty : s'.dirty = s.dirty)
    (hless : Occupied s' row → Occupied s row) {c : Bool} (hc : c = true ↔ Occupied s' row) :
    RowsMatch (s'.unmarkRow row c) := by
  intro r
  have hbit : s'.isDirty r = s.isDirty r := by rw [Screen.isDirty, hdirty, Screen.isDirty]
  rw [isDirty_unmarkRow s' hrow, hbit]
  by_cases hr : r = row
  · subst hr
    rw [decide_eq_false (not_not.mpr rfl), Bool.false_or, Bool.and_eq_true, h r, hc]
    exact and_iff_right_of_imp hless
  · rw [decide_eq_true hr, Bool.true_or, Bool.and_true, h r]
    have hcongr : Occupied s' r ↔ Occupied s r := occupied_congr (hother r hr)
    exact hcongr.symm

theorem putCell (h : RowsMatch s) {lastPac c : Nat} (hrow : row ≤ lastRow)
    (hcolumn : OnScreen column) (hc : displayable = true → c ≠ 0) :
    RowsMatch (Channel.putCell s row column lastPac c displayable) := by
  have hother : ∀ r, r ≠ row → ∀ i, (s.setCell row column c).cell r i = s.cell r i :=
    fun r hr i => if_neg fun hpos => hr hpos.1
  rw [Channel.putCell]
  split
  · rename_i hzero
    refine h.unmark hrow hother rfl ?_ (hasCell_occupied _ row)
    rintro ⟨i, hi, hcell⟩
    refine ⟨i, hi, ?_⟩
    by_cases hpos : i = column
    · rw [hpos] at hcell
      exact absurd ((if_pos ⟨rfl, rfl⟩).trans hzero.2) hcell
    · rwa [show (s.setCell row column c).cell row i = s.cell row i from
        if_neg fun hpair => hpos hpair.2] at hcell
  · rename_i hnonzero
    have hcell : c ≠ 0 := by
      intro hzero
      cases displayable with
      | false => exact hnonzero ⟨rfl, hzero⟩
      | true => exact hc rfl hzero
    rw [Channel.storePac]
    split
    · refine h.mark hrow ?_ rfl ⟨column, hcolumn, ?_⟩
      · intro r hr i
        exact (if_neg fun hpos => hr hpos.1).trans (hother r hr i)
      · have hleft : column ≠ column - 1 := by
          have hpos : 0 < column := hcolumn.1
          omega
        show (if row = row ∧ column = column - 1 then lastPac else
          if row = row ∧ column = column then c else s.cell row column) ≠ 0
        rw [if_neg fun hpair => hleft hpair.2, if_pos ⟨rfl, rfl⟩]
        exact hcell
    · refine h.mark hrow hother rfl ⟨column, hcolumn, ?_⟩
      show (if row = row ∧ column = column then c else s.cell row column) ≠ 0
      rw [if_pos ⟨rfl, rfl⟩]
      exact hcell

theorem clearFrom (h : RowsMatch s) (hrow : row ≤ lastRow) (hcolumn : OnScreen column) :
    RowsMatch ((s.clearFrom row column).unmarkRow row
      ((s.clearFrom row column).hasCell row (column - firstColumn))) := by
  have hcleared : ∀ i, column ≤ i → i ≤ lastColumn → (s.clearFrom row column).cell row i = 0 :=
    fun i hlow hhigh => if_pos ⟨rfl, hlow, hhigh⟩
  have hother : ∀ r, r ≠ row → ∀ i, (s.clearFrom row column).cell r i = s.cell r i :=
    fun r hr i => if_neg fun hpos => hr hpos.1
  refine h.unmark hrow hother rfl ?_ ?_
  · rintro ⟨i, hi, hcell⟩
    refine ⟨i, hi, ?_⟩
    by_cases hpos : column ≤ i
    · exact absurd (hcleared i hpos hi.2) hcell
    · rwa [show (s.clearFrom row column).cell row i = s.cell row i from
        if_neg fun hpair => hpos hpair.2.1] at hcell
  · rw [hasCell_iff]
    constructor
    · rintro ⟨i, hfirst, hlast, hcell⟩
      have hright := hcolumn.2
      exact ⟨i, ⟨hfirst, by omega⟩, hcell⟩
    · rintro ⟨i, hi, hcell⟩
      refine ⟨i, hi.1, ?_, hcell⟩
      by_contra hpos
      rw [firstColumn] at hpos
      exact hcell (hcleared i (by omega) hi.2)

theorem clearCell (h : RowsMatch s) (hrow : row ≤ lastRow) :
    RowsMatch ((s.setCell row column 0).unmarkRow row
      ((s.setCell row column 0).hasCell row lastColumn)) := by
  have hother : ∀ r, r ≠ row → ∀ i, (s.setCell row column 0).cell r i = s.cell r i :=
    fun r hr i => if_neg fun hpos => hr hpos.1
  refine h.unmark hrow hother rfl ?_ (hasCell_occupied _ row)
  rintro ⟨i, hi, hcell⟩
  refine ⟨i, hi, ?_⟩
  by_cases hpos : i = column
  · exact absurd (if_pos ⟨rfl, hpos⟩) hcell
  · rwa [show (s.setCell row column 0).cell row i = s.cell row i from
      if_neg fun hpair => hpos hpair.2] at hcell

end RowsMatch

/-- The bits of rows `first` to `last` only. -/
def Between (s : Screen) (first last : Nat) : Prop :=
  ∀ r, s.isDirty r = true → first ≤ r ∧ r ≤ last

theorem Between.outside {s : Screen} {first last : Nat} (h : Between s first last)
    (hr : r < first ∨ last < r) : s.isDirty r = false := by
  by_contra hdirty
  have hrow := h r (Bool.not_eq_false _ ▸ hdirty)
  omega

theorem isDirty_scroll (s : Screen) (row windowRows r : Nat) :
    (Channel.scroll s row windowRows).isDirty r = s.isDirty (r + 1) := by
  show (s.dirty >>> 1).getLsbD r = s.dirty.getLsbD (r + 1)
  rw [BitVec.getLsbD_ushiftRight, Nat.add_comm]

/-- The rows of the window scroll, if the bit of its top row does not go to a row above. -/
theorem RowsMatch.scroll {s : Screen} (h : RowsMatch s)
    (hrows : 1 ≤ windowRows ∧ windowRows ≤ row + 1)
    (hbetween : Between s (row + 1 - windowRows) row)
    (htop : row + 1 - windowRows = 0 ∨ s.isDirty (row + 1 - windowRows) = false) :
    RowsMatch (Channel.scroll s row windowRows) := by
  obtain ⟨top, htopRow⟩ : ∃ top, row + 1 - windowRows = top := ⟨_, rfl⟩
  have hcell : ∀ r i, (Channel.scroll s row windowRows).cell r i =
      if row ≤ r ∧ r < row + 1 then 0
      else if top ≤ r ∧ r < top + (windowRows - 1) then s.cell (r - top + (top + 1)) i
      else s.cell r i := by
    intro r i
    rw [← htopRow]
    rfl
  rw [htopRow] at hbetween htop
  apply h.of_rows
  intro r
  rw [isDirty_scroll]
  by_cases hbase : r = row
  · refine Or.inr ⟨fun i => ?_, hbetween.outside (by omega)⟩
    rw [hcell, if_pos (by omega)]
  by_cases hinside : top ≤ r ∧ r < row
  · refine Or.inl ⟨r + 1, fun i => ?_, rfl⟩
    rw [hcell, if_neg (by omega), if_pos (by omega), show r - top + (top + 1) = r + 1 by omega]
  · refine Or.inl ⟨r, fun i => ?_, ?_⟩
    · rw [hcell, if_neg (by omega), if_neg (by omega)]
    · rw [hbetween.outside (r := r) (by omega)]
      by_cases habove : r + 1 = top
      · rw [habove]
        exact htop.resolve_left (by omega)
      · exact hbetween.outside (by omega)

theorem isDirty_keepBelow (s : Screen) (n r : Nat) :
    (s.dirty &&& (-1#32) <<< n).getLsbD r = (s.isDirty r && decide (n ≤ r)) := by
  rw [BitVec.getLsbD_and, BitVec.getLsbD_shiftLeft, BitVec.neg_one_eq_allOnes,
    BitVec.getLsbD_allOnes, Screen.isDirty]
  by_cases hr : r < 32
  · rw [decide_eq_true hr, decide_eq_true (show r - n < 32 by omega), Bool.true_and,
      Bool.and_true, ← decide_not, decide_eq_decide.mpr Nat.not_lt]
  · rw [BitVec.getLsbD_of_ge _ _ (Nat.not_lt.mp hr), Bool.false_and, Bool.false_and]

/-- The window shrinks to `newRows` rows. -/
theorem RowsMatch.shrink {s : Screen} (h : RowsMatch s) {oldRows : Nat}
    (hrows : newRows < oldRows ∧ oldRows ≤ row + 1) (hbetween : Between s (row + 1 - oldRows) row) :
    RowsMatch ((s.clearRows (row + 1 - oldRows) (oldRows - newRows)).setDirty
      (s.dirty &&& (-1#32) <<< (row + 1 - newRows))) := by
  have hcell : ∀ r i, ((s.clearRows (row + 1 - oldRows) (oldRows - newRows)).setDirty
      (s.dirty &&& (-1#32) <<< (row + 1 - newRows))).cell r i =
      if row + 1 - oldRows ≤ r ∧ r < row + 1 - oldRows + (oldRows - newRows) then 0
      else s.cell r i := fun r i => rfl
  apply h.of_rows
  intro r
  have hdirty : ((s.clearRows (row + 1 - oldRows) (oldRows - newRows)).setDirty
      (s.dirty &&& (-1#32) <<< (row + 1 - newRows))).isDirty r =
      (s.isDirty r && decide (row + 1 - newRows ≤ r)) := isDirty_keepBelow s _ r
  rw [hdirty]
  by_cases hcleared : row + 1 - oldRows ≤ r ∧ r < row + 1 - newRows
  · refine Or.inr ⟨fun i => ?_, ?_⟩
    · rw [hcell, if_pos (by omega)]
    · rw [decide_eq_false (by omega), Bool.and_false]
  · refine Or.inl ⟨r, fun i => ?_, ?_⟩
    · rw [hcell, if_neg (by omega)]
    · by_cases hbelow : row + 1 - newRows ≤ r
      · rw [decide_eq_true hbelow, Bool.and_true]
      · rw [hbetween.outside (by omega), Bool.false_and]

/-- The screen after `move_window()` to a row above. -/
def moveUp (s : Screen) (row newRow copyRows : Nat) : Screen :=
  ((s.moveRows (newRow + 1 - copyRows) (row + 1 - copyRows) copyRows).setDirty
    (s.dirty >>> (row - newRow))).clearRows (newRow + 1) (row + 1 - (newRow + 1))

theorem isDirty_moveUp (s : Screen) (row newRow copyRows r : Nat) :
    (moveUp s row newRow copyRows).isDirty r = s.isDirty (r + (row - newRow)) := by
  show (s.dirty >>> (row - newRow)).getLsbD r = s.dirty.getLsbD (r + (row - newRow))
  rw [BitVec.getLsbD_ushiftRight, Nat.add_comm]

theorem RowsMatch.moveUp {s : Screen} (h : RowsMatch s) (hnew : newRow < row)
    (hbetween : Between s (row + 1 - windowRows) row) :
    RowsMatch (moveUp s row newRow (min (newRow + 1) windowRows)) := by
  obtain ⟨copyRows, hcopy⟩ : ∃ n, min (newRow + 1) windowRows = n := ⟨_, rfl⟩
  have hcell : ∀ r i, (Cc608Dirty.moveUp s row newRow copyRows).cell r i =
      if newRow + 1 ≤ r ∧ r < newRow + 1 + (row + 1 - (newRow + 1)) then 0
      else if newRow + 1 - copyRows ≤ r ∧ r < newRow + 1 - copyRows + copyRows then
        s.cell (r - (newRow + 1 - copyRows) + (row + 1 - copyRows)) i
      else s.cell r i := fun r i => rfl
  rw [hcopy]
  apply h.of_rows
  intro r
  rw [isDirty_moveUp]
  by_cases hcleared : newRow < r ∧ r ≤ row
  · refine Or.inr ⟨fun i => ?_, hbetween.outside (by omega)⟩
    rw [hcell, if_pos (by omega)]
  by_cases hmoved : newRow + 1 - copyRows ≤ r ∧ r ≤ newRow
  · refine Or.inl ⟨r + (row - newRow), fun i => ?_, rfl⟩
    rw [hcell, if_neg (by omega), if_pos (by omega),
      show r - (newRow + 1 - copyRows) + (row + 1 - copyRows) = r + (row - newRow) by omega]
  · refine Or.inl ⟨r, fun i => ?_, ?_⟩
    · rw [hcell, if_neg (by omega), if_neg (by omega)]
    · rw [hbetween.outside (r := r) (by omega)]
      exact hbetween.outside (by omega)

/-- The screen after `move_window()` to a row below. -/
def moveDown (s : Screen) (row newRow copyRows : Nat) : Screen :=
  ((s.moveRows (newRow + 1 - copyRows) (row + 1 - copyRows) copyRows).setDirty
    (s.dirty <<< (newRow - row) &&& allRowsMask)).clearRows (row + 1 - copyRows)
      (newRow + 1 - copyRows - (row + 1 - copyRows))

theorem isDirty_moveDown (s : Screen) (row newRow copyRows r : Nat) :
    (moveDown s row newRow copyRows).isDirty r =
      (decide (newRow - row ≤ r) && s.isDirty (r - (newRow - row)) && decide (r < maxRows)) := by
  have hmask : ∀ r < 32, allRowsMask.getLsbD r = decide (r < maxRows) := by decide
  show (s.dirty <<< (newRow - row) &&& allRowsMask).getLsbD r = _
  rw [BitVec.getLsbD_and, BitVec.getLsbD_shiftLeft, Screen.isDirty]
  by_cases hr : r < 32
  · rw [hmask r hr, decide_eq_true hr, Bool.true_and, ← decide_not,
      decide_eq_decide.mpr Nat.not_lt]
  · have hmax : ¬ r < maxRows := by
      rw [maxRows]
      omega
    simp only [hr, hmax, decide_false, Bool.false_and, Bool.and_false]

theorem RowsMatch.moveDown {s : Screen} (h : RowsMatch s) (hnew : row < newRow)
    (hlast : newRow ≤ lastRow) (hbetween : Between s (row + 1 - windowRows) row) :
    RowsMatch (moveDown s row newRow (min (row + 1) windowRows)) := by
  obtain ⟨copyRows, hcopy⟩ : ∃ n, min (row + 1) windowRows = n := ⟨_, rfl⟩
  have hcell : ∀ r i, (Cc608Dirty.moveDown s row newRow copyRows).cell r i =
      if row + 1 - copyRows ≤ r ∧
        r < row + 1 - copyRows + (newRow + 1 - copyRows - (row + 1 - copyRows)) then 0
      else if newRow + 1 - copyRows ≤ r ∧ r < newRow + 1 - copyRows + copyRows then
        s.cell (r - (newRow + 1 - copyRows) + (row + 1 - copyRows)) i
      else s.cell r i := fun r i => rfl
  have hoff : ∀ r, r < row + 1 - copyRows ∨ row < r → s.isDirty r = false :=
    fun r hr => hbetween.outside (by omega)
  rw [hcopy]
  apply h.of_rows
  intro r
  rw [isDirty_moveDown]
  by_cases hcleared : row + 1 - copyRows ≤ r ∧ r < newRow + 1 - copyRows
  · refine Or.inr ⟨fun i => ?_, ?_⟩
    · rw [hcell, if_pos (by omega)]
    · by_cases hshift : newRow - row ≤ r
      · rw [hoff _ (by omega), Bool.and_false, Bool.false_and]
      · rw [decide_eq_false hshift, Bool.false_and, Bool.false_and]
  by_cases hmoved : newRow + 1 - copyRows ≤ r ∧ r ≤ newRow
  · refine Or.inl ⟨r - (newRow - row), fun i => ?_, ?_⟩
    · rw [hcell, if_neg (by omega), if_pos (by omega),
        show r - (newRow + 1 - copyRows) + (row + 1 - copyRows) = r - (newRow - row) by omega]
    · rw [decide_eq_true (by omega), decide_eq_true (show r < maxRows from Nat.lt_succ_of_le
        (Nat.le_trans hmoved.2 hlast)), Bool.true_and, Bool.and_true]
  · refine Or.inl ⟨r, fun i => ?_, ?_⟩
    · rw [hcell, if_neg (by omega), if_neg (by omega)]
    · rw [hoff r (by omega)]
      by_cases hshift : newRow - row ≤ r
      · rw [hoff _ (by omega), Bool.and_false, Bool.false_and]
      · rw [decide_eq_false hshift, Bool.false_and, Bool.false_and]

def topRow (ch : Channel) : Nat := ch.currRow + 1 - ch.windowRows

/-- The masks match the buffers, a roll-up channel displays nothing outside its window,
and nothing is displayed before the first command. -/
structure Tracked (ch : Channel) : Prop where
  valid : ChannelValid ch
  rows : ∀ b, RowsMatch (ch.buffer b)
  window : ch.mode = .rollUp → Between ch.displayed (topRow ch) ch.currRow
  unknown : ch.mode = .unknown → ∀ r, ch.displayed.isDirty r = false

def TakesSnapshot : Command → Prop
  | .resumeCaptionLoading | .rollUpCaption _ | .eraseDisplayedMemory | .endOfCaption => True
  | .preambleAddressCode c1 c2 => (pacRowMap ((c1 &&& 7) * 2 + (c2 >>> 5 &&& 1))).isSome
  | _ => False

structure Sound (c : Command) (ch : Channel) : Prop where
  scroll : c = .carriageReturn → ch.mode = .rollUp →
    topRow ch = firstRow ∨ ch.displayed.isDirty (topRow ch) = false
  copy : c = .resumeDirectCaptioning → ch.mode ≠ .text → ch.mode ≠ .paintOn →
    (ch.buffer 2).dirty = ch.displayed.dirty
  snapshot : TakesSnapshot c → ch.mode = .paintOn → ch.rowChanged = true →
    ∀ r, r ≠ ch.currRow → (ch.buffer 2).isDirty r = ch.displayed.isDirty r

theorem not_dirty {s : Screen} (h : s.dirty = 0) (r : Nat) : s.isDirty r = false := by
  rw [Screen.isDirty, h]
  exact BitVec.getLsbD_zero

theorem between_empty {s : Screen} (h : ∀ r, s.isDirty r = false) (first last : Nat) :
    Between s first last :=
  fun r hr => absurd hr (h r ▸ Bool.false_ne_true)

theorem index_ne_two (b : Bool) : Channel.index b ≠ 2 := by
  cases b <;> decide

theorem onBuffer_rows {ch : Channel} (h : ∀ b, RowsMatch (ch.buffer b)) (b : Fin 3)
    (hf : RowsMatch (f (ch.buffer b))) (b' : Fin 3) :
    RowsMatch ((ch.onBuffer b f).buffer b') := by
  show RowsMatch (Function.update ch.buffer b (f (ch.buffer b)) b')
  by_cases hb : b' = b
  · rw [hb, Function.update_self]
    exact hf
  · rw [Function.update_of_ne hb]
    exact h b'

theorem onBuffer_displayed (ch : Channel) {b : Fin 3} (f : Screen → Screen)
    (hb : Channel.index ch.displayedBuffer ≠ b) : (ch.onBuffer b f).displayed = ch.displayed := by
  show Function.update ch.buffer b (f (ch.buffer b)) (Channel.index ch.displayedBuffer) = _
  rw [Function.update_of_ne hb]
  rfl

theorem onDisplayed_displayed (ch : Channel) (f : Screen → Screen) :
    (ch.onDisplayed f).displayed = f ch.displayed := by
  show Function.update ch.buffer _ (f ch.displayed) (Channel.index ch.displayedBuffer) = _
  rw [Function.update_self]

theorem eraseMemory_rows {ch : Channel} (h : ∀ b, RowsMatch (ch.buffer b)) (b : Bool)
    (b' : Fin 3) : RowsMatch ((ch.eraseMemory b).buffer b') := by
  rw [Channel.eraseMemory]
  split
  · exact onBuffer_rows h _ RowsMatch.blank b'
  · exact h b'

theorem eraseMemory_clean (ch : Channel) (r : Nat) :
    (ch.eraseMemory ch.displayedBuffer).displayed.isDirty r = false := by
  rw [Channel.eraseMemory]
  split
  · rw [show (ch.onBuffer (Channel.index ch.displayedBuffer) fun _ => Screen.blank).displayed =
      Screen.blank from onDisplayed_displayed ch fun _ => Screen.blank]
    exact not_dirty rfl r
  · rename_i hclean
    exact not_dirty (not_not.mp hclean) r

theorem eraseMemory_other (ch : Channel) :
    (ch.eraseMemory !ch.displayedBuffer).displayed = ch.displayed := by
  have hindex : Channel.index ch.displayedBuffer ≠ Channel.index !ch.displayedBuffer := by
    cases ch.displayedBuffer <;> decide
  rw [Channel.eraseMemory]
  split
  · exact onBuffer_displayed ch _ hindex
  · rfl

namespace Tracked
variable {ch : Channel}

/-- Outside of roll-up mode only the masks matter. -/
theorem of_mode (hvalid : ChannelValid ch) (hrows : ∀ b, RowsMatch (ch.buffer b))
    (hroll : ch.mode ≠ .rollUp) (hunknown : ch.mode ≠ .unknown) : Tracked ch :=
  ⟨hvalid, hrows, fun h => absurd h hroll, fun h => absurd h hunknown⟩

theorem of_clean (hvalid : ChannelValid ch) (hrows : ∀ b, RowsMatch (ch.buffer b))
    (hclean : ∀ r, ch.displayed.isDirty r = false) : Tracked ch :=
  ⟨hvalid, hrows, fun _ => between_empty hclean _ _, fun _ => hclean⟩

theorem reset (k : ChannelNum) (ch : Channel) : Tracked (resetChannel k ch) :=
  of_clean (ChannelValid.reset k ch) (fun _ => RowsMatch.blank) (not_dirty rfl)

theorem onBuffer (h : Tracked ch) (b : Bool)
    (hvalid : ScreenValid (f (ch.buffer (Channel.index b))))
    (hrows : RowsMatch (f (ch.buffer (Channel.index b))))
    (hmore : ∀ r, (f (ch.buffer (Channel.index b))).isDirty r = true →
      (ch.buffer (Channel.index b)).isDirty r = true ∨ r = ch.currRow ∧ ch.mode ≠ .unknown) :
    Tracked (ch.onBuffer (Channel.index b) f) := by
  have hdisplayed : ∀ r, (ch.onBuffer (Channel.index b) f).displayed.isDirty r = true →
      ch.displayed.isDirty r = true ∨ r = ch.currRow ∧ ch.mode ≠ .unknown := by
    intro r hr
    by_cases hb : Channel.index ch.displayedBuffer = Channel.index b
    · rw [← hb, show (ch.onBuffer (Channel.index ch.displayedBuffer) f).displayed =
        f ch.displayed from onDisplayed_displayed ch f] at hr
      rw [← hb] at hmore
      exact hmore r hr
    · rw [onBuffer_displayed ch f hb] at hr
      exact Or.inl hr
  refine ⟨h.valid.onBuffer _ hvalid, onBuffer_rows h.rows _ hrows, ?_, ?_⟩
  · intro hmode r hr
    have hwindow := h.valid.window hmode
    rcases hdisplayed r hr with hold | ⟨hrow, _⟩
    · exact h.window hmode r hold
    · show ch.currRow + 1 - ch.windowRows ≤ r ∧ r ≤ ch.currRow
      omega
  · intro hmode r
    by_contra hr
    rcases hdisplayed r (Bool.not_eq_false _ ▸ hr) with hold | ⟨_, hknown⟩
    · exact absurd hold (h.unknown hmode r ▸ Bool.false_ne_true)
    · exact hknown hmode

theorem onSnapshot (h : Tracked ch) (hvalid : ChannelValid (ch.onBuffer 2 f))
    (hrows : RowsMatch (f (ch.buffer 2))) : Tracked (ch.onBuffer 2 f) := by
  have hdisplayed := onBuffer_displayed ch f (index_ne_two ch.displayedBuffer)
  refine ⟨hvalid, onBuffer_rows h.rows 2 hrows, ?_, ?_⟩
  · intro hmode
    rw [hdisplayed]
    exact h.window hmode
  · intro hmode
    rw [hdisplayed]
    exact h.unknown hmode

theorem setMode (h : Tracked ch) (mode : Mode) (hroll : mode ≠ .rollUp)
    (hunknown : mode ≠ .unknown) : Tracked { ch with mode := mode } :=
  of_mode (h.valid.setMode mode hroll) h.rows hroll hunknown

theorem putCell_isDirty (s : Screen) (hrow : row ≤ lastRow) (column lastPac c : Nat)
    (displayable : Bool)
    (h : (Channel.putCell s row column lastPac c displayable).isDirty r = true) :
    s.isDirty r = true ∨ r = row := by
  have hpac : ∀ s : Screen, (Channel.storePac s row column lastPac).isDirty r = s.isDirty r := by
    intro s
    rw [Channel.storePac]
    split <;> rfl
  rw [Channel.putCell] at h
  split at h
  · rw [isDirty_unmarkRow _ hrow, Bool.and_eq_true] at h
    exact Or.inl h.1
  · rw [isDirty_markRow _ hrow, hpac, Bool.or_eq_true, decide_eq_true_iff] at h
    exact h

theorem putChar (h : Tracked ch) {c : Nat} (bs : Bool) (hcode : Code c)
    (hc : displayable = true → c ≠ 0) (hmode : ch.mode ≠ .unknown) :
    Tracked (ch.putChar c displayable bs) := by
  have hcolumn := h.valid.putColumn bs
  have hbuffer := h.onBuffer ch.currBuffer
    (f := fun s => Channel.putCell s ch.currRow (ch.putColumn bs) ch.lastPac c displayable)
    ((h.valid.screens _).putCell h.valid.row hcolumn h.valid.pac hcode displayable)
    ((h.rows _).putCell h.valid.row hcolumn hc)
    (fun r hr => (putCell_isDirty _ h.valid.row _ _ c displayable hr).imp_right
      fun hrow => ⟨hrow, hmode⟩)
  exact ⟨h.valid.putChar hcode displayable bs, hbuffer.rows, hbuffer.window, hbuffer.unknown⟩

theorem extControlCode (h : Tracked ch) (c2 : Nat) (hmode : ch.mode ≠ .unknown) :
    Tracked (ch.extControlCode c2) := by
  have hvalid := h.valid.extControlCode c2
  rw [Channel.extControlCode] at hvalid ⊢
  split
  · rename_i htab
    rw [if_pos htab] at hvalid
    exact ⟨hvalid, h.rows, h.window, h.unknown⟩
  split
  · rename_i hc
    have hcode : ∀ c2 < 0x30, 0x2D ≤ c2 → Code (0x1700 ||| c2) := by decide
    exact h.putChar true (hcode c2 (by omega) hc.1) (fun hd => absurd hd Bool.false_ne_true) hmode
  · exact h

theorem characters (h : Tracked ch) {c : Int} (hc : c < 0x80) : Tracked (ch.characters c).1 := by
  unfold Channel.characters
  split
  · exact h
  split
  · dsimp only
    split
    · rename_i hmode
      exact h.putChar false (by decide) (fun _ => by decide) hmode.2
    · exact h
  · rename_i hlow
    dsimp only
    split
    · rename_i hmode
      exact h.putChar false (Or.inr (Or.inl (by omega))) (fun _ => by omega) hmode
    · exact h

/-- The snapshot of one row, if the masks agree on the others. -/
theorem streamEventIfChanged (h : Tracked ch) (hsnapshot : ch.rowChanged = true →
      ∀ r, r ≠ ch.currRow → (ch.buffer 2).isDirty r = ch.displayed.isDirty r) :
    Tracked ch.streamEventIfChanged := by
  have hvalid := h.valid.streamEventIfChanged
  rw [Channel.streamEventIfChanged] at hvalid ⊢
  split
  · rename_i hchanged
    rw [if_pos hchanged] at hvalid
    refine h.onSnapshot hvalid fun r => ?_
    by_cases hr : r = ch.currRow
    · refine (h.rows _ r).trans (occupied_congr fun i => ?_).symm
      exact if_pos hr
    · refine Iff.trans ?_ (((h.rows 2) r).trans (occupied_congr fun i => ?_).symm)
      · rw [hsnapshot hchanged r hr]
        exact Iff.rfl
      · exact if_neg hr
  · exact h

theorem eventIfPaintOn (h : Tracked ch) (hsnapshot : ch.mode = .paintOn → ch.rowChanged = true →
      ∀ r, r ≠ ch.currRow → (ch.buffer 2).isDirty r = ch.displayed.isDirty r) :
    Tracked ch.eventIfPaintOn := by
  rw [Channel.eventIfPaintOn]
  split
  · rename_i hmode
    exact h.streamEventIfChanged (hsnapshot hmode)
  · exact h

end Tracked

theorem eventIfPaintOn_fields (ch : Channel) :
    ch.eventIfPaintOn.mode = ch.mode ∧ ch.eventIfPaintOn.displayedBuffer = ch.displayedBuffer := by
  rw [Channel.eventIfPaintOn]
  split
  · rw [Channel.streamEventIfChanged]
    split
    · exact ⟨rfl, rfl⟩
    · exact ⟨rfl, rfl⟩
  · exact ⟨rfl, rfl⟩

namespace Tracked
variable {ch : Channel}

theorem eraseMemory (h : Tracked ch) (b : Bool) : Tracked (ch.eraseMemory b) := by
  rw [Channel.eraseMemory]
  split
  · exact h.onBuffer b ScreenValid.blank RowsMatch.blank
      fun r hr => absurd hr (not_dirty (s := Screen.blank) rfl r ▸ Bool.false_ne_true)
  · exact h

theorem endOfCaption (h : Tracked ch) (hs : Sound .endOfCaption ch) : Tracked ch.endOfCaption := by
  have hvalid := h.valid.endOfCaption
  rw [Channel.endOfCaption] at hvalid ⊢
  split
  · exact h
  · rename_i hmode
    rw [if_neg hmode] at hvalid
    have hevent := h.eventIfPaintOn (hs.snapshot trivial)
    exact of_mode hvalid hevent.rows (fun h => Mode.noConfusion h) (fun h => Mode.noConfusion h)

theorem resumeCaptionLoading (h : Tracked ch) (hs : Sound .resumeCaptionLoading ch) :
    Tracked ch.resumeCaptionLoading := by
  rw [Channel.resumeCaptionLoading]
  split
  · exact h
  · exact (h.eventIfPaintOn (hs.snapshot trivial)).setMode .popOn (by decide) (by decide)

theorem eraseDisplayedMemory (h : Tracked ch) (hs : Sound .eraseDisplayedMemory ch) :
    Tracked ch.eraseDisplayedMemory := by
  rw [Channel.eraseDisplayedMemory]
  split
  · exact h
  · exact (h.eventIfPaintOn (hs.snapshot trivial)).eraseMemory _

theorem textRestart (h : Tracked ch) : Tracked ch.textRestart :=
  of_clean h.valid.textRestart (eraseMemory_rows h.rows _) (eraseMemory_clean ch)

theorem resumeDirectCaptioning (h : Tracked ch) (hs : Sound .resumeDirectCaptioning ch) :
    Tracked ch.resumeDirectCaptioning := by
  have hcopy : ch.mode ≠ .text → ch.mode ≠ .paintOn →
      Tracked (ch.onBuffer 2 fun s => { s with cell := ch.displayed.cell }) := by
    intro htext hpaint
    have hdirty : ∀ r, (ch.buffer 2).isDirty r = ch.displayed.isDirty r := fun r => by
      rw [Screen.isDirty, hs.copy rfl htext hpaint, Screen.isDirty]
    refine h.onSnapshot (h.valid.onBuffer 2 h.valid.displayed) fun r => ?_
    refine Iff.trans ?_ (h.rows (Channel.index ch.displayedBuffer) r)
    exact (Bool.eq_iff_iff.mp (hdirty r))
  unfold Channel.resumeDirectCaptioning
  split
  · exact h
  · exact h.setMode .paintOn (by decide) (by decide)
  all_goals
    rename_i hmode
    exact (hcopy (hmode ▸ by decide) (hmode ▸ by decide)).setMode .paintOn (by decide) (by decide)

theorem deleteToEndOfRow (h : Tracked ch) : Tracked ch.deleteToEndOfRow := by
  unfold Channel.deleteToEndOfRow
  split
  · refine h.onBuffer ch.currBuffer (((h.valid.screens _).clearFrom _ _).unmarkRow _ _)
      ((h.rows _).clearFrom h.valid.row h.valid.column) fun r hr => ?_
    rw [isDirty_unmarkRow _ h.valid.row, Bool.and_eq_true] at hr
    exact Or.inl hr.1
  · exact h

theorem backspace (h : Tracked ch) : Tracked ch.backspace := by
  unfold Channel.backspace
  split
  · exact h
  · rename_i hcolumn
    have hback : Tracked { ch with currColumn := ch.currColumn - 1 } :=
      ⟨h.valid.backColumn hcolumn, h.rows, h.window, h.unknown⟩
    dsimp only
    split
    · refine hback.onBuffer _ ?_ ((h.rows _).clearCell h.valid.row) fun r hr => ?_
      · exact ((h.valid.screens _).setCell (placed_zero _ _)).unmarkRow _ _
      · rw [isDirty_unmarkRow _ h.valid.row, Bool.and_eq_true] at hr
        exact Or.inl hr.1
    · exact hback

theorem resizeWindow (h : Tracked ch) (hmode : ch.mode = .rollUp) (hnew : 2 ≤ newRows) :
    (∀ b, RowsMatch ((ch.resizeWindow newRows).buffer b)) ∧
      Between (ch.resizeWindow newRows).displayed (ch.currRow + 1 - newRows) ch.currRow := by
  have hwindow := h.window hmode
  unfold Channel.resizeWindow
  dsimp only
  split
  · rename_i hclean
    exact ⟨h.rows, between_empty (not_dirty hclean) _ _⟩
  split
  · rename_i hlarger
    refine ⟨h.rows, fun r hr => ?_⟩
    have hrow := hwindow r hr
    rw [topRow, firstRow] at *
    omega
  · rename_i hsmaller
    obtain ⟨oldRows, hold⟩ : ∃ n, min ch.windowRows (ch.currRow + 1 - firstRow) = n := ⟨_, rfl⟩
    obtain ⟨rows, hrows⟩ : ∃ n, min newRows (ch.currRow + 1 - firstRow) = n := ⟨_, rfl⟩
    rw [hold, hrows] at hsmaller
    rw [hold, hrows]
    rw [firstRow] at hold hrows
    have hbetween : Between ch.displayed (ch.currRow + 1 - oldRows) ch.currRow := by
      intro r hr
      have hrow := hwindow r hr
      rw [topRow] at hrow
      omega
    have hless : rows < oldRows ∧ oldRows ≤ ch.currRow + 1 := by omega
    have hshrink := (h.rows (Channel.index ch.displayedBuffer)).shrink hless hbetween
    refine ⟨onBuffer_rows h.rows _ hshrink, fun r hr => ?_⟩
    rw [onDisplayed_displayed] at hr
    have hdirty := (isDirty_keepBelow ch.displayed (ch.currRow + 1 - rows) r).symm.trans hr
    rw [Bool.and_eq_true, decide_eq_true_iff] at hdirty
    have hrow := hbetween r hdirty.1
    omega

theorem eraseBoth (hvalid : ChannelValid ch) (hrows : ∀ b, RowsMatch (ch.buffer b)) :
    Tracked ((ch.eraseMemory ch.displayedBuffer).eraseMemory !ch.displayedBuffer) := by
  have hbuffer : (ch.eraseMemory ch.displayedBuffer).displayedBuffer = ch.displayedBuffer := by
    rw [Channel.eraseMemory]
    split <;> rfl
  have hother := eraseMemory_other (ch.eraseMemory ch.displayedBuffer)
  rw [hbuffer] at hother
  refine of_clean ((hvalid.eraseMemory _).eraseMemory _)
    (eraseMemory_rows (eraseMemory_rows hrows _) _) fun r => ?_
  rw [hother]
  exact eraseMemory_clean ch r

theorem resizeWindow_currRow (ch : Channel) (newRows : Nat) :
    (ch.resizeWindow newRows).currRow = ch.currRow := by
  unfold Channel.resizeWindow
  dsimp only
  split
  · rfl
  · split <;> rfl

theorem rollUpCaption (h : Tracked ch) (hc : 5 ≤ c2 &&& 7 ∧ c2 &&& 7 ≤ 7)
    (hs : Sound (.rollUpCaption c2) ch) : Tracked (ch.rollUpCaption c2) := by
  have hw : 2 ≤ (c2 &&& 7) - 3 ∧ (c2 &&& 7) - 3 ≤ 4 := by omega
  have hevent := h.eventIfPaintOn (hs.snapshot trivial)
  unfold Channel.rollUpCaption
  dsimp only
  split
  · exact h
  · rename_i hmode
    obtain ⟨hrows, hbetween⟩ := h.resizeWindow hmode hw.1
    refine ⟨(h.valid.resizeWindow _).setWindow hw, hrows, fun _ => ?_,
      fun hunknown => Mode.noConfusion hunknown⟩
    rw [topRow, resizeWindow_currRow]
    exact hbetween
  · rename_i hmode
    exact of_clean (h.valid.setWindow hw) h.rows (h.unknown hmode)
  all_goals exact eraseBoth (hevent.valid.bottomWindow hw) hevent.rows

theorem moveWindow (h : Tracked ch) (hmode : ch.mode = .rollUp) (hrow : newRow ≤ lastRow) :
    (∀ b, RowsMatch ((ch.moveWindow newRow).buffer b)) ∧
      Between (ch.moveWindow newRow).displayed (newRow + 1 - ch.windowRows) newRow := by
  have hwindow := h.window hmode
  have hmatch := h.rows (Channel.index ch.displayedBuffer)
  unfold Channel.moveWindow
  dsimp only
  split
  · rename_i hsame
    refine ⟨h.rows, ?_⟩
    rcases hsame with heq | hclean
    · rw [heq]
      exact hwindow
    · exact between_empty (not_dirty hclean) _ _
  split
  · rename_i hup
    have hcopy : min (min (ch.currRow + 1 - firstRow) (newRow + 1 - firstRow)) ch.windowRows =
        min (newRow + 1) ch.windowRows := by
      rw [firstRow]
      omega
    rw [hcopy]
    refine ⟨onBuffer_rows h.rows _ (hmatch.moveUp hup hwindow), fun r hr => ?_⟩
    rw [onDisplayed_displayed] at hr
    have hold := hwindow _ ((isDirty_moveUp ch.displayed _ _ _ r).symm.trans hr)
    rw [topRow] at hold
    omega
  · rename_i hsame hup
    have hdown : ch.currRow < newRow := by omega
    have hcopy : min (min (ch.currRow + 1 - firstRow) (newRow + 1 - firstRow)) ch.windowRows =
        min (ch.currRow + 1) ch.windowRows := by
      rw [firstRow]
      omega
    rw [hcopy]
    refine ⟨onBuffer_rows h.rows _ (hmatch.moveDown hdown hrow hwindow), fun r hr => ?_⟩
    rw [onDisplayed_displayed] at hr
    have hold := (isDirty_moveDown ch.displayed _ _ _ r).symm.trans hr
    rw [Bool.and_eq_true, Bool.and_eq_true, decide_eq_true_iff] at hold
    have hfrom := hwindow _ hold.1.2
    rw [topRow] at hfrom
    omega

theorem addressColumn (h : Tracked ch) (hc : 0x40 ≤ c2 ∧ c2 < 0x80) :
    Tracked (ch.addressColumn c2) :=
  ⟨h.valid.addressColumn hc, h.rows, h.window, h.unknown⟩

theorem moveWindow_fields (ch : Channel) (newRow : Nat) :
    (ch.moveWindow newRow).mode = ch.mode ∧
      (ch.moveWindow newRow).windowRows = ch.windowRows := by
  unfold Channel.moveWindow
  dsimp only
  split
  · exact ⟨rfl, rfl⟩
  · split
    · exact ⟨rfl, rfl⟩
    · exact ⟨rfl, rfl⟩

theorem moveBase (h : Tracked ch) (hmode : ch.mode = .rollUp) (hrow : row ≤ lastRow) :
    Tracked { ch.moveWindow row with currRow := row } := by
  obtain ⟨hrows, hbetween⟩ := h.moveWindow hmode hrow
  obtain ⟨hkeep, hwindow⟩ := moveWindow_fields ch row
  rw [← hwindow] at hbetween
  exact ⟨(h.valid.moveWindow hrow).setRow hrow, hrows, fun _ => hbetween,
    fun hunknown => absurd (hkeep.symm.trans hunknown) (hmode ▸ by decide)⟩

theorem setRow (h : Tracked ch) (hrow : row ≤ lastRow) (hroll : ch.mode ≠ .rollUp) :
    Tracked { ch with currRow := row } :=
  ⟨h.valid.setRow hrow, h.rows, fun hmode => absurd hmode hroll, h.unknown⟩

theorem preambleAddressCode (h : Tracked ch) {c1 : Nat} (hc : 0x40 ≤ c2 ∧ c2 < 0x80)
    (hs : Sound (.preambleAddressCode c1 c2) ch) : Tracked (ch.preambleAddressCode c1 c2) := by
  unfold Channel.preambleAddressCode
  split
  · exact h
  · rename_i row hmap
    have hrow := ChannelValid.pacRow_le hmap
    have hsnapshot : TakesSnapshot (.preambleAddressCode c1 c2) :=
      Option.isSome_iff_exists.mpr ⟨row, hmap⟩
    have hevent := h.eventIfPaintOn (hs.snapshot hsnapshot)
    have hfields := eventIfPaintOn_fields ch
    split
    · exact h
    · rename_i hmode
      exact (h.moveBase hmode (h.valid.baseRow hmode hrow)).addressColumn hc
    · rename_i hmode
      exact (hevent.setRow hrow (by rw [hfields.1, hmode]; decide)).addressColumn hc
    · rename_i hmode
      exact (hevent.setRow hrow (by rw [hfields.1, hmode]; decide)).addressColumn hc
    · exact h.addressColumn hc

theorem homeColumn (h : Tracked ch) :
    Tracked { ch with currColumn := firstColumn, lastPac := 0 } :=
  ⟨h.valid.homeColumn, h.rows, h.window, h.unknown⟩

theorem onScreen (h : Tracked ch) : Between ch.displayed 0 lastRow := by
  intro r hr
  obtain ⟨i, _, hcell⟩ := (h.rows _ r).mp hr
  refine ⟨Nat.zero_le r, Nat.lt_succ_iff.mp ?_⟩
  by_contra hout
  exact hcell ((h.valid.displayed r i).inside (Or.inl (Nat.not_lt.mp hout)))

theorem scrollRows (h : Tracked ch) (windowRows : Nat)
    (hrows : 1 ≤ windowRows ∧ windowRows ≤ ch.currRow + 1)
    (hbetween : Between ch.displayed (ch.currRow + 1 - windowRows) ch.currRow)
    (htop : ch.currRow + 1 - windowRows = 0 ∨
      ch.displayed.isDirty (ch.currRow + 1 - windowRows) = false) :
    (∀ b, RowsMatch
      ((ch.onDisplayed fun s => Channel.scroll s ch.currRow windowRows).buffer b)) ∧
    Between (ch.onDisplayed fun s => Channel.scroll s ch.currRow windowRows).displayed
      (ch.currRow + 1 - windowRows) ch.currRow := by
  have hscroll := (h.rows (Channel.index ch.displayedBuffer)).scroll hrows hbetween htop
  refine ⟨onBuffer_rows h.rows _ hscroll, fun r hr => ?_⟩
  rw [onDisplayed_displayed, isDirty_scroll] at hr
  have hrow := hbetween (r + 1) hr
  have habove : r + 1 ≠ ch.currRow + 1 - windowRows := by
    intro heq
    rcases htop with hzero | hclean
    · omega
    · rw [heq, hclean] at hr
      exact Bool.false_ne_true hr
  omega

theorem carriageReturn (h : Tracked ch) (hs : Sound .carriageReturn ch) :
    Tracked ch.carriageReturn := by
  have hhome := h.homeColumn
  unfold Channel.carriageReturn
  split
  · exact h
  · exact h
  · exact h
  · rename_i hmode
    dsimp only
    split
    · exact hhome
    · have hwindow := h.valid.window hmode
      obtain ⟨windowRows, hclip⟩ : ∃ n, min (ch.currRow + 1 - firstRow) ch.windowRows = n :=
        ⟨_, rfl⟩
      have htop : ch.currRow + 1 - windowRows = topRow ch := by
        rw [topRow]
        rw [firstRow] at hclip
        omega
      have hrows : 1 ≤ windowRows ∧ windowRows ≤ ch.currRow + 1 := by
        rw [firstRow] at hclip
        omega
      have hsteps := hhome.scrollRows windowRows hrows (htop ▸ h.window hmode)
        (htop ▸ hs.scroll rfl hmode)
      have hbetween := hsteps.2
      rw [htop] at hbetween
      rw [hclip]
      exact ⟨hhome.valid.onScroll hrows.2, hsteps.1, fun _ => hbetween, fun hunknown =>
        absurd (hmode.symm.trans hunknown) (by decide)⟩
  · rename_i hmode
    have hknown : ch.mode ≠ .rollUp ∧ ch.mode ≠ .unknown := by
      rw [hmode]
      decide
    dsimp only
    split
    · rename_i hrow
      have hlast : ch.currRow < lastRow := Nat.lt_of_le_of_ne h.valid.row hrow
      exact of_mode (hhome.valid.setRow hlast) h.rows hknown.1 hknown.2
    split
    · exact hhome
    · rename_i hrow _
      have hlast : ch.currRow = lastRow := not_not.mp hrow
      have hclip : ch.currRow + 1 - maxRows = 0 := by rw [hlast]; decide
      have hsteps := hhome.scrollRows maxRows (by rw [hlast]; decide)
        (by rw [hclip, hlast]; exact h.onScreen) (Or.inl hclip)
      exact of_mode (hhome.valid.onScroll (by rw [hlast]; decide)) hsteps.1 hknown.1 hknown.2

/-- A command in a sound state keeps the masks. -/
theorem act (h : Tracked ch) (hc : c.Allowed ch.mode) (hs : Sound c ch) :
    Tracked (c.act ch) := by
  cases c with
  | resumeCaptionLoading => exact h.resumeCaptionLoading hs
  | backspace => exact h.backspace
  | deleteToEndOfRow => exact h.deleteToEndOfRow
  | rollUpCaption c2 => exact h.rollUpCaption hc hs
  | resumeDirectCaptioning => exact h.resumeDirectCaptioning hs
  | textRestart => exact h.textRestart
  | eraseDisplayedMemory => exact h.eraseDisplayedMemory hs
  | carriageReturn => exact h.carriageReturn hs
  | eraseNonDisplayedMemory => exact h.eraseMemory _
  | endOfCaption => exact h.endOfCaption hs
  | putChar c displayable bs => exact h.putChar bs hc.2.1 hc.2.2 hc.1
  | extControlCode c2 => exact h.extControlCode c2 hc
  | preambleAddressCode c1 c2 => exact h.preambleAddressCode hc hs
  | characters c1 c2 => exact (h.characters hc.1).characters hc.2

end Tracked

theorem onBuffer_self (ch : Channel) (b : Fin 3) (f : Screen → Screen) :
    (ch.onBuffer b f).buffer b = f (ch.buffer b) := Function.update_self b _ _

theorem eraseMemory_snapshot (ch : Channel) (b : Bool) :
    (ch.eraseMemory b).buffer 2 = ch.buffer 2 := by
  rw [Channel.eraseMemory]
  split
  · exact Function.update_of_ne (index_ne_two b).symm _ _
  · rfl

/-- In paint-on mode these commands take the snapshot of `stream_event_if_changed()`. -/
theorem act_snapshot {ch : Channel} (hc : TakesSnapshot c) (hmode : ch.mode = .paintOn) :
    (c.act ch).buffer 2 = ch.streamEventIfChanged.buffer 2 := by
  have hevent : ch.eventIfPaintOn = ch.streamEventIfChanged := by
    rw [Channel.eventIfPaintOn, if_pos hmode]
  have htext : ch.mode ≠ .text := by
    rw [hmode]
    decide
  cases c with
  | resumeCaptionLoading =>
    show ch.resumeCaptionLoading.buffer 2 = _
    rw [Channel.resumeCaptionLoading, if_neg htext, hevent]
  | rollUpCaption c2 =>
    show (ch.rollUpCaption c2).buffer 2 = _
    rw [← hevent]
    unfold Channel.rollUpCaption
    dsimp only
    split
    · rename_i h
      exact absurd h htext
    · rename_i h
      exact absurd (hmode.symm.trans h) (by decide)
    · rename_i h
      exact absurd (hmode.symm.trans h) (by decide)
    all_goals exact (eraseMemory_snapshot _ _).trans (eraseMemory_snapshot _ _)
  | eraseDisplayedMemory =>
    show ch.eraseDisplayedMemory.buffer 2 = _
    rw [Channel.eraseDisplayedMemory, if_neg htext, hevent]
    exact eraseMemory_snapshot _ _
  | endOfCaption =>
    show ch.endOfCaption.buffer 2 = _
    rw [Channel.endOfCaption, if_neg htext, hevent]
  | preambleAddressCode c1 c2 =>
    obtain ⟨row, hmap⟩ := Option.isSome_iff_exists.mp hc
    show (ch.preambleAddressCode c1 c2).buffer 2 = _
    rw [← hevent]
    unfold Channel.preambleAddressCode
    rw [hmap]
    dsimp only
    split
    · rename_i h
      exact absurd (hmode.symm.trans h) (by decide)
    · rename_i h
      exact absurd (hmode.symm.trans h) (by decide)
    · rfl
    · rfl
    · rename_i h
      exact absurd h htext
  | backspace | deleteToEndOfRow | resumeDirectCaptioning | textRestart | carriageReturn
  | eraseNonDisplayedMemory | putChar _ _ _ | extControlCode _ | characters _ _ =>
    exact False.elim hc

theorem Tracked.sound_scroll {ch : Channel} (h : Tracked ch) (hmode : ch.mode = .rollUp)
    (hrows : ∀ b, RowsMatch (ch.carriageReturn.buffer b)) :
    topRow ch = firstRow ∨ ch.displayed.isDirty (topRow ch) = false := by
  by_contra hunsound
  rw [not_or, Bool.not_eq_false] at hunsound
  obtain ⟨hbelow, hdirty⟩ := hunsound
  obtain ⟨windowRows, hclip⟩ : ∃ n, min (ch.currRow + 1 - firstRow) ch.windowRows = n := ⟨_, rfl⟩
  have hafter : ch.carriageReturn.displayed = Channel.scroll ch.displayed ch.currRow windowRows := by
    have hmask : ¬ ch.displayed.dirty = 0 := by
      intro hzero
      rw [not_dirty hzero] at hdirty
      exact Bool.false_ne_true hdirty
    unfold Channel.carriageReturn
    split
    · rename_i hother
      exact absurd (hmode.symm.trans hother) (by decide)
    · rename_i hother
      exact absurd (hmode.symm.trans hother) (by decide)
    · rename_i hother
      exact absurd (hmode.symm.trans hother) (by decide)
    · refine Eq.trans (congrArg Channel.displayed (if_neg hmask)) ?_
      rw [hclip]
      exact onDisplayed_displayed _ _
    · rename_i hother
      exact absurd (hmode.symm.trans hother) (by decide)
  have hwindow := h.window hmode
  have htop : topRow ch = ch.currRow + 1 - windowRows ∧ 0 < topRow ch := by
    rw [firstRow] at hclip hbelow
    rw [topRow] at hbelow ⊢
    omega
  have hshifted : (Channel.scroll ch.displayed ch.currRow windowRows).isDirty (topRow ch - 1) =
      true := by
    rw [isDirty_scroll, Nat.sub_add_cancel htop.2]
    exact hdirty
  have hcell : ∀ i, (Channel.scroll ch.displayed ch.currRow windowRows).cell (topRow ch - 1) i =
      ch.displayed.cell (topRow ch - 1) i := by
    have hrow := (hwindow _ hdirty).2
    intro i
    exact (if_neg (by omega)).trans (if_neg (by omega))
  have hscroll : RowsMatch (Channel.scroll ch.displayed ch.currRow windowRows) := by
    rw [← hafter]
    exact hrows (Channel.index ch.carriageReturn.displayedBuffer)
  have hoccupied := (hscroll _).mp hshifted
  have habove := hwindow _ ((h.rows _ _).mpr ((occupied_congr hcell).mp hoccupied))
  omega

theorem Tracked.sound_copy {ch : Channel} (h : Tracked ch) (htext : ch.mode ≠ .text)
    (hpaint : ch.mode ≠ .paintOn)
    (hrows : ∀ b, RowsMatch (ch.resumeDirectCaptioning.buffer b)) :
    (ch.buffer 2).dirty = ch.displayed.dirty := by
  have hafter : ch.resumeDirectCaptioning.buffer 2 =
      { ch.buffer 2 with cell := ch.displayed.cell } := by
    unfold Channel.resumeDirectCaptioning
    split
    · rename_i hmode
      exact absurd hmode htext
    · rename_i hmode
      exact absurd hmode hpaint
    all_goals exact onBuffer_self ch 2 fun s => { s with cell := ch.displayed.cell }
  have hsnapshot := hrows 2
  rw [hafter] at hsnapshot
  refine BitVec.eq_of_getLsbD_eq fun r _ => ?_
  rw [Bool.eq_iff_iff]
  exact (hsnapshot r).trans (h.rows (Channel.index ch.displayedBuffer) r).symm

theorem Tracked.sound_snapshot {ch : Channel} (h : Tracked ch) (hchanged : ch.rowChanged = true)
    (hrows : RowsMatch (ch.streamEventIfChanged.buffer 2)) (hr : r ≠ ch.currRow) :
    (ch.buffer 2).isDirty r = ch.displayed.isDirty r := by
  rw [Channel.streamEventIfChanged, if_pos hchanged, onBuffer_self] at hrows
  have hother : ∀ i, (if r = ch.currRow then ch.displayed.cell r i else (ch.buffer 2).cell r i) =
      (ch.buffer 2).cell r i := fun i => if_neg hr
  rw [Bool.eq_iff_iff, h.rows 2 r]
  exact (occupied_congr hother).symm.trans (hrows r).symm

/-- If a command keeps the masks, the state was sound. -/
theorem Tracked.sound {ch : Channel} (h : Tracked ch)
    (hrows : ∀ b, RowsMatch ((c.act ch).buffer b)) : Sound c ch where
  scroll hc hmode := h.sound_scroll hmode (by rwa [hc] at hrows)
  copy hc htext hpaint := h.sound_copy htext hpaint (by rwa [hc] at hrows)
  snapshot hc hmode hchanged r hr := h.sound_snapshot hchanged (act_snapshot hc hmode ▸ hrows 2) hr

def StepSound (d : Decoder) : Op → Prop
  | .reset => True
  | .feed buffer line => ∀ x ∈ command d buffer line, Sound x.2 (d.channel x.1)

def AllTracked (d : Decoder) : Prop := ∀ k, Tracked (d.channel k)

def AllMatch (d : Decoder) : Prop :=
  ∀ k b r, ((d.channel k).buffer b).isDirty r = true ↔
    ∃ i, firstColumn ≤ i ∧ i ≤ lastColumn ∧ ((d.channel k).buffer b).cell r i ≠ 0

theorem allMatch_iff (d : Decoder) :
    AllMatch d ↔ ∀ k b, RowsMatch ((d.channel k).buffer b) := by
  have hoccupied : ∀ (s : Screen) r, Occupied s r ↔
      ∃ i, firstColumn ≤ i ∧ i ≤ lastColumn ∧ s.cell r i ≠ 0 := fun s r => by
    rw [← hasCell_occupied, hasCell_iff]
  constructor
  · intro h k b r
    exact (h k b r).trans (hoccupied _ r).symm
  · intro h k b r
    exact (h k b r).trans (hoccupied _ r)

theorem AllTracked.allMatch (h : AllTracked d) : AllMatch d :=
  (allMatch_iff d).mpr fun k => (h k).rows

theorem init_tracked : AllTracked init := fun k => Tracked.reset k _

theorem AllTracked.step (h : AllTracked d) (hs : StepSound d op) : AllTracked (d.step op) := by
  apply step_invariant Tracked.reset _ h
  intro buffer line hop x hx htracked
  rw [hop] at hs
  exact htracked.act (command_permitted d buffer line x hx) (hs x hx)

theorem AllTracked.sound (h : AllTracked d) (hm : AllMatch (d.step op)) : StepSound d op := by
  cases op with
  | reset => exact trivial
  | feed buffer line =>
    intro x hx
    have hrows := (allMatch_iff _).mp hm x.1
    have hchannel : ((d.step (.feed buffer line)).channel x.1) = x.2.act (d.channel x.1) := by
      rw [Option.mem_def] at hx
      show (d.feed buffer line).1.channel x.1 = _
      rw [feed_channel, hx]
      exact Function.update_self _ _ _
    rw [hchannel] at hrows
    exact (h x.1).sound hrows

/-- All steps of a run meet sound states. -/
def RunSound (d : Decoder) (ops : List Op) : Prop :=
  GuardedRuns.Permitted (fun d op => some (d.step op)) StepSound d ops

theorem runSound_iff (h : AllTracked d) (ops : List Op) :
    RunSound d ops ↔ ∀ n, AllMatch ((ops.take n).foldl step d) := by
  induction ops generalizing d with
  | nil =>
    refine iff_of_true trivial fun n => ?_
    rw [List.take_nil]
    exact h.allMatch
  | cons op ops ih =>
    constructor
    · intro hsound n
      have hstep := h.step hsound.1
      cases n with
      | zero => exact h.allMatch
      | succ n => exact (ih hstep).mp (hsound.2 _ rfl) n
    · intro hmatch
      have hsound := h.sound (hmatch 1)
      refine ⟨hsound, fun t ht => ?_⟩
      rw [← Option.some.inj ht]
      exact (ih (h.step hsound)).mpr fun n => hmatch (n + 1)

/-- The masks match in every state of a run if and only if all its steps meet sound states. -/
theorem run_dirty (ops : List Op) : (∀ n, AllMatch (run (ops.take n))) ↔ RunSound init ops :=
  (runSound_iff init_tracked ops).symm

/-- Two lines of text in a window of two rows, and a carriage return behind each. -/
def rollUpTwice : List Op := [
  .feed (0x94, 0x25) 21, .feed (0xC1, 0x80) 21, .feed (0x94, 0xAD) 21,
  .feed (0xC2, 0x80) 21, .feed (0x94, 0xAD) 21]

theorem rollUpTwice_dirty : ¬ AllMatch (run rollUpTwice) := by
  intro h
  have hdirty : (((run rollUpTwice).channel cc1).buffer 0).isDirty 12 = true := by decide +kernel
  have hclear : (((run rollUpTwice).channel cc1).buffer 0).hasCell 12 lastColumn = false := by
    decide +kernel
  have hrow := (h cc1 0 12).mp hdirty
  rw [← hasCell_iff, hclear] at hrow
  exact Bool.false_ne_true hrow

end Cc608Dirty

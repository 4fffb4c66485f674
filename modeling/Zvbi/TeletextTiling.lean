import Zvbi.TeletextFormat

/-!
# Sizes of the characters of a page

The sizes in a row depend on three spacing attributes, on the column and on the row alone. The
characters tile the page, except where the 41st column repeats the right half of a character.
-/

namespace TeletextTiling
open Hamming TeletextHeader TeletextEnhance TeletextFormat
open ExtensionPackets (Extension)

def sizeAt (raw size : Nat) : Nat := if raw = 0x0C then vbiNormalSize else size

def tallRow (row : Nat) : Bool := 0 < row && row < 23

theorem tallRow_iff (row : Nat) : tallRow row = true ↔ 0 < row ∧ row < 23 := by
  rw [tallRow, Bool.and_eq_true, decide_eq_true_iff, decide_eq_true_iff]

def tall (row column raw : Nat) : Bool :=
  tallRow row && (raw == 0x0D || raw == 0x0F && column < columns - 1)

def sizeAfter (row column raw size : Nat) : Nat :=
  if raw = 0x0D then if tallRow row then vbiDoubleHeight else size
  else if raw = 0x0E then if column < columns - 1 then vbiDoubleWidth else size
  else if raw = 0x0F then if column < columns - 1 ∧ tallRow row then vbiDoubleSize else size
  else size

def wide (size : Nat) : Bool := size == vbiDoubleWidth || size == vbiDoubleSize

section
variable (p : LopPage) (row : Nat)

def pendingSize : Nat → Nat
  | 0 => vbiNormalSize
  | column + 1 =>
    sizeAfter row column (rawChar p row column)
      (sizeAt (rawChar p row column) (pendingSize column))

def columnSize (column : Nat) : Nat := sizeAt (rawChar p row column) (pendingSize p row column)

def rightHalf : Nat → Bool
  | 0 => false
  | column + 1 => !rightHalf column && wide (columnSize p row column)

def doubled : Bool := (List.range columns).any fun column => tall row column (rawChar p row column)

def cellSize (column : Nat) : Nat :=
  if rightHalf p row column then vbiOverTop
  else if wide (columnSize p row column) && columns - 1 ≤ column then vbiNormalSize
  else columnSize p row column

end

def lowerHalf (p : LopPage) : Nat → Bool
  | 0 => false
  | row + 1 => !lowerHalf p row && doubled p row

structure Sizes where
  size : Nat
  wideChar : Bool
  doubleHeight : Bool
  cell : Nat → Nat

def sizesOf (s : RowState) : Sizes := ⟨s.ac.size, s.wideChar, s.doubleHeight, VbiChar.size ∘ s.acp⟩

def Sizes.place (t : Sizes) (column : Nat) : Sizes :=
  if t.wideChar then { t with wideChar := false }
  else if t.size &&& vbiDoubleWidth = 0 then
    { t with cell := Function.update t.cell column t.size }
  else if column < columns - 1 then
    { t with
      cell := Function.update (Function.update t.cell column t.size) (column + 1) vbiOverTop
      wideChar := true }
  else { t with cell := Function.update t.cell column vbiNormalSize }

section
variable (sets : CharacterSets) (ext : Extension) (p : LopPage)

theorem sizesOf_setAt (raw : Nat) (s : RowState) :
    sizesOf (setAt ext raw s) = { sizesOf s with size := sizeAt raw s.ac.size } := by
  by_cases hnormal : raw = 0x0C
  · subst hnormal
    rfl
  · rw [sizeAt, if_neg hnormal]
    unfold setAt
    split
    all_goals first | rfl | exact absurd rfl hnormal

theorem sizesOf_setUnicode (raw : Nat) (s : RowState) :
    sizesOf (setUnicode sets ext p raw s) = sizesOf s := by
  rw [setUnicode]
  split
  · rfl
  split
  · rfl
  · rfl

theorem sizesOf_place (column : Nat) (s : RowState) :
    sizesOf (place column s) = (sizesOf s).place column := by
  rw [place, Sizes.place]
  by_cases hwide : s.wideChar = true
  · rw [if_pos hwide, if_pos (show (sizesOf s).wideChar = true from hwide)]
    rfl
  rw [if_neg hwide, if_neg (show ¬ (sizesOf s).wideChar = true from hwide)]
  by_cases hsize : s.ac.size &&& vbiDoubleWidth = 0
  · rw [if_pos hsize, if_pos (show (sizesOf s).size &&& vbiDoubleWidth = 0 from hsize)]
    rw [sizesOf, Function.comp_update]
    rfl
  rw [if_neg hsize, if_neg (show ¬ (sizesOf s).size &&& vbiDoubleWidth = 0 from hsize)]
  by_cases hlast : column < columns - 1
  · rw [if_pos hlast, if_pos hlast]
    rw [sizesOf, Function.comp_update, Function.comp_update]
    rfl
  · rw [if_neg hlast, if_neg hlast]
    rw [sizesOf, Function.comp_update]
    rfl

theorem sizesOf_setAfter (row column raw : Nat) (s : RowState) :
    sizesOf (setAfter ext p row column raw s) =
      { sizesOf s with
        size := sizeAfter row column raw s.ac.size
        doubleHeight := s.doubleHeight || tall row column raw } := by
  have hcolumns : columns = 40 := rfl
  have hrow := tallRow_iff row
  by_cases hheight : raw = 0x0D
  · subst hheight
    have hsize : sizeAfter row column 0x0D s.ac.size =
        if tallRow row then vbiDoubleHeight else s.ac.size := if_pos rfl
    have hboth : tall row column 0x0D = tallRow row := Bool.and_true _
    rw [hsize, hboth]
    change sizesOf (if row = 0 ∨ 23 ≤ row then s else
      { s with ac := { s.ac with size := vbiDoubleHeight }, doubleHeight := true }) = _
    by_cases htall : tallRow row = true
    · have hrange := hrow.mp htall
      rw [if_neg (show ¬ (row = 0 ∨ 23 ≤ row) by omega), htall, Bool.or_true]
      rfl
    · have hrange := mt hrow.mpr htall
      rw [if_pos (show row = 0 ∨ 23 ≤ row by omega), Bool.eq_false_iff.mpr htall, Bool.or_false]
      rfl
  by_cases hwidth : raw = 0x0E
  · subst hwidth
    have hsize : sizeAfter row column 0x0E s.ac.size =
        if column < columns - 1 then vbiDoubleWidth else s.ac.size := rfl
    have hnone : tall row column 0x0E = false := Bool.and_false _
    rw [hsize, hnone, Bool.or_false]
    change sizesOf (if column < columns - 1 then
      { s with ac := { s.ac with size := vbiDoubleWidth } } else s) = _
    split
    · rfl
    · rfl
  by_cases hdouble : raw = 0x0F
  · subst hdouble
    have hsize : sizeAfter row column 0x0F s.ac.size =
        if column < columns - 1 ∧ tallRow row then vbiDoubleSize else s.ac.size := rfl
    have hboth : tall row column 0x0F = (tallRow row && decide (column < columns - 1)) := rfl
    rw [hsize, hboth]
    change sizesOf (if columns - 1 ≤ column ∨ row = 0 ∨ 23 ≤ row then s else
      { s with ac := { s.ac with size := vbiDoubleSize }, doubleHeight := true }) = _
    by_cases htall : column < columns - 1 ∧ tallRow row = true
    · have hrange := hrow.mp htall.2
      rw [if_neg (show ¬ (columns - 1 ≤ column ∨ row = 0 ∨ 23 ≤ row) by omega), if_pos htall,
        htall.2, decide_eq_true htall.1, Bool.and_true, Bool.or_true]
      rfl
    · have hnone : (tallRow row && decide (column < columns - 1)) = false := by
        rw [Bool.eq_false_iff, ne_eq, Bool.and_eq_true, decide_eq_true_iff]
        exact fun h => htall h.symm
      have hrange : ¬ (column < columns - 1 ∧ 0 < row ∧ row < 23) :=
        fun h => htall ⟨h.1, hrow.mpr h.2⟩
      rw [if_pos (show columns - 1 ≤ column ∨ row = 0 ∨ 23 ≤ row by omega), if_neg htall, hnone,
        Bool.or_false]
      rfl
  have hsize : sizeAfter row column raw s.ac.size = s.ac.size := by
    rw [sizeAfter, if_neg hheight, if_neg hwidth, if_neg hdouble]
  have hnone : tall row column raw = false := by
    rw [tall, beq_false_of_ne hheight, beq_false_of_ne hdouble]
    simp
  rw [hsize, hnone, Bool.or_false, setAfter]
  dsimp only
  rw [if_neg hheight, if_neg hwidth, if_neg hdouble]
  split
  · rfl
  split
  · rfl
  split
  · split
    · rfl
    · rfl
  split
  · split
    · rfl
    · rfl
  split
  · rfl
  split
  · rfl
  split
  · rfl
  · rfl

theorem sizesOf_formatChar (row column : Nat) (s : RowState) :
    sizesOf (formatChar sets ext p row s column) =
      let raw := rawChar p row column
      let t := ({ sizesOf s with size := sizeAt raw s.ac.size } : Sizes).place column
      { t with
        size := sizeAfter row column raw t.size
        doubleHeight := t.doubleHeight || tall row column raw } := by
  have hplaced : sizesOf (place column (setUnicode sets ext p (rawChar p row column)
      (setAt ext (rawChar p row column) s))) =
      Sizes.place { sizesOf s with size := sizeAt (rawChar p row column) s.ac.size } column := by
    rw [sizesOf_place, sizesOf_setUnicode, sizesOf_setAt]
  dsimp only
  rw [← hplaced]
  exact sizesOf_setAfter ext p row column _ _

end

variable {size c r : Nat}

theorem sizeAt_lt (h : size < 4) (raw : Nat) : sizeAt raw size < 4 := by
  rw [sizeAt]
  split
  · decide
  · exact h

theorem sizeAfter_lt (h : size < 4) (row column raw : Nat) :
    sizeAfter row column raw size < 4 := by
  rw [sizeAfter]
  split
  · split
    · decide
    · exact h
  split
  · split
    · decide
    · exact h
  split
  · split
    · decide
    · exact h
  · exact h

theorem wide_eq_false_iff (h : size < 4) :
    size &&& vbiDoubleWidth = 0 ↔ wide size = false := by
  have hall : ∀ n < 4, n &&& vbiDoubleWidth = 0 ↔ wide n = false := by decide
  exact hall size h

section
variable (p : LopPage) (row : Nat)

theorem pendingSize_lt (column : Nat) : pendingSize p row column < 4 := by
  induction column with
  | zero => exact Nat.succ_pos 3
  | succ column ih => exact sizeAfter_lt (sizeAt_lt ih _) _ _ _

theorem columnSize_lt (column : Nat) : columnSize p row column < 4 :=
  sizeAt_lt (pendingSize_lt p row column) _

structure Scanned (n : Nat) (t : Sizes) : Prop where
  size : t.size = pendingSize p row n
  half : t.wideChar = (decide (n < columns) && rightHalf p row n)
  double : t.doubleHeight = (List.range n).any fun c => tall row c (rawChar p row c)
  cells : ∀ c < n, t.cell c = cellSize p row c
  next : t.wideChar = true → t.cell n = vbiOverTop
  last : t.cell columns = vbiNormalSize

structure Placed (n : Nat) (t t' : Sizes) : Prop where
  size : t'.size = t.size
  half : t'.wideChar = (decide (n + 1 < columns) && rightHalf p row (n + 1))
  double : t'.doubleHeight = t.doubleHeight
  cells : ∀ c < n + 1, t'.cell c = cellSize p row c
  next : t'.wideChar = true → t'.cell (n + 1) = vbiOverTop
  last : t'.cell columns = vbiNormalSize

variable {p row} {n : Nat} {t : Sizes}

theorem place_right (h : Scanned p row n t) (hn : n < columns) (hwide : t.wideChar = true)
    (size : Nat) :
    Placed p row n { t with size := size } (({ t with size := size } : Sizes).place n) := by
  have hright : rightHalf p row n = true := by
    have hhalf := h.half
    rw [hwide, decide_eq_true hn, Bool.true_and] at hhalf
    exact hhalf.symm
  rw [Sizes.place, if_pos (show ({ t with size := size } : Sizes).wideChar = true from hwide)]
  refine ⟨rfl, ?_, rfl, fun c hc => ?_, fun hfalse => absurd hfalse Bool.false_ne_true, h.last⟩
  · rw [rightHalf, hright, Bool.not_true, Bool.false_and, Bool.and_false]
  · rcases Nat.lt_succ_iff_lt_or_eq.mp hc with hlt | rfl
    · exact h.cells c hlt
    · rw [cellSize, if_pos hright]
      exact h.next hwide

theorem place_left (h : Scanned p row n t) (hn : n < columns) (hwide : ¬ t.wideChar = true) :
    Placed p row n { t with size := columnSize p row n }
      (({ t with size := columnSize p row n } : Sizes).place n) := by
  have hright : rightHalf p row n = false := by
    have hhalf := h.half
    rw [Bool.eq_false_iff.mpr hwide, decide_eq_true hn, Bool.true_and] at hhalf
    exact hhalf.symm
  have hnext : rightHalf p row (n + 1) = wide (columnSize p row n) := by
    rw [rightHalf, hright, Bool.not_false, Bool.true_and]
  have hiff := wide_eq_false_iff (columnSize_lt p row n)
  rw [Sizes.place,
    if_neg (show ¬ ({ t with size := columnSize p row n } : Sizes).wideChar = true from hwide)]
  dsimp only
  by_cases hsize : columnSize p row n &&& vbiDoubleWidth = 0
  · have hsingle := hiff.mp hsize
    rw [if_pos hsize]
    refine ⟨rfl, ?_, rfl, fun c hc => ?_, fun htrue => absurd htrue hwide, ?_⟩
    · rw [hnext, hsingle, Bool.and_false]
      exact Bool.eq_false_iff.mpr hwide
    · rcases Nat.lt_succ_iff_lt_or_eq.mp hc with hlt | rfl
      · exact (Function.update_of_ne hlt.ne _ _).trans (h.cells c hlt)
      · refine (Function.update_self _ _ _).trans ?_
        rw [cellSize, hright, hsingle]
        rfl
    · exact (Function.update_of_ne hn.ne' _ _).trans h.last
  have hdouble : wide (columnSize p row n) = true := by
    rw [← Bool.not_eq_false]
    exact mt hiff.mpr hsize
  rw [if_neg hsize]
  by_cases hlast : n < columns - 1
  · rw [if_pos hlast]
    have hinside : n + 1 < columns := by omega
    refine ⟨rfl, ?_, rfl, fun c hc => ?_, fun _ => Function.update_self _ _ _, ?_⟩
    · rw [hnext, hdouble, decide_eq_true hinside, Bool.and_true]
    · refine (Function.update_of_ne hc.ne _ _).trans ?_
      rcases Nat.lt_succ_iff_lt_or_eq.mp hc with hlt | rfl
      · exact (Function.update_of_ne hlt.ne _ _).trans (h.cells c hlt)
      · refine (Function.update_self _ _ _).trans ?_
        rw [cellSize, hright, hdouble, decide_eq_false (Nat.not_le.mpr hlast)]
        rfl
    · refine (Function.update_of_ne hinside.ne' _ _).trans ?_
      exact (Function.update_of_ne hn.ne' _ _).trans h.last
  · rw [if_neg hlast]
    have hend : ¬ n + 1 < columns := by omega
    refine ⟨rfl, ?_, rfl, fun c hc => ?_, fun htrue => absurd htrue hwide, ?_⟩
    · rw [decide_eq_false hend, Bool.false_and]
      exact Bool.eq_false_iff.mpr hwide
    · rcases Nat.lt_succ_iff_lt_or_eq.mp hc with hlt | rfl
      · exact (Function.update_of_ne hlt.ne _ _).trans (h.cells c hlt)
      · refine (Function.update_self _ _ _).trans ?_
        rw [cellSize, hright, hdouble, decide_eq_true (Nat.not_lt.mp hlast)]
        rfl
    · exact (Function.update_of_ne hn.ne' _ _).trans h.last

theorem scanned_formatChar (sets : CharacterSets) (ext : Extension) {s : RowState}
    (h : Scanned p row n (sizesOf s)) (hn : n < columns) :
    Scanned p row (n + 1) (sizesOf (formatChar sets ext p row s n)) := by
  have hsize : sizeAt (rawChar p row n) s.ac.size = columnSize p row n :=
    congrArg (sizeAt (rawChar p row n)) h.size
  have hplaced : Placed p row n { sizesOf s with size := columnSize p row n }
      (({ sizesOf s with size := columnSize p row n } : Sizes).place n) := by
    by_cases hwide : (sizesOf s).wideChar = true
    · exact place_right h hn hwide _
    · exact place_left h hn hwide
  rw [sizesOf_formatChar]
  dsimp only
  rw [hsize]
  refine ⟨?_, hplaced.half, ?_, hplaced.cells, hplaced.next, hplaced.last⟩
  · exact congrArg (sizeAfter row n (rawChar p row n)) hplaced.size
  · rw [List.range_succ, List.any_append, ← h.double]
    dsimp only
    rw [hplaced.double, List.any_cons, List.any_nil, Bool.or_false]

theorem scanned_formatRow (sets : CharacterSets) (ext : Extension) (p : LopPage) (text : Text)
    (row : Nat) : Scanned p row columns (sizesOf (formatRow sets ext p text row)) := by
  have hloop : ∀ n ≤ columns, Scanned p row n (sizesOf
      ((List.range n).foldl (formatChar sets ext p row) (startRow ext p text row))) := by
    intro n
    induction n with
    | zero =>
      intro _
      refine ⟨rfl, ?_, rfl, fun c hc => absurd hc (Nat.not_lt_zero c),
        fun hfalse => absurd hfalse Bool.false_ne_true, ?_⟩
      · rw [rightHalf, Bool.and_false]
        rfl
      · change (Function.update (text row) columns
          (blankChar ext (pageOpacity p row)) columns).size = vbiNormalSize
        rw [Function.update_self]
        rfl
    | succ n ih =>
      intro hn
      rw [List.range_succ, List.foldl_append]
      exact scanned_formatChar sets ext (ih (Nat.le_of_succ_le hn)) hn
  exact hloop columns (Nat.le_refl _)

end

theorem wide_iff (size : Nat) :
    wide size = true ↔ size = vbiDoubleWidth ∨ size = vbiDoubleSize := by
  rw [wide, Bool.or_eq_true, beq_iff_eq, beq_iff_eq]

def lowerSize (cell : Nat → Nat) (column : Nat) : Nat :=
  if cell column = vbiDoubleHeight then vbiDoubleHeight2
  else if cell column = vbiDoubleSize then vbiDoubleSize2
  else if 0 < column ∧ cell (column - 1) = vbiDoubleSize then vbiOverBottom
  else vbiNormalSize

section
variable {cell : Nat → Nat} {column : Nat}

theorem lowerSize_height (h : cell column = vbiDoubleHeight) :
    lowerSize cell column = vbiDoubleHeight2 := if_pos h

theorem lowerSize_double (h : cell column = vbiDoubleSize) :
    lowerSize cell column = vbiDoubleSize2 := by
  have hheight : ¬ cell column = vbiDoubleHeight := by
    rw [h]
    decide
  rw [lowerSize, if_neg hheight, if_pos h]

theorem lowerSize_corner (h : cell (column + 1) = vbiOverTop)
    (hleft : cell column = vbiDoubleSize) : lowerSize cell (column + 1) = vbiOverBottom := by
  have hheight : ¬ cell (column + 1) = vbiDoubleHeight := by
    rw [h]
    decide
  have hsize : ¬ cell (column + 1) = vbiDoubleSize := by
    rw [h]
    decide
  rw [lowerSize, if_neg hheight, if_neg hsize]
  exact if_pos ⟨Nat.succ_pos _, hleft⟩

theorem lowerSize_normal (hheight : cell column ≠ vbiDoubleHeight)
    (hsize : cell column ≠ vbiDoubleSize)
    (hleft : 0 < column → cell (column - 1) ≠ vbiDoubleSize) :
    lowerSize cell column = vbiNormalSize := by
  rw [lowerSize, if_neg hheight, if_neg hsize]
  exact if_neg fun h => hleft h.1 h.2

end

theorem lowerSize_congr {f g : Nat → Nat} {column : Nat} (h : ∀ c ≤ column, f c = g c) :
    lowerSize f column = lowerSize g column := by
  rw [lowerSize, lowerSize, h column (Nat.le_refl _), h (column - 1) (Nat.sub_le _ _)]

structure TopRow (cell : Nat → Nat) : Prop where
  right : ∀ c < columns, cell (c + 1) = vbiOverTop ↔ wide (cell c) = true
  last : cell columns = vbiNormalSize

/-- The cells from a column on, where this column is stored first. -/
theorem size_update (size : Nat → Nat) (lower : Nat → VbiChar) {column : Nat} {ac : VbiChar}
    (hcolumn : column < extColumns) (hac : ac.size = size column) (c : Nat) :
    (if column + 1 ≤ c ∧ c < extColumns then size c
      else (Function.update lower column ac c).size) =
      if column ≤ c ∧ c < extColumns then size c else (lower c).size := by
  by_cases hc : c = column
  · subst hc
    rw [if_neg (by omega), if_pos ⟨Nat.le_refl _, hcolumn⟩, Function.update_self]
    exact hac
  · rw [Function.update_of_ne hc]
    exact if_congr (by omega) rfl rfl

theorem lowerRow_size {acp : Nat → VbiChar} (h : TopRow (VbiChar.size ∘ acp)) (n column : Nat)
    (lower : Nat → VbiChar) (hn : extColumns ≤ column + n)
    (hleft : 0 < column → (acp (column - 1)).size ≠ vbiDoubleSize) (c : Nat) :
    (lowerRow acp n column lower c).size =
      if column ≤ c ∧ c < extColumns then lowerSize (VbiChar.size ∘ acp) c
      else (lower c).size := by
  have hext : extColumns = columns + 1 := rfl
  induction n generalizing column lower with
  | zero => rw [lowerRow, if_neg (by omega)]
  | succ n ih =>
    rw [lowerRow]
    by_cases hend : extColumns ≤ column
    · rw [if_pos hend, if_neg (by omega)]
    have hinside : column < extColumns := Nat.not_le.mp hend
    rw [if_neg hend]
    by_cases hheight : (acp column).size = vbiDoubleHeight
    · have hother : (acp column).size ≠ vbiDoubleSize := by
        rw [hheight]
        decide
      rw [if_pos hheight, ih (column + 1) _ (by omega) fun _ => hother]
      have hbelow := @lowerSize_height (VbiChar.size ∘ acp) column hheight
      exact size_update _ _ hinside hbelow.symm c
    rw [if_neg hheight]
    by_cases hsize : (acp column).size = vbiDoubleSize
    · -- The right half of the character is inside of the row.
      have hlast : column < columns := by
        refine Nat.lt_of_le_of_ne (by omega) fun heq => ?_
        have hnormal := h.last
        rw [← heq] at hnormal
        exact absurd (hsize.symm.trans hnormal) (by decide)
      have hright : (acp (column + 1)).size = vbiOverTop :=
        (h.right column hlast).mpr ((wide_iff _).mpr (Or.inr hsize))
      have hother : (acp (column + 1)).size ≠ vbiDoubleSize := by
        rw [hright]
        decide
      rw [if_pos hsize, ih (column + 2) _ (by omega) fun _ => hother]
      have hanchor := @lowerSize_double (VbiChar.size ∘ acp) column hsize
      have hcorner := @lowerSize_corner (VbiChar.size ∘ acp) column hright hsize
      have hcell : column + 1 < extColumns := by omega
      have hsecond := @size_update (lowerSize (VbiChar.size ∘ acp))
        (Function.update lower column { acp column with size := vbiDoubleSize2 }) (column + 1)
        { acp column with size := vbiOverBottom } hcell hcorner.symm c
      refine hsecond.trans ?_
      exact size_update _ _ hinside hanchor.symm c
    · rw [if_neg hsize, ih (column + 1) _ (by omega) fun _ => hsize]
      have hbelow := @lowerSize_normal (VbiChar.size ∘ acp) column hheight hsize hleft
      exact size_update _ _ hinside hbelow.symm c

def pageSize (p : LopPage) (row column : Nat) : Nat :=
  if lowerHalf p row then lowerSize (cellSize p (row - 1)) column else cellSize p row column

section
variable (p : LopPage) (row column : Nat)

theorem cellSize_overTop : cellSize p row column = vbiOverTop ↔ rightHalf p row column = true := by
  rw [cellSize]
  by_cases hright : rightHalf p row column = true
  · rw [if_pos hright]
    exact iff_of_true rfl hright
  · rw [if_neg hright]
    refine iff_of_false ?_ hright
    split
    · decide
    · exact (columnSize_lt p row column).ne

theorem wide_cellSize :
    wide (cellSize p row column) = true ↔
      column < columns - 1 ∧ rightHalf p row (column + 1) = true := by
  rw [cellSize, rightHalf]
  by_cases hright : rightHalf p row column = true
  · rw [if_pos hright, hright, Bool.not_true, Bool.false_and]
    exact iff_of_false (by decide) fun h => Bool.false_ne_true h.2
  rw [if_neg hright, Bool.eq_false_iff.mpr hright, Bool.not_false, Bool.true_and]
  by_cases hlast : column < columns - 1
  · rw [decide_eq_false (Nat.not_le.mpr hlast), Bool.and_false, if_neg Bool.false_ne_true]
    exact (and_iff_right hlast).symm
  · refine iff_of_false ?_ fun h => hlast h.1
    rw [decide_eq_true (Nat.not_lt.mp hlast), Bool.and_true]
    split
    · decide
    · rename_i hsingle
      exact hsingle

theorem topRow_formatRow (sets : CharacterSets) (ext : Extension) (text : Text) :
    TopRow (VbiChar.size ∘ (formatRow sets ext p text row).acp) := by
  have hscan := scanned_formatRow sets ext p text row
  refine ⟨fun c hc => ?_, hscan.last⟩
  have hcell : (VbiChar.size ∘ (formatRow sets ext p text row).acp) c = cellSize p row c :=
    hscan.cells c hc
  rw [hcell, wide_cellSize]
  by_cases hlast : c < columns - 1
  · have hnext : (VbiChar.size ∘ (formatRow sets ext p text row).acp) (c + 1) =
        cellSize p row (c + 1) := hscan.cells (c + 1) (by omega)
    rw [hnext, cellSize_overTop]
    exact (and_iff_right hlast).symm
  · have hend : c + 1 = columns := by
      have hcolumns : columns = 40 := rfl
      omega
    rw [hend]
    refine iff_of_false (fun h => ?_) fun h => hlast h.1
    exact absurd (hscan.last.symm.trans h) (by decide)

end

section
variable (p : LopPage)

/-- Rows which extend into the next one are not the last ones. -/
theorem doubled_row {row : Nat} (h : doubled p row = true) : row + 1 < rows := by
  rw [doubled, List.any_eq_true] at h
  obtain ⟨c, -, htall⟩ := h
  rw [tall, Bool.and_eq_true] at htall
  have hrow := (tallRow_iff row).mp htall.1
  have hrows : rows = 25 := rfl
  omega

theorem formatRows_size (sets : CharacterSets) (ext : Extension) (n row : Nat) (text : Text)
    (hn : rows ≤ row + n) (hrow : lowerHalf p row = false) (r : Nat) (hc : c < columns) :
    (formatRows sets ext p rows n row text r c).size =
      if row ≤ r ∧ r < rows then pageSize p r c else (text r c).size := by
  induction n generalizing row text with
  | zero => rw [formatRows, if_neg (by omega)]
  | succ n ih =>
    rw [formatRows]
    by_cases hend : rows ≤ row
    · rw [if_pos hend, if_neg (by omega)]
    rw [if_neg hend]
    have hscan := scanned_formatRow sets ext p text row
    have hown : ((formatRow sets ext p text row).acp c).size = pageSize p row c := by
      rw [pageSize, hrow]
      exact hscan.cells c hc
    have hdoubled : (formatRow sets ext p text row).doubleHeight = doubled p row := hscan.double
    rw [hdoubled]
    by_cases htall : doubled p row = true
    · have hbelow : lowerHalf p (row + 1) = true := by
        rw [lowerHalf, hrow, htall]
        rfl
      have hnext : lowerHalf p (row + 2) = false := by
        rw [lowerHalf, hbelow]
        rfl
      have hfit := doubled_row p htall
      have hlower : ∀ lower,
          (lowerRow (formatRow sets ext p text row).acp extColumns 0 lower c).size =
            pageSize p (row + 1) c := by
        intro lower
        have hc' : 0 ≤ c ∧ c < extColumns := ⟨Nat.zero_le _, Nat.lt_succ_of_lt hc⟩
        rw [lowerRow_size (topRow_formatRow p row sets ext text) extColumns 0 lower (Nat.le_refl _)
          (fun h => absurd h (Nat.lt_irrefl 0)), if_pos hc', pageSize, hbelow, if_pos rfl]
        exact lowerSize_congr fun c' hle => hscan.cells c' (Nat.lt_of_le_of_lt hle hc)
      rw [if_pos htall, ih (row + 2) _ (by omega) hnext]
      by_cases hr : r = row + 1
      · subst hr
        rw [if_neg (by omega), if_pos ⟨Nat.le_succ _, hfit⟩, Function.update_self]
        exact hlower _
      rw [Function.update_of_ne hr]
      by_cases hrow' : r = row
      · subst hrow'
        rw [if_neg (by omega), if_pos ⟨Nat.le_refl _, Nat.not_le.mp hend⟩, Function.update_self]
        exact hown
      · rw [Function.update_of_ne hrow']
        exact if_congr (by omega) rfl rfl
    · have hnext : lowerHalf p (row + 1) = false := by
        rw [lowerHalf, Bool.eq_false_iff.mpr htall, Bool.and_false]
      rw [if_neg htall, ih (row + 1) _ (by omega) hnext]
      by_cases hr : r = row
      · subst hr
        rw [if_neg (by omega), if_pos ⟨Nat.le_refl _, Nat.not_le.mp hend⟩, Function.update_self]
        exact hown
      · rw [Function.update_of_ne hr]
        exact if_congr (by omega) rfl rfl

end

/-- The parts of large characters are right of and below their first cell, and nowhere else. -/
structure Tiled (size : Nat → Nat → Nat) : Prop where
  overTop : ∀ row < rows, ∀ column < extColumns, size row column = vbiOverTop ↔
    0 < column ∧ (size row (column - 1) = vbiDoubleWidth ∨ size row (column - 1) = vbiDoubleSize)
  doubleHeight2 : ∀ row < rows, ∀ column < extColumns, size row column = vbiDoubleHeight2 ↔
    0 < row ∧ size (row - 1) column = vbiDoubleHeight
  doubleSize2 : ∀ row < rows, ∀ column < extColumns, size row column = vbiDoubleSize2 ↔
    0 < row ∧ size (row - 1) column = vbiDoubleSize
  overBottom : ∀ row < rows, ∀ column < extColumns, size row column = vbiOverBottom ↔
    0 < column ∧ size row (column - 1) = vbiDoubleSize2

def high (size : Nat) : Bool := size == vbiDoubleHeight || size == vbiDoubleSize

theorem tiled_congr {size size' : Nat → Nat → Nat}
    (h : ∀ row < rows, ∀ column < extColumns, size row column = size' row column) :
    Tiled size ↔ Tiled size' := by
  have hkeep : ∀ {size size' : Nat → Nat → Nat},
      (∀ row < rows, ∀ column < extColumns, size row column = size' row column) →
      Tiled size → Tiled size' := by
    intro size size' h htiled
    have hleft : ∀ row < rows, ∀ column < extColumns,
        size row (column - 1) = size' row (column - 1) := by
      intro row hrow column hcolumn
      exact h row hrow _ (Nat.lt_of_le_of_lt (Nat.sub_le _ _) hcolumn)
    have habove : ∀ row < rows, ∀ column < extColumns,
        size (row - 1) column = size' (row - 1) column := by
      intro row hrow column hcolumn
      exact h _ (Nat.lt_of_le_of_lt (Nat.sub_le _ _) hrow) column hcolumn
    refine ⟨?_, ?_, ?_, ?_⟩
    · intro row hrow column hcolumn
      rw [← h row hrow column hcolumn, ← hleft row hrow column hcolumn]
      exact htiled.overTop row hrow column hcolumn
    · intro row hrow column hcolumn
      rw [← h row hrow column hcolumn, ← habove row hrow column hcolumn]
      exact htiled.doubleHeight2 row hrow column hcolumn
    · intro row hrow column hcolumn
      rw [← h row hrow column hcolumn, ← habove row hrow column hcolumn]
      exact htiled.doubleSize2 row hrow column hcolumn
    · intro row hrow column hcolumn
      rw [← h row hrow column hcolumn, ← hleft row hrow column hcolumn]
      exact htiled.overBottom row hrow column hcolumn
  exact ⟨hkeep h, hkeep fun row hrow column hcolumn => (h row hrow column hcolumn).symm⟩

variable {lower raw upper : Nat}

section
variable (p : LopPage)

theorem cellSize_le (row column : Nat) : cellSize p row column ≤ vbiOverTop := by
  rw [cellSize]
  split
  · exact Nat.le_refl _
  split
  · decide
  · exact (columnSize_lt p row column).le

theorem high_sizeAt (h : high (sizeAt raw size) = true) : high size = true := by
  rw [sizeAt] at h
  split at h
  · exact absurd h (by decide)
  · exact h

theorem high_sizeAfter {row column : Nat} (h : high (sizeAfter row column raw size) = true) :
    tall row column raw = true ∨ high size = true := by
  rw [sizeAfter] at h
  split at h
  · rename_i hheight
    split at h
    · rename_i htall
      left
      rw [tall, htall, hheight]
      rfl
    · exact Or.inr h
  split at h
  · split at h
    · exact absurd h (by decide)
    · exact Or.inr h
  split at h
  · rename_i hsize
    split at h
    · rename_i hboth
      left
      rw [tall, hboth.2, hsize, decide_eq_true hboth.1]
      rfl
    · exact Or.inr h
  · exact Or.inr h

/-- Double height comes from an attribute of the row. -/
theorem tall_of_pendingSize {row n : Nat} (h : high (pendingSize p row n) = true) :
    ∃ c < n, tall row c (rawChar p row c) = true := by
  induction n with
  | zero => exact absurd h (by decide : ¬ high vbiNormalSize = true)
  | succ n ih =>
    rcases high_sizeAfter h with htall | hbefore
    · exact ⟨n, Nat.lt_succ_self n, htall⟩
    · obtain ⟨c, hc, htall⟩ := ih (high_sizeAt hbefore)
      exact ⟨c, Nat.lt_succ_of_lt hc, htall⟩

theorem doubled_of_cellSize {row column : Nat} (hcolumn : column < columns)
    (h : high (cellSize p row column) = true) : doubled p row = true := by
  have hcolumnSize : high (columnSize p row column) = true := by
    rw [cellSize] at h
    split at h
    · exact absurd h (by decide)
    split at h
    · exact absurd h (by decide)
    · exact h
  obtain ⟨c, hc, htall⟩ := tall_of_pendingSize p (high_sizeAt hcolumnSize)
  exact List.any_eq_true.mpr ⟨c, List.mem_range.mpr (Nat.lt_trans hc hcolumn), htall⟩

theorem pageSize_own {row : Nat} (h : lowerHalf p row = false) (column : Nat) :
    pageSize p row column = cellSize p row column := by
  rw [pageSize, h]
  rfl

theorem pageSize_lower {row : Nat} (h : lowerHalf p (row + 1) = true) (column : Nat) :
    pageSize p (row + 1) column = lowerSize (pageSize p row) column := by
  have hupper : lowerHalf p row = false := by
    rw [lowerHalf, Bool.and_eq_true, Bool.not_eq_true'] at h
    exact h.1
  rw [pageSize, if_pos h]
  exact lowerSize_congr fun c _ => (pageSize_own p hupper c).symm

/-- The sizes of a row below others, and the sizes above them. -/
theorem lowerSize_cases (cell : Nat → Nat) (column : Nat) :
    (cell column = vbiDoubleHeight ∧ lowerSize cell column = vbiDoubleHeight2) ∨
      (cell column = vbiDoubleSize ∧ lowerSize cell column = vbiDoubleSize2) ∨
      ((0 < column ∧ cell (column - 1) = vbiDoubleSize) ∧
        lowerSize cell column = vbiOverBottom) ∨
      lowerSize cell column = vbiNormalSize := by
  rw [lowerSize]
  split
  · rename_i hheight
    exact Or.inl ⟨hheight, rfl⟩
  split
  · rename_i hsize
    exact Or.inr (Or.inl ⟨hsize, rfl⟩)
  split
  · rename_i hleft
    exact Or.inr (Or.inr (Or.inl ⟨hleft, rfl⟩))
  · exact Or.inr (Or.inr (Or.inr rfl))

/-- A cell below others extends neither down nor to the right, and is no right half. -/
theorem lowerSize_single (cell : Nat → Nat) (column : Nat) :
    high (lowerSize cell column) = false ∧ wide (lowerSize cell column) = false ∧
      lowerSize cell column ≠ vbiOverTop := by
  rcases lowerSize_cases cell column with ⟨-, h⟩ | ⟨-, h⟩ | ⟨-, h⟩ | h
  all_goals
    rw [h]
    decide

/-- The row above one which is formatted does not extend into it. -/
theorem high_above {row column : Nat} (hcolumn : column < columns)
    (h : lowerHalf p (row + 1) = false) : high (pageSize p row column) = false := by
  cases hrow : lowerHalf p row with
  | true =>
    rw [pageSize, if_pos hrow]
    exact (lowerSize_single _ column).1
  | false =>
    rw [pageSize_own p hrow, Bool.eq_false_iff]
    intro hhigh
    rw [lowerHalf, hrow, doubled_of_cellSize p hcolumn hhigh] at h
    exact absurd h (by decide)

theorem page_overTop (row : Nat) {column : Nat} (hcolumn : column < columns) :
    pageSize p row column = vbiOverTop ↔
      0 < column ∧ wide (pageSize p row (column - 1)) = true := by
  cases hrow : lowerHalf p row with
  | true =>
    have hnone : ∀ c, pageSize p row c ≠ vbiOverTop ∧ wide (pageSize p row c) = false := by
      intro c
      rw [pageSize, if_pos hrow]
      obtain ⟨-, hwide, hright⟩ := lowerSize_single (cellSize p (row - 1)) c
      exact ⟨hright, hwide⟩
    refine iff_of_false (hnone column).1 fun h => ?_
    exact absurd ((hnone _).2.symm.trans h.2) Bool.false_ne_true
  | false =>
    rw [pageSize_own p hrow, pageSize_own p hrow, cellSize_overTop, wide_cellSize]
    cases column with
    | zero => exact iff_of_false Bool.false_ne_true fun h => Nat.lt_irrefl 0 h.1
    | succ column =>
      have hinside : column < columns - 1 := Nat.lt_pred_of_succ_lt hcolumn
      exact ⟨fun h => ⟨Nat.succ_pos _, hinside, h⟩, fun h => h.2.2⟩

theorem lowerSize_eq_doubleHeight2 (cell : Nat → Nat) (column : Nat) :
    lowerSize cell column = vbiDoubleHeight2 ↔ cell column = vbiDoubleHeight := by
  refine ⟨fun h => ?_, lowerSize_height⟩
  rcases lowerSize_cases cell column with ⟨hcell, -⟩ | ⟨-, hsize⟩ | ⟨-, hsize⟩ | hsize
  · exact hcell
  all_goals exact absurd (h.symm.trans hsize) (by decide)

theorem lowerSize_eq_doubleSize2 (cell : Nat → Nat) (column : Nat) :
    lowerSize cell column = vbiDoubleSize2 ↔ cell column = vbiDoubleSize := by
  refine ⟨fun h => ?_, lowerSize_double⟩
  rcases lowerSize_cases cell column with ⟨-, hsize⟩ | ⟨hcell, -⟩ | ⟨-, hsize⟩ | hsize
  · exact absurd (h.symm.trans hsize) (by decide)
  · exact hcell
  all_goals exact absurd (h.symm.trans hsize) (by decide)

theorem lowerSize_eq_overBottom {cell : Nat → Nat} {column : Nat}
    (h : lowerSize cell column = vbiOverBottom) :
    0 < column ∧ cell (column - 1) = vbiDoubleSize := by
  rcases lowerSize_cases cell column with ⟨-, hsize⟩ | ⟨-, hsize⟩ | ⟨hleft, -⟩ | hsize
  · exact absurd (h.symm.trans hsize) (by decide)
  · exact absurd (h.symm.trans hsize) (by decide)
  · exact hleft
  · exact absurd (h.symm.trans hsize) (by decide)

theorem cellSize_ne {row column : Nat} (h : vbiOverTop < size) :
    cellSize p row column ≠ size :=
  (Nat.lt_of_le_of_lt (cellSize_le p row column) h).ne

/-- A size below others is where the upper size is in the row above. -/
theorem page_below (hlower : vbiOverTop < lower) (hupper : high upper = true)
    (hiff : ∀ cell column, lowerSize cell column = lower ↔ cell column = upper) (row : Nat)
    {column : Nat} (hcolumn : column < columns) :
    pageSize p row column = lower ↔ 0 < row ∧ pageSize p (row - 1) column = upper := by
  cases row with
  | zero =>
    rw [pageSize_own p rfl]
    exact iff_of_false (cellSize_ne p hlower) fun h => Nat.lt_irrefl 0 h.1
  | succ row =>
    cases hrow : lowerHalf p (row + 1) with
    | true =>
      rw [pageSize_lower p hrow, hiff]
      exact (and_iff_right (Nat.succ_pos row)).symm
    | false =>
      rw [pageSize_own p hrow]
      refine iff_of_false (cellSize_ne p hlower) fun h => ?_
      have hnone := high_above p hcolumn hrow
      have habove : pageSize p row column = upper := h.2
      rw [habove, hupper] at hnone
      exact Bool.false_ne_true hnone.symm

theorem page_doubleSize2 (row : Nat) {column : Nat} (hcolumn : column < columns) :
    pageSize p row column = vbiDoubleSize2 ↔
      0 < row ∧ pageSize p (row - 1) column = vbiDoubleSize :=
  page_below p (by decide) (by decide) lowerSize_eq_doubleSize2 row hcolumn

/-- The lower right part of a character is below the upper right one. -/
theorem above_overBottom {row column : Nat} (hcolumn : column < columns)
    (h : pageSize p row column = vbiOverBottom) :
    0 < row ∧ 0 < column ∧ pageSize p (row - 1) (column - 1) = vbiDoubleSize ∧
      pageSize p (row - 1) column = vbiOverTop := by
  cases row with
  | zero =>
    rw [pageSize_own p rfl] at h
    exact absurd h (cellSize_ne p (by decide))
  | succ row =>
    cases hrow : lowerHalf p (row + 1) with
    | false =>
      rw [pageSize_own p hrow] at h
      exact absurd h (cellSize_ne p (by decide))
    | true =>
      rw [pageSize_lower p hrow] at h
      obtain ⟨hpos, hleft⟩ := lowerSize_eq_overBottom h
      refine ⟨Nat.succ_pos row, hpos, hleft, ?_⟩
      exact (page_overTop p row hcolumn).mpr ⟨hpos, (wide_iff _).mpr (Or.inr hleft)⟩

theorem page_overBottom (row : Nat) {column : Nat} (hcolumn : column < columns) :
    pageSize p row column = vbiOverBottom ↔
      0 < column ∧ pageSize p row (column - 1) = vbiDoubleSize2 := by
  have hprev : column - 1 < columns := Nat.lt_of_le_of_lt (Nat.sub_le _ _) hcolumn
  rw [page_doubleSize2 p row hprev]
  constructor
  · intro h
    obtain ⟨hrow, hpos, hleft, -⟩ := above_overBottom p hcolumn h
    exact ⟨hpos, hrow, hleft⟩
  · rintro ⟨hpos, hrow, hleft⟩
    obtain ⟨row, rfl⟩ := Nat.exists_eq_succ_of_ne_zero hrow.ne'
    obtain ⟨column, rfl⟩ := Nat.exists_eq_succ_of_ne_zero hpos.ne'
    have hright : pageSize p row (column + 1) = vbiOverTop :=
      (page_overTop p row hcolumn).mpr ⟨hpos, (wide_iff _).mpr (Or.inr hleft)⟩
    cases hlower : lowerHalf p (row + 1) with
    | true => exact (pageSize_lower p hlower _).trans (lowerSize_corner hright hleft)
    | false =>
      have hnone := high_above p hprev hlower
      have habove : pageSize p row (column + 1 - 1) = vbiDoubleSize := hleft
      rw [habove] at hnone
      exact absurd hnone (by decide)

/-- No character of the last column extends to the right. -/
theorem page_last (row : Nat) :
    wide (pageSize p row 39) = false ∧ pageSize p row 39 ≠ vbiDoubleSize2 := by
  have hown : ∀ row, lowerHalf p row = false → wide (pageSize p row 39) = false := by
    intro row hrow
    rw [pageSize_own p hrow, Bool.eq_false_iff, ne_eq, wide_cellSize]
    exact fun h => Nat.lt_irrefl 39 h.1
  cases hrow : lowerHalf p row with
  | false =>
    refine ⟨hown row hrow, ?_⟩
    rw [pageSize_own p hrow]
    exact cellSize_ne p (by decide)
  | true =>
    cases row with
    | zero => exact absurd hrow Bool.false_ne_true
    | succ row =>
      have hupper : lowerHalf p row = false := by
        rw [lowerHalf, Bool.and_eq_true, Bool.not_eq_true'] at hrow
        exact hrow.1
      rw [pageSize_lower p hrow, ne_eq, lowerSize_eq_doubleSize2]
      constructor
      · exact (lowerSize_single _ 39).2.1
      · intro hsize
        have hnone := hown row hupper
        rw [hsize] at hnone
        exact absurd hnone (by decide)

def finalSize (extended : Bool) (row column : Nat) : Nat :=
  if column < columns then pageSize p row column
  else if row = 0 ∨ extended = true then pageSize p row 39
  else vbiNormalSize

theorem finalSize_inside (extended : Bool) (row : Nat) {column : Nat} (h : column < columns) :
    finalSize p extended row column = pageSize p row column := if_pos h

theorem finalSize_last (extended : Bool) (row : Nat) :
    finalSize p extended row 40 =
      if row = 0 ∨ extended = true then pageSize p row 39 else vbiNormalSize := rfl

/-- Column 39 of the rows which the 41st column repeats is not the right half of a character. -/
structure Repeatable (extended : Bool) : Prop where
  header : rightHalf p 0 39 = false
  body : extended = true → ∀ row, 1 ≤ row → row < rows → lowerHalf p row = false →
    rightHalf p row 39 = false

theorem repeatable_iff (extended : Bool) :
    Repeatable p extended ↔ ∀ row < rows, row = 0 ∨ extended = true →
      pageSize p row 39 ≠ vbiOverTop := by
  constructor
  · intro h row hrow hcopied hsize
    cases hlower : lowerHalf p row with
    | true =>
      rw [pageSize, if_pos hlower] at hsize
      exact absurd hsize (lowerSize_single _ 39).2.2
    | false =>
      rw [pageSize_own p hlower, cellSize_overTop] at hsize
      by_cases hzero : row = 0
      · subst hzero
        exact absurd (hsize.symm.trans h.header) (by decide)
      · have hbody := h.body (hcopied.resolve_left hzero)
        have hright := hbody row (Nat.pos_of_ne_zero hzero) hrow hlower
        exact absurd (hsize.symm.trans hright) (by decide)
  · intro h
    refine ⟨?_, fun hext row _ hrow hlower => ?_⟩
    · have hzero := h 0 (by decide) (Or.inl rfl)
      rw [pageSize_own p rfl, ne_eq, cellSize_overTop] at hzero
      exact Bool.eq_false_iff.mpr hzero
    · have hcopied := h row hrow (Or.inr hext)
      rw [pageSize_own p hlower, ne_eq, cellSize_overTop] at hcopied
      exact Bool.eq_false_iff.mpr hcopied

/-- The header does not extend into the next row. -/
theorem high_header : high (pageSize p 0 39) = false := by
  rw [pageSize_own p rfl, Bool.eq_false_iff]
  intro hhigh
  have hdoubled := doubled_of_cellSize p (by decide) hhigh
  rw [doubled, List.any_eq_true] at hdoubled
  obtain ⟨c, -, htall⟩ := hdoubled
  exact Bool.false_ne_true htall

/-- The 41st column has the lower parts of the characters above, as the others. -/
theorem final_below (hlower : vbiOverTop < lower) (hupper : high upper = true)
    (hiff : ∀ cell column, lowerSize cell column = lower ↔ cell column = upper) (extended : Bool)
    (row : Nat) {column : Nat} (hcolumn : column < extColumns) :
    finalSize p extended row column = lower ↔
      0 < row ∧ finalSize p extended (row - 1) column = upper := by
  rcases Nat.lt_succ_iff_lt_or_eq.mp hcolumn with hin | rfl
  · rw [finalSize_inside p _ _ hin, finalSize_inside p _ _ hin]
    exact page_below p hlower hupper hiff row hin
  have hpage := page_below p hlower hupper hiff row (show 39 < columns by decide)
  change finalSize p extended row 40 = lower ↔ 0 < row ∧ finalSize p extended (row - 1) 40 = upper
  rw [finalSize_last, finalSize_last]
  by_cases hext : extended = true
  · rw [if_pos (Or.inr hext), if_pos (Or.inr hext)]
    exact hpage
  by_cases hrow : row = 0
  · subst hrow
    have hnone : ¬ pageSize p 0 39 = lower := fun h => Nat.lt_irrefl 0 (hpage.mp h).1
    exact iff_of_false hnone fun h => Nat.lt_irrefl 0 h.1
  rw [if_neg fun h => h.elim hrow hext]
  refine iff_of_false (Nat.lt_trans (by decide) hlower).ne fun h => ?_
  have hsize := h.2
  split at hsize
  · rename_i hheader
    rw [hheader.resolve_right hext] at hsize
    have hnone := high_header p
    rw [hsize, hupper] at hnone
    exact Bool.false_ne_true hnone.symm
  · rw [← hsize] at hupper
    exact absurd hupper (by decide)

/-- The 41st column repeats a part of a character, or it does not extend to the right. -/
theorem tiled_finalSize (extended : Bool) :
    Tiled (finalSize p extended) ↔ Repeatable p extended := by
  have hlast := page_last p
  have hleft : ∀ row, finalSize p extended row (40 - 1) = pageSize p row 39 := fun row => rfl
  rw [repeatable_iff]
  constructor
  · intro h row hrow hcopied hsize
    have htop := (h.overTop row hrow 40 (by decide)).mp
      (by rw [finalSize_last, if_pos hcopied, hsize])
    rw [hleft, ← wide_iff, (hlast row).1] at htop
    exact Bool.false_ne_true htop.2
  · intro h
    have hinside : ∀ column < extColumns, column < columns ∨ column = 40 := by
      intro column hcolumn
      exact Nat.lt_succ_iff_lt_or_eq.mp hcolumn
    have hprev : ∀ {column : Nat}, column < columns → column - 1 < columns :=
      fun hcolumn => Nat.lt_of_le_of_lt (Nat.sub_le _ _) hcolumn
    refine ⟨fun row hrow column hcolumn => ?_, fun row hrow column hcolumn => ?_,
      fun row hrow column hcolumn => ?_, fun row hrow column hcolumn => ?_⟩
    · rw [← wide_iff]
      rcases hinside column hcolumn with hin | rfl
      · rw [finalSize_inside p _ _ hin, finalSize_inside p _ _ (hprev hin)]
        exact page_overTop p row hin
      · rw [hleft, (hlast row).1, finalSize_last]
        refine iff_of_false ?_ fun h => Bool.false_ne_true h.2
        split
        · rename_i hcopied
          exact h row hrow hcopied
        · decide
    · exact final_below p (by decide) (by decide) lowerSize_eq_doubleHeight2 extended row hcolumn
    · exact final_below p (by decide) (by decide) lowerSize_eq_doubleSize2 extended row hcolumn
    · rcases hinside column hcolumn with hin | rfl
      · rw [finalSize_inside p _ _ hin, finalSize_inside p _ _ (hprev hin)]
        exact page_overBottom p row hin
      · rw [hleft, finalSize_last]
        refine iff_of_false ?_ fun h => (hlast row).2 h.2
        split
        · rename_i hcopied
          intro hsize
          obtain ⟨hpos, -, -, habove⟩ := above_overBottom p (by decide) hsize
          have hext := hcopied.resolve_left hpos.ne'
          exact h (row - 1) (by omega) (Or.inr hext) habove
        · decide

end

theorem setLast_apply (text : Text) (row : Nat) (ac : VbiChar) (r c : Nat) :
    setLast text row ac r c = if r = row ∧ c = 40 then ac else text r c := by
  rw [setLast]
  by_cases hr : r = row
  · subst hr
    rw [Function.update_self]
    by_cases hc : c = 40
    · subst hc
      rw [Function.update_self, if_pos ⟨rfl, rfl⟩]
    · rw [Function.update_of_ne hc, if_neg fun h => hc h.2]
  · rw [Function.update_of_ne hr, if_neg fun h => hr h.1]

theorem setLast_inside (text : Text) (row : Nat) (ac : VbiChar) (r : Nat) (h : c ≠ 40) :
    setLast text row ac r c = text r c := by
  rw [setLast_apply, if_neg fun hlast => h hlast.2]

theorem foldl_setLast (g : VbiChar → VbiChar) (l : List Nat) (text : Text) (r c : Nat) :
    l.foldl (fun text row => setLast text row (g (text row 39))) text r c =
      if r ∈ l ∧ c = 40 then g (text r 39) else text r c := by
  induction l generalizing text with
  | nil =>
    rw [List.foldl_nil, if_neg fun h => List.not_mem_nil h.1]
  | cons row l ih =>
    rw [List.foldl_cons, ih, setLast_inside _ _ _ r (by decide)]
    by_cases hlater : r ∈ l ∧ c = 40
    · rw [if_pos hlater, if_pos ⟨List.mem_cons_of_mem _ hlater.1, hlater.2⟩]
    rw [if_neg hlater, setLast_apply]
    by_cases hfirst : r = row ∧ c = 40
    · obtain ⟨rfl, rfl⟩ := hfirst
      rw [if_pos ⟨rfl, rfl⟩, if_pos ⟨List.mem_cons_self, rfl⟩]
    · have hnone : ¬ (r ∈ row :: l ∧ c = 40) := by
        rintro ⟨hmem, hc⟩
        rcases List.mem_cons.mp hmem with hr | hr
        · exact hfirst ⟨hr, hc⟩
        · exact hlater ⟨hr, hc⟩
      rw [if_neg hfirst, if_neg hnone]

/-- The text which is formatted before the 41st column. -/
def levelOne (sets : CharacterSets) (magazine : Extension) (p : LopPage) (text : Text) : Text :=
  formatRows sets (extensionOf magazine p) p rows rows 0 text

/-- Column 0 is in use in some row, and column 39 continues in the 41st column. -/
def extendsColumn39 (text : Text) : Bool := !black0 text && cont39 text

theorem extendsColumn39_setLast (text : Text) (ac : VbiChar) :
    extendsColumn39 (setLast text 0 ac) = extendsColumn39 text := by
  have hcell : ∀ row, ∀ c ≠ 40, setLast text 0 ac row c = text row c :=
    fun row c hc => setLast_inside text 0 ac row hc
  simp only [extendsColumn39, black0, cont39, hcell _ 0 (by decide), hcell _ 38 (by decide),
    hcell _ 39 (by decide)]

theorem mem_bodyRows : r ∈ bodyRows ↔ r ≠ 0 ∧ r < rows := by
  rw [bodyRows, List.mem_range'_1]
  have hrows : rows = 25 := rfl
  omega

/-- The cells after a loop over the rows of the body. -/
theorem body_size (text : Text) (header : VbiChar) (g : VbiChar → VbiChar) (hr : r < rows)
    (hc : c < extColumns) :
    (bodyRows.foldl (fun text row => setLast text row (g (text row 39)))
      (setLast text 0 header) r c).size =
      if c < columns then (text r c).size
      else if r = 0 then header.size
      else (g (text r 39)).size := by
  rw [foldl_setLast, setLast_inside _ _ _ _ (show 39 ≠ 40 by decide)]
  by_cases hin : c < columns
  · have hlast : c ≠ 40 := hin.ne
    rw [if_neg fun h => hlast h.2, if_pos hin, setLast_inside _ _ _ _ hlast]
  have hlast : c = 40 := Nat.le_antisymm (Nat.lt_succ_iff.mp hc) (Nat.not_lt.mp hin)
  rw [if_neg hin]
  by_cases hzero : r = 0
  · rw [if_pos hzero, if_neg fun h => (mem_bodyRows.mp h.1).1 hzero, setLast_apply,
      if_pos ⟨hzero, hlast⟩]
  · rw [if_neg hzero, if_pos ⟨mem_bodyRows.mpr ⟨hzero, hr⟩, hlast⟩]

theorem column41_size (ext : Extension) (p : LopPage) (text : Text) (hr : r < rows)
    (hc : c < extColumns) :
    (column41 ext p rows text r c).size =
      if c < columns then (text r c).size
      else if r = 0 ∨ extendsColumn39 text = true then (text r 39).size
      else vbiNormalSize := by
  have hext := extendsColumn39_setLast text { text 0 39 with unicode := 0x0020 }
  rw [column41, if_neg (by decide)]
  by_cases hextends : extendsColumn39 text = true
  · have hboth := hext.trans hextends
    rw [extendsColumn39, Bool.and_eq_true] at hboth
    rw [if_pos hboth]
    refine (body_size text _ (fun ac => if vbiIsGfx ac.unicode then ac
      else { ac with unicode := 0x0020 }) hr hc).trans ?_
    rw [if_pos (Or.inr hextends)]
    refine if_congr Iff.rfl rfl ?_
    split
    · rename_i hzero
      rw [hzero]
    · split
      · rfl
      · rfl
  · have hboth : ¬ _ := fun hboth => hextends (hext.symm.trans hboth)
    rw [extendsColumn39, Bool.and_eq_true] at hboth
    rw [if_neg hboth]
    refine (body_size text _ (fun _ => blankChar ext (pageOpacity p 1)) hr hc).trans ?_
    refine if_congr Iff.rfl rfl ?_
    by_cases hzero : r = 0
    · rw [if_pos hzero, if_pos (Or.inl hzero), hzero]
    · rw [if_neg hzero, if_neg fun h => h.elim hzero hextends]
      rfl

theorem formatted_size (sets : CharacterSets) (magazine : Extension) {p : LopPage} (text : Text)
    (h : p.function = pageFunctionLop) :
    ∃ pg, vbiFormatVtPage sets p magazine text rows = some pg ∧
      ∀ row < rows, ∀ column < extColumns, (pg row column).size =
        finalSize p (extendsColumn39 (levelOne sets magazine p text)) row column := by
  have hlop : ¬ (p.function ≠ pageFunctionLop ∧ p.function ≠ pageFunctionEacemTrigger) :=
    fun hother => hother.1 h
  refine ⟨_, if_neg hlop, fun r hr c hc => ?_⟩
  have hlevelOne : ∀ c < columns, (levelOne sets magazine p text r c).size = pageSize p r c := by
    intro c hc
    rw [levelOne, formatRows_size p sets _ rows 0 text (Nat.le_refl _) rfl r hc,
      if_pos ⟨Nat.zero_le _, hr⟩]
  refine (column41_size _ p (levelOne sets magazine p text) hr hc).trans ?_
  rw [finalSize]
  by_cases hin : c < columns
  · rw [if_pos hin, if_pos hin, hlevelOne c hin]
  · rw [if_neg hin, if_neg hin, hlevelOne 39 (by decide)]

/-- The characters of a formatted page tile all rows and columns if and only if the 41st column
does not repeat the right half of a character. -/
theorem formatted_tiled_iff (sets : CharacterSets) (magazine : Extension) (p : LopPage)
    (text : Text) (h : p.function = pageFunctionLop) :
    ∃ pg, vbiFormatVtPage sets p magazine text rows = some pg ∧
      (Tiled (fun row column => (pg row column).size) ↔
        Repeatable p (extendsColumn39 (levelOne sets magazine p text))) := by
  obtain ⟨pg, hpg, hsize⟩ := formatted_size sets magazine text h
  refine ⟨pg, hpg, ?_⟩
  rw [← tiled_finalSize]
  exact tiled_congr hsize

/-- A page of spaces with an attribute of double width in a column of all rows. -/
def wideAt (column : Nat) : LopPage where
  function := pageFunctionLop
  pgno := 0x100
  subno := 0
  national := 0
  flags := 0
  lopPackets := 0x1FFFFFF
  x26Designations := 0
  x27Designations := 0
  x28Designations := 0
  extDesignations := 0
  data := ⟨fun _ c => if c = column then 0x0E else 0x20, ExtensionPackets.emptyExtension⟩

def plainSets : CharacterSets := fun _ _ _ raw => raw

def clearedText : Text := fun _ _ => clearedChar

/-- A character with its left half in column 38. -/
theorem column38_not_tiled :
    ∃ pg, vbiFormatVtPage plainSets (wideAt 37) ExtensionPackets.emptyExtension clearedText rows =
      some pg ∧ ¬ Tiled fun row column => (pg row column).size := by
  obtain ⟨pg, hpg, hsize⟩ :=
    @formatted_size plainSets ExtensionPackets.emptyExtension (wideAt 37) clearedText rfl
  refine ⟨pg, hpg, fun htiled => ?_⟩
  have hright : pageSize (wideAt 37) 0 39 = vbiOverTop := by decide +kernel
  have hheader := (tiled_finalSize (wideAt 37) _).mp ((tiled_congr hsize).mp htiled)
  exact absurd hright ((repeatable_iff _ _).mp hheader 0 (by decide) (Or.inl rfl))

/-- The character in the last column has normal size. -/
theorem column39_tiled :
    ∃ pg, vbiFormatVtPage plainSets (wideAt 38) ExtensionPackets.emptyExtension clearedText rows =
      some pg ∧ Tiled fun row column => (pg row column).size := by
  obtain ⟨pg, hpg, hiff⟩ :=
    formatted_tiled_iff plainSets ExtensionPackets.emptyExtension (wideAt 38) clearedText rfl
  have hnone : ∀ row < rows, rightHalf (wideAt 38) row 39 = false := by decide +kernel
  exact ⟨pg, hpg, hiff.mpr ⟨hnone 0 (by decide), fun _ row _ hrow _ => hnone row hrow⟩⟩

end TeletextTiling

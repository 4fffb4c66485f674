import Zvbi.CaptionFrame

/-!
# The rows a caption command changes

Commands and characters change the current row of a channel, in both pages. Besides these
only the commands which erase a page change other rows, and the carriage return which rolls
up a window. That one also blanks the first cell of the row after the current one.
-/

namespace CaptionRows
open Caption CaptionFrame

def InRow (row k : Nat) : Prop := row * columns ≤ k ∧ k < row * columns + columns

instance (row k : Nat) : Decidable (InRow row k) := inferInstanceAs (Decidable (_ ∧ _))

def InWindow (ch : Channel) (k : Nat) : Prop :=
  ch.row1 * columns ≤ k ∧ k < (ch.row1 + ch.roll) * columns

instance (ch : Channel) (k : Nat) : Decidable (InWindow ch k) :=
  inferInstanceAs (Decidable (_ ∧ _))

/-- The row pointer is in row `row` of the hidden page, and cursor and window are on the
page. -/
structure Placed (ch : Channel) : Prop where
  page : ch.linePage = ch.hidden
  start : ch.lineStart = ch.row * columns
  row : ch.row ≤ 14
  first : 1 ≤ ch.col1
  order : ch.col1 ≤ ch.col
  last : ch.col ≤ 33
  roll : 1 ≤ ch.roll
  window : ch.row1 + ch.roll ≤ 15

structure RowOnly (ch t : Channel) : Prop where
  placed : Placed t
  row : t.row = ch.row
  row1 : t.row1 = ch.row1
  roll : t.roll = ch.roll
  hidden : t.hidden = ch.hidden
  mode : t.mode = ch.mode
  cells : ∀ page k, ¬InRow ch.row k → (t.pg page).text k = (ch.pg page).text k

variable {ch : Channel} {row : Nat}

theorem RowOnly.refl (h : Placed ch) : RowOnly ch ch :=
  ⟨h, rfl, rfl, rfl, rfl, rfl, fun _ _ _ => rfl⟩

variable {t u : Channel} {i k : Nat} {f : Page → Page}

theorem RowOnly.trans (h : RowOnly ch t) (h' : RowOnly t u) : RowOnly ch u := by
  refine ⟨h'.placed, h'.row.trans h.row, h'.row1.trans h.row1, h'.roll.trans h.roll,
    h'.hidden.trans h.hidden, h'.mode.trans h.mode, fun page k hk => ?_⟩
  rw [h'.cells page k (by rw [h.row]; exact hk), h.cells page k hk]

theorem inRow_add (h : Placed ch) (hi : i < columns) : InRow ch.row (ch.lineStart + i) := by
  rw [InRow, h.start]
  omega

theorem setCell_row (h : Placed ch) (c : VbiChar) (hi : i < columns) :
    RowOnly ch (setCell ch c i) := by
  refine ⟨⟨h.page, h.start, h.row, h.first, h.order, h.last, h.roll, h.window⟩,
    rfl, rfl, rfl, rfl, rfl, fun page k hk => ?_⟩
  have hne : k ≠ ch.lineStart + i := fun heq => hk (heq ▸ inRow_add h hi)
  show ((if page = ch.linePage then _ else ch.pg page : Page).text k) = _
  split
  · rename_i hpage
    rw [hpage]
    exact if_neg hne
  · rfl

theorem onPage_text (ch : Channel) (page : Bool) (hf : ∀ pg, (f pg).text = pg.text) (p : Bool) :
    ((onPage ch page f).pg p).text = (ch.pg p).text := by
  show (if p = page then f (ch.pg p) else ch.pg p).text = _
  split
  · rw [hf]
  · rfl

theorem onPage_row (h : Placed ch) (page : Bool) (hf : ∀ pg, (f pg).text = pg.text) :
    RowOnly ch (onPage ch page f) :=
  ⟨⟨h.page, h.start, h.row, h.first, h.order, h.last, h.roll, h.window⟩,
    rfl, rfl, rfl, rfl, rfl, fun p k _ => congrFun (onPage_text ch page hf p) k⟩

theorem rollUp_text (first last : Int) (pg : Page) : (rollUp first last pg).text = pg.text := by
  rw [rollUp]

theorem render_text (row : Int) (pg : Page) : (render row pg).text = pg.text := rfl

theorem update_apply (ch : Channel) (page : Bool) (k : Nat) : ((update ch).pg page).text k =
    if page = (!ch.hidden) ∧ ch.lineStart ≤ k ∧ k < ch.lineStart + columns then
      (ch.pg ch.linePage).text k
    else (ch.pg page).text k := by
  show ((if page = !ch.hidden then _ else ch.pg page : Page).text k) = _
  by_cases hpage : page = !ch.hidden
  · rw [if_pos hpage]
    simp only [hpage, true_and]
  · rw [if_neg hpage, if_neg fun h => hpage h.1]

theorem update_row (h : Placed ch) : RowOnly ch (update ch) := by
  refine ⟨⟨h.page, h.start, h.row, h.first, h.order, h.last, h.roll, h.window⟩,
    rfl, rfl, rfl, rfl, rfl, fun page k hk => ?_⟩
  rw [InRow, ← h.start] at hk
  rw [update_apply, if_neg fun hin => hk hin.2]

theorem fillCells_row (h : Placed ch) (c : VbiChar) (first : Nat) {stop : Nat}
    (hstop : stop ≤ columns) : RowOnly ch (fillCells ch c first stop) := by
  have hfold : ∀ (cells : List Nat) (t : Channel), RowOnly ch t → (∀ i ∈ cells, i < columns) →
      RowOnly ch (cells.foldl (fun ch i => setCell ch c i) t) := by
    intro cells
    induction cells with
    | nil => exact fun t ht _ => ht
    | cons i cells ih =>
      intro t ht hcells
      exact ih (setCell t c i) (ht.trans (setCell_row ht.placed c (hcells i List.mem_cons_self)))
        fun k hk => hcells k (List.mem_cons_of_mem i hk)
  refine hfold _ ch (RowOnly.refl h) fun i hi => ?_
  obtain ⟨k, hk, rfl⟩ := List.mem_range'.mp hi
  omega

theorem attr_row (h : Placed ch) (attr : VbiChar) : RowOnly ch { ch with attr := attr } :=
  ⟨⟨h.page, h.start, h.row, h.first, h.order, h.last, h.roll, h.window⟩,
    rfl, rfl, rfl, rfl, rfl, fun _ _ _ => rfl⟩

theorem moveCol_row (h : Placed ch) {col col1 : Nat} (hfirst : 1 ≤ col1) (horder : col1 ≤ col)
    (hlast : col ≤ 33) : RowOnly ch { ch with col := col, col1 := col1 } :=
  ⟨⟨h.page, h.start, h.row, hfirst, horder, hlast, h.roll, h.window⟩,
    rfl, rfl, rfl, rfl, rfl, fun _ _ _ => rfl⟩

theorem padWord_row (h : Placed ch) : RowOnly ch (padWord ch) := by
  have hlast := h.last
  have horder := h.order
  have hset : ∀ (t : Channel) (c : VbiChar) (i : Nat), RowOnly ch t → i < columns →
      RowOnly ch (setCell t c i) := fun t c i ht hi => ht.trans (setCell_row ht.placed c hi)
  unfold padWord
  dsimp only
  split
  · generalize hleft : (if !isSpace (cell ch ch.col1) ∧
        (cell ch (ch.col1 - 1)).opacity = .transparentSpace then
        setCell ch { cell ch ch.col1 with unicode := 0x20 } (ch.col1 - 1) else ch) = t
    have ht : RowOnly ch t ∧ t.col = ch.col := by
      rw [← hleft]
      split
      · exact ⟨hset ch _ _ (RowOnly.refl h) (by rw [columns]; omega), rfl⟩
      · exact ⟨RowOnly.refl h, rfl⟩
    split
    · exact hset t _ _ ht.1 (by rw [columns, ht.2]; omega)
    · exact ht.1
  · exact RowOnly.refl h

theorem wordBreak_row (h : Placed ch) (upd : Bool) : RowOnly ch (wordBreak ch upd) := by
  have hpad := padWord_row h
  unfold wordBreak
  dsimp only
  split
  · exact hpad
  · have hupdate := update_row hpad.placed
    exact (hpad.trans hupdate).trans (onPage_row hupdate.placed true fun _ => rfl)

theorem putChar_row (h : Placed ch) (c : VbiChar) : RowOnly ch (putChar ch c) := by
  have horder := h.order
  have hlast := h.last
  have hput : RowOnly ch (if ch.col < columns - 1 then
      { setCell ch c ch.col with col := ch.col + 1 } else setCell ch c (columns - 2)) := by
    split
    · rename_i hcol
      rw [columns] at hcol
      have hset := setCell_row h c (show ch.col < columns by rw [columns]; omega)
      refine hset.trans (moveCol_row hset.placed h.first ?_ (by omega))
      show ch.col1 ≤ ch.col + 1
      omega
    · exact setCell_row h c (by decide)
  unfold putChar
  dsimp only
  split
  · exact hput.trans (wordBreak_row hput.placed true)
  · exact hput

theorem putCharSpace_row (h : Placed ch) : RowOnly ch (putCharSpace ch) :=
  putChar_row h _

theorem indent_row (h : Placed ch) (space : VbiChar) (n : Nat) :
    RowOnly ch (indent ch space n) := by
  have hfirst := h.first
  have horder := h.order
  have hlast := h.last
  have hstop : max ch.col (min (ch.col + n) (columns - 1)) ≤ 33 := by
    rw [columns]
    omega
  have hfill := fillCells_row h space ch.col (show _ ≤ columns from Nat.le_trans hstop (by decide))
  unfold indent
  dsimp only
  split
  · exact hfill.trans (moveCol_row hfill.placed (by omega) (Nat.le_refl _) hstop)
  · exact hfill

theorem backgroundAttr_row (h : Placed ch) (c2 : Nat) : RowOnly ch (backgroundAttr ch c2) :=
  (attr_row h _).trans (putCharSpace_row (attr_row h _).placed)

theorem midrowCode_row (h : Placed ch) (c2 : Nat) : RowOnly ch (midrowCode ch c2) :=
  (attr_row h _).trans (putCharSpace_row (attr_row h _).placed)

theorem specialCharacter_row (h : Placed ch) (space : VbiChar) (c2 : Nat) :
    RowOnly ch (specialCharacter ch space c2) := by
  unfold specialCharacter
  split
  · split
    · rename_i hcol
      rw [columns] at hcol
      have hset := setCell_row h space (show ch.col < columns by rw [columns]; omega)
      exact hset.trans (moveCol_row hset.placed (by omega) (Nat.le_refl _) (by omega))
    · exact setCell_row h space (by decide)
  · exact putChar_row h _

theorem backspace_row (h : Placed ch) (space : VbiChar) : RowOnly ch (backspace ch space) := by
  have hfirst := h.first
  have horder := h.order
  have hlast := h.last
  unfold backspace
  dsimp only
  split
  · have hset : RowOnly ch (setCell ch space (ch.col - 1)) :=
      setCell_row h space (by rw [columns]; omega)
    split
    · exact hset.trans (moveCol_row hset.placed (by show 1 ≤ ch.col - 1; omega) (Nat.le_refl _)
        (by show ch.col - 1 ≤ 33; omega))
    · rename_i hless
      exact hset.trans (moveCol_row hset.placed hfirst (Nat.not_lt.mp hless)
        (by show ch.col - 1 ≤ 33; omega))
  · exact RowOnly.refl h

theorem deleteToEndOfRow_row (h : Placed ch) (space : VbiChar) :
    RowOnly ch (deleteToEndOfRow ch space) := by
  unfold deleteToEndOfRow
  split
  · exact RowOnly.refl h
  · have hfill := fillCells_row h space ch.col (Nat.le_refl columns)
    have hbreak := hfill.trans (wordBreak_row hfill.placed false)
    have hupdate := update_row hbreak.placed
    dsimp only
    split
    · exact (hbreak.trans hupdate).trans (onPage_row hupdate.placed _ fun _ => rfl)
    · exact hbreak

theorem attrBackspace_row (h : Placed ch) : RowOnly ch (attrBackspace ch) := by
  have hlast := h.last
  unfold attrBackspace
  split
  · exact setCell_row h _ (by rw [columns]; omega)
  · exact RowOnly.refl h

theorem tabsAndAttributes_row (h : Placed ch) (space : VbiChar) (c2 : Nat) :
    RowOnly ch (tabsAndAttributes ch space c2) := by
  unfold tabsAndAttributes
  split
  · exact RowOnly.refl h
  split
  · exact indent_row h space _
  split
  · exact (attr_row h _).trans (attrBackspace_row (attr_row h _).placed)
  split
  · exact (attr_row h _).trans (attrBackspace_row (attr_row h _).placed)
  · exact RowOnly.refl h

theorem putText_row (h : Placed ch) (attr : VbiChar) (b : UInt8) :
    RowOnly ch (putText ch attr b) := by
  unfold putText
  split
  · exact RowOnly.refl h
  · exact putChar_row h _

theorem nulCt_row (h : Placed ch) (n : Nat) : RowOnly ch { ch with nulCt := n } :=
  ⟨⟨h.page, h.start, h.row, h.first, h.order, h.last, h.roll, h.window⟩,
    rfl, rfl, rfl, rfl, rfl, fun _ _ _ => rfl⟩

theorem characters_row (h : Placed ch) (b0 b1 : UInt8) : RowOnly ch (characters ch b0 b1) := by
  unfold characters
  dsimp only
  split
  · split
    · split
      · have hbreak := wordBreak_row h true
        exact hbreak.trans (nulCt_row hbreak.placed _)
      · exact nulCt_row h _
    · exact RowOnly.refl h
  · have hquiet := nulCt_row h 0
    split
    · exact hquiet
    · have hfirst := putText_row hquiet.placed ch.attr b0
      exact (hquiet.trans hfirst).trans (putText_row hfirst.placed _ b1)

structure Stays (ch t : Channel) : Prop where
  placed : Placed t
  cells : ∀ page k, ¬InRow ch.row k → ¬InRow t.row k → (t.pg page).text k = (ch.pg page).text k

theorem RowOnly.stays (h : RowOnly ch t) : Stays ch t :=
  ⟨h.placed, fun page k hk _ => h.cells page k hk⟩

theorem setCursor_placed (h : Placed ch) (hrow : row ≤ 14) : Placed (setCursor ch 1 row) :=
  ⟨rfl, rfl, hrow, Nat.le_refl 1, Nat.le_refl 1, show 1 ≤ 33 by decide, h.roll, h.window⟩

theorem setCursor_stays (h : Placed ch) (hrow : row ≤ 14) : Stays ch (setCursor ch 1 row) :=
  ⟨setCursor_placed h hrow, fun _ _ _ _ => rfl⟩

/-- Changes of the row the cursor leaves and of the row it is moved to. -/
theorem Stays.between {v : Channel} (h : RowOnly ch t) (hmove : Stays t u) (h' : RowOnly u v) :
    Stays ch v := by
  refine ⟨h'.placed, fun page k hbefore hafter => ?_⟩
  rw [h'.row] at hafter
  rw [h'.cells page k hafter, hmove.cells page k (by rw [h.row]; exact hbefore) hafter,
    h.cells page k hbefore]

def preambleRow (c1 c2 : Nat) : Int := rowMapping (c1 % 8 * 2 + c2 / 32 % 2)

def WindowMoves (ch : Channel) (c1 c2 : Nat) : Prop :=
  ch.mode = .rollUp ∧ 0 ≤ preambleRow c1 c2 ∧ (preambleRow c1 c2).toNat + 1 - ch.roll ≠ ch.row1

instance (ch : Channel) (c1 c2 : Nat) : Decidable (WindowMoves ch c1 c2) :=
  inferInstanceAs (Decidable (_ ∧ _ ∧ _))

theorem moveToRow_placed (h : Placed ch) (space : VbiChar) (hrow : row ≤ 14) :
    Placed (moveToRow ch space row) := by
  have hroll := h.roll
  have hwindow := h.window
  unfold moveToRow
  split
  · dsimp only
    split
    · refine ⟨rfl, rfl, ?_, Nat.le_refl 1, Nat.le_refl 1, show 1 ≤ 33 by decide, hroll, ?_⟩
      · show row + 1 - ch.roll + ch.roll - 1 ≤ 14
        omega
      · show row + 1 - ch.roll + ch.roll ≤ 15
        omega
    · exact setCursor_placed h (by omega)
  · exact setCursor_placed h hrow

theorem moveToRow_stays (h : Placed ch) (space : VbiChar) (hrow : row ≤ 14)
    (hwindow : ch.mode = .rollUp → row + 1 - ch.roll = ch.row1) :
    Stays ch (moveToRow ch space row) := by
  refine ⟨moveToRow_placed h space hrow, fun page k _ _ => ?_⟩
  unfold moveToRow
  split
  · rename_i hmode
    dsimp only
    rw [if_neg fun hne => hne (hwindow hmode)]
    rfl
  · rfl

theorem preambleAddress_placed (h : Placed ch) (space : VbiChar) (c1 c2 : Nat) :
    Placed (preambleAddress ch space c1 c2) := by
  have hle := rowMapping_le (c1 * 2 + c2 / 32 % 2)
  unfold preambleAddress
  dsimp only
  split
  · exact h
  · have hmoved := fun attr => moveToRow_placed (wordBreak_row (attr_row h attr).placed true).placed
      space (show (rowMapping (c1 * 2 + c2 / 32 % 2)).toNat ≤ 14 by omega)
    split
    · exact (attr_row (indent_row (hmoved _) space _).placed _).placed
    · exact (attr_row (hmoved _) _).placed

theorem preambleAddress_stays (h : Placed ch) (space : VbiChar) {c1 c2 : Nat}
    (hwindow : ¬WindowMoves ch c1 c2) : Stays ch (preambleAddress ch space (c1 % 8) c2) := by
  have hle := rowMapping_le (c1 % 8 * 2 + c2 / 32 % 2)
  unfold preambleAddress
  dsimp only
  split
  · exact (RowOnly.refl h).stays
  · rename_i hgoes
    have hkept : ch.mode = .rollUp →
        (rowMapping (c1 % 8 * 2 + c2 / 32 % 2)).toNat + 1 - ch.roll = ch.row1 := by
      intro hmode
      by_contra hne
      exact hwindow ⟨hmode, Int.not_lt.mp fun hneg => hgoes (Or.inl hneg), hne⟩
    have hleft := fun attr => (attr_row h attr).trans (wordBreak_row (attr_row h attr).placed true)
    have hmoved := fun attr => moveToRow_stays (hleft attr).placed space
      (show (rowMapping (c1 % 8 * 2 + c2 / 32 % 2)).toNat ≤ 14 by omega)
      (by rw [(hleft attr).mode, (hleft attr).roll, (hleft attr).row1]; exact hkept)
    split
    · have hindent := fun attr => indent_row (hmoved attr).placed space (c2 % 16 / 2 * 2 * 2)
      exact Stays.between (hleft _) (hmoved _) ((hindent _).trans (attr_row (hindent _).placed _))
    · exact Stays.between (hleft _) (hmoved _) (attr_row (hmoved _).placed _)

theorem rollUpCaptions_placed (h : Placed ch) {roll : Nat} (hlow : 1 ≤ roll) (hhigh : roll ≤ 15) :
    Placed (rollUpCaptions ch roll) := by
  unfold rollUpCaptions
  split
  · exact h
  · have hwindow : 14 + 1 - roll + roll ≤ 15 := by omega
    exact ⟨rfl, rfl, Nat.le_refl 14, Nat.le_refl 1, Nat.le_refl 1, show 1 ≤ 33 by decide, hlow,
      hwindow⟩

theorem mode_placed (h : Placed ch) (mode : CcMode) : Placed { ch with mode := mode } :=
  ⟨h.page, h.start, h.row, h.first, h.order, h.last, h.roll, h.window⟩

theorem endOfCaption_placed (h : Placed ch) : Placed (endOfCaption ch) := by
  have hbreak := (wordBreak_row (mode_placed h .popOn) true).placed
  exact ⟨rfl, rfl, show 14 ≤ 14 by decide, Nat.le_refl 1, Nat.le_refl 1, show 1 ≤ 33 by decide,
    hbreak.roll, hbreak.window⟩

theorem eraseDisplayed_placed (h : Placed ch) (space : VbiChar) :
    Placed (eraseDisplayed ch space) := by
  unfold eraseDisplayed
  dsimp only
  split
  · exact ⟨h.page, h.start, h.row, h.first, h.order, h.last, h.roll, h.window⟩
  · exact ⟨h.page, h.start, h.row, h.first, h.order, h.last, h.roll, h.window⟩

theorem eraseNonDisplayed_placed (h : Placed ch) (space : VbiChar) :
    Placed (eraseNonDisplayed ch space) := by
  unfold eraseNonDisplayed
  split
  · exact ⟨h.page, h.start, h.row, h.first, h.order, h.last, h.roll, h.window⟩
  · exact h

theorem resetChannel_placed (hhidden : ch.hidden = false) (isText : Bool) :
    Placed (resetChannel ch isText) := by
  cases isText with
  | false =>
    exact ⟨hhidden, rfl, Nat.le_refl 14, Nat.le_refl 1, Nat.le_refl 1, show 1 ≤ 33 by decide,
      show 1 ≤ 3 by decide, show 12 + 3 ≤ 15 by decide⟩
  | true =>
    exact ⟨hhidden, rfl, Nat.zero_le 14, Nat.le_refl 1, Nat.le_refl 1, show 1 ≤ 33 by decide,
      show 1 ≤ 15 by decide, show 0 + 15 ≤ 15 by decide⟩

def scrolledPage (ch : Channel) : Bool := if ch.mode ≠ .popOn then !ch.hidden else ch.hidden

theorem fillCells_text (ch : Channel) (c : VbiChar) (first stop : Nat) :
    ∃ pg stray, fillCells ch c first stop = { ch with pg := pg, stray := stray } ∧
      ∀ page k, (pg page).text k =
        if page = ch.linePage ∧ ch.lineStart + first ≤ k ∧ k < ch.lineStart + stop then c
        else (ch.pg page).text k := by
  have hfold : ∀ (cells : List Nat) (t : Channel), ∃ pg stray,
      cells.foldl (fun ch i => setCell ch c i) t = { t with pg := pg, stray := stray } ∧
        ∀ page k, (pg page).text k =
          if page = t.linePage ∧ ∃ i ∈ cells, k = t.lineStart + i then c
          else (t.pg page).text k := by
    intro cells
    induction cells with
    | nil =>
      refine fun t => ⟨t.pg, t.stray, rfl, fun page k => (if_neg ?_).symm⟩
      rintro ⟨-, i, hi, -⟩
      exact List.not_mem_nil hi
    | cons i cells ih =>
      intro t
      obtain ⟨pg, stray, hfill, htext⟩ := ih (setCell t c i)
      refine ⟨pg, stray, hfill, fun page k => ?_⟩
      have hset : ((setCell t c i).pg page).text k =
          if page = t.linePage ∧ k = t.lineStart + i then c else (t.pg page).text k := by
        show ((if page = t.linePage then _ else t.pg page : Page).text k) = _
        by_cases hpage : page = t.linePage
        · rw [if_pos hpage, hpage]
          simp only [true_and]
        · rw [if_neg hpage, if_neg fun h => hpage h.1]
      rw [htext, hset, show (setCell t c i).linePage = t.linePage from rfl,
        show (setCell t c i).lineStart = t.lineStart from rfl]
      by_cases hpage : page = t.linePage
      · simp only [hpage, true_and, List.mem_cons, exists_eq_or_imp]
        by_cases hk : k = t.lineStart + i
        · simp only [hk, if_true, true_or, ite_self]
        · simp only [hk, if_false, false_or]
      · simp only [hpage, false_and, if_false]
  obtain ⟨pg, stray, hfill, htext⟩ := hfold (List.range' first (stop - first)) ch
  refine ⟨pg, stray, hfill, fun page k => ?_⟩
  have hmem : (∃ i ∈ List.range' first (stop - first), k = ch.lineStart + i) ↔
      ch.lineStart + first ≤ k ∧ k < ch.lineStart + stop := by
    constructor
    · rintro ⟨i, hi, rfl⟩
      rw [List.mem_range'_1] at hi
      omega
    · intro hk
      exact ⟨k - ch.lineStart, List.mem_range'_1.mpr (by omega), by omega⟩
  rw [htext]
  simp only [hmem]

theorem update_text (h : Placed ch) (page : Bool) (hk : InRow ch.row k) :
    ((update ch).pg page).text k = (ch.pg ch.hidden).text k := by
  rw [InRow, ← h.start] at hk
  rw [update_apply, h.page]
  by_cases hpage : page = !ch.hidden
  · rw [if_pos ⟨hpage, hk⟩]
  · rw [if_neg fun hin => hpage hin.1, show page = ch.hidden by simpa using hpage]

/-- The row with a space before and behind the last word, in both pages. -/
theorem update_wordBreak_text (h : Placed ch) (page : Bool) (hk : InRow ch.row k) :
    ((update (wordBreak ch true)).pg page).text k =
      ((padWord ch).pg ch.hidden).text k := by
  have hpad := padWord_row h
  have hin : InRow (padWord ch).row k := by
    rw [hpad.row]
    exact hk
  have hbreak := wordBreak_row h true
  rw [update_text hbreak.placed page (by rw [hbreak.row]; exact hk), hbreak.hidden]
  unfold wordBreak
  dsimp only
  split
  · rfl
  · rw [onPage_text _ true (render_text _), ← hpad.hidden]
    exact update_text hpad.placed (padWord ch).hidden hin

/-- The text after a carriage return which scrolls. Besides the current row, the first cell of
the row after it is blanked in the hidden page. -/
theorem scrollUp_text (h : Placed ch) (space : VbiChar) (page : Bool) (k : Nat) :
    ((scrollUp ch space).pg page).text k =
      if InRow ch.row k ∧ (page = ch.hidden ∨ ch.mode ≠ .popOn) then space
      else if page = ch.hidden ∧ k = (ch.row + 1) * columns then space
      else if page = scrolledPage ch ∧ ch.row1 * columns ≤ k ∧
          k < ch.row1 * columns + (ch.roll - 1) * columns then
        ((update (wordBreak ch true)).pg page).text (k + columns)
      else ((update (wordBreak ch true)).pg page).text k := by
  have hbreak := wordBreak_row h true
  have hu := hbreak.trans (update_row hbreak.placed)
  have hscrollUp : scrollUp ch space =
      let w := blankRow (scrollWindow (update (wordBreak ch true)) (scrolledPage ch)) space
      let w := if w.mode ≠ .popOn then onPage (update w) (!w.hidden) (rollUp w.row1 (lastRow w))
        else w
      { w with col := 1, col1 := 1 } := rfl
  rw [hscrollUp]
  generalize update (wordBreak ch true) = u at hu
  have hline : u.linePage = ch.hidden := by rw [hu.placed.page, hu.hidden]
  have hstart : u.lineStart = ch.row * columns := by rw [hu.placed.start, hu.row]
  have hscroll : ((scrollWindow u (scrolledPage ch)).pg page).text k =
      if page = scrolledPage ch ∧ ch.row1 * columns ≤ k ∧
          k < ch.row1 * columns + (ch.roll - 1) * columns then (u.pg page).text (k + columns)
      else (u.pg page).text k := by
    show ((if page = scrolledPage ch then _ else u.pg page : Page).text k) = _
    by_cases hpage : page = scrolledPage ch
    · rw [if_pos hpage, ← hu.row1, ← hu.roll]
      simp only [hpage, true_and]
      rfl
    · rw [if_neg hpage, if_neg fun hin => hpage hin.1]
  obtain ⟨pg, stray, hfill, htext⟩ :=
    fillCells_text (scrollWindow u (scrolledPage ch)) space 0 (columns + 1)
  have hblank : ∀ q, (pg q).text k =
      if q = ch.hidden ∧ (InRow ch.row k ∨ k = (ch.row + 1) * columns) then space
      else ((scrollWindow u (scrolledPage ch)).pg q).text k := by
    intro q
    have hrange : u.lineStart + 0 ≤ k ∧ k < u.lineStart + (columns + 1) ↔
        InRow ch.row k ∨ k = (ch.row + 1) * columns := by
      rw [hstart, InRow, Nat.add_mul]
      omega
    rw [htext]
    exact if_congr (and_congr (iff_of_eq (congrArg (q = ·) hline)) hrange) rfl rfl
  rw [blankRow, hfill]
  dsimp only
  rw [show (scrollWindow u (scrolledPage ch)).mode = ch.mode from hu.mode]
  by_cases hmode : ch.mode ≠ .popOn
  · -- The blank row is copied to the page which was scrolled.
    rw [if_pos hmode, onPage_text _ _ (rollUp_text _ _), update_apply]
    show (if page = (!u.hidden) ∧ u.lineStart ≤ k ∧ k < u.lineStart + columns then
      (pg u.linePage).text k else (pg page).text k) = _
    rw [hu.hidden, hline, hstart, hblank, hblank, ← hscroll]
    have hrow : ch.row * columns ≤ k ∧ k < ch.row * columns + columns ↔ InRow ch.row k := Iff.rfl
    simp only [hrow]
    by_cases hpage : page = ch.hidden
    · have hother : ¬ch.hidden = !ch.hidden := by simp
      simp only [hother, false_and, if_false, hpage, true_and, true_or, and_true]
      by_cases hin : InRow ch.row k
      · simp only [hin, true_or, if_true]
      · simp only [hin, false_or, if_false]
    · have hother : page = !ch.hidden := Bool.eq_not.mpr hpage
      by_cases hin : InRow ch.row k
      · simp only [hother, hin, hmode, ne_eq, not_false_eq_true, or_true, true_or, and_self,
          if_true]
      · simp only [hin, hpage, and_false, false_and, if_false]
  · rw [if_neg hmode, hblank, hscroll]
    by_cases hpage : page = ch.hidden
    · simp only [hpage, true_and, true_or, and_true]
      by_cases hin : InRow ch.row k
      · simp only [hin, true_or, if_true]
      · simp only [hin, false_or, if_false]
    · simp only [hpage, hmode, or_self, and_false, false_and, if_false]

theorem scrollWindow_placed (h : Placed ch) (page : Bool) : Placed (scrollWindow ch page) :=
  ⟨h.page, h.start, h.row, h.first, h.order, h.last, h.roll, h.window⟩

theorem blankRow_placed (h : Placed ch) (space : VbiChar) :
    Placed (blankRow ch space) ∧ (blankRow ch space).row = ch.row := by
  obtain ⟨pg, stray, hfill, -⟩ := fillCells_text ch space 0 (columns + 1)
  rw [blankRow, hfill]
  exact ⟨⟨h.page, h.start, h.row, h.first, h.order, h.last, h.roll, h.window⟩, rfl⟩

theorem scrollUp_placed (h : Placed ch) (space : VbiChar) :
    Placed (scrollUp ch space) ∧ (scrollUp ch space).row = ch.row := by
  have hbreak := wordBreak_row h true
  have hu := hbreak.trans (update_row hbreak.placed)
  have hblank := blankRow_placed (scrollWindow_placed hu.placed (scrolledPage ch)) space
  rw [show (scrollWindow (update (wordBreak ch true)) (scrolledPage ch)).row = ch.row from
    hu.row] at hblank
  rw [scrollUp]
  dsimp only
  rw [show (if ch.mode ≠ .popOn then !ch.hidden else ch.hidden) = scrolledPage ch from rfl]
  generalize blankRow (scrollWindow (update (wordBreak ch true)) (scrolledPage ch)) space = w
    at hblank
  obtain ⟨hw, hrow⟩ := hblank
  split
  · have hupdate := update_row hw
    have hroll := hupdate.trans (onPage_row hupdate.placed (!w.hidden)
      (rollUp_text w.row1 (lastRow w)))
    have hmove := moveCol_row hroll.placed (Nat.le_refl 1) (Nat.le_refl 1) (by decide)
    exact ⟨hmove.placed, (hroll.trans hmove).row.trans hrow⟩
  · have hmove := moveCol_row hw (Nat.le_refl 1) (Nat.le_refl 1) (by decide)
    exact ⟨hmove.placed, hmove.row.trans hrow⟩

/-- Besides the current row and the window, the first cell of the next row changes. -/
theorem scrollUp_cells (h : Placed ch) (space : VbiChar) (page : Bool) (hrow : ¬InRow ch.row k)
    (hwindow : ¬InWindow ch k) (hnext : ¬(page = ch.hidden ∧ k = (ch.row + 1) * columns)) :
    ((scrollUp ch space).pg page).text k = (ch.pg page).text k := by
  have hbreak := wordBreak_row h true
  have hu := hbreak.trans (update_row hbreak.placed)
  have hroll := h.roll
  have hshift : ¬(page = scrolledPage ch ∧ ch.row1 * columns ≤ k ∧
      k < ch.row1 * columns + (ch.roll - 1) * columns) := by
    rintro ⟨-, hlow, hhigh⟩
    refine hwindow ⟨hlow, ?_⟩
    simp only [columns] at *
    omega
  rw [scrollUp_text h, if_neg fun hin => hrow hin.1, if_neg hnext, if_neg hshift]
  exact hu.cells page k hrow

/-- The window moves up by one row. The last row, which is the current one, moves with spaces
around its last word and is blank afterwards. Nothing but this row changes in the other
page. -/
structure RolledUp (ch t : Channel) (space : VbiChar) : Prop where
  moved : ∀ r c, ch.row1 ≤ r → r + 1 < ch.row → c < columns →
    (t.pg (scrolledPage ch)).text (r * columns + c) =
      (ch.pg (scrolledPage ch)).text ((r + 1) * columns + c)
  last : ∀ r c, ch.row1 ≤ r → r + 1 = ch.row → c < columns →
    (t.pg (scrolledPage ch)).text (r * columns + c) =
      ((padWord ch).pg ch.hidden).text (ch.row * columns + c)
  blank : ∀ c < columns, (t.pg (scrolledPage ch)).text (ch.row * columns + c) = space
  other : ∀ k < rows * columns, ¬InRow ch.row k →
    (t.pg (!scrolledPage ch)).text k = (ch.pg (!scrolledPage ch)).text k

/-- The first cell of the row after the current one is blank in the hidden page, or there is no
such row. -/
def NextBlank (ch : Channel) (space : VbiChar) : Prop :=
  ch.row = 14 ∨ (ch.pg ch.hidden).text ((ch.row + 1) * columns) = space

instance (ch : Channel) (space : VbiChar) : Decidable (NextBlank ch space) :=
  inferInstanceAs (Decidable (_ ∨ _))

theorem scrollUp_rolledUp (h : Placed ch) (space : VbiChar) (hlast : ch.row = lastRow ch)
    (hnext : NextBlank ch space) : RolledUp ch (scrollUp ch space) space := by
  have hbreak := wordBreak_row h true
  have hu := hbreak.trans (update_row hbreak.placed)
  have hroll := h.roll
  have hrow := h.row
  have hwindow := h.window
  rw [lastRow, rows] at hlast
  have hshifted : ∀ r c, ch.row1 ≤ r → r + 1 ≤ ch.row → c < columns →
      ((scrollUp ch space).pg (scrolledPage ch)).text (r * columns + c) =
        ((update (wordBreak ch true)).pg (scrolledPage ch)).text ((r + 1) * columns + c) := by
    intro r c hlow hhigh hc
    rw [scrollUp_text h, if_neg, if_neg, if_pos, Nat.add_mul, Nat.one_mul, Nat.add_right_comm]
    · refine ⟨rfl, ?_⟩
      simp only [columns] at *
      omega
    · simp only [columns] at *
      omega
    · rw [InRow]
      simp only [columns] at *
      omega
  have hin : ∀ c < columns, InRow ch.row (ch.row * columns + c) := fun c hc =>
    ⟨Nat.le_add_right _ _, Nat.add_lt_add_left hc _⟩
  refine ⟨fun r c hlow hhigh hc => ?_, fun r c hlow hhigh hc => ?_, fun c hc => ?_,
    fun k hk hout => ?_⟩
  · rw [hshifted r c hlow (Nat.le_of_lt hhigh) hc]
    refine hu.cells _ _ ?_
    rw [InRow]
    simp only [columns] at *
    omega
  · rw [hshifted r c hlow (Nat.le_of_eq hhigh) hc, hhigh]
    exact update_wordBreak_text h _ (hin c hc)
  · rw [scrollUp_text h, if_pos]
    refine ⟨hin c hc, ?_⟩
    rw [scrolledPage]
    split
    · exact Or.inr (by assumption)
    · exact Or.inl rfl
  · have hother : ¬(!scrolledPage ch) = scrolledPage ch := by simp
    rw [scrollUp_text h, if_neg fun hin => hout hin.1]
    by_cases hcell : (!scrolledPage ch) = ch.hidden ∧ k = (ch.row + 1) * columns
    · rw [if_pos hcell, hcell.1, hcell.2]
      rcases hnext with hbottom | hblank
      · rw [hcell.2, hbottom] at hk
        exact absurd hk (by decide)
      · exact hblank.symm
    · rw [if_neg hcell, if_neg fun hin => hother hin.1]
      exact hu.cells _ k hout

theorem carriageReturn_placed (h : Placed ch) (space : VbiChar) :
    Placed (carriageReturn ch space) := by
  have hle := lastRow_le ch
  unfold carriageReturn
  split
  · exact h
  split
  · exact setCursor_placed (wordBreak_row h true).placed (by omega)
  · exact (scrollUp_placed h space).1

theorem carriageReturn_stays (h : Placed ch) (space : VbiChar)
    (hscroll : ¬(ch.mode ≠ .none ∧ ¬ch.row < lastRow ch)) : Stays ch (carriageReturn ch space) := by
  have hle := lastRow_le ch
  unfold carriageReturn
  split
  · exact (RowOnly.refl h).stays
  · rename_i hmode
    split
    · have hbreak := wordBreak_row h true
      have hmove := setCursor_stays hbreak.placed (show ch.row + 1 ≤ 14 by omega)
      exact Stays.between hbreak hmove (RowOnly.refl hmove.placed)
    · rename_i hrow
      exact absurd ⟨hmode, hrow⟩ hscroll

end CaptionRows

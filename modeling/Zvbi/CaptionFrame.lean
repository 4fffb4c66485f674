import Zvbi.Caption

/-!
# The cursor of a caption channel stays on its page

The linked fields of a channel, its row pointer, cursor and window, agree with
each other and with the page after every byte pair. Two calls break this. A
channel switch sets the row pointer of a channel in the second page and then
makes the first one current. A carriage return which scrolls a window at the
bottom of the page blanks one cell too many, which is a cell outside the page.
-/

namespace CaptionFrame
open Caption XdsSeparator GuardedRuns

/-- The fields of a channel which tell where it writes. -/
structure Frame where
  col : Nat
  col1 : Nat
  row : Nat
  row1 : Nat
  roll : Nat
  linePage : Bool
  lineStart : Nat
  hidden : Bool
  stray : Bool
  deriving DecidableEq

def frame (ch : Channel) : Frame :=
  ⟨ch.col, ch.col1, ch.row, ch.row1, ch.roll, ch.linePage, ch.lineStart, ch.hidden, ch.stray⟩

/-- The row pointer is in row `row` of the hidden page, cursor and window are on
the page, and nothing was written outside. -/
structure Framed (ch : Channel) : Prop where
  page : ch.linePage = ch.hidden
  start : ch.lineStart = ch.row * columns
  row : ch.row ≤ 14
  first : 1 ≤ ch.col1
  order : ch.col1 ≤ ch.col
  last : ch.col ≤ 33
  roll : 1 ≤ ch.roll
  window : ch.row1 + ch.roll ≤ 15
  inside : ch.stray = false

instance (ch : Channel) : Decidable (Framed ch) :=
  decidable_of_iff (ch.linePage = ch.hidden ∧ ch.lineStart = ch.row * columns ∧ ch.row ≤ 14 ∧
    1 ≤ ch.col1 ∧ ch.col1 ≤ ch.col ∧ ch.col ≤ 33 ∧ 1 ≤ ch.roll ∧ ch.row1 + ch.roll ≤ 15 ∧
    ch.stray = false)
    ⟨fun ⟨a, b, c, d, e, f, g, h, i⟩ => ⟨a, b, c, d, e, f, g, h, i⟩,
      fun ⟨a, b, c, d, e, f, g, h, i⟩ => ⟨a, b, c, d, e, f, g, h, i⟩⟩

variable {ch : Channel} {d : Decoder} {b0 b1 : UInt8}

theorem Framed.of_frame {t : Channel} (h : Framed ch) (heq : frame t = frame ch) : Framed t := by
  simp only [frame, Frame.mk.injEq] at heq
  obtain ⟨hcol, hcol1, hrow, hrow1, hroll, hpage, hstart, hhidden, hstray⟩ := heq
  constructor
  · rw [hpage, hhidden, h.page]
  · rw [hstart, hrow, h.start]
  · rw [hrow]
    exact h.row
  · rw [hcol1]
    exact h.first
  · rw [hcol1, hcol]
    exact h.order
  · rw [hcol]
    exact h.last
  · rw [hroll]
    exact h.roll
  · rw [hrow1, hroll]
    exact h.window
  · rw [hstray]
    exact h.inside

theorem Framed.room (h : Framed ch) : ch.lineStart + columns ≤ rows * columns := by
  have hrow := h.row
  rw [h.start]
  simp only [rows, columns]
  omega

@[simp] theorem frame_onPage (ch : Channel) (page : Bool) (f : Page → Page) :
    frame (onPage ch page f) = frame ch := rfl

variable {i col chan c1 c2 : Nat}

theorem frame_setCell (c : VbiChar) (h : ch.lineStart + i < rows * columns) :
    frame (setCell ch c i) = frame ch := by
  have hin : decide (ch.lineStart + i ≥ rows * columns) = false := decide_eq_false (by omega)
  simp only [setCell, frame, onPage, hin, Bool.or_false]

theorem frame_fillCells (c : VbiChar) {first stop : Nat}
    (h : ch.lineStart + stop ≤ rows * columns) : frame (fillCells ch c first stop) = frame ch := by
  have hfold : ∀ (cells : List Nat) (t : Channel), frame t = frame ch →
      (∀ i ∈ cells, i < stop) → frame (cells.foldl (fun ch i => setCell ch c i) t) = frame ch := by
    intro cells
    induction cells with
    | nil => exact fun t ht _ => ht
    | cons i cells ih =>
      intro t ht hcells
      have hstart : t.lineStart = ch.lineStart := congrArg Frame.lineStart ht
      have hi := hcells i List.mem_cons_self
      have hset : frame (setCell t c i) = frame t := frame_setCell c (by omega)
      exact ih (setCell t c i) (hset.trans ht) fun k hk => hcells k (List.mem_cons_of_mem i hk)
  refine hfold _ ch rfl ?_
  intro i hi
  obtain ⟨k, hk, rfl⟩ := List.mem_range'.mp hi
  omega

theorem frame_update (h : Framed ch) : frame (update ch) = frame ch := by
  have hpage : (ch.linePage != ch.hidden) = false := by
    rw [h.page]
    exact bne_self_eq_false ch.hidden
  have hroom : decide (ch.lineStart + columns > rows * columns) = false :=
    decide_eq_false (Nat.not_lt_of_le h.room)
  simp only [update, frame, onPage, hpage, hroom, Bool.or_false]

theorem frame_padWord (h : Framed ch) : frame (padWord ch) = frame ch := by
  have hroom := h.room
  have hlast := h.last
  have horder := h.order
  simp only [columns, rows] at hroom
  have hset : ∀ (t : Channel) (c : VbiChar) (i : Nat), frame t = frame ch → i < 34 →
      frame (setCell t c i) = frame ch := by
    intro t c i ht hi
    have hstart : t.lineStart = ch.lineStart := congrArg Frame.lineStart ht
    have hcell : t.lineStart + i < rows * columns := by
      simp only [rows, columns]
      omega
    exact (frame_setCell c hcell).trans ht
  unfold padWord
  dsimp only
  split
  · generalize hleft : (if !isSpace (cell ch ch.col1) ∧
        (cell ch (ch.col1 - 1)).opacity = .transparentSpace then
        setCell ch { cell ch ch.col1 with unicode := 0x20 } (ch.col1 - 1) else ch) = t
    have ht : frame t = frame ch := by
      rw [← hleft]
      split
      · exact hset ch _ _ rfl (by omega)
      · rfl
    have hcol : t.col = ch.col := congrArg Frame.col ht
    split
    · exact hset t _ _ ht (by omega)
    · exact ht
  · rfl

theorem frame_wordBreak (h : Framed ch) (upd : Bool) :
    frame (wordBreak ch upd) = frame ch := by
  have hpad := frame_padWord h
  unfold wordBreak
  dsimp only
  split
  · exact hpad
  · rw [frame_onPage, frame_update (h.of_frame hpad), hpad]

theorem wordBreak_framed (h : Framed ch) (upd : Bool) : Framed (wordBreak ch upd) :=
  h.of_frame (frame_wordBreak h upd)

variable {row : Nat} {field2 : Bool} {call : Option DecoderCall} {xds : Xds}

/-- Setting the cursor brings the row pointer back to the hidden page. -/
theorem setCursor_framed (hcol : 1 ≤ col) (hlast : col ≤ 33) (hrow : row ≤ 14) (hroll : 1 ≤ ch.roll)
    (hwindow : ch.row1 + ch.roll ≤ 15) (hinside : ch.stray = false) :
    Framed (setCursor ch col row) :=
  ⟨rfl, rfl, hrow, hcol, Nat.le_refl col, hlast, hroll, hwindow, hinside⟩

theorem setCursor_keeps (h : Framed ch) (hrow : row ≤ 14) : Framed (setCursor ch 1 row) :=
  setCursor_framed (Nat.le_refl 1) (by decide) hrow h.roll h.window h.inside

theorem setCell_framed (h : Framed ch) (c : VbiChar) (hi : i < 34) :
    Framed (setCell ch c i) := by
  have hroom := h.room
  refine h.of_frame (frame_setCell c ?_)
  simp only [columns] at *
  omega

theorem moveCol_framed (h : Framed ch) {col1 : Nat} (hfirst : 1 ≤ col1) (horder : col1 ≤ col)
    (hlast : col ≤ 33) : Framed { ch with col := col, col1 := col1 } :=
  ⟨h.page, h.start, h.row, hfirst, horder, hlast, h.roll, h.window, h.inside⟩

theorem putChar_framed (h : Framed ch) (c : VbiChar) : Framed (putChar ch c) := by
  have horder := h.order
  have hlast := h.last
  have hfirst := h.first
  have hput : Framed (if ch.col < columns - 1 then { setCell ch c ch.col with col := ch.col + 1 }
      else setCell ch c (columns - 2)) := by
    split
    · have hcol : ch.col < 33 := by assumption
      have hset := setCell_framed h c (show ch.col < 34 by omega)
      exact moveCol_framed hset h.first (by change ch.col1 ≤ _; omega) (by omega)
    · exact setCell_framed h c (by decide)
  unfold putChar
  dsimp only
  split
  · exact wordBreak_framed hput true
  · exact hput

theorem indent_framed (h : Framed ch) (space : VbiChar) (n : Nat) :
    Framed (indent ch space n) := by
  have hroom := h.room
  have hlast := h.last
  have hfirst := h.first
  have horder := h.order
  have hstop : max ch.col (min (ch.col + n) (columns - 1)) ≤ 33 := by
    simp only [columns]
    omega
  have hfill : Framed (fillCells ch space ch.col (max ch.col (min (ch.col + n) (columns - 1)))) := by
    refine h.of_frame (frame_fillCells space ?_)
    simp only [columns] at *
    omega
  unfold indent
  dsimp only
  split
  · exact moveCol_framed hfill (by omega) (Nat.le_refl _) hstop
  · exact hfill

theorem attr_framed (h : Framed ch) (attr : VbiChar) : Framed { ch with attr := attr } :=
  h.of_frame rfl

/-- The window of a roll-up channel follows the row of a preamble address. -/
theorem moveToRow_framed (h : Framed ch) (space : VbiChar) (hrow : row ≤ 14) :
    Framed (moveToRow ch space row) := by
  have hroll := h.roll
  have hwindow := h.window
  unfold moveToRow
  split
  · dsimp only
    split
    · refine setCursor_framed (Nat.le_refl 1) (by decide) ?_ hroll ?_ h.inside
      · change row + 1 - ch.roll + ch.roll - 1 ≤ 14
        omega
      · change row + 1 - ch.roll + ch.roll ≤ 15
        omega
    · exact setCursor_keeps h (by omega)
  · exact setCursor_keeps h hrow

theorem rowMapping_le (i : Nat) : rowMapping i ≤ 14 := by
  have hall : ∀ k : Fin 16, rowMapping k ≤ 14 := by decide
  have hmod : rowMapping i = rowMapping (i % 16) := by rw [rowMapping, rowMapping, Nat.mod_mod]
  rw [hmod]
  exact hall ⟨i % 16, Nat.mod_lt i (by decide)⟩

theorem preambleAddress_framed (h : Framed ch) (space : VbiChar) (c1 c2 : Nat) :
    Framed (preambleAddress ch space c1 c2) := by
  have hle := rowMapping_le (c1 * 2 + c2 / 32 % 2)
  unfold preambleAddress
  dsimp only
  split
  · exact h
  · have hmoved := fun attr => moveToRow_framed (wordBreak_framed (attr_framed h attr) true) space
      (show (rowMapping (c1 * 2 + c2 / 32 % 2)).toNat ≤ 14 by omega)
    split
    · exact attr_framed (indent_framed (hmoved _) space _) _
    · exact attr_framed (hmoved _) _

theorem putCharSpace_framed (h : Framed ch) : Framed (putCharSpace ch) :=
  putChar_framed h _

theorem specialCharacter_framed (h : Framed ch) (space : VbiChar) (c2 : Nat) :
    Framed (specialCharacter ch space c2) := by
  have hlast := h.last
  unfold specialCharacter
  split
  · split
    · have hcol : ch.col < 33 := by assumption
      have hset := setCell_framed h space (show ch.col < 34 by omega)
      exact moveCol_framed hset (by omega) (Nat.le_refl _) (by omega)
    · exact setCell_framed h space (by decide)
  · exact putChar_framed h _

theorem rollUpCaptions_framed (h : Framed ch) {roll : Nat} (hlow : 1 ≤ roll) (hhigh : roll ≤ 15) :
    Framed (rollUpCaptions ch roll) := by
  unfold rollUpCaptions
  split
  · exact h
  · have hwindow : 14 + 1 - roll + roll ≤ 15 := by omega
    exact ⟨rfl, rfl, Nat.le_refl 14, Nat.le_refl 1, Nat.le_refl 1, show 1 ≤ 33 by decide, hlow,
      hwindow, h.inside⟩

theorem endOfCaption_framed (h : Framed ch) : Framed (endOfCaption ch) := by
  have hmode : Framed { ch with mode := .popOn } := h.of_frame rfl
  have hbreak := wordBreak_framed hmode true
  exact setCursor_framed (Nat.le_refl 1) (by decide) (by decide) hbreak.roll hbreak.window
    hbreak.inside

theorem backspace_framed (h : Framed ch) (space : VbiChar) : Framed (backspace ch space) := by
  have hfirst := h.first
  have horder := h.order
  have hlast := h.last
  unfold backspace
  dsimp only
  split
  · rename_i hback
    have hset : Framed (setCell ch space (ch.col - 1)) := setCell_framed h space (by omega)
    split
    · have hless : ch.col - 1 < ch.col1 := by assumption
      exact moveCol_framed hset (by change 1 ≤ ch.col - 1; omega) (Nat.le_refl _)
        (by change ch.col - 1 ≤ 33; omega)
    · have hless : ¬ ch.col - 1 < ch.col1 := by assumption
      exact moveCol_framed hset hfirst (by change ch.col1 ≤ ch.col - 1; omega)
        (by change ch.col - 1 ≤ 33; omega)
  · exact h

theorem deleteToEndOfRow_framed (h : Framed ch) (space : VbiChar) :
    Framed (deleteToEndOfRow ch space) := by
  unfold deleteToEndOfRow
  split
  · exact h
  · have hfill : Framed (fillCells ch space ch.col columns) := h.of_frame (frame_fillCells space h.room)
    have hbreak := wordBreak_framed hfill false
    dsimp only
    split
    · refine hbreak.of_frame ?_
      rw [frame_onPage]
      exact frame_update hbreak
    · exact hbreak

theorem eraseDisplayed_framed (h : Framed ch) (space : VbiChar) :
    Framed (eraseDisplayed ch space) := by
  unfold eraseDisplayed
  dsimp only
  split
  · exact h.of_frame rfl
  · exact h.of_frame rfl

theorem eraseNonDisplayed_framed (h : Framed ch) (space : VbiChar) :
    Framed (eraseNonDisplayed ch space) := by
  unfold eraseNonDisplayed
  split
  · exact h.of_frame rfl
  · exact h

theorem attrBackspace_framed (h : Framed ch) : Framed (attrBackspace ch) := by
  have hlast := h.last
  unfold attrBackspace
  split
  · exact setCell_framed h _ (by omega)
  · exact h

theorem tabsAndAttributes_framed (h : Framed ch) (space : VbiChar) (c2 : Nat) :
    Framed (tabsAndAttributes ch space c2) := by
  unfold tabsAndAttributes
  split
  · exact h
  split
  · exact indent_framed h space _
  split
  · exact attrBackspace_framed (attr_framed h _)
  split
  · exact attrBackspace_framed (attr_framed h _)
  · exact h

theorem lastRow_le (ch : Channel) : lastRow ch ≤ 14 := Nat.min_le_right _ _

theorem frame_scrollWindow (h : Framed ch) (page : Bool) :
    frame (scrollWindow ch page) = frame ch := by
  have hwindow := h.window
  have hin : decide ((ch.row1 + ch.roll) * columns > rows * columns) = false := by
    refine decide_eq_false ?_
    simp only [rows, columns]
    omega
  simp only [scrollWindow, frame, onPage, hin, Bool.or_false]

/-- The cell behind the row is still on the page unless the row is the last. -/
theorem frame_blankRow (h : Framed ch) (hrow : ch.row ≠ 14) (space : VbiChar) :
    frame (blankRow ch space) = frame ch := by
  have hle := h.row
  refine frame_fillCells space ?_
  rw [h.start]
  simp only [rows, columns]
  omega

theorem scrollUp_framed (h : Framed ch) (space : VbiChar) (hrow : ch.row ≠ 14) :
    Framed (scrollUp ch space) := by
  have hbreak := wordBreak_framed h true
  have hupdate := hbreak.of_frame (frame_update hbreak)
  have hscroll := fun page => hupdate.of_frame (frame_scrollWindow hupdate page)
  have hsame : ∀ page, (scrollWindow (update (wordBreak ch true)) page).row = ch.row := fun page =>
    congrArg Frame.row ((frame_scrollWindow hupdate page).trans
      ((frame_update hbreak).trans (frame_wordBreak h true)))
  have hblank := fun page => (hscroll page).of_frame
    (frame_blankRow (hscroll page) (by rw [hsame]; exact hrow) space)
  have hfinal : ∀ t : Channel, Framed t → Framed (if t.mode ≠ .popOn then
      onPage (update t) (!t.hidden) (rollUp t.row1 (lastRow t)) else t) := by
    intro t ht
    split
    · refine ht.of_frame ?_
      rw [frame_onPage]
      exact frame_update ht
    · exact ht
  exact moveCol_framed (hfinal _ (hblank _)) (Nat.le_refl 1) (Nat.le_refl 1) (by decide)

theorem carriageReturn_framed (h : Framed ch) (space : VbiChar)
    (hrow : ch.mode ≠ .none → ¬ ch.row < lastRow ch → ch.row ≠ 14) :
    Framed (carriageReturn ch space) := by
  have hle := lastRow_le ch
  unfold carriageReturn
  split
  · exact h
  · rename_i hmode
    split
    · exact setCursor_keeps (wordBreak_framed h true) (by omega)
    · rename_i hlast
      exact scrollUp_framed h space (hrow hmode hlast)

theorem putText_framed (h : Framed ch) (attr : VbiChar) (b : UInt8) :
    Framed (putText ch attr b) := by
  unfold putText
  split
  · exact h
  · exact putChar_framed h _

theorem characters_framed (h : Framed ch) (b0 b1 : UInt8) : Framed (characters ch b0 b1) := by
  unfold characters
  dsimp only
  split
  · split
    · split
      · exact (wordBreak_framed h true).of_frame rfl
      · exact h.of_frame rfl
    · exact h
  · have hquiet : Framed { ch with nulCt := 0 } := h.of_frame rfl
    split
    · exact hquiet
    · exact putText_framed (putText_framed hquiet _ b0) _ b1

def AllFramed (d : Decoder) : Prop := ∀ i, i < 9 → Framed (d.channel i)

theorem setChannel_framed (h : AllFramed d) (chan : Nat) (hch : Framed ch) :
    AllFramed (setChannel d chan ch) := by
  intro i hi
  by_cases heq : i = chan
  · simp only [setChannel, if_pos heq]
    exact hch
  · simp only [setChannel, if_neg heq]
    exact h i hi

theorem switchChannel_framed (h : AllFramed d) {newChan : Nat} (hchan : chan < 9)
    (hnew : newChan < 9) {f : Channel → Channel} (hf : ∀ ch, Framed ch → Framed (f ch)) :
    AllFramed (switchChannel d chan newChan f) := by
  have hleft : AllFramed (setChannel d chan (wordBreak (d.channel chan) true)) :=
    setChannel_framed h chan (wordBreak_framed (h chan hchan) true)
  exact setChannel_framed hleft newChan (hf _ (hleft newChan hnew))

/-- A carriage return which scrolls the window while the cursor is in the last
row of the page. -/
def BottomScroll (ch : Channel) (c1 c2 : Nat) : Prop :=
  (c1 % 8 = 4 ∨ c1 % 8 = 5) ∧ c2 < 0x40 ∧ c2 % 16 = 13 ∧ ch.mode ≠ .none ∧
    ¬ ch.row < lastRow ch ∧ ch.row = 14

instance (ch : Channel) (c1 c2 : Nat) : Decidable (BottomScroll ch c1 c2) :=
  inferInstanceAs (Decidable (_ ∧ _ ∧ _ ∧ _ ∧ _ ∧ _))

theorem miscControl_framed (h : AllFramed d) (hchan : chan < 8) (space : VbiChar)
    (hcode : c1 % 8 = 4 ∨ c1 % 8 = 5) (hc2 : c2 < 0x40)
    (hclean : ¬ BottomScroll (d.channel chan) c1 c2) : AllFramed (miscControl d chan space c2) := by
  have hch := h chan (by omega)
  have hswitch := fun newChan (hnew : newChan < 9) (f : Channel → Channel)
    (hf : ∀ ch, Framed ch → Framed (f ch)) =>
    switchChannel_framed h (show chan < 9 by omega) hnew hf
  have hset := fun ch (ht : Framed ch) => setChannel_framed h chan ht
  have hcaption : chan % 4 < 9 := by omega
  have htext : chan % 4 + 4 < 9 := by omega
  unfold miscControl
  dsimp only
  split
  · exact hswitch _ hcaption _ fun ch ht => ht.of_frame rfl
  · exact hswitch _ hcaption _ fun ch ht => rollUpCaptions_framed ht (by decide) (by decide)
  · exact hswitch _ hcaption _ fun ch ht => rollUpCaptions_framed ht (by decide) (by decide)
  · exact hswitch _ hcaption _ fun ch ht => rollUpCaptions_framed ht (by decide) (by decide)
  · exact hswitch _ hcaption _ fun ch ht => ht.of_frame rfl
  · exact hswitch _ htext _ fun ch ht => setCursor_keeps ht (by decide)
  · exact hswitch _ htext _ fun ch ht => ht
  · exact hswitch _ hcaption _ fun ch ht => endOfCaption_framed ht
  · exact hset _ (hch.of_frame rfl)
  · exact hset _ (backspace_framed hch space)
  · rename_i hcr
    refine hset _ (carriageReturn_framed hch space ?_)
    intro hmode hlast hrow
    exact hclean ⟨hcode, hc2, hcr, hmode, hlast, hrow⟩
  · exact hset _ (deleteToEndOfRow_framed hch space)
  · exact hset _ (eraseDisplayed_framed hch space)
  · exact hset _ (eraseNonDisplayed_framed hch space)
  · exact h

theorem commandChannel_lt (d : Decoder) (c1 : Nat) (field2 : Bool) :
    commandChannel d c1 field2 < 8 := by
  unfold commandChannel
  split <;> split <;> omega

theorem characterChannel_lt (d : Decoder) (field2 : Bool) : characterChannel d field2 < 8 := by
  unfold characterChannel
  split <;> split <;> omega

theorem captionCommand_framed (h : AllFramed d)
    (hclean : ¬ BottomScroll (d.channel (commandChannel d c1 field2)) c1 c2) :
    AllFramed (captionCommand d c1 c2 field2) := by
  have hlt := commandChannel_lt d c1 field2
  have hch := h (commandChannel d c1 field2) (by omega)
  unfold captionCommand
  dsimp only
  split
  · exact setChannel_framed h _ (preambleAddress_framed hch _ _ _)
  · have hc2 : c2 < 0x40 := by omega
    split
    · exact setChannel_framed h _ (putCharSpace_framed (attr_framed hch _))
    · split
      · exact setChannel_framed h _ (specialCharacter_framed hch _ _)
      · exact setChannel_framed h _ (putCharSpace_framed (attr_framed hch _))
    · exact miscControl_framed h hlt _ (Or.inl (by assumption)) hc2 hclean
    · exact miscControl_framed h hlt _ (Or.inr (by assumption)) hc2 hclean
    · exact setChannel_framed h _ (tabsAndAttributes_framed hch _ _)
    · exact h

def Undisplayed (d : Decoder) : Prop := ∀ i, i < 9 → (d.channel i).hidden = false

instance (d : Decoder) : Decidable (Undisplayed d) :=
  inferInstanceAs (Decidable (∀ i, i < 9 → _))

theorem resetChannel_framed (hhidden : ch.hidden = false) (hinside : ch.stray = false)
    (isText : Bool) : Framed (resetChannel ch isText) := by
  cases isText with
  | false =>
    exact ⟨hhidden, rfl, Nat.le_refl 14, Nat.le_refl 1, Nat.le_refl 1, show 1 ≤ 33 by decide,
      show 1 ≤ 3 by decide, show 12 + 3 ≤ 15 by decide, hinside⟩
  | true =>
    exact ⟨hhidden, rfl, Nat.zero_le 14, Nat.le_refl 1, Nat.le_refl 1, show 1 ≤ 33 by decide,
      show 1 ≤ 15 by decide, show 0 + 15 ≤ 15 by decide, hinside⟩

theorem channelSwitched_framed (h : AllFramed d) (hhidden : Undisplayed d) :
    AllFramed (channelSwitched d) :=
  fun i hi => resetChannel_framed (hhidden i hi) (h i hi).inside _

theorem captionInit_framed (network : Network) : AllFramed (captionInit network) :=
  fun _ _ => resetChannel_framed rfl rfl _

def ScrollsInside (d : Decoder) (field2 : Bool) (b0 b1 : UInt8) : Prop :=
  0 ≤ Hamming.vbiUnpar8 b0 → ∀ c ∈ commandOf d field2 b0 b1,
    ¬ BottomScroll (d.channel (commandChannel d c.1 field2)) c.1 c.2

instance (d : Decoder) (field2 : Bool) (b0 b1 : UInt8) :
    Decidable (ScrollsInside d field2 b0 b1) :=
  inferInstanceAs (Decidable (_ → ∀ c ∈ commandOf d field2 b0 b1, _))

theorem clearLast_framed (h : AllFramed d) (field2 : Bool) :
    AllFramed (clearLast d field2) := by
  unfold clearLast
  split
  · exact h
  · exact h

theorem decodeBytes_framed (h : AllFramed d)
    (hclean : ∀ c ∈ commandOf d field2 b0 b1,
      ¬ BottomScroll (d.channel (commandChannel d c.1 field2)) c.1 c.2) :
    AllFramed (decodeBytes d field2 b0 b1) := by
  have hlt := characterChannel_lt d field2
  have hchars := setChannel_framed h (characterChannel d field2)
    (characters_framed (h (characterChannel d field2) (by omega)) b0 b1)
  unfold decodeBytes
  dsimp only
  split
  · exact clearLast_framed h field2
  split
  · cases hof : commandOf d field2 b0 b1 with
    | none => exact clearLast_framed h field2
    | some c =>
      have hdone := captionCommand_framed h (hclean c hof)
      dsimp only
      split
      · exact hdone
      · exact hdone
  · split
    · exact hchars
    · exact clearLast_framed hchars field2

theorem decodePair_framed (h : AllFramed d) (hclean : ScrollsInside d field2 b0 b1) :
    AllFramed (decodePair d field2 b0 b1) := by
  unfold decodePair
  split
  · refine decodeBytes_framed h ?_
    have hnone : commandOf d field2 127 127 = none := by
      rw [commandOf, if_neg]
      rintro ⟨-, hhigh, -⟩
      exact absurd hhigh (by decide)
    rw [hnone]
    exact fun c hc => absurd hc (Option.not_mem_none c)
  · exact decodeBytes_framed h (hclean (by omega))

theorem miscControl_xds (d : Decoder) (chan : Nat) (space : VbiChar) (c2 : Nat) :
    (miscControl d chan space c2).xds = d.xds := by
  unfold miscControl
  dsimp only
  split <;> rfl

theorem captionCommand_xds (d : Decoder) (c1 c2 : Nat) (field2 : Bool) :
    (captionCommand d c1 c2 field2).xds = d.xds := by
  unfold captionCommand
  dsimp only
  split
  · rfl
  · split
    · rfl
    · rfl
    · exact miscControl_xds d _ _ c2
    · exact miscControl_xds d _ _ c2
    · rfl
    · rfl

theorem clearLast_xds (d : Decoder) (field2 : Bool) : (clearLast d field2).xds = d.xds := by
  cases field2 with
  | false => rfl
  | true => rfl

theorem decodeBytes_xds (d : Decoder) (field2 : Bool) (b0 b1 : UInt8) :
    (decodeBytes d field2 b0 b1).xds = d.xds := by
  unfold decodeBytes
  dsimp only
  split
  · exact clearLast_xds d field2
  split
  · split
    · exact clearLast_xds d field2
    · split
      · exact captionCommand_xds d _ _ field2
      · exact captionCommand_xds d _ _ field2
  · split
    · rfl
    · exact clearLast_xds _ field2

/-- Only the separator works on its packets. -/
theorem decodePair_xds (d : Decoder) (field2 : Bool) (b0 b1 : UInt8) :
    (decodePair d field2 b0 b1).xds = d.xds := by
  unfold decodePair
  split
  · exact decodeBytes_xds d field2 127 127
  · exact decodeBytes_xds d field2 b0 b1

/-- The pair completes a packet which identifies another network, so that the
channel is switched. -/
def Identifies (d : Decoder) (b0 b1 : UInt8) : Bool :=
  match decodeLine284 d.xds b0 b1 with
  | some (_, some c, _) => (xdsDecoder d.network c).2
  | _ => false

/-- The condition for one call. A channel switch, also one by a network name,
finds no channel with its second page hidden. A carriage return does not scroll
a window with the cursor at the bottom of the page. The data for the XDS
separator are harmless. -/
def Clean (d : Decoder) : Event → Prop
  | .pair line b0 b1 =>
    (line = 284 → Harmless d.xds (b0, b1) ∧ (Identifies d b0 b1 = true → Undisplayed d)) ∧
      ScrollsInside d (decide (line = 284 ∨ line = 335)) b0 b1
  | .channelSwitched => Undisplayed d

instance (d : Decoder) (e : Event) : Decidable (Clean d e) := by
  unfold Clean
  split <;> infer_instance

theorem applyPacket_framed (h : AllFramed d) {consumed : Bool}
    (hstep : decodeLine284 d.xds b0 b1 = some (xds, call, consumed))
    (hswitch : Identifies d b0 b1 = true → Undisplayed d) :
    AllFramed (applyPacket { d with xds := xds } call) := by
  cases call with
  | none => exact h
  | some c =>
    simp only [applyPacket]
    split
    · rename_i hnew
      refine channelSwitched_framed h (hswitch ?_)
      rw [Identifies, hstep]
      exact hnew
    · exact h

/-- Harmless data keep the separator in its bounds, also when they switch the
channel. -/
theorem applyPacket_bounded (h : XdsSeparator.Bounded xds) :
    XdsSeparator.Bounded (applyPacket { d with xds := xds } call).xds := by
  cases call with
  | none => exact h
  | some c =>
    simp only [applyPacket]
    split
    · exact initial_bounded
    · exact h

/-- Pairs which are not consumed by the separator complete no packet. -/
theorem call_none_of_passed {t : Xds} (h : decodeLine284 xds b0 b1 = some (t, call, false)) :
    call = none := by
  unfold decodeLine284 at h
  dsimp only at h
  have hmap : ∀ f : Xds × Option DecoderCall → Xds, (xdsSeparator xds b0 b1).map
      (fun r => (f r, r.2, true)) ≠ some (t, call, false) := by
    intro f hf
    obtain ⟨r, -, hr⟩ := Option.map_eq_some_iff.mp hf
    simp at hr
  split at h
  · split at h
    · simp at h
    split at h
    · exact absurd h (hmap _)
    split at h
    · simp only [Option.some.injEq, Prod.mk.injEq] at h
      exact h.2.1.symm
    split at h
    · exact absurd h (hmap _)
    · simp only [Option.some.injEq, Prod.mk.injEq] at h
      exact h.2.1.symm
  · split at h
    · exact absurd h (hmap _)
    · simp only [Option.some.injEq, Prod.mk.injEq] at h
      exact h.2.1.symm

theorem handle_keeps (h : AllFramed d) (hx : XdsSeparator.Bounded d.xds) (e : Event)
    (hclean : Clean d e) :
    ∃ t, handle d e = some t ∧ AllFramed t ∧ XdsSeparator.Bounded t.xds := by
  cases e with
  | channelSwitched =>
    exact ⟨_, rfl, channelSwitched_framed h hclean, initial_bounded⟩
  | pair line b0 b1 =>
    obtain ⟨hxds, hscroll⟩ := hclean
    simp only [handle, vbiDecodeCaption]
    by_cases hfirst : line = 21 ∨ line = 22
    · rw [if_pos hfirst]
      rw [decide_eq_false (by omega)] at hscroll
      exact ⟨_, rfl, decodePair_framed h hscroll, by rw [decodePair_xds]; exact hx⟩
    rw [if_neg hfirst]
    by_cases hpal : line = 335
    · rw [if_pos hpal]
      rw [decide_eq_true (by omega)] at hscroll
      exact ⟨_, rfl, decodePair_framed h hscroll, by rw [decodePair_xds]; exact hx⟩
    rw [if_neg hpal]
    by_cases hntsc : line = 284
    · rw [if_pos hntsc]
      rw [decide_eq_true (by omega)] at hscroll
      obtain ⟨hharmless, hswitch⟩ := hxds hntsc
      obtain ⟨xds, call, consumed, hstep, hbounded, -⟩ := decodeLine284_keeps hx hharmless
      simp only [hstep, Option.bind_eq_bind, Option.bind_some]
      have hframed := applyPacket_framed h hstep hswitch
      cases consumed with
      | true => exact ⟨_, rfl, hframed, applyPacket_bounded hbounded⟩
      | false =>
        have hnone := call_none_of_passed hstep
        subst hnone
        refine ⟨_, rfl, ?_, ?_⟩
        · have hscroll' : ScrollsInside { d with xds := xds } true b0 b1 := hscroll
          exact decodePair_framed hframed hscroll'
        · rw [decodePair_xds]
          exact hbounded
    · rw [if_neg hntsc]
      exact ⟨d, rfl, h, hx⟩

end CaptionFrame

import Zvbi.Cc608Dirty

/-!
# Caption rows which changed

In paint-on mode a stream event is sent when the current row differs from its snapshot at the
last event. Mid-row codes and the like are compared as spaces, preamble address codes as cells
which are zero. The event is left out if nothing in the row is visible.
-/

namespace Cc608Changes
open Cc608Decoder Cc608Decoder.Decoder Cc608Format Cc608Rows

/-- How `stream_event()` formats a row. -/
def streamFormat (ch : Channel) : Format := ⟨3#32 < ch.uppercasePredictor, false, false⟩

/-- `stream_event()` for one row: if an event is sent. -/
def streamEvent (ch : Channel) (row : Nat) : Bool :=
  (formatRow maxColumns ch.displayed row (streamFormat ch)).any fun text =>
    text.any fun c => c.opacity ≠ .transparentSpace

/-- If `stream_event_if_changed()` sends an event. -/
def sendsEvent (ch : Channel) : Bool := ch.rowChanged && streamEvent ch ch.currRow

def IsPreamble (c : Nat) : Prop := 0x1040 ≤ c ∧ c < 0x1120

def IsAttribute (c : Nat) : Prop := 0x1120 ≤ c ∧ c < 0x1130 ∨ 0x1428 ≤ c

instance (c : Nat) : Decidable (IsPreamble c) := inferInstanceAs (Decidable (_ ∧ _))

instance (c : Nat) : Decidable (IsAttribute c) := inferInstanceAs (Decidable (_ ∨ _))

def compared (c : Nat) : Nat := if IsPreamble c then 0 else if IsAttribute c then 0x20 else c

def Visible (c : Nat) : Prop := c ≠ 0 ∧ ¬IsPreamble c

def NoAttribute (s : Screen) (row : Nat) : Prop :=
  ∀ i, firstColumn ≤ i → i ≤ lastColumn → ¬IsAttribute (s.cell row i)

def Differs (ch : Channel) : Prop :=
  ∃ i, firstColumn ≤ i ∧ i ≤ lastColumn ∧
    compared (ch.displayed.cell ch.currRow i) ≠
      compared ((ch.buffer (Fin.last 2)).cell ch.currRow i)

def SomeVisible (ch : Channel) : Prop :=
  ∃ i, firstColumn ≤ i ∧ i ≤ lastColumn ∧ Visible (ch.displayed.cell ch.currRow i)

variable {c : Nat} {ch : Channel} {f : Format} {s r : Formatted}

theorem compared_preamble (h : IsPreamble c) : compared c = 0 := if_pos h

theorem compared_attribute (h : IsAttribute c) : compared c = 0x20 := by
  have hnot : ¬IsPreamble c := by
    rw [IsPreamble]
    rw [IsAttribute] at h
    omega
  rw [compared, if_neg hnot, if_pos h]

theorem compared_other (hpreamble : ¬IsPreamble c) (hattribute : ¬IsAttribute c) :
    compared c = c := by
  rw [compared, if_neg hpreamble, if_neg hattribute]

theorem compared_left (c : Nat) :
    (if 0x1040 ≤ c then if c < 0x1120 then 0 else if c < 0x1130 ∨ 0x1428 ≤ c then 0x20 else c
      else c) = compared c := by
  by_cases hlow : 0x1040 ≤ c
  · rw [if_pos hlow]
    by_cases hpreamble : c < 0x1120
    · rw [if_pos hpreamble, compared_preamble ⟨hlow, hpreamble⟩]
    · rw [if_neg hpreamble]
      have hnot : ¬IsPreamble c := fun h => hpreamble h.2
      by_cases hattribute : c < 0x1130 ∨ 0x1428 ≤ c
      · rw [if_pos hattribute, compared_attribute (by rw [IsAttribute]; omega)]
      · rw [if_neg hattribute, compared_other hnot (by rw [IsAttribute]; omega)]
  · rw [if_neg hlow, compared_other (fun h => hlow h.1) (by rw [IsAttribute]; omega)]

/-- Cells are compared code by code unless the snapshot has an attribute. -/
theorem cellChanged_eq (c1 : Nat) {c2 : Nat} (h : ¬IsAttribute c2) :
    Channel.cellChanged c1 c2 = (compared c1 != compared c2) := by
  rw [Channel.cellChanged, compared_left c1]
  by_cases hlow : 0x1040 ≤ c2
  · rw [if_pos hlow]
    by_cases hpreamble : c2 < 0x1120
    · rw [if_pos hpreamble, compared_preamble ⟨hlow, hpreamble⟩]
    · have hother : ¬(c2 < 0x1130 ∨ 0x1428 ≤ c2) := by
        rw [IsAttribute] at h
        omega
      rw [if_neg hpreamble, if_neg hother, compared_other (fun h => hpreamble h.2) h]
  · rw [if_neg hlow, compared_other (fun h => hlow h.1) h]

theorem rowChanged_iff (h : NoAttribute (ch.buffer 2) ch.currRow) :
    ch.rowChanged = true ↔ ch.displayed.isDirty ch.currRow = true ∧ Differs ch := by
  rw [Channel.rowChanged, Bool.and_eq_true, List.any_eq_true]
  refine and_congr_right fun _ => ?_
  constructor
  · rintro ⟨i, hi, hchanged⟩
    rw [List.mem_range'_1] at hi
    have hcolumn : firstColumn ≤ i ∧ i ≤ lastColumn := by
      rw [firstColumn, maxColumns] at hi
      rw [firstColumn, lastColumn]
      omega
    rw [cellChanged_eq _ (h i hcolumn.1 hcolumn.2), bne_iff_ne] at hchanged
    exact ⟨i, hcolumn.1, hcolumn.2, hchanged⟩
  · rintro ⟨i, hfirst, hlast, hne⟩
    refine ⟨i, ?_, ?_⟩
    · rw [List.mem_range'_1]
      rw [lastColumn] at hlast
      rw [firstColumn] at hfirst ⊢
      rw [maxColumns]
      omega
    · rw [cellChanged_eq _ (h i hfirst hlast), bne_iff_ne]
      exact hne

theorem padBefore_plain (hf : f.padding = false) (ac : VbiChar) (out : List VbiChar) :
    padBefore f ac out = out := by
  cases out with
  | nil => rfl
  | cons p rest =>
    rw [padBefore, hf, Bool.false_and, if_neg Bool.false_ne_true]

variable {i : Nat} {ac : VbiChar}

theorem putBlank_plain (hf : f.padding = false) (hi : 0 < i) (ac : VbiChar) (out : List VbiChar) :
    ∃ x : VbiChar, putBlank f i ac out = x :: out ∧ x.opacity = .transparentSpace := by
  rw [putBlank, hf, Bool.false_and, if_neg Bool.false_ne_true, if_pos hi]
  exact ⟨_, rfl, rfl⟩

theorem putSpacing_shows (ac : VbiChar) (out : List VbiChar) :
    ∃ x : VbiChar, putSpacing ac out = ⟨ac, x :: out⟩ ∧ x.opacity = ac.opacity := by
  refine ⟨_, rfl, ?_⟩
  split <;> rfl

theorem putExtended_shows (ac : VbiChar) (out : List VbiChar) :
    ∃ x : VbiChar, putExtended ac out = ⟨ac, x :: out⟩ ∧ x.opacity = ac.opacity := by
  rw [putExtended]
  split
  · exact ⟨_, rfl, rfl⟩
  · exact putSpacing_shows ac out

structure Shows (c : Nat) (s r : Formatted) : Prop where
  opacity : r.ac.opacity ≠ .transparentSpace
  char : ∃ x : VbiChar, r.out = x :: s.out ∧ (x.opacity ≠ .transparentSpace ↔ Visible c)

theorem shows_blank (hc : ¬Visible c) (hf : f.padding = false) (hi : 0 < i) (ac' : VbiChar)
    (hac : ac'.opacity ≠ .transparentSpace) : Shows c s ⟨ac', putBlank f i ac s.out⟩ := by
  obtain ⟨x, hx, htransparent⟩ := putBlank_plain hf hi ac s.out
  exact ⟨hac, x, hx, iff_of_false (not_not_intro htransparent) hc⟩

theorem shows_visible (hc : Visible c)
    (hr : ∃ x : VbiChar, r = ⟨ac, x :: s.out⟩ ∧ x.opacity = ac.opacity)
    (hac : ac.opacity ≠ .transparentSpace) : Shows c s r := by
  obtain ⟨x, rfl, hx⟩ := hr
  exact ⟨hac, x, rfl, iff_of_true (hx ▸ hac) hc⟩

theorem pacAttr_opacity (ac : VbiChar) (c : Nat) : (pacAttr ac c).opacity = ac.opacity := by
  rw [pacAttr]
  split
  · rfl
  · split <;> rfl

theorem midrowAttr_opacity (ac : VbiChar) (c : Nat) : (midrowAttr ac c).opacity = ac.opacity := by
  rw [midrowAttr]
  split <;> rfl

theorem backgroundAttr_opacity (f : Format) (ac : VbiChar) (c : Nat) :
    (backgroundAttr f ac c).opacity ≠ .transparentSpace := by
  rw [backgroundAttr]
  split
  · exact VbiOpacity.noConfusion
  · exact VbiOpacity.noConfusion

theorem formatCell_shows (hf : f.padding = false) (hi : 0 < i)
    (hs : s.ac.opacity ≠ .transparentSpace) (hr : formatCell f i c s = some r) : Shows c s r := by
  have hpad := padBefore_plain hf
  rw [formatCell] at hr
  by_cases h1 : c = 0
  · rw [if_pos h1] at hr
    obtain rfl := Option.some.inj hr
    exact shows_blank (fun h => h.1 h1) hf hi _ hs
  rw [if_neg h1] at hr
  by_cases h2 : c < 0x1020
  · rw [if_pos h2, hpad] at hr
    obtain rfl := Option.some.inj hr
    exact shows_visible ⟨h1, fun h => by have := h.1; omega⟩ (putSpacing_shows _ _) hs
  rw [if_neg h2] at hr
  by_cases h3 : c < 0x1040
  · rw [if_pos h3] at hr
    obtain rfl := Option.some.inj hr
    exact shows_visible ⟨h1, fun h => by have := h.1; omega⟩ (putSpacing_shows _ _)
      (backgroundAttr_opacity f _ c)
  rw [if_neg h3] at hr
  by_cases h4 : c < 0x1120
  · rw [if_pos h4] at hr
    obtain rfl := Option.some.inj hr
    refine shows_blank (fun h => h.2 ⟨Nat.not_lt.mp h3, h4⟩) hf hi _ ?_
    rw [pacAttr_opacity]
    exact hs
  rw [if_neg h4] at hr
  have hvisible : Visible c := ⟨h1, fun h => h4 h.2⟩
  by_cases h5 : c < 0x1130
  · rw [if_pos h5] at hr
    obtain rfl := Option.some.inj hr
    refine shows_visible hvisible (putSpacing_shows _ _) ?_
    rw [midrowAttr_opacity]
    exact hs
  rw [if_neg h5] at hr
  by_cases h6 : c < 0x1220
  · rw [if_pos h6] at hr
    by_cases htransparent : c = 0x1139
    · rw [if_pos htransparent] at hr
      cases hr
    · rw [if_neg htransparent, hpad] at hr
      obtain rfl := Option.some.inj hr
      exact shows_visible hvisible (putSpacing_shows _ _) hs
  rw [if_neg h6] at hr
  by_cases h7 : c < 0x1428
  · rw [if_pos h7, hpad] at hr
    obtain rfl := Option.some.inj hr
    exact shows_visible hvisible (putExtended_shows _ _) hs
  rw [if_neg h7] at hr
  by_cases h8 : c < 0x172D
  · rw [if_pos h8] at hr
    obtain rfl := Option.some.inj hr
    exact shows_visible hvisible (putSpacing_shows _ _) hs
  rw [if_neg h8] at hr
  by_cases h9 : c < 0x172E
  · rw [if_pos h9] at hr
    obtain rfl := Option.some.inj hr
    exact shows_visible hvisible (putSpacing_shows _ _) VbiOpacity.noConfusion
  rw [if_neg h9] at hr
  by_cases h10 : c ≤ 0x172F
  · rw [if_pos h10] at hr
    obtain rfl := Option.some.inj hr
    exact shows_visible hvisible (putSpacing_shows _ _) hs
  · rw [if_neg h10] at hr
    obtain rfl := Option.some.inj hr
    exact shows_visible hvisible (putSpacing_shows _ _) hs

def Shown (out : List VbiChar) : Prop := ∃ x ∈ out, x.opacity ≠ .transparentSpace

theorem formatCells_shows (hf : f.padding = false) {cell : Nat → Nat} {is : List Nat}
    (hi : ∀ i ∈ is, 0 < i) (hs : s.ac.opacity ≠ .transparentSpace)
    (hr : formatCells f cell is s = some r) :
    Shown r.out ↔ Shown s.out ∨ ∃ i ∈ is, Visible (cell i) := by
  induction is generalizing s with
  | nil =>
    obtain rfl := Option.some.inj hr
    rw [or_iff_left fun ⟨i, hmem, _⟩ => absurd hmem List.not_mem_nil]
  | cons i is ih =>
    rw [formatCells] at hr
    obtain ⟨t, ht, hr⟩ := Option.bind_eq_some_iff.mp hr
    obtain ⟨hopacity, x, hx, hvisible⟩ := formatCell_shows hf (hi i List.mem_cons_self) hs ht
    rw [ih (fun j hj => hi j (List.mem_cons_of_mem i hj)) hopacity hr]
    have hcons : Shown t.out ↔ Visible (cell i) ∨ Shown s.out := by
      rw [Shown, hx, ← hvisible]
      constructor
      · rintro ⟨y, hy, hne⟩
        rcases List.mem_cons.mp hy with rfl | hy
        · exact Or.inl hne
        · exact Or.inr ⟨y, hy, hne⟩
      · rintro (hne | ⟨y, hy, hne⟩)
        · exact ⟨x, List.mem_cons_self, hne⟩
        · exact ⟨y, List.mem_cons_of_mem x hy, hne⟩
    rw [hcons]
    constructor
    · rintro ((hfirst | hout) | ⟨j, hj, hrest⟩)
      · exact Or.inr ⟨i, List.mem_cons_self, hfirst⟩
      · exact Or.inl hout
      · exact Or.inr ⟨j, List.mem_cons_of_mem i hj, hrest⟩
    · rintro (hout | ⟨j, hj, hrest⟩)
      · exact Or.inl (Or.inr hout)
      · rcases List.mem_cons.mp hj with rfl | hj
        · exact Or.inl (Or.inl hrest)
        · exact Or.inr ⟨j, hj, hrest⟩

theorem shown_reverse (out : List VbiChar) : Shown out.reverse ↔ Shown out := by
  rw [Shown, Shown]
  simp only [List.mem_reverse]

/-- Nothing is produced for the zeroth column. -/
theorem formatCell_start (hf : f.padding = false) (hc : Preamble c)
    (hr : formatCell f 0 c (startRow f) = some r) :
    r.out = [] ∧ r.ac.opacity ≠ .transparentSpace := by
  have hstart : startRow f = ⟨defaultAttr, []⟩ := by rw [startRow, hf, if_neg Bool.false_ne_true]
  have hblank : ∀ ac, putBlank f 0 ac [] = [] := by
    intro ac
    rw [putBlank, hf, Bool.false_and, if_neg Bool.false_ne_true, if_neg (Nat.lt_irrefl 0)]
  rw [hstart, formatCell, hblank] at hr
  rcases hc with rfl | ⟨hlow, hhigh⟩
  · rw [if_pos rfl] at hr
    obtain rfl := Option.some.inj hr
    exact ⟨rfl, VbiOpacity.noConfusion⟩
  · rw [if_neg (by omega), if_neg (by omega), if_neg (by omega), if_pos (by omega)] at hr
    obtain rfl := Option.some.inj hr
    refine ⟨rfl, ?_⟩
    rw [pacAttr_opacity]
    exact VbiOpacity.noConfusion

theorem streamEvent_iff (h : ChannelValid ch) (hdirty : ch.displayed.isDirty ch.currRow = true) :
    streamEvent ch ch.currRow = true ↔ SomeVisible ch := by
  obtain ⟨out, hout, -⟩ :=
    h.formattable.format (Channel.index ch.displayedBuffer) ch.currRow (streamFormat ch)
  have hrow := hout
  change formatRow maxColumns ch.displayed ch.currRow (streamFormat ch) = some out at hrow
  have hshown : streamEvent ch ch.currRow = true ↔ Shown out := by
    rw [streamEvent, hrow, Option.any_some, List.any_eq_true]
    simp only [Shown, decide_eq_true_eq]
  rw [hshown]
  have hrange : List.range (lastColumn + 1) = 0 :: List.range' 1 lastColumn := by decide
  have hmem : ∀ i, i ∈ List.range' 1 lastColumn ↔ firstColumn ≤ i ∧ i ≤ lastColumn := by
    intro i
    rw [List.mem_range'_1, firstColumn]
    omega
  have hfits : ¬maxColumns < formatWidth (streamFormat ch) := Nat.lt_irrefl maxColumns
  rw [formatRow, if_neg hfits, if_neg (by rw [hdirty]; decide), hrange, formatCells] at hrow
  obtain ⟨r, hr, hend⟩ := Option.bind_eq_some_iff.mp hrow
  obtain ⟨s, hs, hr⟩ := Option.bind_eq_some_iff.mp hr
  obtain ⟨hzeroth, hopacity⟩ := formatCell_start (f := streamFormat ch) rfl
    ((h.displayed ch.currRow 0).zeroth rfl) hs
  have hcells := formatCells_shows (f := streamFormat ch) rfl
    (fun i hi => ((hmem i).mp hi).1) hopacity hr
  have hnone : ¬Shown s.out := by
    rw [hzeroth]
    rintro ⟨x, hx, -⟩
    exact List.not_mem_nil hx
  rw [or_iff_right hnone] at hcells
  have hplain : putLast (streamFormat ch) r = r.out := if_neg Bool.false_ne_true
  rw [hplain] at hend
  dsimp only at hend
  split at hend
  · obtain rfl := Option.some.inj hend
    rw [shown_reverse, hcells]
    constructor
    · rintro ⟨i, hi, hvisible⟩
      exact ⟨i, ((hmem i).mp hi).1, ((hmem i).mp hi).2, hvisible⟩
    · rintro ⟨i, hfirst, hlast, hvisible⟩
      exact ⟨i, (hmem i).mpr ⟨hfirst, hlast⟩, hvisible⟩
  · cases hend

theorem sendsEvent_iff (h : ChannelValid ch) (hsnapshot : NoAttribute (ch.buffer 2) ch.currRow) :
    sendsEvent ch = true ↔
      ch.displayed.isDirty ch.currRow = true ∧ Differs ch ∧ SomeVisible ch := by
  rw [sendsEvent, Bool.and_eq_true, rowChanged_iff hsnapshot]
  constructor
  · rintro ⟨⟨hdirty, hdiffers⟩, hevent⟩
    exact ⟨hdirty, hdiffers, (streamEvent_iff h hdirty).mp hevent⟩
  · rintro ⟨hdirty, hdiffers, hvisible⟩
    exact ⟨⟨hdirty, hdiffers⟩, (streamEvent_iff h hdirty).mpr hvisible⟩

theorem rowChanged_after (hdisplayed : NoAttribute ch.displayed ch.currRow) :
    ch.streamEventIfChanged.rowChanged = false := by
  by_cases hchanged : ch.rowChanged = true
  · have hsame : ch.streamEventIfChanged.displayed = ch.displayed := by
      rw [Channel.streamEventIfChanged, if_pos hchanged]
      exact Function.update_of_ne (Cc608Dirty.index_ne_two ch.displayedBuffer) _ _
    have hrow : ch.streamEventIfChanged.currRow = ch.currRow := by
      rw [Channel.streamEventIfChanged, if_pos hchanged]
      rfl
    have hcell : ∀ i, (ch.streamEventIfChanged.buffer 2).cell ch.currRow i =
        ch.displayed.cell ch.currRow i := by
      intro i
      rw [Channel.streamEventIfChanged, if_pos hchanged, Cc608Dirty.onBuffer_self]
      exact if_pos rfl
    rw [Bool.eq_false_iff]
    intro hagain
    rw [rowChanged_iff] at hagain
    · obtain ⟨-, i, -, -, hne⟩ := hagain
      rw [hsame, hrow] at hne
      exact hne (congrArg compared (hcell i).symm)
    · intro i hfirst hlast
      rw [hrow, hcell]
      exact hdisplayed i hfirst hlast
  · have hsame : ch.streamEventIfChanged = ch := by
      rw [Channel.streamEventIfChanged, if_neg hchanged]
    rw [hsame]
    exact Bool.eq_false_iff.mpr hchanged

/-- In every state, unless attributes are in the snapshot of the row: an event is sent if the
row is marked, differs and is visible. Unless attributes are in the row, no other one follows. -/
theorem stream_event_if_changed (ops : List Op) (k : ChannelNum) :
    (NoAttribute (((run ops).channel k).buffer 2) ((run ops).channel k).currRow →
      (sendsEvent ((run ops).channel k) = true ↔
        ((run ops).channel k).displayed.isDirty ((run ops).channel k).currRow = true ∧
          Differs ((run ops).channel k) ∧ SomeVisible ((run ops).channel k))) ∧
    (NoAttribute ((run ops).channel k).displayed ((run ops).channel k).currRow →
      sendsEvent ((run ops).channel k).streamEventIfChanged = false) := by
  refine ⟨sendsEvent_iff (run_valid ops k), fun hdisplayed => ?_⟩
  rw [sendsEvent, rowChanged_after hdisplayed, Bool.false_and]

instance (s : Screen) (row : Nat) : Decidable (NoAttribute s row) :=
  decidable_of_iff (∀ i ∈ List.range' firstColumn maxColumns, ¬IsAttribute (s.cell row i)) <| by
    refine forall_congr' fun i => ?_
    rw [List.mem_range'_1, firstColumn, maxColumns, lastColumn]
    exact ⟨fun h hfirst hlast => h ⟨hfirst, by omega⟩, fun h hi => h hi.1 (by omega)⟩

/-- A letter in paint-on mode, and a space behind it after the event. -/
def spaceAdded : List Op := [
  .feed (0x94, 0x29) 21, .feed (0xC1, 0x80) 21, .feed (0x94, 0xE0) 21, .feed (0x20, 0x80) 21]

theorem space_added_once :
    sendsEvent ((run spaceAdded).channel cc1) = true ∧
      sendsEvent ((run spaceAdded).channel cc1).streamEventIfChanged = false :=
  ⟨by decide +kernel, (stream_event_if_changed spaceAdded cc1).2 (by decide +kernel)⟩

def character (c : Nat) : Nat := if c = 0 then 0x20 else c

/-- A row of characters differs only by a space in a cell which was zero. -/
theorem space_sends_event :
    sendsEvent ((run spaceAdded).channel cc1) = true ∧
      ((run spaceAdded).channel cc1).currRow = 14 ∧
      ∀ i ∈ List.range' firstColumn maxColumns,
        ((run spaceAdded).channel cc1).displayed.cell 14 i < 0x80 ∧
        character (((run spaceAdded).channel cc1).displayed.cell 14 i) =
          character ((((run spaceAdded).channel cc1).buffer 2).cell 14 i) := by
  decide +kernel

end Cc608Changes

import Zvbi.TeletextEnhance

/-!
# Bounds of the enhancement of Teletext pages

Whatever the triplets say, the enhancement uses its arrays within their bounds. The row
is checked before characters are changed, the column in the loop over them. Triplets are
counted down to the end of their array.
-/

namespace TeletextEnhanceBounds
open TeletextEnhance
open PopPointers (Triplet)

variable {World Font Chars : Type}

/-- The array has this element. For characters this is a cell of the page, and an object
has a higher type than its invoker and is at most at depth 3. -/
def InBounds : Access → Prop
  | .text offset => ∃ row column, row < rows ∧ column < extColumns ∧
      offset = row * extColumns + column
  | .raw row column => row < 26 ∧ column < columns
  | .triplet size index => index < size
  | .drcs index => index < 32
  | .drcsS1 index => index < 2
  | .invoke depth invoker type => invoker < type ∧ type ≤ objectTypePassive ∧ depth + 1 ≤ 3

def Within (memory : Memory World Font Chars) : Prop := ∀ a ∈ memory.log, InBounds a

variable {memory : Memory World Font Chars} {column row : Nat} {s : State World Font Chars}

variable {a : Access}
  {invoke : Fin 4 → Triplet → State World Font Chars → State World Font Chars × Next}

theorem Within.note (h : Within memory) (ha : InBounds a) : Within (memory.note a) :=
  List.forall_mem_cons.mpr ⟨ha, h⟩

theorem Within.write (h : Within memory) (hrow : row < rows) (hcolumn : column < extColumns)
    (c : VbiChar) : Within (memory.write (row * extColumns + column) c) :=
  h.note ⟨row, column, hrow, hcolumn, rfl⟩

/-- The variables which flushing does not change. -/
structure Keeps (s s' : State World Font Chars) : Prop where
  type : s'.type = s.type
  acp : s'.acp = s.acp
  invRow : s'.invRow = s.invRow
  activeRow : s'.activeRow = s.activeRow
  drcsS1 : s'.drcsS1 = s.drcsS1
  within : Within s.memory → Within s'.memory

theorem Keeps.refl (s : State World Font Chars) : Keeps s s := ⟨rfl, rfl, rfl, rfl, rfl, id⟩

theorem Keeps.trans {s₁ s₂ s₃ : State World Font Chars} (h : Keeps s₁ s₂) (h' : Keeps s₂ s₃) :
    Keeps s₁ s₃ where
  type := h'.type.trans h.type
  acp := h'.acp.trans h.acp
  invRow := h'.invRow.trans h.invRow
  activeRow := h'.activeRow.trans h.activeRow
  drcsS1 := h'.drcsS1.trans h.drcsS1
  within hw := h'.within (h.within hw)

theorem keeps_note (s : State World Font Chars) (ha : InBounds a) : Keeps s (s.note a) :=
  ⟨rfl, rfl, rfl, rfl, rfl, fun h => h.note ha⟩

theorem keeps_write (s : State World Font Chars) (hrow : row < rows) (hcolumn : column < extColumns)
    (c : VbiChar) : Keeps s (s.write (row * extColumns + column) c) :=
  ⟨rfl, rfl, rfl, rfl, rfl, fun h => h.write hrow hcolumn c⟩

theorem keeps_mergeChar (s : State World Font Chars) (c : VbiChar) :
    Keeps s (mergeChar s c).1 := by
  rw [mergeChar]
  dsimp only
  split
  · exact ⟨rfl, rfl, rfl, rfl, rfl, id⟩
  · exact ⟨rfl, rfl, rfl, rfl, rfl, id⟩

theorem keeps_mac (s : State World Font Chars) (mac : Mask) : Keeps s { s with mac := mac } :=
  ⟨rfl, rfl, rfl, rfl, rfl, id⟩

theorem keeps_readRaw (ctx : Context World Font Chars) (hidden : Bool) (hrow : row < rows)
    (hcolumn : column < columns) (s : State World Font Chars) :
    Keeps s (readRaw ctx hidden row column s).1 := by
  rw [readRaw]
  split
  · exact Keeps.refl s
  · exact keeps_note s ⟨Nat.lt_of_lt_of_le hrow (by decide), hcolumn⟩

theorem keeps_cancelAfter (ctx : Context World Font Chars) (hrow : row < rows) (i : Nat) (raw : Int)
    (s : State World Font Chars) : Keeps s (cancelAfter ctx row i raw s) := by
  rw [cancelAfter]
  split
  · exact keeps_mac s _
  · split
    · exact keeps_mac s _
    · split
      · split
        · rename_i hcolumn
          have hnote := keeps_note s (a := .raw row i)
            ⟨Nat.lt_of_lt_of_le hrow (by decide), hcolumn⟩
          dsimp only
          split
          · exact hnote.trans (keeps_mac _ _)
          · exact hnote
        · exact Keeps.refl s
      · split
        · exact keeps_mac s _
        · exact Keeps.refl s

theorem keeps_cancelAt (raw : Int) (s : State World Font Chars) : Keeps s (cancelAt raw s) := by
  rw [cancelAt]
  repeat' split
  all_goals exact keeps_mac s _

/-- The loop over the columns of a row of the page. -/
theorem keeps_flushColumns (ctx : Context World Font Chars) (hrow : row < rows) (n i : Nat)
    (s : State World Font Chars) (hacp : s.acp = row * extColumns) :
    Keeps s (flushColumns ctx row n i s) := by
  induction n generalizing i s with
  | zero => exact Keeps.refl s
  | succ n ih =>
    rw [flushColumns]
    split
    · exact Keeps.refl s
    · rename_i hi
      have hcolumn : i < columns := Nat.lt_succ_of_le (Nat.le_of_not_lt hi)
      dsimp only
      generalize s.memory.pg.text (s.acp + i) = c
      have hwrite : Keeps s ((mergeChar s c).1.write (s.acp + i) (mergeChar s c).2) := by
        rw [hacp]
        exact (keeps_mergeChar s c).trans (keeps_write _ hrow (Nat.lt_succ_of_lt hcolumn) _)
      generalize (mergeChar s c).1.write (s.acp + i) (mergeChar s c).2 = s' at hwrite ⊢
      split
      · exact hwrite
      · split
        · exact hwrite.trans (ih (i + 1) s' (hwrite.acp.trans hacp))
        · have hbefore := hwrite.trans
            (keeps_readRaw ctx (row = 0 ∧ i + 1 < 9) hrow hcolumn s')
          generalize readRaw ctx (decide (row = 0 ∧ i + 1 < 9)) row i s' = before at hbefore ⊢
          have hafter := hbefore.trans (keeps_cancelAfter ctx hrow (i + 1) before.2 before.1)
          generalize cancelAfter ctx row (i + 1) before.2 before.1 = after at hafter ⊢
          split
          · exact hafter
          · rename_i hnext
            have hcolumn' : i + 1 < columns := Nat.lt_succ_of_le (Nat.le_of_not_lt hnext)
            have hhere := hafter.trans
              (keeps_readRaw ctx (row = 0 ∧ i + 1 < 8) hrow hcolumn' after)
            generalize readRaw ctx (decide (row = 0 ∧ i + 1 < 8)) row (i + 1) after = here
              at hhere ⊢
            have hat := hhere.trans (keeps_cancelAt here.2 here.1)
            exact hat.trans (ih (i + 1) _ (hat.acp.trans hacp))

structure Placed (type : Nat) (s : State World Font Chars) : Prop where
  type : s.type = type
  acp : s.acp = (s.invRow + s.activeRow) * extColumns
  drcsS1 : ∀ i, s.drcsS1 i < 16
  within : Within s.memory

variable {type : Nat}

variable {s' : State World Font Chars} {c : Prop} {t : Triplet}

theorem Placed.keeps (h : Placed type s) (hk : Keeps s s') :
    Placed type s' where
  type := hk.type.trans h.type
  acp := by rw [hk.acp, hk.invRow, hk.activeRow, h.acp]
  drcsS1 := by
    rw [hk.drcsS1]
    exact h.drcsS1
  within := hk.within h.within

theorem keeps_enhanceFlush (ctx : Context World Font Chars) (h : Placed type s) (column : Nat) :
    Keeps s (enhanceFlush ctx s column) := by
  rw [enhanceFlush]
  dsimp only
  split
  · exact Keeps.refl s
  · rename_i hrow
    split
    · exact ⟨rfl, rfl, rfl, rfl, rfl, id⟩
    · have hflush := keeps_flushColumns ctx (Nat.lt_of_not_le hrow) (column - s.activeColumn)
        (s.invColumn + s.activeColumn) s h.acp
      exact hflush.trans ⟨rfl, rfl, rfl, rfl, rfl, id⟩

theorem Placed.enhanceFlush (ctx : Context World Font Chars) (h : Placed type s) (column : Nat) :
    Placed type (enhanceFlush ctx s column) :=
  h.keeps (keeps_enhanceFlush ctx h column)

theorem Placed.enhanceFlushRow (ctx : Context World Font Chars) (h : Placed type s) :
    Placed type (enhanceFlushRow ctx s) := by
  rw [TeletextEnhance.enhanceFlushRow]
  generalize (if s.type = objectTypePassive ∨ s.type = objectTypeAdaptive then
    s.activeColumn + 1 else columns) = column
  have hflush := h.enhanceFlush ctx column
  split
  · exact hflush
  · exact hflush.keeps (keeps_mac _ _)

theorem Placed.flushTo (ctx : Context World Font Chars) (column : Nat) (h : Placed type s) :
    Placed type (flushTo ctx column s) := by
  rw [TeletextEnhance.flushTo]
  split
  · exact h.enhanceFlush ctx column
  · exact h

theorem Placed.note (h : Placed type s) (ha : InBounds a) : Placed type (s.note a) :=
  h.keeps (keeps_note s ha)

theorem Placed.setActive (ctx : Context World Font Chars) (h : Placed type s) (row column : Nat) :
    Placed type (setActive ctx s row column).1 := by
  rw [TeletextEnhance.setActive]
  split
  · exact h
  · dsimp only
    split
    · have hflush := h.enhanceFlushRow ctx
      exact ⟨hflush.type, rfl, hflush.drcsS1, hflush.within⟩
    · have hflush := h.enhanceFlush ctx (s.activeColumn + 1)
      exact ⟨hflush.type, rfl, hflush.drcsS1, hflush.within⟩

theorem Placed.storeUnicode (h : Placed type s) (unicode : Nat) :
    Placed type (storeUnicode unicode s).1 :=
  ⟨h.type, h.acp, h.drcsS1, h.within⟩

theorem Placed.displayAttributes (ctx : Context World Font Chars) (data : Nat) (h : Placed type s) :
    Placed type (displayAttributes ctx data s) := by
  rw [TeletextEnhance.displayAttributes]
  dsimp only
  split
  · exact ⟨h.type, h.acp, h.drcsS1, h.within⟩
  · exact ⟨h.type, h.acp, h.drcsS1, h.within⟩

/-- One of 32 places for DRCS, because the triplet has seven bits of data. -/
theorem Placed.drcsCharacter (ctx : Context World Font Chars) (column : Nat) {data : Nat}
    (hdata : data < 128) (h : Placed type s) :
    Placed type (drcsCharacter ctx column data s).1 := by
  have hnormal : data >>> 6 < 2 := by
    rw [Nat.shiftRight_eq_div_pow]
    omega
  rw [TeletextEnhance.drcsCharacter]
  dsimp only
  split
  · exact h
  · have hflush := (h.flushTo ctx column).note (a := .drcsS1 (data >>> 6)) hnormal
    generalize (TeletextEnhance.flushTo ctx column s).note (Access.drcsS1 (data >>> 6)) = s'
      at hflush ⊢
    have hpage : InBounds (Access.drcs (data >>> 6 * 16 + s'.drcsS1 (data >>> 6))) := by
      have hlt := hflush.drcsS1 (data >>> 6)
      show data >>> 6 * 16 + s'.drcsS1 (data >>> 6) < 32
      omega
    split
    · exact hflush
    · split
      · exact ⟨hflush.type, hflush.acp, hflush.drcsS1, hflush.within⟩
      · split
        · exact ⟨hflush.type, hflush.acp, hflush.drcsS1, hflush.within⟩
        · exact ⟨hflush.type, hflush.acp, hflush.drcsS1, hflush.within.note hpage⟩

theorem keeps_setStyle (data : Nat) (s : State World Font Chars) (hrow : row < rows)
    (hcolumn : column < columns) : Keeps s (setStyle data s (row * extColumns + column)) :=
  keeps_write s hrow (Nat.lt_succ_of_lt hcolumn) _

theorem keeps_styleRow (data : Nat) (hrow : row < rows) (cols : List Nat)
    (hcols : ∀ col ∈ cols, col < columns) (s : State World Font Chars) :
    Keeps s (cols.foldl (fun s col => setStyle data s (row * extColumns + col)) s) := by
  induction cols generalizing s with
  | nil => exact Keeps.refl s
  | cons col cols ih =>
    rw [List.forall_mem_cons] at hcols
    exact (keeps_setStyle data s hrow hcols.1).trans (ih hcols.2 _)

theorem keeps_fontStyle (data column count row : Nat) (s : State World Font Chars) :
    Keeps s (fontStyle data column count row s) := by
  induction count generalizing row s with
  | zero => exact Keeps.refl s
  | succ count ih =>
    rw [fontStyle]
    split
    · rename_i hrow
      refine (keeps_styleRow data hrow _ ?_ s).trans (ih (row + 1) _)
      intro col hcol
      rw [List.mem_range'_1] at hcol
      omega
    · exact Keeps.refl s

theorem Placed.attributes (h : Placed type s)
    (hs : s'.type = s.type ∧ s'.acp = s.acp ∧ s'.invRow = s.invRow ∧ s'.activeRow = s.activeRow ∧
      s'.drcsS1 = s.drcsS1 ∧ s'.memory = s.memory) : Placed type s' := by
  obtain ⟨htype, hacp, hinvRow, hactiveRow, hdrcsS1, hmemory⟩ := hs
  refine h.keeps ⟨htype, hacp, hinvRow, hactiveRow, hdrcsS1, fun hwithin => ?_⟩
  rw [hmemory]
  exact hwithin

/-- Column address triplets which set an attribute or a character. -/
theorem placed_attribute (ctx : Context World Font Chars) (column data : Nat) (h : Placed type s) :
    Placed type (setForeground ctx column data s).1 ∧
      Placed type (setBackground ctx column data s).1 ∧
      Placed type (setFlash ctx column data s).1 ∧
      Placed type (selectFont ctx column data s).1 := by
  have hflush := h.flushTo ctx column
  refine ⟨?_, ?_, ?_, ?_⟩
  · rw [setForeground]
    split
    · exact hflush.attributes ⟨rfl, rfl, rfl, rfl, rfl, rfl⟩
    · exact h
  · rw [setBackground]
    split
    · exact hflush.attributes ⟨rfl, rfl, rfl, rfl, rfl, rfl⟩
    · exact h
  · rw [setFlash]
    split
    · exact hflush.attributes ⟨rfl, rfl, rfl, rfl, rfl, rfl⟩
    · exact h
  · rw [selectFont]
    split
    · exact hflush.attributes ⟨rfl, rfl, rfl, rfl, rfl, rfl⟩
    · exact h

theorem placed_blockMosaic (ctx : Context World Font Chars) (column data : Nat)
    (h : Placed type s) : Placed type (blockMosaic ctx column data s).1 := by
  have hflush := h.flushTo ctx column
  rw [blockMosaic]
  dsimp only
  split
  · split
    · exact hflush.storeUnicode _
    · split
      · exact hflush.storeUnicode _
      · exact hflush
  · exact h

theorem placed_smoothMosaic (ctx : Context World Font Chars) (column data : Nat)
    (h : Placed type s) : Placed type (smoothMosaic ctx column data s).1 := by
  rw [smoothMosaic]
  split
  · exact (h.flushTo ctx column).storeUnicode _
  · exact h

theorem placed_fontCharacter (ctx : Context World Font Chars) (unicode : Font → Nat → Nat)
    (column data : Nat) (h : Placed type s) :
    Placed type (fontCharacter ctx unicode column data s).1 := by
  rw [fontCharacter]
  split
  · exact (h.flushTo ctx column).storeUnicode _
  · exact h

/-- Both ways to go on are good. -/
theorem placed_ite [Decidable c] {a b : State World Font Chars × Next} (ha : Placed type a.1)
    (hb : Placed type b.1) : Placed type (if c then a else b).1 := by
  split
  · exact ha
  · exact hb

theorem Placed.columnTriplet (ctx : Context World Font Chars) (hdata : t.data.toNat < 128)
    (h : Placed type s) : Placed type (columnTriplet ctx t s).1 := by
  obtain ⟨hforeground, hbackground, hflash, hfont⟩ :=
    placed_attribute ctx t.address.toNat t.data.toNat h
  have hblock := placed_blockMosaic ctx t.address.toNat t.data.toNat h
  have hsmooth := placed_smoothMosaic ctx t.address.toNat t.data.toNat h
  have hcharacter := fun unicode =>
    placed_fontCharacter ctx unicode t.address.toNat t.data.toNat h
  have hattributes := (h.flushTo ctx t.address.toNat).displayAttributes ctx t.data.toNat
  have hdrcs := h.drcsCharacter ctx t.address.toNat hdata
  have hstyle := h.keeps (keeps_fontStyle t.data.toNat (s.invColumn + t.address.toNat)
    (t.data.toNat >>> 4 + 1) (s.invRow + s.activeRow) s)
  rw [TeletextEnhance.columnTriplet]
  refine placed_ite hforeground <| placed_ite hblock <| placed_ite (placed_ite hsmooth h) <|
    placed_ite hsmooth <| placed_ite hbackground <| placed_ite hflash <| placed_ite hfont <|
    placed_ite (placed_ite (hcharacter _) h) <| placed_ite (placed_ite hattributes h) <|
    placed_ite (placed_ite hdrcs h) <| placed_ite (placed_ite h hstyle) <|
    placed_ite (hcharacter _) <| placed_ite (hcharacter _) h

theorem Placed.rowTriplet (ctx : Context World Font Chars)
    (hinvoke : ∀ newType t s, Placed type s → Placed type (invoke newType t s).1)
    (hdata : t.mode < 32 → t.data.toNat < 128) (h : Placed type s) :
    Placed type (rowTriplet ctx invoke t s).1 := by
  have hscreen : Placed type (fullScreenColor ctx t.data.toNat s) := by
    rw [fullScreenColor]
    split
    · exact ⟨h.type, h.acp, h.drcsS1, h.within⟩
    · exact h
  have hcolor : Placed type (fullRowColor ctx s t.data.toNat) := by
    rw [fullRowColor]
    repeat' split
    all_goals exact h.attributes ⟨rfl, rfl, rfl, rfl, rfl, rfl⟩
  have hposition : Placed type (setPosition ctx (addressedRow t) t.data.toNat s).1 := by
    rw [setPosition]
    split
    · exact h
    · apply Placed.setActive
      split
      · exact h.attributes ⟨rfl, rfl, rfl, rfl, rfl, rfl⟩
      · exact h
  have horigin : Placed type (setOrigin ctx t s) := by
    rw [setOrigin]
    split
    · exact h.attributes ⟨rfl, rfl, rfl, rfl, rfl, rfl⟩
    · exact h
  have hmode : t.mode = 0x18 → Placed type (setDrcsMode t.data.toNat s) := by
    intro hmode
    have hnormal : InBounds (Access.drcsS1 (t.data.toNat >>> 6)) := by
      have hlt := hdata (by rw [hmode]; decide)
      show t.data.toNat >>> 6 < 2
      rw [Nat.shiftRight_eq_div_pow]
      omega
    have hnote := h.note hnormal
    refine ⟨hnote.type, hnote.acp, fun i => ?_, hnote.within⟩
    rw [setDrcsMode]
    dsimp only
    by_cases hi : i = t.data.toNat >>> 6
    · rw [hi, Function.update_self]
      exact Nat.lt_succ_of_le Nat.and_le_right
    · rw [Function.update_of_ne hi]
      exact hnote.drcsS1 i
  have hlast : Placed type (if t.mode = 0x18 then (setDrcsMode t.data.toNat s, Next.go)
      else (s, .go)).1 := by
    split
    · rename_i hdrcs
      exact hmode hdrcs
    · exact h
  rw [TeletextEnhance.rowTriplet]
  refine placed_ite h <| placed_ite hscreen <|
    placed_ite (placed_ite (hcolor.setActive ctx _ _) h) <|
    placed_ite (hcolor.setActive ctx _ _) <| placed_ite hposition <|
    placed_ite (h.attributes ⟨rfl, rfl, rfl, rfl, rfl, rfl⟩) <| placed_ite horigin <|
    placed_ite (placed_ite (hinvoke _ _ _ h) h) <| placed_ite (h.enhanceFlushRow ctx) hlast

theorem Placed.stepTriplet (ctx : Context World Font Chars)
    (hinvoke : ∀ newType t s, Placed type s → Placed type (invoke newType t s).1)
    (t : StoredTriplet) (h : Placed type s) :
    Placed type (stepTriplet ctx invoke t.toTriplet s).1 := by
  rw [TeletextEnhance.stepTriplet]
  split
  · apply h.rowTriplet ctx hinvoke
    intro hmode
    obtain ⟨-, -, hdata⟩ | ⟨-, hbroken, -⟩ := t.stored
    · exact hdata
    · rw [hbroken] at hmode
      exact absurd hmode (by decide)
  · rename_i hcolumn
    apply h.columnTriplet ctx
    obtain ⟨-, -, hdata⟩ | ⟨hbroken, -, -⟩ := t.stored
    · exact hdata
    · rw [hbroken] at hcolumn
      exact absurd (by decide) hcolumn

/-- The array has `n` triplets from position `p` on. -/
def Covers (array : TripletArray) (p n : Nat) : Prop := ∀ i, i < n → p + i < array.size

/-- The loop over the triplets ends at the end of the array at the latest. -/
theorem Placed.tripletLoop (ctx : Context World Font Chars)
    (hinvoke : ∀ newType t s, Placed type s → Placed type (invoke newType t s).1)
    (array : TripletArray) (n p : Nat) (hcovers : Covers array p n) (skipping : Bool)
    (h : Placed type s) : Placed type (tripletLoop ctx invoke array n p skipping s).1 := by
  induction n generalizing p skipping s with
  | zero => exact h
  | succ n ih =>
    have hnote := h.note (a := .triplet array.size p) (hcovers 0 (Nat.zero_lt_succ n))
    have hnext : Covers array (p + 1) n := by
      intro i hi
      have hlt := hcovers (i + 1) (Nat.succ_lt_succ hi)
      omega
    have hstep := hnote.stepTriplet ctx hinvoke (array.get p)
    rw [TeletextEnhance.tripletLoop]
    dsimp only
    split
    · split
      · exact hnote.enhanceFlushRow ctx
      · exact ih (p + 1) hnext true hnote
    · split
      · exact ih (p + 1) hnext false hstep
      · exact ih (p + 1) hnext true hstep
      · exact hstep
      · exact hstep

def Object.Covered (o : Object) : Prop := Covers o.array o.start o.remaining.toNat

theorem covered_local (ctx : Context World Font Chars) (designation triplet : Nat) :
    Object.Covered (localObject ctx designation triplet) := by
  intro i hi
  rw [localObject] at hi ⊢
  dsimp only at hi ⊢
  omega

/-- An object definition is one of the array, with the object behind it. -/
theorem resolveObjAddress_within (ctx : Context World Font Chars) (h : Within memory)
    (newType : Nat) (pgno : Int) (address : Nat) (function : Int) :
    Within (resolveObjAddress ctx memory newType pgno address function).1 ∧
      ∀ o, (resolveObjAddress ctx memory newType pgno address function).2 = some o →
        Object.Covered o := by
  rw [resolveObjAddress]
  dsimp only
  split
  · exact ⟨h, fun o ho => by cases ho⟩
  · rename_i vtp hvtp
    split
    · exact ⟨h, fun o ho => by cases ho⟩
    · rename_i hpointer
      have hnote : Within (Memory.note
          { memory with world := (sourcePage ctx memory.world pgno (address &&& 15)
            TeletextHeader.pageFunctionPop function).1 }
          (Access.triplet popTripletCount (vtp.pointer ((address >>> 7 &&& 3) * 24 +
            ((address >>> 5 &&& 3) * 3 + newType) * 2 + (address >>> 4 &&& 1))).toNat)) :=
        Within.note h (Nat.lt_of_le_of_lt (Nat.le_of_not_lt hpointer) (by decide))
      split
      · exact ⟨hnote, fun o ho => by cases ho⟩
      · refine ⟨hnote, fun o ho => ?_⟩
        rw [← Option.some.inj ho]
        intro i hi
        dsimp only at hi ⊢
        omega

theorem findObject_within (ctx : Context World Font Chars) {memory : Memory World Font Chars}
    (h : Within memory) (newType : Nat) (t : Triplet) :
    Within (findObject ctx memory type newType t).1 ∧
      ∀ o, (findObject ctx memory type newType t).2.1 = some o → Object.Covered o := by
  have hnone : ∀ o : Object, (none : Option Object) = some o → Object.Covered o :=
    fun o ho => by cases ho
  rw [findObject]
  dsimp only
  split
  · exact ⟨h, hnone⟩
  · split
    · split
      · exact ⟨h, hnone⟩
      · split
        · exact ⟨h, hnone⟩
        · refine ⟨h, fun o ho => ?_⟩
          rw [← Option.some.inj ho]
          exact covered_local ctx _ _
    · split
      · exact ⟨h, hnone⟩
      · exact resolveObjAddress_within ctx h newType _ _ _

theorem Placed.invokeObject (ctx : Context World Font Chars)
    {call : Call → Memory World Font Chars → Memory World Font Chars × Bool}
    (hcall : ∀ c memory, Object.Covered c.object → Within memory → Within (call c memory).1)
    {depth : Nat} {newType : Fin 4} (hdepth : depth ≤ type) (htype : type < newType.val)
    (t : Triplet) (h : Placed type s) :
    Placed type (invokeObject ctx call depth newType t s).1 := by
  have hlt := newType.isLt
  have hfound := @findObject_within _ _ _ s.type ctx _ h.within newType t
  rw [TeletextEnhance.invokeObject]
  dsimp only
  split
  · exact ⟨h.type, h.acp, h.drcsS1, hfound.1⟩
  · rename_i object hobject
    have hinvoke : InBounds (.invoke depth s.type newType) := by
      rw [h.type]
      exact ⟨htype, Nat.le_of_lt_succ hlt, by omega⟩
    have hcalled := fun row column =>
      hcall ⟨object, row, column⟩ _ (hfound.2 object hobject) (hfound.1.note hinvoke)
    split
    · exact ⟨h.type, h.acp, h.drcsS1, hcalled _ _⟩
    · exact ⟨h.type, h.acp, h.drcsS1, hcalled _ _⟩

theorem placed_start (ctx : Context World Font Chars) (c : Call) (h : Within memory) :
    Placed type (startState ctx type c memory) :=
  ⟨rfl, rfl, fun _ => Nat.zero_lt_succ 15, h⟩

/-- An object, wherever its origin is, with all objects it invokes. -/
theorem enhance_within (ctx : Context World Font Chars) (depth type : Nat) (hdepth : depth ≤ type)
    (c : Call) (hcovered : Object.Covered c.object) {memory : Memory World Font Chars}
    (h : Within memory) : Within (enhance ctx depth type c memory).1 := by
  rw [enhance]
  refine (Placed.tripletLoop ctx ?_ _ _ _ hcovered false (placed_start ctx c h)).within
  intro newType t s hs
  split
  · exact hs
  · rename_i hnew
    have htype : type < newType.val := Nat.lt_of_not_le hnew
    exact hs.invokeObject ctx (fun called memory hcalled hmemory =>
      enhance_within ctx (depth + 1) newType (by omega) called hcalled hmemory) hdepth htype t
termination_by 4 - type

theorem invokeDefault_within (ctx : Context World Font Chars) (pgno : Int) (newType address : Nat)
    (h : Within memory) : Within (invokeDefault ctx pgno newType address memory).1 := by
  have hresolved := resolveObjAddress_within ctx h newType pgno address
    TeletextHeader.pageFunctionPop
  rw [invokeDefault]
  split
  · exact h
  · rename_i htype
    dsimp only
    split
    · exact hresolved.1
    · rename_i object hobject
      exact enhance_within ctx 1 newType (Nat.pos_of_ne_zero htype) _
        (hresolved.2 object hobject) hresolved.1

theorem defaultObjectInvocation_within (ctx : Context World Font Chars) (h : Within memory) :
    Within (defaultObjectInvocation ctx memory).1 := by
  rw [defaultObjectInvocation]
  split
  · exact h
  · dsimp only
    split
    · split
      · exact invokeDefault_within ctx _ _ _ (invokeDefault_within ctx _ _ _ h)
      · exact invokeDefault_within ctx _ _ _ h
    · split
      · exact invokeDefault_within ctx _ _ _ (invokeDefault_within ctx _ _ _ h)
      · exact invokeDefault_within ctx _ _ _ h

theorem enhancePage_within (ctx : Context World Font Chars) (h : Within memory) :
    Within (enhancePage ctx memory).1 := by
  rw [enhancePage]
  split
  · refine enhance_within ctx 0 0 (Nat.le_refl 0) _ ?_ h
    intro i hi
    dsimp only at hi ⊢
    rw [Int.toNat_natCast] at hi
    omega
  · exact defaultObjectInvocation_within ctx h

theorem Within.writeNext (h : Within memory) (hrow : row < rows) (hcolumn : column < columns)
    (c : VbiChar) : Within (memory.write (row * extColumns + column + 1) c) :=
  h.write hrow (Nat.succ_lt_succ hcolumn) c

theorem Within.writeBelow (h : Within memory) (hrow : row + 1 < rows) (hcolumn : column < columns)
    (c : VbiChar) : Within (memory.write (row * extColumns + column + extColumns) c) := by
  have hoffset : row * extColumns + column + extColumns = (row + 1) * extColumns + column := by
    rw [Nat.succ_mul]
    omega
  rw [hoffset]
  exact h.write hrow (Nat.lt_succ_of_lt hcolumn) c

theorem Within.writeBelowNext (h : Within memory) (hrow : row + 1 < rows)
    (hcolumn : column < columns) (c : VbiChar) :
    Within (memory.write (row * extColumns + column + extColumns + 1) c) := by
  have hoffset : row * extColumns + column + extColumns + 1 =
      (row + 1) * extColumns + (column + 1) := by
    rw [Nat.succ_mul]
    omega
  rw [hoffset]
  exact h.write hrow (Nat.succ_lt_succ hcolumn) c

theorem within_ite [Decidable c] {a b : Memory World Font Chars} (ha : c → Within a)
    (hb : ¬c → Within b) : Within (if c then a else b) := by
  split
  · exact ha ‹c›
  · exact hb ‹¬c›

theorem postChar_within {below : Bool} (hrow : row < rows) (hbelow : below = true → row + 1 < rows)
    (hcolumn : column < columns) (h : Within memory) :
    Within (postChar below row column memory) := by
  have hwritten := h.write hrow (Nat.lt_succ_of_lt hcolumn)
    (transparentChar (memory.pg.text (row * extColumns + column)))
  rw [postChar]
  dsimp only
  split
  · refine within_ite (fun _ => Within.writeNext ?_ hrow hcolumn _) (fun _ => ?_)
    all_goals
      exact within_ite (fun hunder => hwritten.writeBelow (hbelow hunder.1) hcolumn _)
        (fun _ => hwritten)
  · split
    · exact within_ite (fun hunder => hwritten.writeBelow (hbelow hunder) hcolumn _)
        (fun _ => hwritten)
    · split
      · refine within_ite (fun _ => Within.writeNext ?_ hrow hcolumn _) (fun _ => ?_)
        all_goals
          exact within_ite (fun hlarge => (hwritten.writeBelow (hbelow hlarge.1) hcolumn
            _).writeBelowNext (hbelow hlarge.1) hcolumn _) (fun _ => hwritten)
      · exact hwritten

/-- What every step of a loop preserves, the loop does. -/
theorem within_foldl {f : Memory World Font Chars → Nat → Memory World Font Chars}
    (indices : List Nat) (hf : ∀ i ∈ indices, ∀ memory, Within memory → Within (f memory i))
    (h : Within memory) : Within (indices.foldl f memory) := by
  induction indices generalizing memory with
  | nil => exact h
  | cons i indices ih =>
    exact ih (fun j hj => hf j (List.mem_cons_of_mem i hj)) (hf i List.mem_cons_self memory h)

theorem postEnhance_within (displayRows : Nat) (h : Within memory) :
    Within (postEnhance displayRows memory) := by
  refine within_foldl _ (fun row hrow memory h => ?_) h
  refine within_foldl _ (fun column hcolumn memory h => ?_) h
  have hlast := List.mem_range.mp hrow
  have hrows : min displayRows rows - 1 < rows := by
    have := Nat.min_le_right displayRows rows
    simp only [rows] at this ⊢
    omega
  refine postChar_within (Nat.lt_trans hlast hrows) (fun hbelow => ?_)
    (List.mem_range.mp hcolumn) h
  exact Nat.lt_trans (of_decide_eq_true hbelow) hrows

/-- Pages are enhanced within bounds. When this fails the page is the one at Level 1. -/
theorem formatEnhanced_safe (ctx : Context World Font Chars) (displayRows : Nat)
    (pg : VbiPage Font Chars) (world : World) :
    let r := formatEnhanced ctx displayRows ⟨pg, world, []⟩
    (∀ a ∈ r.1.log, InBounds a) ∧ (r.2 = false → r.1.pg = pg) := by
  have hempty : ∀ page, Within (⟨page, world, []⟩ : Memory World Font Chars) :=
    fun page a ha => by cases ha
  dsimp only
  rw [formatEnhanced]
  split
  · exact ⟨hempty pg, fun h => by cases h⟩
  · have hpage := enhancePage_within ctx
      (hempty (if ctx.newsflashOrSubtitle then pg else hideBoxes pg))
    dsimp only
    generalize enhancePage ctx
      ⟨if ctx.newsflashOrSubtitle then pg else hideBoxes pg, world, []⟩ = r at hpage ⊢
    cases r.2 with
    | true =>
      refine ⟨?_, fun h => by cases h⟩
      exact within_ite (fun _ => postEnhance_within displayRows hpage) (fun _ => hpage)
    | false => exact ⟨hpage, fun _ => rfl⟩

end TeletextEnhanceBounds

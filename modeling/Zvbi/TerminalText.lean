import Zvbi.ExportTargets
import Zvbi.PageText

/-!
# Text with terminal control codes

The text module describes each character by what is different from the character before it.
A terminal which follows the codes shows each character with the attributes it has on the page.
-/

namespace TerminalText
open ExportBuffer (Call)
open ExportTargets (output)
open PageText (Codeset isPrint printUnicode)

/-- The members of `vbi_char` the module looks at. -/
structure VbiChar where
  underline : Bool
  bold : Bool
  flash : Bool
  size : UInt8
  foreground : UInt8
  background : UInt8
  unicode : UInt16

/-- `memset (&old, ~0, sizeof (old))`. -/
def noChar : VbiChar := ⟨true, true, true, 0xff, 0xff, 0xff, 0xffff⟩

/-- `text_instance`, and the color map of the page. -/
structure TextInstance where
  term : Nat
  gfxChr : UInt16
  cd : Codeset
  colorMap : UInt8 → UInt32

/-- The distance of a color from the color `i` of the terminal. -/
def distance (color : UInt32) (i : Nat) : Nat :=
  let rgba := color.toNat
  (((i % 2 * 0xff : Nat) : Int) - (rgba % 0x100 : Nat)).natAbs +
    (((i / 2 % 2 * 0xff : Nat) : Int) - (rgba / 0x100 % 0x100 : Nat)).natAbs +
    (((i / 4 * 0xff : Nat) : Int) - (rgba / 0x10000 % 0x100 : Nat)).natAbs

local instance neZeroEight : NeZero 8 := ⟨by decide⟩

/-- The loop returns `imin`, and begins with `dmin` at `INT_MAX`. -/
def matchColor8 (color : UInt32) : Fin 8 :=
  ((List.finRange 8).foldl (fun best (i : Fin 8) =>
    if distance color i < best.2 then (i, distance color i) else best) (0, 0x7fffffff)).1

/-- The size of a line, unless the character is not printed. -/
def sizeCode (old this : VbiChar) : Option (List UInt8) :=
  if old.size = this.size then some []
  else if this.size = 0 then some [0x1b, 0x23, 0x35]
  else if this.size = 1 then some [0x1b, 0x23, 0x36]
  else if this.size = 3 then some [0x1b, 0x23, 0x33]
  else if this.size = 7 then some [0x1b, 0x23, 0x34]
  else if this.size = 4 ∨ this.size = 5 then none
  else some []

/-- Attributes which go off need a reset, if the terminal cannot turn them off one by one. -/
def resets (text : TextInstance) (old this : VbiChar) : Bool :=
  decide (text.term = 1) && (old.underline && !this.underline || old.bold && !this.bold ||
    old.flash && !this.flash)

def switched (reset old this : Bool) (on off : Nat) : List Nat :=
  if (if reset then this else old != this) then [if this then on else off] else []

def color (text : TextInstance) (reset : Bool) (old this : UInt8) (base : Nat) : List Nat :=
  if reset || old != this then [base + matchColor8 (text.colorMap this)] else []

/-- The codes before a character, each of which is printed with a semicolon. -/
def codes (text : TextInstance) (old this : VbiChar) : List Nat :=
  let reset := resets text old this
  (if reset then [0] else []) ++ switched reset old.underline this.underline 4 24 ++
    switched reset old.bold this.bold 1 21 ++ switched reset old.flash this.flash 5 25 ++
    color text reset old.foreground this.foreground 30 ++
    color text reset old.background this.background 40

/-- The digits of a code, which are left out for a reset. -/
def digits (n : Nat) : List UInt8 :=
  if n = 0 then [] else if n < 10 then [0x30 + UInt8.ofNat n]
  else [0x30 + UInt8.ofNat (n / 10), 0x30 + UInt8.ofNat (n % 10)]

/-- The last semicolon is replaced by the letter `m`. -/
def attributeCode (text : TextInstance) (old this : VbiChar) : List UInt8 :=
  let p := (codes text old this).flatMap fun n => digits n ++ [0x3b]
  if p = [] then [] else 0x1b :: 0x5b :: (p.dropLast ++ [0x6d])

/-- What is printed before the character into `buf`, unless it is skipped. -/
def controls (text : TextInstance) (old this : VbiChar) : Option (List UInt8) :=
  if 0 < text.term then (sizeCode old this).map fun p => p ++ attributeCode text old this
  else some []

def replaced (text : TextInstance) (unicode : UInt16) : UInt16 :=
  if isPrint unicode then unicode
  else if 0xee00 ≤ unicode ∧ unicode ≤ 0xefff then text.gfxChr
  else 0x20

/-- The character behind the controls in `buf[32]`. -/
def character (text : TextInstance) (p : List UInt8) (this : VbiChar) : Option (List UInt8) :=
  (printUnicode text.cd (replaced text this.unicode) (32 - p.length)).map (·.bytes)

/-- The loop over the columns. -/
def exportRow (text : TextInstance) (old : VbiChar) : List VbiChar → Option (List Call)
  | [] => some []
  | this :: cp =>
    match controls text old this with
    | none => exportRow text this cp
    | some p =>
      match character text p this, exportRow text this cp with
      | some bytes, some calls =>
        match p ++ bytes with
        | [c] => some (.putc c :: calls)
        | buf => some (.write buf :: calls)
      | _, _ => none

/-- The loop over the rows. -/
def exportRows (text : TextInstance) (old : VbiChar) : List (List VbiChar) → Option (List Call)
  | [] => some []
  | [cells] => (exportRow text old cells).map fun calls =>
      calls ++ [if 0 < text.term then .printf [0x1b, 0x5b, 0x6d, 0x0a] else .putc 0x0a]
  | cells :: rows =>
    match exportRow text old cells, exportRows text (cells.getLastD old) rows with
    | some calls, some more => some (calls ++ .putc 0x0a :: more)
    | _, _ => none

/-- How a terminal shows a character, in one of eight colors or its own. -/
structure Look where
  underline : Bool
  bold : Bool
  flash : Bool
  foreground : Option Nat
  background : Option Nat

def plain : Look := ⟨false, false, false, none, none⟩

/-- Select Graphic Rendition. -/
def Look.select (vt200 : Bool) (look : Look) (n : Nat) : Look :=
  if n = 0 then plain
  else if n = 1 then { look with bold := true }
  else if n = 4 then { look with underline := true }
  else if n = 5 then { look with flash := true }
  else if n = 21 ∧ vt200 then { look with bold := false }
  else if n = 24 ∧ vt200 then { look with underline := false }
  else if n = 25 ∧ vt200 then { look with flash := false }
  else if 30 ≤ n ∧ n < 38 then { look with foreground := some (n - 30) }
  else if 40 ≤ n ∧ n < 48 then { look with background := some (n - 40) }
  else look

def Look.selectAll (vt200 : Bool) (look : Look) (codes : List Nat) : Look :=
  codes.foldl (Look.select vt200) look

inductive Mode
  | ground
  | escape
  | lineSize
  | csi (codes : List Nat) (n : Nat)

/-- A terminal, and the bytes it has shown. Control characters have no look. -/
structure Terminal where
  mode : Mode
  look : Look
  shown : List (UInt8 × Look)

def Terminal.feed (vt200 : Bool) (t : Terminal) (c : UInt8) : Terminal :=
  match t.mode with
  | .ground =>
    if c = 0x1b then { t with mode := .escape }
    else { t with shown := t.shown ++ [(c, if c < 0x20 then plain else t.look)] }
  | .escape =>
    { t with mode := if c = 0x5b then .csi [] 0 else if c = 0x23 then .lineSize else .ground }
  | .lineSize => { t with mode := .ground }
  | .csi codes n =>
    if c = 0x3b then { t with mode := .csi (codes ++ [n]) 0 }
    else if c = 0x6d then
      { t with mode := .ground, look := t.look.selectAll vt200 (codes ++ [n]) }
    else if 0x30 ≤ c ∧ c < 0x3a then { t with mode := .csi codes (10 * n + (c.toNat - 0x30)) }
    else { t with mode := .ground }

def Terminal.run (vt200 : Bool) (t : Terminal) (input : List UInt8) : Terminal :=
  input.foldl (Terminal.feed vt200) t

/-- What a character shall look like. -/
def lookOf (text : TextInstance) (c : VbiChar) : Look :=
  ⟨c.underline, c.bold, c.flash, some (matchColor8 (text.colorMap c.foreground)),
    some (matchColor8 (text.colorMap c.background))⟩

/-- The characters of a row which are not skipped. -/
def rowPicture (text : TextInstance) (old : VbiChar) : List VbiChar → List (UInt8 × Look)
  | [] => []
  | this :: cp =>
    ((controls text old this).bind fun p => character text p this).elim []
      (·.map fun c => (c, lookOf text this)) ++ rowPicture text this cp

def picture (text : TextInstance) (old : VbiChar) : List (List VbiChar) → List (UInt8 × Look)
  | [] => []
  | cells :: rows =>
    rowPicture text old cells ++ (0x0a, plain) :: picture text (cells.getLastD old) rows

variable {text : TextInstance} {look : Look} {old this : VbiChar} {vt200 : Bool}
variable {shown : List (UInt8 × Look)}

theorem run_append (t : Terminal) (a b : List UInt8) :
    t.run vt200 (a ++ b) = (t.run vt200 a).run vt200 b := List.foldl_append

/-- The look is right as far as a character is like the one before it. -/
structure Agrees (text : TextInstance) (look : Look) (old this : VbiChar) : Prop where
  underline : old.underline = this.underline → look.underline = this.underline
  bold : old.bold = this.bold → look.bold = this.bold
  flash : old.flash = this.flash → look.flash = this.flash
  foreground : old.foreground = this.foreground →
    look.foreground = (lookOf text this).foreground
  background : old.background = this.background →
    look.background = (lookOf text this).background

theorem agrees_lookOf (old this : VbiChar) : Agrees text (lookOf text old) old this where
  underline h := h
  bold h := h
  flash h := h
  foreground h := by rw [lookOf, lookOf, h]
  background h := by rw [lookOf, lookOf, h]

theorem selectAll_append (a b : List Nat) :
    look.selectAll vt200 (a ++ b) = (look.selectAll vt200 a).selectAll vt200 b :=
  List.foldl_append

/-- Attributes are only turned off one by one if the terminal can do that. -/
theorem select_switched {reset old this : Bool}
    (h : reset = false → old = true → this = false → vt200 = true) (look : Look) :
    let same := (if reset then this else old != this) = false
    ((same → look.underline = this) →
        look.selectAll vt200 (switched reset old this 4 24) = { look with underline := this }) ∧
      ((same → look.bold = this) →
        look.selectAll vt200 (switched reset old this 1 21) = { look with bold := this }) ∧
      ((same → look.flash = this) →
        look.selectAll vt200 (switched reset old this 5 25) = { look with flash := this }) := by
  obtain ⟨underline, bold, flash, foreground, background⟩ := look
  cases reset <;> cases old <;> cases this <;>
    simp_all [switched, Look.selectAll, Look.select]

theorem select_color {reset : Bool} {old this : UInt8} (look : Look) :
    let matched : Nat := matchColor8 (text.colorMap this)
    ((reset = false → old = this → look.foreground = some matched) →
        look.selectAll vt200 (color text reset old this 30) =
          { look with foreground := some matched }) ∧
      ((reset = false → old = this → look.background = some matched) →
        look.selectAll vt200 (color text reset old this 40) =
          { look with background := some matched }) := by
  have hselect : ∀ i : Fin 8,
      look.selectAll vt200 [30 + i] = { look with foreground := some i } ∧
        look.selectAll vt200 [40 + i] = { look with background := some i } := by
    intro i
    fin_cases i <;> exact ⟨rfl, rfl⟩
  dsimp only [color]
  generalize matchColor8 (text.colorMap this) = i
  by_cases hsame : reset = false ∧ old = this
  · rw [if_neg (by simp [hsame]), if_neg (by simp [hsame])]
    exact ⟨fun h => by rw [← h hsame.1 hsame.2]; rfl, fun h => by rw [← h hsame.1 hsame.2]; rfl⟩
  · rw [if_pos (by cases reset <;> simp_all), if_pos (by cases reset <;> simp_all)]
    exact ⟨fun _ => (hselect i).1, fun _ => (hselect i).2⟩

/-- The codes make a difference of looks from a difference of characters. -/
theorem select_codes (hterm : text.term = 1 ∨ text.term = 2) (h : Agrees text look old this) :
    look.selectAll (decide (text.term = 2)) (codes text old this) = lookOf text this := by
  have hoff : resets text old this = false →
      (old.underline = true → this.underline = false → decide (text.term = 2) = true) ∧
        (old.bold = true → this.bold = false → decide (text.term = 2) = true) ∧
        (old.flash = true → this.flash = false → decide (text.term = 2) = true) := by
    rcases hterm with hterm | hterm <;> simp_all [resets]
  have hfirst : look.selectAll (decide (text.term = 2))
      (if resets text old this then [0] else []) =
        if resets text old this then plain else look := by
    split <;> rfl
  rw [codes]
  simp only [selectAll_append, hfirst]
  generalize resets text old this = reset at hoff ⊢
  have hu := fun look => (select_switched (fun hreset => (hoff hreset).1) look).1
  have hb := fun look => (select_switched (fun hreset => (hoff hreset).2.1) look).2.1
  have hf := fun look => (select_switched (fun hreset => (hoff hreset).2.2) look).2.2
  rw [hu, hb, hf, (select_color _).1, (select_color _).2]
  · rfl
  all_goals cases reset
  · exact fun _ => h.background
  · exact nofun
  · exact fun _ => h.foreground
  · exact nofun
  · exact fun hsame => h.flash (by simpa using hsame)
  · exact Eq.symm
  · exact fun hsame => h.bold (by simpa using hsame)
  · exact Eq.symm
  · exact fun hsame => h.underline (by simpa using hsame)
  · exact Eq.symm

theorem run_digits {n : Nat} (hn : n < 100) (codes : List Nat) :
    Terminal.run vt200 ⟨.csi codes 0, look, shown⟩ (digits n) = ⟨.csi codes n, look, shown⟩ := by
  have hdigit : ∀ (d : Fin 10) (k : Nat), Terminal.feed vt200 ⟨.csi codes k, look, shown⟩
      (0x30 + UInt8.ofNat d) = ⟨.csi codes (10 * k + d), look, shown⟩ := by
    intro d k
    fin_cases d <;> rfl
  rw [digits]
  split
  · subst n
    rfl
  split
  · rename_i hten
    exact (hdigit ⟨n, hten⟩ 0).trans (by rw [Nat.mul_zero, Nat.zero_add])
  · rw [Terminal.run, List.foldl_cons, List.foldl_cons, List.foldl_nil,
      hdigit ⟨n / 10, by omega⟩ 0, hdigit ⟨n % 10, by omega⟩]
    dsimp only
    rw [Nat.mul_zero, Nat.zero_add, Nat.div_add_mod]

theorem run_codes {ns : List Nat} (hns : ∀ n ∈ ns, n < 100) (codes : List Nat) :
    Terminal.run vt200 ⟨.csi codes 0, look, shown⟩ (ns.flatMap fun n => digits n ++ [0x3b]) =
      ⟨.csi (codes ++ ns) 0, look, shown⟩ := by
  induction ns generalizing codes with
  | nil => rw [List.append_nil]; rfl
  | cons n ns ih =>
    obtain ⟨hn, hns⟩ := List.forall_mem_cons.mp hns
    rw [List.flatMap_cons, run_append, run_append, run_digits hn]
    exact (ih hns (codes ++ [n])).trans (by rw [List.append_assoc, List.singleton_append])

theorem codes_lt : ∀ n ∈ codes text old this, n < 100 := by
  have hforeground := (matchColor8 (text.colorMap this.foreground)).isLt
  have hbackground := (matchColor8 (text.colorMap this.background)).isLt
  intro n hn
  simp only [codes, switched, color, List.mem_append, List.mem_ite_nil_right, List.mem_singleton]
    at hn
  grind

/-- The terminal selects what the codes tell. -/
theorem run_attributeCode :
    Terminal.run vt200 ⟨.ground, look, shown⟩ (attributeCode text old this) =
      ⟨.ground, look.selectAll vt200 (codes text old this), shown⟩ := by
  have hlt := @codes_lt text old this
  rw [attributeCode]
  rcases List.eq_nil_or_concat' (codes text old this) with hnone | ⟨ns, n, hcodes⟩
  · rw [hnone]
    rfl
  · rw [hcodes] at hlt ⊢
    obtain ⟨hns, hn⟩ := List.forall_mem_append.mp hlt
    rw [List.flatMap_append, List.flatMap_singleton, ← List.append_assoc,
      if_neg (List.append_ne_nil_of_right_ne_nil _ (List.cons_ne_nil _ _)), List.dropLast_concat]
    change Terminal.run vt200 ⟨.csi [] 0, look, shown⟩ _ = _
    rw [run_append, run_append, run_codes hns, run_digits (hn n List.mem_cons_self)]
    rfl

/-- Characters are converted to bytes which are no control characters. -/
def Visible (cd : Codeset) : Prop :=
  ∀ c bytes, 0x20 ≤ c → cd.encode c = some bytes → ∀ b ∈ bytes, 0x20 ≤ b

theorem printUnicode_visible {cd : Codeset} (h : Visible cd) {c : UInt16} (hc : 0x20 ≤ c) {n : Nat}
    {p : PageText.Printed} (hp : printUnicode cd c n = some p) : ∀ b ∈ p.bytes, 0x20 ≤ b := by
  by_cases hreplaced : PageText.iconv cd c n = none ∨
      ∃ bytes, PageText.iconv cd c n = some bytes ∧ bytes.head? = some 0x40 ∧ c ≠ 0x40
  · rw [PageText.printUnicode_replaced hreplaced, Option.ite_none_right_eq_some] at hp
    cases hp.2
    exact h 0x20 cd.space (by decide) cd.encode_space
  · obtain ⟨hsome, hkept⟩ := not_or.mp hreplaced
    obtain ⟨bytes, hbytes⟩ := Option.ne_none_iff_exists'.mp hsome
    have hnot : ¬(bytes.head? = some 0x40 ∧ c ≠ 0x40) := fun hhead => hkept ⟨bytes, hbytes, hhead⟩
    simp only [printUnicode, hbytes, if_neg hnot] at hp
    cases hp
    exact h c bytes hc (Option.filter_eq_some_iff.mp hbytes).1

theorem run_visible {bytes : List UInt8} (h : ∀ b ∈ bytes, 0x20 ≤ b) :
    Terminal.run vt200 ⟨.ground, look, shown⟩ bytes =
      ⟨.ground, look, shown ++ bytes.map fun b => (b, look)⟩ := by
  induction bytes generalizing shown with
  | nil => rw [List.map_nil, List.append_nil]; rfl
  | cons b bytes ih =>
    obtain ⟨hb, hbytes⟩ := List.forall_mem_cons.mp h
    have hprinted : Terminal.feed vt200 ⟨.ground, look, shown⟩ b =
        ⟨.ground, look, shown ++ [(b, look)]⟩ := by
      have hescape : b ≠ 0x1b := by
        rintro rfl
        exact absurd hb (by decide)
      rw [Terminal.feed]
      dsimp only
      rw [if_neg hescape, if_neg (UInt8.not_lt.mpr hb)]
    rw [Terminal.run, List.foldl_cons, hprinted]
    exact (ih hbytes).trans (by rw [List.map_cons, List.append_assoc, List.singleton_append])

/-- Two characters next to each other, of which the second one looks the same if it is skipped. -/
def Covers (text : TextInstance) (old this : VbiChar) : Prop :=
  controls text old this = none → lookOf text old = lookOf text this

/-- The terminal has the look of the character before these ones. -/
structure Ready (text : TextInstance) (look : Look) (old : VbiChar) (cells : List VbiChar) :
    Prop where
  agrees : ∀ c ∈ cells.head?, Agrees text look old c
  skipped : ∀ c ∈ cells.head?, controls text old c = none → look = lookOf text c
  chain : cells.IsChain (Covers text)

theorem Ready.tail {cells : List VbiChar} (h : Ready text look old (this :: cells)) :
    Ready text (lookOf text this) this cells where
  agrees c _ := agrees_lookOf this c
  skipped c hc hskip := by
    obtain ⟨rest, rfl⟩ := List.head?_eq_some_iff.mp hc
    exact (List.isChain_cons_cons.mp h.chain).1 hskip
  chain := h.chain.of_cons

section
variable (hterm : text.term = 1 ∨ text.term = 2) (hcd : Visible text.cd) (hgfx : 0x20 ≤ text.gfxChr)
include hterm

theorem run_controls {cells : List VbiChar} (h : Ready text look old (this :: cells))
    {p : List UInt8} (hp : controls text old this = some p) :
    Terminal.run (decide (text.term = 2)) ⟨.ground, look, shown⟩ p =
      ⟨.ground, lookOf text this, shown⟩ := by
  have hpos : 0 < text.term := by omega
  rw [controls, if_pos hpos] at hp
  obtain ⟨q, hq, rfl⟩ := Option.map_eq_some_iff.mp hp
  have hsize : Terminal.run (decide (text.term = 2)) ⟨.ground, look, shown⟩ q =
      ⟨.ground, look, shown⟩ := by
    rw [sizeCode] at hq
    repeat' split at hq
    all_goals cases hq <;> rfl
  rw [run_append, hsize, run_attributeCode, select_codes hterm (h.agrees this rfl)]

include hcd hgfx

theorem run_row {cells more : List VbiChar} {calls : List Call}
    (h : Ready text look old (cells ++ more)) (hunicode : ∀ c ∈ cells, 0x20 ≤ c.unicode)
    (hcalls : exportRow text old cells = some calls) :
    ∃ look', Terminal.run (decide (text.term = 2)) ⟨.ground, look, shown⟩ (output calls) =
        ⟨.ground, look', shown ++ rowPicture text old cells⟩ ∧
      Ready text look' (cells.getLastD old) more := by
  induction cells generalizing look old shown calls with
  | nil =>
    cases hcalls
    exact ⟨look, by rw [rowPicture, List.append_nil]; rfl, h⟩
  | cons this cells ih =>
    obtain ⟨hthis, hunicode⟩ := List.forall_mem_cons.mp hunicode
    rw [exportRow] at hcalls
    rw [rowPicture, List.getLastD_cons]
    cases hp : controls text old this with
    | none =>
      rw [hp] at hcalls
      rw [h.skipped this rfl hp]
      exact ih h.tail hunicode hcalls
    | some p =>
      rw [hp] at hcalls
      dsimp only at hcalls
      split at hcalls
      · rename_i bytes rest hbytes hrest
        have hvisible : ∀ b ∈ bytes, 0x20 ≤ b := by
          obtain ⟨q, hq, rfl⟩ := Option.map_eq_some_iff.mp hbytes
          refine printUnicode_visible hcd ?_ hq
          rw [replaced]
          split
          · exact hthis
          split
          · exact hgfx
          · decide
        have houtput : output calls = p ++ bytes ++ output rest := by
          split at hcalls <;> cases hcalls
          · rename_i hbuf
            rw [hbuf]
            rfl
          · rfl
        obtain ⟨look', hrun, hready⟩ := ih h.tail hunicode hrest
        refine ⟨look', ?_, hready⟩
        rw [houtput, run_append, run_append, run_controls hterm h hp, run_visible hvisible, hrun,
          Option.bind_some, hbytes, Option.elim_some, List.append_assoc]
      · cases hcalls

theorem run_rows {rows : List (List VbiChar)} {calls : List Call} (hrows : rows ≠ [])
    (h : Ready text look old rows.flatten)
    (hunicode : ∀ cells ∈ rows, ∀ c ∈ cells, 0x20 ≤ c.unicode)
    (hcalls : exportRows text old rows = some calls) :
    Terminal.run (decide (text.term = 2)) ⟨.ground, look, shown⟩ (output calls) =
      ⟨.ground, plain, shown ++ picture text old rows⟩ := by
  induction rows generalizing look old shown calls with
  | nil => exact absurd rfl hrows
  | cons cells rows ih =>
    obtain ⟨hcells, hunicode⟩ := List.forall_mem_cons.mp hunicode
    rw [List.flatten_cons] at h
    cases rows with
    | nil =>
      obtain ⟨row, hrow, rfl⟩ := Option.map_eq_some_iff.mp hcalls
      obtain ⟨look', hrun, -⟩ := run_row hterm hcd hgfx h hcells hrow
      rw [if_pos (by omega : 0 < text.term), output, List.flatMap_append, run_append, ← output,
        hrun, picture, picture, ← List.append_assoc]
      rfl
    | cons next rows =>
      rw [exportRows] at hcalls
      · split at hcalls
        · rename_i row more hrow hmore
          cases hcalls
          obtain ⟨look', hrun, hready⟩ := run_row hterm hcd hgfx h hcells hrow
          have hrest := @ih _ _ (shown ++ rowPicture text old cells ++ [(0x0a, plain)]) _
            (List.cons_ne_nil _ _) hready hunicode hmore
          rw [output, List.flatMap_append, run_append, ← output, hrun, picture, List.append_cons,
            ← List.append_assoc, ← List.append_assoc, ← hrest]
          rfl
        · cases hcalls
      · exact nofun

end

def ascii : Codeset where
  encode c := if c < 0x80 then some [c.toUInt8] else none
  irreversible _ := false
  space := [0x20]
  encode_nonempty c bytes h := by
    obtain ⟨-, h⟩ := Option.ite_none_right_eq_some.mp h
    cases h
    exact List.cons_ne_nil _ _
  encode_space := rfl
  space_reversible := rfl

theorem ascii_visible : Visible ascii := by
  intro c bytes hc h
  obtain ⟨hlt, h⟩ := Option.ite_none_right_eq_some.mp h
  cases h
  rw [List.forall_mem_singleton, UInt8.le_iff_toNat_le, UInt16.toNat_toUInt8]
  rw [UInt16.lt_iff_toNat_lt] at hlt
  rw [UInt16.le_iff_toNat_le] at hc
  exact hc.trans (Nat.mod_eq_of_lt (hlt.trans (by decide))).ge

def vt100 : TextInstance := ⟨1, 0x23, ascii, fun i => if i = 7 then 0xffffff else 0⟩

/-- A white letter on black. -/
def letter (underline : Bool) (unicode : UInt16) : VbiChar :=
  ⟨underline, false, false, 0, 7, 0, unicode⟩

end TerminalText

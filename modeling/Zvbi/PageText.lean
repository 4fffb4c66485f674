import Mathlib

/-!
# Pages as text

A region of a page is printed as text in a character set. When it is not printed as a table the
rows follow each other in one line, blank rows are left out, and spaces between the rows are
collapsed into one.
-/

namespace PageText

/-- `vbi_size`. -/
inductive Size where
  | normalSize
  | doubleWidth
  | doubleHeight
  | doubleSize
  | overTop
  | overBottom
  | doubleHeight2
  | doubleSize2
deriving DecidableEq, Repr

structure VbiChar where
  unicode : UInt16
  size : Size
deriving DecidableEq, Repr

/-- `vbi_page`. -/
structure Page where
  columns : Nat
  rows : Nat
  text : Nat → VbiChar

/-- `iconv` from UCS-2, which converts each character by itself. -/
structure Codeset where
  encode : UInt16 → Option (List UInt8)
  /-- `iconv` returns 1 for a character which cannot be converted back. -/
  irreversible : UInt16 → Bool
  space : List UInt8
  encode_nonempty : ∀ c bytes, encode c = some bytes → bytes ≠ []
  encode_space : encode 0x20 = some space
  space_reversible : irreversible 0x20 = false

/-- A character given to `print_unicode` and the bytes which were stored for it. -/
structure Printed where
  unicode : UInt16
  bytes : List UInt8
deriving DecidableEq, Repr

/-- `vbi_is_print`. -/
def isPrint (unicode : UInt16) : Bool := unicode < 0xE600

/-- `iconv` with this space in the output buffer. -/
def iconv (cd : Codeset) (c : UInt16) (left : Nat) : Option (List UInt8) :=
  (cd.encode c).filter (·.length ≤ left)

def printUnicode (cd : Codeset) (unicode : UInt16) (n : Nat) : Option Printed :=
  let replaced := match iconv cd 0x20 n with
    | none => none
    | some bytes =>
      if cd.irreversible 0x20 ∧ bytes.head? = some 0x40 then none else some ⟨unicode, bytes⟩
  match iconv cd unicode n with
  | none => replaced
  | some bytes =>
    if bytes.head? = some 0x40 ∧ unicode ≠ 0x40 then replaced else some ⟨unicode, bytes⟩

/-- `p - buf`. -/
def used (out : List Printed) : Nat := (out.map fun p => p.bytes.length).sum

/-- `print_unicode (cd, endian, c, &p, buf + size - p)`. -/
def printTo (cd : Codeset) (size : Nat) (out : List Printed) (c : UInt16) :
    Option (List Printed) :=
  (printUnicode cd c (size - used out)).map fun p => out ++ [p]

/-- `for (; spaces > 0; spaces--)`. -/
def printSpaces (cd : Codeset) (size : Nat) : Nat → List Printed → Option (List Printed)
  | 0, out => some out
  | spaces + 1, out => do
    let out ← printTo cd size out 0x20
    printSpaces cd size spaces out

/-- The arguments of `vbi_print_page_region`. -/
structure Arguments where
  page : Page
  size : Nat
  table : Bool
  column : Nat
  row : Nat
  width : Nat
  height : Nat

namespace Arguments
variable (a : Arguments)

def column1 : Nat := a.column + a.width - 1
def row1 : Nat := a.row + a.height - 1

def x0 (y : Nat) : Nat := if a.table ∨ y = a.row then a.column else 0
def x1 (y : Nat) : Nat := if a.table ∨ y = a.row1 then a.column1 else a.page.columns - 1

/-- `xl`, or nothing where it is -1. -/
def xl (y : Nat) : Option Nat :=
  if a.table ∨ y ≠ a.row ∨ y + 1 ≠ a.row1 then none else some a.column1

end Arguments

/-- The variables of the loop over the columns, which may change `y`. -/
structure Columns where
  out : List Printed
  spaces : Nat
  doubleh : Nat
  x1 : Nat
  y : Nat

def printFlowing (cd : Codeset) (a : Arguments) (x0 : Nat) (xl : Option Nat) (x : Nat)
    (ac : VbiChar) (st : Columns) : Option Columns :=
  if ac.size = .overTop ∨ ac.size = .overBottom then
    some st
  else
    let doubleh :=
      if ac.size = .doubleHeight ∨ ac.size = .doubleSize then st.doubleh + 1 else st.doubleh
    let unicode :=
      if (ac.size = .doubleHeight2 ∨ ac.size = .doubleSize2) ∧ a.row < st.y then 0x20
      else ac.unicode
    -- two rows where all characters of the first have double height
    let skip := some x = xl ∧ x - x0 ≤ doubleh
    let x1 := if skip then x else st.x1
    let y := if skip then a.row1 else st.y
    if unicode = 0x20 ∨ ¬ isPrint unicode then
      some ⟨st.out, st.spaces + 1, doubleh, x1, y⟩
    else do
      let out ← if st.spaces < x - x0 ∨ y = a.row then printSpaces cd a.size st.spaces st.out
        else some st.out
      let out ← printTo cd a.size out unicode
      return ⟨out, 0, doubleh, x1, y⟩

def printColumn (cd : Codeset) (a : Arguments) (x0 : Nat) (xl : Option Nat) (x : Nat)
    (st : Columns) : Option Columns :=
  let ac := a.page.text (st.y * a.page.columns + x)
  if a.table then
    let unicode :=
      if ac.size = .overTop ∨ ac.size = .overBottom ∨ ac.size = .doubleHeight2 ∨
        ac.size = .doubleSize2 then 0x20 else ac.unicode
    (printTo cd a.size st.out unicode).map fun out => { st with out }
  else
    printFlowing cd a x0 xl x ac st

/-- The loop over the columns, which ends after `x1`. -/
def printColumns (cd : Codeset) (a : Arguments) (x0 : Nat) (xl : Option Nat) :
    List Nat → Columns → Option Columns
  | [], st => some st
  | x :: xs, st =>
    if x ≤ st.x1 then do
      let st ← printColumn cd a x0 xl x st
      printColumns cd a x0 xl xs st
    else
      some st

def printRow (cd : Codeset) (a : Arguments) (y doubleh0 : Nat) (out : List Printed) :
    Option Columns := do
  let x0 := a.x0 y
  let st ← printColumns cd a x0 (a.xl y) (List.range' x0 (a.x1 y + 1 - x0))
    ⟨out, 0, 0, a.x1 y, y⟩
  if st.y < a.row1 then
    if a.size - used st.out < 1 then
      none
    else if a.table then
      return { st with out := st.out ++ [⟨0x0A, [0x0A]⟩] }
    else if st.spaces ≥ st.x1 - x0 then
      return st
    else
      let out ← printTo cd a.size st.out 0x20
      return { st with out }
  else if doubleh0 > 0 then
    return st
  else
    let out ← printSpaces cd a.size st.spaces st.out
    return { st with out }

/-- The loop over the rows, at most `n` of them. -/
def printRows (cd : Codeset) (a : Arguments) : Nat → Nat → Nat → List Printed →
    Option (List Printed)
  | 0, _, _, out => some out
  | n + 1, y, doubleh, out =>
    if y ≤ a.row1 then do
      let st ← printRow cd a y doubleh out
      printRows cd a n (st.y + 1) st.doubleh st.out
    else
      some out

/-- `vbi_print_page_region`, or nothing where it returns 0. There is no descriptor where
`iconv_open` fails. -/
def vbiPrintPageRegion (cd : Option Codeset) (a : Arguments) : Option (List Printed) :=
  if a.column1 ≥ a.page.columns ∨ a.row1 ≥ a.page.rows then
    none
  else
    match cd with
    | none => none
    | some cd => printRows cd a a.height a.row 0 []

structure NormalPage extends Page where
  normal : ∀ i, (text i).size = .normalSize

structure Region (pg : NormalPage) where
  column : Nat
  row : Nat
  width : Nat
  height : Nat
  width_pos : 0 < width
  height_pos : 0 < height
  column_le : column + width ≤ pg.columns
  row_le : row + height ≤ pg.rows

def glyph (ac : VbiChar) : UInt16 := if isPrint ac.unicode then ac.unicode else 0x20

def isSpace (c : UInt16) : Bool := c = 0x20

def Blank (line : List UInt16) : Prop := ∀ c ∈ line, c = 0x20

instance (line : List UInt16) : Decidable (Blank line) := inferInstanceAs (Decidable (∀ _ ∈ _, _))

def trimRight (line : List UInt16) : List UInt16 := line.rdropWhile isSpace

def trim (line : List UInt16) : List UInt16 := trimRight (line.dropWhile isSpace)

/-- The rows which are not blank, with one space between them. -/
def joined : List (List UInt16) → List UInt16
  | [] => []
  | line :: lines =>
    if Blank line then joined lines
    else if joined lines = [] then trim line
    else trim line ++ 0x20 :: joined lines

namespace Region
variable {pg : NormalPage} (rg : Region pg)

def arguments (size : Nat) : Arguments :=
  ⟨pg.toPage, size, false, rg.column, rg.row, rg.width, rg.height⟩

def line (y : Nat) : List UInt16 :=
  let x0 := if y = rg.row then rg.column else 0
  let x1 := if y = rg.row + rg.height - 1 then rg.column + rg.width else pg.columns
  (List.range' x0 (x1 - x0)).map fun x => glyph (pg.text (y * pg.columns + x))

def lines : List (List UInt16) := (List.range' rg.row rg.height).map rg.line

end Region

/-- The rows in one line with the spaces that are kept: in front of the first row, at the end of
the last, and one after every other row whose length `ends` says. -/
def flowing (ends : Nat → Bool) : Bool → List (List UInt16) → List UInt16
  | _, [] => []
  | first, [line] =>
    (if first then trimRight line else trim line) ++
      List.replicate (line.length - (trimRight line).length) 0x20
  | first, line :: lines =>
    (if first then trimRight line else trim line) ++
      (if ends (trimRight line).length then [0x20] else []) ++ flowing ends false lines

def Codeset.shown (cd : Codeset) (c : UInt16) : List UInt8 := (cd.encode c).getD cd.space

def Codeset.width (cd : Codeset) (text : List UInt16) : Nat :=
  (text.map fun c => (cd.shown c).length).sum

/-- The rows of the region are printed with one space between them, and nothing is printed just
where they do not fit with the spaces that are kept. -/
def Meets (cd : Codeset) {pg : NormalPage} (rg : Region pg) : Prop :=
  ∀ size, match vbiPrintPageRegion (some cd) (rg.arguments size) with
    | none => size < cd.width (flowing (0 < ·) true rg.lines)
    | some out =>
      used out ≤ size ∧ (∀ p ∈ out, p.bytes = cd.shown p.unicode) ∧
        ∃ before after, out.map (·.unicode) =
          List.replicate before 0x20 ++ joined rg.lines ++ List.replicate after 0x20

/-- The characters of the region with the spaces that are kept. A region of one column in two
rows is taken for its first character. -/
def Region.text {pg : NormalPage} (rg : Region pg) : List UInt16 :=
  if rg.width = 1 ∧ rg.height = 2 then
    [glyph (pg.text (rg.row * pg.columns + rg.column))]
  else
    flowing (1 < ·) true rg.lines

def LoneLast : List (List UInt16) → Prop
  | [] => True
  | line :: lines =>
    ((trimRight line).length = 1 → ∀ l ∈ lines, Blank l) ∧ LoneLast lines

def Recognized (cd : Codeset) (text : List UInt16) : Prop :=
  ∀ c ∈ text, ∀ bytes, cd.encode c = some bytes → bytes.head? = some 0x40 →
    c = 0x40 ∨ bytes = cd.space

def Followed (cd : Codeset) : List UInt16 → Prop
  | [] => True
  | c :: text => (cd.shown c).length ≤ cd.space.length + cd.width text ∧ Followed cd text

/-- The regions and character sets for which the text is right. -/
def Holds (cd : Codeset) {pg : NormalPage} (rg : Region pg) : Prop :=
  (rg.width = 1 ∧ rg.height = 2 → Blank (rg.lines.flatten.tail)) ∧ LoneLast rg.lines ∧
    Recognized cd rg.text ∧ Followed cd rg.text

def printAll (cd : Codeset) (size : Nat) : List Printed → List UInt16 → Option (List Printed)
  | out, [] => some out
  | out, c :: text => do
    let out ← printTo cd size out c
    printAll cd size out text

variable {c : UInt16} {out : List Printed} {text line : List UInt16} {lines : List (List UInt16)}

variable {n : Nat} {ac : VbiChar} {d : UInt16}

section
variable (cd : Codeset) (size : Nat)

lemma printAll_append (out : List Printed) (xs ys : List UInt16) :
    printAll cd size out (xs ++ ys) = (printAll cd size out xs).bind
      fun out => printAll cd size out ys := by
  induction xs generalizing out with
  | nil => rfl
  | cons c xs ih =>
    rcases h : printTo cd size out c with _ | out'
    · simp [printAll, h]
    · simpa [printAll, h] using ih out'

lemma printAll_append_cons (out : List Printed) (xs : List UInt16) (c : UInt16)
    (ys : List UInt16) :
    printAll cd size out (xs ++ c :: ys) = (printAll cd size out (xs ++ [c])).bind
      fun out => printAll cd size out ys := by
  rw [← printAll_append]
  simp

lemma printSpaces_eq (n : Nat) (out : List Printed) :
    printSpaces cd size n out = printAll cd size out (List.replicate n 0x20) := by
  induction n generalizing out with
  | zero => rfl
  | succ n ih => simp [printSpaces, List.replicate_succ, printAll, ih]

@[simp] lemma used_nil : used [] = 0 := rfl

@[simp] lemma used_append (xs ys : List Printed) : used (xs ++ ys) = used xs + used ys := by
  simp [used]

@[simp] lemma used_singleton (p : Printed) : used [p] = p.bytes.length := by simp [used]

@[simp] lemma width_nil : cd.width [] = 0 := rfl

@[simp] lemma width_cons (c : UInt16) (text : List UInt16) :
    cd.width (c :: text) = (cd.shown c).length + cd.width text := by simp [Codeset.width]

@[simp] lemma width_append (xs ys : List UInt16) :
    cd.width (xs ++ ys) = cd.width xs + cd.width ys := by simp [Codeset.width]

@[simp] lemma shown_space : cd.shown 0x20 = cd.space := by simp [Codeset.shown, cd.encode_space]

lemma space_pos : 0 < cd.space.length :=
  List.length_pos_iff.2 (cd.encode_nonempty _ _ cd.encode_space)

lemma shown_pos (c : UInt16) : 0 < (cd.shown c).length := by
  rcases h : cd.encode c with _ | bytes
  · simpa [Codeset.shown, h] using space_pos cd
  · simpa [Codeset.shown, h] using List.length_pos_iff.2 (cd.encode_nonempty _ _ h)

variable {cd size}

lemma iconv_some {bytes : List UInt8} (h : cd.encode c = some bytes) (hn : bytes.length ≤ n) :
    iconv cd c n = some bytes := by
  simp [iconv, h, hn]

lemma iconv_short {c : UInt16} {n : Nat} (h : n < (cd.shown c).length) : iconv cd c n = none := by
  rcases hc : cd.encode c with _ | bytes
  · simp [iconv, hc]
  · simp only [Codeset.shown, hc, Option.getD_some] at h
    simp only [iconv, hc, Option.filter_some]
    simp
    omega

lemma printUnicode_replaced
    (h : iconv cd c n = none ∨ ∃ bytes, iconv cd c n = some bytes ∧ bytes.head? = some 0x40 ∧
      c ≠ 0x40) :
    printUnicode cd c n = if cd.space.length ≤ n then some ⟨c, cd.space⟩ else none := by
  have hreplaced : (match iconv cd 0x20 n with
      | none => none
      | some bytes =>
        if cd.irreversible 0x20 ∧ bytes.head? = some 0x40 then none else some ⟨c, bytes⟩) =
      if cd.space.length ≤ n then some (⟨c, cd.space⟩ : Printed) else none := by
    by_cases hn : cd.space.length ≤ n
    · simp [iconv_some cd.encode_space hn, cd.space_reversible, hn]
    · simp [@iconv_short cd 0x20 n (by simpa using hn), hn]
  rcases h with h | ⟨bytes, h, hhead⟩
  · simp only [printUnicode, h]
    exact hreplaced
  · simp only [printUnicode, h, if_pos hhead]
    exact hreplaced

lemma printUnicode_fits (hc : Recognized cd [c]) (hn : (cd.shown c).length ≤ n) :
    printUnicode cd c n = some ⟨c, cd.shown c⟩ := by
  rcases h : cd.encode c with _ | bytes
  · have hs : cd.shown c = cd.space := by simp [Codeset.shown, h]
    rw [printUnicode_replaced (Or.inl (by simp [iconv, h])), hs, if_pos (by rwa [hs] at hn)]
  · have hs : cd.shown c = bytes := by simp [Codeset.shown, h]
    rw [hs] at hn ⊢
    have hi := iconv_some h hn
    by_cases hhead : bytes.head? = some 0x40 ∧ c ≠ 0x40
    · have := (hc c (by simp) bytes h hhead.1).resolve_left hhead.2
      rw [printUnicode_replaced (Or.inr ⟨bytes, hi, hhead⟩), ← this, if_pos hn]
    · simp [printUnicode, hi, hhead]

/-- A character which does not fit is printed as a space which does. -/
lemma printUnicode_short {c : UInt16} {n : Nat} (hn : n < (cd.shown c).length) :
    printUnicode cd c n = if cd.space.length ≤ n then some ⟨c, cd.space⟩ else none :=
  printUnicode_replaced (Or.inl (iconv_short hn))

lemma recognized_cons :
    Recognized cd (c :: text) ↔ Recognized cd [c] ∧ Recognized cd text := by
  simp [Recognized]

lemma printTo_eq {p : Printed} (h : printUnicode cd c (size - used out) = some p) :
    printTo cd size out c = some (out ++ [p]) := by
  simp [printTo, h]

lemma printAll_fits {out : List Printed} {text : List UInt16} (hr : Recognized cd text)
    (hfit : used out + cd.width text ≤ size) :
    printAll cd size out text = some (out ++ text.map fun c => ⟨c, cd.shown c⟩) := by
  induction text generalizing out with
  | nil => simp [printAll]
  | cons c text ih =>
    obtain ⟨hc, hr⟩ := recognized_cons.1 hr
    simp only [width_cons] at hfit
    have hp := printTo_eq (printUnicode_fits hc (n := size - used out) (by omega))
    simp only [printAll, hp, Option.bind_eq_bind, Option.bind_some]
    rw [ih hr (by simp; omega)]
    simp

/-- Where each character is followed by enough, nothing is printed of a text that does not fit. -/
lemma printAll_short (hr : Recognized cd text) (hf : Followed cd text) (hout : used out ≤ size)
    (hshort : size < used out + cd.width text) : printAll cd size out text = none := by
  induction text generalizing out with
  | nil => simp at hshort; omega
  | cons c text ih =>
    obtain ⟨hc, hr⟩ := recognized_cons.1 hr
    obtain ⟨hle, hf⟩ := hf
    simp only [width_cons] at hshort
    by_cases hn : (cd.shown c).length ≤ size - used out
    · simp only [printAll, printTo_eq (printUnicode_fits hc hn), Option.bind_eq_bind,
        Option.bind_some]
      exact ih hr hf (by simp; omega) (by simp; omega)
    · have hshow := @printUnicode_short cd c (size - used out) (by omega)
      by_cases hs : cd.space.length ≤ size - used out
      · rw [if_pos hs] at hshow
        simp only [printAll, printTo_eq hshow, Option.bind_eq_bind, Option.bind_some]
        exact ih hr hf (by simp; omega) (by simp; omega)
      · simp [printAll, printTo, hshow, hs]

/-- A text is printed into a buffer which is large enough, with some bytes for each character. -/
lemma printAll_large {out : List Printed} {text : List UInt16}
    (hfit : used out + cd.width text + cd.space.length * text.length ≤ size) :
    ∃ f : UInt16 → List UInt8, printAll cd size out text =
      some (out ++ text.map fun c => ⟨c, f c⟩) ∧
      ∀ c bytes, cd.encode c = some bytes → bytes.head? = some 0x40 → c ≠ 0x40 →
        f c = cd.space := by
  classical
  refine ⟨fun c => if ∃ bytes, cd.encode c = some bytes ∧ bytes.head? = some 0x40 ∧ c ≠ 0x40 then
    cd.space else cd.shown c, ?_, fun c bytes h hhead hc => if_pos ⟨bytes, h, hhead, hc⟩⟩
  induction text generalizing out with
  | nil => simp [printAll]
  | cons c text ih =>
    simp only [width_cons, List.length_cons, Nat.mul_add, Nat.mul_one] at hfit
    have hp : printUnicode cd c (size - used out) = some ⟨c,
        if ∃ bytes, cd.encode c = some bytes ∧ bytes.head? = some 0x40 ∧ c ≠ 0x40 then
          cd.space else cd.shown c⟩ := by
      by_cases h : ∃ bytes, cd.encode c = some bytes ∧ bytes.head? = some 0x40 ∧ c ≠ 0x40
      · obtain ⟨bytes, henc, hhead⟩ := h
        have hlen : (cd.shown c).length = bytes.length := by simp [Codeset.shown, henc]
        have hi := iconv_some henc (n := size - used out) (by omega)
        rw [printUnicode_replaced (Or.inr ⟨bytes, hi, hhead⟩), if_pos (by omega),
          if_pos ⟨bytes, henc, hhead⟩]
      · rw [if_neg h]
        refine printUnicode_fits (fun d hd bytes henc hhead => Or.inl ?_) (by omega)
        obtain rfl := List.mem_singleton.1 hd
        by_contra hne
        exact h ⟨bytes, henc, hhead, hne⟩
    simp only [printAll, printTo_eq hp, Option.bind_eq_bind, Option.bind_some]
    rw [ih (by
      simp only [used_append, used_singleton]
      split <;> omega)]
    simp

/-- Nothing is printed into a full buffer. -/
lemma printAll_full (hout : size ≤ used out) (htext : text ≠ []) :
    printAll cd size out text = none := by
  obtain ⟨c, text, rfl⟩ := List.exists_cons_of_ne_nil htext
  have h0 : size - used out = 0 := by omega
  have hshort := @printUnicode_short cd c 0 (shown_pos cd c)
  rw [if_neg (Nat.not_le.2 (space_pos cd))] at hshort
  simp [printAll, printTo, h0, hshort]

end

lemma isSpace_iff : isSpace c = true ↔ c = 0x20 := by simp [isSpace]

lemma trimRight_append_cons (xs : List UInt16) (hc : c ≠ 0x20) (ys : List UInt16) :
    trimRight (xs ++ c :: ys) = xs ++ c :: trimRight ys := by
  induction ys using List.reverseRecOn with
  | nil => exact List.rdropWhile_concat_neg _ _ _ (by simpa [isSpace] using hc)
  | append_singleton ys d ih =>
    have hassoc : xs ++ c :: (ys ++ [d]) = (xs ++ c :: ys) ++ [d] := by simp
    by_cases hd : d = 0x20
    · simp only [trimRight, hassoc, List.rdropWhile_concat_pos _ _ _ (isSpace_iff.2 hd)]
      exact ih
    · have : ¬ isSpace d = true := by simpa [isSpace] using hd
      simp only [trimRight, hassoc, List.rdropWhile_concat_neg _ _ _ this]

lemma trimRight_cons (hc : c ≠ 0x20) (ys : List UInt16) :
    trimRight (c :: ys) = c :: trimRight ys := trimRight_append_cons [] hc ys

lemma trimRight_eq_nil_iff : trimRight line = [] ↔ Blank line := by
  simp [trimRight, List.rdropWhile_eq_nil_iff, Blank, isSpace]

lemma trimRight_length_le (line : List UInt16) : (trimRight line).length ≤ line.length :=
  (List.rdropWhile_prefix _ _).length_le

lemma trim_eq_nil_iff : trim line = [] ↔ Blank line := by
  rw [trim, trimRight_eq_nil_iff]
  induction line with
  | nil => simp
  | cons c line ih =>
    by_cases hc : c = 0x20
    · rw [List.dropWhile_cons, if_pos (isSpace_iff.2 hc), ih]
      simp [Blank, hc]
    · have hs : isSpace c = false := by simpa [isSpace] using hc
      simp [hs]

lemma blank_replicate (n : Nat) : Blank (List.replicate n 0x20) := by simp [Blank]

/-- The characters printed for a row and the spaces after them, when there were `spaces` behind
the last of `k` characters before. -/
def scanned (first : Bool) : Nat → Nat → List UInt16 → List UInt16 × Nat
  | _, spaces, [] => ([], spaces)
  | k, spaces, c :: line =>
    if c = 0x20 then
      scanned first (k + 1) (spaces + 1) line
    else
      let (rest, after) := scanned first (k + 1) 0 line
      ((if spaces < k ∨ first then List.replicate spaces 0x20 else []) ++ c :: rest, after)

lemma scanned_kept {first : Bool} {k spaces : Nat} (h : spaces < k ∨ first) (line : List UInt16) :
    scanned first k spaces line = (trimRight (List.replicate spaces 0x20 ++ line),
      spaces + line.length - (trimRight (List.replicate spaces 0x20 ++ line)).length) := by
  induction line generalizing k spaces with
  | nil =>
    have : trimRight (List.replicate spaces 0x20) = [] := trimRight_eq_nil_iff.2 (blank_replicate _)
    simp [scanned, this]
  | cons c line ih =>
    by_cases hc : c = 0x20
    · have hrep : List.replicate (spaces + 1) 0x20 ++ line =
          List.replicate spaces 0x20 ++ c :: line := by
        simp [List.replicate_succ', hc]
      rw [scanned, if_pos hc, ih (h.imp_left (by omega)), hrep]
      simp only [List.length_cons]
      congr 2
      omega
    · have hlen := trimRight_length_le line
      rw [scanned, if_neg hc, ih (Or.inl (by omega)), if_pos h, trimRight_append_cons _ hc]
      simp only [List.replicate_zero, List.nil_append, List.length_append, List.length_replicate,
        List.length_cons, Prod.mk.injEq, true_and]
      omega

variable {k : Nat} {rest : List UInt16}

lemma scanned_leading (line : List UInt16) :
    scanned false k k line = (trim line,
      k + line.length - (trimRight (List.replicate k 0x20 ++ line)).length) := by
  induction line generalizing k with
  | nil =>
    have : trimRight (List.replicate k 0x20) = [] := trimRight_eq_nil_iff.2 (blank_replicate _)
    simp only [scanned, trim, List.dropWhile_nil, List.append_nil, this]
    simp [trimRight]
  | cons c line ih =>
    by_cases hc : c = 0x20
    · have hrep : List.replicate (k + 1) 0x20 ++ line = List.replicate k 0x20 ++ c :: line := by
        simp [List.replicate_succ', hc]
      rw [scanned, if_pos hc, ih, hrep]
      simp only [List.length_cons, trim, List.dropWhile_cons, isSpace_iff.2 hc, if_true]
      congr 2
      omega
    · have hs : isSpace c = false := by simpa [isSpace] using hc
      have hlen := trimRight_length_le line
      rw [scanned, if_neg hc, scanned_kept (Or.inl (by omega)), if_neg (by simp),
        trimRight_append_cons _ hc]
      simp only [trim, List.dropWhile_cons, hs, List.replicate_zero, List.nil_append,
        List.length_append, List.length_replicate, List.length_cons, Prod.mk.injEq,
        trimRight_cons hc, true_and, Bool.false_eq_true, if_false]
      omega

lemma scanned_line (first : Bool) (line : List UInt16) :
    scanned first 0 0 line = (if first then trimRight line else trim line,
      line.length - (trimRight line).length) := by
  cases first with
  | true => simpa using @scanned_kept true 0 0 (Or.inr rfl) line
  | false => simpa using scanned_leading (k := 0) line

lemma glyph_eq_space : glyph ac = 0x20 ↔ (ac.unicode = 0x20 ∨ ¬ isPrint ac.unicode) := by
  by_cases h : isPrint ac.unicode
  · simp [glyph, h]
  · simp [glyph, h]

lemma glyph_eq_unicode (h : ¬ (ac.unicode = 0x20 ∨ ¬ isPrint ac.unicode)) :
    glyph ac = ac.unicode := by
  simp only [glyph]
  rw [if_pos (by simpa using fun hp => h (Or.inr hp))]

section
variable (cd : Codeset) (a : Arguments)

/-- A character of normal size where the second row is not skipped. -/
lemma printFlowing_normal {x0 x : Nat} {xl : Option Nat} {st : Columns}
    (hsize : ac.size = .normalSize) (hskip : ¬ (some x = xl ∧ x - x0 = 0)) (hd : st.doubleh = 0) :
    printFlowing cd a x0 xl x ac st =
      if glyph ac = 0x20 then
        some { st with spaces := st.spaces + 1 }
      else
        (printAll cd a.size st.out
          ((if st.spaces < x - x0 ∨ st.y = a.row then List.replicate st.spaces 0x20 else []) ++
            [glyph ac])).map fun out => { st with out, spaces := 0 } := by
  have hskip : ¬ (some x = xl ∧ x - x0 ≤ 0) := by simpa using hskip
  simp only [printFlowing, hsize, hd, if_neg hskip, reduceCtorEq, or_self, false_and, if_false]
  by_cases hor : ac.unicode = 0x20 ∨ ¬ isPrint ac.unicode
  · rw [if_pos hor, if_pos (glyph_eq_space.2 hor)]
  · rw [if_neg hor, if_neg (mt glyph_eq_space.1 hor), printAll_append, glyph_eq_unicode hor]
    split
    · rw [printSpaces_eq]
      rcases printAll cd a.size st.out (List.replicate st.spaces 0x20) with _ | out
      · rfl
      · rcases h : printTo cd a.size out ac.unicode with _ | out' <;> simp [printAll, h]
    · rcases h : printTo cd a.size st.out ac.unicode with _ | out' <;> simp [printAll, h]

variable {cd a}

lemma printColumns_eq (htable : a.table = false)
    (hnormal : ∀ i, (a.page.text i).size = .normalSize) {x0 x n : Nat} {xl : Option Nat}
    {st : Columns} (hx : x0 ≤ x) (hx1 : x + n = st.x1 + 1) (hd : st.doubleh = 0)
    (hskip : ∀ x', x ≤ x' → x' ≤ st.x1 → ¬ (some x' = xl ∧ x' - x0 = 0)) :
    let row := scanned (st.y = a.row) (x - x0) st.spaces
      ((List.range' x n).map fun x => glyph (a.page.text (st.y * a.page.columns + x)))
    printColumns cd a x0 xl (List.range' x n) st =
      (printAll cd a.size st.out row.1).map fun out => { st with out, spaces := row.2 } := by
  induction n generalizing x st with
  | zero => simp [printColumns, scanned, printAll]
  | succ n ih =>
    have hle : x ≤ st.x1 := by omega
    have hsub : x + 1 - x0 = x - x0 + 1 := by omega
    simp only [List.range'_succ, List.map_cons, printColumns, hle, if_true, printColumn, htable]
    rw [if_neg (by simp), printFlowing_normal cd a (hnormal _) (hskip x (by omega) hle) hd]
    by_cases hg : glyph (a.page.text (st.y * a.page.columns + x)) = 0x20
    · simp only [scanned, hg, if_true, Option.bind_eq_bind, Option.bind_some]
      have := @ih (x + 1) { st with spaces := st.spaces + 1 } (by omega)
        (by simp only; omega) hd (fun x' h => hskip x' (by omega))
      rw [hsub] at this
      exact this
    · simp only [scanned, hg, if_false, decide_eq_true_eq]
      rw [printAll_append_cons cd a.size st.out _ _ (scanned _ _ _ _).1]
      rcases printAll cd a.size st.out (_ ++ [_]) with _ | out
      · rfl
      · have := @ih (x + 1) { st with out, spaces := 0 } (by omega)
          (by simp only; omega) hd (fun x' h => hskip x' (by omega))
        rw [hsub] at this
        exact this

end

section
variable (cd : Codeset) {pg : NormalPage} (rg : Region pg) (size : Nat)

@[simp] lemma arguments_size : (rg.arguments size).size = size := rfl

@[simp] lemma arguments_table : (rg.arguments size).table = false := rfl

@[simp] lemma arguments_row : (rg.arguments size).row = rg.row := rfl

@[simp] lemma arguments_height : (rg.arguments size).height = rg.height := rfl

@[simp] lemma arguments_page : (rg.arguments size).page = pg.toPage := rfl

lemma line_eq (y : Nat) :
    rg.line y = (List.range' ((rg.arguments size).x0 y)
      ((rg.arguments size).x1 y + 1 - (rg.arguments size).x0 y)).map
        fun x => glyph (pg.text (y * pg.columns + x)) := by
  have := rg.width_pos
  have := rg.column_le
  simp only [Region.line, Arguments.x0, Arguments.x1, Arguments.row1, Arguments.column1,
    Region.arguments, Bool.false_eq_true, false_or]
  congr 2
  split <;> split <;> omega

lemma x0_le_x1 (y : Nat) : (rg.arguments size).x0 y ≤ (rg.arguments size).x1 y := by
  have := rg.width_pos
  have := rg.column_le
  simp only [Arguments.x0, Arguments.x1, Arguments.row1, Arguments.column1,
    Region.arguments, Bool.false_eq_true, false_or]
  split <;> split <;> omega

lemma line_length (y : Nat) : (rg.line y).length =
    (rg.arguments size).x1 y - (rg.arguments size).x0 y + 1 := by
  have := x0_le_x1 rg size y
  rw [line_eq rg size]
  simp only [List.length_map, List.length_range']
  omega

/-- A row is printed with its spaces, if it is the last, and otherwise with one space behind it
where it has more than one character. -/
lemma printRow_eq (hskip : ¬ (rg.width = 1 ∧ rg.height = 2)) {y : Nat}
    (hy : y < rg.row + rg.height) :
    let body := if y = rg.row then trimRight (rg.line y) else trim (rg.line y)
    let after := (rg.line y).length - (trimRight (rg.line y)).length
    printRow cd (rg.arguments size) y 0 out =
      (if y + 1 < rg.row + rg.height then
        (printAll cd size out body).bind fun out =>
          if size - used out < 1 then none
          else printAll cd size out (if 1 < (trimRight (rg.line y)).length then [0x20] else [])
      else
        printAll cd size out (body ++ List.replicate after 0x20)).map
          fun out => ⟨out, after, 0, (rg.arguments size).x1 y, y⟩ := by
  intro body after
  have hle := x0_le_x1 rg size y
  have hlen := line_length rg size y
  have htrim := trimRight_length_le (rg.line y)
  have hcolumns := @printColumns_eq cd (rg.arguments size) rfl pg.normal
    ((rg.arguments size).x0 y) ((rg.arguments size).x0 y)
    ((rg.arguments size).x1 y + 1 - (rg.arguments size).x0 y)
    ((rg.arguments size).xl y) ⟨out, 0, 0, (rg.arguments size).x1 y, y⟩ (by omega)
    (by simp only; omega) rfl (by
      rintro x' h1 h2 ⟨h3, h4⟩
      simp only [Arguments.xl, Arguments.x0, Arguments.row1, Arguments.column1, Region.arguments,
        Bool.false_eq_true, false_or] at h1 h2 h3 h4
      split at h3
      · simp at h3
      · simp only [Option.some.injEq] at h3
        have := rg.width_pos
        have := rg.height_pos
        rw [if_pos (by omega)] at h1 h4
        exact hskip ⟨by omega, by omega⟩)
  simp only [Nat.sub_self] at hcolumns
  have hrow : (rg.arguments size).row1 = rg.row + rg.height - 1 := rfl
  have hlast : y < (rg.arguments size).row1 ↔ y + 1 < rg.row + rg.height := by omega
  have hscan : scanned (decide (y = (rg.arguments size).row)) 0 0 (rg.line y) = (body, after) := by
    rw [scanned_line]
    simp only [body, after, decide_eq_true_eq]
    rfl
  rw [arguments_page, ← line_eq rg size, hscan] at hcolumns
  simp only [printRow, hcolumns, arguments_size, arguments_table]
  by_cases hend : y + 1 < rg.row + rg.height
  · rw [if_pos hend]
    rcases printAll cd size out body with _ | out'
    · simp
    · simp only [Option.map_some, Option.bind_eq_bind, Option.bind_some, if_pos (hlast.2 hend)]
      by_cases hroom : size - used out' < 1
      · simp [hroom]
      · by_cases hone : 1 < (trimRight (rg.line y)).length
        · have hspaces : ¬ (rg.arguments size).x1 y - (rg.arguments size).x0 y ≤ after := by omega
          rcases h : printTo cd size out' 0x20 with _ | out'' <;>
            simp [hroom, hone, hspaces, printAll, h]
        · have hspaces : (rg.arguments size).x1 y - (rg.arguments size).x0 y ≤ after := by omega
          simp [hroom, hone, hspaces, printAll]
  · rw [if_neg hend, printAll_append]
    rcases printAll cd size out body with _ | out'
    · simp
    · simp only [Option.map_some, Option.bind_eq_bind, Option.bind_some, if_neg (mt hlast.1 hend)]
      rw [printSpaces_eq]
      rcases printAll cd size out' (List.replicate after 0x20) with _ | out'' <;> simp

lemma flowing_cons (ends : Nat → Bool) (first : Bool) (line : List UInt16) (hne : lines ≠ []) :
    flowing ends first (line :: lines) = (if first then trimRight line else trim line) ++
      ((if ends (trimRight line).length then [0x20] else []) ++ flowing ends false lines) := by
  obtain ⟨line', lines, rfl⟩ := List.exists_cons_of_ne_nil hne
  simp [flowing]

lemma flowing_ne_nil (ends : Nat → Bool) (first : Bool) (hne : lines ≠ [])
    (hlines : ∀ line ∈ lines, line ≠ []) : flowing ends first lines ≠ [] := by
  induction lines generalizing first with
  | nil => exact absurd rfl hne
  | cons line lines ih =>
    cases lines with
    | nil =>
      have hpos := List.length_pos_iff.2 (hlines line (by simp))
      intro h
      simp only [flowing, List.append_eq_nil_iff, List.replicate_eq_nil_iff] at h
      have hblank : Blank line := by
        cases first
        · exact trim_eq_nil_iff.1 (by simpa using h.1)
        · exact trimRight_eq_nil_iff.1 (by simpa using h.1)
      rw [trimRight_eq_nil_iff.2 hblank] at h
      simp only [List.length_nil] at h
      omega
    | cons line' lines =>
      simp only [flowing]
      have := ih false (by simp) (fun l hl => hlines l (by simp_all))
      simp [this]

/-- The rows from `y` on. -/
lemma printRows_eq (hskip : ¬ (rg.width = 1 ∧ rg.height = 2)) {n m y : Nat} {out : List Printed}
    (hy : y + m = rg.row + rg.height) (hrow : rg.row ≤ y) (hm : m ≤ n) :
    printRows cd (rg.arguments size) n y 0 out =
      printAll cd size out (flowing (1 < ·) (y = rg.row) ((List.range' y m).map rg.line)) := by
  have hheight := rg.height_pos
  have hrow1 : (rg.arguments size).row1 = rg.row + rg.height - 1 := rfl
  induction m generalizing n y out with
  | zero =>
    have : ¬ y ≤ (rg.arguments size).row1 := by omega
    cases n <;> simp [printRows, this, flowing, printAll]
  | succ m ih =>
    obtain ⟨n, rfl⟩ := Nat.exists_eq_add_of_le' (show 1 ≤ n by omega)
    have hle : y ≤ (rg.arguments size).row1 := by omega
    have hfirst : decide (y + 1 = rg.row) = false := by simp; omega
    have hih := fun out => @ih n (y + 1) out (by omega) (by omega) (by omega)
    rw [hfirst] at hih
    simp only [printRows, if_pos hle, printRow_eq cd rg size hskip (show y < _ by omega)]
    have hbody : (if decide (y = rg.row) = true then trimRight (rg.line y) else trim (rg.line y)) =
        if y = rg.row then trimRight (rg.line y) else trim (rg.line y) := by simp
    cases m with
    | zero =>
      have hlast : ¬ y + 1 < rg.row + rg.height := by omega
      simp only [if_neg hlast, Nat.zero_add, List.range'_one, List.map_cons, List.map_nil, flowing,
        hbody]
      rcases printAll cd size out _ with _ | out'
      · rfl
      · simpa [flowing, printAll] using hih out'
    | succ m =>
      have hlast : y + 1 < rg.row + rg.height := by omega
      have hne : flowing (1 < ·) false ((List.range' (y + 1) (m + 1)).map rg.line) ≠ [] := by
        refine flowing_ne_nil _ _ (by simp) fun line hline => ?_
        obtain ⟨y', -, rfl⟩ := List.mem_map.1 hline
        have := line_length rg size y'
        exact List.ne_nil_of_length_pos (by omega)
      rw [List.range'_succ, List.map_cons, flowing_cons _ _ _ (by simp), if_pos hlast, hbody,
        printAll_append]
      rcases printAll cd size out _ with _ | out'
      · rfl
      · by_cases hroom : size - used out' < 1
        · simp only [Option.bind_some, if_pos hroom]
          rw [printAll_full (by omega) (by simp [hne])]
          rfl
        · simp only [Option.bind_some, if_neg hroom, printAll_append, ← hih, decide_eq_true_eq]
          rcases printAll cd size out' _ with _ | out'' <;> rfl

/-- A region of one column in two rows: the rest of the first row and the second are skipped. -/
lemma printRows_lone (hw : rg.width = 1) (hh : rg.height = 2) :
    printRows cd (rg.arguments size) rg.height rg.row 0 [] =
      printAll cd size [] [glyph (pg.text (rg.row * pg.columns + rg.column))] := by
  have hle := rg.column_le
  obtain ⟨n, hn⟩ : ∃ n, pg.columns - 1 + 1 - rg.column = n + 1 :=
    ⟨pg.columns - rg.column - 1, by omega⟩
  have hrow1 : (rg.arguments size).row1 = rg.row + 1 := by
    simp [Arguments.row1, Region.arguments, hh]
  have hx0 : (rg.arguments size).x0 rg.row = rg.column := by simp [Arguments.x0, Region.arguments]
  have hx1 : (rg.arguments size).x1 rg.row = pg.columns - 1 := by
    simp [Arguments.x1, hrow1]
  have hxl : (rg.arguments size).xl rg.row = some rg.column := by
    simp [Arguments.xl, hrow1]
    simp [Region.arguments, Arguments.column1, hw]
  have hstop (st : Columns) (h : st.x1 = rg.column) :
      printColumns cd (rg.arguments size) rg.column (some rg.column)
        (List.range' (rg.column + 1) n) st = some st := by
    cases n with
    | zero => rfl
    | succ n =>
      rw [List.range'_succ, printColumns, if_neg (by omega)]
  have hflow : printFlowing cd (rg.arguments size) rg.column (some rg.column) rg.column
      (pg.text (rg.row * pg.columns + rg.column)) ⟨[], 0, 0, pg.columns - 1, rg.row⟩ =
      if glyph (pg.text (rg.row * pg.columns + rg.column)) = 0x20 then
        some ⟨[], 1, 0, rg.column, rg.row + 1⟩
      else
        (printTo cd size [] (glyph (pg.text (rg.row * pg.columns + rg.column)))).map
          fun out => ⟨out, 0, 0, rg.column, rg.row + 1⟩ := by
    simp only [printFlowing, pg.normal, reduceCtorEq, or_self, false_and, if_false, hrow1,
      Nat.sub_self, Nat.le_refl, and_self, if_true]
    by_cases hor : (pg.text (rg.row * pg.columns + rg.column)).unicode = 0x20 ∨
        ¬ isPrint (pg.text (rg.row * pg.columns + rg.column)).unicode
    · rw [if_pos hor, if_pos (glyph_eq_space.2 hor)]
    · rw [if_neg hor, if_neg (mt glyph_eq_space.1 hor), glyph_eq_unicode hor, arguments_size]
      rcases h : printTo cd size [] _ with _ | out <;> simp [h]
  have hrow : printRow cd (rg.arguments size) rg.row 0 [] =
      (printAll cd size [] [glyph (pg.text (rg.row * pg.columns + rg.column))]).map fun out =>
        ⟨out, if glyph (pg.text (rg.row * pg.columns + rg.column)) = 0x20 then 1 else 0, 0,
          rg.column, rg.row + 1⟩ := by
    have hcolumn : rg.column ≤ pg.columns - 1 := by omega
    simp only [printRow, hx0, hx1, hxl, hn, List.range'_succ, printColumns, if_pos hcolumn,
      printColumn]
    simp only [arguments_table, arguments_page, hflow]
    by_cases hg : glyph (pg.text (rg.row * pg.columns + rg.column)) = 0x20
    · rcases h : printAll cd size [] [0x20] with _ | out <;>
        simp [hg, hstop, hrow1, printSpaces_eq, h]
    · rcases h : printTo cd size [] (glyph (pg.text (rg.row * pg.columns + rg.column))) with _ | out
      · simp [hg, h, printAll]
      · simp [hg, h, hstop, hrow1, printAll, printSpaces]
  have hend : ¬ rg.row + 2 ≤ (rg.arguments size).row1 := by omega
  rw [hh]
  simp only [printRows, hrow, hrow1, Nat.le_add_right, if_true]
  rcases printAll cd size [] _ with _ | out
  · rfl
  · simp

/-- The characters of the text are printed one after the other. -/
lemma vbiPrintPageRegion_eq :
    vbiPrintPageRegion (some cd) (rg.arguments size) = printAll cd size [] rg.text := by
  have hwidth := rg.width_pos
  have hheight := rg.height_pos
  have hcolumn := rg.column_le
  have hrow := rg.row_le
  have hinside : ¬ ((rg.arguments size).column1 ≥ (rg.arguments size).page.columns ∨
      (rg.arguments size).row1 ≥ (rg.arguments size).page.rows) := by
    simp only [Arguments.column1, Arguments.row1, Region.arguments]
    omega
  simp only [vbiPrintPageRegion, if_neg hinside, Region.text]
  split
  · rename_i h
    exact printRows_lone cd rg size h.1 h.2
  · rename_i h
    simpa [Region.lines] using @printRows_eq cd pg rg size h rg.height rg.height rg.row [] rfl
      (Nat.le_refl _) (Nat.le_refl _)

end

lemma first_character (h : ¬ Blank line) :
    ∃ k c rest, c ≠ 0x20 ∧ line = List.replicate k 0x20 ++ c :: rest ∧
      trim line = c :: trimRight rest := by
  induction line with
  | nil => simp [Blank] at h
  | cons c line ih =>
    by_cases hc : c = 0x20
    · obtain ⟨k, d, rest, hd, hline, htrim⟩ := ih (by simpa [Blank, hc] using h)
      refine ⟨k + 1, d, rest, hd, by simp [hc, hline, List.replicate_succ], ?_⟩
      rw [← htrim]
      simp only [trim, List.dropWhile_cons, isSpace_iff.2 hc, if_true]
    · have hs : isSpace c = false := by simpa [isSpace] using hc
      exact ⟨0, c, line, hc, rfl, by simp [trim, hs, trimRight_cons hc]⟩

/-- Only spaces are in front of the trimmed row. -/
lemma trimRight_eq (line : List UInt16) :
    ∃ k, trimRight line = List.replicate k 0x20 ++ trim line := by
  by_cases hb : Blank line
  · exact ⟨0, by simp [trimRight_eq_nil_iff.2 hb, trim_eq_nil_iff.2 hb]⟩
  · obtain ⟨k, c, rest, hc, hline, htrim⟩ := first_character hb
    refine ⟨k, ?_⟩
    rw [htrim]
    conv_lhs => rw [hline]
    exact trimRight_append_cons _ hc rest

lemma replicate_append_cons_inj {a : Nat} {xs ys : List UInt16} (hc : c ≠ 0x20) (hd : d ≠ 0x20)
    (h : List.replicate k 0x20 ++ c :: xs = List.replicate a 0x20 ++ d :: ys) :
    c :: xs = d :: ys := by
  induction k generalizing a with
  | zero =>
    cases a with
    | zero => simpa using h
    | succ a =>
      simp only [List.replicate_zero, List.nil_append, List.replicate_succ, List.cons_append,
        List.cons.injEq] at h
      exact absurd h.1 hc
  | succ k ih =>
    cases a with
    | zero =>
      simp only [List.replicate_zero, List.nil_append, List.replicate_succ, List.cons_append,
        List.cons.injEq] at h
      exact absurd h.1.symm hd
    | succ a =>
      simp only [List.replicate_succ, List.cons_append, List.cons.injEq, true_and] at h
      exact ih h

lemma joined_eq_nil_iff : joined lines = [] ↔ ∀ line ∈ lines, Blank line := by
  induction lines with
  | nil => simp [joined]
  | cons line lines ih =>
    by_cases hb : Blank line
    · simp [joined, hb, ih]
    · have htrim : trim line ≠ [] := mt trim_eq_nil_iff.1 hb
      rw [joined, if_neg hb]
      simp only [List.mem_cons, forall_eq_or_imp, hb, false_and, iff_false]
      split <;> simp [htrim]

lemma joined_head (h : joined lines ≠ []) : ∃ c rest, c ≠ 0x20 ∧ joined lines = c :: rest := by
  induction lines with
  | nil => simp [joined] at h
  | cons line lines ih =>
    by_cases hb : Blank line
    · simp only [joined, if_pos hb] at h ⊢
      exact ih h
    · obtain ⟨k, c, rest, hc, -, htrim⟩ := first_character hb
      simp only [joined, if_neg hb, htrim]
      split
      · exact ⟨c, _, hc, rfl⟩
      · exact ⟨c, _, hc, rfl⟩

/-- The text starts with a character unless it follows other rows. -/
lemma flowing_head (h : joined lines ≠ []) :
    ∃ c rest, c ≠ 0x20 ∧ flowing (1 < ·) false lines = c :: rest := by
  induction lines with
  | nil => simp [joined] at h
  | cons line lines ih =>
    by_cases hb : Blank line
    · simp only [joined, if_pos hb] at h
      have hne : lines ≠ [] := by
        rintro rfl
        simp [joined] at h
      rw [flowing_cons _ _ _ hne]
      simpa [trim_eq_nil_iff.2 hb, trimRight_eq_nil_iff.2 hb] using ih h
    · obtain ⟨k, c, rest, hc, -, htrim⟩ := first_character hb
      cases lines with
      | nil => exact ⟨c, _, hc, by simp only [flowing, htrim]; rfl⟩
      | cons line' lines => exact ⟨c, _, hc, by simp only [flowing, htrim]; rfl⟩

lemma loneLast_of_blank (h : ∀ line ∈ lines, Blank line) : LoneLast lines := by
  induction lines with
  | nil => trivial
  | cons line lines ih =>
    exact ⟨fun _ l hl => h l (by simp [hl]), ih fun l hl => h l (by simp [hl])⟩

/-- Behind other rows there is one space between the rows, just when no character alone at the
start of its row is followed by another. -/
lemma flowing_false_iff (lines : List (List UInt16)) :
    (∃ after, flowing (1 < ·) false lines = joined lines ++ List.replicate after 0x20) ↔
      LoneLast lines := by
  induction lines with
  | nil => exact ⟨fun _ => trivial, fun _ => ⟨0, rfl⟩⟩
  | cons line lines ih =>
    by_cases hne : lines = []
    · subst hne
      refine ⟨fun _ => ⟨fun _ l hl => by simp at hl, trivial⟩, fun _ =>
        ⟨line.length - (trimRight line).length, ?_⟩⟩
      by_cases hb : Blank line
      · simp [flowing, joined, hb, trim_eq_nil_iff.2 hb]
      · simp [flowing, joined, hb]
    rw [flowing_cons _ _ _ hne]
    by_cases hb : Blank line
    · simp [LoneLast, joined, hb, trim_eq_nil_iff.2 hb, trimRight_eq_nil_iff.2 hb, ih]
    · have hpos : 0 < (trimRight line).length :=
        List.length_pos_iff.2 (mt trimRight_eq_nil_iff.1 hb)
      by_cases hj : joined lines = []
      · have hblank := joined_eq_nil_iff.1 hj
        refine ⟨fun _ => ⟨fun _ => hblank, loneLast_of_blank hblank⟩, fun _ => ?_⟩
        obtain ⟨after, hafter⟩ := ih.2 (loneLast_of_blank hblank)
        rw [hafter, joined, if_neg hb, if_pos hj, hj]
        by_cases hlone : 1 < (trimRight line).length
        · exact ⟨after + 1, by simp [hlone, List.replicate_succ]⟩
        · exact ⟨after, by simp [hlone]⟩
      · have hjoined : joined (line :: lines) = trim line ++ 0x20 :: joined lines := by
          rw [joined, if_neg hb, if_neg hj]
        have hnot : ¬ ∀ l ∈ lines, Blank l := mt joined_eq_nil_iff.2 hj
        rw [hjoined]
        by_cases hlone : 1 < (trimRight line).length
        · have : (trimRight line).length ≠ 1 := by omega
          simp [LoneLast, this, hlone, ← ih]
        · have : (trimRight line).length = 1 := by omega
          obtain ⟨c, rest, hc, hflow⟩ := flowing_head hj
          simp [LoneLast, this, hflow, hnot, hc]

lemma flowing_true (ends : Nat → Bool) (lines : List (List UInt16)) :
    ∃ k, flowing ends true lines = List.replicate k 0x20 ++ flowing ends false lines := by
  rcases lines with _ | ⟨line, _ | ⟨line', lines⟩⟩
  · exact ⟨0, rfl⟩
  · obtain ⟨k, hk⟩ := trimRight_eq line
    exact ⟨k, by simp [flowing, hk]⟩
  · obtain ⟨k, hk⟩ := trimRight_eq line
    exact ⟨k, by simp [flowing, ← hk, ← List.append_assoc]⟩

/-- The rows of a text are joined by single spaces just when a character alone at the start of
its row is the last. -/
lemma flowing_true_iff (lines : List (List UInt16)) :
    (∃ before after, flowing (1 < ·) true lines =
      List.replicate before 0x20 ++ joined lines ++ List.replicate after 0x20) ↔
      LoneLast lines := by
  obtain ⟨k, hk⟩ := flowing_true (1 < ·) lines
  rw [hk, ← flowing_false_iff]
  constructor
  · rintro ⟨before, after, h⟩
    by_cases hj : joined lines = []
    · exact (flowing_false_iff lines).2 (loneLast_of_blank (joined_eq_nil_iff.1 hj))
    · obtain ⟨c, rest, hc, hflow⟩ := flowing_head hj
      obtain ⟨d, rest', hd, hjoined⟩ := joined_head hj
      rw [hflow, hjoined, List.append_assoc, List.cons_append] at h
      exact ⟨after, by rw [hflow, replicate_append_cons_inj hc hd h, hjoined]; rfl⟩
  · rintro ⟨after, h⟩
    exact ⟨k, after, by rw [h, List.append_assoc]⟩

def characters (text : List UInt16) : List UInt16 := text.filter fun c => !isSpace c

lemma characters_append (xs ys : List UInt16) :
    characters (xs ++ ys) = characters xs ++ characters ys := by simp [characters]

lemma characters_blank : characters line = [] ↔ Blank line := by
  simp [characters, Blank, isSpace]

lemma characters_trim (line : List UInt16) : characters (trim line) = characters line := by
  have hright (l : List UInt16) : characters (trimRight l) = characters l := by
    conv_rhs => rw [← List.rdropWhile_append_rtakeWhile (p := isSpace) (l := l),
      characters_append]
    have hspaces : characters (List.rtakeWhile isSpace l) = [] :=
      characters_blank.2 fun c hc => isSpace_iff.1 (List.mem_rtakeWhile_imp hc)
    simp [hspaces, trimRight]
  rw [trim, hright]
  conv_rhs => rw [← List.takeWhile_append_dropWhile (p := isSpace) (l := line), characters_append]
  have hspaces : characters (List.takeWhile isSpace line) = [] :=
    characters_blank.2 fun c hc => isSpace_iff.1 (List.mem_takeWhile_imp hc)
  simp [hspaces]

/-- Exactly the characters of the rows are joined, in their order. -/
lemma characters_joined (lines : List (List UInt16)) :
    characters (joined lines) = characters lines.flatten := by
  induction lines with
  | nil => rfl
  | cons line lines ih =>
    rw [List.flatten_cons, characters_append, ← ih, joined]
    by_cases hb : Blank line
    · simp [hb, characters_blank.2 hb]
    · rw [if_neg hb]
      split
      · rename_i hj
        rw [hj, characters_trim]
        exact (List.append_nil _).symm
      · rw [characters_append, characters_trim]
        rfl

/-- The text is never longer than with a space after each row that is not blank. -/
lemma width_flowing_le (cd : Codeset) (first : Bool) (lines : List (List UInt16)) :
    cd.width (flowing (1 < ·) first lines) ≤ cd.width (flowing (0 < ·) first lines) := by
  induction lines generalizing first with
  | nil => simp [flowing]
  | cons line lines ih =>
    by_cases hne : lines = []
    · simp [hne, flowing]
    · rw [flowing_cons _ _ _ hne, flowing_cons _ _ _ hne]
      have := ih false
      have hspace : cd.width (if 1 < (trimRight line).length then [0x20] else []) ≤
          cd.width (if 0 < (trimRight line).length then [0x20] else []) := by
        split
        · rw [if_pos (by omega)]
        · simp
      simp only [width_append, decide_eq_true_eq]
      omega

section
variable (cd : Codeset) {pg : NormalPage} (rg : Region pg)

lemma lone_lines (hw : rg.width = 1) (hh : rg.height = 2) :
    ∃ rest c line, rg.lines = [glyph (pg.text (rg.row * pg.columns + rg.column)) :: rest,
      c :: line] := by
  have hcolumn := rg.column_le
  obtain ⟨n, hn⟩ : ∃ n, pg.columns - rg.column = n + 1 := ⟨pg.columns - rg.column - 1, by omega⟩
  obtain ⟨m, hm⟩ : ∃ m, rg.column + rg.width - 0 = m + 1 := ⟨rg.column, by omega⟩
  have h0 : rg.line rg.row = glyph (pg.text (rg.row * pg.columns + rg.column)) ::
      (List.range' (rg.column + 1) n).map
        fun x => glyph (pg.text (rg.row * pg.columns + x)) := by
    have : ¬ rg.row = rg.row + rg.height - 1 := by omega
    simp only [Region.line, if_true, if_neg this, hn, List.range'_succ, List.map_cons]
  have h1 : rg.line (rg.row + 1) = glyph (pg.text ((rg.row + 1) * pg.columns + 0)) ::
      (List.range' (0 + 1) m).map
        fun x => glyph (pg.text ((rg.row + 1) * pg.columns + x)) := by
    have hne : ¬ rg.row + 1 = rg.row := by omega
    have hlast : rg.row + 1 = rg.row + rg.height - 1 := by omega
    simp only [Region.line, if_neg hne, if_pos hlast, hm, List.range'_succ, List.map_cons]
  have hlines : rg.lines = [rg.line rg.row, rg.line (rg.row + 1)] := by
    rw [Region.lines, hh]
    rfl
  rw [h0, h1] at hlines
  exact ⟨_, _, _, hlines⟩

lemma characters_replicate (n : Nat) : characters (List.replicate n 0x20) = [] :=
  characters_blank.2 (blank_replicate n)

/-- One character alone is the text of two rows when the others are spaces. -/
lemma lone_iff :
    (∃ before after, [c] = List.replicate before 0x20 ++ joined [c :: rest, d :: line] ++
      List.replicate after 0x20) ↔ Blank ([c :: rest, d :: line].flatten.tail) := by
  constructor
  · rintro ⟨before, after, h⟩
    have hcount := congrArg characters h
    rw [characters_append, characters_append, characters_replicate, characters_replicate,
      characters_joined] at hcount
    rw [← characters_blank]
    have : characters [c] = characters [c] ++
        characters ([c :: rest, d :: line].flatten.tail) := by
      rw [← characters_append]
      simpa using hcount
    simpa using this
  · intro h
    have hrest : Blank rest := fun x hx => h x (by simp [hx])
    have hline : Blank (d :: line) := fun x hx => h x (by
      simp only [List.flatten_cons, List.flatten_nil, List.append_nil, List.cons_append,
        List.tail_cons, List.mem_append]
      exact Or.inr hx)
    by_cases hc : c = 0x20
    · have hb : Blank (c :: rest) := by simpa [Blank, hc] using hrest
      have hj : joined [c :: rest, d :: line] = [] := by simp [joined, hb, hline]
      exact ⟨1, 0, by rw [hj, hc]; rfl⟩
    · have hb : ¬ Blank (c :: rest) := by simp [Blank, hc]
      have hs : isSpace c = false := by simpa [isSpace] using hc
      have htrim : trim (c :: rest) = [c] := by
        simp [trim, hs, trimRight_cons hc, trimRight_eq_nil_iff.2 hrest]
      exact ⟨0, 0, by simp [joined, hb, hline, htrim]⟩

lemma blank_second (h : Blank ([c :: rest, d :: line].flatten.tail)) :
    Blank rest ∧ Blank (d :: line) := by
  simp only [List.flatten_cons, List.flatten_nil, List.append_nil, List.cons_append,
    List.tail_cons] at h
  exact ⟨fun x hx => h x (List.mem_append_left _ hx), fun x hx => h x (List.mem_append_right _ hx)⟩

lemma text_iff :
    (∃ before after, rg.text =
      List.replicate before 0x20 ++ joined rg.lines ++ List.replicate after 0x20) ↔
      (rg.width = 1 ∧ rg.height = 2 → Blank (rg.lines.flatten.tail)) ∧ LoneLast rg.lines := by
  by_cases hlone : rg.width = 1 ∧ rg.height = 2
  · obtain ⟨rest, c, line, hlines⟩ := lone_lines rg hlone.1 hlone.2
    rw [Region.text, if_pos hlone, hlines, lone_iff]
    refine ⟨fun h => ⟨fun _ => h, fun _ l hl => ?_, fun _ l hl => by simp at hl, trivial⟩,
      fun h => h.1 hlone⟩
    obtain rfl := List.mem_singleton.1 hl
    exact (blank_second h).2
  · rw [Region.text, if_neg hlone, flowing_true_iff]
    exact ⟨fun h => ⟨fun h' => absurd h' hlone, h⟩, fun h => h.2⟩

/-- The text is not longer than with a space after each row that is not blank. -/
lemma width_text_le (h : rg.width = 1 ∧ rg.height = 2 → Blank (rg.lines.flatten.tail)) :
    cd.width rg.text ≤ cd.width (flowing (0 < ·) true rg.lines) := by
  by_cases hlone : rg.width = 1 ∧ rg.height = 2
  · obtain ⟨rest, c, line, hlines⟩ := lone_lines rg hlone.1 hlone.2
    have hblank := h hlone
    rw [Region.text, if_pos hlone]
    rw [hlines] at hblank ⊢
    obtain ⟨hrest, hline⟩ := blank_second hblank
    generalize glyph (pg.text (rg.row * pg.columns + rg.column)) = d at hblank
    by_cases hd : d = 0x20
    · have hb : Blank (d :: rest) := by simpa [Blank, hd] using hrest
      rw [flowing_cons _ _ _ (by simp), if_pos rfl, trimRight_eq_nil_iff.2 hb, hd]
      simp [flowing, trim_eq_nil_iff.2 hline, trimRight_eq_nil_iff.2 hline, List.replicate_succ]
    · simp [flowing, trimRight_cons hd]
  · rw [Region.text, if_neg hlone]
    exact width_flowing_le cd true rg.lines

/-- Where a character is longer than a space and what follows, there is a size for which it is
printed as a space. -/
lemma exists_short (hr : Recognized cd text) (h : ¬ Followed cd text) (out : List Printed) :
    ∃ size out', used out ≤ size ∧ printAll cd size out text = some out' ∧
      ∃ p ∈ out', p.bytes ≠ cd.shown p.unicode := by
  induction text generalizing out with
  | nil => exact absurd trivial h
  | cons c text ih =>
    obtain ⟨hc, hr⟩ := recognized_cons.1 hr
    by_cases hf : Followed cd text
    · have hlong : cd.space.length + cd.width text < (cd.shown c).length := by
        by_contra hle
        exact h ⟨by omega, hf⟩
      have hshort := @printUnicode_short cd c
        (used out + (cd.space.length + cd.width text) - used out) (by omega)
      rw [if_pos (by omega)] at hshort
      have hrest := @printAll_fits cd (used out + (cd.space.length + cd.width text))
        (out ++ [⟨c, cd.space⟩]) text hr (by simp; omega)
      have hrun : printAll cd (used out + (cd.space.length + cd.width text)) out (c :: text) =
          some (out ++ [⟨c, cd.space⟩] ++ text.map fun c => ⟨c, cd.shown c⟩) := by
        simp only [printAll, printTo_eq hshort, Option.bind_eq_bind, Option.bind_some]
        exact hrest
      refine ⟨_, _, Nat.le_add_right _ _, hrun, ⟨c, cd.space⟩, by simp, fun heq => ?_⟩
      simp only at heq
      rw [← heq] at hlong
      omega
    · obtain ⟨size, out', hle, hrun, hwrong⟩ := ih hr hf (out ++ [⟨c, cd.shown c⟩])
      simp only [used_append, used_singleton] at hle
      have hp := printTo_eq (printUnicode_fits hc (n := size - used out) (by omega))
      refine ⟨size, out', by omega, ?_, hwrong⟩
      simp only [printAll, hp, Option.bind_eq_bind, Option.bind_some]
      exact hrun

end

/-- A region is printed with its rows joined by single spaces, in a buffer of any size, just when
it is not mistaken for its first character, when a character alone at the start of its row is
not followed by another row, and when no character is mistaken for an unrepresentable one or
replaced by a space because it does not fit. -/
theorem vbiPrintPageRegion_meets_iff (cd : Codeset) {pg : NormalPage} (rg : Region pg) :
    Meets cd rg ↔ Holds cd rg := by
  have hchars (f : UInt16 → List UInt8) (text : List UInt16) :
      (text.map fun c => (⟨c, f c⟩ : Printed)).map (·.unicode) = text := by
    simp [Function.comp_def]
  constructor
  · intro h
    obtain ⟨f, hrun, hf⟩ := @printAll_large cd _ [] rg.text (Nat.le_refl _)
    have hlarge := h (used [] + cd.width rg.text + cd.space.length * rg.text.length)
    rw [vbiPrintPageRegion_eq, hrun] at hlarge
    obtain ⟨-, hbytes, hjoined⟩ := hlarge
    simp only [List.nil_append] at hbytes hjoined
    rw [hchars f] at hjoined
    have hrecognized : Recognized cd rg.text := by
      intro c hc bytes henc hhead
      by_contra hnot
      push Not at hnot
      have := hbytes ⟨c, f c⟩ (List.mem_map.2 ⟨c, hc, rfl⟩)
      simp only [hf c bytes henc hhead hnot.1, Codeset.shown, henc, Option.getD_some] at this
      exact hnot.2 this.symm
    obtain ⟨hlone, hlast⟩ := (text_iff rg).1 hjoined
    refine ⟨hlone, hlast, hrecognized, ?_⟩
    by_contra hnot
    obtain ⟨size, out, -, hshort, p, hp, hne⟩ := exists_short cd hrecognized hnot []
    have := h size
    rw [vbiPrintPageRegion_eq, hshort] at this
    exact hne (this.2.1 p hp)
  · rintro ⟨hlone, hlast, hrecognized, hfollowed⟩ size
    rw [vbiPrintPageRegion_eq]
    by_cases hfit : cd.width rg.text ≤ size
    · rw [printAll_fits hrecognized (by simpa using hfit)]
      simp only [List.nil_append]
      refine ⟨?_, ?_, ?_⟩
      · simpa [used, Codeset.width, Function.comp_def] using hfit
      · intro p hp
        obtain ⟨c, -, rfl⟩ := List.mem_map.1 hp
        rfl
      · rw [hchars cd.shown]
        exact (text_iff rg).2 ⟨hlone, hlast⟩
    · rw [printAll_short hrecognized hfollowed (by simp) (by simpa using Nat.not_le.1 hfit)]
      have := width_text_le cd rg hlone
      simp only
      omega

def Codeset.ofBytes (f : UInt16 → List UInt8) (hf : ∀ c, f c ≠ []) : Codeset where
  encode c := some (f c)
  irreversible _ := false
  space := f 0x20
  encode_nonempty c bytes h := by simp only [Option.some.injEq] at h; simp [← h, hf c]
  encode_space := rfl
  space_reversible := rfl

def utf16le : Codeset :=
  .ofBytes (fun c => [UInt8.ofNat (c.toNat % 256), UInt8.ofNat (c.toNat / 256)]) (by simp)

def utf8 : Codeset :=
  .ofBytes (fun c =>
    if c < 0x80 then [UInt8.ofNat c.toNat]
    else [UInt8.ofNat (192 + c.toNat / 64), UInt8.ofNat (128 + c.toNat % 64)])
    (by intro c; split <;> simp)

def pageOf (text : List UInt16) : NormalPage where
  columns := 2
  rows := text.length / 2
  text i := ⟨(text[i]?).getD 0x20, .normalSize⟩
  normal _ := rfl

/-- `"A "` over `"B "`. -/
def twoWords : Region (pageOf [0x41, 0x20, 0x42, 0x20]) :=
  ⟨0, 0, 2, 2, by simp, by simp, by simp [pageOf], by simp [pageOf]⟩

/-- `"AB"` over `"CD"`, of which the first column is printed. -/
def oneColumn : Region (pageOf [0x41, 0x42, 0x43, 0x44]) :=
  ⟨0, 0, 1, 2, by simp, by simp, by simp [pageOf], by simp [pageOf]⟩

def single (c : UInt16) : Region (pageOf [c, 0x20]) :=
  ⟨0, 0, 1, 1, by simp, by simp, by simp [pageOf], by simp [pageOf]⟩

/-- Two words are printed as one, a region is left out, U+0440 is replaced by a space, and U+00E9
in a buffer of one byte. -/
theorem words_not_printed :
    ¬ Meets utf8 twoWords ∧ ¬ Meets utf8 oneColumn ∧ ¬ Meets utf16le (single 0x440) ∧
      ¬ Meets utf8 (single 0xE9) := by
  refine ⟨fun h => ?_, fun h => ?_, fun h => ?_, fun h => ?_⟩
  · have hrun : vbiPrintPageRegion (some utf8) (twoWords.arguments 9) =
        some [⟨0x41, [0x41]⟩, ⟨0x42, [0x42]⟩, ⟨0x20, [0x20]⟩] := by decide +kernel
    have hjoined : joined twoWords.lines = [0x41, 0x20, 0x42] := by decide +kernel
    have := h 9
    rw [hrun] at this
    obtain ⟨-, -, before, after, heq⟩ := this
    rw [hjoined] at heq
    have hlen := congrArg List.length heq
    simp only [List.length_map, List.length_cons, List.length_nil, List.length_append,
      List.length_replicate] at hlen
    obtain ⟨rfl, rfl⟩ : before = 0 ∧ after = 0 := by omega
    simp at heq
  · have hrun : vbiPrintPageRegion (some utf8) (oneColumn.arguments 9) =
        some [⟨0x41, [0x41]⟩] := by decide +kernel
    have hjoined : joined oneColumn.lines = [0x41, 0x42, 0x20, 0x43] := by decide +kernel
    have := h 9
    rw [hrun] at this
    obtain ⟨-, -, before, after, heq⟩ := this
    rw [hjoined] at heq
    have hlen := congrArg List.length heq
    simp at hlen
    omega
  · have hrun : vbiPrintPageRegion (some utf16le) ((single 0x440).arguments 9) =
        some [⟨0x440, [0x20, 0]⟩] := by decide +kernel
    have := h 9
    rw [hrun] at this
    have hshown : utf16le.shown 0x440 = [0x40, 0x04] := by decide +kernel
    simpa [hshown] using this.2.1 _ (List.mem_singleton.2 rfl)
  · have hrun : vbiPrintPageRegion (some utf8) ((single 0xE9).arguments 1) =
        some [⟨0xE9, [0x20]⟩] := by decide +kernel
    have := h 1
    rw [hrun] at this
    have hshown : utf8.shown 0xE9 = [0xC3, 0xA9] := by decide +kernel
    simpa [hshown] using this.2.1 _ (List.mem_singleton.2 rfl)

end PageText

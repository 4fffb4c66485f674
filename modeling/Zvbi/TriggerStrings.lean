import Zvbi.TriggerDates

/-!
# Attributes of triggers

A trigger is a URL in angle brackets and groups of an attribute and its value. Parts of a value
may be quoted, to contain the closing delimiter, and characters may be escaped. The loop over a
value does not read the character after an opening quote, it sees the quote once more.
-/

namespace TriggerStrings

open TriggerDates (CString isdigit)

/-- Why a parser stops: it returns `NULL`, or reads or writes outside of a buffer. -/
inductive Stop where
  | rejected
  | overread
  | overwrite
deriving DecidableEq, Repr

def isxdigit (c : UInt8) : Bool :=
  isdigit c || (0x41 ≤ c && c ≤ 0x46) || (0x61 ≤ c && c ≤ 0x66)

/-- `parse_hex (s, digits)` with the number so far. -/
def parseHex : List UInt8 → Nat → Nat → Option Nat
  | _, 0, n => some n
  | [], _ + 1, _ => none
  | c :: s, digits + 1, n =>
    if isxdigit c then
      parseHex s digits (n * 16 + c.toNat % 16 + if 0x39 < c then 9 else 0)
    else
      none

def unescape (h l : UInt8) : Option UInt8 :=
  match parseHex [h, l] 2 0 with
  | some n => if n < 0x20 then none else some (UInt8.ofNat n)
  | none => none

/-- `if (c && d < dx) *d++ = c; else return NULL;` in a buffer of 256 bytes, and what follows. -/
def put {α : Type} (dx d : Nat) (c : UInt8) (next : Except Stop (List UInt8 × α)) :
    Except Stop (List UInt8 × α) :=
  if c ≠ 0 ∧ d < dx then
    if d < 256 then next.map fun r => (c :: r.1, r.2) else .error .overwrite
  else
    .error .rejected

/-- `*d++ = 0`. -/
def terminate {α : Type} (d : Nat) (a : α) : Except Stop α :=
  if d < 256 then .ok a else .error .overwrite

def scanUrl (dx : Nat) : List UInt8 → Nat → Except Stop (List UInt8 × List UInt8)
  | [], _ => .error .overread
  | c :: s, d =>
    if c = 0x3E then
      terminate d ([], s)
    else
      put dx d c (scanUrl dx s (d + 1))

def scanName (closing : UInt8) : List UInt8 → Nat → Except Stop (List UInt8 × UInt8 × List UInt8)
  | [], _ => .error .overread
  | c :: s, d =>
    if c = 0x3A ∨ c = closing then
      terminate d ([], c, s)
    else if c = 0x25 then
      match s with
      | h :: l :: s =>
        match unescape h l with
        | none => .error .rejected
        | some c => put 254 d c (scanName closing s (d + 1))
      | [h] => .error (if isxdigit h then .overread else .rejected)
      | [] => .error .overread
    else
      put 254 d c (scanName closing s (d + 1))

def scanText (closing : UInt8) :
    List UInt8 → Nat → Bool → Except Stop (List UInt8 × List UInt8)
  | [], _, _ => .error .overread
  | c :: s, d, quote =>
    if quote then
      -- `*s` is not read, `c` is the quote before it
      put 254 d 0x22 (scanText closing s (d + 1) false)
    else if c = closing then
      terminate d ([], s)
    else if c = 0x22 then
      put 254 d c (scanText closing s (d + 1) true)
    else if c = 0x25 then
      match s with
      | h :: l :: s =>
        match unescape h l with
        | none => .error .rejected
        | some c =>
          put 254 d c (scanText closing s (d + 1) false)
      | [h] => .error (if isxdigit h then .overread else .rejected)
      | [] => .error .overread
    else
      put 254 d c (scanText closing s (d + 1) false)

attribute [elab_as_elim] scanName.induct_unfolding scanText.induct_unfolding

def HexDigit (c : UInt8) (n : Nat) : Prop :=
  n < 10 ∧ c.toNat = 0x30 + n ∨ 10 ≤ n ∧ n < 16 ∧ (c.toNat = 0x37 + n ∨ c.toNat = 0x57 + n)

def Escape (h l c : UInt8) : Prop :=
  ∃ a b, HexDigit h a ∧ HexDigit l b ∧ c.toNat = 16 * a + b ∧ 0x20 ≤ c.toNat

inductive Name (delim : UInt8) : List UInt8 → List UInt8 → Prop where
  | nil : Name delim [] []
  | escape {h l c : UInt8} {code text : List UInt8} : Escape h l c → Name delim code text →
      Name delim (0x25 :: h :: l :: code) (c :: text)
  | plain {c : UInt8} {code text : List UInt8} : c ≠ 0 → c ≠ 0x25 → c ≠ 0x3A → c ≠ delim →
      Name delim code text → Name delim (c :: code) (c :: text)

inductive Value (delim : UInt8) : Bool → List UInt8 → List UInt8 → Prop where
  | nil : Value delim false [] []
  | quote {quote : Bool} {code text : List UInt8} : Value delim (!quote) code text →
      Value delim quote (0x22 :: code) (0x22 :: text)
  | escape {quote : Bool} {h l c : UInt8} {code text : List UInt8} : Escape h l c →
      Value delim quote code text → Value delim quote (0x25 :: h :: l :: code) (c :: text)
  | plain {quote : Bool} {c : UInt8} {code text : List UInt8} : c ≠ 0 → c ≠ 0x22 → c ≠ 0x25 →
      (c = delim → quote = true) → Value delim quote code text →
      Value delim quote (c :: code) (c :: text)

inductive Spans (delim : UInt8) : List UInt8 → List UInt8 → Prop where
  | nil : Spans delim [] []
  | quote {c : UInt8} {code text : List UInt8} : Spans delim code text →
      Spans delim (0x22 :: c :: code) (0x22 :: 0x22 :: text)
  | escape {h l c : UInt8} {code text : List UInt8} : Escape h l c → Spans delim code text →
      Spans delim (0x25 :: h :: l :: code) (c :: text)
  | plain {c : UInt8} {code text : List UInt8} : c ≠ 0 → c ≠ 0x22 → c ≠ 0x25 → c ≠ delim →
      Spans delim code text → Spans delim (c :: code) (c :: text)

def Paired : List UInt8 → Prop
  | [] => True
  | [c] => c ≠ 0x22
  | c :: c' :: code => if c = 0x22 then c' = 0x22 ∧ Paired code else Paired (c' :: code)

def Terminated : List UInt8 → Prop
  | [] => False
  | c :: s => if c = 0 then s = [] else Terminated s

variable {c h l : UInt8} {n d dx : Nat} {text rest s code : List UInt8} {α : Type} {e : Stop}
  {quote : Bool}

theorem hexDigit_iff :
    HexDigit c n ↔ isxdigit c = true ∧ n = c.toNat % 16 + if 0x39 < c then 9 else 0 := by
  have hc := c.toNat_lt
  simp only [HexDigit, isxdigit, isdigit, Bool.or_eq_true, Bool.and_eq_true, decide_eq_true_eq,
    UInt8.le_iff_toNat_le, UInt8.lt_iff_toNat_lt]
  simp
  split <;> omega

theorem HexDigit.lt (h : HexDigit c n) : n < 16 := by
  rcases h with ⟨h, -⟩ | ⟨-, h, -⟩ <;> omega

theorem parseHex_pair {a b : Nat} (ha : HexDigit h a) (hb : HexDigit l b) :
    parseHex [h, l] 2 0 = some (16 * a + b) := by
  obtain ⟨hh, rfl⟩ := hexDigit_iff.1 ha
  obtain ⟨hl, rfl⟩ := hexDigit_iff.1 hb
  simp only [parseHex, hh, hl, if_true, Option.some.injEq]
  omega

theorem parseHex_digits (hn : parseHex [h, l] 2 0 = some n) :
    ∃ a b, HexDigit h a ∧ HexDigit l b := by
  by_cases hh : isxdigit h = true
  · by_cases hl : isxdigit l = true
    · exact ⟨_, _, hexDigit_iff.2 ⟨hh, rfl⟩, hexDigit_iff.2 ⟨hl, rfl⟩⟩
    · simp [parseHex, hh, hl] at hn
  · simp [parseHex, hh] at hn

theorem unescape_eq_some : unescape h l = some c ↔ Escape h l c := by
  constructor
  · intro hu
    cases hn : parseHex [h, l] 2 0 with
    | none => simp [unescape, hn] at hu
    | some n =>
      obtain ⟨a, b, ha, hb⟩ := parseHex_digits hn
      obtain rfl := Option.some.inj ((parseHex_pair ha hb).symm.trans hn)
      have := ha.lt
      have := hb.lt
      simp only [unescape, hn, Option.ite_none_left_eq_some, Option.some.injEq] at hu
      obtain ⟨hge, rfl⟩ := hu
      have hmod : (16 * a + b) % 256 = 16 * a + b := Nat.mod_eq_of_lt (by omega)
      exact ⟨a, b, ha, hb, by simp [hmod], by simp [hmod]; omega⟩
  · rintro ⟨a, b, ha, hb, he, hc⟩
    simp [unescape, parseHex_pair ha hb, ← he, hc]

theorem Escape.ne_zero (e : Escape h l c) : c ≠ 0 := by
  obtain ⟨_, _, -, -, -, hc⟩ := e
  rintro rfl
  simp at hc

theorem HexDigit.ne {d : UInt8} (h : HexDigit c n)
    (hd : d.toNat < 0x30 ∨ 0x3A ≤ d.toNat ∧ d.toNat < 0x41 ∨ 0x47 ≤ d.toNat ∧ d.toNat < 0x61) :
    c ≠ d := by
  rintro rfl
  rcases h with ⟨h1, h2⟩ | ⟨h1, h2, h3⟩ <;> omega

variable {a : α} {next : Except Stop (List UInt8 × α)} {name : List UInt8}

@[simp] theorem put_eq_ok (hdx : dx ≤ 255) :
    put dx d c next = .ok (text, a) ↔
      c ≠ 0 ∧ d < dx ∧ ∃ text', next = .ok (text', a) ∧ text = c :: text' := by
  by_cases h : c ≠ 0 ∧ d < dx
  · have h256 : d < 256 := by omega
    cases next with
    | error e => simp [put, h, h256, Except.map]
    | ok r =>
      simp only [put, h, h256, Except.map, if_true, Except.ok.injEq, true_and, ne_eq,
        not_false_eq_true, Prod.ext_iff]
      grind
  · simp only [put, if_neg h]
    grind

@[simp] theorem put_eq_error (hdx : dx ≤ 255) (he : e ≠ .rejected) :
    put dx d c next = .error e ↔ c ≠ 0 ∧ d < dx ∧ next = .error e := by
  by_cases h : c ≠ 0 ∧ d < dx
  · have h256 : d < 256 := by omega
    cases next <;> simp [put, h, h256, Except.map]
  · simp only [put, if_neg h, Except.error.injEq, he.symm, false_iff]
    grind

@[simp] theorem terminate_eq_ok {b : α} : terminate d a = .ok b ↔ d < 256 ∧ a = b := by
  by_cases h : d < 256 <;> simp [terminate, h]

@[simp] theorem terminate_eq_error : terminate d a = .error e ↔ 256 ≤ d ∧ e = .overwrite := by
  by_cases h : d < 256
  · simp [terminate, h]
  · simp [terminate, h, Nat.not_lt.1 h, eq_comm]

variable {delim : UInt8}

variable {url : List UInt8} {sep : UInt8}

/-- The loop over the URL returns it, when there is room for it. -/
theorem scanUrl_eq_ok (hdx : dx ≤ 255) :
    scanUrl dx s d = .ok (url, rest) ↔ s = url ++ 0x3E :: rest ∧
      (∀ c ∈ url, c ≠ 0 ∧ c ≠ 0x3E) ∧ (url = [] ∨ d + url.length ≤ dx) ∧ d < 256 := by
  induction s generalizing d url with
  | nil => simp [scanUrl]
  | cons c s ih =>
    by_cases hc : c = 0x3E
    · subst hc
      simp only [scanUrl, if_true, terminate_eq_ok, Prod.mk.injEq]
      constructor
      · rintro ⟨hd, rfl, rfl⟩
        simp [hd]
      · rintro ⟨hs, hmem, -, hd⟩
        cases url with
        | nil => simpa [hd] using hs
        | cons c url => exact absurd (by simpa using (List.cons.inj hs).1.symm) (hmem c (by simp)).2
    · simp only [scanUrl, hc, if_false, put_eq_ok hdx, ih]
      constructor
      · rintro ⟨h0, hd, url, ⟨rfl, hmem, hroom, -⟩, rfl⟩
        refine ⟨rfl, by simpa [h0, hc] using hmem, Or.inr ?_, by omega⟩
        rcases hroom with rfl | hroom
        · simpa using Nat.succ_le_of_lt hd
        · simp only [List.length_cons]
          omega
      · rintro ⟨hs, hmem, hroom, hd⟩
        cases url with
        | nil => exact absurd (List.cons.inj hs).1 hc
        | cons c' url =>
          obtain ⟨rfl, rfl⟩ := List.cons.inj hs
          simp only [reduceCtorEq, List.length_cons, false_or] at hroom
          refine ⟨(hmem c (by simp)).1, by omega, url, ⟨rfl, ?_, Or.inr ?_, by omega⟩, rfl⟩
          · exact fun c hc => hmem c (by simp [hc])
          · omega

/-- An attribute without escapes stands for itself. -/
theorem Name.of_plain (h : ∀ c ∈ text, c ≠ 0 ∧ c ≠ 0x25 ∧ c ≠ 0x3A ∧ c ≠ delim) :
    Name delim text text := by
  induction text with
  | nil => exact .nil
  | cons c text ih =>
    obtain ⟨h0, h25, h3A, hd⟩ := h c (by simp)
    exact .plain h0 h25 h3A hd (ih fun c hc => h c (by simp [hc]))

theorem scanName_end (h : c = 0x3A ∨ c = delim) (s : List UInt8) (d : Nat) :
    scanName delim (c :: s) d = terminate d ([], c, s) := by
  rw [scanName.eq_def]
  simp [h]

theorem scanName_escape (e : Escape h l c) (hdelim : 0x25 ≠ delim) (s : List UInt8) (d : Nat) :
    scanName delim (0x25 :: h :: l :: s) d = put 254 d c (scanName delim s (d + 1)) := by
  simp [scanName, hdelim, unescape_eq_some.2 e]

theorem scanName_plain (h25 : c ≠ 0x25) (h3A : c ≠ 0x3A) (hd : c ≠ delim) (s : List UInt8)
    (d : Nat) : scanName delim (c :: s) d = put 254 d c (scanName delim s (d + 1)) := by
  rw [scanName.eq_def]
  simp [h25, h3A, hd]

theorem scanName_sound (h : scanName delim s d = .ok (name, sep, rest)) :
    ∃ code, s = code ++ sep :: rest ∧ (sep = 0x3A ∨ sep = delim) ∧ Name delim code name ∧
      (name = [] ∨ d + name.length ≤ 254) := by
  fun_induction scanName delim s d generalizing name with
  | case1 | case3 | case5 | case6 => cases h
  | case2 c s d hc =>
    obtain ⟨-, he⟩ := terminate_eq_ok.1 h
    cases he
    exact ⟨[], rfl, hc, .nil, Or.inl rfl⟩
  | case4 d h' l s c hu _ ih =>
    obtain ⟨-, hd, name, hr, rfl⟩ := (put_eq_ok (by simp)).1 h
    obtain ⟨code, rfl, hsep, hn, hroom⟩ := ih hr
    refine ⟨_, rfl, hsep, .escape (unescape_eq_some.1 hu) hn, Or.inr ?_⟩
    rcases hroom with rfl | hroom
    · simpa using Nat.succ_le_of_lt hd
    · simp only [List.length_cons]
      omega
  | case7 c s d hc h25 ih =>
    obtain ⟨h0, hd, name, hr, rfl⟩ := (put_eq_ok (by simp)).1 h
    obtain ⟨code, rfl, hsep, hn, hroom⟩ := ih hr
    refine ⟨_, rfl, hsep, .plain h0 h25 (not_or.1 hc).1 (not_or.1 hc).2 hn, Or.inr ?_⟩
    rcases hroom with rfl | hroom
    · simpa using Nat.succ_le_of_lt hd
    · simp only [List.length_cons]
      omega

theorem scanName_complete (h : Name delim code name) (hsep : sep = 0x3A ∨ sep = delim)
    (hdelim : 0x25 ≠ delim) (rest : List UInt8) (hroom : d + name.length ≤ 254) :
    scanName delim (code ++ sep :: rest) d = .ok (name, sep, rest) := by
  induction h generalizing d with
  | nil =>
    simp only [List.length_nil] at hroom
    simp only [List.nil_append, scanName_end hsep, terminate_eq_ok, and_true]
    omega
  | escape he _ ih =>
    simp only [List.length_cons] at hroom
    simp only [List.cons_append, scanName_escape he hdelim]
    exact (put_eq_ok (by simp)).2 ⟨he.ne_zero, by omega, _, ih (by omega), rfl⟩
  | plain h0 h25 h3A hd _ ih =>
    simp only [List.length_cons] at hroom
    simp only [List.cons_append, scanName_plain h25 h3A hd]
    exact (put_eq_ok (by simp)).2 ⟨h0, by omega, _, ih (by omega), rfl⟩

theorem put_error (hdx : dx ≤ 255) (he : e ≠ .rejected) (h : d < dx → c ≠ 0 → next ≠ .error e) :
    put dx d c next ≠ .error e := by
  intro hput
  obtain ⟨h0, hd, hnext⟩ := (put_eq_error hdx he).1 hput
  exact h hd h0 hnext

theorem HexDigit.ne_zero (h : HexDigit c n) : c ≠ 0 := h.ne (by simp)

theorem Escape.terminated (e : Escape h l c) :
    Terminated (0x25 :: h :: l :: s) ↔ Terminated s := by
  obtain ⟨_, _, hh, hl, -⟩ := e
  simp [Terminated, hh.ne_zero, hl.ne_zero]

theorem terminated_cons (h : c ≠ 0) :
    Terminated (c :: s) ↔ Terminated s := by simp [Terminated, h]

theorem escape_inside (ht : Terminated [0x25, h]) : isxdigit h = false := by
  obtain rfl : h = 0 := by simpa [Terminated] using ht
  decide

/-- An attribute is read up to the NUL at most. -/
theorem scanName_inside (h : Terminated s) (hd : d < 256) (he : e ≠ .rejected) :
    scanName delim s d ≠ .error e := by
  fun_induction scanName delim s d with
  | case1 => exact h.elim
  | case2 =>
    simp [hd]
  | case3 => simpa using he.symm
  | case4 d h' l s c hu hc ih =>
    exact put_error (by simp) he fun hd _ =>
      ih ((unescape_eq_some.1 hu).terminated.1 h) (by omega)
  | case5 d h' => simpa [escape_inside h] using he.symm
  | case6 d => simp [Terminated] at h
  | case7 c s d hc h25 ih =>
    exact put_error (by simp) he fun hd h0 => ih ((terminated_cons h0).1 h) (by omega)

theorem scanText_quoted (c : UInt8) (s : List UInt8) (d : Nat) :
    scanText delim (c :: s) d true = put 254 d 0x22 (scanText delim s (d + 1) false) := by
  rw [scanText.eq_def]
  simp

theorem scanText_end (s : List UInt8) (d : Nat) :
    scanText delim (delim :: s) d false = terminate d ([], s) := by
  rw [scanText.eq_def]
  simp

theorem scanText_quote (hdelim : 0x22 ≠ delim) (s : List UInt8) (d : Nat) :
    scanText delim (0x22 :: s) d false = put 254 d 0x22 (scanText delim s (d + 1) true) := by
  rw [scanText.eq_def]
  simp [hdelim]

theorem scanText_escape (e : Escape h l c) (hdelim : 0x25 ≠ delim) (s : List UInt8) (d : Nat) :
    scanText delim (0x25 :: h :: l :: s) d false =
      put 254 d c (scanText delim s (d + 1) false) := by
  simp [scanText, hdelim, unescape_eq_some.2 e]

theorem scanText_plain (h22 : c ≠ 0x22) (h25 : c ≠ 0x25) (hd : c ≠ delim) (s : List UInt8)
    (d : Nat) :
    scanText delim (c :: s) d false = put 254 d c (scanText delim s (d + 1) false) := by
  rw [scanText.eq_def]
  simp [h22, h25, hd]

def opened (quote : Bool) (s : List UInt8) : List UInt8 := if quote then 0x22 :: s else s

theorem scanText_sound (h : scanText delim s d quote = .ok (text, rest)) :
    ∃ code, s = code ++ delim :: rest ∧ Spans delim (opened quote code) (opened quote text) ∧
      (text = [] ∨ d + text.length ≤ 254) := by
  have room {text : List UInt8} {d : Nat} (c : UInt8) (hd : d < 254)
      (h : text = [] ∨ d + 1 + text.length ≤ 254) : d + (c :: text).length ≤ 254 := by
    rcases h with rfl | h
    · simpa using Nat.succ_le_of_lt hd
    · simp only [List.length_cons]
      omega
  fun_induction scanText delim s d quote generalizing text with
  | case1 | case5 | case7 | case8 => cases h
  | case2 c s d ih =>
    obtain ⟨-, hd, text, hr, rfl⟩ := (put_eq_ok (by simp)).1 h
    obtain ⟨code, rfl, hs, hroom⟩ := ih hr
    exact ⟨_, rfl, .quote hs, Or.inr (room _ hd hroom)⟩
  | case3 s d quote hq =>
    obtain rfl : quote = false := by simpa using hq
    obtain ⟨-, he⟩ := terminate_eq_ok.1 h
    cases he
    exact ⟨[], rfl, .nil, Or.inl rfl⟩
  | case4 s d quote hq _ ih =>
    obtain rfl : quote = false := by simpa using hq
    obtain ⟨-, hd, text, hr, rfl⟩ := (put_eq_ok (by simp)).1 h
    obtain ⟨code, rfl, hs, hroom⟩ := ih hr
    exact ⟨_, rfl, hs, Or.inr (room _ hd hroom)⟩
  | case6 d quote hq h' l s c hu _ _ ih =>
    obtain rfl : quote = false := by simpa using hq
    obtain ⟨-, hd, text, hr, rfl⟩ := (put_eq_ok (by simp)).1 h
    obtain ⟨code, rfl, hs, hroom⟩ := ih hr
    exact ⟨_, rfl, .escape (unescape_eq_some.1 hu) hs, Or.inr (room _ hd hroom)⟩
  | case9 c s d quote hq hc h22 h25 ih =>
    obtain rfl : quote = false := by simpa using hq
    obtain ⟨h0, hd, text, hr, rfl⟩ := (put_eq_ok (by simp)).1 h
    obtain ⟨code, rfl, hs, hroom⟩ := ih hr
    exact ⟨_, rfl, .plain h0 h22 h25 hc hs, Or.inr (room _ hd hroom)⟩

theorem scanText_complete (h : Spans delim code text) (h22 : 0x22 ≠ delim) (h25 : 0x25 ≠ delim)
    (rest : List UInt8) (hd : d < 256) (hroom : text = [] ∨ d + text.length ≤ 254) :
    scanText delim (code ++ delim :: rest) d false = .ok (text, rest) := by
  induction h generalizing d with
  | nil => simp [scanText_end, hd]
  | quote _ ih =>
    simp only [reduceCtorEq, List.length_cons, false_or] at hroom
    simp only [List.cons_append, scanText_quote h22, scanText_quoted]
    refine (put_eq_ok (by simp)).2 ⟨by simp, by omega, _, ?_, rfl⟩
    exact (put_eq_ok (by simp)).2 ⟨by simp, by omega, _, ih (by omega) (by omega), rfl⟩
  | escape he _ ih =>
    simp only [reduceCtorEq, List.length_cons, false_or] at hroom
    simp only [List.cons_append, scanText_escape he h25]
    exact (put_eq_ok (by simp)).2 ⟨he.ne_zero, by omega, _, ih (by omega) (by omega), rfl⟩
  | plain h0 hq hp hne _ ih =>
    simp only [reduceCtorEq, List.length_cons, false_or] at hroom
    simp only [List.cons_append, scanText_plain hq hp hne]
    exact (put_eq_ok (by simp)).2 ⟨h0, by omega, _, ih (by omega) (by omega), rfl⟩

/-- The memory after the NUL is read where a quote is opened before it. -/
theorem scanText_overread (h : Terminated s) (hover : scanText delim s d quote = .error .overread) :
    ∃ code text, opened quote s = code ++ [0x22, 0] ∧ Spans delim code text ∧
      d + text.length + 2 ≤ 254 + quote.toNat := by
  fun_induction scanText delim s d quote with
  | case1 => exact h.elim
  | case2 c s d ih =>
    obtain ⟨-, hd, hr⟩ := (put_eq_error (by simp) (by simp)).1 hover
    by_cases h0 : c = 0
    · obtain rfl : s = [] := by simpa [Terminated, h0] using h
      exact ⟨[], [], by simp [opened, h0], .nil, by simp; omega⟩
    · obtain ⟨code, text, hs, hspans, hroom⟩ := ih ((terminated_cons h0).1 h) hr
      refine ⟨_, _, ?_, .quote (c := c) hspans, ?_⟩
      · simpa [opened] using hs
      · simp only [Bool.toNat_false, List.length_cons, Bool.toNat_true] at hroom ⊢
        omega
  | case3 s d quote hq => simp at hover
  | case4 s d quote hq _ ih =>
    obtain rfl : quote = false := by simpa using hq
    obtain ⟨-, hd, hr⟩ := (put_eq_error (by simp) (by simp)).1 hover
    obtain ⟨code, text, hs, hspans, hroom⟩ := ih ((terminated_cons (by simp)).1 h) hr
    refine ⟨code, text, hs, hspans, ?_⟩
    simp only [Bool.toNat_false, Bool.toNat_true] at hroom ⊢
    omega
  | case5 => cases hover
  | case6 d quote hq h' l s c hu _ _ ih =>
    obtain rfl : quote = false := by simpa using hq
    have he := unescape_eq_some.1 hu
    obtain ⟨-, hd, hr⟩ := (put_eq_error (by simp) (by simp)).1 hover
    obtain ⟨code, text, hs, hspans, hroom⟩ := ih (he.terminated.1 h) hr
    refine ⟨_, _, ?_, .escape he hspans, ?_⟩
    · simpa [opened] using hs
    · simp only [Bool.toNat_false, List.length_cons] at hroom ⊢
      omega
  | case7 d quote hq h' => simp [escape_inside h] at hover
  | case8 => simp [Terminated] at h
  | case9 c s d quote hq hc h22 h25 ih =>
    obtain rfl : quote = false := by simpa using hq
    obtain ⟨h0, hd, hr⟩ := (put_eq_error (by simp) (by simp)).1 hover
    obtain ⟨code, text, hs, hspans, hroom⟩ := ih ((terminated_cons h0).1 h) hr
    refine ⟨_, _, ?_, .plain h0 h22 h25 hc hspans, ?_⟩
    · simpa [opened] using hs
    · simp only [Bool.toNat_false, List.length_cons] at hroom ⊢
      omega

theorem scanText_unclosed (h : Spans delim code text) (h22 : 0x22 ≠ delim) (h25 : 0x25 ≠ delim)
    (hroom : d + text.length + 2 ≤ 254) :
    scanText delim (code ++ [0x22, 0]) d false = .error .overread := by
  have step {d : Nat} {c : UInt8} {next : Except Stop (List UInt8 × List UInt8)} (hc : c ≠ 0)
      (hd : d < 254) (h : next = .error .overread) : put 254 d c next = .error .overread :=
    (put_eq_error (by simp) (by simp)).2 ⟨hc, hd, h⟩
  induction h generalizing d with
  | nil =>
    simp only [List.length_nil] at hroom
    simp only [List.nil_append, scanText_quote h22, scanText_quoted]
    exact step (by simp) (by omega) (step (by simp) (by omega) (by simp [scanText]))
  | quote _ ih =>
    simp only [List.length_cons] at hroom
    simp only [List.cons_append, scanText_quote h22, scanText_quoted]
    exact step (by simp) (by omega) (step (by simp) (by omega) (ih (by omega)))
  | escape he _ ih =>
    simp only [List.length_cons] at hroom
    simp only [List.cons_append, scanText_escape he h25]
    exact step he.ne_zero (by omega) (ih (by omega))
  | plain h0 hq hp hne _ ih =>
    simp only [List.length_cons] at hroom
    simp only [List.cons_append, scanText_plain hq hp hne]
    exact step h0 (by omega) (ih (by omega))

theorem scanText_overwrite (hd : d < 256) : scanText delim s d quote ≠ .error .overwrite := by
  fun_induction scanText delim s d quote with
  | case1 | case5 | case8 => simp
  | case3 => simp [hd]
  | case7 d quote hq h' => cases isxdigit h' <;> simp
  | case2 | case4 | case6 | case9 =>
    rename_i ih
    exact put_error (by simp) (by simp) fun hd _ => ih (by omega)

theorem paired_cons (h : c ≠ 0x22) (code : List UInt8) : Paired (c :: code) ↔ Paired code := by
  cases code <;> simp [Paired, h]

theorem paired_quote (c : UInt8) (code : List UInt8) :
    Paired (0x22 :: c :: code) ↔ c = 0x22 ∧ Paired code := by simp [Paired]

theorem HexDigit.ne_quote (h : HexDigit c n) : c ≠ 0x22 := h.ne (by simp)

theorem HexDigit.ne_percent (h : HexDigit c n) : c ≠ 0x25 := h.ne (by simp)

theorem Escape.paired (e : Escape h l c) (code : List UInt8) :
    Paired (0x25 :: h :: l :: code) ↔ Paired code := by
  obtain ⟨_, _, hh, hl, -⟩ := e
  simp [paired_cons, hh.ne_quote, hl.ne_quote]

/-- A text is shorter than its value by two characters for each escape. -/
theorem Value.length (h : Value delim quote code text) :
    text.length + 2 * code.count 0x25 = code.length := by
  induction h with
  | nil => simp
  | quote _ ih => simpa [Nat.add_right_comm _ 1] using ih
  | escape he _ ih =>
    obtain ⟨_, _, hh, hl, -⟩ := he
    simp [hh.ne_percent, hl.ne_percent]
    omega
  | plain _ _ h25 _ _ ih => simpa [List.count_cons, h25, Nat.add_right_comm _ 1] using ih

/-- The text which is read may be longer than that. -/
theorem Spans.length_le (h : Spans delim code text) :
    code.length ≤ text.length + 2 * code.count 0x25 := by
  induction h with
  | nil => simp
  | quote _ ih =>
    simp [List.count_cons]
    omega
  | escape he _ ih =>
    obtain ⟨_, _, hh, hl, -⟩ := he
    simp [hh.ne_percent, hl.ne_percent]
    omega
  | plain _ _ h25 _ _ ih =>
    simp [h25]
    omega

theorem Value.spans (h : Value delim quote code text) (hp : Paired (opened quote code)) :
    Spans delim (opened quote code) (opened quote text) := by
  induction h with
  | nil => exact .nil
  | @quote quote code text _ ih =>
    cases quote with
    | false => exact ih hp
    | true => exact .quote (ih ((paired_quote _ _).1 hp).2)
  | @escape quote h l c code text he _ ih =>
    cases quote with
    | false => exact .escape he (ih ((he.paired _).1 hp))
    | true => exact absurd ((paired_quote _ _).1 hp).1 (by simp)
  | @plain quote c code text h0 h22 h25 hd _ ih =>
    cases quote with
    | false =>
      exact .plain h0 h22 h25 (fun h => by simpa using hd h) (ih ((paired_cons h22 _).1 hp))
    | true => exact absurd ((paired_quote _ _).1 hp).1 h22

/-- Where the text which is read is that of the value, each quote which opens is followed by
one which closes. -/
theorem Spans.paired (h : Spans delim code text) (hv : Value delim false code text) :
    Paired code := by
  induction h with
  | nil => exact trivial
  | @quote c code text hs ih =>
    rw [paired_quote]
    have hv : Value delim true (c :: code) (0x22 :: text) := by
      cases hv with
      | quote hv => exact hv
      | plain _ h => exact absurd rfl h
    cases hv with
    | quote hv => exact ⟨rfl, ih hv⟩
    | plain _ h => exact absurd rfl h
    | escape he hv =>
      -- the digits of the escape were stored as well
      obtain ⟨_, _, hh, hl, -⟩ := he
      have h1 := hs.length_le
      have h2 := hv.length
      simp only [List.length_cons, List.count_cons, beq_iff_eq, hh.ne_percent, hl.ne_percent,
        if_false] at h1
      omega
  | @escape h l c code text he _ ih =>
    rw [he.paired]
    cases hv with
    | escape _ hv => exact ih hv
    | plain _ _ h => exact absurd rfl h
  | plain h0 h22 h25 hd _ ih =>
    rw [paired_cons h22]
    cases hv with
    | quote => exact absurd rfl h22
    | escape => exact absurd rfl h25
    | plain _ _ _ _ hv => exact ih hv

/-- A value is read as it is just when its quotes are empty. -/
theorem Value.spans_iff (h : Value delim false code text) :
    Spans delim code text ↔ Paired code :=
  ⟨fun hs => hs.paired h, h.spans⟩

theorem scanUrl_inside (h : Terminated s) (hdx : dx ≤ 255) (hd : d < 256) (he : e ≠ .rejected) :
    scanUrl dx s d ≠ .error e := by
  induction s generalizing d with
  | nil => exact h.elim
  | cons c s ih =>
    by_cases hc : c = 0x3E
    · simp [scanUrl, hc, hd]
    · simp only [scanUrl, hc, if_false]
      exact put_error hdx he fun hd h0 => ih ((terminated_cons h0).1 h) (by omega)

theorem put_rejected (hdx : dx ≤ 255) (h : d < dx → next = .error .rejected) :
    put dx d c next = .error .rejected := by
  by_cases hfull : c ≠ 0 ∧ d < dx
  · simp [put, hfull, h hfull.2, Except.map]
    omega
  · simp [put, hfull]

theorem scanUrl_full (hdx : dx ≤ 255) (h : ∀ c ∈ url, c ≠ 0x3E) (rest : List UInt8) (hd : d ≤ dx)
    (hroom : dx < d + url.length) : scanUrl dx (url ++ rest) d = .error .rejected := by
  induction url generalizing d with
  | nil =>
    simp only [List.length_nil] at hroom
    omega
  | cons c url ih =>
    simp only [List.length_cons] at hroom
    simp only [List.cons_append, scanUrl, h c (by simp), if_false]
    exact put_rejected hdx fun hfull =>
      ih (fun c hc => h c (by simp [hc])) hfull (by omega)

theorem scanName_full {delim : UInt8} (h : Name delim code name) (hdelim : 0x25 ≠ delim)
    (rest : List UInt8) (hd : d ≤ 254) (hroom : 254 < d + name.length) :
    scanName delim (code ++ rest) d = .error .rejected := by
  induction h generalizing d with
  | nil =>
    simp only [List.length_nil] at hroom
    omega
  | escape he _ ih =>
    simp only [List.length_cons] at hroom
    simp only [List.cons_append, scanName_escape he hdelim]
    exact put_rejected (by simp) fun hfull => ih hfull (by omega)
  | plain h0 h25 h3A hne _ ih =>
    simp only [List.length_cons] at hroom
    simp only [List.cons_append, scanName_plain h25 h3A hne]
    exact put_rejected (by simp) fun hfull => ih hfull (by omega)

theorem Terminated.append {a b : List UInt8} (h : Terminated (a ++ b)) (hb : b ≠ []) :
    Terminated b := by
  induction a with
  | nil => exact h
  | cons c a ih =>
    by_cases h0 : c = 0
    · simp [Terminated, h0, hb] at h
    · exact ih ((terminated_cons h0).1 h)

theorem Terminated.after {a : List UInt8} (h : Terminated (a ++ c :: rest)) (hc : c ≠ 0) :
    Terminated rest :=
  (terminated_cons hc).1 (h.append (by simp))

theorem CString.terminated (s : CString) : Terminated (s.bytes ++ [0]) := by
  have h (l : List UInt8) (hl : ∀ c ∈ l, c ≠ 0) : Terminated (l ++ [0]) := by
    induction l with
    | nil => simp [Terminated]
    | cons c l ih =>
      exact (terminated_cons (hl c (by simp))).2 (ih fun c hc => hl c (by simp [hc]))
  exact h s.bytes s.nonzero

end TriggerStrings

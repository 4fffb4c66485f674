import Mathlib

/-!
# Conversion of UCS-2 strings

A string is converted into a new buffer in one of three ways: to UTF-8, by a copy, or with
`iconv`, which is tried again with a buffer of twice the size. Sizes are `unsigned long`, also
where less than zero is meant.
-/

namespace StringConversion

inductive Fault where
  | read
  | write
deriving DecidableEq, Repr

inductive Errno where
  | enomem
  | einval
  | eilseq
  | e2big
deriving DecidableEq, Repr

/-- An `unsigned long`. -/
def ulong (z : Int) : Nat := (z % 2 ^ 64).toNat

structure Buffer where
  size : Nat
  stored : List UInt8
  inside : stored.length ≤ size
deriving DecidableEq, Repr

namespace Buffer

def empty (size : Nat) : Buffer := ⟨size, [], by simp⟩

def append (b : Buffer) (bytes : List UInt8) : Except Fault Buffer :=
  if h : b.stored.length + bytes.length ≤ b.size then
    .ok ⟨b.size, b.stored ++ bytes, by simpa using h⟩
  else
    .error .write

@[simp] lemma empty_size (size : Nat) : (empty size).size = size := rfl

@[simp] lemma empty_stored (size : Nat) : (empty size).stored = [] := rfl

lemma append_fits {b : Buffer} {bytes : List UInt8}
    (h : b.stored.length + bytes.length ≤ b.size) :
    b.append bytes = .ok ⟨b.size, b.stored ++ bytes, by simpa using h⟩ := by
  simp [append, h]

lemma append_outside {b : Buffer} {bytes : List UInt8}
    (h : b.size < b.stored.length + bytes.length) : b.append bytes = .error .write := by
  simp [append, Nat.not_le.2 h]

end Buffer

/-- A string in UCS-2 format with its length, or -1 when it is NUL terminated. -/
structure Source where
  units : List UInt16
  length : Int
  valid : (0 ≤ length ∧ length ≤ units.length) ∨ (length = -1 ∧ 0 ∈ units)
  object : 2 * units.length < 2 ^ 63

/-- A character set of `iconv`, whose conversions from UCS-2 depend on a shift state. -/
structure Codeset (σ : Type) where
  /-- The bytes which select the initial state. -/
  start : List UInt8
  initial : σ
  /-- The bytes of a character, unless it is unrepresentable. -/
  convert : σ → UInt16 → Option (List UInt8 × σ)
  start_lt : start.length < 2 ^ 63
  convert_lt : ∀ s c bytes s', convert s c = some (bytes, s') → bytes.length < 2 ^ 63

structure Library (σ : Type) where
  bigEndian : Bool
  /-- The `n`-th call of `malloc` returns an object of this size. -/
  malloc : Nat → Nat → Bool
  /-- `iconv_open` with the source format UCS-2. -/
  iconvOpen : List UInt8 → Option (Codeset σ)
  malloc_lt : ∀ n size, malloc n size = true → size < 2 ^ 63

/-- The returned pointer, or the error where it is `NULL`, and `*out_size`. -/
structure Result where
  buffer : Except Errno Buffer
  outSize : Nat

def isDash (c : UInt8) : Bool := c = 0x2D || c = 0x5F

/-- `same_codeset`, whose arguments are given without their NUL. -/
def sameCodeset : List UInt8 → List UInt8 → Bool
  | [], [] => true
  | d :: dst, [] => isDash d && sameCodeset dst []
  | [], s :: src => isDash s && sameCodeset [] src
  | d :: dst, s :: src =>
    if d = s then
      sameCodeset dst src
    else if isDash d then
      sameCodeset dst (s :: src)
    else if isDash s then
      sameCodeset (d :: dst) src
    else
      false
termination_by dst src => dst.length + src.length

/-- `vbi_strlen_ucs2`. -/
def strlenUcs2 : List UInt16 → Except Fault Nat
  | [] => .error .read
  | c :: units => if c = 0 then .ok 0 else (· + 1) <$> strlenUcs2 units

/-- The first `n` characters of the source. -/
def readUnits (units : List UInt16) (n : Nat) : Except Fault (List UInt16) :=
  if n ≤ units.length then .ok (units.take n) else .error .read

def unitBytes (bigEndian : Bool) (c : UInt16) : List UInt8 :=
  let bytes := [UInt8.ofNat (c.toNat % 256), UInt8.ofNat (c.toNat / 256)]
  if bigEndian then bytes.reverse else bytes

def strndupIdentity {σ : Type} (lib : Library σ) (units : List UInt16) (srcSize : Nat) :
    Except Fault Result :=
  if lib.malloc 0 (ulong (srcSize + 4)) then do
    let src ← readUnits units (srcSize / 2)
    let buffer ← (Buffer.empty (ulong (srcSize + 4))).append
      (src.flatMap (unitBytes lib.bigEndian))
    let buffer ← buffer.append [0, 0, 0, 0]
    return ⟨.ok buffer, srcSize⟩
  else
    return ⟨.error .enomem, 0⟩

/-- The bytes stored for a character in `strndup_utf8_ucs2`. -/
def utf8Bytes (c : Nat) : List UInt8 :=
  if c < 0x80 then
    [UInt8.ofNat c]
  else if c < 0x800 then
    [UInt8.ofNat (0xC0 ||| (c >>> 6)), UInt8.ofNat (0x80 ||| (c &&& 0x3F))]
  else
    [UInt8.ofNat (0xE0 ||| (c >>> 12)), UInt8.ofNat (0x80 ||| ((c >>> 6) &&& 0x3F)),
      UInt8.ofNat (0x80 ||| (c &&& 0x3F))]

/-- The loop of `strndup_utf8_ucs2` over the next `n` characters. -/
def utf8Loop : Nat → List UInt16 → Buffer → Except Fault Buffer
  | 0, _, buffer => .ok buffer
  | _ + 1, [], _ => .error .read
  | n + 1, c :: units, buffer => do
    let buffer ← buffer.append (utf8Bytes c.toNat)
    utf8Loop n units buffer

def sourceLength (src : Source) : Except Fault Nat :=
  if src.length < 0 then strlenUcs2 src.units else .ok src.length.toNat

def strndupUtf8Ucs2 {σ : Type} (lib : Library σ) (src : Source) : Except Fault Result := do
  let n ← sourceLength src
  if lib.malloc 0 (ulong (n * 3 + 1)) then
    let buffer ← utf8Loop n src.units (Buffer.empty (ulong (n * 3 + 1)))
    let outSize := buffer.stored.length
    let buffer ← buffer.append [0]
    return ⟨.ok buffer, outSize⟩
  else
    return ⟨.error .enomem, 0⟩

/-- What the pointers and counters of `iconv` say. -/
structure Progress (σ : Type) where
  state : σ
  src : List UInt16
  dst : Buffer
  dstLeft : Nat

/-- `iconv` converts one character after the other, and stops where one is unrepresentable or
the space it was given is not enough. -/
def iconv {σ : Type} (cs : Codeset σ) :
    σ → List UInt16 → Buffer → Nat → Except Fault (Progress σ × Option Errno)
  | state, [], dst, dstLeft => .ok (⟨state, [], dst, dstLeft⟩, none)
  | state, c :: src, dst, dstLeft =>
    match cs.convert state c with
    | none => .ok (⟨state, c :: src, dst, dstLeft⟩, some .eilseq)
    | some (bytes, state') =>
      if bytes.length ≤ dstLeft then do
        let dst ← dst.append bytes
        iconv cs state' src dst (dstLeft - bytes.length)
      else
        .ok (⟨state, c :: src, dst, dstLeft⟩, some .e2big)

/-- `iconv` stays in the source, and in front of a character it cannot convert. -/
lemma iconv_src {σ : Type} {cs : Codeset σ} {state : σ} {src : List UInt16} {dst : Buffer}
    {dstLeft : Nat} {p : Progress σ} {r : Option Errno}
    (h : iconv cs state src dst dstLeft = .ok (p, r)) :
    p.src.length ≤ src.length ∧ (r = some .eilseq → p.src ≠ []) := by
  induction src generalizing state dst dstLeft with
  | nil =>
    simp only [iconv, Except.ok.injEq, Prod.mk.injEq] at h
    simp [← h.1, ← h.2]
  | cons c src ih =>
    simp only [iconv] at h
    split at h
    · simp only [Except.ok.injEq, Prod.mk.injEq] at h
      simp [← h.1]
    · split at h
      · rename_i bytes state' _ hfit
        rcases ha : dst.append bytes with f | dst'
        · simp [ha, bind, Except.bind] at h
        · simp only [ha, bind, Except.bind] at h
          have := ih h
          exact ⟨by simp only [List.length_cons]; omega, this.2⟩
      · simp only [Except.ok.injEq, Prod.mk.injEq] at h
        simp [← h.1]

def iconvUcs2 {σ : Type} (cs : Codeset σ) (repl : UInt16) (p : Progress σ) :
    Except Fault (Progress σ × Option Errno) :=
  if p.src = [] then
    .ok (p, none)
  else
    match _h : iconv cs p.state p.src p.dst p.dstLeft with
    | .error f => .error f
    | .ok (q, r) =>
      if _hr : r = some .eilseq then
        if repl = 0 then
          .ok (q, some .eilseq)
        else
          match iconv cs q.state [repl] q.dst q.dstLeft with
          | .error f => .error f
          | .ok (q', some e) => .ok ({ q' with src := q.src }, some e)
          | .ok (q', none) => iconvUcs2 cs repl { q' with src := q.src.tail }
      else
        .ok (q, r)
termination_by p.src.length
decreasing_by
  have := iconv_src _h
  have := List.length_pos_iff.2 (this.2 _hr)
  simp only [List.length_tail]
  omega

/-- `_vbi_iconv_open`, which calls `malloc` for the `n`-th time. -/
def vbiIconvOpen {σ : Type} (lib : Library σ) (dstCodeset : List UInt8) (n : Nat)
    (dst : Buffer) (dstSize : Nat) : Except Fault (Except Errno (Codeset σ × Buffer)) :=
  if lib.malloc n 16 then
    match lib.iconvOpen dstCodeset with
    | none => return .error .einval
    | some cs =>
      if cs.start.length ≤ dstSize then do
        let dst ← dst.append cs.start
        return .ok (cs, dst)
      else
        return .error .e2big
  else
    return .error .enomem

/-- One turn of the loop of `strndup_iconv_from_ucs2`, which returns nothing where the buffer
was too small. There were `n` calls of `malloc` before. -/
def attempt {σ : Type} (lib : Library σ) (dstCodeset : List UInt8) (units : List UInt16)
    (srcLength : Nat) (repl : UInt16) (n bufferSize : Nat) : Except Fault (Option Result) :=
  if lib.malloc n bufferSize then do
    match ← vbiIconvOpen lib dstCodeset (n + 1) (Buffer.empty bufferSize) bufferSize with
    | .error e => return some ⟨.error e, 0⟩
    | .ok (cs, dst) =>
      let src ← readUnits units (ulong (srcLength * 2) / 2)
      let dstLeft := ulong (bufferSize - dst.stored.length - 4)
      let (p, r) ← iconvUcs2 cs repl ⟨cs.initial, src, dst, dstLeft⟩
      match r with
      | some .e2big => return none
      | some e => return some ⟨.error e, 0⟩
      | none =>
        let outSize := p.dst.stored.length
        let buffer ← p.dst.append [0, 0, 0, 0]
        return some ⟨.ok buffer, outSize⟩
  else
    return some ⟨.error .enomem, 0⟩

/-- The loop of `strndup_iconv_from_ucs2`, unless it takes more than `fuel` turns. -/
def retry {σ : Type} (lib : Library σ) (dstCodeset : List UInt8) (units : List UInt16)
    (srcLength : Nat) (repl : UInt16) : Nat → Nat → Nat → Option (Except Fault Result)
  | 0, _, _ => none
  | fuel + 1, n, bufferSize =>
    let dLeft := if bufferSize > 0 then ulong (bufferSize * 2) else ulong (srcLength * 4)
    match attempt lib dstCodeset units srcLength repl n dLeft with
    | .error f => some (.error f)
    | .ok (some r) => some (.ok r)
    | .ok none => retry lib dstCodeset units srcLength repl fuel (n + 2) dLeft

/-- `"UTF8"` and `"UCS2"`. -/
def utf8Name : List UInt8 := [0x55, 0x54, 0x46, 0x38]
def ucs2Name : List UInt8 := [0x55, 0x43, 0x53, 0x32]

def strndupIconvFromUcs2 {σ : Type} (lib : Library σ) (dstCodeset : Option (List UInt8))
    (src : Source) (replChar : Int) (fuel : Nat) : Option (Except Fault Result) :=
  match dstCodeset with
  | none => some (strndupUtf8Ucs2 lib src)
  | some name =>
    if sameCodeset name utf8Name then
      some (strndupUtf8Ucs2 lib src)
    else if sameCodeset name ucs2Name then
      some (strndupIdentity lib src.units (ulong (src.length * 2)))
    else
      match sourceLength src with
      | .error f => some (.error f)
      | .ok n => retry lib name src.units n (UInt16.ofInt replChar) fuel 0 0

def Source.text (src : Source) : List UInt16 :=
  if src.length < 0 then src.units.takeWhile (· ≠ 0) else src.units.take src.length.toNat

def utf8 (c : Nat) : List Nat :=
  if c < 128 then [c]
  else if c < 2048 then [192 + c / 64, 128 + c % 64]
  else [224 + c / 4096, 128 + c / 64 % 64, 128 + c % 64]

def bytesOf {σ : Type} (cs : Codeset σ) (repl : UInt16) (state : σ) (c : UInt16) :
    Option (List UInt8 × σ) :=
  cs.convert state c <|> if repl = 0 then none else cs.convert state repl

/-- The bytes of the characters up to one which cannot be replaced, and whether there is none. -/
def transcribe {σ : Type} (cs : Codeset σ) (repl : UInt16) : σ → List UInt16 → List UInt8 × Bool
  | _, [] => ([], true)
  | state, c :: src =>
    match bytesOf cs repl state c with
    | none => ([], false)
    | some (bytes, state') =>
      (bytes ++ (transcribe cs repl state' src).1, (transcribe cs repl state' src).2)

inductive Variant where
  | utf8
  | identity
  | iconv (name : List UInt8)

def variant : Option (List UInt8) → Variant
  | none => .utf8
  | some name =>
    if sameCodeset name utf8Name then .utf8
    else if sameCodeset name ucs2Name then .identity
    else .iconv name

def converted {σ : Type} (lib : Library σ) (dstCodeset : Option (List UInt8)) (src : Source)
    (replChar : Int) : Option (List UInt8) :=
  match variant dstCodeset with
  | .utf8 => some ((src.text.flatMap fun c => utf8 c.toNat).map UInt8.ofNat)
  | .identity => some (src.text.flatMap (unitBytes lib.bigEndian))
  | .iconv name => do
    let cs ← lib.iconvOpen name
    let text := transcribe cs (UInt16.ofInt replChar) cs.initial src.text
    if text.2 then some (cs.start ++ text.1) else none

def Exhausted {σ : Type} (lib : Library σ) (limit : Nat) : Prop :=
  ∃ n size, size ≤ limit ∧ lib.malloc n size = false

/-- The result is the converted string with a NUL, unless the string cannot be converted or there
is no memory for twice as much as it may need. -/
def Delivers {σ : Type} (lib : Library σ) (src : Source) (string : Option (List UInt8))
    (r : Result) : Prop :=
  match string, r.buffer with
  | some bytes, .ok b =>
    r.outSize = bytes.length ∧ ∃ nul, 1 ≤ nul ∧ nul ≤ 4 ∧ b.stored = bytes ++ List.replicate nul 0
  | some bytes, .error e =>
    e = .enomem ∧ Exhausted lib (4 * src.text.length + 2 * bytes.length + 16)
  | none, .ok _ => False
  | none, .error _ => True

/-- The function returns, with no access outside, and returns the converted string. -/
def Meets {σ : Type} (lib : Library σ) (dstCodeset : Option (List UInt8)) (src : Source)
    (replChar : Int) : Prop :=
  ∃ fuel r, strndupIconvFromUcs2 lib dstCodeset src replChar fuel = some (.ok r) ∧
    Delivers lib src (converted lib dstCodeset src replChar) r

/-- The kinds of strings, character sets and memory for which it does. -/
def Holds {σ : Type} (lib : Library σ) (dstCodeset : Option (List UInt8)) (src : Source)
    (replChar : Int) : Prop :=
  match variant dstCodeset with
  | .utf8 => True
  | .identity => src.length = -1 → lib.malloc 0 2 = false
  | .iconv name =>
    ∀ cs, lib.iconvOpen name = some cs →
      lib.malloc 0 (4 * src.text.length) = false ∨ lib.malloc 1 16 = false ∨
      cs.start.length + 4 ≤ 4 * src.text.length ∨
      let text := transcribe cs (UInt16.ofInt replChar) cs.initial src.text
      text.2 = false ∧ (4 * src.text.length < cs.start.length ∨
        cs.start.length + text.1.length ≤ 4 * src.text.length)

lemma ulong_natCast {n : Nat} (h : n < 2 ^ 64) : ulong n = n := by
  simp only [ulong]
  omega

lemma strlenUcs2_eq {units : List UInt16} (h : 0 ∈ units) :
    strlenUcs2 units = .ok (units.takeWhile (· ≠ 0)).length := by
  induction units with
  | nil => simp at h
  | cons c units ih =>
    by_cases hc : c = 0
    · simp [strlenUcs2, hc]
    · have : 0 ∈ units := by simpa [Ne.symm hc] using h
      simp [strlenUcs2, hc, ih this, Functor.map, Except.map]

lemma sourceLength_eq (src : Source) : sourceLength src = .ok src.text.length := by
  rcases src.valid with ⟨h0, hle⟩ | ⟨h1, hmem⟩
  · have : ¬ src.length < 0 := by omega
    have : src.length.toNat ≤ src.units.length := by omega
    simp [sourceLength, Source.text, *]
  · have : src.length < 0 := by omega
    simp [sourceLength, Source.text, strlenUcs2_eq hmem, this]

lemma text_prefix_units (src : Source) : src.text <+: src.units := by
  simp only [Source.text]
  split
  · exact List.takeWhile_prefix _
  · exact List.take_prefix _ _

lemma text_length_le (src : Source) : src.text.length ≤ src.units.length :=
  (text_prefix_units src).length_le

lemma take_text (src : Source) : src.units.take src.text.length = src.text :=
  (List.prefix_iff_eq_take.1 (text_prefix_units src)).symm

lemma readUnits_text (src : Source) : readUnits src.units src.text.length = .ok src.text := by
  simp [readUnits, text_length_le, take_text]

lemma flatMap_unitBytes_length (bigEndian : Bool) (units : List UInt16) :
    (units.flatMap (unitBytes bigEndian)).length = 2 * units.length := by
  induction units with
  | nil => simp
  | cons c units ih =>
    have : (unitBytes bigEndian c).length = 2 := by cases bigEndian <;> simp [unitBytes]
    simp only [List.flatMap_cons, List.length_append, List.length_cons, ih, this]
    ring

lemma utf8Bytes_eq {c : Nat} (h : c < 0x10000) : utf8Bytes c = (utf8 c).map UInt8.ofNat := by
  have hand (n : Nat) : n &&& 0x3F = n % 64 := Nat.and_two_pow_sub_one_eq_mod n 6
  have hor (n : Nat) (h : n < 64) : 0x80 ||| n = 128 + n := by
    simpa using (Nat.two_pow_add_eq_or_of_lt (i := 6) h 2).symm
  have hc0 (n : Nat) (h : n < 32) : 0xC0 ||| n = 192 + n := by
    simpa using (Nat.two_pow_add_eq_or_of_lt (i := 5) h 6).symm
  have he0 (n : Nat) (h : n < 16) : 0xE0 ||| n = 224 + n := by
    simpa using (Nat.two_pow_add_eq_or_of_lt (i := 4) h 14).symm
  simp only [utf8Bytes, utf8, hand, Nat.shiftRight_eq_div_pow]
  split
  · simp
  · split
    · rw [hc0 _ (by omega), hor _ (Nat.mod_lt _ (by omega))]
      simp
    · rw [he0 _ (by omega), hor _ (Nat.mod_lt _ (by omega)), hor _ (Nat.mod_lt _ (by omega))]
      simp

lemma utf8Bytes_length_le (c : Nat) : (utf8Bytes c).length ≤ 3 := by
  simp only [utf8Bytes]
  split
  · simp
  · split <;> simp

lemma flatMap_utf8Bytes_length_le (units : List UInt16) :
    (units.flatMap fun c => utf8Bytes c.toNat).length ≤ 3 * units.length := by
  induction units with
  | nil => simp
  | cons c units ih =>
    have := utf8Bytes_length_le c.toNat
    simp only [List.flatMap_cons, List.length_append, List.length_cons]
    omega

lemma flatMap_utf8Bytes (units : List UInt16) :
    units.flatMap (fun c => utf8Bytes c.toNat) =
      (units.flatMap fun c => utf8 c.toNat).map UInt8.ofNat := by
  simp only [List.map_flatMap]
  congr 1
  funext c
  exact utf8Bytes_eq c.toNat_lt

lemma utf8Loop_eq {n : Nat} {units : List UInt16} {b : Buffer} (hn : n ≤ units.length)
    (hfit : b.stored.length + 3 * n ≤ b.size) :
    ∃ b', utf8Loop n units b = .ok b' ∧ b'.size = b.size ∧
      b'.stored = b.stored ++ (units.take n).flatMap (fun c => utf8Bytes c.toNat) := by
  induction n generalizing units b with
  | zero => exact ⟨b, by simp [utf8Loop]⟩
  | succ n ih =>
    cases units with
    | nil => simp at hn
    | cons c units =>
      have hlen := utf8Bytes_length_le c.toNat
      have happ : b.append (utf8Bytes c.toNat) = .ok _ := Buffer.append_fits (by omega)
      obtain ⟨b', hrun, hsize, hstored⟩ := @ih units
        ⟨b.size, b.stored ++ utf8Bytes c.toNat, by simp; omega⟩
        (by simpa using hn) (by simp; omega)
      refine ⟨b', ?_, hsize, ?_⟩
      · simp only [utf8Loop, happ]
        exact hrun
      · simp [hstored]

section
variable {σ : Type} (lib : Library σ) (src : Source)

lemma src_length_lt : src.text.length < 2 ^ 62 := by
  have := text_length_le src
  have := src.object
  omega

lemma strndupUtf8Ucs2_delivers :
    ∃ r, strndupUtf8Ucs2 lib src = .ok r ∧
      Delivers lib src (some ((src.text.flatMap fun c => utf8 c.toNat).map UInt8.ofNat)) r := by
  have hlt := src_length_lt src
  have hulong : ulong (src.text.length * 3 + 1 : Int) = src.text.length * 3 + 1 :=
    ulong_natCast (n := src.text.length * 3 + 1) (by omega)
  simp only [strndupUtf8Ucs2, sourceLength_eq, hulong, bind, Except.bind]
  rcases hmalloc : lib.malloc 0 (src.text.length * 3 + 1)
  · refine ⟨⟨.error .enomem, 0⟩, rfl, rfl, ?_⟩
    exact ⟨0, _, by omega, hmalloc⟩
  · obtain ⟨b, hrun, hsize, hstored⟩ := utf8Loop_eq (text_length_le src)
      (b := Buffer.empty (src.text.length * 3 + 1)) (by simp; omega)
    simp only [Buffer.empty_stored, Buffer.empty_size, take_text, List.nil_append] at hsize hstored
    have hlen := flatMap_utf8Bytes_length_le src.text
    have happ : b.append [0] = .ok _ := Buffer.append_fits (by
      rw [hsize, hstored]
      simp only [List.length_singleton]
      omega)
    simp only [hrun, happ, if_true]
    refine ⟨_, rfl, ?_, 1, by simp, by simp, ?_⟩
    · simp [hstored, flatMap_utf8Bytes]
    · simp [hstored, flatMap_utf8Bytes]

/-- The copy is right except where the length is -1, when two bytes are allocated. -/
lemma strndupIdentity_delivers :
    (∃ r, strndupIdentity lib src.units (ulong (src.length * 2)) = .ok r ∧
      Delivers lib src (some (src.text.flatMap (unitBytes lib.bigEndian))) r) ↔
      (src.length = -1 → lib.malloc 0 2 = false) := by
  have hobject := src.object
  rcases src.valid with ⟨h0, hle⟩ | ⟨h1, -⟩
  · have hneg : ¬ src.length < 0 := by omega
    have htext : src.text = src.units.take src.length.toNat := by simp [Source.text, hneg]
    have hlen : src.text.length = src.length.toNat := by simp [htext]; omega
    have hsize : ulong (src.length * 2) = 2 * src.text.length := by
      simp only [ulong]
      omega
    have halloc : ulong (((2 * src.text.length : Nat) : Int) + 4) = 2 * src.text.length + 4 :=
      ulong_natCast (n := 2 * src.text.length + 4) (by omega)
    have hread : readUnits src.units (2 * src.text.length / 2) = .ok src.text := by
      rw [Nat.mul_div_cancel_left _ (by simp), readUnits_text]
    refine ⟨fun _ h => by omega, fun _ => ?_⟩
    simp only [strndupIdentity, hsize, halloc, hread, bind, Except.bind]
    rcases hmalloc : lib.malloc 0 (2 * src.text.length + 4)
    · refine ⟨⟨.error .enomem, 0⟩, rfl, rfl, ?_⟩
      exact ⟨0, _, by omega, hmalloc⟩
    · have hbytes := flatMap_unitBytes_length lib.bigEndian src.text
      have hdata : (Buffer.empty (2 * src.text.length + 4)).append
          (src.text.flatMap (unitBytes lib.bigEndian)) = .ok _ :=
        Buffer.append_fits (by simp [-List.length_flatMap, hbytes])
      simp only [hdata, if_true]
      rw [Buffer.append_fits (by simp [-List.length_flatMap, hbytes])]
      refine ⟨_, rfl, by simpa using hbytes.symm, 4, by simp, by simp, ?_⟩
      simp [List.replicate]
  · have hsize : ulong (src.length * 2) = 2 ^ 64 - 2 := by simp [h1, ulong]
    have halloc : ulong (((2 ^ 64 - 2 : Nat) : Int) + 4) = 2 := by simp [ulong]
    have hread : readUnits src.units ((2 ^ 64 - 2) / 2) = .error .read := by
      simp only [readUnits]
      rw [if_neg (by omega)]
    rw [hsize]
    simp only [strndupIdentity, halloc, hread]
    rcases hmalloc : lib.malloc 0 2
    · refine ⟨fun _ _ => rfl, fun _ => ⟨⟨.error .enomem, 0⟩, by simp [pure, Except.pure], rfl, ?_⟩⟩
      exact ⟨0, 2, by omega, hmalloc⟩
    · simp [bind, Except.bind, h1]

end

section
variable {σ : Type} (cs : Codeset σ) (repl : UInt16)

/-- `iconv_ucs2` one character after the other. -/
def scan : σ → List UInt16 → Buffer → Nat → Except Fault (Buffer × Option Errno)
  | _, [], dst, _ => .ok (dst, none)
  | state, c :: src, dst, dstLeft =>
    match bytesOf cs repl state c with
    | none => .ok (dst, some .eilseq)
    | some (bytes, state') =>
      if bytes.length ≤ dstLeft then do
        let dst ← dst.append bytes
        scan state' src dst (dstLeft - bytes.length)
      else
        .ok (dst, some .e2big)

/-- The scan goes on where `iconv` stops at an unrepresentable character, else it ends as
`iconv` does. -/
def Continued (state : σ) (src : List UInt16) (dst : Buffer) (dstLeft : Nat) :
    Except Fault (Progress σ × Option Errno) → Prop
  | .error f => scan cs repl state src dst dstLeft = .error f
  | .ok (q, some .eilseq) =>
    scan cs repl state src dst dstLeft = scan cs repl q.state q.src q.dst q.dstLeft ∧
      ∃ c rest, q.src = c :: rest ∧ cs.convert q.state c = none
  | .ok (q, r) => scan cs repl state src dst dstLeft = .ok (q.dst, r)

lemma iconv_continued (state : σ) (src : List UInt16) (dst : Buffer) (dstLeft : Nat) :
    Continued cs repl state src dst dstLeft (iconv cs state src dst dstLeft) := by
  induction src generalizing state dst dstLeft with
  | nil => simp [iconv, Continued, scan]
  | cons c src ih =>
    rcases hc : cs.convert state c with _ | ⟨bytes, state'⟩
    · simp [iconv, hc, Continued]
    · by_cases hfit : bytes.length ≤ dstLeft
      · rcases ha : dst.append bytes with f | dst'
        · simp [iconv, hc, hfit, ha, Continued, scan, bytesOf, bind, Except.bind]
        · have hstep : scan cs repl state (c :: src) dst dstLeft =
              scan cs repl state' src dst' (dstLeft - bytes.length) := by
            simp [scan, bytesOf, hc, hfit, ha, bind, Except.bind]
          have := ih state' dst' (dstLeft - bytes.length)
          simp only [iconv, hc, hfit, ha, if_true, bind, Except.bind]
          simp only [Continued, hstep] at this ⊢
          exact this
      · simp [iconv, hc, hfit, Continued, scan, bytesOf]

/-- `iconv_ucs2` is the scan. -/
lemma iconvUcs2_eq_scan (p : Progress σ) :
    (iconvUcs2 cs repl p).map (fun (q, r) => (q.dst, r)) =
      scan cs repl p.state p.src p.dst p.dstLeft := by
  induction hn : p.src.length using Nat.strong_induction_on generalizing p with
  | _ n ih =>
    rw [iconvUcs2]
    by_cases hnil : p.src = []
    · simp [hnil, scan, Except.map]
    · rw [if_neg hnil]
      have hcont := iconv_continued cs repl p.state p.src p.dst p.dstLeft
      split
      · rename_i f h
        rw [h] at hcont
        exact hcont.symm
      · rename_i q r h
        rw [h] at hcont
        by_cases hr : r = some .eilseq
        · subst hr
          obtain ⟨hscan, c, rest, hsrc, hc⟩ := hcont
          have hlen := (iconv_src h).1
          rw [hscan, dif_pos rfl, hsrc]
          by_cases hrepl : repl = 0
          · simp [hrepl, scan, bytesOf, hc, Except.map]
          · rw [if_neg hrepl]
            rcases hcr : cs.convert q.state repl with _ | ⟨bytes, state'⟩
            · simp [iconv, hcr, scan, bytesOf, hc, Except.map]
            · by_cases hfit : bytes.length ≤ q.dstLeft
              · rcases ha : q.dst.append bytes with f | dst'
                · simp [iconv, hcr, hfit, ha, scan, bytesOf, hc, hrepl, Except.map, bind,
                    Except.bind]
                · have := ih rest.length (by rw [hsrc] at hlen; simp at hlen; omega)
                    ⟨state', rest, dst', q.dstLeft - bytes.length⟩ rfl
                  simpa [iconv, hcr, hfit, ha, scan, bytesOf, hc, hrepl, bind, Except.bind]
                    using this
              · simp [iconv, hcr, hfit, scan, bytesOf, hc, hrepl, Except.map]
        · rw [dif_neg hr]
          rcases r with _ | e
          · exact hcont.symm
          · cases e <;> first | exact hcont.symm | exact absurd rfl hr

lemma bytesOf_length {state : σ} {c : UInt16} {bytes : List UInt8} {state' : σ}
    (h : bytesOf cs repl state c = some (bytes, state')) : bytes.length < 2 ^ 63 := by
  rcases hc : cs.convert state c with _ | out
  · by_cases hrepl : repl = 0
    · simp [bytesOf, hc, hrepl] at h
    · exact cs.convert_lt state repl bytes state' (by simpa [bytesOf, hc, hrepl] using h)
  · exact cs.convert_lt state c bytes state' (by simpa [bytesOf, hc] using h)

/-- The whole text is stored where it fits into the buffer and into the space given. -/
lemma scan_fits {state : σ} {src : List UInt16} {dst : Buffer} {dstLeft : Nat}
    (hleft : (transcribe cs repl state src).1.length ≤ dstLeft)
    (hsize : dst.stored.length + (transcribe cs repl state src).1.length ≤ dst.size) :
    ∃ dst', scan cs repl state src dst dstLeft =
        .ok (dst', if (transcribe cs repl state src).2 then none else some .eilseq) ∧
      dst'.size = dst.size ∧ dst'.stored = dst.stored ++ (transcribe cs repl state src).1 := by
  induction src generalizing state dst dstLeft with
  | nil => exact ⟨dst, by simp [scan, transcribe]⟩
  | cons c src ih =>
    rcases hc : bytesOf cs repl state c with _ | ⟨bytes, state'⟩
    · exact ⟨dst, by simp [scan, transcribe, hc]⟩
    · simp only [transcribe, hc, List.length_append] at hleft hsize ⊢
      have happ : dst.append bytes = .ok _ := Buffer.append_fits (by omega)
      obtain ⟨dst', hrun, hsize', hstored⟩ := @ih state'
        ⟨dst.size, dst.stored ++ bytes, by simp; omega⟩ (dstLeft - bytes.length)
        (by omega) (by simp; omega)
      refine ⟨dst', ?_, hsize', by simp [hstored]⟩
      simp only [scan, hc, happ, bind, Except.bind]
      rw [if_pos (by omega)]
      exact hrun

/-- Where the space given is in the buffer but too small, nothing is stored outside. -/
lemma scan_full {state : σ} {src : List UInt16} {dst : Buffer} {dstLeft : Nat}
    (hinside : dst.stored.length + dstLeft ≤ dst.size)
    (hleft : dstLeft < (transcribe cs repl state src).1.length) :
    ∃ dst', scan cs repl state src dst dstLeft = .ok (dst', some .e2big) := by
  induction src generalizing state dst dstLeft with
  | nil => simp [transcribe] at hleft
  | cons c src ih =>
    rcases hc : bytesOf cs repl state c with _ | ⟨bytes, state'⟩
    · simp [transcribe, hc] at hleft
    · simp only [transcribe, hc, List.length_append] at hleft
      by_cases hfit : bytes.length ≤ dstLeft
      · have happ : dst.append bytes = .ok _ := Buffer.append_fits (by omega)
        obtain ⟨dst', hrun⟩ := @ih state'
          ⟨dst.size, dst.stored ++ bytes, by simp; omega⟩ (dstLeft - bytes.length)
          (by simp; omega) (by omega)
        refine ⟨dst', ?_⟩
        simp only [scan, hc, happ, if_pos hfit, bind, Except.bind]
        exact hrun
      · exact ⟨dst, by simp [scan, hc, hfit]⟩

/-- Where far more space is given than there is, text which does not fit is stored outside. -/
lemma scan_outside {state : σ} {src : List UInt16} {dst : Buffer} {dstLeft : Nat}
    (hgiven : dst.size + 2 ^ 63 ≤ dst.stored.length + dstLeft)
    (hsize : dst.size < dst.stored.length + (transcribe cs repl state src).1.length) :
    scan cs repl state src dst dstLeft = .error .write := by
  induction src generalizing state dst dstLeft with
  | nil =>
    have := dst.inside
    simp [transcribe] at hsize
    omega
  | cons c src ih =>
    have hin := dst.inside
    rcases hc : bytesOf cs repl state c with _ | ⟨bytes, state'⟩
    · simp [transcribe, hc] at hsize
      omega
    · have hlt := bytesOf_length cs repl hc
      simp only [transcribe, hc, List.length_append] at hsize
      simp only [scan, hc, bind, Except.bind]
      rw [if_pos (by omega)]
      by_cases hfit : dst.stored.length + bytes.length ≤ dst.size
      · rw [Buffer.append_fits hfit]
        exact ih (by simp; omega) (by simp; omega)
      · rw [Buffer.append_outside (by omega)]

end

section
variable {σ : Type} (lib : Library σ) (name : List UInt8) (src : Source) (repl : UInt16)

/-- What an attempt makes of the result of `iconv_ucs2`. -/
def finish : Buffer × Option Errno → Except Fault (Option Result)
  | (_, some .e2big) => .ok none
  | (_, some e) => .ok (some ⟨.error e, 0⟩)
  | (dst, none) => (dst.append [0, 0, 0, 0]).map fun b => some ⟨.ok b, dst.stored.length⟩

variable {lib name src repl}

lemma attempt_refused {n size : Nat} (h : lib.malloc n size = false) :
    attempt lib name src.units src.text.length repl n size =
      .ok (some ⟨.error .enomem, 0⟩) := by
  simp [attempt, h, pure, Except.pure]

lemma attempt_unopened {n size : Nat} {e : Errno} (h : lib.malloc n size = true)
    (hopen : vbiIconvOpen lib name (n + 1) (Buffer.empty size) size = .ok (.error e)) :
    attempt lib name src.units src.text.length repl n size = .ok (some ⟨.error e, 0⟩) := by
  simp [attempt, h, hopen, pure, Except.pure, bind, Except.bind]

lemma vbiIconvOpen_opened {n size : Nat} {cs : Codeset σ} (h : lib.malloc n 16 = true)
    (hcs : lib.iconvOpen name = some cs) (hk : cs.start.length ≤ size) :
    vbiIconvOpen lib name n (Buffer.empty size) size =
      .ok (.ok (cs, ⟨size, cs.start, hk⟩)) := by
  have happ : (Buffer.empty size).append cs.start = .ok _ := Buffer.append_fits (by simpa using hk)
  simp [vbiIconvOpen, h, hcs, hk, happ, pure, Except.pure, bind, Except.bind]

lemma attempt_opened {n size : Nat} {cs : Codeset σ} (h : lib.malloc n size = true)
    (hcd : lib.malloc (n + 1) 16 = true) (hcs : lib.iconvOpen name = some cs)
    (hk : cs.start.length ≤ size) :
    attempt lib name src.units src.text.length repl n size =
      scan cs repl cs.initial src.text ⟨size, cs.start, hk⟩ (ulong (size - cs.start.length - 4))
        >>= finish := by
  have hlt := src_length_lt src
  have hread : readUnits src.units (ulong (src.text.length * 2) / 2) = .ok src.text := by
    have : ulong (src.text.length * 2) / 2 = src.text.length := by
      simp only [ulong]
      omega
    rw [this, readUnits_text]
  have hscan := iconvUcs2_eq_scan cs repl
    ⟨cs.initial, src.text, ⟨size, cs.start, hk⟩, ulong (size - cs.start.length - 4)⟩
  simp only [attempt, h, vbiIconvOpen_opened hcd hcs hk, hread, if_true, bind, Except.bind]
  rw [← hscan]
  rcases iconvUcs2 cs repl _ with f | ⟨p, _ | e⟩
  · rfl
  · simp only [Except.map, finish, pure, Except.pure]
  · cases e <;> rfl

/-- An attempt whose buffer has room for the start and the NUL stays inside of it. -/
lemma attempt_room {n size : Nat} {cs : Codeset σ} (h : lib.malloc n size = true)
    (hcd : lib.malloc (n + 1) 16 = true) (hcs : lib.iconvOpen name = some cs)
    (hroom : cs.start.length + 4 ≤ size) :
    let text := transcribe cs repl cs.initial src.text
    if cs.start.length + text.1.length + 4 ≤ size then
      if text.2 then
        ∃ b, attempt lib name src.units src.text.length repl n size =
            .ok (some ⟨.ok b, (cs.start ++ text.1).length⟩) ∧
          b.stored = cs.start ++ text.1 ++ List.replicate 4 0
      else
        attempt lib name src.units src.text.length repl n size =
          .ok (some ⟨.error .eilseq, 0⟩)
    else
      attempt lib name src.units src.text.length repl n size = .ok none := by
  intro text
  have hlt := lib.malloc_lt n size h
  have hleft : ulong (size - cs.start.length - 4) = size - cs.start.length - 4 := by
    simp only [ulong]
    omega
  rw [attempt_opened h hcd hcs (by omega), hleft]
  by_cases hfit : cs.start.length + text.1.length + 4 ≤ size
  · rw [if_pos hfit]
    obtain ⟨dst, hscan, hsize, hstored⟩ := @scan_fits _ cs repl cs.initial
      src.text ⟨size, cs.start, by omega⟩ (size - cs.start.length - 4)
      (by change text.1.length ≤ _; omega)
      (by change cs.start.length + text.1.length ≤ size; omega)
    simp only at hsize hstored
    rw [hscan]
    by_cases hcomplete : text.2 = true
    · have happ : dst.append [0, 0, 0, 0] = .ok _ := Buffer.append_fits (by
        rw [hsize, hstored]
        simp only [List.length_append, List.length_cons, List.length_nil]
        omega)
      rw [if_pos hcomplete, if_pos hcomplete]
      refine ⟨⟨dst.size, dst.stored ++ [0, 0, 0, 0], ?_⟩, ?_, ?_⟩
      · rw [hsize, hstored]
        simp only [List.length_append, List.length_cons, List.length_nil]
        omega
      · simp [bind, Except.bind, finish, happ, Except.map, hstored, text]
      · simp [hstored, List.replicate, text]
    · rw [if_neg hcomplete, if_neg hcomplete]
      rfl
  · rw [if_neg hfit]
    obtain ⟨dst, hscan⟩ := @scan_full _ cs repl cs.initial src.text
      ⟨size, cs.start, by omega⟩ (size - cs.start.length - 4)
      (by simp only; omega) (by change _ < text.1.length; omega)
    rw [hscan]
    rfl

/-- An attempt without such room is told that there is any amount of it. -/
lemma attempt_wrapped {n size : Nat} {cs : Codeset σ} (h : lib.malloc n size = true)
    (hcd : lib.malloc (n + 1) 16 = true) (hcs : lib.iconvOpen name = some cs)
    (hk : cs.start.length ≤ size) (hroom : size < cs.start.length + 4) :
    let text := transcribe cs repl cs.initial src.text
    attempt lib name src.units src.text.length repl n size =
      if cs.start.length + text.1.length ≤ size ∧ text.2 = false then
        .ok (some ⟨.error .eilseq, 0⟩)
      else
        .error .write := by
  intro text
  have hlt := lib.malloc_lt n size h
  have hleft : ulong (size - cs.start.length - 4) = 2 ^ 64 + size - cs.start.length - 4 := by
    simp only [ulong]
    omega
  rw [attempt_opened h hcd hcs hk, hleft]
  by_cases hfit : cs.start.length + text.1.length ≤ size
  · obtain ⟨dst, hscan, hsize, hstored⟩ := @scan_fits _ cs repl cs.initial
      src.text ⟨size, cs.start, hk⟩ (2 ^ 64 + size - cs.start.length - 4)
      (by change text.1.length ≤ _; omega)
      (by change cs.start.length + text.1.length ≤ size; omega)
    simp only at hsize hstored
    rw [hscan]
    by_cases hcomplete : text.2 = true
    · have happ : dst.append [0, 0, 0, 0] = .error .write := Buffer.append_outside (by
        rw [hsize, hstored]
        simp only [List.length_append, List.length_cons, List.length_nil]
        omega)
      rw [if_pos hcomplete, if_neg (by simp [hcomplete])]
      simp [bind, Except.bind, finish, happ, Except.map]
    · rw [if_neg hcomplete, if_pos ⟨hfit, by simpa using hcomplete⟩]
      rfl
  · rw [if_neg (by simp [hfit]), scan_outside cs repl (by simp only; omega)
      (by change size < cs.start.length + text.1.length; omega)]
    rfl

lemma retry_done {fuel n bufferSize size : Nat} {r : Result}
    (hsize : (if bufferSize > 0 then ulong (bufferSize * 2) else
      ulong (src.text.length * 4)) = size)
    (h : attempt lib name src.units src.text.length repl n size = .ok (some r)) :
    retry lib name src.units src.text.length repl (fuel + 1) n bufferSize = some (.ok r) := by
  simp [retry, hsize, h]

/-- Once there is room for the start and the NUL, the loop ends with the converted string, at an
unrepresentable character or without memory. -/
lemma retry_delivers {cs : Codeset σ} (hcs : lib.iconvOpen name = some cs) {n bufferSize size : Nat}
    (hsize : (if bufferSize > 0 then ulong (bufferSize * 2) else
      ulong (src.text.length * 4)) = size)
    (hroom : cs.start.length + 4 ≤ size)
    (hlimit : size ≤ 4 * src.text.length + 2 *
      (cs.start ++ (transcribe cs repl cs.initial src.text).1).length + 16) :
    ∃ fuel r, retry lib name src.units src.text.length repl fuel n bufferSize = some (.ok r) ∧
      Delivers lib src
        (if (transcribe cs repl cs.initial src.text).2 then
          some (cs.start ++ (transcribe cs repl cs.initial src.text).1) else none) r := by
  induction hm : 2 ^ 63 - size using Nat.strong_induction_on generalizing n bufferSize size with
  | _ m ih =>
    have refused (n' size') (hle : size' ≤ 4 * src.text.length + 2 *
        (cs.start ++ (transcribe cs repl cs.initial src.text).1).length + 16)
        (h : lib.malloc n' size' = false) : Delivers lib src
        (if (transcribe cs repl cs.initial src.text).2 then
          some (cs.start ++ (transcribe cs repl cs.initial src.text).1) else none)
        ⟨.error .enomem, 0⟩ := by
      split
      · exact ⟨rfl, n', size', hle, h⟩
      · trivial
    rcases h : lib.malloc n size
    · exact ⟨1, _, retry_done hsize (attempt_refused h), refused n size hlimit h⟩
    rcases hcd : lib.malloc (n + 1) 16
    · have hopen : vbiIconvOpen lib name (n + 1) (Buffer.empty size) size =
          .ok (.error .enomem) := by simp [vbiIconvOpen, hcd, pure, Except.pure]
      exact ⟨1, _, retry_done hsize (attempt_unopened h hopen), refused _ 16 (by omega) hcd⟩
    have hattempt := @attempt_room _ lib name src repl _ _ _ h hcd hcs hroom
    simp only at hattempt
    split at hattempt
    · split at hattempt
      · rename_i hcomplete
        obtain ⟨b, hrun, hstored⟩ := hattempt
        refine ⟨1, _, retry_done hsize hrun, ?_⟩
        rw [if_pos hcomplete]
        exact ⟨rfl, 4, by simp, by simp, hstored⟩
      · rename_i hcomplete
        refine ⟨1, _, retry_done hsize hattempt, ?_⟩
        rw [if_neg hcomplete]
        trivial
    · -- the buffer was too small, and the next one is twice as large
      rename_i hlarge
      have hlt := lib.malloc_lt n size h
      have hnext : (if size > 0 then ulong (size * 2) else ulong (src.text.length * 4)) =
          2 * size := by
        rw [if_pos (by omega)]
        simp only [ulong]
        omega
      obtain ⟨fuel, r, hrun, hdelivers⟩ := ih (2 ^ 63 - 2 * size) (by omega) (n := n + 2) hnext
        (by omega) (by simp only [List.length_append]; omega) rfl
      refine ⟨fuel + 1, r, ?_, hdelivers⟩
      simp only [retry, hsize, hattempt]
      exact hrun

/-- Without the character set there is no attempt. -/
lemma retry_unknown (hcs : lib.iconvOpen name = none) :
    ∃ e, retry lib name src.units src.text.length repl 1 0 0 = some (.ok ⟨.error e, 0⟩) := by
  have attempted : ∃ e, attempt lib name src.units src.text.length repl 0
      (if 0 > 0 then ulong ((0 : Nat) * 2) else ulong (src.text.length * 4)) =
        .ok (some ⟨.error e, 0⟩) := by
    rcases h : lib.malloc 0 (if 0 > 0 then ulong ((0 : Nat) * 2) else ulong (src.text.length * 4))
    · exact ⟨_, attempt_refused h⟩
    · rcases hcd : lib.malloc (0 + 1) 16
      · exact ⟨_, attempt_unopened h (by simp only [vbiIconvOpen, hcd]; rfl)⟩
      · exact ⟨_, attempt_unopened h (by simp only [vbiIconvOpen, hcd, hcs]; rfl)⟩
  obtain ⟨e, he⟩ := attempted
  exact ⟨e, retry_done rfl he⟩

/-- The loop delivers the string just when its first buffer is enough or refused, or the
conversion fails inside of it. -/
lemma retry_delivers_iff {cs : Codeset σ} (hcs : lib.iconvOpen name = some cs) :
    let text := transcribe cs repl cs.initial src.text
    (∃ fuel r, retry lib name src.units src.text.length repl fuel 0 0 = some (.ok r) ∧
      Delivers lib src (if text.2 then some (cs.start ++ text.1) else none) r) ↔
      (lib.malloc 0 (4 * src.text.length) = false ∨ lib.malloc 1 16 = false ∨
        cs.start.length + 4 ≤ 4 * src.text.length ∨
        text.2 = false ∧ (4 * src.text.length < cs.start.length ∨
          cs.start.length + text.1.length ≤ 4 * src.text.length)) := by
  intro text
  have hlt := src_length_lt src
  have hsize : (if 0 > 0 then ulong ((0 : Nat) * 2) else ulong (src.text.length * 4)) =
      4 * src.text.length := by
    simp only [gt_iff_lt, Nat.lt_irrefl, if_false, ulong]
    omega
  rcases h : lib.malloc 0 (4 * src.text.length)
  · refine ⟨fun _ => Or.inl rfl, fun _ => ⟨1, _, retry_done hsize (attempt_refused h), ?_⟩⟩
    split
    · exact ⟨rfl, 0, _, by omega, h⟩
    · trivial
  rcases hcd : lib.malloc 1 16
  · have hopen : vbiIconvOpen lib name (0 + 1) (Buffer.empty (4 * src.text.length))
        (4 * src.text.length) = .ok (.error .enomem) := by
      simp [vbiIconvOpen, hcd, pure, Except.pure]
    refine ⟨fun _ => Or.inr (Or.inl rfl),
      fun _ => ⟨1, _, retry_done hsize (attempt_unopened h hopen), ?_⟩⟩
    split
    · exact ⟨rfl, 1, 16, by omega, hcd⟩
    · trivial
  by_cases hroom : cs.start.length + 4 ≤ 4 * src.text.length
  · refine ⟨fun _ => Or.inr (Or.inr (Or.inl hroom)), fun _ => ?_⟩
    exact retry_delivers hcs hsize hroom (by omega)
  -- the first attempt is the last
  have one {x : Except Fault Result}
      (hx : (attempt lib name src.units src.text.length repl 0 (4 * src.text.length)) =
        x.map some) :
      (∃ fuel r, retry lib name src.units src.text.length repl fuel 0 0 = some (.ok r) ∧
        Delivers lib src (if text.2 then some (cs.start ++ text.1) else none) r) ↔
      ∃ r, x = .ok r ∧
        Delivers lib src (if text.2 then some (cs.start ++ text.1) else none) r := by
    constructor
    · rintro ⟨fuel, r, hrun, hdelivers⟩
      refine ⟨r, ?_, hdelivers⟩
      cases fuel with
      | zero => simp [retry] at hrun
      | succ fuel =>
        simp only [retry, hsize, hx] at hrun
        cases x <;> simp [Except.map] at hrun ⊢
        exact hrun
    · rintro ⟨r, rfl, hdelivers⟩
      exact ⟨1, r, retry_done hsize hx, hdelivers⟩
  by_cases hk : cs.start.length ≤ 4 * src.text.length
  · have hattempt := @attempt_wrapped _ lib name src repl _ _ _ h hcd hcs hk (by omega)
    simp only at hattempt
    by_cases hfail : cs.start.length + text.1.length ≤ 4 * src.text.length ∧ text.2 = false
    · rw [if_pos (by exact hfail)] at hattempt
      rw [one (x := .ok ⟨.error .eilseq, 0⟩) hattempt]
      refine ⟨fun _ => Or.inr (Or.inr (Or.inr ⟨hfail.2, Or.inr hfail.1⟩)), fun _ => ⟨_, rfl, ?_⟩⟩
      simp [hfail.2, Delivers]
    · rw [if_neg (by exact hfail)] at hattempt
      rw [one (x := .error .write) hattempt]
      constructor
      · simp
      · rintro (h' | h' | h' | ⟨h1, h2 | h2⟩)
        · simp at h'
        · simp at h'
        · exact absurd h' hroom
        · omega
        · exact absurd ⟨h2, h1⟩ hfail
  · have hopen : vbiIconvOpen lib name (0 + 1) (Buffer.empty (4 * src.text.length))
        (4 * src.text.length) = .ok (.error .e2big) := by
      simp [vbiIconvOpen, hcd, hcs, pure, Except.pure]
      omega
    rw [one (x := .ok ⟨.error .e2big, 0⟩) (attempt_unopened h hopen)]
    by_cases hcomplete : text.2 = true
    · simp [hcomplete, Delivers, hroom]
    · have : 4 * src.text.length < cs.start.length := by omega
      simp [hcomplete, Delivers, this]

end

/-- A string is converted without an access outside of the source and the buffer, just when the
copy is not told the length -1 and `iconv` has room for the start and the NUL in the first
buffer, unless there is no memory for it or the conversion fails inside of it. -/
theorem strndup_meets_iff {σ : Type} (lib : Library σ) (dstCodeset : Option (List UInt8))
    (src : Source) (replChar : Int) :
    Meets lib dstCodeset src replChar ↔ Holds lib dstCodeset src replChar := by
  have hrun : ∀ fuel, strndupIconvFromUcs2 lib dstCodeset src replChar fuel =
      match variant dstCodeset with
      | .utf8 => some (strndupUtf8Ucs2 lib src)
      | .identity => some (strndupIdentity lib src.units (ulong (src.length * 2)))
      | .iconv name =>
        retry lib name src.units src.text.length (UInt16.ofInt replChar) fuel 0 0 := by
    intro fuel
    cases dstCodeset with
    | none => rfl
    | some name =>
      simp only [strndupIconvFromUcs2, variant, sourceLength_eq]
      split
      · rfl
      · split <;> rfl
  simp only [Meets, Holds, converted, hrun]
  cases variant dstCodeset with
  | utf8 =>
    obtain ⟨r, hr, hdelivers⟩ := strndupUtf8Ucs2_delivers lib src
    exact ⟨fun _ => trivial, fun _ => ⟨0, r, by rw [hr], hdelivers⟩⟩
  | identity =>
    rw [← strndupIdentity_delivers]
    simp
  | iconv name =>
    rcases hcs : lib.iconvOpen name with _ | cs
    · obtain ⟨e, he⟩ := @retry_unknown _ lib _ src
        (UInt16.ofInt replChar) hcs
      refine ⟨fun _ cs h => by simp [hcs] at h, fun _ => ⟨1, _, he, ?_⟩⟩
      simp [hcs, Delivers]
    · simpa [hcs] using @retry_delivers_iff _ lib _ src (UInt16.ofInt replChar) _ hcs

def latin1 : Codeset Unit where
  start := []
  initial := ()
  convert _ c := if c < 256 then some ([UInt8.ofNat c.toNat], ()) else none
  start_lt := by simp
  convert_lt := by
    intro s c bytes s' h
    split at h
    · simp only [Option.some.injEq, Prod.mk.injEq] at h
      simp [← h.1]
    · simp at h

/-- A library with a mebibyte of memory, which knows one character set. -/
def latin1Library : Library Unit where
  bigEndian := false
  malloc _ size := size ≤ 2 ^ 20
  iconvOpen name := if name = [0x4C, 0x31] then some latin1 else none
  malloc_lt := by
    intro n size h
    simp only [decide_eq_true_eq] at h
    omega

/-- `"A"` as a NUL terminated string. -/
def terminatedA : Source := ⟨[0x41, 0], -1, by simp, by simp⟩

/-- `"A"` with the length zero. -/
def emptyA : Source := ⟨[0x41, 0], 0, by simp, by simp⟩

/-- A terminated string is not copied, and an empty one not converted with `iconv`. -/
theorem strndup_outside :
    ¬ Meets latin1Library (some [0x55, 0x43, 0x53, 0x2D, 0x32]) terminatedA 0 ∧
      ¬ Meets latin1Library (some [0x4C, 0x31]) emptyA 0 := by
  constructor
  · rintro ⟨fuel, r, hrun, -⟩
    simp [strndupIconvFromUcs2, sameCodeset, utf8Name, ucs2Name, isDash, strndupIdentity,
      latin1Library, terminatedA, ulong, readUnits, bind, Except.bind] at hrun
  · rintro ⟨fuel, r, hrun, -⟩
    have hsource : sourceLength emptyA = .ok 0 := by simp [sourceLength, emptyA]
    cases fuel with
    | zero =>
      simp [strndupIconvFromUcs2, sameCodeset, utf8Name, ucs2Name, isDash, hsource, retry] at hrun
    | succ fuel =>
      simp [strndupIconvFromUcs2, sameCodeset, utf8Name, ucs2Name, isDash, hsource, retry, attempt,
        vbiIconvOpen, latin1Library, latin1, readUnits, iconvUcs2, Buffer.append, Buffer.empty,
        ulong, bind, Except.bind, pure, Except.pure] at hrun

end StringConversion

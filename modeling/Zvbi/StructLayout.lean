import Mathlib.Algebra.Order.Group.Nat
import Mathlib.Data.List.Basic

/-!
# Layout of structures in memory

Types have a size and an alignment. A structure places its fields one after the other with
padding, a union places all its members at the start. An object is accessed either through a
part of its type, which is inside of it by construction, or at a computed offset, and then
only where the bytes are inside.
-/

namespace StructLayout

structure Layout where
  size : Nat
  align : Nat
  pos : 0 < align
  dvd : align ∣ size

/-- A type of `n + 1` bytes, aligned to its size. -/
def scalar (n : Nat) : Layout := ⟨n + 1, n + 1, Nat.succ_pos n, Nat.dvd_refl _⟩

def Layout.array (t : Layout) (n : Nat) : Layout :=
  ⟨t.size * n, t.align, t.pos, Nat.dvd_mul_right_of_dvd t.dvd n⟩

/-- The first multiple of `align` from `n` on. -/
def alignUp (n align : Nat) : Nat := (n + (align - 1)) / align * align

theorem le_alignUp (n : Nat) {align : Nat} (h : 0 < align) : n ≤ alignUp n align := by
  have hlt : n + (align - 1) < align * ((n + (align - 1)) / align + 1) :=
    Nat.lt_mul_div_succ _ h
  rw [Nat.mul_add, Nat.mul_one, Nat.mul_comm] at hlt
  unfold alignUp
  omega

def maxAlign : List Layout → Nat
  | [] => 1
  | t :: ts => max t.align (maxAlign ts)

theorem maxAlign_pos (ts : List Layout) : 0 < maxAlign ts := by
  induction ts with
  | nil => exact Nat.one_pos
  | cons t ts ih => exact Nat.lt_of_lt_of_le ih (Nat.le_max_right _ _)

/-- The offset of a field, where the fields in front of it start at `start`. -/
def offsetFrom : Nat → List Layout → Nat → Nat
  | start, [], _ => start
  | start, t :: _, 0 => alignUp start t.align
  | start, t :: ts, i + 1 => offsetFrom (alignUp start t.align + t.size) ts i

def offset (ts : List Layout) (i : Nat) : Nat := offsetFrom 0 ts i

def struct (ts : List Layout) : Layout :=
  ⟨alignUp (offset ts ts.length) (maxAlign ts), maxAlign ts, maxAlign_pos ts,
    Nat.dvd_mul_left _ _⟩

def maxSize : List Layout → Nat
  | [] => 0
  | t :: ts => max t.size (maxSize ts)

def union (ts : List Layout) : Layout :=
  ⟨alignUp (maxSize ts) (maxAlign ts), maxAlign ts, maxAlign_pos ts, Nat.dvd_mul_left _ _⟩

theorem le_offsetFrom (ts : List Layout) (start i : Nat) : start ≤ offsetFrom start ts i := by
  induction ts generalizing start i with
  | nil => simp [offsetFrom]
  | cons t ts ih =>
    have hstart := le_alignUp start t.pos
    cases i with
    | zero => exact hstart
    | succ i => exact Nat.le_trans (Nat.le_trans hstart (Nat.le_add_right _ _)) (ih _ i)

/-- A field ends before the structure. -/
theorem offsetFrom_add_size_le (ts : List Layout) (start i : Nat) (h : i < ts.length) :
    offsetFrom start ts i + ts[i].size ≤ offsetFrom start ts ts.length := by
  induction ts generalizing start i with
  | nil => exact absurd h (Nat.not_lt_zero i)
  | cons t ts ih =>
    cases i with
    | zero => exact le_offsetFrom ts _ _
    | succ i => exact ih _ i (Nat.lt_of_succ_lt_succ h)

theorem offset_add_size_le (ts : List Layout) (i : Nat) (h : i < ts.length) :
    offset ts i + ts[i].size ≤ (struct ts).size :=
  Nat.le_trans (offsetFrom_add_size_le ts 0 i h) (le_alignUp _ (maxAlign_pos ts))

theorem size_le_maxSize {t : Layout} {ts : List Layout} (h : t ∈ ts) : t.size ≤ maxSize ts := by
  induction ts with
  | nil => exact absurd h List.not_mem_nil
  | cons u ts ih =>
    rcases List.mem_cons.mp h with rfl | htail
    · exact Nat.le_max_left _ _
    · exact Nat.le_trans (ih htail) (Nat.le_max_right _ _)

theorem size_le_union {t : Layout} {ts : List Layout} (h : t ∈ ts) : t.size ≤ (union ts).size :=
  Nat.le_trans (size_le_maxSize h) (le_alignUp _ (maxAlign_pos ts))

structure Part (t : Layout) where
  off : Nat
  type : Layout
  inside : off + type.size ≤ t.size

def Part.field (ts : List Layout) (i : Nat) (h : i < ts.length) : Part (struct ts) :=
  ⟨offset ts i, ts[i], offset_add_size_le ts i h⟩

def Part.member {ts : List Layout} (t : Layout) (h : t ∈ ts) : Part (union ts) :=
  ⟨0, t, by rw [Nat.zero_add]; exact size_le_union h⟩

def Part.element (t : Layout) (n i : Nat) (h : i < n) : Part (t.array n) :=
  ⟨t.size * i, t, by
    have hle := Nat.mul_le_mul_left t.size (Nat.succ_le_of_lt h)
    rwa [Nat.mul_succ] at hle⟩

def Part.sub {t : Layout} (p : Part t) (off : Nat) (type : Layout)
    (h : off + type.size ≤ p.type.size) : Part t :=
  ⟨p.off + off, type, by have hp := p.inside; omega⟩

def Part.comp {t : Layout} (p : Part t) (q : Part p.type) : Part t := p.sub q.off q.type q.inside

structure Object (t : Layout) where
  byte : Nat → UInt8

section
variable {t : Layout}

def Object.bytes (m : Object t) (off len : Nat) : List UInt8 :=
  (List.range len).map fun i => m.byte (off + i)

def Object.replace (m : Object t) (off len : Nat) (f : Nat → UInt8) : Object t :=
  ⟨fun i => if off ≤ i ∧ i < off + len then f (i - off) else m.byte i⟩

def Object.read (m : Object t) (off len : Nat) : Option (List UInt8) :=
  if off + len ≤ t.size then some (m.bytes off len) else none

def Object.write (m : Object t) (off : Nat) (bytes : List UInt8) : Option (Object t) :=
  if off + bytes.length ≤ t.size then
    some (m.replace off bytes.length fun i => bytes.getD i 0)
  else
    none

def littleEndian : List UInt8 → Nat
  | [] => 0
  | b :: bytes => b.toNat + 256 * littleEndian bytes

def Object.readString (m : Object t) (p : Part t) : Option (List UInt8) :=
  if 0 ∈ m.bytes p.off p.type.size then
    some ((m.bytes p.off p.type.size).takeWhile (· ≠ 0))
  else
    none

def Object.get (m : Object t) (p : Part t) : Nat := littleEndian (m.bytes p.off p.type.size)

def Object.put (m : Object t) (p : Part t) (f : Nat → UInt8) : Object t :=
  m.replace p.off p.type.size f

def Object.set (m : Object t) (p : Part t) (n : Nat) : Object t :=
  m.put p fun i => UInt8.ofNat (n / 256 ^ i)

theorem littleEndian_lt (bytes : List UInt8) : littleEndian bytes < 256 ^ bytes.length := by
  induction bytes with
  | nil => exact Nat.one_pos
  | cons b bytes ih =>
    have hb := b.toNat_lt
    rw [littleEndian, List.length_cons, Nat.pow_succ]
    omega

theorem Object.get_lt (m : Object t) (p : Part t) : m.get p < 256 ^ p.type.size := by
  have hlt := littleEndian_lt (m.bytes p.off p.type.size)
  rwa [Object.bytes, List.length_map, List.length_range] at hlt

theorem Object.bytes_replace_of_disjoint (m : Object t) {off len off' len' : Nat}
    (f : Nat → UInt8) (h : off' + len' ≤ off ∨ off + len ≤ off') :
    (m.replace off len f).bytes off' len' = m.bytes off' len' := by
  refine List.map_congr_left fun i hi => ?_
  have hlt := List.mem_range.mp hi
  have hout : ¬ (off ≤ off' + i ∧ off' + i < off + len) := by omega
  exact if_neg hout

/-- A number stays where other parts are written. -/
theorem Object.get_set_of_disjoint (m : Object t) {p q : Part t} (n : Nat)
    (h : q.off + q.type.size ≤ p.off ∨ p.off + p.type.size ≤ q.off) :
    (m.set p n).get q = m.get q :=
  congrArg littleEndian (m.bytes_replace_of_disjoint (fun i => UInt8.ofNat (n / 256 ^ i)) h)

theorem Object.get_write_of_disjoint {m m' : Object t} {off : Nat} {bytes : List UInt8}
    (hwrite : m.write off bytes = some m') {q : Part t}
    (h : q.off + q.type.size ≤ off ∨ off + bytes.length ≤ q.off) : m'.get q = m.get q := by
  unfold Object.write at hwrite
  split at hwrite
  · obtain rfl := Option.some.inj hwrite
    exact congrArg littleEndian (m.bytes_replace_of_disjoint _ h)
  · exact absurd hwrite (Option.some_ne_none _).symm

theorem Object.byte_set_of_lt (m : Object t) (p : Part t) (n : Nat)
    (h : 0 < p.type.size) : (m.set p n).byte p.off = UInt8.ofNat n := by
  have hin : p.off ≤ p.off ∧ p.off < p.off + p.type.size := ⟨Nat.le_refl _, by omega⟩
  refine (if_pos hin).trans ?_
  rw [Nat.sub_self, Nat.pow_zero, Nat.div_one]

theorem Object.read_isSome (m : Object t) (off len : Nat) :
    (m.read off len).isSome ↔ off + len ≤ t.size := by
  unfold Object.read
  split <;> simp_all

theorem Object.write_isSome (m : Object t) (off : Nat) (bytes : List UInt8) :
    (m.write off bytes).isSome ↔ off + bytes.length ≤ t.size := by
  unfold Object.write
  split <;> simp_all

theorem Object.readString_isSome (m : Object t) (p : Part t) :
    (m.readString p).isSome ↔ 0 ∈ m.bytes p.off p.type.size := by
  unfold Object.readString
  split <;> simp_all

end

section
variable {α β : Type} {o : Option α} {f : α → Option β}

theorem isSome_bind (h : o.isSome) (hf : ∀ a, o = some a → (f a).isSome) :
    (o >>= f).isSome := by
  obtain ⟨a, ha⟩ := Option.isSome_iff_exists.mp h
  rw [ha]
  exact hf a ha

theorem isSome_of_bind (h : (o >>= f).isSome) : ∃ a, o = some a ∧ (f a).isSome := by
  cases o with
  | none => exact absurd h Bool.false_ne_true
  | some a => exact ⟨a, rfl, h⟩

end

end StructLayout

import Zvbi.BcdArithmetic
import Zvbi.PilTime

/-!
# The local time of packet 8/30 format 1

The packet has the modified Julian date and UTC in decimal digits, each stored plus one, and
the offset of the local time in half hours. The digits are not protected: one which is out of
range makes the packet invalid.
-/

namespace TeletextLocalTime
open BcdArithmetic Finset Gregorian PackedDigits PilTime

abbrev Packet := Nat → UInt8

structure Output where
  time : Int
  secondsEast : Int
  errno : Errno
  deriving DecidableEq

/-- The loop of `bcd2bin()`, with the number of digits left. -/
def bcd2binLoop : Nat → BitVec 32 → Nat → Nat → Nat
  | 0, _, _, bin => bin
  | n + 1, bcd, f, bin =>
    bcd2binLoop n (bcd.sshiftRight 4) (f * 10) (bin + (bcd &&& 15#32).toNat * f)

def bcd2bin (bcd : BitVec 32) : Nat := bcd2binLoop 5 bcd 1 0

def dateField (buffer : Packet) : Nat :=
  ((buffer 12).toNat &&& 15) <<< 16 + (buffer 13).toNat <<< 8 + (buffer 14).toNat

def timeField (buffer : Packet) : Nat :=
  (buffer 15).toNat <<< 16 + (buffer 16).toNat <<< 8 + (buffer 17).toNat

def twoDigits (bcd : BitVec 32) (shift : Nat) : Int :=
  (((bcd >>> shift) &&& 15#32).toNat + ((bcd >>> (shift + 4)) &&& 15#32).toNat * 10 : Nat)

def decodeOffset (b : UInt8) : Int :=
  let offset : Int := ((b.toNat &&& 0x3E) * (15 * 60) : Nat)
  if b.toNat &&& 0x40 ≠ 0 then -offset else offset

/-- `vbi_decode_teletext_8301_local_time()`, for a `time_t` between `timeMin` and `timeMax`. -/
def vbiDecodeTeletext8301LocalTime (timeMin timeMax : Int) (out : Output) (buffer : Packet) :
    Bool × Output :=
  let bcd := BitVec.ofNat 32 (dateField buffer) - 0x11111#32
  if PageCache.vbiIsBcd bcd.toNat = false then
    (false, { out with errno := .zero })
  else
    let mjd := bcd2bin bcd
    let bcd := BitVec.ofNat 32 (timeField buffer) - 0x111111#32
    if PageCache.vbiIsBcd bcd.toNat = false then
      (false, { out with errno := .zero })
    else if 60 < twoDigits bcd 0 then
      (false, { out with errno := .zero })
    else if 60 ≤ twoDigits bcd 8 then
      (false, { out with errno := .zero })
    else
      let field : Int := ((bcd >>> 16) &&& 15#32).toNat + (bcd.sshiftRight 20).toInt * 10
      if 24 ≤ field then
        (false, { out with errno := .zero })
      else
        let utc := twoDigits bcd 0 + twoDigits bcd 8 * 60 + field * 3600
        let t := ((mjd : Int) - 40587) * 86400 + utc
        if t < timeMin ∨ timeMax < t then
          (false, { out with errno := .eoverflow })
        else
          (true, { out with time := t, secondsEast := decodeOffset (buffer 11) })

/-- The lowest `n` digits are decimal digits plus one. -/
def Incremented (n x : Nat) : Prop := ∀ i < n, 1 ≤ digit 16 x i ∧ digit 16 x i ≤ 10

def stored (x i : Nat) : Nat := digit 16 x i - 1

def modifiedJulianDate (buffer : Packet) : Nat :=
  ∑ i ∈ range 5, stored (dateField buffer) i * 10 ^ i

def second (buffer : Packet) : Nat :=
  stored (timeField buffer) 0 + stored (timeField buffer) 1 * 10

def minute (buffer : Packet) : Nat :=
  stored (timeField buffer) 2 + stored (timeField buffer) 3 * 10

def hour (buffer : Packet) : Nat :=
  stored (timeField buffer) 4 + stored (timeField buffer) 5 * 10

def instant (buffer : Packet) : Int :=
  ((modifiedJulianDate buffer : Int) - 40587) * 86400 + hour buffer * 3600 +
    minute buffer * 60 + second buffer

def offsetEast (buffer : Packet) : Int :=
  (if (buffer 11).toNat.testBit 6 then -1 else 1) * ((buffer 11).toNat / 2 % 32 : Nat) * 1800

structure Valid (timeMin timeMax : Int) (buffer : Packet) : Prop where
  date : Incremented 5 (dateField buffer)
  time : Incremented 6 (timeField buffer)
  hour_le : hour buffer ≤ 23
  minute_le : minute buffer ≤ 59
  second_le : second buffer ≤ 60
  representable : timeMin ≤ instant buffer ∧ instant buffer ≤ timeMax

/-- The packet was encoded from this date, time and offset in half hours. -/
structure Carries (buffer : Packet) (date : Date) (h m s : Nat) (halfHours : Int) : Prop where
  days : ∃ mjd : Nat, mjd < 100000 ∧ (mjd : Int) = date.number + 40587 ∧
    ∀ i < 5, digit 16 (dateField buffer) i = mjd / 10 ^ i % 10 + 1
  in_range : h ≤ 23 ∧ m ≤ 59 ∧ s ≤ 60
  seconds : digit 16 (timeField buffer) 0 = s % 10 + 1 ∧ digit 16 (timeField buffer) 1 = s / 10 + 1
  minutes : digit 16 (timeField buffer) 2 = m % 10 + 1 ∧ digit 16 (timeField buffer) 3 = m / 10 + 1
  hours : digit 16 (timeField buffer) 4 = h % 10 + 1 ∧ digit 16 (timeField buffer) 5 = h / 10 + 1
  halfHours_eq : (buffer 11).toNat / 2 % 32 = halfHours.natAbs
  sign : halfHours ≠ 0 → ((buffer 11).toNat.testBit 6 = true ↔ halfHours < 0)

def ones (n i : Nat) : Nat := if i < n then 1 else 0

theorem ones_le (n i : Nat) : ones n i ≤ 1 := by
  rw [ones]
  split_ifs
  · exact Nat.le_refl 1
  · exact Nat.zero_le 1

theorem ones_le_digit {n x : Nat} (h : Incremented n x) (i : Nat) : ones n i ≤ digit 16 x i := by
  rw [ones]
  split_ifs with hi
  · exact (h i hi).1
  · exact Nat.zero_le _

variable {i : Nat}

section
variable {x n c : Nat} (hx : x < 2 ^ 32) (hc : ∑ i ∈ range 8, ones n i * 16 ^ i = c)

include hx hc

/-- A difference in seven decimal digits got no borrow. -/
theorem digit_of_isBcd (h : IsBcd (BitVec.ofNat 32 x - BitVec.ofNat 32 c)) (hn : n ≤ 7)
    (hi : i < 8) : digit 16 x i =
      digit 16 (BitVec.ofNat 32 x - BitVec.ofNat 32 c).toNat i + ones n i := by
  generalize hw : BitVec.ofNat 32 x - BitVec.ofNat 32 c = w at h ⊢
  have hlt : ∀ i < 8, digit 16 w.toNat i + ones n i < 16 := by
    intro i hi
    have hone := ones_le n i
    rcases Nat.lt_or_ge i 7 with hseven | hseven
    · have hdigit := h i hseven
      omega
    · have hnone : ones n i = 0 := if_neg (by omega)
      have hdigit := digit_lt (by decide : 0 < 16) w.toNat i
      omega
  have hsum : ∑ i ∈ range 8, (digit 16 w.toNat i + ones n i) * 16 ^ i = w.toNat + c := by
    have hlow : w.toNat % 16 ^ 8 = w.toNat := Nat.mod_eq_of_lt w.isLt
    simp only [Nat.add_mul, sum_add_distrib]
    rw [sum_digit, hlow, hc]
  have hx' : w.toNat + c = x := by
    have hback : BitVec.ofNat 32 x = w + BitVec.ofNat 32 c := by
      rw [← hw, BitVec.sub_add_cancel]
    have hnat := congrArg BitVec.toNat hback
    have hbound := sum_lt hlt
    have hword : (16 : Nat) ^ 8 = 2 ^ 32 := by decide
    rw [hsum, hword] at hbound
    rw [BitVec.toNat_add, BitVec.toNat_ofNat, BitVec.toNat_ofNat, Nat.mod_eq_of_lt hx,
      Nat.add_mod_mod, Nat.mod_eq_of_lt hbound] at hnat
    exact hnat.symm
  rw [← hx', ← hsum]
  exact digit_sum (by decide) hlt hi

/-- Digits which are large enough need no borrow. -/
theorem sub_ones (h : ∀ i < 8, ones n i ≤ digit 16 x i) :
    (BitVec.ofNat 32 x - BitVec.ofNat 32 c).toNat = x - c ∧
      x - c = ∑ i ∈ range 8, (digit 16 x i - ones n i) * 16 ^ i := by
  have hlow : x % 16 ^ 8 = x := Nat.mod_eq_of_lt hx
  have hsum : ∑ i ∈ range 8, (digit 16 x i - ones n i) * 16 ^ i + c = x := by
    rw [← hc, ← sum_add_distrib]
    conv_rhs => rw [← hlow, ← sum_digit 16 x 8]
    refine sum_congr rfl fun i hi => ?_
    rw [← Nat.add_mul, Nat.sub_add_cancel (h i (mem_range.mp hi))]
  have hle : c ≤ x := by omega
  have hc' : c < 2 ^ 32 := Nat.lt_of_le_of_lt hle hx
  constructor
  · rw [BitVec.toNat_sub_of_le]
    · rw [BitVec.toNat_ofNat, BitVec.toNat_ofNat, Nat.mod_eq_of_lt hx, Nat.mod_eq_of_lt hc']
    · rw [BitVec.le_def, BitVec.toNat_ofNat, BitVec.toNat_ofNat, Nat.mod_eq_of_lt hx,
        Nat.mod_eq_of_lt hc']
      exact hle
  · omega

theorem digit_sub (h : ∀ i < 8, ones n i ≤ digit 16 x i) (hi : i < 8) :
    digit 16 (BitVec.ofNat 32 x - BitVec.ofNat 32 c).toNat i = digit 16 x i - ones n i := by
  obtain ⟨hnat, hdiff⟩ := sub_ones hx hc h
  have hlt : ∀ i < 8, digit 16 x i - ones n i < 16 := by
    intro i _
    have hdigit := digit_lt (by decide : 0 < 16) x i
    omega
  rw [hnat, hdiff]
  exact digit_sum (by decide) hlt hi

/-- The word test finds every bad digit. -/
theorem isBcd_sub_iff (hn : n ≤ 7) (hsmall : x < 16 ^ n) :
    IsBcd (BitVec.ofNat 32 x - BitVec.ofNat 32 c) ↔ Incremented n x := by
  constructor
  · intro h i hi
    have hdigit := digit_of_isBcd hx hc h hn (by omega : i < 8)
    have hnine := h i (by omega)
    have hone : ones n i = 1 := if_pos hi
    omega
  · intro h i hi
    have hhigh : ∀ i, n ≤ i → digit 16 x i = 0 := by
      intro i hi
      have hpow : x < 16 ^ i := Nat.lt_of_lt_of_le hsmall (Nat.pow_le_pow_right (by decide) hi)
      rw [digit, Nat.div_eq_of_lt hpow, Nat.zero_mod]
    rw [digit_sub hx hc (fun i _ => ones_le_digit h i) (by omega)]
    rcases Nat.lt_or_ge i n with hin | hin
    · have hten := (h i hin).2
      have hone : ones n i = 1 := if_pos hin
      omega
    · rw [hhigh i hin]
      omega

theorem digit_stored (hn : n ≤ 7) (h : IsBcd (BitVec.ofNat 32 x - BitVec.ofNat 32 c)) (hi : i < n) :
    digit 16 (BitVec.ofNat 32 x - BitVec.ofNat 32 c).toNat i = stored x i := by
  have hdigit := digit_of_isBcd hx hc h hn (by omega : i < 8)
  have hone : ones n i = 1 := if_pos hi
  rw [stored]
  omega

end

/-- The digits of a word in the places of a shift and a mask. -/
theorem toNat_shift_and (w : BitVec 32) (i : Nat) :
    ((w >>> (4 * i)) &&& 15#32).toNat = digit 16 w.toNat i := by
  have hpow : (2 : Nat) ^ (4 * i) = 16 ^ i := by rw [Nat.pow_mul]
  have hmask : ∀ y : Nat, y &&& 15 = y % 16 := fun y => Nat.and_two_pow_sub_one_eq_mod y 4
  simp [BitVec.toNat_and, BitVec.toNat_ushiftRight, Nat.shiftRight_eq_div_pow, hpow, hmask, digit]

theorem toInt_sshiftRight {w : BitVec 32} (hw : w.toNat < 2 ^ 31) (k : Nat) :
    (w.sshiftRight k).toNat = w.toNat / 2 ^ k ∧
      (w.sshiftRight k).toInt = (w.toNat / 2 ^ k : Nat) := by
  have hsign : w.msb = false := by
    rw [BitVec.msb_eq_decide, decide_eq_false]
    omega
  have hle := Nat.div_le_self w.toNat (2 ^ k)
  have hnat : (w.sshiftRight k).toNat = w.toNat / 2 ^ k := by
    rw [BitVec.sshiftRight_eq_of_msb_false hsign, BitVec.toNat_ushiftRight,
      Nat.shiftRight_eq_div_pow]
  refine ⟨hnat, ?_⟩
  rw [BitVec.toInt_eq_toNat_of_lt (by omega), hnat]

theorem bcd2binLoop_eq (n : Nat) {bcd : BitVec 32} (hbcd : bcd.toNat < 2 ^ 31) (f bin : Nat) :
    bcd2binLoop n bcd f bin = bin + f * ∑ i ∈ range n, digit 16 bcd.toNat i * 10 ^ i := by
  induction n generalizing bcd f bin with
  | zero => rw [bcd2binLoop, sum_range_zero, Nat.mul_zero, Nat.add_zero]
  | succ n ih =>
    obtain ⟨hnat, -⟩ := toInt_sshiftRight hbcd 4
    have hlow := toNat_shift_and bcd 0
    have hhigh : ∀ i, digit 16 (bcd.toNat / 2 ^ 4) i = digit 16 bcd.toNat (i + 1) := by
      intro i
      have hpow : 2 ^ 4 * 16 ^ i = 16 ^ (i + 1) := by
        rw [Nat.pow_succ 16 i]
        exact Nat.mul_comm _ _
      rw [digit, digit, Nat.div_div_eq_div_mul, hpow]
    have hle := Nat.div_le_self bcd.toNat (2 ^ 4)
    rw [bcd2binLoop, ih (by omega), hnat, sum_range_succ']
    simp only [hhigh]
    have hdigit : (bcd &&& 15#32).toNat = digit 16 bcd.toNat 0 := by simpa using hlow
    have hshift : f * 10 * ∑ i ∈ range n, digit 16 bcd.toNat (i + 1) * 10 ^ i =
        f * ∑ i ∈ range n, digit 16 bcd.toNat (i + 1) * 10 ^ (i + 1) := by
      rw [mul_sum, mul_sum]
      refine sum_congr rfl fun i _ => ?_
      ring
    rw [hdigit, hshift]
    ring

theorem and_nibble (x : Nat) : x &&& 15 = x % 16 := Nat.and_two_pow_sub_one_eq_mod x 4

theorem dateField_lt (buffer : Packet) : dateField buffer < 16 ^ 5 := by
  have h13 := (buffer 13).toNat_lt
  have h14 := (buffer 14).toNat_lt
  rw [dateField, and_nibble, Nat.shiftLeft_eq, Nat.shiftLeft_eq]
  omega

theorem timeField_lt (buffer : Packet) : timeField buffer < 16 ^ 6 := by
  have h15 := (buffer 15).toNat_lt
  have h16 := (buffer 16).toNat_lt
  have h17 := (buffer 17).toNat_lt
  rw [timeField, Nat.shiftLeft_eq, Nat.shiftLeft_eq]
  omega

section
variable (buffer : Packet)

def dateWord : BitVec 32 := BitVec.ofNat 32 (dateField buffer) - 0x11111#32
def timeWord : BitVec 32 := BitVec.ofNat 32 (timeField buffer) - 0x111111#32

theorem sum_ones : ∑ i ∈ range 8, ones 5 i * 16 ^ i = 0x11111 ∧
    ∑ i ∈ range 8, ones 6 i * 16 ^ i = 0x111111 := by
  decide +kernel

theorem isBcd_dateWord : PageCache.vbiIsBcd (dateWord buffer).toNat = true ↔
    Incremented 5 (dateField buffer) := by
  have hfield := dateField_lt buffer
  rw [vbiIsBcd_iff, dateWord]
  exact isBcd_sub_iff (by omega) sum_ones.1 (by decide) hfield

theorem isBcd_timeWord : PageCache.vbiIsBcd (timeWord buffer).toNat = true ↔
    Incremented 6 (timeField buffer) := by
  have hfield := timeField_lt buffer
  rw [vbiIsBcd_iff, timeWord]
  exact isBcd_sub_iff (by omega) sum_ones.2 (by decide) hfield

variable {buffer}

theorem digit_dateWord (h : Incremented 5 (dateField buffer)) (hi : i < 5) :
    digit 16 (dateWord buffer).toNat i = stored (dateField buffer) i := by
  have hfield := dateField_lt buffer
  have hbcd := (vbiIsBcd_iff _).mp ((isBcd_dateWord buffer).mpr h)
  exact digit_stored (by omega) sum_ones.1 (by decide) hbcd hi

theorem digit_timeWord (h : Incremented 6 (timeField buffer)) (hi : i < 6) :
    digit 16 (timeWord buffer).toNat i = stored (timeField buffer) i := by
  have hfield := timeField_lt buffer
  have hbcd := (vbiIsBcd_iff _).mp ((isBcd_timeWord buffer).mpr h)
  exact digit_stored (by omega) sum_ones.2 (by decide) hbcd hi

theorem dateWord_lt (h : Incremented 5 (dateField buffer)) : (dateWord buffer).toNat < 16 ^ 5 := by
  have hfield := dateField_lt buffer
  obtain ⟨hnat, -⟩ := @sub_ones (dateField buffer) 5 0x11111 (by omega) sum_ones.1
    fun i _ => ones_le_digit h i
  rw [dateWord, hnat]
  omega

theorem timeWord_lt (h : Incremented 6 (timeField buffer)) : (timeWord buffer).toNat < 16 ^ 6 := by
  have hfield := timeField_lt buffer
  obtain ⟨hnat, -⟩ := @sub_ones (timeField buffer) 6 0x111111 (by omega) sum_ones.2
    fun i _ => ones_le_digit h i
  rw [timeWord, hnat]
  omega

theorem bcd2bin_dateWord (h : Incremented 5 (dateField buffer)) :
    bcd2bin (dateWord buffer) = modifiedJulianDate buffer := by
  have hlt := dateWord_lt h
  rw [bcd2bin, bcd2binLoop_eq 5 (by omega), Nat.zero_add, Nat.one_mul, modifiedJulianDate]
  exact sum_congr rfl fun i hi => by rw [digit_dateWord h (mem_range.mp hi)]

theorem twoDigits_second (h : Incremented 6 (timeField buffer)) :
    twoDigits (timeWord buffer) 0 = second buffer := by
  have h0 := toNat_shift_and (timeWord buffer) 0
  have h1 := toNat_shift_and (timeWord buffer) 1
  rw [digit_timeWord h (by decide)] at h0 h1
  rw [twoDigits, h0, h1, second]

theorem twoDigits_minute (h : Incremented 6 (timeField buffer)) :
    twoDigits (timeWord buffer) 8 = minute buffer := by
  have h2 := toNat_shift_and (timeWord buffer) 2
  have h3 := toNat_shift_and (timeWord buffer) 3
  rw [digit_timeWord h (by decide)] at h2 h3
  rw [twoDigits, h2, h3, minute]

theorem hour_eq (h : Incremented 6 (timeField buffer)) :
    (((timeWord buffer >>> 16) &&& 15#32).toNat : Int) +
      ((timeWord buffer).sshiftRight 20).toInt * 10 = hour buffer := by
  have hlt := timeWord_lt h
  have h4 := toNat_shift_and (timeWord buffer) 4
  have h5 := digit_timeWord h (by decide : 5 < 6)
  obtain ⟨-, hshift⟩ := toInt_sshiftRight (by omega : (timeWord buffer).toNat < 2 ^ 31) 20
  have hhigh : (timeWord buffer).toNat / 2 ^ 20 = digit 16 (timeWord buffer).toNat 5 := by
    have hpow : (2 : Nat) ^ 20 = 16 ^ 5 := by decide
    have hlow : (timeWord buffer).toNat / 16 ^ 5 < 16 := Nat.div_lt_of_lt_mul hlt
    rw [digit, hpow, Nat.mod_eq_of_lt hlow]
  rw [digit_timeWord h (by decide)] at h4
  rw [hshift, hhigh, h4, h5, hour]
  push_cast
  rfl

theorem decodeOffset_eq (buffer : Packet) : decodeOffset (buffer 11) = offsetEast buffer := by
  have hbits : ∀ n < 256, n &&& 0x3E = 2 * (n / 2 % 32) ∧
      (n &&& 0x40 ≠ 0 ↔ n.testBit 6 = true) := by
    decide +kernel
  obtain ⟨hoffset, hsign⟩ := hbits (buffer 11).toNat (buffer 11).toNat_lt
  rw [decodeOffset, hoffset, offsetEast]
  simp only [hsign]
  split_ifs
  all_goals
    push_cast
    ring

end

/-- A valid packet sets both outputs, and an invalid one changes neither. -/
theorem decode_eq (timeMin timeMax : Int) (out : Output) (buffer : Packet) :
    (Valid timeMin timeMax buffer ∧
      vbiDecodeTeletext8301LocalTime timeMin timeMax out buffer =
        (true, { out with time := instant buffer, secondsEast := offsetEast buffer })) ∨
      (¬ Valid timeMin timeMax buffer ∧ ∃ errno,
        vbiDecodeTeletext8301LocalTime timeMin timeMax out buffer =
          (false, { out with errno := errno })) := by
  rw [vbiDecodeTeletext8301LocalTime, ← dateWord, ← timeWord]
  by_cases hdate : Incremented 5 (dateField buffer)
  swap
  · refine Or.inr ⟨fun h => hdate h.date, .zero, if_pos ?_⟩
    rwa [← Bool.not_eq_true, isBcd_dateWord]
  have hdateWord := (isBcd_dateWord buffer).mpr hdate
  by_cases htime : Incremented 6 (timeField buffer)
  swap
  · refine Or.inr ⟨fun h => htime h.time, .zero, ?_⟩
    have htimeWord : PageCache.vbiIsBcd (timeWord buffer).toNat = false := by
      rwa [← Bool.not_eq_true, isBcd_timeWord]
    simp [hdateWord, htimeWord]
  have htimeWord := (isBcd_timeWord buffer).mpr htime
  simp only [hdateWord, htimeWord, twoDigits_second htime, twoDigits_minute htime,
    hour_eq htime, bcd2bin_dateWord hdate, decodeOffset_eq, Bool.true_eq_false, if_false]
  split_ifs with hsecond hminute hhour hrange
  · exact Or.inr ⟨fun h => by have := h.second_le; omega, _, rfl⟩
  · exact Or.inr ⟨fun h => by have := h.minute_le; omega, _, rfl⟩
  · exact Or.inr ⟨fun h => by have := h.hour_le; omega, _, rfl⟩
  · refine Or.inr ⟨fun h => ?_, _, rfl⟩
    have hboth := h.representable
    rw [instant] at hboth
    omega
  · have hinstant : ((modifiedJulianDate buffer : Int) - 40587) * 86400 +
        ((second buffer : Int) + minute buffer * 60 + hour buffer * 3600) = instant buffer := by
      rw [instant]
      ring
    rw [hinstant] at hrange ⊢
    refine Or.inl ⟨⟨hdate, htime, by omega, by omega, by omega, by omega⟩, rfl⟩

/-- What the encoder put into a packet is found there. -/
theorem Carries.decoded {buffer : Packet} {date : Date} {h m s : Nat} {halfHours : Int}
    (hcarries : Carries buffer date h m s halfHours) :
    (Incremented 5 (dateField buffer) ∧ (modifiedJulianDate buffer : Int) = date.number + 40587) ∧
      Incremented 6 (timeField buffer) ∧ hour buffer = h ∧ minute buffer = m ∧
      second buffer = s ∧ offsetEast buffer = halfHours * 1800 := by
  obtain ⟨⟨mjd, hmjd, hdate, hdigits⟩, ⟨hh, hm, hs⟩, ⟨hs0, hs1⟩, ⟨hm0, hm1⟩, ⟨hh0, hh1⟩, hoffset,
    hsign⟩ := hcarries
  refine ⟨⟨?_, ?_⟩, ?_, ?_, ?_, ?_, ?_⟩
  · intro i hi
    rw [hdigits i hi]
    omega
  · have hsum := sum_digit 10 mjd 5
    have hmod : mjd % 10 ^ 5 = mjd := Nat.mod_eq_of_lt hmjd
    rw [hmod] at hsum
    rw [← hdate, modifiedJulianDate, Nat.cast_inj]
    refine Eq.trans (sum_congr rfl fun i hi => ?_) hsum
    rw [stored, hdigits i (mem_range.mp hi), Nat.add_sub_cancel, digit]
  · intro i hi
    interval_cases i
    all_goals omega
  · rw [hour, stored, stored]
    omega
  · rw [minute, stored, stored]
    omega
  · rw [second, stored, stored]
    omega
  · rw [offsetEast, hoffset]
    rcases Int.lt_trichotomy halfHours 0 with hneg | rfl | hpos
    · rw [if_pos ((hsign hneg.ne).mpr hneg)]
      omega
    · simp
    · rw [if_neg fun h => absurd ((hsign hpos.ne').mp h) (Int.not_lt.mpr hpos.le)]
      omega

/-- The function succeeds on the valid packets. Then the outputs are the date and time and the
offset which the packet was encoded from, else they are as before. -/
theorem local_time_correct (timeMin timeMax : Int) (out : Output) (buffer : Packet) :
    let decoded := vbiDecodeTeletext8301LocalTime timeMin timeMax out buffer
    (decoded.1 = true ↔ Valid timeMin timeMax buffer) ∧
      (decoded.1 = true → decoded.2.time = instant buffer ∧
        decoded.2.secondsEast = offsetEast buffer) ∧
      (decoded.1 = false → decoded.2.time = out.time ∧
        decoded.2.secondsEast = out.secondsEast) ∧
      ∀ date h m s halfHours, Carries buffer date h m s halfHours →
        timeMin ≤ date.number * 86400 + h * 3600 + m * 60 + s →
        date.number * 86400 + h * 3600 + m * 60 + s ≤ timeMax →
        decoded = (true, { out with
          time := date.number * 86400 + h * 3600 + m * 60 + s
          secondsEast := halfHours * 1800 }) := by
  intro decoded
  rcases decode_eq timeMin timeMax out buffer with ⟨hvalid, hdecoded⟩ | ⟨hinvalid, errno, hdecoded⟩
  · have hresult : decoded = _ := hdecoded
    refine ⟨iff_of_true (by rw [hresult]) hvalid, fun _ => by simp [hresult],
      fun h => absurd h (by simp [hresult]), ?_⟩
    intro date h m s halfHours hcarries _ _
    obtain ⟨⟨-, hmjd⟩, -, hh, hm, hs, hoffset⟩ := hcarries.decoded
    rw [hresult, instant, hmjd, hh, hm, hs, hoffset, Int.add_sub_cancel]
  · have hresult : decoded = _ := hdecoded
    refine ⟨iff_of_false (by simp [hresult]) hinvalid, fun h => absurd h (by simp [hresult]),
      fun _ => by simp [hresult], ?_⟩
    intro date h m s halfHours hcarries hlow hhigh
    obtain ⟨⟨hdate, hmjd⟩, htime, hh, hm, hs, -⟩ := hcarries.decoded
    obtain ⟨hh', hm', hs'⟩ := hcarries.in_range
    refine absurd ⟨hdate, htime, by omega, by omega, by omega, ?_⟩ hinvalid
    rw [instant, hmjd, hh, hm, hs, Int.add_sub_cancel]
    exact ⟨hlow, hhigh⟩

example : Date.ofNumber (0 - 40587) = ⟨1858, 10, 17, by decide, by decide, by decide⟩ := by
  decide +kernel

end TeletextLocalTime

import Zvbi.TeletextLop

/-!
# The comparison of page headers

Columns 8 to 31 of two headers are compared without the page number, which is found by its
digits. The comparison is given up if the number is not shown or a character is damaged.
-/

namespace HeaderComparison
open Hamming TeletextLop

def Shown (digits : UInt8 × UInt8 × UInt8) (cur : Nat → UInt8) (n : Nat) : Prop :=
  (cur n, cur (n + 1), cur (n + 2)) = digits

instance (digits : UInt8 × UInt8 × UInt8) (cur : Nat → UInt8) (n : Nat) :
    Decidable (Shown digits cur n) :=
  inferInstanceAs (Decidable (_ = _))

/-- The characters of a column have correct parity in both headers. -/
def Undamaged (cur ref : Nat → UInt8) (k : Nat) : Prop :=
  0 ≤ vbiUnpar8 (cur k) ∧ 0 ≤ vbiUnpar8 (ref k)

variable {columns : Nat → Prop} {i n : Nat}

variable {err neq : Bool} {r : Nat × Bool × Bool}

section
variable (digits : UInt8 × UInt8 × UInt8) (cur ref : Nat → UInt8)

structure Found (columns : Nat → Prop) (err neq : Bool) (r : Nat × Bool × Bool) : Prop where
  err : r.2.1 = true ↔ err = true ∨ ∃ k, k < 32 ∧ columns k ∧ ¬ Undamaged cur ref k
  neq : r.2.2 = true ↔ neq = true ∨ ∃ k, k < 32 ∧ columns k ∧ cur k ≠ ref k

theorem Found.congr {columns' : Nat → Prop} (h : ∀ k, columns k ↔ columns' k)
    (hr : Found cur ref columns err neq r) : Found cur ref columns' err neq r := by
  have hsame : columns = columns' := funext fun k => propext (h k)
  rw [← hsame]
  exact hr

theorem found_none (h : ∀ k, k < 32 → ¬ columns k) (j : Nat) (err neq : Bool) :
    Found cur ref columns err neq (j, err, neq) := by
  refine ⟨(or_iff_left ?_).symm, (or_iff_left ?_).symm⟩
  · rintro ⟨k, hk, hcolumn, -⟩
    exact h k hk hcolumn
  · rintro ⟨k, hk, hcolumn, -⟩
    exact h k hk hcolumn

theorem Found.column (hi : i < 32)
    (h : Found cur ref columns (err || vbiUnpar8 (cur i) < 0 || vbiUnpar8 (ref i) < 0)
      (neq || cur i ≠ ref i) r) :
    Found cur ref (fun k => k = i ∨ columns k) err neq r := by
  have hdamaged : ¬ Undamaged cur ref i ↔ vbiUnpar8 (cur i) < 0 ∨ vbiUnpar8 (ref i) < 0 := by
    rw [Undamaged, not_and_or, Int.not_le, Int.not_le]
  have herr : (err || vbiUnpar8 (cur i) < 0 || vbiUnpar8 (ref i) < 0) = true ↔
      err = true ∨ ¬ Undamaged cur ref i := by
    rw [hdamaged, Bool.or_eq_true, Bool.or_eq_true, decide_eq_true_iff, decide_eq_true_iff,
      or_assoc]
  constructor
  · rw [h.err, herr, or_assoc]
    apply or_congr_right
    constructor
    · rintro (hbad | ⟨k, hk, hcolumn, hbad⟩)
      · exact ⟨i, hi, Or.inl rfl, hbad⟩
      · exact ⟨k, hk, Or.inr hcolumn, hbad⟩
    · rintro ⟨k, hk, rfl | hcolumn, hbad⟩
      · exact Or.inl hbad
      · exact Or.inr ⟨k, hk, hcolumn, hbad⟩
  · rw [h.neq, Bool.or_eq_true, decide_eq_true_iff, or_assoc]
    apply or_congr_right
    constructor
    · rintro (hbad | ⟨k, hk, hcolumn, hbad⟩)
      · exact ⟨i, hi, Or.inl rfl, hbad⟩
      · exact ⟨k, hk, Or.inr hcolumn, hbad⟩
    · rintro ⟨k, hk, rfl | hcolumn, hbad⟩
      · exact Or.inl hbad
      · exact Or.inr ⟨k, hk, hcolumn, hbad⟩

/-- Behind the page number all columns are compared. -/
theorem compareHeaders_rest (fuel : Nat) {j : Nat} (hfuel : 32 ≤ i + fuel) (hj : j ≤ i)
    (err neq : Bool) :
    (compareHeaders digits cur ref fuel i j err neq).1 = j ∧
      Found cur ref (fun k => i ≤ k) err neq (compareHeaders digits cur ref fuel i j err neq) := by
  induction fuel generalizing i err neq with
  | zero => exact ⟨rfl, found_none cur ref (fun k hk hik => by omega) j err neq⟩
  | succ fuel ih =>
    rw [compareHeaders]
    by_cases hi : i < 32
    · have hlate : ¬ (i < j ∧ (cur i, cur (i + 1), cur (i + 2)) = digits) := fun h => by omega
      rw [if_pos hi, if_neg hlate]
      obtain ⟨hpos, hfound⟩ := ih (i := i + 1) (by omega) (by omega)
        (err || vbiUnpar8 (cur i) < 0 || vbiUnpar8 (ref i) < 0) (neq || cur i ≠ ref i)
      exact ⟨hpos, (hfound.column cur ref hi).congr cur ref fun k => by omega⟩
    · rw [if_neg hi]
      exact ⟨rfl, found_none cur ref (fun k hk hik => by omega) j err neq⟩

/-- The page number is found at the first column which shows it. -/
theorem compareHeaders_shown (fuel : Nat) (hfuel : 32 ≤ i + fuel) (hin : i ≤ n) (hn : n < 29)
    (hshown : Shown digits cur n) (hfirst : ∀ k, i ≤ k → k < n → ¬ Shown digits cur k)
    (err neq : Bool) :
    (compareHeaders digits cur ref fuel i 29 err neq).1 = n ∧
      Found cur ref (fun k => i ≤ k ∧ (k < n ∨ n + 3 < k)) err neq
        (compareHeaders digits cur ref fuel i 29 err neq) := by
  induction fuel generalizing i err neq with
  | zero => omega
  | succ fuel ih =>
    rw [compareHeaders, if_pos (by omega)]
    by_cases heq : i = n
    · subst heq
      rw [if_pos ⟨hn, hshown⟩]
      obtain ⟨hpos, hfound⟩ := compareHeaders_rest digits cur ref fuel (i := i + 4)
        (j := i) (by omega) (by omega) err neq
      exact ⟨hpos, hfound.congr cur ref fun k => by omega⟩
    · have hnot : ¬ (i < 29 ∧ (cur i, cur (i + 1), cur (i + 2)) = digits) :=
        fun h => hfirst i (Nat.le_refl i) (by omega) h.2
      rw [if_neg hnot]
      obtain ⟨hpos, hfound⟩ := ih (i := i + 1) (by omega) (by omega)
        (fun k hk => hfirst k (by omega))
        (err || vbiUnpar8 (cur i) < 0 || vbiUnpar8 (ref i) < 0) (neq || cur i ≠ ref i)
      exact ⟨hpos, (hfound.column cur ref (by omega)).congr cur ref fun k => by omega⟩

/-- Without the page number the loop keeps its bound. -/
theorem compareHeaders_hidden (fuel : Nat) (hhidden : ∀ k, i ≤ k → k < 29 → ¬ Shown digits cur k)
    (err neq : Bool) : (compareHeaders digits cur ref fuel i 29 err neq).1 = 29 := by
  induction fuel generalizing i err neq with
  | zero => rfl
  | succ fuel ih =>
    rw [compareHeaders]
    by_cases hi : i < 32
    · have hnot : ¬ (i < 29 ∧ (cur i, cur (i + 1), cur (i + 2)) = digits) :=
        fun h => hhidden i (Nat.le_refl i) h.1 h.2
      rw [if_pos hi, if_neg hnot]
      exact ih (fun k hk => hhidden k (by omega)) _ _
    · rw [if_neg hi]

end

/-- The page number is shown first at a column where it can be found. -/
structure FirstShown (pgno : Int) (cur : Nat → UInt8) (n : Nat) : Prop where
  lower : 8 ≤ n
  upper : n ≤ 28
  shown : Shown (pageDigits pgno) cur n
  first : ∀ k, 8 ≤ k → k < n → ¬ Shown (pageDigits pgno) cur k

theorem shown_cases (pgno : Int) (cur : Nat → UInt8) :
    (∃ n, FirstShown pgno cur n) ∨ ∀ k, 8 ≤ k → k < 29 → ¬ Shown (pageDigits pgno) cur k := by
  have hleast : ∀ m, (∃ n, n < m ∧ FirstShown pgno cur n) ∨
      ∀ k, 8 ≤ k → k < 29 → k < m → ¬ Shown (pageDigits pgno) cur k := by
    intro m
    induction m with
    | zero => exact Or.inr fun k _ _ hk => absurd hk (Nat.not_lt_zero k)
    | succ m ih =>
      rcases ih with ⟨n, hn, hfirst⟩ | hnone
      · exact Or.inl ⟨n, by omega, hfirst⟩
      · by_cases hm : 8 ≤ m ∧ m < 29 ∧ Shown (pageDigits pgno) cur m
        · exact Or.inl ⟨m, Nat.lt_succ_self m, hm.1, by omega, hm.2.2,
            fun k hk hkm => hnone k hk (by omega) hkm⟩
        · right
          intro k hk hk29 hkm hshown
          rcases Nat.lt_succ_iff_lt_or_eq.mp hkm with hlt | rfl
          · exact hnone k hk hk29 hlt hshown
          · exact hm ⟨hk, hk29, hshown⟩
  rcases hleast 29 with ⟨n, -, hn⟩ | hnone
  · exact Or.inl ⟨n, hn⟩
  · exact Or.inr fun k hk hk29 => hnone k hk hk29 hk29

section
variable {pgno : Int} {cur ref : Nat → UInt8}

def Compares (n k : Nat) : Prop := 8 ≤ k ∧ (k < n ∨ n + 3 < k)

theorem sameHeader_shown (ref : Nat → UInt8) (h : FirstShown pgno cur n) :
    ∃ r, (r.1 = n ∧ Found cur ref (Compares n) false false r) ∧
      sameHeader pgno cur ref =
        if r.2.1 = true then (.useless, -1)
        else if r.2.2 = false then (.same, (n : Int))
        else if ((ref 64).toNat * 256 + (ref 65).toNat) &&& 0x7F7F = 0x3233 ∧
            ((cur 64).toNat * 256 + (cur 65).toNat) &&& 0x7F7F = 0x3030 then
          (.newDay, (n : Int))
        else (.different, (n : Int)) := by
  have hupper := h.upper
  obtain ⟨hpos, hfound⟩ := compareHeaders_shown (pageDigits pgno) cur ref 24 (by omega)
    h.lower (by omega) h.shown h.first false false
  refine ⟨_, ⟨hpos, hfound⟩, ?_⟩
  have hbound : ¬ 29 ≤ n := by omega
  rw [sameHeader, hpos]
  simp only [hbound, or_false]

theorem sameHeader_hidden (h : ∀ k, 8 ≤ k → k < 29 → ¬ Shown (pageDigits pgno) cur k) :
    sameHeader pgno cur ref = (.useless, -1) := by
  have hpos := compareHeaders_hidden (pageDigits pgno) cur ref 24 h false false
  rw [sameHeader, hpos, if_pos (Or.inr (Nat.le_refl 29))]

theorem sameHeader_same_iff (j : Int) :
    sameHeader pgno cur ref = (.same, j) ↔
      ∃ n : Nat, j = n ∧ FirstShown pgno cur n ∧
        ∀ k, k < 32 → Compares n k → Undamaged cur ref k ∧ cur k = ref k := by
  constructor
  · intro hsame
    rcases shown_cases pgno cur with ⟨n, hn⟩ | hhidden
    · obtain ⟨r, ⟨-, hfound⟩, hresult⟩ := sameHeader_shown ref hn
      rw [hresult] at hsame
      by_cases herr : r.2.1 = true
      · rw [if_pos herr] at hsame
        cases hsame
      · rw [if_neg herr] at hsame
        by_cases hneq : r.2.2 = false
        · rw [if_pos hneq] at hsame
          refine ⟨n, (Prod.mk.inj hsame).2.symm, hn, fun k hk hcolumn => ⟨?_, ?_⟩⟩
          · by_contra hbad
            exact herr (hfound.err.mpr (Or.inr ⟨k, hk, hcolumn, hbad⟩))
          · by_contra hbad
            exact Bool.eq_false_iff.mp hneq (hfound.neq.mpr (Or.inr ⟨k, hk, hcolumn, hbad⟩))
        · rw [if_neg hneq] at hsame
          split at hsame
          · cases hsame
          · cases hsame
    · rw [sameHeader_hidden hhidden] at hsame
      cases hsame
  · rintro ⟨n, rfl, hn, hcolumns⟩
    obtain ⟨r, ⟨-, hfound⟩, hresult⟩ := sameHeader_shown ref hn
    have herr : ¬ r.2.1 = true := by
      rw [hfound.err]
      rintro (hfalse | ⟨k, hk, hcolumn, hbad⟩)
      · cases hfalse
      · exact hbad (hcolumns k hk hcolumn).1
    have hneq : r.2.2 = false := by
      rw [Bool.eq_false_iff, Ne, hfound.neq]
      rintro (hfalse | ⟨k, hk, hcolumn, hbad⟩)
      · cases hfalse
      · exact hbad (hcolumns k hk hcolumn).2
    rw [hresult, if_neg herr, if_pos hneq]

theorem sameHeader_useless_iff :
    sameHeader pgno cur ref = (.useless, -1) ↔
      (∀ k, 8 ≤ k → k < 29 → ¬ Shown (pageDigits pgno) cur k) ∨
        ∃ n, FirstShown pgno cur n ∧ ∃ k, k < 32 ∧ Compares n k ∧ ¬ Undamaged cur ref k := by
  constructor
  · intro huseless
    rcases shown_cases pgno cur with ⟨n, hn⟩ | hhidden
    · obtain ⟨r, ⟨-, hfound⟩, hresult⟩ := sameHeader_shown ref hn
      by_cases herr : r.2.1 = true
      · rcases hfound.err.mp herr with hfalse | hbad
        · cases hfalse
        · exact Or.inr ⟨n, hn, hbad⟩
      · exfalso
        rw [hresult, if_neg herr] at huseless
        split at huseless
        · cases huseless
        · split at huseless
          · cases huseless
          · cases huseless
    · exact Or.inl hhidden
  · rintro (hhidden | ⟨n, hn, hbad⟩)
    · exact sameHeader_hidden hhidden
    · obtain ⟨r, ⟨-, hfound⟩, hresult⟩ := sameHeader_shown ref hn
      rw [hresult, if_pos (hfound.err.mpr (Or.inr hbad))]

theorem sameClock_iff :
    sameClock cur ref = true ↔ ∀ k, k < 8 → cur k = ref k ∨ ¬ Undamaged cur ref k := by
  rw [sameClock, List.all_eq_true]
  simp only [List.mem_range, decide_eq_true_iff, Undamaged, not_and_or, Int.not_le]

end

def SameColumns (cur cur' : Nat → UInt8) : Prop := ∀ k, 8 ≤ k → k < 32 → cur k = cur' k

section
variable {pgno : Int} {cur cur' ref ref' : Nat → UInt8}

theorem SameColumns.symm (h : SameColumns cur cur') : SameColumns cur' cur :=
  fun k hk hk32 => (h k hk hk32).symm

theorem SameColumns.shown (h : SameColumns cur cur') {digits : UInt8 × UInt8 × UInt8} {k : Nat}
    (hk : 8 ≤ k) (hk29 : k < 29) : Shown digits cur k ↔ Shown digits cur' k := by
  rw [Shown, Shown, h k hk (by omega), h (k + 1) (by omega) (by omega),
    h (k + 2) (by omega) (by omega)]

theorem SameColumns.firstShown (h : SameColumns cur cur') (hn : FirstShown pgno cur n) :
    FirstShown pgno cur' n := by
  have hupper := hn.upper
  refine ⟨hn.lower, hn.upper, (h.shown hn.lower (by omega)).mp hn.shown, fun k hk hkn hshown => ?_⟩
  exact hn.first k hk hkn ((h.shown hk (by omega)).mpr hshown)

theorem sameHeader_same_columns (hcur : SameColumns cur cur') (href : SameColumns ref ref')
    {j : Int} (h : sameHeader pgno cur ref = (.same, j)) :
    sameHeader pgno cur' ref' = (.same, j) := by
  obtain ⟨n, hj, hn, hcolumns⟩ := (sameHeader_same_iff j).mp h
  refine (sameHeader_same_iff j).mpr ⟨n, hj, hcur.firstShown hn, fun k hk hcolumn => ?_⟩
  rw [Undamaged, ← hcur k hcolumn.1 hk, ← href k hcolumn.1 hk]
  exact hcolumns k hk hcolumn

theorem sameHeader_useless_columns (hcur : SameColumns cur cur') (href : SameColumns ref ref')
    (h : sameHeader pgno cur ref = (.useless, -1)) :
    sameHeader pgno cur' ref' = (.useless, -1) := by
  apply sameHeader_useless_iff.mpr
  rcases sameHeader_useless_iff.mp h with hhidden | ⟨n, hn, k, hk, hcolumn, hbad⟩
  · exact Or.inl fun k hk hk29 hshown => hhidden k hk hk29 ((hcur.shown hk hk29).mpr hshown)
  · refine Or.inr ⟨n, hcur.firstShown hn, k, hk, hcolumn, ?_⟩
    rw [Undamaged, ← hcur k hcolumn.1 hk, ← href k hcolumn.1 hk]
    exact hbad

end

/-- How two headers are compared, for the columns whose part is clear. -/
structure Compared (pgno : Int) (cur ref : Nat → UInt8) : Prop where
  same : ∀ j, sameHeader pgno cur ref = (.same, j) →
    ∃ n : Nat, j = n ∧ FirstShown pgno cur n ∧ ∀ k, 8 ≤ k → k < 32 → k < n ∨ n + 3 < k →
      Undamaged cur ref k ∧ cur k = ref k
  agreeing : ∀ n, FirstShown pgno cur n →
    (∀ k, 8 ≤ k → k < 32 → k < n ∨ n + 2 < k → Undamaged cur ref k ∧ cur k = ref k) →
      sameHeader pgno cur ref = (.same, (n : Int))
  hidden : (∀ n, ¬ FirstShown pgno cur n) → sameHeader pgno cur ref = (.useless, -1)
  damaged : ∀ n, FirstShown pgno cur n → ∀ k, 8 ≤ k → k < 32 → k < n ∨ n + 3 < k →
    ¬ Undamaged cur ref k → sameHeader pgno cur ref = (.useless, -1)
  columns : ∀ cur' ref', SameColumns cur cur' → SameColumns ref ref' →
    (∀ j, sameHeader pgno cur ref = (.same, j) ↔ sameHeader pgno cur' ref' = (.same, j)) ∧
      (sameHeader pgno cur ref = (.useless, -1) ↔ sameHeader pgno cur' ref' = (.useless, -1))
  clock : sameClock cur ref = true ↔ ∀ k, k < 8 → cur k = ref k ∨ ¬ Undamaged cur ref k

theorem headers_compared (pgno : Int) (cur ref : Nat → UInt8) : Compared pgno cur ref where
  same j h := by
    obtain ⟨n, hj, hn, hcolumns⟩ := (sameHeader_same_iff j).mp h
    exact ⟨n, hj, hn, fun k hk hk32 hcolumn => hcolumns k hk32 ⟨hk, hcolumn⟩⟩
  agreeing n hn hcolumns := by
    refine (sameHeader_same_iff (n : Int)).mpr ⟨n, rfl, hn, fun k hk hcolumn => ?_⟩
    exact hcolumns k hcolumn.1 hk (hcolumn.2.imp_right fun h => by omega)
  hidden hhidden := by
    rcases shown_cases pgno cur with ⟨n, hn⟩ | hnone
    · exact absurd hn (hhidden n)
    · exact sameHeader_hidden hnone
  damaged n hn k hk hk32 hcolumn hbad :=
    sameHeader_useless_iff.mpr (Or.inr ⟨n, hn, k, hk32, ⟨hk, hcolumn⟩, hbad⟩)
  columns cur' ref' hcur href :=
    ⟨fun _ => ⟨sameHeader_same_columns hcur href, sameHeader_same_columns hcur.symm href.symm⟩,
      sameHeader_useless_columns hcur href, sameHeader_useless_columns hcur.symm href.symm⟩
  clock := sameClock_iff

/-- A header which shows page 100 in front of blanks. -/
def header100 : Nat → UInt8
  | 8 => 0x31
  | 9 => 0xB0
  | 10 => 0xB0
  | _ => 0x20

def damaged100 (k : Nat) : UInt8 := if k = 20 then 0x21 else header100 k

/-- Headers which agree in all columns with correct parity are not the same if one is damaged. -/
theorem damaged_useless :
    FirstShown 0x100 header100 8 ∧
      (∀ k, Undamaged header100 damaged100 k → header100 k = damaged100 k) ∧
      sameHeader 0x100 header100 damaged100 = (.useless, -1) := by
  refine ⟨⟨by decide, by decide, by decide, fun k hk hk8 => absurd hk (by omega)⟩, ?_, by decide⟩
  intro k hk
  rw [damaged100]
  by_cases hcolumn : k = 20
  · subst hcolumn
    exact absurd hk.2 (by decide)
  · rw [if_neg hcolumn]

end HeaderComparison

import Mathlib.Data.List.Dedup
import Mathlib.Data.List.Pairwise
import Mathlib.Data.Nat.Find
import Mathlib.Order.Bounds.Basic
import Zvbi.CursorLists
import Zvbi.PageTableInvariant

/-!
# Iterating over a page table

A position is a page and a subpage number, `VBI_ANY_SUBNO` standing for a whole
page. The next one is looked for among the ranges of the same page, then among
all ranges and in the bitmap. The search of the ranges takes the last one behind
the position instead of the lowest, and without a whole page behind the position
its result is not used.
-/

namespace PageTableIteration
open WordBitmap PageTable PageTablePages PageTableSet PageTableInvariant GuardedRuns CursorLists

/-- The first loop of `vbi_page_table_next_subpage()`, over the ranges of the
same page. -/
def nextInPage (lastPgno nextSubno : Int) : Int → List SubpageRange → Option Int
  | minSubno, [] => if minSubno ≤ maxSubno then some minSubno else none
  | minSubno, r :: rs =>
    if lastPgno ≠ r.pgno then
      nextInPage lastPgno nextSubno minSubno rs
    else if nextSubno > r.last then
      nextInPage lastPgno nextSubno minSubno rs
    else if nextSubno ≥ r.first then
      some nextSubno
    else
      nextInPage lastPgno nextSubno (if r.first < minSubno then r.first else minSubno) rs

def nextRange (nextPgno : Int) : Int × Int → List SubpageRange → Int × Int
  | found, [] => found
  | found, r :: rs =>
    if nextPgno ≤ r.pgno ∧ nextPgno < found.1 then
      nextRange nextPgno (r.pgno, r.first) rs
    else
      nextRange nextPgno found rs

def ffs (x : BitVec 32) : Nat := if x = 0#32 then 0 else x.ctz.toNat + 1

/-- The third loop, over the words of the bitmap. It ends within as many steps
as there are words. -/
def nextWord (pages : Vector (BitVec 32) 64) : Nat → BitVec 32 → Nat → Nat → Option Nat
  | 0, _, _, _ => none
  | steps + 1, mask, nextPgno, offset =>
    if 0#32 ≠ mask then
      some (nextPgno + ffs mask - 1)
    else if nextPgno + 32 ≥ 0x900 then
      none
    else
      nextWord pages steps (word pages (offset + 1)) (nextPgno + 32) (offset + 1)

/-- The part of `vbi_page_table_next_subpage()` behind `min_pgno = 0x900`, which
does not read the subpage number before it is set. -/
def nextFrom (pt : VbiPageTable) (nextPgno : Int) : Option (Int × Int) :=
  let found := nextRange nextPgno (0x900, 0) pt.subpages
  let mask := maskFrom 32 (nextPgno.toNat % 32)
  let offset := offsetOf nextPgno.toNat
  (nextWord pt.pages 64 (mask &&& word pt.pages offset) (nextPgno.toNat / 32 * 32) offset).map
    fun nextPgno : Nat => if found.1 < nextPgno then found else ((nextPgno : Int), anySubno)

/-- `vbi_page_table_next_subpage()`. -/
def nextSubpage (pt : VbiPageTable) (last : Int × Int) : Option (Int × Int) :=
  if last.1 ≥ 0x8FF then
    none
  else if last.1 < 0x100 then
    nextFrom pt 0x100
  else if last.2 ≤ maxSubno then
    match nextInPage last.1 (last.2 + 1) (maxSubno + 1) pt.subpages with
    | some subno => some (last.1, subno)
    | none => nextFrom pt (last.1 + 1)
  else
    nextFrom pt (last.1 + 1)

/-- `vbi_page_table_next_page()`. -/
def nextPage (pt : VbiPageTable) (pgno : Int) : Option Int :=
  (nextSubpage pt (pgno, anySubno)).map Prod.fst

/-- `vbi_page_table_num_pages()`. -/
def numPages (pt : VbiPageTable) : Int := pt.pagesPopcnt + pt.subpages.length

def entriesOf (pt : VbiPageTable) (p : Nat) : List (Int × Int) :=
  if containsAllSubpages pt p then
    [((p : Int), anySubno)]
  else
    ((List.range (maxSubno + 1)).filter fun s : Nat => containsSubpage pt p s).map
      fun s : Nat => ((p : Int), (s : Int))

/-- The contained entries of pages from `n` on. -/
def entriesFrom (pt : VbiPageTable) (n : Nat) : List (Int × Int) :=
  (List.range' n (0x900 - n)).flatMap (entriesOf pt)

/-- The contained pages from `n` on. -/
def pagesFrom (pt : VbiPageTable) (n : Nat) : List Int :=
  ((List.range' n (0x900 - n)).filter fun p : Nat => containsPage pt p).map fun p : Nat => (p : Int)

/-- The iterations from the beginning return the contained entries, and the
contained pages, whose number is known. -/
structure Iterates (pt : VbiPageTable) : Prop where
  subpages : Lists (nextSubpage pt) (0, 0) (entriesFrom pt 0x100)
  pages : Lists (nextPage pt) 0 (pagesFrom pt 0x100)
  number : numPages pt = (pagesFrom pt 0x100).length

def Preceded (pt : VbiPageTable) (p : Nat) : Prop := p = 0x100 ∨ containsPage pt ((p : Int) - 1) = true

/-- Each page has at most one range. Behind the range of a page which is not
preceded only ranges of lower pages follow. Above each range is a whole page. -/
structure Iterable (pt : VbiPageTable) : Prop where
  ranges : pt.subpages.Pairwise fun r q =>
    r.pgno ≠ q.pgno ∧ (Preceded pt r.pgno ∨ q.pgno < r.pgno)
  below : ∀ r ∈ pt.subpages, ∃ p, r.pgno < p ∧ p < 0x900 ∧ containsAllSubpages pt p = true

variable {p n s : Nat} {r : SubpageRange} {pt : VbiPageTable}

theorem containsPage_iff_range (pt : VbiPageTable) (hlow : 0x100 ≤ p) (hhigh : p < 0x900) :
    containsPage pt p = true ↔ whole pt p = true ∨ ∃ r ∈ pt.subpages, r.pgno = p := by
  have hvalid : validPgno p = true := by
    rw [validPgno, decide_eq_true_iff]
    omega
  have hcontains := containsAllSubpages_eq pt hlow
  rw [containsPage, containsSubpage, if_pos hvalid, Int.toNat_natCast, hcontains]
  by_cases hwhole : whole pt p = true
  · rw [if_pos hwhole]
    exact ⟨fun _ => Or.inl hwhole, fun _ => rfl⟩
  · rw [if_neg hwhole, if_pos rfl, List.any_eq_true]
    constructor
    · rintro ⟨r, hr, hpgno⟩
      have hsame := of_decide_eq_true hpgno
      exact Or.inr ⟨r, hr, by omega⟩
    · rintro (habs | ⟨r, hr, rfl⟩)
      · exact absurd habs hwhole
      · exact ⟨r, hr, decide_eq_true rfl⟩

/-- The candidates of the search in a page: a subpage found before, and those of
the ranges which remain. -/
def candidates (lastPgno nextSubno minSubno : Int) (rs : List SubpageRange) : Set Int :=
  {s | nextSubno ≤ s ∧ (s = minSubno ∧ minSubno ≤ maxSubno ∨
    ∃ r ∈ rs, lastPgno = r.pgno ∧ (r.first : Int) ≤ s ∧ s ≤ (r.last : Int))}

theorem isLeast_congr {A B : Set Int} (hsub : B ⊆ A) (hbelow : ∀ a ∈ A, ∃ b ∈ B, b ≤ a) (s : Int) :
    IsLeast A s ↔ IsLeast B s := by
  constructor
  · rintro ⟨hs, hleast⟩
    obtain ⟨b, hb, hbs⟩ := hbelow s hs
    have heq : b = s := Int.le_antisymm hbs (hleast (hsub hb))
    exact ⟨heq ▸ hb, fun b hb => hleast (hsub hb)⟩
  · rintro ⟨hs, hleast⟩
    refine ⟨hsub hs, fun a ha => ?_⟩
    obtain ⟨b, hb, hba⟩ := hbelow a ha
    exact (hleast hb).trans hba

theorem nextInPage_eq_some {lastPgno nextSubno : Int} {rs : List SubpageRange}
    (hrs : ∀ r ∈ rs, r.first ≤ r.last ∧ r.last ≤ maxSubno) {minSubno : Int}
    (hmin : nextSubno ≤ minSubno) (s : Int) :
    nextInPage lastPgno nextSubno minSubno rs = some s ↔
      IsLeast (candidates lastPgno nextSubno minSubno rs) s := by
  induction rs generalizing minSubno with
  | nil =>
    rw [nextInPage]
    by_cases hmax : minSubno ≤ maxSubno
    · have hset : candidates lastPgno nextSubno minSubno [] = {minSubno} := by
        ext t
        simp only [candidates, Set.mem_ofPred_eq, List.not_mem_nil, false_and, exists_false, or_false,
          Set.mem_singleton_iff]
        omega
      rw [if_pos hmax, hset, Option.some_inj]
      exact ⟨fun h => h ▸ isLeast_singleton, fun h => isLeast_singleton.unique h⟩
    · rw [if_neg hmax]
      constructor
      · intro h
        cases h
      · rintro ⟨⟨-, ⟨-, habs⟩ | ⟨r, hr, -⟩⟩, -⟩
        · exact absurd habs hmax
        · exact absurd hr List.not_mem_nil
  | cons r rs ih =>
    obtain ⟨hr, hmax⟩ := hrs r List.mem_cons_self
    have hrest := fun m hm => @ih (fun q hq => hrs q (List.mem_cons_of_mem r hq)) m hm
    have hsub : candidates lastPgno nextSubno minSubno rs ⊆
        candidates lastPgno nextSubno minSubno (r :: rs) := by
      rintro t ⟨ht, hfound | ⟨q, hq, hin⟩⟩
      · exact ⟨ht, Or.inl hfound⟩
      · exact ⟨ht, Or.inr ⟨q, List.mem_cons_of_mem r hq, hin⟩⟩
    rw [nextInPage]
    by_cases hpgno : lastPgno = r.pgno
    · rw [if_neg (not_not.mpr hpgno)]
      by_cases hpast : nextSubno > r.last
      · rw [if_pos hpast, hrest minSubno hmin]
        apply (isLeast_congr hsub _ s).symm
        rintro t ⟨ht, hfound | ⟨q, hq, hin⟩⟩
        · exact ⟨t, ⟨ht, Or.inl hfound⟩, Int.le_refl t⟩
        · rcases List.mem_cons.mp hq with rfl | hq
          · omega
          · exact ⟨t, ⟨ht, Or.inr ⟨q, hq, hin⟩⟩, Int.le_refl t⟩
      · rw [if_neg hpast]
        by_cases hin : nextSubno ≥ r.first
        · have hleast : IsLeast (candidates lastPgno nextSubno minSubno (r :: rs)) nextSubno := by
            refine ⟨⟨Int.le_refl _, Or.inr ⟨r, List.mem_cons_self, hpgno, hin, ?_⟩⟩, fun t ht => ht.1⟩
            omega
          rw [if_pos hin, Option.some_inj]
          exact ⟨fun h => h ▸ hleast, fun h => hleast.unique h⟩
        · have hnew : (if (r.first : Int) < minSubno then (r.first : Int) else minSubno) =
              min minSubno r.first := by
            split <;> omega
          rw [if_neg hin, hnew, hrest _ (by omega)]
          apply (isLeast_congr _ _ s).symm
          · rintro t ⟨ht, ⟨rfl, hle⟩ | ⟨q, hq, hrange⟩⟩
            · refine ⟨ht, ?_⟩
              by_cases hlower : (r.first : Int) < minSubno
              · exact Or.inr ⟨r, List.mem_cons_self, hpgno, by omega, by omega⟩
              · exact Or.inl ⟨by omega, by omega⟩
            · exact ⟨ht, Or.inr ⟨q, List.mem_cons_of_mem r hq, hrange⟩⟩
          · -- the lower one of both candidates stands for all of the range
            have hcandidate : min minSubno (r.first : Int) ∈
                candidates lastPgno nextSubno (min minSubno r.first) rs :=
              ⟨by omega, Or.inl ⟨rfl, by omega⟩⟩
            rintro t ⟨ht, ⟨rfl, hle⟩ | ⟨q, hq, hrange⟩⟩
            · exact ⟨_, hcandidate, by omega⟩
            · rcases List.mem_cons.mp hq with rfl | hq
              · exact ⟨_, hcandidate, by omega⟩
              · exact ⟨t, ⟨ht, Or.inr ⟨q, hq, hrange⟩⟩, Int.le_refl t⟩
    · rw [if_pos hpgno, hrest minSubno hmin]
      apply (isLeast_congr hsub _ s).symm
      rintro t ⟨ht, hfound | ⟨q, hq, hin⟩⟩
      · exact ⟨t, ⟨ht, Or.inl hfound⟩, Int.le_refl t⟩
      · rcases List.mem_cons.mp hq with rfl | hq
        · exact absurd hin.1 hpgno
        · exact ⟨t, ⟨ht, Or.inr ⟨q, hq, hin⟩⟩, Int.le_refl t⟩

theorem ffs_of_ne_zero {mask : BitVec 32} (h : 0#32 ≠ mask) :
    ∃ i, ffs mask = i + 1 ∧ mask.getLsbD i = true ∧ ∀ k, mask.getLsbD k = true → i ≤ k := by
  refine ⟨mask.ctz.toNat, if_neg h.symm, BitVec.getLsbD_true_ctz_of_ne_zero h.symm, ?_⟩
  intro k hk
  by_contra hlt
  have hbelow : mask.getLsbD k = false := BitVec.getLsbD_false_of_lt_ctz (by omega)
  rw [hk] at hbelow
  cases hbelow

/-- The pages of the bits of a mask, which belongs to word `offset`, and the
whole pages of the words behind. -/
def wholeFrom (pages : Vector (BitVec 32) 64) (mask : BitVec 32) (offset : Nat) : Set Nat :=
  {p | (∃ i, mask.getLsbD i = true ∧ p = 0x100 + 32 * offset + i) ∨
    0x100 + 32 * (offset + 1) ≤ p ∧ p < 0x900 ∧ bit pages (p - 0x100) = true}

variable {offset : Nat} {found c : Int × Int} {rs l rest : List SubpageRange}

theorem wholeFrom_zero (pages : Vector (BitVec 32) 64) (h : offset + 1 < 64) :
    wholeFrom pages 0#32 offset = wholeFrom pages (word pages (offset + 1)) (offset + 1) := by
  ext p
  constructor
  · rintro (⟨i, hbit, -⟩ | ⟨hlow, hhigh, hwhole⟩)
    · rw [BitVec.getLsbD_zero] at hbit
      cases hbit
    · by_cases hnext : p < 0x100 + 32 * (offset + 2)
      · left
        refine ⟨(p - 0x100) % 32, ?_, by omega⟩
        have hword : (p - 0x100) / 32 = offset + 1 := by omega
        rw [bit, hword] at hwhole
        exact hwhole
      · exact Or.inr ⟨by omega, hhigh, hwhole⟩
  · rintro (⟨i, hbit, rfl⟩ | ⟨hlow, hhigh, hwhole⟩)
    · have hi : i < 32 := BitVec.lt_of_getLsbD hbit
      have hword : (0x100 + 32 * (offset + 1) + i - 0x100) / 32 = offset + 1 := by omega
      have hmod : (0x100 + 32 * (offset + 1) + i - 0x100) % 32 = i := by omega
      refine Or.inr ⟨by omega, by omega, ?_⟩
      rw [bit, hword, hmod]
      exact hbit
    · exact Or.inr ⟨by omega, hhigh, hwhole⟩

theorem nextWord_eq_some (pages : Vector (BitVec 32) 64) {steps : Nat}
    (hsteps : 64 ≤ offset + steps) (hoffset : offset < 64) (mask : BitVec 32) (p : Nat) :
    nextWord pages steps mask (0x100 + 32 * offset) offset = some p ↔
      IsLeast (wholeFrom pages mask offset) p := by
  induction steps generalizing offset mask with
  | zero => omega
  | succ steps ih =>
    rw [nextWord]
    by_cases hmask : 0#32 ≠ mask
    · obtain ⟨i, hffs, hbit, hleast⟩ := ffs_of_ne_zero hmask
      have hfirst : IsLeast (wholeFrom pages mask offset) (0x100 + 32 * offset + i) := by
        have hi : i < 32 := BitVec.lt_of_getLsbD hbit
        refine ⟨Or.inl ⟨i, hbit, rfl⟩, ?_⟩
        rintro q (⟨k, hk, rfl⟩ | ⟨hlow, -, -⟩)
        · have hle := hleast k hk
          omega
        · omega
      rw [if_pos hmask, hffs, Option.some_inj]
      exact ⟨fun h => h ▸ hfirst, fun h => hfirst.unique h⟩
    · rw [not_not] at hmask
      subst hmask
      rw [if_neg (fun h => h rfl)]
      by_cases hend : 0x100 + 32 * offset + 32 ≥ 0x900
      · rw [if_pos hend]
        constructor
        · intro h
          cases h
        · rintro ⟨⟨i, hbit, -⟩ | ⟨hlow, hhigh, -⟩, -⟩
          · rw [BitVec.getLsbD_zero] at hbit
            cases hbit
          · omega
      · have hnext : 0x100 + 32 * offset + 32 = 0x100 + 32 * (offset + 1) := by omega
        have hrest := @ih (offset + 1) (by omega) (by omega) (word pages (offset + 1))
        rw [if_neg hend, wholeFrom_zero pages (by omega), hnext]
        exact hrest

theorem nextWord_from (pt : VbiPageTable) (hlow : 0x100 ≤ n) (hhigh : n < 0x900) (p : Nat) :
    nextWord pt.pages 64 (maskFrom 32 (n % 32) &&& word pt.pages (offsetOf n)) (n / 32 * 32)
        (offsetOf n) = some p ↔
      IsLeast {p | n ≤ p ∧ p < 0x900 ∧ whole pt p = true} p := by
  have hbase : n / 32 * 32 = 0x100 + 32 * offsetOf n := by
    rw [offsetOf]
    omega
  have hoffset : offsetOf n < 64 := by
    rw [offsetOf]
    omega
  have hset : wholeFrom pt.pages (maskFrom 32 (n % 32) &&& word pt.pages (offsetOf n))
      (offsetOf n) = {p | n ≤ p ∧ p < 0x900 ∧ whole pt p = true} := by
    ext q
    constructor
    · rintro (⟨i, hbit, rfl⟩ | ⟨hpast, hmax, hwhole⟩)
      · have hi : i < 32 := BitVec.lt_of_getLsbD hbit
        rw [BitVec.getLsbD_and, getLsbD_maskFrom hi, Bool.and_eq_true, decide_eq_true_iff] at hbit
        have hword : (0x100 + 32 * offsetOf n + i - 0x100) / 32 = offsetOf n := by omega
        have hmod : (0x100 + 32 * offsetOf n + i - 0x100) % 32 = i := by omega
        refine ⟨by omega, by omega, ?_⟩
        rw [whole, bit, hword, hmod]
        exact hbit.2
      · exact ⟨by omega, hmax, hwhole⟩
    · rintro ⟨hge, hmax, hwhole⟩
      by_cases hsame : q < 0x100 + 32 * (offsetOf n + 1)
      · left
        have hmod : (q - 0x100) % 32 < 32 := Nat.mod_lt _ (by decide)
        have hword : (q - 0x100) / 32 = offsetOf n := by omega
        rw [whole, bit, hword] at hwhole
        refine ⟨(q - 0x100) % 32, ?_, by omega⟩
        rw [BitVec.getLsbD_and, getLsbD_maskFrom hmod, hwhole, Bool.and_true, decide_eq_true_iff]
        omega
      · exact Or.inr ⟨by omega, hmax, hwhole⟩
  rw [hbase, nextWord_eq_some pt.pages (by omega) hoffset, hset]

/-- The second loop stops at a range of the page it begins with. -/
theorem nextRange_stuck {n : Int} (h : found.1 ≤ n) (rs : List SubpageRange) :
    nextRange n found rs = found := by
  induction rs with
  | nil => rfl
  | cons r rs ih => rw [nextRange, if_neg (by omega), ih]

theorem nextRange_lower {n : Int} (h : ∀ r ∈ rs, (r.pgno : Int) < n) :
    nextRange n found rs = found := by
  induction rs with
  | nil => rfl
  | cons r rs ih =>
    have hr := h r List.mem_cons_self
    rw [nextRange, if_neg (by omega), ih fun q hq => h q (List.mem_cons_of_mem r hq)]

theorem nextRange_append (n : Int) (found : Int × Int) (l rs : List SubpageRange) :
    nextRange n found (l ++ rs) = nextRange n (nextRange n found l) rs := by
  induction l generalizing found with
  | nil => rfl
  | cons r l ih =>
    rw [List.cons_append, nextRange, nextRange]
    split
    · exact ih (r.pgno, r.first)
    · exact ih found

/-- The result is the first one or a range behind the beginning. -/
theorem nextRange_cases (n : Int) (found : Int × Int) (rs : List SubpageRange) :
    nextRange n found rs = found ∨
      ∃ r ∈ rs, n ≤ r.pgno ∧ nextRange n found rs = ((r.pgno : Int), (r.first : Int)) := by
  induction rs generalizing found with
  | nil => exact Or.inl rfl
  | cons r rs ih =>
    rw [nextRange]
    split
    · rename_i htaken
      right
      rcases ih (r.pgno, r.first) with h | ⟨q, hq, hle, h⟩
      · exact ⟨r, List.mem_cons_self, htaken.1, h⟩
      · exact ⟨q, List.mem_cons_of_mem r hq, hle, h⟩
    · rcases ih found with h | ⟨q, hq, hle, h⟩
      · exact Or.inl h
      · exact Or.inr ⟨q, List.mem_cons_of_mem r hq, hle, h⟩

/-- A range behind the beginning replaces a result which is not at it. -/
theorem nextRange_replaced {n : Int} {found : Int × Int} (hfound : n < found.1)
    {rs : List SubpageRange} (h : ∃ r ∈ rs, n ≤ r.pgno) :
    ∃ r ∈ rs, n ≤ r.pgno ∧ nextRange n found rs = ((r.pgno : Int), (r.first : Int)) := by
  induction rs generalizing found with
  | nil =>
    obtain ⟨r, hr, -⟩ := h
    exact absurd hr List.not_mem_nil
  | cons r rs ih =>
    rw [nextRange]
    by_cases hr : n ≤ r.pgno
    · rw [if_pos ⟨hr, hfound⟩]
      rcases nextRange_cases n (r.pgno, r.first) rs with hsame | ⟨q, hq, hle, hlast⟩
      · exact ⟨r, List.mem_cons_self, hr, hsame⟩
      · exact ⟨q, List.mem_cons_of_mem r hq, hle, hlast⟩
    · rw [if_neg fun hc => hr hc.1]
      obtain ⟨q, hq, hle⟩ := h
      rcases List.mem_cons.mp hq with rfl | hq
      · exact absurd hle hr
      · obtain ⟨k, hk, hrest⟩ := ih hfound ⟨q, hq, hle⟩
        exact ⟨k, List.mem_cons_of_mem r hk, hrest⟩

def Single (rs : List SubpageRange) : Prop := rs.Pairwise fun r q => r.pgno ≠ q.pgno

/-- Where the range `r` of the lowest page stands in the vector decides whether
it is found. -/
theorem nextRange_lowest {n : Int} (hsingle : Single (l ++ r :: rest)) (hr : n ≤ r.pgno)
    (hrmax : r.pgno < 0x900) (hlowest : ∀ q ∈ l ++ r :: rest, n ≤ q.pgno → r.pgno ≤ q.pgno) :
    (r.pgno = n ∨ ∀ q ∈ rest, (q.pgno : Int) < n) ∧
        nextRange n (0x900, 0) (l ++ r :: rest) = ((r.pgno : Int), (r.first : Int)) ∨
    (¬ (r.pgno = n ∨ ∀ q ∈ rest, (q.pgno : Int) < n)) ∧
        (r.pgno : Int) < (nextRange n (0x900, 0) (l ++ r :: rest)).1 := by
  obtain ⟨-, hrest, hacross⟩ := List.pairwise_append.mp hsingle
  have hbehind := (List.pairwise_cons.mp hrest).1
  have hbefore : n < (nextRange n (0x900, 0) l).1 := by
    rcases nextRange_cases n (0x900, 0) l with h | ⟨q, hq, hle, h⟩
    · rw [h]
      dsimp only
      omega
    · have hne := hacross q hq r List.mem_cons_self
      have hge := hlowest q (List.mem_append_left _ hq) hle
      rw [h]
      dsimp only
      omega
  rw [nextRange_append, nextRange, if_pos ⟨hr, hbefore⟩]
  by_cases hat : r.pgno = n
  · exact Or.inl ⟨Or.inl hat, nextRange_stuck (Int.le_of_eq hat) rest⟩
  by_cases hlower : ∀ q ∈ rest, (q.pgno : Int) < n
  · exact Or.inl ⟨Or.inr hlower, nextRange_lower hlower⟩
  · right
    refine ⟨fun h => h.elim hat hlower, ?_⟩
    have hhigher : ∃ q ∈ rest, n ≤ q.pgno := by
      by_contra hnone
      exact hlower fun q hq => by
        by_contra hge
        exact hnone ⟨q, hq, by omega⟩
    obtain ⟨q, hq, hle, hfound⟩ := @nextRange_replaced n (r.pgno, r.first)
      (by dsimp only; omega) rest hhigher
    have hne := hbehind q hq
    have hge := hlowest q (List.mem_append_right _ (List.mem_cons_of_mem r hq)) hle
    rw [hfound]
    dsimp only
    omega

/-- The lowest contained page from `n` on. -/
def LeastFrom (pt : VbiPageTable) (n p : Nat) : Prop :=
  IsLeast {q | n ≤ q ∧ q < 0x900 ∧ containsPage pt q = true} p

/-- What is behind `n` begins with the lowest contained page. -/
theorem range_split (hle : n ≤ p) (hp : p < 0x900) :
    List.range' n (0x900 - n) = List.range' n (p - n) ++ p :: List.range' (p + 1) (0x900 - (p + 1)) := by
  have hlength : 0x900 - n = (p - n) + (0x900 - p) := by omega
  have hstart : n + (p - n) = p := by omega
  have hrest : 0x900 - p = (0x900 - (p + 1)) + 1 := by omega
  rw [hlength, ← List.range'_append_1, hstart, hrest, List.range'_succ]

theorem containsSubpage_iff_range (hlow : 0x100 ≤ p) (hhigh : p < 0x900)
    (hpartly : whole pt p = false) (hs : s ≤ maxSubno) :
    containsSubpage pt p s = true ↔ ∃ r ∈ pt.subpages, r.pgno = p ∧ r.first ≤ s ∧ s ≤ r.last := by
  have hvalid : ValidSubno s := ⟨Int.natCast_nonneg s, Int.ofNat_le.mpr hs⟩
  rw [containsSubpage_iff pt p s hvalid]
  constructor
  · rintro ⟨-, -, hwhole | ⟨r, hr, hpgno, hfirst, hlast⟩⟩
    · dsimp only at hwhole
      rw [Int.toNat_natCast, hpartly] at hwhole
      cases hwhole
    · exact ⟨r, hr, Int.ofNat_inj.mp hpgno, Int.ofNat_le.mp hfirst, Int.ofNat_le.mp hlast⟩
  · rintro ⟨r, hr, rfl, hfirst, hlast⟩
    refine ⟨⟨by dsimp only; omega, by dsimp only; omega⟩, hvalid, Or.inr ⟨r, hr, rfl, ?_, ?_⟩⟩
    · exact Int.ofNat_le.mpr hfirst
    · exact Int.ofNat_le.mpr hlast

theorem entriesOf_partly (hlow : 0x100 ≤ p) (hpartly : whole pt p = false) : entriesOf pt p =
      ((List.range (maxSubno + 1)).filter fun s : Nat => containsSubpage pt p s).map
        fun s : Nat => ((p : Int), (s : Int)) := by
  have hcontains := containsAllSubpages_eq pt hlow
  rw [entriesOf, hcontains, hpartly]
  exact if_neg Bool.false_ne_true

theorem entriesOf_whole (hlow : 0x100 ≤ p) (hwhole : whole pt p = true) :
    entriesOf pt p = [((p : Int), anySubno)] := by
  have hcontains := containsAllSubpages_eq pt hlow
  rw [entriesOf, hcontains, hwhole]
  exact if_pos rfl

theorem entriesOf_empty (hlow : 0x100 ≤ p) (hhigh : p < 0x900) (h : ¬ containsPage pt p = true) :
    entriesOf pt p = [] := by
  rw [containsPage_iff_range pt hlow hhigh, not_or] at h
  have hpartly : whole pt p = false := Bool.not_eq_true _ ▸ h.1
  rw [entriesOf_partly hlow hpartly, List.map_eq_nil_iff, List.filter_eq_nil_iff]
  intro s hs hcontained
  have hmax := Nat.le_of_lt_succ (List.mem_range.mp hs)
  rw [containsSubpage_iff_range hlow hhigh hpartly hmax] at hcontained
  obtain ⟨r, hr, hpgno, -⟩ := hcontained
  exact h.2 ⟨r, hr, hpgno⟩

/-- The entries of a page with a single range are those of the range. -/
theorem entriesOf_range (hlow : 0x100 ≤ r.pgno) (hhigh : r.pgno < 0x900)
    (hpartly : whole pt r.pgno = false) (hr : r ∈ pt.subpages)
    (honly : ∀ q ∈ pt.subpages, q.pgno = r.pgno → q = r) (hle : r.first ≤ r.last)
    (hmax : r.last ≤ maxSubno) : entriesOf pt r.pgno =
      (List.range' r.first (r.last + 1 - r.first)).map
        fun s : Nat => ((r.pgno : Int), (s : Int)) := by
  have hcontained : ∀ s, s ≤ maxSubno →
      (containsSubpage pt r.pgno s = true ↔ r.first ≤ s ∧ s ≤ r.last) := by
    intro s hs
    rw [containsSubpage_iff_range hlow hhigh hpartly hs]
    constructor
    · rintro ⟨q, hq, hpgno, hin⟩
      rwa [honly q hq hpgno] at hin
    · exact fun hin => ⟨r, hr, rfl, hin⟩
  have hsplit : List.range (maxSubno + 1) = List.range' 0 r.first ++
      (List.range' r.first (r.last + 1 - r.first) ++
        List.range' (r.last + 1) (maxSubno + 1 - (r.last + 1))) := by
    have hmiddle := @List.range'_append_1 r.first (r.last + 1 - r.first)
      (maxSubno + 1 - (r.last + 1))
    have hfirst := @List.range'_append_1 0 r.first (maxSubno + 1 - r.first)
    rw [Nat.zero_add] at hfirst
    rw [show r.first + (r.last + 1 - r.first) = r.last + 1 by omega,
      show r.last + 1 - r.first + (maxSubno + 1 - (r.last + 1)) = maxSubno + 1 - r.first by
        omega] at hmiddle
    rw [hmiddle, hfirst, List.range_eq_range',
      show r.first + (maxSubno + 1 - r.first) = maxSubno + 1 by omega]
  have hbelow : (List.range' 0 r.first).filter (fun s : Nat => containsSubpage pt r.pgno s) = [] := by
    rw [List.filter_eq_nil_iff]
    intro s hs hin
    have hrange := List.mem_range'_1.mp hs
    have hge := ((hcontained s (by omega)).mp hin).1
    omega
  have hinside : (List.range' r.first (r.last + 1 - r.first)).filter
      (fun s : Nat => containsSubpage pt r.pgno s) = List.range' r.first (r.last + 1 - r.first) := by
    rw [List.filter_eq_self]
    intro s hs
    have hrange := List.mem_range'_1.mp hs
    exact (hcontained s (by omega)).mpr ⟨hrange.1, by omega⟩
  have habove : (List.range' (r.last + 1) (maxSubno + 1 - (r.last + 1))).filter
      (fun s : Nat => containsSubpage pt r.pgno s) = [] := by
    rw [List.filter_eq_nil_iff]
    intro s hs hin
    have hrange := List.mem_range'_1.mp hs
    have hge := ((hcontained s (by omega)).mp hin).2
    omega
  rw [entriesOf_partly hlow hpartly, hsplit, List.filter_append, List.filter_append, hbelow,
    hinside, habove, List.append_nil, List.nil_append]

theorem exists_leastFrom (h : ∃ q, n ≤ q ∧ q < 0x900 ∧ containsPage pt q = true) :
    ∃ p, LeastFrom pt n p :=
  ⟨Nat.find h, Nat.find_spec h, fun _ hq => Nat.find_min' h hq⟩

theorem entriesFrom_least (hlow : 0x100 ≤ n) (h : LeastFrom pt n p) :
    entriesFrom pt n = entriesOf pt p ++ entriesFrom pt (p + 1) := by
  obtain ⟨⟨hle, hp, -⟩, hleast⟩ := h
  have hnone : (List.range' n (p - n)).flatMap (entriesOf pt) = [] := by
    rw [List.flatMap_eq_nil_iff]
    intro q hq
    have hrange := List.mem_range'_1.mp hq
    refine entriesOf_empty (by omega) (by omega) fun hq => ?_
    have hge := hleast ⟨hrange.1, by omega, hq⟩
    omega
  rw [entriesFrom, range_split hle hp, List.flatMap_append, hnone, List.nil_append,
    List.flatMap_cons]
  rfl

theorem entriesFrom_none (hlow : 0x100 ≤ n) (h : ∀ p, ¬ LeastFrom pt n p) :
    entriesFrom pt n = [] := by
  rw [entriesFrom, List.flatMap_eq_nil_iff]
  intro q hq
  have hrange := List.mem_range'_1.mp hq
  refine entriesOf_empty (by omega) (by omega) fun hcontained => ?_
  obtain ⟨p, hp⟩ := exists_leastFrom ⟨q, hrange.1, by omega, hcontained⟩
  exact h p hp

/-- The search from page `n` on returns the first entry there. -/
def Right (pt : VbiPageTable) (n : Nat) : Prop := nextFrom pt n = (entriesFrom pt n).head?

theorem nextFrom_eq_some (hlow : 0x100 ≤ n) (hhigh : n < 0x900) (e : Int × Int) :
    nextFrom pt n = some e ↔
      ∃ b, IsLeast {p | n ≤ p ∧ p < 0x900 ∧ whole pt p = true} b ∧
        e = if (nextRange n (0x900, 0) pt.subpages).1 < b then nextRange n (0x900, 0) pt.subpages
          else ((b : Int), anySubno) := by
  simp only [nextFrom, Int.toNat_natCast, Option.map_eq_some_iff, nextWord_from pt hlow hhigh]
  constructor
  · rintro ⟨b, hb, rfl⟩
    exact ⟨b, hb, rfl⟩
  · rintro ⟨b, hb, rfl⟩
    exact ⟨b, hb, rfl⟩

/-- Where a whole page comes first the search is right. -/
theorem right_of_whole (hlow : 0x100 ≤ n) (hleast : LeastFrom pt n p) (hwhole : whole pt p = true)
    (hpt : Invariant pt) : Right pt n := by
  obtain ⟨⟨hle, hp, hcontained⟩, hbelow⟩ := hleast
  have hb : IsLeast {p | n ≤ p ∧ p < 0x900 ∧ whole pt p = true} p := by
    refine ⟨⟨hle, hp, hwhole⟩, ?_⟩
    rintro q ⟨hq, hqmax, hqwhole⟩
    exact hbelow ⟨hq, hqmax, (containsPage_iff_range pt (by omega) hqmax).mpr (Or.inl hqwhole)⟩
  have hrange : ¬ (nextRange n (0x900, 0) pt.subpages).1 < p := by
    rcases nextRange_cases n (0x900, 0) pt.subpages with h | ⟨r, hr, hnr, h⟩
    · rw [h]
      dsimp only
      omega
    · have hpage := hpt.consistent.page r hr
      have hrcontained := (containsPage_iff_range pt (p := r.pgno) (by have := hpage.1; omega)
        (by have := hpage.2; omega)).mpr (Or.inr ⟨r, hr, rfl⟩)
      have hge := hbelow ⟨by omega, by have := hpage.2; omega, hrcontained⟩
      rw [h]
      dsimp only
      omega
  rw [Right, entriesFrom_least hlow ⟨⟨hle, hp, hcontained⟩, hbelow⟩,
    entriesOf_whole (by omega) hwhole]
  exact (nextFrom_eq_some hlow (by omega) _).mpr ⟨p, hb, (if_neg hrange).symm⟩

/-- Where nothing follows the search is right. -/
theorem right_of_none (hlow : 0x100 ≤ n) (hhigh : n < 0x900) (hnone : ∀ p, ¬ LeastFrom pt n p) :
    Right pt n := by
  rw [Right, entriesFrom_none hlow hnone, List.head?_nil, Option.eq_none_iff_forall_ne_some]
  intro e he
  obtain ⟨b, ⟨⟨hle, hb, hwhole⟩, -⟩, -⟩ := (nextFrom_eq_some hlow hhigh e).mp he
  obtain ⟨p, hp⟩ := exists_leastFrom ⟨b, hle, hb,
    (containsPage_iff_range pt (by omega) hb).mpr (Or.inl hwhole)⟩
  exact hnone p hp

theorem single_only (h : Single rs) {q : SubpageRange} (hr : r ∈ rs) (hq : q ∈ rs)
    (hpgno : q.pgno = r.pgno) : q = r := by
  have hsymm : Std.Symm fun r q : SubpageRange => r.pgno ≠ q.pgno := ⟨fun _ _ hne => hne.symm⟩
  by_contra hne
  exact h.forall hq hr hne hpgno

/-- Where a page with a range comes first, the search is right if a whole page
follows, and the page is the one to begin with or the other ranges behind its
range are passed. -/
theorem right_iff_of_range (hpt : Invariant pt) (hsingle : Single pt.subpages) (hlow : 0x100 ≤ n)
    (hsplit : pt.subpages = l ++ r :: rest) (hleast : LeastFrom pt n r.pgno) :
    Right pt n ↔ (∃ p, r.pgno < p ∧ p < 0x900 ∧ whole pt p = true) ∧
      (r.pgno = n ∨ ∀ q ∈ rest, q.pgno < n) := by
  have hr : r ∈ pt.subpages := hsplit ▸ List.mem_append_right l List.mem_cons_self
  have hpartly := hpt.consistent.partly r hr
  obtain ⟨hfirst, hlast⟩ := hpt.consistent.range r hr
  have hentries := entriesFrom_least hlow hleast
  obtain ⟨⟨hle, hp, hcontained⟩, hbelow⟩ := hleast
  rw [entriesOf_range (by omega) hp hpartly hr (fun q hq => single_only hsingle hr hq) hfirst hlast]
    at hentries
  have hhead : (entriesFrom pt n).head? = some ((r.pgno : Int), (r.first : Int)) := by
    have hlength : r.last + 1 - r.first = (r.last - r.first) + 1 := by omega
    rw [hentries, hlength, List.range'_succ]
    rfl
  have hlowest : ∀ q ∈ l ++ r :: rest, (n : Int) ≤ q.pgno → r.pgno ≤ q.pgno := by
    intro q hq hnq
    rw [← hsplit] at hq
    have hpage := hpt.consistent.page q hq
    have hqcontained := (containsPage_iff_range pt (p := q.pgno) (by have := hpage.1; omega)
      (by have := hpage.2; omega)).mpr (Or.inr ⟨q, hq, rfl⟩)
    exact hbelow ⟨by omega, by have := hpage.2; omega, hqcontained⟩
  have hsearch := nextRange_lowest (hsplit ▸ hsingle) (n := n) (by omega) hp hlowest
  rw [← hsplit] at hsearch
  rw [Right, hhead, nextFrom_eq_some hlow (by omega)]
  constructor
  · rintro ⟨b, ⟨⟨hnb, hb, hwhole⟩, hbleast⟩, he⟩
    have habove : r.pgno < b := by
      have hge := hbelow ⟨hnb, hb, (containsPage_iff_range pt (by omega) hb).mpr (Or.inl hwhole)⟩
      have hne : r.pgno ≠ b := by
        rintro rfl
        rw [hpartly] at hwhole
        cases hwhole
      omega
    refine ⟨⟨b, habove, hb, hwhole⟩, ?_⟩
    rcases hsearch with ⟨hcond, -⟩ | ⟨-, hlater⟩
    · exact hcond.imp (fun h => Int.ofNat_inj.mp h) fun h q hq => Int.ofNat_lt.mp (h q hq)
    · exfalso
      split at he
      · rw [← he] at hlater
        exact absurd hlater (Int.lt_irrefl _)
      · injection he with hpgno
        omega
  · rintro ⟨⟨p, hrp, hpmax, hwhole⟩, hcond⟩
    have hexists : ∃ q, n ≤ q ∧ q < 0x900 ∧ whole pt q = true := ⟨p, by omega, hpmax, hwhole⟩
    have hb : IsLeast {p | n ≤ p ∧ p < 0x900 ∧ whole pt p = true} (Nat.find hexists) :=
      ⟨Nat.find_spec hexists, fun q hq => Nat.find_min' hexists hq⟩
    have hbspec := Nat.find_spec hexists
    have habove : r.pgno < Nat.find hexists := by
      have hge := hbelow ⟨hbspec.1, hbspec.2.1,
        (containsPage_iff_range pt (by omega) hbspec.2.1).mpr (Or.inl hbspec.2.2)⟩
      have hne : r.pgno ≠ Nat.find hexists := by
        intro heq
        rw [← heq, hpartly] at hbspec
        cases hbspec.2.2
      omega
    refine ⟨_, hb, ?_⟩
    rcases hsearch with ⟨-, hfound⟩ | ⟨hnot, -⟩
    · rw [hfound, if_pos (Int.ofNat_lt.mpr habove)]
    · exact absurd (hcond.imp (fun h => Int.ofNat_inj.mpr h)
        fun h q hq => Int.ofNat_lt.mpr (h q hq)) hnot

theorem nextSubpage_whole (pt : VbiPageTable) (hlow : 0x100 ≤ p) (hhigh : p < 0x8FF) :
    nextSubpage pt ((p : Int), anySubno) = nextFrom pt ((p : Int) + 1) := by
  have hany : ¬ anySubno ≤ (maxSubno : Int) := by decide
  simp only [nextSubpage]
  rw [if_neg (by omega), if_neg (by omega), if_neg hany]

theorem candidates_range (hr : r ∈ rs) (honly : ∀ q ∈ rs, q.pgno = r.pgno → q = r)
    (hs : r.first ≤ s) :
    candidates r.pgno (s + 1) (maxSubno + 1) rs = {t | (s : Int) + 1 ≤ t ∧ t ≤ r.last} := by
  ext t
  constructor
  · rintro ⟨ht, ⟨-, habs⟩ | ⟨q, hq, hpgno, -, hlast⟩⟩
    · omega
    · rw [honly q hq (Int.ofNat_inj.mp hpgno.symm)] at hlast
      exact ⟨ht, hlast⟩
  · rintro ⟨ht, hlast⟩
    exact ⟨ht, Or.inr ⟨r, hr, rfl, by omega, hlast⟩⟩

/-- Within the single range of a page the subpage numbers are counted up. -/
theorem nextSubpage_range (hpt : Invariant pt) (hsingle : Single pt.subpages) (hr : r ∈ pt.subpages)
    (hhigh : r.pgno < 0x8FF) (hs : r.first ≤ s) (hsmax : s ≤ r.last) :
    nextSubpage pt ((r.pgno : Int), (s : Int)) =
      if s < r.last then some ((r.pgno : Int), (s : Int) + 1) else nextFrom pt ((r.pgno : Int) + 1) := by
  have hlow := (hpt.consistent.page r hr).1
  have hmax := (hpt.consistent.range r hr).2
  have hspec := @nextInPage_eq_some r.pgno ((s : Int) + 1) _ hpt.consistent.range (maxSubno + 1)
    (by omega)
  rw [candidates_range hr (fun q hq => single_only hsingle hr hq) hs] at hspec
  simp only [nextSubpage]
  rw [if_neg (by omega), if_neg (by omega), if_pos (by omega)]
  by_cases hlt : s < r.last
  · have hfound := (hspec ((s : Int) + 1)).mpr ⟨⟨Int.le_refl _, by omega⟩, fun t ht => ht.1⟩
    rw [hfound, if_pos hlt]
  · have hnone : nextInPage r.pgno ((s : Int) + 1) (maxSubno + 1) pt.subpages = none := by
      rw [Option.eq_none_iff_forall_ne_some]
      intro t ht
      obtain ⟨⟨hge, hle⟩, -⟩ := (hspec t).mp ht
      omega
    rw [hnone, if_neg hlt]

theorem steps_range (hpt : Invariant pt) (hsingle : Single pt.subpages) (hr : r ∈ pt.subpages)
    (hhigh : r.pgno < 0x8FF) (hs : r.first ≤ s) (k : Nat) (hk : s + k ≤ r.last) :
    Steps (nextSubpage pt) ((r.pgno : Int), (s : Int))
        ((List.range' (s + 1) k).map fun s : Nat => ((r.pgno : Int), (s : Int))) ∧
      ((List.range' (s + 1) k).map fun s : Nat => ((r.pgno : Int), (s : Int))).getLastD
        ((r.pgno : Int), (s : Int)) = ((r.pgno : Int), ((s + k : Nat) : Int)) := by
  induction k generalizing s with
  | zero => exact ⟨trivial, rfl⟩
  | succ k ih =>
    have hstep := nextSubpage_range hpt hsingle hr hhigh hs (by omega)
    obtain ⟨hsteps, hlast⟩ := @ih (s + 1) (by omega) (by omega)
    rw [if_pos (by omega)] at hstep
    rw [List.range'_succ, List.map_cons, List.getLastD_cons]
    refine ⟨⟨hstep, hsteps⟩, hlast.trans ?_⟩
    rw [Nat.add_right_comm, Nat.add_assoc]

/-- Searches which an iteration from page `n` on makes, if all before were
right. -/
def Visited (pt : VbiPageTable) (n k : Nat) : Prop :=
  k < 0x900 ∧ (k = n ∨ n < k ∧ containsPage pt ((k - 1 : Nat) : Int) = true)

def Searches (pt : VbiPageTable) (c : Int × Int) (n : Nat) : Prop :=
  nextSubpage pt c = if n < 0x900 then nextFrom pt n else none

theorem visited_least (h : LeastFrom pt n p) (k : Nat) :
    Visited pt n k ↔ k = n ∧ k < 0x900 ∨ Visited pt (p + 1) k := by
  obtain ⟨⟨hle, hp, hcontained⟩, hbelow⟩ := h
  constructor
  · rintro ⟨hk, rfl | ⟨hnk, hprev⟩⟩
    · exact Or.inl ⟨rfl, hk⟩
    · have hge := hbelow ⟨(by omega : n ≤ k - 1), by omega, hprev⟩
      right
      refine ⟨hk, ?_⟩
      by_cases heq : k = p + 1
      · exact Or.inl heq
      · exact Or.inr ⟨by omega, hprev⟩
  · rintro (⟨rfl, hk⟩ | ⟨hk, rfl | ⟨hpk, hprev⟩⟩)
    · exact ⟨hk, Or.inl rfl⟩
    · exact ⟨hk, Or.inr ⟨by omega, hcontained⟩⟩
    · exact ⟨hk, Or.inr ⟨by omega, hprev⟩⟩

theorem searches_behind (pt : VbiPageTable) (hlow : 0x100 ≤ p) :
    Searches pt ((p : Int), anySubno) (p + 1) := by
  rw [Searches]
  by_cases hend : p < 0x8FF
  · rw [if_pos (by omega), nextSubpage_whole pt hlow hend]
    rfl
  · rw [if_neg (by omega), nextSubpage]
    exact if_pos (by dsimp only; omega)

/-- Whether the list begins with the entries of the lowest page, and which
search follows. -/
theorem lists_least (hpt : Invariant pt) (hsingle : Single pt.subpages) (hlow : 0x100 ≤ n)
    (hleast : LeastFrom pt n p) (hc : Searches pt c n) (hright : Right pt n) :
    ∃ d, Searches pt d (p + 1) ∧ (Lists (nextSubpage pt) c (entriesFrom pt n) ↔
      Lists (nextSubpage pt) d (entriesFrom pt (p + 1))) := by
  have hentries := entriesFrom_least hlow hleast
  have hn : n < 0x900 := Nat.lt_of_le_of_lt hleast.1.1 hleast.1.2.1
  rw [Searches, if_pos hn, hright] at hc
  by_cases hwhole : whole pt p = true
  · refine ⟨((p : Int), anySubno), searches_behind pt (hlow.trans hleast.1.1), ?_⟩
    rw [entriesOf_whole (hlow.trans hleast.1.1) hwhole] at hentries
    rw [hentries] at hc ⊢
    exact and_iff_right hc
  · obtain ⟨r, hr, rfl⟩ := ((containsPage_iff_range pt (hlow.trans hleast.1.1) hleast.1.2.1).mp
      hleast.1.2.2).resolve_left hwhole
    obtain ⟨l, rest, hsplit⟩ := List.append_of_mem hr
    obtain ⟨⟨q, hq, hqmax, -⟩, -⟩ :=
      (right_iff_of_range hpt hsingle hlow hsplit hleast).mp hright
    obtain ⟨hfirst, hlast⟩ := hpt.consistent.range r hr
    have hlength : r.last + 1 - r.first = (r.last - r.first) + 1 := by omega
    have hend : r.first + (r.last - r.first) = r.last := by omega
    rw [entriesOf_range (hlow.trans hleast.1.1) hleast.1.2.1 (hpt.consistent.partly r hr) hr
      (fun q hq => single_only hsingle hr hq) hfirst hlast, hlength, List.range'_succ,
      List.map_cons, List.cons_append] at hentries
    rw [hentries] at hc ⊢
    obtain ⟨hsteps, hlastStep⟩ := steps_range hpt hsingle hr (by omega) (Nat.le_refl r.first)
      (r.last - r.first) (by omega)
    refine ⟨((r.pgno : Int), (r.last : Int)), ?_, ?_⟩
    · rw [Searches, if_pos (by omega),
        nextSubpage_range hpt hsingle hr (by omega) hfirst (Nat.le_refl _), if_neg (Nat.lt_irrefl _)]
      rfl
    · rw [hend] at hlastStep
      rw [← hlastStep, ← lists_append_iff hsteps]
      exact and_iff_right hc

/-- The iteration from page `n` on is right if and only if all its searches are. -/
theorem lists_iff_right (hpt : Invariant pt) (hsingle : Single pt.subpages) (hlow : 0x100 ≤ n)
    (hc : Searches pt c n) :
    Lists (nextSubpage pt) c (entriesFrom pt n) ↔ ∀ k, Visited pt n k → Right pt k := by
  induction hm : 0x900 - n using Nat.strong_induction_on generalizing n c with
  | _ m ih =>
    by_cases hleast : ∃ p, LeastFrom pt n p
    · obtain ⟨p, hleast⟩ := hleast
      have hn : n < 0x900 := Nat.lt_of_le_of_lt hleast.1.1 hleast.1.2.1
      by_cases hright : Right pt n
      · obtain ⟨d, hd, hlists⟩ := lists_least hpt hsingle hlow hleast hc hright
        have hle := hleast.1.1
        rw [hlists, ih (0x900 - (p + 1)) (by omega) (by omega) hd rfl]
        constructor
        · intro hrest k hk
          rcases (visited_least hleast k).mp hk with ⟨rfl, -⟩ | hk
          · exact hright
          · exact hrest k hk
        · exact fun hall k hk => hall k ((visited_least hleast k).mpr (Or.inr hk))
      · constructor
        · intro hlists
          exfalso
          apply hright
          rw [Searches, if_pos hn] at hc
          rw [Right, ← hc]
          exact hlists.next_eq_head
        · exact fun hall => absurd (hall n ⟨hn, Or.inl rfl⟩) hright
    · rw [not_exists] at hleast
      rw [entriesFrom_none hlow hleast]
      by_cases hn : n < 0x900
      · have hright := right_of_none hlow hn hleast
        rw [Searches, if_pos hn, hright, entriesFrom_none hlow hleast] at hc
        refine ⟨fun _ k hk => ?_, fun _ => hc⟩
        obtain ⟨hkmax, rfl | ⟨hnk, hprev⟩⟩ := hk
        · exact hright
        · obtain ⟨p, hp⟩ := exists_leastFrom ⟨k - 1, (by omega : n ≤ k - 1), by omega, hprev⟩
          exact absurd hp (hleast p)
      · rw [Searches, if_neg hn] at hc
        refine ⟨fun _ k hk => ?_, fun _ => hc⟩
        obtain ⟨hkmax, rfl | ⟨hnk, -⟩⟩ := hk
        · exact absurd hkmax hn
        · omega

theorem entriesOf_page (pt : VbiPageTable) (p : Nat) : ∀ e ∈ entriesOf pt p, e.1 = p := by
  intro e he
  rw [entriesOf] at he
  split at he
  · rw [List.mem_singleton.mp he]
  · obtain ⟨s, -, rfl⟩ := List.mem_map.mp he
    rfl

theorem entriesFrom_ascending (pt : VbiPageTable) (n : Nat) :
    (entriesFrom pt n).Pairwise fun a b => a.1 < b.1 ∨ a.1 = b.1 ∧ a.2 < b.2 := by
  rw [entriesFrom, List.pairwise_flatMap]
  constructor
  · intro p _
    rw [entriesOf]
    split
    · exact List.pairwise_singleton _ _
    · rw [List.pairwise_map]
      refine (List.pairwise_lt_range.filter _).imp fun hlt => ?_
      exact Or.inr ⟨rfl, Int.ofNat_lt.mpr hlt⟩
  · refine (List.pairwise_lt_range' 1 (by decide)).imp fun hlt a ha b hb => ?_
    rw [entriesOf_page pt _ a ha, entriesOf_page pt _ b hb]
    exact Or.inl (Int.ofNat_lt.mpr hlt)

/-- They are the contained subpages, and a whole page is one of them. -/
theorem mem_entriesFrom (pt : VbiPageTable) (p : Nat) (hlow : 0x100 ≤ p) (hhigh : p < 0x900)
    (s : Int) : ((p : Int), s) ∈ entriesFrom pt 0x100 ↔
      if containsAllSubpages pt p then s = anySubno
      else ValidSubno s ∧ containsSubpage pt p s = true := by
  have hpage : ((p : Int), s) ∈ entriesFrom pt 0x100 ↔ ((p : Int), s) ∈ entriesOf pt p := by
    rw [entriesFrom, List.mem_flatMap]
    constructor
    · rintro ⟨q, -, hq⟩
      have hsame : (p : Int) = q := entriesOf_page pt q _ hq
      obtain rfl := Int.ofNat_inj.mp hsame
      exact hq
    · exact fun hp => ⟨p, List.mem_range'_1.mpr ⟨hlow, by omega⟩, hp⟩
  rw [hpage, entriesOf]
  split
  · rw [List.mem_singleton, Prod.mk.injEq, and_iff_right rfl]
  · rw [List.mem_map]
    constructor
    · rintro ⟨k, hk, heq⟩
      obtain ⟨hmax, hcontained⟩ := List.mem_filter.mp hk
      injection heq with hp hs
      have hlt := List.mem_range.mp hmax
      rw [← hs]
      exact ⟨⟨Int.natCast_nonneg k, Int.ofNat_le.mpr (Nat.le_of_lt_succ hlt)⟩, hcontained⟩
    · rintro ⟨⟨hpos, hmax⟩, hcontained⟩
      have hnat : (s.toNat : Int) = s := Int.toNat_of_nonneg hpos
      refine ⟨s.toNat, List.mem_filter.mpr ⟨List.mem_range.mpr (by omega), ?_⟩, ?_⟩
      · rw [hnat]
        exact hcontained
      · rw [hnat]

theorem entriesOf_ne_nil (hpt : Invariant pt) (hlow : 0x100 ≤ p) (hhigh : p < 0x900)
    (h : containsPage pt p = true) : entriesOf pt p ≠ [] := by
  by_cases hwhole : whole pt p = true
  · rw [entriesOf_whole hlow hwhole]
    exact List.cons_ne_nil _ _
  · have hpartly : whole pt p = false := Bool.not_eq_true _ ▸ hwhole
    obtain ⟨r, hr, hpgno⟩ := ((containsPage_iff_range pt hlow hhigh).mp h).resolve_left hwhole
    obtain ⟨hle, hmax⟩ := hpt.consistent.range r hr
    have hfirst : containsSubpage pt p r.first = true :=
      (containsSubpage_iff_range hlow hhigh hpartly (hle.trans hmax)).mpr
        ⟨r, hr, hpgno, Nat.le_refl _, hle⟩
    rw [entriesOf_partly hlow hpartly, ne_eq, List.map_eq_nil_iff, List.filter_eq_nil_iff]
    exact fun hnone => hnone r.first (List.mem_range.mpr (Nat.lt_succ_of_le (hle.trans hmax))) hfirst

/-- A right search finds the lowest page. -/
theorem Right.page (hpt : Invariant pt) (hlow : 0x100 ≤ n) (hleast : LeastFrom pt n p)
    (h : Right pt n) : (nextFrom pt n).map Prod.fst = some (p : Int) := by
  have hne := entriesOf_ne_nil hpt (hlow.trans hleast.1.1) hleast.1.2.1 hleast.1.2.2
  obtain ⟨e, more, hentries⟩ := List.exists_cons_of_ne_nil hne
  have hpage := entriesOf_page pt p e (hentries ▸ List.mem_cons_self)
  rw [h, entriesFrom_least hlow hleast, hentries, List.cons_append, List.head?_cons,
    Option.map_some, hpage]

theorem pagesFrom_least (h : LeastFrom pt n p) :
    pagesFrom pt n = (p : Int) :: pagesFrom pt (p + 1) := by
  obtain ⟨⟨hle, hp, hcontained⟩, hbelow⟩ := h
  have hnone : (List.range' n (p - n)).filter (fun p : Nat => containsPage pt p) = [] := by
    rw [List.filter_eq_nil_iff]
    intro q hq hqcontained
    have hrange := List.mem_range'_1.mp hq
    have hge := hbelow ⟨hrange.1, (by omega : q < 0x900), hqcontained⟩
    omega
  rw [pagesFrom, range_split hle hp, List.filter_append, hnone, List.nil_append, List.filter_cons,
    if_pos hcontained, List.map_cons]
  rfl

theorem pagesFrom_none (h : ∀ p, ¬ LeastFrom pt n p) : pagesFrom pt n = [] := by
  rw [pagesFrom, List.map_eq_nil_iff, List.filter_eq_nil_iff]
  intro q hq hcontained
  have hrange := List.mem_range'_1.mp hq
  obtain ⟨p, hp⟩ := exists_leastFrom ⟨q, hrange.1, by omega, hcontained⟩
  exact h p hp

/-- Where all searches are right the pages are found as well. -/
theorem lists_pages (hpt : Invariant pt) (hlow : 0x100 ≤ n)
    (hright : ∀ k, Visited pt n k → Right pt k) {c : Int} (hc : Searches pt (c, anySubno) n) :
    Lists (nextPage pt) c (pagesFrom pt n) := by
  induction hm : 0x900 - n using Nat.strong_induction_on generalizing n c with
  | _ m ih =>
    by_cases hleast : ∃ p, LeastFrom pt n p
    · obtain ⟨p, hleast⟩ := hleast
      have hle := hleast.1.1
      have hn : n < 0x900 := Nat.lt_of_le_of_lt hle hleast.1.2.1
      rw [Searches, if_pos hn] at hc
      rw [pagesFrom_least hleast]
      refine ⟨?_, ih (0x900 - (p + 1)) (by omega) (by omega)
        (fun k hk => hright k ((visited_least hleast k).mpr (Or.inr hk)))
        (searches_behind pt (hlow.trans hle)) rfl⟩
      rw [nextPage, hc]
      exact (hright n ⟨hn, Or.inl rfl⟩).page hpt hlow hleast
    · rw [not_exists] at hleast
      rw [pagesFrom_none hleast]
      change nextPage pt c = none
      rw [nextPage, hc]
      by_cases hn : n < 0x900
      · rw [if_pos hn, hright n ⟨hn, Or.inl rfl⟩, entriesFrom_none hlow hleast]
        rfl
      · rw [if_neg hn]
        rfl

theorem countP_whole (pt : VbiPageTable) :
    ((List.range' 0x100 0x800).countP fun p => whole pt p) = setBits pt.pages := by
  rw [setBits_eq_countP, List.range'_eq_map_range, List.countP_map]
  apply List.countP_congr
  intro i hi
  rw [Function.comp_apply, whole, Nat.add_sub_cancel_left]

theorem countP_partly (hpt : Invariant pt) :
    ((List.range' 0x100 0x800).countP fun p => decide (p ∈ pt.subpages.map SubpageRange.pgno)) =
      (pt.subpages.map SubpageRange.pgno).dedup.length := by
  rw [List.countP_eq_length_filter]
  apply List.Perm.length_eq
  rw [List.perm_ext_iff_of_nodup (List.Nodup.filter _ (List.nodup_range' 1 (by decide)))
    (List.nodup_dedup _)]
  intro p
  rw [List.mem_filter, List.mem_dedup, decide_eq_true_iff, and_iff_right_iff_imp]
  intro hp
  obtain ⟨r, hr, rfl⟩ := List.mem_map.mp hp
  have hpage := hpt.consistent.page r hr
  exact List.mem_range'_1.mpr ⟨by have := hpage.1; omega, by have := hpage.2; omega⟩

theorem countP_contained (hpt : Invariant pt) :
    ((List.range' 0x100 0x800).countP fun p : Nat => containsPage pt p) = setBits pt.pages +
      (pt.subpages.map SubpageRange.pgno).dedup.length := by
  have hmem : ∀ p, p ∈ pt.subpages.map SubpageRange.pgno ↔ ∃ r ∈ pt.subpages, r.pgno = p :=
    fun p => List.mem_map
  rw [List.countP_eq_countP_filter_add _ _ fun p => whole pt p, List.countP_filter,
    List.countP_filter, ← countP_whole, ← countP_partly hpt]
  congr 1
  · apply List.countP_congr
    intro p hp
    have hrange := List.mem_range'_1.mp hp
    rw [Bool.and_eq_true, containsPage_iff_range pt hrange.1 (by omega)]
    exact ⟨And.right, fun h => ⟨Or.inl h, h⟩⟩
  · apply List.countP_congr
    intro p hp
    have hrange := List.mem_range'_1.mp hp
    rw [Bool.and_eq_true, containsPage_iff_range pt hrange.1 (by omega), decide_eq_true_iff,
      hmem p, Bool.not_eq_true']
    constructor
    · rintro ⟨hwhole | hr, hpartly⟩
      · rw [hwhole] at hpartly
        cases hpartly
      · exact hr
    · rintro ⟨r, hr, rfl⟩
      exact ⟨Or.inr ⟨r, hr, rfl⟩, hpt.consistent.partly r hr⟩

/-- The number of pages is known if no page has two ranges. -/
theorem numPages_iff (hpt : Invariant pt) :
    numPages pt = (pagesFrom pt 0x100).length ↔ Single pt.subpages := by
  have hpages : (pagesFrom pt 0x100).length = setBits pt.pages +
      (pt.subpages.map SubpageRange.pgno).dedup.length := by
    rw [← countP_contained hpt, pagesFrom, List.length_map, List.countP_eq_length_filter]
  have hlength : (pt.subpages.map SubpageRange.pgno).length = pt.subpages.length :=
    List.length_map _
  rw [numPages, hpt.counted, hpages, ← hlength]
  have hnodup : Single pt.subpages ↔ (pt.subpages.map SubpageRange.pgno).Nodup :=
    List.pairwise_map.symm
  rw [hnodup]
  constructor
  · intro h
    have hsub := List.dedup_sublist (pt.subpages.map SubpageRange.pgno)
    have hall : (pt.subpages.map SubpageRange.pgno).dedup = pt.subpages.map SubpageRange.pgno :=
      hsub.eq_of_length (by omega)
    exact hall ▸ List.nodup_dedup (pt.subpages.map SubpageRange.pgno)
  · intro h
    rw [h.dedup]
    omega

/-- The search that leads to a page: all pages between are missing. -/
theorem exists_visited (pt : VbiPageTable) (hlow : 0x100 ≤ p) (hhigh : p < 0x900) :
    ∃ n, n ≤ p ∧ Visited pt 0x100 n ∧ ∀ q : Nat, n ≤ q → q < p → ¬ containsPage pt q = true := by
  induction p, hlow using Nat.le_induction with
  | base => exact ⟨0x100, Nat.le_refl _, ⟨by decide, Or.inl rfl⟩, fun q hle hlt => by omega⟩
  | succ p hlow ih =>
    by_cases hp : containsPage pt p = true
    · refine ⟨p + 1, Nat.le_refl _, ⟨hhigh, Or.inr ⟨by omega, hp⟩⟩, fun q hle hlt => by omega⟩
    · obtain ⟨n, hle, hvisited, hnone⟩ := ih (by omega)
      refine ⟨n, by omega, hvisited, fun q hnq hlt => ?_⟩
      by_cases heq : q = p
      · rw [heq]
        exact hp
      · exact hnone q hnq (by omega)

theorem pairwise_of_split {α : Type} {R : α → α → Prop} {l : List α}
    (h : ∀ first a rest, l = first ++ a :: rest → ∀ b ∈ rest, R a b) : l.Pairwise R := by
  induction l with
  | nil => exact List.Pairwise.nil
  | cons a l ih =>
    refine List.pairwise_cons.mpr ⟨h [] a l rfl, ih fun first b rest hsplit => ?_⟩
    exact h (a :: first) b rest (by rw [hsplit, List.cons_append])

theorem range_contained (hpt : Invariant pt) (hr : r ∈ pt.subpages) :
    0x100 ≤ r.pgno ∧ r.pgno < 0x900 ∧ containsPage pt r.pgno = true := by
  obtain ⟨hlow, hhigh⟩ := hpt.consistent.page r hr
  exact ⟨by omega, by omega, (containsPage_iff_range pt (by omega) (by omega)).mpr
    (Or.inr ⟨r, hr, rfl⟩)⟩

/-- All searches are right if and only if the ranges stand in such an order that
they are found, each with a whole page above. -/
theorem right_iff_iterable (hpt : Invariant pt) (hsingle : Single pt.subpages) :
    (∀ k, Visited pt 0x100 k → Right pt k) ↔ Iterable pt := by
  constructor
  · intro hright
    have hfound : ∀ l r rest, pt.subpages = l ++ r :: rest →
        (∃ p, r.pgno < p ∧ p < 0x900 ∧ whole pt p = true) ∧
          (Preceded pt r.pgno ∨ ∀ q ∈ rest, q.pgno < r.pgno) := by
      intro l r rest hsplit
      have hr : r ∈ pt.subpages := hsplit ▸ List.mem_append_right l List.mem_cons_self
      obtain ⟨hlow, hhigh, hcontained⟩ := range_contained hpt hr
      obtain ⟨n, hle, hvisited, hnone⟩ := exists_visited pt hlow hhigh
      have hn : 0x100 ≤ n := by
        rcases hvisited.2 with rfl | ⟨hlt, -⟩
        · exact Nat.le_refl _
        · exact Nat.le_of_lt hlt
      have hleast : LeastFrom pt n r.pgno := by
        refine ⟨⟨hle, hhigh, hcontained⟩, ?_⟩
        rintro q ⟨hnq, -, hq⟩
        by_contra hlt
        exact hnone q hnq (by omega) hq
      obtain ⟨habove, hplace⟩ :=
        (right_iff_of_range hpt hsingle hn hsplit hleast).mp (hright n hvisited)
      refine ⟨habove, ?_⟩
      rcases hplace with hat | hlower
      · left
        rcases hvisited.2 with hfirst | ⟨hlt, hprev⟩
        · exact Or.inl (hat.trans hfirst)
        · right
          rw [hat, show (n : Int) - 1 = ((n - 1 : Nat) : Int) by omega]
          exact hprev
      · exact Or.inr fun q hq => Nat.lt_of_lt_of_le (hlower q hq) hle
    constructor
    · apply pairwise_of_split
      intro l r rest hsplit q hq
      have hne : r.pgno ≠ q.pgno := by
        have hsplitSingle := hsplit ▸ hsingle
        exact (List.pairwise_cons.mp (List.pairwise_append.mp hsplitSingle).2.1).1 q hq
      exact ⟨hne, (hfound l r rest hsplit).2.imp id fun h => h q hq⟩
    · intro r hr
      obtain ⟨l, rest, hsplit⟩ := List.append_of_mem hr
      obtain ⟨p, hrp, hp, hwhole⟩ := (hfound l r rest hsplit).1
      have hlow := (range_contained hpt hr).1
      exact ⟨p, hrp, hp, (containsAllSubpages_eq pt (by omega)).trans hwhole⟩
  · rintro ⟨hranges, hbelow⟩ k ⟨hk, hvisited⟩
    have hlow : 0x100 ≤ k := by omega
    by_cases hleast : ∃ p, LeastFrom pt k p
    · obtain ⟨p, hleast⟩ := hleast
      by_cases hwhole : whole pt p = true
      · exact right_of_whole hlow hleast hwhole hpt
      · obtain ⟨r, hr, rfl⟩ := ((containsPage_iff_range pt (hlow.trans hleast.1.1)
          hleast.1.2.1).mp hleast.1.2.2).resolve_left hwhole
        obtain ⟨l, rest, hsplit⟩ := List.append_of_mem hr
        rw [right_iff_of_range hpt hsingle hlow hsplit hleast]
        obtain ⟨p, hrp, hp, hall⟩ := hbelow r hr
        have hrlow := (range_contained hpt hr).1
        rw [containsAllSubpages_eq pt (by omega)] at hall
        refine ⟨⟨p, hrp, hp, hall⟩, ?_⟩
        by_cases hat : r.pgno = k
        · exact Or.inl hat
        · right
          intro q hq
          have hqr : q ∈ pt.subpages :=
            hsplit ▸ List.mem_append_right l (List.mem_cons_of_mem r hq)
          obtain ⟨hqlow, hqhigh, hqcontained⟩ := range_contained hpt hqr
          have hle := hleast.1.1
          have hbehind := (List.pairwise_cons.mp (List.pairwise_append.mp (hsplit ▸ hranges)).2.1).1 q hq
          have hlower : q.pgno < r.pgno := by
            rcases hbehind.2 with (hfirst | hprev) | hlower
            · omega
            · rw [show (r.pgno : Int) - 1 = ((r.pgno - 1 : Nat) : Int) by omega] at hprev
              have hge := hleast.2 ⟨(by omega : k ≤ r.pgno - 1), by omega, hprev⟩
              omega
            · exact hlower
          by_contra hge
          have hleq := hleast.2 ⟨(by omega : k ≤ q.pgno), hqhigh, hqcontained⟩
          omega
    · rw [not_exists] at hleast
      exact right_of_none hlow hk hleast

/-- Of every reachable table the iterations return exactly what it contains, and
as many pages as it counts, if and only if its ranges stand in such an order. -/
theorem page_table_iteration (realloc : Realloc) (calls : List Call) (pt : VbiPageTable)
    (h : run (perform realloc) new calls = some pt) : Iterates pt ↔ Iterable pt := by
  have hpt := reachable_invariant h
  have hbegin : Searches pt (0, 0) 0x100 := rfl
  have hbeginPages : Searches pt (0, anySubno) 0x100 := rfl
  constructor
  · intro hiterates
    have hsingle := (numPages_iff hpt).mp hiterates.number
    exact (right_iff_iterable hpt hsingle).mp
      ((lists_iff_right hpt hsingle (Nat.le_refl _) hbegin).mp hiterates.subpages)
  · intro hiterable
    have hsingle : Single pt.subpages := hiterable.ranges.imp fun h => h.1
    have hright := (right_iff_iterable hpt hsingle).mpr hiterable
    exact ⟨(lists_iff_right hpt hsingle (Nat.le_refl _) hbegin).mpr hright,
      lists_pages hpt (Nat.le_refl _) hright hbeginPages, (numPages_iff hpt).mpr hsingle⟩

theorem page_table_iteration_mixed :
    ∃ pt, run (perform fun _ _ => some 4) new [.addSubpages 0x100 5 9, .addPages 0x1F0 0x210,
        .addSubpages 0x101 3 3] = some pt ∧ (Iterates pt ↔ Iterable pt) :=
  ⟨_, rfl, page_table_iteration (fun _ _ => some 4) [.addSubpages 0x100 5 9,
    .addPages 0x1F0 0x210, .addSubpages 0x101 3 3] _ rfl⟩

/-- A page with a range is not found without a whole page above it, nor if the
range of a higher page was stored later. A whole page of which a subpage was
removed counts twice. -/
theorem page_table_iteration_differs :
    (∃ pt, run (perform fun _ _ => some 4) new [.addSubpages 0x150 1 1] = some pt ∧
      ¬ Iterates pt) ∧
    (∃ pt, run (perform fun _ _ => some 4) new [.addSubpages 0x110 1 1, .addSubpages 0x120 1 1,
      .addPages 0x200 0x200] = some pt ∧ ¬ Iterates pt) ∧
    (∃ pt, run (perform fun _ _ => some 4) new [.addPages 0x100 0x200,
      .removeSubpages 0x100 3 4] = some pt ∧ ¬ Iterates pt) := by
  refine ⟨⟨_, rfl, fun h => ?_⟩, ⟨_, rfl, fun h => ?_⟩, ⟨_, rfl, fun h => ?_⟩⟩
  · exact absurd h.pages.next_eq_head (by decide +kernel)
  · exact absurd h.pages.next_eq_head (by decide +kernel)
  · have hsingle := (numPages_iff (@reachable_invariant (fun _ _ => some 4)
      [.addPages 0x100 0x200, .removeSubpages 0x100 3 4] _ rfl)).mp h.number
    exact (List.pairwise_cons.mp hsingle).1 ⟨0x100, 5, 0x3F7E⟩ List.mem_cons_self rfl

end PageTableIteration

import Zvbi.PageTable
import Mathlib.Order.BooleanAlgebra.Set

/-!
# Whole pages in the page table

The set of subpages a table stands for, and what the functions which add and
remove whole pages do to it. A change of pages sets their bits to one value and
drops their ranges from the vector, and it leaves all other pages as they are.
-/

namespace PageTablePages
open WordBitmap PageTable

/-- Page `p` is there with all its subpages. -/
def whole (pt : VbiPageTable) (p : Nat) : Bool := bit pt.pages (p - 0x100)

variable {p : Nat} {v : Bool} {all : BitVec 32} {allPopcnt : Int} {full : Change}
  {masked : BitVec 32 → Change}

theorem containsAllSubpages_eq (pt : VbiPageTable) (h : 0x100 ≤ p) :
    containsAllSubpages pt p = whole pt p := by
  have hmod : (p - 0x100) % 32 = p % 32 := by omega
  have hbit : (word pt.pages (offsetOf p) &&& (1#32 <<< (p % 32)) ≠ 0#32) ↔
      whole pt p = true := by
    rw [and_one_shiftLeft_ne_zero (Nat.mod_lt _ (by decide)), whole, bit, hmod]
    rfl
  rw [Bool.eq_iff_iff, ← hbit, containsAllSubpages, bne_iff_ne]

/-- The changes of words set the masked bits to `v`. -/
structure Sets (masked : BitVec 32 → Change) (full : Change) (v : Bool) : Prop where
  masked : ∀ mask old i, i < 32 →
    ((masked mask old).1).getLsbD i = if mask.getLsbD i then v else old.getLsbD i
  full : ∀ old i, i < 32 → ((full old).1).getLsbD i = v

theorem word_touch (change : Change) (pt : VbiPageTable) {o : Nat} (h : o < 64) (k : Nat) :
    word (touch change pt o).pages k =
      if k = o then (change (word pt.pages o)).1 else word pt.pages k :=
  word_setWord pt.pages h _ k

theorem pages_touchAll (change : Change) (pt : VbiPageTable) (first count : Nat) :
    ((List.range' first count).foldl (touch change) pt).pages =
      changeWords (fun old => (change old).1) pt.pages first count := by
  induction count generalizing first pt with
  | zero => rfl
  | succ count ih => exact ih (touch change pt first) (first + 1)

structure SameVector (pt t : VbiPageTable) : Prop where
  subpages : t.subpages = pt.subpages
  capacity : t.subpagesCapacity = pt.subpagesCapacity
  room : t.room = pt.room

theorem SameVector.trans {pt t u : VbiPageTable} (h₁ : SameVector pt t) (h₂ : SameVector t u) :
    SameVector pt u :=
  ⟨h₂.subpages.trans h₁.subpages, h₂.capacity.trans h₁.capacity, h₂.room.trans h₁.room⟩

theorem touchAll_sameVector (change : Change) (pt : VbiPageTable) (offsets : List Nat) :
    SameVector pt (offsets.foldl (touch change) pt) := by
  induction offsets generalizing pt with
  | nil => exact ⟨rfl, rfl, rfl⟩
  | cons o offsets ih =>
    have hrest := ih (touch change pt o)
    exact ⟨hrest.subpages, hrest.capacity, hrest.room⟩

theorem changePages_sameVector (masked : BitVec 32 → Change) (full : Change) (pt : VbiPageTable)
    (first last : Nat) : SameVector pt (changePages masked full pt first last) := by
  unfold changePages
  dsimp only
  split
  · have hrest := touchAll_sameVector full
      (touch (masked (maskFrom 32 (first % 32))) pt (offsetOf first))
      (List.range' (offsetOf first + 1) (offsetOf last - offsetOf first - 1))
    exact ⟨hrest.subpages, hrest.capacity, hrest.room⟩
  · exact ⟨rfl, rfl, rfl⟩

theorem changePages_whole {masked : BitVec 32 → Change} {full : Change} {v : Bool}
    (sets : Sets masked full v) (pt : VbiPageTable) {first last p : Nat}
    (hfirst : 0x100 ≤ first) (hle : first ≤ last) (hlast : last < 0x900) (hp : 0x100 ≤ p) :
    whole (changePages masked full pt first last) p =
      if first ≤ p ∧ p ≤ last then v else whole pt p := by
  have hi : (p - 0x100) % 32 < 32 := Nat.mod_lt _ (by decide)
  have hfo : offsetOf first < 64 := by unfold offsetOf; omega
  have hlo : offsetOf last < 64 := by unfold offsetOf; omega
  have hmono : offsetOf first ≤ offsetOf last := by unfold offsetOf; omega
  unfold whole bit changePages
  dsimp only
  by_cases hsame : offsetOf first = offsetOf last
  · rw [if_neg (not_not.mpr hsame), word_touch _ _ hlo]
    by_cases ho : (p - 0x100) / 32 = offsetOf last
    · rw [if_pos ho, sets.masked _ _ _ hi, BitVec.getLsbD_and, getLsbD_maskUpTo hi,
        getLsbD_maskFrom hi, ← Bool.decide_and, ho]
      unfold offsetOf at ho hsame
      refine if_congr ?_ rfl rfl
      rw [decide_eq_true_iff]
      omega
    · rw [if_neg ho]
      unfold offsetOf at ho hsame
      rw [if_neg (by omega)]
  · have hlastOld : word ((List.range' (offsetOf first + 1)
        (offsetOf last - offsetOf first - 1)).foldl (touch full)
        (touch (masked (maskFrom 32 (first % 32))) pt (offsetOf first))).pages (offsetOf last) =
        word pt.pages (offsetOf last) := by
      rw [pages_touchAll, word_changeWords _ _ (by omega), if_neg (by omega), word_touch _ _ hfo,
        if_neg (fun h => hsame h.symm)]
    rw [if_pos hsame, word_touch _ _ hlo]
    by_cases hlastWord : (p - 0x100) / 32 = offsetOf last
    · rw [if_pos hlastWord, sets.masked _ _ _ hi, BitVec.getLsbD_and, getLsbD_maskUpTo hi,
        BitVec.getLsbD_allOnes, decide_eq_true hi, Bool.and_true, hlastOld, hlastWord]
      unfold offsetOf at hlastWord hsame hmono
      refine if_congr ?_ rfl rfl
      rw [decide_eq_true_iff]
      omega
    · rw [if_neg hlastWord, pages_touchAll, word_changeWords _ _ (by omega), word_touch _ _ hfo]
      by_cases hfirstWord : (p - 0x100) / 32 = offsetOf first
      · rw [if_neg (by omega), if_pos hfirstWord, sets.masked _ _ _ hi, getLsbD_maskFrom hi,
          hfirstWord]
        unfold offsetOf at hfirstWord hlastWord hsame hmono
        refine if_congr ?_ rfl rfl
        rw [decide_eq_true_iff]
        omega
      · rw [if_neg hfirstWord]
        by_cases hbetween : offsetOf first < (p - 0x100) / 32 ∧ (p - 0x100) / 32 < offsetOf last
        · rw [if_pos (by omega), sets.full _ _ hi]
          unfold offsetOf at hbetween
          rw [if_pos (by omega)]
        · rw [if_neg (by omega)]
          unfold offsetOf at hbetween hfirstWord hlastWord hmono
          rw [if_neg (by omega)]

theorem addPages_sets : Sets (fun mask old => (mask ||| old, (popcnt (mask &&& ~~~old) : Int)))
    (fun old => (BitVec.allOnes 32, 32 - (popcnt old : Int))) true := by
  constructor
  · intro mask old i hi
    dsimp only
    rw [BitVec.getLsbD_or]
    cases mask.getLsbD i with
    | false => rfl
    | true => rfl
  · intro old i hi
    dsimp only
    rw [BitVec.getLsbD_allOnes, decide_eq_true hi]

theorem removePages_sets : Sets (fun mask old => (old &&& ~~~mask, -(popcnt (old &&& mask) : Int)))
    (fun old => (0, -(popcnt old : Int))) false := by
  constructor
  · intro mask old i hi
    dsimp only
    rw [BitVec.getLsbD_and, BitVec.getLsbD_not, decide_eq_true hi]
    cases mask.getLsbD i with
    | false => simp
    | true => simp
  · intro old i hi
    exact BitVec.getLsbD_zero

abbrev Subpage := Int × Int

def ValidPage (p : Int) : Prop := 0x100 ≤ p ∧ p < 0x900

def ValidSubno (s : Int) : Prop := 0 ≤ s ∧ s ≤ maxSubno

instance (p : Int) : Decidable (ValidPage p) := inferInstanceAs (Decidable (_ ∧ _))

instance (s : Int) : Decidable (ValidSubno s) := inferInstanceAs (Decidable (_ ∧ _))

/-- Stored ranges are in order and never of a page which is there as a whole. -/
structure Consistent (pt : VbiPageTable) : Prop where
  page : ∀ r ∈ pt.subpages, ValidPage r.pgno
  range : ∀ r ∈ pt.subpages, r.first ≤ r.last ∧ r.last ≤ maxSubno
  partly : ∀ r ∈ pt.subpages, whole pt r.pgno = false

def members (pt : VbiPageTable) : Set Subpage :=
  {x | ValidPage x.1 ∧ ValidSubno x.2 ∧ (whole pt x.1.toNat = true ∨
    ∃ r ∈ pt.subpages, (r.pgno : Int) = x.1 ∧ (r.first : Int) ≤ x.2 ∧ x.2 ≤ (r.last : Int))}

theorem new_consistent : Consistent new := by
  constructor
  · intro r hr
    exact absurd hr List.not_mem_nil
  · intro r hr
    exact absurd hr List.not_mem_nil
  · intro r hr
    exact absurd hr List.not_mem_nil

theorem whole_new (p : Nat) : whole new p = false := by
  simp only [whole, bit, word, new, Vector.getElem?_replicate]
  split
  · exact BitVec.getLsbD_zero
  · exact BitVec.getLsbD_zero

theorem members_new : members new = ∅ := by
  ext x
  constructor
  · rintro ⟨-, -, hwhole | ⟨r, hr, -⟩⟩
    · rw [whole_new] at hwhole
      cases hwhole
    · exact absurd hr List.not_mem_nil
  · intro habs
    exact absurd habs (Set.notMem_empty x)

theorem containsSubpage_iff (pt : VbiPageTable) (p s : Int) (h : ValidSubno s) :
    containsSubpage pt p s = true ↔ (p, s) ∈ members pt := by
  have hany : ¬ s = anySubno := by
    have hmax := h.2
    simp only [anySubno, maxSubno] at *
    omega
  by_cases hp : ValidPage p
  · obtain ⟨hlow, hhigh⟩ := hp
    have hnat : (p.toNat : Int) = p := Int.toNat_of_nonneg (by omega)
    have hcontains := containsAllSubpages_eq pt (p := p.toNat) (by omega)
    simp only [containsSubpage, validPgno, decide_eq_true_eq.mpr (And.intro hlow hhigh), if_true,
      hcontains, if_neg hany]
    by_cases hwhole : whole pt p.toNat = true
    · rw [if_pos hwhole]
      exact ⟨fun _ => ⟨⟨hlow, hhigh⟩, h, Or.inl hwhole⟩, fun _ => rfl⟩
    · rw [if_neg hwhole]
      simp only [List.any_eq_true, decide_eq_true_eq]
      constructor
      · rintro ⟨r, hr, hpgno, hfirst, hlast⟩
        exact ⟨⟨hlow, hhigh⟩, h, Or.inr ⟨r, hr, hpgno.symm, hfirst, hlast⟩⟩
      · rintro ⟨-, -, hor⟩
        rcases hor with habs | ⟨r, hr, hpgno, hfirst, hlast⟩
        · exact absurd habs hwhole
        · exact ⟨r, hr, hpgno.symm, hfirst, hlast⟩
  · constructor
    · intro hc
      rw [containsSubpage, validPgno, if_neg (by simpa using fun a b => hp ⟨a, b⟩)] at hc
      cases hc
    · intro hm
      exact absurd hm.1 hp

variable {pt t : VbiPageTable} {P : Nat → Prop} {first last : Int}

theorem containsPage_iff (hpt : Consistent pt) (p : Int) :
    containsPage pt p = true ↔ ∃ s, (p, s) ∈ members pt := by
  by_cases hp : ValidPage p
  · obtain ⟨hlow, hhigh⟩ := hp
    have hcontains := containsAllSubpages_eq pt (p := p.toNat) (by omega)
    simp only [containsPage, containsSubpage, validPgno,
      decide_eq_true_eq.mpr (And.intro hlow hhigh), if_true, hcontains]
    by_cases hwhole : whole pt p.toNat = true
    · rw [if_pos hwhole]
      refine ⟨fun _ => ⟨0, ⟨hlow, hhigh⟩, ⟨Int.le_refl 0, Int.natCast_nonneg _⟩, Or.inl hwhole⟩,
        fun _ => rfl⟩
    · rw [if_neg hwhole]
      simp only [List.any_eq_true, decide_eq_true_eq]
      constructor
      · rintro ⟨r, hr, hpgno⟩
        have hrange := hpt.range r hr
        refine ⟨r.first, ⟨hlow, hhigh⟩, ⟨by omega, by omega⟩, Or.inr ⟨r, hr, hpgno.symm, ?_, ?_⟩⟩
        · exact Int.le_refl _
        · dsimp only
          omega
      · rintro ⟨s, -, -, habs | ⟨r, hr, hpgno, -, -⟩⟩
        · exact absurd habs hwhole
        · exact ⟨r, hr, hpgno.symm⟩
  · constructor
    · intro hc
      rw [containsPage, containsSubpage, validPgno, if_neg (by simpa using fun a b => hp ⟨a, b⟩)] at hc
      cases hc
    · rintro ⟨s, hm⟩
      exact absurd hm.1 hp

/-- A change of the pages `P` as a whole: their bits become `v` and their
ranges go away. -/
structure Effect (pt t : VbiPageTable) (P : Nat → Prop) (v : Bool) : Prop where
  subpages : ∀ r, r ∈ t.subpages ↔ r ∈ pt.subpages ∧ ¬ P r.pgno
  inside : ∀ p, 0x100 ≤ p → p < 0x900 → P p → whole t p = v
  outside : ∀ p, 0x100 ≤ p → p < 0x900 → ¬ P p → whole t p = whole pt p

theorem Effect.consistent (h : Effect pt t P v) (hpt : Consistent pt) : Consistent t := by
  constructor
  · intro r hr
    exact hpt.page r ((h.subpages r).mp hr).1
  · intro r hr
    exact hpt.range r ((h.subpages r).mp hr).1
  · intro r hr
    obtain ⟨hold, hout⟩ := (h.subpages r).mp hr
    have hpage := hpt.page r hold
    rw [h.outside r.pgno (by have := hpage.1; omega) (by have := hpage.2; omega) hout]
    exact hpt.partly r hold

/-- All subpages of the pages `P`. -/
def pagesWith (P : Nat → Prop) : Set Subpage :=
  {x | ValidPage x.1 ∧ ValidSubno x.2 ∧ P x.1.toNat}

theorem Effect.members_add (h : Effect pt t P true) :
    members t = members pt ∪ pagesWith P := by
  ext ⟨p, s⟩
  constructor
  · rintro ⟨hp, hs, hor⟩
    by_cases hP : P p.toNat
    · exact Or.inr ⟨hp, hs, hP⟩
    · left
      refine ⟨hp, hs, ?_⟩
      rcases hor with hwhole | ⟨r, hr, hrest⟩
      · left
        rwa [← h.outside p.toNat (by have := hp.1; omega) (by have := hp.2; omega) hP]
      · exact Or.inr ⟨r, ((h.subpages r).mp hr).1, hrest⟩
  · rintro (⟨hp, hs, hor⟩ | ⟨hp, hs, hP⟩)
    · refine ⟨hp, hs, ?_⟩
      have hlow : 0x100 ≤ p.toNat := by have := hp.1; omega
      have hhigh : p.toNat < 0x900 := by have := hp.2; omega
      by_cases hP : P p.toNat
      · exact Or.inl (h.inside p.toNat hlow hhigh hP)
      · rcases hor with hwhole | ⟨r, hr, hpgno, hrest⟩
        · left
          rwa [h.outside p.toNat hlow hhigh hP]
        · right
          refine ⟨r, (h.subpages r).mpr ⟨hr, ?_⟩, hpgno, hrest⟩
          have hsame : r.pgno = p.toNat := by dsimp only at hpgno; omega
          rwa [hsame]
    · exact ⟨hp, hs, Or.inl (h.inside p.toNat (by have := hp.1; omega) (by have := hp.2; omega) hP)⟩

theorem Effect.members_remove (h : Effect pt t P false) :
    members t = members pt \ pagesWith P := by
  ext ⟨p, s⟩
  constructor
  · rintro ⟨hp, hs, hor⟩
    have hlow : 0x100 ≤ p.toNat := by have := hp.1; omega
    have hhigh : p.toNat < 0x900 := by have := hp.2; omega
    have hP : ¬ P p.toNat := by
      intro hP
      rcases hor with hwhole | ⟨r, hr, hpgno, -⟩
      · rw [h.inside p.toNat hlow hhigh hP] at hwhole
        cases hwhole
      · have hsame : r.pgno = p.toNat := by dsimp only at hpgno; omega
        have hout := ((h.subpages r).mp hr).2
        rw [hsame] at hout
        exact hout hP
    refine ⟨⟨hp, hs, ?_⟩, fun hin => hP hin.2.2⟩
    rcases hor with hwhole | ⟨r, hr, hrest⟩
    · left
      rwa [← h.outside p.toNat hlow hhigh hP]
    · exact Or.inr ⟨r, ((h.subpages r).mp hr).1, hrest⟩
  · rintro ⟨⟨hp, hs, hor⟩, hout⟩
    have hlow : 0x100 ≤ p.toNat := by have := hp.1; omega
    have hhigh : p.toNat < 0x900 := by have := hp.2; omega
    have hP : ¬ P p.toNat := fun hP => hout ⟨hp, hs, hP⟩
    refine ⟨hp, hs, ?_⟩
    rcases hor with hwhole | ⟨r, hr, hpgno, hrest⟩
    · left
      rwa [h.outside p.toNat hlow hhigh hP]
    · right
      refine ⟨r, (h.subpages r).mpr ⟨hr, ?_⟩, hpgno, hrest⟩
      have hsame : r.pgno = p.toNat := by dsimp only at hpgno; omega
      rwa [hsame]

variable (realloc : Realloc)

theorem shrink_pages (pt : VbiPageTable) : (shrinkSubpagesVector realloc pt).pages = pt.pages := by
  unfold shrinkSubpagesVector
  split
  · rfl
  · split
    · rfl
    · split
      · rfl
      · rfl

theorem shrink_subpages (pt : VbiPageTable) :
    (shrinkSubpagesVector realloc pt).subpages = pt.subpages := by
  unfold shrinkSubpagesVector
  split
  · rfl
  · split
    · rfl
    · split
      · rfl
      · rfl

theorem mem_removeRange (pt : VbiPageTable) (first last : Nat) (r : SubpageRange) :
    r ∈ (removeSubpagesInPageRange realloc pt first last).subpages ↔
      r ∈ pt.subpages ∧ ¬ (first ≤ r.pgno ∧ r.pgno ≤ last) := by
  rw [removeSubpagesInPageRange, shrink_subpages, List.mem_filter, decide_eq_true_iff]
  refine and_congr_right fun _ => ?_
  omega

theorem whole_removeRange (pt : VbiPageTable) (first last p : Nat) :
    whole (removeSubpagesInPageRange realloc pt first last) p = whole pt p := by
  rw [whole, removeSubpagesInPageRange, shrink_pages]
  rfl

def Between (first last : Int) (p : Nat) : Prop :=
  (min first last).toNat ≤ p ∧ p ≤ (max first last).toNat

theorem onPages_effect (sets : Sets masked full v) (hall : ∀ i, i < 32 → all.getLsbD i = v)
    (hpt : Consistent pt) (hfirst : ValidPage first) (hlast : ValidPage last) :
    Effect pt (onPages realloc all allPopcnt masked full pt first last).1 (Between first last) v := by
  obtain ⟨hfirstLow, hfirstHigh⟩ := hfirst
  obtain ⟨hlastLow, hlastHigh⟩ := hlast
  have hvalid : validPgno first = true ∧ validPgno last = true := by
    simp only [validPgno, decide_eq_true_eq]
    omega
  rw [onPages, if_pos hvalid]
  dsimp only
  by_cases heverything : (max first last).toNat = 0x8FF ∧ (min first last).toNat = 0x100
  · rw [if_pos heverything]
    constructor
    · intro r
      rw [shrink_subpages]
      refine ⟨fun hr => absurd hr List.not_mem_nil, ?_⟩
      rintro ⟨hr, hout⟩
      have hpage := hpt.page r hr
      exact absurd ⟨by have := hpage.1; omega, by have := hpage.2; omega⟩ hout
    · intro p hlow hhigh _
      have hword : word (Vector.replicate 64 all) ((p - 0x100) / 32) = all := by
        simp only [word, Vector.getElem?_replicate]
        rw [if_pos (by omega)]
        rfl
      rw [whole, bit, hword]
      exact hall _ (Nat.mod_lt _ (by decide))
    · intro p hlow hhigh hout
      exact absurd ⟨by omega, by omega⟩ hout
  · rw [if_neg heverything]
    have hchange := @changePages_whole masked full v sets
      (removeSubpagesInPageRange realloc pt (min first last).toNat (max first last).toNat)
      (min first last).toNat (max first last).toNat
    constructor
    · intro r
      rw [(changePages_sameVector _ _ _ _ _).subpages, mem_removeRange]
      rfl
    · intro p hlow hhigh hin
      rw [hchange (by omega) (by omega) (by omega) hlow]
      exact if_pos hin
    · intro p hlow hhigh hout
      have hrange : ¬ ((min first last).toNat ≤ p ∧ p ≤ (max first last).toNat) := hout
      rw [hchange (by omega) (by omega) (by omega) hlow, if_neg hrange, whole_removeRange]

theorem addPages_effect (hpt : Consistent pt) (hfirst : ValidPage first) (hlast : ValidPage last) :
    Effect pt (addPages realloc pt first last).1 (Between first last) true := by
  refine onPages_effect realloc addPages_sets ?_ hpt hfirst hlast
  intro i hi
  rw [BitVec.getLsbD_allOnes, decide_eq_true hi]

theorem removePages_effect (hpt : Consistent pt) (hfirst : ValidPage first)
    (hlast : ValidPage last) :
    Effect pt (removePages realloc pt first last).1 (Between first last) false :=
  onPages_effect realloc removePages_sets (fun _ _ => BitVec.getLsbD_zero) hpt hfirst hlast

/-- Calls with other arguments are refused. -/
theorem onPages_invalid (h : ¬ (ValidPage first ∧ ValidPage last)) :
    onPages realloc all allPopcnt masked full pt first last = (pt, false) := by
  rw [onPages, if_neg]
  simp only [validPgno, decide_eq_true_eq]
  exact h

def Decimal (p : Nat) : Prop := p % 16 ≤ 9 ∧ p / 16 % 16 ≤ 9

def Twenty (start p : Nat) : Prop := p / 32 = start / 32 ∧ p % 16 ≤ 9

theorem displayable_bits : ∀ i : Fin 32, (0x03FF03FF#32).getLsbD i = decide (i.val % 16 ≤ 9) := by
  decide

theorem addDisplayable_effect (pt : VbiPageTable) {start : Nat} (hlow : 0x100 ≤ start)
    (hhigh : start < 0x900) (haligned : start % 32 = 0) :
    Effect pt (addDisplayable realloc pt start) (Twenty start) true := by
  have ho : offsetOf start < 64 := by unfold offsetOf; omega
  have hwhole : ∀ p, 0x100 ≤ p → whole (addDisplayable realloc pt start) p =
      if p / 32 = start / 32 ∧ p % 16 ≤ 9 then true else whole pt p := by
    intro p hp
    have hi : (p - 0x100) % 32 < 32 := Nat.mod_lt _ (by decide)
    have hremoved := (whole_removeRange realloc
      (removeSubpagesInPageRange realloc pt (start + 0x00) (start + 0x09)) (start + 0x10)
      (start + 0x19) p).trans (whole_removeRange realloc pt (start + 0x00) (start + 0x09) p)
    unfold addDisplayable whole bit
    dsimp only
    rw [word_touch _ _ ho]
    by_cases hword : (p - 0x100) / 32 = offsetOf start
    · rw [if_pos hword]
      dsimp only
      rw [BitVec.getLsbD_or, ← hword]
      have hbits := displayable_bits ⟨(p - 0x100) % 32, hi⟩
      dsimp only at hbits
      unfold offsetOf at hword
      by_cases hdigit : p % 16 ≤ 9
      · rw [if_pos ⟨by omega, hdigit⟩, hbits, decide_eq_true (by omega), Bool.true_or]
      · rw [if_neg (fun h => hdigit h.2), hbits, decide_eq_false (by omega), Bool.false_or]
        exact hremoved
    · rw [if_neg hword]
      unfold offsetOf at hword
      rw [if_neg (by omega)]
      exact hremoved
  constructor
  · intro r
    change r ∈ (removeSubpagesInPageRange realloc
      (removeSubpagesInPageRange realloc pt (start + 0x00) (start + 0x09)) (start + 0x10)
      (start + 0x19)).subpages ↔ _
    rw [mem_removeRange, mem_removeRange, and_assoc]
    refine and_congr_right fun _ => ?_
    unfold Twenty
    omega
  · intro p hp _ hin
    rw [hwhole p hp]
    exact if_pos hin
  · intro p hp _ hout
    rw [hwhole p hp]
    exact if_neg hout

theorem Effect.then {m : VbiPageTable} {Q : Nat → Prop} (hP : Effect pt m P v)
    (hQ : Effect m t Q v) : Effect pt t (fun p => P p ∨ Q p) v := by
  constructor
  · intro r
    rw [hQ.subpages, hP.subpages, and_assoc, not_or]
  · intro p hlow hhigh hin
    by_cases hq : Q p
    · exact hQ.inside p hlow hhigh hq
    · rw [hQ.outside p hlow hhigh hq]
      exact hP.inside p hlow hhigh (hin.resolve_right hq)
  · intro p hlow hhigh hout
    rw [not_or] at hout
    rw [hQ.outside p hlow hhigh hout.2, hP.outside p hlow hhigh hout.1]

theorem foldl_addDisplayable_effect (pt : VbiPageTable) {starts : List Nat}
    (h : ∀ start ∈ starts, 0x100 ≤ start ∧ start < 0x900 ∧ start % 32 = 0) :
    Effect pt (starts.foldl (addDisplayable realloc) pt) (fun p => ∃ s ∈ starts, Twenty s p) true := by
  induction starts generalizing pt with
  | nil => exact ⟨by simp, by simp, by simp⟩
  | cons start starts ih =>
    obtain ⟨hlow, hhigh, haligned⟩ := h start List.mem_cons_self
    have hfirst := addDisplayable_effect realloc pt hlow hhigh haligned
    have hrest := ih (addDisplayable realloc pt start) fun s hs => h s (List.mem_cons_of_mem start hs)
    have hpages : (fun p => ∃ s ∈ start :: starts, Twenty s p) =
        fun p => Twenty start p ∨ ∃ s ∈ starts, Twenty s p := by
      funext p
      simp only [List.mem_cons, exists_eq_or_imp]
    rw [hpages]
    exact hfirst.then hrest

theorem displayableStarts_spec : ∀ start ∈ displayableStarts,
    0x100 ≤ start ∧ start < 0x900 ∧ start % 32 = 0 := by
  decide

/-- The passes cover the displayable pages and no others. -/
theorem addAllDisplayablePages_effect (pt : VbiPageTable) :
    Effect pt (addAllDisplayablePages realloc pt)
      (fun p => ∃ s ∈ displayableStarts, Twenty s p) true :=
  foldl_addDisplayable_effect realloc pt displayableStarts_spec

theorem twenty_iff_decimal (hlow : 0x100 ≤ p) (hhigh : p < 0x900) :
    (∃ s ∈ displayableStarts, Twenty s p) ↔ Decimal p := by
  constructor
  · rintro ⟨s, hs, hword, hdigit⟩
    have hstart : ∀ s ∈ displayableStarts, s / 32 % 8 ≤ 4 := by decide
    have htens := hstart s hs
    refine ⟨hdigit, ?_⟩
    omega
  · rintro ⟨hdigit, htens⟩
    refine ⟨p / 32 * 32, ?_, ?_, hdigit⟩
    · simp only [displayableStarts, List.mem_flatMap, List.mem_range']
      refine ⟨p / 256 * 256, ⟨p / 256 - 1, by omega, by omega⟩, p / 32 % 8, by omega, by omega⟩
    · omega

end PageTablePages

import Zvbi.GuardedRuns
import Zvbi.PageTablePages

/-!
# The page table as a set of subpages

Abstractly the table is a set of pairs of a page and a subpage number, and each
call adds or removes the pairs its arguments name. The table represents that
set as long as no call takes one of three turns: adding subpages to a page of
which only other subpages are stored, removing stored subpages of a page which
is not there as a whole, and storing a range the vector has no room for.
-/

namespace PageTableSet
open WordBitmap PageTable PageTablePages GuardedRuns

variable (realloc : Realloc)

def subpagesBetween (pgno first last : Int) : Set Subpage :=
  {x | x.1 = pgno ∧ min first last ≤ x.2 ∧ x.2 ≤ max first last}

/-- The condition for storing `n` elements, of which `asked` are asked for. -/
def Fits (pt : VbiPageTable) (asked n : Nat) : Prop :=
  ∃ t ∈ extendSubpagesVector realloc pt asked, n ≤ t.room

def Uniform (pt : VbiPageTable) (pgno first last : Int) (answer : Bool) : Prop :=
  ∀ s ∈ List.range' (min first last).toNat ((max first last).toNat + 1 - (min first last).toNat),
    containsSubpage pt pgno s = answer

theorem validSubpageRange_iff (pgno first last : Int) :
    validSubpageRange pgno first last = true ↔
      ValidPage pgno ∧ ValidSubno first ∧ ValidSubno last := by
  simp only [validSubpageRange, validPgno, Bool.and_eq_true, decide_eq_true_eq, ValidPage,
    ValidSubno]
  omega

variable {pt : VbiPageTable} {first last pgno : Int}

variable {t : VbiPageTable} {rs : List SubpageRange} {s : Int}

theorem extend_same {n : Nat} (h : extendSubpagesVector realloc pt n = some t) :
    t.pages = pt.pages ∧ t.subpages = pt.subpages := by
  rw [extendSubpagesVector] at h
  split at h
  · rw [← Option.some.inj h]
    exact ⟨rfl, rfl⟩
  · rw [extendVector] at h
    split at h
    · cases h
    · obtain ⟨room, -, rfl⟩ := Option.map_eq_some_iff.mp h
      exact ⟨rfl, rfl⟩

theorem mergeFirst_none {pgno first last : Nat} (h : ∀ r ∈ rs, r.pgno ≠ pgno) :
    mergeFirst pgno first last rs = none := by
  induction rs with
  | nil => rfl
  | cons r rs ih =>
    have hr : pgno ≠ r.pgno := fun heq => h r List.mem_cons_self heq.symm
    rw [mergeFirst, if_neg (fun hc => hr hc.1), ih fun q hq => h q (List.mem_cons_of_mem r hq)]
    rfl

def Represents (result : Option (VbiPageTable × Bool)) (S : Set Subpage) : Prop :=
  ∃ t ok, result = some (t, ok) ∧ Consistent t ∧ members t = S

theorem members_congr (hpages : t.pages = pt.pages) (hsubpages : t.subpages = pt.subpages) :
    members t = members pt := by
  simp only [members, whole, hpages, hsubpages]

theorem consistent_congr (hpages : t.pages = pt.pages) (hsubpages : t.subpages = pt.subpages)
    (hpt : Consistent pt) : Consistent t := by
  constructor
  · rw [hsubpages]
    exact hpt.page
  · rw [hsubpages]
    exact hpt.range
  · rw [hsubpages]
    simp only [whole, hpages]
    exact hpt.partly

theorem consistent_append (hpt : Consistent pt)
    (h : ∀ r ∈ rs, ValidPage r.pgno ∧ r.first ≤ r.last ∧ r.last ≤ maxSubno ∧
      whole pt r.pgno = false) : Consistent { pt with subpages := pt.subpages ++ rs } := by
  constructor
  · intro r hr
    rcases List.mem_append.mp hr with hr | hr
    · exact hpt.page r hr
    · exact (h r hr).1
  · intro r hr
    rcases List.mem_append.mp hr with hr | hr
    · exact hpt.range r hr
    · exact ⟨(h r hr).2.1, (h r hr).2.2.1⟩
  · intro r hr
    rcases List.mem_append.mp hr with hr | hr
    · exact hpt.partly r hr
    · exact (h r hr).2.2.2

def rangesOf (rs : List SubpageRange) : Set Subpage :=
  {x | ValidPage x.1 ∧ ValidSubno x.2 ∧
    ∃ r ∈ rs, (r.pgno : Int) = x.1 ∧ (r.first : Int) ≤ x.2 ∧ x.2 ≤ (r.last : Int)}

theorem members_append (pt : VbiPageTable) (rs : List SubpageRange) :
    members { pt with subpages := pt.subpages ++ rs } = members pt ∪ rangesOf rs := by
  ext x
  constructor
  · rintro ⟨hp, hs, hwhole | ⟨r, hr, hrest⟩⟩
    · exact Or.inl ⟨hp, hs, Or.inl hwhole⟩
    · rcases List.mem_append.mp hr with hr | hr
      · exact Or.inl ⟨hp, hs, Or.inr ⟨r, hr, hrest⟩⟩
      · exact Or.inr ⟨hp, hs, r, hr, hrest⟩
  · rintro (⟨hp, hs, hwhole | ⟨r, hr, hrest⟩⟩ | ⟨hp, hs, r, hr, hrest⟩)
    · exact ⟨hp, hs, Or.inl hwhole⟩
    · exact ⟨hp, hs, Or.inr ⟨r, List.mem_append_left rs hr, hrest⟩⟩
    · exact ⟨hp, hs, Or.inr ⟨r, List.mem_append_right pt.subpages hr, hrest⟩⟩

structure Ordered (pgno first last : Int) : Prop where
  page : ValidPage pgno
  subno : ValidSubno (min first last)
  order : (min first last).toNat ≤ (max first last).toNat
  limit : (max first last).toNat ≤ maxSubno
  pgno_cast : (pgno.toNat : Int) = pgno
  low_cast : ((min first last).toNat : Int) = min first last
  high_cast : ((max first last).toNat : Int) = max first last
  notAny : ¬ (first = anySubno ∧ last = anySubno)

theorem ordered_of_valid (h : validSubpageRange pgno first last = true) :
    Ordered pgno first last := by
  obtain ⟨⟨hlow, hhigh⟩, ⟨hfirst, hfirstMax⟩, hlast, hlastMax⟩ :=
    (validSubpageRange_iff pgno first last).mp h
  have hany : anySubno = (maxSubno : Int) + 1 := by decide
  exact ⟨⟨hlow, hhigh⟩, ⟨by omega, by omega⟩, by omega, by omega, by omega, by omega, by omega,
    by omega⟩

theorem Ordered.subno_of_between (h : Ordered pgno first last) (hlow : min first last ≤ s)
    (hhigh : s ≤ max first last) : ValidSubno s := by
  have hmin := h.subno.1
  have hmax := h.limit
  exact ⟨by omega, by omega⟩

theorem Uniform.apply {answer : Bool} (h : Uniform pt pgno first last answer)
    (ho : Ordered pgno first last) (hlow : min first last ≤ s) (hhigh : s ≤ max first last) :
    containsSubpage pt pgno s = answer := by
  have hpos := (ho.subno_of_between hlow hhigh).1
  have hs := h s.toNat (by rw [List.mem_range']; exact ⟨s.toNat - (min first last).toNat,
    by omega, by omega⟩)
  rwa [Int.toNat_of_nonneg hpos] at hs

theorem rangesOf_singleton (ho : Ordered pgno first last) :
    rangesOf [⟨pgno.toNat, (min first last).toNat, (max first last).toNat⟩] =
      subpagesBetween pgno first last := by
  ext ⟨p, s⟩
  constructor
  · rintro ⟨hp, hs, r, hr, hpgno, hlow, hhigh⟩
    rw [List.mem_singleton.mp hr] at hpgno hlow hhigh
    dsimp only at hpgno hlow hhigh
    rw [ho.pgno_cast] at hpgno
    rw [ho.low_cast] at hlow
    rw [ho.high_cast] at hhigh
    exact ⟨hpgno.symm, hlow, hhigh⟩
  · rintro ⟨hpgno, hlow, hhigh⟩
    dsimp only at hpgno hlow hhigh
    subst hpgno
    refine ⟨ho.page, ho.subno_of_between hlow hhigh, _, List.mem_singleton_self _, ho.pgno_cast,
      ?_, ?_⟩
    · dsimp only
      rwa [ho.low_cast]
    · dsimp only
      rwa [ho.high_cast]

theorem addSubpages_covered (hpt : Consistent pt)
    (hvalid : validSubpageRange pgno first last = true) (h : Uniform pt pgno first last true) :
    Represents (addSubpages realloc pt pgno first last)
      (members pt ∪ subpagesBetween pgno first last) := by
  have ho := ordered_of_valid hvalid
  have hin : ∀ s, min first last ≤ s → s ≤ max first last → (pgno, s) ∈ members pt := by
    intro s hlow hhigh
    rw [← containsSubpage_iff pt pgno s (ho.subno_of_between hlow hhigh)]
    exact h.apply ho hlow hhigh
  have hcontains : containsPage pt pgno = true :=
    (containsPage_iff hpt pgno).mpr ⟨first, hin first (by omega) (by omega)⟩
  rw [addSubpages, if_neg ho.notAny, if_pos hvalid, if_pos hcontains]
  refine ⟨pt, true, rfl, hpt, ?_⟩
  refine (Set.union_eq_self_of_subset_right ?_).symm
  rintro ⟨p, s⟩ ⟨rfl, hlow, hhigh⟩
  exact hin s hlow hhigh

/-- A page of which nothing is in the table has no ranges and no bit. -/
theorem absent_page (hpt : Consistent pt) (hpage : ValidPage pgno)
    (h : containsPage pt pgno = false) :
    (∀ r ∈ pt.subpages, r.pgno ≠ pgno.toNat) ∧ whole pt pgno.toNat = false := by
  have hempty : ∀ s, (pgno, s) ∉ members pt := by
    intro s hs
    rw [(containsPage_iff hpt pgno).mpr ⟨s, hs⟩] at h
    cases h
  have hlow := hpage.1
  constructor
  · intro r hr heq
    have hrange := hpt.range r hr
    refine hempty r.first ⟨hpage, ⟨Int.natCast_nonneg _, ?_⟩, Or.inr ⟨r, hr, ?_, ?_, ?_⟩⟩
    · dsimp only
      omega
    · dsimp only
      omega
    · exact Int.le_refl _
    · dsimp only
      omega
  · by_contra hwhole
    refine hempty 0 ⟨hpage, ⟨Int.le_refl 0, Int.natCast_nonneg _⟩, Or.inl ?_⟩
    exact Bool.not_eq_false _ ▸ hwhole

theorem addSubpages_stored (hpt : Consistent pt) (hvalid : validSubpageRange pgno first last = true)
    (hnone : containsPage pt pgno = false)
    (hfits : Fits realloc pt (pt.subpages.length + 1) (pt.subpages.length + 1)) :
    Represents (addSubpages realloc pt pgno first last)
      (members pt ∪ subpagesBetween pgno first last) := by
  have ho := ordered_of_valid hvalid
  obtain ⟨hnew, hpartly⟩ := absent_page hpt ho.page hnone
  obtain ⟨t, ht, hroom⟩ := hfits
  obtain ⟨hpages, hsubpages⟩ := extend_same realloc ht
  have hfit : (t.subpages ++ [(⟨pgno.toNat, (min first last).toNat, (max first last).toNat⟩ :
      SubpageRange)]).length ≤ t.room := by
    rw [List.length_append, List.length_singleton, hsubpages]
    exact hroom
  rw [addSubpages, if_neg ho.notAny, if_pos hvalid, if_neg (by rw [hnone]; decide)]
  dsimp only
  rw [mergeFirst_none hnew, Option.mem_def.mp ht]
  dsimp only
  rw [setSubpages, if_pos hfit]
  refine ⟨_, true, rfl, consistent_append (consistent_congr hpages hsubpages hpt) ?_, ?_⟩
  · intro r hr
    rw [List.mem_singleton.mp hr]
    refine ⟨?_, ho.order, ho.limit, ?_⟩
    · dsimp only
      rw [ho.pgno_cast]
      exact ho.page
    · rw [whole, hpages]
      exact hpartly
  · rw [members_append, members_congr hpages hsubpages, rangesOf_singleton ho]

theorem removeLoop_disjoint {pgno first last : Nat} (pt : VbiPageTable)
    (done : List SubpageRange) {rest : List SubpageRange}
    (h : ∀ r ∈ rest, pgno ≠ r.pgno ∨ first > r.last ∨ last < r.first) :
    removeLoop realloc pgno first last pt done rest =
      some ({ pt with subpages := done ++ rest }, true) := by
  induction rest generalizing done with
  | nil => rw [removeLoop, List.append_nil]
  | cons r rest ih =>
    rw [removeLoop, if_pos (h r List.mem_cons_self),
      ih (done ++ [r]) fun q hq => h q (List.mem_cons_of_mem r hq), List.append_assoc]
    rfl

/-- Nothing of the range is stored, so nothing is removed. -/
theorem removeSubpages_absent (hpt : Consistent pt)
    (hvalid : validSubpageRange pgno first last = true)
    (hpartly : containsAllSubpages pt pgno.toNat = false) (h : Uniform pt pgno first last false) :
    Represents (removeSubpages realloc pt pgno first last)
      (members pt \ subpagesBetween pgno first last) := by
  have ho := ordered_of_valid hvalid
  have hout : ∀ s, min first last ≤ s → s ≤ max first last → (pgno, s) ∉ members pt := by
    intro s hlow hhigh hs
    rw [← containsSubpage_iff pt pgno s (ho.subno_of_between hlow hhigh)] at hs
    rw [h.apply ho hlow hhigh] at hs
    cases hs
  have hdisjoint : ∀ r ∈ pt.subpages, pgno.toNat ≠ r.pgno ∨
      (min first last).toNat > r.last ∨ (max first last).toNat < r.first := by
    intro r hr
    by_contra hover
    simp only [not_or, not_not, gt_iff_lt, Nat.not_lt] at hover
    obtain ⟨hpgno, hlow, hhigh⟩ := hover
    have hrange := hpt.range r hr
    have hlimit := ho.limit
    have hcast := ho.low_cast
    have hcast' := ho.high_cast
    -- a subpage of both the range and the stored one
    refine hout (max (min first last) r.first) (by omega) (by omega) ⟨ho.page, ⟨?_, ?_⟩, Or.inr
      ⟨r, hr, ?_, ?_, ?_⟩⟩
    · dsimp only
      omega
    · dsimp only
      omega
    · rw [← hpgno]
      exact ho.pgno_cast
    · dsimp only
      omega
    · dsimp only
      omega
  rw [removeSubpages, if_neg ho.notAny, if_pos hvalid]
  dsimp only
  rw [if_neg (by rw [hpartly]; decide), removeLoop_disjoint realloc pt [] hdisjoint,
    List.nil_append]
  refine ⟨_, true, rfl, ?_, ?_⟩
  · exact consistent_congr (shrink_pages realloc pt) (shrink_subpages realloc pt) hpt
  · have hsame : members (shrinkSubpagesVector realloc pt) = members pt :=
      members_congr (shrink_pages realloc pt) (shrink_subpages realloc pt)
    rw [hsame]
    ext ⟨p, s⟩
    refine ⟨fun hmem => ⟨hmem, ?_⟩, And.left⟩
    rintro ⟨rfl, hlow, hhigh⟩
    exact hout s hlow hhigh hmem

theorem whole_clear (pt : VbiPageTable) {pgno p : Nat} (hpgno : 0x100 ≤ pgno) (hmax : pgno < 0x900)
    (hp : 0x100 ≤ p) (n : Int) :
    whole { pt with
      pagesPopcnt := n
      pages := setWord pt.pages (offsetOf pgno)
        (word pt.pages (offsetOf pgno) &&& ~~~(1#32 <<< (pgno % 32))) } p =
      if p = pgno then false else whole pt p := by
  have hi : (p - 0x100) % 32 < 32 := Nat.mod_lt _ (by decide)
  unfold whole bit
  dsimp only
  rw [word_setWord _ (by unfold offsetOf; omega)]
  by_cases hword : (p - 0x100) / 32 = offsetOf pgno
  · rw [if_pos hword, BitVec.getLsbD_and, BitVec.getLsbD_not, getLsbD_one_shiftLeft hi,
      decide_eq_true hi, Bool.true_and, hword]
    unfold offsetOf at hword
    by_cases heq : p = pgno
    · rw [if_pos heq, decide_eq_true (by omega)]
      exact Bool.and_false _
    · rw [if_neg heq, decide_eq_false (by omega)]
      exact Bool.and_true _
  · rw [if_neg hword]
    unfold offsetOf at hword
    rw [if_neg (by omega)]

theorem mem_remaining {pgno low high : Nat} {r : SubpageRange} (h : r ∈ remaining pgno low high) :
    r.pgno = pgno ∧ (r.first = 0 ∧ r.last + 1 = low ∨
      r.first = high + 1 ∧ r.last = maxSubno ∧ high < maxSubno) := by
  rcases List.mem_append.mp h with h | h
  · split at h
    · rw [List.mem_singleton.mp h]
      exact ⟨rfl, Or.inl ⟨rfl, by dsimp only; omega⟩⟩
    · exact absurd h List.not_mem_nil
  · split at h
    · rw [List.mem_singleton.mp h]
      exact ⟨rfl, Or.inr ⟨rfl, rfl, by assumption⟩⟩
    · exact absurd h List.not_mem_nil

/-- The remaining ranges are all subpages but those of the removed range. -/
theorem rangesOf_remaining (ho : Ordered pgno first last) :
    rangesOf (remaining pgno.toNat (min first last).toNat (max first last).toNat) =
      {x | x.1 = pgno ∧ ValidSubno x.2} \ subpagesBetween pgno first last := by
  have hpage := ho.pgno_cast
  have hlow := ho.low_cast
  have hhigh := ho.high_cast
  have hlimit := ho.limit
  ext ⟨p, s⟩
  constructor
  · rintro ⟨hp, hs, r, hr, hpgno, hfirst, hlast⟩
    obtain ⟨hsame, hends⟩ := mem_remaining hr
    dsimp only at hpgno hfirst hlast
    refine ⟨⟨by dsimp only; omega, hs⟩, ?_⟩
    rintro ⟨-, habove, hbelow⟩
    dsimp only at habove hbelow
    rcases hends with ⟨-, hend⟩ | ⟨hbegin, -, -⟩
    · omega
    · omega
  · rintro ⟨⟨hp, hs⟩, hout⟩
    dsimp only at hp
    subst hp
    refine ⟨ho.page, hs, ?_⟩
    have hpos := hs.1
    have hmax := hs.2
    dsimp only at hpos hmax
    by_cases hbelow : s < min first last
    · refine ⟨⟨p.toNat, 0, (min first last).toNat - 1⟩, ?_, hpage, hpos, ?_⟩
      · refine List.mem_append_left _ ?_
        rw [if_pos (by omega)]
        exact List.mem_singleton_self _
      · dsimp only
        omega
    · have habove : max first last < s := by
        by_contra hle
        exact hout ⟨rfl, by dsimp only; omega, by dsimp only; omega⟩
      refine ⟨⟨p.toNat, (max first last).toNat + 1, maxSubno⟩, ?_, hpage, ?_, hmax⟩
      · refine List.mem_append_right _ ?_
        rw [if_pos (by omega)]
        exact List.mem_singleton_self _
      · dsimp only
        omega

theorem removeSubpages_whole (hpt : Consistent pt)
    (hvalid : validSubpageRange pgno first last = true)
    (hall : containsAllSubpages pt pgno.toNat = true)
    (hfits : Fits realloc pt (pt.subpages.length + 2) (pt.subpages ++
      remaining pgno.toNat (min first last).toNat (max first last).toNat).length) :
    Represents (removeSubpages realloc pt pgno first last)
      (members pt \ subpagesBetween pgno first last) := by
  have ho := ordered_of_valid hvalid
  have hlow : 0x100 ≤ pgno.toNat := by have := ho.page.1; omega
  have hhigh : pgno.toNat < 0x900 := by have := ho.page.2; omega
  have hwhole : whole pt pgno.toNat = true := by rw [← containsAllSubpages_eq pt hlow, hall]
  obtain ⟨t, ht, hroom⟩ := hfits
  obtain ⟨hpages, hsubpages⟩ := extend_same realloc ht
  rw [removeSubpages, if_neg ho.notAny, if_pos hvalid]
  dsimp only
  rw [if_pos hall, Option.mem_def.mp ht]
  dsimp only
  rw [setSubpages, if_pos (by dsimp only; rw [hsubpages]; exact hroom)]
  have hcut : ∀ p, 0x100 ≤ p → whole { t with
      pagesPopcnt := t.pagesPopcnt - 1
      pages := setWord t.pages (offsetOf pgno.toNat)
        (word t.pages (offsetOf pgno.toNat) &&& ~~~(1#32 <<< (pgno.toNat % 32))) } p =
      if p = pgno.toNat then false else whole pt p := by
    intro p hp
    rw [whole_clear t hlow hhigh hp, whole, hpages]
    rfl
  have hothers : ∀ r ∈ pt.subpages, r.pgno ≠ pgno.toNat := by
    intro r hr heq
    have hpartly := hpt.partly r hr
    rw [heq, hwhole] at hpartly
    cases hpartly
  have hclear : Consistent { t with
      pagesPopcnt := t.pagesPopcnt - 1
      pages := setWord t.pages (offsetOf pgno.toNat)
        (word t.pages (offsetOf pgno.toNat) &&& ~~~(1#32 <<< (pgno.toNat % 32))) } := by
    constructor
    · rw [hsubpages]
      exact hpt.page
    · rw [hsubpages]
      exact hpt.range
    · intro r hr
      replace hr : r ∈ pt.subpages := hsubpages ▸ hr
      have hpage := (hpt.page r hr).1
      rw [hcut r.pgno (by omega), if_neg (hothers r hr)]
      exact hpt.partly r hr
  refine ⟨_, true, rfl, consistent_append hclear ?_, ?_⟩
  · intro r hr
    obtain ⟨hsame, hends⟩ := mem_remaining hr
    have horder := ho.order
    have hlimit := ho.limit
    refine ⟨?_, by omega, by omega, ?_⟩
    · rw [hsame, ho.pgno_cast]
      exact ho.page
    · rw [hsame, hcut pgno.toNat hlow, if_pos rfl]
  · rw [members_append, rangesOf_remaining ho]
    ext ⟨p, s⟩
    have hcast := ho.pgno_cast
    constructor
    · rintro (⟨hp, hs, hor⟩ | ⟨⟨hp, hs⟩, hout⟩)
      · have hpos := hp.1
        dsimp only at hpos
        rw [hcut p.toNat (by omega)] at hor
        rcases hor with hbit | ⟨r, hr, hpgno, hrest⟩
        · by_cases heq : p.toNat = pgno.toNat
          · rw [if_pos heq] at hbit
            cases hbit
          · rw [if_neg heq] at hbit
            refine ⟨⟨hp, hs, Or.inl hbit⟩, ?_⟩
            rintro ⟨rfl, -⟩
            exact heq rfl
        · replace hr : r ∈ pt.subpages := hsubpages ▸ hr
          refine ⟨⟨hp, hs, Or.inr ⟨r, hr, hpgno, hrest⟩⟩, ?_⟩
          rintro ⟨rfl, -⟩
          exact hothers r hr (by dsimp only at hpgno; omega)
      · dsimp only at hp
        subst hp
        exact ⟨⟨ho.page, hs, Or.inl hwhole⟩, hout⟩
    · rintro ⟨⟨hp, hs, hor⟩, hout⟩
      have hpos := hp.1
      dsimp only at hpos
      by_cases heq : p = pgno
      · subst heq
        exact Or.inr ⟨⟨rfl, hs⟩, hout⟩
      · left
        refine ⟨hp, hs, ?_⟩
        rcases hor with hbit | ⟨r, hr, hrest⟩
        · left
          rw [hcut p.toNat (by omega), if_neg (by omega)]
          exact hbit
        · exact Or.inr ⟨r, hsubpages ▸ hr, hrest⟩

inductive Call where
  | addPages (first last : Int)
  | removePages (first last : Int)
  | addSubpages (pgno first last : Int)
  | removeSubpages (pgno first last : Int)
  | addAllPages
  | addAllDisplayablePages
  | removeAllPages
  deriving DecidableEq

def perform (pt : VbiPageTable) : Call → Option VbiPageTable
  | .addPages first last => some (addPages realloc pt first last).1
  | .removePages first last => some (removePages realloc pt first last).1
  | .addSubpages pgno first last => (addSubpages realloc pt pgno first last).map Prod.fst
  | .removeSubpages pgno first last => (removeSubpages realloc pt pgno first last).map Prod.fst
  | .addAllPages => some (addAllPages realloc pt)
  | .addAllDisplayablePages => some (addAllDisplayablePages realloc pt)
  | .removeAllPages => some (removeAllPages realloc pt)

def pagesNamed (first last : Int) : Set Subpage :=
  {x | ValidPage first ∧ ValidPage last ∧ min first last ≤ x.1 ∧ x.1 ≤ max first last ∧
    ValidSubno x.2}

def subpagesNamed (pgno first last : Int) : Set Subpage :=
  {x | first = anySubno ∧ last = anySubno ∧ x ∈ pagesNamed pgno pgno ∨
    ValidPage pgno ∧ ValidSubno first ∧ ValidSubno last ∧ x ∈ subpagesBetween pgno first last}

/-- The union or difference a call stands for. A call with arguments that are
not accepted names no subpages. -/
def update (S : Set Subpage) : Call → Set Subpage
  | .addPages first last => S ∪ pagesNamed first last
  | .removePages first last => S \ pagesNamed first last
  | .addSubpages pgno first last => S ∪ subpagesNamed pgno first last
  | .removeSubpages pgno first last => S \ subpagesNamed pgno first last
  | .addAllPages => {x | ValidPage x.1 ∧ ValidSubno x.2}
  | .addAllDisplayablePages => S ∪ {x | ValidPage x.1 ∧ ValidSubno x.2 ∧ Decimal x.1.toNat}
  | .removeAllPages => ∅

/-- The condition under which a call on subpages does what it says. Subpages
are only added to a page which has none, unless they are in the table already.
Subpages are only removed from a whole page, unless they are not in the table.
A range to be stored fits into the vector. -/
def Sound (pt : VbiPageTable) : Call → Prop
  | .addSubpages pgno first last =>
    validSubpageRange pgno first last = true →
      Uniform pt pgno first last true ∨ containsPage pt pgno = false ∧
        Fits realloc pt (pt.subpages.length + 1) (pt.subpages.length + 1)
  | .removeSubpages pgno first last =>
    validSubpageRange pgno first last = true →
      if containsAllSubpages pt pgno.toNat then
        Fits realloc pt (pt.subpages.length + 2) (pt.subpages ++
          remaining pgno.toNat (min first last).toNat (max first last).toNat).length
      else
        Uniform pt pgno first last false
  | _ => True

instance (pt : VbiPageTable) (asked n : Nat) : Decidable (Fits realloc pt asked n) :=
  inferInstanceAs (Decidable (∃ t ∈ extendSubpagesVector realloc pt asked, n ≤ t.room))

instance (pt : VbiPageTable) (pgno first last : Int) (answer : Bool) :
    Decidable (Uniform pt pgno first last answer) :=
  inferInstanceAs (Decidable (∀ s ∈ List.range' _ _, _))

instance (pt : VbiPageTable) (c : Call) : Decidable (Sound realloc pt c) := by
  unfold Sound
  split <;> infer_instance

theorem pagesWith_between (hfirst : ValidPage first) (hlast : ValidPage last) :
    pagesWith (Between first last) = pagesNamed first last := by
  have hlow := hfirst.1
  have hhigh := hfirst.2
  have hlow' := hlast.1
  have hhigh' := hlast.2
  ext ⟨p, s⟩
  constructor
  · rintro ⟨hp, hs, hbetween⟩
    have hpos := hp.1
    rw [Between] at hbetween
    dsimp only at hpos hbetween
    exact ⟨hfirst, hlast, by dsimp only; omega, by dsimp only; omega, hs⟩
  · rintro ⟨-, -, hmin, hmax, hs⟩
    dsimp only at hmin hmax
    refine ⟨⟨?_, ?_⟩, hs, ?_⟩
    · dsimp only
      omega
    · dsimp only
      omega
    · rw [Between]
      dsimp only
      omega

theorem pagesNamed_empty (h : ¬ (ValidPage first ∧ ValidPage last)) :
    pagesNamed first last = ∅ := by
  ext x
  refine ⟨fun hx => absurd ⟨hx.1, hx.2.1⟩ h, fun hx => absurd hx (Set.notMem_empty x)⟩

theorem addPages_members (hpt : Consistent pt) (first last : Int) :
    Consistent (addPages realloc pt first last).1 ∧
      members (addPages realloc pt first last).1 = members pt ∪ pagesNamed first last := by
  by_cases h : ValidPage first ∧ ValidPage last
  · have heffect := addPages_effect realloc hpt h.1 h.2
    refine ⟨heffect.consistent hpt, ?_⟩
    rw [heffect.members_add, pagesWith_between h.1 h.2]
  · rw [addPages, onPages_invalid realloc h, pagesNamed_empty h, Set.union_empty]
    exact ⟨hpt, rfl⟩

theorem removePages_members (hpt : Consistent pt) (first last : Int) :
    Consistent (removePages realloc pt first last).1 ∧
      members (removePages realloc pt first last).1 = members pt \ pagesNamed first last := by
  by_cases h : ValidPage first ∧ ValidPage last
  · have heffect := removePages_effect realloc hpt h.1 h.2
    refine ⟨heffect.consistent hpt, ?_⟩
    rw [heffect.members_remove, pagesWith_between h.1 h.2]
  · rw [removePages, onPages_invalid realloc h, pagesNamed_empty h, Set.sdiff_empty]
    exact ⟨hpt, rfl⟩

theorem addAllDisplayablePages_members (hpt : Consistent pt) :
    Consistent (addAllDisplayablePages realloc pt) ∧
      members (addAllDisplayablePages realloc pt) =
        members pt ∪ {x | ValidPage x.1 ∧ ValidSubno x.2 ∧ Decimal x.1.toNat} := by
  have heffect := addAllDisplayablePages_effect realloc pt
  refine ⟨heffect.consistent hpt, ?_⟩
  rw [heffect.members_add]
  congr 1
  ext ⟨p, s⟩
  refine and_congr_right fun hp => and_congr_right fun _ => ?_
  exact twenty_iff_decimal (by have := hp.1; dsimp only at this ⊢; omega)
    (by have := hp.2; dsimp only at this ⊢; omega)

/-- What the two functions on subpages have in common: other arguments than a
range of subpages. -/
theorem subpagesNamed_any (pgno : Int) :
    subpagesNamed pgno anySubno anySubno = pagesNamed pgno pgno := by
  ext x
  constructor
  · rintro (⟨-, -, hx⟩ | ⟨-, ⟨-, hany⟩, -⟩)
    · exact hx
    · exact absurd hany (by decide)
  · intro hx
    exact Or.inl ⟨rfl, rfl, hx⟩

theorem subpagesNamed_range (h : validSubpageRange pgno first last = true) :
    subpagesNamed pgno first last = subpagesBetween pgno first last := by
  have ho := ordered_of_valid h
  obtain ⟨hpage, hfirst, hlast⟩ := (validSubpageRange_iff pgno first last).mp h
  ext x
  constructor
  · rintro (⟨hany, hany', -⟩ | ⟨-, -, -, hx⟩)
    · exact absurd ⟨hany, hany'⟩ ho.notAny
    · exact hx
  · intro hx
    exact Or.inr ⟨hpage, hfirst, hlast, hx⟩

theorem subpagesNamed_empty (hany : ¬ (first = anySubno ∧ last = anySubno))
    (h : ¬ validSubpageRange pgno first last = true) : subpagesNamed pgno first last = ∅ := by
  rw [validSubpageRange_iff] at h
  ext x
  constructor
  · rintro (⟨hfirst, hlast, -⟩ | ⟨hpage, hfirst, hlast, -⟩)
    · exact absurd ⟨hfirst, hlast⟩ hany
    · exact absurd ⟨hpage, hfirst, hlast⟩ h
  · intro hx
    exact absurd hx (Set.notMem_empty x)

theorem addSubpages_represents (hpt : Consistent pt)
    (h : Sound realloc pt (.addSubpages pgno first last)) :
    Represents (addSubpages realloc pt pgno first last)
      (members pt ∪ subpagesNamed pgno first last) := by
  by_cases hany : first = anySubno ∧ last = anySubno
  · obtain ⟨rfl, rfl⟩ := hany
    obtain ⟨hconsistent, hmembers⟩ := addPages_members realloc hpt pgno pgno
    rw [subpagesNamed_any, addSubpages, if_pos ⟨rfl, rfl⟩]
    exact ⟨_, _, rfl, hconsistent, hmembers⟩
  by_cases hvalid : validSubpageRange pgno first last = true
  · rw [subpagesNamed_range hvalid]
    rcases h hvalid with hall | ⟨hnone, hfits⟩
    · exact addSubpages_covered realloc hpt hvalid hall
    · exact addSubpages_stored realloc hpt hvalid hnone hfits
  · rw [subpagesNamed_empty hany hvalid, Set.union_empty, addSubpages, if_neg hany, if_neg hvalid]
    exact ⟨pt, false, rfl, hpt, rfl⟩

theorem removeSubpages_represents (hpt : Consistent pt)
    (h : Sound realloc pt (.removeSubpages pgno first last)) :
    Represents (removeSubpages realloc pt pgno first last)
      (members pt \ subpagesNamed pgno first last) := by
  by_cases hany : first = anySubno ∧ last = anySubno
  · obtain ⟨rfl, rfl⟩ := hany
    obtain ⟨hconsistent, hmembers⟩ := removePages_members realloc hpt pgno pgno
    rw [subpagesNamed_any, removeSubpages, if_pos ⟨rfl, rfl⟩]
    exact ⟨_, _, rfl, hconsistent, hmembers⟩
  by_cases hvalid : validSubpageRange pgno first last = true
  · rw [subpagesNamed_range hvalid]
    have hsound := h hvalid
    by_cases hall : containsAllSubpages pt pgno.toNat = true
    · rw [if_pos hall] at hsound
      exact removeSubpages_whole realloc hpt hvalid hall hsound
    · rw [if_neg hall] at hsound
      exact removeSubpages_absent realloc hpt hvalid (Bool.not_eq_true _ ▸ hall) hsound
  · rw [subpagesNamed_empty hany hvalid, Set.sdiff_empty, removeSubpages, if_neg hany,
      if_neg hvalid]
    exact ⟨pt, false, rfl, hpt, rfl⟩

theorem members_subset_valid (pt : VbiPageTable) :
    members pt ⊆ {x | ValidPage x.1 ∧ ValidSubno x.2} :=
  fun _ hx => ⟨hx.1, hx.2.1⟩

theorem pagesNamed_all : pagesNamed 0x100 0x8FF = {x | ValidPage x.1 ∧ ValidSubno x.2} := by
  ext ⟨p, s⟩
  constructor
  · rintro ⟨-, -, hlow, hhigh, hs⟩
    dsimp only at hlow hhigh
    exact ⟨⟨by dsimp only; omega, by dsimp only; omega⟩, hs⟩
  · rintro ⟨⟨hlow, hhigh⟩, hs⟩
    dsimp only at hlow hhigh
    exact ⟨by decide, by decide, by dsimp only; omega, by dsimp only; omega, hs⟩

/-- A sound call does to the table what its union or difference does to the
set. -/
theorem perform_refines (hpt : Consistent pt) (c : Call) (h : Sound realloc pt c) :
    ∃ t, perform realloc pt c = some t ∧ Consistent t ∧ members t = update (members pt) c := by
  cases c with
  | addPages first last => exact ⟨_, rfl, addPages_members realloc hpt first last⟩
  | removePages first last => exact ⟨_, rfl, removePages_members realloc hpt first last⟩
  | addSubpages pgno first last =>
    obtain ⟨t, ok, ht, hspec⟩ := addSubpages_represents realloc hpt h
    exact ⟨t, by rw [perform, ht]; rfl, hspec⟩
  | removeSubpages pgno first last =>
    obtain ⟨t, ok, ht, hspec⟩ := removeSubpages_represents realloc hpt h
    exact ⟨t, by rw [perform, ht]; rfl, hspec⟩
  | addAllPages =>
    obtain ⟨hconsistent, hmembers⟩ := addPages_members realloc hpt 0x100 0x8FF
    refine ⟨_, rfl, hconsistent, hmembers.trans ?_⟩
    rw [pagesNamed_all, Set.union_eq_self_of_subset_left (members_subset_valid pt)]
    rfl
  | addAllDisplayablePages => exact ⟨_, rfl, addAllDisplayablePages_members realloc hpt⟩
  | removeAllPages =>
    obtain ⟨hconsistent, hmembers⟩ := removePages_members realloc hpt 0x100 0x8FF
    refine ⟨_, rfl, hconsistent, hmembers.trans ?_⟩
    rw [pagesNamed_all, Set.sdiff_eq_empty.mpr (members_subset_valid pt)]
    rfl

/-- After every run of sound calls the queries answer for the set which the
same unions and differences build up, for a valid subpage number as well as for
a page as such. -/
theorem page_table_queries_match_set (calls : List Call)
    (sound : Permitted (perform realloc) (Sound realloc) new calls) :
    ∃ pt, run (perform realloc) new calls = some pt ∧
      (∀ pgno subno, ValidSubno subno → (containsSubpage pt pgno subno = true ↔
        (pgno, subno) ∈ calls.foldl update ∅)) ∧
      ∀ pgno, containsPage pt pgno = true ↔ ∃ subno, (pgno, subno) ∈ calls.foldl update ∅ := by
  have keeps : ∀ pt S c, Consistent pt ∧ members pt = S → Sound realloc pt c →
      ∃ t, perform realloc pt c = some t ∧ Consistent t ∧ members t = update S c := by
    rintro pt S c ⟨hpt, rfl⟩ hsound
    exact perform_refines realloc hpt c hsound
  obtain ⟨pt, hrun, hpt, hmembers⟩ := run_simulates update
    (fun pt S => Consistent pt ∧ members pt = S) keeps ⟨new_consistent, members_new⟩ sound
  refine ⟨pt, hrun, ?_, ?_⟩
  · intro pgno subno hsubno
    rw [← hmembers]
    exact containsSubpage_iff pt pgno subno hsubno
  · intro pgno
    rw [← hmembers]
    exact containsPage_iff hpt pgno

theorem page_table_queries_match_set_mixed :
    ∃ pt, run (perform fun _ _ => some 4) new [.addSubpages 0x100 9 5, .addPages 0x1F0 0x210,
        .removeSubpages 0x200 3 4, .removeSubpages 0x100 10 12, .removePages 0x1FF 0x100] = some pt ∧
      (∀ pgno subno, ValidSubno subno → (containsSubpage pt pgno subno = true ↔
        (pgno, subno) ∈ [Call.addSubpages 0x100 9 5, .addPages 0x1F0 0x210,
          .removeSubpages 0x200 3 4, .removeSubpages 0x100 10 12,
          .removePages 0x1FF 0x100].foldl update ∅)) ∧
      ∀ pgno, containsPage pt pgno = true ↔ ∃ subno, (pgno, subno) ∈
        [Call.addSubpages 0x100 9 5, .addPages 0x1F0 0x210, .removeSubpages 0x200 3 4,
          .removeSubpages 0x100 10 12, .removePages 0x1FF 0x100].foldl update ∅ :=
  page_table_queries_match_set (fun _ _ => some 4) _ (by decide +kernel)

/-- A second subpage of a page is not added. Removing part of a stored range
keeps that part and drops the rest. A subpage number out of range is in every
whole page. -/
theorem page_table_queries_differ :
    (∃ pt, run (perform fun _ _ => some 2) new [.addSubpages 0x100 1 1, .addSubpages 0x100 5 5] =
        some pt ∧ containsSubpage pt 0x100 5 = false) ∧
      (0x100, 5) ∈ [Call.addSubpages 0x100 1 1, .addSubpages 0x100 5 5].foldl update ∅ ∧
    (∃ pt, run (perform fun _ _ => some 2) new [.addSubpages 0x100 1 9, .removeSubpages 0x100 1 4] =
        some pt ∧ containsSubpage pt 0x100 3 = true ∧ containsSubpage pt 0x100 7 = false) ∧
      (0x100, 3) ∉ [Call.addSubpages 0x100 1 9, .removeSubpages 0x100 1 4].foldl update ∅ ∧
    (∃ pt, run (perform fun _ _ => some 2) new [.addPages 0x100 0x100] = some pt ∧
        containsSubpage pt 0x100 0x4000 = true) ∧
      (0x100, 0x4000) ∉ [Call.addPages 0x100 0x100].foldl update ∅ := by
  refine ⟨⟨_, rfl, by decide +kernel⟩, ?_, ⟨_, rfl, by decide +kernel⟩, ?_,
    ⟨_, rfl, by decide +kernel⟩, ?_⟩
  · exact Or.inr (Or.inr ⟨by decide, by decide, by decide, rfl, by decide, by decide⟩)
  · rintro ⟨-, hout⟩
    exact hout (Or.inr ⟨by decide, by decide, by decide, rfl, by decide, by decide⟩)
  · rintro (habs | ⟨-, -, -, -, hsubno⟩)
    · exact habs
    · exact absurd hsubno (by decide)

end PageTableSet

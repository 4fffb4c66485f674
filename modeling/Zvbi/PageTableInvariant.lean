import Zvbi.PageTableSet

/-!
# The representation invariant of the page table

The counter of whole pages agrees with the bitmap, and a whole page has no
ranges in the vector. Other pages may have several ranges, which stand in the
vector in ascending order, though not necessarily next to each other.
-/

namespace PageTableInvariant
open WordBitmap PageTable PageTablePages PageTableSet GuardedRuns

def Counts (change : Change) : Prop :=
  ∀ old, (popcnt old : Int) + (change old).2 = popcnt (change old).1

/-- `pages_popcnt` is the number of set bits in `pages`. -/
def Counted (pt : VbiPageTable) : Prop := pt.pagesPopcnt = setBits pt.pages

def Ascending (rs : List SubpageRange) : Prop :=
  rs.Pairwise fun a b => a.pgno = b.pgno → a.last < b.first

structure Invariant (pt : VbiPageTable) : Prop where
  consistent : Consistent pt
  counted : Counted pt
  ascending : Ascending pt.subpages

theorem shrink_popcnt (realloc : Realloc) (pt : VbiPageTable) :
    (shrinkSubpagesVector realloc pt).pagesPopcnt = pt.pagesPopcnt := by
  simp only [shrinkSubpagesVector]
  split
  · rfl
  · split
    · rfl
    · split
      · rfl
      · rfl

variable {pt t : VbiPageTable} {realloc : Realloc}

variable {change full : Change} {first last pgno : Nat} {masked : BitVec 32 → Change}
  {done parts rest : List SubpageRange} {r : SubpageRange} {page : Nat → Prop} {ok : Bool}

theorem touch_counted (h : Counts change) (hpt : Counted pt) {o : Nat} (ho : o < 64) :
    Counted (touch change pt o) := by
  have hbits := setBits_setWord pt.pages ho (change (word pt.pages o)).1
  have hcount := h (word pt.pages o)
  rw [Counted] at hpt
  rw [Counted, touch]
  dsimp only
  rw [hpt]
  change (popcnt (word pt.pages o) : Int) + _ = _ at hcount
  simp only [popcnt] at hcount
  simp only [onBits] at hbits
  omega

theorem touchAll_counted (h : Counts change) (hpt : Counted pt) {offsets : List Nat}
    (hoffsets : ∀ o ∈ offsets, o < 64) : Counted (offsets.foldl (touch change) pt) := by
  induction offsets generalizing pt with
  | nil => exact hpt
  | cons o offsets ih =>
    exact ih (touch_counted h hpt (hoffsets o List.mem_cons_self))
      fun k hk => hoffsets k (List.mem_cons_of_mem o hk)

theorem changePages_counted (hmasked : ∀ mask, Counts (masked mask)) (hfull : Counts full)
    (hpt : Counted pt) (hle : first ≤ last) (hlast : last < 0x900) :
    Counted (changePages masked full pt first last) := by
  have hfirstOffset : offsetOf first < 64 := by
    rw [offsetOf]
    omega
  have hlastOffset : offsetOf last < 64 := by
    rw [offsetOf]
    omega
  simp only [changePages]
  split
  · have hbetween : ∀ o ∈ List.range' (offsetOf first + 1) (offsetOf last - offsetOf first - 1),
        o < 64 := by
      intro o ho
      have hrange := List.mem_range'_1.mp ho
      omega
    exact touch_counted (hmasked _) (touchAll_counted hfull (touch_counted (hmasked _) hpt
      hfirstOffset) hbetween) hlastOffset
  · exact touch_counted (hmasked _) hpt hlastOffset

theorem addPages_counts (mask : BitVec 32) :
    Counts fun old => (mask ||| old, (popcnt (mask &&& ~~~old) : Int)) := by
  intro old
  have hadded : popcnt (mask ||| old) = popcnt old + popcnt (mask &&& ~~~old) := onBits_or mask old
  dsimp only
  omega

theorem fillPages_counts : Counts fun old => (BitVec.allOnes 32, 32 - (popcnt old : Int)) := by
  intro old
  have hall : popcnt (BitVec.allOnes 32) = 32 := onBits_allOnes
  dsimp only
  omega

theorem removePages_counts (mask : BitVec 32) :
    Counts fun old => (old &&& ~~~mask, -(popcnt (old &&& mask) : Int)) := by
  intro old
  have hsplit : popcnt (old &&& mask) + popcnt (old &&& ~~~mask) = popcnt old :=
    onBits_and_add old mask
  dsimp only
  omega

theorem clearPages_counts : Counts fun old => (0, -(popcnt old : Int)) := by
  intro old
  have hzero : popcnt 0 = 0 := onBits_zero
  dsimp only
  omega

theorem onPages_counted {all : BitVec 32} {allPopcnt : Int} (hmasked : ∀ mask, Counts (masked mask))
    (hfull : Counts full) (hall : allPopcnt = 64 * popcnt all) (hpt : Counted pt)
    (first last : Int) :
    Counted (onPages realloc all allPopcnt masked full pt first last).1 := by
  simp only [onPages]
  split
  · rename_i hvalid
    simp only [validPgno, decide_eq_true_eq] at hvalid
    split
    · have hbits : setBits (Vector.replicate 64 all) = 64 * popcnt all := setBits_replicate all
      rw [Counted]
      dsimp only
      rw [hbits, hall]
      rfl
    · have hremoved : Counted (removeSubpagesInPageRange realloc pt (min first last).toNat
          (max first last).toNat) := by
        rw [Counted, removeSubpagesInPageRange, shrink_pages, shrink_popcnt]
        exact hpt
      exact changePages_counted hmasked hfull hremoved (by omega) (by omega)
  · exact hpt

theorem addDisplayable_counted (hpt : Counted pt) {start : Nat} (hstart : start < 0x900) :
    Counted (addDisplayable realloc pt start) := by
  have hoffset : offsetOf start < 64 := by
    rw [offsetOf]
    omega
  simp only [addDisplayable]
  apply touch_counted (addPages_counts _) _ hoffset
  rw [Counted, removeSubpagesInPageRange, removeSubpagesInPageRange, shrink_pages, shrink_popcnt]
  dsimp only
  rw [shrink_pages, shrink_popcnt]
  exact hpt

theorem addAllDisplayablePages_counted (hpt : Counted pt) :
    Counted (addAllDisplayablePages realloc pt) := by
  have hall : ∀ starts : List Nat, (∀ start ∈ starts, start < 0x900) → ∀ {pt : VbiPageTable},
      Counted pt → Counted (starts.foldl (addDisplayable realloc) pt) := by
    intro starts
    induction starts with
    | nil => exact fun _ _ hpt => hpt
    | cons start starts ih =>
      intro h pt hpt
      exact ih (fun k hk => h k (List.mem_cons_of_mem start hk))
        (addDisplayable_counted hpt (h start List.mem_cons_self))
  exact hall displayableStarts (fun start hstart => (displayableStarts_spec start hstart).2.1) hpt

/-- Whole pages only take ranges away. -/
theorem onPages_sublist (realloc : Realloc) (all : BitVec 32) (allPopcnt : Int)
    (masked : BitVec 32 → Change) (full : Change) (pt : VbiPageTable) (first last : Int) :
    (onPages realloc all allPopcnt masked full pt first last).1.subpages.Sublist pt.subpages := by
  simp only [onPages]
  split
  · split
    · rw [shrink_subpages]
      exact List.nil_sublist _
    · rw [(changePages_sameVector _ _ _ _ _).subpages, removeSubpagesInPageRange, shrink_subpages]
      exact List.filter_sublist
  · exact List.Sublist.refl _

theorem addDisplayable_sublist (realloc : Realloc) (starts : List Nat) (pt : VbiPageTable) :
    (starts.foldl (addDisplayable realloc) pt).subpages.Sublist pt.subpages := by
  induction starts generalizing pt with
  | nil => exact List.Sublist.refl _
  | cons start starts ih =>
    have hone : (addDisplayable realloc pt start).subpages.Sublist pt.subpages := by
      simp only [addDisplayable, touch, removeSubpagesInPageRange, shrink_subpages]
      exact List.filter_sublist.trans List.filter_sublist
    exact (ih (addDisplayable realloc pt start)).trans hone

theorem new_invariant : Invariant new := by
  constructor
  · exact new_consistent
  · have hzero : onBits (0 : BitVec 32) = 0 := onBits_zero
    rw [Counted]
    simp only [new]
    rw [setBits_replicate, hzero]
    rfl
  · exact List.Pairwise.nil

theorem addPages_invariant (realloc : Realloc) (hpt : Invariant pt) (first last : Int) :
    Invariant (addPages realloc pt first last).1 := by
  have hall : (0x800 : Int) = 64 * popcnt (BitVec.allOnes 32) := by
    have h32 : popcnt (BitVec.allOnes 32) = 32 := onBits_allOnes
    rw [h32]
    rfl
  constructor
  · exact (addPages_members realloc hpt.consistent first last).1
  · exact onPages_counted addPages_counts fillPages_counts hall hpt.counted first last
  · exact hpt.ascending.sublist (onPages_sublist realloc _ _ _ _ pt first last)

theorem removePages_invariant (realloc : Realloc) (hpt : Invariant pt) (first last : Int) :
    Invariant (removePages realloc pt first last).1 := by
  have hnone : (0 : Int) = 64 * popcnt 0 := by
    have hzero : popcnt 0 = 0 := onBits_zero
    rw [hzero]
    rfl
  constructor
  · exact (removePages_members realloc hpt.consistent first last).1
  · exact onPages_counted removePages_counts clearPages_counts hnone hpt.counted first last
  · exact hpt.ascending.sublist (onPages_sublist realloc _ _ _ _ pt first last)

theorem addAllDisplayablePages_invariant (realloc : Realloc) (hpt : Invariant pt) :
    Invariant (addAllDisplayablePages realloc pt) := by
  constructor
  · exact (addAllDisplayablePages_members realloc hpt.consistent).1
  · exact addAllDisplayablePages_counted hpt.counted
  · exact hpt.ascending.sublist (addDisplayable_sublist realloc displayableStarts pt)

/-- Parts of a range, in ascending order, take its place. -/
theorem ascending_replace (h : Ascending (done ++ r :: rest)) (hparts : Ascending parts)
    (hinside : ∀ q ∈ parts, q.pgno = r.pgno ∧ r.first ≤ q.first ∧ q.last ≤ r.last) :
    Ascending (done ++ parts ++ rest) := by
  obtain ⟨hdone, hrest, hacross⟩ := List.pairwise_append.mp h
  obtain ⟨hbehind, hrest⟩ := List.pairwise_cons.mp hrest
  refine List.pairwise_append.mpr ⟨List.pairwise_append.mpr ⟨hdone, hparts, ?_⟩, hrest, ?_⟩
  · intro a ha q hq hsame
    obtain ⟨hpgno, hfirst, -⟩ := hinside q hq
    have hbefore := hacross a ha r List.mem_cons_self (hsame.trans hpgno)
    omega
  · intro a ha b hb hsame
    rcases List.mem_append.mp ha with ha | ha
    · exact hacross a ha b (List.mem_cons_of_mem r hb) hsame
    · obtain ⟨hpgno, -, hlast⟩ := hinside a ha
      have hafter := hbehind b hb (hpgno.symm.trans hsame)
      omega

/-- Ranges of pages with a property, none of them empty or too long. -/
def Proper (page : Nat → Prop) (rs : List SubpageRange) : Prop :=
  ∀ r ∈ rs, page r.pgno ∧ r.first ≤ r.last ∧ r.last ≤ maxSubno

theorem proper_replace (h : Proper page (done ++ r :: rest))
    (hparts : ∀ q ∈ parts, q.pgno = r.pgno ∧ r.first ≤ q.first ∧ q.last ≤ r.last)
    (horder : ∀ q ∈ parts, q.first ≤ q.last) : Proper page (done ++ parts ++ rest) := by
  intro q hq
  rcases List.mem_append.mp hq with hq | hq
  · rcases List.mem_append.mp hq with hq | hq
    · exact h q (List.mem_append_left _ hq)
    · obtain ⟨hpage, -, hmax⟩ := h r (List.mem_append_right _ List.mem_cons_self)
      obtain ⟨hpgno, -, hlast⟩ := hparts q hq
      rw [hpgno]
      exact ⟨hpage, horder q hq, hlast.trans hmax⟩
  · exact h q (List.mem_append_right _ (List.mem_cons_of_mem r hq))

theorem extend_popcnt {n : Nat} (h : extendSubpagesVector realloc pt n = some t) :
    t.pagesPopcnt = pt.pagesPopcnt := by
  rw [extendSubpagesVector] at h
  split at h
  · rw [← Option.some.inj h]
  · rw [extendVector] at h
    split at h
    · cases h
    · obtain ⟨room, -, rfl⟩ := Option.map_eq_some_iff.mp h
      rfl

structure Narrowed (page : Nat → Prop) (pt t : VbiPageTable) : Prop where
  pages : t.pages = pt.pages
  popcnt : t.pagesPopcnt = pt.pagesPopcnt
  ascending : Ascending t.subpages
  proper : Proper page t.subpages

theorem removeLoop_narrowed (hle : first ≤ last) (hascending : Ascending (done ++ rest))
    (hproper : Proper page (done ++ rest))
    (h : removeLoop realloc pgno first last pt done rest = some (t, ok)) :
    Narrowed page pt t := by
  induction rest generalizing pt done with
  | nil =>
    rw [removeLoop] at h
    cases h
    rw [List.append_nil] at hascending hproper
    exact ⟨rfl, rfl, hascending, hproper⟩
  | cons r rest ih =>
    rw [removeLoop] at h
    by_cases hdisjoint : pgno ≠ r.pgno ∨ first > r.last ∨ last < r.first
    · rw [if_pos hdisjoint] at h
      rw [List.append_cons] at hascending hproper
      exact ih hascending hproper h
    rw [if_neg hdisjoint] at h
    by_cases hinner : first > r.first ∧ last < r.last
    · rw [if_pos hinner] at h
      cases hextend : extendSubpagesVector realloc pt ((done ++ r :: rest).length + 1) with
      | none =>
        rw [hextend] at h
        cases h
        exact ⟨rfl, rfl, hascending, hproper⟩
      | some u =>
        have hpages := (extend_same realloc hextend).1
        have hpopcnt := extend_popcnt hextend
        rw [hextend] at h
        dsimp only at h
        split at h
        · have hinside : ∀ q ∈ [{ r with last := first }, { r with first := last + 1 }],
              q.pgno = r.pgno ∧ r.first ≤ q.first ∧ q.last ≤ r.last := by
            intro q hq
            rcases List.mem_pair.mp hq with rfl | rfl
            · exact ⟨rfl, Nat.le_refl _, by dsimp only; omega⟩
            · exact ⟨rfl, by dsimp only; omega, Nat.le_refl _⟩
          have horder : ∀ q ∈ [{ r with last := first }, { r with first := last + 1 }],
              q.first ≤ q.last := by
            intro q hq
            rcases List.mem_pair.mp hq with rfl | rfl
            · exact Nat.le_of_lt hinner.1
            · exact hinner.2
          have htwo : Ascending [{ r with last := first }, { r with first := last + 1 }] :=
            List.pairwise_pair.mpr fun _ => Nat.lt_succ_of_le hle
          have hrest := ih (ascending_replace hascending htwo hinside)
            (proper_replace hproper hinside horder) h
          exact ⟨hrest.pages.trans hpages, hrest.popcnt.trans hpopcnt, hrest.ascending,
            hrest.proper⟩
        · cases h
    · rw [if_neg hinner] at h
      dsimp only at h
      have hclipped : ¬ max first r.first > min last r.last := by
        have hvalid := hproper r (List.mem_append_right done List.mem_cons_self)
        omega
      rw [if_neg hclipped] at h
      have hinside : ∀ q ∈ [{ r with first := max first r.first, last := min last r.last }],
          q.pgno = r.pgno ∧ r.first ≤ q.first ∧ q.last ≤ r.last := by
        intro q hq
        rw [List.mem_singleton.mp hq]
        exact ⟨rfl, Nat.le_max_right _ _, Nat.min_le_right _ _⟩
      have horder : ∀ q ∈ [{ r with first := max first r.first, last := min last r.last }],
          q.first ≤ q.last := by
        intro q hq
        rw [List.mem_singleton.mp hq]
        exact Nat.le_of_not_lt hclipped
      exact ih (ascending_replace hascending (List.pairwise_singleton _ _) hinside)
        (proper_replace hproper hinside horder) h

theorem consistent_iff_proper (pt : VbiPageTable) :
    Consistent pt ↔ Proper (fun p => ValidPage p ∧ whole pt p = false) pt.subpages := by
  constructor
  · intro h r hr
    exact ⟨⟨h.page r hr, h.partly r hr⟩, h.range r hr⟩
  · intro h
    exact ⟨fun r hr => (h r hr).1.1, fun r hr => (h r hr).2, fun r hr => (h r hr).1.2⟩

theorem Narrowed.invariant (h : Narrowed (fun p => ValidPage p ∧ whole pt p = false) pt t)
    (hpt : Counted pt) : Invariant t := by
  constructor
  · rw [consistent_iff_proper]
    simp only [whole, h.pages]
    exact h.proper
  · rw [Counted, h.pages, h.popcnt]
    exact hpt
  · exact h.ascending

theorem shrink_invariant (hpt : Invariant pt) :
    Invariant (shrinkSubpagesVector realloc pt) := by
  constructor
  · exact consistent_congr (shrink_pages realloc pt) (shrink_subpages realloc pt) hpt.consistent
  · rw [Counted, shrink_pages, shrink_popcnt]
    exact hpt.counted
  · rw [shrink_subpages]
    exact hpt.ascending

theorem addSubpages_invariant (hpt : Invariant pt) {pgno first last : Int}
    (h : addSubpages realloc pt pgno first last = some (t, ok)) : Invariant t := by
  rw [addSubpages] at h
  by_cases hany : first = anySubno ∧ last = anySubno
  · rw [if_pos hany] at h
    obtain rfl := congrArg Prod.fst (Option.some.inj h)
    exact addPages_invariant realloc hpt pgno pgno
  rw [if_neg hany] at h
  by_cases hvalid : validSubpageRange pgno first last = true
  · have ho := ordered_of_valid hvalid
    rw [if_pos hvalid] at h
    by_cases hcontains : containsPage pt pgno = true
    · rw [if_pos hcontains] at h
      obtain rfl := congrArg Prod.fst (Option.some.inj h)
      exact hpt
    rw [if_neg hcontains] at h
    obtain ⟨hnew, hpartly⟩ := absent_page hpt.consistent ho.page (Bool.not_eq_true _ ▸ hcontains)
    dsimp only at h
    rw [mergeFirst_none hnew] at h
    dsimp only at h
    cases hextend : extendSubpagesVector realloc pt (pt.subpages.length + 1) with
    | none =>
      rw [hextend] at h
      obtain rfl := congrArg Prod.fst (Option.some.inj h)
      exact hpt
    | some u =>
      obtain ⟨hpages, hsubpages⟩ := extend_same realloc hextend
      have hpopcnt := extend_popcnt hextend
      rw [hextend] at h
      dsimp only [setSubpages] at h
      split at h
      · obtain rfl := congrArg Prod.fst (Option.some.inj h)
        constructor
        · apply consistent_append (consistent_congr hpages hsubpages hpt.consistent)
          intro r hr
          rw [List.mem_singleton.mp hr]
          refine ⟨?_, ho.order, ho.limit, ?_⟩
          · dsimp only
            rw [ho.pgno_cast]
            exact ho.page
          · rw [whole, hpages]
            exact hpartly
        · rw [Counted]
          dsimp only
          rw [hpages, hpopcnt]
          exact hpt.counted
        · rw [hsubpages]
          refine List.pairwise_append.mpr ⟨hpt.ascending, List.pairwise_singleton _ _, ?_⟩
          intro a ha b hb hsame
          rw [List.mem_singleton.mp hb] at hsame
          exact absurd hsame (hnew a ha)
      · cases h
  · rw [if_neg hvalid] at h
    obtain rfl := congrArg Prod.fst (Option.some.inj h)
    exact hpt

/-- The ranges below and above the removed one are in order. -/
theorem remaining_ascending (pgno : Nat) {low high : Nat} (h : low ≤ high) :
    Ascending (remaining pgno low high) := by
  rw [remaining]
  split
  · split
    · exact List.pairwise_pair.mpr fun _ => by dsimp only; omega
    · exact List.pairwise_singleton _ _
  · split
    · exact List.pairwise_singleton _ _
    · exact List.Pairwise.nil

theorem clear_counted (hpt : Counted pt) (hlow : 0x100 ≤ pgno) (hhigh : pgno < 0x900)
    (hwhole : whole pt pgno = true) : Counted { pt with
      pagesPopcnt := pt.pagesPopcnt - 1
      pages := setWord pt.pages (offsetOf pgno)
        (word pt.pages (offsetOf pgno) &&& ~~~(1#32 <<< (pgno % 32))) } := by
  have hoffset : offsetOf pgno < 64 := by
    rw [offsetOf]
    omega
  have hmod : (pgno - 0x100) % 32 = pgno % 32 := by omega
  have hbit : (word pt.pages (offsetOf pgno)).getLsbD (pgno % 32) = true := by
    rw [whole, bit, hmod] at hwhole
    exact hwhole
  have hclear := onBits_clear (Nat.mod_lt pgno (by decide)) hbit
  have hset := setBits_setWord pt.pages hoffset
    (word pt.pages (offsetOf pgno) &&& ~~~(1#32 <<< (pgno % 32)))
  rw [Counted] at hpt
  rw [Counted]
  dsimp only
  omega

theorem removeSubpages_invariant (hpt : Invariant pt) {pgno first last : Int}
    (h : removeSubpages realloc pt pgno first last = some (t, ok)) : Invariant t := by
  by_cases hany : first = anySubno ∧ last = anySubno
  · rw [removeSubpages, if_pos hany] at h
    obtain rfl := congrArg Prod.fst (Option.some.inj h)
    exact removePages_invariant realloc hpt pgno pgno
  by_cases hvalid : validSubpageRange pgno first last = true
  · have ho := ordered_of_valid hvalid
    have hlow : 0x100 ≤ pgno.toNat := by
      have hpage := ho.page.1
      omega
    have hhigh : pgno.toNat < 0x900 := by
      have hpage := ho.page.2
      omega
    by_cases hall : containsAllSubpages pt pgno.toNat = true
    · have hwhole : whole pt pgno.toNat = true := (containsAllSubpages_eq pt hlow).symm.trans hall
      have hresult := h
      rw [removeSubpages, if_neg hany, if_pos hvalid] at h
      dsimp only at h
      rw [if_pos hall] at h
      cases hextend : extendSubpagesVector realloc pt (pt.subpages.length + 2) with
      | none =>
        rw [hextend] at h
        obtain rfl := congrArg Prod.fst (Option.some.inj h)
        exact hpt
      | some u =>
        obtain ⟨hpages, hsubpages⟩ := extend_same realloc hextend
        have hpopcnt := extend_popcnt hextend
        rw [hextend] at h
        dsimp only [setSubpages] at h
        split at h
        · rename_i hroom
          rw [hsubpages] at hroom
          obtain ⟨v, done, hv, hconsistent, -⟩ := removeSubpages_whole realloc hpt.consistent hvalid
            hall ⟨u, hextend, hroom⟩
          obtain rfl := congrArg Prod.fst (Option.some.inj (hv.symm.trans hresult))
          obtain rfl := congrArg Prod.fst (Option.some.inj h)
          constructor
          · exact hconsistent
          · refine clear_counted ?_ hlow hhigh ?_
            · rw [Counted, hpages, hpopcnt]
              exact hpt.counted
            · rw [whole, hpages]
              exact hwhole
          · rw [hsubpages]
            refine List.pairwise_append.mpr ⟨hpt.ascending, remaining_ascending _ ho.order, ?_⟩
            intro a ha b hb hsame
            have hpartly := hpt.consistent.partly a ha
            rw [hsame, (mem_remaining hb).1, hwhole] at hpartly
            cases hpartly
        · cases h
    · rw [removeSubpages, if_neg hany, if_pos hvalid] at h
      dsimp only at h
      rw [if_neg hall] at h
      obtain ⟨⟨u, done⟩, hloop, hresult⟩ := Option.map_eq_some_iff.mp h
      have hproper : Proper (fun p => ValidPage p ∧ whole pt p = false) ([] ++ pt.subpages) :=
        (consistent_iff_proper pt).mp hpt.consistent
      have hascending : Ascending ([] ++ pt.subpages) := hpt.ascending
      have hu := (removeLoop_narrowed ho.order hascending hproper hloop).invariant hpt.counted
      dsimp only at hresult
      split at hresult
      · obtain rfl := congrArg Prod.fst hresult
        exact shrink_invariant hu
      · obtain rfl := congrArg Prod.fst hresult
        exact hu
  · rw [removeSubpages, if_neg hany, if_neg hvalid] at h
    obtain rfl := congrArg Prod.fst (Option.some.inj h)
    exact hpt

theorem perform_invariant (hpt : Invariant pt) {c : Call} (h : perform realloc pt c = some t) :
    Invariant t := by
  cases c with
  | addPages first last =>
    cases h
    exact addPages_invariant realloc hpt first last
  | removePages first last =>
    cases h
    exact removePages_invariant realloc hpt first last
  | addSubpages pgno first last =>
    obtain ⟨⟨u, ok⟩, hu, rfl⟩ := Option.map_eq_some_iff.mp h
    exact addSubpages_invariant hpt hu
  | removeSubpages pgno first last =>
    obtain ⟨⟨u, ok⟩, hu, rfl⟩ := Option.map_eq_some_iff.mp h
    exact removeSubpages_invariant hpt hu
  | addAllPages =>
    cases h
    exact addPages_invariant realloc hpt 0x100 0x8FF
  | addAllDisplayablePages =>
    cases h
    exact addAllDisplayablePages_invariant realloc hpt
  | removeAllPages =>
    cases h
    exact removePages_invariant realloc hpt 0x100 0x8FF

theorem reachable_invariant {realloc : Realloc} {calls : List Call} {pt : VbiPageTable}
    (h : run (perform realloc) new calls = some pt) : Invariant pt :=
  run_invariant Invariant (fun _ _ _ hs _ ht => perform_invariant hs ht) new_invariant
    (permitted_true _ _ _) h

/-- After every sequence of calls, whatever `realloc()` did, the counter is the
number of set bits, all of them of pages, and no whole page has a range. -/
theorem page_table_invariant (realloc : Realloc) (calls : List Call) (pt : VbiPageTable)
    (h : run (perform realloc) new calls = some pt) :
    pt.pagesPopcnt = setBits pt.pages ∧
    (∀ offset i, (word pt.pages offset).getLsbD i = true → ValidPage (0x100 + 32 * offset + i)) ∧
    ∀ r ∈ pt.subpages, containsAllSubpages pt r.pgno = false := by
  have hpt := reachable_invariant h
  refine ⟨hpt.counted, ?_, ?_⟩
  · intro offset i hbit
    have hi : i < 32 := BitVec.lt_of_getLsbD hbit
    have hoffset : offset < 64 := by
      by_contra hout
      rw [word, Vector.getElem?_eq_none (by omega), Option.getD_none] at hbit
      exact absurd hbit (by rw [BitVec.ofNat_eq_ofNat, BitVec.getLsbD_zero]; decide)
    exact ⟨by omega, by omega⟩
  · intro r hr
    have hpage := hpt.consistent.page r hr
    rw [containsAllSubpages_eq pt (by have := hpage.1; omega)]
    exact hpt.consistent.partly r hr

theorem page_table_invariant_mixed :
    ∃ pt, run (perform fun _ _ => some 4) new [.addSubpages 0x100 9 5, .addPages 0x1F0 0x210,
        .removeSubpages 0x200 3 4, .removeSubpages 0x100 6 7] = some pt ∧
      (pt.pagesPopcnt = setBits pt.pages ∧
        (∀ offset i, (word pt.pages offset).getLsbD i = true →
          ValidPage (0x100 + 32 * offset + i)) ∧
        ∀ r ∈ pt.subpages, containsAllSubpages pt r.pgno = false) :=
  ⟨_, rfl, page_table_invariant (fun _ _ => some 4) [.addSubpages 0x100 9 5, .addPages 0x1F0 0x210,
    .removeSubpages 0x200 3 4, .removeSubpages 0x100 6 7] _ rfl⟩

end PageTableInvariant

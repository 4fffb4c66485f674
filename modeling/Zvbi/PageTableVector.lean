import Zvbi.PageTableSet

/-!
# The vector of the page table

The functions which store ranges call `extend_vector()` and write without another check. Here
they also tell each successful call of it, and the elements they write, with the capacity of the
vector. Ranges which `remove_subpages_in_page_range()` moves to a lower place are left out.

The new capacity is the smaller one of that asked for and twice the old one. A table starts with
a capacity of zero, which remains zero, although the call succeeds.
-/

namespace PageTableVector
open WordBitmap PageTable PageTablePages PageTableSet GuardedRuns

inductive Access where
  | extended (minCapacity capacity : Nat)
  | written (index capacity : Nat)
  deriving DecidableEq

/-- The capacity is the one asked for at least, and the element is one of the vector. -/
def Access.Inside : Access → Prop
  | .extended minCapacity capacity => minCapacity ≤ capacity
  | .written index capacity => index < capacity

instance : DecidablePred Access.Inside
  | .extended minCapacity capacity => inferInstanceAs (Decidable (minCapacity ≤ capacity))
  | .written index capacity => inferInstanceAs (Decidable (index < capacity))

variable (realloc : Realloc)

/-- `extend_subpages_vector()`. -/
def extended (pt : VbiPageTable) (minCapacity : Nat) : Option VbiPageTable × List Access :=
  if minCapacity ≤ pt.subpagesCapacity then
    (some pt, [])
  else
    let result := extendVector realloc pt minCapacity
    (result, result.toList.map fun t => .extended minCapacity t.subpagesCapacity)

def writes (pt : VbiPageTable) (indices : List Nat) : List Access :=
  indices.map fun i => .written i pt.subpagesCapacity

/-- `vbi_page_table_add_subpages()`. -/
def addSubpagesTraced (pt : VbiPageTable) (pgno first last : Int) :
    Option (VbiPageTable × Bool) × List Access :=
  if first = anySubno ∧ last = anySubno then
    (some (addPages realloc pt pgno pgno), [])
  else if validSubpageRange pgno first last then
    if containsPage pt pgno then
      (some (pt, true), [])
    else
      let low := (min first last).toNat
      let high := (max first last).toNat
      match mergeFirst pgno.toNat low high pt.subpages with
      | some rs =>
        let i := pt.subpages.findIdx fun r =>
          pgno.toNat = r.pgno ∧ high ≥ r.first ∧ low ≤ r.last
        (some ({ pt with subpages := rs }, true), if rs = pt.subpages then [] else writes pt [i])
      | none =>
        match extended realloc pt (pt.subpages.length + 1) with
        | (none, trace) => (some (pt, false), trace)
        | (some pt, trace) =>
          ((setSubpages pt (pt.subpages ++ [⟨pgno.toNat, low, high⟩])).map fun pt => (pt, true),
            trace ++ writes pt [pt.subpages.length])
  else
    (some (pt, false), [])

def after {α : Type} (trace : List Access) (result : α × List Access) : α × List Access :=
  (result.1, trace ++ result.2)

/-- The loop of `vbi_page_table_remove_subpages()`. Each `memmove()` moves the elements from `i`
or `i + 1` on, and one more than there are in the latter case. -/
def removeLoopTraced (pgno first last : Nat) : VbiPageTable → List SubpageRange →
    List SubpageRange → Option (VbiPageTable × Bool) × List Access
  | pt, done, [] => (some ({ pt with subpages := done }, true), [])
  | pt, done, r :: rest =>
    if pgno ≠ r.pgno ∨ first > r.last ∨ last < r.first then
      removeLoopTraced pgno first last pt (done ++ [r]) rest
    else if first > r.first ∧ last < r.last then
      match extended realloc pt ((done ++ r :: rest).length + 1) with
      | (none, trace) => (some ({ pt with subpages := done ++ r :: rest }, false), trace)
      | (some pt, trace) =>
        let trace := trace ++ writes pt (List.range' done.length (rest.length + 2))
        if (done ++ r :: rest).length + 1 ≤ pt.room then
          after trace (removeLoopTraced pgno first last pt
            (done ++ [{ r with last := first }, { r with first := last + 1 }]) rest)
        else
          (none, trace)
    else
      let clipped := { r with first := max first r.first, last := min last r.last }
      let trace := if clipped = r then [] else writes pt [done.length]
      if clipped.first > clipped.last then
        after (trace ++ writes pt (List.range' done.length (rest.length + 1)))
          (removeLoopTraced pgno first last pt done rest)
      else
        after trace (removeLoopTraced pgno first last pt (done ++ [clipped]) rest)

/-- `vbi_page_table_remove_subpages()`. -/
def removeSubpagesTraced (pt : VbiPageTable) (pgno first last : Int) :
    Option (VbiPageTable × Bool) × List Access :=
  if first = anySubno ∧ last = anySubno then
    (some (removePages realloc pt pgno pgno), [])
  else if validSubpageRange pgno first last then
    let low := (min first last).toNat
    let high := (max first last).toNat
    let pgno := pgno.toNat
    if containsAllSubpages pt pgno then
      match extended realloc pt (pt.subpages.length + 2) with
      | (none, trace) => (some (pt, false), trace)
      | (some pt, trace) =>
        let pt := { pt with
          pagesPopcnt := pt.pagesPopcnt - 1
          pages := setWord pt.pages (offsetOf pgno)
            (word pt.pages (offsetOf pgno) &&& ~~~(1#32 <<< (pgno % 32))) }
        let ranges := remaining pgno low high
        ((setSubpages pt (pt.subpages ++ ranges)).map fun pt => (pt, true),
          trace ++ writes pt (List.range' pt.subpages.length ranges.length))
    else
      let result := removeLoopTraced realloc pgno low high pt [] pt.subpages
      (result.1.map fun r => if r.2 then (shrinkSubpagesVector realloc r.1, true) else r, result.2)
  else
    (some (pt, false), [])

def performTraced (pt : VbiPageTable) : Call → Option VbiPageTable × List Access
  | .addSubpages pgno first last =>
    let result := addSubpagesTraced realloc pt pgno first last
    (result.1.map Prod.fst, result.2)
  | .removeSubpages pgno first last =>
    let result := removeSubpagesTraced realloc pt pgno first last
    (result.1.map Prod.fst, result.2)
  | c => (perform realloc pt c, [])

/-- What a call does to the vector, also one which writes outside of the block. -/
def accesses (pt : VbiPageTable) (c : Call) : List Access := (performTraced realloc pt c).2

@[simp] theorem extended_fst (pt : VbiPageTable) (n : Nat) :
    (extended realloc pt n).1 = extendSubpagesVector realloc pt n := by
  simp only [extended, extendSubpagesVector]
  split <;> rfl

theorem addSubpagesTraced_fst (pt : VbiPageTable) (pgno first last : Int) :
    (addSubpagesTraced realloc pt pgno first last).1 = addSubpages realloc pt pgno first last := by
  have hextended := extended_fst realloc pt (pt.subpages.length + 1)
  simp only [addSubpagesTraced, addSubpages, ← hextended]
  split
  · rfl
  split
  · split
    · rfl
    cases mergeFirst pgno.toNat (min first last).toNat (max first last).toNat pt.subpages with
    | some rs => rfl
    | none =>
      obtain ⟨t, trace⟩ := extended realloc pt (pt.subpages.length + 1)
      cases t with
      | none => rfl
      | some t => rfl
  · rfl

theorem removeLoopTraced_fst (pgno first last : Nat) (pt : VbiPageTable)
    (done rest : List SubpageRange) :
    (removeLoopTraced realloc pgno first last pt done rest).1 =
      removeLoop realloc pgno first last pt done rest := by
  induction rest generalizing pt done with
  | nil => rfl
  | cons r rest ih =>
    have hextended := extended_fst realloc pt ((done ++ r :: rest).length + 1)
    simp only [removeLoopTraced, removeLoop, ← hextended]
    split
    · exact ih pt (done ++ [r])
    split
    · obtain ⟨t, trace⟩ := extended realloc pt ((done ++ r :: rest).length + 1)
      cases t with
      | none => rfl
      | some t =>
        dsimp only
        split
        · exact ih t _
        · rfl
    · split
      · exact ih pt done
      · exact ih pt _

theorem removeSubpagesTraced_fst (pt : VbiPageTable) (pgno first last : Int) :
    (removeSubpagesTraced realloc pt pgno first last).1 =
      removeSubpages realloc pt pgno first last := by
  have hextended := extended_fst realloc pt (pt.subpages.length + 2)
  simp only [removeSubpagesTraced, removeSubpages, ← hextended, removeLoopTraced_fst]
  split
  · rfl
  split
  · split
    · obtain ⟨t, trace⟩ := extended realloc pt (pt.subpages.length + 2)
      cases t with
      | none => rfl
      | some t => rfl
    · rfl
  · rfl

/-- To tell the accesses changes nothing. -/
theorem performTraced_fst (pt : VbiPageTable) (c : Call) :
    (performTraced realloc pt c).1 = perform realloc pt c := by
  cases c with
  | addSubpages pgno first last =>
    simp only [performTraced, perform, addSubpagesTraced_fst]
  | removeSubpages pgno first last =>
    simp only [performTraced, perform, removeSubpagesTraced_fst]
  | _ => rfl

abbrev Unused (pt : VbiPageTable) : Prop := SameVector new pt

variable {realloc} {pt : VbiPageTable}

theorem Unused.shrink (h : Unused pt) : shrinkSubpagesVector realloc pt = pt := by
  have hcapacity : pt.subpagesCapacity = 0 := h.capacity
  simp [shrinkSubpagesVector, hcapacity]

theorem Unused.removeRange (h : Unused pt) (first last : Nat) :
    removeSubpagesInPageRange realloc pt first last = pt := by
  have hsubpages : pt.subpages = [] := h.subpages
  have hsame : { pt with subpages := [] } = pt := by rw [← hsubpages]
  simp [removeSubpagesInPageRange, hsubpages, hsame, h.shrink]

theorem Unused.onPages (h : Unused pt) (all : BitVec 32) (allPopcnt : Int)
    (masked : BitVec 32 → Change) (whole : Change) (first last : Int) :
    Unused (onPages realloc all allPopcnt masked whole pt first last).1 := by
  have hempty : Unused { pt with subpages := [] } := ⟨rfl, h.capacity, h.room⟩
  simp only [PageTable.onPages, hempty.shrink, h.removeRange]
  split
  · split
    · exact ⟨rfl, h.capacity, h.room⟩
    · exact h.trans (changePages_sameVector masked whole pt _ _)
  · exact h

theorem Unused.addAllDisplayablePages (h : Unused pt) :
    Unused (addAllDisplayablePages realloc pt) := by
  refine List.foldlRecOn displayableStarts (addDisplayable realloc) h ?_
  intro t ht pgno _
  simp only [addDisplayable, ht.removeRange]
  exact ⟨ht.subpages, ht.capacity, ht.room⟩

/-- `realloc()` is asked for no bytes, and the capacity is zero if it returns a block. -/
theorem Unused.extended (realloc : Realloc) (h : Unused pt) {n : Nat} (hpos : 0 < n)
    (hmax : n ≤ maxCapacity) :
    extended realloc pt n = match realloc 0 0 with
      | none => (none, [])
      | some room => (some { pt with room := room }, [.extended n 0]) := by
  obtain ⟨-, hcapacity, hroom⟩ := h
  have hcapacity : pt.subpagesCapacity = 0 := hcapacity
  have hroom : pt.room = 0 := hroom
  have hvector : extendVector realloc pt n =
      (realloc 0 0).map fun room => { pt with room := room } := by
    simp [extendVector, hcapacity, hroom, Nat.not_lt.mpr hmax]
  simp only [PageTableVector.extended, hcapacity, Nat.not_le.mpr hpos, if_false, hvector]
  cases realloc 0 0 with
  | none => rfl
  | some room => simp

theorem Unused.containsPage (h : Unused pt) {pgno : Int} (hvalid : validPgno pgno = true) :
    containsPage pt pgno = containsAllSubpages pt pgno.toNat := by
  have hsubpages : pt.subpages = [] := h.subpages
  simp [PageTable.containsPage, containsSubpage, hvalid, hsubpages]

/-- No range has to be stored: subpages are added to a page which is there as a whole, and
removed from one which is not. -/
def Spared (pt : VbiPageTable) : Call → Prop
  | .addSubpages pgno first last =>
    validSubpageRange pgno first last = true → containsAllSubpages pt pgno.toNat = true
  | .removeSubpages pgno first last =>
    validSubpageRange pgno first last = true → containsAllSubpages pt pgno.toNat = false
  | _ => True

section
variable {pgno first last : Int}

theorem Unused.addSubpages (h : Unused pt) (hvalid : validSubpageRange pgno first last = true) :
    addSubpagesTraced realloc pt pgno first last =
      if containsAllSubpages pt pgno.toNat then (some (pt, true), [])
      else match realloc 0 0 with
        | none => (some (pt, false), [])
        | some room =>
          ((setSubpages { pt with room := room }
            [⟨pgno.toNat, (min first last).toNat, (max first last).toNat⟩]).map fun pt => (pt, true),
            [.extended 1 0, .written 0 0]) := by
  have hpgno : validPgno pgno = true := by
    rw [validSubpageRange, Bool.and_eq_true] at hvalid
    exact hvalid.1
  have hsubpages : pt.subpages = [] := h.subpages
  have hcapacity : pt.subpagesCapacity = 0 := h.capacity
  have hextended := h.extended realloc Nat.one_pos (by decide)
  simp only [addSubpagesTraced, (ordered_of_valid hvalid).notAny, if_false, hvalid, if_true,
    h.containsPage hpgno, hsubpages, mergeFirst, List.length_nil, Nat.zero_add, hextended]
  split
  · rfl
  · cases realloc 0 0 with
    | none => rfl
    | some room => simp [writes, hcapacity]

theorem Unused.removeSubpages (realloc : Realloc) (h : Unused pt)
    (hvalid : validSubpageRange pgno first last = true) :
    (containsAllSubpages pt pgno.toNat = false →
      removeSubpagesTraced realloc pt pgno first last = (some (pt, true), [])) ∧
    (containsAllSubpages pt pgno.toNat = true →
      (realloc 0 0 = none →
        removeSubpagesTraced realloc pt pgno first last = (some (pt, false), [])) ∧
      ∀ room, realloc 0 0 = some room →
        Access.extended 2 0 ∈ (removeSubpagesTraced realloc pt pgno first last).2) := by
  have hsubpages : pt.subpages = [] := h.subpages
  have hsame : { pt with subpages := [] } = pt := by rw [← hsubpages]
  have hextended := h.extended realloc Nat.two_pos (by decide)
  simp only [removeSubpagesTraced, (ordered_of_valid hvalid).notAny, if_false, hvalid, if_true,
    hsubpages, List.length_nil, Nat.zero_add, hextended]
  constructor
  · intro hpartly
    simp [hpartly, removeLoopTraced, hsame, h.shrink]
  · intro hwhole
    simp only [hwhole, if_true]
    constructor
    · intro hnone
      simp [hnone]
    · intro room hroom
      simp [hroom]

end

/-- A call which need not store a range, or cannot, leaves the vector unused. -/
theorem Unused.quiet (h : Unused pt) {c : Call} (hc : realloc 0 0 = none ∨ Spared pt c) :
    ∃ t, performTraced realloc pt c = (some t, []) ∧ Unused t := by
  cases c with
  | addPages first last => exact ⟨_, rfl, h.onPages _ _ _ _ first last⟩
  | removePages first last => exact ⟨_, rfl, h.onPages _ _ _ _ first last⟩
  | addAllPages => exact ⟨_, rfl, h.onPages _ _ _ _ 0x100 0x8FF⟩
  | removeAllPages => exact ⟨_, rfl, h.onPages _ _ _ _ 0x100 0x8FF⟩
  | addAllDisplayablePages => exact ⟨_, rfl, h.addAllDisplayablePages⟩
  | addSubpages pgno first last =>
    by_cases hany : first = anySubno ∧ last = anySubno
    · simp only [performTraced, addSubpagesTraced, hany]
      exact ⟨_, rfl, h.onPages _ _ _ _ pgno pgno⟩
    by_cases hvalid : validSubpageRange pgno first last = true
    · refine ⟨pt, ?_, h⟩
      simp only [performTraced, h.addSubpages hvalid]
      rcases hc with hnone | hspared
      · split
        · rfl
        · simp [hnone]
      · simp [hspared hvalid]
    · simp only [performTraced, addSubpagesTraced, hany, hvalid, if_false]
      exact ⟨_, rfl, h⟩
  | removeSubpages pgno first last =>
    by_cases hany : first = anySubno ∧ last = anySubno
    · simp only [performTraced, removeSubpagesTraced, hany]
      exact ⟨_, rfl, h.onPages _ _ _ _ pgno pgno⟩
    by_cases hvalid : validSubpageRange pgno first last = true
    · obtain ⟨hpartly, hwhole⟩ := h.removeSubpages realloc hvalid
      refine ⟨pt, ?_, h⟩
      simp only [performTraced]
      rcases hc with hnone | hspared
      · cases hall : containsAllSubpages pt pgno.toNat with
        | false => simp [hpartly hall]
        | true => simp [(hwhole hall).1 hnone]
      · simp [hpartly (hspared hvalid)]
    · simp only [performTraced, removeSubpagesTraced, hany, hvalid, if_false]
      exact ⟨_, rfl, h⟩

/-- A call which has to store a range extends the vector to no elements. -/
theorem Unused.short (h : Unused pt) {room : Nat} (hroom : realloc 0 0 = some room) {c : Call}
    (hc : ¬ Spared pt c) : ∃ n, 0 < n ∧ Access.extended n 0 ∈ accesses realloc pt c := by
  cases c with
  | addSubpages pgno first last =>
    obtain ⟨hvalid, hpartly⟩ := Classical.not_imp.mp hc
    refine ⟨1, Nat.one_pos, ?_⟩
    simp [accesses, performTraced, h.addSubpages hvalid, hpartly, hroom]
  | removeSubpages pgno first last =>
    obtain ⟨hvalid, hwhole⟩ := Classical.not_imp.mp hc
    refine ⟨2, Nat.two_pos, ?_⟩
    exact ((h.removeSubpages realloc hvalid).2 (Bool.not_eq_false _ ▸ hwhole)).2 room hroom
  | _ => exact absurd trivial hc

/-- In a run of calls all successful extensions have the capacity asked for, and all elements
written are inside of the vector, exactly if `realloc()` returns no block where it is asked for
no bytes, or no call has to store a range. -/
theorem vector_accesses_inside_iff (realloc : Realloc) (calls : List Call) :
    Permitted (perform realloc) (fun pt c => ∀ a ∈ accesses realloc pt c, a.Inside) new calls ↔
      realloc 0 0 = none ∨ Permitted (perform realloc) Spared new calls := by
  have agree : ∀ pt c, Unused pt →
      ((realloc 0 0 = none ∨ Spared pt c) ↔ ∀ a ∈ accesses realloc pt c, a.Inside) := by
    intro pt c hpt
    constructor
    · intro hc a ha
      obtain ⟨t, ht, -⟩ := hpt.quiet hc
      rw [accesses, ht] at ha
      exact absurd ha List.not_mem_nil
    · intro hinside
      by_contra hc
      obtain ⟨hsome, hspared⟩ := not_or.mp hc
      obtain ⟨room, hroom⟩ := Option.ne_none_iff_exists'.mp hsome
      obtain ⟨n, hn, hmem⟩ := hpt.short hroom hspared
      exact absurd (hinside _ hmem) (Nat.not_le.mpr hn)
  have keeps : ∀ pt c t, Unused pt → realloc 0 0 = none ∨ Spared pt c →
      perform realloc pt c = some t → Unused t := by
    intro pt c t hpt hc ht
    obtain ⟨u, hu, hunused⟩ := hpt.quiet hc
    rw [← performTraced_fst, hu] at ht
    obtain rfl := Option.some.inj ht
    exact hunused
  rw [← permitted_congr Unused keeps agree ⟨rfl, rfl, rfl⟩ calls]
  by_cases hnone : realloc 0 0 = none
  · simp only [hnone, true_or, iff_true]
    exact permitted_true (perform realloc) new calls
  · simp only [hnone, false_or]

/-- The first range. The extension succeeds with no capacity, and element 0 is written. If
`realloc()` returns no more room than asked for, it is written behind the block. -/
theorem vector_accesses_outside :
    extendVector (fun _ _ => some 2) new 1 = some { new with room := 2 } ∧
      accesses (fun _ _ => some 2) new (.addSubpages 0x100 1 1) = [.extended 1 0, .written 0 0] ∧
      perform (fun _ n => some n) new (.addSubpages 0x100 1 1) = none ∧
      ¬ Permitted (perform fun _ _ => some 2)
        (fun pt c => ∀ a ∈ accesses (fun _ _ => some 2) pt c, a.Inside) new
        [.addSubpages 0x100 1 1] := by
  decide +kernel

end PageTableVector

import Zvbi.PageCacheRuns

/-!
# The choice of pages to be deleted

The loops visit the pages of networks which are not in use first, and then all
pages, these again. The memory counted is that of the pages selected, so a page
selected twice is counted twice. A single page is reused if the memory missing
is its size, whatever the size of the new page.
-/

namespace PageCacheSelection
open RecordHeap PageCache PageCacheAccounts PageCacheReferences PageCacheEviction PageCachePut
open PageCacheRuns GuardedRuns

variable {available : Int} {pages : List Addr} {cn : CacheNetwork}

variable {order : List Addr} {t : DeathRow}

section Order
variable {size : Addr → Nat} {needed : Int}

theorem gather_begins (available : Int) (order : List Addr) :
    (gather size needed available order).2 <+: order := by
  induction order generalizing available with
  | nil => exact List.nil_prefix
  | cons a rest ih =>
    by_cases henough : available ≥ needed
    · rw [gather_enough henough]
      exact List.nil_prefix
    · simp only [gather, if_neg henough]
      exact List.cons_prefix_cons.mpr ⟨rfl, ih _⟩

/-- Pages which do not suffice are all taken. -/
theorem gather_all (h : available + ((order.map size).sum : Nat) < needed) :
    gather size needed available order = (available + ((order.map size).sum : Nat), order) := by
  induction order generalizing available with
  | nil => simp [gather]
  | cons a rest ih =>
    rw [List.map_cons, List.sum_cons] at h
    have hless : ¬available ≥ needed := by omega
    have hrest : available + size a + ((rest.map size).sum : Nat) < needed := by omega
    simp only [gather, if_neg hless, ih hrest, List.map_cons, List.sum_cons]
    simp only [Nat.cast_add, Int.add_assoc]

theorem gather_reaches (h : needed ≤ available + ((order.map size).sum : Nat)) :
    needed ≤ (gather size needed available order).1 := by
  induction order generalizing available with
  | nil => simpa [gather] using h
  | cons a rest ih =>
    by_cases henough : available ≥ needed
    · rw [gather_enough henough]
      exact henough
    · rw [List.map_cons, List.sum_cons] at h
      simp only [gather, if_neg henough]
      exact ih (by omega)

theorem gather_append_enough {first : List Addr}
    (h : needed ≤ available + ((first.map size).sum : Nat)) (rest : List Addr) :
    gather size needed available (first ++ rest) = gather size needed available first := by
  rw [gather_append, gather_enough (gather_reaches h), List.append_nil]

/-- When some pages are visited again, no page is taken twice if there are none of
these, or there is enough memory before the first of them is met again. -/
theorem gather_again_nodup {available : Int} {firsts all : List Addr} (hfirsts : firsts.Nodup)
    (hall : all.Nodup) (hsub : ∀ a ∈ firsts, a ∈ all) :
    (gather size needed available (firsts ++ all)).2.Nodup ↔
      firsts = [] ∨ needed ≤ available + ((firsts.map size).sum : Nat) +
        (((all.takeWhile (· ∉ firsts)).map size).sum : Nat) := by
  have hsum : ∀ others : List Addr, available + (((firsts ++ others).map size).sum : Nat) =
      available + ((firsts.map size).sum : Nat) + ((others.map size).sum : Nat) := by
    intro others
    rw [List.map_append, List.sum_append]
    omega
  constructor
  · intro honce
    by_contra hnot
    rw [not_or] at hnot
    obtain ⟨hsome, hless⟩ := hnot
    rw [← hsum] at hless
    have htaken := gather_all (Int.not_le.mp hless)
    -- the first page met again
    obtain ⟨a, ha⟩ := List.exists_mem_of_ne_nil firsts hsome
    cases hdrop : all.dropWhile (· ∉ firsts) with
    | nil =>
      have hnew := List.dropWhile_eq_nil_iff.mp hdrop a (hsub a ha)
      exact of_decide_eq_true hnew ha
    | cons b rest =>
      have hagain : b ∈ firsts := by
        have hhead := List.head?_dropWhile_not (· ∉ firsts) all
        rw [hdrop] at hhead
        simpa using hhead
      have hsplit : firsts ++ all = (firsts ++ all.takeWhile (· ∉ firsts)) ++ b :: rest := by
        rw [List.append_assoc, ← hdrop, List.takeWhile_append_dropWhile]
      rw [hsplit, gather_append, htaken] at honce
      simp only [gather, if_neg hless] at honce
      exact (List.nodup_append.mp honce).2.2 b (List.mem_append_left _ hagain) b
        List.mem_cons_self rfl
  · rintro (rfl | henough)
    · exact hall.sublist (gather_begins available all).sublist
    · have hsplit : firsts ++ all =
          (firsts ++ all.takeWhile (· ∉ firsts)) ++ all.dropWhile (· ∉ firsts) := by
        rw [List.append_assoc, List.takeWhile_append_dropWhile]
      rw [← hsum] at henough
      rw [hsplit, gather_append_enough henough]
      refine List.Nodup.sublist (gather_begins _ _).sublist (List.nodup_append.mpr ?_)
      refine ⟨hfirsts, hall.sublist (List.takeWhile_sublist _), ?_⟩
      rintro a ha b hb rfl
      have hnew := List.mem_takeWhile_imp hb
      exact absurd ha (by simpa using hnew)

end Order

variable {r : DeathRow} {a n : Addr} {cp : TtxPage} {mask subno : Nat} {s : VbiCache}

section Loops
variable {ca : VbiCache} {needed : Int} {old : Option Addr} {only : Bool} {pri : CachePriority}

/-- The array has room for all pages selected. -/
theorem condemn_short (h : r.row.length ≤ deathRowSize)
    (ht : pages.foldlM (condemn ca needed old only pri) r = some t) :
    t.row.length ≤ deathRowSize := by
  induction pages generalizing r with
  | nil =>
    obtain rfl := Option.some.inj ht
    exact h
  | cons a pages ih =>
    rw [List.foldlM_cons] at ht
    obtain ⟨s, hs, hrest⟩ := Option.bind_eq_some_iff.mp ht
    refine ih ?_ hrest
    simp only [condemn] at hs
    split at hs
    · obtain rfl := Option.some.inj hs
      exact h
    split at hs
    · obtain rfl := Option.some.inj hs
      exact h
    obtain ⟨cp, -, hs⟩ := Option.bind_eq_some_iff.mp hs
    obtain ⟨cn, -, hs⟩ := Option.bind_eq_some_iff.mp hs
    split at hs
    · obtain rfl := Option.some.inj hs
      exact h
    split at hs
    · rename_i hroom
      obtain rfl := Option.some.inj hs
      simpa using hroom
    · cases hs

theorem deathRow_short (h : deathRow ca needed old = some r) :
    r.row.length ≤ deathRowSize := by
  simp only [deathRow, deathPass, Option.bind_eq_bind, Option.bind_eq_some_iff] at h
  obtain ⟨r₀, h₀, r₁, h₁, r₂, h₂, r₃, h₃, h₄⟩ := h
  refine condemn_short (condemn_short (condemn_short (condemn_short ?_ h₁) h₂) h₃) h₄
  simp only [firstVictim] at h₀
  split at h₀
  · obtain rfl := Option.some.inj h₀
    exact Nat.zero_le _
  · obtain ⟨cp, -, h₀⟩ := Option.bind_eq_some_iff.mp h₀
    obtain rfl := Option.some.inj h₀
    exact (by decide : 1 ≤ deathRowSize)

/-- After the jump nothing changes. -/
theorem condemn_done (h : r.enough = true) :
    pages.foldlM (condemn ca needed old only pri) r = some r := by
  induction pages with
  | nil => rfl
  | cons a pages ih =>
    rw [List.foldlM_cons]
    simp only [condemn, if_pos h, Option.bind_eq_bind, Option.bind_some]
    exact ih

/-- The next page visited makes the loop jump if there is enough memory. -/
theorem condemn_enough (hsome : pages ≠ []) (h : r.available ≥ needed)
    (ht : pages.foldlM (condemn ca needed old only pri) r = some t) : t.enough = true := by
  cases pages with
  | nil => exact absurd rfl hsome
  | cons a pages =>
    rw [List.foldlM_cons] at ht
    obtain ⟨s, hs, hrest⟩ := Option.bind_eq_some_iff.mp ht
    have henough : s.enough = true := by
      simp only [condemn, if_pos h] at hs
      split at hs
      · rename_i hdone
        obtain rfl := Option.some.inj hs
        exact hdone
      · obtain rfl := Option.some.inj hs
        rfl
    rw [condemn_done henough] at hrest
    obtain rfl := Option.some.inj hrest
    exact henough

end Loops

def selectedPages (ca : VbiCache) (n : Addr) (cp : TtxPage) : Option (List Addr) :=
  if cp.pgno &&& 0xFF = 0xFF then some []
  else do
    let (subno, mask) ← storedSubno ca n cp
    let (ca, found) := pageByPgno ca n cp.pgno (subno &&& mask) mask
    let (ca, old) ← retire ca found
    let r ← deathRow ca (cachePageSize cp) old
    some r.row

/-- The pages selected are distinct, not in use and fit in the array, and the memory
used stays within the limit if a page is stored. -/
structure EvictionSound (ca : VbiCache) (n : Addr) (cp : TtxPage) (memory : Bool) : Prop where
  selected : ∃ row, selectedPages ca n cp = some row ∧ row.Nodup ∧ row.length ≤ deathRowSize ∧
    ∀ a ∈ row, ∃ page, ca.pages.lookup a = some page ∧ page.refCount = 0
  within : ∀ t a, vbiCachePutPage ca n cp memory = some (t, some a) →
    t.memoryUsed ≤ t.memoryLimit

def firstPages (ca : VbiCache) (old : Option Addr) : List Addr :=
  ca.priority.filter (candidate ca old true .normal) ++
  ca.priority.filter (candidate ca old true .special)

def allPages (ca : VbiCache) (old : Option Addr) : List Addr :=
  ca.priority.filter (candidate ca old false .normal) ++
  ca.priority.filter (candidate ca old false .special)

def TakenLast (ca : VbiCache) (old : Option Addr) (a : Addr) : Prop :=
  ca.priority = [a] ∧ candidate ca old true .special a = false ∧
    candidate ca old false .special a = true

instance (ca : VbiCache) (old : Option Addr) (a : Addr) : Decidable (TakenLast ca old a) :=
  inferInstanceAs (Decidable (_ ∧ _ ∧ _))

/-- No page is visited first, or there is enough memory without counting such a page
again, and a page whose size is the memory missing is not reused for a page larger
than the memory used. -/
structure EvictionFits (ca : VbiCache) (n : Addr) (cp : TtxPage) : Prop where
  distinct : firstPages ca (replaced ca n cp) = [] ∨
    (cachePageSize cp : Int) ≤ spareMemory ca (replaced ca n cp) +
      (((firstPages ca (replaced ca n cp)).map (sizeAt ca)).sum : Nat) +
      ((((allPages ca (replaced ca n cp)).takeWhile (· ∉ firstPages ca (replaced ca n cp))).map
        (sizeAt ca)).sum : Nat)
  covered : ∀ a ∈ ((replaced ca n cp).toList ++ evictionOrder ca (replaced ca n cp)).head?,
    freeMemory ca + sizeAt ca a = cachePageSize cp →
    cachePageSize cp ≤ ca.memoryUsed.toNat ∨ TakenLast ca (replaced ca n cp) a

instance (ca : VbiCache) (n : Addr) (cp : TtxPage) : Decidable (EvictionFits ca n cp) :=
  decidable_of_iff (_ ∧ _) ⟨fun h => ⟨h.1, h.2⟩, fun h => ⟨h.distinct, h.covered⟩⟩

theorem evictionOrder_eq (ca : VbiCache) (old : Option Addr) :
    evictionOrder ca old = firstPages ca old ++ allPages ca old := by
  simp only [evictionOrder, firstPages, allPages, List.append_assoc]

theorem candidate_eq_true {ca : VbiCache} {old : Option Addr} {only : Bool} {pri : CachePriority} :
    candidate ca old only pri a = true ↔ ∃ page cn, ca.pages.lookup a = some page ∧
      ca.networkRecords.lookup page.network = some cn ∧ page.priority = pri ∧
      (only = true → cn.refCount = 0) ∧ old ≠ some a := by
  simp only [candidate]
  cases ha : ca.pages.lookup a with
  | none => simp
  | some page =>
    cases hn : ca.networkRecords.lookup page.network with
    | none => simp [hn]
    | some cn =>
      cases only with
      | false => simp [hn]
      | true => simp [hn]

/-- A page visited first is visited again. -/
theorem candidate_weaken {ca : VbiCache} {old : Option Addr} {pri : CachePriority}
    (h : candidate ca old true pri a = true) : candidate ca old false pri a = true := by
  obtain ⟨page, cn, ha, hn, hpri, -, hold⟩ := candidate_eq_true.mp h
  exact candidate_eq_true.mpr ⟨page, cn, ha, hn, hpri, (fun hfalse => by cases hfalse), hold⟩

/-- The loops for the two priorities take different pages. -/
theorem candidate_special {ca : VbiCache} {old : Option Addr} {only only' : Bool}
    (h : candidate ca old only .normal a = true) : candidate ca old only' .special a = false := by
  obtain ⟨page, cn, ha, -, hpri, -⟩ := candidate_eq_true.mp h
  rw [Bool.eq_false_iff]
  intro hspecial
  obtain ⟨page', cn', ha', -, hpri', -⟩ := candidate_eq_true.mp hspecial
  rw [ha] at ha'
  cases ha'
  rw [hpri] at hpri'
  cases hpri'

theorem nodup_two {ca : VbiCache} (h : Accounted ca) (old : Option Addr) (only : Bool) :
    (ca.priority.filter (candidate ca old only .normal) ++
      ca.priority.filter (candidate ca old only .special)).Nodup := by
  refine List.nodup_append.mpr ⟨h.linked.priorityOnce.filter _, h.linked.priorityOnce.filter _, ?_⟩
  rintro a ha b hb rfl
  have hnormal := (List.mem_filter.mp ha).2
  have hspecial := (List.mem_filter.mp hb).2
  rw [candidate_special hnormal] at hspecial
  cases hspecial

theorem firstPages_subset {ca : VbiCache} {old : Option Addr} :
    ∀ a ∈ firstPages ca old, a ∈ allPages ca old := by
  intro a ha
  simp only [firstPages, allPages, List.mem_append, List.mem_filter] at ha ⊢
  rcases ha with ⟨hmem, hc⟩ | ⟨hmem, hc⟩
  · exact Or.inl ⟨hmem, candidate_weaken hc⟩
  · exact Or.inr ⟨hmem, candidate_weaken hc⟩

/-- The death row is free of duplicates if it has enough memory before a page is
visited again. -/
theorem row_nodup_iff {ca : VbiCache} (h : Accounted ca) {needed : Int} {old : Option Addr}
    (hrow : Row (sizeAt ca) needed (spareMemory ca old) old.toList (evictionOrder ca old) r) :
    r.row.Nodup ↔ firstPages ca old = [] ∨
      needed ≤ spareMemory ca old + (((firstPages ca old).map (sizeAt ca)).sum : Nat) +
        ((((allPages ca old).takeWhile (· ∉ firstPages ca old)).map (sizeAt ca)).sum : Nat) := by
  have hiff := @gather_again_nodup (sizeAt ca) needed (spareMemory ca old) (firstPages ca old)
    (allPages ca old) (nodup_two h old true) (nodup_two h old false) firstPages_subset
  rw [hrow.taken, ← hiff, List.nodup_append, evictionOrder_eq]
  constructor
  · exact fun hnodup => hnodup.2.1
  · intro hnodup
    refine ⟨?_, hnodup, ?_⟩
    · cases old with
      | none => exact List.nodup_nil
      | some a => exact List.nodup_singleton a
    · rintro a ha b hb rfl
      have hmem := gather_subset _ _ a hb
      rw [← evictionOrder_eq] at hmem
      exact (mem_evictionOrder hmem).2 (Option.mem_toList.mp ha)

theorem sizeAt_pos {ca : VbiCache} (h : Accounted ca) (ha : a ∈ ca.priority) :
    0 < sizeAt ca a := by
  obtain ⟨page, hpage, -⟩ := (h.linked.priority a).mp ha
  have hlarge := le_cachePageSize page.toTtxPage
  have hconst : sizeofCachePage = 4504 := by decide
  simp only [sizeAt, hpage]
  omega

/-- A page of the size of the memory missing is the only one selected. -/
theorem row_single {ca : VbiCache} (h : Accounted ca) {needed : Int} {old : Option Addr}
    (hhead : (old.toList ++ evictionOrder ca old).head? = some a)
    (hsize : freeMemory ca + sizeAt ca a = needed)
    (hrow : Row (sizeAt ca) needed (spareMemory ca old) old.toList (evictionOrder ca old) r) :
    r.available = needed ∧ r.row = [a] := by
  rw [hrow.memory, hrow.taken]
  cases old with
  | some b =>
    obtain rfl : b = a := by simpa using hhead
    have hspare : spareMemory ca (some b) = needed := by simpa [spareMemory] using hsize
    rw [hspare, gather_enough (Int.le_refl _)]
    exact ⟨rfl, rfl⟩
  | none =>
    have hspare : spareMemory ca none = freeMemory ca := by simp [spareMemory]
    have hmem : a ∈ evictionOrder ca none := List.mem_of_mem_head? (Option.mem_def.mpr hhead)
    have hpos := sizeAt_pos h (mem_evictionOrder hmem).1
    have hless : ¬freeMemory ca ≥ needed := by omega
    rw [hspare]
    cases horder : evictionOrder ca none with
    | nil =>
      rw [horder] at hmem
      cases hmem
    | cons b rest =>
      rw [horder] at hhead
      obtain rfl : b = a := by simpa using hhead
      simp only [gather, if_neg hless, hsize, gather_enough (Int.le_refl _)]
      exact ⟨trivial, rfl⟩

/-- A candidate is taken while there is too little memory. -/
theorem condemn_take {ca : VbiCache} {needed : Int} {old : Option Addr} {only : Bool}
    {pri : CachePriority} (hc : candidate ca old only pri a = true) (hmore : r.enough = false)
    (hless : ¬r.available ≥ needed) (hshort : r.row.length < deathRowSize) :
    condemn ca needed old only pri r a =
      some { r with available := r.available + sizeAt ca a, row := r.row ++ [a] } := by
  obtain ⟨page, cn, hpage, hcn, hpri, hidle, hold⟩ := candidate_eq_true.mp hc
  have hnot : ¬(page.priority ≠ pri ∨ (only ∧ cn.refCount > 0) ∨ old = some a) := by
    rintro (hp | ⟨honly, hcount⟩ | ho)
    · exact hp hpri
    · rw [hidle honly] at hcount
      exact Nat.lt_irrefl 0 hcount
    · exact hold ho
  simp only [condemn, hmore, Bool.false_eq_true, if_false, if_neg hless, hpage, hcn,
    Option.bind_eq_bind, Option.bind_some, if_neg hnot, if_pos hshort, sizeAt]

/-- Without a candidate of the first three loops all unreferenced pages are taken by
the last one. -/
theorem all_special {ca : VbiCache} (h : Accounted ca)
    (hnone : ca.priority.filter (candidate ca none false .normal) = []) :
    ∀ a ∈ ca.priority, candidate ca none false .special a = true := by
  intro a ha
  obtain ⟨page, hpage, hfree⟩ := (h.linked.priority a).mp ha
  obtain ⟨cn, hcn⟩ := (h.page a page hpage).owner
  have hspecial : page.priority = .special := by
    cases hpri : page.priority with
    | zombie => exact absurd hfree ((h.page a page hpage).zombie hpri)
    | normal =>
      have hc : candidate ca none false .normal a = true :=
        candidate_eq_true.mpr ⟨page, cn, hpage, hcn, hpri, by simp, by simp⟩
      exact absurd hc (List.filter_eq_nil_iff.mp hnone a ha)
    | special => rfl
  exact candidate_eq_true.mpr ⟨page, cn, hpage, hcn, hspecial, by simp, by simp⟩

/-- When the first page is of the size of the memory missing, the loops jump to the
replacement unless the last one took this page and ended. -/
theorem deathRow_jumps {ca : VbiCache} (h : Accounted ca) (within : ca.memoryUsed ≤ ca.memoryLimit)
    (limit : ca.memoryLimit.toNat ≤ 2 ^ 30) {needed : Int} (hneeded : needed ≤ sizeofCachePage)
    {old : Option Addr} (hhead : (old.toList ++ evictionOrder ca old).head? = some a)
    (hsize : freeMemory ca + sizeAt ca a = needed) (hr : deathRow ca needed old = some r) :
    r.enough = true ↔ ¬TakenLast ca old a := by
  simp only [deathRow, Option.bind_eq_bind, Option.bind_eq_some_iff] at hr
  obtain ⟨r₀, h₀, r₁, h₁, r₂, h₂, r₃, h₃, h₄⟩ := hr
  cases old with
  | some b =>
    obtain rfl : b = a := by simpa using hhead
    have hnot : ¬TakenLast ca (some b) b := by
      rintro ⟨-, -, hc⟩
      obtain ⟨-, -, -, -, -, -, hold⟩ := candidate_eq_true.mp hc
      exact hold rfl
    simp only [firstVictim, Option.bind_eq_bind, Option.bind_eq_some_iff] at h₀
    obtain ⟨page, hpage, h₀⟩ := h₀
    have henough : r₀.enough = true := by
      simp only [sizeAt, hpage, freeMemory] at hsize
      obtain rfl := Option.some.inj h₀
      simp only [hsize, ge_iff_le, Int.le_refl, decide_true]
    simp only [deathPass] at h₁ h₂ h₃ h₄
    rw [condemn_done henough] at h₁
    obtain rfl := Option.some.inj h₁
    rw [condemn_done henough] at h₂
    obtain rfl := Option.some.inj h₂
    rw [condemn_done henough] at h₃
    obtain rfl := Option.some.inj h₃
    rw [condemn_done henough] at h₄
    obtain rfl := Option.some.inj h₄
    exact ⟨fun _ => hnot, fun _ => henough⟩
  | none =>
    have hmem : a ∈ evictionOrder ca none := List.mem_of_mem_head? (Option.mem_def.mpr hhead)
    have hpriority := (mem_evictionOrder hmem).1
    have hpos := sizeAt_pos h hpriority
    have hless : ¬freeMemory ca ≥ needed := by omega
    have hrow₀ : Row (sizeAt ca) needed (freeMemory ca) [] [] r₀ := by
      obtain rfl := Option.some.inj h₀
      constructor
      · rfl
      · rfl
      · exact fun henough => of_decide_eq_true henough
      · have hfree := freeMemory_eq within limit
        have hwithin := within
        rw [BitVec.le_def] at hwithin
        simp only [freeMemory] at hfree
        simp only [List.length_nil]
        omega
    obtain ⟨s₁, hs₁, hrow₁⟩ := deathPass_row h hneeded none true .normal hrow₀
    rw [h₁] at hs₁
    obtain rfl := Option.some.inj hs₁
    obtain ⟨s₂, hs₂, hrow₂⟩ := deathPass_row h hneeded none true .special hrow₁
    rw [h₂] at hs₂
    obtain rfl := Option.some.inj hs₂
    obtain ⟨s₃, hs₃, hrow₃⟩ := deathPass_row h hneeded none false .normal hrow₂
    rw [h₃] at hs₃
    obtain rfl := Option.some.inj hs₃
    simp only [Option.toList_none, List.nil_append, evictionOrder, ← List.append_assoc] at hhead
    simp only [List.nil_append] at hrow₃
    cases hbefore : ca.priority.filter (candidate ca none true .normal) ++
        ca.priority.filter (candidate ca none true .special) ++
        ca.priority.filter (candidate ca none false .normal) with
    | cons b rest =>
      -- one of the first three loops took the page
      rw [hbefore] at hhead hrow₃
      obtain rfl : b = a := by simpa using hhead
      have hreach : r₃.available ≥ needed := by
        rw [hrow₃.memory]
        apply gather_reaches
        rw [List.map_cons, List.sum_cons]
        omega
      have hne : ca.priority ≠ [] := List.ne_nil_of_mem hpriority
      refine ⟨fun _ => ?_, fun _ => condemn_enough hne hreach h₄⟩
      rintro ⟨hone, hfirst, hspecial⟩
      have hnormal : ∀ only, candidate ca none only .normal b = false := by
        intro only
        by_contra hc
        rw [candidate_special (Bool.not_eq_false _ ▸ hc)] at hspecial
        cases hspecial
      simp [hone, hfirst, hnormal] at hbefore
    | nil =>
      rw [hbefore] at hhead hrow₃
      obtain ⟨h12, hnone⟩ := List.append_eq_nil_iff.mp hbefore
      have havailable : r₃.available = freeMemory ca := hrow₃.memory
      have hmore : r₃.enough = false := by
        rw [Bool.eq_false_iff]
        intro henough
        exact hless (havailable ▸ hrow₃.enough henough)
      have hspecial := all_special h hnone
      rw [List.nil_append, List.filter_eq_self.mpr hspecial] at hhead
      have hfirst := List.filter_eq_nil_iff.mp (List.append_eq_nil_iff.mp h12).2 a hpriority
      have hshort : r₃.row.length < deathRowSize := by
        rw [hrow₃.taken]
        exact (by decide : 0 < deathRowSize)
      have htake := condemn_take (hspecial a hpriority) hmore (havailable ▸ hless) hshort
      cases hpages : ca.priority with
      | nil =>
        rw [hpages] at hhead
        cases hhead
      | cons b rest =>
        rw [hpages] at hhead
        obtain rfl : b = a := by simpa using hhead
        simp only [deathPass, hpages, List.foldlM_cons, htake, Option.bind_eq_bind,
          Option.bind_some] at h₄
        cases rest with
        | nil =>
          obtain rfl := Option.some.inj h₄
          have hlast : TakenLast ca none b :=
            ⟨hpages, Bool.eq_false_iff.mpr hfirst, hspecial b hpriority⟩
          simp only [hmore, Bool.false_eq_true, hlast, not_true_eq_false]
        | cons c rest =>
          have hreach : r₃.available + sizeAt ca b ≥ needed := by omega
          refine ⟨fun _ => ?_, fun _ => condemn_enough (List.cons_ne_nil c rest) hreach h₄⟩
          rintro ⟨hone, -⟩
          rw [hpages] at hone
          cases hone

theorem storePage_used {ca : VbiCache} {n : Addr} {cn : CacheNetwork}
    (hn : ca.networkRecords.lookup n = some cn) {cp : TtxPage} (hvalid : validPgno cp.pgno)
    (subno : Nat) (a : Addr) (room : Nat) :
    ∃ t, storePage ca n cp subno a room = some t ∧ t.memoryUsed = ca.memoryUsed ∧
      t.memoryLimit = ca.memoryLimit := by
  have hvalid' : validPgno (storedPage cp subno).pgno := hvalid
  cases hz : cn.zombie
  all_goals
    simp [storePage, setPage, addHeadHash, hn, setNetwork, cacheNetworkAddPage, revive, hz, hvalid']

/-- Reusing the block of a page takes the size of the new page off the memory used. -/
theorem reuse_used {ca : VbiCache} (h : Accounted ca) (ha : a ∈ ca.priority)
    (hn : ca.networkRecords.lookup n = some cn) (hvalid : validPgno cp.pgno) (subno needed : Nat) :
    ∃ r room t, reusePage ca needed a = some (r, a, room) ∧
      storePage r n cp subno a room = some t ∧
      t.memoryUsed = ca.memoryUsed - BitVec.ofNat 64 needed ∧ t.memoryLimit = ca.memoryLimit := by
  obtain ⟨old, hold, -⟩ := (h.linked.priority a).mp ha
  obtain ⟨cm, hcm⟩ := (h.page a old hold).owner
  have hold' := (h.page a old hold).number
  let r : VbiCache := { setNetwork (unlinkHash (unlinkPri ca a) old.pgno a) old.network
    { cm with
      nCachedPages := cm.nCachedPages - 1
      pageStat := Function.update cm.pageStat old.pgno (removeSubpage (cm.pageStat old.pgno)) } with
    memoryUsed := ca.memoryUsed - BitVec.ofNat 64 needed }
  have hr : reusePage ca needed a = some (r, a, old.room) := by
    simp [reusePage, hold, unlinkPri, unlinkHash, cacheNetworkRemovePage, hcm, hold', setNetwork, r]
  have hrn : ∃ cn', r.networkRecords.lookup n = some cn' := by
    by_cases heq : n = old.network
    · exact ⟨_, lookup_insert_iff.mpr (Or.inl ⟨heq, rfl⟩)⟩
    · exact ⟨cn, lookup_insert_iff.mpr (Or.inr ⟨heq, hn⟩)⟩
  obtain ⟨cn', hcn'⟩ := hrn
  obtain ⟨t, ht, hused, hlimit⟩ := storePage_used hcn' hvalid subno a old.room
  exact ⟨r, old.room, t, hr, ht, hused, hlimit⟩

theorem selectedPages_of_chosen {ca : VbiCache} (h : Chosen ca s n cp subno mask r)
    (hpgno : ¬cp.pgno &&& 0xFF = 0xFF) : selectedPages ca n cp = some r.row := by
  rw [selectedPages, if_neg hpgno, h.key]
  simp only [Option.bind_eq_bind, Option.bind_some, h.found, h.retire, h.deathRow]

theorem mem_row {ca : VbiCache} (h : Accounted ca)
    (hrow : Row (sizeAt ca) (cachePageSize cp) (spareMemory ca (replaced ca n cp))
      (replaced ca n cp).toList (evictionOrder ca (replaced ca n cp)) r) :
    ∀ a ∈ r.row, a ∈ ca.priority := by
  intro a ha
  rw [hrow.taken] at ha
  rcases List.mem_append.mp ha with ha | ha
  · exact (h.linked.priority a).mpr (replaced_spec h (Option.mem_toList.mp ha))
  · exact (mem_evictionOrder (gather_subset _ _ a ha)).1

/-- The loops jump in the retired cache as they would in the cache before. -/
theorem chosen_jumps {ca : VbiCache} (h : Consistent ca) (hr : Chosen ca s n cp subno mask r)
    (hhead : ((replaced ca n cp).toList ++ evictionOrder ca (replaced ca n cp)).head? = some a)
    (hsize : freeMemory ca + sizeAt ca a = cachePageSize cp) :
    r.enough = true ↔ ¬TakenLast ca (replaced ca n cp) a := by
  have hret := hr.retired
  have hwithin : s.memoryUsed ≤ s.memoryLimit := by
    rw [hret.used, hret.limit]
    exact h.within
  have hlimit : s.memoryLimit.toNat ≤ 2 ^ 30 := by
    rw [hret.limit]
    exact h.limit
  have hfree : freeMemory s = freeMemory ca := by simp only [freeMemory, hret.used, hret.limit]
  have hhead' : ((replaced ca n cp).toList ++ evictionOrder s (replaced ca n cp)).head? =
      some a := by
    rw [evictionOrder_retired h.toAccounted hret]
    exact hhead
  have hsize' : freeMemory s + sizeAt s a = cachePageSize cp := by
    rw [hfree, hret.sizes]
    exact hsize
  have hiff := deathRow_jumps hret.accounted hwithin hlimit
    (Int.ofNat_le.mpr (cachePageSize_le cp)) hhead' hsize' hr.deathRow
  have htaken : TakenLast s (replaced ca n cp) a ↔ TakenLast ca (replaced ca n cp) a := by
    simp only [TakenLast, hret.priority]
    refine and_congr_right fun hone => ?_
    have hmem : a ∈ ca.priority := by rw [hone]; exact List.mem_singleton_self a
    rw [candidate_retired h.toAccounted hret _ _ hmem, candidate_retired h.toAccounted hret _ _ hmem]
  rw [hiff, htaken]

theorem chosen_reuses {ca : VbiCache} (hn : ca.networkRecords.lookup n = some cn)
    (hvalid : validPgno cp.pgno) (hr : Chosen ca s n cp subno mask r) (henough : r.enough = true)
    (havailable : r.available = cachePageSize cp) (hrow : r.row = [a]) (ha : a ∈ ca.priority)
    (memory : Bool) :
    ∃ t, replacePages s n cp subno memory r = some (t, some a) ∧
      t.memoryUsed = ca.memoryUsed - BitVec.ofNat 64 (cachePageSize cp) ∧
      t.memoryLimit = ca.memoryLimit := by
  have hret := hr.retired
  have hlist : a ∈ s.priority := by rw [hret.priority]; exact ha
  have hn' : s.networkRecords.lookup n = some cn := by rw [hret.networkRecords]; exact hn
  obtain ⟨u, room, t, hu, ht, hused, hlimit⟩ :=
    reuse_used hret.accounted hlist hn' hvalid subno (cachePageSize cp)
  refine ⟨t, ?_, ?_, ?_⟩
  · have hreuse : r.available = cachePageSize cp ∧ r.row.length = 1 := ⟨havailable, by rw [hrow]; rfl⟩
    simp only [replacePages, if_pos henough, if_pos hreuse]
    simp only [hrow, List.head?_cons, Option.bind_eq_bind, Option.bind_some, hu, ht,
      Option.map_some]
  · rw [hused, hret.used]
  · rw [hlimit, hret.limit]

/-- The memory used wraps when a page is reused for one larger than it. -/
theorem reused_within {used limit : BitVec 64} (within : used ≤ limit)
    (hlimit : limit.toNat ≤ 2 ^ 30) (cp : TtxPage) :
    used - BitVec.ofNat 64 (cachePageSize cp) ≤ limit ↔ cachePageSize cp ≤ used.toNat := by
  have hle := cachePageSize_le cp
  have hconst : sizeofCachePage = 4504 := by decide
  rw [BitVec.le_def] at within ⊢
  rw [BitVec.toNat_sub, BitVec.toNat_ofNat]
  omega

/-- Deleting distinct pages takes them off the memory used. -/
theorem chosen_allocates {ca : VbiCache} (h : Consistent ca)
    (hn : ca.networkRecords.lookup n = some cn) (hvalid : validPgno cp.pgno)
    (hr : Chosen ca s n cp subno mask r) (hnodup : r.row.Nodup) :
    ∃ u t, allocatePage s (cachePageSize cp) r.row = some (u, s.top, cachePageSize cp) ∧
      storePage u n cp subno s.top (cachePageSize cp) = some t ∧ t.memoryUsed ≤ t.memoryLimit := by
  have hret := hr.retired
  have hpriority : ∀ a ∈ r.row, a ∈ s.priority := by
    rw [hret.priority]
    exact mem_row h.toAccounted hr.row
  obtain ⟨u, hu, hclear, -, -⟩ :=
    allocatePage_clears hret.accounted (cachePageSize cp) hnodup hpriority
  obtain ⟨cn', hn'⟩ := hclear.record n cn (hret.networkRecords ▸ hn)
  obtain ⟨t, ht, hused, hlimit⟩ :=
    @storePage_used { u with nCachedPages := u.nCachedPages + 1 } n cn' hn' cp hvalid subno s.top
      (cachePageSize cp)
  refine ⟨_, t, hu, ht, ?_⟩
  have hle := hclear.pages.total_le unreferencedSize
  have hwithin := h.within
  rw [hused, hlimit]
  simp only [hclear.limit, hret.limit]
  rw [BitVec.le_def] at hwithin ⊢
  have hless : u.memoryUsed.toNat ≤ ca.memoryUsed.toNat := by
    rw [hclear.accounted.used, ← hret.used, hret.accounted.used]
    exact hle
  omega

/-- The selection is sound exactly if no page is counted twice and no page is reused
for one larger than the memory used. -/
theorem page_eviction {ca : VbiCache} (h : Consistent ca) {n : Addr} (hn : n ∈ ca.networks)
    {cp : TtxPage} (hvalid : validPgno cp.pgno) (memory : Bool) :
    EvictionSound ca n cp memory ↔ cp.pgno &&& 0xFF = 0xFF ∨ EvictionFits ca n cp := by
  by_cases hpgno : cp.pgno &&& 0xFF = 0xFF
  · refine ⟨fun _ => Or.inl hpgno, fun _ => ⟨⟨[], by rw [selectedPages, if_pos hpgno], ?_⟩, ?_⟩⟩
    · exact ⟨List.nodup_nil, Nat.zero_le _, fun a ha => by cases ha⟩
    · intro t a ht
      rw [vbiCachePutPage, if_pos hpgno] at ht
      cases ht
  obtain ⟨cn, hcn⟩ := (h.linked.network n).mp hn
  obtain ⟨s, subno, mask, r, hr⟩ := exists_chosen h hcn hvalid
  have hselected := selectedPages_of_chosen hr hpgno
  have hcall := hr.call hpgno memory
  have hmem := mem_row h.toAccounted hr.row
  have honce := row_nodup_iff h.toAccounted hr.row
  rw [or_iff_right hpgno]
  constructor
  · rintro ⟨⟨row, hrow, hnodup, -⟩, hwithin⟩
    rw [hselected] at hrow
    obtain rfl := Option.some.inj hrow
    refine ⟨honce.mp hnodup, ?_⟩
    intro a hhead hsize
    by_cases hlast : TakenLast ca (replaced ca n cp) a
    · exact Or.inr hlast
    have henough := (chosen_jumps h hr hhead hsize).mpr hlast
    obtain ⟨havailable, hsingle⟩ := row_single h.toAccounted hhead hsize hr.row
    have ha : a ∈ ca.priority := hmem a (by rw [hsingle]; exact List.mem_singleton_self a)
    obtain ⟨t, ht, hused, hlimit⟩ := chosen_reuses hcn hvalid hr henough havailable hsingle ha memory
    have hle := hwithin t a (hcall.trans ht)
    rw [hused, hlimit] at hle
    exact Or.inl ((reused_within h.within h.limit cp).mp hle)
  · intro hfits
    have hnodup := honce.mpr hfits.distinct
    refine ⟨⟨r.row, hselected, hnodup, deathRow_short hr.deathRow, ?_⟩, ?_⟩
    · exact fun a ha => (h.linked.priority a).mp (hmem a ha)
    intro t b ht
    rw [hcall] at ht
    by_cases henough : r.enough = true
    · by_cases hreuse : r.available = cachePageSize cp ∧ r.row.length = 1
      · obtain ⟨a, ha⟩ := List.length_eq_one_iff.mp hreuse.2
        obtain ⟨hhead, hsize⟩ := single_victim_head hr.row hreuse.1 ha
        have hmema : a ∈ ca.priority := hmem a (by rw [ha]; exact List.mem_singleton_self a)
        obtain ⟨t', ht', hused, hlimit⟩ := chosen_reuses hcn hvalid hr henough hreuse.1 ha hmema memory
        have hcovered := hfits.covered a hhead hsize
        have hnot := (chosen_jumps h hr hhead hsize).mp henough
        rw [ht'] at ht
        cases ht
        rw [hused, hlimit, reused_within h.within h.limit cp]
        exact hcovered.resolve_right hnot
      · obtain ⟨u, t', hu, ht', hle⟩ := chosen_allocates h hcn hvalid hr hnodup
        simp only [replacePages, if_pos henough, if_neg hreuse] at ht
        split at ht
        · simp only [hu, ht', Option.bind_eq_bind, Option.bind_some, Option.map_some] at ht
          cases ht
          exact hle
        · cases ht
    · simp only [replacePages, if_neg henough] at ht
      cases ht

def storeThree : List Op :=
  [.addNetwork none true, .putPage 0 (lopPage 0x101 0 1) true, .putPage 0 (lopPage 0x102 0 2) true,
    .putPage 0 (lopPage 0x103 0 3) true, .pageUnref 2, .pageUnref 1, .pageUnref 3]

/-- Three pages make room for a larger one. -/
theorem page_eviction_two :
    ∃ ca, run step (vbiCacheNew 5000) storeThree = some ca ∧
      selectedPages ca 0 (drcsPage 0x104 4) = some [2, 1, 3] ∧
      EvictionSound ca 0 (drcsPage 0x104 4) true := by
  have safe : Permitted step (fun ca op => Callable ca op ∧ Safe ca op) (vbiCacheNew 5000)
      storeThree := by decide +kernel
  refine ⟨_, rfl, by decide +kernel, ?_⟩
  exact (page_eviction (run_consistent safe rfl) (by decide +kernel) (by decide) true).mpr
    (Or.inr (by decide +kernel))

/-- Two pages of a network which is not in use any longer, the first of them
referenced until another network is. -/
def leaveNetwork : List Op :=
  [.addNetwork none true, .putPage 0 (lopPage 0x101 0 1) true, .putPage 0 (lopPage 0x102 0 2) true,
    .pageUnref 2, .networkUnref 0, .addNetwork none true, .pageUnref 1]

/-- A page of the network left is selected twice. A page is reused for one which is
larger than the memory used. -/
theorem page_eviction_not_sound :
    (Permitted step (fun ca op => Callable ca op ∧ Safe ca op) (vbiCacheNew 3200) leaveNetwork ∧
      ∃ ca, run step (vbiCacheNew 3200) leaveNetwork = some ca ∧ 3 ∈ ca.networks ∧
        selectedPages ca 3 (drcsPage 0x103 3) = some [2, 1, 2] ∧
        ¬EvictionSound ca 3 (drcsPage 0x103 3) true) ∧
    (Permitted step (fun ca op => Callable ca op ∧ Safe ca op) (vbiCacheNew 4504)
        [.addNetwork none true, .putPage 0 (lopPage 0x101 0 1) true, .pageUnref 1] ∧
      ∃ ca t, run step (vbiCacheNew 4504)
          [.addNetwork none true, .putPage 0 (lopPage 0x101 0 1) true, .pageUnref 1] = some ca ∧
        ca.memoryUsed ≤ ca.memoryLimit ∧
        vbiCachePutPage ca 0 (drcsPage 0x103 3) true = some (t, some 1) ∧
        t.memoryLimit < t.memoryUsed) := by
  refine ⟨⟨by decide +kernel, _, rfl, by decide +kernel, by decide +kernel, ?_⟩,
    by decide +kernel, _, _, rfl, by decide +kernel, rfl, by decide +kernel⟩
  rintro ⟨⟨row, hrow, hnodup, -⟩, -⟩
  obtain rfl : [2, 1, 2] = row := Option.some.inj hrow
  exact absurd hnodup (by decide)

end PageCacheSelection

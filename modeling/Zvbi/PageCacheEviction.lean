import Zvbi.PageCacheReferences

/-!
# Which pages make room for a new one

Pages are replaced in a fixed order, the page to be replaced first, until there
is enough memory. The order visits pages of unreferenced networks and then all
pages, so it may come to a page twice.
-/

namespace PageCacheEviction
open RecordHeap PageCache PageCacheAccounts PageCacheReferences

variable {available : Int} {order : List Addr} {ca : VbiCache}

variable {a : Addr} {old : Option Addr}

section Order
variable (size : Addr → Nat) (needed : Int)

def gather : Int → List Addr → Int × List Addr
  | available, [] => (available, [])
  | available, a :: rest =>
    if available ≥ needed then (available, [])
    else
      let taken := gather (available + size a) rest
      (taken.1, a :: taken.2)

def MeetsOnce : Int → List Addr → List Addr → Prop
  | _, _, [] => True
  | available, seen, a :: rest =>
    available ≥ needed ∨ a ∉ seen ∧ MeetsOnce (available + size a) (a :: seen) rest

/-- A page with the property is met before there is enough memory. -/
def Meets (p : Addr → Bool) : Int → List Addr → Prop
  | _, [] => False
  | available, a :: rest => available < needed ∧ (p a = true ∨ Meets p (available + size a) rest)

instance decidableMeetsOnce : ∀ available seen order,
    Decidable (MeetsOnce size needed available seen order)
  | _, _, [] => isTrue trivial
  | available, seen, a :: rest =>
    have := decidableMeetsOnce (available + size a) (a :: seen) rest
    inferInstanceAs (Decidable (_ ∨ _ ∧ _))

instance decidableMeets (p : Addr → Bool) : ∀ available order,
    Decidable (Meets size needed p available order)
  | _, [] => isFalse id
  | available, a :: rest =>
    have := decidableMeets p (available + size a) rest
    inferInstanceAs (Decidable (_ ∧ (_ ∨ _)))

variable {size needed}

attribute [local simp] gather

theorem gather_enough (h : available ≥ needed) (order : List Addr) :
    gather size needed available order = (available, []) := by
  cases order with
  | nil => rfl
  | cons a rest => rw [gather, if_pos h]

theorem gather_append (available : Int) (first rest : List Addr) :
    gather size needed available (first ++ rest) =
      ((gather size needed (gather size needed available first).1 rest).1,
        (gather size needed available first).2 ++
          (gather size needed (gather size needed available first).1 rest).2) := by
  induction first generalizing available with
  | nil => rfl
  | cons a first ih =>
    by_cases h : available ≥ needed
    · simp only [List.cons_append, gather, if_pos h, gather_enough h, List.nil_append]
    · simp only [List.cons_append, gather, if_neg h, ih]

theorem gather_subset (available : Int) (order : List Addr) :
    ∀ a ∈ (gather size needed available order).2, a ∈ order := by
  induction order generalizing available with
  | nil => simp [gather]
  | cons a rest ih =>
    intro b hb
    by_cases h : available ≥ needed
    · simp [gather, h] at hb
    · simp only [gather, if_neg h, List.mem_cons] at hb
      rcases hb with rfl | hb
      · exact List.mem_cons_self
      · exact List.mem_cons_of_mem a (ih _ b hb)

/-- The memory is what was available and the sizes of the pages taken. -/
theorem gather_available (available : Int) (order : List Addr) :
    (gather size needed available order).1 =
      available + (((gather size needed available order).2.map size).sum : Nat) := by
  induction order generalizing available with
  | nil => simp [gather]
  | cons a rest ih =>
    by_cases h : available ≥ needed
    · simp [gather, h]
    · simp only [gather, if_neg h, ih, List.map_cons, List.sum_cons]
      omega

theorem gather_nodup {seen : List Addr} (h : MeetsOnce size needed available seen order) :
    (gather size needed available order).2.Nodup ∧
      ∀ a ∈ (gather size needed available order).2, a ∉ seen := by
  induction order generalizing available seen with
  | nil => simp [gather]
  | cons a rest ih =>
    by_cases henough : available ≥ needed
    · simp [gather, henough]
    rcases h with h | ⟨hnew, hrest⟩
    · exact absurd h henough
    obtain ⟨hnodup, hseen⟩ := ih hrest
    simp only [gather, if_neg henough]
    constructor
    · exact List.nodup_cons.mpr ⟨fun hmem => hseen a hmem List.mem_cons_self, hnodup⟩
    · intro b hb
      rcases List.mem_cons.mp hb with rfl | hb
      · exact hnew
      · exact fun hmem => hseen b hb (List.mem_cons_of_mem a hmem)

theorem gather_meets {p : Addr → Bool} (h : Meets size needed p available order) :
    ∃ a ∈ (gather size needed available order).2, p a = true := by
  induction order generalizing available with
  | nil => exact h.elim
  | cons a rest ih =>
    obtain ⟨hless, hp⟩ := h
    simp only [gather, if_neg (Int.not_le.mpr hless)]
    rcases hp with hp | hrest
    · exact ⟨a, List.mem_cons_self, hp⟩
    · obtain ⟨b, hb, hpb⟩ := ih hrest
      exact ⟨b, List.mem_cons_of_mem a hb, hpb⟩

/-- One page is taken if it is just as large as the memory missing. -/
theorem gather_single (h : (gather size needed available order).2 = [a])
    (henough : (gather size needed available order).1 = needed) :
    order.head? = some a ∧ available + size a = needed := by
  cases order with
  | nil => simp [gather] at h
  | cons b rest =>
    by_cases hless : available ≥ needed
    · simp [gather, hless] at h
    have havailable : (gather size needed available (b :: rest)).1 = available +
        (((gather size needed available (b :: rest)).2.map size).sum : Nat) :=
      gather_available available (b :: rest)
    rw [h, henough] at havailable
    simp only [gather, if_neg hless, List.cons.injEq] at h
    obtain ⟨rfl, -⟩ := h
    refine ⟨rfl, ?_⟩
    simp only [List.map_cons, List.map_nil, List.sum_cons, List.sum_nil] at havailable
    omega

end Order

def sizeAt (ca : VbiCache) (a : Addr) : Nat :=
  match ca.pages.lookup a with
  | some cp => cachePageSize cp.toTtxPage
  | none => 0

def candidate (ca : VbiCache) (old : Option Addr) (unreferencedOnly : Bool) (pri : CachePriority)
    (a : Addr) : Bool :=
  match ca.pages.lookup a with
  | some cp =>
    match ca.networkRecords.lookup cp.network with
    | some cn => ¬(cp.priority ≠ pri ∨ (unreferencedOnly ∧ cn.refCount > 0) ∨ old = some a)
    | none => false
  | none => false

def evictionOrder (ca : VbiCache) (old : Option Addr) : List Addr :=
  ca.priority.filter (candidate ca old true .normal) ++
  (ca.priority.filter (candidate ca old true .special) ++
  (ca.priority.filter (candidate ca old false .normal) ++
  ca.priority.filter (candidate ca old false .special)))

structure Row (size : Addr → Nat) (needed : Int) (available : Int) (row order : List Addr)
    (r : DeathRow) : Prop where
  memory : r.available = (gather size needed available order).1
  taken : r.row = row ++ (gather size needed available order).2
  enough : r.enough = true → r.available ≥ needed
  short : (sizeofCachePage : Int) * r.row.length ≤ 4 * r.available

theorem deathPass_row (h : Accounted ca) {needed : Int} (hneeded : needed ≤ sizeofCachePage)
    (old : Option Addr) (unreferencedOnly : Bool) (pri : CachePriority) {row : List Addr}
    {r : DeathRow} (hr : Row (sizeAt ca) needed available row order r) :
    ∃ t, deathPass ca needed old unreferencedOnly pri r = some t ∧
      Row (sizeAt ca) needed available row
        (order ++ ca.priority.filter (candidate ca old unreferencedOnly pri)) t := by
  have loop : ∀ (pages order : List Addr) (r : DeathRow), (∀ a ∈ pages, a ∈ ca.priority) →
      Row (sizeAt ca) needed available row order r →
      ∃ t, pages.foldlM (condemn ca needed old unreferencedOnly pri) r = some t ∧
        Row (sizeAt ca) needed available row
          (order ++ pages.filter (candidate ca old unreferencedOnly pri)) t := by
    intro pages
    induction pages with
    | nil =>
      intro order r _ hr
      exact ⟨r, rfl, by simpa using hr⟩
    | cons a pages ih =>
      intro order r hsub hr
      have hrest : ∀ b ∈ pages, b ∈ ca.priority := fun b hb => hsub b (List.mem_cons_of_mem a hb)
      obtain ⟨cp, hcp, -⟩ := (h.linked.priority a).mp (hsub a List.mem_cons_self)
      obtain ⟨cn, hcn⟩ := (h.page a cp hcp).owner
      -- a page which is not taken, whether it is a candidate or not
      have skip : ∀ r' : DeathRow, r'.available = r.available → r'.row = r.row →
          (r'.enough = true → r'.available ≥ needed) →
          (candidate ca old unreferencedOnly pri a = true → r'.available ≥ needed) →
          Row (sizeAt ca) needed available row
            (order ++ [a].filter (candidate ca old unreferencedOnly pri)) r' := by
        intro r' havailable hrow henough hcandidate
        have hsame : gather (sizeAt ca) needed available
            (order ++ [a].filter (candidate ca old unreferencedOnly pri)) =
            gather (sizeAt ca) needed available order := by
          by_cases hc : candidate ca old unreferencedOnly pri a = true
          · have hge : (gather (sizeAt ca) needed available order).1 ≥ needed := by
              rw [← hr.memory, ← havailable]
              exact hcandidate hc
            rw [gather_append, gather_enough hge]
            simp
          · simp [hc]
        refine ⟨?_, ?_, henough, ?_⟩
        · rw [hsame, havailable, hr.memory]
        · rw [hsame, hrow, hr.taken]
        · rw [hrow, havailable]
          exact hr.short
      have hstep : ∃ t, condemn ca needed old unreferencedOnly pri r a = some t ∧
          Row (sizeAt ca) needed available row
            (order ++ [a].filter (candidate ca old unreferencedOnly pri)) t := by
        by_cases hdone : r.enough = true
        · exact ⟨r, by simp only [condemn, hdone, if_true],
            skip r rfl rfl hr.enough fun _ => hr.enough hdone⟩
        by_cases henough : r.available ≥ needed
        · exact ⟨{ r with enough := true }, by simp only [condemn, if_neg hdone, if_pos henough],
            skip _ rfl rfl (fun _ => henough) fun _ => henough⟩
        simp only [condemn, if_neg hdone, if_neg henough, hcp, hcn, Option.bind_eq_bind,
          Option.bind_some]
        by_cases hskip : cp.priority ≠ pri ∨ (unreferencedOnly ∧ cn.refCount > 0) ∨ old = some a
        · rw [if_pos hskip]
          refine ⟨r, rfl, skip r rfl rfl hr.enough ?_⟩
          intro hc
          simp only [candidate, hcp, hcn, hskip, not_true_eq_false, decide_false,
            Bool.false_eq_true] at hc
        · have hc : candidate ca old unreferencedOnly pri a = true := by
            simp only [candidate, hcp, hcn, hskip, not_false_eq_true, decide_true]
          have hsize : sizeAt ca a = cachePageSize cp.toTtxPage := by
            simp only [sizeAt, hcp]
          have hshort := hr.short
          have hconst : sizeofCachePage = 4504 := by decide
          have hlarge := le_cachePageSize cp.toTtxPage
          rw [hconst] at hshort hlarge
          have hlength : r.row.length < deathRowSize := by
            simp only [deathRowSize]
            omega
          rw [if_neg hskip, if_pos hlength]
          have hgather : gather (sizeAt ca) needed
              (gather (sizeAt ca) needed available order).1 [a] =
              (r.available + sizeAt ca a, [a]) := by
            rw [← hr.memory]
            simp only [gather, if_neg henough]
          refine ⟨_, rfl, ?_⟩
          rw [List.filter_cons_of_pos hc, List.filter_nil]
          constructor
          · rw [gather_append, hgather, hsize]
          · rw [gather_append, hgather, hr.taken, List.append_assoc]
          · exact fun htrue => absurd htrue hdone
          · simp only [List.length_append, List.length_singleton, hconst]
            omega
      obtain ⟨s, hs, hrow⟩ := hstep
      obtain ⟨t, ht, hfinal⟩ := ih _ s hrest hrow
      refine ⟨t, ?_, ?_⟩
      · simp only [List.foldlM_cons, hs, Option.bind_eq_bind, Option.bind_some, ht]
      · have happend : order ++ (a :: pages).filter (candidate ca old unreferencedOnly pri) =
            order ++ [a].filter (candidate ca old unreferencedOnly pri) ++
              pages.filter (candidate ca old unreferencedOnly pri) := by
          rw [List.append_assoc, ← List.filter_append]
          rfl
        rw [happend]
        exact hfinal
  exact loop ca.priority order r (fun a ha => ha) hr

def freeMemory (ca : VbiCache) : Int := (ca.memoryLimit - ca.memoryUsed).toInt

theorem freeMemory_eq (within : ca.memoryUsed ≤ ca.memoryLimit)
    (limit : ca.memoryLimit.toNat ≤ 2 ^ 30) :
    freeMemory ca = ca.memoryLimit.toNat - ca.memoryUsed.toNat := by
  rw [BitVec.le_def] at within
  have hsub : (ca.memoryLimit - ca.memoryUsed).toNat =
      ca.memoryLimit.toNat - ca.memoryUsed.toNat := by
    rw [BitVec.toNat_sub]
    omega
  rw [freeMemory, BitVec.toInt_eq_toNat_of_lt (by omega), hsub]
  omega

def spareMemory (ca : VbiCache) (old : Option Addr) : Int :=
  freeMemory ca + (old.toList.map (sizeAt ca)).sum

theorem deathRow_row (h : Accounted ca) (within : ca.memoryUsed ≤ ca.memoryLimit)
    (limit : ca.memoryLimit.toNat ≤ 2 ^ 30) {needed : Int} (hneeded : needed ≤ sizeofCachePage)
    (hold : ∀ a, old = some a → ∃ cp, ca.pages.lookup a = some cp) :
    ∃ r, deathRow ca needed old = some r ∧
      Row (sizeAt ca) needed (spareMemory ca old) old.toList (evictionOrder ca old) r := by
  have hfree := freeMemory_eq within limit
  rw [BitVec.le_def] at within
  have hfirst : ∃ r, firstVictim ca needed old = some r ∧
      Row (sizeAt ca) needed (spareMemory ca old) old.toList [] r := by
    cases old with
    | none =>
      refine ⟨_, rfl, ?_⟩
      constructor
      · simp [gather, spareMemory, freeMemory]
      · rfl
      · exact fun henough => of_decide_eq_true henough
      · have hpos : 0 ≤ freeMemory ca := by omega
        simpa [freeMemory] using Int.mul_nonneg (by decide : (0 : Int) ≤ 4) hpos
    | some a =>
      obtain ⟨cp, hcp⟩ := hold a rfl
      have hsize : sizeAt ca a = cachePageSize cp.toTtxPage := by simp only [sizeAt, hcp]
      have hlarge := le_cachePageSize cp.toTtxPage
      refine ⟨_, by simp only [firstVictim, hcp, Option.bind_eq_bind, Option.bind_some]; rfl, ?_⟩
      constructor
      · simp [gather, spareMemory, freeMemory, hsize]
      · rfl
      · exact fun henough => of_decide_eq_true henough
      · have hpos : 0 ≤ freeMemory ca := by omega
        simp only [freeMemory] at hpos
        simp only [List.length_singleton]
        omega
  obtain ⟨r₀, hr₀, hrow₀⟩ := hfirst
  obtain ⟨r₁, hr₁, hrow₁⟩ := deathPass_row h hneeded old true .normal hrow₀
  obtain ⟨r₂, hr₂, hrow₂⟩ := deathPass_row h hneeded old true .special hrow₁
  obtain ⟨r₃, hr₃, hrow₃⟩ := deathPass_row h hneeded old false .normal hrow₂
  obtain ⟨r, hr, hrow⟩ := deathPass_row h hneeded old false .special hrow₃
  refine ⟨r, ?_, ?_⟩
  · simp only [deathRow, hr₀, hr₁, hr₂, hr₃, hr, Option.bind_eq_bind, Option.bind_some]
  · simpa only [evictionOrder, List.nil_append, List.append_assoc] using hrow

/-- The pages taken by the loops are unreferenced, and none is the version to be
replaced. -/
theorem mem_evictionOrder (h : a ∈ evictionOrder ca old) : a ∈ ca.priority ∧ old ≠ some a := by
  have hpick : ∀ only pri, a ∈ ca.priority.filter (candidate ca old only pri) →
      a ∈ ca.priority ∧ old ≠ some a := by
    intro only pri hmem
    obtain ⟨hpriority, hc⟩ := List.mem_filter.mp hmem
    refine ⟨hpriority, ?_⟩
    rintro rfl
    simp only [candidate] at hc
    split at hc
    · split at hc
      · simp at hc
      · cases hc
    · cases hc
  simp only [evictionOrder, List.mem_append] at h
  rcases h with h | h | h | h
  · exact hpick _ _ h
  · exact hpick _ _ h
  · exact hpick _ _ h
  · exact hpick _ _ h

end PageCacheEviction

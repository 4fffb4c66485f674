import Zvbi.GuardedRuns
import Zvbi.PageCache

/-!
# The counters and lists of the page cache

Every counter is a total over the pages on the heap, and every list holds the
pages it should. Deletions of unreferenced pages, the changes of a reference
count and the storing of a new page keep these accounts.
-/

namespace PageCacheAccounts
open RecordHeap PageCache GuardedRuns

def unreferencedSize (cp : CachePage) : Nat :=
  if cp.refCount = 0 then cachePageSize cp.toTtxPage else 0

def ofNetwork (n : Addr) (cp : CachePage) : Bool := cp.network = n

def inUse (n : Addr) (cp : CachePage) : Bool := cp.network = n ∧ cp.refCount ≠ 0

def ofNumber (n : Addr) (pgno : Nat) (cp : CachePage) : Bool := cp.network = n ∧ cp.pgno = pgno

structure NetworkAccounts (pages : Heap CachePage) (n : Addr) (cn : CacheNetwork) : Prop where
  cached : cn.nCachedPages = tally (ofNetwork n) pages
  referenced : cn.nReferencedPages = tally (inUse n) pages
  subpages : ∀ pgno, (cn.pageStat pgno).nSubpages = UInt8.ofNat (tally (ofNumber n pgno) pages)
  lively : cn.zombie = false

structure Linked (ca : VbiCache) : Prop where
  priority : ∀ a, a ∈ ca.priority ↔ ∃ cp, ca.pages.lookup a = some cp ∧ cp.refCount = 0
  referenced : ∀ a, a ∈ ca.referenced ↔ ∃ cp, ca.pages.lookup a = some cp ∧ cp.refCount ≠ 0
  chain : ∀ c a, a ∈ ca.hash c ↔
    ∃ cp, ca.pages.lookup a = some cp ∧ cp.priority ≠ .zombie ∧ hashOf cp.pgno = c
  network : ∀ n, n ∈ ca.networks ↔ ∃ cn, ca.networkRecords.lookup n = some cn
  priorityOnce : ca.priority.Nodup
  referencedOnce : ca.referenced.Nodup
  chainOnce : ∀ c, (ca.hash c).Nodup
  networkOnce : ca.networks.Nodup

/-- A page has a network and a valid number, fits in its block, and is in use if
it is a zombie. -/
structure PageFits (ca : VbiCache) (a : Addr) (cp : CachePage) : Prop where
  owner : ∃ cn, ca.networkRecords.lookup cp.network = some cn
  number : validPgno cp.pgno
  zombie : cp.priority = .zombie → cp.refCount ≠ 0
  room : cachePageSize cp.toTtxPage ≤ cp.room
  old : a < ca.top

structure Accounted (ca : VbiCache) : Prop where
  linked : Linked ca
  used : ca.memoryUsed.toNat = total unreferencedSize ca.pages
  cached : ca.nCachedPages = tally (fun _ => true) ca.pages
  network : ∀ n cn, ca.networkRecords.lookup n = some cn → NetworkAccounts ca.pages n cn
  page : ∀ a cp, ca.pages.lookup a = some cp → PageFits ca a cp
  networkOld : ∀ n cn, ca.networkRecords.lookup n = some cn → n < ca.top

def networkWithout (cn : CacheNetwork) (pgno : Nat) : CacheNetwork :=
  { cn with
    nCachedPages := cn.nCachedPages - 1
    pageStat := Function.update cn.pageStat pgno (removeSubpage (cn.pageStat pgno)) }

def without (ca : VbiCache) (a : Addr) (cp : CachePage) (cn : CacheNetwork) : VbiCache :=
  { ca with
    pages := ca.pages.erase a
    networkRecords := ca.networkRecords.insert cp.network (networkWithout cn cp.pgno)
    hash := Function.update ca.hash (hashOf cp.pgno) ((ca.hash (hashOf cp.pgno)).erase a)
    priority := ca.priority.erase a
    referenced := ca.referenced.erase a
    nCachedPages := ca.nCachedPages - 1
    memoryUsed := ca.memoryUsed - BitVec.ofNat 64 (cachePageSize cp.toTtxPage) }

variable {a : Addr} {ca s : VbiCache} {cn : CacheNetwork} {cp : CachePage}

theorem deletePage_eq (h : Accounted ca) (ha : ca.pages.lookup a = some cp)
    (hfree : cp.refCount = 0) (hn : ca.networkRecords.lookup cp.network = some cn) :
    deletePage ca a = some (without ca a cp cn) := by
  have hlive : cp.priority ≠ .zombie := fun hz => (h.page a cp ha).zombie hz hfree
  have hvalid := (h.page a cp ha).number
  simp [deletePage, ha, hfree, hlive, cacheNetworkRemovePage, unlinkPri, unlinkHash, hn, hvalid,
    setNetwork, without, networkWithout]

variable {n : Addr} {pages : Heap CachePage} {t : VbiCache}

theorem NetworkAccounts.subpages_without (h : NetworkAccounts pages n cn)
    (ha : pages.lookup a = some cp) (hn : cp.network = n) (pgno : Nat) :
    ((networkWithout cn cp.pgno).pageStat pgno).nSubpages =
      UInt8.ofNat (tally (ofNumber n pgno) (pages.erase a)) := by
  by_cases hpgno : pgno = cp.pgno
  · subst hpgno
    have hof : ofNumber n cp.pgno cp = true := by simp [ofNumber, hn]
    have hpos := tally_pos ha hof
    rw [tally_erase ha, hof]
    simp only [networkWithout, removeSubpage, Function.update_self, h.subpages, if_true]
    exact (UInt8.ofNat_sub hpos).symm
  · have hof : ofNumber n pgno cp = false := by simp [ofNumber, Ne.symm hpgno]
    rw [tally_erase ha, hof]
    simp [networkWithout, hpgno, h.subpages]

theorem NetworkAccounts.without (h : NetworkAccounts pages n cn) (ha : pages.lookup a = some cp)
    (hfree : cp.refCount = 0) (hn : cp.network = n) :
    NetworkAccounts (pages.erase a) n (networkWithout cn cp.pgno) := by
  constructor
  · have hof : ofNetwork n cp = true := by simp [ofNetwork, hn]
    rw [tally_erase ha, hof]
    simp [networkWithout, h.cached]
  · have hof : inUse n cp = false := by simp [inUse, hfree]
    rw [tally_erase ha, hof]
    simp [networkWithout, h.referenced]
  · exact h.subpages_without ha hn
  · exact h.lively

theorem NetworkAccounts.erase_other (h : NetworkAccounts pages n cn) (ha : pages.lookup a = some cp)
    (hn : cp.network ≠ n) : NetworkAccounts (pages.erase a) n cn := by
  constructor
  · simp [tally_erase ha, ofNetwork, hn, h.cached]
  · simp [tally_erase ha, inUse, hn, h.referenced]
  · intro pgno
    simp [tally_erase ha, ofNumber, hn, h.subpages]
  · exact h.lively

/-- A page is unlinked where it is on a list, and nothing else is. -/
theorem Linked.without (h : Linked ca) (ha : ca.pages.lookup a = some cp)
    (hn : ca.networkRecords.lookup cp.network = some cn) : Linked (without ca a cp cn) where
  priority b := by
    simp only [PageCacheAccounts.without, h.priorityOnce.mem_erase_iff, h.priority,
      lookup_erase_iff]
    grind
  referenced b := by
    simp only [PageCacheAccounts.without, h.referencedOnce.mem_erase_iff, h.referenced,
      lookup_erase_iff]
    grind
  chain c b := by
    by_cases hc : c = hashOf cp.pgno
    · subst hc
      simp only [PageCacheAccounts.without, Function.update_self,
        (h.chainOnce _).mem_erase_iff, h.chain, lookup_erase_iff]
      grind
    · simp only [PageCacheAccounts.without, Function.update_of_ne hc, h.chain, lookup_erase_iff]
      grind
  network n := by
    simp only [PageCacheAccounts.without, h.network, lookup_insert_iff]
    grind
  priorityOnce := h.priorityOnce.erase a
  referencedOnce := h.referencedOnce.erase a
  chainOnce c := by
    by_cases hc : c = hashOf cp.pgno
    · subst hc
      simpa only [PageCacheAccounts.without, Function.update_self] using (h.chainOnce _).erase a
    · simpa only [PageCacheAccounts.without, Function.update_of_ne hc] using h.chainOnce c
  networkOnce := h.networkOnce

theorem Accounted.without (h : Accounted ca) (ha : ca.pages.lookup a = some cp)
    (hfree : cp.refCount = 0) (hn : ca.networkRecords.lookup cp.network = some cn) :
    Accounted (without ca a cp cn) where
  linked := h.linked.without ha hn
  used := by
    have htotal := total_erase (f := unreferencedSize) ha
    have hsize : unreferencedSize cp = cachePageSize cp.toTtxPage := if_pos hfree
    have hused := h.used
    have hlt := ca.memoryUsed.isLt
    simp only [PageCacheAccounts.without, BitVec.toNat_sub, BitVec.toNat_ofNat]
    omega
  cached := by
    simp [PageCacheAccounts.without, tally_erase ha, h.cached]
  network n cn' hn' := by
    rcases lookup_insert_iff.mp hn' with ⟨rfl, rfl⟩ | ⟨hne, hold⟩
    · exact (h.network _ _ hn).without ha hfree rfl
    · exact (h.network _ _ hold).erase_other ha hne.symm
  page b cp' hb := by
    have hold := h.page b cp' (lookup_erase_iff.mp hb).2
    refine ⟨?_, hold.number, hold.zombie, hold.room, hold.old⟩
    obtain ⟨cn', hcn'⟩ := hold.owner
    by_cases hne : cp'.network = cp.network
    · exact ⟨_, lookup_insert_iff.mpr (Or.inl ⟨hne, rfl⟩)⟩
    · exact ⟨cn', lookup_insert_iff.mpr (Or.inr ⟨hne, hcn'⟩)⟩
  networkOld n cn' hn' := by
    rcases lookup_insert_iff.mp hn' with ⟨rfl, rfl⟩ | ⟨hne, hold⟩
    · exact h.networkOld _ _ hn
    · exact h.networkOld _ _ hold

structure Reduced (s t : VbiCache) : Prop where
  pages : Part t.pages s.pages
  inUse : ∀ a cp, s.pages.lookup a = some cp → cp.refCount ≠ 0 → t.pages.lookup a = some cp
  limit : t.memoryLimit = s.memoryLimit

structure Trimmed (s t : VbiCache) : Prop extends Reduced s t where
  record : ∀ n cn, s.networkRecords.lookup n = some cn →
    ∃ cn', t.networkRecords.lookup n = some cn' ∧ cn'.refCount = cn.refCount ∧
      cn'.nReferencedPages = cn.nReferencedPages
  networks : t.networks = s.networks
  top : t.top = s.top
  chain : ∀ c, (t.hash c).Sublist (s.hash c)

theorem Reduced.refl (s : VbiCache) : Reduced s s where
  pages _ _ ha := ha
  inUse _ _ ha _ := ha
  limit := rfl

variable {r : VbiCache} {Done : VbiCache → Addr → Prop}

theorem Reduced.trans (first : Reduced s t) (second : Reduced t r) :
    Reduced s r where
  pages a cp ha := first.pages a cp (second.pages a cp ha)
  inUse a cp ha huse := second.inUse a cp (first.inUse a cp ha huse) huse
  limit := second.limit.trans first.limit

/-- Deletions never take more memory. -/
theorem Reduced.used_le (h : Reduced s t) (hs : Accounted s) (ht : Accounted t) :
    t.memoryUsed ≤ s.memoryUsed := by
  have hle := h.pages.total_le unreferencedSize
  rw [BitVec.le_def, hs.used, ht.used]
  exact hle

theorem Trimmed.refl (s : VbiCache) : Trimmed s s where
  toReduced := Reduced.refl s
  record _ cn hn := ⟨cn, hn, rfl, rfl⟩
  networks := rfl
  top := rfl
  chain _ := List.Sublist.refl _

theorem Trimmed.trans (first : Trimmed s t) (second : Trimmed t r) :
    Trimmed s r where
  toReduced := first.toReduced.trans second.toReduced
  record n cn hn := by
    obtain ⟨cn', hn', href, hpages⟩ := first.record n cn hn
    obtain ⟨cn'', hn'', href', hpages'⟩ := second.record n cn' hn'
    exact ⟨cn'', hn'', href'.trans href, hpages'.trans hpages⟩
  networks := second.networks.trans first.networks
  top := second.top.trans first.top
  chain c := (second.chain c).trans (first.chain c)

theorem without_trimmed (ha : ca.pages.lookup a = some cp) (hfree : cp.refCount = 0)
    (hn : ca.networkRecords.lookup cp.network = some cn) : Trimmed ca (without ca a cp cn) where
  pages b cp' hb := (lookup_erase_iff.mp hb).2
  inUse b cp' hb huse := by
    refine lookup_erase_iff.mpr ⟨?_, hb⟩
    rintro rfl
    rw [ha] at hb
    cases hb
    exact huse hfree
  record n cn' hn' := by
    by_cases hne : n = cp.network
    · subst hne
      rw [hn] at hn'
      cases hn'
      exact ⟨_, lookup_insert_iff.mpr (Or.inl ⟨rfl, rfl⟩), rfl, rfl⟩
    · exact ⟨cn', lookup_insert_iff.mpr (Or.inr ⟨hne, hn'⟩), rfl, rfl⟩
  networks := rfl
  limit := rfl
  top := rfl
  chain c := by
    by_cases hc : c = hashOf cp.pgno
    · subst hc
      simpa only [without, Function.update_self] using List.erase_sublist
    · simp only [without, Function.update_of_ne hc, List.Sublist.refl]

/-- One deletion: the page is gone, and the other unreferenced pages remain. -/
theorem deletePage_trims (h : Accounted ca) (ha : a ∈ ca.priority) :
    ∃ t, deletePage ca a = some t ∧ Accounted t ∧ Trimmed ca t ∧
      (∀ b ∈ ca.priority, b ≠ a → b ∈ t.priority) ∧ t.pages.lookup a = none := by
  obtain ⟨cp, hcp, hfree⟩ := (h.linked.priority a).mp ha
  obtain ⟨cn, hcn⟩ := (h.page a cp hcp).owner
  refine ⟨without ca a cp cn, deletePage_eq h hcp hfree hcn, h.without hcp hfree hcn,
    without_trimmed hcp hfree hcn, ?_, AList.lookup_erase a ca.pages⟩
  intro b hb hne
  exact h.linked.priorityOnce.mem_erase_iff.mpr ⟨hne, hb⟩

/-- A loop over unreferenced pages, which at each page deletes at most this page
and reaches a condition which further deletions keep. -/
theorem foldlM_trims {f : VbiCache → Addr → Option VbiCache}
    (stable : ∀ s t a, Accounted s → Accounted t → Trimmed s t → Done s a → Done t a)
    (visit : ∀ s a, Accounted s → a ∈ s.priority → ∃ t, f s a = some t ∧ Accounted t ∧
      Trimmed s t ∧ (∀ b ∈ s.priority, b ≠ a → b ∈ t.priority) ∧ Done t a)
    (h : Accounted s) {row : List Addr} (once : row.Nodup)
    (unreferenced : ∀ a ∈ row, a ∈ s.priority) :
    ∃ t, row.foldlM f s = some t ∧ Accounted t ∧ Trimmed s t ∧ ∀ a ∈ row, Done t a := by
  induction row generalizing s with
  | nil => exact ⟨s, rfl, h, Trimmed.refl s, by simp⟩
  | cons a row ih =>
    obtain ⟨hnot, hrow⟩ := List.nodup_cons.mp once
    obtain ⟨r, hr, hacc, htrim, hother, hdone⟩ :=
      visit s a h (unreferenced a List.mem_cons_self)
    have hrest : ∀ b ∈ row, b ∈ r.priority := by
      intro b hb
      apply hother b (unreferenced b (List.mem_cons_of_mem a hb))
      rintro rfl
      exact hnot hb
    obtain ⟨t, ht, hacc', htrim', hdone'⟩ := ih hacc hrow hrest
    refine ⟨t, ?_, hacc', htrim.trans htrim', ?_⟩
    · simp only [List.foldlM_cons, hr, Option.bind_eq_bind, Option.bind_some, ht]
    · intro b hb
      rcases List.mem_cons.mp hb with rfl | hb
      · exact stable r t b hacc hacc' htrim' hdone
      · exact hdone' b hb

/-- A loop may skip a page which has nothing to do. -/
theorem skip_page (h : Accounted s) (a : Addr) (hdone : Done s a) :
    ∃ t, some s = some t ∧ Accounted t ∧ Trimmed s t ∧
      (∀ b ∈ s.priority, b ≠ a → b ∈ t.priority) ∧ Done t a :=
  ⟨s, rfl, h, Trimmed.refl s, fun _ hb _ => hb, hdone⟩

theorem deleteAllPages_trims (h : Accounted ca) (n : Addr) :
    ∃ t, deleteAllPages ca n = some t ∧ Accounted t ∧ Trimmed ca t ∧
      ∀ a cp, t.pages.lookup a = some cp → cp.refCount = 0 → cp.network ≠ n := by
  let Gone (s : VbiCache) (a : Addr) : Prop :=
    ∀ cp, s.pages.lookup a = some cp → cp.network ≠ n
  have stable : ∀ s t a, Accounted s → Accounted t → Trimmed s t → Gone s a → Gone t a :=
    fun s t a _ _ htrim hgone cp ha => hgone cp (htrim.pages a cp ha)
  have visit : ∀ s a, Accounted s → a ∈ s.priority → ∃ t,
      (do let cp ← s.pages.lookup a; if cp.network = n then deletePage s a else some s) = some t ∧
      Accounted t ∧ Trimmed s t ∧ (∀ b ∈ s.priority, b ≠ a → b ∈ t.priority) ∧ Gone t a := by
    intro s a hs ha
    obtain ⟨cp, hcp, -⟩ := (hs.linked.priority a).mp ha
    simp only [hcp, Option.bind_eq_bind, Option.bind_some]
    by_cases hn : cp.network = n
    · obtain ⟨t, ht, hacc, htrim, hother, hnone⟩ := deletePage_trims hs ha
      rw [if_pos hn]
      refine ⟨t, ht, hacc, htrim, hother, ?_⟩
      intro cp' hcp'
      rw [hnone] at hcp'
      cases hcp'
    · rw [if_neg hn]
      apply skip_page hs a
      intro cp' hcp'
      rw [hcp] at hcp'
      cases hcp'
      exact hn
  obtain ⟨t, ht, hacc, htrim, hgone⟩ := foldlM_trims stable visit h h.linked.priorityOnce
    fun a ha => ha
  refine ⟨t, ht, hacc, htrim, ?_⟩
  intro a cp ha hfree
  have hmem : a ∈ ca.priority := (h.linked.priority a).mpr ⟨cp, htrim.pages a cp ha, hfree⟩
  exact hgone a hmem cp ha

/-- One loop of the deletion of surplus pages. If it visits all networks it stops
within the limit or deletes all pages of its priority. -/
theorem surplusPass_trims (h : Accounted ca) (unreferencedOnly : Bool) (pri : CachePriority) :
    ∃ t, surplusPass unreferencedOnly pri ca = some t ∧ Accounted t ∧ Trimmed ca t ∧
      (unreferencedOnly = false → t.memoryUsed ≤ t.memoryLimit ∨
        ∀ a cp, t.pages.lookup a = some cp → cp.refCount = 0 → cp.priority ≠ pri) := by
  let Done (s : VbiCache) (a : Addr) : Prop :=
    unreferencedOnly = false → s.memoryUsed ≤ s.memoryLimit ∨
      ∀ cp, s.pages.lookup a = some cp → cp.priority ≠ pri
  have stable : ∀ s t a, Accounted s → Accounted t → Trimmed s t → Done s a → Done t a := by
    intro s t a hs ht htrim hdone hall
    rcases hdone hall with hle | hgone
    · left
      rw [htrim.limit]
      exact BitVec.le_trans (htrim.used_le hs ht) hle
    · right
      exact fun cp ha => hgone cp (htrim.pages a cp ha)
  have visit : ∀ s a, Accounted s → a ∈ s.priority → ∃ t,
      (if s.memoryUsed ≤ s.memoryLimit then some s
      else do
        let cp ← s.pages.lookup a
        let cn ← s.networkRecords.lookup cp.network
        if cp.priority = pri ∧ (unreferencedOnly → cn.refCount = 0) then deletePage s a
        else some s) = some t ∧
      Accounted t ∧ Trimmed s t ∧ (∀ b ∈ s.priority, b ≠ a → b ∈ t.priority) ∧ Done t a := by
    intro s a hs ha
    by_cases hle : s.memoryUsed ≤ s.memoryLimit
    · rw [if_pos hle]
      exact skip_page hs a fun _ => Or.inl hle
    obtain ⟨cp, hcp, -⟩ := (hs.linked.priority a).mp ha
    obtain ⟨cn, hcn⟩ := (hs.page a cp hcp).owner
    simp only [if_neg hle, hcp, hcn, Option.bind_eq_bind, Option.bind_some]
    by_cases hpick : cp.priority = pri ∧ (unreferencedOnly → cn.refCount = 0)
    · obtain ⟨t, ht, hacc, htrim, hother, hnone⟩ := deletePage_trims hs ha
      rw [if_pos hpick]
      refine ⟨t, ht, hacc, htrim, hother, fun _ => Or.inr ?_⟩
      intro cp' hcp'
      rw [hnone] at hcp'
      cases hcp'
    · rw [if_neg hpick]
      apply skip_page hs a
      intro hall
      right
      intro cp' hcp' hpri
      rw [hcp] at hcp'
      cases hcp'
      simp [hpri, hall] at hpick
  obtain ⟨t, ht, hacc, htrim, hdone⟩ := foldlM_trims stable visit h h.linked.priorityOnce
    fun a ha => ha
  refine ⟨t, ht, hacc, htrim, ?_⟩
  intro hall
  by_cases hle : t.memoryUsed ≤ t.memoryLimit
  · exact Or.inl hle
  right
  intro a cp ha hfree
  have hmem : a ∈ ca.priority := (h.linked.priority a).mpr ⟨cp, htrim.pages a cp ha, hfree⟩
  rcases hdone a hmem hall with hle' | hgone
  · exact absurd hle' hle
  · exact hgone cp ha

/-- The loops always get within the limit. -/
theorem deleteSurplusPages_trims (h : Accounted ca) :
    ∃ t, deleteSurplusPages ca = some t ∧ Accounted t ∧ Trimmed ca t ∧
      t.memoryUsed ≤ t.memoryLimit := by
  obtain ⟨s₁, hs₁, hacc₁, htrim₁, -⟩ := surplusPass_trims h true .normal
  obtain ⟨s₂, hs₂, hacc₂, htrim₂, -⟩ := surplusPass_trims hacc₁ true .special
  obtain ⟨s₃, hs₃, hacc₃, htrim₃, hnormal⟩ := surplusPass_trims hacc₂ false .normal
  obtain ⟨t, ht, hacc, htrim, hspecial⟩ := surplusPass_trims hacc₃ false .special
  refine ⟨t, ?_, hacc, ((htrim₁.trans htrim₂).trans htrim₃).trans htrim, ?_⟩
  · simp only [deleteSurplusPages, hs₁, hs₂, hs₃, Option.bind_eq_bind, Option.bind_some, ht]
  rcases hspecial rfl with hle | hnoSpecial
  · exact hle
  rcases hnormal rfl with hle | hnoNormal
  · rw [htrim.limit]
    exact BitVec.le_trans (htrim.used_le hacc₃ hacc) hle
  have hzero : total unreferencedSize t.pages = 0 := by
    apply total_eq_zero.mpr
    intro a cp ha
    apply if_neg
    intro hfree
    cases hpri : cp.priority with
    | zombie => exact (hacc.page a cp ha).zombie hpri hfree
    | normal => exact hnoNormal a cp (htrim.pages a cp ha) hfree hpri
    | special => exact hnoSpecial a cp ha hfree hpri
  rw [BitVec.le_def, hacc.used, hzero]
  exact Nat.zero_le _

end PageCacheAccounts

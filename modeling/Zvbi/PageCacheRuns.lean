import Zvbi.PageCachePut

/-!
# Accounts of the page cache after any sequence of calls

The counters and lists are right after every sequence of calls, unless one of
them stores a page in a way which upsets them. This happens when a page is
condemned twice, when the block of a page is reused for one of another size,
and when a page number has 256 pages.
-/

namespace PageCacheRuns
open RecordHeap PageCache PageCacheAccounts PageCacheReferences PageCacheEviction PageCachePut
open GuardedRuns

/-- The pointers a client passes are those of existing pages and networks, and the
page numbers those of pages. -/
def Callable (ca : VbiCache) : Op → Prop
  | .putPage n cp _ => n ∈ ca.networks ∧ validPgno cp.pgno
  | .getPage n _ _ _ => n ∈ ca.networks
  | .pageRef a => (ca.pages.lookup a).isSome
  | .pageUnref a => (ca.pages.lookup a).isSome
  | .addNetwork _ _ => True
  | .getNetwork _ => True
  | .networkRef n => n ∈ ca.networks
  | .networkUnref n => n ∈ ca.networks
  | .setPageType n _ _ => n ∈ ca.networks

instance (ca : VbiCache) (op : Op) : Decidable (Callable ca op) := by
  cases op <;> simp only [Callable] <;> infer_instance

/-- The call stores no page in an unsafe way, and no reference count wraps. -/
def Safe (ca : VbiCache) : Op → Prop
  | .putPage n cp _ => PutFits ca n cp
  | .getPage n pgno subno mask => ∀ a ∈ pageFound ca n pgno subno mask,
      ∀ cp ∈ ca.pages.lookup a, cp.refCount + 1 < 2 ^ 32
  | .pageRef a => ∀ cp ∈ ca.pages.lookup a, cp.refCount + 1 < 2 ^ 32
  | _ => True

instance (ca : VbiCache) (op : Op) : Decidable (Safe ca op) := by
  cases op <;> simp only [Safe] <;> infer_instance

/-- After the call a page number has at most 255 pages. -/
def Countable (ca : VbiCache) : Op → Prop
  | .putPage n cp _ => tally (ofNumber n cp.pgno) ca.pages < 255 ∨
      (replaced ca n cp).isSome ∨
      Meets (sizeAt ca) (cachePageSize cp)
        (fun b => (ca.pages.lookup b).any (ofNumber n cp.pgno))
        (spareMemory ca (replaced ca n cp)) (evictionOrder ca (replaced ca n cp))
  | _ => True

instance (ca : VbiCache) (op : Op) : Decidable (Countable ca op) := by
  cases op <;> simp only [Countable] <;> infer_instance

/-- Each page is in one of two lists, and a version of a page is in its chain. -/
structure Balanced (ca : VbiCache) : Prop where
  memory : ca.memoryUsed.toNat = total
    (fun cp => if cp.refCount = 0 then cachePageSize cp.toTtxPage else 0) ca.pages
  pages : ca.nCachedPages = tally (fun _ => true) ca.pages
  networkPages : ∀ n cn, ca.networkRecords.lookup n = some cn →
    cn.nCachedPages = tally (fun cp => cp.network = n) ca.pages
  referencedPages : ∀ n cn, ca.networkRecords.lookup n = some cn →
    cn.nReferencedPages = tally (fun cp => cp.network = n ∧ cp.refCount ≠ 0) ca.pages
  subpages : ∀ n cn pgno, ca.networkRecords.lookup n = some cn →
    (cn.pageStat pgno).nSubpages.toNat = tally (fun cp => cp.network = n ∧ cp.pgno = pgno) ca.pages
  priority : ∀ a, a ∈ ca.priority ↔ ∃ cp, ca.pages.lookup a = some cp ∧ cp.refCount = 0
  referenced : ∀ a, a ∈ ca.referenced ↔ ∃ cp, ca.pages.lookup a = some cp ∧ cp.refCount ≠ 0
  once : (ca.priority ++ ca.referenced).Nodup
  chain : ∀ c a, a ∈ ca.hash c ↔
    ∃ cp, ca.pages.lookup a = some cp ∧ cp.priority ≠ .zombie ∧ hashOf cp.pgno = c
  chainOnce : ∀ c, (ca.hash c).Nodup

def Counted (ca : VbiCache) : Prop := ∀ n pgno, tally (ofNumber n pgno) ca.pages ≤ 255

variable {ca : VbiCache} {op : Op}

theorem balanced_of_counted (h : Consistent ca) (counted : Counted ca) :
    Balanced ca where
  memory := h.used
  pages := h.cached
  networkPages n cn hn := (h.network n cn hn).cached
  referencedPages n cn hn := (h.network n cn hn).referenced
  subpages n cn pgno hn := by
    have hcount := (h.network n cn hn).subpages pgno
    have hle := counted n pgno
    rw [hcount, UInt8.toNat_ofNat_of_lt']
    · rfl
    · exact Nat.lt_succ_of_le hle
  priority := h.linked.priority
  referenced := h.linked.referenced
  once := by
    refine List.nodup_append.mpr ⟨h.linked.priorityOnce, h.linked.referencedOnce, ?_⟩
    rintro a hfree b huse rfl
    obtain ⟨cp, ha, hcount⟩ := (h.linked.priority a).mp hfree
    obtain ⟨cp', ha', hcount'⟩ := (h.linked.referenced a).mp huse
    rw [ha] at ha'
    cases ha'
    exact hcount' hcount
  chain := h.linked.chain
  chainOnce := h.linked.chainOnce

theorem vbiCacheNew_consistent (memoryLimit : Nat) : Consistent (vbiCacheNew memoryLimit) := by
  have hpages : ∀ p : CachePage → Prop,
      ¬∃ cp, (vbiCacheNew memoryLimit).pages.lookup 0 = some cp ∧ p cp := by
    rintro p ⟨cp, hcp, -⟩
    cases hcp
  have hlimit : (vbiCacheNew memoryLimit).memoryLimit.toNat =
      max (2 ^ 10) (min memoryLimit (2 ^ 30)) := by
    simp only [vbiCacheNew, BitVec.toNat_ofNat]
    omega
  constructor
  · constructor
    · constructor
      · exact fun a => ⟨fun h => absurd h List.not_mem_nil, fun ⟨_, h, _⟩ => by cases h⟩
      · exact fun a => ⟨fun h => absurd h List.not_mem_nil, fun ⟨_, h, _⟩ => by cases h⟩
      · exact fun c a => ⟨fun h => absurd h List.not_mem_nil, fun ⟨_, h, _⟩ => by cases h⟩
      · exact fun n => ⟨fun h => absurd h List.not_mem_nil, fun ⟨_, h⟩ => by cases h⟩
      · exact List.nodup_nil
      · exact List.nodup_nil
      · exact fun _ => List.nodup_nil
      · exact List.nodup_nil
    · rfl
    · rfl
    · exact fun n cn hn => by cases hn
    · exact fun a cp ha => by cases ha
    · exact fun n cn hn => by cases hn
  · rw [BitVec.le_def]
    exact Nat.zero_le _
  · rw [hlimit]
    omega

/-- Every safe call keeps the accounts. A call which stores no page brings no new
versions. -/
theorem call_keeps (h : Consistent ca) (callable : Callable ca op) (safe : Safe ca op) :
    ∃ t r, call ca op = some (t, r) ∧ Consistent t ∧
      (NoNewVersions ca t ∧ (∀ n cp memory, op = .putPage n cp memory → r = none) ∨
        ∃ n cp memory a, op = .putPage n cp memory ∧ r = some a ∧ Stored ca t n cp a) := by
  cases op with
  | putPage n cp memory =>
    obtain ⟨cn, hn⟩ := (h.linked.network n).mp callable.1
    obtain ⟨t, r, ht, hcons, hnone, hsome⟩ := vbiCachePutPage_keeps h hn callable.2 safe memory
    refine ⟨t, r, ht, hcons, ?_⟩
    cases r with
    | none => exact Or.inl ⟨hnone rfl, fun _ _ _ _ => rfl⟩
    | some a => exact Or.inr ⟨n, cp, memory, a, rfl, rfl, hsome a rfl⟩
  | getPage n pgno subno mask =>
    obtain ⟨t, r, ht, hcons, hnew, -⟩ := vbiCacheGetPage_keeps h n pgno subno mask safe
    exact ⟨t, r, ht, hcons, Or.inl ⟨hnew, fun _ _ _ hop => by cases hop⟩⟩
  | pageRef a =>
    obtain ⟨cp, ha⟩ := Option.isSome_iff_exists.mp callable
    obtain ⟨t, ht, hcons, hpages⟩ := cachePageRef_keeps h ha (safe cp ha)
    refine ⟨t, some a, by simp only [call, ht, Option.map_some], hcons,
      Or.inl ⟨?_, fun _ _ _ hop => by cases hop⟩⟩
    exact noNewVersions_recount ha fun b page hb => by rw [hpages] at hb; exact hb
  | pageUnref a =>
    obtain ⟨cp, ha⟩ := Option.isSome_iff_exists.mp callable
    obtain ⟨t, ht, hcons, hnew⟩ := cachePageUnref_keeps h ha
    exact ⟨t, none, by simp only [call, ht, Option.map_some], hcons,
      Or.inl ⟨hnew, fun _ _ _ hop => by cases hop⟩⟩
  | addNetwork nk memory =>
    obtain ⟨t, r, ht, hcons, hnew⟩ := addNetwork_keeps h nk memory
    exact ⟨t, r, ht, hcons, Or.inl ⟨hnew, fun _ _ _ hop => by cases hop⟩⟩
  | getNetwork nk =>
    obtain ⟨t, r, ht, hcons, hnew⟩ := getNetwork_keeps h nk
    exact ⟨t, r, ht, hcons, Or.inl ⟨hnew, fun _ _ _ hop => by cases hop⟩⟩
  | networkRef n =>
    obtain ⟨cn, hn⟩ := (h.linked.network n).mp callable
    obtain ⟨t, ht, hcons, hpages⟩ := networkRef_keeps h hn
    refine ⟨t, some n, by simp only [call, ht, Option.map_some], hcons,
      Or.inl ⟨?_, fun _ _ _ hop => by cases hop⟩⟩
    exact noNewVersions_of_pages fun a cp ha => hpages ▸ ha
  | networkUnref n =>
    obtain ⟨cn, hn⟩ := (h.linked.network n).mp callable
    obtain ⟨t, ht, hcons, hnew⟩ := networkUnref_keeps h hn
    exact ⟨t, none, by simp only [call, ht, Option.map_some], hcons,
      Or.inl ⟨hnew, fun _ _ _ hop => by cases hop⟩⟩
  | setPageType n pgno pageType =>
    obtain ⟨cn, hn⟩ := (h.linked.network n).mp callable
    obtain ⟨t, ht, hcons, hnew⟩ := setPageType_keeps h hn pgno pageType
    exact ⟨t, none, by simp only [call, ht, Option.map_some], hcons,
      Or.inl ⟨hnew, fun _ _ _ hop => by cases hop⟩⟩

/-- The accounts hold after every run of safe calls. -/
theorem run_consistent {memoryLimit : Nat} {ops : List Op}
    (safe : Permitted step (fun ca op => Callable ca op ∧ Safe ca op) (vbiCacheNew memoryLimit) ops)
    (hrun : run step (vbiCacheNew memoryLimit) ops = some ca) : Consistent ca := by
  have keeps : ∀ s op t, Consistent s → Callable s op ∧ Safe s op → step s op = some t →
      Consistent t := by
    rintro s op t h ⟨callable, hsafe⟩ ht
    obtain ⟨t', r, ht', hcons, -⟩ := call_keeps h callable hsafe
    simp only [step, ht', Option.map_some, Option.some.injEq] at ht
    exact ht ▸ hcons
  exact run_invariant Consistent keeps (vbiCacheNew_consistent memoryLimit) safe hrun

theorem step_counts (h : Consistent ca) (counted : Counted ca) (callable : Callable ca op)
    (safe : Safe ca op) (countable : Countable ca op) :
    ∃ t, step ca op = some t ∧ Consistent t ∧ Counted t := by
  obtain ⟨t, r, ht, hcons, hpages⟩ := call_keeps h callable safe
  refine ⟨t, by simp only [step, ht, Option.map_some], hcons, ?_⟩
  intro m pgno
  rcases hpages with ⟨hnew, -⟩ | ⟨n, cp, memory, a, rfl, -, hstored⟩
  · exact Nat.le_trans (hnew.tally_le m pgno) (counted m pgno)
  by_cases hnumber : m = n ∧ pgno = cp.pgno
  · obtain ⟨rfl, rfl⟩ := hnumber
    rcases countable with hfew | hgoes
    · have hle := hstored.tally m cp.pgno
      simp only [and_self, if_true] at hle
      omega
    · have hexchange : (∃ a, replaced ca m cp = some a) ∨
          Meets (sizeAt ca) (cachePageSize cp)
            (fun b => (ca.pages.lookup b).any (ofNumber m cp.pgno))
            (spareMemory ca (replaced ca m cp)) (evictionOrder ca (replaced ca m cp)) :=
        hgoes.imp_left Option.isSome_iff_exists.mp
      exact Nat.le_trans (hstored.exchange hexchange) (counted m cp.pgno)
  · have hle := hstored.tally m pgno
    rw [if_neg hnumber] at hle
    exact Nat.le_trans hle (counted m pgno)

/-- After every sequence of safe calls all counters are the sums they stand for,
and each page is on the lists it belongs to. -/
theorem page_cache_balanced (memoryLimit : Nat) (ops : List Op)
    (safe : Permitted step (fun ca op => Callable ca op ∧ Safe ca op ∧ Countable ca op)
      (vbiCacheNew memoryLimit) ops) :
    ∃ ca, run step (vbiCacheNew memoryLimit) ops = some ca ∧ Balanced ca := by
  have keeps : ∀ ca op, Consistent ca ∧ Counted ca →
      Callable ca op ∧ Safe ca op ∧ Countable ca op →
      ∃ t, step ca op = some t ∧ Consistent t ∧ Counted t := by
    rintro ca op ⟨h, counted⟩ ⟨callable, hsafe, countable⟩
    exact step_counts h counted callable hsafe countable
  have start : Consistent (vbiCacheNew memoryLimit) ∧ Counted (vbiCacheNew memoryLimit) :=
    ⟨vbiCacheNew_consistent memoryLimit, fun _ _ => Nat.zero_le _⟩
  obtain ⟨ca, hrun, hcons, counted⟩ :=
    run_keeps (fun ca => Consistent ca ∧ Counted ca) keeps start safe
  exact ⟨ca, hrun, balanced_of_counted hcons counted⟩

def lopPage (pgno subno : Nat) (byte : UInt8) : TtxPage :=
  ⟨.lop, pgno, subno, 0, 0, 0, 0, 0, 0, [byte]⟩

def drcsPage (pgno : Nat) (byte : UInt8) : TtxPage := ⟨.drcs, pgno, 0, 0, 0, 0, 0, 0, 0, [byte]⟩

/-- Two pages of a network, one of them replaced by a new version and one evicted. -/
theorem page_cache_balanced_eviction :
    ∃ ca, run step (vbiCacheNew 3500) [.addNetwork none true, .putPage 0 (lopPage 0x101 0 1) true,
        .pageUnref 1, .putPage 0 (lopPage 0x102 1 2) true, .pageUnref 2, .getPage 0 0x101 0 0xFFFF,
        .putPage 0 (lopPage 0x101 0 3) true, .pageUnref 1, .pageUnref 3,
        .putPage 0 (lopPage 0x103 2 4) true, .networkUnref 0] = some ca ∧ Balanced ca :=
  page_cache_balanced 3500 _ (by decide +kernel)

def storeTwo : List Op :=
  [.addNetwork none true, .putPage 0 (lopPage 0x101 0 1) true, .pageUnref 1,
    .putPage 0 (lopPage 0x102 0 2) true, .pageUnref 2]

def storeMany : List Op :=
  .addNetwork none true :: List.replicate 256 (.putPage 0 (lopPage 0x101 0 1) true)

/-- A block is reused for a larger page, a page of an unreferenced network is
condemned twice and freed twice, and the counter of 256 pages is zero. -/
theorem page_cache_not_balanced :
    (Permitted step Callable (vbiCacheNew 6068) (storeTwo ++ [.putPage 0 (drcsPage 0x103 3) true]) ∧
      ∃ ca, run step (vbiCacheNew 6068) (storeTwo ++ [.putPage 0 (drcsPage 0x103 3) true]) =
          some ca ∧
        ca.memoryUsed.toNat ≠ total
          (fun cp => if cp.refCount = 0 then cachePageSize cp.toTtxPage else 0) ca.pages) ∧
    (Permitted step Callable (vbiCacheNew 3200)
        (storeTwo ++ [.networkUnref 0, .putPage 0 (drcsPage 0x103 3) true]) ∧
      run step (vbiCacheNew 3200)
        (storeTwo ++ [.networkUnref 0, .putPage 0 (drcsPage 0x103 3) true]) = none) ∧
    (run step (vbiCacheNew (2 ^ 30)) storeMany).map (fun ca =>
        ((ca.networkRecords.lookup 0).map fun cn => (cn.pageStat 0x101).nSubpages,
          tally (fun cp => cp.network = 0 ∧ cp.pgno = 0x101) ca.pages)) =
      some (some 0, 256) := by
  refine ⟨⟨?_, _, rfl, ?_⟩, ⟨?_, rfl⟩, ?_⟩
  all_goals decide +kernel

end PageCacheRuns

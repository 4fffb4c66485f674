import Zvbi.PageCacheWalk

/-!
# Traversals of the pages of a network

A callback which always asks to continue gets the cached pages of the network lap
after lap, in the order of their numbers from the start. The function does not
return then, unless no page is cached.
-/

namespace PageCacheTraversal
open RecordHeap PageCache PageCacheAccounts PageCacheReferences PageCachePut PageCacheRuns
open PageCacheVersions PageCacheForeach PageCacheWalk GuardedRuns CyclicOrder

variable {Data : Type}

section Prefix
variable {callback : ForeachCb Data} {n : Addr} {dir : Int} {w w' : Foreach Data} {r : Option Int}

theorem turn_calls {found : Option Addr} (h : turn callback dir w found = some (w', r)) :
    w.calls <+: w'.calls := by
  cases found with
  | none =>
    cases h
    exact List.prefix_rfl
  | some a =>
    simp only [turn] at h
    obtain ⟨ca, -, h⟩ := Option.bind_eq_some_iff.mp h
    split at h
    · cases h
      exact List.prefix_append _ _
    · cases h
      exact List.prefix_append _ _

theorem nextPage_calls (dir : Int) (pageStat : Nat → PageStat) (w : Foreach Data) :
    (nextPage dir pageStat w).calls = w.calls := by
  simp only [nextPage]
  split
  · split
    · rfl
    · rfl
  · split
    · rfl
    · rfl

theorem foreachStep_calls (h : foreachStep callback n dir w = some (w', r)) :
    w.calls <+: w'.calls := by
  obtain ⟨cn, -, h⟩ := Option.bind_eq_some_iff.mp h
  split at h
  · cases h
    rw [nextPage_calls]
  · obtain ⟨⟨ca, found⟩, -, h⟩ := Option.bind_eq_some_iff.mp h
    have hturn : turn callback dir { w with ca := ca } found = some (w', r) := h
    have hcalls := turn_calls hturn
    exact hcalls

/-- A run which goes on was going on before, with some of its calls. -/
theorem foreachLoop_before {j k : Nat} (h : foreachLoop callback n dir (j + k) w = some (w', none)) :
    ∃ v, foreachLoop callback n dir j w = some (v, none) ∧ v.calls <+: w'.calls := by
  induction j generalizing w with
  | zero =>
    refine ⟨w, rfl, ?_⟩
    rw [Nat.zero_add] at h
    induction k generalizing w with
    | zero =>
      cases h
      exact List.prefix_rfl
    | succ k ih =>
      obtain ⟨⟨v, result⟩, hv, h⟩ := Option.bind_eq_some_iff.mp h
      cases result with
      | none => exact (foreachStep_calls hv).trans (ih h)
      | some x => cases h
  | succ j ih =>
    rw [Nat.add_right_comm] at h
    obtain ⟨⟨v, result⟩, hv, h⟩ := Option.bind_eq_some_iff.mp h
    cases result with
    | none =>
      obtain ⟨u, hu, hprefix⟩ := ih h
      refine ⟨u, ?_, hprefix⟩
      rw [foreachLoop, hv]
      exact hu
    | some x => cases h

end Prefix

theorem call_filler {ca t : VbiCache} (filler : NoFiller ca) {op : Op} {r : Option Addr}
    (hcall : call ca op = some (t, r))
    (hpages : NoNewVersions ca t ∧ (∀ n cp memory, op = .putPage n cp memory → r = none) ∨
      ∃ n cp memory a, op = .putPage n cp memory ∧ r = some a ∧ Stored ca t n cp a) :
    NoFiller t := by
  intro b page hb
  rcases hpages with ⟨hnew, -⟩ | ⟨n, cp, memory, a, rfl, rfl, hstored⟩
  · obtain ⟨old, hold, hsame, -⟩ := hnew b page hb
    rw [hsame]
    exact filler b old hold
  by_cases hba : b = a
  · subst hba
    obtain ⟨subno, mask, room, -, hpage⟩ := hstored.page
    rw [hpage] at hb
    cases hb
    intro hend
    have hend' : cp.pgno &&& 0xFF = 0xFF := hend
    simp only [call, vbiCachePutPage, hend', if_true] at hcall
    cases hcall
  · obtain ⟨old, hold, hsame, -⟩ := hstored.others b page hba hb
    rw [hsame]
    exact filler b old hold

/-- After every sequence of safe calls. -/
theorem run_consistent {memoryLimit : Nat} {ops : List Op}
    (safe : Permitted step (fun ca op => Callable ca op ∧ Safe ca op) (vbiCacheNew memoryLimit) ops)
    {ca : VbiCache} (hrun : run step (vbiCacheNew memoryLimit) ops = some ca) :
    Consistent ca ∧ NoFiller ca := by
  refine run_invariant (fun ca => Consistent ca ∧ NoFiller ca) ?_
    ⟨vbiCacheNew_consistent memoryLimit, fun a cp ha => by cases ha⟩ safe hrun
  rintro s op t ⟨h, filler⟩ ⟨callable, hsafe⟩ ht
  obtain ⟨t', r, hcall, hcons, hpages⟩ := call_keeps h callable hsafe
  have ht' : step s op = some t' := by rw [step, hcall, Option.map_some]
  rw [ht'] at ht
  cases ht
  exact ⟨hcons, call_filler filler hcall hpages⟩

def keyOf (ca : VbiCache) (a : Addr) : Int × Int :=
  match ca.pages.lookup a with
  | some cp => (cp.pgno, cp.subno)
  | none => (0, 0)

def origin (ca : VbiCache) (n : Addr) (pgno subno : Nat) : Nat :=
  (startSubno ca subno (pageFound ca n pgno subno wholeSubno)).getD 0

section Traversal
variable {ca : VbiCache} {n : Addr} {cn : CacheNetwork} {dir : Int} {pgno : Nat}

/-- What is cached at the start is the page the function looks up first. -/
theorem pageAt_origin (h : Searchable ca n cn) (subno : Nat) :
    pageAt ca n (pgno, origin ca n pgno subno) = pageFound ca n pgno subno wholeSubno := by
  rw [pageAt, Int.toNat_natCast, Int.toNat_natCast]
  cases hfound : pageFound ca n pgno subno wholeSubno with
  | some a =>
    obtain ⟨hash, cp, -, -, hcached, hpgno, -⟩ :=
      pageFound_spec h.consistent.toAccounted hfound
    have hstart : origin ca n pgno subno = cp.subno := by
      simp only [origin, hfound, startSubno, hcached.1, Option.map_some, Option.getD_some]
    rw [hstart]
    exact (pageFound_iff h.consistent.toAccounted h.unique h.covered (h.covered.le hcached)).mpr
      ⟨cp, hcached, hpgno, rfl⟩
  | none =>
    simp only [origin, hfound, startSubno, Option.getD_some]
    by_cases hany : subno = anySubno
    · by_contra hsome
      obtain ⟨a, ha⟩ := Option.ne_none_iff_exists'.mp hsome
      obtain ⟨hash, cp, -, -, hcached, hpgno, -⟩ := pageFound_spec h.consistent.toAccounted ha
      exact pageFound_ne_none h.consistent.toAccounted _ hcached hpgno (Or.inl hany) hfound
    · rw [if_neg hany]
      exact hfound

theorem pageAt_origin_outside (h : Searchable ca n cn) (subno : Nat)
    (hout : outside (cn.pageStat pgno) (origin ca n pgno subno) = true) :
    pageAt ca n (pgno, origin ca n pgno subno) = none := by
  rw [pageAt_origin h]
  cases hfound : pageFound ca n pgno subno wholeSubno with
  | none => rfl
  | some a =>
    obtain ⟨hash, cp, -, -, hcached, rfl, -⟩ := pageFound_spec h.consistent.toAccounted hfound
    have hin := h.covered a cp hcached
    simp only [origin, hfound, startSubno, hcached.1, Option.map_some, Option.getD_some, hin] at hout
    cases hout

/-- The function up to the first test of the inner loop. -/
theorem foreachPage_starts {callback : ForeachCb Data} (continues : Continues callback)
    (h : Searchable ca n cn) (hcached : cn.nCachedPages ≠ 0) (hpgno : validPgno pgno) (subno : Nat)
    (userData : Data) :
    ∃ w, (∀ fuel, vbiCacheForeachPage callback ca n pgno subno dir userData fuel =
        foreachLoop callback n dir fuel w) ∧
      At ca w pgno (origin ca n pgno subno + dir)
        (pageAt ca n (pgno, origin ca n pgno subno)).toList := by
  obtain ⟨t, found, hfound, hget, hsubno, hturn⟩ :=
    getPage_turn continues h.consistent h.filler h.room hpgno subno dir
  have hstart : startSubno ca subno found = some (origin ca n pgno subno) := by
    rw [origin, ← hfound]
    cases found with
    | none => rfl
    | some a =>
      obtain ⟨hash, cp, -, -, hcached, -⟩ :=
        pageFound_spec h.consistent.toAccounted hfound.symm
      simp only [startSubno, hcached.1, Option.map_some, Option.getD_some]
  obtain ⟨u, after, hafter, hcons, hsame⟩ :=
    hturn ⟨t, pgno, origin ca n pgno subno, false, userData, []⟩ rfl
  refine ⟨⟨u, pgno, origin ca n pgno subno + dir, false, after, [] ++ found.toList⟩, ?_, rfl, rfl,
    ?_, hcons, hsame⟩
  · intro fuel
    simp only [vbiCacheForeachPage, h.network, if_neg hcached, hget, hsubno, hstart, if_pos hpgno,
      hafter, Option.bind_eq_bind, Option.bind_some]
  · rw [pageAt_origin h, ← hfound]
    rfl

end Traversal

variable {a : Addr} {key : Int × Int} {pageStat : Nat → PageStat}

section Laps
variable {ca : VbiCache} {n : Addr} {cn : CacheNetwork} {dir : Int} {pgno : Nat}

def lapOrder (ca : VbiCache) (n : Addr) (pageStat : Nat → PageStat) (dir : Int) (pgno start : Nat) :
    List Addr :=
  (keysAhead dir pageStat pgno start ++ keysBehind dir pageStat pgno start).filterMap
    (pageAt ca n)

theorem mem_pageKeys_inside (hdir : OneStep dir) {p : Int} (h : key ∈ pageKeys dir pageStat p) :
    key.1 = p ∧ outside (pageStat p.toNat) key.2 = false := by
  obtain ⟨x, hx, rfl⟩ := List.mem_map.mp h
  obtain ⟨i, hi, rfl⟩ := mem_stretch.mp hx
  exact ⟨rfl, inside_firstSubno hdir _ hi⟩

/-- The loop looks pages up by the start and numbers in the range recorded. -/
theorem mem_keys (hdir : OneStep dir) (hpgno : validPgno pgno) {start : Int}
    (h : key ∈ keysAhead dir pageStat pgno start ++ keysBehind dir pageStat pgno start) :
    key = ((pgno : Int), start) ∨
      0 ≤ key.1 ∧ outside (pageStat key.1.toNat) key.2 = false := by
  obtain ⟨hlow, hhigh⟩ := hpgno
  have hpages : ∀ first m, (∀ i : Nat, i < m → 0 ≤ first + dir * i) →
      key ∈ (stretch dir first m).flatMap (pageKeys dir pageStat) →
      0 ≤ key.1 ∧ outside (pageStat key.1.toNat) key.2 = false := by
    intro first m hpos hkey
    obtain ⟨p, hp, hkey⟩ := List.mem_flatMap.mp hkey
    obtain ⟨i, hi, rfl⟩ := mem_stretch.mp hp
    obtain ⟨hpage, hin⟩ := mem_pageKeys_inside hdir hkey
    rw [hpage]
    exact ⟨hpos i hi, hin⟩
  rcases List.mem_append.mp h with hahead | hbehind
  · rcases List.mem_append.mp hahead with hrow | hrows
    · rw [stretch_succ, row, List.map_cons, List.mem_cons] at hrow
      rcases hrow with rfl | hrow
      · exact Or.inl rfl
      · right
        obtain ⟨x, hx, rfl⟩ := List.mem_map.mp hrow
        obtain ⟨i, hi, rfl⟩ := mem_stretch.mp hx
        exact ⟨Int.natCast_nonneg pgno, inside_nRest hdir hi⟩
    · right
      refine hpages _ _ ?_ hrows
      intro i hi
      have hvalid := pages_ahead_valid hdir hlow hhigh hi
      omega
  · right
    rcases List.mem_append.mp hbehind with hrows | hrow
    · refine hpages _ _ ?_ hrows
      intro i hi
      rw [homePgno]
      rcases hdir with rfl | rfl
      · simp only [Int.reduceLT, if_false]
        omega
      · simp only [Int.reduceNeg, Int.reduceLT, if_true]
        omega
    · obtain ⟨x, hx, rfl⟩ := List.mem_map.mp hrow
      obtain ⟨i, hi, rfl⟩ := mem_stretch.mp hx
      exact ⟨Int.natCast_nonneg pgno,
        inside_firstSubno hdir _ (lt_of_lt_of_le hi (Nat.min_le_left _ _))⟩

theorem keyOf_pageAt (h : Searchable ca n cn) (hdir : OneStep dir) (hpgno : validPgno pgno)
    (subno : Nat)
    (hkey : key ∈ keysAhead dir cn.pageStat pgno (origin ca n pgno subno) ++
      keysBehind dir cn.pageStat pgno (origin ca n pgno subno))
    (hfound : pageAt ca n key = some a) : keyOf ca a = key := by
  rcases mem_keys hdir hpgno hkey with rfl | ⟨hpos, hin⟩
  · rw [pageAt_origin h] at hfound
    obtain ⟨hash, cp, -, -, hcached, rfl, -⟩ :=
      pageFound_spec h.consistent.toAccounted hfound
    simp only [keyOf, origin, hfound, startSubno, hcached.1, Option.map_some, Option.getD_some]
  · obtain ⟨cp, hcached, hnumber, hsubno⟩ := pageAt_spec h hfound
    obtain ⟨hlow, hhigh⟩ := inside_bounds hin
    simp only [keyOf, hcached.1]
    refine Prod.ext ?_ (hsubno hlow hhigh)
    rw [hnumber]
    exact Int.toNat_of_nonneg hpos

theorem lapOrder_cyclic (h : Searchable ca n cn) (hdir : OneStep dir) (hpgno : validPgno pgno)
    (subno : Nat) :
    CyclicFrom (precedes dir) ((pgno : Int), (origin ca n pgno subno : Int))
      ((lapOrder ca n cn.pageStat dir pgno (origin ca n pgno subno)).map (keyOf ca)) := by
  obtain ⟨hlow, hhigh⟩ := id hpgno
  refine (keys_cyclicFrom hdir cn.pageStat (by omega) (by omega) _).sublist ?_
  exact filterMap_key_sublist fun key hkey a hfound =>
    keyOf_pageAt h hdir hpgno subno hkey hfound

theorem lapOrder_nodup (h : Searchable ca n cn) (hdir : OneStep dir) (hpgno : validPgno pgno)
    (subno : Nat) : (lapOrder ca n cn.pageStat dir pgno (origin ca n pgno subno)).Nodup :=
  List.Nodup.of_map (keyOf ca) ((lapOrder_cyclic h hdir hpgno subno).nodup (precedes_irrefl dir))

theorem lapOrder_eq (ca : VbiCache) (n : Addr) (pageStat : Nat → PageStat) (dir : Int)
    (pgno start : Nat) : lapOrder ca n pageStat dir pgno start =
      (keysAhead dir pageStat pgno start).filterMap (pageAt ca n) ++
        (keysBehind dir pageStat pgno start).filterMap (pageAt ca n) := List.filterMap_append

theorem mem_lapOrder (h : Searchable ca n cn) (hdir : OneStep dir) (hpgno : validPgno pgno)
    (subno : Nat) (near : Near ca n (cn.pageStat pgno) dir pgno (origin ca n pgno subno)) :
    a ∈ lapOrder ca n cn.pageStat dir pgno (origin ca n pgno subno) ↔
      ∃ cp, Cached ca n a cp := by
  rw [← mem_ring h hdir, ring_split h hdir hpgno near (pageAt_origin_outside h subno), lapOrder_eq,
    List.mem_append, List.mem_append, or_comm]

theorem foreachPage_laps {callback : ForeachCb Data} (continues : Continues callback)
    (h : Searchable ca n cn) (hcached : cn.nCachedPages ≠ 0) (hdir : OneStep dir)
    (hpgno : validPgno pgno) (subno : Nat)
    (near : Near ca n (cn.pageStat pgno) dir pgno (origin ca n pgno subno)) (userData : Data)
    (m : Nat) :
    ∃ fuel w, m ≤ fuel ∧
      vbiCacheForeachPage callback ca n pgno subno dir userData fuel = some (w, none) ∧
      laps m (lapOrder ca n cn.pageStat dir pgno (origin ca n pgno subno)) <+: w.calls ∧
      w.calls <+: laps (m + 1) (lapOrder ca n cn.pageStat dir pgno (origin ca n pgno subno)) := by
  obtain ⟨w, hw, hat⟩ := foreachPage_starts continues h hcached hpgno subno userData
  obtain ⟨j, w₁, hgoes₁, hw₁⟩ := goes_ahead continues h hdir hpgno hat
  obtain ⟨k, w₂, hk, hgoes₂, hcalls⟩ := goes_laps continues h hdir m hw₁
  have hring := ring_split h hdir hpgno near (pageAt_origin_outside h subno)
  rw [hring, laps_rotate, ← lapOrder_eq] at hcalls
  refine ⟨j + k, w₂, by omega, ?_, ?_, ?_⟩
  · rw [hw]
    exact (hgoes₁.trans hgoes₂) 0
  · rw [hcalls]
    exact List.prefix_append _ _
  · rw [hcalls, laps_succ', List.prefix_append_right_inj, lapOrder_eq]
    exact List.prefix_append _ _

/-- The function does not return, and its calls are the beginning of some laps. -/
theorem foreachPage_goes_on {callback : ForeachCb Data} (continues : Continues callback)
    (h : Searchable ca n cn) (hcached : cn.nCachedPages ≠ 0) (hdir : OneStep dir)
    (hpgno : validPgno pgno) (subno : Nat)
    (near : Near ca n (cn.pageStat pgno) dir pgno (origin ca n pgno subno)) (userData : Data)
    (fuel : Nat) :
    ∃ w lap, vbiCacheForeachPage callback ca n pgno subno dir userData fuel = some (w, none) ∧
      w.calls <+: laps lap (lapOrder ca n cn.pageStat dir pgno (origin ca n pgno subno)) := by
  obtain ⟨total, w, hfuel, hw, -, hcalls⟩ :=
    foreachPage_laps continues h hcached hdir hpgno subno near userData fuel
  obtain ⟨start, hstart, -⟩ := foreachPage_starts continues h hcached hpgno subno userData
  rw [hstart, ← Nat.add_sub_cancel' hfuel] at hw
  obtain ⟨v, hv, hprefix⟩ := foreachLoop_before hw
  exact ⟨v, fuel + 1, by rw [hstart, hv], hprefix.trans hcalls⟩

end Laps

/-- The network has no two versions of a page, its records enclose the subpage numbers of
its pages, and no reference count wraps. -/
structure Traversable (ca : VbiCache) (n : Addr) (cn : CacheNetwork) : Prop where
  unique : Unique ca
  covered : Covered ca n cn.pageStat
  room : Room ca n

theorem traversable_iff {ca : VbiCache} {n : Addr} {cn : CacheNetwork} :
    Traversable ca n cn ↔
      (∀ e ∈ ca.pages.entries, ∀ e' ∈ ca.pages.entries, e.2.priority ≠ .zombie →
        e'.2.priority ≠ .zombie → e.2.network = e'.2.network → e.2.pgno = e'.2.pgno →
        e.2.subno = e'.2.subno → e.1 = e'.1) ∧
      ∀ e ∈ ca.pages.entries, e.2.network = n → e.2.priority ≠ .zombie →
        outside (cn.pageStat e.2.pgno) e.2.subno = false ∧ e.2.refCount + 1 < 2 ^ 32 := by
  constructor
  · rintro ⟨unique, covered, room⟩
    have hlookup : ∀ e ∈ ca.pages.entries, ca.pages.lookup e.1 = some e.2 :=
      forall_lookup.mp fun _ _ ha => ha
    refine ⟨?_, ?_⟩
    · intro e he e' he'
      exact unique e.1 e'.1 e.2 e'.2 (hlookup e he) (hlookup e' he')
    · intro e he hnetwork hlive
      exact ⟨covered e.1 e.2 ⟨hlookup e he, hnetwork, hlive⟩,
        room e.1 e.2 ⟨hlookup e he, hnetwork, hlive⟩⟩
  · rintro ⟨unique, hpages⟩
    have hboth : ∀ a cp, ca.pages.lookup a = some cp → cp.network = n → cp.priority ≠ .zombie →
        outside (cn.pageStat cp.pgno) cp.subno = false ∧ cp.refCount + 1 < 2 ^ 32 :=
      fun a cp ha => hpages ⟨a, cp⟩ (List.of_mem_dlookup ha)
    refine ⟨?_, ?_, ?_⟩
    · intro a b page other ha hb
      exact unique ⟨a, page⟩ (List.of_mem_dlookup ha) ⟨b, other⟩ (List.of_mem_dlookup hb)
    · rintro a cp ⟨ha, hnetwork, hlive⟩
      exact (hboth a cp ha hnetwork hlive).1
    · rintro a cp ⟨ha, hnetwork, hlive⟩
      exact (hboth a cp ha hnetwork hlive).2

instance (ca : VbiCache) (n : Addr) (cn : CacheNetwork) : Decidable (Traversable ca n cn) :=
  decidable_of_iff _ traversable_iff.symm

/-- After every sequence of safe calls, a callback which always continues gets the cached
pages of a network, each once in a lap and in cyclic order from the start, and there is
always another lap. Only without pages the function returns. -/
theorem foreach_page_laps {memoryLimit : Nat} {ops : List Op}
    (safe : Permitted step (fun ca op => Callable ca op ∧ Safe ca op) (vbiCacheNew memoryLimit) ops)
    {ca : VbiCache} (hrun : run step (vbiCacheNew memoryLimit) ops = some ca) {n : Addr}
    {cn : CacheNetwork} (hn : ca.networkRecords.lookup n = some cn) (h : Traversable ca n cn)
    {callback : ForeachCb Data} (continues : Continues callback) (userData : Data) {pgno : Nat}
    (hpgno : validPgno pgno) (subno : Nat) {dir : Int} (hdir : OneStep dir)
    (near : Near ca n (cn.pageStat pgno) dir pgno (origin ca n pgno subno)) :
    (cn.nCachedPages = 0 → ∀ fuel, ∃ w, w.calls = [] ∧
      vbiCacheForeachPage callback ca n pgno subno dir userData fuel = some (w, some 0)) ∧
    (cn.nCachedPages ≠ 0 → ∃ order : List Addr, order.Nodup ∧
      (∀ a, a ∈ order ↔ ∃ cp, Cached ca n a cp) ∧
      CyclicFrom (precedes dir) ((pgno : Int), (origin ca n pgno subno : Int))
        (order.map (keyOf ca)) ∧
      (∀ fuel, ∃ w lap,
        vbiCacheForeachPage callback ca n pgno subno dir userData fuel = some (w, none) ∧
        w.calls <+: laps lap order) ∧
      ∀ lap, ∃ fuel w,
        vbiCacheForeachPage callback ca n pgno subno dir userData fuel = some (w, none) ∧
        laps lap order <+: w.calls) := by
  obtain ⟨hcons, filler⟩ := run_consistent safe hrun
  have hs : Searchable ca n cn := ⟨hcons, hn, filler, h.unique, h.covered, h.room⟩
  constructor
  · intro hnone fuel
    refine ⟨⟨ca, pgno, subno, false, userData, []⟩, rfl, ?_⟩
    simp only [vbiCacheForeachPage, hn, if_pos hnone, Option.bind_eq_bind, Option.bind_some]
  intro hcached
  refine ⟨lapOrder ca n cn.pageStat dir pgno (origin ca n pgno subno),
    lapOrder_nodup hs hdir hpgno subno, fun a => mem_lapOrder hs hdir hpgno subno near,
    lapOrder_cyclic hs hdir hpgno subno, ?_, ?_⟩
  · intro fuel
    exact foreachPage_goes_on continues hs hcached hdir hpgno subno near userData fuel
  · intro lap
    obtain ⟨fuel, w, -, hw, hcalls, -⟩ :=
      foreachPage_laps continues hs hcached hdir hpgno subno near userData lap
    exact ⟨fuel, w, hw, hcalls⟩

def storeFour : List Op :=
  [.addNetwork none true, .putPage 0 (lopPage 0x101 1 1) true, .pageUnref 1,
    .putPage 0 (lopPage 0x101 2 2) true, .putPage 0 (lopPage 0x300 3 3) true,
    .putPage 0 (lopPage 0x8FE 0 4) true]

/-- Backward from any subpage of a page, with a callback which counts. -/
theorem foreach_page_laps_backward :
    ∃ ca cn, run step (vbiCacheNew (2 ^ 30)) storeFour = some ca ∧
      ca.networkRecords.lookup 0 = some cn ∧
      (cn.nCachedPages ≠ 0 → ∃ order : List Addr, order.Nodup ∧
        (∀ a, a ∈ order ↔ ∃ cp, Cached ca 0 a cp) ∧
        CyclicFrom (precedes (-1)) (((0x300 : Nat) : Int), (origin ca 0 0x300 anySubno : Int))
          (order.map (keyOf ca)) ∧
        (∀ fuel, ∃ w lap, vbiCacheForeachPage (fun ca _ _ count => (ca, count + 1, 0)) ca 0 0x300
            anySubno (-1) 0 fuel = some (w, none) ∧
          w.calls <+: laps lap order) ∧
        ∀ lap, ∃ fuel w, vbiCacheForeachPage (fun ca _ _ count => (ca, count + 1, 0)) ca 0 0x300
            anySubno (-1) 0 fuel = some (w, none) ∧
          laps lap order <+: w.calls) := by
  obtain ⟨ca, hrun⟩ : ∃ ca, run step (vbiCacheNew (2 ^ 30)) storeFour = some ca := ⟨_, rfl⟩
  have hcheck : (run step (vbiCacheNew (2 ^ 30)) storeFour).all (fun ca =>
      (ca.networkRecords.lookup 0).isSome ∧ (ca.networkRecords.lookup 0).all fun cn =>
        Traversable ca 0 cn ∧
        (origin ca 0 0x300 anySubno : Int) + -1 ≤ (cn.pageStat 0x300).subnoMax.toNat) = true := by
    decide +kernel
  simp only [hrun, Option.all_some, decide_eq_true_eq] at hcheck
  obtain ⟨hsome, hall⟩ := hcheck
  obtain ⟨cn, hn⟩ := Option.isSome_iff_exists.mp hsome
  simp only [hn, Option.all_some, decide_eq_true_eq] at hall
  refine ⟨ca, cn, hrun, hn, ?_⟩
  exact (foreach_page_laps (by decide +kernel) hrun hn hall.1
    (fun _ _ _ count => ⟨count + 1, rfl⟩) (0 : Nat) (by decide) anySubno (Or.inr rfl)
    fun _ => hall.2).2

def storeOne : List Op :=
  [.addNetwork none true, .putPage 0 (lopPage 0x100 0 1) true, .pageUnref 1]

/-- With one page cached, the function does not return to a callback which always asks to
continue. -/
theorem foreach_page_endless :
    Permitted step (fun ca op => Callable ca op ∧ Safe ca op) (vbiCacheNew (2 ^ 30)) storeOne ∧
    ∃ ca, run step (vbiCacheNew (2 ^ 30)) storeOne = some ca ∧ ∀ fuel, ∃ w,
      vbiCacheForeachPage (fun ca _ _ _ => (ca, (), 0)) ca 0 0x100 0 1 () fuel = some (w, none) := by
  have hsafe : Permitted step (fun ca op => Callable ca op ∧ Safe ca op) (vbiCacheNew (2 ^ 30))
      storeOne := by decide +kernel
  obtain ⟨ca, hrun⟩ : ∃ ca, run step (vbiCacheNew (2 ^ 30)) storeOne = some ca := ⟨_, rfl⟩
  have hcheck : (run step (vbiCacheNew (2 ^ 30)) storeOne).all (fun ca =>
      (ca.networkRecords.lookup 0).isSome ∧ (ca.networkRecords.lookup 0).all fun cn =>
        Traversable ca 0 cn ∧ cn.nCachedPages ≠ 0 ∧
        ((cn.pageStat 0x100).subnoMin.toNat : Int) ≤ origin ca 0 0x100 0 + 1) = true := by
    decide +kernel
  simp only [hrun, Option.all_some, decide_eq_true_eq] at hcheck
  obtain ⟨hsome, hall⟩ := hcheck
  obtain ⟨cn, hn⟩ := Option.isSome_iff_exists.mp hsome
  simp only [hn, Option.all_some, decide_eq_true_eq] at hall
  obtain ⟨⟨unique, covered, room⟩, hcached, hnear⟩ := hall
  obtain ⟨hcons, filler⟩ := run_consistent hsafe hrun
  refine ⟨hsafe, ca, hrun, ?_⟩
  intro fuel
  obtain ⟨w, lap, hw, -⟩ := foreachPage_goes_on (fun _ _ _ _ => ⟨(), rfl⟩)
    ⟨hcons, hn, filler, unique, covered, room⟩ hcached (Or.inl rfl) (by decide) 0
    (fun _ => hnear) () fuel
  exact ⟨w, hw⟩

end PageCacheTraversal

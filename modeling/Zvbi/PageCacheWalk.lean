import Zvbi.CyclicOrder
import Zvbi.PageCacheForeach

/-!
# The order in which pages of a network are visited

If the subpage numbers recorded enclose those of the cached pages, the loop over
the pages of a network finds each of them once in each lap, and a lap follows the
lap before.
-/

namespace PageCacheWalk
open RecordHeap PageCache PageCacheAccounts PageCacheReferences PageCacheRuns PageCacheVersions
open PageCacheForeach GuardedRuns CyclicOrder

variable {Data : Type}

def wrapPgno (pgno : Int) : Int :=
  if pgno < 0x100 then 0x8FF else if pgno > 0x8FF then 0x100 else pgno

def firstSubno (dir : Int) (ps : PageStat) : Int :=
  if dir < 0 then ps.subnoMax.toNat else ps.subnoMin.toNat

def nSubnos (ps : PageStat) : Nat :=
  if ps.nSubpages = 0 then 0 else ps.subnoMax.toNat + 1 - ps.subnoMin.toNat

def pageKeys (dir : Int) (pageStat : Nat → PageStat) (pgno : Int) : List (Int × Int) :=
  row pgno (stretch dir (firstSubno dir (pageStat pgno.toNat)) (nSubnos (pageStat pgno.toNat)))

def pageAt (ca : VbiCache) (n : Addr) (key : Int × Int) : Option Addr :=
  pageFound ca n key.1.toNat key.2.toNat wholeSubno

structure Searchable (ca : VbiCache) (n : Addr) (cn : CacheNetwork) : Prop where
  consistent : Consistent ca
  network : ca.networkRecords.lookup n = some cn
  filler : NoFiller ca
  unique : Unique ca
  covered : Covered ca n cn.pageStat
  room : Room ca n

structure At (ca : VbiCache) (w : Foreach Data) (pgno subno : Int) (calls : List Addr) : Prop where
  pgno : w.pgno = pgno
  subno : w.subno = subno
  calls : w.calls = calls
  consistent : Consistent w.ca
  same : SameContent ca w.ca

def Goes (callback : ForeachCb Data) (n : Addr) (dir : Int) (k : Nat) (w w' : Foreach Data) :
    Prop :=
  ∀ fuel, foreachLoop callback n dir (k + fuel) w = foreachLoop callback n dir fuel w'

variable {i : Nat} {ps : PageStat} {pageStat : Nat → PageStat}

theorem inside_firstSubno {dir : Int} (hdir : OneStep dir) (ps : PageStat) (hi : i < nSubnos ps) :
    outside ps (firstSubno dir ps + dir * i) = false := by
  rw [nSubnos] at hi
  split at hi
  · omega
  rename_i hsome
  simp only [outside, firstSubno, hsome, decide_eq_false_iff_not, false_or, not_or, not_lt]
  rcases hdir with rfl | rfl
  · simp only [Int.reduceLT, if_false]
    omega
  · simp only [Int.reduceNeg, Int.reduceLT, if_true]
    omega

theorem outside_lastSubno {dir : Int} (hdir : OneStep dir) (ps : PageStat) :
    outside ps (firstSubno dir ps + dir * nSubnos ps) = true := by
  by_cases hnone : ps.nSubpages = 0
  · simp only [outside, hnone, true_or, decide_true]
  simp only [outside, firstSubno, nSubnos, hnone, if_false, false_or, decide_eq_true_eq]
  rcases hdir with rfl | rfl
  · simp only [Int.reduceLT, if_false]
    omega
  · simp only [Int.reduceNeg, Int.reduceLT, if_true]
    omega

theorem inside_bounds {subno : Int} (h : outside ps subno = false) :
    0 ≤ subno ∧ subno < 256 := by
  simp only [outside, decide_eq_false_iff_not, not_or, not_lt] at h
  have hbyte := ps.subnoMax.toNat_lt
  omega

variable {w' : Foreach Data} {key k : Int × Int} {a : Addr}

section Walk
variable {callback : ForeachCb Data} {ca : VbiCache} {n : Addr} {cn : CacheNetwork} {dir : Int}
  {w : Foreach Data} {pgno subno : Int} {calls : List Addr}

theorem Goes.refl (w : Foreach Data) : Goes callback n dir 0 w w := by
  intro fuel
  rw [Nat.zero_add]

theorem Goes.trans {j k : Nat} {w'' : Foreach Data} (first : Goes callback n dir j w w')
    (second : Goes callback n dir k w' w'') : Goes callback n dir (j + k) w w'' := by
  intro fuel
  rw [Nat.add_assoc, first, second]

theorem goes_step (h : foreachStep callback n dir w = some (w', none)) :
    Goes callback n dir 1 w w' := by
  intro fuel
  rw [Nat.add_comm, foreachLoop, h]
  rfl

/-- The test fails and the loop goes to the next page number. -/
theorem goes_next (callback : ForeachCb Data) (h : Searchable ca n cn) (hdir : OneStep dir)
    (hw : At ca w pgno subno calls)
    (hlow : 0x100 ≤ pgno) (hhigh : pgno ≤ 0x8FF)
    (hout : outside (cn.pageStat pgno.toNat) subno = true) :
    ∃ w', Goes callback n dir 1 w w' ∧ At ca w' (wrapPgno (pgno + dir))
      (firstSubno dir (cn.pageStat (wrapPgno (pgno + dir)).toNat)) calls := by
  obtain ⟨rfl, rfl, rfl, hcons, hsame⟩ := hw
  obtain ⟨cn', hn', hstat⟩ := hsame.stat n cn h.network
  refine ⟨nextPage dir cn.pageStat w, goes_step ?_, ?_⟩
  · simp only [foreachStep, hn', hstat, hout, Option.bind_eq_bind, Option.bind_some, if_true]
  rcases hdir with rfl | rfl
  · simp only [nextPage, wrapPgno, firstSubno, Int.reduceLT, if_false]
    split
    · rw [if_neg (by omega)]
      exact ⟨rfl, rfl, rfl, hcons, hsame⟩
    · rw [if_neg (by omega)]
      exact ⟨rfl, rfl, rfl, hcons, hsame⟩
  · simp only [nextPage, wrapPgno, firstSubno, Int.reduceNeg, Int.reduceLT, if_true,
      ← Int.sub_eq_add_neg]
    split
    · exact ⟨rfl, rfl, rfl, hcons, hsame⟩
    · rw [if_neg (by omega)]
      exact ⟨rfl, rfl, rfl, hcons, hsame⟩

/-- The test succeeds and the loop looks the page up. -/
theorem goes_look (continues : Continues callback) (h : Searchable ca n cn) (dir : Int)
    (hw : At ca w pgno subno calls) (hlow : 0x100 ≤ pgno) (hhigh : pgno ≤ 0x8FF)
    (hin : outside (cn.pageStat pgno.toNat) subno = false) :
    ∃ w', Goes callback n dir 1 w w' ∧
      At ca w' pgno (subno + dir) (calls ++ (pageAt ca n (pgno, subno)).toList) := by
  obtain ⟨rfl, rfl, rfl, hcons, hsame⟩ := hw
  obtain ⟨cn', hn', hstat⟩ := hsame.stat n cn h.network
  have hfiller : NoFiller w.ca := by
    intro a cp ha
    rw [hsame.pages] at ha
    exact h.filler a cp ha
  have hroom : Room w.ca n := fun a cp hcached => h.room a cp (hsame.cached.mp hcached)
  have hvalid : validPgno w.pgno.toNat := by
    constructor
    · omega
    · omega
  obtain ⟨hpos, hsmall⟩ := inside_bounds hin
  obtain ⟨t, found, hfound, hget, -, hturn⟩ :=
    getPage_turn continues hcons hfiller hroom hvalid w.subno.toNat dir
  obtain ⟨u, after, hafter, hcons', hsame'⟩ := hturn { w with ca := t } rfl
  refine ⟨{ w with
    ca := u, userData := after, calls := w.calls ++ found.toList, subno := w.subno + dir },
    goes_step ?_, rfl, rfl, ?_, hcons', hsame.trans hsame'⟩
  · simp only [foreachStep, hn', hstat, hin, Option.bind_eq_bind, Option.bind_some,
      Bool.false_eq_true, if_false, hget]
    exact hafter
  · rw [pageAt, ← hsame.pageFound h.consistent.toAccounted hcons.toAccounted h.unique h.covered
      (by omega : w.subno.toNat < 256), ← hfound]

theorem row_stretch_succ (m : Nat) :
    (row pgno (stretch dir subno (m + 1))).filterMap (pageAt ca n) =
      (pageAt ca n (pgno, subno)).toList ++
        (row pgno (stretch dir (subno + dir) m)).filterMap (pageAt ca n) := by
  rw [stretch_succ, row, List.map_cons, List.filterMap_cons]
  cases pageAt ca n (pgno, subno) with
  | none => rfl
  | some a => rfl

/-- A stretch of subpage numbers in the range recorded. -/
theorem goes_inside (continues : Continues callback) (h : Searchable ca n cn)
    (hlow : 0x100 ≤ pgno) (hhigh : pgno ≤ 0x8FF) (m : Nat) (hw : At ca w pgno subno calls)
    (hin : ∀ i : Nat, i < m → outside (cn.pageStat pgno.toNat) (subno + dir * i) = false) :
    ∃ w', Goes callback n dir m w w' ∧ At ca w' pgno (subno + dir * m)
      (calls ++ (row pgno (stretch dir subno m)).filterMap (pageAt ca n)) := by
  induction m generalizing w subno calls with
  | zero =>
    refine ⟨w, Goes.refl w, ?_⟩
    simpa [row] using hw
  | succ m ih =>
    have hfirst := hin 0 (Nat.succ_pos m)
    rw [Nat.cast_zero, Int.mul_zero, Int.add_zero] at hfirst
    obtain ⟨w', hgoes, hw'⟩ := goes_look continues h dir hw hlow hhigh hfirst
    have hrest : ∀ i : Nat, i < m →
        outside (cn.pageStat pgno.toNat) (subno + dir + dir * i) = false := by
      intro i hi
      have hnext := hin (i + 1) (Nat.succ_lt_succ hi)
      have hsum : subno + dir * ((i + 1 : Nat) : Int) = subno + dir + dir * i := by
        push_cast
        ring
      rwa [hsum] at hnext
    obtain ⟨w'', hgoes', hw''⟩ := ih hw' hrest
    refine ⟨w'', ?_, ?_⟩
    · rw [Nat.add_comm]
      exact hgoes.trans hgoes'
    · have hsum : subno + dir * ((m + 1 : Nat) : Int) = subno + dir + dir * m := by
        push_cast
        ring
      rw [hsum, row_stretch_succ, ← List.append_assoc]
      exact hw''

/-- All subpage numbers of a page number, and on to the next one. -/
theorem goes_page (continues : Continues callback) (h : Searchable ca n cn) (hdir : OneStep dir)
    (hlow : 0x100 ≤ pgno) (hhigh : pgno ≤ 0x8FF)
    (hw : At ca w pgno (firstSubno dir (cn.pageStat pgno.toNat)) calls) :
    ∃ k w', 0 < k ∧ Goes callback n dir k w w' ∧ At ca w' (wrapPgno (pgno + dir))
      (firstSubno dir (cn.pageStat (wrapPgno (pgno + dir)).toNat))
      (calls ++ (pageKeys dir cn.pageStat pgno).filterMap (pageAt ca n)) := by
  obtain ⟨w', hgoes, hw'⟩ := goes_inside continues h hlow hhigh _ hw
    fun i hi => inside_firstSubno hdir (cn.pageStat pgno.toNat) hi
  obtain ⟨w'', hgoes', hw''⟩ :=
    goes_next callback h hdir hw' hlow hhigh (outside_lastSubno hdir (cn.pageStat pgno.toNat))
  exact ⟨_, w'', Nat.succ_pos _, hgoes.trans hgoes', hw''⟩

theorem goes_pages (continues : Continues callback) (h : Searchable ca n cn) (hdir : OneStep dir)
    (k : Nat) (hvalid : ∀ i : Nat, i < k → 0x100 ≤ pgno + dir * i ∧ pgno + dir * i ≤ 0x8FF)
    (hw : At ca w (wrapPgno pgno) (firstSubno dir (cn.pageStat (wrapPgno pgno).toNat)) calls) :
    ∃ j w', k ≤ j ∧ Goes callback n dir j w w' ∧ At ca w' (wrapPgno (pgno + dir * k))
      (firstSubno dir (cn.pageStat (wrapPgno (pgno + dir * k)).toNat))
      (calls ++ ((stretch dir pgno k).flatMap (pageKeys dir cn.pageStat)).filterMap
        (pageAt ca n)) := by
  induction k with
  | zero =>
    refine ⟨0, w, Nat.le_refl 0, Goes.refl w, ?_⟩
    simpa using hw
  | succ k ih =>
    obtain ⟨j, w', hj, hgoes, hw'⟩ := ih fun i hi => hvalid i (Nat.lt_succ_of_lt hi)
    obtain ⟨hlow, hhigh⟩ := hvalid k (Nat.lt_succ_self k)
    have hwrap : wrapPgno (pgno + dir * k) = pgno + dir * k := by
      rw [wrapPgno, if_neg (by omega), if_neg (by omega)]
    rw [hwrap] at hw'
    obtain ⟨i, w'', hi, hgoes', hw''⟩ := goes_page continues h hdir hlow hhigh hw'
    refine ⟨j + i, w'', by omega, hgoes.trans hgoes', ?_⟩
    have hsum : pgno + dir * ((k + 1 : Nat) : Int) = pgno + dir * k + dir := by
      push_cast
      ring
    rw [hsum, stretch_add, stretch_one, List.flatMap_append, List.filterMap_append,
      ← List.append_assoc, List.flatMap_singleton]
    exact hw''

end Walk

def homePgno (dir : Int) : Int := if dir < 0 then 0x8FF else 0x100

def nAhead (dir pgno : Int) : Nat := (if dir < 0 then pgno - 0x100 else 0x8FF - pgno).toNat

def nRest (dir : Int) (ps : PageStat) (start : Int) : Nat :=
  if outside ps (start + dir) then 0
  else (if dir < 0 then start - ps.subnoMin.toNat else ps.subnoMax.toNat - start).toNat

def nBefore (dir : Int) (ps : PageStat) (start : Int) : Nat :=
  min (nSubnos ps) (dir * (start - firstSubno dir ps)).toNat

def keysAhead (dir : Int) (pageStat : Nat → PageStat) (pgno start : Int) : List (Int × Int) :=
  row pgno (stretch dir start (nRest dir (pageStat pgno.toNat) start + 1)) ++
    (stretch dir (pgno + dir) (nAhead dir pgno)).flatMap (pageKeys dir pageStat)

def keysBehind (dir : Int) (pageStat : Nat → PageStat) (pgno start : Int) : List (Int × Int) :=
  (stretch dir (homePgno dir) (0x7FF - nAhead dir pgno)).flatMap (pageKeys dir pageStat) ++
    row pgno (stretch dir (firstSubno dir (pageStat pgno.toNat))
      (nBefore dir (pageStat pgno.toNat) start))

def ringKeys (dir : Int) (pageStat : Nat → PageStat) : List (Int × Int) :=
  (stretch dir (homePgno dir) 0x800).flatMap (pageKeys dir pageStat)

/-- The start is in the range recorded or next to it, unless no page has the number. -/
def Near (ca : VbiCache) (n : Addr) (ps : PageStat) (dir : Int) (pgno : Nat) (start : Int) : Prop :=
  (∃ a cp, Cached ca n a cp ∧ cp.pgno = pgno) →
    if dir < 0 then start + dir ≤ ps.subnoMax.toNat else ps.subnoMin.toNat ≤ start + dir

theorem mem_pageKeys {dir : Int} {pgno : Int} (h : key ∈ pageKeys dir pageStat pgno) :
    key.1 = pgno := by
  obtain ⟨x, -, rfl⟩ := List.mem_map.mp h
  rfl

theorem mem_pages {dir start : Int} {m : Nat}
    (h : key ∈ (stretch dir start m).flatMap (pageKeys dir pageStat)) :
    ∃ i : Nat, i < m ∧ key.1 = start + dir * i := by
  obtain ⟨pgno, hpgno, hkey⟩ := List.mem_flatMap.mp h
  obtain ⟨i, hi, rfl⟩ := mem_stretch.mp hpgno
  exact ⟨i, hi, mem_pageKeys hkey⟩

/-- The page numbers ahead follow the first one, and those behind precede it. -/
theorem after_first {dir : Int} (hdir : OneStep dir) (pgno : Int) (i : Nat) :
    dir * pgno < dir * (pgno + dir + dir * i) := by
  rcases hdir with rfl | rfl
  · omega
  · omega

theorem before_first {dir : Int} (hdir : OneStep dir) {pgno : Int} (hlow : 0x100 ≤ pgno)
    (hhigh : pgno ≤ 0x8FF) (hi : i < 0x7FF - nAhead dir pgno) :
    dir * (homePgno dir + dir * i) < dir * pgno := by
  simp only [nAhead, homePgno] at hi ⊢
  rcases hdir with rfl | rfl
  · simp only [Int.reduceLT, if_false] at hi ⊢
    omega
  · simp only [Int.reduceNeg, Int.reduceLT, if_true] at hi ⊢
    omega

theorem pages_pairwise {dir : Int} (hdir : OneStep dir) (pageStat : Nat → PageStat) (first : Int)
    (m : Nat) :
    ((stretch dir first m).flatMap (pageKeys dir pageStat)).Pairwise (precedes dir) :=
  rows_pairwise (stretch_pairwise hdir first m) fun _ => stretch_pairwise hdir _ _

theorem keysAhead_pairwise {dir : Int} (hdir : OneStep dir) (pageStat : Nat → PageStat)
    (pgno start : Int) : (keysAhead dir pageStat pgno start).Pairwise (precedes dir) := by
  refine List.pairwise_append.mpr
    ⟨row_pairwise pgno (stretch_pairwise hdir _ _), pages_pairwise hdir pageStat _ _, ?_⟩
  intro k hk k' hk'
  obtain ⟨x, -, rfl⟩ := List.mem_map.mp hk
  obtain ⟨i, -, hi⟩ := mem_pages hk'
  exact Or.inl (hi ▸ after_first hdir pgno i)

theorem keysBehind_pairwise {dir : Int} (hdir : OneStep dir) (pageStat : Nat → PageStat)
    {pgno : Int} (hlow : 0x100 ≤ pgno) (hhigh : pgno ≤ 0x8FF) (start : Int) :
    (keysBehind dir pageStat pgno start).Pairwise (precedes dir) := by
  refine List.pairwise_append.mpr
    ⟨pages_pairwise hdir pageStat _ _, row_pairwise pgno (stretch_pairwise hdir _ _), ?_⟩
  intro k hk k' hk'
  obtain ⟨x, -, rfl⟩ := List.mem_map.mp hk'
  obtain ⟨i, hi, hkey⟩ := mem_pages hk
  exact Or.inl (hkey ▸ before_first hdir hlow hhigh hi)

theorem keysAhead_not_before {dir : Int} (hdir : OneStep dir) {pgno start : Int}
    (hk : k ∈ keysAhead dir pageStat pgno start) : ¬precedes dir k (pgno, start) := by
  intro hlt
  rcases List.mem_append.mp hk with hrow | hrows
  · obtain ⟨x, hx, rfl⟩ := List.mem_map.mp hrow
    obtain ⟨i, -, rfl⟩ := mem_stretch.mp hx
    rcases hlt with hlt | ⟨-, hlt⟩
    · exact Int.lt_irrefl _ hlt
    · rcases hdir with rfl | rfl
      · simp only at hlt
        omega
      · simp only at hlt
        omega
  · obtain ⟨i, -, hi⟩ := mem_pages hrows
    have hlate := after_first hdir pgno i
    rw [← hi] at hlate
    rcases hlt with hlt | ⟨heq, -⟩
    · exact absurd hlate (not_lt.mpr hlt.le)
    · rw [heq] at hlate
      exact Int.lt_irrefl _ hlate

theorem keysBehind_before {dir : Int} (hdir : OneStep dir) {pgno : Int} (hlow : 0x100 ≤ pgno)
    (hhigh : pgno ≤ 0x8FF) {start : Int} (hk : k ∈ keysBehind dir pageStat pgno start) :
    precedes dir k (pgno, start) := by
  rcases List.mem_append.mp hk with hrows | hrow
  · obtain ⟨i, hi, hkey⟩ := mem_pages hrows
    exact Or.inl (hkey ▸ before_first hdir hlow hhigh hi)
  · obtain ⟨x, hx, rfl⟩ := List.mem_map.mp hrow
    obtain ⟨i, hi, rfl⟩ := mem_stretch.mp hx
    refine Or.inr ⟨rfl, ?_⟩
    have hcount := lt_of_lt_of_le hi (Nat.min_le_right _ _)
    rcases hdir with rfl | rfl
    · simp only at hcount ⊢
      omega
    · simp only at hcount ⊢
      omega

theorem keys_cyclicFrom {dir : Int} (hdir : OneStep dir) (pageStat : Nat → PageStat)
    {pgno : Int} (hlow : 0x100 ≤ pgno) (hhigh : pgno ≤ 0x8FF) (start : Int) :
    CyclicFrom (precedes dir) (pgno, start)
      (keysAhead dir pageStat pgno start ++ keysBehind dir pageStat pgno start) :=
  ⟨_, _, rfl, keysAhead_pairwise hdir pageStat pgno start,
    keysBehind_pairwise hdir pageStat hlow hhigh start,
    fun _ hk => keysAhead_not_before hdir hk,
    fun _ hk => keysBehind_before hdir hlow hhigh hk⟩

/-- The start is in the range recorded, or just behind its end, or just before it. -/
theorem subnos_cases {dir : Int} (hdir : OneStep dir) (hsome : ps.nSubpages ≠ 0)
    (hrange : ps.subnoMin.toNat ≤ ps.subnoMax.toNat) {start : Int}
    (near : if dir < 0 then start + dir ≤ ps.subnoMax.toNat else ps.subnoMin.toNat ≤ start + dir) :
    (nSubnos ps = nBefore dir ps start + (nRest dir ps start + 1) ∧
        firstSubno dir ps + dir * nBefore dir ps start = start) ∨
      (outside ps start = true ∧ nBefore dir ps start = nSubnos ps ∧ nRest dir ps start = 0) ∨
      (outside ps start = true ∧ nBefore dir ps start = 0 ∧ nRest dir ps start = nSubnos ps ∧
        start + dir = firstSubno dir ps) := by
  simp only [nBefore, nRest, nSubnos, firstSubno, outside, hsome, if_false, false_or,
    decide_eq_true_eq]
  rcases hdir with rfl | rfl
  · simp only [Int.reduceLT, if_false] at near ⊢
    split
    · omega
    · omega
  · simp only [Int.reduceNeg, Int.reduceLT, if_true] at near ⊢
    split
    · omega
    · omega

theorem inside_nRest {dir : Int} (hdir : OneStep dir) {start : Int} (hi : i < nRest dir ps start) :
    outside ps (start + dir + dir * i) = false := by
  rw [nRest] at hi
  split at hi
  · omega
  rename_i hin
  simp only [outside, decide_eq_true_eq, not_or, not_lt] at hin
  simp only [outside, decide_eq_false_iff_not, not_or, not_lt, hin.1, not_false_eq_true, true_and]
  rcases hdir with rfl | rfl
  · simp only [Int.reduceLT, if_false] at hi
    omega
  · simp only [Int.reduceNeg, Int.reduceLT, if_true] at hi
    omega

theorem outside_nRest {dir : Int} (hdir : OneStep dir) (ps : PageStat) (start : Int) :
    outside ps (start + dir + dir * nRest dir ps start) = true := by
  by_cases hout : outside ps (start + dir) = true
  · rw [nRest, if_pos hout]
    simpa using hout
  rw [nRest, if_neg hout]
  simp only [outside, decide_eq_true_eq, not_or, not_lt] at hout ⊢
  rcases hdir with rfl | rfl
  · simp only [Int.reduceLT, if_false]
    omega
  · simp only [Int.reduceNeg, Int.reduceLT, if_true]
    omega

/-- The subpage numbers of the first page number before the start, the start, and those
after it. -/
theorem split_subnos {dir : Int} (hdir : OneStep dir) (hsome : ps.nSubpages ≠ 0)
    (hrange : ps.subnoMin.toNat ≤ ps.subnoMax.toNat) {start : Int}
    (near : if dir < 0 then start + dir ≤ ps.subnoMax.toNat else ps.subnoMin.toNat ≤ start + dir)
    {find : Int → Option Addr} (hstart : outside ps start = true → find start = none) :
    (stretch dir (firstSubno dir ps) (nSubnos ps)).filterMap find =
      (stretch dir (firstSubno dir ps) (nBefore dir ps start)).filterMap find ++
        (stretch dir start (nRest dir ps start + 1)).filterMap find := by
  rcases subnos_cases hdir hsome hrange near with
    ⟨hcount, hstart⟩ | ⟨hout, hbefore, hrest⟩ | ⟨hout, hbefore, hrest, hfirst⟩
  · rw [hcount, stretch_add, List.filterMap_append, hstart]
  · rw [hbefore, hrest, stretch_one, List.filterMap_cons_none (hstart hout), List.filterMap_nil,
      List.append_nil]
  · rw [hbefore, hrest, stretch_succ, List.filterMap_cons_none (hstart hout), hfirst]
    rfl

section Lap
variable {callback : ForeachCb Data} {ca : VbiCache} {n : Addr} {cn : CacheNetwork} {dir : Int}
  {w : Foreach Data} {pgno : Nat} {start : Int} {calls : List Addr}

/-- What the loop finds is cached under a number in the range recorded. -/
theorem pageAt_spec (h : Searchable ca n cn) (hfound : pageAt ca n key = some a) :
    ∃ cp, Cached ca n a cp ∧ cp.pgno = key.1.toNat ∧
      (0 ≤ key.2 → key.2 < 256 → (cp.subno : Int) = key.2) := by
  obtain ⟨hash, cp, -, -, hcached, hpgno, hmask⟩ :=
    pageFound_spec h.consistent.toAccounted hfound
  refine ⟨cp, hcached, hpgno, ?_⟩
  intro hpos hsmall
  have hany : key.2.toNat ≠ anySubno := by
    rw [anySubno]
    omega
  have heq := hmask hany
  have hle := h.covered.le hcached
  rw [and_wholeSubno (by omega), and_wholeSubno (by omega)] at heq
  omega

theorem mem_ring (h : Searchable ca n cn) (hdir : OneStep dir) :
    a ∈ (ringKeys dir cn.pageStat).filterMap (pageAt ca n) ↔ ∃ cp, Cached ca n a cp := by
  rw [List.mem_filterMap]
  constructor
  · rintro ⟨key, -, hfound⟩
    obtain ⟨cp, hcached, -⟩ := pageAt_spec h hfound
    exact ⟨cp, hcached⟩
  · rintro ⟨cp, hcached⟩
    obtain ⟨hlow, hhigh⟩ := (h.consistent.page a cp hcached.1).number
    have hin := h.covered a cp hcached
    refine ⟨((cp.pgno : Int), (cp.subno : Int)), ?_, ?_⟩
    · refine List.mem_flatMap.mpr ⟨cp.pgno, ?_, List.mem_map.mpr ⟨cp.subno, ?_, rfl⟩⟩
      · refine mem_stretch.mpr ⟨(dir * (cp.pgno - homePgno dir)).toNat, ?_⟩
        rw [homePgno]
        rcases hdir with rfl | rfl
        · simp only [Int.reduceLT, if_false]
          omega
        · simp only [Int.reduceNeg, Int.reduceLT, if_true]
          omega
      · rw [Int.toNat_natCast]
        simp only [outside, decide_eq_false_iff_not, not_or, not_lt] at hin
        refine mem_stretch.mpr
          ⟨(dir * (cp.subno - firstSubno dir (cn.pageStat cp.pgno))).toNat, ?_⟩
        rw [nSubnos, firstSubno, if_neg hin.1]
        rcases hdir with rfl | rfl
        · simp only [Int.reduceLT, if_false]
          omega
        · simp only [Int.reduceNeg, Int.reduceLT, if_true]
          omega
    · exact (pageFound_iff h.consistent.toAccounted h.unique h.covered (h.covered.le hcached)).mpr
        ⟨cp, hcached, rfl, rfl⟩

theorem row_filterMap (pgno : Int) (subnos : List Int) :
    (row pgno subnos).filterMap (pageAt ca n) =
      subnos.filterMap fun x => pageAt ca n (pgno, x) := by
  rw [row, List.filterMap_map]
  rfl

/-- The same for the subpages of the first page number. -/
theorem pageKeys_split (h : Searchable ca n cn) (hdir : OneStep dir)
    (near : Near ca n (cn.pageStat pgno) dir pgno start)
    (hstart : outside (cn.pageStat pgno) start = true → pageAt ca n (pgno, start) = none) :
    (pageKeys dir cn.pageStat pgno).filterMap (pageAt ca n) =
      (row pgno (stretch dir (firstSubno dir (cn.pageStat pgno))
        (nBefore dir (cn.pageStat pgno) start))).filterMap (pageAt ca n) ++
      (row pgno (stretch dir start (nRest dir (cn.pageStat pgno) start + 1))).filterMap
        (pageAt ca n) := by
  rw [pageKeys, row_filterMap, row_filterMap, row_filterMap, Int.toNat_natCast]
  by_cases hpage : ∃ a cp, Cached ca n a cp ∧ cp.pgno = pgno
  · have hnear := near hpage
    obtain ⟨a, cp, hcached, rfl⟩ := hpage
    have hin := h.covered a cp hcached
    simp only [outside, decide_eq_false_iff_not, not_or, not_lt] at hin
    exact split_subnos hdir hin.1 (by omega) hnear hstart
  · have hnil : ∀ l : List Int, (l.filterMap fun x => pageAt ca n (pgno, x)) = [] := by
      intro l
      refine List.filterMap_eq_nil_iff.mpr ?_
      intro x _
      by_contra hx
      obtain ⟨a, ha⟩ := Option.ne_none_iff_exists'.mp hx
      obtain ⟨cp, hcached, hnumber, -⟩ := pageAt_spec h ha
      exact hpage ⟨a, cp, hcached, by rw [hnumber, Int.toNat_natCast]⟩
    rw [hnil, hnil, hnil]
    rfl

/-- A lap from the first page number is one from the start, cut there. -/
theorem ring_split (h : Searchable ca n cn) (hdir : OneStep dir) (hpgno : validPgno pgno)
    (near : Near ca n (cn.pageStat pgno) dir pgno start)
    (hstart : outside (cn.pageStat pgno) start = true → pageAt ca n (pgno, start) = none) :
    (ringKeys dir cn.pageStat).filterMap (pageAt ca n) =
      (keysBehind dir cn.pageStat pgno start).filterMap (pageAt ca n) ++
        (keysAhead dir cn.pageStat pgno start).filterMap (pageAt ca n) := by
  obtain ⟨hlow, hhigh⟩ := hpgno
  have hcount : 0x800 = (0x7FF - nAhead dir pgno) + (1 + nAhead dir pgno) := by
    rw [nAhead]
    rcases hdir with rfl | rfl
    · simp only [Int.reduceLT, if_false]
      omega
    · simp only [Int.reduceNeg, Int.reduceLT, if_true]
      omega
  have hhome : homePgno dir + dir * ((0x7FF - nAhead dir pgno : Nat) : Int) = pgno := by
    rw [nAhead, homePgno]
    rcases hdir with rfl | rfl
    · simp only [Int.reduceLT, if_false]
      omega
    · simp only [Int.reduceNeg, Int.reduceLT, if_true]
      omega
  have hpages : stretch dir (homePgno dir) 0x800 =
      stretch dir (homePgno dir) (0x7FF - nAhead dir pgno) ++
        ((pgno : Int) :: stretch dir (pgno + dir) (nAhead dir pgno)) := by
    rw [hcount, stretch_add, hhome, Nat.add_comm 1, stretch_succ]
  rw [ringKeys, hpages, List.flatMap_append, List.flatMap_cons, keysBehind, keysAhead,
    List.filterMap_append, List.filterMap_append, List.filterMap_append, List.filterMap_append,
    pageKeys_split h hdir near hstart, Int.toNat_natCast]
  simp only [List.append_assoc]

/-- The page numbers ahead are valid, and the next one is the first in the direction. -/
theorem pages_ahead_valid (hdir : OneStep dir) (hlow : 0x100 ≤ pgno) (hhigh : pgno ≤ 0x8FF)
    (hi : i < nAhead dir pgno) :
    0x100 ≤ (pgno : Int) + dir + dir * i ∧ (pgno : Int) + dir + dir * i ≤ 0x8FF := by
  rw [nAhead] at hi
  rcases hdir with rfl | rfl
  · simp only [Int.reduceLT, if_false] at hi
    omega
  · simp only [Int.reduceNeg, Int.reduceLT, if_true] at hi
    omega

theorem pages_ahead_end (hdir : OneStep dir) (hlow : 0x100 ≤ pgno) (hhigh : pgno ≤ 0x8FF) :
    wrapPgno (pgno + dir + dir * nAhead dir pgno) = wrapPgno (homePgno dir) := by
  rcases hdir with rfl | rfl
  · have hlast : (pgno : Int) + 1 + 1 * nAhead 1 pgno = 0x900 := by
      simp only [nAhead, Int.reduceLT, if_false]
      omega
    rw [hlast]
    rfl
  · have hlast : (pgno : Int) + -1 + -1 * nAhead (-1) pgno = 0xFF := by
      simp only [nAhead, Int.reduceNeg, Int.reduceLT, if_true]
      omega
    rw [hlast]
    rfl

/-- After a first turn at the start, the loop goes through what is ahead of it. -/
theorem goes_ahead (continues : Continues callback) (h : Searchable ca n cn) (hdir : OneStep dir)
    (hpgno : validPgno pgno)
    (hw : At ca w pgno (start + dir) (pageAt ca n (pgno, start)).toList) :
    ∃ k w', Goes callback n dir k w w' ∧ At ca w' (wrapPgno (homePgno dir))
      (firstSubno dir (cn.pageStat (wrapPgno (homePgno dir)).toNat))
      ((keysAhead dir cn.pageStat pgno start).filterMap (pageAt ca n)) := by
  obtain ⟨hlow, hhigh⟩ := hpgno
  obtain ⟨w₁, hgoes₁, hw₁⟩ := goes_inside continues h (by omega) (by omega) _ hw
    fun i hi => inside_nRest hdir hi
  obtain ⟨w₂, hgoes₂, hw₂⟩ :=
    goes_next callback h hdir hw₁ (by omega) (by omega)
      (outside_nRest hdir (cn.pageStat pgno) start)
  obtain ⟨k, w₃, -, hgoes₃, hw₃⟩ := goes_pages continues h hdir _
    (fun i hi => pages_ahead_valid hdir hlow hhigh hi) hw₂
  rw [pages_ahead_end hdir hlow hhigh] at hw₃
  refine ⟨_, w₃, (hgoes₁.trans hgoes₂).trans hgoes₃, ?_⟩
  have hcalls : (keysAhead dir cn.pageStat pgno start).filterMap (pageAt ca n) =
      (pageAt ca n (pgno, start)).toList ++
        (row pgno (stretch dir (start + dir)
          (nRest dir (cn.pageStat pgno) start))).filterMap (pageAt ca n) ++
        ((stretch dir (pgno + dir) (nAhead dir pgno)).flatMap
          (pageKeys dir cn.pageStat)).filterMap (pageAt ca n) := by
    rw [keysAhead, List.filterMap_append, Int.toNat_natCast, row_stretch_succ]
  rw [hcalls]
  exact hw₃

theorem goes_lap (continues : Continues callback) (h : Searchable ca n cn) (hdir : OneStep dir)
    (hw : At ca w (wrapPgno (homePgno dir))
      (firstSubno dir (cn.pageStat (wrapPgno (homePgno dir)).toNat)) calls) :
    ∃ k w', 0 < k ∧ Goes callback n dir k w w' ∧ At ca w' (wrapPgno (homePgno dir))
      (firstSubno dir (cn.pageStat (wrapPgno (homePgno dir)).toNat))
      (calls ++ (ringKeys dir cn.pageStat).filterMap (pageAt ca n)) := by
  have hvalid : ∀ i : Nat, i < 0x800 →
      0x100 ≤ homePgno dir + dir * i ∧ homePgno dir + dir * i ≤ 0x8FF := by
    intro i hi
    rw [homePgno]
    rcases hdir with rfl | rfl
    · simp only [Int.reduceLT, if_false]
      omega
    · simp only [Int.reduceNeg, Int.reduceLT, if_true]
      omega
  have hround : wrapPgno (homePgno dir + dir * ((0x800 : Nat) : Int)) =
      wrapPgno (homePgno dir) := by
    rcases hdir with rfl | rfl
    · rfl
    · rfl
  obtain ⟨k, w', hk, hgoes, hw'⟩ := goes_pages continues h hdir 0x800 hvalid hw
  rw [hround] at hw'
  exact ⟨k, w', by omega, hgoes, hw'⟩

theorem goes_laps (continues : Continues callback) (h : Searchable ca n cn) (hdir : OneStep dir)
    (m : Nat) (hw : At ca w (wrapPgno (homePgno dir))
      (firstSubno dir (cn.pageStat (wrapPgno (homePgno dir)).toNat)) calls) :
    ∃ k w', m ≤ k ∧ Goes callback n dir k w w' ∧
      w'.calls = calls ++ laps m ((ringKeys dir cn.pageStat).filterMap (pageAt ca n)) := by
  induction m generalizing w calls with
  | zero => exact ⟨0, w, Nat.le_refl 0, Goes.refl w, by rw [laps_zero, List.append_nil, hw.calls]⟩
  | succ m ih =>
    obtain ⟨j, w', hj, hgoes, hw'⟩ := goes_lap continues h hdir hw
    obtain ⟨k, w'', hk, hgoes', hcalls⟩ := ih hw'
    refine ⟨j + k, w'', by omega, hgoes.trans hgoes', ?_⟩
    rw [hcalls, laps_succ, List.append_assoc]

end Lap

end PageCacheWalk

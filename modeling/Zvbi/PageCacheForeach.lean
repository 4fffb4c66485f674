import Zvbi.PageCacheVersions

/-!
# Going over the pages of a network

The search looks at the pages of a network one after the other, from a start in
either direction. The loop steps through the subpage numbers between the lowest
and highest one recorded for a page number, then to the next page number, and
after the last one begins again at the other end. Only the callback ends it.
-/

namespace PageCacheForeach
open RecordHeap PageCache PageCacheAccounts PageCacheReferences PageCacheRuns PageCacheVersions
open GuardedRuns

/-- `_vbi_cache_foreach_cb`. It gets the cache, a page of it, and if page numbers
wrapped, and returns its changes and a number. -/
abbrev ForeachCb (Data : Type) := VbiCache → Addr → Bool → Data → VbiCache × Data × Int

structure Foreach (Data : Type) where
  ca : VbiCache
  pgno : Int
  subno : Int
  wrapped : Bool
  userData : Data
  calls : List Addr

variable {Data : Type}

/-- The subpage mask `-1`. -/
def wholeSubno : Nat := 0xFFFFFFFF

def outside (ps : PageStat) (subno : Int) : Bool :=
  ps.nSubpages = 0 ∨ subno < ps.subnoMin.toNat ∨ subno > ps.subnoMax.toNat

def nextPage (dir : Int) (pageStat : Nat → PageStat) (w : Foreach Data) : Foreach Data :=
  if dir < 0 then
    let w :=
      if w.pgno - 1 < 0x100 then { w with pgno := 0x8FF, wrapped := true }
      else { w with pgno := w.pgno - 1 }
    { w with subno := (pageStat w.pgno.toNat).subnoMax.toNat }
  else
    let w :=
      if w.pgno + 1 > 0x8FF then { w with pgno := 0x100, wrapped := true }
      else { w with pgno := w.pgno + 1 }
    { w with subno := (pageStat w.pgno.toNat).subnoMin.toNat }

/-- The outer loop up to the inner one. With a number the function returns it. -/
def turn (callback : ForeachCb Data) (dir : Int) (w : Foreach Data) :
    Option Addr → Option (Foreach Data × Option Int)
  | none => some ({ w with subno := w.subno + dir }, none)
  | some a => do
    let (ca, userData, r) := callback w.ca a w.wrapped w.userData
    let ca ← cachePageUnref ca a
    let w := { w with ca := ca, userData := userData, calls := w.calls ++ [a] }
    if r ≠ 0 then some (w, some r) else some ({ w with subno := w.subno + dir }, none)

def foreachStep (callback : ForeachCb Data) (n : Addr) (dir : Int) (w : Foreach Data) :
    Option (Foreach Data × Option Int) := do
  let cn ← w.ca.networkRecords.lookup n
  if outside (cn.pageStat w.pgno.toNat) w.subno then some (nextPage dir cn.pageStat w, none)
  else
    let (ca, cp) ← vbiCacheGetPage w.ca n w.pgno.toNat w.subno.toNat wholeSubno
    turn callback dir { w with ca := ca } cp

def foreachLoop (callback : ForeachCb Data) (n : Addr) (dir : Int) :
    Nat → Foreach Data → Option (Foreach Data × Option Int)
  | 0, w => some (w, none)
  | fuel + 1, w => do
    match ← foreachStep callback n dir w with
    | (w, none) => foreachLoop callback n dir fuel w
    | (w, some r) => some (w, some r)

def startSubno (ca : VbiCache) (subno : Nat) : Option Addr → Option Nat
  | some a => (ca.pages.lookup a).map fun cp => cp.subno
  | none => some (if subno = anySubno then 0 else subno)

/-- `_vbi_cache_foreach_page()`. -/
def vbiCacheForeachPage (callback : ForeachCb Data) (ca : VbiCache) (n : Addr) (pgno subno : Nat)
    (dir : Int) (userData : Data) (fuel : Nat) : Option (Foreach Data × Option Int) := do
  let cn ← ca.networkRecords.lookup n
  if cn.nCachedPages = 0 then some (⟨ca, pgno, subno, false, userData, []⟩, some 0)
  else
    let (ca, cp) ← vbiCacheGetPage ca n pgno subno wholeSubno
    let subno ← startSubno ca subno cp
    if validPgno pgno then do
      match ← turn callback dir ⟨ca, pgno, subno, false, userData, []⟩ cp with
      | (w, none) => foreachLoop callback n dir fuel w
      | (w, some r) => some (w, some r)
    else none

/-- The callback asks to continue and leaves the cache alone. -/
def Continues (callback : ForeachCb Data) : Prop :=
  ∀ ca a wrapped userData, ∃ after, callback ca a wrapped userData = (ca, after, 0)

def SameStat (s t : VbiCache) : Prop :=
  ∀ n cn, s.networkRecords.lookup n = some cn →
    ∃ cn', t.networkRecords.lookup n = some cn' ∧ cn'.pageStat = cn.pageStat

structure SameContent (s t : VbiCache) : Prop where
  pages : ∀ a, t.pages.lookup a = s.pages.lookup a
  stat : SameStat s t

theorem SameStat.refl (s : VbiCache) : SameStat s s := fun _ cn hn => ⟨cn, hn, rfl⟩

variable {s t ca : VbiCache} {n a : Addr} {cp : CachePage} {pgno subno : Nat}
  {pageStat : Nat → PageStat}

theorem SameStat.trans {r : VbiCache} (first : SameStat s t) (second : SameStat t r) :
    SameStat s r := by
  intro n cn hn
  obtain ⟨cn', hn', hstat⟩ := first n cn hn
  obtain ⟨cn'', hn'', hstat'⟩ := second n cn' hn'
  exact ⟨cn'', hn'', hstat'.trans hstat⟩

theorem SameContent.refl (s : VbiCache) : SameContent s s := ⟨fun _ => rfl, SameStat.refl s⟩

theorem SameContent.trans {r : VbiCache} (first : SameContent s t) (second : SameContent t r) :
    SameContent s r :=
  ⟨fun a => (second.pages a).trans (first.pages a), first.stat.trans second.stat⟩

/-- A change of the record of one network which leaves its statistics alone. -/
theorem sameStat_insert {cn cn' : CacheNetwork} (hn : s.networkRecords.lookup n = some cn)
    (ht : t.networkRecords = s.networkRecords.insert n cn') (hstat : cn'.pageStat = cn.pageStat) :
    SameStat s t := by
  intro m cm hm
  by_cases hmn : m = n
  · subst hmn
    rw [hn] at hm
    cases hm
    exact ⟨cn', by rw [ht]; exact AList.lookup_insert _, hstat⟩
  · exact ⟨cm, by rw [ht, AList.lookup_insert_ne hmn]; exact hm, rfl⟩

theorem cachePageRef_sameStat (h : Accounted ca) (ha : ca.pages.lookup a = some cp)
    (ht : cachePageRef ca a = some t) : SameStat ca t ∧ t.memoryLimit = ca.memoryLimit := by
  obtain ⟨cn, hn⟩ := (h.page a cp ha).owner
  by_cases hfree : cp.refCount = 0
  · simp only [cachePageRef, ha, if_pos hfree, hn, revive_eq h hn, Option.bind_eq_bind,
      Option.bind_some, setNetwork, unlinkPri, setPage, Option.some.injEq] at ht
    subst ht
    exact ⟨sameStat_insert hn rfl rfl, rfl⟩
  · simp only [cachePageRef, ha, if_neg hfree, Option.bind_eq_bind, Option.bind_some, setPage,
      Option.some.injEq] at ht
    subst ht
    exact ⟨SameStat.refl ca, rfl⟩

/-- A reference to a version of a page is given back, and no page has to go. -/
theorem cachePageUnref_within (h : Consistent ca)
    (ha : ca.pages.lookup a = some cp) (huse : cp.refCount ≠ 0) (hlive : cp.priority ≠ .zombie)
    (hfits : total unreferencedSize
      (ca.pages.insert a { cp with refCount := cp.refCount - 1 }) ≤ ca.memoryLimit.toNat) :
    ∃ t, cachePageUnref ca a = some t ∧ Consistent t ∧ SameStat ca t ∧
      t.pages = ca.pages.insert a { cp with refCount := cp.refCount - 1 } := by
  obtain ⟨cn, hn⟩ := (h.page a cp ha).owner
  have hlively := (h.network _ cn hn).lively
  by_cases hlast : cp.refCount = 1
  · have hlimit := h.limit
    have hwithin := h.within
    rw [BitVec.le_def] at hwithin
    have hroom : ca.memoryUsed.toNat + cachePageSize cp.toTtxPage < 2 ^ 64 := by
      have hsize := cachePageSize_le cp.toTtxPage
      have hconst : sizeofCachePage < 2 ^ 13 := by decide
      omega
    have hrelease := accounted_release h.toAccounted ha huse hlive hn hroom
    have hless : cp.refCount - 1 = 0 := by omega
    rw [hless] at hfits ⊢
    have hsmall :
        ca.memoryUsed + BitVec.ofNat 64 (cachePageSize cp.toTtxPage) ≤ ca.memoryLimit := by
      rw [BitVec.le_def]
      exact Nat.le_trans (Nat.le_of_eq hrelease.used) hfits
    refine ⟨_, ?_, ⟨hrelease, hsmall, h.limit⟩, sameStat_insert hn rfl rfl, rfl⟩
    simp [cachePageUnref, ha, hlast, pageRelease, setPage, hlive, unlinkPri, hn, setNetwork,
      hlively, hsmall]
  · have hcount : cp.refCount - 1 ≠ 0 := by omega
    refine ⟨_, ?_, ⟨accounted_recount h.toAccounted ha huse hcount, h.within, h.limit⟩,
      SameStat.refl ca, rfl⟩
    simp only [cachePageUnref, ha, if_neg huse, if_neg hlast, Option.bind_eq_bind,
      Option.bind_some, setPage]

/-- A version of a page which a callback only looks at. -/
theorem ref_unref (h : Consistent ca) (ha : ca.pages.lookup a = some cp)
    (hlive : cp.priority ≠ .zombie) (hcount : cp.refCount + 1 < 2 ^ 32) :
    ∃ t u, cachePageRef ca a = some t ∧
      t.pages.lookup a = some { cp with refCount := cp.refCount + 1 } ∧
      cachePageUnref t a = some u ∧ Consistent u ∧ SameContent ca u := by
  obtain ⟨t, ht, hcons, hpages⟩ := cachePageRef_keeps h ha hcount
  obtain ⟨hstat, hlimit⟩ := cachePageRef_sameStat h.toAccounted ha ht
  have hat : t.pages.lookup a = some { cp with refCount := cp.refCount + 1 } := by
    rw [hpages]
    exact AList.lookup_insert _
  -- the page is as before, and so is the total of the unreferenced pages
  have hback : t.pages.insert a { cp with refCount := cp.refCount + 1 - 1 } =
      ca.pages.insert a cp := by
    rw [hpages, AList.insert_insert, Nat.add_sub_cancel]
  have hfits : total unreferencedSize
      (t.pages.insert a { cp with refCount := cp.refCount + 1 - 1 }) ≤ t.memoryLimit.toNat := by
    rw [hback, total_insert_same unreferencedSize ha rfl, hlimit, ← h.used]
    exact h.within
  obtain ⟨u, hu, hcons', hstat', hpages'⟩ :=
    cachePageUnref_within hcons hat (Nat.succ_ne_zero _) hlive hfits
  refine ⟨t, u, ht, hat, hu, hcons', ?_, hstat.trans hstat'⟩
  intro b
  rw [hpages', hback]
  by_cases hb : b = a
  · rw [hb, AList.lookup_insert, ha]
  · rw [AList.lookup_insert_ne hb]

def Cached (ca : VbiCache) (n : Addr) (a : Addr) (cp : CachePage) : Prop :=
  ca.pages.lookup a = some cp ∧ cp.network = n ∧ cp.priority ≠ .zombie

def NoFiller (ca : VbiCache) : Prop :=
  ∀ a cp, ca.pages.lookup a = some cp → cp.pgno &&& 0xFF ≠ 0xFF

def Room (ca : VbiCache) (n : Addr) : Prop :=
  ∀ a cp, Cached ca n a cp → cp.refCount + 1 < 2 ^ 32

def Covered (ca : VbiCache) (n : Addr) (pageStat : Nat → PageStat) : Prop :=
  ∀ a cp, Cached ca n a cp → outside (pageStat cp.pgno) cp.subno = false

theorem SameContent.cached (h : SameContent s t) : Cached t n a cp ↔ Cached s n a cp := by
  rw [Cached, Cached, h.pages]

/-- A page found, whatever the subpage number asked for. -/
theorem pageFound_spec (h : Accounted ca) {mask : Nat}
    (hfound : pageFound ca n pgno subno mask = some a) :
    ∃ hash cp, pageByPgno ca n pgno subno (if subno = anySubno then 0 else mask) =
        ({ ca with hash := hash }, some a) ∧ (∀ c, (hash c).Perm (ca.hash c)) ∧
      Cached ca n a cp ∧ cp.pgno = pgno ∧
      (subno ≠ anySubno → cp.subno &&& mask = subno &&& mask) := by
  rcases pageByPgno_keeps h n pgno subno (if subno = anySubno then 0 else mask) with
    ⟨hnone, -⟩ | ⟨hash, b, cp, hsome, hperm, ha, hlive, hpgno, hsubno, hnetwork⟩
  · rw [pageFound, hnone] at hfound
    cases hfound
  · rw [pageFound, hsome] at hfound
    cases hfound
    refine ⟨hash, cp, hsome, hperm, ⟨ha, hnetwork, hlive⟩, hpgno, ?_⟩
    intro hany
    simpa only [if_neg hany] using hsubno

theorem pageFound_ne_none (h : Accounted ca) (mask : Nat) (hcached : Cached ca n a cp)
    (hpgno : cp.pgno = pgno) (hsubno : subno = anySubno ∨ cp.subno = subno) :
    pageFound ca n pgno subno mask ≠ none := by
  obtain ⟨ha, hnetwork, hlive⟩ := hcached
  intro hnone
  rcases pageByPgno_keeps h n pgno subno (if subno = anySubno then 0 else mask) with
    ⟨-, hmiss⟩ | ⟨hash, b, page, hsome, -⟩
  · have hmem : a ∈ ca.hash (hashOf pgno) :=
      (h.linked.chain _ a).mpr ⟨cp, ha, hlive, by rw [hpgno]⟩
    have hno := hmiss a hmem
    simp only [matchesPage, ha, hpgno, hnetwork, decide_eq_false_iff_not, true_and, and_true] at hno
    apply hno
    rcases hsubno with hany | rfl
    · rw [if_pos hany, Nat.and_zero, Nat.and_zero]
    · rfl
  · rw [pageFound, hsome] at hnone
    cases hnone

theorem and_wholeSubno (h : subno < 2 ^ 32) : subno &&& wholeSubno = subno := by
  have hmask : wholeSubno = 2 ^ 32 - 1 := rfl
  rw [hmask, Nat.and_two_pow_sub_one_eq_mod, Nat.mod_eq_of_lt h]

theorem Covered.le (h : Covered ca n pageStat) (hcached : Cached ca n a cp) :
    cp.subno < 256 := by
  have hin := h a cp hcached
  simp only [outside, decide_eq_false_iff_not, not_or, not_lt] at hin
  have hbyte := (pageStat cp.pgno).subnoMax.toNat_lt
  omega

/-- The page cached under a page and subpage number. -/
theorem pageFound_iff (h : Accounted ca) (unique : Unique ca) (covered : Covered ca n pageStat)
    (hsubno : subno < 256) :
    pageFound ca n pgno subno wholeSubno = some a ↔
      ∃ cp, Cached ca n a cp ∧ cp.pgno = pgno ∧ cp.subno = subno := by
  have hany : subno ≠ anySubno := by
    rintro rfl
    exact absurd hsubno (by decide)
  have hfound : ∀ b, pageFound ca n pgno subno wholeSubno = some b →
      ∃ cp, Cached ca n b cp ∧ cp.pgno = pgno ∧ cp.subno = subno := by
    intro b hb
    obtain ⟨hash, cp, -, -, hcached, hpgno, hmask⟩ := pageFound_spec h hb
    have hsmall := covered.le hcached
    have heq := hmask hany
    rw [and_wholeSubno (by omega), and_wholeSubno (by omega)] at heq
    exact ⟨cp, hcached, hpgno, heq⟩
  refine ⟨hfound a, ?_⟩
  rintro ⟨cp, hcached, hpgno, heq⟩
  obtain ⟨b, hb⟩ := Option.ne_none_iff_exists'.mp
    (pageFound_ne_none h wholeSubno hcached hpgno (Or.inr heq))
  obtain ⟨other, ⟨hother, hnetwork, hlive⟩, hpgno', hsubno'⟩ := hfound b hb
  rw [hb, Option.some.injEq]
  exact unique b a other cp hother hcached.1 hlive hcached.2.2 (hnetwork.trans hcached.2.1.symm)
    (hpgno'.trans hpgno.symm) (hsubno'.trans heq.symm)

theorem SameContent.unique (h : SameContent s t) (unique : Unique s) : Unique t := by
  intro a b page other ha hb
  rw [h.pages] at ha hb
  exact unique a b page other ha hb

theorem SameContent.covered (h : SameContent s t) (covered : Covered s n pageStat) :
    Covered t n pageStat :=
  fun a cp hcached => covered a cp (h.cached.mp hcached)

theorem SameContent.pageFound (h : SameContent s t) (hs : Accounted s) (ht : Accounted t)
    (unique : Unique s) (covered : Covered s n pageStat) (hsubno : subno < 256) :
    pageFound t n pgno subno wholeSubno = pageFound s n pgno subno wholeSubno := by
  apply Option.ext
  intro a
  rw [pageFound_iff ht (h.unique unique) (h.covered covered) hsubno,
    pageFound_iff hs unique covered hsubno]
  simp only [h.cached]

section Turn
variable {callback : ForeachCb Data} (continues : Continues callback)
include continues

/-- A lookup, with the callback if there is a page, leaves the content of the cache
alone. -/
theorem getPage_turn {u : VbiCache} (h : Consistent u) (filler : NoFiller u) (room : Room u n)
    (hpgno : validPgno pgno) (subno : Nat) (dir : Int) :
    ∃ t found, found = pageFound u n pgno subno wholeSubno ∧
      vbiCacheGetPage u n pgno subno wholeSubno = some (t, found) ∧
      startSubno t subno found = startSubno u subno found ∧
      ∀ w : Foreach Data, w.ca = t → ∃ u' after,
        turn callback dir w found = some ({ w with
          ca := u', userData := after, calls := w.calls ++ found.toList,
          subno := w.subno + dir }, none) ∧ Consistent u' ∧ SameContent u u' := by
  cases hfound : pageFound u n pgno subno wholeSubno with
  | none =>
    refine ⟨u, none, rfl, ?_, rfl, ?_⟩
    · simp only [vbiCacheGetPage]
      split
      · rfl
      rcases pageByPgno_keeps h.toAccounted n pgno subno
        (if subno = anySubno then 0 else wholeSubno) with ⟨hnone, -⟩ | ⟨hash, b, cp, hsome, -⟩
      · simp only [hnone]
      · rw [PageCacheReferences.pageFound, hsome] at hfound
        cases hfound
    · rintro w rfl
      refine ⟨w.ca, w.userData, ?_, h, SameContent.refl _⟩
      simp only [turn, Option.toList_none, List.append_nil]
  | some a =>
    obtain ⟨hash, cp, hsome, hperm, hcached, hnumber, -⟩ := pageFound_spec h.toAccounted hfound
    obtain ⟨ha, -, hlive⟩ := id hcached
    have hmoved : Consistent { u with hash := hash } :=
      ⟨accounted_rehash h.toAccounted hperm, h.within, h.limit⟩
    obtain ⟨t, u', ht, hat, hu', hcons, hsame⟩ :=
      ref_unref hmoved ha hlive (room a cp hcached)
    refine ⟨t, some a, rfl, ?_, ?_, ?_⟩
    · have hbad : ¬(pgno < 0x100 ∨ pgno > 0x8FF ∨ pgno &&& 0xFF = 0xFF) := by
        have hend := filler a cp ha
        rw [hnumber] at hend
        have hlow := hpgno.1
        have hhigh := hpgno.2
        omega
      simp only [vbiCacheGetPage, if_neg hbad, hsome, ht, Option.map_some]
    · simp only [startSubno, hat, ha, Option.map_some]
    · rintro w rfl
      obtain ⟨after, hafter⟩ := continues w.ca a w.wrapped w.userData
      refine ⟨u', after, ?_, hcons, hsame.pages, hsame.stat⟩
      simp only [turn, hafter, hu', Option.bind_eq_bind, Option.bind_some, ne_eq,
        not_true_eq_false, if_false, Option.toList_some]

end Turn

end PageCacheForeach

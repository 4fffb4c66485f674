import Zvbi.PageCacheCounts

/-!
# References lent from the page cache

Between calls of the cache a function holds references of its own to some pages. While the
counters do not overflow, a page can be lent again, and a reference which was lent can be
given back: the memory used does not exceed what it was before, so no page is deleted.
-/

namespace PageCacheLending
open RecordHeap PageCache PageCacheAccounts PageCacheReferences PageCacheCounts

/-- Cache `t` is cache `s` with some more references to pages. -/
structure Lent (s t : VbiCache) (extra : Addr → Nat) : Prop where
  consistent : Consistent t
  pages : ∀ a, t.pages.lookup a =
    (s.pages.lookup a).map fun cp => { cp with refCount := cp.refCount + extra a }
  live : ∀ a cp, s.pages.lookup a = some cp → extra a ≠ 0 → cp.priority ≠ .zombie
  hash : t.hash = s.hash
  limit : t.memoryLimit = s.memoryLimit

variable {s t : VbiCache} {a : Addr} {cp : CachePage} {extra : Addr → Nat}

theorem Lent.refl (h : Consistent s) : Lent s s fun _ => 0 := by
  refine ⟨h, fun a => ?_, fun _ _ _ hne => absurd rfl hne, rfl, rfl⟩
  cases s.pages.lookup a <;> rfl

theorem Lent.lookup (h : Lent s t extra) (ha : s.pages.lookup a = some cp) :
    t.pages.lookup a = some { cp with refCount := cp.refCount + extra a } := by
  rw [h.pages, ha]
  rfl

theorem Lent.recount {r : VbiCache} (h : Lent s t extra) (ha : s.pages.lookup a = some cp)
    (count : Nat) (hr : Consistent r)
    (hpages : r.pages = t.pages.insert a { cp with refCount := cp.refCount + count })
    (hlive : cp.priority ≠ .zombie) (hhash : r.hash = t.hash)
    (hlimit : r.memoryLimit = t.memoryLimit) : Lent s r (Function.update extra a count) := by
  refine ⟨hr, fun b => ?_, fun b page hb hne => ?_, hhash.trans h.hash, hlimit.trans h.limit⟩
  · by_cases hba : b = a
    · subst hba
      rw [hpages, AList.lookup_insert, ha, Function.update_self]
      rfl
    · rw [hpages, AList.lookup_insert_ne hba, Function.update_of_ne hba]
      exact h.pages b
  · by_cases hba : b = a
    · subst hba
      obtain rfl := Option.some.inj (ha.symm.trans hb)
      exact hlive
    · rw [Function.update_of_ne hba] at hne
      exact h.live b page hb hne

theorem Lent.pageRefs_eq (h : Lent s t extra) (ha : s.pages.lookup a = some cp) :
    pageRefs t a = pageRefs s a + extra a := by
  rw [pageRefs_some (h.lookup ha), pageRefs_some ha]

/-- The memory used is no more than before. -/
theorem memoryUsed_le (hs : Consistent s) (ht : Accounted t)
    (h : ∀ a cp, t.pages.lookup a = some cp → ∃ old, s.pages.lookup a = some old ∧
      unreferencedSize cp ≤ unreferencedSize old)
    (hlimit : t.memoryLimit = s.memoryLimit) : t.memoryUsed ≤ t.memoryLimit := by
  have hle := total_le h
  have hwithin := hs.within
  rw [BitVec.le_def] at hwithin ⊢
  rw [ht.used, hlimit]
  rw [hs.used] at hwithin
  exact Nat.le_trans hle hwithin

/-- Additional references do not make a page larger. -/
theorem unreferencedSize_lent (cp : CachePage) (count : Nat) :
    unreferencedSize { cp with refCount := cp.refCount + count } ≤ unreferencedSize cp := by
  rw [unreferencedSize, unreferencedSize]
  by_cases hfree : cp.refCount + count = 0
  · rw [if_pos hfree, if_pos (Nat.eq_zero_of_add_eq_zero_right hfree)]
  · rw [if_neg hfree]
    exact Nat.zero_le _

theorem Lent.unref (hs : Consistent s) (h : Lent s t extra) (ha : s.pages.lookup a = some cp)
    (hlent : extra a ≠ 0) :
    ∃ r, cachePageUnref t a = some r ∧ Lent s r (Function.update extra a (extra a - 1)) := by
  have hta := h.lookup ha
  have hlive := h.live a cp ha hlent
  have hpos : cp.refCount + extra a ≠ 0 := by omega
  by_cases hone : cp.refCount + extra a = 1
  · have hfree : cp.refCount = 0 := by omega
    have hback : cp.refCount + (extra a - 1) = 0 := by omega
    obtain ⟨cn, hn⟩ := (h.consistent.page a _ hta).owner
    have hlively := (h.consistent.network _ cn hn).lively
    have hroom : t.memoryUsed.toNat + cachePageSize cp.toTtxPage < 2 ^ 64 := by
      have hsize := cachePageSize_le cp.toTtxPage
      have hconst : sizeofCachePage < 2 ^ 13 := by decide
      have hwithin := h.consistent.within
      have hlimit := h.consistent.limit
      rw [BitVec.le_def] at hwithin
      omega
    have hacc := accounted_release h.consistent.toAccounted hta hpos hlive hn hroom
    have hwithin := memoryUsed_le hs hacc (fun b page hb => ?_) h.limit
    · refine ⟨_, ?_, h.recount ha (extra a - 1) ⟨hacc, hwithin, h.consistent.limit⟩ ?_ hlive
        rfl rfl⟩
      · have hnot := BitVec.not_lt.mpr hwithin
        simp only [cachePageUnref, hta, Option.bind_eq_bind, Option.bind_some, if_neg hpos,
          if_pos hone, pageRelease, setPage, if_neg hlive, unlinkPri, hn, setNetwork, hlively,
          Bool.false_eq_true, false_and, if_false]
        exact if_neg hnot
      · rw [hback]
    · rcases lookup_insert_iff.mp hb with ⟨rfl, rfl⟩ | ⟨-, hold⟩
      · refine ⟨cp, ha, Nat.le_of_eq ?_⟩
        rw [unreferencedSize, unreferencedSize, if_pos rfl, if_pos hfree]
      · rw [h.pages] at hold
        obtain ⟨old, hs', rfl⟩ := Option.map_eq_some_iff.mp hold
        exact ⟨old, hs', unreferencedSize_lent old _⟩
  · have hcount : cp.refCount + (extra a - 1) ≠ 0 := by omega
    have hsame : cp.refCount + extra a - 1 = cp.refCount + (extra a - 1) := by omega
    refine ⟨_, ?_, h.recount ha (extra a - 1)
      ⟨accounted_recount h.consistent.toAccounted hta hpos hcount, h.consistent.within,
        h.consistent.limit⟩ rfl hlive rfl rfl⟩
    simp only [cachePageUnref, hta, Option.bind_eq_bind, Option.bind_some, if_neg hpos, if_neg hone,
      hsame]

theorem cachePageRef_frame {ca : VbiCache} (hca : Accounted ca) (h : cachePageRef ca a = some t) :
    t.hash = ca.hash ∧ t.memoryLimit = ca.memoryLimit := by
  obtain ⟨cp, ha, h⟩ := Option.bind_eq_some_iff.mp h
  by_cases hfree : cp.refCount = 0
  · obtain ⟨cn, hn⟩ := (hca.page a cp ha).owner
    simp only [if_pos hfree, hn, revive_eq hca hn, Option.bind_eq_bind, Option.bind_some] at h
    obtain rfl := Option.some.inj h
    exact ⟨rfl, rfl⟩
  · simp only [if_neg hfree, Option.bind_eq_bind, Option.bind_some] at h
    obtain rfl := Option.some.inj h
    exact ⟨rfl, rfl⟩

theorem Lent.ref (h : Lent s t extra) (ha : s.pages.lookup a = some cp)
    (hlive : cp.priority ≠ .zombie) (hroom : cp.refCount + extra a + 1 < 0x100000000) :
    ∃ r, cachePageRef t a = some r ∧ Lent s r (Function.update extra a (extra a + 1)) := by
  obtain ⟨r, hr, hconsistent, hpages⟩ := cachePageRef_keeps h.consistent (h.lookup ha) hroom
  obtain ⟨hhash, hlimit⟩ := cachePageRef_frame h.consistent.toAccounted hr
  exact ⟨r, hr, h.recount ha (extra a + 1) hconsistent hpages hlive hhash hlimit⟩

/-- The page `_vbi_cache_get_page()` finds, at the head of its hash chain. -/
def locate (ca : VbiCache) (n : Addr) (pgno subno mask : Nat) : VbiCache × Option Addr :=
  if pgno < 0x100 ∨ pgno > 0x8FF ∨ pgno &&& 0xFF = 0xFF then (ca, none)
  else pageByPgno ca n pgno subno (if subno = anySubno then 0 else mask)

theorem vbiCacheGetPage_eq (ca : VbiCache) (n : Addr) (pgno subno mask : Nat) :
    vbiCacheGetPage ca n pgno subno mask =
      match locate ca n pgno subno mask with
      | (ca, none) => some (ca, none)
      | (ca, some a) => (cachePageRef ca a).map fun ca => (ca, some a) := by
  rw [vbiCacheGetPage, locate]
  split
  · rfl
  · rfl

structure Located (s : VbiCache) (n : Addr) (r : VbiCache × Option Addr) : Prop where
  consistent : Consistent r.1
  pages : r.1.pages = s.pages
  found : ∀ a, r.2 = some a →
    ∃ cp, s.pages.lookup a = some cp ∧ cp.priority ≠ .zombie ∧ cp.network = n

theorem locate_located (hs : Consistent s) (n : Addr) (pgno subno mask : Nat) :
    Located s n (locate s n pgno subno mask) := by
  have hnone : Located s n (s, none) :=
    ⟨hs, rfl, fun a ha => absurd ha (Option.some_ne_none a).symm⟩
  rw [locate]
  split
  · exact hnone
  · rcases pageByPgno_keeps hs.toAccounted n pgno subno (if subno = anySubno then 0 else mask) with
      ⟨hmissing, -⟩ | ⟨hash, a, cp, hfound, hperm, ha, hlive, -, -, hnetwork⟩
    · rw [hmissing]
      exact hnone
    · rw [hfound]
      refine ⟨⟨accounted_rehash hs.toAccounted hperm, hs.within, hs.limit⟩, rfl, fun b hb => ?_⟩
      obtain rfl := Option.some.inj hb
      exact ⟨cp, ha, hlive, hnetwork⟩

/-- The same page is found while references are lent. -/
theorem Lent.finds (h : Lent s t extra) (n : Addr) (pgno subno mask : Nat) :
    ∃ t', locate t n pgno subno mask = (t', (locate s n pgno subno mask).2) ∧
      Lent (locate s n pgno subno mask).1 t' extra := by
  have hmatches : ∀ m, matchesPage t n pgno subno m = matchesPage s n pgno subno m := by
    intro m
    funext a
    rw [matchesPage, matchesPage, h.pages]
    cases s.pages.lookup a <;> rfl
  have hconsistent := (locate_located h.consistent n pgno subno mask).consistent
  rw [locate] at hconsistent
  rw [locate, locate]
  split
  · exact ⟨t, rfl, h⟩
  · rename_i hvalid
    rw [if_neg hvalid] at hconsistent
    rw [pageByPgno, pageByPgno, h.hash, hmatches]
    rw [pageByPgno, h.hash, hmatches] at hconsistent
    cases hfind : (s.hash (hashOf pgno)).find?
        (matchesPage s n pgno subno (if subno = anySubno then 0 else mask)) with
    | none => exact ⟨t, rfl, h⟩
    | some a =>
      rw [hfind] at hconsistent
      refine ⟨_, rfl, hconsistent, h.pages, h.live, ?_, h.limit⟩
      dsimp only [addHeadHash, unlinkHash]
      rw [h.hash]

def more (extra : Addr → Nat) : Option Addr → Addr → Nat
  | none => extra
  | some a => Function.update extra a (extra a + 1)

theorem Lent.get (hs : Consistent s) (h : Lent s t extra) (n : Addr) (pgno subno mask : Nat)
    (hroom : ∀ a, pageRefs s a + extra a + 1 < 0x100000000) :
    ∃ t',
      vbiCacheGetPage t n pgno subno mask = some (t', (locate s n pgno subno mask).2) ∧
      Lent (locate s n pgno subno mask).1 t'
        (more extra (locate s n pgno subno mask).2) := by
  obtain ⟨t', ht', hlent⟩ := h.finds n pgno subno mask
  have hlocated := locate_located hs n pgno subno mask
  rw [vbiCacheGetPage_eq, ht']
  generalize locate s n pgno subno mask = r at hlent hlocated
  obtain ⟨s', found⟩ := r
  cases found with
  | none => exact ⟨t', rfl, hlent⟩
  | some a =>
    obtain ⟨cp, ha, hlive, -⟩ := hlocated.found a rfl
    have hcount := hroom a
    rw [pageRefs_some ha] at hcount
    obtain ⟨t'', ht'', hlent'⟩ := hlent.ref (hlocated.pages ▸ ha) hlive hcount
    refine ⟨t'', ?_, hlent'⟩
    dsimp only
    rw [ht'']
    rfl

end PageCacheLending

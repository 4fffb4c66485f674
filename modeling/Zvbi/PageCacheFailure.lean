import Zvbi.PageCacheRuns

/-!
# Calls which fail to store a page

The version a new page replaces is looked up and taken out of its chain before
the call knows whether there is room. A search moves a page to the head of its
chain, which hides no other page. A version in use leaves the chain for good.
-/

namespace PageCacheFailure
open RecordHeap PageCache PageCacheAccounts PageCacheReferences PageCacheEviction PageCachePut
open PageCacheRuns GuardedRuns

/-- A search finds the page under some number, subpage number and mask. -/
def Visible (ca : VbiCache) (a : Addr) : Prop :=
  ∃ n pgno subno mask, (pageByPgno ca n pgno subno mask).2 = some a

/-- Every page which could be found still can, with the same contents, and the
statistics are the same. -/
structure Atomic (ca t : VbiCache) : Prop where
  visible : ∀ a, Visible ca a → Visible t a
  contents : ∀ a, Visible ca a → t.pages.lookup a = ca.pages.lookup a
  memoryUsed : t.memoryUsed = ca.memoryUsed
  nCachedPages : t.nCachedPages = ca.nCachedPages
  nCachedNetworks : t.nCachedNetworks = ca.nCachedNetworks
  networkRecords : t.networkRecords = ca.networkRecords

theorem Atomic.refl (ca : VbiCache) : Atomic ca ca :=
  ⟨fun _ h => h, fun _ _ => rfl, rfl, rfl, rfl, rfl⟩

variable {a : Addr} {ca : VbiCache} {subno : Nat}

theorem find?_erase {p : Addr → Bool} (ha : p a = false) (chain : List Addr) :
    (chain.erase a).find? p = chain.find? p := by
  induction chain with
  | nil => rfl
  | cons b chain ih =>
    by_cases hb : b = a
    · subst hb
      rw [List.erase_cons_head, List.find?_cons_of_neg (by simp [ha])]
    · rw [List.erase_cons_tail (by simpa using hb), List.find?_cons, List.find?_cons, ih]

theorem pageByPgno_snd (ca : VbiCache) (n : Addr) (pgno subno mask : Nat) :
    (pageByPgno ca n pgno subno mask).2 =
      (ca.hash (hashOf pgno)).find? (matchesPage ca n pgno subno mask) := by
  simp only [pageByPgno]
  split
  · rename_i hfind
    exact hfind.symm
  · rename_i hfind
    exact hfind.symm

theorem pageByPgno_pages (ca : VbiCache) (n : Addr) (pgno subno mask : Nat) :
    (pageByPgno ca n pgno subno mask).1.pages = ca.pages := by
  simp only [pageByPgno]
  split
  · rfl
  · rfl

variable {mask n pgno : Nat} {cp : TtxPage} {memory : Bool} {t : VbiCache}

theorem matchesPage_eq_true :
    matchesPage ca n pgno subno mask a = true ↔ ∃ cp, ca.pages.lookup a = some cp ∧
      cp.pgno = pgno ∧ cp.subno &&& mask = subno &&& mask ∧ cp.network = n := by
  simp only [matchesPage]
  cases ca.pages.lookup a with
  | none => simp
  | some cp => simp

/-- The same bits under a mask are the same under a part of it. -/
theorem and_or_left {x y m k : Nat} (h : x &&& (m ||| k) = y &&& (m ||| k)) :
    x &&& m = y &&& m := by
  have hpart : ∀ z : Nat, z &&& m = (z &&& (m ||| k)) &&& m := by
    intro z
    rw [Nat.and_assoc, Nat.and_comm (m ||| k) m, Nat.and_or_distrib_left, Nat.and_self]
    apply congrArg
    apply Nat.eq_of_testBit_eq
    intro i
    simp only [Nat.testBit_or, Nat.testBit_and]
    cases m.testBit i <;> rfl
  rw [hpart x, hpart y, h]

/-- A search hides no page. The page it moves differs from each page it was behind in
the bits of the mask, so these are found if the bits are asked for. -/
theorem visible_moved {x : Addr} (h : Visible ca x) :
    Visible (pageByPgno ca n pgno subno mask).1 x := by
  cases hfind : (ca.hash (hashOf pgno)).find? (matchesPage ca n pgno subno mask) with
  | none =>
    simp only [pageByPgno, hfind]
    exact h
  | some a =>
    have hmoved : (pageByPgno ca n pgno subno mask).1 =
        addHeadHash (unlinkHash ca pgno a) pgno a := by
      simp only [pageByPgno, hfind]
    rw [hmoved]
    obtain ⟨n', pgno', subno', mask', hx⟩ := h
    rw [pageByPgno_snd] at hx
    -- a search with any key in the cache after the move
    have hafter : ∀ subno₁ mask₁, (pageByPgno (addHeadHash (unlinkHash ca pgno a) pgno a) n' pgno'
        subno₁ mask₁).2 =
          (if hashOf pgno' = hashOf pgno then a :: (ca.hash (hashOf pgno)).erase a
            else ca.hash (hashOf pgno')).find? (matchesPage ca n' pgno' subno₁ mask₁) := by
      intro subno₁ mask₁
      rw [pageByPgno_snd]
      by_cases hc : hashOf pgno' = hashOf pgno
      · simp only [addHeadHash, unlinkHash, hc, Function.update_self, if_true]
        rfl
      · simp only [addHeadHash, unlinkHash, Function.update_of_ne hc, if_neg hc]
        rfl
    by_cases hc : hashOf pgno' = hashOf pgno
    · rw [hc] at hx
      obtain ⟨hmatchx, first, rest, hsplit, hfirst⟩ := List.find?_eq_some_iff_append.mp hx
      obtain ⟨hmatcha, before, behind, hsplita, hbefore⟩ :=
        List.find?_eq_some_iff_append.mp hfind
      by_cases hkey : matchesPage ca n' pgno' subno' mask' a = true
      · by_cases hxa : x = a
        · subst hxa
          refine ⟨n', pgno', subno', mask', ?_⟩
          rw [hafter, if_pos hc, List.find?_cons_of_pos hkey]
        -- the page moved was behind the page looked for
        obtain ⟨cp, hcp, rfl, hsubno', rfl⟩ := matchesPage_eq_true.mp hmatchx
        obtain ⟨page, hpage, hpgno, hsubnoa', hnetwork⟩ := matchesPage_eq_true.mp hkey
        obtain ⟨page', hpage', hpgno', hsubnoa, hnetwork'⟩ := matchesPage_eq_true.mp hmatcha
        rw [hpage] at hpage'
        cases hpage'
        have hxbefore : x ∈ before := by
          have hnota : a ∉ first := fun hmem => by
            have hno := hfirst a hmem
            rw [hkey] at hno
            cases hno
          rw [hsplit] at hsplita
          rcases List.append_eq_append_iff.mp hsplita with ⟨mid, rfl, htail⟩ | ⟨mid, rfl, htail⟩
          · cases mid with
            | nil => exact absurd (List.cons.inj htail).1 hxa
            | cons y mid =>
              rw [(List.cons.inj htail).1]
              exact List.mem_append_right _ List.mem_cons_self
          · cases mid with
            | nil => exact absurd (List.cons.inj htail).1.symm hxa
            | cons y mid =>
              rw [(List.cons.inj htail).1] at hnota
              exact absurd (List.mem_append_right _ List.mem_cons_self) hnota
        have hdiffers : page.subno &&& mask ≠ cp.subno &&& mask := by
          intro heq
          have hno := hbefore x hxbefore
          have hyes : matchesPage ca n pgno subno mask x = true :=
            matchesPage_eq_true.mpr ⟨cp, hcp, hpgno.symm.trans hpgno', heq.symm.trans hsubnoa,
              hnetwork.symm.trans hnetwork'⟩
          rw [hyes] at hno
          cases hno
        refine ⟨cp.network, cp.pgno, cp.subno, mask' ||| mask, ?_⟩
        have hnot : matchesPage ca cp.network cp.pgno cp.subno (mask' ||| mask) a = false := by
          rw [Bool.eq_false_iff]
          intro hmatch
          obtain ⟨page', hpage', -, hsubno, -⟩ := matchesPage_eq_true.mp hmatch
          rw [hpage] at hpage'
          cases hpage'
          rw [Nat.or_comm] at hsubno
          exact hdiffers (and_or_left hsubno)
        rw [hafter, if_pos hc, List.find?_cons_of_neg (by simp [hnot]), find?_erase hnot,
          List.find?_eq_some_iff_append]
        refine ⟨matchesPage_eq_true.mpr ⟨cp, hcp, rfl, rfl, rfl⟩, first, rest, hsplit, ?_⟩
        intro y hy
        have hno := hfirst y hy
        simp only [Bool.not_eq_true', Bool.eq_false_iff] at hno ⊢
        intro hmatch
        obtain ⟨other, hother, hpgnoy, hsubnoy, hnetworky⟩ := matchesPage_eq_true.mp hmatch
        exact hno (matchesPage_eq_true.mpr
          ⟨other, hother, hpgnoy, (and_or_left hsubnoy).trans hsubno', hnetworky⟩)
      · refine ⟨n', pgno', subno', mask', ?_⟩
        have hnot : matchesPage ca n' pgno' subno' mask' a = false := Bool.eq_false_iff.mpr hkey
        rw [hafter, if_pos hc, List.find?_cons_of_neg (by simp [hnot]), find?_erase hnot, hx]
    · refine ⟨n', pgno', subno', mask', ?_⟩
      rw [hafter, if_neg hc, hx]

theorem not_visible_zombie (h : Accounted ca) {cp : CachePage} (ha : ca.pages.lookup a = some cp)
    (hzombie : cp.priority = .zombie) : ¬Visible ca a := by
  rintro ⟨n, pgno, subno, mask, hfound⟩
  rw [pageByPgno_snd] at hfound
  obtain ⟨cp', ha', hlive, -⟩ := (h.linked.chain _ a).mp (List.mem_of_find?_eq_some hfound)
  rw [ha] at ha'
  cases ha'
  exact hlive hzombie

/-- A call which fails leaves the cache as it was after the search. -/
theorem replacePages_none {n : Addr} {r : DeathRow}
    (h : replacePages ca n cp subno memory r = some (t, none)) : t = ca := by
  simp only [replacePages, Option.bind_eq_bind] at h
  split at h
  · split at h
    · obtain ⟨⟨u, a, room⟩, -, h⟩ := Option.bind_eq_some_iff.mp h
      obtain ⟨v, -, heq⟩ := Option.map_eq_some_iff.mp h
      cases heq
    split at h
    · obtain ⟨⟨u, a, room⟩, -, h⟩ := Option.bind_eq_some_iff.mp h
      obtain ⟨v, -, heq⟩ := Option.map_eq_some_iff.mp h
      cases heq
    · cases h
      rfl
  · cases h
    rfl

/-- A version in use is lost when the call fails. -/
theorem version_lost {ca t : VbiCache} (h : Consistent ca) {n : Addr} (hn : n ∈ ca.networks)
    {cp : TtxPage} (hvalid : validPgno cp.pgno) (hpgno : ¬cp.pgno &&& 0xFF = 0xFF) {memory : Bool}
    (hput : vbiCachePutPage ca n cp memory = some (t, none)) {a : Addr}
    (ha : versionFound ca n cp = some a) (huse : unreferenced ca a = false) :
    Visible ca a ∧ ¬Visible t a := by
  obtain ⟨cn, hcn⟩ := (h.linked.network n).mp hn
  obtain ⟨s, subno, mask, r, hr⟩ := exists_chosen h hcn hvalid
  rw [hr.call hpgno memory] at hput
  obtain rfl := replacePages_none hput
  constructor
  · exact ⟨n, cp.pgno, subno &&& mask, mask, hr.found.trans ha⟩
  · rcases hr.retired.zombie a ha with hrep | ⟨page, hpage, hzombie⟩
    · obtain ⟨-, hfree⟩ := Option.filter_eq_some_iff.mp hrep
      rw [huse] at hfree
      cases hfree
    · exact not_visible_zombie hr.retired.accounted hpage hzombie

/-- Nothing is lost if the version found is not in use. -/
theorem version_kept (h : Consistent ca) {n : Addr} (hn : n ∈ ca.networks)
    (hvalid : validPgno cp.pgno) (hpgno : ¬cp.pgno &&& 0xFF = 0xFF)
    (hput : vbiCachePutPage ca n cp memory = some (t, none))
    (hfree : ∀ a ∈ versionFound ca n cp, unreferenced ca a = true) : Atomic ca t := by
  obtain ⟨cn, hcn⟩ := (h.linked.network n).mp hn
  obtain ⟨s, subno, mask, r, hr⟩ := exists_chosen h hcn hvalid
  rw [hr.call hpgno memory] at hput
  obtain rfl := replacePages_none hput
  have hmoved : t = (pageByPgno ca n cp.pgno (subno &&& mask) mask).1 := by
    have hretire := hr.retire
    cases hfound : versionFound ca n cp with
    | none =>
      rw [hfound] at hretire
      exact (congrArg Prod.fst (Option.some.inj hretire)).symm
    | some a =>
      rw [hfound] at hretire
      obtain ⟨page, hpage, hretire⟩ := Option.bind_eq_some_iff.mp hretire
      have hcount : page.refCount = 0 := by
        have htrue := hfree a hfound
        rw [pageByPgno_pages] at hpage
        simpa only [unreferenced, hpage, decide_eq_true_eq] using htrue
      rw [if_neg (by omega)] at hretire
      exact (congrArg Prod.fst (Option.some.inj hretire)).symm
  rcases pageByPgno_keeps h.toAccounted n cp.pgno (subno &&& mask) mask with
    ⟨hnone, -⟩ | ⟨hash, a, page, hsome, -⟩
  · rw [hnone] at hmoved
    rw [hmoved]
    exact Atomic.refl ca
  · refine ⟨fun x hx => hmoved ▸ visible_moved hx, ?_, ?_, ?_, ?_, ?_⟩
    all_goals
      rw [hsome] at hmoved
      rw [hmoved]
    exact fun _ _ => rfl

/-- A failed call changes nothing exactly if the page number is refused, or the
version to be replaced is not in use. -/
theorem failed_put_atomic {ca t : VbiCache} (h : Consistent ca) {n : Addr} (hn : n ∈ ca.networks)
    {cp : TtxPage} (hvalid : validPgno cp.pgno) {memory : Bool}
    (hput : vbiCachePutPage ca n cp memory = some (t, none)) :
    Atomic ca t ↔
      cp.pgno &&& 0xFF = 0xFF ∨ ∀ a ∈ versionFound ca n cp, unreferenced ca a = true := by
  by_cases hpgno : cp.pgno &&& 0xFF = 0xFF
  · rw [vbiCachePutPage, if_pos hpgno] at hput
    cases hput
    exact ⟨fun _ => Or.inl hpgno, fun _ => Atomic.refl ca⟩
  rw [or_iff_right hpgno]
  constructor
  · intro hatomic a ha
    by_contra huse
    obtain ⟨hbefore, hlost⟩ :=
      version_lost h hn hvalid hpgno hput ha (Bool.not_eq_true _ ▸ huse)
    exact hlost (hatomic.visible a hbefore)
  · exact version_kept h hn hvalid hpgno hput

/-- A page not in use is kept when a larger version of it does not fit. -/
theorem failed_put_atomic_unused :
    ∃ ca t, run step (vbiCacheNew 2000) [.addNetwork none true,
        .putPage 0 (lopPage 0x101 0 1) true, .pageUnref 1] = some ca ∧
      vbiCachePutPage ca 0 (drcsPage 0x101 2) true = some (t, none) ∧ Atomic ca t := by
  have safe : Permitted step (fun ca op => Callable ca op ∧ Safe ca op) (vbiCacheNew 2000)
      [.addNetwork none true, .putPage 0 (lopPage 0x101 0 1) true, .pageUnref 1] := by
    decide +kernel
  refine ⟨_, _, rfl, rfl, ?_⟩
  exact (@failed_put_atomic _ _ (run_consistent safe rfl) 0 (by decide +kernel) (drcsPage 0x101 2)
    (by decide) true rfl).mpr (Or.inr (by decide +kernel))

/-- A page in use is not found any longer after a larger version of it did not fit. -/
theorem failed_put_not_atomic :
    ∃ ca t, Permitted step (fun ca op => Callable ca op ∧ Safe ca op) (vbiCacheNew 2000)
        [.addNetwork none true, .putPage 0 (lopPage 0x101 0 1) true] ∧
      run step (vbiCacheNew 2000) [.addNetwork none true, .putPage 0 (lopPage 0x101 0 1) true] =
        some ca ∧
      vbiCachePutPage ca 0 (drcsPage 0x101 2) true = some (t, none) ∧
      Visible ca 1 ∧ ¬Visible t 1 ∧ ¬Atomic ca t := by
  have safe : Permitted step (fun ca op => Callable ca op ∧ Safe ca op) (vbiCacheNew 2000)
      [.addNetwork none true, .putPage 0 (lopPage 0x101 0 1) true] := by
    decide +kernel
  refine ⟨_, _, safe, rfl, rfl, ?_⟩
  obtain ⟨hbefore, hlost⟩ := @version_lost _ _ (run_consistent safe rfl) 0 (by decide +kernel)
    (drcsPage 0x101 2) (by decide) (by decide) true rfl 1 rfl rfl
  exact ⟨hbefore, hlost, fun hatomic => hlost (hatomic.visible 1 hbefore)⟩

end PageCacheFailure

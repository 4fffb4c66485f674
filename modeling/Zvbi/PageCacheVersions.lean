import Zvbi.PageCacheRuns

/-!
# Versions of a page in the cache

A version of a page is a page in its hash chain. A page which has no subpages is
stored in one version only and should replace all others, but the call replaces
the first one it finds. As long as there is no other, versions stay distinct,
and a lookup returns what was stored last under its key.
-/

namespace PageCacheVersions
open RecordHeap PageCache PageCacheAccounts PageCacheReferences PageCacheEviction PageCachePut
open PageCacheRuns GuardedRuns

def isVersion (n : Addr) (pgno : Nat) (cp : CachePage) : Bool :=
  cp.network = n ∧ cp.pgno = pgno ∧ cp.priority ≠ .zombie

def keyMask (pgno : Nat) : Nat := if vbiIsBcd pgno then 0xFF else 0x0F

/-- At most one version of each page and subpage number. -/
def Unique (ca : VbiCache) : Prop :=
  ∀ a b page other, ca.pages.lookup a = some page → ca.pages.lookup b = some other →
    page.priority ≠ .zombie → other.priority ≠ .zombie → page.network = other.network →
    page.pgno = other.pgno → page.subno = other.subno → a = b

/-- Versions differ in the bits which tell them apart. -/
def Distinct (ca : VbiCache) : Prop :=
  ∀ a b page other, ca.pages.lookup a = some page → ca.pages.lookup b = some other →
    page.priority ≠ .zombie → other.priority ≠ .zombie → page.network = other.network →
    page.pgno = other.pgno → page.subno &&& keyMask page.pgno = other.subno &&& keyMask page.pgno →
    a = b

variable {ca t : VbiCache} {a n : Addr} {cp : TtxPage}

theorem Distinct.unique (h : Distinct ca) : Unique ca := by
  intro a b page other ha hb hlive hlive' hnetwork hpgno hsubno
  exact h a b page other ha hb hlive hlive' hnetwork hpgno (by rw [hsubno])

theorem distinct_of_noNewVersions {s : VbiCache} (h : Distinct s) (hnew : NoNewVersions s t) :
    Distinct t := by
  intro a b page other ha hb hlive hlive' hnetwork hpgno hkey
  obtain ⟨page', ha', hsame, hn, hl⟩ := hnew a page ha
  obtain ⟨other', hb', hsame', hn', hl'⟩ := hnew b other hb
  refine h a b page' other' ha' hb' (hl hlive) (hl' hlive') ?_ ?_ ?_
  · rw [← hn, ← hn', hnetwork]
  · rw [← hsame, ← hsame', hpgno]
  · rw [← hsame, ← hsame', hkey]

variable {mask subno : Nat} {page : CachePage} {memory : Bool} {history : List (Addr × TtxPage)}

theorem versionFound_of_matches (h : Accounted ca) (hkey : storedSubno ca n cp = some (subno, mask))
    (ha : ca.pages.lookup a = some page) (hlive : page.priority ≠ .zombie)
    (hnetwork : page.network = n) (hpgno : page.pgno = cp.pgno)
    (hsubno : page.subno &&& mask = subno &&& mask) : ∃ b, versionFound ca n cp = some b := by
  rcases pageByPgno_keeps h n cp.pgno (subno &&& mask) mask with
    ⟨hnone, hall⟩ | ⟨hash, b, old, hsome, -⟩
  · have hmem : a ∈ ca.hash (hashOf cp.pgno) :=
      (h.linked.chain _ a).mpr ⟨page, ha, hlive, by rw [hpgno]⟩
    have hfalse := hall a hmem
    simp only [matchesPage, ha, hpgno, hnetwork, hsubno, Nat.and_assoc, Nat.and_self, and_self,
      decide_true, Bool.true_eq_false] at hfalse
  · exact ⟨b, by simp only [versionFound, hkey, hsome, Option.bind_some]⟩

/-- Either the page has no subpages, or its versions are told apart by the mask. -/
theorem storedSubno_mask (hkey : storedSubno ca n cp = some (subno, mask)) :
    mask = 0 ∨ mask = keyMask cp.pgno := by
  simp only [storedSubno] at hkey
  split at hkey
  · rename_i hbcd
    split at hkey
    · cases hkey
      exact Or.inl rfl
    · obtain ⟨cn, -, hvalid⟩ := Option.bind_eq_some_iff.mp hkey
      split at hvalid
      · simp only [Option.some.injEq, versionOf] at hvalid
        split at hvalid
        · split at hvalid
          · cases hvalid
            exact Or.inl rfl
          · cases hvalid
            exact Or.inl rfl
        split at hvalid
        · cases hvalid
          exact Or.inl rfl
        · cases hvalid
          exact Or.inr (by rw [keyMask, if_pos hbcd])
      · cases hvalid
  · rename_i hhex
    cases hkey
    exact Or.inr (by rw [keyMask, if_neg hhex])

def Single (ca : VbiCache) : Op → Prop
  | .putPage n cp _ => ∀ key ∈ storedSubno ca n cp, key.2 = 0 →
      tally (isVersion n cp.pgno) ca.pages ≤ 1
  | _ => True

/-- The check behind `Single`. -/
def singleCheck (ca : VbiCache) : Op → Bool
  | .putPage n cp _ => (storedSubno ca n cp).all fun key =>
      !(key.2 == 0) || Nat.ble (tally (isVersion n cp.pgno) ca.pages) 1
  | _ => true

theorem singleCheck_iff (ca : VbiCache) (op : Op) : singleCheck ca op = true ↔ Single ca op := by
  cases op with
  | putPage n cp memory =>
    rw [singleCheck, Option.all_eq_true]
    simp [Single, imp_iff_not_or]
  | _ => exact ⟨fun _ => trivial, fun _ => rfl⟩

instance (ca : VbiCache) (op : Op) : Decidable (Single ca op) :=
  decidable_of_iff (singleCheck ca op = true) (singleCheck_iff ca op)

variable {b : Addr} {op : Op}

theorem eq_of_tally_le_one {p : CachePage → Bool} {pages : Heap CachePage} {other : CachePage}
    (h : tally p pages ≤ 1) (ha : pages.lookup a = some page) (hb : pages.lookup b = some other)
    (hp : p page = true) (hp' : p other = true) : a = b := by
  by_contra hne
  have hrest := tally_pos (lookup_erase_iff.mpr ⟨Ne.symm hne, hb⟩ : (pages.erase a).lookup b = _) hp'
  rw [tally_erase ha, hp] at hrest
  simp only [if_true] at hrest
  omega

theorem stored_alone (h : Accounted ca) (distinct : Distinct ca)
    (single : Single ca (.putPage n cp memory)) (hstored : Stored ca t n cp a)
    (hkey : storedSubno ca n cp = some (subno, mask)) (hb : t.pages.lookup b = some page)
    (hlive : page.priority ≠ .zombie) (hnetwork : page.network = n) (hpgno : page.pgno = cp.pgno)
    (hsubno : mask = 0 ∨ page.subno &&& mask = subno &&& mask) : b = a := by
  by_contra hne
  obtain ⟨old, hold, hsame, hn, hversion⟩ := hstored.others b page hne hb
  obtain ⟨holdLive, hnot⟩ := hversion hlive
  have hmatch : old.subno &&& mask = subno &&& mask := by
    rw [← hsame]
    rcases hsubno with rfl | hsubno
    · rw [Nat.and_zero, Nat.and_zero]
    · exact hsubno
  have hnetwork' : old.network = n := by rw [← hn, hnetwork]
  have hpgno' : old.pgno = cp.pgno := by rw [← hsame, hpgno]
  obtain ⟨c, hc⟩ := versionFound_of_matches h hkey hold holdLive hnetwork' hpgno' hmatch
  obtain ⟨subno', mask', found, hkey', hfound, hfoundLive, hfn, hfp, hfs⟩ := versionFound_spec h hc
  rw [hkey] at hkey'
  cases hkey'
  apply hnot
  rw [hc]
  congr 1
  rcases storedSubno_mask hkey with rfl | rfl
  · refine eq_of_tally_le_one (single _ hkey rfl) hfound hold ?_ ?_
    · simp only [isVersion, hfn, hfp, hfoundLive, ne_eq, not_false_eq_true, and_self, decide_true]
    · simp only [isVersion, hnetwork', hpgno', holdLive, ne_eq, not_false_eq_true, and_self,
        decide_true]
  · refine distinct c b found old hfound hold hfoundLive holdLive ?_ ?_ ?_
    · rw [hfn, hnetwork']
    · rw [hfp, hpgno']
    · rw [hfp, hfs, hmatch]

theorem distinct_of_stored (h : Accounted ca) (distinct : Distinct ca)
    (single : Single ca (.putPage n cp memory)) (hstored : Stored ca t n cp a) : Distinct t := by
  obtain ⟨subno, mask, room, hkey, hnew⟩ := hstored.page
  -- no other version agrees with the new page
  have halone : ∀ b page, t.pages.lookup b = some page → page.priority ≠ .zombie →
      page.network = n → page.pgno = cp.pgno →
      page.subno &&& keyMask cp.pgno = subno &&& keyMask cp.pgno → b = a := by
    intro b page hb hlive hnetwork hpgno hsubno
    refine stored_alone h distinct single hstored hkey hb hlive hnetwork hpgno ?_
    rcases storedSubno_mask hkey with hzero | rfl
    · exact Or.inl hzero
    · exact Or.inr hsubno
  intro b c page other hb hc hlive hlive' hnetwork hpgno hsubno
  by_cases hba : b = a
  · subst hba
    rw [hnew] at hb
    cases hb
    exact (halone c other hc hlive' hnetwork.symm hpgno.symm hsubno.symm).symm
  by_cases hca : c = a
  · subst hca
    rw [hnew] at hc
    cases hc
    have hpgno' : page.pgno = cp.pgno := hpgno
    rw [hpgno'] at hsubno
    exact absurd (halone b page hb hlive hnetwork hpgno hsubno) hba
  obtain ⟨page', hb', hsame, hn, hl⟩ := hstored.others b page hba hb
  obtain ⟨other', hc', hsame', hn', hl'⟩ := hstored.others c other hca hc
  refine distinct b c page' other' hb' hc' (hl hlive).1 (hl' hlive').1 ?_ ?_ ?_
  · rw [← hn, ← hn', hnetwork]
  · rw [← hsame, ← hsame', hpgno]
  · rw [← hsame, ← hsame', hsubno]

def stores (ca : VbiCache) : Op → List (Addr × TtxPage)
  | .putPage n cp memory =>
    match storedSubno ca n cp, vbiCachePutPage ca n cp memory with
    | some (subno, _), some (_, some _) => [(n, storedPage cp subno)]
    | _, _ => []
  | _ => []

abbrev Recorded := VbiCache × List (Addr × TtxPage)

def recordedStep (s : Recorded) (op : Op) : Option Recorded :=
  (step s.1 op).map fun t => (t, s.2 ++ stores s.1 op)

/-- This is the page stored last under its key. -/
def Latest (history : List (Addr × TtxPage)) (n : Addr) (page : TtxPage) : Prop :=
  ∃ before after, history = before ++ (n, page) :: after ∧
    ∀ later ∈ after, ¬(later.1 = n ∧ later.2.pgno = page.pgno ∧ later.2.subno = page.subno)

/-- Every version is the page stored last under its key. -/
def Fresh (s : Recorded) : Prop :=
  ∀ a page, s.1.pages.lookup a = some page → page.priority ≠ .zombie →
    Latest s.2 page.network page.toTtxPage

theorem Latest.append {page : TtxPage} (h : Latest history n page) {m : Addr} {other : TtxPage}
    (hkey : ¬(m = n ∧ other.pgno = page.pgno ∧ other.subno = page.subno)) :
    Latest (history ++ [(m, other)]) n page := by
  obtain ⟨before, after, rfl, hafter⟩ := h
  refine ⟨before, after ++ [(m, other)], by simp, ?_⟩
  intro later hlater
  rcases List.mem_append.mp hlater with hold | hnew
  · exact hafter later hold
  · rw [List.mem_singleton.mp hnew]
    exact hkey

theorem fresh_of_noNewVersions (h : Fresh (ca, history)) (hnew : NoNewVersions ca t) :
    Fresh (t, history) := by
  intro a page ha hlive
  obtain ⟨old, hold, hsame, hn, hl⟩ := hnew a page ha
  have hlatest := h a old hold (hl hlive)
  rw [hsame, hn]
  exact hlatest

/-- A call which fails to store or stores nothing adds nothing to the history. -/
theorem stores_eq_nil {r : Option Addr} (hcall : call ca op = some (t, r))
    (hnone : ∀ n cp memory, op = .putPage n cp memory → r = none) : stores ca op = [] := by
  cases op with
  | putPage n cp memory =>
    have hr := hnone n cp memory rfl
    subst hr
    have hput : vbiCachePutPage ca n cp memory = some (t, none) := hcall
    simp only [stores, hput]
    split
    · rename_i heq
      cases heq
    · rfl
  | _ => rfl

theorem fresh_of_stored (h : Fresh (ca, history)) (distinct : Distinct t)
    (hcall : vbiCachePutPage ca n cp memory = some (t, some a)) (hstored : Stored ca t n cp a) :
    Fresh (t, history ++ stores ca (.putPage n cp memory)) := by
  obtain ⟨subno, mask, room, hkey, hnew⟩ := hstored.page
  have hstores : stores ca (.putPage n cp memory) = [(n, storedPage cp subno)] := by
    simp only [stores, hkey, hcall]
  rw [hstores]
  intro b page hb hlive
  by_cases hba : b = a
  · subst hba
    rw [hnew] at hb
    cases hb
    exact ⟨history, [], rfl, by simp⟩
  · obtain ⟨old, hold, hsame, hn, hl⟩ := hstored.others b page hba hb
    have hlatest : Latest history page.network page.toTtxPage := by
      rw [hsame, hn]
      exact h b old hold (hl hlive).1
    refine hlatest.append ?_
    rintro ⟨hnetwork, hpgno, hsubno⟩
    have hother : pagePriority cp subno ≠ .zombie := pagePriority_live cp subno
    exact hba (distinct.unique b a page _ hb hnew hlive hother hnetwork.symm hpgno.symm hsubno.symm)

/-- Calls which keep versions distinct. -/
def Orderly (s : Recorded) (op : Op) : Prop :=
  Callable s.1 op ∧ Safe s.1 op ∧ Single s.1 op

instance (s : Recorded) (op : Op) : Decidable (Orderly s op) :=
  inferInstanceAs (Decidable (_ ∧ _ ∧ _))

theorem recordedStep_keeps {s : Recorded} (h : Consistent s.1) (distinct : Distinct s.1)
    (fresh : Fresh s) (orderly : Orderly s op) :
    ∃ t, recordedStep s op = some t ∧ Consistent t.1 ∧ Distinct t.1 ∧ Fresh t := by
  obtain ⟨callable, safe, single⟩ := orderly
  obtain ⟨t, r, hcall, hcons, hpages⟩ := call_keeps h callable safe
  have hstep : recordedStep s op = some (t, s.2 ++ stores s.1 op) := by
    simp only [recordedStep, step, hcall, Option.map_some]
  refine ⟨_, hstep, hcons, ?_⟩
  rcases hpages with ⟨hnew, hnone⟩ | ⟨n, cp, memory, a, rfl, rfl, hstored⟩
  · refine ⟨distinct_of_noNewVersions distinct hnew, ?_⟩
    rw [stores_eq_nil hcall hnone, List.append_nil]
    exact fresh_of_noNewVersions fresh hnew
  · have hdistinct := distinct_of_stored h.toAccounted distinct single hstored
    exact ⟨hdistinct, fresh_of_stored fresh hdistinct hcall hstored⟩

/-- In every state which orderly calls reach, there is one version of each page
and subpage number, a page stored without subpages becomes the only version of
its page, and a page found is the one stored last under its key. -/
theorem page_cache_versions (memoryLimit : Nat) (ops : List Op)
    (orderly : Permitted recordedStep Orderly (vbiCacheNew memoryLimit, []) ops) :
    ∃ ca history, run recordedStep (vbiCacheNew memoryLimit, []) ops = some (ca, history) ∧
      Unique ca ∧
      (∀ n cp memory t a subno, Orderly (ca, history) (.putPage n cp memory) →
        vbiCachePutPage ca n cp memory = some (t, some a) →
        storedSubno ca n cp = some (subno, 0) →
        ∀ b page, t.pages.lookup b = some page → isVersion n cp.pgno page = true → b = a) ∧
      ∀ n pgno subno mask t a, Orderly (ca, history) (.getPage n pgno subno mask) →
        vbiCacheGetPage ca n pgno subno mask = some (t, some a) →
        ∃ page, t.pages.lookup a = some page ∧ page.network = n ∧ page.pgno = pgno ∧
          (subno ≠ anySubno → page.subno &&& mask = subno &&& mask) ∧
          Latest history n page.toTtxPage := by
  have keeps : ∀ s op, Consistent s.1 ∧ Distinct s.1 ∧ Fresh s → Orderly s op →
      ∃ t, recordedStep s op = some t ∧ Consistent t.1 ∧ Distinct t.1 ∧ Fresh t := by
    rintro s op ⟨h, distinct, fresh⟩ hop
    exact recordedStep_keeps h distinct fresh hop
  have start : Consistent (vbiCacheNew memoryLimit) ∧ Distinct (vbiCacheNew memoryLimit) ∧
      Fresh (vbiCacheNew memoryLimit, []) := by
    refine ⟨vbiCacheNew_consistent memoryLimit, ?_, ?_⟩
    · intro a b page other ha
      cases ha
    · intro a page ha
      cases ha
  obtain ⟨⟨ca, history⟩, hrun, h, distinct, fresh⟩ :=
    run_keeps (fun s : Recorded => Consistent s.1 ∧ Distinct s.1 ∧ Fresh s) keeps start orderly
  refine ⟨ca, history, hrun, distinct.unique, ?_, ?_⟩
  · rintro n cp memory t a subno ⟨callable, safe, single⟩ hput hkey b page hb hversion
    obtain ⟨t', r, hcall, -, hpages⟩ := call_keeps h callable safe
    have hput' : call ca (.putPage n cp memory) = some (t, some a) := hput
    rw [hput'] at hcall
    cases hcall
    rcases hpages with ⟨-, hnone⟩ | ⟨n', cp', memory', a', heq, hr, hstored⟩
    · cases hnone n cp memory rfl
    cases heq
    cases hr
    simp only [isVersion, decide_eq_true_eq] at hversion
    exact stored_alone h.toAccounted distinct single hstored hkey hb hversion.2.2 hversion.1
      hversion.2.1 (Or.inl rfl)
  · rintro n pgno subno mask t a ⟨-, safe, -⟩ hget
    obtain ⟨t', r, hget', -, -, hfound⟩ := vbiCacheGetPage_keeps h n pgno subno mask safe
    rw [hget] at hget'
    cases hget'
    obtain ⟨page, old, ha, hold, rfl, rfl, hlive, hpgno, hsubno⟩ := hfound a rfl
    exact ⟨_, ha, rfl, hpgno, hsubno, fresh a old hold hlive⟩

/-- Subpages, a clock page and a page with a hexadecimal number, some of them
stored again. -/
theorem page_cache_versions_stored :
    ∃ ca history, run recordedStep (vbiCacheNew (2 ^ 30), []) [.addNetwork none true,
        .putPage 0 (lopPage 0x101 1 1) true, .putPage 0 (lopPage 0x101 2 2) true, .pageUnref 1,
        .putPage 0 (lopPage 0x101 1 3) true, .putPage 0 (lopPage 0x200 0x1234 4) true,
        .getPage 0 0x101 2 0xFFFF, .putPage 0 (lopPage 0x200 0 5) true,
        .putPage 0 (lopPage 0x1FE 0x12 6) true] = some (ca, history) ∧
      Unique ca ∧
      (∀ n cp memory t a subno, Orderly (ca, history) (.putPage n cp memory) →
        vbiCachePutPage ca n cp memory = some (t, some a) →
        storedSubno ca n cp = some (subno, 0) →
        ∀ b page, t.pages.lookup b = some page → isVersion n cp.pgno page = true → b = a) ∧
      ∀ n pgno subno mask t a, Orderly (ca, history) (.getPage n pgno subno mask) →
        vbiCacheGetPage ca n pgno subno mask = some (t, some a) →
        ∃ page, t.pages.lookup a = some page ∧ page.network = n ∧ page.pgno = pgno ∧
          (subno ≠ anySubno → page.subno &&& mask = subno &&& mask) ∧
          Latest history n page.toTtxPage :=
  page_cache_versions (2 ^ 30) _ (by decide +kernel)

def storeVersions : List Op :=
  [.addNetwork none true, .putPage 0 (lopPage 0x101 1 1) true, .pageUnref 1,
    .putPage 0 (lopPage 0x101 2 2) true, .pageUnref 2, .putPage 0 (lopPage 0x101 0 3) true,
    .pageUnref 3, .getPage 0 0x101 1 0xFFFF, .pageUnref 1, .putPage 0 (lopPage 0x101 0 4) true]

/-- A page without subpages stored over two subpages leaves one of them, and
another one stored after a lookup of the subpage left is a second version of the
same page. -/
theorem page_cache_versions_not_unique :
    Permitted step (fun ca op => Callable ca op ∧ Safe ca op) (vbiCacheNew (2 ^ 30))
      storeVersions ∧
    ∃ ca, run step (vbiCacheNew (2 ^ 30)) storeVersions = some ca ∧ ¬Unique ca := by
  refine ⟨by decide +kernel, _, rfl, ?_⟩
  intro unique
  exact absurd (unique 3 4 _ _ rfl rfl (by decide) (by decide) rfl rfl rfl) (by decide)

end PageCacheVersions

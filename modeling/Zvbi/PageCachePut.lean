import Zvbi.PageCacheEviction

/-!
# Storing a page

A new page takes the place of the version it replaces, of other pages, or a
block of its own. The accounts hold afterwards unless a page was condemned
twice, or a block was reused for a page of another size.
-/

namespace PageCachePut
open RecordHeap PageCache PageCacheAccounts PageCacheReferences PageCacheEviction

def newPage (n : Addr) (cp : TtxPage) (subno room : Nat) : CachePage :=
  { storedPage cp subno with
    network := n
    refCount := 1
    priority := pagePriority cp subno
    room := room }

theorem pagePriority_live (cp : TtxPage) (subno : Nat) : pagePriority cp subno ≠ .zombie := by
  simp only [pagePriority]
  repeat' split
  all_goals decide

def networkWith (cn : CacheNetwork) (pgno subno : Nat) : CacheNetwork :=
  { cn with
    nCachedPages := cn.nCachedPages + 1
    maxCachedPages :=
      if cn.nCachedPages + 1 > cn.maxCachedPages then cn.nCachedPages + 1 else cn.maxCachedPages
    nReferencedPages := cn.nReferencedPages + 1
    pageStat := Function.update cn.pageStat pgno (addSubpage (cn.pageStat pgno) subno) }

def withPage (ca : VbiCache) (a : Addr) (page : CachePage) (cn : CacheNetwork) : VbiCache :=
  { ca with
    pages := ca.pages.insert a page
    networkRecords := ca.networkRecords.insert page.network (networkWith cn page.pgno page.subno)
    hash := Function.update ca.hash (hashOf page.pgno) (a :: ca.hash (hashOf page.pgno))
    referenced := ca.referenced ++ [a]
    nCachedPages := ca.nCachedPages + 1 }

variable {a n : Addr} {cn : CacheNetwork} {ca : VbiCache} {cp : TtxPage}

variable {page : CachePage} {t : VbiCache} {r : DeathRow}

variable {pages : Heap CachePage} {row : List Addr} {found old : Option Addr}

theorem networkAccounts_with (h : NetworkAccounts pages n cn) (ha : pages.lookup a = none)
    (hn : page.network = n) (huse : page.refCount ≠ 0) :
    NetworkAccounts (pages.insert a page) n (networkWith cn page.pgno page.subno) := by
  constructor
  · have hof : ofNetwork n page = true := by simp [ofNetwork, hn]
    simp [tally_insert_new _ _ ha, hof, networkWith, h.cached]
  · have hof : inUse n page = true := by simp [inUse, hn, huse]
    simp [tally_insert_new _ _ ha, hof, networkWith, h.referenced]
  · intro pgno
    by_cases hpgno : pgno = page.pgno
    · subst hpgno
      have hof : ofNumber n page.pgno page = true := by simp [ofNumber, hn]
      rw [tally_insert_new _ _ ha, hof]
      simp only [networkWith, Function.update_self, addSubpage, h.subpages, if_true]
      exact (UInt8.ofNat_add _ 1).symm
    · have hof : ofNumber n pgno page = false := by simp [ofNumber, Ne.symm hpgno]
      simp [tally_insert_new _ _ ha, hof, networkWith, hpgno, h.subpages]
  · exact h.lively

theorem networkAccounts_insert_other (h : NetworkAccounts pages n cn) (ha : pages.lookup a = none)
    (hn : page.network ≠ n) : NetworkAccounts (pages.insert a page) n cn := by
  constructor
  · simp [tally_insert_new _ _ ha, ofNetwork, hn, h.cached]
  · simp [tally_insert_new _ _ ha, inUse, hn, h.referenced]
  · intro pgno
    simp [tally_insert_new _ _ ha, ofNumber, hn, h.subpages]
  · exact h.lively

theorem accounted_withPage (h : Accounted ca) (ha : ca.pages.lookup a = none) (htop : a < ca.top)
    (hn : ca.networkRecords.lookup page.network = some cn) (huse : page.refCount ≠ 0)
    (hlive : page.priority ≠ .zombie) (hvalid : validPgno page.pgno)
    (hroom : cachePageSize page.toTtxPage ≤ page.room) : Accounted (withPage ca a page cn) where
  linked := by
    have hlinked := h.linked
    have hnew : ∀ p : CachePage → Prop, ¬∃ cp, ca.pages.lookup a = some cp ∧ p cp := by
      rintro p ⟨cp, hcp, -⟩
      rw [ha] at hcp
      cases hcp
    have hnot : a ∉ ca.referenced := fun hmem => hnew _ ((hlinked.referenced a).mp hmem)
    have hchain : ∀ c, a ∉ ca.hash c := fun c hmem => hnew _ ((hlinked.chain c a).mp hmem)
    constructor
    · intro b
      simp only [withPage, hlinked.priority, exists_lookup_insert]
      rcases eq_or_ne b a with rfl | hb
      · simp [huse, ha]
      · simp [hb]
    · intro b
      simp only [withPage, List.mem_append, List.mem_singleton, hlinked.referenced,
        exists_lookup_insert]
      rcases eq_or_ne b a with rfl | hb
      · simp [huse]
      · simp [hb]
    · intro c b
      by_cases hc : c = hashOf page.pgno
      · subst hc
        simp only [withPage, Function.update_self, List.mem_cons, hlinked.chain,
          exists_lookup_insert]
        rcases eq_or_ne b a with rfl | hb
        · simp [hlive]
        · simp [hb]
      · simp only [withPage, Function.update_of_ne hc, hlinked.chain, exists_lookup_insert]
        rcases eq_or_ne b a with rfl | hb
        · simp [ha, Ne.symm hc]
        · simp [hb]
    · intro n
      simp only [withPage, hlinked.network, lookup_insert_iff]
      grind
    · exact hlinked.priorityOnce
    · exact List.nodup_append_comm.mp (List.nodup_cons.mpr ⟨hnot, hlinked.referencedOnce⟩)
    · intro c
      by_cases hc : c = hashOf page.pgno
      · subst hc
        simp only [withPage, Function.update_self]
        exact List.nodup_cons.mpr ⟨hchain _, hlinked.chainOnce _⟩
      · simpa only [withPage, Function.update_of_ne hc] using hlinked.chainOnce c
    · exact hlinked.networkOnce
  used := by
    have htotal := total_insert_new unreferencedSize page ha
    have hzero : unreferencedSize page = 0 := if_neg huse
    have hused := h.used
    simp only [withPage]
    omega
  cached := by
    simp [withPage, tally_insert_new _ _ ha, h.cached]
  network n cm hm := by
    rcases lookup_insert_iff.mp hm with ⟨rfl, rfl⟩ | ⟨hne, hold⟩
    · exact networkAccounts_with (h.network _ cn hn) ha rfl huse
    · exact networkAccounts_insert_other (h.network n cm hold) ha hne.symm
  page b cp hb := by
    have howner : ∀ n, (∃ cm, ca.networkRecords.lookup n = some cm) →
        ∃ cm, (withPage ca a page cn).networkRecords.lookup n = some cm := by
      rintro n ⟨cm, hcm⟩
      by_cases hne : n = page.network
      · exact ⟨_, lookup_insert_iff.mpr (Or.inl ⟨hne, rfl⟩)⟩
      · exact ⟨cm, lookup_insert_iff.mpr (Or.inr ⟨hne, hcm⟩)⟩
    rcases lookup_insert_iff.mp hb with ⟨rfl, rfl⟩ | ⟨-, hold⟩
    · exact ⟨howner _ ⟨cn, hn⟩, hvalid, fun hz => absurd hz hlive, hroom, htop⟩
    · have hfits := h.page b cp hold
      exact ⟨howner _ hfits.owner, hfits.number, hfits.zombie, hfits.room, hfits.old⟩
  networkOld n cm hm := by
    rcases lookup_insert_iff.mp hm with ⟨rfl, -⟩ | ⟨-, hold⟩
    · exact h.networkOld _ cn hn
    · exact h.networkOld n cm hold

theorem storePage_eq (h : Accounted ca) (hn : ca.networkRecords.lookup n = some cn)
    (hvalid : validPgno cp.pgno) (subno : Nat) (a : Addr) (room : Nat) :
    storePage { ca with nCachedPages := ca.nCachedPages + 1 } n cp subno a room =
      some (withPage ca a (newPage n cp subno room) cn) := by
  have hlively := (h.network n cn hn).lively
  have hvalid' : validPgno (storedPage cp subno).pgno := hvalid
  simp [storePage, setPage, addHeadHash, hn, setNetwork, cacheNetworkAddPage, revive, hlively,
    hvalid', withPage, newPage, networkWith]
  rfl

def unreferenced (ca : VbiCache) (a : Addr) : Bool :=
  match ca.pages.lookup a with
  | some cp => cp.refCount = 0
  | none => false

/-- The version of a page a new one takes the place of. -/
def versionFound (ca : VbiCache) (n : Addr) (cp : TtxPage) : Option Addr :=
  (storedSubno ca n cp).bind fun key => (pageByPgno ca n cp.pgno (key.1 &&& key.2) key.2).2

def replaced (ca : VbiCache) (n : Addr) (cp : TtxPage) : Option Addr :=
  (versionFound ca n cp).filter (unreferenced ca)

/-- The cache after the version found was looked up and retired. The pages keep
their contents and counts, and the version found is a zombie or unreferenced. -/
structure Retired (ca t : VbiCache) (found old : Option Addr) : Prop where
  accounted : Accounted t
  sizes : sizeAt t = sizeAt ca
  unreferenced : ∀ a cp, ca.pages.lookup a = some cp → cp.refCount = 0 →
    t.pages.lookup a = some cp
  versions : NoNewVersions ca t
  networkRecords : t.networkRecords = ca.networkRecords
  priority : t.priority = ca.priority
  used : t.memoryUsed = ca.memoryUsed
  limit : t.memoryLimit = ca.memoryLimit
  top : t.top = ca.top
  kept : old = found.filter (PageCachePut.unreferenced ca)
  zombie : ∀ a, found = some a → old = some a ∨
    ∃ cp, t.pages.lookup a = some cp ∧ cp.priority = .zombie

theorem accounted_retire (h : Accounted ca) {cp : CachePage} (ha : ca.pages.lookup a = some cp)
    (huse : cp.refCount ≠ 0) :
    Accounted (setPage (unlinkHash ca cp.pgno a) a { cp with priority := .zombie }) where
  linked := by
    have hlinked := h.linked
    refine { hlinked with priority := ?_, referenced := ?_, chain := ?_, chainOnce := ?_ }
    · intro b
      simp only [setPage, unlinkHash, hlinked.priority, exists_lookup_insert]
      rcases eq_or_ne b a with rfl | hb
      · simp [ha, huse]
      · simp [hb]
    · intro b
      simp only [setPage, unlinkHash, hlinked.referenced, exists_lookup_insert]
      rcases eq_or_ne b a with rfl | hb
      · simp [ha, huse]
      · simp [hb]
    · intro c b
      by_cases hc : c = hashOf cp.pgno
      · subst hc
        simp only [setPage, unlinkHash, Function.update_self, (hlinked.chainOnce _).mem_erase_iff,
          hlinked.chain, exists_lookup_insert]
        simp
      · simp only [setPage, unlinkHash, Function.update_of_ne hc, hlinked.chain,
          exists_lookup_insert]
        rcases eq_or_ne b a with rfl | hb
        · simp [ha, Ne.symm hc]
        · simp [hb]
    · intro c
      by_cases hc : c = hashOf cp.pgno
      · subst hc
        simpa only [setPage, unlinkHash, Function.update_self] using (hlinked.chainOnce _).erase a
      · simpa only [setPage, unlinkHash, Function.update_of_ne hc] using hlinked.chainOnce c
  used := h.used.trans (total_insert_same _ ha rfl).symm
  cached := h.cached.trans (tally_insert_same _ ha rfl).symm
  network n cn hn := by
    have hacc := h.network n cn hn
    constructor
    · exact hacc.cached.trans (tally_insert_same _ ha rfl).symm
    · exact hacc.referenced.trans (tally_insert_same _ ha rfl).symm
    · intro pgno
      have hsame : tally (ofNumber n pgno) (ca.pages.insert a { cp with priority := .zombie }) =
          tally (ofNumber n pgno) ca.pages := tally_insert_same _ ha rfl
      rw [hacc.subpages pgno, ← hsame]
      rfl
    · exact hacc.lively
  page b page hb := by
    rcases lookup_insert_iff.mp hb with ⟨rfl, rfl⟩ | ⟨-, hold⟩
    · have hfits := h.page b cp ha
      exact ⟨hfits.owner, hfits.number, fun _ => huse, hfits.room, hfits.old⟩
    · have hfits := h.page b page hold
      exact ⟨hfits.owner, hfits.number, hfits.zombie, hfits.room, hfits.old⟩
  networkOld := h.networkOld

/-- Looking up and retiring the version found. -/
theorem retire_spec (h : Accounted ca) (n : Addr) (pgno subno mask : Nat) :
    ∃ t old, retire (pageByPgno ca n pgno subno mask).1 (pageByPgno ca n pgno subno mask).2 =
        some (t, old) ∧ Retired ca t (pageByPgno ca n pgno subno mask).2 old := by
  rcases pageByPgno_keeps h n pgno subno mask with
    ⟨hnone, -⟩ | ⟨hash, a, cp, hsome, hperm, ha, -, -, -, -⟩
  · rw [hnone]
    refine ⟨ca, none, rfl, ?_⟩
    exact ⟨h, rfl, fun _ _ ha _ => ha, noNewVersions_of_pages fun _ _ ha => ha, rfl, rfl,
      rfl, rfl, rfl, rfl, by simp⟩
  rw [hsome]
  have hmoved : Accounted { ca with hash := hash } := accounted_rehash h hperm
  simp only [retire, ha, Option.bind_eq_bind, Option.bind_some]
  by_cases huse : cp.refCount > 0
  · rw [if_pos huse]
    refine ⟨_, _, rfl, accounted_retire hmoved ha (Nat.ne_of_gt huse), ?_, ?_, ?_, rfl, rfl, rfl,
      rfl, rfl, ?_, ?_⟩
    · funext b
      rcases eq_or_ne b a with rfl | hb
      · simp [sizeAt, setPage, unlinkHash, ha, AList.lookup_insert]
      · simp [sizeAt, setPage, unlinkHash, AList.lookup_insert_ne hb]
    · intro b page hb hfree
      refine lookup_insert_iff.mpr (Or.inr ⟨?_, hb⟩)
      rintro rfl
      rw [ha] at hb
      cases hb
      omega
    · intro b page hb
      rcases lookup_insert_iff.mp hb with ⟨rfl, rfl⟩ | ⟨-, hold⟩
      · exact ⟨cp, ha, rfl, rfl, fun hlive => absurd rfl hlive⟩
      · exact ⟨page, hold, rfl, rfl, id⟩
    · have hfalse : unreferenced ca a = false := by
        simp only [unreferenced, ha, decide_eq_false_iff_not]
        omega
      simp [Option.filter, hfalse]
    · rintro b hb
      cases hb
      exact Or.inr ⟨_, AList.lookup_insert _, rfl⟩
  · rw [if_neg huse]
    refine ⟨_, _, rfl, hmoved, rfl, fun _ _ ha _ => ha,
      noNewVersions_of_pages fun _ _ ha => ha, rfl, rfl, rfl, rfl, rfl, ?_, ?_⟩
    · have htrue : unreferenced ca a = true := by
        simp only [unreferenced, ha, decide_eq_true_eq]
        omega
      simp [Option.filter, htrue]
    · exact fun b hb => Or.inl hb

structure Cleared (ca t : VbiCache) (row : List Addr) : Prop where
  accounted : Accounted t
  pages : Part t.pages ca.pages
  record : ∀ n cn, ca.networkRecords.lookup n = some cn →
    ∃ cn', t.networkRecords.lookup n = some cn'
  limit : t.memoryLimit = ca.memoryLimit
  gone : ∀ a ∈ row, t.pages.lookup a = none

/-- The record at the address of the new page does not matter. -/
theorem storePage_pages (ca : VbiCache) (pages : Heap CachePage)
    (h : ∀ page, pages.insert a page = ca.pages.insert a page) (n : Addr) (cp : TtxPage)
    (subno room : Nat) :
    storePage { ca with pages := pages } n cp subno a room = storePage ca n cp subno a room := by
  simp only [storePage, setPage, addHeadHash, h]

/-- Reusing the block of a page of the same size is like deleting the page. -/
theorem reusePage_clears (h : Accounted ca) (ha : a ∈ ca.priority) {needed : Nat}
    (hsize : sizeAt ca a = needed) :
    ∃ r t room, reusePage ca needed a = some (r, a, room) ∧ needed ≤ room ∧ Cleared ca t [a] ∧
      a < t.top ∧ ∀ n cp subno, storePage r n cp subno a room =
        storePage { t with nCachedPages := t.nCachedPages + 1 } n cp subno a room := by
  obtain ⟨old, hold, hfree⟩ := (h.linked.priority a).mp ha
  obtain ⟨cn, hcn⟩ := (h.page a old hold).owner
  have hfits := h.page a old hold
  have hvalid := hfits.number
  have hneeded : cachePageSize old.toTtxPage = needed := by
    simpa only [sizeAt, hold] using hsize
  have hcount : ca.nCachedPages - 1 + 1 = ca.nCachedPages := by
    have hpos := tally_pos hold (p := fun _ => true) rfl
    rw [← h.cached] at hpos
    omega
  refine ⟨{ without ca a old cn with pages := ca.pages, nCachedPages := ca.nCachedPages },
    without ca a old cn, old.room, ?_, ?_, ?_, hfits.old, ?_⟩
  · simp [reusePage, hold, unlinkPri, unlinkHash, cacheNetworkRemovePage, hcn, hvalid, setNetwork,
      without, networkWithout, hneeded]
  · rw [← hneeded]
    exact hfits.room
  · have htrim := without_trimmed hold hfree hcn
    refine ⟨h.without hold hfree hcn, htrim.pages, ?_, htrim.limit, ?_⟩
    · intro n cm hm
      obtain ⟨cm', hm', -⟩ := htrim.record n cm hm
      exact ⟨cm', hm'⟩
    · intro b hb
      rw [List.mem_singleton.mp hb]
      exact AList.lookup_erase a ca.pages
  · intro n cp subno
    have hsame := storePage_pages { without ca a old cn with
        nCachedPages := (without ca a old cn).nCachedPages + 1 } ca.pages (a := a)
      (fun page => (insert_erase ca.pages a page).symm) n cp subno old.room
    rw [← hsame]
    simp only [without, hcount]

/-- A block of its own, after deleting other pages. -/
theorem allocatePage_clears (h : Accounted ca) (needed : Nat) (once : row.Nodup)
    (hrow : ∀ a ∈ row, a ∈ ca.priority) :
    ∃ t, allocatePage ca needed row =
        some ({ t with nCachedPages := t.nCachedPages + 1 }, ca.top, needed) ∧
      Cleared ca t row ∧ t.pages.lookup ca.top = none ∧ ca.top < t.top := by
  have hgrown : Accounted { ca with top := ca.top + 1 } := by
    refine ⟨{ h.linked with }, h.used, h.cached, h.network, ?_, ?_⟩
    · intro a cp ha
      have hfits := h.page a cp ha
      exact ⟨hfits.owner, hfits.number, hfits.zombie, hfits.room, Nat.lt_succ_of_lt hfits.old⟩
    · exact fun n cn hn => Nat.lt_succ_of_lt (h.networkOld n cn hn)
  have stable : ∀ s t a, Accounted s → Accounted t → Trimmed s t → s.pages.lookup a = none →
      t.pages.lookup a = none := by
    intro s t a _ _ htrim hnone
    by_contra hsome
    obtain ⟨cp, hcp⟩ := Option.ne_none_iff_exists'.mp hsome
    have hback := htrim.pages a cp hcp
    rw [hnone] at hback
    cases hback
  obtain ⟨t, ht, hacc, htrim, hgone⟩ :=
    foldlM_trims stable (fun s a hs ha => deletePage_trims hs ha) hgrown once hrow
  refine ⟨t, ?_, ⟨hacc, htrim.pages, ?_, htrim.limit, hgone⟩, ?_, ?_⟩
  · simp only [allocatePage, ht, Option.bind_eq_bind, Option.bind_some]
  · intro n cn hn
    obtain ⟨cn', hn', -⟩ := htrim.record n cn hn
    exact ⟨cn', hn'⟩
  · by_contra hsome
    obtain ⟨cp, hcp⟩ := Option.ne_none_iff_exists'.mp hsome
    exact Nat.lt_irrefl _ (h.page ca.top cp (htrim.pages ca.top cp hcp)).old
  · rw [htrim.top]
    exact Nat.lt_succ_self _

/-- The call does not condemn a page twice, and reuses a block only for a page of
the same size. -/
structure PutFits (ca : VbiCache) (n : Addr) (cp : TtxPage) : Prop where
  once : MeetsOnce (sizeAt ca) (cachePageSize cp) (spareMemory ca (replaced ca n cp)) []
    (evictionOrder ca (replaced ca n cp))
  same : ∀ a ∈ ((replaced ca n cp).toList ++ evictionOrder ca (replaced ca n cp)).head?,
    freeMemory ca + sizeAt ca a = cachePageSize cp → freeMemory ca = 0

instance (ca : VbiCache) (n : Addr) (cp : TtxPage) : Decidable (PutFits ca n cp) :=
  decidable_of_iff (_ ∧ _) ⟨fun h => ⟨h.1, h.2⟩, fun h => ⟨h.once, h.same⟩⟩

structure Stored (ca t : VbiCache) (n : Addr) (cp : TtxPage) (a : Addr) : Prop where
  page : ∃ subno mask room, storedSubno ca n cp = some (subno, mask) ∧
    t.pages.lookup a = some (newPage n cp subno room)
  others : ∀ b page, b ≠ a → t.pages.lookup b = some page → ∃ old, ca.pages.lookup b = some old ∧
    page.toTtxPage = old.toTtxPage ∧ page.network = old.network ∧
    (page.priority ≠ .zombie → old.priority ≠ .zombie ∧ versionFound ca n cp ≠ some b)
  tally : ∀ m pgno, tally (ofNumber m pgno) t.pages ≤
    tally (ofNumber m pgno) ca.pages + if m = n ∧ pgno = cp.pgno then 1 else 0
  exchange : (∃ a, replaced ca n cp = some a) ∨
      Meets (sizeAt ca) (cachePageSize cp)
        (fun b => (ca.pages.lookup b).any (ofNumber n cp.pgno))
        (spareMemory ca (replaced ca n cp)) (evictionOrder ca (replaced ca n cp)) →
    RecordHeap.tally (ofNumber n cp.pgno) t.pages ≤
      RecordHeap.tally (ofNumber n cp.pgno) ca.pages

theorem storedSubno_some (hn : ca.networkRecords.lookup n = some cn) (hvalid : validPgno cp.pgno) :
    ∃ subno mask, storedSubno ca n cp = some (subno, mask) := by
  simp only [storedSubno]
  split
  · split
    · exact ⟨0, 0, rfl⟩
    · simp only [hn, Option.bind_eq_bind, Option.bind_some]
      exact ⟨_, _, rfl⟩
  · exact ⟨_, _, rfl⟩

theorem versionFound_spec (h : Accounted ca) (ha : versionFound ca n cp = some a) :
    ∃ subno mask old,
      storedSubno ca n cp = some (subno, mask) ∧ ca.pages.lookup a = some old ∧
      old.priority ≠ .zombie ∧ old.network = n ∧ old.pgno = cp.pgno ∧
      old.subno &&& mask = subno &&& mask := by
  obtain ⟨⟨subno, mask⟩, hkey, hfound⟩ := Option.bind_eq_some_iff.mp ha
  rcases pageByPgno_keeps h n cp.pgno (subno &&& mask) mask with
    ⟨hnone, -⟩ | ⟨hash, b, old, hsome, -, hb, hlive, hpgno, hsubno, hnetwork⟩
  · rw [hnone] at hfound
    cases hfound
  · rw [hsome] at hfound
    cases hfound
    refine ⟨subno, mask, old, hkey, hb, hlive, hnetwork, hpgno, ?_⟩
    rw [hsubno, Nat.and_assoc, Nat.and_self]

theorem candidate_retired (h : Accounted ca) (hr : Retired ca t found old) (only : Bool)
    (pri : CachePriority) (ha : a ∈ ca.priority) :
    candidate t old only pri a = candidate ca old only pri a := by
  obtain ⟨cp, hcp, hfree⟩ := (h.linked.priority a).mp ha
  simp only [candidate, hcp, hr.unreferenced a cp hcp hfree, hr.networkRecords]

theorem evictionOrder_retired (h : Accounted ca) (hr : Retired ca t found old) :
    evictionOrder t old = evictionOrder ca old := by
  have hcandidate : ∀ only pri, ∀ a ∈ ca.priority,
      candidate t old only pri a = candidate ca old only pri a :=
    fun only pri _ ha => candidate_retired h hr only pri ha
  simp only [evictionOrder, hr.priority, List.filter_congr (hcandidate _ _)]

/-- The last part of the call, once there is room for the page. -/
theorem store_keeps {s : VbiCache} {subno mask : Nat}
    {room : Nat} (h : Consistent ca)
    (hn : ca.networkRecords.lookup n = some cn) (hvalid : validPgno cp.pgno)
    (hkey : storedSubno ca n cp = some (subno, mask))
    (hret : Retired ca s (versionFound ca n cp) (replaced ca n cp)) (hclear : Cleared s t row)
    (hold : ∀ b, replaced ca n cp = some b → b ∈ row)
    (hmet : Meets (sizeAt ca) (cachePageSize cp)
        (fun b => (ca.pages.lookup b).any (ofNumber n cp.pgno))
        (spareMemory ca (replaced ca n cp)) (evictionOrder ca (replaced ca n cp)) →
      ∃ b ∈ row, ∃ page, s.pages.lookup b = some page ∧ ofNumber n cp.pgno page = true)
    (hnew : t.pages.lookup a = none) (htop : a < t.top) (hroom : cachePageSize cp ≤ room) :
    ∃ r, storePage { t with nCachedPages := t.nCachedPages + 1 } n cp subno a room = some r ∧
      Consistent r ∧ Stored ca r n cp a := by
  obtain ⟨cn', hn'⟩ := hclear.record n cn (hret.networkRecords ▸ hn)
  have hpage : (newPage n cp subno room).network = n := rfl
  refine ⟨_, storePage_eq hclear.accounted hn' hvalid subno a room, ⟨?_, ?_, ?_⟩, ?_⟩
  · exact accounted_withPage hclear.accounted hnew htop hn' Nat.one_ne_zero
      (pagePriority_live cp subno) hvalid hroom
  · have hle := hclear.pages.total_le unreferencedSize
    have hwithin := h.within
    rw [BitVec.le_def] at hwithin ⊢
    have hused : t.memoryUsed.toNat ≤ ca.memoryUsed.toNat := by
      rw [hclear.accounted.used, ← hret.used, hret.accounted.used]
      exact hle
    simp only [withPage, hclear.limit, hret.limit]
    omega
  · simp only [withPage, hclear.limit, hret.limit]
    exact h.limit
  constructor
  · exact ⟨subno, mask, room, hkey, AList.lookup_insert _⟩
  · intro b page hb hpage'
    rcases lookup_insert_iff.mp hpage' with ⟨heq, -⟩ | ⟨-, ht⟩
    · exact absurd heq hb
    have hs := hclear.pages b page ht
    obtain ⟨old, hca, hsame, hnetwork, hlive⟩ := hret.versions b page hs
    refine ⟨old, hca, hsame, hnetwork, fun hpageLive => ⟨hlive hpageLive, ?_⟩⟩
    intro hfound
    rcases hret.zombie b hfound with hrep | ⟨zombie, hz, hdead⟩
    · have hnone := hclear.gone b (hold b hrep)
      rw [ht] at hnone
      cases hnone
    · rw [hs] at hz
      cases hz
      exact hpageLive hdead
  · intro m pgno
    have hbefore := hret.versions.tally_le m pgno
    have hcleared := hclear.pages.total_le fun page => if ofNumber m pgno page then 1 else 0
    have hinsert := tally_insert_new (ofNumber m pgno) (newPage n cp subno room) hnew
    have hof : (if ofNumber m pgno (newPage n cp subno room) = true then 1 else 0) =
        if m = n ∧ pgno = cp.pgno then 1 else 0 := by
      have hiff : n = m ∧ cp.pgno = pgno ↔ m = n ∧ pgno = cp.pgno := by
        rw [eq_comm, eq_comm (a := cp.pgno)]
      simp only [ofNumber, newPage, storedPage, decide_eq_true_eq, hiff]
    simp only [withPage, hinsert, hof]
    simp only [RecordHeap.tally] at hbefore ⊢
    omega
  · intro hgoes
    have hvictim : ∃ b ∈ row, ∃ page, s.pages.lookup b = some page ∧
        ofNumber n cp.pgno page = true := by
      rcases hgoes with ⟨b, hb⟩ | hmeets
      · refine ⟨b, hold b hb, ?_⟩
        obtain ⟨hfound, hfree⟩ := Option.filter_eq_some_iff.mp hb
        obtain ⟨-, -, old, -, hca, -, hnetwork, hpgno, -⟩ := versionFound_spec h.toAccounted hfound
        simp only [unreferenced, hca, decide_eq_true_eq] at hfree
        exact ⟨old, hret.unreferenced b old hca hfree, by simp [ofNumber, hnetwork, hpgno]⟩
      · exact hmet hmeets
    obtain ⟨b, hb, page, hpage', hof⟩ := hvictim
    have hless := hclear.pages.total_lt (fun page => if ofNumber n cp.pgno page then 1 else 0) hpage'
      (hclear.gone b hb)
    have hbefore := hret.versions.tally_le n cp.pgno
    have hinsert := tally_insert_new (ofNumber n cp.pgno) (newPage n cp subno room) hnew
    simp only [hof, if_true] at hless
    simp only [withPage, hinsert]
    simp only [RecordHeap.tally] at hbefore ⊢
    split
    · omega
    · omega

theorem replaced_spec (h : Accounted ca) (ha : replaced ca n cp = some a) :
    ∃ page, ca.pages.lookup a = some page ∧ page.refCount = 0 := by
  obtain ⟨hfound, hfree⟩ := Option.filter_eq_some_iff.mp ha
  obtain ⟨-, -, page, -, hpage, -⟩ := versionFound_spec h hfound
  simp only [unreferenced, hpage, decide_eq_true_eq] at hfree
  exact ⟨page, hpage, hfree⟩

structure Victims (ca : VbiCache) (n : Addr) (cp : TtxPage) (row : List Addr) : Prop where
  unreferenced : ∀ a ∈ row, a ∈ ca.priority
  once : row.Nodup
  old : ∀ a, replaced ca n cp = some a → a ∈ row
  met : Meets (sizeAt ca) (cachePageSize cp)
      (fun b => (ca.pages.lookup b).any (ofNumber n cp.pgno))
      (spareMemory ca (replaced ca n cp)) (evictionOrder ca (replaced ca n cp)) →
    ∃ b ∈ row, ∃ page, ca.pages.lookup b = some page ∧ page.refCount = 0 ∧
      ofNumber n cp.pgno page = true

theorem victims_of_row (h : Accounted ca)
    (hfits : PutFits ca n cp)
    (hrow : Row (sizeAt ca) (cachePageSize cp) (spareMemory ca (replaced ca n cp))
      (replaced ca n cp).toList (evictionOrder ca (replaced ca n cp)) r) :
    Victims ca n cp r.row := by
  have honce := gather_nodup hfits.once
  have htaken := hrow.taken
  constructor
  · intro a ha
    rw [htaken] at ha
    rcases List.mem_append.mp ha with ha | ha
    · exact (h.linked.priority a).mpr (replaced_spec h (Option.mem_toList.mp ha))
    · exact (mem_evictionOrder (gather_subset _ _ a ha)).1
  · rw [htaken]
    refine List.nodup_append.mpr ⟨?_, honce.1, ?_⟩
    · cases replaced ca n cp with
      | none => exact List.nodup_nil
      | some a => exact List.nodup_singleton a
    · rintro a ha b hb rfl
      exact (mem_evictionOrder (gather_subset _ _ a hb)).2 (Option.mem_toList.mp ha)
  · intro a ha
    rw [htaken]
    exact List.mem_append_left _ (Option.mem_toList.mpr ha)
  · intro hmeets
    obtain ⟨b, hb, hof⟩ := gather_meets hmeets
    obtain ⟨page, hpage, hfree⟩ :=
      (h.linked.priority b).mp (mem_evictionOrder (gather_subset _ _ b hb)).1
    simp only [hpage, Option.any_some] at hof
    refine ⟨b, ?_, page, hpage, hfree, hof⟩
    rw [htaken]
    exact List.mem_append_right _ hb

/-- A single page on the row is the first one, if it is just as large as the memory
missing. -/
theorem single_victim_head
    (hrow : Row (sizeAt ca) (cachePageSize cp) (spareMemory ca (replaced ca n cp))
      (replaced ca n cp).toList (evictionOrder ca (replaced ca n cp)) r)
    (henough : r.available = cachePageSize cp) (ha : r.row = [a]) :
    ((replaced ca n cp).toList ++ evictionOrder ca (replaced ca n cp)).head? = some a ∧
      freeMemory ca + sizeAt ca a = cachePageSize cp := by
  have htaken := hrow.taken
  have hmemory := hrow.memory
  rw [henough] at hmemory
  rw [ha] at htaken
  cases hcase : replaced ca n cp with
  | none =>
    rw [hcase] at htaken hmemory
    obtain ⟨hhead, hsum⟩ := gather_single htaken.symm hmemory.symm
    refine ⟨hhead, ?_⟩
    simpa only [spareMemory, Option.toList_none, List.map_nil, List.sum_nil, Int.natCast_zero,
      Int.add_zero] using hsum
  | some b =>
    rw [hcase] at htaken hmemory
    simp only [Option.toList_some, List.singleton_append, List.cons.injEq] at htaken
    obtain ⟨rfl, hnil⟩ := htaken
    refine ⟨rfl, ?_⟩
    rw [gather_available, ← hnil] at hmemory
    simpa only [spareMemory, Option.toList_some, List.map_cons, List.map_nil, List.sum_cons,
      List.sum_nil, Int.natCast_zero, Int.add_zero, Nat.add_zero] using hmemory.symm

theorem single_victim_same (hfits : PutFits ca n cp)
    (hrow : Row (sizeAt ca) (cachePageSize cp) (spareMemory ca (replaced ca n cp))
      (replaced ca n cp).toList (evictionOrder ca (replaced ca n cp)) r)
    (henough : r.available = cachePageSize cp) (ha : r.row = [a]) :
    sizeAt ca a = cachePageSize cp := by
  obtain ⟨hhead, hsum⟩ := single_victim_head hrow henough ha
  have hfree := hfits.same a hhead hsum
  rw [hfree] at hsum
  omega

/-- The call up to the choice of the pages to be replaced. The death row is one in
terms of the cache before the call. -/
structure Chosen (ca s : VbiCache) (n : Addr) (cp : TtxPage) (subno mask : Nat) (r : DeathRow) :
    Prop where
  key : storedSubno ca n cp = some (subno, mask)
  found : (pageByPgno ca n cp.pgno (subno &&& mask) mask).2 = versionFound ca n cp
  retire : retire (pageByPgno ca n cp.pgno (subno &&& mask) mask).1 (versionFound ca n cp) =
    some (s, replaced ca n cp)
  retired : Retired ca s (versionFound ca n cp) (replaced ca n cp)
  deathRow : deathRow s (cachePageSize cp) (replaced ca n cp) = some r
  row : Row (sizeAt ca) (cachePageSize cp) (spareMemory ca (replaced ca n cp))
    (replaced ca n cp).toList (evictionOrder ca (replaced ca n cp)) r

theorem exists_chosen (h : Consistent ca) (hn : ca.networkRecords.lookup n = some cn)
    (hvalid : validPgno cp.pgno) : ∃ s subno mask r, Chosen ca s n cp subno mask r := by
  obtain ⟨subno, mask, hkey⟩ := storedSubno_some hn hvalid
  obtain ⟨s, old, hretire, hret⟩ := retire_spec h.toAccounted n cp.pgno (subno &&& mask) mask
  have hfound : (pageByPgno ca n cp.pgno (subno &&& mask) mask).2 = versionFound ca n cp := by
    simp only [versionFound, hkey, Option.bind_some]
  rw [hfound] at hret hretire
  have hrep : old = replaced ca n cp := hret.kept
  subst hrep
  have hwithin : s.memoryUsed ≤ s.memoryLimit := by
    rw [hret.used, hret.limit]
    exact h.within
  have hlimit : s.memoryLimit.toNat ≤ 2 ^ 30 := by
    rw [hret.limit]
    exact h.limit
  have hexists : ∀ b, replaced ca n cp = some b → ∃ page, s.pages.lookup b = some page := by
    intro b hb
    obtain ⟨page, hpage, hfree⟩ := replaced_spec h.toAccounted hb
    exact ⟨page, hret.unreferenced b page hpage hfree⟩
  obtain ⟨r, hr, hrow⟩ := deathRow_row hret.accounted hwithin hlimit
    (Int.ofNat_le.mpr (cachePageSize_le cp)) hexists
  have hspare : spareMemory s (replaced ca n cp) = spareMemory ca (replaced ca n cp) := by
    simp only [spareMemory, freeMemory, hret.used, hret.limit, hret.sizes]
  rw [hret.sizes, hspare, evictionOrder_retired h.toAccounted hret] at hrow
  exact ⟨s, subno, mask, r, hkey, hfound, hretire, hret, hr, hrow⟩

theorem Chosen.call {ca s : VbiCache} {n : Addr} {cp : TtxPage} {subno mask : Nat} {r : DeathRow}
    (h : Chosen ca s n cp subno mask r) (hpgno : ¬cp.pgno &&& 0xFF = 0xFF) (memory : Bool) :
    vbiCachePutPage ca n cp memory = replacePages s n cp subno memory r := by
  rw [vbiCachePutPage, if_neg hpgno, h.key]
  simp only [Option.bind_eq_bind, Option.bind_some, h.found, h.retire, h.deathRow]

theorem vbiCachePutPage_keeps (h : Consistent ca) (hn : ca.networkRecords.lookup n = some cn)
    (hvalid : validPgno cp.pgno) (hfits : PutFits ca n cp) (memory : Bool) :
    ∃ t r, vbiCachePutPage ca n cp memory = some (t, r) ∧ Consistent t ∧
      (r = none → NoNewVersions ca t) ∧ ∀ a, r = some a → Stored ca t n cp a := by
  have hfail : ∀ s, Consistent s → NoNewVersions ca s → ∃ t r, some (s, (none : Option Addr)) =
      some (t, r) ∧ Consistent t ∧ (r = none → NoNewVersions ca t) ∧
      ∀ a, r = some a → Stored ca t n cp a :=
    fun s hs hversions => ⟨s, none, rfl, hs, fun _ => hversions, by simp⟩
  by_cases hinvalid : cp.pgno &&& 0xFF = 0xFF
  · simpa only [vbiCachePutPage, if_pos hinvalid] using
      hfail ca h (noNewVersions_of_pages fun _ _ ha => ha)
  obtain ⟨s, subno, mask, r, hr⟩ := exists_chosen h hn hvalid
  have hret := hr.retired
  have hrow := hr.row
  have hwithin : s.memoryUsed ≤ s.memoryLimit := by
    rw [hret.used, hret.limit]
    exact h.within
  have hlimit : s.memoryLimit.toNat ≤ 2 ^ 30 := by
    rw [hret.limit]
    exact h.limit
  have hretired : Consistent s := ⟨hret.accounted, hwithin, hlimit⟩
  have hvictims := victims_of_row h.toAccounted hfits hrow
  have hpriority : ∀ a ∈ r.row, a ∈ s.priority := by
    rw [hret.priority]
    exact hvictims.unreferenced
  have hstore : ∀ t a room, Cleared s t r.row → t.pages.lookup a = none → a < t.top →
      cachePageSize cp ≤ room → ∃ v,
      storePage { t with nCachedPages := t.nCachedPages + 1 } n cp subno a room = some v ∧
      Consistent v ∧ Stored ca v n cp a := by
    intro t a room hclear hnew htop hroom
    refine store_keeps h hn hvalid hr.key hret hclear hvictims.old ?_ hnew htop hroom
    intro hmeets
    obtain ⟨b, hb, page, hpage, hfree, hof⟩ := hvictims.met hmeets
    exact ⟨b, hb, page, hret.unreferenced b page hpage hfree, hof⟩
  rw [hr.call hinvalid memory]
  by_cases henough : r.enough = true
  · by_cases hreuse : r.available = cachePageSize cp ∧ r.row.length = 1
    · obtain ⟨a, ha⟩ := List.length_eq_one_iff.mp hreuse.2
      have hmem : a ∈ r.row := by
        rw [ha]
        exact List.mem_singleton_self a
      have hsame : sizeAt s a = cachePageSize cp := by
        rw [hret.sizes]
        exact single_victim_same hfits hrow hreuse.1 ha
      obtain ⟨u, t, room, hu, hroom, hclear, htop, hsimilar⟩ :=
        reusePage_clears hret.accounted (hpriority a hmem) hsame
      rw [← ha] at hclear
      obtain ⟨v, hv, hcons, hstored⟩ := hstore t a room hclear (hclear.gone a hmem) htop hroom
      refine ⟨v, some a, ?_, hcons, by simp, ?_⟩
      · simp only [replacePages, if_pos henough, if_pos hreuse]
        simp only [ha, List.head?_cons, Option.bind_eq_bind, Option.bind_some, hu, hsimilar, hv,
          Option.map_some]
      · rintro b hb
        cases hb
        exact hstored
    · cases memory with
      | false =>
        have hnone : replacePages s n cp subno false r = some (s, none) := by
          simp only [replacePages, if_pos henough, if_neg hreuse, Bool.false_eq_true, if_false]
        rw [hnone]
        exact hfail s hretired hret.versions
      | true =>
        obtain ⟨t, ht, hclear, hnew, htop⟩ :=
          allocatePage_clears hret.accounted (cachePageSize cp) hvictims.once hpriority
        obtain ⟨v, hv, hcons, hstored⟩ :=
          hstore t s.top (cachePageSize cp) hclear hnew htop (Nat.le_refl _)
        refine ⟨v, some s.top, ?_, hcons, by simp, ?_⟩
        · simp only [replacePages, if_pos henough, if_neg hreuse, if_true, ht,
            Option.bind_eq_bind, Option.bind_some, hv, Option.map_some]
        · rintro b hb
          cases hb
          exact hstored
  · have hnone : replacePages s n cp subno memory r = some (s, none) := by
      simp only [replacePages, if_neg henough]
    rw [hnone]
    exact hfail s hretired hret.versions

end PageCachePut

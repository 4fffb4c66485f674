import Zvbi.PageCacheAccounts

/-!
# References to pages and networks

Taking and giving back a reference moves a page between the lists of referenced
and unreferenced pages, and a network or page which is not used any longer may
go. The accounts hold after each of these calls, and no call but the storing of
a page brings a version of a page into the cache.
-/

namespace PageCacheReferences
open RecordHeap PageCache PageCacheAccounts

/-- Between calls the unreferenced pages are within the memory limit. -/
structure Consistent (ca : VbiCache) : Prop extends Accounted ca where
  within : ca.memoryUsed ≤ ca.memoryLimit
  limit : ca.memoryLimit.toNat ≤ 2 ^ 30

/-- Every page in the second cache was in the first, and was a version of its
page there if it still is one. -/
def NoNewVersions (s t : VbiCache) : Prop :=
  ∀ a cp, t.pages.lookup a = some cp →
    ∃ old, s.pages.lookup a = some old ∧ cp.toTtxPage = old.toTtxPage ∧
      cp.network = old.network ∧ (cp.priority ≠ .zombie → old.priority ≠ .zombie)

variable {s t ca : VbiCache} {cn : CacheNetwork} {n a : Addr} {cp : CachePage} {refCount : Nat}

theorem noNewVersions_of_pages (h : Part t.pages s.pages) : NoNewVersions s t :=
  fun a cp ha => ⟨cp, h a cp ha, rfl, rfl, id⟩

theorem NoNewVersions.trans {r : VbiCache} (first : NoNewVersions s t)
    (second : NoNewVersions t r) : NoNewVersions s r := by
  intro a cp ha
  obtain ⟨mid, hmid, hpage, hnetwork, hlive⟩ := second a cp ha
  obtain ⟨old, hold, hpage', hnetwork', hlive'⟩ := first a mid hmid
  exact ⟨old, hold, hpage.trans hpage', hnetwork.trans hnetwork', fun h => hlive' (hlive h)⟩

/-- Without new versions no page number has more pages than before. -/
theorem NoNewVersions.tally_le (h : NoNewVersions s t) (n : Addr) (pgno : Nat) :
    tally (ofNumber n pgno) t.pages ≤ tally (ofNumber n pgno) s.pages := by
  apply total_le
  intro a cp ha
  obtain ⟨old, hold, hpage, hnetwork, -⟩ := h a cp ha
  refine ⟨old, hold, ?_⟩
  simp only [ofNumber, hpage, hnetwork]
  exact Nat.le_refl _

variable {cn' : CacheNetwork} {pages : Heap CachePage} {l : List Addr}

theorem accounted_setNetwork (h : Accounted ca) (hn : ca.networkRecords.lookup n = some cn)
    (hacc : NetworkAccounts ca.pages n cn') :
    Accounted (setNetwork ca n cn') where
  linked := by
    refine { h.linked with network := ?_ }
    intro m
    simp only [PageCache.setNetwork, h.linked.network, lookup_insert_iff]
    grind
  used := h.used
  cached := h.cached
  network m cm hm := by
    rcases lookup_insert_iff.mp hm with ⟨rfl, rfl⟩ | ⟨-, hold⟩
    · exact hacc
    · exact h.network m cm hold
  page a cp ha := by
    have hold := h.page a cp ha
    refine ⟨?_, hold.number, hold.zombie, hold.room, hold.old⟩
    obtain ⟨cm, hcm⟩ := hold.owner
    by_cases hne : cp.network = n
    · exact ⟨cn', lookup_insert_iff.mpr (Or.inl ⟨hne, rfl⟩)⟩
    · exact ⟨cm, lookup_insert_iff.mpr (Or.inr ⟨hne, hcm⟩)⟩
  networkOld m cm hm := by
    rcases lookup_insert_iff.mp hm with ⟨rfl, -⟩ | ⟨-, hold⟩
    · exact h.networkOld _ _ hn
    · exact h.networkOld m cm hold

theorem accounted_reorder (h : Accounted ca) {networks : List Addr}
    (hperm : networks.Perm ca.networks) : Accounted { ca with networks := networks } where
  linked := { h.linked with
    network := fun n => hperm.mem_iff.trans (h.linked.network n)
    networkOnce := hperm.nodup_iff.mpr h.linked.networkOnce }
  used := h.used
  cached := h.cached
  network := h.network
  page a cp ha := ⟨(h.page a cp ha).owner, (h.page a cp ha).number, (h.page a cp ha).zombie,
    (h.page a cp ha).room, (h.page a cp ha).old⟩
  networkOld := h.networkOld

theorem accounted_rehash (h : Accounted ca) {hash : Nat → List Addr}
    (hperm : ∀ c, (hash c).Perm (ca.hash c)) : Accounted { ca with hash := hash } where
  linked := { h.linked with
    chain := fun c a => (hperm c).mem_iff.trans (h.linked.chain c a)
    chainOnce := fun c => (hperm c).nodup_iff.mpr (h.linked.chainOnce c) }
  used := h.used
  cached := h.cached
  network := h.network
  page a cp ha := ⟨(h.page a cp ha).owner, (h.page a cp ha).number, (h.page a cp ha).zombie,
    (h.page a cp ha).room, (h.page a cp ha).old⟩
  networkOld := h.networkOld

theorem networkAccounts_terms (h : NetworkAccounts pages n cn)
    (hcached : cn'.nCachedPages = cn.nCachedPages)
    (hreferenced : cn'.nReferencedPages = cn.nReferencedPages)
    (hsubpages : ∀ pgno, (cn'.pageStat pgno).nSubpages = (cn.pageStat pgno).nSubpages)
    (hzombie : cn'.zombie = cn.zombie) : NetworkAccounts pages n cn' := by
  constructor
  · rw [hcached, h.cached]
  · rw [hreferenced, h.referenced]
  · intro pgno
    rw [hsubpages, h.subpages]
  · rw [hzombie, h.lively]

theorem deletePagesOf_trims (h : Accounted ca) (hn : ca.networkRecords.lookup n = some cn)
    (hpages : cn.nReferencedPages = 0) :
    ∃ t, deletePagesOf ca n cn = some t ∧ Accounted t ∧ Trimmed ca t ∧
      ∀ a cp, t.pages.lookup a = some cp → cp.network ≠ n := by
  by_cases hcached : cn.nCachedPages > 0
  · obtain ⟨t, ht, hacc, htrim, hgone⟩ := deleteAllPages_trims h n
    refine ⟨t, by rw [deletePagesOf, if_pos hcached, ht], hacc, htrim, ?_⟩
    intro a cp ha hcp
    by_cases hfree : cp.refCount = 0
    · exact hgone a cp ha hfree hcp
    · have huse : inUse n cp = true := by simp [inUse, hcp, hfree]
      have hpos := tally_pos (htrim.pages a cp ha) huse
      rw [← (h.network n cn hn).referenced] at hpos
      omega
  · refine ⟨ca, by rw [deletePagesOf, if_neg hcached], h, Trimmed.refl ca, ?_⟩
    intro a cp ha hcp
    have hof : ofNetwork n cp = true := by simp [ofNetwork, hcp]
    have hpos := tally_pos ha hof
    rw [← (h.network n cn hn).cached] at hpos
    exact hcached hpos

theorem deleteNetwork_reduces (h : Accounted ca) (hn : ca.networkRecords.lookup n = some cn)
    (href : cn.refCount = 0) (hpages : cn.nReferencedPages = 0) :
    ∃ t, deleteNetwork ca n = some t ∧ Accounted t ∧ Reduced ca t ∧
      t.networks = ca.networks.erase n := by
  obtain ⟨s, hs, hacc, htrim, hnone⟩ := deletePagesOf_trims h hn hpages
  obtain ⟨cn', hn', href', hpages'⟩ := htrim.record n cn hn
  have hlively := (hacc.network n cn' hn').lively
  refine ⟨{ s with
    nCachedNetworks := s.nCachedNetworks - 1
    networks := s.networks.erase n
    networkRecords := s.networkRecords.erase n }, ?_, ?_, ?_, ?_⟩
  · simp [deleteNetwork, hn, hs, hn', hlively, href', hpages', href, hpages]
  · constructor
    · refine { hacc.linked with network := ?_, networkOnce := hacc.linked.networkOnce.erase n }
      intro m
      simp only [hacc.linked.networkOnce.mem_erase_iff, hacc.linked.network, lookup_erase_iff]
      grind
    · exact hacc.used
    · exact hacc.cached
    · intro m cm hm
      exact hacc.network m cm (lookup_erase_iff.mp hm).2
    · intro a cp ha
      have hold := hacc.page a cp ha
      obtain ⟨cm, hcm⟩ := hold.owner
      exact ⟨⟨cm, lookup_erase_iff.mpr ⟨hnone a cp ha, hcm⟩⟩, hold.number, hold.zombie,
        hold.room, hold.old⟩
    · intro m cm hm
      exact hacc.networkOld m cm (lookup_erase_iff.mp hm).2
  · exact ⟨htrim.pages, htrim.inUse, htrim.limit⟩
  · rw [htrim.networks]

theorem deleteSurplusNetworks_reduces (h : Accounted ca) :
    ∃ t, deleteSurplusNetworks ca = some t ∧ Accounted t ∧ Reduced ca t := by
  have loop : ∀ (row : List Addr) (s : VbiCache), Accounted s → row.Nodup →
      (∀ n ∈ row, n ∈ s.networks) →
      ∃ t, row.foldlM (fun ca n => do
        let cn ← ca.networkRecords.lookup n
        if cn.refCount > 0 ∨ cn.nReferencedPages > 0 then some ca
        else if cn.zombie ∨ ca.nCachedNetworks > ca.nNetworksLimit then deleteNetwork ca n
        else some ca) s = some t ∧ Accounted t ∧ Reduced s t := by
    intro row
    induction row with
    | nil => exact fun s hs _ _ => ⟨s, rfl, hs, Reduced.refl s⟩
    | cons n row ih =>
      intro s hs honce hsub
      obtain ⟨hnot, hrow⟩ := List.nodup_cons.mp honce
      obtain ⟨cn, hcn⟩ := (hs.linked.network n).mp (hsub n List.mem_cons_self)
      have hrest : ∀ m ∈ row, m ∈ s.networks := fun m hm => hsub m (List.mem_cons_of_mem n hm)
      simp only [List.foldlM_cons, hcn, Option.bind_eq_bind, Option.bind_some]
      split
      · exact ih s hs hrow hrest
      rename_i hidle
      split
      · obtain ⟨r, hr, hacc, hred, hnetworks⟩ :=
          deleteNetwork_reduces hs hcn (by omega) (by omega)
        have hrest' : ∀ m ∈ row, m ∈ r.networks := by
          intro m hm
          rw [hnetworks]
          refine hs.linked.networkOnce.mem_erase_iff.mpr ⟨?_, hrest m hm⟩
          rintro rfl
          exact hnot hm
        obtain ⟨t, ht, hacc', hred'⟩ := ih r hacc hrow hrest'
        simp only [hr, Option.bind_some]
        exact ⟨t, ht, hacc', hred.trans hred'⟩
      · exact ih s hs hrow hrest
  exact loop ca.networks.reverse ca h (List.nodup_reverse.mpr h.linked.networkOnce)
    fun n hn => List.mem_reverse.mp hn

theorem consistent_of_reduced (h : Reduced s t) (hs : Consistent s) (ht : Accounted t) :
    Consistent t := by
  refine ⟨ht, ?_, ?_⟩
  · rw [h.limit]
    exact BitVec.le_trans (h.used_le hs.toAccounted ht) hs.within
  · rw [h.limit]
    exact hs.limit

theorem allocateNetwork_accounted (h : Accounted ca) :
    Accounted { (allocateNetwork ca true).1 with networks := ca.top :: ca.networks } where
  linked := by
    refine { h.linked with network := ?_, networkOnce := ?_ }
    · intro m
      simp only [allocateNetwork, setNetwork, if_true, List.mem_cons, h.linked.network,
        lookup_insert_iff]
      grind
    · refine List.nodup_cons.mpr ⟨?_, h.linked.networkOnce⟩
      intro hmem
      obtain ⟨cn, hcn⟩ := (h.linked.network ca.top).mp hmem
      exact Nat.lt_irrefl _ (h.networkOld ca.top cn hcn)
  used := h.used
  cached := h.cached
  network m cm hm := by
    rcases lookup_insert_iff.mp hm with ⟨rfl, rfl⟩ | ⟨-, hold⟩
    · have hnone : ∀ a cp, ca.pages.lookup a = some cp → cp.network ≠ ca.top := by
        intro a cp ha htop
        obtain ⟨cn, hcn⟩ := (h.page a cp ha).owner
        rw [htop] at hcn
        exact Nat.lt_irrefl _ (h.networkOld ca.top cn hcn)
      constructor
      · refine (tally_eq_zero.mpr ?_).symm
        intro a cp ha
        simp [ofNetwork, hnone a cp ha]
      · refine (tally_eq_zero.mpr ?_).symm
        intro a cp ha
        simp [inUse, hnone a cp ha]
      · intro pgno
        have hzero : tally (ofNumber ca.top pgno) ca.pages = 0 := by
          apply tally_eq_zero.mpr
          intro a cp ha
          simp [ofNumber, hnone a cp ha]
        simp [CacheNetwork.clear, PageStat.clear, allocateNetwork, setNetwork, hzero]
      · rfl
    · exact h.network m cm hold
  page a cp ha := by
    have hold := h.page a cp ha
    obtain ⟨cm, hcm⟩ := hold.owner
    have hne : cp.network ≠ ca.top := by
      intro htop
      rw [htop] at hcm
      exact Nat.lt_irrefl _ (h.networkOld ca.top cm hcm)
    exact ⟨⟨cm, lookup_insert_iff.mpr (Or.inr ⟨hne, hcm⟩)⟩, hold.number, hold.zombie, hold.room,
      Nat.lt_succ_of_lt hold.old⟩
  networkOld m cm hm := by
    rcases lookup_insert_iff.mp hm with ⟨rfl, -⟩ | ⟨-, hold⟩
    · exact Nat.lt_succ_self _
    · exact Nat.lt_succ_of_lt (h.networkOld m cm hold)

/-- `recycle_network()` and the linking of the record it returns. -/
theorem recycleNetwork_keeps (h : Consistent ca) :
    recycleNetwork ca = some (ca, none) ∨
    ∃ t n, recycleNetwork ca = some (t, some n) ∧
      Consistent { t with networks := n :: t.networks } ∧ Part t.pages ca.pages ∧
      ∃ cn, t.networkRecords.lookup n = some cn := by
  cases hfind : ca.networks.reverse.find? (idle ca) with
  | none =>
    left
    simp only [recycleNetwork, hfind]
  | some n =>
    right
    have hidle := List.find?_some hfind
    have hmem : n ∈ ca.networks := List.mem_reverse.mp (List.mem_of_find?_eq_some hfind)
    obtain ⟨cn, hcn⟩ := (h.linked.network n).mp hmem
    simp only [idle, hcn, decide_eq_true_eq] at hidle
    obtain ⟨s, hs, hacc, htrim, hnone⟩ := deletePagesOf_trims h.toAccounted hcn hidle.2
    obtain ⟨cn', hn', -, -⟩ := htrim.record n cn hcn
    let fresh : CacheNetwork :=
      { cn' with
        refCount := 0, zombie := false, nCachedPages := 0, maxCachedPages := 0,
        nReferencedPages := 0 }
    have hfresh : NetworkAccounts s.pages n fresh := by
      constructor
      · refine (tally_eq_zero.mpr ?_).symm
        intro a cp ha
        simp [ofNetwork, hnone a cp ha]
      · refine (tally_eq_zero.mpr ?_).symm
        intro a cp ha
        simp [inUse, hnone a cp ha]
      · exact (hacc.network n cn' hn').subpages
      · rfl
    have hset := accounted_setNetwork hacc hn' hfresh
    have hperm : (n :: s.networks.erase n).Perm s.networks := by
      refine (List.perm_cons_erase ?_).symm
      rw [htrim.networks]
      exact hmem
    refine ⟨setNetwork { s with networks := s.networks.erase n } n fresh, n, ?_, ?_, htrim.pages,
      fresh, AList.lookup_insert _⟩
    · simp only [recycleNetwork, hfind, hcn, hs, hn', Option.bind_eq_bind, Option.bind_some, fresh]
    · have hred : Reduced ca (setNetwork s n fresh) :=
        ⟨htrim.pages, htrim.inUse, htrim.limit⟩
      have hcons := consistent_of_reduced hred h hset
      exact ⟨accounted_reorder hset hperm, hcons.within, hcons.limit⟩

theorem addNewNetwork_keeps (h : Consistent ca) (memory : Bool) :
    ∃ t r, addNewNetwork ca memory = some (t, r) ∧ Consistent t ∧ Part t.pages ca.pages ∧
      ∀ n, r = some n → ∃ cn, t.networkRecords.lookup n = some cn := by
  have hallocate : ∃ t r, enlist (allocateNetwork ca memory) = (t, r) ∧ Consistent t ∧
      Part t.pages ca.pages ∧ ∀ n, r = some n → ∃ cn, t.networkRecords.lookup n = some cn := by
    cases memory with
    | false => exact ⟨ca, none, rfl, h, fun _ _ ha => ha, by simp⟩
    | true =>
      refine ⟨_, _, rfl, ⟨allocateNetwork_accounted h.toAccounted, h.within, h.limit⟩,
        fun _ _ ha => ha, ?_⟩
      rintro n hn
      cases hn
      exact ⟨_, AList.lookup_insert _⟩
  obtain ⟨t, r, hnew, hkeeps⟩ := hallocate
  by_cases hroom : ca.nCachedNetworks < ca.nNetworksLimit
  · refine ⟨t, r, ?_, hkeeps⟩
    rw [addNewNetwork, if_pos hroom, hnew]
  rcases recycleNetwork_keeps h with hnone | ⟨s, n, hsome, hcons, hpart, hrecord⟩
  · refine ⟨t, r, ?_, hkeeps⟩
    simp only [addNewNetwork, if_neg hroom, hnone, Option.bind_eq_bind, Option.bind_some, hnew]
  · refine ⟨{ s with networks := n :: s.networks }, some n, ?_, hcons, hpart, ?_⟩
    · simp only [addNewNetwork, if_neg hroom, hsome, Option.bind_eq_bind, Option.bind_some, enlist]
    · rintro m hm
      cases hm
      exact hrecord

/-- `network_by_id()` only changes the order of the networks. -/
theorem networkById_keeps (h : Consistent ca) (nk : Addr) :
    networkById ca nk = none ∨ ∃ t, networkById ca nk = some (t, nk) ∧ Consistent t ∧
      t.pages = ca.pages ∧ ∃ cn, t.networkRecords.lookup nk = some cn := by
  by_cases hmem : nk ∈ ca.networks
  · right
    have hperm := (List.perm_cons_erase hmem).symm
    refine ⟨{ ca with networks := nk :: ca.networks.erase nk }, ?_, ?_, rfl,
      (h.linked.network nk).mp hmem⟩
    · rw [networkById, if_pos hmem]
    · exact ⟨accounted_reorder h.toAccounted hperm, h.within, h.limit⟩
  · left
    rw [networkById, if_neg hmem]

theorem consistent_networkRefs (h : Consistent ca) (hn : ca.networkRecords.lookup n = some cn)
    (refCount : Nat) : Consistent (setNetwork ca n { cn with refCount := refCount }) := by
  have hterms : NetworkAccounts ca.pages n { cn with refCount := refCount } :=
    networkAccounts_terms (h.network n cn hn) rfl rfl (fun _ => rfl) rfl
  exact ⟨accounted_setNetwork h.toAccounted hn hterms, h.within, h.limit⟩

theorem networkRef_keeps (h : Consistent ca) (hn : ca.networkRecords.lookup n = some cn) :
    ∃ t, cacheNetworkRef ca n = some t ∧ Consistent t ∧ t.pages = ca.pages := by
  refine ⟨_, ?_, consistent_networkRefs h hn ((cn.refCount + 1) % 2 ^ 32), rfl⟩
  simp only [cacheNetworkRef, hn, Option.bind_eq_bind, Option.bind_some]

theorem addNetwork_keeps (h : Consistent ca) (nk : Option Addr) (memory : Bool) :
    ∃ t r, vbiCacheAddNetwork ca nk memory = some (t, r) ∧ Consistent t ∧ NoNewVersions ca t := by
  have hfound : ∃ t r, addNetwork ca nk memory = some (t, r) ∧ Consistent t ∧
      Part t.pages ca.pages ∧ ∀ n, r = some n → ∃ cn, t.networkRecords.lookup n = some cn := by
    cases nk with
    | none => exact addNewNetwork_keeps h memory
    | some nk =>
      simp only [addNetwork, Option.bind_some]
      rcases networkById_keeps h nk with hnone | ⟨t, hsome, hcons, hpages, hrecord⟩
      · simp only [hnone]
        exact addNewNetwork_keeps h memory
      · simp only [hsome]
        refine ⟨t, some nk, rfl, hcons, fun _ _ ha => hpages ▸ ha, ?_⟩
        rintro n hn
        cases hn
        exact hrecord
  obtain ⟨s, r, hs, hcons, hpart, hrecord⟩ := hfound
  simp only [vbiCacheAddNetwork, hs, Option.bind_eq_bind, Option.bind_some]
  cases r with
  | none => exact ⟨s, none, rfl, hcons, noNewVersions_of_pages hpart⟩
  | some n =>
    obtain ⟨cn, hcn⟩ := hrecord n rfl
    obtain ⟨t, ht, hcons', hpages⟩ := networkRef_keeps hcons hcn
    refine ⟨t, some n, by simp only [ht, Option.map_some], hcons', ?_⟩
    exact noNewVersions_of_pages fun a cp ha => hpart a cp (hpages ▸ ha)

theorem revive_eq (h : Accounted ca) (hn : ca.networkRecords.lookup n = some cn) :
    revive ca n cn = (ca, cn) := by
  simp only [revive, (h.network n cn hn).lively, Bool.false_eq_true, if_false]

theorem getNetwork_keeps (h : Consistent ca) (nk : Addr) :
    ∃ t r, vbiCacheGetNetwork ca nk = some (t, r) ∧ Consistent t ∧ NoNewVersions ca t := by
  rcases networkById_keeps h nk with hnone | ⟨s, hsome, hcons, hpages, cn, hcn⟩
  · refine ⟨ca, none, ?_, h, noNewVersions_of_pages fun _ _ ha => ha⟩
    simp only [vbiCacheGetNetwork, hnone]
  · obtain ⟨t, ht, hcons', hpages'⟩ := networkRef_keeps hcons hcn
    refine ⟨t, some nk, ?_, hcons', noNewVersions_of_pages fun _ _ ha => ?_⟩
    · simp only [vbiCacheGetNetwork, hsome, hcn, Option.bind_eq_bind, Option.bind_some,
        revive_eq hcons.toAccounted hcn, ht, Option.map_some]
    · rw [hpages', hpages] at ha
      exact ha

theorem networkUnref_keeps (h : Consistent ca) (hn : ca.networkRecords.lookup n = some cn) :
    ∃ t, cacheNetworkUnref ca n = some t ∧ Consistent t ∧ NoNewVersions ca t := by
  simp only [cacheNetworkUnref, hn, Option.bind_eq_bind, Option.bind_some]
  split
  · exact ⟨ca, rfl, h, noNewVersions_of_pages fun _ _ ha => ha⟩
  split
  · have hset := consistent_networkRefs h hn 0
    obtain ⟨t, ht, hacc, hred⟩ := deleteSurplusNetworks_reduces hset.toAccounted
    exact ⟨t, ht, consistent_of_reduced hred hset hacc, noNewVersions_of_pages hred.pages⟩
  · exact ⟨_, rfl, consistent_networkRefs h hn _, noNewVersions_of_pages fun _ _ ha => ha⟩

theorem setPageType_keeps (h : Consistent ca) (hn : ca.networkRecords.lookup n = some cn)
    (pgno : Nat) (pageType : UInt8) :
    ∃ t, setPageType ca n pgno pageType = some t ∧ Consistent t ∧ NoNewVersions ca t := by
  have hterms : NetworkAccounts ca.pages n { cn with
      pageStat :=
        Function.update cn.pageStat pgno { cn.pageStat pgno with pageType := pageType } } := by
    refine networkAccounts_terms (h.network n cn hn) rfl rfl ?_ rfl
    intro number
    by_cases hnumber : number = pgno
    · subst hnumber
      simp only [Function.update_self]
    · simp only [Function.update_of_ne hnumber]
  refine ⟨_, ?_, ⟨accounted_setNetwork h.toAccounted hn hterms, h.within, h.limit⟩,
    noNewVersions_of_pages fun _ _ ha => ha⟩
  simp only [setPageType, hn, Option.bind_eq_bind, Option.bind_some]

/-- A page changes its reference count, and its network the number of pages in
use with it. -/
theorem networkAccounts_recount
    (h : NetworkAccounts pages n cn) (ha : pages.lookup a = some cp)
    (refCount : Nat) (hcached : cn'.nCachedPages = cn.nCachedPages)
    (hstat : cn'.pageStat = cn.pageStat) (hzombie : cn'.zombie = cn.zombie)
    (huse : cn'.nReferencedPages + (if inUse n cp then 1 else 0) =
      cn.nReferencedPages + if inUse n { cp with refCount := refCount } then 1 else 0) :
    NetworkAccounts (pages.insert a { cp with refCount := refCount }) n cn' := by
  constructor
  · have hsame : tally (ofNetwork n) (pages.insert a { cp with refCount := refCount }) =
        tally (ofNetwork n) pages := tally_insert_same _ ha rfl
    rw [hcached, h.cached, hsame]
  · have htotal := total_insert_old (fun r => if inUse n r then 1 else 0)
      { cp with refCount := refCount } ha
    have hold := h.referenced
    simp only [tally] at hold ⊢
    omega
  · intro pgno
    have hsame : tally (ofNumber n pgno) (pages.insert a { cp with refCount := refCount }) =
        tally (ofNumber n pgno) pages := tally_insert_same _ ha rfl
    rw [hstat, h.subpages, hsame]
  · rw [hzombie, h.lively]

/-- The properties of the pages survive new counts and terms. -/
theorem pageFits_recount (h : Accounted ca)
    (ha : ca.pages.lookup a = some cp) {b : Addr} {page : CachePage}
    (hb : t.pages.lookup b = some page)
    (hpages : t.pages = ca.pages.insert a { cp with refCount := refCount })
    (hzombie : cp.priority = .zombie → refCount ≠ 0) (htop : t.top = ca.top)
    (hrecords : ∀ n, (∃ cn, ca.networkRecords.lookup n = some cn) →
      ∃ cn, t.networkRecords.lookup n = some cn) : PageFits t b page := by
  rw [hpages] at hb
  rcases lookup_insert_iff.mp hb with ⟨rfl, rfl⟩ | ⟨-, hold⟩
  · have hfits := h.page b cp ha
    exact ⟨hrecords _ hfits.owner, hfits.number, hzombie, hfits.room, htop ▸ hfits.old⟩
  · have hfits := h.page b page hold
    exact ⟨hrecords _ hfits.owner, hfits.number, hfits.zombie, hfits.room, htop ▸ hfits.old⟩

theorem accounted_recount (h : Accounted ca) (ha : ca.pages.lookup a = some cp)
    (huse : cp.refCount ≠ 0) (hcount : refCount ≠ 0) :
    Accounted (setPage ca a { cp with refCount := refCount }) where
  linked := by
    have hlinked := h.linked
    refine { hlinked with priority := ?_, referenced := ?_, chain := ?_ }
    · intro b
      simp only [setPage, hlinked.priority, exists_lookup_insert]
      rcases eq_or_ne b a with rfl | hb
      · simp [ha, huse, hcount]
      · simp [hb]
    · intro b
      simp only [setPage, hlinked.referenced, exists_lookup_insert]
      rcases eq_or_ne b a with rfl | hb
      · simp [ha, huse, hcount]
      · simp [hb]
    · intro c b
      simp only [setPage, hlinked.chain, exists_lookup_insert]
      rcases eq_or_ne b a with rfl | hb
      · simp [ha]
      · simp [hb]
  used := by
    have hsame : total unreferencedSize (ca.pages.insert a { cp with refCount := refCount }) =
        total unreferencedSize ca.pages :=
      total_insert_same _ ha (by simp only [unreferencedSize, if_neg huse, if_neg hcount])
    exact h.used.trans hsame.symm
  cached := h.cached.trans (tally_insert_same _ ha rfl).symm
  network n cn hn := by
    refine networkAccounts_recount (h.network n cn hn) ha refCount rfl rfl rfl ?_
    simp [inUse, huse, hcount]
  page b page hb := by
    exact pageFits_recount h ha hb rfl (fun _ => hcount) rfl fun _ hn => hn
  networkOld := h.networkOld

theorem nodup_requeue (h : l.Nodup) (a : Addr) : (l.erase a ++ [a]).Nodup :=
  List.nodup_append_comm.mp (List.nodup_cons.mpr ⟨h.not_mem_erase, h.erase a⟩)

theorem mem_requeue (h : l.Nodup) (a b : Addr) :
    b ∈ l.erase a ++ [a] ↔ b = a ∨ b ≠ a ∧ b ∈ l := by
  rw [List.mem_append, List.mem_singleton, h.mem_erase_iff, or_comm]

theorem accounted_moved (h : Accounted ca) (ha : ca.pages.lookup a = some cp)
    (hn : ca.networkRecords.lookup cp.network = some cn) {count : Nat} {memoryUsed : BitVec 64}
    {priority referenced : List Addr} (hzombie : cp.priority = .zombie → refCount ≠ 0)
    (hpriority : ∀ b, b ∈ priority ↔ b = a ∧ refCount = 0 ∨ b ≠ a ∧ b ∈ ca.priority)
    (hreferenced : ∀ b, b ∈ referenced ↔ b = a ∧ refCount ≠ 0 ∨ b ≠ a ∧ b ∈ ca.referenced)
    (hpriorityOnce : priority.Nodup) (hreferencedOnce : referenced.Nodup)
    (hused : memoryUsed.toNat =
      total unreferencedSize (ca.pages.insert a { cp with refCount := refCount }))
    (hcount : count + (if inUse cp.network cp then 1 else 0) = cn.nReferencedPages +
      if inUse cp.network { cp with refCount := refCount } then 1 else 0) :
    Accounted { ca with
      pages := ca.pages.insert a { cp with refCount := refCount }
      networkRecords := ca.networkRecords.insert cp.network { cn with nReferencedPages := count }
      memoryUsed := memoryUsed
      priority := priority
      referenced := referenced } where
  linked := by
    have hlinked := h.linked
    refine { hlinked with
      priority := ?_, referenced := ?_, chain := ?_, network := ?_,
      priorityOnce := hpriorityOnce, referencedOnce := hreferencedOnce }
    · intro b
      simp only [hpriority, hlinked.priority, exists_lookup_insert]
    · intro b
      simp only [hreferenced, hlinked.referenced, exists_lookup_insert]
    · intro c b
      simp only [hlinked.chain, exists_lookup_insert]
      rcases eq_or_ne b a with rfl | hb
      · simp [ha]
      · simp [hb]
    · intro n
      simp only [hlinked.network, lookup_insert_iff]
      grind
  used := hused
  cached := h.cached.trans (tally_insert_same _ ha rfl).symm
  network n cm hm := by
    rcases lookup_insert_iff.mp hm with ⟨rfl, rfl⟩ | ⟨hne, hold⟩
    · exact networkAccounts_recount (h.network _ cn hn) ha refCount rfl rfl rfl hcount
    · refine networkAccounts_recount (h.network n cm hold) ha refCount rfl rfl rfl ?_
      simp [inUse, hne.symm]
  page b page hb := by
    refine pageFits_recount h ha hb rfl hzombie rfl ?_
    rintro n ⟨cm, hcm⟩
    by_cases hne : n = cp.network
    · exact ⟨_, lookup_insert_iff.mpr (Or.inl ⟨hne, rfl⟩)⟩
    · exact ⟨cm, lookup_insert_iff.mpr (Or.inr ⟨hne, hcm⟩)⟩
  networkOld n cm hm := by
    rcases lookup_insert_iff.mp hm with ⟨rfl, -⟩ | ⟨-, hold⟩
    · exact h.networkOld _ cn hn
    · exact h.networkOld n cm hold

theorem accounted_take (h : Accounted ca) (ha : ca.pages.lookup a = some cp)
    (hfree : cp.refCount = 0) (hn : ca.networkRecords.lookup cp.network = some cn)
    (hcount : refCount ≠ 0) :
    Accounted { ca with
      pages := ca.pages.insert a { cp with refCount := refCount }
      networkRecords := ca.networkRecords.insert cp.network
        { cn with nReferencedPages := cn.nReferencedPages + 1 }
      memoryUsed := ca.memoryUsed - BitVec.ofNat 64 (cachePageSize cp.toTtxPage)
      priority := ca.priority.erase a
      referenced := ca.referenced.erase a ++ [a] } := by
  refine accounted_moved h ha hn (fun _ => hcount) ?_ ?_ (h.linked.priorityOnce.erase a)
    (nodup_requeue h.linked.referencedOnce a) ?_ ?_
  · intro b
    simp [h.linked.priorityOnce.mem_erase_iff, hcount]
  · intro b
    simp only [mem_requeue h.linked.referencedOnce, hcount, ne_eq, not_false_eq_true, and_true]
  · have htotal := total_insert_old unreferencedSize { cp with refCount := refCount } ha
    have hsize : unreferencedSize cp = cachePageSize cp.toTtxPage := if_pos hfree
    have hzero : unreferencedSize { cp with refCount := refCount } = 0 := if_neg hcount
    have hused := h.used
    have hlt := ca.memoryUsed.isLt
    simp only [BitVec.toNat_sub, BitVec.toNat_ofNat]
    omega
  · simp [inUse, hfree, hcount]

/-- The last reference to a page in the cache is given back. -/
theorem accounted_release (h : Accounted ca) (ha : ca.pages.lookup a = some cp)
    (huse : cp.refCount ≠ 0) (hlive : cp.priority ≠ .zombie)
    (hn : ca.networkRecords.lookup cp.network = some cn)
    (hroom : ca.memoryUsed.toNat + cachePageSize cp.toTtxPage < 2 ^ 64) :
    Accounted { ca with
      pages := ca.pages.insert a { cp with refCount := 0 }
      networkRecords := ca.networkRecords.insert cp.network
        { cn with nReferencedPages := cn.nReferencedPages - 1 }
      memoryUsed := ca.memoryUsed + BitVec.ofNat 64 (cachePageSize cp.toTtxPage)
      priority := ca.priority.erase a ++ [a]
      referenced := ca.referenced.erase a } := by
  refine accounted_moved h ha hn (fun hz => absurd hz hlive) ?_ ?_
    (nodup_requeue h.linked.priorityOnce a) (h.linked.referencedOnce.erase a) ?_ ?_
  · intro b
    simp only [mem_requeue h.linked.priorityOnce, and_true]
  · intro b
    simp [h.linked.referencedOnce.mem_erase_iff]
  · have htotal := total_insert_old unreferencedSize { cp with refCount := 0 } ha
    have hsize : unreferencedSize { cp with refCount := 0 } = cachePageSize cp.toTtxPage :=
      if_pos rfl
    have hzero : unreferencedSize cp = 0 := if_neg huse
    have hused := h.used
    simp only [BitVec.toNat_add, BitVec.toNat_ofNat]
    omega
  · have hinUse : inUse cp.network cp = true := by simp [inUse, huse]
    have hpos := tally_pos ha hinUse
    have hreferenced := (h.network _ cn hn).referenced
    simp only [hinUse, if_true]
    simp [inUse]
    omega

/-- The last reference to a zombie is given back. -/
theorem accounted_bury (h : Accounted ca) (ha : ca.pages.lookup a = some cp)
    (huse : cp.refCount ≠ 0) (hdead : cp.priority = .zombie)
    (hn : ca.networkRecords.lookup cp.network = some cn) :
    Accounted { ca with
      pages := ca.pages.erase a
      networkRecords := ca.networkRecords.insert cp.network
        { networkWithout cn cp.pgno with nReferencedPages := cn.nReferencedPages - 1 }
      priority := ca.priority.erase a
      referenced := ca.referenced.erase a
      nCachedPages := ca.nCachedPages - 1 } where
  linked := by
    have hlinked := h.linked
    have hnot : a ∉ ca.priority := by
      intro hmem
      obtain ⟨cp', hcp', hfree⟩ := (hlinked.priority a).mp hmem
      rw [ha] at hcp'
      cases hcp'
      exact huse hfree
    constructor
    · intro b
      simp only [hlinked.priorityOnce.mem_erase_iff, hlinked.priority, lookup_erase_iff]
      grind
    · intro b
      simp only [hlinked.referencedOnce.mem_erase_iff, hlinked.referenced, lookup_erase_iff]
      grind
    · intro c b
      simp only [hlinked.chain, lookup_erase_iff]
      grind
    · intro n
      simp only [hlinked.network, lookup_insert_iff]
      grind
    · exact hlinked.priorityOnce.erase a
    · exact hlinked.referencedOnce.erase a
    · exact hlinked.chainOnce
    · exact hlinked.networkOnce
  used := by
    have htotal := total_erase (f := unreferencedSize) ha
    have hzero : unreferencedSize cp = 0 := if_neg huse
    have hused := h.used
    simp only
    omega
  cached := by
    simp [tally_erase ha, h.cached]
  network n cm hm := by
    rcases lookup_insert_iff.mp hm with ⟨rfl, rfl⟩ | ⟨hne, hold⟩
    · have hacc := h.network _ cn hn
      have hinUse : inUse cp.network cp = true := by simp [inUse, huse]
      constructor
      · have hof : ofNetwork cp.network cp = true := by simp [ofNetwork]
        simp [tally_erase ha, hof, networkWithout, hacc.cached]
      · simp [tally_erase ha, hinUse, hacc.referenced]
      · exact hacc.subpages_without ha rfl
      · exact hacc.lively
    · exact (h.network n cm hold).erase_other ha hne.symm
  page b page hb := by
    have hfits := h.page b page (lookup_erase_iff.mp hb).2
    refine ⟨?_, hfits.number, hfits.zombie, hfits.room, hfits.old⟩
    obtain ⟨cm, hcm⟩ := hfits.owner
    by_cases hne : page.network = cp.network
    · exact ⟨_, lookup_insert_iff.mpr (Or.inl ⟨hne, rfl⟩)⟩
    · exact ⟨cm, lookup_insert_iff.mpr (Or.inr ⟨hne, hcm⟩)⟩
  networkOld n cm hm := by
    rcases lookup_insert_iff.mp hm with ⟨rfl, -⟩ | ⟨-, hold⟩
    · exact h.networkOld _ cn hn
    · exact h.networkOld n cm hold

theorem noNewVersions_recount (ha : s.pages.lookup a = some cp)
    (hpages : Part t.pages (s.pages.insert a { cp with refCount := refCount })) :
    NoNewVersions s t := by
  intro b page hb
  rcases lookup_insert_iff.mp (hpages b page hb) with ⟨rfl, rfl⟩ | ⟨-, hold⟩
  · exact ⟨cp, ha, rfl, rfl, id⟩
  · exact ⟨page, hold, rfl, rfl, id⟩

theorem cachePageRef_keeps (h : Consistent ca) (ha : ca.pages.lookup a = some cp)
    (hcount : cp.refCount + 1 < 2 ^ 32) :
    ∃ t, cachePageRef ca a = some t ∧ Consistent t ∧
      t.pages = ca.pages.insert a { cp with refCount := cp.refCount + 1 } := by
  have hmod : (cp.refCount + 1) % 2 ^ 32 = cp.refCount + 1 := Nat.mod_eq_of_lt hcount
  have hpos : cp.refCount + 1 ≠ 0 := Nat.succ_ne_zero cp.refCount
  by_cases hfree : cp.refCount = 0
  · obtain ⟨cn, hn⟩ := (h.page a cp ha).owner
    have htake := accounted_take h.toAccounted ha hfree hn hpos
    refine ⟨_, ?_, ⟨htake, ?_, h.limit⟩, rfl⟩
    · simp only [cachePageRef, ha, if_pos hfree, hn, revive_eq h.toAccounted hn,
        Option.bind_eq_bind, Option.bind_some, hmod, setNetwork, unlinkPri, setPage]
    · have hused := htake.used
      have htotal := total_insert_old unreferencedSize { cp with refCount := cp.refCount + 1 } ha
      have hzero : unreferencedSize { cp with refCount := cp.refCount + 1 } = 0 :=
        if_neg hpos
      have hwithin := h.within
      have hbefore := h.used
      rw [BitVec.le_def] at hwithin ⊢
      simp only at hused ⊢
      omega
  · refine ⟨_, ?_, ⟨accounted_recount h.toAccounted ha hfree hpos,
      h.within, h.limit⟩, rfl⟩
    simp only [cachePageRef, ha, if_neg hfree, Option.bind_eq_bind, Option.bind_some, hmod]

theorem pageRelease_keeps (h : Consistent ca) (ha : ca.pages.lookup a = some cp)
    (huse : cp.refCount ≠ 0) :
    ∃ t, pageRelease ca a cp = some t ∧ Consistent t ∧ NoNewVersions ca t := by
  obtain ⟨cn, hn⟩ := (h.page a cp ha).owner
  have hvalid := (h.page a cp ha).number
  have hlively := (h.network _ cn hn).lively
  -- the rest of the function, from the state in which the page is released
  have finish : ∀ s, Accounted s → s.memoryLimit = ca.memoryLimit → NoNewVersions ca s →
      ∃ t, (if s.memoryUsed > s.memoryLimit then deleteSurplusPages s else some s) = some t ∧
        Consistent t ∧ NoNewVersions ca t := by
    intro s hs hlimit hnew
    split
    · obtain ⟨t, ht, hacc, htrim, hle⟩ := deleteSurplusPages_trims hs
      refine ⟨t, ht, ⟨hacc, hle, ?_⟩, hnew.trans (noNewVersions_of_pages htrim.pages)⟩
      rw [htrim.limit, hlimit]
      exact h.limit
    · rename_i hle
      exact ⟨s, rfl, ⟨hs, BitVec.not_lt.mp hle, hlimit ▸ h.limit⟩, hnew⟩
  by_cases hdead : cp.priority = .zombie
  · have hbury := accounted_bury h.toAccounted ha huse hdead hn
    obtain ⟨t, ht, hcons, hnew⟩ := finish _ hbury rfl
      (noNewVersions_of_pages fun b page hb => (lookup_erase_iff.mp hb).2)
    refine ⟨t, ?_, hcons, hnew⟩
    rw [← ht]
    simp [pageRelease, setPage, deletePage, hdead, unlinkPri, cacheNetworkRemovePage, hn, hvalid,
      setNetwork, networkWithout, hlively]
  · have hsize : cachePageSize cp.toTtxPage ≤ sizeofCachePage := cachePageSize_le cp.toTtxPage
    have hwithin := h.within
    have hlimit := h.limit
    rw [BitVec.le_def] at hwithin
    have hroom : ca.memoryUsed.toNat + cachePageSize cp.toTtxPage < 2 ^ 64 := by
      have hconst : sizeofCachePage < 2 ^ 13 := by decide
      omega
    have hrelease := accounted_release h.toAccounted ha huse hdead hn hroom
    obtain ⟨t, ht, hcons, hnew⟩ := finish _ hrelease rfl
      (noNewVersions_recount ha fun _ _ hb => hb)
    refine ⟨t, ?_, hcons, hnew⟩
    rw [← ht]
    simp [pageRelease, setPage, hdead, unlinkPri, hn, setNetwork, hlively]

theorem cachePageUnref_keeps (h : Consistent ca) (ha : ca.pages.lookup a = some cp) :
    ∃ t, cachePageUnref ca a = some t ∧ Consistent t ∧ NoNewVersions ca t := by
  simp only [cachePageUnref, ha, Option.bind_eq_bind, Option.bind_some]
  split
  · exact ⟨ca, rfl, h, noNewVersions_of_pages fun _ _ hb => hb⟩
  rename_i huse
  split
  · exact pageRelease_keeps h ha huse
  · have hcount : cp.refCount - 1 ≠ 0 := by omega
    exact ⟨_, rfl, ⟨accounted_recount h.toAccounted ha huse hcount, h.within, h.limit⟩,
      noNewVersions_recount ha fun _ _ hb => hb⟩

/-- A search changes the order of a chain, and finds a version of the page. -/
theorem pageByPgno_keeps (h : Accounted ca) (n : Addr) (pgno subno mask : Nat) :
    (pageByPgno ca n pgno subno mask = (ca, none) ∧
      ∀ a ∈ ca.hash (hashOf pgno), matchesPage ca n pgno subno mask a = false) ∨
    ∃ hash a cp, pageByPgno ca n pgno subno mask = ({ ca with hash := hash }, some a) ∧
      (∀ c, (hash c).Perm (ca.hash c)) ∧ ca.pages.lookup a = some cp ∧ cp.priority ≠ .zombie ∧
      cp.pgno = pgno ∧ cp.subno &&& mask = subno &&& mask ∧ cp.network = n := by
  cases hfind : (ca.hash (hashOf pgno)).find? (matchesPage ca n pgno subno mask) with
  | none =>
    left
    refine ⟨by simp only [pageByPgno, hfind], ?_⟩
    intro a ha
    simpa using List.find?_eq_none.mp hfind a ha
  | some a =>
    right
    have hmem := List.mem_of_find?_eq_some hfind
    have hmatch := List.find?_some hfind
    obtain ⟨cp, hcp, hlive, -⟩ := (h.linked.chain _ a).mp hmem
    simp only [matchesPage, hcp, decide_eq_true_eq] at hmatch
    obtain ⟨hpgno, hsubno, hnetwork⟩ := hmatch
    refine ⟨_, a, cp, by simp only [pageByPgno, hfind, addHeadHash, unlinkHash]; rfl, ?_, hcp,
      hlive, hpgno, hsubno, hnetwork⟩
    intro c
    by_cases hc : c = hashOf pgno
    · subst hc
      simp only [Function.update_self]
      exact (List.perm_cons_erase hmem).symm
    · simp only [Function.update_of_ne hc, List.Perm.refl]

/-- The page `_vbi_cache_get_page()` finds for a valid page number. -/
def pageFound (ca : VbiCache) (n : Addr) (pgno subno mask : Nat) : Option Addr :=
  (pageByPgno ca n pgno subno (if subno = anySubno then 0 else mask)).2

theorem vbiCacheGetPage_keeps (h : Consistent ca) (n : Addr)
    (pgno subno mask : Nat)
    (hcount : ∀ a ∈ pageFound ca n pgno subno mask, ∀ cp ∈ ca.pages.lookup a,
      cp.refCount + 1 < 2 ^ 32) :
    ∃ t r, vbiCacheGetPage ca n pgno subno mask = some (t, r) ∧ Consistent t ∧
      NoNewVersions ca t ∧ ∀ a, r = some a → ∃ cp old, t.pages.lookup a = some cp ∧
        ca.pages.lookup a = some old ∧ cp = { old with refCount := old.refCount + 1 } ∧
        old.network = n ∧
        old.priority ≠ .zombie ∧ old.pgno = pgno ∧
        (subno ≠ anySubno → old.subno &&& mask = subno &&& mask) := by
  have hnothing : ∃ t r, some (ca, (none : Option Addr)) = some (t, r) ∧ Consistent t ∧
      NoNewVersions ca t ∧ ∀ a, r = some a → ∃ cp old, t.pages.lookup a = some cp ∧
        ca.pages.lookup a = some old ∧ cp = { old with refCount := old.refCount + 1 } ∧
        old.network = n ∧
        old.priority ≠ .zombie ∧ old.pgno = pgno ∧
        (subno ≠ anySubno → old.subno &&& mask = subno &&& mask) :=
    ⟨ca, none, rfl, h, noNewVersions_of_pages fun _ _ hb => hb, by simp⟩
  by_cases hinvalid : pgno < 0x100 ∨ pgno > 0x8FF ∨ pgno &&& 0xFF = 0xFF
  · simpa only [vbiCacheGetPage, if_pos hinvalid] using hnothing
  simp only [vbiCacheGetPage, if_neg hinvalid]
  rcases pageByPgno_keeps h.toAccounted n pgno subno (if subno = anySubno then 0 else mask) with
    ⟨hnone, -⟩ | ⟨hash, a, cp, hsome, hperm, ha, hlive, hpgno, hsubno, hnetwork⟩
  · simpa only [hnone] using hnothing
  · have hmoved : Consistent { ca with hash := hash } :=
      ⟨accounted_rehash h.toAccounted hperm, h.within, h.limit⟩
    have hfound : pageFound ca n pgno subno mask = some a := by
      simp only [pageFound, hsome]
    obtain ⟨t, ht, hcons, hpages⟩ := cachePageRef_keeps hmoved ha (hcount a hfound cp ha)
    refine ⟨t, some a, by simp only [hsome, ht, Option.map_some], hcons, ?_, ?_⟩
    · exact noNewVersions_recount ha fun b page hb => by rw [hpages] at hb; exact hb
    · intro b hb
      cases hb
      have hfound : t.pages.lookup a = some { cp with refCount := cp.refCount + 1 } := by
        rw [hpages]
        exact AList.lookup_insert _
      refine ⟨_, cp, hfound, ha, rfl, hnetwork, hlive, hpgno, ?_⟩
      intro hany
      simpa only [if_neg hany] using hsubno

end PageCacheReferences

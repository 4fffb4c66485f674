import Zvbi.GuardedRuns
import Zvbi.TeletextStation

/-!
# Page references of the Teletext decoder

Between packets no page is in use, and during a packet at most one. Each function returns
the page it took from the cache, except that a page with DRCS is stored and not released.
-/

namespace TeletextReferences
open Hamming TeletextHeader TeletextLop TeletextStation
open RecordHeap (Heap)
open PageCache (VbiCache Addr TtxPage validPgno)
open PageCacheReferences (Consistent)
open PageCacheCounts

variable {Client Links Rest : Type} {env : Environment Client Links Rest}

def refsOf : Option Addr → Addr → Nat
  | none => fun _ => 0
  | some a => Function.update (fun _ => 0) a 1

theorem update_refsOf (a : Addr) : Function.update (refsOf (some a)) a 0 = refsOf none := by
  have hidem : Function.update (refsOf (some a)) a 0 = Function.update (fun _ => 0) a 0 :=
    Function.update_idem 1 0 fun _ => 0
  exact hidem.trans (Function.update_eq_self a fun _ => 0)

structure Holds (held : Option Addr) (ca : VbiCache) (n : Addr) : Prop where
  consistent : Consistent ca
  page : pageRefs ca = refsOf held
  network : networkRefs ca n = 1

variable {held : Option Addr} {ca t : VbiCache} {n : Addr}

theorem Holds.same (h : Holds held ca n) (ht : Consistent t) (hsame : SameRefs ca t) :
    Holds held t n where
  consistent := ht
  page := hsame.page.trans h.page
  network := by rw [hsame.network, h.network]

variable {result : Option Addr} {mask pgno subno : Nat}

theorem Holds.returned (h : Holds none ca n) (ht : Consistent t)
    (hreturned : Returned ca t result) : Holds result t n := by
  cases result with
  | none => exact h.same ht hreturned
  | some a =>
    constructor
    · exact ht
    · rw [hreturned.page, h.page]
      rfl
    · rw [hreturned.network, h.network]

variable {a : Addr} {memory : Bool} {vtp : Page (PageData Rest)}

theorem Holds.released (h : Holds (some a) ca n) (ht : Consistent t) (hreleased : Released ca t a) :
    Holds none t n := by
  constructor
  · exact ht
  · rw [hreleased.page, h.page, update_refsOf]
  · rw [hreleased.network, h.network]

theorem Holds.record (h : Holds held ca n) : ∃ cn, ca.networkRecords.lookup n = some cn := by
  have hused : networkRefs ca n ≠ 0 := by
    rw [h.network]
    decide
  obtain ⟨cn, hn, -⟩ := lookup_of_networkRefs hused
  exact ⟨cn, hn⟩

structure Unreferenced (ca : VbiCache) : Prop where
  network : ∀ n cn, ca.networkRecords.lookup n = some cn → cn.nReferencedPages = 0
  page : ∀ a cp, ca.pages.lookup a = some cp → cp.refCount = 0 ∧ a ∈ ca.priority

theorem Holds.unreferenced (h : Holds none ca n) : Unreferenced ca := by
  have hcount : ∀ a cp, ca.pages.lookup a = some cp → cp.refCount = 0 := by
    intro a cp ha
    rw [← pageRefs_some ha, h.page]
    rfl
  constructor
  · intro m cn hm
    rw [(h.consistent.network m cn hm).referenced]
    rw [RecordHeap.tally_eq_zero]
    intro a cp ha
    simp only [PageCacheAccounts.inUse, hcount a cp ha, ne_eq, not_true, and_false,
      decide_false]
  · intro a cp ha
    exact ⟨hcount a cp ha, (h.consistent.linked.priority a).mpr ⟨cp, ha, hcount a cp ha⟩⟩

theorem putInto_holds {pageType : Nat} {cp : TtxPage} (h : Holds none ca n)
    (hpgno : validPgno cp.pgno) (hput : putInto ca n pageType cp memory = some (t, result)) :
    Holds result t n := by
  obtain ⟨s, hs, hput⟩ := Option.bind_eq_some_iff.mp hput
  obtain ⟨cn, hn⟩ := h.record
  obtain ⟨s', hs', hcons, -⟩ :=
    PageCacheReferences.setPageType_keeps h.consistent hn cp.pgno (UInt8.ofNat pageType)
  obtain rfl := Option.some.inj (hs.symm.trans hs')
  have hset := h.same hcons (setPageType_sameRefs hs)
  split at hput
  · rename_i hfits
    obtain ⟨cn', hn'⟩ := hset.record
    obtain ⟨t', r, ht', hcons', -, -⟩ :=
      PageCachePut.vbiCachePutPage_keeps hcons hn' hpgno hfits memory
    obtain ⟨rfl, rfl⟩ := Prod.mk.inj (Option.some.inj (hput.symm.trans ht'))
    exact hset.returned hcons' (vbiCachePutPage_refs hcons.toAccounted hput)
  · cases hput

theorem getPage_holds (h : Holds none ca n)
    (hget : PageCache.vbiCacheGetPage ca n pgno subno mask = some (t, result)) :
    Holds result t n := by
  have hfree : ∀ a, pageRefs ca a = 0 := fun a => by rw [h.page]; rfl
  have hcount : ∀ a ∈ PageCacheReferences.pageFound ca n pgno subno mask,
      ∀ cp ∈ ca.pages.lookup a, cp.refCount + 1 < 2 ^ 32 := by
    intro a _ cp hcp
    rw [← pageRefs_some hcp, hfree]
    norm_num
  obtain ⟨t', r, ht', hcons, -, -⟩ :=
    PageCacheReferences.vbiCacheGetPage_keeps h.consistent n pgno subno mask hcount
  obtain ⟨rfl, rfl⟩ := Prod.mk.inj (Option.some.inj (hget.symm.trans ht'))
  exact h.returned hcons (vbiCacheGetPage_refs h.consistent.toAccounted hfree hget)

theorem unref_holds (h : Holds (some a) ca n) (hunref : PageCache.cachePageUnref ca a = some t) :
    Holds none t n := by
  have hone : pageRefs ca a = 1 := by
    rw [h.page, refsOf, Function.update_self]
  have hused : pageRefs ca a ≠ 0 := by
    rw [hone]
    decide
  obtain ⟨cp, ha, -⟩ := lookup_of_pageRefs hused
  obtain ⟨t', ht', hcons, -⟩ := PageCacheReferences.cachePageUnref_keeps h.consistent ha
  obtain rfl := Option.some.inj (hunref.symm.trans ht')
  exact h.released hcons (cachePageUnref_refs hone hunref)

/-- Another network. The old one may be deleted. -/
theorem switch_holds {m : Addr} (h : Holds none ca n)
    (hswitch : ((PageCache.cacheNetworkUnref ca n).bind fun ca =>
      PageCache.vbiCacheAddNetwork ca none memory) = some (t, some m)) : Holds none t m := by
  obtain ⟨s, hs, hadd⟩ := Option.bind_eq_some_iff.mp hswitch
  obtain ⟨cn, hn⟩ := h.record
  obtain ⟨s', hs', hcons, -⟩ := PageCacheReferences.networkUnref_keeps h.consistent hn
  obtain rfl := Option.some.inj (hs.symm.trans hs')
  obtain ⟨t', r, ht', hcons', -⟩ := PageCacheReferences.addNetwork_keeps hcons none memory
  obtain ⟨rfl, rfl⟩ := Prod.mk.inj (Option.some.inj (hadd.symm.trans ht'))
  have hrefs := addNetwork_refs hadd
  constructor
  · exact hcons'
  · rw [hrefs.1, cacheNetworkUnref_refs hs, h.page]
  · exact hrefs.2 m rfl

def Settled (held : Option Addr) (w : World Client Links Rest) : Prop :=
  ∀ ca, w.other.cache = some ca → Holds held ca w.other.cn

variable {w w' : World Client Links Rest}

theorem Settled.of_cache (h : Settled held w) (hcache : w'.other.cache = w.other.cache)
    (hcn : w'.other.cn = w.other.cn) : Settled held w' := by
  intro ca hca
  rw [hcn]
  exact h ca (hcache.symm.trans hca)

theorem settled_of_none (h : w.other.cache = none) : Settled held w := by
  intro ca hca
  rw [h] at hca
  cases hca

theorem cachePut_settled (h : Settled none w) (hpgno : validPgno vtp.pgno.toNat) :
    Settled (cachePut env w vtp).2 (cachePut env w vtp).1 := by
  rw [cachePut]
  split
  · exact settled_of_none rfl
  all_goals
    rename_i hput
    obtain ⟨ca, hca, hput⟩ := Option.bind_eq_some_iff.mp hput
    intro s hs
    obtain rfl := Option.some.inj hs
    exact putInto_holds (h ca hca) hpgno hput

theorem cacheGet_settled (h : Settled none w) :
    Settled (cacheGet w pgno subno mask).2 (cacheGet w pgno subno mask).1 := by
  rw [cacheGet]
  split
  · exact settled_of_none rfl
  · rename_i hget
    obtain ⟨ca, hca, hget⟩ := Option.bind_eq_some_iff.mp hget
    intro s hs
    obtain rfl := Option.some.inj hs
    exact getPage_holds (h ca hca) hget

theorem release_settled (h : Settled held w) : Settled none (release w held) := by
  cases held with
  | none => exact h
  | some a =>
    intro t ht
    obtain ⟨ca, hca, hunref⟩ := Option.bind_eq_some_iff.mp ht
    exact unref_holds (h ca hca) hunref

theorem peekPage_settled (h : Settled none w) : Settled none (peekPage w pgno subno mask).1 :=
  release_settled (cacheGet_settled h)

theorem sendEvent_settled (env : Environment Client Links Rest) (event : Event)
    (h : Settled held w) : Settled held (sendEvent env w event) := by
  rw [sendEvent]
  split
  · exact h
  · rename_i ca hca
    have hheld := h ca hca
    have hbalanced := env.handlers.balanced w.other.client ca w.other.cn event
      hheld.consistent hheld.network
    intro t ht
    obtain rfl := Option.some.inj ht
    exact hheld.same hbalanced.1 hbalanced.2

def isDrcs (function : Int) : Prop := function = pageFunctionDrcs ∨ function = pageFunctionGdrcs

/-- The page of `store_lop()` is in use until its event is sent. -/
theorem putPage_settled (env : Environment Client Links Rest) (h : Settled none w)
    (hpgno : validPgno vtp.pgno.toNat) (hfunction : ¬ isDrcs vtp.function) :
    (vtp.function ≠ pageFunctionLop → Settled none (TeletextStation.putPage env w vtp).1) ∧
    (vtp.function = pageFunctionLop →
      Settled (TeletextStation.putPage env w vtp).1.other.newCp
        (TeletextStation.putPage env w vtp).1 ∧
      ((TeletextStation.putPage env w vtp).2 = false →
        Settled none (TeletextStation.putPage env w vtp).1)) := by
  have hput : Settled (cachePut env w vtp).2 (cachePut env w vtp).1 := cachePut_settled h hpgno
  rw [TeletextStation.putPage]
  dsimp only
  constructor
  · intro hlop
    rw [isDrcs] at hfunction
    rw [if_neg hlop, if_neg hfunction]
    exact release_settled hput
  · intro hlop
    rw [if_pos hlop]
    have hkept : Settled (cachePut env w vtp).2
        (setStation (cachePut env w vtp).1
          { (cachePut env w vtp).1.other with newCp := (cachePut env w vtp).2 }) :=
      hput.of_cache rfl rfl
    refine ⟨hkept, fun hnone => ?_⟩
    have hresult : (cachePut env w vtp).2 = none := Option.isSome_eq_false_iff.mp hnone |>
      Option.isNone_iff_eq_none.mp
    rw [hresult] at hkept ⊢
    exact hkept

theorem announcePage_settled {event : TtxPageEvent} (h : Settled w.other.newCp w) :
    Settled none (announcePage env w event) := by
  have hsent : Settled w.other.newCp (sendEvent env w (.ttxPage event)) :=
    sendEvent_settled env _ h
  have hnew : (sendEvent env w (.ttxPage event)).other.newCp = w.other.newCp := by
    rw [sendEvent]
    split
    · rfl
    · rfl
  rw [announcePage]
  dsimp only
  rw [hnew]
  exact release_settled (hsent.of_cache rfl rfl)

theorem updatePageStat_settled (h : Settled held w) (pgno : Int) (f : PageStat → PageStat) :
    Settled held (updatePageStat w pgno f) :=
  h.of_cache rfl rfl

theorem parseMipPage_settled (env : Environment Client Links Rest) (vtp : Page (PageData Rest))
    (h : Settled none w) (pgno code : Int) (index : Nat) :
    Settled none (parseMipPage env vtp w pgno code index).1 := by
  have hnoted : ∀ pageType subc, Settled none (notePage w pgno pageType subc) :=
    fun pageType subc => updatePageStat_settled h pgno _
  rw [parseMipPage]
  split
  · exact h
  split
  · exact h
  split
  · exact hnoted _ _
  split
  · -- subtitles, whose page may be in the cache
    have hpeeked : Settled none (noteSubtitles env w pgno) :=
      updatePageStat_settled (peekPage_settled h) pgno _
    exact updatePageStat_settled hpeeked pgno _
  split
  · split
    · exact h
    · split
      · exact h
      · exact hnoted _ _
  · exact hnoted _ _

theorem parseMipEntries_settled (env : Environment Client Links Rest)
    (vtp : Page (PageData Rest)) (entries : List (Int × Int)) (index : Nat)
    (h : Settled none w) : Settled none (parseMipEntries env vtp entries index w) := by
  induction entries generalizing index w with
  | nil => exact h
  | cons entry entries ih =>
    obtain ⟨offset, code⟩ := entry
    have hentry := parseMipPage_settled env vtp h (vtp.pgno / 256 % 16 * 256 + offset) code index
    rw [parseMipEntries]
    split
    · exact ih _ hentry
    · exact hentry

theorem bttEntry_settled (env : Environment Client Links Rest) (h : Settled none w)
    (pgno code : Int) : Settled none (bttEntry env w pgno code) := by
  rw [bttEntry]
  split
  · have htyped : Settled none
        (updatePageStat w pgno fun ps => { ps with pageType := vbiSubtitlePage }) :=
      updatePageStat_settled h pgno _
    exact updatePageStat_settled (peekPage_settled htyped) pgno _
  · exact updatePageStat_settled h pgno _

theorem bttTens_settled (env : Environment Client Links Rest) (buf : Packet) (count : Nat)
    (index byte : Nat) (h : Settled none w) :
    Settled none (bttTens env buf count index byte w).1 := by
  induction count generalizing index byte w with
  | zero => exact h
  | succ count ih =>
    rw [bttTens]
    split
    · exact h
    · exact ih _ _ (bttEntry_settled env h _ _)

theorem bttRow_settled (env : Environment Client Links Rest) (buf : Packet) (count : Nat)
    (index byte : Nat) (h : Settled none w) : Settled none (bttRow env buf count index byte w) := by
  induction count generalizing index byte w with
  | zero => exact h
  | succ count ih => exact ih _ _ (bttTens_settled env buf 10 index byte h)

theorem bttPageLink_settled (buf : Packet) (packet : Nat) (h : Settled none w) (i : Nat) :
    Settled none (bttPageLink buf packet w i) := by
  rw [bttPageLink]
  split
  · exact h
  · split
    · exact h.of_cache rfl rfl
    · exact h.of_cache rfl rfl

theorem parseBtt_settled (env : Environment Client Links Rest) (h : Settled none w) (packet : Nat)
    (buf : Packet) : Settled none (parseBtt env w packet buf) := by
  rw [parseBtt]
  split
  · exact bttRow_settled env buf 4 _ 0 h
  split
  · generalize List.range 5 = links
    induction links generalizing w with
    | nil => exact h
    | cons i links ih => exact ih (bttPageLink_settled buf packet h i)
  · exact h

theorem parseData_settled (env : Environment Client Links Rest) (h : Settled none w)
    (vtp : Page (PageData Rest)) (packet : Nat) (buf : Packet) :
    Settled none (parseData env w vtp packet buf).1 := by
  rw [parseData]
  split
  · exact parseBtt_settled env h packet buf
  · exact h.of_cache rfl rfl

theorem switchNetwork_settled (env : Environment Client Links Rest) (h : Settled none w) :
    Settled none (setStation w (switchNetwork env w.other)) := by
  intro t ht
  rw [setStation] at ht ⊢
  dsimp only at ht ⊢
  rw [switchNetwork] at ht ⊢
  split at ht
  · rename_i hswitch
    obtain ⟨ca, hca, hswitch⟩ := Option.bind_eq_some_iff.mp hswitch
    obtain rfl := Option.some.inj ht
    exact switch_holds (h ca hca) hswitch
  · cases ht

theorem vbiChswReset_settled (env : Environment Client Links Rest) (h : Settled none w)
    (identified : Nat) : Settled none (TeletextStation.vbiChswReset env identified w) := by
  have hswitched := switchNetwork_settled env h
  -- the events, each of which may be wanted or not
  have hsent : ∀ (v : World Client Links Rest) (p : Prop) [Decidable p] (event : Event),
      Settled none v → Settled none (if p then sendEvent env v event else v) := by
    intro v p _ event hv
    split
    · exact sendEvent_settled env event hv
    · exact hv
  rw [TeletextStation.vbiChswReset]
  dsimp only
  refine Settled.of_cache (hsent _ _ _ ?_) rfl rfl
  split
  · exact hsent _ _ _ (hswitched.of_cache rfl rfl)
  · exact hswitched.of_cache rfl rfl

theorem identifyNetwork_settled (env : Environment Client Links Rest) (h : Settled none w)
    (id : Nat) : Settled none (identifyNetwork env id w).1 := by
  have hchanged : ∀ (p : Prop) [Decidable p],
      Settled none (if p then TeletextStation.vbiChswReset env id w else w) := by
    intro p _
    split
    · exact vbiChswReset_settled env h id
    · exact h
  rw [identifyNetwork]
  dsimp only
  refine Settled.of_cache (sendEvent_settled env _ ?_) rfl rfl
  split
  · exact sendEvent_settled env _ ((hchanged _).of_cache rfl rfl)
  · exact hchanged _

theorem parseBsd_settled (env : Environment Client Links Rest) (h : Settled none w)
    (designation : Nat) (buf : Packet) : Settled none (parseBsd env w designation buf).1 := by
  -- format 1 and 2 have identifiers of their own
  have hformat : ∀ (kept w' : World Client Links Rest) (p q : Prop) [Decidable p] [Decidable q]
      (id : Nat), Settled none w' →
      Settled none (if p then (w', true, false)
        else if q then ((identifyNetwork env id w).1, true, (identifyNetwork env id w).2)
        else (w, true, false)).1 := by
    intro _ w' p q _ _ id hw'
    split
    · exact hw'
    split
    · exact identifyNetwork_settled env h id
    · exact h
  rw [parseBsd]
  dsimp only
  split
  · exact hformat w _ _ _ _ (h.of_cache rfl rfl)
  split
  · split
    · exact h
    · exact hformat w _ _ _ _ (h.of_cache rfl rfl)
  · exact h

theorem sendBroadcast_settled (env : Environment Client Links Rest) (h : Settled none w)
    (designation : Nat) (buf : Packet) :
    Settled none (sendBroadcast env w designation buf).1 := by
  have hsent : ∀ (wanted good : Bool) (event : Event),
      Settled none (if wanted = true then
        if good = true then (sendEvent env w event, true) else (w, false)
        else (w, true)).1 := by
    intro wanted good event
    split
    · split
      · exact sendEvent_settled env event h
      · exact h
    · exact h
  rw [sendBroadcast]
  split
  · exact hsent _ _ _
  · exact hsent _ _ _

theorem parse830_settled (env : Environment Client Links Rest) (h : Settled none w)
    (buf : Packet) : Settled none (parse830 env w buf).1 := by
  rw [parse830]
  dsimp only
  split
  · exact h
  split
  · exact h
  have hinitial : Settled none (setStation w { w.other with
      links := (env.parseInitialPage w.other.links buf).1 }) := h.of_cache rfl rfl
  split
  · exact hinitial
  split
  · have hbsd := parseBsd_settled env hinitial (vbiUnham8 (buf 2)).toNat buf
    split
    · exact hbsd
    · exact sendBroadcast_settled env hbsd _ buf
  · split
    · exact hinitial
    · exact sendBroadcast_settled env hinitial _ buf

abbrev functions (env : Environment Client Links Rest) :
    Functions (World Client Links Rest) (PageData Rest) :=
  lopFunctions (otherFunctions env)

/-- The state after `store_lop()`. -/
def lopWorld : LopResult (World Client Links Rest) → World Client Links Rest
  | .stored w => w
  | .chswReset w => w
  | .ignored w => w

theorem storeLop_settled (env : Environment Client Links Rest) (vtp : Page (PageData Rest))
    (h : Settled none w) (hpgno : validPgno vtp.pgno.toNat)
    (hlop : vtp.function = pageFunctionLop) :
    Settled none (lopWorld (storeLop (otherFunctions env) w vtp)) := by
  have hput : ∀ (v : World Client Links Rest) (event : TtxPageEvent), Settled none v →
      Settled none (TeletextLop.putPage (otherFunctions env) v vtp event) := by
    intro v event hv
    have hdrcs : ¬ isDrcs vtp.function := by
      rw [isDrcs, hlop]
      decide
    have hstat : Settled none (updateStat (otherFunctions env) v vtp) := hv.of_cache rfl rfl
    have hstored := (putPage_settled env hstat hpgno hdrcs).2 hlop
    rw [TeletextLop.putPage]
    split
    · exact announcePage_settled hstored.1
    · rename_i hfailed
      exact hstored.2 (Bool.eq_false_iff.mpr hfailed)
  rw [storeLop]
  dsimp only
  split
  · split
    · exact hput _ _ (h.of_cache rfl rfl)
    split
    · exact vbiChswReset_settled env h 0
    split
    · exact h
    split
    · exact hput _ _ (h.of_cache rfl rfl)
    · exact hput _ _ h
  · exact hput _ _ h

end TeletextReferences

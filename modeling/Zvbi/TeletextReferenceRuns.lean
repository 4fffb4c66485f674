import Zvbi.PageCacheRuns
import Zvbi.TeletextReferences
import Zvbi.TeletextRows
import Zvbi.TeletextRows

/-!
# References after each packet

The pages stored, continued and looked at while a packet is decoded are not in use
afterwards, as long as no header ends a page with DRCS.
-/

namespace TeletextReferenceRuns
open Hamming TeletextHeader TeletextLop TeletextStation TeletextReferences
open GuardedRuns
open PageCache (VbiCache Addr validPgno)
open TeletextRows (parseRow_header starts_startPage)

variable {Client Links Rest : Type} {env : Environment Client Links Rest}
  {d : TtxDecoder Client Links Rest}

/-- Between packets no page is in use, and pages in progress have numbers which the cache
accepts. -/
structure Ready (d : TtxDecoder Client Links Rest) : Prop where
  settled : Settled none d.world
  numbered : ∀ m, (d.page m).function ≠ pageFunctionDiscard → validPgno (d.page m).pgno.toNat

theorem ready_desync (h : Settled none d.world) : Ready (vbiTeletextDesync d) where
  settled := h
  numbered _ hbusy := absurd rfl hbusy

variable {w : World Client Links Rest} {mag0 : Fin 8} {buf : Packet}

theorem Ready.setWorld (h : Ready d) (hw : Settled none w) :
    Ready (d.setWorld w) where
  settled := hw
  numbered := h.numbered

variable {r : RawPage (PageData Rest)} {pgno : Int}

theorem Ready.setRaw (h : Ready d) (m : Fin 8)
    (hr : r.page.function ≠ pageFunctionDiscard → validPgno r.page.pgno.toNat) :
    Ready (d.setRaw m r) where
  settled := h.settled
  numbered k hbusy := by
    by_cases hk : k = m
    · subst hk
      rw [page_setRaw_same] at hbusy ⊢
      exact hr hbusy
    · rw [page_setRaw_of_ne hk] at hbusy ⊢
      exact h.numbered k hbusy

theorem Ready.discard (h : Ready d) (m : Fin 8) : Ready (d.discard m) :=
  h.setRaw m fun hbusy => absurd rfl hbusy

theorem Ready.checkParity (h : Ready d) (m : Fin 8) :
    Ready (checkParity (functions env) d m) :=
  h.setRaw m (h.numbered m)

def Leaks (env : Environment Client Links Rest) (d : TtxDecoder Client Links Rest) (m : Fin 8) :
    Prop :=
  isDrcs (d.page m).function ∧ (env.convertDrcs (d.page m)).2 = true

theorem storePage_ready (h : Ready d) {m : Fin 8} (hleaks : ¬ Leaks env d m) :
    Ready (storePage (functions env) d m).1 := by
  rw [storePage]
  dsimp only
  split
  · exact h
  rename_i hdiscard
  have hpgno : validPgno (d.page m).pgno.toNat :=
    h.numbered m fun hfunction => hdiscard (Or.inl hfunction)
  split
  · rename_i hlop
    have hparity : Ready (checkParity (functions env) d m) := h.checkParity m
    have hpage : (checkParity (functions env) d m).page m =
        { d.page m with
          data := ((functions env).lopParityCheck (d.rawPage m)).1
          lopPackets := ((functions env).lopParityCheck (d.rawPage m)).2.1 } := by
      rw [TeletextHeader.checkParity, page_setRaw_same]
      rfl
    have hstored := storeLop_settled env ((checkParity (functions env) d m).page m)
      hparity.settled (by rw [hpage]; exact hpgno) (by rw [hpage]; exact hlop)
    generalize hresult : (functions env).storeLop (checkParity (functions env) d m).world
      ((checkParity (functions env) d m).page m) = result
    have hresult' : storeLop (otherFunctions env) (checkParity (functions env) d m).world
      ((checkParity (functions env) d m).page m) = result := hresult
    rw [hresult'] at hstored
    cases result with
    | stored w => exact hparity.setWorld hstored
    | chswReset w => exact ready_desync hstored
    | ignored w => exact hparity.setWorld hstored
  rename_i hlop
  split
  · rename_i hdrcs
    have hpage : Ready (d.setPage m
        { d.page m with data := ((functions env).convertDrcs (d.page m)).1 }) :=
      h.setRaw m (h.numbered m)
    split
    · rename_i hconverted
      exact absurd ⟨hdrcs, hconverted⟩ hleaks
    · exact hpage
  rename_i hdrcs
  split
  · exact h.setWorld (parseMipEntries_settled env _ _ 0 h.settled)
  split
  · have htrigger : Settled none (eacemTrigger env d.world (d.page m)) := by
      rw [eacemTrigger]
      split
      · exact sendEvent_settled env _ h.settled
      · exact h.settled
    exact h.setWorld htrigger
  · exact h.setWorld ((putPage_settled env h.settled hpgno hdrcs).1 hlop)

def endedBy (d : TtxDecoder Client Links Rest) (mag0 : Fin 8) (pgno page : Int) : Option (Fin 8) :=
  match d.current with
  | none => none
  | some curr =>
    if magazineSerial (d.page curr).flags then
      if (d.page curr).pgno = pgno then none else some curr
    else if (d.page mag0).pgno % 256 = page then
      none
    else
      some mag0

theorem terminatePage_ready (h : Ready d) {page : Int}
    (hleaks : ∀ m, endedBy d mag0 pgno page = some m → ¬ Leaks env d m) :
    Ready (terminatePage (functions env) d mag0 pgno page).1 := by
  have hended : ∀ m, endedBy d mag0 pgno page = some m →
      Ready (endPage (functions env) d m).1 :=
    fun m hm => (storePage_ready h (hleaks m hm)).discard m
  rw [terminatePage]
  rw [endedBy] at hended
  split
  · exact h
  · rename_i curr hcurrent
    rw [hcurrent] at hended
    dsimp only at hended
    split
    · rename_i hserial
      rw [if_pos hserial] at hended
      split
      · exact h
      · rename_i hother
        exact hended curr (if_neg hother)
    · rename_i hserial
      rw [if_neg hserial] at hended
      split
      · exact h
      · rename_i hother
        exact hended mag0 (if_neg hother)

theorem startPage_settled (h : Settled none w) (cvtp : Page (PageData Rest)) (page : Int)
    (p : Packet) : Settled none (startPage (functions env) w cvtp page p).1 := by
  have hcached : ∀ (q : Prop) [Decidable q],
      Settled none (if q then (functions env).vbiCacheGetPage w cvtp.pgno cvtp.subno
        else (w, none)).1 := by
    intro q _
    split
    · exact peekPage_settled h
    · exact h
  have hrebuilt : ∀ v : World Client Links Rest, Settled none v →
      Settled none (rebuildPage (functions env) v cvtp page p).1 := by
    intro v hv
    rw [rebuildPage, newFunction]
    dsimp only
    repeat' split
    all_goals exact hv.of_cache rfl rfl
  have hconverted : ∀ (v : World Client Links Rest) (vtp : Page (PageData Rest)) (function : Int),
      Settled none v → Settled none ((functions env).vbiConvertPage v vtp function).1 := by
    intro v vtp function hv
    change Settled none (vbiConvertPage (otherFunctions env) v vtp function).1
    rw [vbiConvertPage]
    dsimp only
    repeat' split
    all_goals exact hv
  have hstarted : ∀ started : World Client Links Rest × Page (PageData Rest),
      Settled none started.1 →
      Settled none (if started.2.function = pageFunctionUnknown then
        if functionOf (functions env) started.1 cvtp.pgno page ≠ pageFunctionUnknown then
          (functions env).vbiConvertPage started.1 started.2
            (functionOf (functions env) started.1 cvtp.pgno page)
        else started
        else started).1 := by
    intro started hs
    split
    · split
      · exact hconverted _ _ _ hs
      · exact hs
    · exact hs
  rw [startPage]
  apply hstarted
  split
  · exact hcached _
  · exact hrebuilt _ (hcached _)

/-- The packet is a header, and the page it ends is stored and stays in use. -/
structure EndsDrcs (env : Environment Client Links Rest) (d : TtxDecoder Client Links Rest)
    (buf : Packet) : Prop where
  events : d.ttxEvents = true
  header : ∃ mag0 m, IsPacket mag0 0 buf ∧ 0 ≤ headerPage buf ∧
    endedBy d mag0 (mag8 mag0 * 256 + headerPage buf) (headerPage buf) = some m ∧ Leaks env d m

theorem validPgno_header (mag0 : Fin 8) (hpage : 0 ≤ headerPage buf) :
    validPgno (mag8 mag0 * 256 + headerPage buf).toNat := by
  have hle : headerPage buf ≤ 255 := vbiUnham16p_le (buf 2) (buf 3)
  have hmag : 1 ≤ mag8 mag0 ∧ mag8 mag0 ≤ 8 := by
    revert mag0
    decide
  constructor
  · omega
  · omega

/-- The page of a magazine gets the number of the header. -/
theorem Ready.number (h : Ready d) (mag0 : Fin 8) (hnumber : validPgno pgno.toNat) :
    Ready { d.setPage mag0 { d.page mag0 with pgno := pgno } with current := some mag0 } where
  settled := h.settled
  numbered := (h.setRaw mag0 (r := (d.rawPage mag0).setPage { d.page mag0 with pgno := pgno })
    fun _ => hnumber).numbered

theorem Ready.start (h : Ready d) (hpage : 0 ≤ headerPage buf)
    (hpgno : (d.page mag0).pgno = mag8 mag0 * 256 + headerPage buf)
    (hr : r.page = (startPage (functions env) d.world (headerFields (d.page mag0) buf)
      (headerPage buf) buf).2) :
    Ready ((d.setWorld (startPage (functions env) d.world (headerFields (d.page mag0) buf)
      (headerPage buf) buf).1).setRaw mag0 r) := by
  refine (h.setWorld (startPage_settled h.settled _ _ _)).setRaw mag0 fun _ => ?_
  have hstarts := starts_startPage (m := mag0) (otherFunctions env) d.world hpgno
    (rfl : magazineSerial (TeletextRows.headerControl buf) = _)
  rw [hr, hstarts.pgno]
  exact validPgno_header mag0 hpage

theorem decodeHeader_ready (h : Ready d)
    (hleaks : 0 ≤ headerPage buf → ∀ m,
      endedBy d mag0 (mag8 mag0 * 256 + headerPage buf) (headerPage buf) = some m →
        ¬ Leaks env d m) :
    Ready (decodeHeader (functions env) d mag0 buf).decoder := by
  rw [decodeHeader]
  split
  · exact ready_desync h.settled
  · rename_i hpage
    rw [not_lt] at hpage
    have hended : Ready (terminatePage (functions env) d mag0
        (mag8 mag0 * 256 + headerPage buf) (headerPage buf)).1 :=
      terminatePage_ready h (hleaks hpage)
    have hnumbered := hended.number mag0 (validPgno_header mag0 hpage)
    dsimp only
    split
    · exact hnumbered.discard mag0
    · refine hnumbered.start hpage ?_ rfl
      change (Decoder.page (Decoder.setRaw _ mag0 _) mag0).pgno = _
      rw [page_setRaw_same]
      rfl

theorem parseRow_settled (h : Settled none w) (r : RawPage (PageData Rest)) (packet : Nat)
    (buf : Packet) : Settled none ((functions env).parseRow w r packet buf).1 := by
  change Settled none (parseRow (otherFunctions env) w r packet buf).1
  rw [parseRow]
  split
  · rw [parseText]
    dsimp only
    split
    · exact parseData_settled env h r.page packet buf
    · repeat' split
      all_goals exact h
  split
  · rw [parse26]
    dsimp only
    split
    · exact parseData_settled env h r.page 26 buf
    · repeat' split
      all_goals exact h
  split
  · exact h
  · exact h

theorem decodeRow_ready (h : Ready d) (mag0 : Fin 8) (packet : Nat) (buf : Packet) :
    Ready (decodeRow (functions env) d mag0 packet buf).decoder := by
  rw [decodeRow]
  split
  · exact h
  · rename_i hbusy
    have hrow : Settled none ((functions env).parseRow d.world (d.rawPage mag0) packet buf).1 :=
      parseRow_settled h.settled _ packet buf
    have hsame := parseRow_header (otherFunctions env) d.world (d.rawPage mag0) packet buf
    dsimp only
    split
    · exact ready_desync hrow
    · refine (h.setWorld hrow).setRaw mag0 fun _ => ?_
      change validPgno
        (parseRow (otherFunctions env) d.world (d.rawPage mag0) packet buf).2.1.page.pgno.toNat
      rw [hsame.pgno]
      exact h.numbered mag0 hbusy

theorem step_ready (h : Ready d) (hleaks : ¬ EndsDrcs env d buf) {d' : TtxDecoder Client Links Rest}
    (hstep : step env d buf = some d') : Ready d' := by
  have hready : Ready (vbiDecodeTeletext (functions env) d buf).decoder := by
    rw [vbiDecodeTeletext]
    dsimp only
    split
    · exact h
    rename_i hgood
    split
    · exact h
    rename_i hevents
    split
    · rename_i hpacket
      refine decodeHeader_ready h fun hpage m hended hm => hleaks ?_
      constructor
      · rw [hpacket] at hevents
        simpa using hevents
      · exact ⟨_, m, ⟨not_lt.mp hgood, rfl, hpacket⟩, hpage, hended, hm⟩
    split
    · exact decodeRow_ready h _ _ buf
    split
    · exact h.setWorld (h.settled.of_cache rfl rfl)
    · have hservice : Settled none ((functions env).parseService d.world
          (Fin.ofNat 8 (vbiUnham16p (buf 0) (buf 1)).toNat)
          ((vbiUnham16p (buf 0) (buf 1)).toNat / 8) buf).1 := by
        change Settled none (if _ then parse830 env d.world buf else (d.world, true, false)).1
        split
        · exact parse830_settled env h.settled buf
        · exact h.settled
      split
      · exact ready_desync hservice
      · exact h.setWorld hservice
  rw [step] at hstep
  split at hstep
  · obtain rfl := Option.some.inj hstep
    exact hready
  · cases hstep

/-- After each packet no page is in use, unless some header ended a page with DRCS. -/
theorem packets_release (h : Ready d) (packets : List Packet)
    (permitted : Permitted (step env) (fun d buf => ¬ EndsDrcs env d buf) d packets)
    {d' : TtxDecoder Client Links Rest} (hrun : run (step env) d packets = some d') :
    ∀ ca, d'.world.other.cache = some ca → Unreferenced ca := by
  have hready : Ready d' :=
    run_invariant Ready (fun _ _ _ hd hleaks hstep => step_ready hd hleaks hstep) h permitted hrun
  intro ca hca
  exact (hready.settled ca hca).unreferenced

instance (function : Int) : Decidable (isDrcs function) := inferInstanceAs (Decidable (_ ∨ _))

instance (env : Environment Client Links Rest) (d : TtxDecoder Client Links Rest) (m : Fin 8) :
    Decidable (Leaks env d m) := inferInstanceAs (Decidable (_ ∧ _))

instance (env : Environment Client Links Rest) (d : TtxDecoder Client Links Rest) (buf : Packet) :
    Decidable (EndsDrcs env d buf) :=
  decidable_of_iff (_ ∧ _) ⟨fun h => ⟨h.1, h.2⟩, fun h => ⟨h.1, h.2⟩⟩

/-- `vbi_decoder_new()`: a cache with one network, and no page in progress. -/
structure IsNew (d : TtxDecoder Client Links Rest) : Prop where
  cache : ∃ memoryLimit ca, d.world.other.cache = some ca ∧
    PageCache.vbiCacheAddNetwork (PageCache.vbiCacheNew memoryLimit) none true =
      some (ca, some d.world.other.cn)
  discarded : ∀ m, (d.page m).function = pageFunctionDiscard

theorem IsNew.ready (h : IsNew d) : Ready d where
  settled ca hca := by
    obtain ⟨memoryLimit, ca', hca', hadd⟩ := h.cache
    obtain rfl := Option.some.inj (hca.symm.trans hca')
    have hnew := PageCacheRuns.vbiCacheNew_consistent memoryLimit
    obtain ⟨t, r, ht, hcons, -⟩ := PageCacheReferences.addNetwork_keeps hnew none true
    obtain ⟨rfl, rfl⟩ := Prod.mk.inj (Option.some.inj (hadd.symm.trans ht))
    have hrefs := PageCacheCounts.addNetwork_refs hadd
    exact ⟨hcons, hrefs.1, hrefs.2 _ rfl⟩
  numbered m hbusy := absurd (h.discarded m) hbusy

/-- The other functions for pages without data, and a client which does not do anything. -/
def bareEnvironment : Environment Unit Unit Unit where
  handlers := ⟨fun client ca _ _ => (client, ca), fun _ ca _ _ h _ =>
    ⟨h, PageCacheCounts.SameRefs.refl ca⟩⟩
  malloc _ := true
  bsdataEvents := true
  localTimeEvents := true
  progIdEvents := true
  triggerEvents := true
  stationLookup _ cni := cni
  pageLanguage _ _ _ _ := 0xFF
  convertDrcs _ := ((), true)
  clearLinks _ := ()
  clearModes _ := ()
  convertData links stat _ _ := (links, stat, none)
  parseData links stat vtp _ _ := (links, stat, vtp.data, false)
  parse27 _ _ := ((), false)
  parse28 _ vtp _ := ((), vtp.x28Designations, false)
  drcsModes _ _ := ()
  parseMagazine links _ _ := (links, false)
  resetLinks _ := ()
  parseInitialPage links _ := (links, true)
  decodeLocalTime _ := true
  decodePdc _ := true

def newCache : VbiCache × Option Addr :=
  (PageCache.vbiCacheAddNetwork (PageCache.vbiCacheNew (2 ^ 30)) none true).getD
    (PageCache.vbiCacheNew 0, none)

def newDecoder : TtxDecoder Unit Unit Unit where
  ttxEvents := true
  current := none
  rawPage _ := ⟨⟨pageFunctionDiscard, 0, 0, 0, 0, 0, 0, 0, 0, 0,
    ⟨fun _ _ => 0x20, fun _ => noTriplet, ()⟩⟩, fun _ _ => 0, 0, 0⟩
  world :=
    { headerPgno := 0
      header := fun _ => 0
      chswcd := 0
      pageStat := fun _ => ⟨vbiUnknownPage, 0xFF, 0⟩
      other :=
        { cache := some newCache.1
          cn := 0
          contents := fun _ => ⟨pageFunctionDiscard, 0, 0, 0, 0, 0, 0, 0, 0, 0,
            ⟨fun _ _ => 0x20, fun _ => noTriplet, ()⟩⟩
          allocations := 0
          newCp := none
          network := ⟨0, 0, 0, 0⟩
          aspectSource := 0
          bttLink := fun _ => ⟨pageFunctionLop, 0, 0⟩
          links := ()
          client := () } }

theorem newDecoder_isNew : IsNew newDecoder where
  cache := ⟨2 ^ 30, newCache.1, rfl, rfl⟩
  discarded _ := rfl

def pageHeader (tens units : Fin 16) : Packet := fun i =>
  if i = 0 then vbiHam8 1 else if i = 2 then vbiHam8 units else if i = 3 then vbiHam8 tens
  else vbiHam8 0

def drcsPacket : Packet := fun i =>
  if i = 0 then vbiHam8 1 else if i = 1 then vbiHam8 14 else if i = 2 then vbiHam8 3
  else if i = 3 then 0xA6 else if i % 3 = 0 then 0x8B else if i % 3 = 1 then 0x80 else 0

theorem packets_release_two : ∃ d',
    run (step bareEnvironment) newDecoder [pageHeader 0 0, pageHeader 0 1, pageHeader 0 2] = some d' ∧
      ∀ ca, d'.world.other.cache = some ca → Unreferenced ca := by
  have hsome : (run (step bareEnvironment) newDecoder
      [pageHeader 0 0, pageHeader 0 1, pageHeader 0 2]).isSome = true := by decide +kernel
  obtain ⟨d', hrun⟩ := Option.isSome_iff_exists.mp hsome
  exact ⟨d', hrun, packets_release newDecoder_isNew.ready _ (by decide +kernel) hrun⟩

/-- A page with DRCS stays in use. -/
theorem drcs_not_released : IsNew newDecoder ∧ ∃ d' ca,
    run (step bareEnvironment) newDecoder [pageHeader 10 1, drcsPacket, pageHeader 10 2] = some d' ∧
      d'.world.other.cache = some ca ∧ ¬ Unreferenced ca := by
  have hcount : ((run (step bareEnvironment) newDecoder
      [pageHeader 10 1, drcsPacket, pageHeader 10 2]).bind fun d =>
      d.world.other.cache.bind fun ca => (ca.networkRecords.lookup 0).map fun cn =>
        cn.nReferencedPages) = some 1 := by decide +kernel
  obtain ⟨d', hrun, hcount⟩ := Option.bind_eq_some_iff.mp hcount
  obtain ⟨ca, hca, hcount⟩ := Option.bind_eq_some_iff.mp hcount
  obtain ⟨cn, hn, hcount⟩ := Option.map_eq_some_iff.mp hcount
  refine ⟨newDecoder_isNew, d', ca, hrun, hca, fun h => ?_⟩
  rw [h.network 0 cn hn] at hcount
  cases hcount

end TeletextReferenceRuns

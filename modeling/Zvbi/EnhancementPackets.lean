import Zvbi.TeletextAcquisition

/-!
# Collecting the triplets of a page

Packets X/26 have 13 triplets each and follow one another by their designation. One counter
is the place of the next triplet and the designation expected next. Once it is no longer a
multiple of 13 no packet is accepted; a packet whose first triplet is uncorrectable leaves it
where it is, and may be repeated.
-/

namespace EnhancementPackets
open Hamming TeletextHeader TeletextLop TeletextRows TeletextTransmission
open PopPointers (Triplet)

variable {Other Rest : Type}

/-- The triplet at position `i` of a packet. -/
def tripletAt (buf : Packet) (i : Nat) : Triplet :=
  let t := (tripletBits buf i).toNat
  ⟨UInt8.ofNat (t &&& 0x3F), UInt8.ofNat (t >>> 6 &&& 0x1F), UInt8.ofNat (t >>> 11)⟩

def goodTriplets (buf : Packet) (is : List Nat) : List Triplet :=
  (is.takeWhile fun i => !(tripletBits buf i).msb).map (tripletAt buf)

def packetTriplets (buf : Packet) : List Triplet := goodTriplets buf (List.range 13)

def designation (buf : Packet) : Int := vbiUnham8 (buf 2)

/-- The triplets of these packets, from designation `k` on, up to the first designation out of
sequence or the first uncorrectable triplet. Packets with an uncorrectable designation are
ignored. If they may be `repeated`, so are packets which have no triplet to be stored. -/
def collect (repeated : Bool) (k : Nat) : List Packet → List Triplet
  | [] => []
  | buf :: bufs =>
    if designation buf < 0 then
      collect repeated k bufs
    else if designation buf ≠ k then
      []
    else if (packetTriplets buf).length = 13 then
      packetTriplets buf ++ collect repeated (k + 1) bufs
    else if repeated = true ∧ packetTriplets buf = [] then
      collect repeated k bufs
    else
      packetTriplets buf

/-- An array with these triplets, followed by end markers. -/
def stored (ts : List Triplet) : Nat → Triplet := fun i => (ts[i]?).getD noTriplet

theorem stored_end {ts : List Triplet} {i : Nat} (h : ts.length ≤ i) :
    stored ts i = noTriplet := by
  simp [stored, List.getElem?_eq_none h]

theorem update_stored (ts : List Triplet) (t : Triplet) :
    Function.update (stored ts) ts.length t = stored (ts ++ [t]) := by
  funext i
  rcases Nat.lt_trichotomy i ts.length with hlt | rfl | hgt
  · rw [Function.update_of_ne hlt.ne, stored, stored, List.getElem?_append_left hlt]
  · simp [stored]
  · have hlast : (ts ++ [t]).length ≤ i := by
      simpa using hgt
    rw [Function.update_of_ne hgt.ne', stored_end hgt.le, stored_end hlast]

/-- The loop over the triplets of a packet appends them. -/
theorem storeTriplets_stored (buf : Packet) (is : List Nat) (ts : List Triplet) :
    storeTriplets buf is ts.length (stored ts) =
      (((ts ++ goodTriplets buf is).length : Int), stored (ts ++ goodTriplets buf is)) := by
  induction is generalizing ts with
  | nil => simp [storeTriplets, goodTriplets]
  | cons i is ih =>
    by_cases hbad : (tripletBits buf i).msb = true
    · simp [storeTriplets, goodTriplets, hbad]
    · have hgood : goodTriplets buf (i :: is) = tripletAt buf i :: goodTriplets buf is := by
        simp [goodTriplets, hbad]
      have hnext := ih (ts ++ [tripletAt buf i])
      rw [List.append_assoc, List.singleton_append, ← hgood, List.length_append,
        List.length_singleton, Nat.cast_add, Nat.cast_one, ← update_stored] at hnext
      rw [storeTriplets, if_neg hbad, Int.toNat_natCast]
      exact hnext

theorem length_packetTriplets (buf : Packet) : (packetTriplets buf).length ≤ 13 := by
  have hle := (List.takeWhile_prefix (fun i => !(tripletBits buf i).msb)
    (l := List.range 13)).length_le
  simpa [packetTriplets, goodTriplets] using hle

/-- The functions of pages whose triplets are collected. -/
def Enhanced (function : Int) : Prop := function = pageFunctionLop ∨ function = pageFunctionUnknown

theorem Enhanced.parses {function : Int} (h : Enhanced function) :
    ¬ (function = pageFunctionGpop ∨ function = pageFunctionPop) ∧
      excludesEnhancement function = false ∧ function ≠ pageFunctionDiscard := by
  rcases h with rfl | rfl
  all_goals decide

/-- The triplets `ts` were stored, and the next packet has to be that of designation `k`, or
there is no next one. -/
structure Collected (r : RawPage (PageData Rest)) (ts : List Triplet) (next : Option Nat) :
    Prop where
  enhanced : Enhanced r.page.function
  enh : r.page.data.enh = stored ts
  waits : ∀ k, next = some k → ts.length = 13 * k ∧ r.numTriplets = 13 * k
  closed : next = none → ∀ k : Nat, r.numTriplets ≠ 13 * k

variable {buf : Packet}

section
variable {r : RawPage (PageData Rest)} {ts : List Triplet} {k : Nat}
  (f : OtherFunctions Other Rest) (w : LopWorld Other)

def after26 (r : RawPage (PageData Rest)) (buf : Packet) : RawPage (PageData Rest) :=
  (parse26 f w r buf).2.1

/-- The packet does not make the decoder discard all pages. -/
theorem parse26_stays (h : Enhanced r.page.function) (buf : Packet) :
    (parse26 f w r buf).2.2.2 = false := by
  obtain ⟨hpop, hexcluded, -⟩ := h.parses
  rw [parse26, if_neg hpop, hexcluded]
  simp only [Bool.false_eq_true, if_false]
  split_ifs
  all_goals rfl

theorem after26_ignored (h : Enhanced r.page.function) (hbad : designation buf < 0) :
    after26 f w r buf = r := by
  obtain ⟨hpop, hexcluded, -⟩ := h.parses
  rw [designation] at hbad
  simp [after26, parse26, hpop, hexcluded, hbad]

theorem after26_refused (h : Enhanced r.page.function) (hgood : 0 ≤ designation buf)
    (hnext : 16 * 13 ≤ r.numTriplets ∨ r.numTriplets ≠ designation buf * 13) :
    after26 f w r buf = { r with numTriplets := -1 } := by
  obtain ⟨hpop, hexcluded, -⟩ := h.parses
  rw [designation] at hgood hnext
  simp only [after26, parse26, if_neg hpop, hexcluded, if_neg (Int.not_lt.mpr hgood), if_pos hnext]
  rfl

theorem Collected.after_closed (h : Collected r ts none) (buf : Packet) :
    Collected (after26 f w r buf) ts none := by
  by_cases hbad : designation buf < 0
  · rw [after26_ignored f w h.enhanced hbad]
    exact h
  · have hother := h.closed rfl (designation buf).toNat
    rw [after26_refused f w h.enhanced (by omega) (by omega)]
    refine ⟨h.enhanced, h.enh, nofun, fun _ k => ?_⟩
    show (-1 : Int) ≠ 13 * k
    omega

/-- A packet out of sequence closes the collection. -/
theorem Collected.after_other (h : Collected r ts (some k)) (hgood : 0 ≤ designation buf)
    (hother : designation buf ≠ k) : Collected (after26 f w r buf) ts none := by
  have hnum := (h.waits k rfl).2
  rw [after26_refused f w h.enhanced hgood (by omega)]
  refine ⟨h.enhanced, h.enh, nofun, fun _ k => ?_⟩
  show (-1 : Int) ≠ 13 * k
  omega

/-- The triplets of the packet expected next are appended. -/
theorem after26_accepted (h : Collected r ts (some k)) (hnext : designation buf = k) :
    Enhanced (after26 f w r buf).page.function ∧
      (after26 f w r buf).page.data.enh = stored (ts ++ packetTriplets buf) ∧
      (after26 f w r buf).numTriplets = (ts ++ packetTriplets buf).length := by
  obtain ⟨hlength, hnum⟩ := h.waits k rfl
  obtain ⟨hpop, hexcluded, -⟩ := h.enhanced.parses
  have hrange := vbiUnham8_range (buf 2)
  have hnext' : vbiUnham8 (buf 2) = k := hnext
  have hstored := storeTriplets_stored buf (List.range 13) ts
  rw [← packetTriplets, hlength, ← h.enh] at hstored
  push_cast at hstored
  rw [← hnum] at hstored
  have hplace : ¬ (16 * 13 ≤ r.numTriplets ∨ r.numTriplets ≠ (k : Int) * 13) := by
    omega
  have hsign : ¬ (k : Int) < 0 := by omega
  simp only [after26, parse26, if_neg hpop, hexcluded, hnext', if_neg hplace, if_neg hsign, hstored]
  refine ⟨h.enhanced, rfl, ?_⟩
  simp [hlength]

/-- One packet: what was collected and what is yet to come are together the same. -/
theorem Collected.step (h : Collected r ts (some k)) (buf : Packet) :
    ∃ ts' next, Collected (after26 f w r buf) ts' next ∧
      ∀ bufs, ts ++ collect true k (buf :: bufs) =
        ts' ++ (next.elim [] fun k => collect true k bufs) := by
  by_cases hbad : designation buf < 0
  · refine ⟨ts, some k, ?_, fun bufs => ?_⟩
    · rw [after26_ignored f w h.enhanced hbad]
      exact h
    · rw [collect, if_pos hbad]
      rfl
  by_cases hnext : designation buf = k
  swap
  · refine ⟨ts, none, h.after_other f w (Int.not_lt.mp hbad) hnext, fun bufs => ?_⟩
    rw [collect, if_neg hbad, if_pos hnext]
    rfl
  obtain ⟨henhanced, henh, hnum⟩ := after26_accepted f w h hnext
  have hlength := (h.waits k rfl).1
  rw [List.length_append] at hnum
  by_cases hfull : (packetTriplets buf).length = 13
  · refine ⟨ts ++ packetTriplets buf, some (k + 1), ⟨henhanced, henh, ?_, nofun⟩, fun bufs => ?_⟩
    · rintro _ ⟨rfl⟩
      rw [List.length_append, hnum]
      push_cast
      omega
    · rw [collect, if_neg hbad, if_neg (not_not.mpr hnext), if_pos hfull, List.append_assoc]
      rfl
  by_cases hempty : packetTriplets buf = []
  · refine ⟨ts, some k, ⟨henhanced, ?_, ?_, nofun⟩, fun bufs => ?_⟩
    · rw [henh, hempty, List.append_nil]
    · rintro _ ⟨rfl⟩
      rw [hnum, hempty]
      simp [hlength]
    · rw [collect, if_neg hbad, if_neg (not_not.mpr hnext), if_neg hfull, if_pos ⟨rfl, hempty⟩]
      rfl
  · refine ⟨ts ++ packetTriplets buf, none, ⟨henhanced, henh, nofun, ?_⟩, fun bufs => ?_⟩
    · intro _ k'
      have hsome := List.length_pos_iff.mpr hempty
      have hle := length_packetTriplets buf
      push_cast at hnum
      omega
    · rw [collect, if_neg hbad, if_neg (not_not.mpr hnext), if_neg hfull,
        if_neg (fun h => hempty h.2)]
      exact (List.append_nil _).symm

theorem length_collect {repeated : Bool} {k : Nat} (hk : k ≤ 16) (packets : List Packet) :
    (collect repeated k packets).length ≤ 13 * (16 - k) := by
  induction packets generalizing k with
  | nil => exact Nat.zero_le _
  | cons buf packets ih =>
    have hle := length_packetTriplets buf
    have hrange := (vbiUnham8_range (buf 2)).2
    rw [collect]
    split_ifs with hbad hother hfull hempty
    · exact ih hk
    · exact Nat.zero_le _
    · rw [designation] at hother
      have hnext := ih (by omega : k + 1 ≤ 16)
      rw [List.length_append]
      omega
    · exact ih hk
    · rw [designation] at hother
      omega

end

/-- A page which still has triplets after a conversion has those from before. -/
theorem enh_convert (f : OtherFunctions Other Rest) (w : LopWorld Other)
    (vtp : Page (PageData Rest)) (function : Int)
    (h : Enhanced (vbiConvertPage f w vtp function).2.function) :
    (vbiConvertPage f w vtp function).2.data.enh = vtp.data.enh := by
  have hother : ∀ {function : Int}, function ≠ pageFunctionLop →
      function ≠ pageFunctionUnknown → ¬ Enhanced function :=
    fun hlop hunknown h => h.elim hlop hunknown
  by_cases hlop : function = pageFunctionLop
  · simp [vbiConvertPage, hlop, Page.setFunction]
  by_cases hdrcs : function = pageFunctionGdrcs ∨ function = pageFunctionDrcs
  · by_cases hconverted : (f.convertDrcs (setRest vtp (f.clearModes vtp.data.rest))).2 = true
    · simp only [vbiConvertPage, if_neg hlop, if_pos hdrcs, hconverted, if_true] at h
      have hfunction : Enhanced function := h
      rcases hdrcs with rfl | rfl
      all_goals exact absurd hfunction (hother (by decide) (by decide))
    · simp [vbiConvertPage, hlop, hdrcs, hconverted]
  by_cases hdata : function = pageFunctionGpop ∨ function = pageFunctionPop ∨
      function = pageFunctionAit ∨ function = pageFunctionMpt ∨ function = pageFunctionMptEx
  · cases hsome : (f.convertData w vtp function).2 with
    | none => simp [vbiConvertPage, hlop, hdrcs, hdata, hsome]
    | some data =>
      simp only [vbiConvertPage, if_neg hlop, if_neg hdrcs, if_pos hdata, hsome] at h
      have hfunction : Enhanced function := h
      rcases hdata with rfl | rfl | rfl | rfl | rfl
      all_goals exact absurd hfunction (hother (by decide) (by decide))
  · simp [vbiConvertPage, hlop, hdrcs, hdata]

/-- A page built from scratch for text has no triplets. -/
theorem enh_rebuild (f : OtherFunctions Other Rest) (w : LopWorld Other)
    (cvtp : Page (PageData Rest)) (page : Int) (header : Packet)
    (h : Enhanced (rebuildPage (lopFunctions f) w cvtp page header).2.function) :
    (rebuildPage (lopFunctions f) w cvtp page header).2.function = pageFunctionUnknown ∧
      (rebuildPage (lopFunctions f) w cvtp page header).2.data.enh = stored [] := by
  have hunknown : (newFunction (lopFunctions f) w cvtp.pgno page).2 = pageFunctionUnknown :=
    newFunction_unknown (h.imp_right Or.inl)
  refine ⟨hunknown, ?_⟩
  change (clearData f (newFunction (lopFunctions f) w cvtp.pgno page).2 header cvtp.data).enh = _
  rw [hunknown]
  rfl

theorem enh_startPage (f : OtherFunctions Other Rest) (w : LopWorld Other)
    (cvtp : Page (PageData Rest)) (page : Int) (header : Packet)
    (herase : erasePage cvtp.flags = true)
    (h : Enhanced (startPage (lopFunctions f) w cvtp page header).2.function) :
    (startPage (lopFunctions f) w cvtp page header).2.data.enh = stored [] := by
  have hscratch : ¬ (cvtp.pgno ≠ 0x1E7 ∧ erasePage cvtp.flags = false) := by
    rw [herase]
    exact fun h => Bool.noConfusion h.2
  rw [startPage, if_neg hscratch] at h ⊢
  simp only at h ⊢
  generalize hbuilt : rebuildPage (lopFunctions f) w cvtp page header = built at h ⊢
  have hrebuilt : Enhanced built.2.function → built.2.function = pageFunctionUnknown ∧
      built.2.data.enh = stored [] := by
    rw [← hbuilt]
    exact enh_rebuild f w cvtp page header
  by_cases hunknown : built.2.function = pageFunctionUnknown
  · have henh := (hrebuilt (Or.inr hunknown)).2
    rw [if_pos hunknown] at h ⊢
    split_ifs at h ⊢
    · exact (enh_convert f _ _ _ h).trans henh
    · exact henh
  · rw [if_neg hunknown] at h
    exact absurd (hrebuilt h).1 hunknown

section
variable {d : Decoder (LopWorld Other) (PageData Rest)} {m : Fin 8} {header : Packet}
  (f : OtherFunctions Other Rest)

theorem collected_header (hevents : d.ttxEvents = true) (hheader : StartsPage m header)
    (herase : erasePage (headerControl header) = true)
    (hfunction : Enhanced
      ((vbiDecodeTeletext (lopFunctions f) d header).decoder.page m).function) :
    Collected ((vbiDecodeTeletext (lopFunctions f) d header).decoder.rawPage m) [] (some 0) ∧
      (vbiDecodeTeletext (lopFunctions f) d header).decoder.ttxEvents = true := by
  obtain ⟨hpacket, hpage, hgood⟩ := hheader
  rw [decode_header hevents f hpacket] at hfunction ⊢
  have hdrops := terminatePage_drops f d m (headerPgno m header) (headerPage header)
  rw [decodeHeader, if_neg (Int.not_lt.mpr hpage), hgood] at hfunction ⊢
  simp only [Bool.false_eq_true, if_false] at hfunction ⊢
  rw [page_setRaw_same] at hfunction
  rw [rawPage_setRaw_same]
  refine ⟨⟨hfunction, enh_startPage f _ _ _ _ herase hfunction, ?_, fun hnone => by cases hnone⟩,
    ?_⟩
  · rintro _ ⟨rfl⟩
    exact ⟨rfl, rfl⟩
  · exact hdrops.follows.events.trans hevents

theorem decode_packet26 (hevents : d.ttxEvents = true) (hbuf : IsPacket m 26 buf)
    (hfunction : Enhanced (d.page m).function) :
    (vbiDecodeTeletext (lopFunctions f) d buf).decoder.ttxEvents = true ∧
      (vbiDecodeTeletext (lopFunctions f) d buf).decoder.rawPage m =
        after26 f d.world (d.rawPage m) buf := by
  obtain ⟨-, -, hdiscard⟩ := hfunction.parses
  have hdesync : (parse26 f d.world (d.rawPage m) buf).2.2.2 = false :=
    parse26_stays f d.world hfunction buf
  rw [decode_row hevents f hbuf (by decide) (by decide), decodeRow, if_neg hdiscard]
  change _ ∧ (if (parse26 f d.world (d.rawPage m) buf).2.2.2 then _ else _ :
    Decoder (LopWorld Other) (PageData Rest)).rawPage m = _
  change (if (parse26 f d.world (d.rawPage m) buf).2.2.2 then _ else _ :
    Decoder (LopWorld Other) (PageData Rest)).ttxEvents = true ∧ _
  rw [hdesync]
  exact ⟨hevents, rawPage_setRaw_same m _ _⟩

theorem collected_run {ts : List Triplet} {next : Option Nat}
    (h : Collected (d.rawPage m) ts next) (hevents : d.ttxEvents = true) {packets : List Packet}
    (hpackets : ∀ buf ∈ packets, IsPacket m 26 buf) :
    ∃ next', Collected ((decodeAll (lopFunctions f) d packets).rawPage m)
      (ts ++ next.elim [] fun k => collect true k packets) next' := by
  induction packets generalizing d ts next with
  | nil =>
    refine ⟨next, ?_⟩
    cases next with
    | none => simpa [decodeAll] using h
    | some k => simpa [decodeAll, collect] using h
  | cons buf packets ih =>
    obtain ⟨hbuf, hpackets⟩ := List.forall_mem_cons.mp hpackets
    obtain ⟨hevents', hraw⟩ := decode_packet26 f hevents hbuf h.enhanced
    rw [decodeAll, List.foldl_cons, ← decodeAll]
    cases next with
    | none =>
      have hclosed := h.after_closed f d.world buf
      rw [← hraw] at hclosed
      simpa using ih hclosed hevents' hpackets
    | some k =>
      obtain ⟨ts', next', hstep, hsame⟩ := h.step f d.world buf
      rw [← hraw] at hstep
      rw [Option.elim_some, hsame packets]
      exact ih hstep hevents' hpackets

end

/-- The array of the page has the triplets in sequence and end markers, and there was room for
them. -/
def HasTriplets (enh : Nat → Triplet) (ts : List Triplet) : Prop :=
  enh = stored ts ∧ ts.length < enhancementCount

/-- The triplets of a page which was erased by its header. -/
theorem enhancement_collected (f : OtherFunctions Other Rest)
    (d : Decoder (LopWorld Other) (PageData Rest)) (m : Fin 8) (header : Packet)
    (packets : List Packet) (hevents : d.ttxEvents = true) (hheader : StartsPage m header)
    (herase : erasePage (headerControl header) = true)
    (hfunction : Enhanced
      ((vbiDecodeTeletext (lopFunctions f) d header).decoder.page m).function)
    (hpackets : ∀ buf ∈ packets, IsPacket m 26 buf) :
    HasTriplets ((decodeAll (lopFunctions f) d (header :: packets)).page m).data.enh
      (collect true 0 packets) := by
  obtain ⟨hcollected, hevents'⟩ := collected_header f hevents hheader herase hfunction
  obtain ⟨next, hrun⟩ := collected_run f hcollected hevents' hpackets
  have hlength := @length_collect true 0 (by decide) packets
  refine ⟨hrun.enh, ?_⟩
  rw [enhancementCount]
  omega

open TeletextAcquisition

def eraseHeader : Packet := Function.update (serialHeader 0 1) 5 (vbiHam8 8)

/-- Packet X/26/0 of magazine 1, with triplets whose bits are zero. -/
def enhancement : Packet := fun i =>
  if i = 0 then vbiHam8 1
  else if i = 1 then vbiHam8 13
  else if i = 2 then vbiHam8 0
  else if i % 3 = 0 then 0x8B
  else if i % 3 = 1 then 0x80
  else 0

/-- The same with an uncorrectable first triplet. -/
def brokenEnhancement : Packet := fun i => if 3 ≤ i ∧ i < 6 then 0 else enhancement i

theorem repeated_good : newDecoder.ttxEvents = true ∧ StartsPage 1 eraseHeader ∧
    erasePage (headerControl eraseHeader) = true ∧
    Enhanced ((vbiDecodeTeletext (lopFunctions otherFunctions) newDecoder
      eraseHeader).decoder.page 1).function ∧
    ∀ buf ∈ [brokenEnhancement, enhancement], IsPacket 1 26 buf := by
  refine ⟨rfl, by decide +kernel, by decide +kernel, Or.inl (by decide +kernel), ?_⟩
  simp only [List.forall_mem_cons]
  exact ⟨by decide +kernel, by decide +kernel, fun _ h => by cases h⟩

/-- The triplets of a packet are stored although the same packet was received before with an
uncorrectable first triplet. -/
theorem repeated_stored : newDecoder.ttxEvents = true ∧ StartsPage 1 eraseHeader ∧
    erasePage (headerControl eraseHeader) = true ∧
    Enhanced ((vbiDecodeTeletext (lopFunctions otherFunctions) newDecoder
      eraseHeader).decoder.page 1).function ∧
    (∀ buf ∈ [brokenEnhancement, enhancement], IsPacket 1 26 buf) ∧
    collect false 0 [brokenEnhancement, enhancement] = [] ∧
    ¬ HasTriplets ((decodeAll (lopFunctions otherFunctions) newDecoder
      [eraseHeader, brokenEnhancement, enhancement]).page 1).data.enh
      (collect false 0 [brokenEnhancement, enhancement]) := by
  obtain ⟨hevents, hheader, herase, hfunction, hpackets⟩ := repeated_good
  have hnone : collect false 0 [brokenEnhancement, enhancement] = [] := by decide +kernel
  refine ⟨hevents, hheader, herase, hfunction, hpackets, hnone, ?_⟩
  rintro ⟨henh, -⟩
  rw [hnone] at henh
  have hfirst := congrArg Triplet.address (congrFun henh 0)
  exact absurd hfirst (by decide +kernel)

/-- The array has the triplets of the repeated packet. -/
theorem enhancement_collected_repeated :
    HasTriplets ((decodeAll (lopFunctions otherFunctions) newDecoder
      [eraseHeader, brokenEnhancement, enhancement]).page 1).data.enh
      (collect true 0 [brokenEnhancement, enhancement]) ∧
    (collect true 0 [brokenEnhancement, enhancement]).map Triplet.address =
      List.replicate 13 0 := by
  obtain ⟨hevents, hheader, herase, hfunction, hpackets⟩ := repeated_good
  exact ⟨enhancement_collected otherFunctions newDecoder 1 eraseHeader
    [brokenEnhancement, enhancement] hevents hheader herase hfunction hpackets,
    by decide +kernel⟩

end EnhancementPackets

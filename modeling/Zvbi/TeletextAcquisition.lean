import Zvbi.TeletextTransmission

/-!
# Acquisition of Teletext pages

The pages which the decoder passes to the cache are compared with those in the stream.
-/

namespace TeletextAcquisition
open Hamming TeletextHeader TeletextLop TeletextRows TeletextTransmission

variable {Other Rest : Type} {serial : Bool} {base : Nat → Nat → UInt8} {m : Fin 8}
variable {header : Packet} {since : List Packet}
variable {d : Decoder (LopWorld Other) (PageData Rest)}

/-- The page has the numbers of its header and the rows received since. A row of text whose
last packet has a parity error is not promised. -/
structure Contains (base : Nat → Nat → UInt8) (m : Fin 8) (header : Packet)
    (since : List Packet) (vtp : Page (PageData Rest)) : Prop where
  pgno : vtp.pgno = headerPgno m header
  subno : vtp.subno = headerSubno header
  rows : ∀ n, 1 ≤ n → n ≤ 25 →
    (vtp.function = pageFunctionLop → ∀ q ∈ since, IsPacket m n q → rowGood (rowBytes q)) →
    vtp.data.raw n = receivedRow base m since n

variable {q p : Packet} {vtp : Page (PageData Rest)}

theorem lastRow_mem {n : Nat} (h : lastRow m n since = some q) :
    q ∈ since ∧ IsPacket m n q := by
  rw [lastRow] at h
  have hpacket := List.find?_some h
  exact ⟨List.mem_reverse.mp (List.mem_of_find?_eq_some h), of_decide_eq_true hpacket⟩

theorem contains_complete (hd : InProgress serial base m header since (d.rawPage m))
    (hlop : (d.page m).function = pageFunctionLop) (f : OtherFunctions Other Rest) :
    (completePage f d m).function = pageFunctionLop ∧
      Contains base m header since (completePage f d m) := by
  have hpage : completePage f d m = { d.page m with
      data := (lopParityCheck (d.rawPage m)).1
      lopPackets := (lopParityCheck (d.rawPage m)).2.1 } := page_setRaw_same _ _ _
  rw [hpage]
  refine ⟨hlop, hd.pgno, hd.subno, fun n hlow hhigh hgood => ?_⟩
  obtain ⟨hraw, hbit, hlast⟩ := hd.lop hlop n hlow hhigh
  dsimp only
  rw [receivedRow]
  cases hrow : lastRow m n since with
  | none =>
    rw [hrow, Option.isSome_none] at hbit
    rw [lopParityCheck_missing hbit]
    exact hraw
  | some q =>
    obtain ⟨hmem, hpacket⟩ := lastRow_mem hrow
    rw [hrow, Option.isSome_some] at hbit
    have hlopRaw := hlast q hrow
    rw [lopParityCheck_received hlow hhigh hbit (hlopRaw ▸ hgood hlop q hmem hpacket)]
    exact hlopRaw

/-- `store_lop()` holds the page back: its header is of another channel, or the decoder
waits for the end of a channel change and the headers are not equal. -/
def HeldBack (w : LopWorld Other) (vtp : Page (PageData Rest)) : Prop :=
  rollHeader vtp = true ∧
    ((matchHeader w vtp).1 = .different ∧ vtp.pgno / 256 % 16 = w.headerPgno / 256 % 16 ∨
      (matchHeader w vtp).1 ≠ .same ∧ 0 < w.chswcd)

variable {f : OtherFunctions Other Rest} {k : Fin 8}

theorem storeLop_stored {w : LopWorld Other} :
    HeldBack w vtp ∧ (∀ w', storeLop f w vtp ≠ .stored w') ∨
      ¬ HeldBack w vtp ∧ ∃ w', storeLop f w vtp = .stored w' := by
  rw [storeLop, HeldBack]
  dsimp only
  by_cases hroll : rollHeader vtp = true
  · rw [if_pos hroll]
    by_cases hsame : (matchHeader w vtp).1 = .same
    · rw [if_pos hsame, hsame]
      refine Or.inr ⟨?_, _, rfl⟩
      rintro ⟨-, ⟨hdifferent, -⟩ | ⟨hne, -⟩⟩
      · cases hdifferent
      · exact hne rfl
    · rw [if_neg hsame]
      by_cases hreset : (matchHeader w vtp).1 = .different ∧
          vtp.pgno / 256 % 16 = w.headerPgno / 256 % 16
      · rw [if_pos hreset]
        exact Or.inl ⟨⟨hroll, Or.inl hreset⟩, fun w' h => by cases h⟩
      · rw [if_neg hreset]
        by_cases hwait : 0 < w.chswcd
        · rw [if_pos hwait]
          exact Or.inl ⟨⟨hroll, Or.inr ⟨hsame, hwait⟩⟩, fun w' h => by cases h⟩
        · rw [if_neg hwait]
          refine Or.inr ⟨?_, ?_⟩
          · rintro ⟨-, hdifferent | ⟨-, hpos⟩⟩
            · exact hreset hdifferent
            · exact hwait hpos
          · split
            · exact ⟨_, rfl⟩
            · exact ⟨_, rfl⟩
  · rw [if_neg hroll]
    exact Or.inr ⟨fun h => hroll h.1, _, rfl⟩

theorem storePage_lop (f : OtherFunctions Other Rest)
    (hlop : (d.page m).function = pageFunctionLop) :
    HeldBack d.world (completePage f d m) ∧ (storePage (lopFunctions f) d m).2 = [] ∨
      ¬ HeldBack d.world (completePage f d m) ∧
        (storePage (lopFunctions f) d m).2 = [completePage f d m] := by
  have hkept : ¬ ((d.page m).function = pageFunctionDiscard ∨
      (d.page m).function = pageFunctionEpg) := by
    rw [hlop]
    decide
  have hstore : (storePage (lopFunctions f) d m).2 =
      match storeLop f d.world (completePage f d m) with
      | .stored _ => [completePage f d m]
      | .chswReset _ => []
      | .ignored _ => [] := by
    rw [storePage]
    dsimp only
    rw [if_neg hkept, if_pos hlop]
    split
    · rename_i hresult
      rw [show storeLop f d.world (completePage f d m) = _ from hresult]
      rfl
    · rename_i hresult
      rw [show storeLop f d.world (completePage f d m) = _ from hresult]
    · rename_i hresult
      rw [show storeLop f d.world (completePage f d m) = _ from hresult]
  obtain ⟨hheld, hnone⟩ | ⟨hstored, w', hw'⟩ := storeLop_stored
  · refine Or.inl ⟨hheld, ?_⟩
    rw [hstore]
    cases hresult : storeLop f d.world (completePage f d m) with
    | stored w' => exact absurd hresult (hnone w')
    | chswReset w' => rfl
    | ignored w' => rfl
  · refine Or.inr ⟨hstored, ?_⟩
    rw [hstore, hw']

/-- Every page with rows which is stored has those received since its header. -/
theorem contains_stored (hd : InProgress serial base m header since (d.rawPage m))
    (f : OtherFunctions Other Rest) (hvtp : vtp ∈ (storePage (lopFunctions f) d m).2)
    (hholds : HoldsRows vtp.function) : Contains base m header since vtp := by
  by_cases hlop : (d.page m).function = pageFunctionLop
  · obtain ⟨-, hstored⟩ | ⟨-, hstored⟩ := storePage_lop f hlop
    · rw [hstored] at hvtp
      cases hvtp
    · rw [hstored, List.mem_singleton] at hvtp
      rw [hvtp]
      exact (contains_complete hd hlop f).2
  · have hpage : ∀ vtp' : Page (PageData Rest), vtp = vtp' → SameHeader (d.page m) vtp' →
        vtp'.function = (d.page m).function → vtp'.data.raw = (d.page m).data.raw →
        Contains base m header since vtp := by
      intro vtp' hvtp' hheader hfunction hraw
      subst hvtp'
      have htext : HoldsText (d.page m).function := by
        rw [← hfunction]
        exact hholds.resolve_left fun h => hlop (hfunction ▸ h)
      refine ⟨hheader.pgno.trans hd.pgno, hheader.subno.trans hd.subno, fun n hlow hhigh _ => ?_⟩
      rw [hraw]
      exact hd.text htext n hlow hhigh
    unfold storePage at hvtp
    dsimp only at hvtp
    split at hvtp
    · cases hvtp
    · split at hvtp
      · split at hvtp
        · rw [List.mem_singleton] at hvtp
          exact hpage _ hvtp ⟨rfl, rfl, rfl⟩ rfl rfl
        · cases hvtp
      · repeat' split at hvtp
        all_goals first
          | rw [List.mem_singleton] at hvtp
            exact hpage _ hvtp ⟨rfl, rfl, rfl⟩ rfl rfl
          | cases hvtp

theorem starts_good (h : StartsPage m q) : headerPage q ≠ 0xFF := by
  intro hFF
  have hbad : headerBad q = true := decide_eq_true (Or.inl hFF)
  rw [h.2.2] at hbad
  exact Bool.noConfusion hbad

theorem startsPage_of_good (hq : IsPacket m 0 q) (hgood : ¬ HeaderError q)
    (hFF : headerPage q ≠ 0xFF) : StartsPage m q :=
  ⟨hq, headerPage_nonneg hgood, Bool.eq_false_iff.mpr fun h => hFF ((headerBad_good hgood).mp h)⟩

/-- The page of a header holds what was received since, until it is discarded. -/
theorem inProgress_run (ht : Tracking serial d) (f : OtherFunctions Other Rest)
    (hstart : StartsPage m header) (hheader : ErrorFree serial header)
    (hsince : ∀ q ∈ since, ErrorFree serial q ∧ ¬ Ends serial m q) :
    Idle (decodeAll (lopFunctions f) d (header :: since)) m ∨
      InProgress serial (startRows f d m header) m header since
        ((decodeAll (lopFunctions f) d (header :: since)).rawPage m) := by
  induction since using List.reverseRecOn with
  | nil =>
    obtain ⟨hgood, hmode⟩ := hheader.header m hstart.1
    right
    have hpage := (afterHeader f d m hgood hmode).page (starts_good hstart)
    rw [← decode_header ht.events f hstart.1] at hpage
    exact hpage
  | append_singleton since q ih =>
    simp only [List.forall_mem_append, List.forall_mem_singleton] at hsince
    obtain ⟨hbefore, hq, hends⟩ := hsince
    have htracking : Tracking serial (decodeAll (lopFunctions f) d (header :: since)) :=
      ht.decodeAll f (List.forall_mem_cons.mpr ⟨hheader, fun q hq => (hbefore q hq).1⟩)
    rw [← List.cons_append, decodeAll_snoc]
    obtain hidle | hpage := ih hbefore
    · exact Or.inl (hidle.decode _ fun hstarts => hends ⟨m, hstarts.1, Or.inr rfl⟩)
    · exact inProgress_decode htracking hpage f hq hends

variable {packets : List Packet}

/-- A page in progress has a header, and no header after it ended the transmission. -/
theorem header_of_busy (hd : Fresh d) (f : OtherFunctions Other Rest)
    (hpackets : ∀ q ∈ packets, ErrorFree serial q)
    (hbusy : ¬ Idle (decodeAll (lopFunctions f) d packets) m) :
    ∃ before header since, packets = before ++ header :: since ∧ StartsPage m header ∧
      ∀ q ∈ since, ¬ Ends serial m q := by
  induction packets using List.reverseRecOn with
  | nil => exact absurd (hd.idle m) hbusy
  | append_singleton packets q ih =>
    simp only [List.forall_mem_append, List.forall_mem_singleton] at hpackets
    rw [decodeAll_snoc] at hbusy
    have ht := (hd.tracking serial).decodeAll f hpackets.1
    by_cases hstarts : StartsPage m q
    · exact ⟨packets, q, [], rfl, hstarts, fun _ h => by cases h⟩
    · have hbefore : ¬ Idle (decodeAll (lopFunctions f) d packets) m :=
        fun hidle => hbusy (hidle.decode _ hstarts)
      obtain ⟨before, header, since, rfl, hheader, hsince⟩ := ih hpackets.1 hbefore
      refine ⟨before, header, since ++ [q], ?_, hheader, ?_⟩
      · rw [List.append_assoc, List.cons_append]
      simp only [List.forall_mem_append, List.forall_mem_singleton]
      refine ⟨hsince, ?_⟩
      rintro ⟨k, hk, hends⟩
      obtain ⟨hgood, hmode⟩ := hpackets.2.header k hk
      have hafter := afterHeader f (decodeAll (lopFunctions f) d (before ++ header :: since)) k
        hgood hmode
      rw [decode_header ht.events f hk] at hbusy
      by_cases hm : m = k
      · subst hm
        refine hbusy (hafter.none ?_).1
        by_contra hFF
        exact hstarts (startsPage_of_good hk hgood hFF)
      · obtain rfl := hends.resolve_right (Ne.symm hm)
        exact hbusy (idle_of_same (hafter.others m hm) (terminatePage_serial ht f hm hgood))

def Repeats (m : Fin 8) (header p : Packet) : Prop :=
  IsPacket m 0 p ∧ headerPage p = headerPage header

theorem repeats_iff (hp : IsPacket k 0 p) (hgood : ¬ HeaderError p)
    (hheader : 0 ≤ headerPage header) :
    headerPgno k p = headerPgno m header ↔ Repeats m header p := by
  have hlow := headerPage_nonneg hgood
  have hhigh := headerPage_lt p
  have hhigh' := headerPage_lt header
  rw [headerPgno, headerPgno, Repeats]
  constructor
  · intro heq
    obtain rfl := mag8_inj (show mag8 k = mag8 m by omega)
    exact ⟨hp, by omega⟩
  · rintro ⟨hm, hpage⟩
    obtain ⟨rfl, -⟩ := isPacket_unique hm hp
    rw [hpage]

theorem terminated_stored (ht : Tracking serial d) (f : OtherFunctions Other Rest)
    (hgood : ¬ HeaderError p) (hvtp : vtp ∈ (terminated f d k p).2) :
    ∃ m, ¬ Idle d m ∧ (serial = true ∨ k = m) ∧ (d.page m).pgno ≠ headerPgno k p ∧
      vtp ∈ (storePage (lopFunctions f) d m).2 := by
  have hbusy : ∀ {m}, vtp ∈ (storePage (lopFunctions f) d m).2 → ¬ Idle d m := by
    intro m hm hidle
    rw [storePage_idle _ hidle] at hm
    cases hm
  have hpage := headerPage_nonneg hgood
  have hpage' := headerPage_lt p
  rw [terminated, terminatePage] at hvtp
  split at hvtp
  · cases hvtp
  · rename_i c hc
    split at hvtp
    · rename_i hflags
      split at hvtp
      · cases hvtp
      · rename_i hne
        have hmode := ht.mode c (hbusy hvtp)
        exact ⟨c, hbusy hvtp, Or.inl (hmode.symm.trans hflags), hne, hvtp⟩
    · split at hvtp
      · cases hvtp
      · rename_i hne
        refine ⟨k, hbusy hvtp, Or.inr rfl, fun heq => hne ?_, hvtp⟩
        rw [heq, headerPgno]
        omega

/-- A header which ends the transmission of a page stores it, unless it repeats the number. -/
theorem terminated_busy (ht : Tracking serial d) (f : OtherFunctions Other Rest)
    (hgood : ¬ HeaderError p) (hbusy : ¬ Idle d m) (hk : serial = true ∨ k = m) :
    (terminated f d k p).2 =
      if (d.page m).pgno = headerPgno k p then [] else (storePage (lopFunctions f) d m).2 := by
  obtain ⟨c, hc, hserial⟩ := ht.current m hbusy
  have hmode := ht.mode m hbusy
  rw [terminated, terminatePage, hc]
  dsimp only
  cases serial with
  | true =>
    obtain rfl := hserial rfl
    rw [if_pos hmode]
    split
    all_goals rfl
  | false =>
    obtain rfl := hk.resolve_left Bool.false_ne_true
    obtain ⟨page, hlow, hhigh, hpgno⟩ := ht.number k hbusy
    have hpage := headerPage_nonneg hgood
    have hpage' := headerPage_lt p
    rw [if_neg (fun h => Bool.false_ne_true ((ht.parallel rfl c).symm.trans h))]
    by_cases heq : (d.page k).pgno = headerPgno k p
    · rw [if_pos heq, if_pos (by rw [heq, headerPgno]; omega)]
    · rw [if_neg heq, if_neg ?_]
      · rfl
      · intro hmod
        apply heq
        rw [headerPgno]
        omega

def acquired (f : OtherFunctions Other Rest) (d : Decoder (LopWorld Other) (PageData Rest)) :
    List Packet → List (Page (PageData Rest))
  | [] => []
  | q :: packets =>
    let o := vbiDecodeTeletext (lopFunctions f) d q
    o.stored ++ acquired f o.decoder packets

theorem mem_acquired (h : vtp ∈ acquired f d packets) :
    ∃ before p after, packets = before ++ p :: after ∧
      vtp ∈ (vbiDecodeTeletext (lopFunctions f)
        (decodeAll (lopFunctions f) d before) p).stored := by
  induction packets generalizing d with
  | nil => cases h
  | cons q packets ih =>
    rw [acquired, List.mem_append] at h
    obtain hnow | hlater := h
    · exact ⟨[], q, packets, rfl, hnow⟩
    · obtain ⟨before, p, after, rfl, hstored⟩ := ih hlater
      exact ⟨q :: before, p, after, rfl, hstored⟩

/-- A page of magazine `m` is transmitted: its header, the packets since, and the header
which ends it. -/
structure Transmission (serial : Bool) (m : Fin 8) (header : Packet) (since : List Packet)
    (p : Packet) : Prop where
  starts : StartsPage m header
  during : ∀ q ∈ since, ¬ Ends serial m q
  ends : Ends serial m p

def Displayable (f : OtherFunctions Other Rest) (d : Decoder (LopWorld Other) (PageData Rest))
    (m : Fin 8) (header : Packet) : Prop :=
  ((vbiDecodeTeletext (lopFunctions f) d header).decoder.page m).function = pageFunctionLop

def Interrupted (f : OtherFunctions Other Rest) (d : Decoder (LopWorld Other) (PageData Rest))
    (m : Fin 8) (header : Packet) (since : List Packet) : Prop :=
  ∃ before q after, since = before ++ q :: after ∧
    Interrupts f (decodeAll (lopFunctions f) d (header :: before)) m q

/-- What the decoder acquires from a stream. The page of a transmission holds the rows
received and nothing else. It is stored unless the next header repeats its page number,
or it is discarded or held back. -/
structure Acquires (f : OtherFunctions Other Rest) (serial : Bool)
    (d : Decoder (LopWorld Other) (PageData Rest)) (packets : List Packet) : Prop where
  contents : ∀ vtp ∈ acquired f d packets, HoldsRows vtp.function →
    ∃ m before header since p after, packets = before ++ header :: since ++ p :: after ∧
      Transmission serial m header since p ∧ ¬ Repeats m header p ∧
      Contains (startRows f (decodeAll (lopFunctions f) d before) m header) m header since vtp
  repeated : ∀ m before header since p after, packets = before ++ header :: since ++ p :: after →
    Transmission serial m header since p → Repeats m header p →
      (vbiDecodeTeletext (lopFunctions f)
        (decodeAll (lopFunctions f) d (before ++ header :: since)) p).stored = []
  stored : ∀ m before header since p after, packets = before ++ header :: since ++ p :: after →
    Transmission serial m header since p → ¬ Repeats m header p →
    Displayable f (decodeAll (lopFunctions f) d before) m header →
      Interrupted f (decodeAll (lopFunctions f) d before) m header since ∨
        ∃ vtp, vtp.function = pageFunctionLop ∧
          Contains (startRows f (decodeAll (lopFunctions f) d before) m header) m header since vtp ∧
          let d' := decodeAll (lopFunctions f) d (before ++ header :: since)
          (HeldBack d'.world vtp ∧ (vbiDecodeTeletext (lopFunctions f) d' p).stored = [] ∨
            ¬ HeldBack d'.world vtp ∧ (vbiDecodeTeletext (lopFunctions f) d' p).stored = [vtp])

theorem decodeAll_append (f : Functions (LopWorld Other) (PageData Rest))
    (d : Decoder (LopWorld Other) (PageData Rest)) (before after : List Packet) :
    decodeAll f d (before ++ after) = decodeAll f (decodeAll f d before) after := by
  rw [decodeAll, List.foldl_append]
  rfl

theorem header_of_stored (ht : Tracking serial d) (hp : ErrorFree serial p)
    (hvtp : vtp ∈ (vbiDecodeTeletext (lopFunctions f) d p).stored) : ∃ k, IsPacket k 0 p := by
  obtain ⟨k, n, hpacket⟩ := hp.isPacket
  by_cases hn : n = 0
  · subst hn
    exact ⟨k, hpacket⟩
  · by_cases hlate : n ≤ 28
    · rw [decode_row ht.events f hpacket (Nat.pos_of_ne_zero hn) hlate, decodeRow] at hvtp
      split at hvtp
      all_goals cases hvtp
    · rw [(decode_late ht.events f hpacket (by omega)).1] at hvtp
      cases hvtp

theorem lop_run (ht : Tracking serial d) (f : OtherFunctions Other Rest)
    (hheader : ErrorFree serial header)
    (hsince : ∀ q ∈ since, ErrorFree serial q ∧ ¬ Ends serial m q)
    (hlop : Displayable f d m header) (hinterrupted : ¬ Interrupted f d m header since) :
    ((decodeAll (lopFunctions f) d (header :: since)).page m).function = pageFunctionLop := by
  induction since using List.reverseRecOn with
  | nil => exact hlop
  | append_singleton since q ih =>
    simp only [List.forall_mem_append, List.forall_mem_singleton] at hsince
    obtain ⟨hbefore, hq, hends⟩ := hsince
    have htracking : Tracking serial (decodeAll (lopFunctions f) d (header :: since)) :=
      ht.decodeAll f (List.forall_mem_cons.mpr ⟨hheader, fun q hq => (hbefore q hq).1⟩)
    rw [← List.cons_append, decodeAll_snoc]
    refine lop_decode htracking (ih hbefore ?_) f hq hends ?_
    · rintro ⟨before, q', after, rfl, hinterrupts⟩
      exact hinterrupted ⟨before, q', after ++ [q], by simp, hinterrupts⟩
    · intro hinterrupts
      exact hinterrupted ⟨since, q, [], rfl, hinterrupts⟩

theorem transmission_run (hd : Fresh d) (f : OtherFunctions Other Rest) {before after : List Packet}
    (hpackets : ∀ q ∈ before ++ header :: since ++ p :: after, ErrorFree serial q) :
    Tracking serial (decodeAll (lopFunctions f) d before) ∧
      Tracking serial (decodeAll (lopFunctions f) d (before ++ header :: since)) ∧
      ErrorFree serial header ∧ (∀ q ∈ since, ErrorFree serial q) ∧ ErrorFree serial p := by
  simp only [List.forall_mem_append, List.forall_mem_cons] at hpackets
  obtain ⟨⟨hbefore, hheader, hsince⟩, hp, -⟩ := hpackets
  have htracking := hd.tracking serial
  refine ⟨htracking.decodeAll f hbefore, htracking.decodeAll f ?_, hheader, hsince, hp⟩
  simp only [List.forall_mem_append, List.forall_mem_cons]
  exact ⟨hbefore, hheader, hsince⟩

/-- In serial mode the other magazines have no page in progress. -/
theorem others_idle (ht : Tracking true d) (f : OtherFunctions Other Rest)
    (hstart : StartsPage m header) (hheader : ErrorFree true header)
    (hsince : ∀ q ∈ since, ¬ Ends true m q) {n : Fin 8} (hn : n ≠ m) :
    Idle (decodeAll (lopFunctions f) d (header :: since)) n := by
  obtain ⟨hgood, hmode⟩ := hheader.header m hstart.1
  have hidle : Idle (vbiDecodeTeletext (lopFunctions f) d header).decoder n := by
    rw [decode_header ht.events f hstart.1]
    exact idle_of_same ((afterHeader f d m hgood hmode).others n hn)
      (terminatePage_serial ht f hn hgood)
  exact hidle.decodeAll _ fun q hq hstarts => hsince q hq ⟨n, hstarts.1, Or.inl rfl⟩

theorem acquired_pages (f : OtherFunctions Other Rest) (hd : Fresh d) {packets : List Packet}
    (hpackets : ∀ q ∈ packets, ErrorFree serial q) : Acquires f serial d packets := by
  constructor
  case contents =>
    intro vtp hvtp hholds
    obtain ⟨packets, p, after, rfl, hstored⟩ := mem_acquired hvtp
    simp only [List.forall_mem_append, List.forall_mem_cons] at hpackets
    obtain ⟨hbefore, hp, -⟩ := hpackets
    have ht := (hd.tracking serial).decodeAll f hbefore
    obtain ⟨k, hk⟩ := header_of_stored ht hp hstored
    obtain ⟨hgood, hmode⟩ := hp.header k hk
    rw [decode_header ht.events f hk, (afterHeader f _ k hgood hmode).stored] at hstored
    obtain ⟨m, hbusy, hends, hne, hstored⟩ := terminated_stored ht f hgood hstored
    obtain ⟨before, header, since, rfl, hstarts, hsince⟩ := header_of_busy hd f hbefore hbusy
    simp only [List.forall_mem_append, List.forall_mem_cons] at hbefore
    obtain ⟨hbefore, hheader, hgoodSince⟩ := hbefore
    rw [decodeAll_append] at hbusy hne hstored
    have hpage := (inProgress_run ((hd.tracking serial).decodeAll f hbefore) f hstarts hheader
      fun q hq => ⟨hgoodSince q hq, hsince q hq⟩).resolve_left hbusy
    refine ⟨m, before, header, since, p, after, rfl, ⟨hstarts, hsince, k, hk, hends⟩, ?_,
      contains_stored hpage f hstored hholds⟩
    rw [← repeats_iff hk hgood hstarts.2.1]
    exact fun h => hne (hpage.pgno.trans h.symm)
  case repeated =>
    intro m before header since p after hsplit htransmission hrepeats
    subst hsplit
    obtain ⟨ht, ht', hheader, hsince, hp⟩ := transmission_run hd f hpackets
    obtain ⟨hgood, hmode⟩ := hp.header m hrepeats.1
    rw [decode_header ht'.events f hrepeats.1, (afterHeader f _ m hgood hmode).stored,
      List.eq_nil_iff_forall_not_mem]
    intro vtp hvtp
    obtain ⟨n, hbusy, hends, hne, -⟩ := terminated_stored ht' f hgood hvtp
    rw [decodeAll_append] at hbusy hne
    by_cases hn : n = m
    · subst hn
      have hpage := (inProgress_run ht f htransmission.starts hheader
        fun q hq => ⟨hsince q hq, htransmission.during q hq⟩).resolve_left hbusy
      have heq := (repeats_iff hrepeats.1 hgood htransmission.starts.2.1).mpr hrepeats
      exact hne (hpage.pgno.trans heq.symm)
    · obtain rfl := hends.resolve_right (Ne.symm hn)
      exact hbusy (others_idle ht f htransmission.starts hheader htransmission.during hn)
  case stored =>
    intro m before header since p after hsplit htransmission hrepeats hlop
    subst hsplit
    obtain ⟨ht, ht', hheader, hsince, hp⟩ := transmission_run hd f hpackets
    by_cases hinterrupted : Interrupted f (decodeAll (lopFunctions f) d before) m header since
    · exact Or.inl hinterrupted
    right
    have hduring : ∀ q ∈ since, ErrorFree serial q ∧ ¬ Ends serial m q :=
      fun q hq => ⟨hsince q hq, htransmission.during q hq⟩
    have hfunction := lop_run ht f hheader hduring hlop hinterrupted
    have hpage := inProgress_run ht f htransmission.starts hheader hduring
    rw [← decodeAll_append] at hfunction hpage
    have hbusy : ¬ Idle (decodeAll (lopFunctions f) d (before ++ header :: since)) m := by
      rw [Idle, hfunction]
      decide
    replace hpage := hpage.resolve_left hbusy
    obtain ⟨k, hk, hends⟩ := htransmission.ends
    obtain ⟨hgood, hmode⟩ := hp.header k hk
    have hne : ((decodeAll (lopFunctions f) d (before ++ header :: since)).page m).pgno ≠
        headerPgno k p := by
      intro heq
      apply hrepeats
      rw [← repeats_iff hk hgood htransmission.starts.2.1]
      exact heq.symm.trans hpage.pgno
    obtain ⟨hlopPage, hcontains⟩ := contains_complete hpage hfunction f
    refine ⟨_, hlopPage, hcontains, ?_⟩
    dsimp only
    rw [decode_header ht'.events f hk, (afterHeader f _ k hgood hmode).stored,
      terminated_busy ht' f hgood hbusy hends, if_neg hne]
    exact storePage_lop f hfunction

def otherFunctions : OtherFunctions Unit Unit where
  vbiCachePutPage w _ := (w, true)
  vbiCacheGetPage w _ _ := (w, none)
  vbiSendEvent w _ := w
  vbiChswReset w := { w with headerPgno := 0, chswcd := 0 }
  pageLanguage _ _ := 0
  convertDrcs _ := ((), true)
  parseMip w _ := w
  eacemTrigger w _ := w
  bttLink _ _ := (-1, pageFunctionUnknown)
  clearLinks _ := ()
  clearModes _ := ()
  convertData w _ _ := (w, none)
  parseData w vtp _ _ := (w, vtp.data, true)
  parse27 _ _ := ((), true)
  parse28 _ vtp _ := ((), vtp.x28Designations, false)
  drcsModes _ _ := ()
  parseMagazine w _ _ := (w, false)
  parseService w _ _ _ := (w, true, false)

def newDecoder : Decoder (LopWorld Unit) (PageData Unit) where
  ttxEvents := true
  current := none
  rawPage _ :=
    ⟨⟨pageFunctionDiscard, 0, 0, 0, 0, 0, 0, 0, 0, 0, ⟨fun _ _ => 0, fun _ => ⟨0, 0, 0⟩, ()⟩⟩,
      fun _ _ => 0, 0, 0⟩
  world := ⟨0, fun _ => 0, 0, fun _ => ⟨vbiUnknownPage, 0xFF, 0xFFFF⟩, ()⟩

def serialHeader (x subno : Fin 16) : Packet := fun i =>
  if i = 0 ∨ i = 9 then vbiHam8 1
  else if i = 2 then vbiHam8 x
  else if i = 4 then vbiHam8 subno
  else if i < 10 then vbiHam8 0
  else 0x20

/-- The same with the page number in the text, and otherwise the character `c`. -/
def textHeader (x : Fin 16) (c : UInt8) : Packet := fun i =>
  if i < 10 then serialHeader x 1 i
  else if i = 10 then vbiPar8 0x31
  else if i = 11 then vbiPar8 0x30
  else if i = 12 then vbiPar8 (0x30 + UInt8.ofNat x)
  else c

def blankRow : Packet := fun i => if i = 0 then vbiHam8 9 else if i = 1 then vbiHam8 0 else 0x20

def subpages : List Packet :=
  [serialHeader 0 1, blankRow, serialHeader 0 2, blankRow, serialHeader 1 1]

/-- Page 101 has another text in its header than page 100. -/
def titles : List Packet :=
  [textHeader 0 0x20, blankRow, textHeader 1 0x23, blankRow, textHeader 2 0x23]

theorem errorFree_of {serial : Bool} (hgood : 0 ≤ address q)
    (hheader : (address q).toNat / 8 = 0 → (∀ i : Fin 8, 0 ≤ vbiUnham8 (q (i.val + 2))) ∧
      magazineSerial (headerControl q) = serial) : ErrorFree serial q := by
  refine ⟨hgood, fun m hm => ⟨?_, (hheader hm.number).2⟩⟩
  rintro ⟨i, hlow, hhigh, hi⟩
  have hbyte := (hheader hm.number).1 ⟨i - 2, by omega⟩
  dsimp only at hbyte
  rw [Nat.sub_add_cancel hlow] at hbyte
  omega

theorem subpages_good : ∀ q ∈ subpages, ErrorFree true q := by
  simp only [subpages, List.forall_mem_cons]
  refine ⟨errorFree_of (by decide +kernel) (by decide +kernel),
    errorFree_of (by decide +kernel) (by decide +kernel),
    errorFree_of (by decide +kernel) (by decide +kernel),
    errorFree_of (by decide +kernel) (by decide +kernel),
    errorFree_of (by decide +kernel) (by decide +kernel), fun _ h => by cases h⟩

theorem titles_good : ∀ q ∈ titles, ErrorFree true q := by
  simp only [titles, List.forall_mem_cons]
  refine ⟨errorFree_of (by decide +kernel) (by decide +kernel),
    errorFree_of (by decide +kernel) (by decide +kernel),
    errorFree_of (by decide +kernel) (by decide +kernel),
    errorFree_of (by decide +kernel) (by decide +kernel),
    errorFree_of (by decide +kernel) (by decide +kernel), fun _ h => by cases h⟩

theorem newDecoder_fresh : Fresh newDecoder where
  events := rfl
  idle _ := rfl
  flags _ := rfl

theorem acquired_pages_subpages : Acquires otherFunctions true newDecoder subpages :=
  acquired_pages otherFunctions newDecoder_fresh subpages_good

instance (serial : Bool) (m : Fin 8) (q : Packet) : Decidable (Ends serial m q) :=
  inferInstanceAs (Decidable (∃ n, IsPacket n 0 q ∧ (serial = true ∨ n = m)))

instance (m : Fin 8) (q : Packet) : Decidable (StartsPage m q) :=
  inferInstanceAs (Decidable (IsPacket m 0 q ∧ 0 ≤ headerPage q ∧ headerBad q = false))

/-- The first subpage has a row and its header is followed by another one, but only the
second subpage is stored. Page 101 is complete and taken for the first of a new channel. -/
theorem pages_lost : (∀ q ∈ subpages, ErrorFree true q) ∧
    Transmission true 1 (serialHeader 0 1) [blankRow] (serialHeader 0 2) ∧
    headerSubno (serialHeader 0 1) = 1 ∧
    Displayable otherFunctions newDecoder 1 (serialHeader 0 1) ∧
    (acquired otherFunctions newDecoder subpages).map (fun vtp => (vtp.pgno, vtp.subno)) =
      [(0x100, 2)] ∧
    (∀ q ∈ titles, ErrorFree true q) ∧
    Transmission true 1 (textHeader 1 0x23) [blankRow] (textHeader 2 0x23) ∧
    (acquired otherFunctions newDecoder titles).map (fun vtp => (vtp.pgno, vtp.subno)) =
      [(0x100, 1)] := by
  refine ⟨subpages_good, ⟨by decide +kernel, ?_, by decide +kernel⟩, by decide +kernel, ?_, ?_,
    titles_good, ⟨by decide +kernel, ?_, by decide +kernel⟩, ?_⟩
  · rw [List.forall_mem_singleton]
    decide +kernel
  · rw [Displayable]
    decide +kernel
  · decide +kernel
  · rw [List.forall_mem_singleton]
    decide +kernel
  · decide +kernel

end TeletextAcquisition

import Zvbi.TeletextRows

/-!
# Transmissions of Teletext pages

A transmission of a page is its header and the packets up to the header which ends it:
the next header of the same magazine in parallel mode, of any magazine in serial mode.
What the decoder has of each page in progress follows from the packets since its header.
-/

namespace TeletextTransmission
open Hamming TeletextHeader TeletextLop TeletextRows

variable {Other Rest : Type} {serial : Bool} {base : Nat → Nat → UInt8} {m : Fin 8}
variable {header : Packet} {since : List Packet} {r : RawPage (PageData Rest)}

variable {n : Fin 8} {q : Packet}

theorem rawPage_setRaw_of_ne {m : Fin 8} (h : n ≠ m) (d : Decoder (LopWorld Other) (PageData Rest))
    (r : RawPage (PageData Rest)) : (d.setRaw m r).rawPage n = d.rawPage n := by
  rw [Decoder.setRaw]
  exact Function.update_of_ne h _ _

theorem rawPage_setRaw_same (m : Fin 8) (d : Decoder (LopWorld Other) (PageData Rest))
    (r : RawPage (PageData Rest)) : (d.setRaw m r).rawPage m = r := by
  rw [Decoder.setRaw]
  exact Function.update_self _ _ _

structure Follows (d d' : Decoder (LopWorld Other) (PageData Rest)) : Prop where
  events : d'.ttxEvents = d.ttxEvents
  current : d'.current = d.current
  header : ∀ m, SameHeader (d.page m) (d'.page m)

theorem Follows.refl (d : Decoder (LopWorld Other) (PageData Rest)) : Follows d d :=
  ⟨rfl, rfl, fun _ => SameHeader.refl _⟩

theorem Follows.trans {d₁ d₂ d₃ : Decoder (LopWorld Other) (PageData Rest)}
    (h : Follows d₁ d₂) (h' : Follows d₂ d₃) : Follows d₁ d₃ where
  events := h'.events.trans h.events
  current := h'.current.trans h.current
  header m :=
    ⟨(h'.header m).pgno.trans (h.header m).pgno, (h'.header m).subno.trans (h.header m).subno,
      (h'.header m).flags.trans (h.header m).flags⟩

theorem Follows.world (d : Decoder (LopWorld Other) (PageData Rest)) (w : LopWorld Other) :
    Follows d (d.setWorld w) := ⟨rfl, rfl, fun _ => ⟨rfl, rfl, rfl⟩⟩

theorem Follows.desync (d : Decoder (LopWorld Other) (PageData Rest)) :
    Follows d (vbiTeletextDesync d) := ⟨rfl, rfl, fun _ => ⟨rfl, rfl, rfl⟩⟩

theorem Follows.setRaw {d : Decoder (LopWorld Other) (PageData Rest)} {m : Fin 8}
    {r : RawPage (PageData Rest)} (h : SameHeader (d.page m) r.page) :
    Follows d (d.setRaw m r) := by
  refine ⟨rfl, rfl, fun n => ?_⟩
  by_cases hn : n = m
  · subst hn
    rw [page_setRaw_same]
    exact h
  · rw [page_setRaw_of_ne hn]
    exact SameHeader.refl _

theorem Follows.discard (d : Decoder (LopWorld Other) (PageData Rest)) (m : Fin 8) :
    Follows d (d.discard m) :=
  Follows.setRaw ⟨rfl, rfl, rfl⟩

theorem decode_packet {d : Decoder (LopWorld Other) (PageData Rest)} (hd : d.ttxEvents = true)
    (f : OtherFunctions Other Rest) {m : Fin 8} {n : Nat} (hq : IsPacket m n q) :
    vbiDecodeTeletext (lopFunctions f) d q =
      if n = 0 then
        decodeHeader (lopFunctions f) d m q
      else if n ≤ 28 then
        decodeRow (lopFunctions f) d m n q
      else if n = 29 then
        let r := f.parseMagazine d.world m q
        ⟨d.setWorld r.1, r.2, []⟩
      else
        let r := f.parseService d.world m n q
        let d := d.setWorld r.1
        ⟨if r.2.2 then vbiTeletextDesync d else d, r.2.1, []⟩ := by
  have hgood := hq.good
  have hnumber := hq.number
  have hmag := hq.magazine
  have hevents : ¬ (n < 30 ∧ d.ttxEvents = false) := by
    rw [hd]
    exact fun h => Bool.noConfusion h.2
  unfold address at hgood hnumber hmag
  rw [vbiDecodeTeletext]
  dsimp only
  rw [if_neg (not_lt.mpr hgood), hnumber, hmag, if_neg hevents]
  rfl

theorem decode_header {d : Decoder (LopWorld Other) (PageData Rest)} (hd : d.ttxEvents = true)
    (f : OtherFunctions Other Rest) {m : Fin 8} (hq : IsPacket m 0 q) :
    vbiDecodeTeletext (lopFunctions f) d q = decodeHeader (lopFunctions f) d m q := by
  rw [decode_packet hd f hq, if_pos rfl]

theorem decode_row {d : Decoder (LopWorld Other) (PageData Rest)} (hd : d.ttxEvents = true)
    (f : OtherFunctions Other Rest) {m : Fin 8} {n : Nat} (hq : IsPacket m n q) (hlow : 1 ≤ n)
    (hhigh : n ≤ 28) :
    vbiDecodeTeletext (lopFunctions f) d q = decodeRow (lopFunctions f) d m n q := by
  rw [decode_packet hd f hq, if_neg (Nat.ne_of_gt hlow), if_pos hhigh]

/-- Packets 29 to 31 change no page, but may discard all of them. -/
theorem decode_late {d : Decoder (LopWorld Other) (PageData Rest)} (hd : d.ttxEvents = true)
    (f : OtherFunctions Other Rest) {m : Fin 8} {n : Nat} (hq : IsPacket m n q) (hlow : 29 ≤ n) :
    (vbiDecodeTeletext (lopFunctions f) d q).stored = [] ∧
      ∃ w, (vbiDecodeTeletext (lopFunctions f) d q).decoder = d.setWorld w ∨
        29 < n ∧ (f.parseService d.world m n q).2.2 = true ∧
          (vbiDecodeTeletext (lopFunctions f) d q).decoder = vbiTeletextDesync (d.setWorld w) := by
  rw [decode_packet hd f hq, if_neg (by omega), if_neg (by omega)]
  by_cases h29 : n = 29
  · rw [if_pos h29]
    exact ⟨rfl, _, Or.inl rfl⟩
  · rw [if_neg h29]
    refine ⟨rfl, ?_⟩
    dsimp only
    by_cases hdesync : (f.parseService d.world m n q).2.2 = true
    · refine ⟨(f.parseService d.world m n q).1, Or.inr ⟨by omega, hdesync, ?_⟩⟩
      exact if_pos hdesync
    · refine ⟨(f.parseService d.world m n q).1, Or.inl ?_⟩
      exact if_neg hdesync

theorem decodeRow_follows (f : OtherFunctions Other Rest)
    (d : Decoder (LopWorld Other) (PageData Rest)) (m : Fin 8) (n : Nat) (q : Packet) :
    Follows d (decodeRow (lopFunctions f) d m n q).decoder := by
  rw [decodeRow]
  split
  · exact Follows.refl d
  · dsimp only
    have hrow := parseRow_header f d.world (d.rawPage m) n q
    have hset : Follows d ((d.setWorld (parseRow f d.world (d.rawPage m) n q).1).setRaw m
        (parseRow f d.world (d.rawPage m) n q).2.1) :=
      (Follows.world d _).trans (Follows.setRaw hrow)
    split
    · exact hset.trans (Follows.desync _)
    · exact hset

theorem decode_follows {d : Decoder (LopWorld Other) (PageData Rest)} (hd : d.ttxEvents = true)
    (f : OtherFunctions Other Rest) {m : Fin 8} {n : Nat} (hq : IsPacket m n q) (hn : n ≠ 0) :
    Follows d (vbiDecodeTeletext (lopFunctions f) d q).decoder := by
  by_cases hlate : n ≤ 28
  · rw [decode_row hd f hq (Nat.pos_of_ne_zero hn) hlate]
    exact decodeRow_follows f d m n q
  · obtain ⟨-, w, hsame | ⟨-, -, hdesync⟩⟩ := decode_late hd f hq (by omega)
    · rw [hsame]
      exact Follows.world d w
    · rw [hdesync]
      exact (Follows.world d w).trans (Follows.desync _)

structure Drops (d d' : Decoder (LopWorld Other) (PageData Rest)) : Prop where
  follows : Follows d d'
  raw : ∀ n, d'.rawPage n = d.rawPage n ∨ Idle d' n

theorem storePage_follows (f : OtherFunctions Other Rest)
    (d : Decoder (LopWorld Other) (PageData Rest)) (m : Fin 8) :
    Follows d (storePage (lopFunctions f) d m).1 := by
  have hparity : Follows d (checkParity (lopFunctions f) d m) := Follows.setRaw ⟨rfl, rfl, rfl⟩
  unfold storePage
  dsimp only
  split
  · exact Follows.refl d
  · split
    · split
      · exact hparity.trans (Follows.world _ _)
      · exact (hparity.trans (Follows.world _ _)).trans (Follows.desync _)
      · exact hparity.trans (Follows.world _ _)
    · split
      · have hset : Follows d (d.setPage m
            { d.page m with data := ((lopFunctions f).convertDrcs (d.page m)).1 }) :=
          Follows.setRaw ⟨rfl, rfl, rfl⟩
        split
        · exact hset.trans (Follows.world _ _)
        · exact hset
      · repeat' split
        all_goals exact Follows.world d _

def completePage (f : OtherFunctions Other Rest) (d : Decoder (LopWorld Other) (PageData Rest))
    (m : Fin 8) : Page (PageData Rest) :=
  (checkParity (lopFunctions f) d m).page m

def ChannelChange (f : OtherFunctions Other Rest) (d : Decoder (LopWorld Other) (PageData Rest))
    (m : Fin 8) : Prop :=
  ∃ w, storeLop f d.world (completePage f d m) = .chswReset w

theorem storePage_raw (f : OtherFunctions Other Rest) (d : Decoder (LopWorld Other) (PageData Rest))
    {m : Fin 8} (hn : n ≠ m) :
    (storePage (lopFunctions f) d m).1.rawPage n = d.rawPage n ∨
      Idle (storePage (lopFunctions f) d m).1 n ∧ ChannelChange f d m := by
  have hset := fun r => rawPage_setRaw_of_ne hn d r
  unfold storePage
  dsimp only
  split
  · exact Or.inl rfl
  · split
    · split
      · exact Or.inl (hset _)
      · rename_i w hreset
        exact Or.inr ⟨idle_desync _ n, w, hreset⟩
      · exact Or.inl (hset _)
    · split
      · split
        all_goals exact Or.inl (hset _)
      · repeat' split
        all_goals exact Or.inl rfl

theorem endPage_drops (f : OtherFunctions Other Rest)
    (d : Decoder (LopWorld Other) (PageData Rest)) (m : Fin 8) :
    Drops d (endPage (lopFunctions f) d m).1 := by
  refine ⟨(storePage_follows f d m).trans (Follows.discard _ m), fun n => ?_⟩
  by_cases hn : n = m
  · subst hn
    exact Or.inr (idle_discard_same _ n)
  · obtain hsame | ⟨hidle, -⟩ := storePage_raw f d hn
    · exact Or.inl ((rawPage_setRaw_of_ne hn _ _).trans hsame)
    · exact Or.inr (hidle.discard m)

theorem terminatePage_drops (f : OtherFunctions Other Rest)
    (d : Decoder (LopWorld Other) (PageData Rest)) (m : Fin 8) (pgno page : Int) :
    Drops d (terminatePage (lopFunctions f) d m pgno page).1 := by
  have hnothing : Drops d d := ⟨Follows.refl d, fun _ => Or.inl rfl⟩
  rw [terminatePage]
  repeat' split
  all_goals first
    | exact hnothing
    | exact endPage_drops f d _

/-- A packet without errors, and the header of a page says how pages are transmitted. -/
structure ErrorFree (serial : Bool) (q : Packet) : Prop where
  good : 0 ≤ address q
  header : ∀ m, IsPacket m 0 q →
    ¬ HeaderError q ∧ magazineSerial (headerControl q) = serial

theorem ErrorFree.isPacket (hq : ErrorFree serial q) : ∃ m n, IsPacket m n q :=
  ⟨_, _, hq.good, rfl, rfl⟩

theorem nonneg_of_good (h : ¬ HeaderError q) {i : Nat} (hlow : 2 ≤ i) (hhigh : i ≤ 9) :
    0 ≤ vbiUnham8 (q i) := by
  by_contra hi
  exact h ⟨i, hlow, hhigh, not_le.mp hi⟩

theorem vbiUnham16p_nonneg {p0 p1 : UInt8} (h0 : 0 ≤ vbiUnham8 p0) (h1 : 0 ≤ vbiUnham8 p1) :
    0 ≤ vbiUnham16p p0 p1 := by
  have hspec := (vbiUnham16p_spec p0 p1).1
  omega

theorem headerPage_nonneg (h : ¬ HeaderError q) : 0 ≤ headerPage q :=
  vbiUnham16p_nonneg (nonneg_of_good h (Nat.le_refl 2) (by omega))
    (nonneg_of_good h (by omega) (by omega))

theorem headerPage_lt (q : Packet) : headerPage q < 256 := by
  have hle := vbiUnham16p_le (q 2) (q 3)
  rw [headerPage]
  omega

/-- Without errors only the number FF does not start a page. -/
theorem headerBad_good (h : ¬ HeaderError q) : headerBad q = true ↔ headerPage q = 0xFF := by
  have hlow := vbiUnham16p_nonneg (nonneg_of_good h (show 2 ≤ 4 by omega) (by omega))
    (nonneg_of_good h (show 2 ≤ 5 by omega) (by omega))
  have hhigh := vbiUnham16p_nonneg (nonneg_of_good h (show 2 ≤ 6 by omega) (by omega))
    (nonneg_of_good h (show 2 ≤ 7 by omega) (by omega))
  have hflags := vbiUnham16p_nonneg (nonneg_of_good h (show 2 ≤ 8 by omega) (by omega))
    (nonneg_of_good h (show 2 ≤ 9 by omega) (by omega))
  rw [headerBad, decide_eq_true_eq, headerSubpage, headerFlags]
  omega

theorem mag8_inj {m : Fin 8} (h : mag8 m = mag8 n) : m = n := by
  revert m n
  decide

/-- In serial mode only the current page is in progress. In parallel mode there may be one
in every magazine, and no header said otherwise. -/
structure Tracking (serial : Bool) (d : Decoder (LopWorld Other) (PageData Rest)) : Prop where
  events : d.ttxEvents = true
  number : ∀ m, ¬ Idle d m →
    ∃ p, 0 ≤ p ∧ p < 256 ∧ (d.page m).pgno = mag8 m * 256 + p
  mode : ∀ m, ¬ Idle d m → magazineSerial (d.page m).flags = serial
  current : ∀ m, ¬ Idle d m → ∃ c, d.current = some c ∧ (serial = true → c = m)
  parallel : serial = false → ∀ m, magazineSerial (d.page m).flags = false

structure Fresh (d : Decoder (LopWorld Other) (PageData Rest)) : Prop where
  events : d.ttxEvents = true
  idle : ∀ m, Idle d m
  flags : ∀ m, (d.page m).flags = 0

theorem Fresh.tracking {d : Decoder (LopWorld Other) (PageData Rest)} (h : Fresh d)
    (serial : Bool) : Tracking serial d where
  events := h.events
  number m hm := absurd (h.idle m) hm
  mode m hm := absurd (h.idle m) hm
  current m hm := absurd (h.idle m) hm
  parallel _ m := by
    rw [h.flags m]
    decide

variable {d : Decoder (LopWorld Other) (PageData Rest)}

theorem Tracking.other (h : Tracking serial d) (f : OtherFunctions Other Rest) {m : Fin 8}
    {n : Nat} {q : Packet} (hq : IsPacket m n q) (hn : n ≠ 0) :
    Tracking serial (vbiDecodeTeletext (lopFunctions f) d q).decoder := by
  have hfollows := decode_follows h.events f hq hn
  have hbusy : ∀ k, ¬ Idle (vbiDecodeTeletext (lopFunctions f) d q).decoder k → ¬ Idle d k :=
    fun k hk hidle => hk (hidle.decode _ fun hstarts => hn (isPacket_unique hstarts.1 hq).2)
  constructor
  case events => rw [hfollows.events, h.events]
  case number =>
    intro k hk
    rw [(hfollows.header k).pgno]
    exact h.number k (hbusy k hk)
  case mode =>
    intro k hk
    rw [(hfollows.header k).flags]
    exact h.mode k (hbusy k hk)
  case current =>
    intro k hk
    rw [hfollows.current]
    exact h.current k (hbusy k hk)
  case parallel =>
    intro hserial k
    rw [(hfollows.header k).flags]
    exact h.parallel hserial k

/-- In serial mode a header ends the pages of all other magazines. -/
theorem terminatePage_serial (h : Tracking true d) (f : OtherFunctions Other Rest) {m : Fin 8}
    (hn : n ≠ m) (hq : ¬ HeaderError q) :
    Idle (terminatePage (lopFunctions f) d m (headerPgno m q) (headerPage q)).1 n := by
  by_contra hbusy
  have hdrops := (terminatePage_drops f d m (headerPgno m q) (headerPage q)).raw n
  have hsame := hdrops.resolve_right hbusy
  have hbefore : ¬ Idle d n := by
    intro hidle
    apply hbusy
    rw [Idle, Decoder.page, hsame]
    exact hidle
  obtain ⟨c, hcurrent, hc⟩ := h.current n hbefore
  obtain ⟨p, hp, hp', hpgno⟩ := h.number n hbefore
  have hpage := headerPage_nonneg hq
  have hpage' := headerPage_lt q
  have hne : (d.page n).pgno ≠ headerPgno m q := by
    rw [hpgno, headerPgno]
    intro heq
    exact hn (mag8_inj (by omega))
  apply hbusy
  rw [terminatePage, hcurrent, hc rfl]
  dsimp only
  rw [if_pos (h.mode n hbefore), if_neg hne]
  exact idle_discard_same _ n

def terminated (f : OtherFunctions Other Rest) (d : Decoder (LopWorld Other) (PageData Rest))
    (m : Fin 8) (q : Packet) :
    Decoder (LopWorld Other) (PageData Rest) × List (Page (PageData Rest)) :=
  terminatePage (lopFunctions f) d m (headerPgno m q) (headerPage q)

def startRows (f : OtherFunctions Other Rest) (d : Decoder (LopWorld Other) (PageData Rest))
    (m : Fin 8) (q : Packet) : Nat → Nat → UInt8 :=
  baseRows (cachedVersion f (terminated f d m q).1.world m q)

structure AfterHeader (f : OtherFunctions Other Rest) (serial : Bool)
    (d : Decoder (LopWorld Other) (PageData Rest)) (m : Fin 8) (q : Packet)
    (o : Outcome (LopWorld Other) (PageData Rest)) : Prop where
  events : o.decoder.ttxEvents = d.ttxEvents
  current : o.decoder.current = some m
  stored : o.stored = (terminated f d m q).2
  others : ∀ n, n ≠ m → o.decoder.rawPage n = (terminated f d m q).1.rawPage n
  none : headerPage q = 0xFF →
    Idle o.decoder m ∧ (o.decoder.page m).flags = (d.page m).flags
  page : headerPage q ≠ 0xFF →
    InProgress serial (startRows f d m q) m q [] (o.decoder.rawPage m)

theorem inProgress_start {m : Fin 8} {vtp : Page (PageData Rest)} {base : Nat → Nat → UInt8}
    (h : Starts (headerPgno m q) (headerSubno q) serial base vtp) (lopRaw : Nat → Nat → UInt8) :
    InProgress serial base m q [] ⟨vtp, lopRaw, 0, 0⟩ where
  pgno := h.pgno
  subno := h.subno
  mode := h.mode
  text htext n hlow _ := h.rows (Or.inr htext) n hlow
  lop hlop n hlow _ :=
    ⟨h.rows (Or.inl hlop) n hlow, Nat.zero_testBit n,
      fun _ hq => absurd hq (Option.some_ne_none _).symm⟩

theorem afterHeader (f : OtherFunctions Other Rest) (d : Decoder (LopWorld Other) (PageData Rest))
    (m : Fin 8) (hq : ¬ HeaderError q) (hmode : magazineSerial (headerControl q) = serial) :
    AfterHeader f serial d m q (decodeHeader (lopFunctions f) d m q) := by
  have hdrops := terminatePage_drops f d m (headerPgno m q) (headerPage q)
  have hgood := headerPage_nonneg hq
  have hbad := headerBad_good hq
  have hheader : decodeHeader (lopFunctions f) d m q =
      let t := terminated f d m q
      let d' := { t.1.setPage m { t.1.page m with pgno := headerPgno m q } with current := some m }
      if headerBad q then
        ⟨d'.discard m, false, t.2⟩
      else
        let started := startPage (lopFunctions f) d'.world (headerFields (d'.page m) q)
          (headerPage q) q
        ⟨(d'.setWorld started.1).setRaw m
          { d'.rawPage m with page := started.2, lopPackets := 0, numTriplets := 0 },
          true, t.2⟩ := by
    rw [decodeHeader, if_neg (not_lt.mpr hgood)]
    rfl
  rw [hheader]
  dsimp only
  have hpage : ({ (terminated f d m q).1.setPage m
      { (terminated f d m q).1.page m with pgno := headerPgno m q } with
      current := some m } : Decoder (LopWorld Other) (PageData Rest)).page m =
      { (terminated f d m q).1.page m with pgno := headerPgno m q } :=
    page_setRaw_same _ _ _
  by_cases hFF : headerPage q = 0xFF
  · rw [if_pos (hbad.mpr hFF)]
    constructor
    case events => exact hdrops.follows.events
    case current => rfl
    case stored => rfl
    case others =>
      intro n hn
      exact (rawPage_setRaw_of_ne hn _ _).trans (rawPage_setRaw_of_ne hn _ _)
    case none =>
      refine fun _ => ⟨idle_discard_same _ m, ?_⟩
      rw [((Follows.discard _ m).header m).flags, hpage]
      exact (hdrops.follows.header m).flags
    case page => exact fun h => absurd hFF h
  · rw [if_neg (fun h => hFF (hbad.mp h))]
    constructor
    case events => exact hdrops.follows.events
    case current => rfl
    case stored => rfl
    case others =>
      intro n hn
      exact (rawPage_setRaw_of_ne hn _ _).trans (rawPage_setRaw_of_ne hn _ _)
    case none => exact fun h => absurd h hFF
    case page =>
      intro _
      rw [rawPage_setRaw_same, hpage]
      exact inProgress_start (starts_startPage f _ rfl hmode) _

variable {d' : Decoder (LopWorld Other) (PageData Rest)}

theorem idle_of_same (h : d'.rawPage n = d.rawPage n) (hidle : Idle d n) : Idle d' n := by
  rw [Idle, Decoder.page, h]
  exact hidle

theorem Tracking.start (h : Tracking serial d) (f : OtherFunctions Other Rest) {m : Fin 8}
    (hq : IsPacket m 0 q) (herror : ErrorFree serial q) :
    Tracking serial (vbiDecodeTeletext (lopFunctions f) d q).decoder := by
  obtain ⟨hgood, hmode⟩ := herror.header m hq
  have hafter := afterHeader f d m hgood hmode
  have hdrops := terminatePage_drops f d m (headerPgno m q) (headerPage q)
  rw [decode_header h.events f hq]
  -- The page of another magazine is in progress if it was before and has not been ended.
  have hother : ∀ n, n ≠ m → ¬ Idle (decodeHeader (lopFunctions f) d m q).decoder n →
      ¬ Idle d n ∧ (decodeHeader (lopFunctions f) d m q).decoder.rawPage n = d.rawPage n ∧
        serial = false := by
    intro n hn hbusy
    have hraw := hafter.others n hn
    have hbusy' : ¬ Idle (terminated f d m q).1 n := fun hidle => hbusy (idle_of_same hraw hidle)
    have hsame := (hdrops.raw n).resolve_right hbusy'
    refine ⟨fun hidle => hbusy' (idle_of_same hsame hidle), hraw.trans hsame, ?_⟩
    cases serial with
    | false => rfl
    | true => exact absurd (terminatePage_serial h f hn hgood) hbusy'
  have hpage : ¬ Idle (decodeHeader (lopFunctions f) d m q).decoder m →
      InProgress serial (startRows f d m q) m q []
        ((decodeHeader (lopFunctions f) d m q).decoder.rawPage m) :=
    fun hbusy => hafter.page fun hFF => hbusy (hafter.none hFF).1
  constructor
  case events => rw [hafter.events, h.events]
  case number =>
    intro n hn
    by_cases hm : n = m
    · subst hm
      exact ⟨headerPage q, headerPage_nonneg hgood, headerPage_lt q, (hpage hn).pgno⟩
    · obtain ⟨hbefore, hraw, -⟩ := hother n hm hn
      rw [Decoder.page, hraw]
      exact h.number n hbefore
  case mode =>
    intro n hn
    by_cases hm : n = m
    · subst hm
      exact (hpage hn).mode
    · obtain ⟨hbefore, hraw, -⟩ := hother n hm hn
      rw [Decoder.page, hraw]
      exact h.mode n hbefore
  case current =>
    intro n hn
    refine ⟨m, hafter.current, fun hserial => ?_⟩
    by_contra hm
    have hparallel := (hother n (Ne.symm hm) hn).2.2
    rw [hserial] at hparallel
    exact Bool.noConfusion hparallel
  case parallel =>
    intro hserial n
    by_cases hm : n = m
    · subst hm
      by_cases hFF : headerPage q = 0xFF
      · rw [(hafter.none hFF).2]
        exact h.parallel hserial n
      · rw [← hserial]
        exact (hafter.page hFF).mode
    · have hraw := hafter.others n hm
      have hflags := (hdrops.follows.header n).flags
      rw [Decoder.page, hraw]
      exact (congrArg magazineSerial hflags).trans (h.parallel hserial n)

theorem Tracking.decode (h : Tracking serial d) (f : OtherFunctions Other Rest)
    (hq : ErrorFree serial q) :
    Tracking serial (vbiDecodeTeletext (lopFunctions f) d q).decoder := by
  obtain ⟨m, n, hpacket⟩ := hq.isPacket
  by_cases hn : n = 0
  · subst hn
    exact h.start f hpacket hq
  · exact h.other f hpacket hn

theorem Tracking.decodeAll (h : Tracking serial d) (f : OtherFunctions Other Rest)
    {packets : List Packet} (hpackets : ∀ q ∈ packets, ErrorFree serial q) :
    Tracking serial (decodeAll (lopFunctions f) d packets) := by
  induction packets generalizing d with
  | nil => exact h
  | cons q packets ih =>
    rw [List.forall_mem_cons] at hpackets
    exact ih (h.decode f hpackets.1) hpackets.2

theorem decodeAll_snoc (f : Functions (LopWorld Other) (PageData Rest))
    (d : Decoder (LopWorld Other) (PageData Rest)) (packets : List Packet) (q : Packet) :
    decodeAll f d (packets ++ [q]) = (vbiDecodeTeletext f (decodeAll f d packets) q).decoder := by
  rw [TeletextHeader.decodeAll, List.foldl_append]
  rfl

/-- The header ends a transmission in magazine `m`. -/
def Ends (serial : Bool) (m : Fin 8) (q : Packet) : Prop :=
  ∃ n, IsPacket n 0 q ∧ (serial = true ∨ n = m)

theorem inProgress_decode (ht : Tracking serial d)
    (hd : InProgress serial base m header since (d.rawPage m)) (f : OtherFunctions Other Rest)
    (hq : ErrorFree serial q) (hends : ¬ Ends serial m q) :
    Idle (vbiDecodeTeletext (lopFunctions f) d q).decoder m ∨
      InProgress serial base m header (since ++ [q])
        ((vbiDecodeTeletext (lopFunctions f) d q).decoder.rawPage m) := by
  obtain ⟨k, n, hpacket⟩ := hq.isPacket
  by_cases hn : n = 0
  · -- A header of another magazine, in parallel mode.
    subst hn
    have hk : m ≠ k := fun h => hends ⟨k, hpacket, Or.inr h.symm⟩
    obtain ⟨hgood, hmode⟩ := hq.header k hpacket
    have hskip := hd.skip fun n hlow _ hqn => by
      have hnumber := (isPacket_unique hpacket hqn).2
      omega
    have hraw := (afterHeader f d k hgood hmode).others m hk
    rw [decode_header ht.events f hpacket]
    obtain hsame | hidle :=
      (terminatePage_drops f d k (headerPgno k q) (headerPage q)).raw m
    · right
      rw [hraw]
      exact hsame ▸ hskip
    · exact Or.inl (idle_of_same hraw hidle)
  · by_cases hlate : n ≤ 28
    · rw [decode_row ht.events f hpacket (Nat.pos_of_ne_zero hn) hlate, decodeRow]
      by_cases hk : k = m
      · subst hk
        have hrow : InProgress serial base k header (since ++ [q])
            (parseRow f d.world (d.rawPage k) n q).2.1 := by
          by_cases htext : n ≤ 25
          · exact hd.row f d.world hpacket htext
          · exact hd.late f d.world hpacket (by omega) hlate
        split
        · rename_i hidle
          exact Or.inl hidle
        · dsimp only
          split
          · exact Or.inl (idle_desync _ k)
          · right
            rw [rawPage_setRaw_same]
            exact hrow
      · have hskip := hd.skip fun n _ _ hqn => hk (isPacket_unique hpacket hqn).1.symm
        split
        · exact Or.inr hskip
        · dsimp only
          split
          · exact Or.inl (idle_desync _ m)
          · right
            rw [rawPage_setRaw_of_ne (Ne.symm hk)]
            exact hskip
    · have hskip := hd.skip fun n' _ hhigh hqn => by
        have hnumber := (isPacket_unique hpacket hqn).2
        omega
      obtain ⟨-, w, hsame | ⟨-, -, hdesync⟩⟩ := decode_late ht.events f hpacket (by omega)
      · right
        rw [hsame]
        exact hskip
      · left
        rw [hdesync]
        exact idle_desync _ m

/-- The packets in other places which discard a page in progress: X/28/3 which says that
it is a DRCS page, X/26 of a page which has none, a change of the channel announced in
packet 30 or 31, or found out when the page of another magazine is stored. -/
inductive Interrupts (f : OtherFunctions Other Rest)
    (d : Decoder (LopWorld Other) (PageData Rest)) (m : Fin 8) (q : Packet) : Prop
  | drcs (hq : IsPacket m 28 q) (hnames : NamesDrcs q)
  | enhancement {k : Fin 8} (hq : IsPacket k 26 q)
      (hpage : excludesEnhancement (d.page k).function = true)
  | service {k : Fin 8} {n : Nat} (hq : IsPacket k n q) (hn : 29 < n)
      (hreset : (f.parseService d.world k n q).2.2 = true)
  | channel {k : Fin 8} (hq : IsPacket k 0 q) (hreset : ChannelChange f d k)

theorem parseRow_desync {f : OtherFunctions Other Rest} {w : LopWorld Other} {n : Nat}
    (h : (parseRow f w r n q).2.2.2 = true) :
    n = 26 ∧ excludesEnhancement r.page.function = true := by
  rw [parseRow] at h
  split at h
  · rw [parseText] at h
    dsimp only at h
    repeat' split at h
    all_goals exact Bool.noConfusion h
  · split at h
    · rename_i hn
      refine ⟨hn, ?_⟩
      rw [parse26] at h
      dsimp only at h
      split at h
      · exact Bool.noConfusion h
      · split at h
        · assumption
        · repeat' split at h
          all_goals exact Bool.noConfusion h
    · split at h
      all_goals exact Bool.noConfusion h

theorem page_of_same (h : d'.rawPage n = d.rawPage n) : d'.page n = d.page n := by
  rw [Decoder.page, h, Decoder.page]

/-- A header of another magazine in parallel mode. -/
theorem terminatePage_kept (ht : Tracking false d) (f : OtherFunctions Other Rest)
    {k : Fin 8} (hk : m ≠ k) (hreset : ¬ ChannelChange f d k) (pgno page : Int) :
    (terminatePage (lopFunctions f) d k pgno page).1.rawPage m = d.rawPage m := by
  rw [terminatePage]
  split
  · rfl
  · rename_i c hc
    rw [ht.parallel rfl c, if_neg Bool.false_ne_true]
    split
    · rfl
    · obtain hsame | ⟨-, hchange⟩ := storePage_raw f d hk
      · exact (rawPage_setRaw_of_ne hk _ _).trans hsame
      · exact absurd hchange hreset

/-- A page with text stays one unless it is interrupted. -/
theorem lop_decode (ht : Tracking serial d) (hlop : (d.page m).function = pageFunctionLop)
    (f : OtherFunctions Other Rest) (hq : ErrorFree serial q) (hends : ¬ Ends serial m q)
    (hinterrupts : ¬ Interrupts f d m q) :
    ((vbiDecodeTeletext (lopFunctions f) d q).decoder.page m).function = pageFunctionLop := by
  obtain ⟨k, n, hpacket⟩ := hq.isPacket
  by_cases hn : n = 0
  · subst hn
    have hk : m ≠ k := fun h => hends ⟨k, hpacket, Or.inr h.symm⟩
    obtain rfl : serial = false :=
      Bool.eq_false_iff.mpr fun hserial => hends ⟨k, hpacket, Or.inl hserial⟩
    obtain ⟨hgood, hmode⟩ := hq.header k hpacket
    have hkept := terminatePage_kept ht f hk
      (fun hreset => hinterrupts (Interrupts.channel hpacket hreset))
      (headerPgno k q) (headerPage q)
    have hraw := ((afterHeader f d k hgood hmode).others m hk).trans hkept
    rw [decode_header ht.events f hpacket, page_of_same hraw]
    exact hlop
  · by_cases hlate : n ≤ 28
    · have hdesync : ¬ ((lopFunctions f).parseRow d.world (d.rawPage k) n q).2.2.2 = true := by
        intro h
        obtain ⟨rfl, hpage⟩ := parseRow_desync h
        exact hinterrupts (Interrupts.enhancement hpacket hpage)
      rw [decode_row ht.events f hpacket (Nat.pos_of_ne_zero hn) hlate, decodeRow]
      split
      · exact hlop
      · dsimp only
        rw [if_neg hdesync]
        by_cases hk : m = k
        · subst hk
          rw [page_setRaw_same]
          by_cases hlast : n = 28
          · subst hlast
            obtain hsame | ⟨hnames, -⟩ := parse28_function f d.world (d.rawPage m).page q
            · exact hsame.trans hlop
            · exact absurd (Interrupts.drcs hpacket hnames) hinterrupts
          · exact (parseRow_function f d.world _ (show n ≤ 27 by omega) q).trans hlop
        · rw [page_setRaw_of_ne hk]
          exact hlop
    · obtain ⟨-, w, hsame | ⟨hservice, hreset, -⟩⟩ := decode_late ht.events f hpacket (by omega)
      · rw [hsame]
        exact hlop
      · exact absurd (Interrupts.service hpacket hservice hreset) hinterrupts

end TeletextTransmission

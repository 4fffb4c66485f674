import Mathlib
import Zvbi.GrownWindow
import Zvbi.RawDecoder

/-!
# Sampling parameters for a set of services

The sampling window is extended for one service of the table after the other,
the lines of each field and the samples of a line in the same way. Positions in
a line are computed with floating point numbers and truncated.
-/

namespace SamplingWindow
open RawDecoder GrownWindow

abbrev VideostdSet := BitVec 64

/-- `VBI_VIDEOSTD_SET_625_50`, which is `VBI_VIDEOSTD_SET_PAL_BG` as well. -/
def videostdSet625 : VideostdSet := 1
def videostdSet525 : VideostdSet := 2
def videostdSetAll : VideostdSet := 3

/-- A service with its video standards, and the nanoseconds before its signal. -/
structure TimedPar extends ServicePar where
  videostdSet : VideostdSet
  offset : Nat

/-- The columns of `_vbi_service_table` only looked at here, and the others. -/
def timedServiceTable : List TimedPar :=
  List.zipWith (fun par time => ⟨par, time.1, time.2⟩) vbiServiceTable
    [(videostdSet625, 10500), (videostdSet625, 10300), (videostdSet625, 10300),
      (videostdSet625, 10480), (videostdSet625, 10500), (videostdSet625, 12500),
      (videostdSet625, 12500), (videostdSet625, 11000), (videostdSet625, 10500),
      (videostdSet625, 10500), (videostdSet625, 10000), (videostdSet525, 10500),
      (videostdSet525, 10480), (videostdSet525, 9780), (videostdSet525, 10500),
      (videostdSet525, 10500), (videostdSet525, 10500), (videostdSet525, 9500)]

def roundEven (n d : Nat) : Nat :=
  if 2 * (n % d) < d then n / d
  else if d < 2 * (n % d) then n / d + 1
  else n / d + n / d % 2

def exponent (n d : Nat) : Int :=
  let e : Int := (n.log2 : Int) - (d.log2 : Int)
  if n * 2 ^ (-e).toNat < d * 2 ^ e.toNat then e - 1 else e

/-- The `double` nearest to a fraction which is not negative, with 53 significant bits. -/
def double (x : ℚ) : ℚ :=
  if x ≤ 0 then 0
  else
    let n := x.num.toNat
    let shift := 52 - exponent n x.den
    mkRat (roundEven (n * 2 ^ shift.toNat) (x.den * 2 ^ (-shift).toNat) * 2 ^ (-shift).toNat : Nat)
      (2 ^ shift.toNat)

/-- Conversion to `int`. -/
def truncate (x : ℚ) : Nat := x.floor.toNat

def samplingRate : Nat := 27000000

def samplesOffset (par : TimedPar) : Nat :=
  truncate (double (double (par.offset / 1000000000) * samplingRate))

def signalLength (par : TimedPar) : ℚ :=
  double (double (par.signal.criBits / par.signal.criRate) +
    double ((par.signal.frcBits + par.signal.payload : Nat) / par.signal.bitRate))

def samplesCount (par : TimedPar) : Nat :=
  truncate (double (double (signalLength par + double (1 / 1000000)) * samplingRate))

example : timedServiceTable.map samplesOffset =
    [283, 278, 278, 282, 283, 337, 337, 297, 283, 283, 270, 283, 282, 264, 283, 283, 283, 256] := by
  decide +kernel

example : timedServiceTable.map samplesCount = [1419, 1428, 1428, 1383, 1443, 1323, 1323, 653, 1377,
    1377, 1457, 1422, 1384, 1422, 992, 992, 1421, 1457] := by
  decide +kernel

/-- What only the checks and the bit slicer look at. -/
structure LineFormat where
  scanning : Nat
  samplingFormat : Nat
  samplingRate : Nat
  bytesPerLine : Nat
  offset : Nat
  interlaced : Bool

def cleared : SamplingPar LineFormat := ⟨fun _ => 0, fun _ => 0, false, ⟨0, 0, 0, 0, 0, false⟩⟩

/-- `VBI_PIXFMT_YUV420`. -/
def pixfmtYuv420 : Nat := 1

structure Extent where
  videostdSet : VideostdSet
  rate : Nat
  offset : Nat
  samplesPerLine : Nat
  lines : Fin 2 → Window
  services : ServiceSet

def initialExtent (videostdSet : VideostdSet) : Extent where
  videostdSet := videostdSet
  rate := 0
  offset := truncate (double (double (64 / 1000000) * samplingRate))
  samplesPerLine := 0
  lines := fun _ => ⟨30000, 0⟩
  services := 0

def usesField (par : TimedPar) (i : Fin 2) : Bool := par.first i > 0 ∧ par.last i > 0

def range (par : TimedPar) (i : Fin 2) : Range := (par.first i, par.last i)

def includeService (w : Extent) (par : TimedPar) : Extent :=
  let offset := min w.offset (samplesOffset par)
  { w with
    rate := max (max w.rate par.signal.criRate) par.signal.bitRate
    offset := offset
    samplesPerLine :=
      max (w.samplesPerLine + offset) (samplesCount par + samplesOffset par) - offset
    lines := fun i => if usesField par i then extend (w.lines i) (range par i) else w.lines i
    services := w.services ||| par.id }

def determine (req : VideostdSet) (set : VideostdSet) (par : TimedPar) : VideostdSet :=
  if req = 0 ∧ ((par.videostdSet ||| set) &&& ~~~videostdSet525 = 0 ∨
      (par.videostdSet ||| set) &&& ~~~videostdSet625 = 0) then set ||| par.videostdSet
  else set

def addService (req : VideostdSet) (services : ServiceSet) (w : Extent) (par : TimedPar) : Extent :=
  if par.id &&& services = 0 then w
  else
    let w := { w with videostdSet := determine req w.videostdSet par }
    if par.videostdSet &&& w.videostdSet = 0 then w else includeService w par

def ambiguous (req : VideostdSet) : Bool :=
  req ≠ 0 ∧ (videostdSetAll &&& req = 0 ∨ videostdSet525 &&& req ≠ 0 ∧ videostdSet625 &&& req ≠ 0)

def samplingOf (w : Extent) : SamplingPar LineFormat where
  start i := if (w.lines i).count = 0 then 0 else (w.lines i).start
  count i := (w.lines i).count
  synchronous := true
  format :=
    { scanning := if videostdSet525 &&& w.videostdSet ≠ 0 then 525 else 625
      samplingFormat := pixfmtYuv420
      samplingRate := samplingRate
      bytesPerLine := max 1440 w.samplesPerLine
      offset := if ∀ i, (w.lines i).count = 0 then 0 else w.offset
      interlaced := false }

/-- `_vbi_sampling_par_from_services_log()` with a service table. The result is the
sampling parameters, the services and the highest rate. -/
def vbiSamplingParFromServices (table : List TimedPar) (req : VideostdSet) (services : ServiceSet) :
    SamplingPar LineFormat × ServiceSet × Option Nat :=
  if ambiguous req then (cleared, 0, none)
  else
    let w := table.foldl (addService req services) (initialExtent req)
    if w.services = 0 then (cleared, 0, none) else (samplingOf w, w.services, some w.rate)

def signalBegin (par : TimedPar) : ℚ := par.offset / 1000000000 * samplingRate

def signalEnd (par : TimedPar) : ℚ :=
  (par.offset / 1000000000 + (par.signal.criBits / par.signal.criRate +
    (par.signal.frcBits + par.signal.payload : Nat) / par.signal.bitRate)) * samplingRate

def isMember (services : ServiceSet) (par : TimedPar) : Bool := par.id &&& services = par.id

/-- The window of each field contains the lines of all services returned, and the
window of each line their signal. -/
structure Covers (table : List TimedPar) (sp : SamplingPar LineFormat) (services : ServiceSet) :
    Prop where
  lines : ∀ par ∈ table, isMember services par → ∀ i, usesField par i →
    sp.start i ≤ par.first i ∧ par.last i < sp.start i + sp.count i
  unused : ∀ i, (∀ par ∈ table, isMember services par → ¬usesField par i) → sp.count i = 0
  signal : ∀ par ∈ table, isMember services par → (sp.format.offset : ℚ) ≤ signalBegin par ∧
    signalEnd par ≤ (sp.format.offset + sp.format.bytesPerLine : Nat)

def requested (table : List TimedPar) (services : ServiceSet) : List TimedPar :=
  table.filter fun par => par.id &&& services ≠ 0

def system (table : List TimedPar) (req : VideostdSet) (services : ServiceSet) : VideostdSet :=
  if req = 0 then ((requested table services).head?.map (·.videostdSet)).getD 0 else req

def received (table : List TimedPar) (req : VideostdSet) (services : ServiceSet) : List TimedPar :=
  if ambiguous req then []
  else (requested table services).filter fun par =>
    par.videostdSet &&& system table req services ≠ 0

def fieldRanges (table : List TimedPar) (req : VideostdSet) (services : ServiceSet) (i : Fin 2) :
    List Range :=
  ((received table req services).filter (usesField · i)).map (range · i)

structure Tabled (par : TimedPar) : Prop where
  standard : par.videostdSet = videostdSet625 ∨ par.videostdSet = videostdSet525
  used : ∃ i, usesField par i
  ranges : ∀ i, usesField par i → par.first i ≤ par.last i ∧ par.first i ≤ 30000
  begins : (samplesOffset par : ℚ) ≤ signalBegin par
  ends625 : par.videostdSet = videostdSet625 → 270 ≤ samplesOffset par ∧ signalEnd par ≤ 1710
  ends525 : par.videostdSet = videostdSet525 → 256 ≤ samplesOffset par ∧ signalEnd par ≤ 1696

variable {par : TimedPar} {req : VideostdSet} {table : List TimedPar}

theorem tabled (h : par ∈ timedServiceTable) : Tabled par := by
  have hall : ∀ par ∈ timedServiceTable,
      (par.videostdSet = videostdSet625 ∨ par.videostdSet = videostdSet525) ∧
      (∃ i, usesField par i) ∧
      (∀ i, usesField par i → par.first i ≤ par.last i ∧ par.first i ≤ 30000) ∧
      (samplesOffset par : ℚ) ≤ signalBegin par ∧
      (par.videostdSet = videostdSet625 → 270 ≤ samplesOffset par ∧ signalEnd par ≤ 1710) ∧
      (par.videostdSet = videostdSet525 → 256 ≤ samplesOffset par ∧ signalEnd par ≤ 1696) := by
    decide +kernel
  obtain ⟨hstandard, hused, hranges, hbegins, h625, h525⟩ := hall par h
  exact ⟨hstandard, hused, hranges, hbegins, h625, h525⟩

/-- A service includes another one, and has a bit of its set which only services
including this one have. -/
theorem bit_included : ∀ par ∈ timedServiceTable, ∃ k : Fin 32, par.id.getLsbD k = true ∧
    ∀ other ∈ timedServiceTable, other.id.getLsbD k = true →
      (∀ i, usesField par i → usesField other i ∧ other.first i ≤ par.first i ∧
        par.last i ≤ other.last i) ∧
      par.videostdSet = other.videostdSet ∧ signalBegin other = signalBegin par ∧
      signalEnd other = signalEnd par := by
  decide +kernel

theorem standard_and {x y : VideostdSet} (hx : x = videostdSet625 ∨ x = videostdSet525)
    (hy : y = videostdSet625 ∨ y = videostdSet525) : x &&& y ≠ 0 ↔ x = y := by
  rcases hx with rfl | rfl
  all_goals
    rcases hy with rfl | rfl
    all_goals decide

variable {set : VideostdSet} {services : ServiceSet} {w : Extent} {pars : List TimedPar}

/-- Once the video standards are those of one system they do not change. -/
theorem determine_settled (h : Tabled par)
    (hset : req ≠ 0 ∨ set = videostdSet625 ∨ set = videostdSet525) :
    determine req set par = set := by
  simp only [determine]
  rcases hset with hreq | hset
  · rw [if_neg fun h => hreq h.1]
  · rcases h.standard with hp | hp
    all_goals
      rw [hp]
      rcases hset with rfl | rfl
      all_goals
        split_ifs
        all_goals first | rfl | (exfalso; simp_all [videostdSet625, videostdSet525])

theorem requested_skip (h : par.id &&& services = 0) (table : List TimedPar) :
    requested (par :: table) services = requested table services :=
  List.filter_cons_of_neg (by rw [h]; decide)

theorem requested_keep (h : ¬par.id &&& services = 0) (table : List TimedPar) :
    requested (par :: table) services = par :: requested table services :=
  List.filter_cons_of_pos (decide_eq_true h)

theorem addService_settled (services : ServiceSet) (h : Tabled par)
    (hset : req ≠ 0 ∨ set = videostdSet625 ∨ set = videostdSet525) (hw : w.videostdSet = set) :
    addService req services w par =
      if par.id &&& services = 0 then w
      else if par.videostdSet &&& set = 0 then w else includeService w par := by
  have hsame : { w with videostdSet := determine req w.videostdSet par } = w := by
    rw [hw, determine_settled h hset, ← hw]
  have hbody : addService req services w par =
      if par.id &&& services = 0 then w
      else (fun v : Extent => if par.videostdSet &&& v.videostdSet = 0 then v
        else includeService v par) { w with videostdSet := determine req w.videostdSet par } := rfl
  rw [hbody, hsame]
  simp only [hw]

theorem foldl_settled (services : ServiceSet) (htable : ∀ par ∈ table, Tabled par)
    (hset : req ≠ 0 ∨ set = videostdSet625 ∨ set = videostdSet525) (hw : w.videostdSet = set) :
    table.foldl (addService req services) w =
      ((requested table services).filter fun par => par.videostdSet &&& set ≠ 0).foldl
        includeService w := by
  induction table generalizing w with
  | nil => rfl
  | cons par table ih =>
    have hrest := fun p hp => htable p (List.mem_cons_of_mem par hp)
    rw [List.foldl_cons, addService_settled services (htable par List.mem_cons_self) hset hw]
    by_cases hid : par.id &&& services = 0
    · rw [requested_skip hid, if_pos hid]
      exact ih hrest hw
    · rw [requested_keep hid, if_neg hid]
      by_cases hstd : par.videostdSet &&& set = 0
      · rw [if_pos hstd, List.filter_cons_of_neg (by rw [hstd]; decide)]
        exact ih hrest hw
      · rw [if_neg hstd, List.filter_cons_of_pos (by simpa using hstd), List.foldl_cons]
        exact ih hrest hw

theorem foldl_received (htable : ∀ par ∈ table, Tabled par) (services : ServiceSet)
    (hreq : ambiguous req = false) :
    table.foldl (addService req services) (initialExtent req) =
      (received table req services).foldl includeService
        (initialExtent (system table req services)) := by
  simp only [received, hreq, Bool.false_eq_true, if_false]
  by_cases hzero : req = 0
  · subst hzero
    induction table with
    | nil => rfl
    | cons par table ih =>
      have hrest := fun p hp => htable p (List.mem_cons_of_mem par hp)
      by_cases hid : par.id &&& services = 0
      · have hsystem : system (par :: table) 0 services = system table 0 services := by
          simp only [system, requested_skip hid]
        rw [requested_skip hid, hsystem, ← ih hrest, List.foldl_cons, addService, if_pos hid]
      · have hpar := htable par List.mem_cons_self
        have hsystem : system (par :: table) 0 services = par.videostdSet := by
          simp only [system, requested_keep hid, if_true, List.head?_cons, Option.map_some,
            Option.getD_some]
        have hdetermine : determine 0 0 par = par.videostdSet := by
          simp only [determine]
          rcases hpar.standard with hp | hp
          all_goals
            rw [hp]
            decide
        have hself : par.videostdSet &&& par.videostdSet ≠ 0 :=
          (standard_and hpar.standard hpar.standard).mpr rfl
        have hstep : addService 0 services (initialExtent 0) par =
            includeService (initialExtent par.videostdSet) par := by
          simp only [addService, if_neg hid, initialExtent, hdetermine, if_neg hself]
        rw [requested_keep hid, hsystem, List.foldl_cons, hstep,
          foldl_settled services hrest (Or.inr hpar.standard) rfl,
          List.filter_cons_of_pos (by simpa using hself), List.foldl_cons]
  · have hsystem : system table req services = req := by simp only [system, if_neg hzero]
    rw [hsystem]
    exact foldl_settled services htable (Or.inl hzero) rfl

theorem foldl_lines (pars : List TimedPar) (w : Extent) (i : Fin 2) :
    (pars.foldl includeService w).lines i =
      grow (w.lines i) ((pars.filter (usesField · i)).map (range · i)) := by
  induction pars generalizing w with
  | nil => rfl
  | cons par pars ih =>
    rw [List.foldl_cons, ih]
    by_cases huse : usesField par i = true
    · simp only [includeService, huse, if_true, List.filter_cons_of_pos, List.map_cons, grow,
        List.foldl_cons]
    · simp only [includeService, huse, Bool.false_eq_true, if_false, not_false_eq_true,
        List.filter_cons_of_neg]

theorem foldl_offset (pars : List TimedPar) (w : Extent) :
    (pars.foldl includeService w).offset ≤ w.offset ∧
      (∀ par ∈ pars, (pars.foldl includeService w).offset ≤ samplesOffset par) ∧
      ∀ b, b ≤ w.offset → (∀ par ∈ pars, b ≤ samplesOffset par) →
        b ≤ (pars.foldl includeService w).offset := by
  induction pars generalizing w with
  | nil => exact ⟨Nat.le_refl _, by simp, fun b hb _ => hb⟩
  | cons par pars ih =>
    obtain ⟨hle, hall, hlow⟩ := ih (includeService w par)
    have hmin : (includeService w par).offset = min w.offset (samplesOffset par) := rfl
    rw [hmin] at hle hlow
    rw [List.foldl_cons]
    refine ⟨by omega, ?_, ?_⟩
    · intro p hp
      rcases List.mem_cons.mp hp with rfl | hp
      · omega
      · exact hall p hp
    · intro b hb hbs
      have hpar := hbs par List.mem_cons_self
      exact hlow b (by omega) fun p hp => hbs p (List.mem_cons_of_mem par hp)

theorem foldl_services (pars : List TimedPar) (w : Extent) (k : Nat) :
    (pars.foldl includeService w).services.getLsbD k = true ↔
      w.services.getLsbD k = true ∨ ∃ par ∈ pars, par.id.getLsbD k = true := by
  induction pars generalizing w with
  | nil => simp
  | cons par pars ih =>
    have hor : (includeService w par).services = w.services ||| par.id := rfl
    rw [List.foldl_cons, ih, hor, BitVec.getLsbD_or, Bool.or_eq_true]
    simp only [List.mem_cons, exists_eq_or_imp, or_assoc]

theorem received_system (htable : ∀ par ∈ table, Tabled par) :
    (∀ par ∈ received table req services, par.videostdSet = videostdSet625) ∨
      ∀ par ∈ received table req services, par.videostdSet = videostdSet525 := by
  by_cases hreq : ambiguous req = true
  · left
    simp [received, hreq]
  simp only [received, if_neg hreq]
  have hmem : ∀ par ∈ (requested table services).filter fun par =>
      par.videostdSet &&& system table req services ≠ 0,
      Tabled par ∧ par.videostdSet &&& system table req services ≠ 0 := by
    intro par hpar
    obtain ⟨hrequested, hstd⟩ := List.mem_filter.mp hpar
    exact ⟨htable par (List.mem_of_mem_filter hrequested), of_decide_eq_true hstd⟩
  by_cases hzero : req = 0
  · -- the system of the first service
    cases hfirst : requested table services with
    | nil =>
      left
      simp
    | cons first rest =>
      have hsystem : system table req services = first.videostdSet := by
        simp only [system, if_pos hzero, hfirst, List.head?_cons, Option.map_some, Option.getD_some]
      have hin : first ∈ requested table services := by rw [hfirst]; exact List.mem_cons_self
      have hstandard := (htable first (List.mem_of_mem_filter hin)).standard
      rw [hfirst, hsystem] at hmem
      rw [hsystem]
      rcases hstandard with h | h
      · left
        intro par hpar
        obtain ⟨htab, hstd⟩ := hmem par hpar
        exact ((standard_and htab.standard (Or.inl h)).mp hstd).trans h
      · right
        intro par hpar
        obtain ⟨htab, hstd⟩ := hmem par hpar
        exact ((standard_and htab.standard (Or.inr h)).mp hstd).trans h
  · have hsystem : system table req services = req := by simp only [system, if_neg hzero]
    rw [hsystem] at hmem ⊢
    simp only [ambiguous, decide_eq_true_eq, not_and, not_or] at hreq
    by_cases h525 : videostdSet525 &&& req = 0
    · left
      intro par hpar
      obtain ⟨htab, hstd⟩ := hmem par hpar
      refine htab.standard.resolve_right fun h => hstd ?_
      rw [h, h525]
    · right
      intro par hpar
      obtain ⟨htab, hstd⟩ := hmem par hpar
      refine htab.standard.resolve_left fun h => hstd ?_
      rw [h]
      exact not_not.mp ((hreq hzero).2 h525)

/-- The signals of one system fit in the shortest line, wherever the window begins. -/
theorem signalEnd_le (hpars : ∀ par ∈ pars, Tabled par)
    (hsystem : (∀ par ∈ pars, par.videostdSet = videostdSet625) ∨
      ∀ par ∈ pars, par.videostdSet = videostdSet525) (hw : 270 ≤ w.offset)
    (hpar : par ∈ pars) :
    signalEnd par ≤ ((pars.foldl includeService w).offset + 1440 : Nat) := by
  obtain ⟨-, -, hlow⟩ := foldl_offset pars w
  rcases hsystem with h | h
  · have hoffset := hlow 270 hw fun p hp => ((hpars p hp).ends625 (h p hp)).1
    have hend := ((hpars par hpar).ends625 (h par hpar)).2
    refine hend.trans ?_
    exact_mod_cast (show 1710 ≤ (pars.foldl includeService w).offset + 1440 by omega)
  · have hoffset := hlow 256 (by omega) fun p hp => ((hpars p hp).ends525 (h p hp)).1
    have hend := ((hpars par hpar).ends525 (h par hpar)).2
    refine hend.trans ?_
    exact_mod_cast (show 1696 ≤ (pars.foldl includeService w).offset + 1440 by omega)

theorem initialExtent_offset (set : VideostdSet) : 270 ≤ (initialExtent set).offset := by
  have h : 270 ≤ truncate (double (double (64 / 1000000) * samplingRate)) := by decide +kernel
  exact h

theorem isMember_of_included (w : Extent) (h : par ∈ pars) :
    isMember (pars.foldl includeService w).services par = true := by
  rw [isMember, decide_eq_true_eq]
  apply BitVec.eq_of_getLsbD_eq
  intro k hk
  rw [BitVec.getLsbD_and]
  cases hbit : par.id.getLsbD k with
  | false => rfl
  | true =>
    rw [(foldl_services pars w k).mpr (Or.inr ⟨par, h, hbit⟩)]
    rfl

theorem included_of_isMember {pars : List TimedPar} (hpars : ∀ par ∈ pars, par ∈ timedServiceTable)
    (set : VideostdSet) {par : TimedPar} (hpar : par ∈ timedServiceTable)
    (h : isMember (pars.foldl includeService (initialExtent set)).services par = true) :
    ∃ other ∈ pars, (∀ i, usesField par i → usesField other i ∧ other.first i ≤ par.first i ∧
      par.last i ≤ other.last i) ∧ signalBegin other = signalBegin par ∧
      signalEnd other = signalEnd par := by
  obtain ⟨k, hbit, hall⟩ := bit_included par hpar
  rw [isMember, decide_eq_true_eq] at h
  have hset : (pars.foldl includeService (initialExtent set)).services.getLsbD k = true := by
    rw [← h, BitVec.getLsbD_and, Bool.and_eq_true] at hbit
    exact hbit.2
  rcases (foldl_services pars _ k).mp hset with hzero | ⟨other, hother, hobit⟩
  · simp [initialExtent] at hzero
  · obtain ⟨hlines, -, hbegin, hend⟩ := hall other (hpars other hother) hobit
    exact ⟨other, hother, hlines, hbegin, hend⟩

theorem covers_samplingOf
    (hmem : ∀ par ∈ table, par ∈ timedServiceTable) (hsub : ∀ par ∈ pars, par ∈ table)
    (hsystem : (∀ par ∈ pars, par.videostdSet = videostdSet625) ∨
      ∀ par ∈ pars, par.videostdSet = videostdSet525) (set : VideostdSet) :
    Covers table (samplingOf (pars.foldl includeService (initialExtent set)))
        (pars.foldl includeService (initialExtent set)).services ↔
      ∀ i, (pars.filter (usesField · i)).map (range · i) = [] ∨
        Reaches ((pars.filter (usesField · i)).map (range · i)) := by
  have htabled : ∀ par ∈ pars, Tabled par := fun par hpar => tabled (hmem par (hsub par hpar))
  have hlines := foldl_lines pars (initialExtent set)
  have hinit : ∀ i, (initialExtent set).lines i = ⟨30000, 0⟩ := fun _ => rfl
  have hranges : ∀ i, ∀ x ∈ (pars.filter (usesField · i)).map (range · i),
      x.1 ≤ x.2 ∧ x.1 ≤ 30000 := by
    intro i x hx
    obtain ⟨par, hpar, rfl⟩ := List.mem_map.mp hx
    obtain ⟨hin, huse⟩ := List.mem_filter.mp hpar
    exact (htabled par hin).ranges i huse
  have hrange : ∀ par ∈ pars, ∀ i, usesField par i = true →
      range par i ∈ (pars.filter (usesField · i)).map (range · i) := by
    intro par hpar i huse
    exact List.mem_map_of_mem (List.mem_filter.mpr ⟨hpar, huse⟩)
  -- a field in use has lines, and its start is not cleared
  have hpos : ∀ par ∈ pars, ∀ i, usesField par i = true →
      0 < ((pars.foldl includeService (initialExtent set)).lines i).count := by
    intro par hpar i huse
    rw [hlines]
    exact grow_pos (List.ne_nil_of_mem (hrange par hpar i huse)) (fun x hx => (hranges i x hx).1) _
  have hcontains : ∀ par ∈ pars, ∀ i, usesField par i = true →
      ((samplingOf (pars.foldl includeService (initialExtent set))).start i ≤ par.first i ∧
        par.last i < (samplingOf (pars.foldl includeService (initialExtent set))).start i +
          (samplingOf (pars.foldl includeService (initialExtent set))).count i ↔
      Contains (grow ⟨30000, 0⟩ ((pars.filter (usesField · i)).map (range · i)))
        (range par i)) := by
    intro par hpar i huse
    have hcount := Nat.ne_of_gt (hpos par hpar i huse)
    rw [hlines, hinit] at hcount
    simp only [samplingOf, hlines, hinit, if_neg hcount]
    exact Iff.rfl
  constructor
  · intro hcovers i
    by_cases hnil : (pars.filter (usesField · i)).map (range · i) = []
    · exact Or.inl hnil
    · refine Or.inr ((grow_contains_iff hnil (hranges i)).mp fun x hx => ?_)
      obtain ⟨par, hpar, rfl⟩ := List.mem_map.mp hx
      obtain ⟨hin, huse⟩ := List.mem_filter.mp hpar
      exact (hcontains par hin i huse).mp
        (hcovers.lines par (hsub par hin) (isMember_of_included _ hin) i huse)
  · intro hreach
    have hincluded := fun par hpar =>
      @included_of_isMember pars (fun p hp => hmem p (hsub p hp)) set par (hmem par hpar)
    refine ⟨?_, ?_, ?_⟩
    · intro par hpar hin i huse
      obtain ⟨other, hother, hwithin, -⟩ := hincluded par hpar hin
      obtain ⟨house, hfirst, hlast⟩ := hwithin i huse
      have hx := hrange other hother i house
      have hnil := List.ne_nil_of_mem hx
      have hall := (grow_contains_iff hnil (hranges i)).mpr ((hreach i).resolve_left hnil)
      obtain ⟨hstart, hend⟩ := (hcontains other hother i house).mpr (hall _ hx)
      exact ⟨hstart.trans hfirst, hlast.trans_lt hend⟩
    · intro i hunused
      have hnil : (pars.filter (usesField · i)).map (range · i) = [] := by
        rw [List.map_eq_nil_iff, List.filter_eq_nil_iff]
        exact fun par hpar => hunused par (hsub par hpar) (isMember_of_included _ hpar)
      simp only [samplingOf, hlines, hnil, hinit, grow, List.foldl_nil]
    · intro par hpar hin
      obtain ⟨other, hother, -, hbegin, hend⟩ := hincluded par hpar hin
      have htab := htabled other hother
      obtain ⟨i, huse⟩ := htab.used
      have hcount := hpos other hother i huse
      have hoffset : (samplingOf (pars.foldl includeService (initialExtent set))).format.offset =
          (pars.foldl includeService (initialExtent set)).offset := by
        simp only [samplingOf]
        rw [if_neg]
        exact fun hnone => Nat.ne_of_gt hcount (hnone i)
      obtain ⟨-, hle, -⟩ := foldl_offset pars (initialExtent set)
      rw [hoffset, ← hbegin, ← hend]
      constructor
      · refine le_trans ?_ htab.begins
        exact_mod_cast hle other hother
      · refine (signalEnd_le htabled hsystem (initialExtent_offset set) hother).trans ?_
        have hbytes : 1440 ≤
            (samplingOf (pars.foldl includeService (initialExtent set))).format.bytesPerLine :=
          Nat.le_max_left _ _
        exact_mod_cast Nat.add_le_add_left hbytes _

/-- The sampling window covers the services returned exactly if in each field one of
the services which end last does not come, in the table, before all services which
start first. -/
theorem sampling_window {table : List TimedPar} (h : table.Perm timedServiceTable)
    (req : VideostdSet) (services : ServiceSet) :
    Covers table (vbiSamplingParFromServices table req services).1
        (vbiSamplingParFromServices table req services).2.1 ↔
      ∀ i, fieldRanges table req services i = [] ∨ Reaches (fieldRanges table req services i) := by
  have hmem : ∀ par ∈ table, par ∈ timedServiceTable := fun par hpar => h.mem_iff.mp hpar
  have htable : ∀ par ∈ table, Tabled par := fun par hpar => tabled (hmem par hpar)
  have hsub : ∀ par ∈ received table req services, par ∈ table := by
    intro par hpar
    simp only [received] at hpar
    split at hpar
    · cases hpar
    · exact List.mem_of_mem_filter (List.mem_of_mem_filter hpar)
  -- nothing is returned, and nothing received
  have hnothing : received table req services = [] →
      (Covers table cleared 0 ↔
        ∀ i, fieldRanges table req services i = [] ∨
          Reaches (fieldRanges table req services i)) := by
    intro hnil
    have hno : ∀ par ∈ table, ¬isMember 0 par = true := by
      intro par hpar hin
      obtain ⟨k, hbit, -⟩ := bit_included par (hmem par hpar)
      rw [isMember, decide_eq_true_eq] at hin
      have hzero : par.id &&& (0 : ServiceSet) = 0 := BitVec.and_zero
      rw [← hin, hzero] at hbit
      simp at hbit
    refine ⟨fun _ i => Or.inl (by simp [fieldRanges, hnil]), fun _ => ⟨?_, ?_, ?_⟩⟩
    · exact fun par hpar hin => absurd hin (hno par hpar)
    · exact fun _ _ => rfl
    · exact fun par hpar hin => absurd hin (hno par hpar)
  by_cases hreq : ambiguous req = true
  · rw [vbiSamplingParFromServices, if_pos hreq]
    exact hnothing (by simp only [received, if_pos hreq])
  have hloop := foldl_received htable services (Bool.not_eq_true _ ▸ hreq)
  rw [vbiSamplingParFromServices, if_neg hreq, hloop]
  by_cases hnil : received table req services = []
  · rw [hnil]
    exact hnothing hnil
  · obtain ⟨par, hpar⟩ := List.exists_mem_of_ne_nil _ hnil
    have hsome : ((received table req services).foldl includeService
        (initialExtent (system table req services))).services ≠ 0 := by
      intro hzero
      obtain ⟨k, hbit, -⟩ := bit_included par (hmem par (hsub par hpar))
      have hset := (foldl_services (received table req services)
        (initialExtent (system table req services)) k).mpr (Or.inr ⟨par, hpar, hbit⟩)
      rw [hzero] at hset
      simp at hset
    simp only [if_neg hsome]
    exact covers_samplingOf hmem hsub (received_system htable) _

/-- Teletext, a service within its lines, and one on the line after them. -/
theorem sampling_window_teletext :
    Covers timedServiceTable
      (vbiSamplingParFromServices timedServiceTable 0
        (vbiSlicedTeletextB ||| vbiSlicedWss625 ||| vbiSlicedVps)).1
      (vbiSamplingParFromServices timedServiceTable 0
        (vbiSlicedTeletextB ||| vbiSlicedWss625 ||| vbiSlicedVps)).2.1 := by
  refine (sampling_window (List.Perm.refl _) 0 _).mpr fun i => Or.inr ?_
  have hranges : fieldRanges timedServiceTable 0
      (vbiSlicedTeletextB ||| vbiSlicedWss625 ||| vbiSlicedVps) i =
      ![[(7, 22), (6, 22), (16, 16), (23, 23)], [(320, 335), (318, 335)]] i := by
    revert i
    decide +kernel
  rw [hranges]
  fin_cases i
  · exact ⟨[(7, 22), (6, 22), (16, 16)], (23, 23), [], rfl, by decide, (6, 22), by decide, by decide⟩
  · exact ⟨[(320, 335)], (318, 335), [], rfl, by decide, (318, 335), by decide, by decide⟩

/-- Line 23 of the wide screen signal is lost when the window is extended to line 22
for captions. -/
theorem sampling_window_lost :
    (vbiSamplingParFromServices timedServiceTable 0
        (vbiSlicedWss625 ||| vbiSlicedCaption625F1)).2.1 =
      vbiSlicedWss625 ||| vbiSlicedCaption625F1 ∧
    (vbiSamplingParFromServices timedServiceTable 0
        (vbiSlicedWss625 ||| vbiSlicedCaption625F1)).1.start 0 = 22 ∧
    (vbiSamplingParFromServices timedServiceTable 0
        (vbiSlicedWss625 ||| vbiSlicedCaption625F1)).1.count 0 = 1 ∧
    ¬Covers timedServiceTable
      (vbiSamplingParFromServices timedServiceTable 0
        (vbiSlicedWss625 ||| vbiSlicedCaption625F1)).1
      (vbiSamplingParFromServices timedServiceTable 0
        (vbiSlicedWss625 ||| vbiSlicedCaption625F1)).2.1 := by
  refine ⟨by decide +kernel, by decide +kernel, by decide +kernel, ?_⟩
  intro h
  have hlines : ∀ par ∈ timedServiceTable,
      isMember (vbiSamplingParFromServices timedServiceTable 0
        (vbiSlicedWss625 ||| vbiSlicedCaption625F1)).2.1 par → ∀ i, usesField par i →
      par.last i < (vbiSamplingParFromServices timedServiceTable 0
          (vbiSlicedWss625 ||| vbiSlicedCaption625F1)).1.start i +
        (vbiSamplingParFromServices timedServiceTable 0
          (vbiSlicedWss625 ||| vbiSlicedCaption625F1)).1.count i :=
    fun par hpar hin i huse => (h.lines par hpar hin i huse).2
  exact absurd hlines (by decide +kernel)

end SamplingWindow

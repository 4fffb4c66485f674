import Mathlib
import Zvbi.SamplingWindow

/-!
# Checks of sampling parameters

Sampling parameters are valid if the lines of each field are lines of the video standard. A
service is permitted if the parameters are good enough to decode it. Where strict matching is
requested all lines of the service must have been sampled.
-/

namespace SamplingChecks
open RawDecoder SamplingWindow

/-- `_vbi_videostd_set_from_scanning()`. -/
def videostdSetFromScanning (scanning : Nat) : VideostdSet :=
  if scanning = 525 then videostdSet525 else if scanning = 625 then videostdSet625 else 0

def rangeCheck (start count min max : Nat) : Bool := min ≤ start ∧ start + count ≤ max

def vbiPixfmtBpp (samplingFormat : Nat) : Nat :=
  if samplingFormat = pixfmtYuv420 then 1
  else if 32 ≤ samplingFormat ∧ samplingFormat ≤ 35 then 4
  else if samplingFormat = 36 ∨ samplingFormat = 37 then 3
  else 2

def fieldLimits (set : VideostdSet) (field : Fin 2) : Nat × Nat :=
  if set = videostdSet525 then ![(1, 262), (263, 525)] field else ![(1, 311), (312, 625)] field

/-- `_vbi_sampling_par_valid_log()`. -/
def vbiSamplingParValid (sp : SamplingPar LineFormat) : Bool :=
  let set := videostdSetFromScanning sp.format.scanning
  (sp.format.samplingFormat = pixfmtYuv420 ∨
      sp.format.bytesPerLine % vbiPixfmtBpp sp.format.samplingFormat = 0) ∧
    sp.format.bytesPerLine ≠ 0 ∧ (sp.counts.1 ≠ 0 ∨ sp.counts.2 ≠ 0) ∧ set ≠ 0 ∧
    (∀ field, sp.start field ≠ 0 →
      rangeCheck (sp.start field) (sp.count field) (fieldLimits set field).1
        (fieldLimits set field).2) ∧
    (sp.format.interlaced → sp.counts.1 = sp.counts.2 ∧ sp.counts.1 ≠ 0)

/-- A service with its flags `_VBI_SP_FIELD_NUM` and `_VBI_SP_LINE_NUM`. -/
structure CheckedPar extends TimedPar where
  fieldNum : Bool
  lineNum : Bool

def checkedServiceTable : List CheckedPar :=
  List.zipWith (fun par flags => ⟨par, flags.1, flags.2⟩) timedServiceTable
    [(false, false), (false, false), (false, false), (false, false), (false, false),
      (true, false), (true, false), (true, true), (true, false), (true, false), (false, false),
      (false, false), (false, false), (false, false), (true, true), (true, true), (true, false),
      (false, false)]

def minimumRate (par : CheckedPar) : Nat :=
  let rate := max par.signal.criRate par.signal.bitRate
  if par.id = vbiSlicedWss625 then rate else rate * 3 / 2

/-- The length of a line in seconds, with some headroom if `strict` is set. -/
def lineLength (format : LineFormat) (strict : Int) : ℚ :=
  let samplesPerLine := format.bytesPerLine / vbiPixfmtBpp format.samplingFormat
  let samples := double (samplesPerLine / format.samplingRate)
  if 0 < strict then double (samples - double (1 / 1000000)) else samples

def permitField (sp : SamplingPar LineFormat) (par : ServicePar) (strict : Int)
    (field : Fin 2) : Bool :=
  if par.first field = 0 ∨ par.last field = 0 then true
  else if sp.count field = 0 then false
  else if strict ≤ 0 ∨ sp.start field = 0 then true
  else if strict = 1 ∧ par.last field < par.first field then true
  else
    sp.start field ≤ par.first field ∧ par.last field ≤ sp.start field + sp.count field - 1

def vbiSamplingParPermitService (sp : SamplingPar LineFormat) (par : CheckedPar)
    (strict : Int) : Bool :=
  par.videostdSet &&& videostdSetFromScanning sp.format.scanning ≠ 0 ∧
    (par.lineNum → ∀ field, par.first field ≠ 0 → sp.start field ≠ 0) ∧
    minimumRate par ≤ sp.format.samplingRate ∧
    signalLength par.toTimedPar ≤ lineLength sp.format strict ∧
    (par.fieldNum → sp.synchronous) ∧
    ∀ field, permitField sp par.toServicePar strict field

/-- `_vbi_sampling_par_check_services_log()`. -/
def vbiSamplingParCheckServices (sp : SamplingPar LineFormat) (services : ServiceSet)
    (strict : Int) : ServiceSet :=
  checkedServiceTable.foldl (fun rservices par =>
    if par.id &&& services = 0 then rservices
    else if vbiSamplingParPermitService sp par strict then rservices ||| par.id
    else rservices) 0

def samplingChecks : Checks LineFormat where
  cleared := cleared.format
  valid := vbiSamplingParValid
  permits sp services strict := vbiSamplingParCheckServices sp services strict ≠ 0

def Apart {Format : Type} (sp : SamplingPar Format) (par : ServicePar) (field : Fin 2) : Prop :=
  par.first field ≠ 0 ∧ par.last field ≠ 0 ∧ sp.count field ≠ 0 ∧
    (sp.start field + sp.count field - 1 < par.first field ∨ par.last field < sp.start field)

instance {Format : Type} (sp : SamplingPar Format) (par : ServicePar) (field : Fin 2) :
    Decidable (Apart sp par field) :=
  inferInstanceAs (Decidable (_ ∧ _))

theorem common_lines : ∀ par ∈ vbiServiceTable, ∀ par' ∈ checkedServiceTable,
    par'.id &&& par.id ≠ 0 → ∀ field, par.first field ≠ 0 → par.last field ≠ 0 →
      par'.first field ≠ 0 ∧ par'.first field ≤ par'.last field ∧
        par.first field ≤ par'.last field ∧ par'.first field ≤ par.last field := by
  decide +kernel

variable {sp : SamplingPar LineFormat} {strict : Int}

theorem check_permits {services : ServiceSet}
    (h : samplingChecks.permits sp services strict = true) : ∃ par ∈ checkedServiceTable,
      par.id &&& services ≠ 0 ∧ vbiSamplingParPermitService sp par strict = true := by
  have hne : vbiSamplingParCheckServices sp services strict ≠ 0 := of_decide_eq_true h
  by_contra hexists
  have hnone : ∀ par ∈ checkedServiceTable, par.id &&& services ≠ 0 →
      ¬vbiSamplingParPermitService sp par strict = true :=
    fun par hpar hservice hpermit => hexists ⟨par, hpar, hservice, hpermit⟩
  clear hexists
  refine hne ?_
  rw [vbiSamplingParCheckServices]
  generalize checkedServiceTable = table at hnone
  induction table with
  | nil => rfl
  | cons par table ih =>
    rw [List.forall_mem_cons] at hnone
    rw [List.foldl_cons]
    split
    · exact ih hnone.2
    · rename_i hservice
      rw [if_neg (hnone.1 hservice)]
      exact ih hnone.2

theorem permitService_field {par : CheckedPar}
    (h : vbiSamplingParPermitService sp par strict = true) (field : Fin 2) :
    permitField sp par.toServicePar strict field = true :=
  (of_decide_eq_true h).2.2.2.2.2 field

/-- If strict matching is requested the services have lines which have been sampled. -/
theorem not_apart_strict {par : ServicePar} {field : Fin 2} (hpar : par ∈ vbiServiceTable)
    (hstrict : 0 < strict) (hstart : sp.start field ≠ 0)
    (h : samplingChecks.permits sp par.id strict = true) : ¬Apart sp par field := by
  rintro ⟨hfirst, hlast, hcount, happart⟩
  obtain ⟨par', hpar', hservice, hpermit⟩ := check_permits h
  obtain ⟨hfirst', horder, hbefore, hbehind⟩ :=
    common_lines par hpar par' hpar' hservice field hfirst hlast
  have hfield := permitService_field hpermit field
  rw [permitField, if_neg (by omega), if_neg hcount, if_neg (by omega), if_neg (by omega),
    decide_eq_true_eq] at hfield
  omega

end SamplingChecks

import Mathlib.Data.Fin.VecNotation
import Mathlib.Data.Finset.Image

/-!
# The raw VBI decoder

The decoder looks for several data services on each scan line. A job is a service, or
services with the same signal, and each line has a pattern of eight ways: the numbers of
the jobs to try, with zeros and a negative counter. The decoder learns which job to try first.

The bit slicer finds data or not, whatever the job and the line. A step without a result reads
outside of a pattern, or uses a job or a pattern which does not exist.
-/

namespace RawDecoder

abbrev ServiceSet := BitVec 32

def vbiSlicedTeletextA : ServiceSet := 0x00002000
def vbiSlicedTeletextBL10 : ServiceSet := 0x00000001
def vbiSlicedTeletextBL25 : ServiceSet := 0x00000002
def vbiSlicedTeletextB : ServiceSet := vbiSlicedTeletextBL10 ||| vbiSlicedTeletextBL25
def vbiSlicedTeletextC625 : ServiceSet := 0x00004000
def vbiSlicedTeletextD625 : ServiceSet := 0x00008000
def vbiSlicedVps : ServiceSet := 0x00000004
def vbiSlicedVpsF2 : ServiceSet := 0x00001000
def vbiSlicedCaption625F1 : ServiceSet := 0x00000008
def vbiSlicedCaption625F2 : ServiceSet := 0x00000010
def vbiSlicedCaption625 : ServiceSet := vbiSlicedCaption625F1 ||| vbiSlicedCaption625F2
def vbiSlicedWss625 : ServiceSet := 0x00000400
def vbiSlicedCaption525F1 : ServiceSet := 0x00000020
def vbiSlicedCaption525F2 : ServiceSet := 0x00000040
def vbiSlicedCaption525 : ServiceSet := vbiSlicedCaption525F1 ||| vbiSlicedCaption525F2
def vbiSliced2xCaption525 : ServiceSet := 0x00000080
def vbiSlicedTeletextB525 : ServiceSet := 0x00010000
def vbiSlicedTeletextC525 : ServiceSet := 0x00000100
def vbiSlicedTeletextD525 : ServiceSet := 0x00020000
def vbiSlicedVbi625 : ServiceSet := 0x20000000
def vbiSlicedVbi525 : ServiceSet := 0x40000000

inductive Modulation
  | nrzLsb
  | nrzMsb
  | biphaseLsb
  | biphaseMsb
  deriving DecidableEq

/-- What `vbi3_bit_slicer_set_params()` is told about a service. -/
structure Signal where
  criRate : Nat
  bitRate : Nat
  criFrc : Nat
  criFrcMask : Nat
  criBits : Nat
  frcBits : Nat
  payload : Nat
  modulation : Modulation
  deriving DecidableEq

/-- `_vbi_service_par`, with the first and last line in each field. -/
structure ServicePar where
  id : ServiceSet
  first : Fin 2 → Nat
  last : Fin 2 → Nat
  signal : Signal

def vbiServiceTable : List ServicePar :=
  [⟨vbiSlicedTeletextA, ![6, 318], ![22, 335],
      ⟨6203125, 6203125, 0x00AAAAE7, 0xFFFF, 18, 6, 37 * 8, .nrzLsb⟩⟩,
    ⟨vbiSlicedTeletextBL10, ![7, 320], ![22, 335],
      ⟨6937500, 6937500, 0x00AAAAE4, 0xFFFF, 18, 6, 42 * 8, .nrzLsb⟩⟩,
    ⟨vbiSlicedTeletextB, ![6, 318], ![22, 335],
      ⟨6937500, 6937500, 0x00AAAAE4, 0xFFFF, 18, 6, 42 * 8, .nrzLsb⟩⟩,
    ⟨vbiSlicedTeletextC625, ![6, 318], ![22, 335],
      ⟨5734375, 5734375, 0x00AAAAE7, 0xFFFF, 18, 6, 33 * 8, .nrzLsb⟩⟩,
    ⟨vbiSlicedTeletextD625, ![6, 318], ![22, 335],
      ⟨5642787, 5642787, 0x00AAAAE5, 0xFFFF, 18, 6, 34 * 8, .nrzLsb⟩⟩,
    ⟨vbiSlicedVps, ![16, 0], ![16, 0],
      ⟨5000000, 2500000, 0xAAAA8A99, 0xFFFFFF, 32, 0, 13 * 8, .biphaseMsb⟩⟩,
    ⟨vbiSlicedVpsF2, ![0, 329], ![0, 329],
      ⟨5000000, 2500000, 0xAAAA8A99, 0xFFFFFF, 32, 0, 13 * 8, .biphaseMsb⟩⟩,
    ⟨vbiSlicedWss625, ![23, 0], ![23, 0],
      ⟨5000000, 833333, 0x8E3C783E, 0x2499339C, 32, 0, 14 * 1, .biphaseLsb⟩⟩,
    ⟨vbiSlicedCaption625F1, ![22, 0], ![22, 0],
      ⟨1000000, 500000, 0x00005551, 0x7FF, 14, 2, 2 * 8, .nrzLsb⟩⟩,
    ⟨vbiSlicedCaption625F2, ![0, 335], ![0, 335],
      ⟨1000000, 500000, 0x00005551, 0x7FF, 14, 2, 2 * 8, .nrzLsb⟩⟩,
    ⟨vbiSlicedVbi625, ![6, 318], ![22, 335], ⟨1510000, 1510000, 0, 0, 0, 0, 10 * 8, .nrzLsb⟩⟩,
    ⟨vbiSlicedTeletextB525, ![10, 272], ![21, 284],
      ⟨5727272, 5727272, 0x00AAAAE4, 0xFFFF, 18, 6, 34 * 8, .nrzLsb⟩⟩,
    ⟨vbiSlicedTeletextC525, ![10, 272], ![21, 284],
      ⟨5727272, 5727272, 0x00AAAAE7, 0xFFFF, 18, 6, 33 * 8, .nrzLsb⟩⟩,
    ⟨vbiSlicedTeletextD525, ![10, 272], ![21, 284],
      ⟨5727272, 5727272, 0x00AAAAE5, 0xFFFF, 18, 6, 34 * 8, .nrzLsb⟩⟩,
    ⟨vbiSlicedCaption525F1, ![21, 0], ![21, 0],
      ⟨1006976, 503488, 0x03, 0x0F, 4, 0, 2 * 8, .nrzLsb⟩⟩,
    ⟨vbiSlicedCaption525F2, ![0, 284], ![0, 284],
      ⟨1006976, 503488, 0x03, 0x0F, 4, 0, 2 * 8, .nrzLsb⟩⟩,
    ⟨vbiSliced2xCaption525, ![10, 0], ![21, 0],
      ⟨1006976, 1006976, 0x000554ED, 0xFFFF, 12, 8, 4 * 8, .nrzLsb⟩⟩,
    ⟨vbiSlicedVbi525, ![10, 272], ![21, 284], ⟨1510000, 1510000, 0, 0, 0, 0, 10 * 8, .nrzLsb⟩⟩]

/-- `vbi_sampling_par`. The format has what only the checks and the bit slicer look at. -/
structure SamplingPar (Format : Type) where
  start : Fin 2 → Nat
  count : Fin 2 → Nat
  synchronous : Bool
  format : Format

/-- `_vbi3_raw_decoder_job`. -/
structure Job where
  id : ServiceSet
  slicer : Signal

abbrev Pattern := List Int

/-- `_VBI3_RAW_DECODER_MAX_JOBS` and `_VBI3_RAW_DECODER_MAX_WAYS`. -/
def maxJobs : Nat := 8
def maxWays : Nat := 8

variable {Format : Type}

/-- `vbi3_raw_decoder`, with a pattern for each scan line if the array is allocated. -/
structure Decoder (Format : Type) where
  sampling : SamplingPar Format
  services : ServiceSet
  readjust : Nat
  pattern : Option (List Pattern)
  jobs : List Job

structure Sliced where
  id : ServiceSet
  line : Nat
  deriving DecidableEq

structure Checks (Format : Type) where
  cleared : Format
  valid : SamplingPar Format → Bool
  permits : SamplingPar Format → ServiceSet → Int → Bool

/-- What was done to the patterns and to the services: a job was assigned to lines for a
service, the job with a number was dropped and those above moved down, services were removed,
or everything was. -/
inductive Event
  | assign (job : Nat) (par : ServicePar) (lines : List Nat)
  | drop (job : Nat)
  | remove (services : ServiceSet)
  | clear

inductive SearchEnd
  | found (way : Nat)
  | blank (way : Nat)
  | overrun

/-- The loop of `decode_pattern()` over the jobs which find nothing. -/
def search (slice : Nat → Bool) : Nat → Pattern → SearchEnd
  | _, [] => .overrun
  | way, num :: pattern =>
    if 0 < num then
      if slice way then .found way else search slice (way + 1) pattern
    else
      .blank way

/-- `*pat = pattern[0]; pattern[0] = j`. -/
def exchange (pattern : Pattern) (way : Nat) (j : Int) : Pattern :=
  (pattern.set way (pattern.getD 0 0)).set 0 j

/-- `decode_pattern()`, with the number of the job which found data. -/
def decodePattern (readjust : Nat) (slice : Nat → Bool) (pattern : Pattern) :
    Option (Pattern × Option Int) :=
  match search slice 0 pattern with
  | .overrun => none
  | .found way =>
    let j := pattern.getD way 0
    some (exchange (pattern.set (maxWays - 1) (-128)) way j, some j)
  | .blank way =>
    if way = 0 then
      if readjust = 0 then some (pattern.drop 1 ++ pattern.take 1, none)
      else some (pattern, none)
    else if pattern.getD (maxWays - 1) 0 < 0 then
      some (pattern, none)
    else
      some (exchange pattern way (pattern.getD (maxWays - 1) 0), none)

def lineNumber (sp : SamplingPar Format) (i : Nat) : Nat :=
  if sp.count 0 ≤ i then
    if sp.synchronous ∧ sp.start 1 ≠ 0 then sp.start 1 + i - sp.count 0 else 0
  else
    if sp.synchronous ∧ sp.start 0 ≠ 0 then sp.start 0 + i else 0

def fieldOffset (sp : SamplingPar Format) (field : Fin 2) : Nat :=
  if field = 0 then 0 else sp.count 0

/-- The number of scan lines of both fields. -/
def SamplingPar.counts (sp : SamplingPar Format) : Nat × Nat := (sp.count 0, sp.count 1)

/-- The loop over the scan lines from line `i` on, as long as there is room for data. -/
def decodeLines (rd : Decoder Format) (slice : Nat → Nat → Bool) :
    Nat → Nat → List Pattern → Option (List Pattern × List Sliced)
  | _, _, [] => some ([], [])
  | i, room, pattern :: patterns =>
    if room = 0 then
      some (pattern :: patterns, [])
    else do
      let r ← decodePattern rd.readjust (slice i) pattern
      match r.2 with
      | none =>
        let s ← decodeLines rd slice (i + 1) room patterns
        some (r.1 :: s.1, s.2)
      | some j =>
        let job ← rd.jobs[(j - 1).toNat]?
        let s ← decodeLines rd slice (i + 1) (room - 1) patterns
        some (r.1 :: s.1, ⟨job.id, lineNumber rd.sampling i⟩ :: s.2)

/-- `vbi3_raw_decoder_decode()`. The bit slicer is called for a line and a way of its pattern. -/
def vbi3RawDecoderDecode (rd : Decoder Format) (maxLines : Nat) (slice : Nat → Nat → Bool) :
    Option (Decoder Format × List Sliced) :=
  if rd.services = 0 then
    some (rd, [])
  else do
    let patterns ← rd.pattern
    let r ← decodeLines rd slice 0 maxLines patterns
    some ({ rd with pattern := some r.1, readjust := (rd.readjust + 1) % 16 }, r.2)

def vbi3RawDecoderReset (rd : Decoder Format) : Decoder Format :=
  { rd with pattern := none, services := 0, jobs := [], readjust := 1 }

def fillUp (kept : Pattern) : Pattern := kept ++ List.replicate (maxWays - kept.length) 0

/-- `remove_job_from_pattern()` for one line. -/
def removeJobFromPattern (job : Nat) (pattern : Pattern) : Pattern :=
  let num : Int := job + 1
  fillUp ((pattern.filter (· ≠ num)).map fun n => if num < n then n - 1 else n)

/-- The loop over the jobs from job `k` on. -/
def removeJobs (services : ServiceSet) :
    Nat → List Job → Option (List Pattern) → List Job × Option (List Pattern) × List Event
  | _, [], pattern => ([], pattern, [])
  | k, job :: jobs, pattern =>
    if job.id &&& services ≠ 0 then
      let r := removeJobs services k jobs (pattern.map (List.map (removeJobFromPattern k)))
      (r.1, r.2.1, .drop k :: r.2.2)
    else
      let r := removeJobs services (k + 1) jobs pattern
      (job :: r.1, r.2)

def vbi3RawDecoderRemoveServices (rd : Decoder Format) (services : ServiceSet) :
    Decoder Format × List Event :=
  let r := removeJobs services 0 rd.jobs rd.pattern
  ({ rd with jobs := r.1, pattern := r.2.1, services := rd.services &&& ~~~services },
    r.2.2 ++ [.remove services])

/-- The first loop of `add_job_to_pattern()`, which makes room in the patterns until it finds
one where only one way is left. -/
def reserveWays (num : Int) : List Nat → List Pattern → Option (List Pattern × Bool)
  | [], patterns => some (patterns, true)
  | line :: lines, patterns => do
    let pattern ← patterns[line]?
    let patterns := patterns.set line (fillUp (pattern.filter (0 < ·)))
    if pattern.countP (fun n => n ≤ 0 ∨ n = num) ≤ 1 then some (patterns, false)
    else reserveWays num lines patterns

def enterJob (num : Int) (pattern : Pattern) : Option Pattern :=
  let way := pattern.findIdx fun n => n ≤ 0 ∨ n = num
  if way < pattern.length then some ((pattern.set way num).set (maxWays - 1) (-128)) else none

def enterWays (num : Int) : List Nat → List Pattern → Option (List Pattern)
  | [], patterns => some patterns
  | line :: lines, patterns => do
    let pattern ← patterns[line]?
    let pattern ← enterJob num pattern
    enterWays num lines (patterns.set line pattern)

def addJobToPattern (job : Nat) (lines : List Nat) (patterns : List Pattern) :
    Option (List Pattern × Bool) := do
  let num : Int := job + 1
  let r ← reserveWays num lines patterns
  if r.2 then (enterWays num lines r.1).map fun patterns => (patterns, true) else some r

/-- `lines_containing_data()` for one field. If the service and the image have no line in
common all lines are searched. -/
def fieldLines (sp : SamplingPar Format) (par : ServicePar) (field : Fin 2) : List Nat :=
  let offset := if field = 0 then 0 else sp.count 0
  let first := sp.start field
  let last := first + sp.count field - 1
  if sp.synchronous = false then
    List.range' offset (sp.count field)
  else if par.first field = 0 ∨ par.last field = 0 then
    []
  else if first = 0 ∨ sp.count field = 0 ∨ last < par.first field ∨ par.last field < first then
    List.range' offset (sp.count field)
  else
    List.range' (offset + (max first (par.first field) - first))
      (min (par.last field) last + 1 - max first (par.first field))

def linesContainingData (sp : SamplingPar Format) (par : ServicePar) : List Nat :=
  fieldLines sp par 0 ++ fieldLines sp par 1

def mergeable (id : ServiceSet) : Bool :=
  id &&& ~~~vbiSlicedTeletextB = 0 ∨ id &&& ~~~vbiSlicedCaption525 = 0 ∨
    id &&& ~~~vbiSlicedCaption625 = 0 ∨ id &&& ~~~(vbiSlicedVps ||| vbiSlicedVpsF2) = 0

/-- A service for job `j`, a new one if there is no job with this number. -/
def addService (rd : Decoder Format) (j : Nat) (par : ServicePar) :
    Option (Decoder Format × List Event) := do
  let lines := linesContainingData rd.sampling par
  let patterns ← rd.pattern
  let rd := { rd with jobs := rd.jobs.modify j fun job => { job with slicer := par.signal } }
  let r ← addJobToPattern j lines patterns
  let rd := { rd with pattern := some r.1 }
  if r.2 then
    let jobs :=
      if j < rd.jobs.length then rd.jobs.modify j fun job => { job with id := job.id ||| par.id }
      else rd.jobs ++ [⟨par.id, par.signal⟩]
    some ({ rd with jobs := jobs, services := rd.services ||| par.id }, [.assign j par lines])
  else
    some (rd, [])

def addLoop (c : Checks Format) (services : ServiceSet) (strict : Int) :
    List ServicePar → Decoder Format → Option (Decoder Format × List Event)
  | [], rd => some (rd, [])
  | par :: table, rd =>
    if par.id &&& services = 0 then
      addLoop c services strict table rd
    else
      let j := rd.jobs.findIdx fun job => mergeable (job.id ||| par.id)
      if maxJobs ≤ j then
        some (rd, [])
      else if c.permits rd.sampling par.id strict = false then
        addLoop c services strict table rd
      else do
        let r ← addService rd j par
        let s ← addLoop c services strict table r.1
        some (s.1, r.2 ++ s.2)

def allocatePattern (rd : Decoder Format) (memory : Bool) : Option (List Pattern) :=
  match rd.pattern with
  | some patterns => some patterns
  | none =>
    if memory then
      some (List.replicate (rd.sampling.count 0 + rd.sampling.count 1) (List.replicate maxWays 0))
    else
      none

def newServices (rd : Decoder Format) (services : ServiceSet) : ServiceSet :=
  let services := services &&& ~~~(vbiSlicedVbi525 ||| vbiSlicedVbi625)
  if rd.services &&& services ≠ 0 then services &&& ~~~rd.services else services

def vbi3RawDecoderAddServices (c : Checks Format) (rd : Decoder Format) (services : ServiceSet)
    (strict : Int) (memory : Bool) : Option (Decoder Format × List Event) :=
  if newServices rd services = 0 then
    some (rd, [])
  else
    match allocatePattern rd memory with
    | none => some (rd, [])
    | some patterns =>
      addLoop c (newServices rd services) strict vbiServiceTable { rd with pattern := some patterns }

def vbi3RawDecoderSetSamplingPar (c : Checks Format) (rd : Decoder Format)
    (sp : SamplingPar Format) (strict : Int) (memory : Bool) :
    Option (Decoder Format × List Event) :=
  let services := rd.services
  let rd := vbi3RawDecoderReset rd
  if c.valid sp then do
    let r ← vbi3RawDecoderAddServices c { rd with sampling := sp } services strict memory
    some (r.1, .clear :: r.2)
  else
    some ({ rd with sampling := ⟨fun _ => 0, fun _ => 0, false, c.cleared⟩ }, [.clear])

/-- Calls of the decoder. Those which allocate come with the success of `vbi_malloc()`, and
decoding with that of each attempt of the bit slicer. -/
inductive Op (Format : Type)
  | addServices (services : ServiceSet) (strict : Int) (memory : Bool)
  | removeServices (services : ServiceSet)
  | setSamplingPar (sp : SamplingPar Format) (strict : Int) (memory : Bool)
  | reset
  | decode (maxLines : Nat) (slice : Nat → Nat → Bool)

/-- The decoder, what happened so far, and what the last call decoded. -/
structure World (Format : Type) where
  rd : Decoder Format
  log : List Event
  sliced : List Sliced

def World.after (w : World Format) (r : Decoder Format × List Event) : World Format :=
  ⟨r.1, w.log ++ r.2, []⟩

def step (c : Checks Format) (w : World Format) : Op Format → Option (World Format)
  | .addServices services strict memory =>
    (vbi3RawDecoderAddServices c w.rd services strict memory).map w.after
  | .removeServices services => some (w.after (vbi3RawDecoderRemoveServices w.rd services))
  | .setSamplingPar sp strict memory =>
    (vbi3RawDecoderSetSamplingPar c w.rd sp strict memory).map w.after
  | .reset => some (w.after (vbi3RawDecoderReset w.rd, [.clear]))
  | .decode maxLines slice =>
    (vbi3RawDecoderDecode w.rd maxLines slice).map fun r => ⟨r.1, w.log, r.2⟩

def clearedDecoder (c : Checks Format) : Decoder Format :=
  ⟨⟨fun _ => 0, fun _ => 0, false, c.cleared⟩, 0, 0, none, []⟩

/-- `vbi3_raw_decoder_new()`. There is no decoder for parameters which are not valid. -/
def vbi3RawDecoderNew (c : Checks Format) (sp : Option (SamplingPar Format)) :
    Option (Decoder Format) :=
  let rd := vbi3RawDecoderReset (clearedDecoder c)
  match sp with
  | none => some rd
  | some sp => if c.valid sp then some { rd with sampling := sp } else none

abbrev Assignment := Nat → Finset Nat

def renumber (dropped job : Nat) : Nat := if dropped < job then job - 1 else job

def Event.assignment (jobs : Assignment) : Event → Assignment
  | .assign job _ lines => fun i => if i ∈ lines then insert job (jobs i) else jobs i
  | .drop job => fun i => ((jobs i).erase job).image (renumber job)
  | .remove _ => jobs
  | .clear => fun _ => ∅

/-- The jobs assigned to each line, according to what happened. -/
def assignment (log : List Event) : Assignment := log.foldl Event.assignment fun _ => ∅

end RawDecoder

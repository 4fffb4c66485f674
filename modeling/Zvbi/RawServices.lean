import Zvbi.RawAssignments

/-!
# The services of the raw decoder

The services a decoder reports, its jobs and the patterns say the same, as long as services
which share a job are removed together.
-/

namespace RawServices
open RawDecoder RawPatterns RawAssignments GuardedRuns

variable {Format : Type} {c : Checks Format} {rd : Decoder Format}

def Within (a b : ServiceSet) : Prop := a &&& ~~~b = 0

variable {a b : ServiceSet} {j : Nat} {par : ServicePar} {events : List Event}
  {rd' : Decoder Format}

theorem within_iff : Within a b ↔ ∀ i, a.getLsbD i = true → b.getLsbD i = true := by
  constructor
  · intro h i hi
    have hlt := BitVec.lt_of_getLsbD hi
    have hbit : (a &&& ~~~b).getLsbD i = false := by
      rw [h]
      exact BitVec.getLsbD_zero
    rw [BitVec.getLsbD_and, BitVec.getLsbD_not, hi, decide_eq_true hlt, Bool.true_and,
      Bool.true_and, Bool.not_eq_false'] at hbit
    exact hbit
  · intro h
    refine BitVec.eq_of_getLsbD_eq fun i hi => ?_
    rw [BitVec.getLsbD_and, BitVec.getLsbD_not, decide_eq_true hi, Bool.true_and]
    cases ha : a.getLsbD i with
    | false => exact BitVec.getLsbD_zero.symm
    | true =>
      rw [h i ha]
      exact BitVec.getLsbD_zero.symm

theorem disjoint_iff : a &&& b = 0 ↔ ∀ i, a.getLsbD i = true → b.getLsbD i = false := by
  constructor
  · intro h i hi
    have hbit : (a &&& b).getLsbD i = false := by
      rw [h]
      exact BitVec.getLsbD_zero
    rw [BitVec.getLsbD_and, hi, Bool.true_and] at hbit
    exact hbit
  · intro h
    refine BitVec.eq_of_getLsbD_eq fun i _ => ?_
    rw [BitVec.getLsbD_and]
    cases ha : a.getLsbD i with
    | false => exact BitVec.getLsbD_zero.symm
    | true =>
      rw [h i ha]
      exact BitVec.getLsbD_zero.symm

theorem Within.trans {d : ServiceSet} (first : Within a b) (second : Within b d) :
    Within a d :=
  within_iff.mpr fun i hi => within_iff.mp second i (within_iff.mp first i hi)

theorem within_or_left (a b : ServiceSet) : Within a (a ||| b) := by
  refine within_iff.mpr fun i hi => ?_
  rw [BitVec.getLsbD_or, hi, Bool.true_or]

theorem within_or_right (a b : ServiceSet) : Within b (a ||| b) := by
  refine within_iff.mpr fun i hi => ?_
  rw [BitVec.getLsbD_or, hi, Bool.or_true]

def allServices (jobs : List Job) : ServiceSet := jobs.foldr (fun job ids => job.id ||| ids) 0

theorem allServices_bit (jobs : List Job) (i : Nat) :
    (allServices jobs).getLsbD i = true ↔ ∃ job ∈ jobs, job.id.getLsbD i = true := by
  induction jobs with
  | nil => simp [allServices]
  | cons job jobs ih =>
    rw [List.exists_mem_cons_iff, ← ih]
    change (job.id ||| allServices jobs).getLsbD i = true ↔ _
    rw [BitVec.getLsbD_or, Bool.or_eq_true]

/-- Equal sets have the same services. -/
theorem eq_of_bits (h : ∀ i, a.getLsbD i = true ↔ b.getLsbD i = true) : a = b :=
  BitVec.eq_of_getLsbD_eq fun i _ => Bool.eq_iff_iff.mpr (h i)

def Event.services (services : ServiceSet) : Event → ServiceSet
  | .assign _ par _ => services ||| par.id
  | .drop _ => services
  | .remove removed => services &&& ~~~removed
  | .clear => 0

def reported (log : List Event) : ServiceSet := log.foldl Event.services 0

structure Added where
  services : ServiceSet
  signal : Signal
  line : Nat

def Added.without (a : Added) (removed : ServiceSet) : Added :=
  { a with services := a.services &&& ~~~removed }

def Event.added (added : List Added) : Event → List Added
  | .assign _ par lines => added ++ lines.map fun line => ⟨par.id, par.signal, line⟩
  | .drop _ => added
  | .remove removed => (added.map (·.without removed)).filter (·.services ≠ 0)
  | .clear => []

def addedServices (log : List Event) : List Added := log.foldl Event.added []

def searchRun (pattern : Pattern) : List Int :=
  (if 0 < pattern.headD 0 then pattern else pattern.tail).takeWhile (0 < ·)

def Searched (rd : Decoder Format) (a : Added) : Prop :=
  ∃ (j : Nat) (job : Job) (patterns : List Pattern) (pattern : Pattern),
    rd.jobs[j]? = some job ∧ Within a.services job.id ∧ job.slicer = a.signal ∧
    rd.pattern = some patterns ∧ patterns[a.line]? = some pattern ∧
    (j : Int) + 1 ∈ searchRun pattern

/-- The services reported, the jobs, the lines decoded and the patterns agree. -/
structure Consistent (w : World Format) : Prop where
  union : w.rd.services = allServices w.rd.jobs
  reported : w.rd.services = reported w.log
  sliced : ∀ s ∈ w.sliced, Within s.id (RawServices.reported w.log)
  searched : ∀ a ∈ addedServices w.log, Searched w.rd a

def HasJob (js : List Job) (jobs : Assignment) (a : Added) : Prop :=
  ∃ (j : Nat) (job : Job), js[j]? = some job ∧ Within a.services job.id ∧ job.slicer = a.signal ∧
    j ∈ jobs a.line

structure Listed (rd : Decoder Format) (jobs : Assignment) (services : ServiceSet)
    (added : List Added) : Prop where
  union : rd.services = allServices rd.jobs
  reported : rd.services = services
  table : ∀ job ∈ rd.jobs, ∃ par ∈ vbiServiceTable, Within par.id job.id ∧ job.slicer = par.signal
  searched : ∀ a ∈ added, HasJob rd.jobs jobs a
  lines : ∀ a ∈ added, a.line < rd.sampling.count 0 + rd.sampling.count 1

variable {jobs : Assignment} {services : ServiceSet} {added : List Added}

/-- Services which may share a job have the same signal. -/
theorem same_signal : ∀ par ∈ vbiServiceTable, ∀ par' ∈ vbiServiceTable,
    mergeable (par.id ||| par'.id) = true → par.signal = par'.signal := by
  decide

theorem mergeable_mono (h : Within a b) (hb : mergeable b = true) : mergeable a = true := by
  rw [mergeable, decide_eq_true_eq] at hb ⊢
  have hwithin : ∀ mask, b &&& ~~~mask = 0 → a &&& ~~~mask = 0 :=
    fun mask hmask => Within.trans h hmask
  exact hb.imp (hwithin _) (Or.imp (hwithin _) (Or.imp (hwithin _) (hwithin _)))

/-- The jobs with a service for job `j`, which may be new. -/
def joinJob (js : List Job) (j : Nat) (par : ServicePar) : List Job :=
  if j < js.length then js.modify j fun job => { job with id := job.id ||| par.id }
  else js ++ [⟨par.id, par.signal⟩]

theorem modify_slicer (hpar : par ∈ vbiServiceTable)
    (htable : ∀ job ∈ rd.jobs, ∃ par ∈ vbiServiceTable,
      Within par.id job.id ∧ job.slicer = par.signal)
    (hj : j = rd.jobs.findIdx fun job => mergeable (job.id ||| par.id)) :
    (rd.jobs.modify j fun job => { job with slicer := par.signal }) = rd.jobs ∧
      ∀ job, rd.jobs[j]? = some job → job.slicer = par.signal := by
  have hsignal : ∀ job, rd.jobs[j]? = some job → job.slicer = par.signal := by
    intro job hjob
    obtain ⟨hlt, rfl⟩ := List.getElem?_eq_some_iff.mp hjob
    obtain ⟨par', hpar', hwithin, hslicer⟩ := htable _ (List.getElem_mem hlt)
    have hmergeable : mergeable (rd.jobs[j].id ||| par.id) = true := by
      subst hj
      exact List.findIdx_getElem (w := hlt)
    rw [hslicer]
    refine same_signal par' hpar' par hpar (mergeable_mono ?_ hmergeable)
    refine within_iff.mpr fun i hi => ?_
    rw [BitVec.getLsbD_or, Bool.or_eq_true] at hi ⊢
    exact hi.imp_left (within_iff.mp hwithin i)
  refine ⟨?_, hsignal⟩
  refine List.ext_getElem? fun i => ?_
  by_cases hi : j = i
  · subst hi
    rw [List.getElem?_modify_eq]
    cases hjob : rd.jobs[j]? with
    | none => rfl
    | some job =>
      exact congrArg (fun signal => some { job with slicer := signal }) (hsignal job hjob).symm
  · rw [List.getElem?_modify_ne _ _ hi]

theorem joinJob_getElem? (js : List Job) (j : Nat) (par : ServicePar) {i : Nat} {job : Job}
    (h : js[i]? = some job) : ∃ job', (joinJob js j par)[i]? = some job' ∧
      Within job.id job'.id ∧ job'.slicer = job.slicer := by
  have hlt := (List.getElem?_eq_some_iff.mp h).1
  rw [joinJob]
  split
  · rw [List.getElem?_modify, h]
    split
    · exact ⟨_, rfl, within_or_left _ _, rfl⟩
    · exact ⟨job, rfl, within_iff.mpr fun _ hi => hi, rfl⟩
  · exact ⟨job, by rw [List.getElem?_append_left hlt, h], within_iff.mpr fun _ hi => hi, rfl⟩

variable {js : List Job} {memory : Bool} {strict : Int} {removed : ServiceSet} {w : World Format}

theorem joinJob_self (hj : j ≤ js.length)
    (hslicer : ∀ job, js[j]? = some job → job.slicer = par.signal) :
    ∃ job, (joinJob js j par)[j]? = some job ∧ Within par.id job.id ∧ job.slicer = par.signal := by
  rw [joinJob]
  split
  · rename_i hlt
    have hjob : js[j]? = some js[j] := List.getElem?_eq_getElem hlt
    refine ⟨{ js[j] with id := js[j].id ||| par.id }, ?_, within_or_right _ _,
      hslicer js[j] hjob⟩
    rw [List.getElem?_modify_eq, hjob]
    rfl
  · rename_i hnew
    obtain rfl : j = js.length := by omega
    exact ⟨_, List.getElem?_concat_length, within_iff.mpr fun _ hi => hi, rfl⟩

theorem joinJob_mem {job' : Job} (h : job' ∈ joinJob js j par) :
    (∃ job ∈ js, Within job.id job'.id ∧ job'.slicer = job.slicer) ∨
      Within par.id job'.id ∧ job'.slicer = par.signal := by
  rw [joinJob] at h
  split at h
  · obtain ⟨i, hi⟩ := List.mem_iff_getElem?.mp h
    rw [List.getElem?_modify] at hi
    obtain ⟨job, hjob, rfl⟩ := Option.map_eq_some_iff.mp hi
    left
    refine ⟨job, List.mem_of_getElem? hjob, ?_⟩
    split
    · exact ⟨within_or_left _ _, rfl⟩
    · exact ⟨within_iff.mpr fun _ hi => hi, rfl⟩
  · rcases List.mem_append.mp h with h | h
    · exact Or.inl ⟨job', h, within_iff.mpr fun _ hi => hi, rfl⟩
    · rw [List.mem_singleton.mp h]
      exact Or.inr ⟨within_iff.mpr fun _ hi => hi, rfl⟩

theorem allServices_join (js : List Job) (j : Nat) (par : ServicePar) :
    allServices (joinJob js j par) = allServices js ||| par.id := by
  refine eq_of_bits fun i => ?_
  rw [BitVec.getLsbD_or, Bool.or_eq_true, allServices_bit, allServices_bit]
  constructor
  · rintro ⟨job', hjob', hi⟩
    rw [joinJob] at hjob'
    split at hjob'
    · obtain ⟨k, hk⟩ := List.mem_iff_getElem?.mp hjob'
      rw [List.getElem?_modify] at hk
      obtain ⟨job, hjob, rfl⟩ := Option.map_eq_some_iff.mp hk
      split at hi
      · rw [BitVec.getLsbD_or, Bool.or_eq_true] at hi
        exact hi.imp_left fun hi => ⟨job, List.mem_of_getElem? hjob, hi⟩
      · exact Or.inl ⟨job, List.mem_of_getElem? hjob, hi⟩
    · rcases List.mem_append.mp hjob' with hjob' | hjob'
      · exact Or.inl ⟨job', hjob', hi⟩
      · rw [List.mem_singleton.mp hjob'] at hi
        exact Or.inr hi
  · rintro (⟨job, hjob, hi⟩ | hi)
    · obtain ⟨k, hk⟩ := List.mem_iff_getElem?.mp hjob
      obtain ⟨job', hjob', hwithin, -⟩ := joinJob_getElem? js j par hk
      exact ⟨job', List.mem_of_getElem? hjob', within_iff.mp hwithin i hi⟩
    · rw [joinJob]
      split
      · rename_i hlt
        refine ⟨{ js[j] with id := js[j].id ||| par.id }, ?_, ?_⟩
        · refine List.mem_of_getElem? (i := j) ?_
          rw [List.getElem?_modify_eq, List.getElem?_eq_getElem hlt]
          rfl
        · exact within_iff.mp (within_or_right _ _) i hi
      · exact ⟨_, List.mem_append_right _ (List.mem_singleton_self _), hi⟩

theorem addService_listed (hpar : par ∈ vbiServiceTable) (h : Listed rd jobs services added)
    (hj : j = rd.jobs.findIdx fun job => mergeable (job.id ||| par.id))
    (hadd : addService rd j par = some (rd', events)) :
    Listed rd' (events.foldl Event.assignment jobs) (events.foldl Event.services services)
      (events.foldl Event.added added) := by
  obtain ⟨hmodify, hsignal⟩ := modify_slicer hpar h.table hj
  have hle : j ≤ rd.jobs.length := by
    rw [hj]
    exact List.findIdx_le_length
  obtain ⟨patterns, -, hadd⟩ := Option.bind_eq_some_iff.mp hadd
  rw [hmodify] at hadd
  obtain ⟨r, -, hadd⟩ := Option.bind_eq_some_iff.mp hadd
  dsimp only at hadd
  split at hadd
  · obtain ⟨rfl, rfl⟩ := Prod.mk.inj (Option.some.inj hadd)
    change Listed { rd with
        pattern := some r.1
        jobs := joinJob rd.jobs j par
        services := rd.services ||| par.id }
      (assign jobs j (linesContainingData rd.sampling par)) (services ||| par.id)
      (added ++ (linesContainingData rd.sampling par).map fun line => ⟨par.id, par.signal, line⟩)
    constructor
    · dsimp only
      rw [allServices_join, h.union]
    · dsimp only
      rw [h.reported]
    · intro job' hjob'
      rcases joinJob_mem hjob' with ⟨job, hjob, hwithin, hslicer⟩ | ⟨hwithin, hslicer⟩
      · obtain ⟨par', hpar', hwithin', hslicer'⟩ := h.table job hjob
        exact ⟨par', hpar', hwithin'.trans hwithin, hslicer.trans hslicer'⟩
      · exact ⟨par, hpar, hwithin, hslicer⟩
    · intro a ha
      rcases List.mem_append.mp ha with ha | ha
      · obtain ⟨i, job, hjob, hwithin, hslicer, hi⟩ := h.searched a ha
        obtain ⟨job', hjob', hwithin', hslicer'⟩ := joinJob_getElem? rd.jobs j par hjob
        refine ⟨i, job', hjob', hwithin.trans hwithin', hslicer'.trans hslicer, ?_⟩
        rw [assign]
        split
        · exact Finset.mem_insert_of_mem hi
        · exact hi
      · obtain ⟨line, hline, rfl⟩ := List.mem_map.mp ha
        obtain ⟨job, hjob, hwithin, hslicer⟩ := joinJob_self hle hsignal
        refine ⟨j, job, hjob, hwithin, hslicer, ?_⟩
        rw [assign, if_pos hline]
        exact Finset.mem_insert_self _ _
    · intro a ha
      rcases List.mem_append.mp ha with ha | ha
      · exact h.lines a ha
      · obtain ⟨line, hline, rfl⟩ := List.mem_map.mp ha
        exact linesContainingData_lt rd.sampling par line hline
  · obtain ⟨rfl, rfl⟩ := Prod.mk.inj (Option.some.inj hadd)
    exact ⟨h.union, h.reported, h.table, h.searched, h.lines⟩

theorem addLoop_listed (wanted : ServiceSet) (strict : Int) (table : List ServicePar)
    (htable : ∀ par ∈ table, par ∈ vbiServiceTable) (h : Listed rd jobs services added)
    (hadd : addLoop c wanted strict table rd = some (rd', events)) :
    Listed rd' (events.foldl Event.assignment jobs) (events.foldl Event.services services)
      (events.foldl Event.added added) := by
  induction table generalizing rd jobs services added events with
  | nil =>
    obtain ⟨rfl, rfl⟩ := Prod.mk.inj (Option.some.inj hadd)
    exact h
  | cons par table ih =>
    rw [List.forall_mem_cons] at htable
    rw [addLoop] at hadd
    split at hadd
    · exact ih htable.2 h hadd
    dsimp only at hadd
    split at hadd
    · obtain ⟨rfl, rfl⟩ := Prod.mk.inj (Option.some.inj hadd)
      exact h
    split at hadd
    · exact ih htable.2 h hadd
    · obtain ⟨⟨rd₁, events₁⟩, hservice, hadd⟩ := Option.bind_eq_some_iff.mp hadd
      obtain ⟨⟨rd₂, events₂⟩, hloop, hadd⟩ := Option.bind_eq_some_iff.mp hadd
      obtain ⟨rfl, rfl⟩ := Prod.mk.inj (Option.some.inj hadd)
      rw [List.foldl_append, List.foldl_append, List.foldl_append]
      exact ih htable.2 (addService_listed htable.1 h rfl hservice) hloop

theorem addServices_listed (h : Listed rd jobs services added) {wanted : ServiceSet}
    (hadd : vbi3RawDecoderAddServices c rd wanted strict memory = some (rd', events)) :
    Listed rd' (events.foldl Event.assignment jobs) (events.foldl Event.services services)
      (events.foldl Event.added added) := by
  have hnothing : ∀ {r : Decoder Format × List Event}, (rd, []) = r →
      Listed r.1 (r.2.foldl Event.assignment jobs) (r.2.foldl Event.services services)
        (r.2.foldl Event.added added) := by
    rintro r rfl
    exact h
  rw [vbi3RawDecoderAddServices] at hadd
  split at hadd
  · exact hnothing (Option.some.inj hadd)
  · split at hadd
    · exact hnothing (Option.some.inj hadd)
    · rename_i patterns _
      have hallocated : Listed { rd with pattern := some patterns } jobs services added :=
        ⟨h.union, h.reported, h.table, h.searched, h.lines⟩
      exact addLoop_listed _ strict vbiServiceTable (fun _ hpar => hpar) hallocated hadd

theorem reset_listed (rd : Decoder Format) (sp : SamplingPar Format) :
    Listed { vbi3RawDecoderReset rd with sampling := sp } (fun _ => ∅) 0 [] where
  union := rfl
  reported := rfl
  table _ hjob := absurd hjob List.not_mem_nil
  searched _ ha := absurd ha List.not_mem_nil
  lines _ ha := absurd ha List.not_mem_nil

theorem setSamplingPar_listed (services : ServiceSet) (added : List Added) (jobs : Assignment)
    {sp : SamplingPar Format}
    (hset : vbi3RawDecoderSetSamplingPar c rd sp strict memory = some (rd', events)) :
    Listed rd' (events.foldl Event.assignment jobs) (events.foldl Event.services services)
      (events.foldl Event.added added) := by
  rw [vbi3RawDecoderSetSamplingPar] at hset
  split at hset
  · obtain ⟨⟨rd₁, events₁⟩, hadd, hset⟩ := Option.bind_eq_some_iff.mp hset
    obtain ⟨rfl, rfl⟩ := Prod.mk.inj (Option.some.inj hset)
    have hlisted := addServices_listed (reset_listed rd sp) hadd
    exact hlisted
  · obtain ⟨rfl, rfl⟩ := Prod.mk.inj (Option.some.inj hset)
    exact reset_listed rd _

theorem removeJobs_filter (removed : ServiceSet) (k : Nat) (js : List Job)
    (pattern : Option (List Pattern)) :
    (removeJobs removed k js pattern).1 = js.filter fun job => job.id &&& removed = 0 := by
  induction js generalizing k pattern with
  | nil => rfl
  | cons job js ih =>
    rw [removeJobs]
    split
    · rename_i hjob
      rw [List.filter_cons_of_neg (by rw [decide_eq_true_eq]; exact hjob)]
      exact ih k _
    · rename_i hjob
      rw [List.filter_cons_of_pos (by rw [decide_eq_true_eq]; exact not_not.mp hjob)]
      exact congrArg (List.cons job) (ih (k + 1) pattern)

/-- Dropping jobs from the array does not concern the services. -/
theorem removeJobs_drops (removed : ServiceSet) (k : Nat) (js : List Job)
    (pattern : Option (List Pattern)) (services : ServiceSet) (added : List Added) :
    (removeJobs removed k js pattern).2.2.foldl Event.services services = services ∧
      (removeJobs removed k js pattern).2.2.foldl Event.added added = added := by
  induction js generalizing k pattern with
  | nil => exact ⟨rfl, rfl⟩
  | cons job js ih =>
    rw [removeJobs]
    split
    · exact ih k _
    · exact ih (k + 1) pattern

/-- A job which is not removed keeps its lines under its new number, and the jobs in front
of the loop keep theirs. -/
theorem removeJobs_jobs (removed : ServiceSet) (k : Nat) (js : List Job)
    (pattern : Option (List Pattern)) (jobs : Assignment) :
    (∀ i < k, ∀ line, i ∈ jobs line →
      i ∈ (removeJobs removed k js pattern).2.2.foldl Event.assignment jobs line) ∧
    ∀ j job, js[j]? = some job → job.id &&& removed = 0 → ∃ j',
      (removeJobs removed k js pattern).1[j']? = some job ∧ ∀ line, k + j ∈ jobs line →
        k + j' ∈ (removeJobs removed k js pattern).2.2.foldl Event.assignment jobs line := by
  induction js generalizing k pattern jobs with
  | nil => exact ⟨fun _ _ _ hi => hi, fun j job hj => by cases hj⟩
  | cons first js ih =>
    rw [removeJobs]
    split
    · rename_i hfirst
      dsimp only
      rw [List.foldl_cons]
      obtain ⟨hfront, hkept⟩ := ih k (pattern.map (List.map (removeJobFromPattern k)))
        (dropJob jobs k)
      constructor
      · intro i hi line hmem
        refine hfront i hi line (Finset.mem_image.mpr ⟨i, ?_, ?_⟩)
        · exact Finset.mem_erase.mpr ⟨Nat.ne_of_lt hi, hmem⟩
        · rw [renumber, if_neg (Nat.lt_asymm hi)]
      · intro j job hj hjob
        cases j with
        | zero =>
          obtain rfl := Option.some.inj hj
          exact absurd hjob hfirst
        | succ j =>
          obtain ⟨j', hj', hlines⟩ := hkept j job hj hjob
          refine ⟨j', hj', fun line hmem => hlines line ?_⟩
          refine Finset.mem_image.mpr ⟨k + (j + 1), Finset.mem_erase.mpr ⟨by omega, hmem⟩, ?_⟩
          rw [renumber, if_pos (by omega)]
          omega
    · dsimp only
      obtain ⟨hfront, hkept⟩ := ih (k + 1) pattern jobs
      constructor
      · exact fun i hi => hfront i (Nat.lt_succ_of_lt hi)
      · intro j job hj hjob
        cases j with
        | zero =>
          obtain rfl := Option.some.inj hj
          exact ⟨0, rfl, fun line hmem => hfront k (Nat.lt_succ_self k) line hmem⟩
        | succ j =>
          obtain ⟨j', hj', hlines⟩ := hkept j job hj hjob
          refine ⟨j' + 1, hj', fun line hmem => ?_⟩
          have hnext := hlines line (by rw [Nat.add_assoc, Nat.add_comm 1 j]; exact hmem)
          rw [Nat.add_assoc, Nat.add_comm 1 j'] at hnext
          exact hnext

/-- The services removed are all services of a job or none of them. -/
def Whole (js : List Job) (removed : ServiceSet) : Prop :=
  ∀ job ∈ js, job.id &&& removed = 0 ∨ Within job.id removed

theorem allServices_filter (h : Whole js removed) :
    allServices (js.filter fun job => job.id &&& removed = 0) = allServices js &&& ~~~removed := by
  refine eq_of_bits fun i => ?_
  rw [allServices_bit, BitVec.getLsbD_and, Bool.and_eq_true, allServices_bit]
  constructor
  · rintro ⟨job, hjob, hi⟩
    rw [List.mem_filter, decide_eq_true_eq] at hjob
    refine ⟨⟨job, hjob.1, hi⟩, ?_⟩
    rw [BitVec.getLsbD_not, disjoint_iff.mp hjob.2 i hi, decide_eq_true (BitVec.lt_of_getLsbD hi)]
    rfl
  · rintro ⟨⟨job, hjob, hi⟩, hkept⟩
    refine ⟨job, List.mem_filter.mpr ⟨hjob, ?_⟩, hi⟩
    rw [decide_eq_true_eq]
    rcases h job hjob with hnone | hall
    · exact hnone
    · rw [BitVec.getLsbD_not, within_iff.mp hall i hi, Bool.not_true, Bool.and_false] at hkept
      cases hkept

theorem removeServices_listed (h : Listed rd jobs services added) (hwhole : Whole rd.jobs removed) :
    Listed (vbi3RawDecoderRemoveServices rd removed).1
      ((vbi3RawDecoderRemoveServices rd removed).2.foldl Event.assignment jobs)
      ((vbi3RawDecoderRemoveServices rd removed).2.foldl Event.services services)
      ((vbi3RawDecoderRemoveServices rd removed).2.foldl Event.added added) := by
  obtain ⟨hservices, hadded⟩ := removeJobs_drops removed 0 rd.jobs rd.pattern services added
  obtain ⟨-, hkept⟩ := removeJobs_jobs removed 0 rd.jobs rd.pattern jobs
  have hfilter := removeJobs_filter removed 0 rd.jobs rd.pattern
  rw [vbi3RawDecoderRemoveServices]
  dsimp only
  rw [List.foldl_append, List.foldl_append, List.foldl_append, hservices, hadded]
  -- what is left of the services added
  have hleft : ∀ a ∈ Event.added added (.remove removed), ∃ b ∈ added, a = b.without removed ∧
      a.services ≠ 0 := by
    intro a ha
    obtain ⟨ha, hne⟩ := List.mem_filter.mp ha
    obtain ⟨b, hb, rfl⟩ := List.mem_map.mp ha
    exact ⟨b, hb, rfl, of_decide_eq_true hne⟩
  constructor
  · dsimp only
    rw [hfilter, allServices_filter hwhole, h.union]
  · change rd.services &&& ~~~removed = services &&& ~~~removed
    rw [h.reported]
  · intro job hjob
    dsimp only at hjob
    rw [hfilter] at hjob
    exact h.table job (List.mem_of_mem_filter hjob)
  · intro a ha
    obtain ⟨b, hb, rfl, hne⟩ := hleft a ha
    obtain ⟨j, job, hj, hwithin, hslicer, hline⟩ := h.searched b hb
    have hwithin' : Within (b.without removed).services job.id := by
      refine within_iff.mpr fun i hi => within_iff.mp hwithin i ?_
      rw [Added.without, BitVec.getLsbD_and, Bool.and_eq_true] at hi
      exact hi.1
    have hjob : job.id &&& removed = 0 := by
      rcases hwhole job (List.mem_of_getElem? hj) with hnone | hall
      · exact hnone
      · exact absurd (hwithin.trans hall) hne
    obtain ⟨j', hj', hlines⟩ := hkept j job hj hjob
    refine ⟨j', job, hj', hwithin', hslicer, ?_⟩
    have hmem := hlines b.line (by rw [Nat.zero_add]; exact hline)
    rw [Nat.zero_add] at hmem
    exact hmem
  · intro a ha
    obtain ⟨b, hb, rfl, -⟩ := hleft a ha
    exact h.lines b hb

/-- Calls which remove services which share a job together. -/
def Allowed (w : World Format) : Op Format → Prop
  | .removeServices services => Whole w.rd.jobs services
  | _ => True

instance (a b : ServiceSet) : Decidable (Within a b) := inferInstanceAs (Decidable (_ = _))

instance (js : List Job) (removed : ServiceSet) : Decidable (Whole js removed) :=
  inferInstanceAs (Decidable (∀ job ∈ js, _))

instance (w : World Format) : ∀ op, Decidable (Allowed w op)
  | .removeServices services => inferInstanceAs (Decidable (Whole w.rd.jobs services))
  | .addServices _ _ _ => isTrue trivial
  | .setSamplingPar _ _ _ => isTrue trivial
  | .reset => isTrue trivial
  | .decode _ _ => isTrue trivial

/-- What holds between calls. -/
structure Ready (w : World Format) : Prop where
  sound : Sound w.rd (assignment w.log)
  listed : Listed w.rd (assignment w.log) (reported w.log) (addedServices w.log)
  sliced : ∀ s ∈ w.sliced, Within s.id (reported w.log)

theorem step_ready (h : Ready w) {op : Op Format} (hop : Allowed w op) :
    ∃ w', step c w op = some w' ∧ Ready w' := by
  have hafter : ∀ rd' events, Sound rd' (events.foldl Event.assignment (assignment w.log)) →
      Listed rd' (events.foldl Event.assignment (assignment w.log))
        (events.foldl Event.services (reported w.log))
        (events.foldl Event.added (addedServices w.log)) → Ready (w.after (rd', events)) := by
    intro rd' events hsound hlisted
    refine ⟨?_, ?_, fun _ hs => absurd hs List.not_mem_nil⟩
    · rw [World.after, assignment, List.foldl_append]
      exact hsound
    · rw [World.after, assignment, reported, addedServices, List.foldl_append, List.foldl_append,
        List.foldl_append]
      exact hlisted
  cases op with
  | addServices services strict memory =>
    obtain ⟨rd', events, hadd, hsound⟩ := addServices_sound c h.sound services strict memory
    exact ⟨_, congrArg (Option.map w.after) hadd,
      hafter rd' events hsound (addServices_listed h.listed hadd)⟩
  | removeServices services =>
    exact ⟨_, rfl, hafter _ _ (removeServices_sound h.sound services)
      (removeServices_listed h.listed hop)⟩
  | setSamplingPar sp strict memory =>
    obtain ⟨rd', events, hset, hsound⟩ :=
      setSamplingPar_sound c w.rd sp strict memory (assignment w.log)
    exact ⟨_, congrArg (Option.map w.after) hset,
      hafter rd' events hsound (setSamplingPar_listed _ _ _ hset)⟩
  | reset =>
    exact ⟨_, rfl, hafter _ _ (reset_sound w.rd w.rd.sampling) (reset_listed w.rd w.rd.sampling)⟩
  | decode maxLines slice =>
    obtain ⟨rd', sliced, hdecode, hsound, ⟨hjobs, hservices, hsampling⟩, hsliced⟩ :=
      decode_sound h.sound maxLines slice
    refine ⟨⟨rd', w.log, sliced⟩, by rw [step, hdecode, Option.map_some], hsound, ?_, ?_⟩
    · constructor
      · rw [hservices, hjobs, h.listed.union]
      · rw [hservices, h.listed.reported]
      · rw [hjobs]
        exact h.listed.table
      · rw [hjobs]
        exact h.listed.searched
      · rw [hsampling]
        exact h.listed.lines
    · intro s hs
      obtain ⟨line, j, -, job, hjob, rfl⟩ := hsliced s hs
      rw [← h.listed.reported, h.listed.union]
      exact within_iff.mpr fun i hi =>
        (allServices_bit _ i).mpr ⟨job, List.mem_of_getElem? hjob, hi⟩

theorem searchRun_holds {pattern : Pattern} {js : Finset Nat} {block : List Int}
    (h : Holds pattern js block) : searchRun pattern = block := by
  have hrun : ∀ rest : List Int, (∀ n ∈ rest, n ≤ 0) →
      (block ++ rest).takeWhile (0 < ·) = block := by
    intro rest hblank
    rw [List.takeWhile_append_of_pos fun n hn => decide_eq_true (h.positive n hn)]
    cases rest with
    | nil => exact List.append_nil block
    | cons n rest =>
      have hn := hblank n List.mem_cons_self
      rw [List.takeWhile_cons_of_neg (by rw [decide_eq_true_eq]; omega), List.append_nil]
  have harranged := h.arranged
  have hpositive := h.positive
  rw [searchRun]
  cases harranged with
  | waiting n _ rest hfirst hblank =>
    rw [List.headD_cons, if_neg (not_lt.mpr hfirst), List.tail_cons, hrun rest hblank]
  | front _ rest hnonempty hblank =>
    cases block with
    | nil =>
      obtain ⟨n, rest, rfl⟩ := List.exists_cons_of_ne_nil hnonempty
      rw [List.nil_append, List.headD_cons, if_neg (not_lt.mpr (hblank n List.mem_cons_self)),
        List.tail_cons]
      exact hrun rest fun m hm => hblank m (List.mem_cons_of_mem n hm)
    | cons n block =>
      rw [List.cons_append, List.headD_cons, if_pos (hpositive n List.mem_cons_self)]
      exact hrun rest hblank

theorem Ready.consistent (h : Ready w) : Consistent w where
  union := h.listed.union
  reported := h.listed.reported
  sliced := h.sliced
  searched a ha := by
    obtain ⟨j, job, hj, hwithin, hslicer, hline⟩ := h.listed.searched a ha
    cases hpattern : w.rd.pattern with
    | none =>
      rw [(h.sound.unallocated hpattern).1] at hj
      cases hj
    | some patterns =>
      obtain ⟨hlength, hlines⟩ := h.sound.lines patterns hpattern
      have hlt : a.line < patterns.length := by
        rw [hlength]
        exact h.listed.lines a ha
      obtain ⟨block, hholds⟩ := hlines a.line patterns[a.line] (List.getElem?_eq_getElem hlt)
      refine ⟨j, job, patterns, patterns[a.line], hj, hwithin, hslicer, hpattern,
        List.getElem?_eq_getElem hlt, ?_⟩
      rw [searchRun_holds hholds, hholds.mem]
      exact ⟨j, hline, rfl⟩

end RawServices

import Zvbi.GuardedRuns
import Zvbi.RawPatterns

/-!
# Jobs of scan lines

The patterns of the scan lines hold the jobs assigned to the lines, whatever services are
added and removed and whatever the bit slicer finds.
-/

namespace RawAssignments
open RawDecoder RawPatterns GuardedRuns

def Lines (patterns : List Pattern) (jobs : Assignment) : Prop :=
  ∀ i pattern, patterns[i]? = some pattern → ∃ block, Holds pattern (jobs i) block

variable {patterns : List Pattern} {jobs : Assignment} {job : Nat}

variable {block : List Int} {pattern : Pattern} {bound : Nat}

theorem Lines.set (h : Lines patterns jobs) {line : Nat}
    (hpattern : Holds pattern (jobs line) block) : Lines (patterns.set line pattern) jobs := by
  intro i p hp
  by_cases hi : line = i
  · subst hi
    by_cases hline : line < patterns.length
    · rw [List.getElem?_set_self hline] at hp
      obtain rfl := Option.some.inj hp
      exact ⟨block, hpattern⟩
    · rw [List.set_eq_of_length_le (not_lt.mp hline)] at hp
      exact h line p hp
  · rw [List.getElem?_set_ne hi] at hp
    exact h i p hp

def HasRoom (patterns : List Pattern) (jobs : Assignment) (job i : Nat) : Prop :=
  ∃ pattern block rest, patterns[i]? = some pattern ∧ Roomy pattern (jobs i) job block rest

/-- The loop over the lines compacts patterns, and finds room on each of them if it comes to
the end. -/
theorem reserveWays_keeps (job : Nat) (lines : List Nat) (h : Lines patterns jobs)
    (hlines : ∀ i ∈ lines, i < patterns.length) :
    ∃ patterns' enough, reserveWays ((job : Int) + 1) lines patterns = some (patterns', enough) ∧
      patterns'.length = patterns.length ∧ Lines patterns' jobs ∧
      (∀ i, HasRoom patterns jobs job i → HasRoom patterns' jobs job i) ∧
      (enough = true → ∀ i ∈ lines, HasRoom patterns' jobs job i) := by
  induction lines generalizing patterns with
  | nil => exact ⟨patterns, true, rfl, rfl, h, fun _ hi => hi, fun _ i hi => by cases hi⟩
  | cons line lines ih =>
    rw [List.forall_mem_cons] at hlines
    obtain ⟨pattern, hpattern⟩ : ∃ pattern, patterns[line]? = some pattern :=
      ⟨_, List.getElem?_eq_getElem hlines.1⟩
    obtain ⟨block, hholds⟩ := h line pattern hpattern
    obtain ⟨hcompact, rest, heq, hblank, hnonempty⟩ := hholds.compact
    have hset : Lines (patterns.set line (fillUp (pattern.filter (0 < ·)))) jobs := h.set hcompact
    have hself : (patterns.set line (fillUp (pattern.filter (0 < ·))))[line]? =
        some (fillUp (pattern.filter (0 < ·))) := List.getElem?_set_self hlines.1
    have hroom : ∀ i, HasRoom patterns jobs job i →
        HasRoom (patterns.set line (fillUp (pattern.filter (0 < ·)))) jobs job i := by
      rintro i ⟨p, b, r, hp, hroomy⟩
      by_cases hi : line = i
      · subst hi
        obtain rfl := Option.some.inj (hpattern.symm.trans hp)
        have hblock : b = block := by
          rw [← hroomy.holds.arranged.filter hroomy.holds.positive,
            ← hholds.arranged.filter hholds.positive]
        exact ⟨_, block, rest, hself, heq, hblank, hnonempty, hcompact, hblock ▸ hroomy.room⟩
      · exact ⟨p, b, r, (List.getElem?_set_ne hi).trans hp, hroomy⟩
    rw [reserveWays, hpattern]
    simp only [Option.bind_eq_bind, Option.bind_some]
    split
    · exact ⟨_, false, rfl, List.length_set, hset, hroom, fun hfalse => by cases hfalse⟩
    · rename_i hcount
      obtain ⟨patterns', enough, hreserve, hlength, hkept, hmore, hall⟩ :=
        ih hset fun i hi => by rw [List.length_set]; exact hlines.2 i hi
      refine ⟨patterns', enough, hreserve, hlength.trans List.length_set, hkept,
        fun i hi => hmore i (hroom i hi), fun henough => ?_⟩
      rw [List.forall_mem_cons]
      refine ⟨hmore line ⟨_, block, rest, hself, heq, hblank, hnonempty, hcompact, ?_⟩,
        hall henough⟩
      exact fun hjob => hholds.roomy (not_le.mp hcount) hjob

def assign (jobs : Assignment) (job : Nat) (lines : List Nat) : Assignment :=
  fun i => if i ∈ lines then insert job (jobs i) else jobs i

theorem enterWays_keeps (lines : List Nat) (h : Lines patterns jobs)
    (hlines : ∀ i ∈ lines, i < patterns.length)
    (hroom : ∀ i ∈ lines, HasRoom patterns jobs job i) :
    ∃ patterns', enterWays ((job : Int) + 1) lines patterns = some patterns' ∧
      patterns'.length = patterns.length ∧ Lines patterns' (assign jobs job lines) := by
  induction lines generalizing patterns jobs with
  | nil => exact ⟨patterns, rfl, rfl, h⟩
  | cons line lines ih =>
    rw [List.forall_mem_cons] at hlines hroom
    obtain ⟨pattern, block, rest, hpattern, hroomy⟩ := hroom.1
    obtain ⟨pattern', block', rest', henter, hroomy'⟩ := hroomy.enter
    have hself : (patterns.set line pattern')[line]? = some pattern' :=
      List.getElem?_set_self hlines.1
    have hset : Lines (patterns.set line pattern') (assign jobs job [line]) := by
      intro i p hp
      rw [assign]
      by_cases hi : line = i
      · subst hi
        rw [if_pos (List.mem_singleton_self _)]
        obtain rfl := Option.some.inj (hself.symm.trans hp)
        exact ⟨block', hroomy'.holds⟩
      · rw [if_neg (fun hmem => hi (List.mem_singleton.mp hmem).symm)]
        rw [List.getElem?_set_ne hi] at hp
        exact h i p hp
    have hmore : ∀ i ∈ lines, HasRoom (patterns.set line pattern') (assign jobs job [line]) job i := by
      intro i hi
      rw [HasRoom, assign]
      by_cases hline : line = i
      · subst hline
        rw [if_pos (List.mem_singleton_self _)]
        exact ⟨pattern', block', rest', hself, hroomy'⟩
      · rw [if_neg (fun hmem => hline (List.mem_singleton.mp hmem).symm),
          List.getElem?_set_ne hline]
        exact hroom.2 i hi
    obtain ⟨final, hfinal, hlength, hkept⟩ :=
      ih hset (fun i hi => by rw [List.length_set]; exact hlines.2 i hi) hmore
    have hassign : assign (assign jobs job [line]) job lines = assign jobs job (line :: lines) := by
      funext i
      simp only [assign, List.mem_cons, List.not_mem_nil, or_false]
      by_cases hline : i = line
      · simp [hline]
      · simp [hline]
    rw [hassign] at hkept
    refine ⟨final, ?_, hlength.trans List.length_set, hkept⟩
    rw [enterWays, hpattern]
    simp only [Option.bind_eq_bind, Option.bind_some, henter, hfinal]

variable {Format : Type} {rd : Decoder Format} {c : Checks Format}

theorem addJobToPattern_keeps (job : Nat) {lines : List Nat} (h : Lines patterns jobs)
    (hlines : ∀ i ∈ lines, i < patterns.length) :
    ∃ patterns' added, addJobToPattern job lines patterns = some (patterns', added) ∧
      patterns'.length = patterns.length ∧
      Lines patterns' (if added then assign jobs job lines else jobs) := by
  obtain ⟨reserved, enough, hreserve, hlength, hkept, -, hroom⟩ :=
    reserveWays_keeps job lines h hlines
  rw [addJobToPattern]
  simp only [Option.bind_eq_bind, hreserve, Option.bind_some]
  cases enough with
  | false => exact ⟨reserved, false, rfl, hlength, hkept⟩
  | true =>
    obtain ⟨entered, henter, hlength', hassign⟩ :=
      enterWays_keeps lines hkept (by rw [hlength]; exact hlines) (hroom rfl)
    refine ⟨entered, true, ?_, hlength'.trans hlength, hassign⟩
    simp only [if_true, henter, Option.map_some]

theorem fieldLines_lt {sp : SamplingPar Format} {par : ServicePar} {field : Fin 2} {i : Nat}
    (h : i ∈ fieldLines sp par field) :
    i < (if field = 0 then 0 else sp.count 0) + sp.count field := by
  have hall : i ∈ List.range' (if field = 0 then 0 else sp.count 0) (sp.count field) →
      i < (if field = 0 then 0 else sp.count 0) + sp.count field :=
    fun hmem => (List.mem_range'_1.mp hmem).2
  rw [fieldLines] at h
  split at h
  · exact hall h
  split at h
  · cases h
  split at h
  · exact hall h
  · rename_i hcommon
    rw [not_or, not_or, not_or] at hcommon
    have hrange := List.mem_range'_1.mp h
    omega

theorem linesContainingData_lt (sp : SamplingPar Format) (par : ServicePar) :
    ∀ i ∈ linesContainingData sp par, i < sp.count 0 + sp.count 1 := by
  intro i hi
  rcases List.mem_append.mp hi with hi | hi
  · have hlt := fieldLines_lt hi
    rw [if_pos rfl] at hlt
    omega
  · exact fieldLines_lt hi

structure Sound (rd : Decoder Format) (jobs : Assignment) : Prop where
  lines : ∀ patterns, rd.pattern = some patterns →
    patterns.length = rd.sampling.count 0 + rd.sampling.count 1 ∧ Lines patterns jobs
  bound : ∀ i, ∀ job ∈ jobs i, job < rd.jobs.length
  unallocated : rd.pattern = none → rd.jobs = [] ∧ rd.services = 0

theorem assign_bound (hjob : job < bound) (lines : List Nat) (h : ∀ i, ∀ k ∈ jobs i, k < bound) :
    ∀ i, ∀ k ∈ assign jobs job lines i, k < bound := by
  intro i k hk
  rw [assign] at hk
  split at hk
  · rcases Finset.mem_insert.mp hk with rfl | hk
    · exact hjob
    · exact h i k hk
  · exact h i k hk

theorem addService_sound {j : Nat} (par : ServicePar) (h : Sound rd jobs)
    (hj : j ≤ rd.jobs.length) (hpattern : rd.pattern.isSome = true) :
    ∃ rd' events, addService rd j par = some (rd', events) ∧
      Sound rd' (events.foldl Event.assignment jobs) ∧ rd'.pattern.isSome = true := by
  obtain ⟨patterns, hpatterns⟩ := Option.isSome_iff_exists.mp hpattern
  obtain ⟨hlength, hlines⟩ := h.lines patterns hpatterns
  have hlt := linesContainingData_lt rd.sampling par
  obtain ⟨patterns', added, hadd, hlength', hlines'⟩ :=
    addJobToPattern_keeps j hlines (by rw [hlength]; exact hlt)
  rw [addService]
  simp only [Option.bind_eq_bind, hpatterns, Option.bind_some, hadd]
  cases added with
  | false =>
    refine ⟨_, [], rfl, ⟨?_, ?_, ?_⟩, rfl⟩
    · intro ps hps
      obtain rfl := Option.some.inj hps
      exact ⟨hlength'.trans hlength, hlines'⟩
    · intro i k hk
      have hbound := h.bound i k hk
      rw [List.length_modify]
      exact hbound
    · intro hnone
      cases hnone
  | true =>
    simp only [if_true]
    refine ⟨_, _, rfl, ⟨?_, ?_, ?_⟩, rfl⟩
    · intro ps hps
      obtain rfl := Option.some.inj hps
      exact ⟨hlength'.trans hlength, hlines'⟩
    · -- the job exists, or it is new
      have hold : ∀ i, ∀ k ∈ jobs i, k < max rd.jobs.length (j + 1) :=
        fun i k hk => lt_max_of_lt_left (h.bound i k hk)
      have hbound := assign_bound (lt_max_of_lt_right (Nat.lt_succ_self j))
        (linesContainingData rd.sampling par) hold
      intro i k hk
      refine lt_of_lt_of_le (hbound i k hk) ?_
      dsimp only
      split
      · rename_i hlt
        simp only [List.length_modify] at hlt ⊢
        omega
      · simp only [List.length_append, List.length_modify, List.length_cons, List.length_nil]
        omega
    · intro hnone
      cases hnone

theorem addLoop_sound (services : ServiceSet) (strict : Int) (table : List ServicePar)
    (h : Sound rd jobs) (hpattern : rd.pattern.isSome = true) :
    ∃ rd' events, addLoop c services strict table rd = some (rd', events) ∧
      Sound rd' (events.foldl Event.assignment jobs) := by
  induction table generalizing rd jobs with
  | nil => exact ⟨rd, [], rfl, h⟩
  | cons par table ih =>
    rw [addLoop]
    split
    · exact ih h hpattern
    dsimp only
    split
    · exact ⟨rd, [], rfl, h⟩
    split
    · exact ih h hpattern
    · obtain ⟨rd₁, events₁, hadd, hsound, hsome⟩ :=
        addService_sound par h
          (List.findIdx_le_length (p := fun job => mergeable (job.id ||| par.id))) hpattern
      obtain ⟨rd₂, events₂, hloop, hsound'⟩ := ih hsound hsome
      refine ⟨rd₂, events₁ ++ events₂, ?_, ?_⟩
      · simp only [Option.bind_eq_bind, hadd, Option.bind_some, hloop]
      · rw [List.foldl_append]
        exact hsound'

theorem holds_empty : Holds (List.replicate maxWays 0) ∅ [] where
  arranged := .front [] _ (by decide) (by decide)
  length := List.length_replicate
  once := List.nodup_nil
  mem num := by simp

theorem allocatePattern_sound (h : Sound rd jobs) {memory : Bool} {patterns : List Pattern}
    (hsome : allocatePattern rd memory = some patterns) :
    Sound { rd with pattern := some patterns } jobs := by
  constructor
  · intro ps hps
    obtain rfl := Option.some.inj hps
    rw [allocatePattern] at hsome
    split at hsome
    · rename_i hold
      obtain rfl := Option.some.inj hsome
      exact h.lines _ hold
    · rename_i hnone
      have hempty : ∀ i, jobs i = ∅ := by
        intro i
        rw [Finset.eq_empty_iff_forall_notMem]
        intro k hk
        have hbound := h.bound i k hk
        rw [(h.unallocated hnone).1] at hbound
        exact Nat.not_lt_zero _ hbound
      split at hsome
      · obtain rfl := Option.some.inj hsome
        refine ⟨List.length_replicate, fun i p hp => ⟨[], ?_⟩⟩
        rw [hempty, List.eq_of_mem_replicate (List.mem_of_getElem? hp)]
        exact holds_empty
      · cases hsome
  · exact h.bound
  · intro hnone
    cases hnone

theorem addServices_sound (c : Checks Format) (h : Sound rd jobs) (services : ServiceSet) (strict : Int)
    (memory : Bool) : ∃ rd' events,
    vbi3RawDecoderAddServices c rd services strict memory = some (rd', events) ∧
      Sound rd' (events.foldl Event.assignment jobs) := by
  rw [vbi3RawDecoderAddServices]
  split
  · exact ⟨rd, [], rfl, h⟩
  · split
    · exact ⟨rd, [], rfl, h⟩
    · rename_i hallocate
      exact addLoop_sound _ strict vbiServiceTable (allocatePattern_sound h hallocate) rfl

theorem reset_sound (rd : Decoder Format) (sp : SamplingPar Format) :
    Sound { vbi3RawDecoderReset rd with sampling := sp } fun _ => ∅ where
  lines patterns hpatterns := by cases hpatterns
  bound i k hk := absurd hk (Finset.notMem_empty k)
  unallocated _ := ⟨rfl, rfl⟩

theorem setSamplingPar_sound (c : Checks Format) (rd : Decoder Format) (sp : SamplingPar Format)
    (strict : Int) (memory : Bool) (jobs : Assignment) : ∃ rd' events,
    vbi3RawDecoderSetSamplingPar c rd sp strict memory = some (rd', events) ∧
      Sound rd' (events.foldl Event.assignment jobs) := by
  rw [vbi3RawDecoderSetSamplingPar]
  split
  · obtain ⟨rd', events, hadd, hsound⟩ := addServices_sound c (reset_sound rd sp)
      rd.services strict memory
    refine ⟨rd', .clear :: events, ?_, hsound⟩
    simp only [Option.bind_eq_bind, hadd, Option.bind_some]
  · exact ⟨_, [.clear], rfl, reset_sound rd _⟩

def dropJob (jobs : Assignment) (job : Nat) : Assignment :=
  fun i => ((jobs i).erase job).image (renumber job)

theorem Lines.remove (h : Lines patterns jobs) (job : Nat) :
    Lines (patterns.map (removeJobFromPattern job)) (dropJob jobs job) := by
  intro i p hp
  rw [List.getElem?_map] at hp
  obtain ⟨pattern, hpattern, rfl⟩ := Option.map_eq_some_iff.mp hp
  obtain ⟨block, hholds⟩ := h i pattern hpattern
  exact ⟨_, hholds.remove job⟩

theorem dropJob_bound (h : ∀ i, ∀ k ∈ jobs i, k < bound + 1) (hjob : job ≤ bound) :
    ∀ i, ∀ k ∈ dropJob jobs job i, k < bound := by
  intro i k hk
  obtain ⟨k', hk', rfl⟩ := Finset.mem_image.mp hk
  obtain ⟨hne, hk'⟩ := Finset.mem_erase.mp hk'
  have hlt := h i k' hk'
  rw [renumber]
  split
  · omega
  · omega

/-- The loop over the jobs, of which `k` stay in front. -/
theorem removeJobs_sound (services : ServiceSet) (k : Nat) (js : List Job)
    {pattern : Option (List Pattern)} {lines : Nat}
    (h : ∀ patterns, pattern = some patterns → patterns.length = lines ∧ Lines patterns jobs)
    (hbound : ∀ i, ∀ job ∈ jobs i, job < k + js.length) :
    (∀ patterns, (removeJobs services k js pattern).2.1 = some patterns →
        patterns.length = lines ∧
        Lines patterns ((removeJobs services k js pattern).2.2.foldl Event.assignment jobs)) ∧
      (∀ i, ∀ job ∈ (removeJobs services k js pattern).2.2.foldl Event.assignment jobs i,
        job < k + (removeJobs services k js pattern).1.length) ∧
      ((removeJobs services k js pattern).2.1 = none → pattern = none) := by
  induction js generalizing k pattern jobs with
  | nil => exact ⟨h, hbound, id⟩
  | cons job js ih =>
    rw [removeJobs]
    split
    · dsimp only
      rw [List.foldl_cons]
      have hdropped : ∀ patterns,
          pattern.map (List.map (removeJobFromPattern k)) = some patterns →
          patterns.length = lines ∧ Lines patterns (dropJob jobs k) := by
        intro patterns hpatterns
        obtain ⟨old, hold, rfl⟩ := Option.map_eq_some_iff.mp hpatterns
        obtain ⟨hlength, hlines⟩ := h old hold
        exact ⟨by rw [List.length_map, hlength], hlines.remove k⟩
      have hbound' : ∀ i, ∀ job ∈ dropJob jobs k i, job < k + js.length :=
        dropJob_bound (fun i k' hk' => by
          have hlt := hbound i k' hk'
          rw [List.length_cons] at hlt
          omega) (Nat.le_add_right k _)
      obtain ⟨hlines, hjobs, hnone⟩ := ih k hdropped hbound'
      exact ⟨hlines, hjobs, fun hr => Option.map_eq_none_iff.mp (hnone hr)⟩
    · dsimp only
      have hbound' : ∀ i, ∀ job ∈ jobs i, job < k + 1 + js.length := by
        intro i k' hk'
        have hlt := hbound i k' hk'
        rw [List.length_cons] at hlt
        omega
      obtain ⟨hlines, hjobs, hnone⟩ := ih (k + 1) h hbound'
      refine ⟨hlines, ?_, hnone⟩
      intro i k' hk'
      have hlt := hjobs i k' hk'
      rw [List.length_cons]
      omega

theorem removeJobs_nil (services : ServiceSet) (k : Nat) (js : List Job)
    (pattern : Option (List Pattern)) (h : js = []) : (removeJobs services k js pattern).1 = [] := by
  subst h
  rfl

theorem removeServices_sound (h : Sound rd jobs) (services : ServiceSet) :
    Sound (vbi3RawDecoderRemoveServices rd services).1
      ((vbi3RawDecoderRemoveServices rd services).2.foldl Event.assignment jobs) := by
  have hall : ∀ i, ∀ job ∈ jobs i, job < 0 + rd.jobs.length := by
    rw [Nat.zero_add]
    exact h.bound
  obtain ⟨hlines, hbound, hnone⟩ := removeJobs_sound services 0 rd.jobs h.lines hall
  have hevents : (vbi3RawDecoderRemoveServices rd services).2.foldl Event.assignment jobs =
      (removeJobs services 0 rd.jobs rd.pattern).2.2.foldl Event.assignment jobs := by
    rw [vbi3RawDecoderRemoveServices, List.foldl_append]
    rfl
  rw [hevents]
  constructor
  · exact hlines
  · rw [Nat.zero_add] at hbound
    exact hbound
  · intro hr
    obtain ⟨hjobs, hservices⟩ := h.unallocated (hnone hr)
    constructor
    · exact removeJobs_nil services 0 rd.jobs rd.pattern hjobs
    · change rd.services &&& ~~~services = 0
      rw [hservices]
      exact BitVec.zero_and

def SlicedFrom (rd : Decoder Format) (jobs : Assignment) (s : Sliced) : Prop :=
  ∃ i, ∃ j ∈ jobs i, ∃ job, rd.jobs[j]? = some job ∧ s = ⟨job.id, lineNumber rd.sampling i⟩

theorem decodeLines_keeps (rd : Decoder Format) (slice : Nat → Nat → Bool) (line room : Nat)
    (h : Lines patterns fun i => jobs (line + i))
    (hbound : ∀ i, ∀ job ∈ jobs i, job < rd.jobs.length) :
    ∃ patterns' sliced, decodeLines rd slice line room patterns = some (patterns', sliced) ∧
      patterns'.length = patterns.length ∧ (Lines patterns' fun i => jobs (line + i)) ∧
      ∀ s ∈ sliced, SlicedFrom rd jobs s := by
  induction patterns generalizing line room with
  | nil => exact ⟨[], [], rfl, rfl, h, fun _ hs => absurd hs List.not_mem_nil⟩
  | cons pattern patterns ih =>
    have hnext : Lines patterns fun i => jobs (line + 1 + i) := by
      intro i p hp
      have hi := h (i + 1) p hp
      have hindex : line + (i + 1) = line + 1 + i := by omega
      dsimp only at hi ⊢
      rw [← hindex]
      exact hi
    have hcons : ∀ {pattern' : Pattern} {patterns' : List Pattern} {block : List Int},
        Holds pattern' (jobs line) block → (Lines patterns' fun i => jobs (line + 1 + i)) →
        Lines (pattern' :: patterns') fun i => jobs (line + i) := by
      intro pattern' patterns' block hpattern hpatterns i p hp
      cases i with
      | zero =>
        obtain rfl := Option.some.inj hp
        exact ⟨block, hpattern⟩
      | succ i =>
        have hi := hpatterns i p hp
        have hindex : line + (i + 1) = line + 1 + i := by omega
        dsimp only at hi ⊢
        rw [hindex]
        exact hi
    rw [decodeLines]
    split
    · exact ⟨_, [], rfl, rfl, h, fun _ hs => absurd hs List.not_mem_nil⟩
    · obtain ⟨block, hholds⟩ := h 0 pattern rfl
      obtain ⟨pattern', found, block', hdecode, hholds', hfound⟩ :=
        decodePattern_keeps hholds rd.readjust (slice line)
      simp only [Option.bind_eq_bind, hdecode, Option.bind_some]
      cases found with
      | none =>
        obtain ⟨patterns', sliced, hlines, hlength, hkept, hsliced⟩ := ih (line + 1) room hnext
        refine ⟨pattern' :: patterns', sliced, ?_, ?_, hcons hholds' hkept, hsliced⟩
        · simp only [hlines, Option.bind_some]
        · rw [List.length_cons, List.length_cons, hlength]
      | some num =>
        obtain ⟨job, hjob, rfl⟩ := (hholds.mem num).mp (hfound num rfl)
        have hlt := hbound _ job hjob
        have hexists : rd.jobs[((job : Int) + 1 - 1).toNat]? = some rd.jobs[job] := by
          rw [Int.add_sub_cancel, Int.toNat_natCast, List.getElem?_eq_getElem hlt]
        obtain ⟨patterns', sliced, hlines, hlength, hkept, hsliced⟩ :=
          ih (line + 1) (room - 1) hnext
        refine ⟨pattern' :: patterns', ⟨rd.jobs[job].id, lineNumber rd.sampling line⟩ :: sliced,
          ?_, ?_, hcons hholds' hkept, ?_⟩
        · simp only [hexists, hlines, Option.bind_some]
        · rw [List.length_cons, List.length_cons, hlength]
        · rw [List.forall_mem_cons]
          exact ⟨⟨line, job, hjob, _, List.getElem?_eq_getElem hlt, rfl⟩, hsliced⟩

theorem decode_sound (h : Sound rd jobs) (maxLines : Nat) (slice : Nat → Nat → Bool) :
    ∃ rd' sliced, vbi3RawDecoderDecode rd maxLines slice = some (rd', sliced) ∧ Sound rd' jobs ∧
      (rd'.jobs = rd.jobs ∧ rd'.services = rd.services ∧ rd'.sampling = rd.sampling) ∧
      ∀ s ∈ sliced, SlicedFrom rd jobs s := by
  rw [vbi3RawDecoderDecode]
  split
  · exact ⟨rd, [], rfl, h, ⟨rfl, rfl, rfl⟩, fun _ hs => absurd hs List.not_mem_nil⟩
  · rename_i hservices
    cases hpattern : rd.pattern with
    | none => exact absurd (h.unallocated hpattern).2 hservices
    | some patterns =>
      obtain ⟨hlength, hlines⟩ := h.lines patterns hpattern
      have hstart : Lines patterns fun i => jobs (0 + i) := by
        simpa only [Nat.zero_add] using hlines
      obtain ⟨patterns', sliced, hdecode, hlength', hkept, hsliced⟩ :=
        decodeLines_keeps rd slice 0 maxLines hstart h.bound
      simp only [Nat.zero_add] at hkept
      simp only [Option.bind_eq_bind, Option.bind_some, hdecode]
      refine ⟨_, sliced, rfl, ⟨?_, h.bound, ?_⟩, ⟨rfl, rfl, rfl⟩, hsliced⟩
      · intro ps hps
        obtain rfl := Option.some.inj hps
        exact ⟨hlength'.trans hlength, hkept⟩
      · intro hnone
        cases hnone

theorem step_sound {w : World Format} (h : Sound w.rd (assignment w.log)) (op : Op Format) :
    ∃ w', step c w op = some w' ∧ Sound w'.rd (assignment w'.log) := by
  have hafter : ∀ rd' events, Sound rd' (events.foldl Event.assignment (assignment w.log)) →
      Sound (w.after (rd', events)).rd (assignment (w.after (rd', events)).log) := by
    intro rd' events hsound
    rw [assignment, World.after, List.foldl_append]
    exact hsound
  cases op with
  | addServices services strict memory =>
    obtain ⟨rd', events, hadd, hsound⟩ := addServices_sound c h services strict memory
    exact ⟨_, congrArg (Option.map w.after) hadd, hafter rd' events hsound⟩
  | removeServices services =>
    exact ⟨_, rfl, hafter _ _ (removeServices_sound h services)⟩
  | setSamplingPar sp strict memory =>
    obtain ⟨rd', events, hset, hsound⟩ :=
      setSamplingPar_sound c w.rd sp strict memory (assignment w.log)
    exact ⟨_, congrArg (Option.map w.after) hset, hafter rd' events hsound⟩
  | reset => exact ⟨_, rfl, hafter _ _ (reset_sound w.rd w.rd.sampling)⟩
  | decode maxLines slice =>
    obtain ⟨rd', sliced, hdecode, hsound, -⟩ := decode_sound h maxLines slice
    exact ⟨⟨rd', w.log, sliced⟩, by rw [step, hdecode, Option.map_some], hsound⟩

theorem new_sound {sp : Option (SamplingPar Format)} (h : vbi3RawDecoderNew c sp = some rd) :
    Sound rd fun _ => ∅ := by
  cases sp with
  | none =>
    obtain rfl := Option.some.inj h
    exact reset_sound (clearedDecoder c) _
  | some sp =>
    by_cases hvalid : c.valid sp = true
    · obtain rfl := Option.some.inj ((if_pos hvalid).symm.trans h)
      exact reset_sound (clearedDecoder c) sp
    · cases (if_neg hvalid).symm.trans h

/-- The positive entries of a pattern are the jobs of the line, each once, and at least one
entry is not positive. -/
structure PatternOf (jobs : Finset Nat) (pattern : Pattern) : Prop where
  length : pattern.length = maxWays
  mem : ∀ num, 0 < num → (num ∈ pattern ↔ ∃ job ∈ jobs, num = (job : Int) + 1)
  once : (pattern.filter (0 < ·)).Nodup
  free : ∃ n ∈ pattern, n ≤ 0

theorem patternOf_holds {js : Finset Nat} (h : Holds pattern js block) : PatternOf js pattern := by
  have hfilter := h.arranged.filter h.positive
  constructor
  · exact h.length
  · intro num hnum
    rw [← h.mem, ← hfilter, List.mem_filter, decide_eq_true_eq]
    exact (and_iff_left hnum).symm
  · rw [hfilter]
    exact h.once
  · exact h.arranged.free.1

/-- The checks of an image which is good for all services. -/
def palChecks : Checks Unit := ⟨(), fun _ => true, fun _ _ _ => true⟩

def palDecoder : Decoder Unit :=
  { vbi3RawDecoderReset (clearedDecoder palChecks) with
    sampling := ⟨![7, 320], ![16, 16], true, ()⟩ }

end RawAssignments

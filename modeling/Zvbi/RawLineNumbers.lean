import Zvbi.SamplingChecks
import Zvbi.RawServices

/-!
# Line numbers of sliced data

The lines a service is looked for are those which have been sampled and can have the service.
If there is none in a field, all lines of the field are searched instead. This does not happen
if strict matching is requested.
-/

namespace RawLineNumbers
open RawDecoder RawAssignments RawServices SamplingWindow SamplingChecks GuardedRuns

variable {Format : Type} {sp : SamplingPar Format}

def InField (sp : SamplingPar Format) (field : Fin 2) (i : Nat) : Prop :=
  fieldOffset sp field ≤ i ∧ i < fieldOffset sp field + sp.count field

def Numbered (sp : SamplingPar Format) : Prop :=
  ∀ field, sp.count field ≠ 0 → sp.synchronous = true ∧ sp.start field ≠ 0

def HasLine (sp : SamplingPar Format) (par : ServicePar) (i : Nat) : Prop :=
  ∃ field, InField sp field i ∧
    par.first field ≤ lineNumber sp i ∧ lineNumber sp i ≤ par.last field

variable {field : Fin 2} {i : Nat} {par : ServicePar}

theorem lineNumber_inField (h : Numbered sp) (hi : InField sp field i) :
    lineNumber sp i = sp.start field + (i - fieldOffset sp field) := by
  obtain ⟨hlow, hhigh⟩ := hi
  obtain ⟨hsync, hstart⟩ := h field (by omega)
  rw [lineNumber]
  rw [fieldOffset] at hlow hhigh ⊢
  by_cases hfield : field = 0
  · subst hfield
    rw [if_pos rfl] at hlow hhigh ⊢
    rw [if_neg (by omega), if_pos ⟨hsync, hstart⟩, Nat.sub_zero]
  · obtain rfl : field = 1 := Fin.eq_one_of_ne_zero field hfield
    rw [if_neg hfield] at hlow hhigh ⊢
    rw [if_pos hlow, if_pos ⟨hsync, hstart⟩]
    omega

theorem fieldLines_inField (hi : i ∈ fieldLines sp par field) : InField sp field i := by
  refine ⟨?_, fieldLines_lt hi⟩
  rw [fieldLines] at hi
  split at hi
  · exact (List.mem_range'_1.mp hi).1
  split at hi
  · cases hi
  split at hi
  · exact (List.mem_range'_1.mp hi).1
  · exact Nat.le_trans (Nat.le_add_right _ _) (List.mem_range'_1.mp hi).1

/-- A service is looked for on its lines unless it is apart from the image. -/
theorem fieldLines_hasLine (h : Numbered sp) (happart : ¬Apart sp par field)
    (hi : i ∈ fieldLines sp par field) : HasLine sp par i := by
  have hfield := fieldLines_inField hi
  have hcount : sp.count field ≠ 0 := by
    have hlimits := hfield
    rw [InField] at hlimits
    omega
  obtain ⟨hsync, hstart⟩ := h field hcount
  refine ⟨field, hfield, ?_⟩
  rw [lineNumber_inField h hfield, fieldOffset]
  rw [fieldLines] at hi
  split at hi
  · rename_i hasync
    rw [hsync] at hasync
    cases hasync
  split at hi
  · cases hi
  rename_i hused
  rw [not_or] at hused
  split at hi
  · rename_i hall
    exact absurd ⟨hused.1, hused.2, hcount, by omega⟩ happart
  · rename_i hcommon
    have hrange := List.mem_range'_1.mp hi
    omega

/-- If it is apart from the image it is looked for on all lines of the field, of which it has
none. -/
theorem fieldLines_apart (h : Numbered sp) (happart : Apart sp par field)
    (hi : InField sp field i) :
    i ∈ fieldLines sp par field ∧
      ¬(par.first field ≤ lineNumber sp i ∧ lineNumber sp i ≤ par.last field) := by
  obtain ⟨hfirst, hlast, hcount, hlimits⟩ := happart
  obtain ⟨hsync, hstart⟩ := h field hcount
  have hasync : ¬sp.synchronous = false := by
    rw [hsync]
    decide
  have hused : ¬(par.first field = 0 ∨ par.last field = 0) := not_or.mpr ⟨hfirst, hlast⟩
  constructor
  · rw [fieldLines, if_neg hasync, if_neg hused, if_pos (Or.inr (Or.inr hlimits))]
    exact List.mem_range'_1.mpr hi
  · rw [lineNumber_inField h hi]
    obtain ⟨hlow, hhigh⟩ := hi
    omega

def JobFits (sp : SamplingPar Format) (job : Job) (i : Nat) : Prop :=
  ∃ par ∈ vbiServiceTable, Within par.id job.id ∧ HasLine sp par i

structure Placed (rd : Decoder Format) (jobs : Assignment) : Prop where
  numbered : Numbered rd.sampling
  fits : ∀ i, ∀ j ∈ jobs i, ∃ job, rd.jobs[j]? = some job ∧ JobFits rd.sampling job i

theorem JobFits.mono {job job' : Job} (h : JobFits sp job i) (hwithin : Within job.id job'.id) :
    JobFits sp job' i := by
  obtain ⟨par, hpar, hjob, hline⟩ := h
  exact ⟨par, hpar, hjob.trans hwithin, hline⟩

variable {c : Checks Format} {rd rd' : Decoder Format} {jobs : Assignment} {events : List Event}

theorem addService_placed {j : Nat} (hpar : par ∈ vbiServiceTable) (h : Placed rd jobs)
    (hj : j ≤ rd.jobs.length) (happart : ∀ field, ¬Apart rd.sampling par field)
    (hadd : addService rd j par = some (rd', events)) :
    Placed rd' (events.foldl Event.assignment jobs) ∧ rd'.sampling = rd.sampling := by
  have hmodify : ∀ (i : Nat) (job : Job), rd.jobs[i]? = some job → ∃ job' : Job,
      (rd.jobs.modify j fun job => { job with slicer := par.signal })[i]? = some job' ∧
        job'.id = job.id := by
    intro i job hjob
    rw [List.getElem?_modify, hjob]
    split
    · exact ⟨_, rfl, rfl⟩
    · exact ⟨job, rfl, rfl⟩
  obtain ⟨patterns, -, hadd⟩ := Option.bind_eq_some_iff.mp hadd
  obtain ⟨r, -, hadd⟩ := Option.bind_eq_some_iff.mp hadd
  dsimp only at hadd
  split at hadd
  · obtain ⟨rfl, rfl⟩ := Prod.mk.inj (Option.some.inj hadd)
    refine ⟨⟨h.numbered, fun i k hk => ?_⟩, rfl⟩
    change ∃ job, (joinJob (rd.jobs.modify j fun job => { job with slicer := par.signal }) j
      par)[k]? = some job ∧ JobFits rd.sampling job i
    have hold : k ∈ jobs i → ∃ job, (joinJob (rd.jobs.modify j fun job =>
        { job with slicer := par.signal }) j par)[k]? = some job ∧ JobFits rd.sampling job i := by
      intro hk
      obtain ⟨job, hjob, hfits⟩ := h.fits i k hk
      obtain ⟨job₁, hjob₁, hid⟩ := hmodify k job hjob
      obtain ⟨job₂, hjob₂, hwithin, -⟩ := joinJob_getElem? _ j par hjob₁
      rw [hid] at hwithin
      exact ⟨job₂, hjob₂, hfits.mono hwithin⟩
    change k ∈ assign jobs j (linesContainingData rd.sampling par) i at hk
    rw [assign] at hk
    split at hk
    · rename_i hline
      rcases Finset.mem_insert.mp hk with rfl | hk
      · have hself : ∀ job, (rd.jobs.modify k fun job =>
            { job with slicer := par.signal })[k]? = some job → job.slicer = par.signal := by
          intro job hjob
          rw [List.getElem?_modify_eq] at hjob
          obtain ⟨job, -, rfl⟩ := Option.map_eq_some_iff.mp hjob
          rfl
        obtain ⟨job, hjob, hwithin, -⟩ := joinJob_self (by rw [List.length_modify]; exact hj) hself
        refine ⟨job, hjob, par, hpar, hwithin, ?_⟩
        rcases List.mem_append.mp hline with hline | hline
        · exact fieldLines_hasLine h.numbered (happart 0) hline
        · exact fieldLines_hasLine h.numbered (happart 1) hline
      · exact hold hk
    · exact hold hk
  · obtain ⟨rfl, rfl⟩ := Prod.mk.inj (Option.some.inj hadd)
    refine ⟨⟨h.numbered, fun i k hk => ?_⟩, rfl⟩
    obtain ⟨job, hjob, hfits⟩ := h.fits i k hk
    obtain ⟨job', hjob', hid⟩ := hmodify k job hjob
    exact ⟨job', hjob', hfits.mono (by rw [hid]; exact within_iff.mpr fun _ hi => hi)⟩

def NoneApart (c : Checks Format) (sp : SamplingPar Format) (services : ServiceSet)
    (strict : Int) : Prop :=
  ∀ par ∈ vbiServiceTable, par.id &&& services ≠ 0 → c.permits sp par.id strict = true →
    ∀ field, ¬Apart sp par field

variable {strict : Int} {services : ServiceSet}

theorem addLoop_placed {wanted : ServiceSet} {table : List ServicePar}
    (htable : ∀ par ∈ table, par ∈ vbiServiceTable) (h : Placed rd jobs)
    (hnone : NoneApart c rd.sampling wanted strict)
    (hadd : addLoop c wanted strict table rd = some (rd', events)) :
    Placed rd' (events.foldl Event.assignment jobs) := by
  induction table generalizing rd jobs events with
  | nil =>
    obtain ⟨rfl, rfl⟩ := Prod.mk.inj (Option.some.inj hadd)
    exact h
  | cons par table ih =>
    rw [List.forall_mem_cons] at htable
    rw [addLoop] at hadd
    split at hadd
    · exact ih htable.2 h hnone hadd
    rename_i hwanted
    dsimp only at hadd
    split at hadd
    · obtain ⟨rfl, rfl⟩ := Prod.mk.inj (Option.some.inj hadd)
      exact h
    split at hadd
    · exact ih htable.2 h hnone hadd
    · rename_i hpermits
      obtain ⟨⟨rd₁, events₁⟩, hservice, hadd⟩ := Option.bind_eq_some_iff.mp hadd
      obtain ⟨⟨rd₂, events₂⟩, hloop, hadd⟩ := Option.bind_eq_some_iff.mp hadd
      obtain ⟨rfl, rfl⟩ := Prod.mk.inj (Option.some.inj hadd)
      obtain ⟨hplaced, hsampling⟩ := addService_placed htable.1 h List.findIdx_le_length
        (hnone par htable.1 hwanted (Bool.eq_true_of_not_eq_false hpermits)) hservice
      rw [List.foldl_append]
      refine ih htable.2 hplaced ?_ hloop
      rw [hsampling]
      exact hnone

theorem addServices_placed (h : Placed rd jobs) {memory : Bool}
    (hnone : NoneApart c rd.sampling (newServices rd services) strict)
    (hadd : vbi3RawDecoderAddServices c rd services strict memory = some (rd', events)) :
    Placed rd' (events.foldl Event.assignment jobs) := by
  have hnothing : ∀ {r : Decoder Format × List Event}, (rd, []) = r →
      Placed r.1 (r.2.foldl Event.assignment jobs) := by
    rintro r rfl
    exact h
  rw [vbi3RawDecoderAddServices] at hadd
  split at hadd
  · exact hnothing (Option.some.inj hadd)
  · split at hadd
    · exact hnothing (Option.some.inj hadd)
    · rename_i patterns _
      have hallocated : Placed { rd with pattern := some patterns } jobs := ⟨h.numbered, h.fits⟩
      exact addLoop_placed (fun _ hpar => hpar) hallocated hnone hadd

theorem reset_placed (rd : Decoder Format) (h : Numbered sp) :
    Placed { vbi3RawDecoderReset rd with sampling := sp } fun _ => ∅ :=
  ⟨h, fun _ j hj => absurd hj (Finset.notMem_empty j)⟩

/-- A job left on a line was there before. The jobs in front of the loop stay. -/
theorem removeJobs_origin (removed : ServiceSet) (front js : List Job)
    (pattern : Option (List Pattern)) {jobs : Assignment} {line j' : Nat}
    (h : j' ∈ (removeJobs removed front.length js pattern).2.2.foldl Event.assignment jobs line) :
    ∃ j ∈ jobs line, ∀ job, (front ++ js)[j]? = some job →
      (front ++ (removeJobs removed front.length js pattern).1)[j']? = some job := by
  induction js generalizing front pattern jobs with
  | nil => exact ⟨j', h, fun _ hjob => hjob⟩
  | cons first js ih =>
    rw [removeJobs] at h ⊢
    split at h
    · rename_i hfirst
      rw [if_pos hfirst]
      obtain ⟨j₁, hj₁, hkept⟩ := ih front _ h
      obtain ⟨j, hj, rfl⟩ := Finset.mem_image.mp hj₁
      obtain ⟨hne, hj⟩ := Finset.mem_erase.mp hj
      refine ⟨j, hj, fun job hjob => hkept job ?_⟩
      rw [renumber]
      split
      · rename_i hbehind
        obtain ⟨m, rfl⟩ := Nat.exists_eq_add_of_lt hbehind
        rw [List.getElem?_append_right (by omega)] at hjob ⊢
        have hindex : front.length + m + 1 - front.length = m + 1 := by omega
        have hindex' : front.length + m + 1 - 1 - front.length = m := by omega
        rw [hindex, List.getElem?_cons_succ] at hjob
        rw [hindex', hjob]
      · rw [List.getElem?_append_left (by omega)] at hjob ⊢
        exact hjob
    · rename_i hfirst
      rw [if_neg hfirst]
      have hlength : (front ++ [first]).length = front.length + 1 := List.length_append
      have horigin := @ih (front ++ [first]) pattern jobs
      rw [hlength, List.append_assoc, List.append_assoc] at horigin
      exact horigin h

theorem removeServices_placed (h : Placed rd jobs) (services : ServiceSet) :
    Placed (vbi3RawDecoderRemoveServices rd services).1
      ((vbi3RawDecoderRemoveServices rd services).2.foldl Event.assignment jobs) := by
  refine ⟨h.numbered, fun i j' hj' => ?_⟩
  rw [vbi3RawDecoderRemoveServices, List.foldl_append] at hj'
  obtain ⟨j, hj, hkept⟩ := removeJobs_origin services [] rd.jobs rd.pattern hj'
  obtain ⟨job, hjob, hfits⟩ := h.fits i j hj
  exact ⟨job, hkept job hjob, hfits⟩

def Attributed (sp : SamplingPar Format) (s : Sliced) : Prop :=
  ∃ par ∈ vbiServiceTable, Within par.id s.id ∧ ∃ field,
    (sp.start field ≤ s.line ∧ s.line < sp.start field + sp.count field) ∧
      par.first field ≤ s.line ∧ s.line ≤ par.last field

theorem attributed_slicedFrom (h : Placed rd jobs) {s : Sliced} (hs : SlicedFrom rd jobs s) :
    Attributed rd.sampling s := by
  obtain ⟨i, j, hj, job, hjob, rfl⟩ := hs
  obtain ⟨job', hjob', par, hpar, hwithin, field, hfield, hline⟩ := h.fits i j hj
  obtain rfl := Option.some.inj (hjob.symm.trans hjob')
  refine ⟨par, hpar, hwithin, field, ?_, hline⟩
  dsimp only
  rw [lineNumber_inField h.numbered hfield]
  obtain ⟨hlow, hhigh⟩ := hfield
  omega

/-- Calls with known line numbers. Without strict matching no service is apart from the image. -/
def Meets (w : World LineFormat) : Op LineFormat → Prop
  | .addServices services strict _ =>
    strict ≤ 0 → NoneApart samplingChecks w.rd.sampling (newServices w.rd services) strict
  | .setSamplingPar sp strict _ =>
    Numbered sp ∧ (strict ≤ 0 → NoneApart samplingChecks sp
      (newServices { vbi3RawDecoderReset w.rd with sampling := sp } w.rd.services) strict)
  | _ => True

theorem noneApart_of_meets {sp : SamplingPar LineFormat} (hnumbered : Numbered sp)
    (h : strict ≤ 0 → NoneApart samplingChecks sp services strict) :
    NoneApart samplingChecks sp services strict := by
  by_cases hstrict : 0 < strict
  · intro par hpar _ hpermits field happart
    exact not_apart_strict hpar hstrict (hnumbered field happart.2.2.1).2 hpermits happart
  · exact h (not_lt.mp hstrict)

structure Kept (w : World LineFormat) : Prop where
  sound : Sound w.rd (assignment w.log)
  placed : Placed w.rd (assignment w.log)
  sliced : ∀ s ∈ w.sliced, Attributed w.rd.sampling s

theorem cleared_numbered (format : Format) :
    Numbered (⟨fun _ => 0, fun _ => 0, false, format⟩ : SamplingPar Format) :=
  fun _ hcount => absurd rfl hcount

theorem step_kept {w : World LineFormat} (h : Kept w) {op : Op LineFormat} (hop : Meets w op) :
    ∃ w', step samplingChecks w op = some w' ∧ Kept w' := by
  have hafter : ∀ rd' events, Sound rd' (events.foldl Event.assignment (assignment w.log)) →
      Placed rd' (events.foldl Event.assignment (assignment w.log)) →
      Kept (w.after (rd', events)) := by
    intro rd' events hsound hplaced
    refine ⟨?_, ?_, fun _ hs => absurd hs List.not_mem_nil⟩
    · rw [World.after, assignment, List.foldl_append]
      exact hsound
    · rw [World.after, assignment, List.foldl_append]
      exact hplaced
  cases op with
  | addServices services strict memory =>
    obtain ⟨rd', events, hadd, hsound⟩ :=
      addServices_sound samplingChecks h.sound services strict memory
    refine ⟨_, congrArg (Option.map w.after) hadd, hafter rd' events hsound ?_⟩
    exact addServices_placed h.placed (noneApart_of_meets h.placed.numbered hop) hadd
  | removeServices services =>
    exact ⟨_, rfl, hafter _ _ (removeServices_sound h.sound services)
      (removeServices_placed h.placed services)⟩
  | setSamplingPar sp strict memory =>
    obtain ⟨rd', events, hset, hsound⟩ :=
      setSamplingPar_sound samplingChecks w.rd sp strict memory (assignment w.log)
    refine ⟨_, congrArg (Option.map w.after) hset, hafter rd' events hsound ?_⟩
    rw [vbi3RawDecoderSetSamplingPar] at hset
    split at hset
    · obtain ⟨⟨rd₁, events₁⟩, hadd, hset⟩ := Option.bind_eq_some_iff.mp hset
      obtain ⟨rfl, rfl⟩ := Prod.mk.inj (Option.some.inj hset)
      have hplaced := addServices_placed (reset_placed w.rd hop.1)
        (noneApart_of_meets hop.1 hop.2) hadd
      exact hplaced
    · obtain ⟨rfl, rfl⟩ := Prod.mk.inj (Option.some.inj hset)
      exact reset_placed w.rd (cleared_numbered _)
  | reset =>
    exact ⟨_, rfl, hafter _ _ (reset_sound w.rd w.rd.sampling)
      (reset_placed w.rd h.placed.numbered)⟩
  | decode maxLines slice =>
    obtain ⟨rd', sliced, hdecode, hsound, ⟨hjobs, -, hsampling⟩, hsliced⟩ :=
      decode_sound h.sound maxLines slice
    refine ⟨⟨rd', w.log, sliced⟩, by rw [step, hdecode, Option.map_some], hsound, ?_, ?_⟩
    · exact ⟨hsampling ▸ h.placed.numbered, by rw [hjobs, hsampling]; exact h.placed.fits⟩
    · intro s hs
      dsimp only
      rw [hsampling]
      exact attributed_slicedFrom h.placed (hsliced s hs)

instance (sp : SamplingPar Format) : Decidable (Numbered sp) :=
  inferInstanceAs (Decidable (∀ _ : Fin 2, _))

instance (sp : SamplingPar Format) (s : Sliced) : Decidable (Attributed sp s) :=
  inferInstanceAs (Decidable (∃ par ∈ vbiServiceTable, _))

instance (c : Checks Format) (sp : SamplingPar Format) (services : ServiceSet) (strict : Int) :
    Decidable (NoneApart c sp services strict) :=
  inferInstanceAs (Decidable (∀ par ∈ vbiServiceTable, _))

instance (w : World LineFormat) : ∀ op, Decidable (Meets w op)
  | .addServices _ _ _ => inferInstanceAs (Decidable (_ → _))
  | .setSamplingPar _ _ _ => inferInstanceAs (Decidable (_ ∧ _))
  | .removeServices _ => isTrue trivial
  | .reset => isTrue trivial
  | .decode _ _ => isTrue trivial

def palImage (start count : Nat) : SamplingPar LineFormat :=
  ⟨![start, 318], ![count, 18], true, ⟨625, pixfmtYuv420, 27000000, 1440, 0, false⟩⟩

def palDecoder (start count : Nat) : Decoder LineFormat :=
  { vbi3RawDecoderReset (clearedDecoder samplingChecks) with sampling := palImage start count }

end RawLineNumbers

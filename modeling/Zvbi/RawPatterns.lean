import Mathlib.Data.List.GetD
import Zvbi.RawDecoder

/-!
# Patterns of scan lines

The jobs in a pattern are next to each other, at its front or after one way which is not a job,
and there is always such a way. All changes of the pattern keep this.
-/

namespace RawPatterns
open RawDecoder

/-- The jobs `block` in their places. A line with a blank way in front is not searched. -/
inductive Arranged : Pattern → List Int → Prop
  | front (block rest : List Int) (nonempty : rest ≠ []) (blank : ∀ n ∈ rest, n ≤ 0) :
      Arranged (block ++ rest) block
  | waiting (n : Int) (block rest : List Int) (first : n ≤ 0) (blank : ∀ n ∈ rest, n ≤ 0) :
      Arranged (n :: (block ++ rest)) block

structure Holds (pattern : Pattern) (jobs : Finset Nat) (block : List Int) : Prop where
  arranged : Arranged pattern block
  length : pattern.length = maxWays
  once : block.Nodup
  mem : ∀ num, num ∈ block ↔ ∃ job ∈ jobs, num = (job : Int) + 1

variable {pattern : Pattern} {jobs : Finset Nat} {block : List Int}

theorem Holds.positive (h : Holds pattern jobs block) : ∀ n ∈ block, 0 < n := by
  intro n hn
  obtain ⟨job, -, rfl⟩ := (h.mem n).mp hn
  omega

theorem Holds.perm (h : Holds pattern jobs block) {pattern' : Pattern} {block' : List Int}
    (harranged : Arranged pattern' block') (hlength : pattern'.length = maxWays)
    (hperm : block'.Perm block) : Holds pattern' jobs block' where
  arranged := harranged
  length := hlength
  once := hperm.nodup_iff.mpr h.once
  mem num := hperm.mem_iff.trans (h.mem num)

theorem Arranged.filter (h : Arranged pattern block) (hpositive : ∀ n ∈ block, 0 < n) :
    pattern.filter (0 < ·) = block := by
  have hblock : block.filter (0 < ·) = block :=
    List.filter_eq_self.mpr fun n hn => decide_eq_true (hpositive n hn)
  have hrest : ∀ rest : List Int, (∀ n ∈ rest, n ≤ 0) → rest.filter (0 < ·) = [] := by
    intro rest hblank
    rw [List.filter_eq_nil_iff]
    intro n hn
    rw [decide_eq_true_eq, not_lt]
    exact hblank n hn
  cases h with
  | front _ rest _ hblank => rw [List.filter_append, hblock, hrest rest hblank, List.append_nil]
  | waiting n _ rest hfirst hblank =>
    rw [List.filter_cons_of_neg (by rw [decide_eq_true_eq]; omega), List.filter_append, hblock,
      hrest rest hblank, List.append_nil]

theorem Arranged.free (h : Arranged pattern block) :
    (∃ n ∈ pattern, n ≤ 0) ∧ block.length < pattern.length := by
  cases h with
  | front _ rest hnonempty hblank =>
    obtain ⟨n, rest, rfl⟩ := List.exists_cons_of_ne_nil hnonempty
    constructor
    · exact ⟨n, List.mem_append_right _ List.mem_cons_self, hblank n List.mem_cons_self⟩
    · simp
  | waiting n _ rest hfirst _ =>
    constructor
    · exact ⟨n, List.mem_cons_self, hfirst⟩
    · simp only [List.length_cons, List.length_append]
      omega

variable {rest : List Int} {n : Int} {job : Nat}

/-- The search finds data for a job, or comes to the way after the jobs. -/
theorem search_block (slice : Nat → Bool) (k : Nat) (hnonempty : rest ≠ [])
    (hblank : ∀ n ∈ rest, n ≤ 0) (hpositive : ∀ n ∈ block, 0 < n) :
    (∃ way < block.length, search slice k (block ++ rest) = .found (k + way)) ∨
      search slice k (block ++ rest) = .blank (k + block.length) := by
  induction block generalizing k with
  | nil =>
    obtain ⟨n, rest, rfl⟩ := List.exists_cons_of_ne_nil hnonempty
    right
    exact if_neg (not_lt.mpr (hblank n List.mem_cons_self))
  | cons n block ih =>
    rw [List.forall_mem_cons] at hpositive
    rw [List.cons_append, search, if_pos hpositive.1]
    split
    · left
      exact ⟨0, Nat.succ_pos _, rfl⟩
    · rcases ih (k + 1) hpositive.2 with ⟨way, hway, hfound⟩ | hblank
      · left
        refine ⟨way + 1, Nat.succ_lt_succ hway, ?_⟩
        rw [hfound, Nat.add_assoc, Nat.add_comm 1 way]
      · right
        rw [hblank, List.length_cons, Nat.add_assoc, Nat.add_comm 1]

theorem set_counter (hlength : (block ++ rest).length = maxWays) (hnonempty : rest ≠ []) :
    (block ++ rest).set (maxWays - 1) (-128) =
      block ++ rest.set (maxWays - 1 - block.length) (-128) := by
  have hpos := List.length_pos_iff.mpr hnonempty
  rw [List.length_append] at hlength
  rw [List.set_append_right _ _ (by omega)]

/-- A job which found data changes places with the first job. -/
theorem exchange_found (rest : List Int) {way : Nat} (hway : way < block.length) :
    ∃ block', exchange (block ++ rest) way block[way] = block' ++ rest ∧ block'.Perm block := by
  have hzero : 0 < block.length := Nat.zero_lt_of_lt hway
  have hfirst : (block ++ rest).getD 0 0 = block[0] := by
    rw [List.getD_append _ _ _ _ hzero, List.getD_eq_getElem _ _ hzero]
  refine ⟨(block.set way block[0]).set 0 block[way], ?_, List.set_set_perm hway hzero⟩
  rw [exchange, hfirst, List.set_append_left _ _ hway,
    List.set_append_left _ _ (by rw [List.length_set]; exact hzero)]

/-- If no job found data the first one goes to the end, behind a blank way. -/
theorem exchange_blank {num : Int} :
    exchange (num :: block ++ n :: rest) (num :: block).length 0 =
      0 :: ((block ++ [num]) ++ rest) := by
  have hset : (num :: block ++ n :: rest).set (num :: block).length num =
      num :: block ++ num :: rest := by
    rw [List.set_append_right _ _ (Nat.le_refl _), Nat.sub_self, List.set_cons_zero]
  rw [exchange]
  change ((num :: block ++ n :: rest).set (num :: block).length num).set 0 0 = _
  rw [hset, List.cons_append, List.set_cons_zero, List.append_assoc, List.singleton_append]

theorem forall_mem_set {i : Nat} (hblank : ∀ n ∈ rest, n ≤ 0) (hn : n ≤ 0) :
    ∀ m ∈ rest.set i n, m ≤ 0 := by
  intro m hm
  rcases List.mem_or_eq_of_mem_set hm with hm | rfl
  · exact hblank m hm
  · exact hn

theorem decodePattern_keeps (h : Holds pattern jobs block) (readjust : Nat) (slice : Nat → Bool) :
    ∃ pattern' found block', decodePattern readjust slice pattern = some (pattern', found) ∧
      Holds pattern' jobs block' ∧ ∀ num, found = some num → num ∈ block := by
  have hlength := h.length
  have hpositive := h.positive
  have hsame : ∃ pattern' found block', some (pattern, (none : Option Int)) =
      some (pattern', found) ∧ Holds pattern' jobs block' ∧ ∀ num, found = some num → num ∈ block :=
    ⟨pattern, none, block, rfl, h, fun _ hnum => by cases hnum⟩
  have harranged := h.arranged
  cases harranged with
  | waiting n _ rest hfirst hblank =>
    rw [decodePattern, search, if_neg (not_lt.mpr hfirst)]
    dsimp only
    rw [if_pos rfl]
    split
    · refine ⟨_, none, block, rfl, h.perm ?_ ?_ (List.Perm.refl _), fun _ hnum => by cases hnum⟩
      · rw [List.drop_one, List.tail_cons, List.take_one, List.head?_cons, Option.toList_some,
          List.append_assoc]
        refine .front block (rest ++ [n]) (by simp) fun m hm => ?_
        rcases List.mem_append.mp hm with hm | hm
        · exact hblank m hm
        · rw [List.mem_singleton.mp hm]
          exact hfirst
      · rw [List.length_append, List.length_drop, List.length_take]
        omega
    · exact hsame
  | front _ rest hnonempty hblank =>
    rw [decodePattern]
    rcases search_block slice 0 hnonempty hblank hpositive with ⟨way, hway, hfound⟩ | hend
    · have hj : (block ++ rest).getD way 0 = block[way] := by
        rw [List.getD_append _ _ _ _ hway, List.getD_eq_getElem _ _ hway]
      rw [hfound, Nat.zero_add]
      dsimp only
      rw [hj, set_counter hlength hnonempty]
      obtain ⟨block', hexchange, hperm⟩ :=
        exchange_found (rest.set (maxWays - 1 - block.length) (-128)) hway
      rw [hexchange]
      refine ⟨_, _, block', rfl, h.perm ?_ ?_ hperm, fun num hnum => ?_⟩
      · exact .front _ _ (by rw [Ne, List.set_eq_nil_iff]; exact hnonempty)
          (forall_mem_set hblank (by decide))
      · rw [List.length_append, List.length_set, hperm.length_eq, ← List.length_append, hlength]
      · rw [← Option.some.inj hnum]
        exact List.getElem_mem hway
    · rw [hend, Nat.zero_add]
      dsimp only
      split
      · rename_i hnone
        rw [List.length_eq_zero_iff] at hnone
        subst hnone
        obtain ⟨n, rest, rfl⟩ := List.exists_cons_of_ne_nil hnonempty
        split
        · refine ⟨_, none, [], rfl, h.perm ?_ ?_ (List.Perm.refl _), fun _ hnum => by cases hnum⟩
          · refine .front [] (rest ++ [n]) (by simp) fun m hm => ?_
            rcases List.mem_append.mp hm with hm | hm
            · exact hblank m (List.mem_cons_of_mem n hm)
            · rw [List.mem_singleton.mp hm]
              exact hblank n List.mem_cons_self
          · rw [List.length_append, List.length_drop, List.length_take]
            omega
        · exact hsame
      · rename_i hjobs
        split
        · exact hsame
        · rename_i hcounter
          obtain ⟨num, block, rfl⟩ := List.exists_cons_of_ne_nil
            fun hnil => hjobs (List.length_eq_zero_iff.mpr hnil)
          obtain ⟨n, rest, rfl⟩ := List.exists_cons_of_ne_nil hnonempty
          have hlast : (num :: block ++ n :: rest).getD (maxWays - 1) 0 = 0 := by
            have hpos := List.length_pos_iff.mpr hnonempty
            rw [List.length_append] at hlength
            rw [List.getD_append_right _ _ _ _ (by omega), List.getD_eq_getElem _ _ (by omega)]
              at hcounter ⊢
            have hle := hblank _ (List.getElem_mem (l := n :: rest)
              (n := maxWays - 1 - (num :: block).length) (by omega))
            omega
          rw [hlast, exchange_blank]
          refine ⟨_, none, block ++ [num], rfl, h.perm ?_ ?_ ?_, fun _ hnum => by cases hnum⟩
          · exact .waiting 0 _ rest (Int.le_refl 0) fun m hm =>
              hblank m (List.mem_cons_of_mem n hm)
          · simp only [List.length_cons, List.length_append, List.length_nil] at hlength ⊢
            omega
          · exact List.perm_append_singleton num block

theorem fillUp_length {kept : Pattern} (h : kept.length ≤ maxWays) :
    (fillUp kept).length = maxWays := by
  rw [fillUp, List.length_append, List.length_replicate]
  omega

theorem forall_mem_zeros (hblank : ∀ n ∈ rest, n ≤ 0) (count : Nat) :
    ∀ n ∈ rest ++ List.replicate count 0, n ≤ 0 := by
  intro n hn
  rcases List.mem_append.mp hn with hn | hn
  · exact hblank n hn
  · rw [List.eq_of_mem_replicate hn]

def renumberWay (dropped : Nat) (n : Int) : Int := if (dropped : Int) + 1 < n then n - 1 else n

theorem renumberWay_job (dropped job : Nat) :
    renumberWay dropped ((job : Int) + 1) = (renumber dropped job : Int) + 1 := by
  rw [renumberWay, renumber]
  split
  · rw [if_pos (by omega)]
    omega
  · rw [if_neg (by omega)]

theorem remove_blank (hblank : ∀ n ∈ rest, n ≤ 0) (job : Nat) :
    (rest.filter (· ≠ (job : Int) + 1)).map (renumberWay job) = rest := by
  have hkept : rest.filter (· ≠ (job : Int) + 1) = rest := by
    rw [List.filter_eq_self]
    intro n hn
    have hn := hblank n hn
    rw [decide_eq_true_eq]
    omega
  have hnumber : rest.map (renumberWay job) = rest.map id := by
    apply List.map_congr_left
    intro n hn
    have hn := hblank n hn
    rw [renumberWay, if_neg (by omega), id]
  rw [hkept, hnumber, List.map_id]

theorem Arranged.remove (h : Arranged pattern block) (job : Nat) :
    Arranged (removeJobFromPattern job pattern)
      ((block.filter (· ≠ (job : Int) + 1)).map (renumberWay job)) := by
  have hremove : removeJobFromPattern job pattern =
      fillUp ((pattern.filter (· ≠ (job : Int) + 1)).map (renumberWay job)) := rfl
  rw [hremove, fillUp]
  generalize maxWays - _ = count
  cases h with
  | front _ rest hnonempty hblank =>
    rw [List.filter_append, List.map_append, remove_blank hblank, List.append_assoc]
    exact .front _ _ (List.append_ne_nil_of_left_ne_nil hnonempty _)
      (forall_mem_zeros hblank count)
  | waiting n _ rest hfirst hblank =>
    have hone : ∀ m ∈ [n], m ≤ 0 := fun m hm => (List.mem_singleton.mp hm) ▸ hfirst
    rw [← List.singleton_append, List.filter_append, List.map_append, remove_blank hone,
      List.filter_append, List.map_append, remove_blank hblank, List.append_assoc,
      List.append_assoc, List.singleton_append]
    exact .waiting n _ _ hfirst (forall_mem_zeros hblank count)

theorem removeJobFromPattern_length (hlength : pattern.length = maxWays) (job : Nat) :
    (removeJobFromPattern job pattern).length = maxWays := by
  apply fillUp_length
  rw [List.length_map, ← hlength]
  exact List.length_filter_le _ _

/-- The jobs above the one dropped get the next lower number. -/
theorem Holds.remove (h : Holds pattern jobs block) (job : Nat) :
    Holds (removeJobFromPattern job pattern) ((jobs.erase job).image (renumber job))
      ((block.filter (· ≠ (job : Int) + 1)).map (renumberWay job)) where
  arranged := h.arranged.remove job
  length := removeJobFromPattern_length h.length job
  once := by
    refine List.Nodup.map_on ?_ (h.once.filter _)
    intro m hm n hn heq
    have hm := of_decide_eq_true (List.mem_filter.mp hm).2
    have hn := of_decide_eq_true (List.mem_filter.mp hn).2
    rw [renumberWay, renumberWay] at heq
    split at heq
    · split at heq
      · omega
      · omega
    · split at heq
      · omega
      · omega
  mem num := by
    rw [List.mem_map]
    constructor
    · rintro ⟨n, hn, rfl⟩
      rw [List.mem_filter, decide_eq_true_eq] at hn
      obtain ⟨k, hk, rfl⟩ := (h.mem n).mp hn.1
      refine ⟨renumber job k, Finset.mem_image_of_mem _ (Finset.mem_erase.mpr ⟨?_, hk⟩),
        renumberWay_job job k⟩
      intro heq
      rw [heq] at hn
      exact hn.2 rfl
    · rintro ⟨k', hk', rfl⟩
      obtain ⟨k, hk, rfl⟩ := Finset.mem_image.mp hk'
      obtain ⟨hne, hk⟩ := Finset.mem_erase.mp hk
      refine ⟨(k : Int) + 1, List.mem_filter.mpr ⟨(h.mem _).mpr ⟨k, hk, rfl⟩, ?_⟩,
        renumberWay_job job k⟩
      rw [decide_eq_true_eq]
      omega

theorem Holds.compact (h : Holds pattern jobs block) :
    Holds (fillUp (pattern.filter (0 < ·))) jobs block ∧
      ∃ rest, fillUp (pattern.filter (0 < ·)) = block ++ rest ∧ (∀ n ∈ rest, n ≤ 0) ∧ rest ≠ [] := by
  have hfree := h.arranged.free.2
  rw [h.length] at hfree
  rw [h.arranged.filter h.positive]
  have hnonempty : List.replicate (maxWays - block.length) (0 : Int) ≠ [] := by
    rw [Ne, List.replicate_eq_nil_iff]
    omega
  have hblank : ∀ n ∈ List.replicate (maxWays - block.length) (0 : Int), n ≤ 0 :=
    fun n hn => (List.eq_of_mem_replicate hn).le
  refine ⟨h.perm (.front _ _ hnonempty hblank) (fillUp_length hfree.le) (List.Perm.refl _), ?_⟩
  exact ⟨_, rfl, hblank, hnonempty⟩

/-- There is room for a job if more than one way is free or has the job. -/
theorem Holds.roomy (h : Holds pattern jobs block)
    (hcount : 1 < pattern.countP fun n => n ≤ 0 ∨ n = (job : Int) + 1) (hjob : job ∉ jobs) :
    block.length + 1 < maxWays := by
  have hnone : (job : Int) + 1 ∉ block := by
    intro hmem
    obtain ⟨k, hk, heq⟩ := (h.mem _).mp hmem
    have hk' : job = k := by omega
    exact hjob (hk' ▸ hk)
  have hblock : block.countP (fun n => n ≤ 0 ∨ n = (job : Int) + 1) = 0 := by
    rw [List.countP_eq_zero]
    intro n hn
    have hpositive := h.positive n hn
    have hne : n ≠ (job : Int) + 1 := fun heq => hnone (heq ▸ hn)
    rw [decide_eq_true_eq]
    omega
  have hlength := h.length
  have harranged := h.arranged
  cases harranged with
  | front _ rest _ _ =>
    rw [List.countP_append, hblock] at hcount
    have hle := List.countP_le_length (p := fun n => decide (n ≤ 0 ∨ n = (job : Int) + 1))
      (l := rest)
    rw [List.length_append] at hlength
    omega
  | waiting n _ rest _ _ =>
    rw [List.countP_cons, List.countP_append, hblock] at hcount
    have hle := List.countP_le_length (p := fun n => decide (n ≤ 0 ∨ n = (job : Int) + 1))
      (l := rest)
    rw [List.length_cons, List.length_append] at hlength
    split at hcount
    · omega
    · omega

structure Roomy (pattern : Pattern) (jobs : Finset Nat) (job : Nat) (block rest : List Int) :
    Prop where
  eq : pattern = block ++ rest
  blank : ∀ n ∈ rest, n ≤ 0
  nonempty : rest ≠ []
  holds : Holds pattern jobs block
  room : job ∉ jobs → block.length + 1 < maxWays

theorem Holds.counter (h : Holds (block ++ rest) jobs block) (hblank : ∀ n ∈ rest, n ≤ 0)
    (hnonempty : rest ≠ []) : ∃ rest',
    (block ++ rest).set (maxWays - 1) (-128) = block ++ rest' ∧ (∀ n ∈ rest', n ≤ 0) ∧
      rest' ≠ [] ∧ Holds (block ++ rest') jobs block := by
  have hset := forall_mem_set (i := maxWays - 1 - block.length) (n := -128) hblank (by decide)
  have hnonempty' : rest.set (maxWays - 1 - block.length) (-128) ≠ [] := by
    rw [Ne, List.set_eq_nil_iff]
    exact hnonempty
  refine ⟨_, set_counter h.length hnonempty, hset, hnonempty', ?_⟩
  refine h.perm (.front _ _ hnonempty' hset) ?_ (List.Perm.refl _)
  rw [List.length_append, List.length_set, ← List.length_append]
  exact h.length

/-- A job which is new on the line comes after the others. -/
theorem Holds.insert (h : Holds (block ++ n :: rest) jobs block) (hblank : ∀ m ∈ n :: rest, m ≤ 0)
    (hjob : job ∉ jobs) (hnonempty : rest ≠ []) :
    Holds ((block ++ [(job : Int) + 1]) ++ rest) (Insert.insert job jobs)
      (block ++ [(job : Int) + 1]) where
  arranged := .front _ _ hnonempty fun m hm => hblank m (List.mem_cons_of_mem n hm)
  length := by
    have hlength := h.length
    simp only [List.length_append, List.length_cons, List.length_nil] at hlength ⊢
    omega
  once := by
    rw [List.nodup_append]
    refine ⟨h.once, List.nodup_singleton _, fun m hm k hk heq => ?_⟩
    rw [List.mem_singleton.mp hk] at heq
    obtain ⟨i, hi, rfl⟩ := (h.mem m).mp hm
    have hij : i = job := by omega
    exact hjob (hij ▸ hi)
  mem num := by
    rw [List.mem_append, List.mem_singleton, h.mem]
    constructor
    · rintro (⟨i, hi, rfl⟩ | rfl)
      · exact ⟨i, Finset.mem_insert_of_mem hi, rfl⟩
      · exact ⟨job, Finset.mem_insert_self _ _, rfl⟩
    · rintro ⟨i, hi, rfl⟩
      rcases Finset.mem_insert.mp hi with rfl | hi
      · exact Or.inr rfl
      · exact Or.inl ⟨i, hi, rfl⟩

theorem Roomy.enter (h : Roomy pattern jobs job block rest) :
    ∃ pattern' block' rest', enterJob ((job : Int) + 1) pattern = some pattern' ∧
      Roomy pattern' (insert job jobs) job block' rest' := by
  obtain ⟨rfl, hblank, hnonempty, hholds, hroom⟩ := h
  have hlength := hholds.length
  by_cases hjob : job ∈ jobs
  · -- the job has a way already
    have hmem : (job : Int) + 1 ∈ block := (hholds.mem _).mpr ⟨job, hjob, rfl⟩
    have hway : block.findIdx (fun n => n ≤ 0 ∨ n = (job : Int) + 1) < block.length := by
      rw [List.findIdx_lt_length]
      exact ⟨_, hmem, decide_eq_true (Or.inr rfl)⟩
    have hfound : block[block.findIdx fun n => n ≤ 0 ∨ n = (job : Int) + 1] = (job : Int) + 1 := by
      have hpositive := hholds.positive _ (List.getElem_mem hway)
      have hor := of_decide_eq_true (List.findIdx_getElem (w := hway))
      rcases hor with hle | heq
      · omega
      · exact heq
    obtain ⟨rest', hset, hblank', hnonempty', hholds'⟩ := hholds.counter hblank hnonempty
    have hinsert : insert job jobs = jobs := Finset.insert_eq_of_mem hjob
    refine ⟨block ++ rest', block, rest', ?_, rfl, hblank', hnonempty', ?_, fun hnot => ?_⟩
    · rw [enterJob]
      rw [List.findIdx_append, if_pos hway, if_pos (by rw [List.length_append]; omega),
        List.set_append_left _ _ hway]
      have hself : block.set (block.findIdx fun n => n ≤ 0 ∨ n = (job : Int) + 1)
          ((job : Int) + 1) = block := by
        calc
          _ = block.set (block.findIdx fun n => n ≤ 0 ∨ n = (job : Int) + 1)
              block[block.findIdx fun n => n ≤ 0 ∨ n = (job : Int) + 1] := by rw [hfound]
          _ = block := List.set_getElem_self hway
      rw [hself, hset]
    · rw [hinsert]
      exact hholds'
    · rw [hinsert] at hnot
      exact absurd hjob hnot
  · have hnone : block.findIdx (fun n => n ≤ 0 ∨ n = (job : Int) + 1) = block.length := by
      rw [List.findIdx_eq_length]
      intro n hn
      have hpositive := hholds.positive n hn
      obtain ⟨i, hi, rfl⟩ := (hholds.mem n).mp hn
      have hne : i ≠ job := fun heq => hjob (heq ▸ hi)
      rw [decide_eq_false_iff_not]
      omega
    obtain ⟨n, rest, rfl⟩ := List.exists_cons_of_ne_nil hnonempty
    have hfirst : (n :: rest).findIdx (fun n => n ≤ 0 ∨ n = (job : Int) + 1) = 0 := by
      rw [List.findIdx_cons, decide_eq_true (Or.inl (hblank n List.mem_cons_self))]
      rfl
    have hrest : rest ≠ [] := by
      rintro rfl
      have hroom := hroom hjob
      simp only [List.length_append, List.length_cons, List.length_nil] at hlength
      omega
    have hinserted := hholds.insert hblank hjob hrest
    obtain ⟨rest', hset, hblank', hnonempty', hholds'⟩ :=
      hinserted.counter (fun m hm => hblank m (List.mem_cons_of_mem n hm)) hrest
    refine ⟨_, _, rest', ?_, rfl, hblank', hnonempty', hholds',
      fun hnot => absurd (Finset.mem_insert_self job jobs) hnot⟩
    rw [enterJob]
    rw [List.findIdx_append, hnone, if_neg (lt_irrefl _), hfirst, Nat.zero_add,
      if_pos (by simp), List.set_append_right _ _ (Nat.le_refl _), Nat.sub_self,
      List.set_cons_zero, ← hset, List.append_assoc, List.singleton_append]

end RawPatterns

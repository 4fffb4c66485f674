import Mathlib

/-!
# Heaps of records and totals over them

A heap maps addresses to records. Counters which a program keeps by hand are
totals over its records: how many have a property, or how much room they take
together. Each lemma tells how a total changes when one record changes.
-/

namespace RecordHeap

universe u

abbrev Heap (Record : Type u) := AList fun _ : Nat => Record

variable {Record : Type u}

/-- The sum of a quantity over all records. -/
def total (f : Record → Nat) (h : Heap Record) : Nat :=
  (h.entries.map fun e => f e.2).sum

def tally (p : Record → Bool) (h : Heap Record) : Nat :=
  total (fun r => if p r then 1 else 0) h

variable {a : Nat} {h : Heap Record} {r : Record}

variable {b : Nat} {f : Record → Nat} {old : Record} {big small : Heap Record} {p : Record → Bool}

/-- A store is seen at its own address only. -/
theorem lookup_insert_iff {v : Record} :
    (h.insert a r).lookup b = some v ↔ b = a ∧ r = v ∨ b ≠ a ∧ h.lookup b = some v := by
  by_cases hb : b = a
  · subst hb
    simp [AList.lookup_insert]
  · simp [AList.lookup_insert_ne hb, hb]

theorem lookup_erase_iff {v : Record} :
    (h.erase a).lookup b = some v ↔ b ≠ a ∧ h.lookup b = some v := by
  by_cases hb : b = a
  · subst hb
    simp [AList.lookup_erase]
  · simp [AList.lookup_erase_ne hb, hb]

/-- What is true of all records is true of all entries. -/
theorem forall_lookup {h : Heap Record} {p : Nat → Record → Prop} :
    (∀ a r, h.lookup a = some r → p a r) ↔ ∀ e ∈ h.entries, p e.1 e.2 := by
  constructor
  · rintro hp ⟨a, r⟩ he
    exact hp a r (List.mem_dlookup h.nodupKeys he)
  · intro hp a r ha
    exact hp ⟨a, r⟩ (List.of_mem_dlookup ha)

theorem exists_lookup_insert {p : Record → Prop} :
    (∃ v, (h.insert a r).lookup b = some v ∧ p v) ↔
      b = a ∧ p r ∨ b ≠ a ∧ ∃ v, h.lookup b = some v ∧ p v := by
  simp only [lookup_insert_iff]
  constructor
  · rintro ⟨v, ⟨hb, rfl⟩ | ⟨hb, hv⟩, hp⟩
    · exact Or.inl ⟨hb, hp⟩
    · exact Or.inr ⟨hb, v, hv, hp⟩
  · rintro (⟨hb, hp⟩ | ⟨hb, v, hv, hp⟩)
    · exact ⟨r, Or.inl ⟨hb, rfl⟩, hp⟩
    · exact ⟨v, Or.inr ⟨hb, hv⟩, hp⟩

/-- A freed block stored again. -/
@[simp] theorem insert_erase (h : Heap Record) (a : Nat) (r : Record) :
    (h.erase a).insert a r = h.insert a r := by
  apply AList.ext
  have hnot : a ∉ h.erase a := fun hmem => (AList.mem_erase.mp hmem).1 rfl
  exact AList.entries_insert_of_notMem hnot

/-- A block freed after a store. -/
@[simp] theorem erase_insert (h : Heap Record) (a : Nat) (r : Record) :
    (h.insert a r).erase a = h.erase a := by
  apply AList.ext
  have herase : (h.insert a r).entries.kerase a = (h.erase a).entries := List.kerase_cons_eq rfl
  exact herase

/-- Freeing a record takes its share from the total. -/
theorem total_erase (ha : h.lookup a = some r) : total f h = f r + total f (h.erase a) := by
  have hmem : (⟨a, r⟩ : Sigma fun _ : Nat => Record) ∈ h.entries :=
    List.of_mem_dlookup (Option.mem_def.mpr ha)
  obtain ⟨r', first, rest, hnot, hentries, herase⟩ :=
    List.exists_of_kerase (List.mem_keys_of_mem hmem)
  have hr : r' = r := by
    have hmem' : (⟨a, r'⟩ : Sigma fun _ : Nat => Record) ∈ h.entries := by
      rw [hentries]
      exact List.mem_append_right first List.mem_cons_self
    exact h.nodupKeys.eq_of_mk_mem hmem' hmem
  subst hr
  have hafter : (h.erase a).entries = first ++ rest := herase
  simp only [total, hafter]
  simp only [hentries, List.map_append, List.map_cons, List.sum_append, List.sum_cons]
  omega

/-- Storing a record, new or in place of another. -/
theorem total_insert (f : Record → Nat) (h : Heap Record) (a : Nat) (r : Record) :
    total f (h.insert a r) = f r + total f (h.erase a) := rfl

theorem total_insert_new (f : Record → Nat) (r : Record) (ha : h.lookup a = none) :
    total f (h.insert a r) = f r + total f h := by
  have hnot : a ∉ h := AList.lookup_eq_none.mp ha
  simp only [total, AList.entries_insert_of_notMem hnot, List.map_cons, List.sum_cons]

theorem total_insert_old (f : Record → Nat) (r : Record) (ha : h.lookup a = some old) :
    total f (h.insert a r) + f old = f r + total f h := by
  have herase := total_erase (f := f) ha
  have hinsert := total_insert f h a r
  omega

/-- Records which count the same before and after leave the total alone. -/
theorem total_insert_same (f : Record → Nat) (ha : h.lookup a = some old) (hf : f r = f old) :
    total f (h.insert a r) = total f h := by
  have h := total_insert_old f r ha
  omega

theorem le_total (f : Record → Nat) (ha : h.lookup a = some r) : f r ≤ total f h := by
  have h := total_erase (f := f) ha
  omega

/-- A heap whose records count no more than those at the same addresses of
another heap has the smaller total. -/
theorem total_le (h : ∀ a r, small.lookup a = some r → ∃ v, big.lookup a = some v ∧ f r ≤ f v) :
    total f small ≤ total f big := by
  induction small using AList.insertRec generalizing big with
  | H0 => exact Nat.zero_le _
  | IH a r small hnot ih =>
    have hnone : small.lookup a = none := AList.lookup_eq_none.mpr hnot
    obtain ⟨v, hv, hle⟩ := h a r (AList.lookup_insert small)
    have hrest : total f small ≤ total f (big.erase a) := by
      apply ih
      intro b u hb
      have hne : b ≠ a := by
        rintro rfl
        rw [hnone] at hb
        cases hb
      obtain ⟨w, hw, hle'⟩ := h b u (lookup_insert_iff.mpr (Or.inr ⟨hne, hb⟩))
      exact ⟨w, lookup_erase_iff.mpr ⟨hne, hw⟩, hle'⟩
    have hinsert := total_insert_new f r hnone
    have herase := total_erase (f := f) hv
    omega

def Part (small big : Heap Record) : Prop :=
  ∀ a r, small.lookup a = some r → big.lookup a = some r

theorem Part.total_le (h : Part small big) (f : Record → Nat) : total f small ≤ total f big :=
  RecordHeap.total_le fun a r ha => ⟨r, h a r ha, Nat.le_refl _⟩

theorem Part.total_lt (h : Part small big) (f : Record → Nat) (ha : big.lookup a = some r)
    (hgone : small.lookup a = none) : f r + total f small ≤ total f big := by
  have hpart : Part small (big.erase a) := by
    intro b v hb
    refine lookup_erase_iff.mpr ⟨?_, h b v hb⟩
    rintro rfl
    rw [hgone] at hb
    cases hb
  have hle := hpart.total_le f
  have herase := total_erase (f := f) ha
  omega

theorem total_eq_zero : total f h = 0 ↔ ∀ a r, h.lookup a = some r → f r = 0 := by
  constructor
  · intro hzero a r ha
    have hle := le_total f ha
    omega
  · intro hzero
    apply List.sum_eq_zero_iff_forall_eq_nat.mpr
    intro x hx
    obtain ⟨⟨a, r⟩, hmem, rfl⟩ := List.mem_map.mp hx
    exact hzero a r (Option.mem_def.mp (List.mem_dlookup h.nodupKeys hmem))

theorem tally_erase (ha : h.lookup a = some r) :
    tally p (h.erase a) = tally p h - if p r then 1 else 0 := by
  have herase := total_erase (f := fun r => if p r then 1 else 0) ha
  simp only [tally]
  omega

theorem tally_insert_new (p : Record → Bool) (r : Record) (ha : h.lookup a = none) :
    tally p (h.insert a r) = tally p h + if p r then 1 else 0 := by
  have hinsert := total_insert_new (fun r => if p r then 1 else 0) r ha
  simp only [tally]
  omega

theorem tally_insert_same (p : Record → Bool) (ha : h.lookup a = some old) (hp : p r = p old) :
    tally p (h.insert a r) = tally p h :=
  total_insert_same _ ha (by simp only [hp])

theorem tally_pos (ha : h.lookup a = some r) (hp : p r = true) : 0 < tally p h := by
  have hle := le_total (fun r => if p r then 1 else 0) ha
  simp only [hp, if_true] at hle
  exact hle

theorem tally_eq_zero : tally p h = 0 ↔ ∀ a r, h.lookup a = some r → p r = false := by
  simp only [tally, total_eq_zero, ite_eq_right_iff, Nat.one_ne_zero, imp_false,
    Bool.not_eq_true]

end RecordHeap

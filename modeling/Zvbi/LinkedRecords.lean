import Zvbi.RecordHeap

/-!
# Singly linked records

The records of a heap form a list when each of them holds the address of the next one. A list
which is the whole heap changes with it when a record is put in front or the first one is
freed.
-/

namespace LinkedRecords

open RecordHeap

universe u

variable {Record : Type u} {next : Record → Option Nat}

/-- From `head` on, the links lead through these records. -/
inductive Chain (next : Record → Option Nat) (h : Heap Record) :
    Option Nat → List (Nat × Record) → Prop where
  | nil : Chain next h none []
  | cons {a : Nat} {r : Record} {rest : List (Nat × Record)} (hrecord : h.lookup a = some r)
      (hrest : Chain next h (next r) rest) : Chain next h (some a) ((a, r) :: rest)

/-- The links lead once through all records of the heap. -/
structure Whole (next : Record → Option Nat) (h : Heap Record) (head : Option Nat)
    (cells : List (Nat × Record)) : Prop where
  chain : Chain next h head cells
  nodup : (cells.map Prod.fst).Nodup
  all : ∀ a r, h.lookup a = some r → (a, r) ∈ cells

variable {h : Heap Record} {head : Option Nat} {cells : List (Nat × Record)}

/-- What the links lead through is in the heap. -/
theorem Chain.lookup (hchain : Chain next h head cells) :
    ∀ cell ∈ cells, h.lookup cell.1 = some cell.2 := by
  induction hchain with
  | nil => exact fun cell hcell => by cases hcell
  | cons hrecord _ ih =>
    intro cell hcell
    rcases List.mem_cons.mp hcell with rfl | hcell
    · exact hrecord
    · exact ih cell hcell

/-- A heap with the same records on the way has the same list. -/
theorem Chain.mono {h' : Heap Record} (hchain : Chain next h head cells)
    (hsame : ∀ cell ∈ cells, h'.lookup cell.1 = some cell.2) : Chain next h' head cells := by
  induction hchain with
  | nil => exact .nil
  | cons _ _ ih =>
    exact .cons (hsame _ List.mem_cons_self)
      (ih fun cell hcell => hsame cell (List.mem_cons_of_mem _ hcell))

theorem whole_empty : Whole next (∅ : Heap Record) none [] := by
  refine ⟨.nil, List.nodup_nil, ?_⟩
  intro a r hrecord
  rw [AList.lookup_empty] at hrecord
  cases hrecord

theorem Whole.cons (hwhole : Whole next h head cells) {a : Nat} {r : Record}
    (hfresh : h.lookup a = none) (hnext : next r = head) :
    Whole next (h.insert a r) (some a) ((a, r) :: cells) := by
  have hother : ∀ cell ∈ cells, cell.1 ≠ a := by
    intro cell hcell heq
    have hlookup := hwhole.chain.lookup cell hcell
    rw [heq, hfresh] at hlookup
    cases hlookup
  refine ⟨.cons (AList.lookup_insert h) ?_, ?_, ?_⟩
  · rw [hnext]
    exact hwhole.chain.mono fun cell hcell =>
      lookup_insert_iff.mpr (.inr ⟨hother cell hcell, hwhole.chain.lookup cell hcell⟩)
  · refine List.nodup_cons.mpr ⟨?_, hwhole.nodup⟩
    intro hmem
    obtain ⟨cell, hcell, heq⟩ := List.mem_map.mp hmem
    exact hother cell hcell heq
  · intro b v hrecord
    rcases lookup_insert_iff.mp hrecord with ⟨rfl, rfl⟩ | ⟨-, hold⟩
    · exact List.mem_cons_self
    · exact List.mem_cons_of_mem _ (hwhole.all b v hold)

theorem Whole.tail {a : Nat} {r : Record} (hwhole : Whole next h (some a) ((a, r) :: cells)) :
    Whole next (h.erase a) (next r) cells := by
  obtain ⟨hnot, hnodup⟩ := List.nodup_cons.mp hwhole.nodup
  have hother : ∀ cell ∈ cells, cell.1 ≠ a := by
    intro cell hcell heq
    have hmem : cell.1 ∈ cells.map Prod.fst := List.mem_map_of_mem hcell
    rw [heq] at hmem
    exact hnot hmem
  cases hwhole.chain with
  | cons hrecord hrest =>
    refine ⟨hrest.mono ?_, hnodup, ?_⟩
    · intro cell hcell
      exact lookup_erase_iff.mpr ⟨hother cell hcell, hrest.lookup cell hcell⟩
    · intro b v hlookup
      obtain ⟨hne, hold⟩ := lookup_erase_iff.mp hlookup
      rcases List.mem_cons.mp (hwhole.all b v hold) with heq | hmem
      · cases heq
        exact absurd rfl hne
      · exact hmem

theorem Whole.length_le (hwhole : Whole next h head cells) :
    cells.length ≤ h.entries.length := by
  have hsubset : cells.map Prod.fst ⊆ h.keys := by
    intro a ha
    obtain ⟨cell, hcell, rfl⟩ := List.mem_map.mp ha
    have hlookup := hwhole.chain.lookup cell hcell
    exact AList.mem_keys.mp (AList.lookup_isSome.mp (Option.isSome_of_eq_some hlookup))
  have hle := (hwhole.nodup.subperm hsubset).length_le
  rw [List.length_map] at hle
  exact hle.trans (by rw [AList.keys, List.keys, List.length_map])

end LinkedRecords

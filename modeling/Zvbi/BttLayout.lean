import Mathlib.Data.List.Pairwise
import Zvbi.TeletextReferenceRuns

/-!
# The table of page types in a BTT

Packets 1 to 20 of a BTT have a byte for each of forty decimal pages, eight hundred pages in
all. The loops walk along the bytes and along the page numbers. After a byte with an
uncorrectable error they are out of step: the position in the row is given up without the
bytes of the row.
-/

namespace BttLayout
open Hamming TeletextHeader TeletextLop TeletextStation

abbrev Read := Nat × Nat

def tens (good : Nat → Bool) : Nat → Nat → Nat → List Read × Nat × Nat
  | 0, index, byte => ([], index, byte)
  | n + 1, index, byte =>
    if good byte then
      let r := tens good n (index + 1) (byte + 1)
      ((index, byte) :: r.1, r.2)
    else
      ([], index, byte + 1)

def nextRow (index : Nat) : Nat := index + if index &&& 0xFF = 0x9A then 0x66 else 0x06

def rows (good : Nat → Bool) : Nat → Nat → Nat → List Read
  | 0, _, _ => []
  | n + 1, index, byte =>
    let r := tens good 10 index byte
    r.1 ++ rows good n (nextRow r.2.1) r.2.2

/-- The end of the bytes read for a row of pages. -/
theorem tens_spec (good : Nat → Bool) (n index byte : Nat) :
    ∃ t ≤ n, (∀ j < t, good (byte + j) = true) ∧
      (tens good n index byte).1 = (List.range t).map (fun j => (index + j, byte + j)) ∧
      (tens good n index byte).2.1 = index + t ∧
      ((t = n ∧ (tens good n index byte).2.2 = byte + n) ∨
        (t < n ∧ good (byte + t) = false ∧ (tens good n index byte).2.2 = byte + t + 1)) := by
  induction n generalizing index byte with
  | zero => exact ⟨0, Nat.le_refl 0, fun j hj => absurd hj (Nat.not_lt_zero j), rfl, rfl,
      Or.inl ⟨rfl, rfl⟩⟩
  | succ n ih =>
    rw [tens]
    by_cases hgood : good byte = true
    · rw [if_pos hgood]
      obtain ⟨t, hle, hall, hreads, hindex, hend⟩ := ih (index + 1) (byte + 1)
      refine ⟨t + 1, Nat.succ_le_succ hle, ?_, ?_, ?_, ?_⟩
      · intro j hj
        cases j with
        | zero => exact hgood
        | succ j =>
          have hj' := hall j (Nat.lt_of_succ_lt_succ hj)
          rw [Nat.add_right_comm] at hj'
          exact hj'
      · dsimp only
        rw [hreads, List.range_succ_eq_map, List.map_cons, List.map_map]
        refine congrArg (List.cons _) (List.map_congr_left fun j _ => ?_)
        rw [Function.comp_apply, Prod.mk.injEq]
        exact ⟨Nat.add_right_comm _ _ _, Nat.add_right_comm _ _ _⟩
      · dsimp only
        rw [hindex]
        omega
      · dsimp only
        rcases hend with ⟨rfl, hbyte⟩ | ⟨hlt, hbad, hbyte⟩
        · exact Or.inl ⟨rfl, by omega⟩
        · refine Or.inr ⟨Nat.succ_lt_succ hlt, ?_, by omega⟩
          rw [← hbad]
          congr 1
          omega
    · rw [if_neg hgood]
      exact ⟨0, Nat.zero_le _, fun j hj => absurd hj (Nat.not_lt_zero j), rfl, rfl,
        Or.inr ⟨Nat.succ_pos n, Bool.eq_false_iff.mpr hgood, rfl⟩⟩

structure RowStep (good : Nat → Bool) (n index byte t index' byte' : Nat) : Prop where
  le : t ≤ 10
  read : ∀ j < t, good (byte + j) = true
  ends : (t = 10 ∧ byte' = byte + 10) ∨ (t < 10 ∧ good (byte + t) = false ∧ byte' = byte + t + 1)
  next : index' = nextRow (index + t)
  reads : rows good (n + 1) index byte =
    (List.range t).map (fun j => (index + j, byte + j)) ++ rows good n index' byte'

theorem rows_step (good : Nat → Bool) (n index byte : Nat) :
    ∃ t index' byte', RowStep good n index byte t index' byte' := by
  obtain ⟨t, hle, hall, hreads, hindex, hend⟩ := tens_spec good 10 index byte
  refine ⟨t, nextRow (index + t), (tens good 10 index byte).2.2, hle, hall, hend, rfl, ?_⟩
  rw [rows, hreads, hindex]

theorem nextRow_gt (index : Nat) : index < nextRow index := by
  rw [nextRow]
  split <;> omega

variable {r : Read} {b : Nat}

section
variable {good : Nat → Bool} {n index byte t index' byte' : Nat}

/-- The next row starts behind what was read. -/
theorem RowStep.later (h : RowStep good n index byte t index' byte') :
    index + t < index' ∧ byte + t ≤ byte' := by
  refine ⟨h.next ▸ nextRow_gt _, ?_⟩
  rcases h.ends with ⟨rfl, hbyte⟩ | ⟨-, -, hbyte⟩ <;> omega

theorem mem_row (h : r ∈ (List.range t).map fun j => (index + j, byte + j)) :
    ∃ j < t, r = (index + j, byte + j) := by
  obtain ⟨j, hj, rfl⟩ := List.mem_map.mp h
  exact ⟨j, List.mem_range.mp hj, rfl⟩

theorem RowStep.mem (h : RowStep good n index byte t index' byte') :
    r ∈ rows good (n + 1) index byte ↔
      (∃ j < t, r = (index + j, byte + j)) ∨ r ∈ rows good n index' byte' := by
  rw [h.reads, List.mem_append]
  refine or_congr_left ⟨mem_row, ?_⟩
  rintro ⟨j, hj, rfl⟩
  exact List.mem_map.mpr ⟨j, List.mem_range.mpr hj, rfl⟩

/-- Only bytes without errors are read, from the start on. -/
theorem rows_mem (h : r ∈ rows good n index byte) :
    index ≤ r.1 ∧ byte ≤ r.2 ∧ good r.2 = true := by
  induction n generalizing index byte with
  | zero => cases h
  | succ n ih =>
    obtain ⟨t, index', byte', hstep⟩ := rows_step good n index byte
    obtain ⟨hindex, hbyte⟩ := hstep.later
    rcases hstep.mem.mp h with ⟨j, hj, rfl⟩ | h
    · exact ⟨Nat.le_add_right _ _, Nat.le_add_right _ _, hstep.read j hj⟩
    · obtain ⟨hx, hb, hgood⟩ := ih h
      exact ⟨by omega, by omega, hgood⟩

/-- The pages are in ascending order, and so are the bytes. -/
theorem rows_sorted (good : Nat → Bool) (n index byte : Nat) :
    (rows good n index byte).Pairwise fun r s => r.1 < s.1 ∧ r.2 < s.2 := by
  induction n generalizing index byte with
  | zero => exact List.Pairwise.nil
  | succ n ih =>
    obtain ⟨t, index', byte', hstep⟩ := rows_step good n index byte
    obtain ⟨hindex, hbyte⟩ := hstep.later
    rw [hstep.reads, List.pairwise_append]
    refine ⟨?_, ih index' byte', fun r hr s hs => ?_⟩
    · rw [List.pairwise_map]
      exact List.pairwise_lt_range.imp fun h => ⟨Nat.add_lt_add_left h _, Nat.add_lt_add_left h _⟩
    · obtain ⟨j, hj, rfl⟩ := mem_row hr
      obtain ⟨hx, hb, -⟩ := rows_mem hs
      dsimp only
      omega

/-- Of two reads one is before the other in both orders. -/
theorem rows_cases {s : Read} (hr : r ∈ rows good n index byte) (hs : s ∈ rows good n index byte) :
    r = s ∨ (r.1 < s.1 ∧ r.2 < s.2) ∨ (s.1 < r.1 ∧ s.2 < r.2) := by
  have hsymm : Std.Symm fun r s : Read =>
      (r.1 < s.1 ∧ r.2 < s.2) ∨ (s.1 < r.1 ∧ s.2 < r.2) :=
    ⟨fun _ _ h => h.symm⟩
  have hordered : (rows good n index byte).Pairwise fun r s =>
      (r.1 < s.1 ∧ r.2 < s.2) ∨ (s.1 < r.1 ∧ s.2 < r.2) :=
    (rows_sorted good n index byte).imp Or.inl
  by_cases heq : r = s
  · exact Or.inl heq
  · exact Or.inr (hordered.forall hr hs heq)

/-- No more than ten bytes are read for a row. -/
theorem rows_lt (h : r ∈ rows good n index byte) : r.2 < byte + 10 * n := by
  induction n generalizing index byte with
  | zero => cases h
  | succ n ih =>
    obtain ⟨t, index', byte', hstep⟩ := rows_step good n index byte
    have hle := hstep.le
    rcases hstep.mem.mp h with ⟨j, hj, rfl⟩ | h
    · dsimp only
      omega
    · have hlater := ih h
      rcases hstep.ends with ⟨-, rfl⟩ | ⟨hlt, -, rfl⟩ <;> omega

/-- Before a byte is read all readable bytes in front of it are. -/
theorem rows_before (h : r ∈ rows good n index byte) {m : Nat} (hlow : byte ≤ m) (hhigh : m < r.2)
    (hm : good m = true) : ∃ x, (x, m) ∈ rows good n index byte := by
  induction n generalizing index byte with
  | zero => cases h
  | succ n ih =>
    obtain ⟨t, index', byte', hstep⟩ := rows_step good n index byte
    by_cases hrow : m < byte + t
    · refine ⟨index + (m - byte), hstep.mem.mpr (Or.inl ⟨m - byte, by omega, ?_⟩)⟩
      rw [Nat.add_sub_cancel' hlow]
    · have hrest : r ∈ rows good n index' byte' := by
        rcases hstep.mem.mp h with ⟨j, hj, rfl⟩ | h
        · dsimp only at hhigh
          omega
        · exact h
      have hbehind : byte' ≤ m := by
        rcases hstep.ends with ⟨rfl, hbyte⟩ | ⟨-, hbad, hbyte⟩
        · omega
        · by_contra hin
          have heq : m = byte + t := by omega
          rw [heq, hbad] at hm
          exact Bool.false_ne_true hm
      obtain ⟨x, hx⟩ := ih hrest hbehind
      exact ⟨x, hstep.mem.mpr (Or.inr hx)⟩

/-- Up to the first error the loops do not depend on errors. -/
theorem rows_initial (h : ∀ k, byte ≤ k → k ≤ r.2 → good k = true) :
    r ∈ rows good n index byte ↔ r ∈ rows (fun _ => true) n index byte := by
  induction n generalizing index byte with
  | zero => exact Iff.rfl
  | succ n ih =>
    obtain ⟨t, index', byte', hstep⟩ := rows_step good n index byte
    obtain ⟨u, index'', byte'', hall⟩ := rows_step (fun _ => true) n index byte
    obtain ⟨rfl, rfl⟩ : u = 10 ∧ byte'' = byte + 10 := by
      rcases hall.ends with hfull | ⟨-, hbad, -⟩
      · exact hfull
      · cases hbad
    rw [hstep.mem, hall.mem]
    rcases hstep.ends with ⟨rfl, rfl⟩ | ⟨hlt, hbad, rfl⟩
    · obtain rfl : index' = index'' := hstep.next.trans hall.next.symm
      exact or_congr_right (ih fun k hk => h k (by omega))
    · -- the byte with the error is behind those in question
      have hbefore : r.2 < byte + t := by
        by_contra hbehind
        rw [h (byte + t) (Nat.le_add_right _ _) (Nat.not_lt.mp hbehind)] at hbad
        cases hbad
      constructor
      · rintro (⟨j, hj, rfl⟩ | hr)
        · exact Or.inl ⟨j, by omega, rfl⟩
        · have hlater := (rows_mem hr).2.1
          omega
      · rintro (⟨j, hj, rfl⟩ | hr)
        · exact Or.inl ⟨j, by dsimp only at hbefore; omega, rfl⟩
        · have hlater := (rows_mem hr).2.1
          omega

def errors (good : Nat → Bool) (byte : Nat) : Nat := (List.range byte).countP fun k => !good k

theorem errors_succ (good : Nat → Bool) (byte : Nat) :
    errors good (byte + 1) = errors good byte + if good byte = true then 0 else 1 := by
  rw [errors, List.range_succ, List.countP_append, List.countP_singleton, errors]
  cases good byte
  · rfl
  · rfl

theorem errors_add (h : ∀ j < t, good (byte + j) = true) :
    errors good (byte + t) = errors good byte := by
  induction t with
  | zero => rfl
  | succ t ih =>
    rw [← Nat.add_assoc, errors_succ, if_pos (h t (Nat.lt_succ_self t)), Nat.add_zero,
      ih fun j hj => h j (Nat.lt_succ_of_lt hj)]

/-- After each error the pages are one more behind, modulo six. -/
theorem rows_mod {c : Nat} (hsix : (index + errors good byte) % 6 = (c + byte) % 6)
    (hfew : errors good byte + n ≤ 4) {r : Read} (hr : r ∈ rows good n index byte) :
    (r.1 + errors good r.2) % 6 = (c + r.2) % 6 ∧ errors good r.2 ≤ 3 := by
  induction n generalizing index byte with
  | zero => cases hr
  | succ n ih =>
    obtain ⟨t, index', byte', hstep⟩ := rows_step good n index byte
    have hnext : index' % 6 = (index + t) % 6 := by
      rw [hstep.next, nextRow]
      split <;> omega
    have hcount := errors_add hstep.read
    rcases hstep.mem.mp hr with ⟨j, hj, rfl⟩ | hr
    · have hj' := errors_add fun i hi => hstep.read i (Nat.lt_trans hi hj)
      dsimp only
      rw [hj']
      omega
    · refine ih ?_ ?_ hr
      · rcases hstep.ends with ⟨rfl, rfl⟩ | ⟨-, hbad, rfl⟩
        · omega
        · rw [errors_succ, hbad, if_neg Bool.false_ne_true]
          omega
      · rcases hstep.ends with ⟨rfl, rfl⟩ | ⟨-, hbad, rfl⟩
        · omega
        · rw [errors_succ, hbad, if_neg Bool.false_ne_true]
          omega

end

def pageOf (packet byte : Nat) : Nat :=
  let n := 40 * (packet - 1) + byte
  n % 10 + n / 10 % 10 * 16 + n / 100 * 256

theorem rows_layout : ∀ packet < 21, 1 ≤ packet →
    rows (fun _ => true) 4 (dec2bcdp (packet - 1)) 0 =
      (List.range 40).map fun b => (pageOf packet b, b) := by
  decide +kernel

def IsTable (packet : Nat) : Prop := 1 ≤ packet ∧ packet ≤ 20

section
variable {packet : Nat}

theorem mem_layout (h : IsTable packet) :
    r ∈ rows (fun _ => true) 4 (dec2bcdp (packet - 1)) 0 ↔ r.2 < 40 ∧ r.1 = pageOf packet r.2 := by
  rw [rows_layout packet (Nat.lt_succ_of_le h.2) h.1, List.mem_map]
  constructor
  · rintro ⟨b, hb, rfl⟩
    exact ⟨List.mem_range.mp hb, rfl⟩
  · rintro ⟨hb, hpage⟩
    exact ⟨r.2, List.mem_range.mpr hb, Prod.ext hpage.symm rfl⟩

theorem pageOf_lt (h : IsTable packet) {b' : Nat} (hlt : b < b') (hb' : b' < 40) :
    pageOf packet b < pageOf packet b' := by
  have hsorted := rows_sorted (fun _ => true) 4 (dec2bcdp (packet - 1)) 0
  rw [rows_layout packet (Nat.lt_succ_of_le h.2) h.1, List.pairwise_map] at hsorted
  have hpages := hsorted.imp And.left
  rw [List.pairwise_iff_getElem] at hpages
  have hlen : (List.range 40).length = 40 := List.length_range
  have hget := hpages b b' (by omega) (by omega) hlt
  rw [List.getElem_range, List.getElem_range] at hget
  exact hget

theorem pageOf_mod (h : IsTable packet) (hb : b < 40) :
    pageOf packet b % 6 = (dec2bcdp (packet - 1) + b) % 6 := by
  have hnone : ∀ n, errors (fun _ => true) n = 0 := by
    intro n
    rw [errors, List.countP_eq_zero]
    intro k _
    exact Bool.false_ne_true
  have hmod := (@rows_mod (fun _ => true) 4 (dec2bcdp (packet - 1)) 0 (dec2bcdp (packet - 1))
    (by rw [hnone]) (by rw [hnone]) (pageOf packet b, b) ((mem_layout h).mpr ⟨hb, rfl⟩)).1
  rw [hnone] at hmod
  exact hmod

theorem read_own (h : IsTable packet) {good : Nat → Bool} (hb : b < 40)
    (hread : (pageOf packet b, b) ∈ rows good 4 (dec2bcdp (packet - 1)) 0) :
    errors good b = 0 := by
  have hmod := rows_mod (c := dec2bcdp (packet - 1)) rfl (Nat.le_refl 4) hread
  have hown := pageOf_mod h hb
  dsimp only at hmod
  omega

theorem errors_eq_zero {good : Nat → Bool} : errors good b = 0 ↔ ∀ k < b, good k = true := by
  rw [errors, List.countP_eq_zero]
  constructor
  · intro h k hk
    simpa using h k (List.mem_range.mpr hk)
  · intro h k hk
    simpa using h k (List.mem_range.mp hk)

/-- A byte with no error before it is read for its page. -/
theorem own_read (h : IsTable packet) {good : Nat → Bool} (hb : b < 40)
    (hgood : ∀ k ≤ b, good k = true) :
    (pageOf packet b, b) ∈ rows good 4 (dec2bcdp (packet - 1)) 0 :=
  (rows_initial fun k _ hk => hgood k hk).mpr ((mem_layout h).mpr ⟨hb, rfl⟩)

/-- The pages are those of the layout if and only if nothing is readable behind an error. -/
theorem rows_iff (h : IsTable packet) (good : Nat → Bool) :
    ((∀ b < 40, good b = true → ∃ r ∈ rows good 4 (dec2bcdp (packet - 1)) 0,
        r.1 = pageOf packet b) ∧
      ∀ r ∈ rows good 4 (dec2bcdp (packet - 1)) 0,
        ∃ b < 40, good b = true ∧ r.1 = pageOf packet b) ↔
    ∀ k m, k < m → m < 40 → good m = true → good k = true := by
  constructor
  · rintro ⟨hpages, honly⟩
    by_contra hspoiled
    -- the first readable byte behind an error
    have hexists : ∃ m, m < 40 ∧ good m = true ∧ ∃ k < m, good k ≠ true := by
      by_contra hnone
      refine hspoiled fun k m hk hm hgood => ?_
      by_contra hbad
      exact hnone ⟨m, hm, hgood, k, hk, hbad⟩
    obtain ⟨hm, hgood, k, hk, hbad⟩ := Nat.find_spec hexists
    have hfirst : ∀ g < Nat.find hexists, good g = true →
        (pageOf packet g, g) ∈ rows good 4 (dec2bcdp (packet - 1)) 0 := by
      intro g hg hgoodg
      refine own_read h (by omega) fun j hj => ?_
      by_contra hbadj
      have hlt : j < g := Nat.lt_of_le_of_ne hj fun heq => hbadj (heq ▸ hgoodg)
      exact Nat.find_min hexists hg ⟨by omega, hgoodg, j, hlt, hbadj⟩
    generalize Nat.find hexists = m at *
    obtain ⟨r, hr, hpage⟩ := hpages m hm hgood
    have hgoodr := (rows_mem hr).2.2
    rcases Nat.lt_trichotomy r.2 m with hbefore | hsame | hbehind
    · have hcases := rows_cases hr (hfirst r.2 hbefore hgoodr)
      have hlt := pageOf_lt h hbefore hm
      rcases hcases with heq | ⟨-, hlt'⟩ | ⟨-, hlt'⟩
      · have hpager := congrArg Prod.fst heq
        dsimp only at hpager
        omega
      · exact Nat.lt_irrefl _ hlt'
      · exact Nat.lt_irrefl _ hlt'
    · have hread : (pageOf packet m, m) ∈ rows good 4 (dec2bcdp (packet - 1)) 0 := by
        rw [← hpage, ← hsame]
        exact hr
      exact hbad (errors_eq_zero.mp (read_own h hm hread) k hk)
    · obtain ⟨x, hx⟩ := rows_before hr (Nat.zero_le m) hbehind hgood
      obtain ⟨g, hg, hgoodg, hpageg⟩ := honly (x, m) hx
      dsimp only at hpageg
      have hxlt : x < pageOf packet m := by
        rcases rows_cases hx hr with heq | ⟨hlt, -⟩ | ⟨-, hlt⟩
        · rw [← heq] at hbehind
          exact absurd hbehind (Nat.lt_irrefl m)
        · exact hpage ▸ hlt
        · exact absurd hlt (Nat.not_lt.mpr (Nat.le_of_lt hbehind))
      have hglt : g < m := by
        by_contra hge
        rcases Nat.lt_or_eq_of_le (Nat.not_lt.mp hge) with hlt | rfl
        · have hmono := pageOf_lt h hlt hg
          omega
        · omega
      rcases rows_cases hx (hfirst g hglt hgoodg) with heq | ⟨hlt, -⟩ | ⟨hlt, -⟩
      · exact Nat.ne_of_gt hglt (congrArg Prod.snd heq)
      · rw [hpageg] at hlt
        exact Nat.lt_irrefl _ hlt
      · rw [hpageg] at hlt
        exact Nat.lt_irrefl _ hlt
  · intro hprefix
    have hall : ∀ b < 40, good b = true → ∀ k ≤ b, good k = true := by
      intro b hb hgood k hk
      rcases Nat.lt_or_eq_of_le hk with hlt | rfl
      · exact hprefix k b hlt hb hgood
      · exact hgood
    refine ⟨fun b hb hgood => ⟨_, own_read h hb (hall b hb hgood), rfl⟩, fun r hr => ?_⟩
    have hgood := (rows_mem hr).2.2
    have hb : r.2 < 40 := by
      have hlt := rows_lt hr
      omega
    have hlayout := (rows_initial fun k _ hk => hall r.2 hb hgood k hk).mp hr
    exact ⟨r.2, hb, hgood, ((mem_layout h).mp hlayout).2⟩

end

def bttCode (buf : Packet) (byte : Nat) : Int := vbiUnham8 (buf (byte + 2))

def readable (buf : Packet) (byte : Nat) : Bool := decide (0 ≤ bttCode buf byte)

def bttType (code : Int) : Nat := if code = 1 then vbiSubtitlePage else bttPageType code

theorem bttType_ne_unknown (code : Int) : bttType code ≠ vbiUnknownPage := by
  rw [bttType]
  split
  · decide
  rw [bttPageType]
  repeat' split
  all_goals decide

variable {Client Links Rest : Type} (env : Environment Client Links Rest)

def types (w : World Client Links Rest) (pgno : Int) : Nat := (w.pageStat pgno).pageType

theorem types_update (w : World Client Links Rest) (pgno : Int) (f : PageStat → PageStat) :
    types (updatePageStat w pgno f) =
      Function.update (types w) pgno (f (w.pageStat pgno)).pageType := by
  funext p
  rw [types, updatePageStat]
  dsimp only
  by_cases hp : p = pgno
  · subst hp
    rw [Function.update_self, Function.update_self]
  · rw [Function.update_of_ne hp, Function.update_of_ne hp]
    rfl

/-- Looking at a page in the cache changes no page type. -/
theorem peekPage_pageStat (w : World Client Links Rest) (pgno subno mask : Nat) :
    (peekPage w pgno subno mask).1.pageStat = w.pageStat := by
  have hget : (cacheGet w pgno subno mask).1.pageStat = w.pageStat := by
    rw [cacheGet]
    split
    · rfl
    · rfl
  rw [peekPage]
  dsimp only
  cases (cacheGet w pgno subno mask).2 with
  | none => exact hget
  | some a => exact hget

theorem types_bttEntry (w : World Client Links Rest) (pgno code : Int) :
    types (bttEntry env w pgno code) = Function.update (types w) pgno (bttType code) := by
  rw [bttEntry, bttType]
  split
  · dsimp only
    have hpeek := peekPage_pageStat
      (updatePageStat w pgno fun ps => { ps with pageType := vbiSubtitlePage }) pgno.toNat 0 0
    have htypes : types (peekPage
        (updatePageStat w pgno fun ps => { ps with pageType := vbiSubtitlePage })
        pgno.toNat 0 0).1 = Function.update (types w) pgno vbiSubtitlePage := by
      rw [← types_update w pgno fun ps => { ps with pageType := vbiSubtitlePage }]
      funext p
      rw [types, types, hpeek]
    have hself : ((peekPage
        (updatePageStat w pgno fun ps => { ps with pageType := vbiSubtitlePage })
        pgno.toNat 0 0).1.pageStat pgno).pageType = vbiSubtitlePage := by
      rw [← types, htypes, Function.update_self]
    rw [types_update, htypes]
    dsimp only
    rw [hself, Function.update_idem]
  · rw [types_update]

def setType (buf : Packet) (t : Int → Nat) (r : Read) : Int → Nat :=
  Function.update t (0x100 + (r.1 : Int)) (bttType (bttCode buf r.2))

theorem bttTens_types (buf : Packet) (n index byte : Nat) (w : World Client Links Rest) :
    types (bttTens env buf n index byte w).1 =
        (tens (readable buf) n index byte).1.foldl (setType buf) (types w) ∧
      (bttTens env buf n index byte w).2 = (tens (readable buf) n index byte).2 := by
  induction n generalizing index byte w with
  | zero => exact ⟨rfl, rfl⟩
  | succ n ih =>
    rw [bttTens, tens]
    dsimp only
    by_cases hgood : readable buf byte = true
    · have hcode : ¬ vbiUnham8 (buf (byte + 2)) < 0 := Int.not_lt.mpr (of_decide_eq_true hgood)
      obtain ⟨htypes, hend⟩ := ih (index + 1) (byte + 1)
        (bttEntry env w (0x100 + index) (vbiUnham8 (buf (byte + 2))))
      rw [if_neg hcode, if_pos hgood, htypes, hend, types_bttEntry, List.foldl_cons]
      exact ⟨rfl, rfl⟩
    · have hcode : vbiUnham8 (buf (byte + 2)) < 0 :=
        Int.not_le.mp (of_decide_eq_false (Bool.eq_false_iff.mpr hgood))
      rw [if_pos hcode, if_neg hgood]
      exact ⟨rfl, rfl⟩

theorem bttRow_types (buf : Packet) (n index byte : Nat) (w : World Client Links Rest) :
    types (bttRow env buf n index byte w) =
      (rows (readable buf) n index byte).foldl (setType buf) (types w) := by
  induction n generalizing index byte w with
  | zero => rfl
  | succ n ih =>
    obtain ⟨htypes, hend⟩ := bttTens_types env buf 10 index byte w
    rw [bttRow, rows]
    rw [ih, htypes, hend, List.foldl_append]
    rfl

section
variable {buf : Packet} {t : Int → Nat} {reads : List Read}

/-- Pages which are not read keep their types. -/
theorem foldl_setType_other {p : Int} (h : ∀ r ∈ reads, p ≠ 0x100 + (r.1 : Int)) :
    reads.foldl (setType buf) t p = t p := by
  induction reads generalizing t with
  | nil => rfl
  | cons r reads ih =>
    rw [List.forall_mem_cons] at h
    rw [List.foldl_cons, ih h.2, setType, Function.update_of_ne h.1]

theorem foldl_setType_read (h : reads.Pairwise fun r s => r.1 ≠ s.1) (hr : r ∈ reads) :
    reads.foldl (setType buf) t (0x100 + (r.1 : Int)) = bttType (bttCode buf r.2) := by
  induction reads generalizing t with
  | nil => cases hr
  | cons s reads ih =>
    rw [List.pairwise_cons] at h
    rw [List.foldl_cons]
    rcases List.mem_cons.mp hr with rfl | hr
    · rw [foldl_setType_other, setType, Function.update_self]
      intro s hs heq
      have hne := h.1 s hs
      omega
    · exact ih h.2 hr

end

/-- Each readable byte gives its page a type and nothing else changes. -/
structure Exact (w : World Client Links Rest) (packet : Nat) (buf : Packet) : Prop where
  own : ∀ stat, ∀ b < 40, readable buf b = true →
    types (parseBtt env { w with pageStat := stat } packet buf)
      (0x100 + (pageOf packet b : Int)) = bttType (bttCode buf b)
  other : ∀ stat p, (∀ b < 40, readable buf b = true → p ≠ 0x100 + (pageOf packet b : Int)) →
    types (parseBtt env { w with pageStat := stat } packet buf) p = (stat p).pageType

/-- No readable byte of the packet is behind one with an error. -/
def Unspoiled (buf : Packet) : Prop :=
  ∀ k m, k < m → m < 40 → readable buf m = true → readable buf k = true

theorem exact_iff (w : World Client Links Rest) {packet : Nat} (h : IsTable packet)
    (buf : Packet) : Exact env w packet buf ↔ Unspoiled buf := by
  have hpairs : (rows (readable buf) 4 (dec2bcdp (packet - 1)) 0).Pairwise
      fun r s => r.1 ≠ s.1 :=
    (rows_sorted _ _ _ _).imp fun hlt => Nat.ne_of_lt hlt.1
  have hparse : ∀ w : World Client Links Rest, types (parseBtt env w packet buf) =
      (rows (readable buf) 4 (dec2bcdp (packet - 1)) 0).foldl (setType buf) (types w) := by
    intro w
    rw [parseBtt, if_pos h.2, bttRow_types]
  constructor
  · rintro ⟨hown, hother⟩
    rw [Unspoiled, ← rows_iff h (readable buf)]
    -- all page types are unknown before
    constructor
    · intro b hb hgood
      by_contra hnone
      have htype := hown (fun _ => ⟨vbiUnknownPage, 0xFF, 0⟩) b hb hgood
      rw [hparse, foldl_setType_other] at htype
      · exact bttType_ne_unknown _ htype.symm
      · intro r hr heq
        exact hnone ⟨r, hr, by omega⟩
    · intro r hr
      by_contra hnone
      have htype := hother (fun _ => ⟨vbiUnknownPage, 0xFF, 0⟩) (0x100 + (r.1 : Int)) (by
        intro b hb hgood heq
        exact hnone ⟨b, hb, hgood, by omega⟩)
      rw [hparse, foldl_setType_read hpairs hr] at htype
      exact bttType_ne_unknown _ htype
  · intro hunspoiled
    refine ⟨fun stat b hb hgood => ?_, fun stat p hp => ?_⟩
    · have hread : (pageOf packet b, b) ∈ rows (readable buf) 4 (dec2bcdp (packet - 1)) 0 := by
        refine own_read h hb fun k hk => ?_
        rcases Nat.lt_or_eq_of_le hk with hlt | rfl
        · exact hunspoiled k b hlt hb hgood
        · exact hgood
      rw [hparse]
      exact foldl_setType_read hpairs hread
    · rw [hparse, foldl_setType_other]
      · rfl
      · intro r hr heq
        obtain ⟨b, hb, hgood, hpage⟩ := ((rows_iff h (readable buf)).mpr hunspoiled).2 r hr
        exact hp b hb hgood (by rw [heq, hpage])

def layoutType (p : Int) (type : Nat) (q : Nat × Packet) : Nat :=
  ((List.range 40).find? fun b =>
    readable q.2 b && decide (p = 0x100 + (pageOf q.1 b : Int))).elim type
      fun b => bttType (bttCode q.2 b)

theorem Exact.types_eq {w : World Client Links Rest} {q : Nat × Packet} (_hq : IsTable q.1)
    (h : Exact env w q.1 q.2) (p : Int) :
    types (parseBtt env w q.1 q.2) p = layoutType p (types w p) q := by
  rw [layoutType]
  cases hfind : (List.range 40).find? fun b =>
      readable q.2 b && decide (p = 0x100 + (pageOf q.1 b : Int)) with
  | none =>
    refine h.other w.pageStat p fun b hb hgood heq => ?_
    have hnot := List.find?_eq_none.mp hfind b (List.mem_range.mpr hb)
    rw [hgood, decide_eq_true heq] at hnot
    exact hnot rfl
  | some b =>
    have hb := List.mem_range.mp (List.mem_of_find?_eq_some hfind)
    have hsome := List.find?_some hfind
    rw [Bool.and_eq_true, decide_eq_true_iff] at hsome
    rw [hsome.2]
    exact h.own w.pageStat b hb hsome.1

/-- A packet gives each page the type for its own byte, and only readable bytes matter, if and
only if nothing is readable behind an error. After such packets, in any order, the types are
those for the last readable bytes. -/
theorem btt_table (w : World Client Links Rest) {packets : List (Nat × Packet)}
    (h : ∀ q ∈ packets, IsTable q.1) :
    ((∀ q ∈ packets, Exact env w q.1 q.2) ↔ ∀ q ∈ packets, Unspoiled q.2) ∧
      ((∀ q ∈ packets, Unspoiled q.2) → ∀ p,
        types (packets.foldl (fun w q => parseBtt env w q.1 q.2) w) p =
          packets.foldl (layoutType p) (types w p)) := by
  refine ⟨⟨fun hexact q hq => (exact_iff env w (h q hq) q.2).mp (hexact q hq),
    fun hunspoiled q hq => (exact_iff env w (h q hq) q.2).mpr (hunspoiled q hq)⟩,
    fun hunspoiled p => ?_⟩
  induction packets generalizing w with
  | nil => rfl
  | cons q packets ih =>
    rw [List.forall_mem_cons] at h hunspoiled
    have hexact := (exact_iff env w h.1 q.2).mpr hunspoiled.1
    rw [List.foldl_cons, List.foldl_cons, ih _ h.2 hunspoiled.2, hexact.types_eq env h.1 p]

/-- A packet with the code of normal pages, where the bytes from one on cannot be read. -/
def normalPages (errors : Nat) : Packet := fun i => if i < errors + 2 then 0xd0 else 0x01

theorem normalPages_unspoiled (errors : Nat) : Unspoiled (normalPages errors) := by
  intro k m hlt _ hgood
  by_cases hm : m < errors
  · have hcode : bttCode (normalPages errors) k = 8 := by
      rw [bttCode, normalPages, if_pos (by omega)]
      decide
    rw [readable, hcode]
    decide
  · have hcode : bttCode (normalPages errors) m = -1 := by
      rw [bttCode, normalPages, if_neg (by omega)]
      decide
    rw [readable, hcode] at hgood
    exact absurd hgood (by decide)

theorem btt_table_two :
    (∀ q ∈ [(1, normalPages 40), (2, normalPages 7)],
      Exact TeletextReferenceRuns.bareEnvironment TeletextReferenceRuns.newDecoder.world q.1 q.2) ∧
    types ([(1, normalPages 40), (2, normalPages 7)].foldl
      (fun w q => parseBtt TeletextReferenceRuns.bareEnvironment w q.1 q.2)
      TeletextReferenceRuns.newDecoder.world) 0x147 = vbiUnknownPage := by
  have htable : ∀ q ∈ [(1, normalPages 40), (2, normalPages 7)], IsTable q.1 := by
    unfold IsTable
    intro q hq
    simp only [List.mem_cons, List.not_mem_nil, or_false] at hq
    rcases hq with rfl | rfl <;> decide
  have hunspoiled : ∀ q ∈ [(1, normalPages 40), (2, normalPages 7)], Unspoiled q.2 := by
    intro q hq
    simp only [List.mem_cons, List.not_mem_nil, or_false] at hq
    rcases hq with rfl | rfl <;> exact normalPages_unspoiled _
  have hpackets := btt_table TeletextReferenceRuns.bareEnvironment
    TeletextReferenceRuns.newDecoder.world htable
  refine ⟨hpackets.1.mpr hunspoiled, ?_⟩
  rw [hpackets.2 hunspoiled]
  decide +kernel

def spoiledPages : Packet := fun i => if i = 5 then 0x01 else 0xd0

/-- The types for pages 104 to 113 are stored six numbers behind, in pages which have no byte
of the table as well. -/
theorem btt_error_shifts :
    readable spoiledPages 4 = true ∧
      types (parseBtt TeletextReferenceRuns.bareEnvironment
        TeletextReferenceRuns.newDecoder.world 1 spoiledPages) 0x104 = vbiUnknownPage ∧
      types (parseBtt TeletextReferenceRuns.bareEnvironment
        TeletextReferenceRuns.newDecoder.world 1 spoiledPages) 0x10A = vbiNormalPage ∧
      ¬ Exact TeletextReferenceRuns.bareEnvironment
        TeletextReferenceRuns.newDecoder.world 1 spoiledPages := by
  have hread : readable spoiledPages 4 = true := by decide +kernel
  have hmissing : types (parseBtt TeletextReferenceRuns.bareEnvironment
      TeletextReferenceRuns.newDecoder.world 1 spoiledPages) 0x104 = vbiUnknownPage := by
    decide +kernel
  refine ⟨hread, hmissing, by decide +kernel, fun hexact => ?_⟩
  have htype := hexact.own TeletextReferenceRuns.newDecoder.world.pageStat 4 (by decide) hread
  exact bttType_ne_unknown _ (htype.symm.trans hmissing)

end BttLayout

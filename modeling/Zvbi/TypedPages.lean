import Zvbi.PageUnion

/-!
# The data of typed pages

A page of a certain function has its own data in the union, which is for the parser of this
function. Packet X/27 stores links in every page. They are inside the data of a page of
objects, and some of them inside the titles of an AIT page.
-/

namespace TypedPages
open Hamming StructLayout TeletextHeader PageUnion
open TeletextLop (pageFunctionGpop)
open PopPointers (Raw triplet)

inductive TypedFunction
  | gpop
  | pop
  | gdrcs
  | drcs
  | mot
  | mip
  | btt
  | ait
  | mpt
  | mptEx

/-- `enum ttx_page_function`. -/
def TypedFunction.code : TypedFunction → Int
  | .gpop => pageFunctionGpop
  | .pop => pageFunctionPop
  | .gdrcs => pageFunctionGdrcs
  | .drcs => pageFunctionDrcs
  | .mot => pageFunctionMot
  | .mip => pageFunctionMip
  | .btt => pageFunctionBtt
  | .ait => pageFunctionAit
  | .mpt => pageFunctionMpt
  | .mptEx => pageFunctionMptEx

def TypedFunction.ownBytes : TypedFunction → Nat
  | .gpop | .pop => (struct PageUnion.pop).size
  | .ait => ((struct ttxAitTitle).array 46).size
  | .gdrcs | .drcs | .mot | .mip | .btt | .mpt | .mptEx => offset ttxLop 1

def TypedFunction.parser (f : TypedFunction) (packet : Nat) (raw : Raw) : List Store :=
  match f with
  | .gpop | .pop => if 1 ≤ packet ∧ packet ≤ 26 then parsePop raw packet else []
  | .ait => if 1 ≤ packet ∧ packet ≤ 25 then parseAit raw packet else []
  | .gdrcs | .drcs | .mip => if 1 ≤ packet ∧ packet ≤ 25 then rawRow raw packet else []
  | .mot | .btt | .mpt | .mptEx => []

/-- The own data of a page change only through the parser of its function. -/
def OnlyByParser (f : TypedFunction) (packet : Nat) (raw : Raw) (mag0 : Nat) : Prop :=
  ∀ s : Reception, s.function = f.code → ∀ b < f.ownBytes,
    (decodePacket mag0 packet raw s).data b = (s.store (f.parser packet raw)).data b

def LinkGood (raw : Raw) (i : Nat) : Prop :=
  0 ≤ vbiUnham16p (raw (1 + 6 * i)) (raw (1 + 6 * i + 1)) ∧
    0 ≤ vbiUnham16p (raw (1 + 6 * i + 2)) (raw (1 + 6 * i + 3)) ∧
    0 ≤ vbiUnham16p (raw (1 + 6 * i + 4)) (raw (1 + 6 * i + 5))

/-- A packet X/27 which puts links, or the flags of the links, over the own data of a page. -/
def Overwrites (f : TypedFunction) (raw : Raw) : Prop :=
  let designation := vbiUnham8 (raw 0)
  match f with
  | .gpop | .pop =>
    designation = 0 ∧ 0 ≤ vbiUnham8 (raw 37) ∨
      (1 ≤ designation ∧ designation ≤ 3) ∧ (∃ i < 6, LinkGood raw i) ∨
      (designation = 4 ∨ designation = 5) ∧ (triplet raw 0 ||| triplet raw 1).msb = false
  | .ait => designation = 0 ∧ 0 ≤ vbiUnham8 (raw 37) ∧ ∃ i < 5, LinkGood raw i
  | .gdrcs | .drcs | .mot | .mip | .btt | .mpt | .mptEx => False

def Reaches (stores : List Store) (n : Nat) : Prop := ∃ t ∈ stores, t.1 < n

theorem reaches_nil (n : Nat) : ¬ Reaches [] n := by
  rintro ⟨t, ht, -⟩
  exact List.not_mem_nil ht

theorem reaches_append (a b : List Store) (n : Nat) :
    Reaches (a ++ b) n ↔ Reaches a n ∨ Reaches b n := by
  simp only [Reaches, List.mem_append, or_and_right, exists_or]

theorem reaches_flatMap {α : Type} (f : α → List Store) (l : List α) (n : Nat) :
    Reaches (l.flatMap f) n ↔ ∃ a ∈ l, Reaches (f a) n := by
  simp only [Reaches, List.mem_flatMap]
  constructor
  · rintro ⟨t, ⟨a, ha, ht⟩, hlt⟩
    exact ⟨a, ha, t, ht, hlt⟩
  · rintro ⟨a, ha, t, ht, hlt⟩
    exact ⟨t, ⟨a, ha, ht⟩, hlt⟩

theorem reaches_storeInt (offset k value n : Nat) :
    Reaches (storeInt offset (k + 1) value) n ↔ offset < n := by
  constructor
  · rintro ⟨t, ht, hlt⟩
    obtain ⟨j, -, rfl⟩ := List.mem_map.mp ht
    exact Nat.lt_of_le_of_lt (Nat.le_add_right _ _) hlt
  · intro hlt
    exact ⟨_, List.mem_map.mpr ⟨0, List.mem_range.mpr (Nat.succ_pos k), rfl⟩, hlt⟩

variable {b i : Nat} {stores : List Store}

/-- The last store to a byte decides on it, whatever it was before. -/
theorem foldl_put_of_mem (h : ∃ t ∈ stores, t.1 = b) :
    ∃ v, ∀ data : Nat → UInt8, stores.foldl put data b = v := by
  induction stores with
  | nil =>
    obtain ⟨t, ht, -⟩ := h
    exact absurd ht List.not_mem_nil
  | cons t stores ih =>
    by_cases hlater : ∃ u ∈ stores, u.1 = b
    · obtain ⟨v, hv⟩ := ih hlater
      exact ⟨v, fun data => hv _⟩
    · have hnone : ∀ u ∈ stores, u.1 ≠ b := fun u hu hb => hlater ⟨u, hu, hb⟩
      obtain ⟨u, hu, rfl⟩ := h
      rcases List.mem_cons.mp hu with rfl | htail
      · refine ⟨u.2, fun data => ?_⟩
        rw [List.foldl_cons, foldl_put_of_not_mem hnone]
        exact Function.update_self _ _ _
      · exact absurd rfl (hnone u htail)

/-- Stores leave the first bytes as they are, in every memory, where none goes there. -/
theorem stores_keep_iff (stores : List Store) (n : Nat) :
    (∀ data : Nat → UInt8, ∀ b < n, stores.foldl put data b = data b) ↔ ¬ Reaches stores n := by
  constructor
  · rintro hkeep ⟨t, ht, hlt⟩
    obtain ⟨v, hv⟩ := foldl_put_of_mem ⟨t, ht, rfl⟩
    have hzero := (hv _).symm.trans (hkeep (fun _ => 0) t.1 hlt)
    have hone := (hv _).symm.trans (hkeep (fun _ => 1) t.1 hlt)
    exact absurd (hzero.symm.trans hone) (by decide)
  · intro hreach data b hb
    exact foldl_put_of_not_mem (fun t ht heq => hreach ⟨t, ht, heq ▸ hb⟩) data

theorem reaches_unhamPageLink (raw : Raw) (i magazine link n : Nat) :
    Reaches (unhamPageLink raw (1 + 6 * i) magazine link) n ↔
      LinkGood raw i ∧ linkOffset link + 4 < n := by
  rw [unhamPageLink]
  dsimp only
  split
  · rename_i hbad
    refine iff_of_false (reaches_nil n) fun hgood => ?_
    obtain ⟨⟨h1, h2, h3⟩, -⟩ := hgood
    omega
  · rename_i hgood
    rw [reaches_append, reaches_storeInt, reaches_storeInt]
    have hlink : LinkGood raw i := by
      refine ⟨?_, ?_, ?_⟩ <;> omega
    constructor
    · intro hlt
      exact ⟨hlink, by omega⟩
    · rintro ⟨-, hlt⟩
      exact Or.inl hlt

theorem reaches_links (raw : Raw) (magazine designation n : Nat) :
    Reaches ((List.range 6).flatMap fun i =>
        unhamPageLink raw (1 + 6 * i) magazine (designation * 6 + i)) n ↔
      ∃ i < 6, LinkGood raw i ∧ linkOffset (designation * 6 + i) + 4 < n := by
  rw [reaches_flatMap]
  simp only [List.mem_range, reaches_unhamPageLink]

theorem compositionLink_msb (raw : Raw) (mag0 link i : Nat) :
    compositionLink raw mag0 link i = none ↔
      (triplet raw (2 * i) ||| triplet raw (2 * i + 1)).msb = true := by
  rw [compositionLink]
  dsimp only
  split
  · rename_i hbad
    exact iff_of_true rfl hbad
  · rename_i hgood
    exact iff_of_false (Option.some_ne_none _) hgood

theorem reaches_compositionLink {raw : Raw} {mag0 link : Nat}
    (h : compositionLink raw mag0 link i = some stores) (n : Nat) :
    Reaches stores n ↔ linkOffset link < n := by
  rw [compositionLink] at h
  dsimp only at h
  split at h
  · exact absurd h.symm (Option.some_ne_none _)
  · obtain rfl := Option.some.inj h
    rw [reaches_append, reaches_append, reaches_storeInt, reaches_storeInt, reaches_storeInt]
    omega

theorem linkOffset_mono {j : Nat} (h : i ≤ j) : linkOffset i ≤ linkOffset j :=
  Nat.add_le_add_left (Nat.mul_le_mul_left _ h) _

theorem compositionLinks_ge (raw : Raw) (mag0 designation n : Nat) (is : List Nat)
    (h : Reaches (compositionLinks raw mag0 designation is) n) :
    linkOffset (designation * 6) < n := by
  induction is with
  | nil => exact absurd h (reaches_nil n)
  | cons i is ih =>
    rw [compositionLinks] at h
    split at h
    · exact absurd h (reaches_nil n)
    · rename_i stores hstores
      rcases (reaches_append _ _ n).mp h with hfirst | hrest
      · have hlt := (reaches_compositionLink hstores n).mp hfirst
        exact Nat.lt_of_le_of_lt (linkOffset_mono (Nat.le_add_right _ _)) hlt
      · exact ih hrest

theorem reaches_compositionLinks (raw : Raw) (mag0 designation n : Nat) :
    Reaches (compositionLinks raw mag0 designation (List.range 6)) n ↔
      (triplet raw 0 ||| triplet raw 1).msb = false ∧ linkOffset (designation * 6) < n := by
  constructor
  · intro h
    refine ⟨?_, compositionLinks_ge raw mag0 designation n _ h⟩
    rw [show List.range 6 = 0 :: [1, 2, 3, 4, 5] from rfl, compositionLinks] at h
    split at h
    · exact absurd h (reaches_nil n)
    · rename_i stores hstores
      have hsome : compositionLink raw mag0 (designation * 6 + 0) 0 ≠ none := by
        rw [hstores]
        exact Option.some_ne_none _
      exact Bool.eq_false_iff.mpr (mt (compositionLink_msb raw mag0 _ 0).mpr hsome)
  · rintro ⟨hgood, hlt⟩
    rw [show List.range 6 = 0 :: [1, 2, 3, 4, 5] from rfl, compositionLinks]
    split
    · rename_i hnone
      have hbad := (compositionLink_msb raw mag0 _ 0).mp hnone
      exact absurd (hgood.symm.trans hbad) Bool.false_ne_true
    · rename_i stores hstores
      exact (reaches_append _ _ n).mpr (Or.inl ((reaches_compositionLink hstores n).mpr hlt))

/-- The first byte which a packet X/27 changes. -/
theorem reaches_parse27 (raw : Raw) (mag0 n : Nat) :
    Reaches (parse27 raw mag0) n ↔
      (vbiUnham8 (raw 0) = 0 ∧ 0 ≤ vbiUnham8 (raw 37) ∧
        (offset ttxLop 2 < n ∨ ∃ i < 6, LinkGood raw i ∧ linkOffset i + 4 < n)) ∨
      ((1 ≤ vbiUnham8 (raw 0) ∧ vbiUnham8 (raw 0) ≤ 3) ∧ ∃ i < 6, LinkGood raw i ∧
        linkOffset ((vbiUnham8 (raw 0)).toNat * 6 + i) + 4 < n) ∨
      ((vbiUnham8 (raw 0) = 4 ∨ vbiUnham8 (raw 0) = 5) ∧
        (triplet raw 0 ||| triplet raw 1).msb = false ∧
        linkOffset ((vbiUnham8 (raw 0)).toNat * 6) < n) := by
  rw [parse27]
  dsimp only
  have hlinks := reaches_links raw mag0 (vbiUnham8 (raw 0)).toNat n
  generalize vbiUnham8 (raw 0) = designation at hlinks ⊢
  by_cases hneg : designation < 0
  · rw [if_pos hneg]
    refine iff_of_false (reaches_nil n) ?_
    omega
  rw [if_neg hneg]
  by_cases hzero : designation = 0
  · rw [if_pos hzero]
    subst hzero
    rw [Int.toNat_zero, Nat.zero_mul] at hlinks
    simp only [Nat.zero_add] at hlinks
    by_cases hcontrol : vbiUnham8 (raw 37) < 0
    · rw [if_pos hcontrol]
      refine iff_of_false (reaches_nil n) ?_
      omega
    · rw [if_neg hcontrol, reaches_append, reaches_storeInt]
      simp only [Int.toNat_zero, Nat.zero_mul, Nat.zero_add]
      rw [hlinks]
      constructor
      · intro h
        exact Or.inl ⟨trivial, Int.not_lt.mp hcontrol, h⟩
      · rintro (⟨-, -, h⟩ | ⟨h, -⟩ | ⟨h, -⟩)
        · exact h
        · omega
        · omega
  rw [if_neg hzero]
  by_cases hthree : designation ≤ 3
  · rw [if_pos hthree, hlinks]
    constructor
    · intro h
      exact Or.inr (Or.inl ⟨by omega, h⟩)
    · rintro (⟨h, -⟩ | ⟨-, h⟩ | ⟨h, -⟩)
      · omega
      · exact h
      · omega
  rw [if_neg hthree]
  by_cases hfive : designation ≤ 5
  · rw [if_pos hfive, reaches_compositionLinks]
    constructor
    · intro h
      exact Or.inr (Or.inr ⟨by omega, h⟩)
    · rintro (⟨h, -⟩ | ⟨h, -⟩ | ⟨-, h⟩)
      · omega
      · omega
      · exact h
  · rw [if_neg hfive]
    refine iff_of_false (reaches_nil n) ?_
    omega

theorem linkOffset_eq (link : Nat) : linkOffset link = 1040 + 12 * link := rfl

/-- Links are stored over the own data of pages of objects and of AIT pages. -/
theorem reaches_ownBytes (f : TypedFunction) (raw : Raw) (mag0 : Nat) :
    Reaches (parse27 raw mag0) f.ownBytes ↔ Overwrites f raw := by
  have hflof : offset ttxLop 2 = 1472 := by decide
  have hpop : (struct PageUnion.pop).size = 1716 := by decide
  have hait : ((struct ttxAitTitle).array 46).size = 1104 := by decide
  have hrows : offset ttxLop 1 = 1040 := by decide
  rw [reaches_parse27]
  simp only [linkOffset_eq, hflof]
  cases f with
  | gpop | pop =>
    simp only [TypedFunction.ownBytes, hpop, Overwrites]
    constructor
    · rintro (⟨hzero, hcontrol, -⟩ | ⟨hthree, i, hi, hgood, -⟩ | ⟨hfive, hgood, -⟩)
      · exact Or.inl ⟨hzero, hcontrol⟩
      · exact Or.inr (Or.inl ⟨hthree, i, hi, hgood⟩)
      · exact Or.inr (Or.inr ⟨hfive, hgood⟩)
    · rintro (⟨hzero, hcontrol⟩ | ⟨hthree, i, hi, hgood⟩ | ⟨hfive, hgood⟩)
      · exact Or.inl ⟨hzero, hcontrol, Or.inl (by decide)⟩
      · exact Or.inr (Or.inl ⟨hthree, i, hi, hgood, by omega⟩)
      · exact Or.inr (Or.inr ⟨hfive, hgood, by omega⟩)
  | ait =>
    simp only [TypedFunction.ownBytes, hait, Overwrites]
    constructor
    · rintro (⟨hzero, hcontrol, hlt | ⟨i, -, hgood, hlt⟩⟩ | ⟨hthree, i, -, -, hlt⟩ |
        ⟨hfive, -, hlt⟩)
      · omega
      · exact ⟨hzero, hcontrol, i, by omega, hgood⟩
      · omega
      · omega
    · rintro ⟨hzero, hcontrol, i, hi, hgood⟩
      exact Or.inl ⟨hzero, hcontrol, Or.inr ⟨i, by omega, hgood, by omega⟩⟩
  | gdrcs | drcs | mot | mip | btt | mpt | mptEx =>
    simp only [TypedFunction.ownBytes, hrows, Overwrites, iff_false]
    rintro (⟨-, -, hlt | ⟨i, -, -, hlt⟩⟩ | ⟨-, i, -, -, hlt⟩ | ⟨-, -, hlt⟩) <;> omega

theorem rowStores_code (f : TypedFunction) {packet : Nat} (h : 1 ≤ packet ∧ packet ≤ 25)
    (raw : Raw) : rowStores f.code packet raw = f.parser packet raw := by
  have h26 : 1 ≤ packet ∧ packet ≤ 26 := ⟨h.1, Nat.le_succ_of_le h.2⟩
  cases f with
  | gpop | pop => exact (if_pos h26).symm
  | ait | gdrcs | drcs | mip => exact (if_pos h).symm
  | mot | btt | mpt | mptEx => rfl

theorem enhancement_ge (raw : Raw) (numTriplets : Int) (is : List Nat) :
    ¬ Reaches (enhancement raw numTriplets is).1 (offset ttxLop 1) := by
  induction is generalizing numTriplets with
  | nil => exact reaches_nil _
  | cons i is ih =>
    rw [enhancement]
    dsimp only
    split
    · exact reaches_nil _
    · rw [reaches_append]
      rintro (⟨t, ht, hlt⟩ | hrest)
      · have hbase : offset enhLop 1 = 1476 := by decide
        have hrows : offset ttxLop 1 = 1040 := by decide
        have hle : offset enhLop 1 ≤ t.1 := by
          rcases List.mem_cons.mp ht with rfl | ht
          · exact Nat.le_add_right _ _
          rcases List.mem_cons.mp ht with rfl | ht
          · exact Nat.le_trans (Nat.le_add_right _ _) (Nat.le_add_right _ _)
          · obtain rfl := List.mem_singleton.mp ht
            exact Nat.le_trans (Nat.le_add_right _ _) (Nat.le_add_right _ _)
        omega
      · exact ih _ hrest

theorem store_nil (s : Reception) : s.store [] = s := rfl

/-- Packets X/26 of pages of objects go to their parser, those of other pages leave the own
data. -/
theorem decode26_data (f : TypedFunction) (raw : Raw) {s : Reception} (h : s.function = f.code)
    (hb : b < f.ownBytes) : (decode26 raw s).data b = (s.store (f.parser 26 raw)).data b := by
  rw [decode26]
  dsimp only
  rw [h]
  cases f with
  | gpop | pop => rfl
  | gdrcs | drcs | btt | ait | mpt | mptEx => rfl
  | mot | mip =>
    -- A page with rows, which takes the triplets.
    split
    · rfl
    split
    · rename_i hpop
      exact absurd hpop (by decide)
    split
    · rfl
    split
    · rfl
    split
    · rfl
    · exact (stores_keep_iff _ _).mpr (enhancement_ge raw _ _) s.data b hb

/-- Packet X/27 leaves the own data of every page as they are if it stores nothing there. -/
theorem onlyByParser_27 (f : TypedFunction) (raw : Raw) (mag0 : Nat) :
    OnlyByParser f 27 raw mag0 ↔ ¬ Overwrites f raw := by
  have hdecode : ∀ s : Reception, s.function = f.code →
      decodePacket mag0 27 raw s = s.store (parse27 raw mag0) := by
    intro s hs
    have hnot : ¬ s.function = pageFunctionDiscard := by
      rw [hs]
      cases f <;> decide
    exact if_neg hnot
  have hparser : f.parser 27 raw = [] := by cases f <;> rfl
  rw [← reaches_ownBytes f raw mag0, ← stores_keep_iff]
  constructor
  · intro honly data b hb
    let s : Reception := ⟨{ ExtensionPackets.emptyState with
      cvtp := { ExtensionPackets.emptyState.cvtp with function := f.code } }, data, 0⟩
    have hbyte := honly s rfl b hb
    rw [hdecode s rfl, hparser] at hbyte
    exact hbyte
  · intro hkeep s hs b hb
    rw [hdecode s hs, hparser]
    exact hkeep s.data b hb

/-- The own data of a page change only through the parser of its function, unless links are
stored over them. -/
theorem onlyByParser_iff (f : TypedFunction) (packet : Nat) (raw : Raw) (mag0 : Nat) :
    OnlyByParser f packet raw mag0 ↔ (packet = 27 → ¬ Overwrites f raw) := by
  by_cases hlinks : packet = 27
  · subst hlinks
    rw [onlyByParser_27]
    exact ⟨fun h _ => h, fun h => h rfl⟩
  refine iff_of_true ?_ fun h => absurd h hlinks
  intro s hs b hb
  by_cases hrow : 1 ≤ packet ∧ packet ≤ 25
  · rw [decodePacket, if_pos hrow, hs, rowStores_code f hrow]
  rw [decodePacket, if_neg hrow]
  by_cases hobjects : packet = 26
  · subst hobjects
    exact decode26_data f raw hs hb
  have hparser : f.parser packet raw = [] := by
    have hlater : ¬ (1 ≤ packet ∧ packet ≤ 26) := by omega
    cases f with
    | gpop | pop => exact if_neg hlater
    | ait | gdrcs | drcs | mip => exact if_neg hrow
    | mot | btt | mpt | mptEx => rfl
  rw [if_neg hobjects, if_neg hlinks, hparser]
  -- Packets X/28 change the extension and the modes of the page.
  split
  · rfl
  split
  · rfl
  · rfl

/-- A packet of the lowest Hamming codes, with designation 0 and a link to a page in the
magazine itself. -/
def zeroRaw : Raw := fun _ => vbiHam8 0

/-- The triplets of a page of objects give way to the links. -/
theorem pop_overwritten : ¬ OnlyByParser .pop 27 zeroRaw 1 := by
  intro honly
  let s : Reception := ⟨{ ExtensionPackets.emptyState with
    cvtp := { ExtensionPackets.emptyState.cvtp with function := pageFunctionPop } },
    fun _ => 0xFF, 0⟩
  have hbyte := honly s rfl 1044 (by decide)
  revert hbyte
  decide +kernel

end TypedPages

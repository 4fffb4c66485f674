import Zvbi.TeletextStation

/-!
# The table of subpages in a MIP

The codes in packets 1 to 14 of a MIP give the types of the pages of a magazine. Where the
number of subpages is large, it is in the table in packets 15 to 24, whose entries are in the
order of the codes which refer to them. Whether these packets were received is not checked.
-/

namespace MipSubpages
open Hamming TeletextHeader TeletextLop TeletextStation

variable {Client Links Rest : Type} (env : Environment Client Links Rest)

def Tabled (code : Int) : Prop :=
  code = 0x50 ∨ code = 0x51 ∨ code = 0xD0 ∨ code = 0xD1 ∨ code = 0xE0 ∨ code = 0xE1 ∨
    code = 0x7B ∨ code = 0xF8

instance (code : Int) : Decidable (Tabled code) := inferInstanceAs (Decidable (_ ∨ _))

def tabledCount (entries : List (Int × Int)) : Nat := entries.countP fun e => Tabled e.2

/-- A call of `parse_mip_page()`. -/
structure Call where
  offset : Int
  code : Int
  index : Nat

/-- The rows and bytes of the table which `parse_mip_page()` reads. -/
def Call.reads (call : Call) : List (Nat × Nat) :=
  if Tabled call.code ∧ call.index ≤ 10 * 13 then
    (List.range 3).map fun i => (subcodeRow call.index, subcodeByte call.index + i)
  else
    []

variable {code : Int} {index : Nat} {vtp : Page (PageData Rest)}

theorem parseMipPage_tabled (h : Tabled code) (vtp : Page (PageData Rest))
    (w : World Client Links Rest) (pgno : Int) (index : Nat) :
    parseMipPage env vtp w pgno code index =
      if 10 * 13 < index then (w, index, false)
      else match tabledPage code.toNat vtp index with
        | none => (w, index + 1, false)
        | some r => (notePage w pgno r.1 r.2, index + 1, true) := by
  rw [Tabled] at h
  rw [parseMipPage, if_neg (by omega), if_neg (by omega), if_neg (by omega), if_neg (by omega),
    if_pos (by omega)]
  split
  · rfl
  · cases tabledPage code.toNat vtp index with
    | none => rfl
    | some r => rfl

theorem parseMipPage_other (h : ¬Tabled code) (vtp vtp' : Page (PageData Rest))
    (w : World Client Links Rest) (pgno : Int) (index index' : Nat) :
    parseMipPage env vtp' w pgno code index' =
      ((parseMipPage env vtp w pgno code index).1, index', decide (0 ≤ code)) := by
  rw [parseMipPage, parseMipPage]
  by_cases hcode : code < 0
  · rw [if_pos hcode, if_pos hcode, decide_eq_false (Int.not_le.mpr hcode)]
  · have hnot : ¬(code.toNat = 0x50 ∨ code.toNat = 0x51 ∨ code.toNat = 0xD0 ∨ code.toNat = 0xD1 ∨
        code.toNat = 0xE0 ∨ code.toNat = 0xE1 ∨ code.toNat = 0x7B ∨ code.toNat = 0xF8) := by
      rw [Tabled] at h
      omega
    rw [if_neg hcode, if_neg hcode, decide_eq_true (Int.not_lt.mp hcode), if_neg hnot, if_neg hnot]
    split_ifs <;> rfl

theorem parseMipPage_index {w : World Client Links Rest} {pgno : Int}
    (h : (parseMipPage env vtp w pgno code index).2.2 = true) :
    (parseMipPage env vtp w pgno code index).2.1 = index + if Tabled code then 1 else 0 := by
  by_cases hcode : Tabled code
  · rw [parseMipPage_tabled env hcode] at h ⊢
    rw [if_pos hcode]
    by_cases hindex : 10 * 13 < index
    · rw [if_pos hindex] at h
      exact absurd h Bool.false_ne_true
    · rw [if_neg hindex]
      cases tabledPage code.toNat vtp index with
      | none => rfl
      | some r => rfl
  · rw [parseMipPage_other env hcode vtp vtp w pgno index index, if_neg hcode]
    rfl

/-- The calls of `parse_mip_page()` in the loops of `parse_mip()`. -/
def mipCalls (vtp : Page (PageData Rest)) :
    List (Int × Int) → Nat → World Client Links Rest → List Call
  | [], _, _ => []
  | (offset, code) :: entries, index, w =>
    let r := parseMipPage env vtp w (vtp.pgno / 256 % 16 * 256 + offset) code index
    ⟨offset, code, index⟩ :: if r.2.2 then mipCalls vtp entries r.2.1 r.1 else []

/-- Parsing goes on behind these entries, if the first code which refers to the table refers
to the given entry. -/
def Undamaged (vtp : Page (PageData Rest)) (index : Nat) (entries : List (Int × Int)) : Prop :=
  ∀ before e after, entries = before ++ e :: after →
    0 ≤ e.2 ∧ (Tabled e.2 → (tabledPage e.2.toNat vtp (index + tabledCount before)).isSome)

/-- The table has an entry, in a packet which was received, for each code which refers to it. -/
def TableReceived (vtp : Page (PageData Rest)) (index : Nat) (entries : List (Int × Int)) : Prop :=
  ∀ before e after, entries = before ++ e :: after → Undamaged vtp index before → Tabled e.2 →
    index + tabledCount before < 10 * 13 ∧
      vtp.lopPackets.testBit (subcodeRow (index + tabledCount before)) = true

/-- All bytes of the table `parse_mip_page()` reads are in packets 15 to 24, and were received. -/
def ReadsReceived (vtp : Page (PageData Rest)) (call : Call) : Prop :=
  ∀ pos ∈ call.reads, 15 ≤ pos.1 ∧ pos.1 ≤ 24 ∧ vtp.lopPackets.testBit pos.1 = true

theorem tabledCount_cons (e : Int × Int) (entries : List (Int × Int)) :
    tabledCount (e :: entries) = (if Tabled e.2 then 1 else 0) + tabledCount entries := by
  rw [tabledCount, tabledCount, List.countP_cons, Nat.add_comm]
  split_ifs <;> simp_all

theorem undamaged_nil (vtp : Page (PageData Rest)) (index : Nat) : Undamaged vtp index [] :=
  fun _ _ _ h => absurd h.symm (List.append_ne_nil_of_right_ne_nil _ (List.cons_ne_nil _ _))

variable {e : Int × Int} {entries : List (Int × Int)} {call : Call}

theorem undamaged_cons :
    Undamaged vtp index (e :: entries) ↔
      (0 ≤ e.2 ∧ (Tabled e.2 → (tabledPage e.2.toNat vtp index).isSome)) ∧
        Undamaged vtp (index + if Tabled e.2 then 1 else 0) entries := by
  constructor
  · intro h
    refine ⟨h [] e entries rfl, fun before u after hsplit => ?_⟩
    have hu := h (e :: before) u after (by rw [hsplit]; rfl)
    rwa [tabledCount_cons, ← Nat.add_assoc] at hu
  · rintro ⟨he, hrest⟩ before u after hsplit
    cases before with
    | nil =>
      obtain ⟨rfl, -⟩ := List.cons.inj hsplit
      exact he
    | cons v before =>
      obtain ⟨rfl, htail⟩ := List.cons.inj hsplit
      rw [tabledCount_cons, ← Nat.add_assoc]
      exact hrest before u after htail

theorem tableReceived_cons :
    TableReceived vtp index (e :: entries) ↔
      (Tabled e.2 → index < 10 * 13 ∧ vtp.lopPackets.testBit (subcodeRow index) = true) ∧
        ((0 ≤ e.2 ∧ (Tabled e.2 → (tabledPage e.2.toNat vtp index).isSome)) →
          TableReceived vtp (index + if Tabled e.2 then 1 else 0) entries) := by
  constructor
  · intro h
    refine ⟨h [] e entries rfl (undamaged_nil vtp index), fun he before u after hsplit hclean => ?_⟩
    have hu := h (e :: before) u after (by rw [hsplit]; rfl) (undamaged_cons.mpr ⟨he, hclean⟩)
    rwa [tabledCount_cons, ← Nat.add_assoc] at hu
  · rintro ⟨he, hrest⟩ before u after hsplit hclean
    cases before with
    | nil =>
      obtain ⟨rfl, -⟩ := List.cons.inj hsplit
      exact he
    | cons v before =>
      obtain ⟨rfl, htail⟩ := List.cons.inj hsplit
      obtain ⟨hv, hclean⟩ := undamaged_cons.mp hclean
      rw [tabledCount_cons, ← Nat.add_assoc]
      exact hrest hv before u after htail hclean

theorem readsReceived_tabled {vtp : Page (PageData Rest)} {call : Call} (h : Tabled call.code)
    (hindex : call.index ≤ 10 * 13) : ReadsReceived vtp call ↔
      call.index < 10 * 13 ∧ vtp.lopPackets.testBit (subcodeRow call.index) = true := by
  rw [ReadsReceived, Call.reads, if_pos ⟨h, hindex⟩]
  constructor
  · intro hreads
    obtain ⟨-, hlast, hbit⟩ := hreads (subcodeRow call.index, subcodeByte call.index + 0)
      (List.mem_map.mpr ⟨0, by decide, rfl⟩)
    refine ⟨?_, hbit⟩
    rw [subcodeRow] at hlast
    dsimp only at hlast
    omega
  · rintro ⟨hlast, hbit⟩ pos hpos
    obtain ⟨i, -, rfl⟩ := List.mem_map.mp hpos
    refine ⟨?_, ?_, hbit⟩
    · exact Nat.le_add_left _ _
    · show call.index / 13 + 15 ≤ 24
      omega

theorem readsReceived_other (h : ¬Tabled call.code) : ReadsReceived vtp call := by
  rw [ReadsReceived, Call.reads, if_neg fun hread => h hread.1]
  exact fun pos hpos => absurd hpos List.not_mem_nil

/-- The bytes of the table which are read were received, if and only if the table has an
entry for each code. -/
theorem mipCalls_received (vtp : Page (PageData Rest)) (entries : List (Int × Int)) (index : Nat)
    (hindex : index ≤ 10 * 13) (w : World Client Links Rest) :
    (∀ call ∈ mipCalls env vtp entries index w, ReadsReceived vtp call) ↔
      TableReceived vtp index entries := by
  induction entries generalizing index w with
  | nil =>
    refine iff_of_true (fun call hcall => absurd hcall List.not_mem_nil) ?_
    exact fun _ _ _ h => absurd h.symm (List.append_ne_nil_of_right_ne_nil _ (List.cons_ne_nil _ _))
  | cons e entries ih =>
    obtain ⟨offset, code⟩ := e
    rw [mipCalls, List.forall_mem_cons, tableReceived_cons]
    dsimp only
    by_cases hcode : Tabled code
    · rw [@readsReceived_tabled _ vtp ⟨offset, code, index⟩ hcode hindex,
        parseMipPage_tabled env hcode, if_neg (Nat.not_lt.mpr hindex), if_pos hcode]
      rw [imp_iff_right hcode]
      refine and_congr_right fun hhead => ?_
      cases hentry : tabledPage code.toNat vtp index with
      | none =>
        rw [if_neg Bool.false_ne_true]
        refine iff_of_true (fun call hcall => absurd hcall List.not_mem_nil) fun h => ?_
        exact absurd (h.2 hcode) Bool.false_ne_true
      | some r =>
        have hgood : 0 ≤ code ∧ (Tabled code → (some r).isSome = true) := by
          rw [Tabled] at hcode
          exact ⟨by omega, fun _ => rfl⟩
        rw [if_pos rfl, imp_iff_right hgood]
        exact ih (index + 1) hhead.1 _
    · rw [parseMipPage_other env hcode vtp vtp w _ index index, if_neg hcode]
      refine and_congr (iff_of_true (readsReceived_other hcode) fun h => absurd h hcode) ?_
      dsimp only
      by_cases hpositive : 0 ≤ code
      · rw [decide_eq_true hpositive, if_pos rfl,
          imp_iff_right ⟨hpositive, fun h => absurd h hcode⟩]
        exact ih index hindex _
      · rw [decide_eq_false hpositive, if_neg Bool.false_ne_true]
        refine iff_of_true (fun call hcall => absurd hcall List.not_mem_nil) fun h => ?_
        exact absurd h.1 hpositive

/-- Each call has the number of the calls before it whose codes refer to the table. -/
theorem mipCalls_index (vtp : Page (PageData Rest)) (entries : List (Int × Int)) (index : Nat)
    (w : World Client Links Rest) {before after : List Call}
    (h : mipCalls env vtp entries index w = before ++ call :: after) :
    call.index = index + before.countP fun c => Tabled c.code := by
  induction entries generalizing index w before with
  | nil => exact absurd h.symm (List.append_ne_nil_of_right_ne_nil _ (List.cons_ne_nil _ _))
  | cons e entries ih =>
    obtain ⟨offset, code⟩ := e
    rw [mipCalls] at h
    cases before with
    | nil =>
      obtain ⟨rfl, -⟩ := List.cons.inj h
      rfl
    | cons c before =>
      obtain ⟨rfl, htail⟩ := List.cons.inj h
      rw [List.countP_cons]
      by_cases hnext : (parseMipPage env vtp w (vtp.pgno / 256 % 16 * 256 + offset) code
          index).2.2 = true
      · rw [if_pos hnext, parseMipPage_index env hnext] at htail
        rw [ih _ _ htail, Nat.add_assoc, Nat.add_comm (List.countP _ before)]
        simp only [decide_eq_true_eq]
      · rw [if_neg hnext] at htail
        exact absurd htail.symm (List.append_ne_nil_of_right_ne_nil _ (List.cons_ne_nil _ _))

/-- What is expected of `parse_mip()`. -/
structure TableRespected (vtp : Page (PageData Rest)) (w : World Client Links Rest) : Prop where
  nth : ∀ before call after, mipCalls env vtp (mipEntries vtp) 0 w = before ++ call :: after →
    call.index = before.countP fun c => Tabled c.code
  entry : ∀ call ∈ mipCalls env vtp (mipEntries vtp) 0 w, Tabled call.code →
    ∀ w pgno pageType subc, call.index < 10 * 13 →
      tabledPage call.code.toNat vtp call.index = some (pageType, subc) →
      (parseMipPage env vtp w pgno call.code call.index).1 = notePage w pgno pageType subc
  received : ∀ call ∈ mipCalls env vtp (mipEntries vtp) 0 w, ReadsReceived vtp call
  own : ∀ call ∈ mipCalls env vtp (mipEntries vtp) 0 w, ¬Tabled call.code →
    ∀ vtp' w pgno index, (parseMipPage env vtp' w pgno call.code index).1 =
      (parseMipPage env vtp w pgno call.code call.index).1

/-- `parse_mip()` does what is expected if and only if the codes, up to the first error, refer
to at most 130 entries, and the packets with these entries were received. -/
theorem tableRespected_iff (vtp : Page (PageData Rest)) (w : World Client Links Rest) :
    TableRespected env vtp w ↔ TableReceived vtp 0 (mipEntries vtp) := by
  rw [← mipCalls_received env vtp (mipEntries vtp) 0 (Nat.zero_le _) w]
  constructor
  · exact fun h => h.received
  · intro hreceived
    refine ⟨fun before call after h => ?_,
      fun call _ hcode w pgno pageType subc hindex hentry => ?_, hreceived,
      fun call _ hcode vtp' w pgno index => ?_⟩
    · rw [mipCalls_index env vtp (mipEntries vtp) 0 w h, Nat.zero_add]
    · rw [parseMipPage_tabled env hcode, if_neg (by omega), hentry]
    · rw [parseMipPage_other env hcode vtp vtp' w pgno call.index index]

def lostTable : Page (PageData Unit) where
  function := pageFunctionMip
  pgno := 0x1FD
  subno := 0
  national := 0
  flags := 0
  lopPackets := 2
  x26Designations := 0
  x27Designations := 0
  x28Designations := 0
  extDesignations := 0
  data := {
    raw := fun row i => if row = 1 ∧ i = 1 then vbiHam8 5 else vbiHam8 0
    enh := fun _ => noTriplet
    rest := () }

def fullTable : Page (PageData Unit) :=
  { lostTable with
    lopPackets := 0x1FFFFFE
    data := { lostTable.data with
      raw := fun row i => if row < 15 then vbiHam8 (if i % 2 = 0 then 1 else 5) else vbiHam8 0 } }

theorem lostTable_entries : mipEntries lostTable = (0, 0x50) :: (mipEntries lostTable).tail := by
  decide +kernel

/-- Page 100 gets an entry of a packet which was not received. -/
theorem lostTable_not_received : ¬TableReceived lostTable 0 (mipEntries lostTable) := by
  intro h
  have hfirst := h [] (0, 0x50) _ lostTable_entries (undamaged_nil lostTable 0) (by decide)
  exact absurd hfirst.2 (by decide)

theorem fullTable_entry (index : Nat) :
    tabledPage 0x51 fullTable index = some (vbiNormalPage, 0x1000) := by
  have hrow : fullTable.data.raw (subcodeRow index) = fun _ => vbiHam8 0 := by
    funext i
    have hnot : ¬subcodeRow index < 15 := by
      rw [subcodeRow]
      omega
    show (if subcodeRow index < 15 then vbiHam8 (if i % 2 = 0 then 1 else 5) else vbiHam8 0) = _
    rw [if_neg hnot]
  have hlow : vbiUnham16p (vbiHam8 0) (vbiHam8 0) = 0 := by decide
  have hhigh : vbiUnham8 (vbiHam8 0) = 0 := by decide
  rw [tabledPage, hrow]
  dsimp only
  rw [hlow, hhigh]
  rfl

theorem fullTable_codes : (mipEntries fullTable).map Prod.snd = List.replicate 256 0x51 := by
  decide +kernel

theorem fullTable_not_received : ¬TableReceived fullTable 0 (mipEntries fullTable) := by
  intro h
  have hcode : ∀ e ∈ mipEntries fullTable, e.2 = 0x51 := fun e he =>
    List.eq_of_mem_replicate (fullTable_codes ▸ List.mem_map_of_mem he)
  have hlength : 130 < (mipEntries fullTable).length := by
    rw [← List.length_map Prod.snd, fullTable_codes, List.length_replicate]
    decide
  have hclean : Undamaged fullTable 0 ((mipEntries fullTable).take 130) := by
    intro before e after hsplit
    have hmem : e ∈ (mipEntries fullTable).take 130 := by
      rw [hsplit]
      exact List.mem_append_right _ List.mem_cons_self
    rw [hcode e (List.mem_of_mem_take hmem)]
    refine ⟨by decide, fun _ => ?_⟩
    exact congrArg Option.isSome (fullTable_entry _)
  have hcount : tabledCount ((mipEntries fullTable).take 130) = 130 := by
    rw [tabledCount, List.countP_eq_length.mpr, List.length_take_of_le (Nat.le_of_lt hlength)]
    intro e he
    rw [hcode e (List.mem_of_mem_take he)]
    decide
  have hsplit : mipEntries fullTable = (mipEntries fullTable).take 130 ++
      (mipEntries fullTable)[130] :: (mipEntries fullTable).drop 131 := by
    rw [← List.drop_eq_getElem_cons hlength, List.take_append_drop]
  have hlast := h _ _ _ hsplit hclean (by rw [hcode _ (List.getElem_mem hlength)]; decide)
  rw [hcount] at hlast
  exact absurd hlast.1 (by decide)

/-- Whatever the decoder knows, parsing of these pages uses bytes which were not received, or
which are not in the table. -/
theorem tableRespected_violated :
    ∃ lost full : Page (PageData Unit), ∀ (env : Environment Unit Unit Unit)
      (w : World Unit Unit Unit), ¬TableRespected env lost w ∧ ¬TableRespected env full w := by
  refine ⟨lostTable, fullTable, fun env w => ⟨fun h => ?_, fun h => ?_⟩⟩
  · exact lostTable_not_received ((mipCalls_received env lostTable _ 0 (Nat.zero_le _) w).mp
      h.received)
  · exact fullTable_not_received ((mipCalls_received env fullTable _ 0 (Nat.zero_le _) w).mp
      h.received)

end MipSubpages

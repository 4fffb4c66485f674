import Mathlib.Logic.Function.Basic
import Zvbi.XdsDemux

/-!
# What the Extended Data Service demultiplexer delivers

The record of a reception holds for each class and type the characters received
since its start code, and for each element of the table whose start code used it
last. It knows nothing of counts and checksums. The demultiplexer agrees with
the record as long as no element is shared.
-/

namespace XdsReception
open Hamming XdsDemux GuardedRuns

abbrev Key := Nat × Nat

def elementOf (key : Key) : Nat := element key.1 key.2

/-- What arrived so far. -/
structure Reception where
  current : Option Key
  received : Key → List UInt8
  owner : Nat → Option Key

def Reception.none : Reception := ⟨.none, fun _ => [], fun _ => .none⟩

def characters (c1 c2 : Nat) : List UInt8 :=
  if c2 ≠ 0 then [UInt8.ofNat c1, UInt8.ofNat c2] else [UInt8.ofNat c1]

def Reception.header (r : Reception) (c1 c2 : Nat) : Reception :=
  let key : Key := ((c1 - 1) / 2, c2)
  if c1 % 2 = 1 then
    { current := some key
      received := Function.update r.received key []
      owner := if Known key.1 key.2 then Function.update r.owner (elementOf key) (some key)
        else r.owner }
  else
    { r with current := some key }

def Reception.contents (r : Reception) (c1 c2 : Nat) : Reception :=
  match r.current with
  | .none => r
  | some key =>
    { r with received := Function.update r.received key (r.received key ++ characters c1 c2) }

def Reception.dispatch (r : Reception) (c1 c2 : Nat) : Reception :=
  if c1 = 0 then r
  else if c1 ≤ 0x0E then r.header c1 c2
  else if c1 ≤ 0x1F then { r with current := .none }
  else r.contents c1 c2

def Reception.receive (r : Reception) (pair : UInt8 × UInt8) : Reception :=
  if vbiUnpar8 pair.1 < 0 ∨ vbiUnpar8 pair.2 < 0 then
    { r with current := .none }
  else
    r.dispatch (vbiUnpar8 pair.1).toNat (vbiUnpar8 pair.2).toNat

structure Recorded where
  xd : Demux
  reception : Reception

def step (callback : XdsPacket → Bool) (s : Recorded) (pair : UInt8 × UInt8) : Option Recorded :=
  (feed callback s.xd pair).map fun o => ⟨o.xd, s.reception.receive pair⟩

def OwnElement (s : Recorded) (c1 c2 : Nat) : Prop :=
  Known ((c1 - 1) / 2) c2 → c1 % 2 = 0 →
    ∀ sp ∈ s.xd.subpacket[element ((c1 - 1) / 2) c2]?, sp.count ≠ 0 →
      s.reception.owner (element ((c1 - 1) / 2) c2) = some ((c1 - 1) / 2, c2)

def HasRoom (xd : Demux) : Prop :=
  ∀ n ∈ xd.currSp, ∀ sp ∈ xd.subpacket[n]?, sp.count ≠ 33

/-- Pairs which reach neither an element with another packet in it nor a buffer
with one free byte. -/
def Harmless (s : Recorded) (pair : UInt8 × UInt8) : Prop :=
  0 ≤ vbiUnpar8 pair.1 → 0 ≤ vbiUnpar8 pair.2 →
    (1 ≤ vbiUnpar8 pair.1 ∧ vbiUnpar8 pair.1 ≤ 0x0E →
      OwnElement s (vbiUnpar8 pair.1).toNat (vbiUnpar8 pair.2).toNat) ∧
    (0x20 ≤ vbiUnpar8 pair.1 → HasRoom s.xd)

instance (s : Recorded) (c1 c2 : Nat) : Decidable (OwnElement s c1 c2) :=
  inferInstanceAs (Decidable (_ → _ → _))

instance (xd : Demux) : Decidable (HasRoom xd) :=
  inferInstanceAs (Decidable (∀ n ∈ xd.currSp, _))

instance (s : Recorded) (pair : UInt8 × UInt8) : Decidable (Harmless s pair) :=
  inferInstanceAs (Decidable (_ → _ → _))

/-- The first `n` bytes of a buffer. -/
def content {size : Nat} (buffer : Vector UInt8 size) (n : Nat) : List UInt8 :=
  buffer.toList.take n

/-- What an element holds of the packet which owns it. -/
structure Holds (r : Reception) (n : Nat) (sp : XdsSubpacket) : Prop where
  low : 2 ≤ sp.count
  high : sp.count ≤ 34
  owned : ∃ key, r.owner n = some key ∧ content sp.buffer (sp.count - 2) = r.received key

/-- The current packet is an element of the table and owned by the packet which
the record takes for current. -/
structure Selected (s : Recorded) (n : Nat) : Prop where
  current : s.reception.current = some (s.xd.curr.xdsClass, s.xd.curr.xdsSubclass)
  owner : s.reception.owner n = some (s.xd.curr.xdsClass, s.xd.curr.xdsSubclass)
  element : ∃ sp, s.xd.subpacket[n]? = some sp ∧ sp.count ≠ 0

structure Stored (xd : Demux) (r : Reception) : Prop where
  owners : ∀ n key, r.owner n = some key → Known key.1 key.2 ∧ elementOf key = n
  elements : ∀ n sp, xd.subpacket[n]? = some sp → sp.count = 0 ∨ Holds r n sp

structure Agrees (s : Recorded) : Prop extends Stored s.xd s.reception where
  selected : ∀ n, s.xd.currSp = some n → Selected s n
  unselected : s.xd.currSp = none → ∀ key, s.reception.current = some key → ∀ n sp,
    s.reception.owner n = some key → s.xd.subpacket[n]? = some sp → sp.count = 0

theorem reset_agrees (xd : Demux) : Agrees ⟨reset xd, Reception.none⟩ := by
  have hcount : ∀ (n : Nat) sp, (reset xd).subpacket[n]? = some sp → sp.count = 0 := by
    intro n sp hsp
    simp only [reset, Vector.getElem?_map, Option.map_eq_some_iff] at hsp
    obtain ⟨old, -, rfl⟩ := hsp
    rfl
  refine ⟨⟨fun n key h => ?_, fun n sp hsp => Or.inl (hcount n sp hsp)⟩, fun n h => ?_, ?_⟩
  · cases h
  · cases h
  · intro _ key h
    cases h

variable {n c1 c2 : Nat} {sp : XdsSubpacket} {xd : Demux} {r : Reception} {s : Recorded} {key : Key}

variable {m k size : Nat} {p : XdsSubpacket}

theorem subpacket_setSp (h : (setSp xd n sp).subpacket[m]? = some p) :
    m = n ∧ p = sp ∨ m ≠ n ∧ xd.subpacket[m]? = some p := by
  simp only [setSp, Vector.getElem?_setIfInBounds] at h
  split at h
  · rename_i hnm
    split at h
    · exact Or.inl ⟨hnm.symm, (Option.some.inj h).symm⟩
    · cases h
  · rename_i hnm
    exact Or.inr ⟨fun heq => hnm heq.symm, h⟩

theorem subpacket_setSp_self {old : XdsSubpacket} (h : xd.subpacket[n]? = some old) :
    (setSp xd n sp).subpacket[n]? = some sp := by
  have hn : n < vbiXdsMaxClasses * vbiXdsMaxSubclasses := (Vector.getElem?_eq_some_iff.mp h).1
  simp only [setSp, Vector.getElem?_setIfInBounds_self, if_pos hn]

theorem discard_some (h : xd.subpacket[n]? = some sp) :
    discard xd (some n) = some (setSp { xd with currSp := none } n sp.clear) := by
  simp only [XdsDemux.discard, h, Option.map_some]

/-- Only the other elements matter when one is cleared. -/
theorem stored_clear
    (owners : ∀ m key, r.owner m = some key → Known key.1 key.2 ∧ elementOf key = m)
    (others : ∀ m, m ≠ n → ∀ p, xd.subpacket[m]? = some p → p.count = 0 ∨ Holds r m p)
    (sp : XdsSubpacket) (cur : Option Nat) (curr : XdsPacket) :
    Stored (setSp { xd with currSp := cur, curr := curr } n sp.clear) r := by
  refine ⟨owners, ?_⟩
  intro m p hp
  rcases subpacket_setSp hp with ⟨-, rfl⟩ | ⟨hm, hp⟩
  · exact Or.inl rfl
  · exact others m hm p hp

/-- The record of the current packet does not matter to the elements. -/
theorem stored_current (h : Stored xd r) (current : Option Key) :
    Stored xd { r with current := current } := by
  refine ⟨h.owners, ?_⟩
  intro n sp hsp
  rcases h.elements n sp hsp with hzero | hholds
  · exact Or.inl hzero
  · exact Or.inr ⟨hholds.low, hholds.high, hholds.owned⟩

/-- A discarded packet leaves no current one, in the record neither. -/
theorem discard_agrees (h : Agrees s) :
    ∃ t, discard s.xd s.xd.currSp = some t ∧ t.currSp = none ∧ t.curr = s.xd.curr ∧
      Stored t s.reception := by
  cases hcur : s.xd.currSp with
  | none =>
    exact ⟨{ s.xd with currSp := none }, rfl, rfl, rfl, ⟨h.owners, h.elements⟩⟩
  | some n =>
    obtain ⟨sp, hsp, -⟩ := (h.selected n hcur).element
    exact ⟨_, discard_some hsp, rfl, rfl,
      stored_clear h.owners (fun m _ => h.elements m) sp none s.xd.curr⟩

theorem agrees_none (h : Stored xd r) (hcur : xd.currSp = none) (hnone : r.current = none) :
    Agrees ⟨xd, r⟩ := by
  refine ⟨h, fun n hn => ?_, fun _ key hkey => ?_⟩
  · rw [hcur] at hn
    cases hn
  · rw [hnone] at hkey
    cases hkey

theorem clear_agrees
    (owners : ∀ m key, r.owner m = some key → Known key.1 key.2 ∧ elementOf key = m)
    (others : ∀ m, m ≠ n → ∀ p, xd.subpacket[m]? = some p → p.count = 0 ∨ Holds r m p)
    (hcurrent : r.current = some key) (hn : elementOf key = n) (sp : XdsSubpacket)
    (curr : XdsPacket) :
    Agrees ⟨setSp { xd with currSp := none, curr := curr } n sp.clear, r⟩ := by
  refine ⟨stored_clear owners others sp none curr, fun m hm => ?_, ?_⟩
  · cases hm
  · intro _ other hother m p howner hp
    rcases subpacket_setSp hp with ⟨-, rfl⟩ | ⟨hmn, -⟩
    · rfl
    · rw [hcurrent] at hother
      cases hother
      exact absurd ((owners m key howner).2.symm.trans hn) hmn

theorem element_lt {xdsClass xdsSubclass : Nat} (known : Known xdsClass xdsSubclass) :
    element xdsClass xdsSubclass < vbiXdsMaxClasses * vbiXdsMaxSubclasses := by
  simp only [Known, vbiXdsClassMisc, vbiXdsMaxSubclasses] at known
  simp only [element, vbiXdsMaxClasses, vbiXdsMaxSubclasses]
  omega

theorem start_agrees (h : Agrees s) (known : Known ((c1 - 1) / 2) c2) (hstart : c1 % 2 = 1)
    (hsp : s.xd.subpacket[element ((c1 - 1) / 2) c2]? = some sp) :
    Agrees ⟨setSp { s.xd with
        currSp := some (element ((c1 - 1) / 2) c2)
        curr := { s.xd.curr with xdsClass := (c1 - 1) / 2, xdsSubclass := c2 } }
      (element ((c1 - 1) / 2) c2) { sp with checksum := c1 + c2, count := 2 },
      s.reception.header c1 c2⟩ := by
  have hown : (s.reception.header c1 c2).owner (element ((c1 - 1) / 2) c2) =
      some ((c1 - 1) / 2, c2) := by
    simp only [Reception.header, if_pos hstart, if_pos known]
    exact Function.update_self ..
  have hcurrent : (s.reception.header c1 c2).current = some ((c1 - 1) / 2, c2) := by
    simp only [Reception.header, if_pos hstart]
  have hother : ∀ m, m ≠ element ((c1 - 1) / 2) c2 →
      (s.reception.header c1 c2).owner m = s.reception.owner m := by
    intro m hm
    simp only [Reception.header, if_pos hstart, if_pos known]
    exact Function.update_of_ne hm ..
  refine ⟨⟨?_, ?_⟩, ?_, ?_⟩
  · intro m key hkey
    by_cases hm : m = element ((c1 - 1) / 2) c2
    · subst hm
      rw [hown] at hkey
      cases hkey
      exact ⟨known, rfl⟩
    · rw [hother m hm] at hkey
      exact h.owners m key hkey
  · intro m p hp
    rcases subpacket_setSp hp with ⟨rfl, rfl⟩ | ⟨hm, hp⟩
    · refine Or.inr ⟨Nat.le_refl 2, (by decide : 2 ≤ 34), _, hown, ?_⟩
      simp only [Reception.header, if_pos hstart, Function.update_self]
      exact List.take_zero
    · rcases h.elements m p hp with hzero | hholds
      · exact Or.inl hzero
      · obtain ⟨key, hkey, hcontent⟩ := hholds.owned
        refine Or.inr ⟨hholds.low, hholds.high, key, (hother m hm).trans hkey, ?_⟩
        -- another element belongs to another packet
        have hne : key ≠ ((c1 - 1) / 2, c2) := by
          rintro rfl
          exact hm (h.owners m _ hkey).2.symm
        simp only [Reception.header, if_pos hstart]
        rw [Function.update_of_ne hne]
        exact hcontent
  · intro m hm
    cases hm
    exact ⟨hcurrent, hown, _, subpacket_setSp_self hsp, (by decide : 2 ≠ 0)⟩
  · intro hnone
    cases hnone

theorem continue_agrees (h : Agrees s) (hstart : ¬ c1 % 2 = 1)
    (hsp : s.xd.subpacket[element ((c1 - 1) / 2) c2]? = some sp) (hcount : sp.count ≠ 0)
    (howner : s.reception.owner (element ((c1 - 1) / 2) c2) = some ((c1 - 1) / 2, c2)) :
    Agrees ⟨{ s.xd with
        currSp := some (element ((c1 - 1) / 2) c2)
        curr := { s.xd.curr with xdsClass := (c1 - 1) / 2, xdsSubclass := c2 } },
      s.reception.header c1 c2⟩ := by
  have hheader : s.reception.header c1 c2 =
      { s.reception with current := some ((c1 - 1) / 2, c2) } := by
    simp only [Reception.header, if_neg hstart]
  rw [hheader]
  obtain ⟨howners, helements⟩ := stored_current h.toStored (some ((c1 - 1) / 2, c2))
  refine ⟨⟨howners, helements⟩, ?_, ?_⟩
  · intro m hm
    cases hm
    exact ⟨rfl, howner, sp, hsp, hcount⟩
  · intro hnone
    cases hnone

theorem header_agrees (h : Agrees s) (own : OwnElement s c1 c2) :
    ∃ t, header s.xd c1 c2 = some t ∧ Agrees ⟨t, s.reception.header c1 c2⟩ := by
  by_cases known : Known ((c1 - 1) / 2) c2
  · have hlt := element_lt known
    have hsp : s.xd.subpacket[element ((c1 - 1) / 2) c2]? =
        some s.xd.subpacket[element ((c1 - 1) / 2) c2] := Vector.getElem?_eq_getElem hlt
    simp only [header, if_neg (not_not.mpr known), hsp, Option.bind_eq_bind, Option.bind_some]
    by_cases hstart : c1 % 2 = 1
    · rw [if_pos hstart]
      exact ⟨_, rfl, start_agrees h known hstart hsp⟩
    rw [if_neg hstart]
    by_cases hcount : s.xd.subpacket[element ((c1 - 1) / 2) c2].count = 0
    · rw [if_pos hcount]
      have hheader : s.reception.header c1 c2 =
          { s.reception with current := some ((c1 - 1) / 2, c2) } := by
        simp only [Reception.header, if_neg hstart]
      rw [hheader]
      have hstored := stored_current h.toStored (some ((c1 - 1) / 2, c2))
      have hclear := clear_agrees hstored.owners (fun m _ => hstored.elements m) rfl rfl
        s.xd.subpacket[element ((c1 - 1) / 2) c2]
        { s.xd.curr with xdsClass := (c1 - 1) / 2, xdsSubclass := c2 }
      refine ⟨_, discard_some ?_, hclear⟩
      exact hsp
    · rw [if_neg hcount]
      have hown := own known (by omega) _ hsp hcount
      exact ⟨_, rfl, continue_agrees h hstart hsp hcount hown⟩
  · obtain ⟨t, ht, hcur, -, hstored⟩ := discard_agrees h
    simp only [header, if_pos known]
    refine ⟨t, ht, ?_⟩
    -- an unknown packet owns no element
    have hstored' : Stored t (s.reception.header c1 c2) := by
      refine ⟨?_, ?_⟩
      · intro n key hkey
        simp only [Reception.header, if_neg known] at hkey
        split at hkey
        · exact hstored.owners n key hkey
        · exact hstored.owners n key hkey
      · intro n sp hsp
        rcases hstored.elements n sp hsp with hzero | hholds
        · exact Or.inl hzero
        · obtain ⟨key, hkey, hcontent⟩ := hholds.owned
          have hne : key ≠ ((c1 - 1) / 2, c2) := by
            rintro rfl
            exact known (hstored.owners n _ hkey).1
          refine Or.inr ⟨hholds.low, hholds.high, key, ?_, ?_⟩
          · simp only [Reception.header, if_neg known]
            split
            · exact hkey
            · exact hkey
          · simp only [Reception.header]
            split
            · simp only [Function.update_of_ne hne]
              exact hcontent
            · exact hcontent
    refine ⟨hstored', fun n hn => ?_, ?_⟩
    · rw [hcur] at hn
      cases hn
    · intro _ key hkey n sp howner _
      have hkey' : key = ((c1 - 1) / 2, c2) := by
        simp only [Reception.header] at hkey
        split at hkey
        · exact (Option.some.inj hkey).symm
        · exact (Option.some.inj hkey).symm
      subst hkey'
      exact absurd (hstored'.owners n _ howner).1 known

theorem content_set_of_le (buffer : Vector UInt8 size) (h : n ≤ k) (c : UInt8) :
    content (buffer.setIfInBounds k c) n = content buffer n := by
  simp only [content, Vector.toList_setIfInBounds]
  exact List.take_set_of_le h

theorem content_set_self (buffer : Vector UInt8 size) (h : k < size) (c : UInt8) :
    content (buffer.setIfInBounds k c) (k + 1) = content buffer k ++ [c] := by
  have hk : k < buffer.toList.length := by rwa [Vector.length_toList]
  simp only [content, Vector.toList_setIfInBounds]
  rw [List.take_add_one, List.take_set_of_le (Nat.le_refl k), List.getElem?_set_self hk]
  rfl

theorem content_store (buffer : Vector UInt8 32) (h : k + 1 < 32) (c1 c2 : Nat) :
    content ((buffer.setIfInBounds k (UInt8.ofNat c1)).setIfInBounds (k + 1) (UInt8.ofNat c2))
      (k + (1 + if c2 ≠ 0 then 1 else 0)) = content buffer k ++ characters c1 c2 := by
  have hfirst := content_set_self buffer (Nat.lt_of_succ_lt h) (UInt8.ofNat c1)
  by_cases hc : c2 ≠ 0
  · simp only [characters, if_pos hc]
    change content _ (k + 1 + 1) = _
    rw [content_set_self _ h, hfirst, List.append_assoc]
    rfl
  · simp only [characters, if_neg hc]
    change content _ (k + 1) = _
    rw [content_set_of_le _ (Nat.le_refl (k + 1)), hfirst]

theorem content_copy (old : Vector UInt8 36) (buffer : Vector UInt8 32) (h : n ≤ 32) :
    content ((copy old buffer).setIfInBounds n 0) n = content buffer n := by
  rw [content_set_of_le _ (Nat.le_refl n)]
  apply List.ext_getElem
  · simp only [content, List.length_take, Vector.length_toList]
    omega
  · intro i hi hi'
    simp only [content, List.length_take, Vector.length_toList] at hi hi'
    simp only [content, List.getElem_take, Vector.getElem_toList, copy, Vector.getElem_ofFn]
    rw [dif_pos (by omega)]

theorem contents_current (h : r.current = some key) (c1 c2 : Nat) :
    r.contents c1 c2 =
      ⟨some key, Function.update r.received key (r.received key ++ characters c1 c2), r.owner⟩ := by
  simp only [Reception.contents, h]

/-- Characters of a packet leave the elements of other packets alone. -/
theorem contents_others (h : Stored xd r) (hcurrent : r.current = some key) (hn : elementOf key = n)
    (c1 c2 : Nat) (hm : m ≠ n) (hp : xd.subpacket[m]? = some p) :
    p.count = 0 ∨ Holds (r.contents c1 c2) m p := by
  rcases h.elements m p hp with hzero | hholds
  · exact Or.inl hzero
  · obtain ⟨other, hother, hcontent⟩ := hholds.owned
    have hne : other ≠ key := by
      rintro rfl
      exact hm ((h.owners m _ hother).2.symm.trans hn)
    rw [contents_current hcurrent]
    refine Or.inr ⟨hholds.low, hholds.high, other, hother, ?_⟩
    dsimp only
    rw [Function.update_of_ne hne]
    exact hcontent

/-- An element with two characters more. -/
theorem holds_appended (hcurrent : r.current = some key) (howner : r.owner n = some key)
    (hlow : 2 ≤ sp.count) (hroom : sp.count ≤ 32)
    (hcontent : content sp.buffer (sp.count - 2) = r.received key) (c1 c2 : Nat) :
    Holds (r.contents c1 c2) n
      ⟨(sp.buffer.setIfInBounds (sp.count - 2) (UInt8.ofNat c1)).setIfInBounds (sp.count - 2 + 1)
          (UInt8.ofNat c2),
        sp.count + (1 + if c2 ≠ 0 then 1 else 0), sp.checksum + (c1 + c2)⟩ := by
  have hnext : (if c2 ≠ 0 then 1 else 0) ≤ 1 := by
    split
    · exact Nat.le_refl 1
    · exact Nat.zero_le 1
  have hsize : sp.count + (1 + if c2 ≠ 0 then 1 else 0) - 2 =
      sp.count - 2 + (1 + if c2 ≠ 0 then 1 else 0) := by omega
  rw [contents_current hcurrent]
  refine ⟨by dsimp only; omega, by dsimp only; omega, key, howner, ?_⟩
  dsimp only
  rw [Function.update_self, hsize, content_store _ (by omega), hcontent]

/-- Characters of a packet which has room for two of them. -/
theorem contents_agrees (h : Agrees s) (hn : s.xd.currSp = some n) (room : HasRoom s.xd)
    (c1 c2 : Nat) :
    ∃ t, contents s.xd n c1 c2 = some t ∧ Agrees ⟨t, s.reception.contents c1 c2⟩ := by
  obtain ⟨hcurrent, howner, sp, hsp, hcount⟩ := h.selected n hn
  have hroom := room n hn sp hsp
  obtain ⟨hlow, hhigh, key, hkey, hcontent⟩ := (h.elements n sp hsp).resolve_left hcount
  rw [howner] at hkey
  cases hkey
  have helement := (h.owners n _ howner).2
  have howners : ∀ m other, (s.reception.contents c1 c2).owner m = some other →
      Known other.1 other.2 ∧ elementOf other = m := by
    rw [contents_current hcurrent]
    exact h.owners
  simp only [contents, hsp, Option.bind_eq_bind, Option.bind_some]
  by_cases hfull : sp.count ≥ 32 + 2
  · rw [if_pos hfull, discard_some hsp]
    have hothers : ∀ m, m ≠ n → ∀ p, s.xd.subpacket[m]? = some p →
        p.count = 0 ∨ Holds (s.reception.contents c1 c2) m p :=
      fun m hm p hp => contents_others h.toStored hcurrent helement c1 c2 hm hp
    refine ⟨_, rfl, clear_agrees howners hothers ?_ helement sp s.xd.curr⟩
    rw [contents_current hcurrent]
  · rw [if_neg hfull, store, if_pos (by omega), Option.bind_some, store, if_pos (by omega),
      Option.bind_some]
    have hfirst : ((sp.count : Int) - 2).toNat = sp.count - 2 := by omega
    have hsecond : ((sp.count : Int) - 1).toNat = sp.count - 2 + 1 := by omega
    simp only [hfirst, hsecond]
    refine ⟨_, rfl, ⟨⟨howners, ?_⟩, fun m hm => ?_, fun hnone => ?_⟩⟩
    · intro m p hp
      rcases subpacket_setSp hp with ⟨rfl, rfl⟩ | ⟨hm, hp⟩
      · exact Or.inr (holds_appended hcurrent howner hlow (by omega) hcontent c1 c2)
      · exact contents_others h.toStored hcurrent helement c1 c2 hm hp
    · have hmn : n = m := Option.some.inj (hn.symm.trans hm)
      subst hmn
      refine ⟨?_, ?_, _, subpacket_setSp_self hsp, by dsimp only; omega⟩
      · rw [contents_current hcurrent]
        rfl
      · rw [contents_current hcurrent]
        exact howner
    · have hsome : s.xd.currSp = none := hnone
      rw [hn] at hsome
      cases hsome

def Delivery (r : Reception) (p : XdsPacket) : Prop :=
  1 ≤ p.bufferSize ∧ p.bufferSize ≤ 32 ∧
    content p.buffer p.bufferSize = r.received (p.xdsClass, p.xdsSubclass)

theorem terminator_agrees (callback : XdsPacket → Bool) (h : Agrees s) (hn : s.xd.currSp = some n)
    (c1 c2 : Nat) :
    ∃ o, terminator callback s.xd n c1 c2 = some o ∧
      Agrees ⟨o.xd, { s.reception with current := none }⟩ ∧
      ∀ p ∈ o.delivered, Delivery s.reception p := by
  obtain ⟨-, howner, sp, hsp, hcount⟩ := h.selected n hn
  obtain ⟨hlow, hhigh, key, hkey, hcontent⟩ := (h.elements n sp hsp).resolve_left hcount
  rw [howner] at hkey
  cases hkey
  have hclosed : ∀ curr, Agrees ⟨setSp { s.xd with currSp := none, curr := curr } n sp.clear,
      { s.reception with current := none }⟩ := by
    intro curr
    have hclear := stored_clear h.owners (fun m (_ : m ≠ n) => h.elements m) sp none curr
    exact agrees_none (stored_current hclear none) rfl rfl
  simp only [terminator, hsp, Option.bind_eq_bind, Option.bind_some]
  by_cases hsum : (sp.checksum + c1 + c2) % 128 ≠ 0
  · rw [if_pos hsum, discard_some hsp]
    exact ⟨_, rfl, hclosed s.xd.curr, fun p hp => by cases hp⟩
  rw [if_neg hsum]
  by_cases hempty : sp.count ≤ 2
  · rw [if_pos hempty, discard_some hsp]
    exact ⟨_, rfl, hclosed s.xd.curr, fun p hp => by cases hp⟩
  rw [if_neg hempty, complete, if_pos (by omega), Option.bind_some,
    discard_some (by exact hsp)]
  refine ⟨_, rfl, hclosed _, ?_⟩
  intro p hp
  cases hp
  refine ⟨by dsimp only; omega, by dsimp only; omega, ?_⟩
  dsimp only
  rw [content_copy _ _ (by omega)]
  exact hcontent

/-- The rest of a call when both bytes have correct parity. -/
theorem dispatch_agrees (callback : XdsPacket → Bool) (h : Agrees s)
    (own : 1 ≤ c1 ∧ c1 ≤ 0x0E → OwnElement s c1 c2) (room : 0x20 ≤ c1 → HasRoom s.xd) :
    ∃ o, dispatch callback s.xd c1 c2 = some o ∧ Agrees ⟨o.xd, s.reception.dispatch c1 c2⟩ ∧
      ∀ p ∈ o.delivered, Delivery s.reception p := by
  simp only [dispatch, Reception.dispatch]
  by_cases hstuffing : c1 = 0
  · rw [if_pos hstuffing, if_pos hstuffing]
    exact ⟨_, rfl, h, fun p hp => by cases hp⟩
  rw [if_neg hstuffing, if_neg hstuffing]
  by_cases hheader : c1 ≤ 0x0E
  · obtain ⟨t, ht, hagrees⟩ := header_agrees h (own ⟨by omega, hheader⟩)
    rw [if_pos hheader, if_pos hheader, ht]
    exact ⟨_, rfl, hagrees, fun p hp => by cases hp⟩
  rw [if_neg hheader, if_neg hheader]
  have hstopped : s.xd.currSp = none → Agrees ⟨s.xd, { s.reception with current := none }⟩ :=
    fun hcur => agrees_none (stored_current h.toStored none) hcur rfl
  by_cases hend : c1 = 0x0F
  · rw [if_pos hend, if_pos (by omega)]
    cases hcur : s.xd.currSp with
    | none => exact ⟨_, rfl, hstopped hcur, fun p hp => by cases hp⟩
    | some n => exact terminator_agrees callback h hcur c1 c2
  rw [if_neg hend]
  by_cases hcaption : c1 ≤ 0x1F
  · rw [if_pos hcaption, if_pos hcaption]
    have hstored : Stored { s.xd with currSp := none } s.reception := ⟨h.owners, h.elements⟩
    exact ⟨_, rfl, agrees_none (stored_current hstored none) rfl rfl, fun p hp => by cases hp⟩
  rw [if_neg hcaption, if_neg hcaption]
  cases hcur : s.xd.currSp with
  | some n =>
    obtain ⟨t, ht, hagrees⟩ := contents_agrees h hcur (room (by omega)) c1 c2
    dsimp only
    rw [ht]
    exact ⟨_, rfl, hagrees, fun p hp => by cases hp⟩
  | none =>
    refine ⟨_, rfl, ?_, fun p hp => by cases hp⟩
    cases hcurrent : s.reception.current with
    | none =>
      have hsame : s.reception.contents c1 c2 = s.reception := by
        simp only [Reception.contents, hcurrent]
      rw [hsame]
      exact h
    | some key =>
      -- the packet the record takes for current has no element
      have hempty := h.unselected hcur key hcurrent
      rw [contents_current hcurrent]
      refine ⟨⟨h.owners, ?_⟩, fun n hn => ?_, fun _ other hother => ?_⟩
      · intro n sp hsp
        by_cases howner : s.reception.owner n = some key
        · exact Or.inl (hempty n sp howner hsp)
        · rcases h.elements n sp hsp with hzero | hholds
          · exact Or.inl hzero
          · obtain ⟨other, hother, hcontent⟩ := hholds.owned
            have hne : other ≠ key := by
              rintro rfl
              exact howner hother
            refine Or.inr ⟨hholds.low, hholds.high, other, hother, ?_⟩
            dsimp only
            rw [Function.update_of_ne hne]
            exact hcontent
      · have hsome : s.xd.currSp = some n := hn
        rw [hcur] at hsome
        cases hsome
      · cases hother
        exact hempty

theorem feed_agrees (callback : XdsPacket → Bool) (h : Agrees s) {pair : UInt8 × UInt8}
    (harmless : Harmless s pair) :
    ∃ o, feed callback s.xd pair = some o ∧ Agrees ⟨o.xd, s.reception.receive pair⟩ ∧
      ∀ p ∈ o.delivered, Delivery s.reception p := by
  simp only [feed, Reception.receive]
  by_cases herror : vbiUnpar8 pair.1 < 0 ∨ vbiUnpar8 pair.2 < 0
  · obtain ⟨t, ht, hcur, -, hstored⟩ := discard_agrees h
    rw [if_pos herror, if_pos herror, ht]
    exact ⟨_, rfl, agrees_none (stored_current hstored none) hcur rfl, fun p hp => by cases hp⟩
  · rw [if_neg herror, if_neg herror]
    rw [not_or, Int.not_lt, Int.not_lt] at herror
    obtain ⟨hown, hroom⟩ := harmless herror.1 herror.2
    exact dispatch_agrees callback h (fun hc => hown (by omega)) (fun hc => hroom (by omega))

def CurrentInBounds (xd : Demux) : Prop :=
  ∀ n ∈ xd.currSp, n < vbiXdsMaxClasses * vbiXdsMaxSubclasses

theorem agrees_inBounds (h : Agrees s) : CurrentInBounds s.xd := by
  intro n hn
  obtain ⟨sp, hsp, -⟩ := (h.selected n hn).element
  exact (Vector.getElem?_eq_some_iff.mp hsp).1

/-- In every run of harmless pairs no store leaves its buffer, the current
subpacket is an element of the table, and the callback gets 1 to 32 bytes,
those which were received since the start code of the packet. -/
theorem xds_demux_in_bounds (callback : XdsPacket → Bool) (xd : Demux)
    (pairs : List (UInt8 × UInt8))
    (harmless : Permitted (step callback) Harmless ⟨reset xd, .none⟩ pairs) :
    ∃ s, run (step callback) ⟨reset xd, .none⟩ pairs = some s ∧ CurrentInBounds s.xd ∧
      s.reception = pairs.foldl Reception.receive .none ∧
      ∀ pair, Harmless s pair → ∃ o, feed callback s.xd pair = some o ∧
        ∀ p ∈ o.delivered, Delivery (pairs.foldl Reception.receive .none) p := by
  obtain ⟨s, hrun, hagrees, hrecord⟩ := run_simulates Reception.receive
    (fun s r => Agrees s ∧ s.reception = r)
    (fun s r pair hs hok => by
      obtain ⟨hagrees, rfl⟩ := hs
      obtain ⟨o, ho, hnext, -⟩ := feed_agrees callback hagrees hok
      exact ⟨_, by simp only [step, ho, Option.map_some], hnext, rfl⟩)
    ⟨reset_agrees xd, rfl⟩ harmless
  refine ⟨s, hrun, agrees_inBounds hagrees, hrecord, ?_⟩
  intro pair hpair
  obtain ⟨o, ho, -, hdelivered⟩ := feed_agrees callback hagrees hpair
  rw [← hrecord]
  exact ⟨o, ho, hdelivered⟩

/-- A packet of class 0, type 1, interrupted by one of type 2. -/
theorem xds_demux_in_bounds_interleaved :
    ∃ s, run (step fun _ => true) ⟨reset zero, .none⟩ [(0x01, 0x01), (0xC1, 0xC2),
        (0x01, 0x02), (0x43, 0xC4), (0x02, 0x01)] = some s ∧ CurrentInBounds s.xd ∧
      s.reception = [(0x01, 0x01), (0xC1, 0xC2), (0x01, 0x02), (0x43, 0xC4),
        (0x02, 0x01)].foldl Reception.receive .none ∧
      ∀ pair, Harmless s pair → ∃ o, feed (fun _ => true) s.xd pair = some o ∧
        ∀ p ∈ o.delivered, Delivery ([(0x01, 0x01), (0xC1, 0xC2), (0x01, 0x02),
          (0x43, 0xC4), (0x02, 0x01)].foldl Reception.receive .none) p :=
  xds_demux_in_bounds _ _ _ (by decide +kernel)

/-- A pair for a packet of 31 bytes leaves the buffer. A packet of type 0x10
continued behind a packet of type 0x40 is delivered with the bytes of the
latter. -/
theorem xds_demux_out_of_bounds :
    (∃ s, run (step fun _ => true) ⟨reset zero, .none⟩ ((0x01, 0x01) ::
        List.replicate 15 (0x20, 0x20) ++ [(0x20, 0x80)]) = some s ∧
      feed (fun _ => true) s.xd (0x20, 0x20) = none) ∧
    ∃ s, run (step fun _ => true) ⟨reset zero, .none⟩ [(0x01, 0x10), (0xC1, 0xC2),
        (0x01, 0x40), (0x43, 0xC4), (0x02, 0x10)] = some s ∧
      ∃ o, feed (fun _ => true) s.xd (0x8F, 0x29) = some o ∧
        ∃ p ∈ o.delivered, ¬ Delivery s.reception p := by
  constructor
  · have hfault : ((run (step fun _ => true) ⟨reset zero, .none⟩ ((0x01, 0x01) ::
        List.replicate 15 (0x20, 0x20) ++ [(0x20, 0x80)])).any fun s =>
        (feed (fun _ => true) s.xd (0x20, 0x20)).isNone) = true := by
      decide +kernel
    obtain ⟨s, hs, hnone⟩ := (Option.any_eq_true _ _).mp hfault
    exact ⟨s, hs, Option.isNone_iff_eq_none.mp hnone⟩
  · have hmixed : ((run (step fun _ => true) ⟨reset zero, .none⟩ [(0x01, 0x10), (0xC1, 0xC2),
        (0x01, 0x40), (0x43, 0xC4), (0x02, 0x10)]).any fun s =>
        (feed (fun _ => true) s.xd (0x8F, 0x29)).any fun o => o.delivered.any fun p =>
          content p.buffer p.bufferSize !=
            s.reception.received (p.xdsClass, p.xdsSubclass)) = true := by
      decide +kernel
    obtain ⟨s, hs, hmixed⟩ := (Option.any_eq_true _ _).mp hmixed
    obtain ⟨o, ho, hmixed⟩ := (Option.any_eq_true _ _).mp hmixed
    obtain ⟨p, hp, hmixed⟩ := (Option.any_eq_true _ _).mp hmixed
    refine ⟨s, hs, o, ho, p, hp, fun h => ?_⟩
    rw [h.2.2, bne_self_eq_false] at hmixed
    cases hmixed

end XdsReception

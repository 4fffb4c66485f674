import Mathlib.Data.List.Chain
import Zvbi.Cc608Decoder

/-!
# Repeated caption control codes

Control codes are transmitted twice, and the decoder acts upon one of them. The pairs
of a field only touch the channels of this field. So it is enough to follow the pairs
of one field, and to compare the decoder which received a control code once with the
one which received it twice.
-/

namespace Cc608Repeat
open Hamming Cc608Decoder Cc608Decoder.Decoder

structure SameField (f : FieldNum) (d d' : Decoder) : Prop where
  channel : ∀ k, k.field = f → d.channel k = d'.channel k
  currChNum : d.currChNum f = d'.currChNum f

variable {k : ChannelNum}

namespace SameField

variable {f g : FieldNum} {d d' d'' : Decoder}

theorem refl (f : FieldNum) (d : Decoder) : SameField f d d := ⟨fun _ _ => rfl, rfl⟩

theorem symm (h : SameField f d d') : SameField f d' d :=
  ⟨fun k hk => (h.channel k hk).symm, h.currChNum.symm⟩

theorem trans (h : SameField f d d') (h' : SameField f d' d'') : SameField f d d'' :=
  ⟨fun k hk => (h.channel k hk).trans (h'.channel k hk), h.currChNum.trans h'.currChNum⟩

theorem setExpect (h : SameField f d d') (e e' : Option (Int × Int)) (g g' : FieldNum) :
    SameField f (d.setExpect g e) (d'.setExpect g' e') := ⟨h.channel, h.currChNum⟩

theorem setXds (h : SameField f d d') (b b' : Bool) (g g' : FieldNum) :
    SameField f (d.setXds g b) (d'.setXds g' b') := ⟨h.channel, h.currChNum⟩

theorem remember (h : SameField f d d') (b b' : Bool) :
    SameField f (d.remember b) (d'.remember b') := ⟨h.channel, h.currChNum⟩

theorem onChannel (h : SameField f d d') (hk : k.field = f) (act : Channel → Channel) :
    SameField f (d.onChannel k act) (d'.onChannel k act) := by
  refine ⟨fun j hj => ?_, h.currChNum⟩
  by_cases hjk : j = k
  · subst hjk
    simp only [Decoder.onChannel, Function.update_self, h.channel j hj]
  · simp only [Decoder.onChannel, Function.update_of_ne hjk, h.channel j hj]

theorem switchChannel (h : SameField f d d') (k : ChannelNum) :
    SameField f (d.switchChannel k f) (d'.switchChannel k f) := by
  refine ⟨h.channel, ?_⟩
  simp only [Decoder.switchChannel, Function.update_self]

theorem onActive (h : SameField f d d') (hk : k.field = f) (act : Channel → Channel) :
    SameField f (d.onActive k f act) (d'.onActive k f act) := by
  have hactive : d.active k f = d'.active k f := by
    rw [active, active, h.currChNum, h.channel k hk]
  rw [Decoder.onActive, Decoder.onActive, hactive]
  split
  · exact h.onChannel hk act
  · exact h

theorem controlChannel (h : SameField f d d') (c1 : Nat) :
    d.controlChannel c1 f = d'.controlChannel c1 f := by
  rw [Decoder.controlChannel, Decoder.controlChannel, h.currChNum]

theorem miscControlCode (h : SameField f d d') (hk : k.field = f) (c2 : Nat) :
    SameField f (d.miscControlCode k c2 f) (d'.miscControlCode k c2 f) := by
  have hcaption : ({ k with text := false } : ChannelNum).field = f := hk
  have htext : ({ k with text := true } : ChannelNum).field = f := hk
  rw [Decoder.miscControlCode, Decoder.miscControlCode]
  split
  all_goals first
    | exact (h.switchChannel _).onChannel hcaption _
    | exact (h.switchChannel _).onChannel htext _
    | exact h.onActive hk _
    | exact h.onChannel hcaption _
    | exact h.switchChannel _
    | exact h
    | rw [h.currChNum]
  split
  · exact h.onChannel hk _
  · exact h

theorem controlCode (h : SameField f d d') (c1 c2 : Nat) :
    SameField f (d.controlCode c1 c2 f) (d'.controlCode c1 c2 f) := by
  have hk : (d'.controlChannel c1 f).field = f := rfl
  rw [Decoder.controlCode, Decoder.controlCode, h.controlChannel, h.currChNum]
  generalize d'.controlChannel c1 f = k at hk
  split
  · split
    · exact h.onChannel hk _
    · exact h
  split
  all_goals first
    | exact h.onActive hk _
    | exact h
    | skip
  all_goals
    split
    · first
        | exact h.onActive hk _
        | exact h.miscControlCode hk c2
    · exact h

theorem feedCharacters (h : SameField f d d') (c1 c2 : Int) :
    SameField f (d.feedCharacters c1 c2 f).1 (d'.feedCharacters c1 c2 f).1 := by
  rw [Decoder.feedCharacters, Decoder.feedCharacters, characterChannel, characterChannel,
    h.currChNum]
  cases d'.currChNum f with
  | none => exact h
  | some k =>
    have hk : ({ k with field := f } : ChannelNum).field = f := rfl
    simp only [Option.map_some, h.channel _ hk]
    exact h.onChannel hk _

end SameField

variable {f g : FieldNum}

/-- A decoder which differs from `d` only in what belongs to field `f`. -/
structure Frame (f : FieldNum) (d d' : Decoder) : Prop where
  same : ∀ g, g ≠ f → SameField g d d'
  expect : ∀ g, g ≠ f → d'.expectCtrl g = d.expectCtrl g

namespace Frame

variable {d d' d'' : Decoder}

theorem refl (f : FieldNum) (d : Decoder) : Frame f d d :=
  ⟨fun g _ => SameField.refl g d, fun _ _ => rfl⟩

theorem trans (h : Frame f d d') (h' : Frame f d' d'') : Frame f d d'' :=
  ⟨fun g hg => (h.same g hg).trans (h'.same g hg),
    fun g hg => (h'.expect g hg).trans (h.expect g hg)⟩

theorem onChannel (d : Decoder) (hk : k.field = f) (act : Channel → Channel) :
    Frame f d (d.onChannel k act) := by
  refine ⟨fun g hg => ⟨fun j hj => ?_, rfl⟩, fun _ _ => rfl⟩
  have hjk : j ≠ k := by
    rintro rfl
    exact hg (hj.symm.trans hk)
  simp only [Decoder.onChannel, Function.update_of_ne hjk]

theorem switchChannel (d : Decoder) (k : ChannelNum) (f : FieldNum) :
    Frame f d (d.switchChannel k f) := by
  refine ⟨fun g hg => ⟨fun _ _ => rfl, ?_⟩, fun _ _ => rfl⟩
  simp only [Decoder.switchChannel, Function.update_of_ne hg]

theorem onActive (d : Decoder) (hk : k.field = f) (act : Channel → Channel) :
    Frame f d (d.onActive k f act) := by
  rw [Decoder.onActive]
  split
  · exact onChannel d hk act
  · exact refl f d

theorem setExpect (d : Decoder) (f : FieldNum) (e : Option (Int × Int)) :
    Frame f d (d.setExpect f e) := by
  refine ⟨fun _ _ => ⟨fun _ _ => rfl, rfl⟩, fun g hg => ?_⟩
  simp only [Decoder.setExpect, Function.update_of_ne hg]

theorem setXds (d : Decoder) (f g : FieldNum) (b : Bool) : Frame f d (d.setXds g b) :=
  ⟨fun _ _ => ⟨fun _ _ => rfl, rfl⟩, fun _ _ => rfl⟩

theorem remember (d : Decoder) (f : FieldNum) (b : Bool) : Frame f d (d.remember b) :=
  ⟨fun _ _ => ⟨fun _ _ => rfl, rfl⟩, fun _ _ => rfl⟩

theorem miscControlCode (d : Decoder) (hk : k.field = f) (c2 : Nat) :
    Frame f d (d.miscControlCode k c2 f) := by
  have hcaption : ({ k with text := false } : ChannelNum).field = f := hk
  have htext : ({ k with text := true } : ChannelNum).field = f := hk
  rw [Decoder.miscControlCode]
  split
  all_goals first
    | exact (switchChannel d _ f).trans (onChannel _ hcaption _)
    | exact (switchChannel d _ f).trans (onChannel _ htext _)
    | exact onActive d hk _
    | exact onChannel d hcaption _
    | exact switchChannel d _ f
    | exact refl f d
    | skip
  split
  · exact onChannel d hk _
  · exact refl f d

theorem controlCode (d : Decoder) (c1 c2 : Nat) : Frame f d (d.controlCode c1 c2 f) := by
  have hk : (d.controlChannel c1 f).field = f := rfl
  rw [Decoder.controlCode]
  generalize d.controlChannel c1 f = k at hk
  split
  · split
    · exact onChannel d hk _
    · exact refl f d
  split
  all_goals first
    | exact onActive d hk _
    | exact refl f d
    | skip
  all_goals
    split
    · first
        | exact onActive d hk _
        | exact miscControlCode d hk c2
    · exact refl f d

theorem feedCharacters (d : Decoder) (c1 c2 : Int) : Frame f d (d.feedCharacters c1 c2 f).1 := by
  rw [Decoder.feedCharacters, characterChannel]
  cases d.currChNum f with
  | none => exact refl f d
  | some k =>
    have hk : ({ k with field := f } : ChannelNum).field = f := rfl
    dsimp only [Option.map_some]
    exact onChannel d hk _

theorem feedField (d : Decoder) (c1 c2 : Int) : Frame f d (d.feedField c1 c2 f).1 := by
  have hnone := setExpect d f none
  rw [Decoder.feedField]
  dsimp only
  split
  · exact hnone
  split
  · exact hnone
  split
  · split
    · exact (setXds d f f false).trans (setExpect _ f none)
    · exact (setXds d f f false).trans ((controlCode _ _ _).trans (setExpect _ f _))
  split
  · split
    · exact hnone.trans (feedCharacters _ _ _)
    split
    · exact hnone.trans (setXds _ f _ _)
    split
    · exact hnone.trans (setXds _ f _ _)
    · exact hnone.trans (feedCharacters _ _ _)
  · exact hnone.trans (feedCharacters _ _ _)

end Frame

abbrev Pair := UInt8 × UInt8

/-- Byte pairs and the lines they were received on. -/
abbrev Stream := List (Pair × Nat)

def decode (p : Pair) : Int × Int := (vbiUnpar8 p.1, vbiUnpar8 p.2)

def IsControl (p : Pair) : Prop :=
  0x10 ≤ (decode p).1 ∧ (decode p).1 < 0x20 ∧ 0 ≤ (decode p).2

instance (p : Pair) : Decidable (IsControl p) :=
  inferInstanceAs (Decidable (_ ∧ _ ∧ _))

def Damaged (p copy : Pair) : Prop :=
  (decode copy).1 < 0 ∧ (copy.2 = p.2 ∨ (decode copy).2 < 0) ∨
    copy.1 = p.1 ∧ (decode copy).2 < 0

/-- The second list has each control code of the first one twice, where one of the
copies may be damaged. -/
inductive Repeated : List Pair → List Pair → Prop
  | nil : Repeated [] []
  | other {p s t} (h : ¬ IsControl p) (rest : Repeated s t) : Repeated (p :: s) (p :: t)
  | both {p s t} (h : IsControl p) (rest : Repeated s t) : Repeated (p :: s) (p :: p :: t)
  | first {p copy s t} (h : IsControl p) (damaged : Damaged p copy) (rest : Repeated s t) :
      Repeated (p :: s) (copy :: p :: t)
  | second {p copy s t} (h : IsControl p) (damaged : Damaged p copy) (rest : Repeated s t) :
      Repeated (p :: s) (p :: copy :: t)

/-- No control code is followed by the same code. -/
def Distinct (pairs : List Pair) : Prop :=
  pairs.IsChain fun p q => IsControl p → decode q ≠ decode p

def pairsOf (f : FieldNum) (s : Stream) : List Pair :=
  (s.filter fun x => lineField x.2 = some f).map Prod.fst

def feedStream (d : Decoder) (s : Stream) : Decoder :=
  s.foldl (fun d x => (d.feed x.1 x.2).1) d

def feedPairs (f : FieldNum) (d : Decoder) (pairs : List Pair) : Decoder :=
  pairs.foldl (fun d p => (d.feedField (decode p).1 (decode p).2 f).1) d

theorem controlCode_expectCtrl (d : Decoder) (c1 c2 : Nat) (e : Option (Int × Int)) :
    ((d.controlCode c1 c2 f).setExpect f e).expectCtrl f = e := by
  simp only [Decoder.setExpect, Function.update_self]

theorem feedCharacters_expectCtrl (d : Decoder) (c1 c2 : Int) :
    (d.feedCharacters c1 c2 f).1.expectCtrl = d.expectCtrl := by
  rw [Decoder.feedCharacters]
  split <;> rfl

/-- A pair which is not a repetition leads to the same channels, and to the same code
which may be repeated. -/
theorem feedField_act {d d' : Decoder} (h : SameField f d d') {c1 c2 : Int}
    (hd : d.expectCtrl f ≠ some (c1, c2)) (hd' : d'.expectCtrl f ≠ some (c1, c2)) :
    SameField f (d.feedField c1 c2 f).1 (d'.feedField c1 c2 f).1 ∧
      (d.feedField c1 c2 f).1.expectCtrl f = (d'.feedField c1 c2 f).1.expectCtrl f := by
  have hnone : ∀ d : Decoder, (d.setExpect f none).expectCtrl f = none := by
    intro d
    simp only [Decoder.setExpect, Function.update_self]
  have hsame := h.setExpect none none f f
  rw [feedField, feedField, if_neg hd, if_neg hd']
  dsimp only
  split
  · exact ⟨hsame, (hnone d).trans (hnone d').symm⟩
  split
  · split
    · exact ⟨(h.setXds false false f f).setExpect none none f f,
        (hnone _).trans (hnone _).symm⟩
    · refine ⟨((h.setXds false false f f).controlCode _ _).setExpect _ _ f f, ?_⟩
      rw [controlCode_expectCtrl, controlCode_expectCtrl]
  have hcharacters : ∀ c, SameField f ((d.setExpect f none).feedCharacters c c2 f).1
        ((d'.setExpect f none).feedCharacters c c2 f).1 ∧
      ((d.setExpect f none).feedCharacters c c2 f).1.expectCtrl f =
        ((d'.setExpect f none).feedCharacters c c2 f).1.expectCtrl f := by
    intro c
    refine ⟨hsame.feedCharacters c c2, ?_⟩
    rw [feedCharacters_expectCtrl, feedCharacters_expectCtrl, hnone, hnone]
  split
  · split
    · exact hcharacters 0
    split
    · exact ⟨hsame.setXds false false _ _, (hnone d).trans (hnone d').symm⟩
    split
    · exact ⟨hsame.setXds true true _ _, (hnone d).trans (hnone d').symm⟩
    · exact hcharacters c1
  · exact hcharacters c1

theorem feedField_congr {d d' : Decoder} (h : SameField f d d')
    (hexpect : d.expectCtrl f = d'.expectCtrl f) (c1 c2 : Int) :
    SameField f (d.feedField c1 c2 f).1 (d'.feedField c1 c2 f).1 ∧
      (d.feedField c1 c2 f).1.expectCtrl f = (d'.feedField c1 c2 f).1.expectCtrl f := by
  by_cases hd : d.expectCtrl f = some (c1, c2)
  · have hd' := hexpect ▸ hd
    have hstop : ∀ d : Decoder, d.expectCtrl f = some (c1, c2) →
        (d.feedField c1 c2 f).1 = d.setExpect f none := by
      intro d hd
      rw [feedField]
      dsimp only
      split
      · rfl
      · rfl
    rw [hstop d hd, hstop d' hd']
    refine ⟨h.setExpect none none f f, ?_⟩
    simp only [Decoder.setExpect, Function.update_self]
  · exact feedField_act h hd (hexpect ▸ hd)

variable {p : Pair}

/-- The pair is a control code which may be repeated from now on. -/
theorem feedField_expect {d : Decoder} {e : Int × Int}
    (h : (d.feedField (decode p).1 (decode p).2 f).1.expectCtrl f = some e) :
    IsControl p ∧ e = decode p := by
  have hnone : ∀ d : Decoder, (d.setExpect f none).expectCtrl f = none := by
    intro d
    simp only [Decoder.setExpect, Function.update_self]
  rw [feedField] at h
  dsimp only at h
  split at h
  · rw [hnone] at h
    cases h
  split at h
  · rw [hnone] at h
    cases h
  split at h
  · rename_i hrange
    split at h
    · rw [hnone] at h
      cases h
    · rw [controlCode_expectCtrl] at h
      cases h
      exact ⟨⟨hrange.1, hrange.2, by omega⟩, rfl⟩
  have hcharacters : ∀ c, ((d.setExpect f none).feedCharacters c (decode p).2 f).1.expectCtrl f ≠
      some e := by
    intro c
    rw [feedCharacters_expectCtrl, hnone]
    exact Option.some_ne_none e |>.symm
  have hxds : ∀ g b, ((d.setExpect f none).setXds g b).expectCtrl f ≠ some e := by
    intro g b
    change (d.setExpect f none).expectCtrl f ≠ some e
    rw [hnone]
    exact Option.some_ne_none e |>.symm
  split at h
  · split at h
    · exact absurd h (hcharacters 0)
    split at h
    · exact absurd h (hxds _ _)
    split at h
    · exact absurd h (hxds _ _)
    · exact absurd h (hcharacters _)
  · exact absurd h (hcharacters _)

theorem feedField_damaged (d : Decoder) {copy : Pair} (h : IsControl p) (hcopy : Damaged p copy) :
    SameField f d (d.feedField (decode copy).1 (decode copy).2 f).1 ∧
      (d.feedField (decode copy).1 (decode copy).2 f).1.expectCtrl f = none := by
  have hnone : ∀ d : Decoder, (d.setExpect f none).expectCtrl f = none := by
    intro d
    simp only [Decoder.setExpect, Function.update_self]
  have hsame : SameField f d (d.setExpect f none) := ⟨fun _ _ => rfl, rfl⟩
  rw [feedField]
  dsimp only
  split
  · exact ⟨hsame, hnone d⟩
  split
  · exact ⟨hsame, hnone d⟩
  rename_i hgood _
  rcases hcopy with ⟨hbad, -⟩ | ⟨hsecond, hbad⟩
  · exact absurd hbad hgood
  · have hrange : 0x10 ≤ (decode copy).1 ∧ (decode copy).1 < 0x20 := by
      rw [decode, hsecond]
      exact ⟨h.1, h.2.1⟩
    rw [if_pos hrange, if_pos (by omega)]
    exact ⟨⟨fun _ _ => rfl, rfl⟩, hnone _⟩

/-- The second copy of a control code has no effect. -/
theorem feedField_again (d : Decoder) (h : IsControl p) (hd : d.expectCtrl f ≠ some (decode p)) :
    SameField f (d.feedField (decode p).1 (decode p).2 f).1
        (feedPairs f d [p, p]) ∧ (feedPairs f d [p, p]).expectCtrl f = none := by
  have hnone : ∀ d : Decoder, (d.setExpect f none).expectCtrl f = none := by
    intro d
    simp only [Decoder.setExpect, Function.update_self]
  obtain ⟨hlow, hhigh, hgood⟩ := h
  have hfirst : ¬ (decode p).1 < 0 := by omega
  change SameField f _ (Decoder.feedField (d.feedField _ _ f).1 _ _ f).1 ∧
    (Decoder.feedField (d.feedField _ _ f).1 _ _ f).1.expectCtrl f = none
  by_cases hinvalid : (decode p).2 < 0x20
  · have honce : ∀ d : Decoder, d.expectCtrl f ≠ some (decode p) →
        (d.feedField (decode p).1 (decode p).2 f).1 = (d.setXds f false).setExpect f none := by
      intro d hd
      rw [feedField, if_neg hfirst, if_neg hd, if_pos ⟨hlow, hhigh⟩, if_pos hinvalid]
    rw [honce d hd, honce _ (by rw [hnone]; exact (Option.some_ne_none _).symm)]
    exact ⟨⟨fun _ _ => rfl, rfl⟩, hnone _⟩
  · have hexpect : (d.feedField (decode p).1 (decode p).2 f).1.expectCtrl f = some (decode p) := by
      rw [feedField, if_neg hfirst, if_neg hd, if_pos ⟨hlow, hhigh⟩, if_neg hinvalid]
      exact controlCode_expectCtrl _ _ _ _
    generalize (d.feedField (decode p).1 (decode p).2 f).1 = d' at hexpect
    rw [feedField, if_neg hfirst, if_pos hexpect]
    exact ⟨⟨fun _ _ => rfl, rfl⟩, hnone _⟩

/-- A pair which is no repetition for one decoder is none for the other. -/
theorem not_expected {d d' : Decoder}
    (h : d'.expectCtrl f = d.expectCtrl f ∨ d'.expectCtrl f = none)
    (hp : d.expectCtrl f ≠ some (decode p)) : d'.expectCtrl f ≠ some (decode p) := by
  rcases h with heq | heq
  · rwa [heq]
  · rw [heq]
    exact (Option.some_ne_none _).symm

/-- After a pair of the original stream the next one is no repetition. -/
theorem next_not_expected {rest : List Pair} (h : Distinct (p :: rest)) {d : Decoder} (q : Pair)
    (hq : rest.head? = some q) :
    (d.feedField (decode p).1 (decode p).2 f).1.expectCtrl f ≠ some (decode q) := by
  intro hp
  obtain ⟨hcontrol, heq⟩ := feedField_expect hp
  obtain ⟨tail, rfl⟩ := List.head?_eq_some_iff.mp hq
  exact (List.isChain_cons_cons.mp h).1 hcontrol heq

/-- Receiving control codes twice leads to the same channels. -/
theorem repeated_pairs {s t : List Pair} (h : Repeated s t) (hs : Distinct s) {d d' : Decoder}
    (hsame : SameField f d d')
    (hexpect : d'.expectCtrl f = d.expectCtrl f ∨ d'.expectCtrl f = none)
    (hnext : ∀ p, s.head? = some p → d.expectCtrl f ≠ some (decode p)) :
    SameField f (feedPairs f d s) (feedPairs f d' t) := by
  induction h generalizing d d' with
  | nil => exact hsame
  | @other p s t _ rest ih =>
    have hp := hnext p rfl
    obtain ⟨hstep, hcode⟩ := feedField_act hsame hp (not_expected hexpect hp)
    exact ih hs.tail hstep (Or.inl hcode.symm) (next_not_expected hs)
  | @both p s t control rest ih =>
    have hp := hnext p rfl
    have hp' := not_expected hexpect hp
    obtain ⟨hstep, -⟩ := feedField_act hsame hp hp'
    obtain ⟨hagain, hnone⟩ := feedField_again d' control hp'
    exact ih hs.tail (hstep.trans hagain) (Or.inr hnone) (next_not_expected hs)
  | @first p copy s t control damaged rest ih =>
    have hp := hnext p rfl
    obtain ⟨hskip, hnone⟩ := feedField_damaged d' control damaged
    have hp' := not_expected (p := p) (Or.inr hnone) hp
    obtain ⟨hstep, hcode⟩ := feedField_act (hsame.trans hskip) hp hp'
    exact ih hs.tail hstep (Or.inl hcode.symm) (next_not_expected hs)
  | @second p copy s t control damaged rest ih =>
    have hp := hnext p rfl
    obtain ⟨hstep, -⟩ := feedField_act hsame hp (not_expected hexpect hp)
    obtain ⟨hskip, hnone⟩ := feedField_damaged _ control damaged
    exact ih hs.tail (hstep.trans hskip) (Or.inr hnone) (next_not_expected hs)

/-- The channels of a field are those its own pairs lead to. -/
theorem feedStream_field (s : Stream) {d d' : Decoder} (h : SameField f d d')
    (hexpect : d.expectCtrl f = d'.expectCtrl f) :
    SameField f (feedStream d s) (feedPairs f d' (pairsOf f s)) := by
  induction s generalizing d d' with
  | nil => exact h
  | cons x s ih =>
    obtain ⟨p, line⟩ := x
    by_cases hline : lineField line = some f
    · have hpairs : pairsOf f ((p, line) :: s) = p :: pairsOf f s := by
        simp only [pairsOf, List.filter_cons, hline, decide_true, if_true, List.map_cons]
      have hfeed : (d.feed p line).1 =
          (d.feedField (decode p).1 (decode p).2 f).1.remember
            (d.feedField (decode p).1 (decode p).2 f).2 := by
        rw [feed, hline]
        rfl
      rw [hpairs]
      change SameField f (feedStream (d.feed p line).1 s)
        (feedPairs f (d'.feedField (decode p).1 (decode p).2 f).1 (pairsOf f s))
      rw [hfeed]
      obtain ⟨hsame, hcode⟩ := feedField_congr h hexpect (decode p).1 (decode p).2
      exact ih (hsame.remember _ true |>.trans ⟨fun _ _ => rfl, rfl⟩) hcode
    · have hpairs : pairsOf f ((p, line) :: s) = pairsOf f s := by
        simp only [pairsOf, List.filter_cons, hline, decide_false, Bool.false_eq_true, if_false]
      rw [hpairs]
      change SameField f (feedStream (d.feed p line).1 s) _
      rw [feed]
      cases hfield : lineField line with
      | none => exact ih h hexpect
      | some g =>
        have hne : f ≠ g := by
          rintro rfl
          exact hline hfield
        have hframe := (Frame.feedField d (decode p).1 (decode p).2 (f := g)).trans
          (Frame.remember _ g (d.feedField (decode p).1 (decode p).2 g).2)
        exact ih ((hframe.same f hne).symm.trans h) ((hframe.expect f hne).trans hexpect)

/-- The state of all channels, and the current channel of each field. -/
def SameChannels (d d' : Decoder) : Prop :=
  d.channel = d'.channel ∧ d.currChNum = d'.currChNum

/-- A stream leads to the same channels if each control code is transmitted twice on its
field and one copy of it may be damaged, with any pairs of the other field in between. -/
theorem repeated_stream (d : Decoder) (s t : Stream)
    (hrepeated : ∀ f, Repeated (pairsOf f s) (pairsOf f t))
    (hdistinct : ∀ f, Distinct (pairsOf f s)) :
    SameChannels (feedStream d.reset s) (feedStream d.reset t) := by
  have hfield : ∀ f, SameField f (feedStream d.reset s) (feedStream d.reset t) := by
    intro f
    have hs := feedStream_field s (SameField.refl f d.reset) rfl
    have ht := feedStream_field t (SameField.refl f d.reset) rfl
    have hpairs := repeated_pairs (hrepeated f) (hdistinct f) (SameField.refl f d.reset)
      (Or.inl rfl) fun p _ => (Option.some_ne_none (decode p)).symm
    exact hs.trans (hpairs.trans ht.symm)
  constructor
  · funext k
    exact (hfield k.field).channel k rfl
  · funext f
    exact (hfield f).currChNum

def captionStream : Stream :=
  [((0x94, 0x20), 21), ((0x94, 0x29), 284), ((0xC8, 0x49), 21)]

def repeatedStream : Stream :=
  [((0x94, 0x20), 21), ((0x94, 0x29), 284), ((0x14, 0x20), 21), ((0x94, 0x29), 284),
    ((0xC8, 0x49), 21)]

theorem repeated_captionStream :
    SameChannels (feedStream init.reset captionStream) (feedStream init.reset repeatedStream) := by
  apply repeated_stream
  · intro f
    cases f with
    | field1 =>
      have hdamaged : Damaged (0x94, 0x20) (0x14, 0x20) := Or.inl ⟨by decide, Or.inl rfl⟩
      exact Repeated.second (by decide) hdamaged (Repeated.other (by decide) Repeated.nil)
    | field2 => exact Repeated.both (by decide) Repeated.nil
  · intro f
    cases f with
    | field1 =>
      refine List.isChain_cons_cons.mpr ⟨fun _ => by decide, List.isChain_singleton _⟩
    | field2 => exact List.isChain_singleton _

end Cc608Repeat

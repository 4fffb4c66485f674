import Zvbi.CaptionFrame

/-!
# The two fields of the caption decoder

The channels of a field, the command to compare repetitions with and the XDS state
change by pairs of this field only. What the fields share is the current channel: its
text and channel bits select the channel of both. A decoder in which the bits a pair
uses are those its own field left there decodes each field as if it was alone, until an
XDS packet of the second field switches the channel.
-/

namespace CaptionFields
open Hamming Caption CaptionFrame XdsSeparator GuardedRuns

/-- A call of `vbi_decode_caption()`. -/
abbrev Call := Nat × UInt8 × UInt8

def decode (d : Decoder) (c : Call) : Option Decoder := vbiDecodeCaption d c.1 c.2.1 c.2.2

def lineField (line : Nat) : Option Bool :=
  if line = 21 ∨ line = 22 then some false
  else if line = 284 ∨ line = 335 then some true
  else none

def pairsOf (field2 : Bool) (s : List Call) : List Call :=
  s.filter fun c => lineField c.1 = some field2

def InField (field2 : Bool) (k : Nat) : Prop := decide (k / 2 % 2 = 1) = field2

structure SameField (field2 : Bool) (d a : Decoder) : Prop where
  channel : ∀ k, InField field2 k → d.channel k = a.channel k
  last : field2 = false → d.last = a.last
  xds : field2 = true → d.xds = a.xds
  network : field2 = true → d.network = a.network

theorem inField_add (field2 : Bool) {text second : Nat} (ht : text = 0 ∨ text = 4)
    (hs : second < 2) : InField field2 (text + (if field2 then 2 else 0) + second) := by
  rw [InField]
  cases field2 with
  | false =>
    rw [if_neg Bool.false_ne_true]
    exact decide_eq_false (by omega)
  | true =>
    rw [if_pos rfl]
    exact decide_eq_true (by omega)

variable {chan : Nat} {b0 b1 : UInt8} {c : Call}

/-- The caption and the text channel of a command are in its field. -/
theorem inField_caption {field2 : Bool} (h : InField field2 chan) :
    InField field2 (chan % 4) := by
  rw [InField] at h ⊢
  rw [← h, decide_eq_decide]
  omega

theorem inField_text {field2 : Bool} (h : InField field2 chan) :
    InField field2 (chan % 4 + 4) := by
  rw [InField] at h ⊢
  rw [← h, decide_eq_decide]
  omega

theorem textBit (d : Decoder) : (if d.currChan / 4 % 2 = 1 then 4 else 0) = 0 ∨
    (if d.currChan / 4 % 2 = 1 then 4 else 0) = 4 := by
  split
  · exact Or.inr rfl
  · exact Or.inl rfl

theorem commandChannel_inField (d : Decoder) (c1 : Nat) (field2 : Bool) :
    InField field2 (commandChannel d c1 field2) :=
  inField_add field2 (textBit d) (Nat.mod_lt _ (by decide))

theorem characterChannel_inField (d : Decoder) (field2 : Bool) :
    InField field2 (characterChannel d field2) := by
  rw [characterChannel, Nat.add_right_comm]
  exact inField_add field2 (textBit d) (Nat.mod_lt _ (by decide))

variable {newChan : Nat} {call : Option DecoderCall} {consumed : Bool} {xds : Xds}
  {x : Decoder × Decoder} {s : List Call}

namespace SameField
variable {field2 : Bool} {d a : Decoder}

theorem refl (field2 : Bool) (d : Decoder) : SameField field2 d d :=
  ⟨fun _ _ => rfl, fun _ => rfl, fun _ => rfl, fun _ => rfl⟩

theorem setChannel (h : SameField field2 d a) (chan : Nat) (ch : Channel) :
    SameField field2 (Caption.setChannel d chan ch) (Caption.setChannel a chan ch) := by
  refine ⟨fun k hk => ?_, h.last, h.xds, h.network⟩
  show (if k = chan then ch else d.channel k) = if k = chan then ch else a.channel k
  rw [h.channel k hk]

theorem onChannel (h : SameField field2 d a) (hchan : InField field2 chan) (f : Channel → Channel) :
    SameField field2 (Caption.setChannel d chan (f (d.channel chan)))
      (Caption.setChannel a chan (f (a.channel chan))) := by
  rw [h.channel chan hchan]
  exact h.setChannel chan _

theorem select (h : SameField field2 d a) (chan chan' : Nat) :
    SameField field2 { d with currChan := chan } { a with currChan := chan' } :=
  ⟨h.channel, h.last, h.xds, h.network⟩

theorem switchChannel (h : SameField field2 d a) (hchan : InField field2 chan)
    (hnew : InField field2 newChan) (f : Channel → Channel) :
    SameField field2 (Caption.switchChannel d chan newChan f)
      (Caption.switchChannel a chan newChan f) :=
  ((h.onChannel hchan fun ch => wordBreak ch true).select newChan newChan).onChannel hnew f

theorem miscControl (h : SameField field2 d a) (hchan : InField field2 chan) (space : VbiChar)
    (c2 : Nat) :
    SameField field2 (Caption.miscControl d chan space c2)
      (Caption.miscControl a chan space c2) := by
  have hcaption := inField_caption hchan
  have htext := inField_text hchan
  unfold Caption.miscControl
  dsimp only
  split
  · exact h.switchChannel hchan hcaption _
  · exact h.switchChannel hchan hcaption _
  · exact h.switchChannel hchan hcaption _
  · exact h.switchChannel hchan hcaption _
  · exact h.switchChannel hchan hcaption _
  · exact h.switchChannel hchan htext _
  · exact h.switchChannel hchan htext _
  · exact h.switchChannel hchan hcaption _
  · exact h.onChannel hchan fun ch => { ch with attr := { ch.attr with flash := true } }
  · exact h.onChannel hchan fun ch => backspace ch space
  · exact h.onChannel hchan fun ch => carriageReturn ch space
  · exact h.onChannel hchan fun ch => deleteToEndOfRow ch space
  · exact h.onChannel hchan fun ch => eraseDisplayed ch space
  · exact h.onChannel hchan fun ch => eraseNonDisplayed ch space
  · exact h

theorem captionCommand (h : SameField field2 d a)
    (htext : d.currChan / 4 % 2 = a.currChan / 4 % 2) (c1 c2 : Nat) :
    SameField field2 (Caption.captionCommand d c1 c2 field2)
      (Caption.captionCommand a c1 c2 field2) := by
  have hselect : commandChannel d c1 field2 = commandChannel a c1 field2 := by
    rw [commandChannel, htext, commandChannel]
  have hchan : InField field2 (commandChannel a c1 field2) := commandChannel_inField a c1 field2
  unfold Caption.captionCommand
  rw [hselect]
  generalize commandChannel a c1 field2 = chan at hchan
  dsimp only
  split
  · exact h.onChannel hchan fun ch => preambleAddress ch _ (c1 % 8) c2
  split
  · exact h.onChannel hchan fun ch => backgroundAttr ch c2
  · exact h.onChannel hchan fun ch =>
      if c2 / 16 % 2 = 1 then specialCharacter ch _ c2 else midrowCode ch c2
  · exact h.miscControl hchan _ c2
  · exact h.miscControl hchan _ c2
  · exact h.onChannel hchan fun ch => tabsAndAttributes ch _ c2
  · exact h

end SameField

def IsText (b0 : UInt8) : Prop :=
  vbiUnpar8 b0 < 0 ∨ (b0 &&& 0x7F).toNat = 0 ∨ 0x20 ≤ (b0 &&& 0x7F).toNat

instance (b0 : UInt8) : Decidable (IsText b0) := inferInstanceAs (Decidable (_ ∨ _))

/-- The bits of `curr_chan` the pair uses are the same in both decoders. -/
def SameSelection (d a : Decoder) (field2 : Bool) (b0 b1 : UInt8) : Prop :=
  (0 ≤ vbiUnpar8 b0 ∧ (commandOf d field2 b0 b1).isSome ∨ IsText b0 →
    d.currChan / 4 % 2 = a.currChan / 4 % 2) ∧
  (IsText b0 → d.currChan % 2 = a.currChan % 2)

instance (d a : Decoder) (field2 : Bool) (b0 b1 : UInt8) :
    Decidable (SameSelection d a field2 b0 b1) := inferInstanceAs (Decidable (_ ∧ _))

namespace SameField
variable {field2 : Bool} {d a : Decoder}

theorem clearLast (h : SameField field2 d a) (f : Bool) :
    SameField field2 (Caption.clearLast d f) (Caption.clearLast a f) := by
  cases f with
  | true => exact h
  | false =>
    refine ⟨h.channel, fun hf => ?_, h.xds, h.network⟩
    show (0, d.last.2) = (0, a.last.2)
    rw [h.last hf]

theorem setLast (h : SameField field2 d a) (last : UInt8 × UInt8) :
    SameField field2 { d with last := last } { a with last := last } :=
  ⟨h.channel, fun _ => rfl, h.xds, h.network⟩

theorem commandOf_eq (h : SameField field2 d a) (b0 b1 : UInt8) :
    commandOf d field2 b0 b1 = commandOf a field2 b0 b1 := by
  cases field2 with
  | true => simp only [commandOf, true_or, and_true]
  | false => rw [commandOf, h.last rfl, commandOf]

theorem decodeBytes (h : SameField field2 d a)
    (hcommand : (commandOf d field2 b0 b1).isSome → d.currChan / 4 % 2 = a.currChan / 4 % 2)
    (htext : (b0 &&& 0x7F).toNat = 0 ∨ 0x20 ≤ (b0 &&& 0x7F).toNat →
      characterChannel d field2 = characterChannel a field2) :
    SameField field2 (Caption.decodeBytes d field2 b0 b1) (Caption.decodeBytes a field2 b0 b1) := by
  unfold Caption.decodeBytes
  dsimp only
  by_cases hxds : 0x01 ≤ (b0 &&& 0x7F).toNat ∧ (b0 &&& 0x7F).toNat ≤ 0x0F
  · rw [if_pos hxds, if_pos hxds]
    exact h.clearLast field2
  rw [if_neg hxds, if_neg hxds]
  by_cases hcode : 0x10 ≤ (b0 &&& 0x7F).toNat ∧ (b0 &&& 0x7F).toNat ≤ 0x1F
  · rw [if_pos hcode, if_pos hcode, ← h.commandOf_eq]
    cases hof : commandOf d field2 b0 b1 with
    | none => exact h.clearLast field2
    | some c =>
      have hdone := h.captionCommand (hcommand (by rw [hof]; rfl)) c.1 c.2
      dsimp only
      split
      · exact hdone
      · exact hdone.setLast (b0, b1)
  · rw [if_neg hcode, if_neg hcode, htext (by omega)]
    have hchars := h.onChannel (characterChannel_inField a field2)
      fun ch => characters ch b0 b1
    split
    · exact hchars
    · exact hchars.clearLast field2

theorem decodePair (h : SameField field2 d a) (hs : SameSelection d a field2 b0 b1) :
    SameField field2 (Caption.decodePair d field2 b0 b1) (Caption.decodePair a field2 b0 b1) := by
  have hchan : IsText b0 → characterChannel d field2 = characterChannel a field2 := by
    intro ht
    rw [characterChannel, hs.1 (Or.inr ht), hs.2 ht, characterChannel]
  unfold Caption.decodePair
  split
  · rename_i hparity
    have hnone : commandOf d field2 127 127 = none := by
      rw [commandOf, if_neg]
      rintro ⟨-, hhigh, -⟩
      exact absurd hhigh (by decide)
    refine h.decodeBytes ?_ fun _ => hchan (Or.inl hparity)
    rw [hnone]
    exact fun hsome => absurd hsome Bool.false_ne_true
  · rename_i hparity
    exact h.decodeBytes (fun hsome => hs.1 (Or.inl ⟨Int.not_lt.mp hparity, hsome⟩))
      fun ht => hchan (Or.inr ht)

end SameField

/-- What a pair of field `field2` leaves as it was. -/
structure Frame (field2 : Bool) (d d' : Decoder) : Prop where
  channel : ∀ k, ¬ InField field2 k → d'.channel k = d.channel k
  last : field2 = true → d'.last = d.last
  xds : d'.xds = d.xds
  network : d'.network = d.network

namespace Frame
variable {field2 : Bool} {d d' d'' : Decoder}

theorem refl (field2 : Bool) (d : Decoder) : Frame field2 d d :=
  ⟨fun _ _ => rfl, fun _ => rfl, rfl, rfl⟩

theorem trans (h : Frame field2 d d') (h' : Frame field2 d' d'') : Frame field2 d d'' :=
  ⟨fun k hk => (h'.channel k hk).trans (h.channel k hk), fun hf => (h'.last hf).trans (h.last hf),
    h'.xds.trans h.xds, h'.network.trans h.network⟩

theorem setChannel (d : Decoder) (hchan : InField field2 chan) (ch : Channel) :
    Frame field2 d (Caption.setChannel d chan ch) := by
  refine ⟨fun k hk => if_neg ?_, fun _ => rfl, rfl, rfl⟩
  intro heq
  exact hk (heq ▸ hchan)

theorem select (d : Decoder) (chan : Nat) : Frame field2 d { d with currChan := chan } :=
  ⟨fun _ _ => rfl, fun _ => rfl, rfl, rfl⟩

theorem switchChannel (d : Decoder) (hchan : InField field2 chan) (hnew : InField field2 newChan)
    (f : Channel → Channel) : Frame field2 d (Caption.switchChannel d chan newChan f) := by
  have hleft := setChannel d hchan (wordBreak (d.channel chan) true)
  have hselect := hleft.trans (select (Caption.setChannel d chan _) newChan)
  exact hselect.trans (setChannel _ hnew _)

theorem miscControl (d : Decoder) (hchan : InField field2 chan) (space : VbiChar) (c2 : Nat) :
    Frame field2 d (Caption.miscControl d chan space c2) := by
  have hcaption := inField_caption hchan
  have htext := inField_text hchan
  unfold Caption.miscControl
  dsimp only
  split
  · exact switchChannel d hchan hcaption _
  · exact switchChannel d hchan hcaption _
  · exact switchChannel d hchan hcaption _
  · exact switchChannel d hchan hcaption _
  · exact switchChannel d hchan hcaption _
  · exact switchChannel d hchan htext _
  · exact switchChannel d hchan htext _
  · exact switchChannel d hchan hcaption _
  all_goals first | exact setChannel d hchan _ | exact refl field2 d

theorem captionCommand (d : Decoder) (c1 c2 : Nat) (field2 : Bool) :
    Frame field2 d (Caption.captionCommand d c1 c2 field2) := by
  have hchan := commandChannel_inField d c1 field2
  unfold Caption.captionCommand
  generalize commandChannel d c1 field2 = chan at hchan
  dsimp only
  split
  · exact setChannel d hchan _
  split
  · exact setChannel d hchan _
  · exact setChannel d hchan _
  · exact miscControl d hchan _ c2
  · exact miscControl d hchan _ c2
  · exact setChannel d hchan _
  · exact refl field2 d

theorem clearLast (d : Decoder) (field2 : Bool) : Frame field2 d (Caption.clearLast d field2) := by
  cases field2 with
  | true => exact refl true d
  | false => exact ⟨fun _ _ => rfl, fun hf => absurd hf Bool.false_ne_true, rfl, rfl⟩

theorem decodeBytes (d : Decoder) (field2 : Bool) (b0 b1 : UInt8) :
    Frame field2 d (Caption.decodeBytes d field2 b0 b1) := by
  have hchars := setChannel d (characterChannel_inField d field2)
    (characters (d.channel (characterChannel d field2)) b0 b1)
  unfold Caption.decodeBytes
  dsimp only
  split
  · exact clearLast d field2
  split
  · split
    · exact clearLast d field2
    · rename_i c1 c2 _
      have hdone := captionCommand d c1 c2 field2
      split
      · exact hdone
      · rename_i hfirst
        exact ⟨hdone.channel, fun hf => absurd hf hfirst, hdone.xds, hdone.network⟩
  · split
    · exact hchars
    · exact hchars.trans (clearLast _ field2)

theorem decodePair (d : Decoder) (field2 : Bool) (b0 b1 : UInt8) :
    Frame field2 d (Caption.decodePair d field2 b0 b1) := by
  unfold Caption.decodePair
  split
  · exact decodeBytes d field2 127 127
  · exact decodeBytes d field2 b0 b1

end Frame

/-- Nothing changes for a field by pairs of the other one. -/
theorem SameField.frame {field2 : Bool} {d a d' : Decoder} (h : SameField field2 d a)
    (hframe : Frame (!field2) d d') : SameField field2 d' a := by
  refine ⟨fun k hk => ?_, fun hf => ?_, fun hf => ?_, fun hf => ?_⟩
  · have hother : ¬ InField (!field2) k := by
      rw [InField] at hk ⊢
      rw [hk]
      exact (Bool.not_ne_self field2).symm
    exact (hframe.channel k hother).trans (h.channel k hk)
  · exact (hframe.last (by rw [hf]; rfl)).trans (h.last hf)
  · exact hframe.xds.trans (h.xds hf)
  · exact hframe.network.trans (h.network hf)

def Passed (d : Decoder) (c : Call) : Bool :=
  c.1 != 284 || (decodeLine284 d.xds c.2.1 c.2.2).any fun r => !r.2.2

/-- A call for a decoder, and for one which receives the pairs of a field only. -/
def step (field2 : Bool) (x : Decoder × Decoder) (c : Call) : Option (Decoder × Decoder) :=
  (decode x.1 c).bind fun d =>
    (if lineField c.1 = some field2 then decode x.2 c else some x.2).map fun a => (d, a)

/-- The condition for one call. The data for the XDS separator are harmless. No packet of
the second field switches the channel for the first one. A pair of the field finds the bits
of the current channel as if there was no other field. -/
def Separate (field2 : Bool) (x : Decoder × Decoder) (c : Call) : Prop :=
  (c.1 = 284 → Harmless x.1.xds c.2 ∧
    (field2 = false → Identifies x.1 c.2.1 c.2.2 = false)) ∧
  (lineField c.1 = some field2 → Passed x.1 c = true →
    SameSelection x.1 x.2 field2 c.2.1 c.2.2)

instance (field2 : Bool) (x : Decoder × Decoder) (c : Call) :
    Decidable (Separate field2 x c) := inferInstanceAs (Decidable (_ ∧ _))

/-- A packet for the second field identifies the same network in both decoders. -/
theorem SameField.applyPacket {d a : Decoder} (h : SameField true d a) (xds : Xds)
    (call : Option DecoderCall) :
    SameField true (Caption.applyPacket { d with xds := xds } call)
      (Caption.applyPacket { a with xds := xds } call) := by
  have hnetwork := h.network rfl
  cases call with
  | none => exact ⟨h.channel, h.last, fun _ => rfl, h.network⟩
  | some c =>
    simp only [Caption.applyPacket, hnetwork]
    split
    · refine ⟨fun k hk => ?_, fun hf => absurd hf.symm Bool.false_ne_true, fun _ => rfl,
        fun _ => rfl⟩
      show resetChannel (d.channel k) _ = resetChannel (a.channel k) _
      rw [h.channel k hk]
    · exact ⟨h.channel, h.last, fun _ => rfl, fun _ => rfl⟩

/-- A packet which identifies no other network leaves the first field alone. -/
theorem SameField.packet {d a : Decoder} (h : SameField false d a)
    (hstep : decodeLine284 d.xds b0 b1 = some (xds, call, consumed))
    (hnone : Identifies d b0 b1 = false) :
    SameField false (Caption.applyPacket { d with xds := xds } call) a := by
  cases call with
  | none => exact ⟨h.channel, h.last, fun hf => absurd hf Bool.false_ne_true,
      fun hf => absurd hf Bool.false_ne_true⟩
  | some c =>
    rw [Identifies, hstep] at hnone
    simp only [Caption.applyPacket]
    have hkeep : (xdsDecoder d.network c).2 = false := hnone
    rw [hkeep, if_neg Bool.false_ne_true]
    exact ⟨h.channel, h.last, fun hf => absurd hf Bool.false_ne_true,
      fun hf => absurd hf Bool.false_ne_true⟩

theorem line_cases {line : Nat} {field2 : Bool} (h : lineField line = some field2) :
    field2 = false ∧ (line = 21 ∨ line = 22) ∨ field2 = true ∧ (line = 284 ∨ line = 335) := by
  rw [lineField] at h
  split at h
  · rename_i hline
    exact Or.inl ⟨(Option.some.inj h).symm, hline⟩
  · split at h
    · rename_i hline
      exact Or.inr ⟨(Option.some.inj h).symm, hline⟩
    · cases h

theorem decode_field1 (d : Decoder) (h : lineField c.1 = some false) :
    decode d c = some (decodePair d false c.2.1 c.2.2) := by
  rcases line_cases h with ⟨_, hline⟩ | ⟨hf, _⟩
  · rw [decode, vbiDecodeCaption, if_pos hline]
  · cases hf

def secondField (d : Decoder) (c : Call) (r : Xds × Option DecoderCall × Bool) : Decoder :=
  if r.2.2 then applyPacket { d with xds := r.1 } r.2.1
  else decodePair (applyPacket { d with xds := r.1 } r.2.1) true c.2.1 c.2.2

theorem decode_field2 (d : Decoder) (h : lineField c.1 = some true) :
    decode d c = if c.1 = 284 then (decodeLine284 d.xds c.2.1 c.2.2).map (secondField d c)
      else some (decodePair d true c.2.1 c.2.2) := by
  rcases line_cases h with ⟨hf, _⟩ | ⟨_, hline⟩
  · cases hf
  · rw [decode, vbiDecodeCaption, if_neg (by omega)]
    by_cases hpal : c.1 = 335
    · rw [if_pos hpal, if_neg (by omega)]
    · have hntsc : c.1 = 284 := hline.resolve_right hpal
      rw [if_neg hpal, if_pos hntsc, if_pos hntsc]
      cases decodeLine284 d.xds c.2.1 c.2.2 with
      | none => rfl
      | some r =>
        show (if r.2.2 = true then some _ else some _) = some (secondField d c r)
        rw [secondField]
        split <;> rfl

theorem decode_other (d : Decoder) (h : lineField c.1 = none) : decode d c = some d := by
  rw [lineField] at h
  by_cases hfirst : c.1 = 21 ∨ c.1 = 22
  · rw [if_pos hfirst] at h
    cases h
  · by_cases hsecond : c.1 = 284 ∨ c.1 = 335
    · rw [if_neg hfirst, if_pos hsecond] at h
      cases h
    · rw [decode, vbiDecodeCaption, if_neg hfirst, if_neg (by omega), if_neg (by omega)]

/-- What a pair of line 284 does, if its data are harmless. -/
theorem decode_line284 {d : Decoder} (hx : Bounded d.xds) (hline : c.1 = 284)
    (h : Harmless d.xds c.2) : ∃ xds call consumed,
      decodeLine284 d.xds c.2.1 c.2.2 = some (xds, call, consumed) ∧
      decode d c = some (secondField d c (xds, call, consumed)) ∧
      Bounded (secondField d c (xds, call, consumed)).xds := by
  obtain ⟨xds, call, consumed, hstep, hbounded, -⟩ := decodeLine284_keeps hx h
  have hfield : lineField c.1 = some true := by
    rw [hline]
    rfl
  refine ⟨xds, call, consumed, hstep, ?_, ?_⟩
  · rw [decode_field2 d hfield, if_pos hline, hstep]
    rfl
  · have hpacket : Bounded (applyPacket { d with xds := xds } call).xds :=
      applyPacket_bounded hbounded
    rw [secondField]
    split
    · exact hpacket
    · rw [decodePair_xds]
      exact hpacket

theorem SameField.secondField {d a : Decoder} (h : SameField true d a)
    (hstep : decodeLine284 d.xds c.2.1 c.2.2 = some (xds, call, consumed))
    (hs : consumed = false → SameSelection d a true c.2.1 c.2.2) :
    SameField true (CaptionFields.secondField d c (xds, call, consumed))
      (CaptionFields.secondField a c (xds, call, consumed)) := by
  have hpacket := h.applyPacket xds call
  cases consumed with
  | true => exact hpacket
  | false =>
    have hnone := call_none_of_passed hstep
    subst hnone
    exact hpacket.decodePair (hs rfl)

theorem step_keeps {field2 : Bool} (h : SameField field2 x.1 x.2 ∧ Bounded x.1.xds)
    (hs : Separate field2 x c) :
    ∃ y, step field2 x c = some y ∧ SameField field2 y.1 y.2 ∧ Bounded y.1.xds := by
  obtain ⟨hsame, hx⟩ := h
  cases hline : lineField c.1 with
  | none =>
    refine ⟨x, ?_, hsame, hx⟩
    rw [step, decode_other x.1 hline, Option.bind_some, hline, if_neg (fun hf => by cases hf)]
    rfl
  | some f =>
    by_cases hntsc : c.1 = 284
    · obtain ⟨hharmless, hidentifies⟩ := hs.1 hntsc
      obtain ⟨xds, call, consumed, hstep, hdecode, hbounded⟩ := decode_line284 hx hntsc hharmless
      have hf : lineField c.1 = some true := by
        rw [hntsc]
        rfl
      rw [step, hdecode, Option.bind_some, hf]
      cases field2 with
      | false =>
        refine ⟨(secondField x.1 c (xds, call, consumed), x.2), ?_, ?_, hbounded⟩
        · rw [if_neg (by decide)]
          rfl
        · have hpacket := hsame.packet hstep (hidentifies rfl)
          cases consumed with
          | true => exact hpacket
          | false => exact hpacket.frame (Frame.decodePair _ true _ _)
      | true =>
        refine ⟨(secondField x.1 c (xds, call, consumed), secondField x.2 c (xds, call, consumed)),
          ?_, ?_, hbounded⟩
        · rw [if_pos rfl, decode_field2 x.2 hf, if_pos hntsc, ← hsame.xds rfl, hstep]
          rfl
        · refine hsame.secondField hstep fun hconsumed => hs.2 hf ?_
          rw [Passed, hstep, hconsumed]
          exact Bool.or_true _
    · have hdecode : ∀ d, decode d c = some (decodePair d f c.2.1 c.2.2) := by
        intro d
        cases f with
        | false => exact decode_field1 d hline
        | true => rw [decode_field2 d hline, if_neg hntsc]
      have hbounded : Bounded (decodePair x.1 f c.2.1 c.2.2).xds := by
        rw [decodePair_xds]
        exact hx
      rw [step, hdecode, Option.bind_some, hline]
      by_cases hown : f = field2
      · subst hown
        refine ⟨(decodePair x.1 f c.2.1 c.2.2, decodePair x.2 f c.2.1 c.2.2), ?_, ?_, hbounded⟩
        · rw [if_pos rfl, hdecode]
          rfl
        · refine hsame.decodePair (hs.2 hline ?_)
          rw [Passed, bne_iff_ne.mpr hntsc, Bool.true_or]
      · refine ⟨(decodePair x.1 f c.2.1 c.2.2, x.2), ?_, ?_, hbounded⟩
        · rw [if_neg fun heq => hown (Option.some.inj heq)]
          rfl
        · have hother : (!field2) = f := by
            cases f <;> cases field2 <;> first | rfl | exact absurd rfl hown
          refine hsame.frame ?_
          rw [hother]
          exact Frame.decodePair x.1 f _ _

theorem run_step {field2 : Bool} {y : Decoder × Decoder} (h : run (step field2) x s = some y) :
    run decode x.1 s = some y.1 ∧ run decode x.2 (pairsOf field2 s) = some y.2 := by
  induction s generalizing x with
  | nil =>
    obtain rfl := Option.some.inj h
    exact ⟨rfl, rfl⟩
  | cons c s ih =>
    rw [run_cons, Option.bind_eq_some_iff] at h
    obtain ⟨z, hz, hrest⟩ := h
    rw [step, Option.bind_eq_some_iff] at hz
    obtain ⟨d, hd, hz⟩ := hz
    obtain ⟨a, ha, rfl⟩ := Option.map_eq_some_iff.mp hz
    obtain ⟨hfirst, hsecond⟩ := ih hrest
    refine ⟨?_, ?_⟩
    · rw [run_cons, hd]
      exact hfirst
    · by_cases hline : lineField c.1 = some field2
      · rw [if_pos hline] at ha
        have hpairs : pairsOf field2 (c :: s) = c :: pairsOf field2 s :=
          List.filter_cons_of_pos (decide_eq_true hline)
        rw [hpairs, run_cons, ha]
        exact hsecond
      · rw [if_neg hline] at ha
        obtain rfl := Option.some.inj ha
        have hpairs : pairsOf field2 (c :: s) = pairsOf field2 s :=
          List.filter_cons_of_neg (by rwa [decide_eq_true_iff])
        rw [hpairs]
        exact hsecond

/-- Each call of the sequence meets the condition. -/
def Separated (field2 : Bool) (network : Network) (s : List Call) : Prop :=
  Permitted (step field2) (Separate field2) (captionInit network, captionInit network) s

instance (field2 : Bool) (network : Network) (s : List Call) :
    Decidable (Separated field2 network s) := inferInstanceAs (Decidable (Permitted _ _ _ _))

theorem field_alone {field2 : Bool} {network : Network} (hs : Separated field2 network s) :
    ∃ d a, run decode (captionInit network) s = some d ∧
      run decode (captionInit network) (pairsOf field2 s) = some a ∧ SameField field2 d a := by
  obtain ⟨y, hrun, hsame, -⟩ := run_keeps
    (fun x : Decoder × Decoder => SameField field2 x.1 x.2 ∧ Bounded x.1.xds)
    (fun _ _ h hc => step_keeps h hc) ⟨SameField.refl field2 _, initial_bounded⟩ hs
  obtain ⟨hd, ha⟩ := run_step hrun
  exact ⟨y.1, y.2, hd, ha, hsame⟩

/-- Roll-up captions in CC1 and CC3 at the same time. -/
def bothFields : List Call := [
  (21, 0x94, 0x25), (284, 0x94, 0x25), (21, 0xC8, 0x49), (284, 0xC1, 0x20), (21, 0x94, 0xAD)]

/-- Captions in CC1, and a text restart in the second field before the characters. -/
def captionAndText : List Call := [(21, 0x94, 0x25), (284, 0x94, 0x2A), (21, 0xC8, 0x49)]

/-- Captions in CC1, and the name of another network in the second field. -/
def captionAndName : List Call := [
  (21, 0x94, 0x25), (284, 0x85, 0x01), (284, 0xC2, 0x80), (284, 0x8F, 0x29), (21, 0xC8, 0x49)]

def captionAlone : List Call := [(21, 0x94, 0x25), (21, 0xC8, 0x49)]

/-- A network which had another name before, and sent the new one once. -/
def renamed : Network := ⟨[0x42], [], 1, 1⟩

end CaptionFields

import Zvbi.CaptionRows

/-!
# The rows a byte pair changes

Each pair of bytes is a command or characters for one channel. The other channels keep their
pages, apart from the current row of one which is left by a command. This holds in all states
after calls of the decoder, up to the cell a carriage return blanks beyond its row.
-/

namespace CaptionRowRuns
open Caption CaptionFrame CaptionRows GuardedRuns

def IsControl (c1 c2 : Nat) : Prop := c2 < 0x40 ∧ (c1 % 8 = 4 ∨ c1 % 8 = 5)

instance (c1 c2 : Nat) : Decidable (IsControl c1 c2) := inferInstanceAs (Decidable (_ ∧ _))

def commandTarget (d : Decoder) (c1 c2 : Nat) (field2 : Bool) : Nat :=
  let chan := commandChannel d c1 field2
  if IsControl c1 c2 then
    match c2 % 16 with
    | 0 => chan % 4
    | 5 => chan % 4
    | 6 => chan % 4
    | 7 => chan % 4
    | 9 => chan % 4
    | 10 => chan % 4 + 4
    | 11 => chan % 4 + 4
    | 15 => chan % 4
    | _ => chan
  else
    chan

/-- Commands which erase: roll-up captions, erase displayed and non-displayed memory, end of
caption, and a preamble address code which moves the window. -/
def Erasing (ch : Channel) (c1 c2 : Nat) : Prop :=
  (IsControl c1 c2 ∧ (c2 % 16 = 5 ∨ c2 % 16 = 6 ∨ c2 % 16 = 7 ∨ c2 % 16 = 12 ∨ c2 % 16 = 14 ∨
    c2 % 16 = 15)) ∨ (0x40 ≤ c2 ∧ WindowMoves ch c1 c2)

instance (ch : Channel) (c1 c2 : Nat) : Decidable (Erasing ch c1 c2) :=
  inferInstanceAs (Decidable (_ ∨ _))

def Scrolls (ch : Channel) (c1 c2 : Nat) : Prop :=
  IsControl c1 c2 ∧ c2 % 16 = 13 ∧ ch.mode ≠ .none ∧ ¬ch.row < lastRow ch

instance (ch : Channel) (c1 c2 : Nat) : Decidable (Scrolls ch c1 c2) :=
  inferInstanceAs (Decidable (_ ∧ _ ∧ _ ∧ _))

def AllPlaced (d : Decoder) : Prop := ∀ i < 9, Placed (d.channel i)

def StaysIn (d d' : Decoder) (channels : Nat → Prop) : Prop :=
  ∀ i < 9, channels i → Stays (d.channel i) (d'.channel i)

theorem setChannel_same (d : Decoder) (i : Nat) (ch : Channel) :
    (setChannel d i ch).channel i = ch := if_pos rfl

variable {i newChan : Nat} {channels : Nat → Prop} {f : Channel → Channel} {d' : Decoder}

theorem setChannel_other (d : Decoder) {k : Nat} (ch : Channel) (h : k ≠ i) :
    (setChannel d i ch).channel k = d.channel k := if_neg h

variable {ch : Channel} {d : Decoder} {chan : Nat} {e : Event}

theorem setChannel_placed (h : AllPlaced d) (chan : Nat) (hch : Placed ch) :
    AllPlaced (setChannel d chan ch) := by
  intro i hi
  by_cases heq : i = chan
  · rw [heq, setChannel_same]
    exact hch
  · rw [setChannel_other d ch heq]
    exact h i hi

theorem setChannel_stays (h : AllPlaced d) (hch : channels chan → Stays (d.channel chan) ch) :
    StaysIn d (setChannel d chan ch) channels := by
  intro i hi hin
  by_cases heq : i = chan
  · subst heq
    rw [setChannel_same]
    exact hch hin
  · rw [setChannel_other d ch heq]
    exact (RowOnly.refl (h i hi)).stays

theorem switchChannel_placed (h : AllPlaced d) (hchan : chan < 9) (hnew : newChan < 9)
    (hf : ∀ ch, Placed ch → Placed (f ch)) : AllPlaced (switchChannel d chan newChan f) := by
  have hleft := setChannel_placed h chan (wordBreak_row (h chan hchan) true).placed
  exact setChannel_placed hleft newChan (hf _ (hleft newChan hnew))

theorem switchChannel_stays (h : AllPlaced d) (hchan : chan < 9) (hnew : newChan < 9)
    (hf : channels newChan → ∀ ch, Placed ch → Stays ch (f ch)) :
    StaysIn d (switchChannel d chan newChan f) channels := by
  have hbreak := wordBreak_row (h chan hchan) true
  have hleft := setChannel_placed h chan hbreak.placed
  intro i hi hin
  rw [switchChannel]
  dsimp only
  by_cases heq : i = newChan
  · subst heq
    rw [setChannel_same]
    have hstep := hf hin _ (hleft i hi)
    by_cases hsame : i = chan
    · subst hsame
      rw [setChannel_same] at hstep
      rw [show ({ setChannel d i (wordBreak (d.channel i) true) with
        currChan := i } : Decoder).channel i = wordBreak (d.channel i) true from
        setChannel_same d i _]
      exact Stays.between hbreak hstep (RowOnly.refl hstep.placed)
    · rw [setChannel_other d _ hsame] at hstep
      rw [show ({ setChannel d chan (wordBreak (d.channel chan) true) with
        currChan := i } : Decoder).channel i = d.channel i from setChannel_other d _ hsame]
      exact hstep
  · rw [setChannel_other _ _ heq]
    exact setChannel_stays h (fun _ => hbreak.stays) i hi hin

theorem mode_stays (h : Placed ch) (mode : CcMode) : Stays ch { ch with mode := mode } :=
  ⟨mode_placed h mode, fun _ _ _ _ => rfl⟩

theorem miscControl_placed (h : AllPlaced d) (hchan : chan < 8) (space : VbiChar) (c2 : Nat) :
    AllPlaced (miscControl d chan space c2) := by
  have hch := h chan (by omega)
  have hswitch := fun newChan (hnew : newChan < 9) (f : Channel → Channel)
    (hf : ∀ ch, Placed ch → Placed (f ch)) =>
    switchChannel_placed h (show chan < 9 by omega) hnew hf
  have hset := fun ch (ht : Placed ch) => setChannel_placed h chan ht
  have hcaption : chan % 4 < 9 := by omega
  have htext : chan % 4 + 4 < 9 := by omega
  unfold miscControl
  dsimp only
  split
  · exact hswitch _ hcaption _ fun ch ht => mode_placed ht .popOn
  · exact hswitch _ hcaption _ fun ch ht => rollUpCaptions_placed ht (by decide) (by decide)
  · exact hswitch _ hcaption _ fun ch ht => rollUpCaptions_placed ht (by decide) (by decide)
  · exact hswitch _ hcaption _ fun ch ht => rollUpCaptions_placed ht (by decide) (by decide)
  · exact hswitch _ hcaption _ fun ch ht => mode_placed ht .paintOn
  · exact hswitch _ htext _ fun ch ht => setCursor_placed ht (by decide)
  · exact hswitch _ htext _ fun ch ht => ht
  · exact hswitch _ hcaption _ fun ch ht => endOfCaption_placed ht
  · exact hset _ (attr_row hch _).placed
  · exact hset _ (backspace_row hch space).placed
  · exact hset _ (carriageReturn_placed hch space)
  · exact hset _ (deleteToEndOfRow_row hch space).placed
  · exact hset _ (eraseDisplayed_placed hch space)
  · exact hset _ (eraseNonDisplayed_placed hch space)
  · exact h

def Quiet (d : Decoder) (c1 c2 : Nat) (field2 : Bool) (i : Nat) : Prop :=
  ¬(i = commandTarget d c1 c2 field2 ∧
    (Erasing (d.channel i) c1 c2 ∨ Scrolls (d.channel i) c1 c2))

theorem miscControl_stays (h : AllPlaced d) {c1 c2 : Nat} {field2 : Bool}
    (hcontrol : IsControl c1 c2) (space : VbiChar) :
    StaysIn d (miscControl d (commandChannel d c1 field2) space c2) (Quiet d c1 c2 field2) := by
  have hlt := commandChannel_lt d c1 field2
  have hch := h (commandChannel d c1 field2) (by omega)
  have htarget : commandTarget d c1 c2 field2 = match c2 % 16 with
    | 0 => commandChannel d c1 field2 % 4
    | 5 => commandChannel d c1 field2 % 4
    | 6 => commandChannel d c1 field2 % 4
    | 7 => commandChannel d c1 field2 % 4
    | 9 => commandChannel d c1 field2 % 4
    | 10 => commandChannel d c1 field2 % 4 + 4
    | 11 => commandChannel d c1 field2 % 4 + 4
    | 15 => commandChannel d c1 field2 % 4
    | _ => commandChannel d c1 field2 := if_pos hcontrol
  generalize commandChannel d c1 field2 = chan at hlt hch htarget
  have hswitch := fun newChan (hnew : newChan < 9) (f : Channel → Channel)
    (hf : Quiet d c1 c2 field2 newChan → ∀ ch, Placed ch → Stays ch (f ch)) =>
    switchChannel_stays h (show chan < 9 by omega) hnew hf
  have hset := fun ch (ht : Quiet d c1 c2 field2 chan → Stays (d.channel chan) ch) =>
    setChannel_stays h ht
  have hcaption : chan % 4 < 9 := by omega
  have htext : chan % 4 + 4 < 9 := by omega
  -- A command which erases does so in its channel.
  have herases : ∀ t, t = commandTarget d c1 c2 field2 → (c2 % 16 = 5 ∨ c2 % 16 = 6 ∨
      c2 % 16 = 7 ∨ c2 % 16 = 12 ∨ c2 % 16 = 14 ∨ c2 % 16 = 15) → ¬Quiet d c1 c2 field2 t :=
    fun t ht hc2 hquiet => hquiet ⟨ht, Or.inl (Or.inl ⟨hcontrol, hc2⟩)⟩
  unfold miscControl
  dsimp only
  split
  · exact hswitch _ hcaption _ fun _ ch ht => mode_stays ht .popOn
  · rename_i hc2
    rw [hc2] at htarget herases
    exact hswitch _ hcaption _ fun hquiet => absurd hquiet (herases _ htarget.symm (by decide))
  · rename_i hc2
    rw [hc2] at htarget herases
    exact hswitch _ hcaption _ fun hquiet => absurd hquiet (herases _ htarget.symm (by decide))
  · rename_i hc2
    rw [hc2] at htarget herases
    exact hswitch _ hcaption _ fun hquiet => absurd hquiet (herases _ htarget.symm (by decide))
  · exact hswitch _ hcaption _ fun _ ch ht => mode_stays ht .paintOn
  · exact hswitch _ htext _ fun _ ch ht => setCursor_stays ht (by decide)
  · exact hswitch _ htext _ fun _ ch ht => (RowOnly.refl ht).stays
  · rename_i hc2
    rw [hc2] at htarget herases
    exact hswitch _ hcaption _ fun hquiet => absurd hquiet (herases _ htarget.symm (by decide))
  · exact hset _ fun _ => (attr_row hch _).stays
  · exact hset _ fun _ => (backspace_row hch space).stays
  · rename_i hc2
    rw [hc2] at htarget
    refine hset _ fun hquiet => carriageReturn_stays hch space fun hscroll => ?_
    exact hquiet ⟨htarget.symm, Or.inr ⟨hcontrol, hc2, hscroll⟩⟩
  · exact hset _ fun _ => (deleteToEndOfRow_row hch space).stays
  · rename_i hc2
    rw [hc2] at htarget herases
    exact hset _ fun hquiet => absurd hquiet (herases _ htarget.symm (by decide))
  · rename_i hc2
    rw [hc2] at htarget herases
    exact hset _ fun hquiet => absurd hquiet (herases _ htarget.symm (by decide))
  · exact fun i hi _ => (RowOnly.refl (h i hi)).stays

theorem captionCommand_placed (h : AllPlaced d) (c1 c2 : Nat) (field2 : Bool) :
    AllPlaced (captionCommand d c1 c2 field2) := by
  have hlt := commandChannel_lt d c1 field2
  have hch := h (commandChannel d c1 field2) (by omega)
  unfold captionCommand
  dsimp only
  split
  · exact setChannel_placed h _ (preambleAddress_placed hch _ _ _)
  split
  · exact setChannel_placed h _ (backgroundAttr_row hch _).placed
  · split
    · exact setChannel_placed h _ (specialCharacter_row hch _ _).placed
    · exact setChannel_placed h _ (midrowCode_row hch _).placed
  · exact miscControl_placed h hlt _ c2
  · exact miscControl_placed h hlt _ c2
  · exact setChannel_placed h _ (tabsAndAttributes_row hch _ _).placed
  · exact h

theorem captionCommand_stays (h : AllPlaced d) (c1 c2 : Nat) (field2 : Bool) :
    StaysIn d (captionCommand d c1 c2 field2) (Quiet d c1 c2 field2) := by
  have hlt := commandChannel_lt d c1 field2
  have hch := h (commandChannel d c1 field2) (by omega)
  unfold captionCommand
  dsimp only
  split
  · rename_i hc2
    have htarget : commandTarget d c1 c2 field2 = commandChannel d c1 field2 :=
      if_neg fun hcontrol => absurd hcontrol.1 (Nat.not_lt.mpr hc2)
    refine setChannel_stays h fun hquiet => preambleAddress_stays hch _ fun hmoves => ?_
    exact hquiet ⟨htarget.symm, Or.inl (Or.inr ⟨hc2, hmoves⟩)⟩
  have hc2 : c2 < 0x40 := by omega
  split
  · exact setChannel_stays h fun _ => (backgroundAttr_row hch _).stays
  · split
    · exact setChannel_stays h fun _ => (specialCharacter_row hch _ _).stays
    · exact setChannel_stays h fun _ => (midrowCode_row hch _).stays
  · exact miscControl_stays h ⟨hc2, Or.inl (by assumption)⟩ _
  · exact miscControl_stays h ⟨hc2, Or.inr (by assumption)⟩ _
  · exact setChannel_stays h fun _ => (tabsAndAttributes_row hch _ _).stays
  · exact fun i hi _ => (RowOnly.refl (h i hi)).stays

def channelSpace (i : Nat) : VbiChar := transpSpace (decide (i / 4 = 1))

theorem captionCommand_scrolls {d : Decoder} {c1 c2 : Nat} {field2 : Bool} {i : Nat}
    (htarget : i = commandTarget d c1 c2 field2) (h : Scrolls (d.channel i) c1 c2) :
    (captionCommand d c1 c2 field2).channel i = scrollUp (d.channel i) (channelSpace i) := by
  obtain ⟨hcontrol, hcr, hmode, hrow⟩ := h
  have hchan : i = commandChannel d c1 field2 := by
    have htarget' := htarget.trans (if_pos hcontrol)
    rw [hcr] at htarget'
    exact htarget'
  have hmisc : ∀ space,
      (miscControl d i space c2).channel i = carriageReturn (d.channel i) space := by
    intro space
    rw [miscControl]
    dsimp only
    rw [hcr]
    exact setChannel_same d i _
  rw [captionCommand, ← hchan, if_neg (Nat.not_le.mpr hcontrol.1)]
  have hreturn : carriageReturn (d.channel i) (channelSpace i) =
      scrollUp (d.channel i) (channelSpace i) := by
    rw [carriageReturn, if_neg hmode, if_neg hrow]
  rcases hcontrol.2 with hc1 | hc1
  · rw [hc1]
    exact (hmisc _).trans hreturn
  · rw [hc1]
    exact (hmisc _).trans hreturn

theorem clearLast_channel (d : Decoder) (field2 : Bool) :
    (clearLast d field2).channel = d.channel := by
  rw [clearLast]
  split
  · rfl
  · rfl

def pairCommand (d : Decoder) (field2 : Bool) (b0 b1 : UInt8) : Option (Nat × Nat) :=
  if Hamming.vbiUnpar8 b0 < 0 then none else commandOf d field2 b0 b1

/-- A pair of bytes changes the channels by its command, or else as `Stays` says. -/
theorem decodePair_cases (h : AllPlaced d) (field2 : Bool) (b0 b1 : UInt8) :
    (∃ c, pairCommand d field2 b0 b1 = some c ∧
      (decodePair d field2 b0 b1).channel = (captionCommand d c.1 c.2 field2).channel) ∨
    (pairCommand d field2 b0 b1 = none ∧
      StaysIn d (decodePair d field2 b0 b1) fun _ => True) := by
  have hsame : ∀ t : Decoder, t.channel = d.channel → StaysIn d t fun _ => True :=
    fun t ht i hi _ => ht ▸ (RowOnly.refl (h i hi)).stays
  have hchars : ∀ b b', StaysIn d (setChannel d (characterChannel d field2)
      (characters (d.channel (characterChannel d field2)) b b')) fun _ => True := fun b b' =>
    setChannel_stays h fun _ => (characters_row (h _ (by
      have hlt := characterChannel_lt d field2
      omega)) b b').stays
  have hbytes : ∀ b b', (∃ c, commandOf d field2 b b' = some c ∧
        (decodeBytes d field2 b b').channel = (captionCommand d c.1 c.2 field2).channel) ∨
      (commandOf d field2 b b' = none ∧ StaysIn d (decodeBytes d field2 b b') fun _ => True) := by
    intro b b'
    rw [decodeBytes]
    dsimp only
    split
    · rename_i hfirst
      refine Or.inr ⟨?_, hsame _ (clearLast_channel d field2)⟩
      rw [commandOf, if_neg]
      rintro ⟨hlow, -⟩
      omega
    split
    · cases hof : commandOf d field2 b b' with
      | none => exact Or.inr ⟨rfl, hsame _ (clearLast_channel d field2)⟩
      | some c =>
        refine Or.inl ⟨c, rfl, ?_⟩
        dsimp only
        split
        · rfl
        · rfl
    · rename_i hlast
      refine Or.inr ⟨?_, ?_⟩
      · rw [commandOf, if_neg]
        exact fun hcommand => hlast ⟨hcommand.1, hcommand.2.1⟩
      · split
        · exact hchars b b'
        · intro i hi hin
          rw [clearLast_channel]
          exact hchars b b' i hi hin
  rw [pairCommand, decodePair]
  by_cases hparity : Hamming.vbiUnpar8 b0 < 0
  · rw [if_pos hparity, if_pos hparity]
    have hnone : commandOf d field2 127 127 = none := by
      rw [commandOf, if_neg]
      rintro ⟨-, hhigh, -⟩
      exact absurd hhigh (by decide)
    rcases hbytes 127 127 with ⟨c, hc, -⟩ | ⟨-, hstays⟩
    · rw [hnone] at hc
      exact absurd hc.symm (Option.some_ne_none c)
    · exact Or.inr ⟨rfl, hstays⟩
  · rw [if_neg hparity, if_neg hparity]
    exact hbytes b0 b1

theorem decodePair_placed (h : AllPlaced d) (field2 : Bool) (b0 b1 : UInt8) :
    AllPlaced (decodePair d field2 b0 b1) := by
  intro i hi
  rcases decodePair_cases h field2 b0 b1 with ⟨c, -, hchannel⟩ | ⟨-, hstays⟩
  · rw [hchannel]
    exact captionCommand_placed h c.1 c.2 field2 i hi
  · exact (hstays i hi trivial).placed

theorem pairCommand_consumed {xds t : XdsSeparator.Xds} {b0 b1 : UInt8}
    {call : Option XdsSeparator.DecoderCall}
    (h : XdsSeparator.decodeLine284 xds b0 b1 = some (t, call, true)) (field2 : Bool) :
    pairCommand d field2 b0 b1 = none := by
  rw [pairCommand]
  split
  · rfl
  · rename_i hparity
    rw [commandOf, if_neg]
    rintro ⟨hlow, hhigh, -⟩
    rw [XdsSeparator.decodeLine284] at h
    dsimp only at h
    have hzero : ¬b0 &&& 0x7F = 0 := fun hzero => by
      rw [hzero] at hlow
      exact absurd hlow (by decide)
    have hxds : ¬b0 &&& 0x7F ≤ 0x0F := fun hle => by
      have hle' := UInt8.le_iff_toNat_le.mp hle
      rw [show (0x0F : UInt8).toNat = 15 from rfl] at hle'
      omega
    have hcommand : b0 &&& 0x7F ≤ 0x1F := UInt8.le_iff_toNat_le.mpr hhigh
    rw [if_pos (Int.not_lt.mp hparity), if_neg hzero, if_neg hxds, if_pos hcommand] at h
    simp at h

def eventField : Event → Bool
  | .pair line _ _ => decide (line = 284 ∨ line = 335)
  | .channelSwitched => false

def eventCommand (d : Decoder) : Event → Option (Nat × Nat)
  | .pair line b0 b1 =>
    if line = 21 ∨ line = 22 ∨ line = 284 ∨ line = 335 then
      pairCommand d (decide (line = 284 ∨ line = 335)) b0 b1
    else none
  | .channelSwitched => none

def Resets (d : Decoder) : Event → Prop
  | .pair line b0 b1 => line = 284 ∧ Identifies d b0 b1 = true
  | .channelSwitched => True

def ErasesIn (d : Decoder) (e : Event) (i : Nat) : Prop :=
  Resets d e ∨ ∃ c ∈ eventCommand d e,
    i = commandTarget d c.1 c.2 (eventField e) ∧ Erasing (d.channel i) c.1 c.2

def ScrollsIn (d : Decoder) (e : Event) (i : Nat) : Prop :=
  ∃ c ∈ eventCommand d e,
    i = commandTarget d c.1 c.2 (eventField e) ∧ Scrolls (d.channel i) c.1 c.2

/-- Channels keep the rows besides the current one, the row the cursor moves to, and those of
a window which is rolled up, unless the command erases. The window moves up by one row if the
current row is its last one. -/
structure KeepsRows (d d' : Decoder) (e : Event) : Prop where
  cells : ∀ i < 9, ¬ErasesIn d e i → ∀ page, ∀ k < rows * columns,
    ¬InRow (d.channel i).row k → ¬InRow (d'.channel i).row k →
    ¬(ScrollsIn d e i ∧ InWindow (d.channel i) k) →
    ((d'.channel i).pg page).text k = ((d.channel i).pg page).text k
  rolled : ∀ i < 9, ScrollsIn d e i → (d.channel i).row = lastRow (d.channel i) →
    RolledUp (d.channel i) (d'.channel i) (channelSpace i)

/-- The row after the current one begins with a blank cell, if a carriage return scrolls. -/
def Tidy (d : Decoder) (e : Event) : Prop :=
  ∀ i < 9, ScrollsIn d e i → NextBlank (d.channel i) (channelSpace i)

/-- A channel switch finds the first page of every channel current. -/
def SwitchedWhole (d : Decoder) (e : Event) : Prop := Resets d e → Undisplayed d

theorem handle_cases (h : AllPlaced d) (hwhole : SwitchedWhole d e) (hstep : handle d e = some d') :
    AllPlaced d' ∧ ((∃ c ∈ eventCommand d e, ∃ xds,
        d'.channel = (captionCommand { d with xds := xds } c.1 c.2 (eventField e)).channel) ∨
      (eventCommand d e = none ∧ (Resets d e ∨ StaysIn d d' fun _ => True))) := by
  have hreset : ∀ t : Decoder, Undisplayed t → AllPlaced (channelSwitched t) :=
    fun t ht i hi => resetChannel_placed (ht i hi) _
  have hsame : ∀ t : Decoder, t.channel = d.channel →
      AllPlaced t ∧ StaysIn d t fun _ => True := fun t ht =>
    ⟨fun i hi => ht ▸ h i hi, fun i hi _ => ht ▸ (RowOnly.refl (h i hi)).stays⟩
  have hpair : ∀ (xds : XdsSeparator.Xds) (field2 : Bool) (b0 b1 : UInt8),
      AllPlaced (decodePair { d with xds := xds } field2 b0 b1) ∧
        ((∃ c ∈ pairCommand d field2 b0 b1,
          (decodePair { d with xds := xds } field2 b0 b1).channel =
            (captionCommand { d with xds := xds } c.1 c.2 field2).channel) ∨
        (pairCommand d field2 b0 b1 = none ∧
          (StaysIn d (decodePair { d with xds := xds } field2 b0 b1) fun _ => True))) := by
    intro xds field2 b0 b1
    have hxds : AllPlaced { d with xds := xds } := h
    refine ⟨decodePair_placed hxds field2 b0 b1, ?_⟩
    rcases decodePair_cases hxds field2 b0 b1 with ⟨c, hc, hchannel⟩ | ⟨hc, hstays⟩
    · exact Or.inl ⟨c, hc, hchannel⟩
    · exact Or.inr ⟨hc, hstays⟩
  cases e with
  | channelSwitched =>
    obtain rfl := Option.some.inj hstep
    exact ⟨hreset d (hwhole trivial), Or.inr ⟨rfl, Or.inl trivial⟩⟩
  | pair line b0 b1 =>
    have hcases : ∀ (xds : XdsSeparator.Xds) (field2 : Bool),
        eventField (.pair line b0 b1) = field2 →
        eventCommand d (.pair line b0 b1) = pairCommand d field2 b0 b1 →
        some (decodePair { d with xds := xds } field2 b0 b1) = some d' →
        AllPlaced d' ∧ ((∃ c ∈ eventCommand d (.pair line b0 b1), ∃ xds,
          d'.channel = (captionCommand { d with xds := xds } c.1 c.2
            (eventField (.pair line b0 b1))).channel) ∨
          (eventCommand d (.pair line b0 b1) = none ∧
            (Resets d (.pair line b0 b1) ∨ StaysIn d d' fun _ => True))) := by
      intro xds field2 hfield hcommand hd
      obtain rfl := Option.some.inj hd
      rw [hcommand, hfield]
      obtain ⟨hplaced, ⟨c, hc, hchannel⟩ | ⟨hc, hstays⟩⟩ := hpair xds field2 b0 b1
      · exact ⟨hplaced, Or.inl ⟨c, hc, xds, hchannel⟩⟩
      · exact ⟨hplaced, Or.inr ⟨hc, Or.inr hstays⟩⟩
    rw [handle, vbiDecodeCaption] at hstep
    by_cases hfirst : line = 21 ∨ line = 22
    · rw [if_pos hfirst] at hstep
      have hfield : decide (line = 284 ∨ line = 335) = false := decide_eq_false (by omega)
      refine hcases d.xds false hfield ?_ hstep
      rw [eventCommand, if_pos (by omega), hfield]
    rw [if_neg hfirst] at hstep
    by_cases hpal : line = 335
    · rw [if_pos hpal] at hstep
      have hfield : decide (line = 284 ∨ line = 335) = true := decide_eq_true (by omega)
      refine hcases d.xds true hfield ?_ hstep
      rw [eventCommand, if_pos (by omega), hfield]
    rw [if_neg hpal] at hstep
    by_cases hntsc : line = 284
    · rw [if_pos hntsc] at hstep
      have hfield : decide (line = 284 ∨ line = 335) = true := decide_eq_true (by omega)
      have hcommand : eventCommand d (.pair line b0 b1) = pairCommand d true b0 b1 := by
        rw [eventCommand, if_pos (by omega), hfield]
      cases hdecode : XdsSeparator.decodeLine284 d.xds b0 b1 with
      | none =>
        rw [hdecode] at hstep
        cases hstep
      | some r =>
        obtain ⟨xds, call, consumed⟩ := r
        rw [hdecode] at hstep
        cases consumed with
        | false =>
          rw [call_none_of_passed hdecode] at hstep
          exact hcases xds true hfield hcommand hstep
        | true =>
          obtain rfl := Option.some.inj hstep
          rw [hcommand, pairCommand_consumed hdecode]
          cases call with
          | none =>
            obtain ⟨hplaced, hstays⟩ := hsame { d with xds := xds } rfl
            exact ⟨hplaced, Or.inr ⟨rfl, Or.inr hstays⟩⟩
          | some c =>
            rw [applyPacket]
            dsimp only
            split
            · rename_i hnew
              have hidentifies : Identifies d b0 b1 = true := by
                rw [Identifies, hdecode]
                exact hnew
              have hresets : Resets d (.pair line b0 b1) := ⟨hntsc, hidentifies⟩
              exact ⟨hreset _ (hwhole hresets), Or.inr ⟨rfl, Or.inl hresets⟩⟩
            · obtain ⟨hplaced, hstays⟩ := hsame { d with
                xds := xds, network := (xdsDecoder d.network c).1 } rfl
              exact ⟨hplaced, Or.inr ⟨rfl, Or.inr hstays⟩⟩
    · rw [if_neg hntsc] at hstep
      obtain rfl := Option.some.inj hstep
      obtain ⟨hplaced, hstays⟩ := hsame d rfl
      refine ⟨hplaced, Or.inr ⟨?_, Or.inr hstays⟩⟩
      rw [eventCommand, if_neg (by omega)]

theorem eventCommand_resets (h : Resets d e) : eventCommand d e = none := by
  cases e with
  | channelSwitched => rfl
  | pair line b0 b1 =>
    obtain ⟨rfl, hidentifies⟩ := h
    rw [eventCommand, if_pos (by decide)]
    rw [Identifies] at hidentifies
    cases hdecode : XdsSeparator.decodeLine284 d.xds b0 b1 with
    | none =>
      rw [hdecode] at hidentifies
      exact absurd hidentifies Bool.false_ne_true
    | some r =>
      obtain ⟨xds, call, consumed⟩ := r
      cases consumed with
      | true => exact pairCommand_consumed hdecode _
      | false =>
        rw [hdecode, call_none_of_passed hdecode] at hidentifies
        exact absurd hidentifies Bool.false_ne_true

theorem scrollsIn_not_erases (h : ScrollsIn d e i) : ¬ErasesIn d e i := by
  obtain ⟨c, hc, -, hcontrol, hcr, -⟩ := h
  rintro (hresets | ⟨c', hc', -, herases⟩)
  · rw [eventCommand_resets hresets] at hc
    cases hc
  · obtain rfl := Option.mem_unique hc hc'
    rcases herases with ⟨-, herase⟩ | ⟨hpreamble, -⟩
    · omega
    · exact absurd hcontrol.1 (Nat.not_lt.mpr hpreamble)

/-- The channel after a carriage return which scrolls. -/
theorem handle_scrolls (h : AllPlaced d) (hwhole : SwitchedWhole d e) (hstep : handle d e = some d')
    (hscroll : ScrollsIn d e i) : d'.channel i = scrollUp (d.channel i) (channelSpace i) := by
  obtain ⟨c, hc, htarget, hscrolls⟩ := hscroll
  obtain ⟨-, ⟨c', hc', xds, hchannel⟩ | ⟨hnone, -⟩⟩ := handle_cases h hwhole hstep
  · obtain rfl := Option.mem_unique hc hc'
    rw [hchannel]
    exact @captionCommand_scrolls { d with xds := xds } c.1 c.2 (eventField e) i htarget hscrolls
  · rw [hnone] at hc
    cases hc

/-- The cell after the current row is in no row which may change. -/
theorem nextCell_outside (h : Placed ch) (hlast : ¬ch.row < lastRow ch) :
    ¬InRow ch.row ((ch.row + 1) * columns) ∧ ¬InWindow ch ((ch.row + 1) * columns) := by
  have hwindow := h.window
  have hroll := h.roll
  rw [lastRow, rows] at hlast
  rw [InRow, InWindow]
  simp only [columns]
  omega

/-- A call keeps the other rows if and only if a carriage return which scrolls finds the next
row blank at the beginning. -/
theorem handle_keepsRows (h : AllPlaced d) (hwhole : SwitchedWhole d e)
    (hstep : handle d e = some d') : KeepsRows d d' e ↔ Tidy d e := by
  constructor
  · intro hkeeps i hi hscroll
    by_cases hbottom : (d.channel i).row = 14
    · exact Or.inl hbottom
    · refine Or.inr ?_
      have hch := h i hi
      have hrow := hch.row
      have hafter := handle_scrolls h hwhole hstep hscroll
      obtain ⟨c, -, -, -, -, -, hlast⟩ := id hscroll
      obtain ⟨hout, hwindow⟩ := nextCell_outside hch hlast
      have hkept := hkeeps.cells i hi (scrollsIn_not_erases hscroll) (d.channel i).hidden
        (((d.channel i).row + 1) * columns) (by simp only [rows, columns]; omega) hout
        (by rw [hafter, (scrollUp_placed hch _).2]; exact hout) fun hin => hwindow hin.2
      rw [hafter, scrollUp_text hch, if_neg fun hin => hout hin.1, if_pos ⟨rfl, rfl⟩] at hkept
      exact hkept.symm
  · intro htidy
    constructor
    · intro i hi herases page k hk hbefore hafter hwindow
      by_cases hscroll : ScrollsIn d e i
      · rw [handle_scrolls h hwhole hstep hscroll]
        by_cases hcell : page = (d.channel i).hidden ∧ k = ((d.channel i).row + 1) * columns
        · rw [scrollUp_text (h i hi), if_neg fun hin => hbefore hin.1, if_pos hcell, hcell.1,
            hcell.2]
          rcases htidy i hi hscroll with hbottom | hblank
          · rw [hcell.2, hbottom] at hk
            exact absurd hk (by decide)
          · exact hblank.symm
        · exact scrollUp_cells (h i hi) _ page hbefore (fun hin => hwindow ⟨hscroll, hin⟩) hcell
      · obtain ⟨-, ⟨c, hc, xds, hchannel⟩ | ⟨hnone, hresets | hstays⟩⟩ :=
          handle_cases h hwhole hstep
        · have hxds : AllPlaced { d with xds := xds } := h
          have hstays := captionCommand_stays hxds c.1 c.2 (eventField e) i hi (by
            rintro ⟨htarget, herase | hscrolls⟩
            · exact herases (Or.inr ⟨c, hc, htarget, herase⟩)
            · exact hscroll ⟨c, hc, htarget, hscrolls⟩)
          rw [← hchannel] at hstays
          exact hstays.cells page k hbefore hafter
        · exact absurd (Or.inl hresets) herases
        · exact (hstays i hi trivial).cells page k hbefore hafter
    · intro i hi hscroll hlast
      rw [handle_scrolls h hwhole hstep hscroll]
      exact scrollUp_rolledUp (h i hi) _ hlast (htidy i hi hscroll)

theorem run_placed {network : Network} {events : List Event}
    (whole : Permitted handle SwitchedWhole (captionInit network) events) {d : Decoder}
    (hrun : run handle (captionInit network) events = some d) : AllPlaced d :=
  run_invariant AllPlaced (fun _ _ _ h hok hs => (handle_cases h hok hs).1)
    (fun _ _ => resetChannel_placed rfl _) whole hrun

instance (d : Decoder) : (e : Event) → Decidable (Resets d e)
  | .pair line b0 b1 => inferInstanceAs (Decidable (line = 284 ∧ Identifies d b0 b1 = true))
  | .channelSwitched => inferInstanceAs (Decidable True)

instance (d : Decoder) (e : Event) : Decidable (SwitchedWhole d e) :=
  inferInstanceAs (Decidable (_ → _))

instance (d : Decoder) (e : Event) (i : Nat) : Decidable (ScrollsIn d e i) :=
  inferInstanceAs (Decidable (∃ c ∈ eventCommand d e, _))

instance (d : Decoder) (e : Event) : Decidable (Tidy d e) :=
  inferInstanceAs (Decidable (∀ i < 9, _ → _))

/-- Roll-up captions in rows 3 and 4, paint-on captions in row 9, and a carriage return in
row 8. -/
def paintOnReturn : List Event :=
  [.pair 21 0x94 0x25, .pair 21 0x15 0x40, .pair 21 0x94 0x29, .pair 21 0x97 0xE0,
    .pair 21 0xC1 0x20, .pair 21 0x97 0x40]

end CaptionRowRuns

import Zvbi.Cc608Format

/-!
# What a pair of bytes does to a channel

A pair changes one channel at most. It is a command from a short list, which depends on
the decoder only through the current channel, the expected repetition and the mode of
the channel addressed. What the commands keep holds after every sequence of pairs.
-/

namespace Cc608Commands
open Hamming Cc608Decoder Cc608Decoder.Decoder Cc608Format

inductive Command
  | resumeCaptionLoading
  | backspace
  | deleteToEndOfRow
  | rollUpCaption (c2 : Nat)
  | resumeDirectCaptioning
  | textRestart
  | eraseDisplayedMemory
  | carriageReturn
  | eraseNonDisplayedMemory
  | endOfCaption
  | putChar (c : Nat) (displayable backspace : Bool)
  | extControlCode (c2 : Nat)
  | preambleAddressCode (c1 c2 : Nat)
  | characters (c1 c2 : Int)

namespace Command

def act : Command → Channel → Channel
  | resumeCaptionLoading, ch => ch.resumeCaptionLoading
  | backspace, ch => ch.backspace
  | deleteToEndOfRow, ch => ch.deleteToEndOfRow
  | rollUpCaption c2, ch => ch.rollUpCaption c2
  | resumeDirectCaptioning, ch => ch.resumeDirectCaptioning
  | textRestart, ch => ch.textRestart
  | eraseDisplayedMemory, ch => ch.eraseDisplayedMemory
  | carriageReturn, ch => ch.carriageReturn
  | eraseNonDisplayedMemory, ch => ch.eraseMemory (!ch.displayedBuffer)
  | endOfCaption, ch => ch.endOfCaption
  | putChar c displayable bs, ch => ch.putChar c displayable bs
  | extControlCode c2, ch => ch.extControlCode c2
  | preambleAddressCode c1 c2, ch => ch.preambleAddressCode c1 c2
  | characters c1 c2, ch => ((ch.characters c1).1.characters c2).1

/-- The arguments a command may have, and the mode it requires. -/
def Allowed : Command → Mode → Prop
  | rollUpCaption c2, _ => 5 ≤ c2 &&& 7 ∧ c2 &&& 7 ≤ 7
  | backspace, mode | deleteToEndOfRow, mode | extControlCode _, mode => mode ≠ .unknown
  | putChar c displayable _, mode => mode ≠ .unknown ∧ Code c ∧ (displayable → c ≠ 0)
  | preambleAddressCode _ c2, _ => 0x40 ≤ c2 ∧ c2 < 0x80
  | characters c1 c2, _ => c1 < 0x80 ∧ c2 < 0x80
  | _, _ => True

end Command

def ifActive (d : Decoder) (k : ChannelNum) (f : FieldNum) (c : Command) :
    Option (ChannelNum × Command) :=
  if d.active k f then some (k, c) else none

def miscCommand (d : Decoder) (k : ChannelNum) (c2 : Nat) (f : FieldNum) :
    Option (ChannelNum × Command) :=
  let caption := { k with text := false }
  match c2 &&& 15 with
  | 0 => some (caption, .resumeCaptionLoading)
  | 1 => ifActive d k f .backspace
  | 4 => ifActive d k f .deleteToEndOfRow
  | 5 | 6 | 7 => some (caption, .rollUpCaption c2)
  | 8 => ifActive d k f (.putChar 0x1428 false false)
  | 9 => some (caption, .resumeDirectCaptioning)
  | 10 => some ({ k with text := true }, .textRestart)
  | 12 => some (caption, .eraseDisplayedMemory)
  | 13 => if (d.currChNum f).isSome then some (k, .carriageReturn) else none
  | 14 => some (caption, .eraseNonDisplayedMemory)
  | 15 => some (caption, .endOfCaption)
  | _ => none

def controlCommand (d : Decoder) (c1 c2 : Nat) (f : FieldNum) : Option (ChannelNum × Command) :=
  let k := d.controlChannel c1 f
  if 0x40 ≤ c2 then
    if (d.currChNum f).isSome then some (k, .preambleAddressCode c1 c2) else none
  else
    match c1 &&& 7 with
    | 0 => if c2 < 0x30 then ifActive d k f (.putChar (0x1000 ||| c2) false true) else none
    | 1 =>
      ifActive d k f <|
        if c2 < 0x30 then .putChar (0x1100 ||| c2) false false
        else if c2 = 0x39 then .putChar 0 false false
        else .putChar (0x1100 ||| c2) true false
    | 2 | 3 => ifActive d k f (.putChar ((c1 * 256 + c2) &&& 0x777F) true true)
    | 4 | 5 => if c2 < 0x30 then miscCommand d k c2 f else none
    | 7 => ifActive d k f (.extControlCode c2)
    | _ => none

def characterCommand (d : Decoder) (c1 c2 : Int) (f : FieldNum) : Option (ChannelNum × Command) :=
  (d.characterChannel f).map fun k => (k, .characters c1 c2)

/-- The command in a pair of bytes of field `f`. -/
def fieldCommand (d : Decoder) (c1 c2 : Int) (f : FieldNum) : Option (ChannelNum × Command) :=
  if c1 < 0 then none
  else if d.expectCtrl f = some (c1, c2) then none
  else if 0x10 ≤ c1 ∧ c1 < 0x20 then
    if c2 < 0x20 then none else controlCommand (d.setXds f false) c1.toNat c2.toNat f
  else if c1 < 0x10 then
    if f = .field1 then characterCommand d 0 c2 f
    else if c1 = 0x0F then none
    else if 0x01 ≤ c1 then none
    else characterCommand d c1 c2 f
  else
    characterCommand d c1 c2 f

def command (d : Decoder) (buffer : UInt8 × UInt8) (line : Nat) : Option (ChannelNum × Command) :=
  match lineField line with
  | none => none
  | some f => fieldCommand d (vbiUnpar8 buffer.1) (vbiUnpar8 buffer.2) f

def perform (channel : ChannelNum → Channel) : Option (ChannelNum × Command) → ChannelNum → Channel
  | none => channel
  | some (k, c) => Function.update channel k (c.act (channel k))

theorem onActive_channel (d : Decoder) (k : ChannelNum) (f : FieldNum) (c : Command) :
    (d.onActive k f c.act).channel = perform d.channel (ifActive d k f c) := by
  rw [onActive, ifActive]
  split <;> rfl

theorem miscControlCode_channel (d : Decoder) (k : ChannelNum) (c2 : Nat) (f : FieldNum) :
    (d.miscControlCode k c2 f).channel = perform d.channel (miscCommand d k c2 f) := by
  have hn : c2 &&& 15 < 16 := Nat.lt_succ_of_le Nat.and_le_right
  rw [miscControlCode, miscCommand]
  generalize c2 &&& 15 = n at hn
  interval_cases n
  case «1» => exact onActive_channel d k f .backspace
  case «4» => exact onActive_channel d k f .deleteToEndOfRow
  case «8» => exact onActive_channel d k f (.putChar 0x1428 false false)
  case «13» =>
    show (if (d.currChNum f).isSome then _ else d).channel = _
    split <;> rfl
  all_goals rfl

/-- The command of a special character, of a midrow code or of a transparent space. -/
theorem specialCode_act (c2 : Nat) :
    (fun ch : Channel =>
      if c2 < 0x30 then ch.putChar (0x1100 ||| c2) false false
      else if c2 = 0x39 then ch.putChar 0 false false
      else ch.putChar (0x1100 ||| c2) true false) =
    Command.act (if c2 < 0x30 then .putChar (0x1100 ||| c2) false false
      else if c2 = 0x39 then .putChar 0 false false
      else .putChar (0x1100 ||| c2) true false) := by
  split
  · rfl
  · split <;> rfl

theorem controlCode_channel (d : Decoder) (c1 c2 : Nat) (f : FieldNum) :
    (d.controlCode c1 c2 f).channel = perform d.channel (controlCommand d c1 c2 f) := by
  rw [controlCode, controlCommand]
  generalize d.controlChannel c1 f = k
  by_cases hpac : 0x40 ≤ c2
  · rw [if_pos hpac, if_pos hpac]
    split <;> rfl
  rw [if_neg hpac, if_neg hpac, specialCode_act]
  have hn : c1 &&& 7 < 8 := Nat.lt_succ_of_le Nat.and_le_right
  generalize c1 &&& 7 = n at hn
  interval_cases n
  case «0» =>
    show (if c2 < 0x30 then _ else d).channel = perform _ (if c2 < 0x30 then _ else none)
    split
    · exact onActive_channel d k f (.putChar (0x1000 ||| c2) false true)
    · rfl
  case «1» => exact onActive_channel d k f _
  case «2» => exact onActive_channel d k f (.putChar ((c1 * 256 + c2) &&& 0x777F) true true)
  case «3» => exact onActive_channel d k f (.putChar ((c1 * 256 + c2) &&& 0x777F) true true)
  case «6» => rfl
  case «7» => exact onActive_channel d k f (.extControlCode c2)
  all_goals
    show (if c2 < 0x30 then _ else d).channel = perform _ (if c2 < 0x30 then _ else none)
    split
    · exact miscControlCode_channel d k c2 f
    · rfl

theorem feedCharacters_channel (d : Decoder) (c1 c2 : Int) (f : FieldNum) :
    (d.feedCharacters c1 c2 f).1.channel = perform d.channel (characterCommand d c1 c2 f) := by
  rw [feedCharacters, characterCommand]
  cases d.characterChannel f with
  | none => rfl
  | some k => rfl

theorem feedField_channel (d : Decoder) (c1 c2 : Int) (f : FieldNum) :
    (d.feedField c1 c2 f).1.channel = perform d.channel (fieldCommand d c1 c2 f) := by
  rw [feedField, fieldCommand]
  dsimp only
  by_cases hparity : c1 < 0
  · rw [if_pos hparity, if_pos hparity]
    rfl
  rw [if_neg hparity, if_neg hparity]
  by_cases hexpect : d.expectCtrl f = some (c1, c2)
  · rw [if_pos hexpect, if_pos hexpect]
    rfl
  rw [if_neg hexpect, if_neg hexpect]
  by_cases hcontrol : 0x10 ≤ c1 ∧ c1 < 0x20
  · rw [if_pos hcontrol, if_pos hcontrol]
    split
    · rfl
    · exact controlCode_channel (d.setXds f false) c1.toNat c2.toNat f
  rw [if_neg hcontrol, if_neg hcontrol]
  by_cases hxds : c1 < 0x10
  · rw [if_pos hxds, if_pos hxds]
    split
    · exact feedCharacters_channel (d.setExpect f none) 0 c2 f
    split
    · rfl
    split
    · rfl
    · exact feedCharacters_channel (d.setExpect f none) c1 c2 f
  · rw [if_neg hxds, if_neg hxds]
    exact feedCharacters_channel (d.setExpect f none) c1 c2 f

theorem feed_channel (d : Decoder) (buffer : UInt8 × UInt8) (line : Nat) :
    (d.feed buffer line).1.channel = perform d.channel (command d buffer line) := by
  rw [feed, command]
  cases lineField line with
  | none => rfl
  | some f => exact feedField_channel d (vbiUnpar8 buffer.1) (vbiUnpar8 buffer.2) f

instance (c : Nat) : Decidable (Preamble c) := inferInstanceAs (Decidable (_ ∨ _))

instance (c : Nat) : Decidable (Code c) := inferInstanceAs (Decidable (_ ∨ _))

theorem backgroundCode : ∀ c2 < 0x30, 0x20 ≤ c2 → Code (0x1000 ||| c2) := by decide

theorem specialCode : ∀ c2 < 0x40, 0x20 ≤ c2 → c2 ≠ 0x39 → Code (0x1100 ||| c2) := by decide

theorem extendedCode : ∀ c1 < 0x20, c1 &&& 7 = 2 ∨ c1 &&& 7 = 3 → 0x10 ≤ c1 →
    ∀ c2 < 0x40, 0x20 ≤ c2 → Code ((c1 * 256 + c2) &&& 0x777F) := by decide +kernel

theorem extendedCode_pos : ∀ c1 < 0x20, c1 &&& 7 = 2 ∨ c1 &&& 7 = 3 → 0x10 ≤ c1 →
    ∀ c2 < 0x40, 0 < (c1 * 256 + c2) &&& 0x777F := by decide +kernel

theorem vbiUnpar8_lt (b : UInt8) : vbiUnpar8 b < 0x80 := by
  by_cases h : 0 ≤ vbiUnpar8 b
  · rw [vbiUnpar8_of_nonneg b h]
    have hle : (b &&& 0x7F).toNat ≤ 0x7F := Nat.and_le_right
    omega
  · omega

def Permitted (channel : ChannelNum → Channel) (o : Option (ChannelNum × Command)) : Prop :=
  ∀ x ∈ o, x.2.Allowed (channel x.1).mode

theorem permitted_none (channel : ChannelNum → Channel) : Permitted channel none :=
  fun _ hx => absurd hx (Option.not_mem_none _)

variable {c : Command} {k : ChannelNum} {d : Decoder} {c2 : Nat} {c1 : Int} {inv : Channel → Prop}

theorem permitted_some {channel : ChannelNum → Channel} (h : c.Allowed (channel k).mode) :
    Permitted channel (some (k, c)) := by
  intro x hx
  rw [← Option.mem_some.mp hx]
  exact h

theorem permitted_ifActive {f : FieldNum}
    (h : (d.channel k).mode ≠ .unknown → c.Allowed (d.channel k).mode) :
    Permitted d.channel (ifActive d k f c) := by
  rw [ifActive]
  split
  · rename_i hactive
    rw [active, Bool.and_eq_true, bne_iff_ne] at hactive
    exact permitted_some (h hactive.2)
  · exact permitted_none d.channel

theorem miscCommand_permitted (d : Decoder) (k : ChannelNum) (c2 : Nat) (f : FieldNum) :
    Permitted d.channel (miscCommand d k c2 f) := by
  have hn : c2 &&& 15 < 16 := Nat.lt_succ_of_le Nat.and_le_right
  have hrows : c2 &&& 7 = (c2 &&& 15) &&& 7 := by
    rw [Nat.and_assoc]
    rfl
  rw [miscCommand]
  generalize c2 &&& 15 = n at hn hrows
  interval_cases n
  case «1» => exact permitted_ifActive id
  case «4» => exact permitted_ifActive id
  case «8» => exact permitted_ifActive fun h => ⟨h, by decide, fun hc => absurd hc (by decide)⟩
  case «13» =>
    show Permitted d.channel (if (d.currChNum f).isSome then _ else none)
    split
    · exact permitted_some trivial
    · exact permitted_none d.channel
  case «5» | «6» | «7» =>
    refine permitted_some ?_
    rw [Command.Allowed, hrows]
    decide
  all_goals first | exact permitted_none d.channel | exact permitted_some trivial

theorem specialCommand_allowed (hlow : 0x20 ≤ c2) (hhigh : c2 < 0x40) {mode : Mode}
    (h : mode ≠ .unknown) :
    (if c2 < 0x30 then Command.putChar (0x1100 ||| c2) false false
      else if c2 = 0x39 then .putChar 0 false false
      else .putChar (0x1100 ||| c2) true false).Allowed mode := by
  by_cases hmidrow : c2 < 0x30
  · rw [if_pos hmidrow]
    exact ⟨h, specialCode c2 hhigh hlow (by omega), fun hc => absurd hc (by decide)⟩
  rw [if_neg hmidrow]
  by_cases htransparent : c2 = 0x39
  · rw [if_pos htransparent]
    exact ⟨h, by decide, fun hc => absurd hc (by decide)⟩
  · rw [if_neg htransparent]
    refine ⟨h, specialCode c2 hhigh hlow htransparent, fun _ => ?_⟩
    have hle : 0x1100 ≤ 0x1100 ||| c2 := Nat.left_le_or
    omega

theorem controlCommand_permitted (d : Decoder) {c1 : Nat} (hc1 : 0x10 ≤ c1 ∧ c1 < 0x20)
    (hc2 : 0x20 ≤ c2 ∧ c2 < 0x80) (f : FieldNum) :
    Permitted d.channel (controlCommand d c1 c2 f) := by
  rw [controlCommand]
  generalize d.controlChannel c1 f = k
  by_cases hpac : 0x40 ≤ c2
  · rw [if_pos hpac]
    split
    · exact permitted_some ⟨hpac, hc2.2⟩
    · exact permitted_none d.channel
  rw [if_neg hpac]
  have hn : c1 &&& 7 < 8 := Nat.lt_succ_of_le Nat.and_le_right
  have hextended : c1 &&& 7 = 2 ∨ c1 &&& 7 = 3 →
      Code ((c1 * 256 + c2) &&& 0x777F) ∧ 0 < (c1 * 256 + c2) &&& 0x777F := fun h =>
    ⟨extendedCode c1 hc1.2 h hc1.1 c2 (by omega) hc2.1,
      extendedCode_pos c1 hc1.2 h hc1.1 c2 (by omega)⟩
  generalize c1 &&& 7 = n at hn hextended
  interval_cases n
  case «0» =>
    show Permitted d.channel (if c2 < 0x30 then _ else none)
    split
    · rename_i hlow
      exact permitted_ifActive fun h =>
        ⟨h, backgroundCode c2 hlow hc2.1, fun hc => absurd hc (by decide)⟩
    · exact permitted_none d.channel
  case «1» => exact permitted_ifActive (specialCommand_allowed hc2.1 (by omega))
  case «2» =>
    have hcode := hextended (Or.inl rfl)
    exact permitted_ifActive fun h => ⟨h, hcode.1, fun _ => hcode.2.ne'⟩
  case «3» =>
    have hcode := hextended (Or.inr rfl)
    exact permitted_ifActive fun h => ⟨h, hcode.1, fun _ => hcode.2.ne'⟩
  case «6» => exact permitted_none d.channel
  case «7» => exact permitted_ifActive id
  all_goals
    show Permitted d.channel (if c2 < 0x30 then _ else none)
    split
    · exact miscCommand_permitted d k c2 f
    · exact permitted_none d.channel

theorem characterCommand_permitted (d : Decoder) {c2 : Int} (hc1 : c1 < 0x80) (hc2 : c2 < 0x80)
    (f : FieldNum) : Permitted d.channel (characterCommand d c1 c2 f) := by
  rw [characterCommand]
  cases d.characterChannel f with
  | none => exact permitted_none d.channel
  | some k => exact permitted_some ⟨hc1, hc2⟩

theorem fieldCommand_permitted (d : Decoder) {c2 : Int} (hc1 : c1 < 0x80) (hc2 : c2 < 0x80)
    (f : FieldNum) : Permitted d.channel (fieldCommand d c1 c2 f) := by
  rw [fieldCommand]
  split
  · exact permitted_none d.channel
  split
  · exact permitted_none d.channel
  split
  · split
    · exact permitted_none d.channel
    · exact controlCommand_permitted (d.setXds f false) (by omega) (by omega) f
  split
  · split
    · exact characterCommand_permitted d (by decide) hc2 f
    split
    · exact permitted_none d.channel
    split
    · exact permitted_none d.channel
    · exact characterCommand_permitted d hc1 hc2 f
  · exact characterCommand_permitted d hc1 hc2 f

theorem command_permitted (d : Decoder) (buffer : UInt8 × UInt8) (line : Nat) :
    Permitted d.channel (command d buffer line) := by
  rw [command]
  cases lineField line with
  | none => exact permitted_none d.channel
  | some f => exact fieldCommand_permitted d (vbiUnpar8_lt buffer.1) (vbiUnpar8_lt buffer.2) f

/-- What a step of the decoder keeps of its channels. -/
theorem step_invariant {op : Op}
    (hreset : ∀ k ch, inv (resetChannel k ch))
    (hact : ∀ buffer line, op = .feed buffer line → ∀ x ∈ command d buffer line,
      inv (d.channel x.1) → inv (x.2.act (d.channel x.1)))
    (h : ∀ k, inv (d.channel k)) (k : ChannelNum) : inv ((d.step op).channel k) := by
  cases op with
  | reset => exact hreset k (d.channel k)
  | feed buffer line =>
    have hchannel := feed_channel d buffer line
    show inv ((d.feed buffer line).1.channel k)
    rw [hchannel]
    cases hcommand : command d buffer line with
    | none => exact h k
    | some x =>
      show inv (Function.update d.channel x.1 (x.2.act (d.channel x.1)) k)
      by_cases hk : k = x.1
      · rw [hk, Function.update_self]
        exact hact buffer line rfl x hcommand (h x.1)
      · rw [Function.update_of_ne hk]
        exact h k

/-- What every allowed command keeps holds after every sequence of calls. -/
theorem run_invariant (hreset : ∀ k ch, inv (resetChannel k ch))
    (hact : ∀ (c : Command) (ch : Channel), c.Allowed ch.mode → inv ch → inv (c.act ch))
    (ops : List Op) (k : ChannelNum) : inv ((run ops).channel k) := by
  have hrun : ∀ d : Decoder, (∀ k, inv (d.channel k)) →
      ∀ k, inv ((ops.foldl step d).channel k) := by
    induction ops with
    | nil => exact fun _ h => h
    | cons op ops ih =>
      intro d h
      apply ih (d.step op)
      apply step_invariant hreset _ h
      intro buffer line _ x hx
      exact hact x.2 (d.channel x.1) (command_permitted d buffer line x hx)
  exact hrun init (fun k => hreset k _) k

end Cc608Commands

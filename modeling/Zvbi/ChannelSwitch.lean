import Mathlib.Data.List.Basic
import Mathlib.Tactic.SplitIfs

/-!
# Announced channel switches

`vbi_channel_switched` only sets a countdown, which `vbi_decode` runs down in the frames
whose time stamps follow each other closely. What the services do with a line, and what the
event handlers do, is a parameter: they can change everything but the time of the decoder,
also the countdown.
-/

namespace ChannelSwitch

/-- The `double` operations on time stamps. -/
structure Clock (Time : Type*) where
  /-- `0.0`. -/
  zero : Time
  /-- `0.025`. -/
  shortest : Time
  /-- `0.050`. -/
  longest : Time
  sub : Time → Time → Time
  /-- Whether the first is less than the second. -/
  less : Time → Time → Bool

/-- `vbi_sliced`. -/
structure Sliced where
  id : BitVec 32
  line : Nat
  data : List UInt8
  deriving DecidableEq, Repr

inductive Action where
  /-- `vbi_chsw_reset` was called. -/
  | reset
  /-- The line was handed to its service. -/
  | decoded (sliced : Sliced)
  deriving DecidableEq, Repr

inductive Event where
  | network
  | aspect (firstLine lastLine : Nat)
  deriving DecidableEq, Repr

/-- The fields of `vbi_decoder` other than the time. -/
structure Fields (Services : Type*) where
  chswcd : Int
  eventMask : BitVec 32
  /-- `network.ev.network.nuid`. -/
  nuid : BitVec 32
  aspectSource : Int
  /-- The cached network, the Teletext and caption decoders, triggers and program info. -/
  services : Services
  deriving DecidableEq, Repr

structure Decoder (Time Services : Type*) where
  time : Time
  fields : Fields Services
  actions : List Action
  deriving DecidableEq, Repr

structure Parts (Time Services : Type*) where
  decodeTeletext : Time → Fields Services → List UInt8 → Fields Services × List Action
  decodeCaption : Time → Fields Services → Nat → List UInt8 → Fields Services × List Action
  decodeVps : Time → Fields Services → List UInt8 → Fields Services × List Action
  decodeWss625 : Time → Fields Services → List UInt8 → Time → Fields Services × List Action
  decodeWssCpr1204 : Time → Fields Services → List UInt8 → Fields Services × List Action
  deferredTrigger : Time → Fields Services → Fields Services
  teletextDesync : Services → Services
  captionDesync : Services → Services
  /-- A new network in the cache, and `vbi_teletext_channel_switched`,
  `vbi_caption_channel_switched`. -/
  newChannel : Services → Services
  triggerFlush : Services → Services
  /-- `vbi_reset_prog_info` and the WSS and header page fields. -/
  resetProgInfo : Services → Services
  sendEvent : Event → Fields Services → Fields Services

variable {Time Services : Type*}

/-- `VBI_SLICED_TELETEXT_B`. -/
def slicedTeletextB : BitVec 32 := 0x3

/-- `VBI_SLICED_CAPTION_525` and `VBI_SLICED_CAPTION_625`. -/
def slicedCaption : BitVec 32 := 0x78

def slicedVps : BitVec 32 := 0x4

def slicedWss625 : BitVec 32 := 0x400

def slicedWssCpr1204 : BitVec 32 := 0x800

def teletextEvents : BitVec 32 := 0xD0A

def captionEvents : BitVec 32 := 0xD0C

def eventTrigger : BitVec 32 := 0x10

/-- `vbi_chsw_reset`. -/
def chswReset (parts : Parts Time Services) (identified : BitVec 32) (f : Fields Services) :
    Fields Services :=
  let oldNuid := f.nuid
  let f := { f with services := parts.newChannel f.services }
  let f :=
    if identified = 0 then
      let f := { f with nuid := 0 }
      if oldNuid ≠ 0 then parts.sendEvent .network f else f
    else f
  let f := { f with services := parts.triggerFlush f.services }
  let f :=
    if 0 < f.aspectSource then
      parts.sendEvent
        (.aspect (if f.aspectSource = 1 then 23 else 22) (if f.aspectSource = 1 then 310 else 262))
        f
    else f
  { f with services := parts.resetProgInfo f.services, aspectSource := 0, chswcd := 0 }

/-- `vbi_channel_switched`. -/
def channelSwitched (vbi : Decoder Time Services) : Decoder Time Services :=
  { vbi with fields := { vbi.fields with chswcd := 1 } }

/-- The time stamp does not follow the one of the frame before. -/
def FrameDropped (clock : Clock Time) (last time : Time) : Prop :=
  clock.less clock.zero last = true ∧
    (clock.less (clock.sub time last) clock.shortest = true ∨
      clock.less clock.longest (clock.sub time last) = true)

instance (clock : Clock Time) (last time : Time) : Decidable (FrameDropped clock last time) :=
  inferInstanceAs (Decidable (_ ∧ _))

/-- The countdown at the start of `vbi_decode`. -/
def countDown (parts : Parts Time Services) (clock : Clock Time) (vbi : Decoder Time Services)
    (time : Time) : Decoder Time Services :=
  let f := vbi.fields
  if FrameDropped clock vbi.time time then
    -- A switch is assumed if the frames do not become regular in about 1.5 s.
    let f := { f with chswcd := if f.chswcd = 0 then 40 else f.chswcd }
    let f :=
      if f.eventMask &&& teletextEvents ≠ 0 then
        { f with services := parts.teletextDesync f.services }
      else f
    let f :=
      if f.eventMask &&& captionEvents ≠ 0 then
        { f with services := parts.captionDesync f.services }
      else f
    { vbi with fields := f }
  else if 0 < f.chswcd then
    let f := { f with chswcd := f.chswcd - 1 }
    if f.chswcd = 0 then
      { vbi with fields := chswReset parts 0 f, actions := vbi.actions ++ [.reset] }
    else { vbi with fields := f }
  else vbi

/-- One line of the loop of `vbi_decode`. -/
def decodeLine (parts : Parts Time Services) (time : Time) (vbi : Decoder Time Services)
    (sliced : Sliced) : Decoder Time Services :=
  let decoded (result : Fields Services × List Action) : Decoder Time Services :=
    { vbi with
      fields := result.1
      actions := vbi.actions ++ .decoded sliced :: result.2 }
  if sliced.id &&& slicedTeletextB ≠ 0 then
    decoded (parts.decodeTeletext vbi.time vbi.fields sliced.data)
  else if sliced.id &&& slicedCaption ≠ 0 then
    decoded (parts.decodeCaption vbi.time vbi.fields sliced.line sliced.data)
  else if sliced.id &&& slicedVps ≠ 0 then
    decoded (parts.decodeVps vbi.time vbi.fields sliced.data)
  else if sliced.id &&& slicedWss625 ≠ 0 then
    decoded (parts.decodeWss625 vbi.time vbi.fields sliced.data time)
  else if sliced.id &&& slicedWssCpr1204 ≠ 0 then
    decoded (parts.decodeWssCpr1204 vbi.time vbi.fields sliced.data)
  else vbi

/-- The rest of `vbi_decode`: the lines, then the triggers that are due. -/
def decodeLines (parts : Parts Time Services) (time : Time) (vbi : Decoder Time Services)
    (sliced : List Sliced) : Decoder Time Services :=
  let vbi := sliced.foldl (decodeLine parts time) vbi
  if vbi.fields.eventMask &&& eventTrigger ≠ 0 then
    { vbi with fields := parts.deferredTrigger vbi.time vbi.fields }
  else vbi

/-- `vbi_decode`. -/
def decode (parts : Parts Time Services) (clock : Clock Time) (vbi : Decoder Time Services)
    (sliced : List Sliced) (time : Time) : Decoder Time Services :=
  let vbi := countDown parts clock vbi time
  let vbi := { vbi with time := if clock.less vbi.time time then time else vbi.time }
  decodeLines parts time vbi sliced

/-- The call resets the decoder before it decodes a line. -/
def ResetsFirst (parts : Parts Time Services) (clock : Clock Time)
    (vbi : Decoder Time Services) (sliced : List Sliced) (time : Time) : Prop :=
  ∃ rest, (decode parts clock vbi sliced time).actions = vbi.actions ++ .reset :: rest

section lines

variable (parts : Parts Time Services) (time : Time)

theorem decodeLine_actions (vbi : Decoder Time Services) (sliced : Sliced) :
    (decodeLine parts time vbi sliced).actions = vbi.actions ∨
      ∃ rest, (decodeLine parts time vbi sliced).actions =
        vbi.actions ++ .decoded sliced :: rest := by
  unfold decodeLine
  split_ifs
  · exact .inr ⟨_, rfl⟩
  · exact .inr ⟨_, rfl⟩
  · exact .inr ⟨_, rfl⟩
  · exact .inr ⟨_, rfl⟩
  · exact .inr ⟨_, rfl⟩
  · exact .inl rfl

theorem decodeLine_time (vbi : Decoder Time Services) (sliced : Sliced) :
    (decodeLine parts time vbi sliced).time = vbi.time := by
  unfold decodeLine
  split_ifs <;> rfl

theorem foldl_prefix (vbi : Decoder Time Services) (sliced : List Sliced) :
    ∃ rest, (sliced.foldl (decodeLine parts time) vbi).actions = vbi.actions ++ rest := by
  induction sliced generalizing vbi with
  | nil => exact ⟨[], (List.append_nil _).symm⟩
  | cons line sliced ih =>
    obtain ⟨rest, hrest⟩ := ih (decodeLine parts time vbi line)
    rw [List.foldl_cons, hrest]
    rcases decodeLine_actions parts time vbi line with hsame | ⟨more, hmore⟩
    · exact ⟨rest, by rw [hsame]⟩
    · exact ⟨.decoded line :: more ++ rest, by rw [hmore, List.append_assoc]⟩

theorem foldl_not_reset (vbi : Decoder Time Services) (sliced : List Sliced)
    (rest : List Action) :
    (sliced.foldl (decodeLine parts time) vbi).actions ≠ vbi.actions ++ .reset :: rest := by
  induction sliced generalizing vbi with
  | nil =>
    intro hreset
    have hlength := congrArg List.length hreset
    rw [List.foldl_nil, List.length_append, List.length_cons] at hlength
    omega
  | cons line sliced ih =>
    rw [List.foldl_cons]
    rcases decodeLine_actions parts time vbi line with hsame | ⟨more, hmore⟩
    · rw [← hsame]
      exact ih _
    · intro hreset
      obtain ⟨tail, htail⟩ := foldl_prefix parts time (decodeLine parts time vbi line) sliced
      rw [hreset, hmore, List.append_assoc, List.append_cancel_left_eq] at htail
      cases htail

theorem foldl_time (vbi : Decoder Time Services) (sliced : List Sliced) :
    (sliced.foldl (decodeLine parts time) vbi).time = vbi.time := by
  induction sliced generalizing vbi with
  | nil => rfl
  | cons line sliced ih =>
    rw [List.foldl_cons, ih]
    exact decodeLine_time parts time vbi line

/-- The triggers at the end of a frame leave the time and the actions alone. -/
theorem decodeLines_frame (vbi : Decoder Time Services) (sliced : List Sliced) :
    (decodeLines parts time vbi sliced).time = vbi.time ∧
      (decodeLines parts time vbi sliced).actions =
        (sliced.foldl (decodeLine parts time) vbi).actions := by
  simp only [decodeLines]
  split_ifs
  · exact ⟨foldl_time parts time vbi sliced, rfl⟩
  · exact ⟨foldl_time parts time vbi sliced, rfl⟩

end lines

section switching

variable (parts : Parts Time Services) (clock : Clock Time)

/-- The countdown resets the decoder in its last frame, unless frames were dropped. -/
theorem countDown_actions (vbi : Decoder Time Services) (time : Time) :
    (countDown parts clock vbi time).actions = vbi.actions ++
      if vbi.fields.chswcd = 1 ∧ ¬ FrameDropped clock vbi.time time then [.reset] else [] := by
  unfold countDown
  by_cases hdropped : FrameDropped clock vbi.time time
  · simp [hdropped]
  · by_cases hlast : vbi.fields.chswcd = 1
    · simp [hdropped, hlast]
    · have hmore : ¬ vbi.fields.chswcd - 1 = 0 := by omega
      simp only [hdropped, hlast, hmore, if_false, false_and, List.append_nil]
      split_ifs
      · rfl
      · rfl

/-- A frame begins with a reset if and only if the countdown is in its last frame and the
time stamps are regular. -/
theorem resetsFirst_iff (vbi : Decoder Time Services) (sliced : List Sliced) (time : Time) :
    ResetsFirst parts clock vbi sliced time ↔
      vbi.fields.chswcd = 1 ∧ ¬ FrameDropped clock vbi.time time := by
  have hcount := countDown_actions parts clock vbi time
  unfold ResetsFirst decode
  simp only [(decodeLines_frame parts time _ sliced).2]
  constructor
  · rintro ⟨rest, hrest⟩
    by_contra hnot
    rw [if_neg hnot, List.append_nil] at hcount
    rw [← hcount] at hrest
    exact foldl_not_reset parts time _ sliced rest hrest
  · intro hreset
    rw [if_pos hreset] at hcount
    obtain ⟨rest, hrest⟩ := foldl_prefix parts time
      { countDown parts clock vbi time with
        time := if clock.less (countDown parts clock vbi time).time time then time
          else (countDown parts clock vbi time).time } sliced
    refine ⟨rest, ?_⟩
    rw [hrest]
    change (countDown parts clock vbi time).actions ++ rest = _
    rw [hcount, List.append_assoc]
    rfl

/-- After `vbi_channel_switched` the next frame begins with the reset if and only if its time
stamp follows the one of the frame before. An event handler that made the request can lose it
too, to the lines decoded in the rest of its frame. -/
theorem switched_resets (vbi : Decoder Time Services) (sliced : List Sliced) (time : Time) :
    (ResetsFirst parts clock (channelSwitched vbi) sliced time ↔
        ¬ FrameDropped clock vbi.time time) ∧
      ∀ (now : Time) (remaining : List Sliced),
        ResetsFirst parts clock (decodeLines parts now (channelSwitched vbi) remaining) sliced
            time ↔
          (decodeLines parts now (channelSwitched vbi) remaining).fields.chswcd = 1 ∧
            ¬ FrameDropped clock vbi.time time := by
  constructor
  · rw [resetsFirst_iff]
    exact and_iff_right rfl
  · intro now remaining
    have htime := (decodeLines_frame parts now (channelSwitched vbi) remaining).1
    rw [resetsFirst_iff, htime]
    rfl

end switching

def milliseconds : Clock Int where
  zero := 0
  shortest := 25
  longest := 50
  sub last first := last - first
  less a b := decide (a < b)

def idle : Parts Int Unit where
  decodeTeletext _ f _ := (f, [])
  decodeCaption _ f _ _ := (f, [])
  decodeVps _ f _ := (f, [])
  decodeWss625 _ f _ _ := (f, [])
  decodeWssCpr1204 _ f _ := (f, [])
  deferredTrigger _ f := f
  teletextDesync _ := ()
  captionDesync _ := ()
  newChannel _ := ()
  triggerFlush _ := ()
  resetProgInfo _ := ()
  sendEvent _ f := f

def tuned : Decoder Int Unit where
  time := 1000
  fields := { chswcd := 0, eventMask := 0, nuid := 0, aspectSource := 0, services := () }
  actions := []

/-- After a gap of 80 ms a line of the new channel is decoded without the reset. -/
theorem switch_not_reset :
    (decode idle milliseconds (channelSwitched tuned) [⟨2, 7, []⟩] 1080).actions =
      [.decoded ⟨2, 7, []⟩] := by
  decide

end ChannelSwitch

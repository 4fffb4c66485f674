import Zvbi.SlicedFilter

/-!
# Captured frames and the messages they are sent in

A frame is read into a buffer of the device which is as large as its format asks for. A
client gets the lines of the services it asked for, in a message allocated for it.
-/

namespace ProxyFrameForward
open SlicedFilter (VbiSliced)

section
universe u
variable {α : Type u}

/-- The first elements are as many of those with a property as they can be, exactly if no other
element or each of the first ones has it. -/
theorem filter_take_iff (p : α → Bool) (xs : List α) (n : Nat) :
    (xs.take n).filter p = (xs.filter p).take n ↔
      (∀ x ∈ xs.drop n, p x = false) ∨ ∀ x ∈ xs.take n, p x = true := by
  have hsplit : xs.filter p = (xs.take n).filter p ++ (xs.drop n).filter p := by
    rw [← List.filter_append, List.take_append_drop]
  have hle : ((xs.take n).filter p).length ≤ n :=
    Nat.le_trans (List.length_filter_le _ _) (List.length_take_le n xs)
  have htake : (xs.filter p).take n =
      (xs.take n).filter p ++ ((xs.drop n).filter p).take (n - ((xs.take n).filter p).length) := by
    rw [hsplit, List.take_append, List.take_of_length_le hle]
  rw [htake, List.self_eq_append_right, List.take_eq_nil_iff]
  constructor
  · rintro (hfull | hnone)
    · by_cases hlength : xs.length ≤ n
      · left
        rw [List.drop_eq_nil_of_le hlength]
        exact fun x hx => absurd hx List.not_mem_nil
      · right
        have htaken : (xs.take n).length = n := List.length_take_of_le (by omega)
        apply List.length_filter_eq_length_iff.mp
        omega
    · left
      simpa using hnone
  · rintro (hnone | hall)
    · right
      simpa using hnone
    · by_cases hlength : xs.length ≤ n
      · right
        rw [List.drop_eq_nil_of_le hlength]
        rfl
      · left
        have htaken : (xs.take n).length = n := List.length_take_of_le (by omega)
        rw [List.filter_eq_self.mpr hall, htaken]
        exact Nat.sub_self n

end

/-- `VBI_RAW_SERVICES()`. -/
def rawServices (services : BitVec 32) : Bool :=
  decide (services &&& (0x20000000 ||| 0x40000000) ≠ 0)

/-- `VBIPROXY_RAW_LINE_SIZE`. -/
def rawLineSize : Nat := 2048

/-- `sizeof(vbi_sliced)`. -/
def slicedSize : Nat := 64

variable {Time : Type}

/-- `PROXY_QUEUE`, with room for `maxLines` lines and for a raw image of as many if raw data is
captured. The timestamp is not set in a new buffer. -/
structure Buf (Time : Type) where
  maxLines : Nat
  rawData : Option (List UInt8)
  lines : List VbiSliced
  timestamp : Option Time

/-- The fields of `PROXY_DEV` for the frames. -/
structure Dev where
  allServices : BitVec 32
  maxLines : Nat

/-- What the capture device delivers: a raw image, its lines with data, and when it was taken. -/
structure Frame (Time : Type) where
  raw : List UInt8
  lines : List VbiSliced
  timestamp : Time

/-- The fields of `PROXY_CLNT` for the frames. -/
structure Clnt where
  allServices : BitVec 32
  vbiCount : Nat × Nat

/-- `vbi_proxy_queue_get_free()` for a buffer of the free list, which is allocated again if it
is of another size. -/
def getFree (d : Dev) (b : Buf Time) : Buf Time :=
  let b := if b.maxLines ≠ d.maxLines then ⟨d.maxLines, none, [], none⟩ else b
  if rawServices d.allServices then
    { b with rawData := some (b.rawData.getD (List.replicate (d.maxLines * rawLineSize) 0)) }
  else
    { b with rawData := none }

/-- `vbi_capture_read_sliced()` or `vbi_capture_read()` into a buffer. -/
def readFrame (d : Dev) (b : Buf Time) (f : Frame Time) : Buf Time :=
  { b with
    rawData := if rawServices d.allServices then some f.raw else b.rawData
    lines := f.lines
    timestamp := some f.timestamp }

/-- The frame of `vbi_proxyd_forward_data()`, with the assertion that the buffer is not full. -/
def forwardData (d : Dev) (b : Buf Time) (f : Frame Time) : Option (Buf Time) :=
  let b := readFrame d (getFree d b) f
  if b.lines.length < b.maxLines then some b else none

/-- The offset of the lines in `VBIPROXY_SLICED_IND`. -/
def linesOffset : Nat := 16

/-- `sizeof(VBIPROXY_MSG_HEADER)`. -/
def headerSize : Nat := 8

/-- `VBIPROXY_SLICED_IND_SIZE()`. -/
def slicedIndSize (sliced raw : Nat) : Nat :=
  linesOffset + slicedSize - slicedSize + sliced * slicedSize + raw * rawLineSize

/-- The memory of a message, its contents, the ranges of bytes written so far with their first
byte and their number, and the number of bytes to be sent. -/
structure SlicedInd (Time : Type) where
  allocated : Nat
  timestamp : Option Time
  sliced : List VbiSliced
  raw : List UInt8
  rawLines : Nat
  writes : List (Nat × Nat)
  len : Nat

def SlicedInd.append (m : SlicedInd Time) (l : VbiSliced) : SlicedInd Time :=
  { m with
    sliced := m.sliced ++ [l]
    writes := m.writes ++ [(headerSize + linesOffset + m.sliced.length * slicedSize, slicedSize)] }

def wanted (services : BitVec 32) (l : VbiSliced) : Bool := decide (l.id &&& services ≠ 0)

def copyLines (services : BitVec 32) (maxLines : Nat) :
    Nat → List VbiSliced → SlicedInd Time → SlicedInd Time
  | _, [], m => m
  | idx, l :: lines, m =>
    if idx < maxLines then
      copyLines services maxLines (idx + 1) lines (if wanted services l then m.append l else m)
    else
      m

def copyRaw (b : Buf Time) (m : SlicedInd Time) : SlicedInd Time :=
  match b.rawData with
  | none => m
  | some raw =>
    { m with
      raw := raw
      rawLines := b.maxLines
      writes := m.writes ++ [(headerSize + linesOffset, rawLineSize * b.maxLines)] }

def newMessage (b : Buf Time) (size : Nat) : SlicedInd Time :=
  ⟨headerSize + size, b.timestamp, [], [], 0, [(0, headerSize + linesOffset)], 0⟩

/-- `vbi_proxyd_send_sliced()` up to the socket. -/
def sendSliced (req : Clnt) (b : Buf Time) : SlicedInd Time :=
  let maxLines := req.vbiCount.1 + req.vbiCount.2
  let m :=
    if rawServices req.allServices then
      copyRaw b (newMessage b (slicedIndSize 0 b.maxLines))
    else
      copyLines req.allServices maxLines 0 b.lines (newMessage b (slicedIndSize b.lines.length 0))
  { m with len := headerSize + slicedIndSize m.sliced.length m.rawLines }

theorem copyLines_sliced (services : BitVec 32) (maxLines idx : Nat) (lines : List VbiSliced)
    (m : SlicedInd Time) :
    (copyLines services maxLines idx lines m).sliced =
      m.sliced ++ (lines.take (maxLines - idx)).filter (wanted services) := by
  induction lines generalizing idx m with
  | nil => rw [copyLines, List.take_nil, List.filter_nil, List.append_nil]
  | cons l lines ih =>
    rw [copyLines]
    by_cases hidx : idx < maxLines
    · have htake : (l :: lines).take (maxLines - idx) = l :: lines.take (maxLines - (idx + 1)) := by
        have hsucc : maxLines - idx = maxLines - (idx + 1) + 1 := by omega
        rw [hsucc, List.take_succ_cons]
      rw [if_pos hidx, ih, htake]
      by_cases hwanted : wanted services l = true
      · rw [if_pos hwanted, List.filter_cons_of_pos hwanted, SlicedInd.append, List.append_assoc]
        rfl
      · rw [if_neg hwanted, List.filter_cons_of_neg hwanted]
    · have hzero : maxLines - idx = 0 := by omega
      rw [if_neg hidx, hzero, List.take_zero, List.filter_nil, List.append_nil]

theorem copyLines_kept (services : BitVec 32) (maxLines idx : Nat) (lines : List VbiSliced)
    (m : SlicedInd Time) :
    (copyLines services maxLines idx lines m).allocated = m.allocated ∧
      (copyLines services maxLines idx lines m).rawLines = m.rawLines := by
  induction lines generalizing idx m with
  | nil => exact ⟨rfl, rfl⟩
  | cons l lines ih =>
    rw [copyLines]
    by_cases hidx : idx < maxLines
    · rw [if_pos hidx]
      obtain ⟨hallocated, hraw⟩ := ih (idx + 1) (if wanted services l then m.append l else m)
      rw [hallocated, hraw]
      split
      · exact ⟨rfl, rfl⟩
      · exact ⟨rfl, rfl⟩
    · rw [if_neg hidx]
      exact ⟨rfl, rfl⟩

/-- All bytes are written into the memory of the message. -/
def SlicedInd.Inside (m : SlicedInd Time) : Prop := ∀ w ∈ m.writes, w.1 + w.2 ≤ m.allocated

variable {m : SlicedInd Time}

/-- One more range of bytes is written. -/
theorem SlicedInd.Inside.write {m' : SlicedInd Time} (h : m.Inside) {w : Nat × Nat}
    (hallocated : m'.allocated = m.allocated) (hwrites : m'.writes = m.writes ++ [w])
    (hw : w.1 + w.2 ≤ m.allocated) : m'.Inside := by
  intro v hv
  rw [hallocated]
  rw [hwrites, List.mem_append, List.mem_singleton] at hv
  rcases hv with hv | rfl
  · exact h v hv
  · exact hw

theorem SlicedInd.Inside.append (h : m.Inside) (l : VbiSliced)
    (hroom : headerSize + linesOffset + (m.sliced.length + 1) * slicedSize ≤ m.allocated) :
    (m.append l).Inside := by
  rw [Nat.succ_mul, ← Nat.add_assoc] at hroom
  exact h.write rfl rfl hroom

/-- With room for all lines the loop stays inside the message. -/
theorem copyLines_inside (services : BitVec 32) (maxLines idx : Nat) (lines : List VbiSliced)
    (h : m.Inside)
    (hroom : headerSize + linesOffset + (m.sliced.length + lines.length) * slicedSize ≤
      m.allocated) : (copyLines services maxLines idx lines m).Inside := by
  induction lines generalizing idx m with
  | nil => exact h
  | cons l lines ih =>
    rw [copyLines]
    by_cases hidx : idx < maxLines
    · rw [if_pos hidx]
      by_cases hwanted : wanted services l = true
      · rw [if_pos hwanted]
        apply ih
        · apply h.append
          refine Nat.le_trans (Nat.add_le_add_left (Nat.mul_le_mul_right _ ?_) _) hroom
          rw [List.length_cons]
          omega
        · have hlength : (m.append l).sliced.length + lines.length =
              m.sliced.length + (l :: lines).length := by
            rw [SlicedInd.append, List.length_append, List.length_singleton, List.length_cons]
            omega
          rw [hlength]
          exact hroom
      · rw [if_neg hwanted]
        apply ih _ h
        refine Nat.le_trans (Nat.add_le_add_left (Nat.mul_le_mul_right _ ?_) _) hroom
        rw [List.length_cons]
        omega
    · rw [if_neg hidx]
      exact h

theorem newMessage_inside (b : Buf Time) {size : Nat} (h : linesOffset ≤ size) :
    (newMessage b size).Inside := by
  intro w hw
  obtain rfl := List.mem_singleton.mp hw
  rw [Nat.zero_add]
  exact Nat.add_le_add_left h headerSize

theorem slicedIndSize_eq (sliced raw : Nat) :
    slicedIndSize sliced raw = linesOffset + sliced * slicedSize + raw * rawLineSize := by
  rw [slicedIndSize, Nat.add_sub_cancel]

theorem SlicedInd.Inside.setLen (h : m.Inside) (n : Nat) :
    SlicedInd.Inside { m with len := n } := h

/-- A message is written inside its memory, for a client with raw services as well. -/
theorem sendSliced_inside (req : Clnt) (b : Buf Time) : (sendSliced req b).Inside := by
  rw [sendSliced]
  apply SlicedInd.Inside.setLen
  by_cases hraw : rawServices req.allServices = true
  · have hnew : (newMessage b (slicedIndSize 0 b.maxLines)).Inside := by
      apply newMessage_inside
      rw [slicedIndSize_eq]
      omega
    rw [if_pos hraw, copyRaw]
    cases b.rawData with
    | none => exact hnew
    | some raw =>
      have hsize : (newMessage b (slicedIndSize 0 b.maxLines)).allocated =
          headerSize + linesOffset + rawLineSize * b.maxLines := by
        rw [newMessage, slicedIndSize_eq, Nat.zero_mul, Nat.add_zero, Nat.mul_comm, Nat.add_assoc]
      exact hnew.write rfl rfl (Nat.le_of_eq hsize.symm)
  · rw [if_neg hraw]
    have hnew : (newMessage b (slicedIndSize b.lines.length 0)).Inside := by
      apply newMessage_inside
      rw [slicedIndSize_eq]
      omega
    apply copyLines_inside _ _ _ _ hnew
    rw [newMessage, slicedIndSize_eq, List.length_nil, Nat.zero_add, Nat.zero_mul, Nat.add_zero,
      Nat.add_assoc]

theorem getFree_maxLines (d : Dev) (b : Buf Time) : (getFree d b).maxLines = d.maxLines := by
  rw [getFree]
  by_cases hsize : b.maxLines ≠ d.maxLines
  · rw [if_pos hsize]
    split
    · rfl
    · rfl
  · rw [if_neg hsize]
    split
    · exact not_not.mp hsize
    · exact not_not.mp hsize

/-- A client gets the lines of a frame which are of its services, in their order and as many as
it has room for, and the message stays inside its memory. -/
structure Sent (req : Clnt) (f : Frame Time) (m : SlicedInd Time) : Prop where
  lines : m.sliced =
    (f.lines.filter (wanted req.allServices)).take (req.vbiCount.1 + req.vbiCount.2)
  inside : m.Inside
  len : m.len ≤ m.allocated

section
variable {req : Clnt} (hsliced : rawServices req.allServices = false)
include hsliced

theorem sendSliced_lines (b : Buf Time) :
    (sendSliced req b).sliced =
      (b.lines.take (req.vbiCount.1 + req.vbiCount.2)).filter (wanted req.allServices) := by
  rw [sendSliced, hsliced]
  exact copyLines_sliced _ _ _ _ _

theorem sendSliced_len (b : Buf Time) : (sendSliced req b).len ≤ (sendSliced req b).allocated := by
  have hlines := sendSliced_lines hsliced b
  have hle : (sendSliced req b).sliced.length ≤ b.lines.length := by
    rw [hlines]
    exact Nat.le_trans (List.length_filter_le _ _) (List.length_take_le' _ _)
  have hkept := copyLines_kept req.allServices (req.vbiCount.1 + req.vbiCount.2) 0 b.lines
    (newMessage b (slicedIndSize b.lines.length 0))
  have hlen : (sendSliced req b).len =
      headerSize + slicedIndSize (sendSliced req b).sliced.length 0 := by
    rw [sendSliced, hsliced]
    exact congrArg (fun n => headerSize + slicedIndSize _ n) hkept.2
  have hallocated : (sendSliced req b).allocated = headerSize + slicedIndSize b.lines.length 0 := by
    rw [sendSliced, hsliced]
    exact hkept.1
  rw [hlen, hallocated, slicedIndSize_eq, slicedIndSize_eq]
  have hmul := Nat.mul_le_mul_right slicedSize hle
  omega

/-- A client gets the lines of its services exactly if the frame does not fill the buffer, and no
line behind its limit is of its services or each line before the limit is. -/
theorem frame_sent (d : Dev) (b : Buf Time) (f : Frame Time) :
    (∃ b', forwardData d b f = some b' ∧ Sent req f (sendSliced req b')) ↔
      f.lines.length < d.maxLines ∧
        ((∀ l ∈ f.lines.drop (req.vbiCount.1 + req.vbiCount.2),
            wanted req.allServices l = false) ∨
          ∀ l ∈ f.lines.take (req.vbiCount.1 + req.vbiCount.2),
            wanted req.allServices l = true) := by
  have hroom : (readFrame d (getFree d b) f).maxLines = d.maxLines := getFree_maxLines d b
  have hlines : (readFrame d (getFree d b) f).lines = f.lines := rfl
  rw [← filter_take_iff, forwardData, hroom, hlines]
  constructor
  · rintro ⟨b', hb', hsent⟩
    by_cases hfull : f.lines.length < d.maxLines
    · rw [if_pos hfull] at hb'
      obtain rfl := Option.some.inj hb'
      have hsame := sendSliced_lines hsliced (readFrame d (getFree d b) f)
      rw [hsent.lines, hlines] at hsame
      exact ⟨hfull, hsame.symm⟩
    · rw [if_neg hfull] at hb'
      cases hb'
  · rintro ⟨hfull, hsame⟩
    refine ⟨_, if_pos hfull, ?_, sendSliced_inside _ _, sendSliced_len hsliced _⟩
    rw [sendSliced_lines hsliced, hlines, hsame]

end

/-- A line of Teletext or of Wide Screen Signalling. -/
def lineOf (id : BitVec 32) (line : Nat) : VbiSliced := ⟨id, line, fun _ => 0⟩

/-- A client which asked for Teletext when a field had one line, and frames of later formats. -/
def teletextClnt : Clnt := ⟨3, (1, 1)⟩

theorem frame_sent_one :
    ∃ b', forwardData ⟨3, 3⟩ ⟨3, none, [], none⟩ ⟨[], [lineOf 3 7, lineOf 3 8], ()⟩ = some b' ∧
      Sent teletextClnt ⟨[], [lineOf 3 7, lineOf 3 8], ()⟩ (sendSliced teletextClnt b') :=
  (frame_sent (by decide) _ _ _).mpr ⟨by decide, Or.inl (by decide)⟩

/-- A full frame fails the assertion. Of a frame with two lines of another service the line of
the client is not sent, although it would be the only one. -/
theorem frame_not_sent :
    forwardData ⟨3, 2⟩ ⟨2, none, [], none⟩ ⟨[], [lineOf 3 7, lineOf 3 8], ()⟩ = none ∧
      ∃ b', forwardData ⟨0x403, 4⟩ ⟨4, none, [], none⟩
          ⟨[], [lineOf 0x400 6, lineOf 0x400 7, lineOf 3 8], ()⟩ = some b' ∧
        (sendSliced teletextClnt b').sliced = [] ∧
        ([lineOf 0x400 6, lineOf 0x400 7, lineOf 3 8].filter
          (wanted teletextClnt.allServices)).take 2 = [lineOf 3 8] := by
  refine ⟨rfl, _, rfl, ?_, rfl⟩
  rw [sendSliced_lines (by decide)]
  rfl

end ProxyFrameForward

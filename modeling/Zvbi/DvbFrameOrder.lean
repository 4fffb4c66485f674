import Zvbi.DvbDemux

/-!
# The frames the demultiplexer delivers

Whatever bytes are fed in, the lines of a frame ascend and there are no more than
64 of them. The services of 625-line systems appear on their own lines only. The
data units for 525-line systems are stored under any line, or none, so for these
the packets must name the right one.
-/

namespace DvbFrameOrder
open Hamming DvbFrame DvbDemux

def Legal (id line : Nat) : Prop :=
  id = vbiSlicedTeletextB ∧ (line = 0 ∨ 7 ≤ line ∧ line ≤ 22 ∨ 320 ≤ line ∧ line ≤ 335) ∨
  id = vbiSlicedVps ∧ line = 16 ∨
  id = vbiSlicedWss625 ∧ line = 23 ∨
  id = vbiSlicedCaption625F1 ∧ line = 21 ∨
  id = vbiSlicedWssCpr1204 ∧ (line = 20 ∨ line = 283) ∨
  id = vbiSlicedCaption525F1 ∧ line = 21 ∨
  id = vbiSlicedCaption525F2 ∧ line = 284

instance (id line : Nat) : Decidable (Legal id line) := by
  unfold Legal
  infer_instance

def knownLines (sliced : List Sliced) : List Nat := (sliced.map Sliced.line).filter (0 < ·)

/-- What a consumer of frames relies on. -/
structure WellFormed (sliced : List Sliced) : Prop where
  length_le : sliced.length ≤ 64
  ascending : (knownLines sliced).Pairwise (· < ·)
  unknown : ∀ s ∈ sliced, s.line = 0 → s.id = vbiSlicedTeletextB
  legal : ∀ s ∈ sliced, Legal s.id s.line

/-- A data unit for 525-line systems names a line of its service, unless it is too
short to be stored. -/
def Lawful525 (unit : UInt8 × List UInt8) : Prop :=
  (unit.1 = 0xb4 → zvbiWssCpr1204.length ≤ unit.2.length →
    (unit.2.getD 0 0).toNat % 32 = 20) ∧
  (unit.1 = 0xb5 → zvbiClosedCaption525.length ≤ unit.2.length →
    (unit.2.getD 0 0).toNat % 32 = 21)

def Lawful (payload : List UInt8) : Prop := ∀ unit ∈ dataUnits payload, Lawful525 unit

variable {id : Nat} {a : Address} {v : Service} {src : List UInt8} {e : Decoder}

theorem legal_unknown {line : Nat} (h : Legal id line) (hline : line = 0) :
    id = vbiSlicedTeletextB := by
  subst hline
  rcases h with h | h | h | h | h | h | h
  · exact h.1
  all_goals
    have hline := h.2
    omega

def Confined (v : Service) (lofp : UInt8) : Prop :=
  let a := lofpToLine lofp v.system
  v.legal a → Legal (v.id a.field) a.frameLine

theorem confined : ∀ lofp : UInt8,
    (∀ v ∈ [ebuTeletext, vps, wss, closedCaption], Confined v lofp) ∧
    (lofp.toNat % 32 = 20 → Confined zvbiWssCpr1204 lofp) ∧
    (lofp.toNat % 32 = 21 → Confined zvbiClosedCaption525 lofp) :=
  byte_forall (by simp only [List.forall_mem_cons]; unfold Confined; decide +kernel)

variable {capacity : Nat}

structure Ordered (f : Frame capacity) : Prop where
  ascending : (knownLines f.sliced).Pairwise (· < ·)
  below : ∀ line ∈ knownLines f.sliced, line ≤ f.lastFrameLine
  legal : ∀ s ∈ f.sliced, Legal s.id s.line

theorem ordered_resetFrame : Ordered (resetFrame : Frame capacity) where
  ascending := List.Pairwise.nil
  below := by
    intro line h
    exact absurd h List.not_mem_nil
  legal := by
    intro s h
    exact absurd h List.not_mem_nil

/-- What `line_address()` does to a frame. -/
structure Allocated (f : Frame capacity) (a : Address) (s : Slot capacity) : Prop where
  address : s.address = a
  sliced : s.frame.sliced = f.sliced
  known : a.frameLine ≠ 0 → f.lastFrameLine < a.frameLine ∧ s.frame.lastFrameLine = a.frameLine
  unknown : a.frameLine = 0 → s.frame.lastFrameLine = f.lastFrameLine

variable {f : Frame capacity} {d : Decoder}

variable {s : Slot capacity} {data : List UInt8}

theorem lineAddress_allocated {lofp : UInt8} {system : System}
    (h : lineAddress f lofp system = .ok s) : Allocated f (lofpToLine lofp system) s := by
  rw [lineAddress] at h
  dsimp only at h
  split at h
  · split at h
    · rename_i hknown
      split at h
      · split at h <;> cases h
      · rename_i hafter
        cases h
        exact ⟨rfl, rfl, fun _ => ⟨by omega, rfl⟩, fun hzero => absurd hzero hknown⟩
    · rename_i hzero
      split at h
      · cases h
      · split at h
        · cases h
        · cases h
          exact ⟨rfl, rfl, fun hknown => absurd hknown hzero, fun _ => rfl⟩
  · cases h

/-- A slot which is given back leaves the last line behind. -/
theorem Allocated.ordered (h : Allocated f a s) (hf : Ordered f) : Ordered s.frame := by
  have hle : f.lastFrameLine ≤ s.frame.lastFrameLine := by
    by_cases hzero : a.frameLine = 0
    · rw [h.unknown hzero]
    · have hknown := h.known hzero
      omega
  constructor
  · rw [h.sliced]
    exact hf.ascending
  · intro line hline
    rw [h.sliced] at hline
    exact le_trans (hf.below line hline) hle
  · rw [h.sliced]
    exact hf.legal

theorem knownLines_append (sliced : List Sliced) (s : Sliced) :
    knownLines (sliced ++ [s]) =
      if 0 < s.line then knownLines sliced ++ [s.line] else knownLines sliced := by
  rw [knownLines, List.map_append, List.filter_append, knownLines]
  by_cases h : 0 < s.line
  · simp [h]
  · simp [h]

theorem Allocated.ordered_store (h : Allocated f a s) (hf : Ordered f)
    (hlegal : Legal id a.frameLine) (data : List UInt8) : Ordered (s.store id data) := by
  have hsliced : (s.store id data).sliced = f.sliced ++ [⟨id, a.frameLine, data⟩] := by
    rw [Slot.store_sliced, h.sliced, h.address]
  have hslot := h.ordered hf
  have hbelow := hslot.below
  rw [h.sliced] at hbelow
  constructor
  · rw [hsliced, knownLines_append]
    split
    · rename_i hknown
      rw [List.pairwise_append]
      refine ⟨hf.ascending, List.pairwise_singleton _ _, ?_⟩
      intro line hline next hnext
      rw [List.mem_singleton.mp hnext]
      exact lt_of_le_of_lt (hf.below line hline) (h.known (by exact Nat.ne_of_gt hknown)).1
    · exact hf.ascending
  · rw [hsliced, knownLines_append, Slot.store_lastFrameLine]
    split
    · rename_i hknown
      intro line hline
      rcases List.mem_append.mp hline with hold | hnew
      · exact hbelow line hold
      · rw [List.mem_singleton.mp hnew, (h.known (by exact Nat.ne_of_gt hknown)).2]
    · exact hbelow
  · rw [hsliced]
    intro line hline
    rcases List.mem_append.mp hline with hold | hnew
    · exact hf.legal line hold
    · rw [List.mem_singleton.mp hnew]
      exact hlegal

theorem storeLine_ordered (hf : Ordered f) (hv : Confined v (data.getD 0 0)) :
    Ordered (storeLine v f data).1 := by
  rw [storeLine]
  split
  · exact hf
  · rename_i s hs
    have hslot := lineAddress_allocated hs
    split
    · rename_i hlegal
      apply hslot.ordered_store hf
      rw [hslot.address] at hlegal ⊢
      exact hv hlegal
    · exact hslot.ordered hf

theorem lineUnit_ordered (hf : Ordered f)
    (hv : v.length ≤ data.length → Confined v (data.getD 0 0)) :
    Ordered (lineUnit v f data).1 := by
  rw [lineUnit]
  split
  · exact hf
  · rename_i hlength
    exact storeLine_ordered hf (hv (by omega))

theorem teletextUnit_ordered (hf : Ordered f) (data : List UInt8) :
    Ordered (teletextUnit f data).1 := by
  rw [teletextUnit]
  split
  · exact hf
  · split
    · exact hf
    · exact storeLine_ordered hf ((confined _).1 ebuTeletext (by simp))

theorem dataUnit_ordered (hf : Ordered f) {id : UInt8} (lawful : Lawful525 (id, data)) :
    Ordered (dataUnit f id data).1 := by
  rw [dataUnit]
  split
  · exact teletextUnit_ordered hf data
  split
  · exact lineUnit_ordered hf fun _ => (confined _).1 vps (by simp)
  split
  · exact lineUnit_ordered hf fun _ => (confined _).1 wss (by simp)
  split
  · rename_i hid
    exact lineUnit_ordered hf fun hlength =>
      (confined _).2.1 (lawful.1 hid hlength)
  split
  · rename_i hid
    exact lineUnit_ordered hf fun hlength =>
      (confined _).2.2 (lawful.2 hid hlength)
  split
  · exact lineUnit_ordered hf fun _ => (confined _).1 closedCaption (by simp)
  · exact hf

/-- Extraction keeps the order, and what it leaves behind is as lawful as what it
got. -/
theorem extractDataUnits_ordered (hf : Ordered f) (lawful : Lawful src) :
    Ordered (extractDataUnits f src).frame ∧ Lawful (extractDataUnits f src).rest := by
  induction src using unit_induction generalizing f with
  | short src hshort =>
    rw [extractDataUnits_short f hshort]
    refine ⟨hf, ?_⟩
    intro unit h
    exact absurd h List.not_mem_nil
  | unit id length p hp ih =>
    rw [extractDataUnits_unit f id length hp]
    split
    · exact ⟨hf, lawful⟩
    · rename_i hlength
      have hunits := lawful
      rw [Lawful, dataUnits_unit, if_neg hlength] at hunits
      have hunit := dataUnit_ordered hf (hunits _ List.mem_cons_self)
      split
      · rename_i g r hg
        rw [hg] at hunit
        exact ⟨hunit, lawful⟩
      · rename_i g hg
        rw [hg] at hunit
        have hnext : Ordered { g with lastDataUnitId := id } := ⟨hunit.1, hunit.2, hunit.3⟩
        exact ih hnext fun unit h => hunits unit (List.mem_cons_of_mem _ h)

structure Sound (d : Decoder) : Prop where
  frame : Ordered d.frame
  delivered : ∀ x ∈ d.delivered, WellFormed x.sliced

/-- A step forgets no payload, and lawful payloads keep the decoder sound. -/
structure Keeps (d e : Decoder) : Prop where
  handed : ∀ payload ∈ d.handed, payload ∈ e.handed
  sound : (∀ payload ∈ e.handed, Lawful payload) → Sound d → Sound e

theorem Keeps.refl (d : Decoder) : Keeps d d := ⟨fun _ h => h, fun _ h => h⟩

theorem Keeps.trans {g : Decoder} (h : Keeps d e) (k : Keeps e g) : Keeps d g where
  handed payload hp := k.handed payload (h.handed payload hp)
  sound lawful hd := by
    apply k.sound lawful
    exact h.sound (fun payload hp => lawful payload (k.handed payload hp)) hd

/-- A step which touches neither the lines nor the records. -/
theorem Keeps.of_eq (hsliced : e.frame.sliced = d.frame.sliced)
    (hlast : e.frame.lastFrameLine = d.frame.lastFrameLine) (hhanded : e.handed = d.handed)
    (hdelivered : e.delivered = d.delivered) : Keeps d e where
  handed payload hp := hhanded ▸ hp
  sound _ hd := by
    constructor
    · constructor
      · rw [hsliced]
        exact hd.frame.ascending
      · rw [hsliced, hlast]
        exact hd.frame.below
      · rw [hsliced]
        exact hd.frame.legal
    · rw [hdelivered]
      exact hd.delivered

theorem keeps_discardFrame (d : Decoder) : Keeps d (discardFrame d) := .of_eq rfl rfl rfl rfl

theorem keeps_newPacket (d : Decoder) : Keeps d (newPacket d) := .of_eq rfl rfl rfl rfl

theorem keeps_header (d : Decoder) (p : List UInt8) :
    Keeps d (validVbiPesPacketHeader d p).1 := by
  rw [validVbiPesPacketHeader]
  split
  · exact .refl d
  · split
    · exact .of_eq rfl rfl rfl rfl
    · exact .refl d

theorem wellFormed_of_ordered {sliced : List Sliced} {f : Frame 64} (hf : Ordered f)
    (h : List.Sublist sliced f.sliced) : WellFormed sliced where
  length_le := le_trans h.length_le f.sliced_le
  ascending := hf.ascending.sublist ((h.map Sliced.line).filter _)
  unknown s hs := legal_unknown (hf.legal s (h.subset hs))
  legal s hs := hf.legal s (h.subset hs)

theorem Sound.append (hd : Sound d) {x : Delivery} (hx : List.Sublist x.sliced d.frame.sliced) :
    ∀ y ∈ d.delivered ++ [x], WellFormed y.sliced := by
  intro y hy
  rcases List.mem_append.mp hy with hold | hnew
  · exact hd.delivered y hold
  · rw [List.mem_singleton.mp hnew]
    exact wellFormed_of_ordered hd.frame hx

theorem Sound.deliver (hd : Sound d) : Sound (deliver d) :=
  ⟨hd.frame, hd.append (List.Sublist.refl _)⟩

theorem Sound.commence (hd : Sound d) : Sound (commence d) := by
  rw [DvbDemux.commence]
  split
  · exact ⟨ordered_resetFrame, hd.delivered⟩
  · exact hd

theorem keeps_takeLines (d : Decoder) (maxLines : Nat) : Keeps d (takeLines d maxLines) where
  handed _ hp := hp
  sound _ hd := by
    refine ⟨⟨List.Pairwise.nil, ?_, ?_⟩, hd.append (List.take_sublist _ _)⟩
    · intro line h
      exact absurd h List.not_mem_nil
    · intro s h
      exact absurd h List.not_mem_nil

theorem packetFrameLoop_sound (callback : Option Callback) (passes : Nat) (lawful : Lawful src)
    (hd : Sound d) : Sound (packetFrameLoop callback passes d src).dx := by
  induction passes generalizing d src with
  | zero => exact hd
  | succ passes ih =>
    obtain ⟨hframe, hrest⟩ := extractDataUnits_ordered hd.commence.frame lawful
    have hnext : ∀ newFrame : Bool, Sound { commence d with
        frame := (extractDataUnits (commence d).frame src).frame
        newFrame := newFrame } := fun _ => ⟨hframe, hd.commence.delivered⟩
    rw [packetFrameLoop]
    dsimp only
    split
    · exact hnext _
    · exact hnext _
    · split
      · exact hnext _
      · split
        · exact ih hrest (hnext _).deliver
        · exact (hnext _).deliver

theorem keeps_demuxPesPacketFrame (callback : Option Callback) (d : Decoder)
    (src : List UInt8) : Keeps d (demuxPesPacketFrame callback d src).dx where
  handed payload hp := by
    rw [demuxPesPacketFrame_handed]
    exact List.mem_append_left _ hp
  sound lawful hd := by
    rw [demuxPesPacketFrame_handed] at lawful
    apply packetFrameLoop_sound
    · exact lawful src (List.mem_append_right _ (List.mem_singleton.mpr rfl))
    · exact ⟨hd.frame, hd.delivered⟩

theorem keeps_pesHeader (dx : PesDemux) (p : List UInt8) (distance : Nat) :
    Keeps dx.decoder (pesHeader dx p distance).decoder := by
  have hheader := keeps_header dx.decoder p
  rw [pesHeader]
  split
  · exact .refl _
  · split <;> rename_i hd <;> rw [hd] at hheader <;> exact hheader

theorem keeps_pesScan (dx : PesDemux) (p : List UInt8) (scanEnd : Nat) :
    Keeps dx.decoder (pesScan dx p scanEnd).decoder := by
  rw [pesScan]
  split
  · exact .refl _
  · exact .refl _
  · exact keeps_pesHeader dx _ _

theorem keeps_pesPacketDone (dx : PesDemux) (d : Decoder) (err : Option Err) :
    Keeps d (pesPacketDone dx d err).decoder := by
  rw [pesPacketDone]
  dsimp only
  split
  · exact keeps_discardFrame d
  · exact .refl d

theorem keeps_pesLoop (callback : Option Callback) (srcSize fuel : Nat) (dx : PesDemux)
    (src : List UInt8) : Keeps dx.decoder (pesLoop callback srcSize fuel dx src).dx.decoder := by
  induction fuel generalizing dx src with
  | zero => exact .refl _
  | succ fuel ih =>
    rw [pesLoop]
    split
    · exact .refl _
    · dsimp only
      split
      · rename_i v _ _
        have hpacket := (keeps_newPacket dx.decoder).trans
          (keeps_demuxPesPacketFrame callback (newPacket dx.decoder)
            (v.dst.take v.wrap.lookahead))
        split
        · exact hpacket
        · exact (hpacket.trans (keeps_pesPacketDone _ _ _)).trans (ih _ _)
      · rename_i v _ _
        exact (keeps_pesScan { dx with wrap := v.wrap } _ _).trans (ih _ _)

theorem keeps_pesComplete (dx : TsDemux) : Keeps dx.decoder (pesComplete dx).decoder := by
  have hheader := keeps_header dx.decoder dx.pes
  rw [pesComplete]
  split
  · rename_i d hd
    rw [hd] at hheader
    exact hheader.trans (keeps_discardFrame d)
  · rename_i d hd
    rw [hd] at hheader
    exact hheader.trans (keeps_newPacket d)

theorem keeps_extractTodo (callback : Option Callback) (dx : TsDemux) :
    Keeps dx.decoder (extractTodo callback dx).1.decoder := by
  have hpacket := keeps_demuxPesPacketFrame callback dx.decoder dx.frameTodo
  rw [extractTodo]
  split
  · exact .refl _
  · dsimp only
    split
    · exact hpacket
    · split
      · exact hpacket.trans (keeps_discardFrame _)
      · exact hpacket

theorem skipTsPacket_decoder (dx : TsDemux) (p : List UInt8) :
    (skipTsPacket dx p).decoder = dx.decoder := by
  rw [skipTsPacket]
  split <;> rfl

theorem copyFragment_decoder (dx : TsDemux) (p : List UInt8) :
    (copyFragment dx p).decoder = dx.decoder := by
  rw [copyFragment]
  split <;> rfl

theorem keeps_skipTsPesPacket (dx : TsDemux) (p : List UInt8) :
    Keeps dx.decoder (skipTsPesPacket dx p).decoder := by
  rw [skipTsPesPacket, skipTsPacket_decoder]
  exact keeps_discardFrame dx.decoder

theorem keeps_tsPayload (dx : TsDemux) (p : List UInt8) :
    Keeps dx.decoder (tsPayload dx p).decoder := by
  rw [tsPayload]
  split
  · split
    · exact keeps_skipTsPesPacket dx p
    · split
      · exact keeps_skipTsPesPacket dx p
      · rw [copyFragment_decoder]
        exact .refl _
  · split
    · exact keeps_skipTsPesPacket dx p
    · rw [copyFragment_decoder]
      exact .refl _

theorem keeps_tsHeader (dx : TsDemux) (p : List UInt8) :
    Keeps dx.decoder (tsHeader dx p).decoder := by
  have hskip : Keeps dx.decoder (skipTsPacket dx p).decoder := by
    rw [skipTsPacket_decoder]
    exact .refl _
  have hcontinuity : Keeps dx.decoder (tsContinuity dx p).decoder := by
    rw [tsContinuity]
    split
    · split
      · exact hskip
      · exact keeps_skipTsPesPacket (dx.count p) p
    · exact keeps_tsPayload (dx.count p) p
  rw [tsHeader]
  split
  · exact keeps_skipTsPesPacket dx p
  split
  · exact hskip
  split
  · exact keeps_skipTsPesPacket dx p
  split
  · exact hcontinuity
  split
  · exact hskip
  · exact keeps_skipTsPesPacket dx p

theorem keeps_tsLookahead (dx : TsDemux) : Keeps dx.decoder (tsLookahead dx).decoder := by
  rw [tsLookahead]
  split
  · split
    · exact keeps_discardFrame dx.decoder
    · exact keeps_tsHeader dx _
  · split
    · exact .refl _
    · exact keeps_tsHeader { dx with inSync := true } _

theorem keeps_consumeAll (dx : TsDemux) (payload : List UInt8) :
    Keeps dx.decoder (consumeAll dx payload).decoder := by
  rw [consumeAll]
  split
  · exact keeps_pesComplete (consumePayload dx payload)
  · exact .refl _

/-- Reading ahead leaves the decoder alone. -/
theorem tsRead_decoder (dx : TsDemux) (src : List UInt8) :
    (∀ e, tsRead dx src = .error e → e.decoder = dx.decoder) ∧
    ∀ r, tsRead dx src = .ok r → r.1.decoder = dx.decoder := by
  rw [tsRead]
  dsimp only
  split
  · refine ⟨?_, ?_⟩ <;> rintro e ⟨⟩
    rfl
  · split
    · refine ⟨?_, ?_⟩ <;> rintro e ⟨⟩
      rfl
    · refine ⟨?_, ?_⟩ <;> rintro e ⟨⟩
      rfl

theorem keeps_tsLoop (callback : Option Callback) (fuel : Nat) (dx : TsDemux)
    (src : List UInt8) : Keeps dx.decoder (tsLoop callback fuel dx src).dx.decoder := by
  induction fuel generalizing dx src with
  | zero => exact .refl _
  | succ fuel ih =>
    have hextract := (keeps_consumeAll dx (src.take dx.consume)).trans
      (keeps_extractTodo callback (consumeAll dx (src.take dx.consume)))
    rw [tsLoop]
    split
    · exact .refl _
    · split
      · rename_i h
        rw [h] at hextract
        exact hextract
      · rename_i e h
        rw [h] at hextract
        have hread := tsRead_decoder e (src.drop dx.consume)
        split
        · rename_i g hg
          rw [hread.1 g hg]
          exact hextract
        · rename_i g rest hg
          rw [← hread.2 _ hg] at hextract
          exact (hextract.trans (keeps_tsLookahead g)).trans (ih _ _)

inductive Call
  | feed (callback : Callback) (buffer : List UInt8)
  | cor (maxLines : Nat) (buffer : List UInt8)

def perform (dx : Demux) : Call → Demux
  | .feed callback buffer => (feed callback dx buffer).1
  | .cor maxLines buffer => (cor dx maxLines buffer).1

theorem keeps_demuxPacket (callback : Option Callback) (src : List UInt8) (dx : Demux) :
    Keeps dx.decoder (dx.demuxPacket callback src).dx.decoder := by
  cases dx with
  | pes dx => exact keeps_pesLoop callback _ _ dx src
  | ts dx =>
    rw [Demux.demuxPacket, demuxTsPacket]
    split
    · exact .refl _
    · exact keeps_tsLoop callback _ dx src

theorem keeps_perform (dx : Demux) (call : Call) :
    Keeps dx.decoder (perform dx call).decoder := by
  cases call with
  | feed callback buffer => exact keeps_demuxPacket (some callback) buffer dx
  | cor maxLines buffer =>
    have hpacket := keeps_demuxPacket none buffer dx
    rw [perform, cor]
    split
    · apply hpacket.trans
      cases (dx.demuxPacket none buffer).dx <;> exact keeps_takeLines _ _
    · exact hpacket

theorem keeps_calls (dx : Demux) (calls : List Call) :
    Keeps dx.decoder (calls.foldl perform dx).decoder := by
  induction calls generalizing dx with
  | nil => exact .refl _
  | cons call calls ih => exact (keeps_perform dx call).trans (ih _)

theorem sound_resetDecoder : Sound resetDecoder where
  frame := ordered_resetFrame
  delivered _ h := absurd h List.not_mem_nil

/-- Every frame delivered in a run is well formed if the 525-line units of the
packets in it name lines of their services. -/
theorem frames_well_formed {dx : Demux} (hnew : IsNew dx) (calls : List Call)
    (lawful : ∀ payload ∈ (calls.foldl perform dx).decoder.handed, Lawful payload) :
    ∀ x ∈ (calls.foldl perform dx).decoder.delivered, WellFormed x.sliced := by
  have hstart : Sound dx.decoder := by
    cases hnew <;> exact sound_resetDecoder
  exact ((keeps_calls dx calls).sound lawful hstart).delivered

def unitPacket (id length lofp : UInt8) : List UInt8 :=
  [0x00, 0x00, 0x01, 0xbd, 0x00, 0xb2, 0x84, 0x80, 0x24, 0x21, 0x00, 0x01, 0x00, 0x01] ++
    List.replicate 31 0xff ++ [0x10, id, length, lofp] ++ List.replicate (length.toNat - 1) 0x20 ++
    [0xff, 134 - length] ++ List.replicate (134 - length.toNat) 0xff

/-- Caption in 525-line systems is on line 21. -/
theorem frames_well_formed_caption :
    let calls := [Call.feed (fun _ => true)
      (unitPacket 0xb5 3 0xf5 ++ unitPacket 0xb5 3 0xf5 ++ unitPacket 0xc5 3 0xf5)]
    ((calls.foldl perform (.pes pesDemuxNew)).decoder.delivered.map fun x =>
      x.sliced.map Sliced.line) = [[21], [21]] ∧
    ∀ x ∈ (calls.foldl perform (.pes pesDemuxNew)).decoder.delivered, WellFormed x.sliced :=
  ⟨by decide +kernel, frames_well_formed .pes _ (by unfold Lawful Lawful525; decide +kernel)⟩

/-- Caption in 525-line systems without a line number. -/
theorem frames_not_well_formed :
    ¬ ∀ (dx : Demux) (calls : List Call), IsNew dx →
      ∀ x ∈ (calls.foldl perform dx).decoder.delivered, WellFormed x.sliced := by
  intro h
  have hlines : ((([Call.feed (fun _ => true)
      (unitPacket 0xb5 3 0xe0 ++ unitPacket 0xb5 3 0xc0)].foldl perform
        (.pes pesDemuxNew)).decoder.delivered.any fun x =>
      x.sliced.any fun s => s.line = 0 && s.id != vbiSlicedTeletextB)) = true := by
    decide +kernel
  obtain ⟨x, hx, hany⟩ := List.any_eq_true.mp hlines
  obtain ⟨s, hs, hline⟩ := List.any_eq_true.mp hany
  rw [Bool.and_eq_true, bne_iff_ne, decide_eq_true_iff] at hline
  exact hline.2 ((h _ _ .pes x hx).unknown s hs hline.1)

end DvbFrameOrder

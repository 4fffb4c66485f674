import Zvbi.GuardedRuns
import Zvbi.DvbTransport

/-!
# Nonconforming data units

The errors of the data unit extraction are positive numbers. The TS reader tests
if there is an error and then discards the frame, the PES reader tests if the
error is negative and keeps the lines collected so far. The readers deliver the
same frames as long as no packet contains a nonconforming data unit.
-/

namespace DvbBadData
open DvbFrame DvbDemux DvbPesReader DvbTsReader DvbChunks DvbTransport GuardedRuns

/-- All data units of a packet conform, given what was collected before it. -/
def Conforming (d : Decoder) (P : PesPacket) : Prop :=
  (demuxPesPacketFrame (some always) (newPacket (stamp d P)) P.payload).err = none

instance (d : Decoder) (P : PesPacket) : Decidable (Conforming d P) :=
  decidable_of_iff ((demuxPesPacketFrame (some always) (newPacket (stamp d P))
    P.payload).err.isNone = true) Option.isNone_iff_eq_none

/-- The PES reader takes one packet after another. -/
def pesStep (d : Decoder) (P : PesPacket) : Option Decoder := some (pesTake d P)

variable {d : Decoder} {packets : List PesPacket}

theorem tsTake_eq_pesTake {P : PesPacket} (h : Conforming d P) : tsTake d P = pesTake d P := by
  have hcode : ¬ Err.code (demuxPesPacketFrame (some always) (newPacket (stamp d P))
      P.payload).err ≠ 0 := by
    rw [h]
    exact not_not.mpr rfl
  rw [tsTake, pesTake, takePacket_eq, if_neg hcode]

theorem foldl_tsTake (h : Permitted pesStep Conforming d packets) :
    packets.foldl tsTake d = packets.foldl pesTake d := by
  induction packets generalizing d with
  | nil => rfl
  | cons P packets ih =>
    obtain ⟨hconforming, hrest⟩ := h
    rw [List.foldl_cons, List.foldl_cons, tsTake_eq_pesTake hconforming]
    exact ih (hrest _ rfl)

theorem pes_frames (packets : List PesPacket) :
    (feedAll (.pes pesDemuxNew) (packets.map PesPacket.bytes)).decoder =
      packets.foldl pesTake resetDecoder := by
  rw [← context_newReader, feedAll_pes settled_newReader, ← List.flatMap_def]
  change (context (WindowReader.read pesReader (atPacket resetDecoder) _)).decoder = _
  rw [read_packets]
  rfl

theorem ts_frames {pid counter : Nat} {stream : List TsPacket}
    (h : Carries pid false counter none stream packets) (hclean : ∀ p ∈ stream, p.error = false)
    (hfirst : FirstIncomplete pid stream) :
    (feedAll (.ts (tsDemuxNew pid)) (stream.map TsPacket.bytes)).decoder =
      packets.foldl tsTake resetDecoder := by
  rw [feedAll_ts (ready_tsDemuxNew pid), ← List.flatMap_def, Demux.decoder]
  rcases resync h hfirst with ⟨rfl, hdecoder⟩ | ⟨dx, _, _, rest, hdx, hnew, hsub, hrest, hbytes⟩
  · exact hdecoder
  · rw [hbytes, carries_decoder hrest (fun p hp => hclean p (hsub p hp)) hdx, hnew]

def badVpsPes : PesPacket where
  bytes := DvbFrameOrder.unitPacket 0xc3 14 0xf6
  start := by rfl
  length_eq := by decide +kernel
  aligned := by decide +kernel
  headerLength := by decide +kernel
  dataIdentifier := by decide +kernel
  notScrambled := by decide +kernel
  timestamp := by decide +kernel

def captionTs1 : TsPacket := smallPes 1 captionPes captionPes_length
def captionTs2 : TsPacket := smallPes 2 captionPes captionPes_length
def badVpsTs1 : TsPacket := smallPes 1 badVpsPes (by decide +kernel)

end DvbBadData

import Zvbi.DvbTsReader

/-!
# Cutting the stream into pieces

The buffers passed to the demultiplexer need not align with anything. As either
reader takes in effect one byte after another, the frames it delivers do not
depend on where one buffer ends and the next begins.
-/

namespace DvbChunks
open DvbDemux DvbPesReader DvbTsReader WindowReader

def feedAll (dx : Demux) (buffers : List (List UInt8)) : Demux :=
  buffers.foldl (fun dx buffer => (feed always dx buffer).1) dx

theorem feedAll_pes {c : Config PesState UInt8} (hc : Settled pesReader c)
    (buffers : List (List UInt8)) :
    feedAll (.pes (context c)) buffers =
      .pes (context (read pesReader c buffers.flatten)) := by
  induction buffers generalizing c with
  | nil => rfl
  | cons buffer buffers ih =>
    have hfeed : (feed always (.pes (context c)) buffer).1 =
        .pes (context (read pesReader c buffer)) := by
      rw [feed, Demux.demuxPacket, demuxPesPacket_reads hc]
    rw [feedAll, List.foldl_cons, hfeed, List.flatten_cons, read_append]
    exact ih (settled_read pesReader_lawful hc buffer)

theorem feedAll_ts {t : TsDemux} (ht : Ready t) (buffers : List (List UInt8)) :
    feedAll (.ts t) buffers = .ts (tsBytes t buffers.flatten) := by
  induction buffers generalizing t with
  | nil => rfl
  | cons buffer buffers ih =>
    obtain ⟨hread, hready⟩ := demuxTsPacket_reads ht buffer
    have hfeed : (feed always (.ts t) buffer).1 = .ts (tsBytes t buffer) := by
      rw [feed, Demux.demuxPacket, hread]
    rw [feedAll, List.foldl_cons, hfeed, List.flatten_cons, tsBytes_append]
    exact ih hready

/-- All that matters of the buffers are their bytes. -/
theorem feedAll_flatten {dx : Demux} (hnew : IsNew dx) (buffers : List (List UInt8)) :
    feedAll dx buffers = feedAll dx [buffers.flatten] := by
  have hflatten : [buffers.flatten].flatten = buffers.flatten := List.append_nil _
  cases hnew with
  | pes =>
    rw [← context_newReader, feedAll_pes settled_newReader, feedAll_pes settled_newReader,
      hflatten]
  | ts pid =>
    rw [feedAll_ts (ready_tsDemuxNew pid), feedAll_ts (ready_tsDemuxNew pid), hflatten]

/-- Any two ways to cut a stream give the same frames. -/
theorem frames_of_bytes {dx : Demux} (hnew : IsNew dx) {buffers others : List (List UInt8)}
    (hbytes : buffers.flatten = others.flatten) :
    (feedAll dx buffers).decoder.delivered = (feedAll dx others).decoder.delivered := by
  rw [feedAll_flatten hnew buffers, feedAll_flatten hnew others, hbytes]

/-- A start code cut in two. -/
theorem frames_of_bytes_cut :
    (feedAll (.pes pesDemuxNew) [[0x00, 0x00], [0x01, 0xbd]]).decoder.delivered =
      (feedAll (.pes pesDemuxNew) [[0x00, 0x00, 0x01], [], [0xbd]]).decoder.delivered :=
  frames_of_bytes .pes rfl

end DvbChunks

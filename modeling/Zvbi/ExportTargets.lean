import Zvbi.ExportBuffer
import Mathlib.Order.Nat
import Mathlib.Tactic.SplitIfs

/-!
# All export targets receive the same bytes

However the bytes of an export are divided between the buffer, the stream or file and a
buffer that replaces the caller's memory, what was written and what the buffer holds are
together the bytes of the calls made so far.
-/

namespace ExportTargets

open ExportBuffer

/-- The C library answers every call, and finds memory for requests up to `limit` bytes. -/
structure Succeeds (sys : System) (limit : Nat) : Prop where
  realloc (k : Nat) {size : Nat} (hsize : size ≤ limit) : sys.realloc k size = true
  fwrite (k size : Nat) : sys.fwrite k size = size
  vfprintf (k size : Nat) : sys.vfprintf k size = size
  write (k size : Nat) : sys.write k size = size
  xopen : sys.xopen = true
  xclose : sys.xclose = true

def text : Call → List UInt8
  | .putc c => [c]
  | .write source => source
  | .puts source => (source.map cString).getD []
  | .printf text => text
  | .flush => []

def output (calls : List Call) : List UInt8 := calls.flatMap text

/-- `vprintf` can tell the length of what it formats. -/
def Formats (calls : List Call) : Prop := ∀ text, Call.printf text ∈ calls → text.length ≤ intMax

def written (e : Export) : List UInt8 := e.handle ++ e.bytes.take e.offset

structure Room (e : Export) : Prop where
  offset : e.offset ≤ e.capacity
  capacity : e.capacity = e.bytes.length
  succeeded : e.writeError = false
  memory : e.target = .mem ∨ e.target = .alloc → e.handle = []
  caller : e.target = .mem → e.data = .client ∨ e.data = .null ∧ e.client = []
  stream : e.target = .fp → e.write = some .writeFp
  file : e.target = .fd ∨ e.target = .file → e.write = some .writeFd

/-- What holds of the export structure between the calls of the export module. -/
structure Sound (e : Export) : Prop extends Room e where
  tight : e.target = .alloc → e.offset = 0 → e.capacity ≤ 1

theorem Room.going {e : Export} (he : Room e) : ¬ e.writeError = true := by
  rw [he.succeeded]
  exact Bool.false_ne_true

def Follows (e e' : Export) : Prop :=
  (e'.target = e.target ∨ e.target = .mem ∧ e'.target = .alloc) ∧
    e'.client.length = e.client.length

theorem Follows.refl (e : Export) : Follows e e := ⟨.inl rfl, rfl⟩

variable {e' : Export} {least minSpace : Nat}

variable {e'' : Export} {count old : Nat} {target : Target} {write : Option WriteFn}

theorem Follows.trans {e : Export} (hfirst : Follows e e') (hsecond : Follows e' e'') :
    Follows e e'' := by
  refine ⟨?_, hsecond.2.trans hfirst.2⟩
  rcases hsecond.1 with htarget | ⟨hmem, halloc⟩
  · rw [htarget]
    exact hfirst.1
  · rcases hfirst.1 with htarget | ⟨-, htarget⟩
    · exact .inr ⟨htarget ▸ hmem, halloc⟩
    · rw [htarget] at hmem
      cases hmem

def held (e : Export) : List UInt8 := e.bytes.take e.offset

@[simp] theorem length_held {e : Export} (he : Room e) : (held e).length = e.offset := by
  rw [held, List.length_take, ← he.capacity]
  exact Nat.min_eq_left he.offset

theorem offset_le_written {e : Export} (he : Room e) : e.offset ≤ (written e).length := by
  have hheld : (e.bytes.take e.offset).length = e.offset := length_held he
  rw [written, List.length_append, hheld]
  exact Nat.le_add_left _ _

section growing

variable {sys : System} {limit : Nat}

theorem limit_le (hsys : Succeeds sys limit) : limit ≤ ssizeMax :=
  sys.bounded (hsys.realloc 0 le_rfl)

theorem length_resize (k : Nat) (bytes : List UInt8) (size : Nat) :
    (resize sys k bytes size).length = size := by
  simp only [resize, List.length_append, List.length_take, List.length_map, List.length_range']
  omega

theorem take_resize (k : Nat) (bytes : List UInt8) {size : Nat} (hsize : count ≤ size)
    (hbytes : count ≤ bytes.length) :
    (resize sys k bytes size).take count = bytes.take count := by
  have hprefix : count ≤ (bytes.take size).length := by
    rw [List.length_take]
    omega
  rw [resize, List.take_append_of_le_length hprefix, List.take_take, Nat.min_eq_left hsize]

theorem le_newCapacity (hleast : least ≤ sizeMax) : least ≤ newCapacity old least := by
  unfold newCapacity
  split_ifs with hlast hlarge
  · exact hleast
  · exact le_max_left _ _
  · exact le_max_left _ _

/-- A vector grows to a heap block that is large enough and keeps its contents. -/
theorem growVectorCapacity_spec (hsys : Succeeds sys limit) (e : Export) (hleast : least ≤ limit) :
    ∃ bytes calls,
      growVectorCapacity sys e least =
        (true, { e with data := .heap bytes, capacity := bytes.length, calls := calls }) ∧
      least ≤ bytes.length ∧ bytes.length ≤ newCapacity e.capacity least ∧
      ∀ count, count ≤ least → count ≤ e.bytes.length →
        bytes.take count = e.bytes.take count := by
  have hmax : least ≤ sizeMax :=
    (hleast.trans (limit_le hsys)).trans (by decide)
  have hsize : least ≤ newCapacity e.capacity least := le_newCapacity hmax
  rw [growVectorCapacity, if_neg (Nat.not_lt.mpr hmax)]
  by_cases hfirst : sys.realloc e.calls (newCapacity e.capacity least) = true
  · refine ⟨resize sys e.calls e.bytes (newCapacity e.capacity least), e.calls + 1, ?_, ?_, ?_,
      ?_⟩
    · simp only [hfirst, if_true, length_resize]
    · rw [length_resize]
      exact hsize
    · rw [length_resize]
    · intro count hcount hbytes
      exact take_resize _ _ (hcount.trans hsize) hbytes
  · have hmore : ¬ newCapacity e.capacity least ≤ least := by
      intro hle
      rw [Nat.le_antisymm hle hsize] at hfirst
      exact hfirst (hsys.realloc _ hleast)
    refine ⟨resize sys (e.calls + 1) e.bytes least, e.calls + 2, ?_, ?_, ?_, ?_⟩
    · simp only [hfirst, Bool.false_eq_true, if_false, hmore, hsys.realloc _ hleast, if_true,
        length_resize]
    · rw [length_resize]
    · rw [length_resize]
      exact hsize
    · intro count hcount hbytes
      exact take_resize _ _ hcount hbytes

end growing

section storing

variable {e : Export} {cells source tail : List UInt8}

theorem bytes_setBytes (hlength : cells.length = e.bytes.length) :
    (e.setBytes cells).bytes = cells := by
  unfold Export.setBytes Export.bytes at *
  cases hdata : e.data with
  | null =>
    rw [hdata, Data.memory, List.length_nil, List.length_eq_zero_iff] at hlength
    simp only [hdata, hlength, Data.memory]
  | client => rfl
  | heap bytes => rfl

/-- New contents change nothing else. -/
theorem setBytes_frame (e : Export) (cells : List UInt8) :
    (e.setBytes cells).target = e.target ∧ (e.setBytes cells).handle = e.handle ∧
      (e.setBytes cells).write = e.write ∧ (e.setBytes cells).offset = e.offset ∧
      (e.setBytes cells).capacity = e.capacity ∧
      (e.setBytes cells).writeError = e.writeError := by
  unfold Export.setBytes
  cases e.data with
  | null => exact ⟨rfl, rfl, rfl, rfl, rfl, rfl⟩
  | client => exact ⟨rfl, rfl, rfl, rfl, rfl, rfl⟩
  | heap bytes => exact ⟨rfl, rfl, rfl, rfl, rfl, rfl⟩

theorem client_setBytes (hlength : cells.length = e.bytes.length) :
    (e.setBytes cells).client.length = e.client.length := by
  unfold Export.setBytes
  cases hdata : e.data with
  | null => rfl
  | client =>
    rw [Export.bytes, hdata] at hlength
    exact hlength
  | heap bytes => rfl

theorem caller_setBytes (hcaller : e.data = .client ∨ e.data = .null ∧ e.client = []) :
    (e.setBytes cells).data = .client ∨
      (e.setBytes cells).data = .null ∧ (e.setBytes cells).client = [] := by
  unfold Export.setBytes
  rcases hcaller with hdata | ⟨hdata, hclient⟩
  · simp [hdata]
  · simp [hdata, hclient]

theorem room_setBytes (he : Room e) (hlength : cells.length = e.bytes.length) :
    Room (e.setBytes cells) := by
  obtain ⟨htarget, hhandle, hwrite, hoffset, hcapacity, herror⟩ := setBytes_frame e cells
  refine ⟨?_, ?_, ?_, ?_, ?_, ?_, ?_⟩
  · rw [hoffset, hcapacity]
    exact he.offset
  · rw [hcapacity, bytes_setBytes hlength, hlength]
    exact he.capacity
  · rw [herror]
    exact he.succeeded
  · rw [htarget, hhandle]
    exact he.memory
  · rw [htarget]
    exact fun hmem => caller_setBytes (he.caller hmem)
  · rw [htarget, hwrite]
    exact he.stream
  · rw [htarget, hwrite]
    exact he.file

/-- The next `count` bytes of the buffer hold data. -/
def advance (e : Export) (count : Nat) : Export := { e with offset := e.offset + count }

theorem room_advance (he : Room e) (hroom : e.offset + count ≤ e.capacity) :
    Room (advance e count) :=
  ⟨hroom, he.capacity, he.succeeded, he.memory, he.caller, he.stream, he.file⟩

/-- What a store behind the data in the buffer does, when the data is then extended by
`source`. -/
structure Stores (e e' : Export) (source : List UInt8) : Prop where
  room : Room (advance e' source.length)
  written : written (advance e' source.length) = written e ++ source
  offset : e'.offset = e.offset
  capacity : e'.capacity = e.capacity
  target : e'.target = e.target
  follows : Follows e e'

/-- A store of `source`, and of something behind it, into the free part of the buffer. -/
theorem store_spec (he : Room e)
    (hroom : e.offset + (source ++ tail).length ≤ e.capacity) :
    ∃ e', e.store e.offset (source ++ tail) = some e' ∧ Stores e e' source := by
  obtain ⟨cells, hcells⟩ := BlockStore.store_isSome (he.capacity ▸ hroom)
  have hlength := BlockStore.store_length hcells
  obtain ⟨htarget, hhandle, -, hoffset, hcapacity, -⟩ := setBytes_frame e cells
  refine ⟨e.setBytes cells, ?_, ?_, ?_, hoffset, hcapacity, htarget, ?_⟩
  · rw [Export.store, hcells, Option.map_some]
  · refine room_advance (room_setBytes he hlength) ?_
    rw [hoffset, hcapacity]
    rw [List.length_append] at hroom
    omega
  · change (e.setBytes cells).handle ++
      (e.setBytes cells).bytes.take ((e.setBytes cells).offset + source.length) = _
    rw [hhandle, bytes_setBytes hlength, hoffset, BlockStore.take_store_append hcells, written,
      List.append_assoc]
  · exact ⟨.inl htarget, client_setBytes hlength⟩

end storing

section growing

variable {sys : System} {limit : Nat}

/-- What `growBufferSpace` does when memory is found. -/
structure Grows (e e' : Export) (minSpace : Nat) : Prop where
  room : Room e'
  written : written e' = written e
  offset : e'.offset = e.offset
  space : e.offset + minSpace ≤ e'.capacity
  tight : e'.target = .alloc → e.offset = 0 → e'.capacity ≤ max 1 minSpace
  follows : Follows e e'

theorem newCapacity_small (hold : old ≤ 1) (hleast : old < least) :
    newCapacity old least = least := by
  unfold newCapacity sizeMax
  rw [if_neg (by omega), if_neg (by omega)]
  exact max_eq_left (by omega)

theorem grows_in_place (hsys : Succeeds sys limit) {e : Export} (he : Sound e)
    (hmem : e.target ≠ .mem) (hshort : e.capacity < e.offset + minSpace)
    (hlimit : e.offset + minSpace ≤ limit) :
    ∃ e', growVectorCapacity sys e (e.offset + minSpace) = (true, e') ∧
      Grows e e' minSpace := by
  obtain ⟨bytes, calls, hgrow, hleast, hmost, hkeeps⟩ :=
    growVectorCapacity_spec hsys e hlimit
  have hheld : bytes.take e.offset = e.bytes.take e.offset :=
    hkeeps _ (Nat.le_add_right _ _) (he.capacity ▸ he.offset)
  refine ⟨_, hgrow, ?_, ?_, rfl, hleast, ?_, .inl rfl, rfl⟩
  · exact ⟨(Nat.le_add_right _ _).trans hleast, rfl, he.succeeded, he.memory,
      fun htarget => (hmem htarget).elim, he.stream, he.file⟩
  · change e.handle ++ bytes.take e.offset = _
    rw [hheld, written]
  · intro htarget hoffset
    rw [newCapacity_small (he.tight htarget hoffset) hshort, hoffset, Nat.zero_add] at hmost
    exact hmost.trans (le_max_right _ _)

/-- The caller's memory is exchanged for a block with the same data. -/
theorem grows_elsewhere (hsys : Succeeds sys limit) {e : Export} (he : Sound e)
    (hmem : e.target = .mem) (hshort : e.capacity < e.offset + minSpace)
    (hlimit : e.offset + minSpace ≤ limit) :
    ∃ grown e',
      growVectorCapacity sys
        { e with target := .alloc, write := none, data := .null, capacity := 0 }
        (e.offset + minSpace) = (true, grown) ∧
      grown.store 0 (held e) = some e' ∧ Grows e e' minSpace := by
  obtain ⟨bytes, calls, hgrow, hleast, hmost, -⟩ := growVectorCapacity_spec hsys
    { e with target := .alloc, write := none, data := .null, capacity := 0 } hlimit
  have hlength : (held e).length = e.offset := length_held he.toRoom
  have hfits : 0 + (held e).length ≤ bytes.length := by omega
  obtain ⟨cells, hcells⟩ := BlockStore.store_isSome hfits
  have hheld : cells.take e.offset = held e := by
    have htake := BlockStore.take_store hcells
    rwa [Nat.zero_add, hlength, List.take_zero, List.nil_append] at htake
  have hcount : cells.length = bytes.length := BlockStore.store_length hcells
  have hstore := congrArg (Option.map fun cells =>
    { e with
      target := .alloc
      write := none
      data := .heap cells
      capacity := bytes.length
      calls := calls }) hcells
  refine ⟨_, _, hgrow, hstore, ?_, ?_, rfl, hleast, ?_, .inr ⟨hmem, rfl⟩, rfl⟩
  · refine ⟨(Nat.le_add_right _ _).trans hleast, hcount.symm, he.succeeded,
      fun _ => he.memory (.inl hmem), ?_, ?_, ?_⟩
    · intro htarget
      cases htarget
    · intro htarget
      cases htarget
    · rintro (htarget | htarget)
      · cases htarget
      · cases htarget
  · change e.handle ++ cells.take e.offset = _
    rw [hheld, written, held]
  · intro _ hoffset
    rw [newCapacity_small (Nat.zero_le 1) (Nat.zero_lt_of_lt hshort), hoffset,
      Nat.zero_add] at hmost
    exact hmost.trans (le_max_right _ _)

theorem growBufferSpace_spec (hsys : Succeeds sys limit) {e : Export} (he : Sound e)
    (hlimit : e.offset + minSpace ≤ limit) :
    ∃ e', growBufferSpace sys e minSpace = some (true, e') ∧ Grows e e' minSpace := by
  have hmax : ¬ sizeMax - minSpace < e.offset := by
    have hbound := hlimit.trans (limit_le hsys)
    unfold sizeMax
    unfold ssizeMax at hbound
    omega
  rw [growBufferSpace, if_neg (Nat.not_lt.mpr he.offset), if_neg he.going]
  by_cases henough : minSpace ≤ e.capacity ∧ e.offset ≤ e.capacity - minSpace
  · refine ⟨e, if_pos henough, he.toRoom, rfl, rfl, by omega, ?_, .refl e⟩
    intro htarget hoffset
    exact (he.tight htarget hoffset).trans (le_max_left _ _)
  · have hshort : e.capacity < e.offset + minSpace := by omega
    rw [if_neg henough, if_neg hmax]
    by_cases hmem : e.target = .mem
    · obtain ⟨grown, e', hgrow, hstore, hgrows⟩ := grows_elsewhere hsys he hmem hshort hlimit
      refine ⟨e', ?_, hgrows⟩
      have hload := BlockStore.load_zero (he.capacity ▸ he.offset)
      simp only [if_pos hmem, hgrow, if_true, hload, Option.bind_eq_bind, Option.bind_some]
      rw [held] at hstore
      rw [hstore]
      rfl
    · obtain ⟨e', hgrow, hgrows⟩ := grows_in_place hsys he hmem hshort hlimit
      exact ⟨e', by rw [if_neg hmem, hgrow], hgrows⟩

end growing

/-- What a call does that is to write `source`. -/
structure Writes (e e' : Export) (source : List UInt8) : Prop where
  sound : Sound e'
  written : written e' = written e ++ source
  follows : Follows e e'

theorem Writes.refl {e : Export} (he : Sound e) : Writes e e [] :=
  ⟨he, (List.append_nil _).symm, .refl e⟩

theorem Writes.trans {e : Export} {source source' : List UInt8} (hfirst : Writes e e' source)
    (hsecond : Writes e' e'' source') : Writes e e'' (source ++ source') := by
  refine ⟨hsecond.sound, ?_, hfirst.follows.trans hsecond.follows⟩
  rw [hsecond.written, hfirst.written, List.append_assoc]

section calls

variable {sys : System} {limit : Nat}

/-- Data stored behind a buffer that was extended for it. -/
theorem Grows.writes {e grown : Export} {source : List UInt8} (hgrows : Grows e grown minSpace)
    (hstores : Stores grown e' source) (htight : source = [] → minSpace ≤ 1) :
    Writes e (advance e' source.length) source := by
  refine ⟨⟨hstores.room, ?_⟩, ?_, hgrows.follows.trans hstores.follows⟩
  · intro htarget hoffset
    change e'.target = .alloc at htarget
    change e'.offset + source.length = 0 at hoffset
    change e'.capacity ≤ 1
    rw [hstores.offset, hgrows.offset] at hoffset
    have hsource : source = [] := List.length_eq_zero_iff.mp (by omega)
    rw [hstores.capacity]
    rw [hstores.target] at htarget
    exact (hgrows.tight htarget (by omega)).trans (max_le le_rfl (htight hsource))
  · rw [hstores.written, hgrows.written]

theorem store_grown (hsys : Succeeds sys limit) {e : Export} (he : Sound e)
    {source : List UInt8} (hlimit : (written e).length + source.length ≤ limit) :
    ∃ grown e', growBufferSpace sys e source.length = some (true, grown) ∧
      grown.store grown.offset source = some e' ∧
      Writes e (advance e' source.length) source := by
  have hoffset := offset_le_written he.toRoom
  have hspace : e.offset + source.length ≤ limit := by omega
  obtain ⟨grown, hgrow, hgrows⟩ := growBufferSpace_spec hsys he hspace
  have hroom : grown.offset + (source ++ []).length ≤ grown.capacity := by
    rw [List.append_nil, hgrows.offset]
    exact hgrows.space
  obtain ⟨e', hstore, hstores⟩ := store_spec hgrows.room hroom
  rw [List.append_nil] at hstore
  exact ⟨grown, e', hgrow, hstore, hgrows.writes hstores fun h => by simp [h]⟩

theorem bufferedWrite_spec (hsys : Succeeds sys limit) {e : Export} (he : Sound e)
    {source : List UInt8} (hlimit : (written e).length + source.length ≤ limit) :
    ∃ e', bufferedWrite sys e source = some (true, e') ∧ Writes e e' source := by
  obtain ⟨grown, e', hgrow, hstore, hwrites⟩ := store_grown hsys he hlimit
  refine ⟨_, ?_, hwrites⟩
  simp only [bufferedWrite, hgrow, Option.bind_eq_bind, Option.bind_some, if_true, hstore]
  rfl

theorem exportPutc_spec (hsys : Succeeds sys limit) {e : Export} (he : Sound e) (c : UInt8)
    (hlimit : (written e).length + 1 ≤ limit) :
    ∃ e', exportPutc sys e c = some (true, e') ∧ Writes e e' [c] := by
  obtain ⟨grown, e', hgrow, hstore, hwrites⟩ := @store_grown _ _ hsys _ he [c] hlimit
  refine ⟨_, ?_, hwrites⟩
  rw [List.length_singleton] at hgrow
  simp only [exportPutc, hgrow, Option.bind_eq_bind, Option.bind_some, if_true, hstore]
  rfl

theorem writeRetry_spec (hsys : Succeeds sys limit) (e : Export) (source : List UInt8)
    (retry : Nat) :
    writeRetry sys e source retry =
      (true, { e with handle := e.handle ++ source, calls := e.calls + 1 }) := by
  cases retry with
  | zero => simp [writeRetry, hsys.write]
  | succ retry => simp [writeRetry, hsys.write]

theorem writeFd_spec (hsys : Succeeds sys limit) (e : Export) (source : List UInt8) :
    ∃ calls, writeFd sys e source =
      (true, { e with handle := e.handle ++ source, calls := calls }) := by
  induction hlength : source.length using Nat.strong_induction_on generalizing e source with
  | _ length ih =>
    rw [writeFd]
    by_cases hempty : source.length = 0
    · rw [List.length_eq_zero_iff] at hempty
      subst hempty
      exact ⟨e.calls, by simp⟩
    · rw [if_neg hempty]
      simp only [writeRetry_spec hsys, if_true]
      have hcount := writeCount_pos (Nat.pos_of_ne_zero hempty)
      obtain ⟨calls, hrest⟩ := ih (source.drop (writeCount source.length)).length
        (by rw [List.length_drop]; omega)
        { e with
          handle := e.handle ++ source.take (writeCount source.length)
          calls := e.calls + 1 }
        (source.drop (writeCount source.length)) rfl
      refine ⟨calls, ?_⟩
      rw [hrest]
      simp only [List.append_assoc, List.take_append_drop]

def Handled (e : Export) : Prop := e.target = .fp ∨ e.target = .fd ∨ e.target = .file

theorem callWrite_spec (hsys : Succeeds sys limit) {e : Export} (he : Room e)
    (hhandled : Handled e) (source : List UInt8) :
    ∃ calls, callWrite sys e source =
      some (true, { e with handle := e.handle ++ source, calls := calls }) := by
  rcases hhandled with hfp | hfd
  · refine ⟨e.calls + 1, ?_⟩
    simp only [callWrite, he.stream hfp, writeFp, hsys.fwrite, if_true, List.take_length]
  · obtain ⟨calls, hwrite⟩ := writeFd_spec hsys e source
    refine ⟨calls, ?_⟩
    simp only [callWrite, he.file hfd, hwrite]

theorem Handled.memory {e : Export} (hhandled : Handled e) :
    ¬ (e.target = .mem ∨ e.target = .alloc) := by
  rcases hhandled with h | h | h <;> rw [h] <;> decide

/-- The stream or file received bytes, and the buffer may have been emptied. -/
theorem Handled.sound {e : Export} (hhandled : Handled e) (he : Sound e)
    (handle : List UInt8) (calls : Nat) {offset : Nat} (hoffset : offset ≤ e.offset) :
    Sound { e with handle := handle, calls := calls, offset := offset } :=
  ⟨⟨hoffset.trans he.offset, he.capacity, he.succeeded,
    fun htarget => (hhandled.memory htarget).elim, he.caller, he.stream, he.file⟩,
    fun htarget => (hhandled.memory (.inr htarget)).elim⟩

/-- Bytes were written past an empty buffer. -/
theorem writes_direct {e : Export} (he : Sound e) (hhandled : Handled e)
    (hempty : e.offset = 0) (source : List UInt8) (calls : Nat) :
    Writes e { e with handle := e.handle ++ source, calls := calls } source := by
  refine ⟨hhandled.sound he _ _ le_rfl, ?_, .inl rfl, rfl⟩
  change e.handle ++ source ++ e.bytes.take e.offset = _
  rw [written, hempty, List.take_zero, List.append_nil, List.append_nil]

theorem fastFlush_spec (hsys : Succeeds sys limit) {e : Export} (he : Sound e)
    (hhandled : Handled e) :
    ∃ e', fastFlush sys e = some (true, e') ∧ Writes e e' [] ∧ Handled e' ∧ e'.offset = 0 ∧
      e'.target = e.target := by
  by_cases hempty : 0 < e.offset
  · obtain ⟨calls, hwrite⟩ := callWrite_spec hsys he.toRoom hhandled (held e)
    have hload := BlockStore.load_zero (he.capacity ▸ he.offset)
    rw [held] at hwrite
    refine ⟨{ e with handle := e.handle ++ e.bytes.take e.offset, calls := calls, offset := 0 },
      ?_, ⟨hhandled.sound he _ _ (Nat.zero_le _), ?_, .inl rfl, rfl⟩, hhandled, rfl, rfl⟩
    · simp only [fastFlush, hempty, if_true, hload, Option.bind_eq_bind, Option.bind_some, hwrite]
      rfl
    · change e.handle ++ e.bytes.take e.offset ++ e.bytes.take 0 = _
      rw [List.take_zero, written]
  · refine ⟨e, ?_, .refl he, hhandled, by omega, rfl⟩
    rw [fastFlush, if_neg hempty]

end calls

section outputs

variable {sys : System} {limit : Nat} {e : Export}

theorem fastWrite_spec (hsys : Succeeds sys limit) (he : Sound e) (hhandled : Handled e)
    (source : List UInt8) :
    ∃ e', fastWrite sys e source = some (true, e') ∧ Writes e e' source := by
  obtain ⟨flushed, hflush, hfirst, hstill, hempty, -⟩ := fastFlush_spec hsys he hhandled
  obtain ⟨calls, hwrite⟩ := callWrite_spec hsys hfirst.sound.toRoom hstill source
  refine ⟨_, ?_, hfirst.trans (writes_direct hfirst.sound hstill hempty source calls)⟩
  simp only [fastWrite, hflush, Option.bind_eq_bind, Option.bind_some, if_true, hwrite]
  rfl

/-- The threshold for direct writes does not show. -/
theorem exportWrite_spec (hsys : Succeeds sys limit) (he : Sound e) {source : List UInt8}
    (hlimit : (written e).length + source.length ≤ limit) :
    ∃ e', exportWrite sys e source = some (true, e') ∧ Writes e e' source := by
  have hbuffered := bufferedWrite_spec hsys he hlimit
  have heither (hhandled : Handled e) :
      ∃ e', (if 4096 ≤ source.length then fastWrite sys e source
        else bufferedWrite sys e source) = some (true, e') ∧ Writes e e' source := by
    by_cases hlarge : 4096 ≤ source.length
    · rw [if_pos hlarge]
      exact fastWrite_spec hsys he hhandled source
    · rw [if_neg hlarge]
      exact hbuffered
  rw [exportWrite, if_neg he.going]
  cases htarget : e.target with
  | mem => exact hbuffered
  | alloc => exact hbuffered
  | fp => exact heither (.inl htarget)
  | fd => exact heither (.inr (.inl htarget))
  | file => exact heither (.inr (.inr htarget))

theorem exportPuts_spec (hsys : Succeeds sys limit) (he : Sound e)
    {source : Option (List UInt8)}
    (hlimit : (written e).length + (text (.puts source)).length ≤ limit) :
    ∃ e', exportPuts sys e source = some (true, e') ∧ Writes e e' (text (.puts source)) := by
  unfold exportPuts
  rw [if_neg he.going]
  cases source with
  | none => exact ⟨e, rfl, .refl he⟩
  | some source => exact exportWrite_spec hsys he hlimit

theorem exportFlush_spec (hsys : Succeeds sys limit) (he : Sound e) :
    ∃ e', exportFlush sys e = some (true, e') ∧ Writes e e' [] ∧
      (Handled e → e'.offset = 0) := by
  have hflush (hhandled : Handled e) :
      ∃ e', fastFlush sys e = some (true, e') ∧ Writes e e' [] ∧
        (Handled e → e'.offset = 0) := by
    obtain ⟨e', hflush, hwrites, -, hempty, -⟩ := fastFlush_spec hsys he hhandled
    exact ⟨e', hflush, hwrites, fun _ => hempty⟩
  rw [exportFlush, if_neg he.going]
  cases htarget : e.target with
  | mem => exact ⟨e, rfl, .refl he, fun h => (h.memory (.inl htarget)).elim⟩
  | alloc => exact ⟨e, rfl, .refl he, fun h => (h.memory (.inr htarget)).elim⟩
  | fp => exact hflush (.inl htarget)
  | fd => exact hflush (.inr (.inl htarget))
  | file => exact hflush (.inr (.inr htarget))

variable {source : List UInt8}

/-- The text and its NUL fit into the free space. -/
theorem vsnprintf_fits (he : Room e) (hint : source.length ≤ intMax)
    (hfits : source.length < e.capacity - e.offset) :
    ∃ e', vsnprintf e (e.capacity - e.offset) source = some ((source.length : Int), e') ∧
      Stores e e' source := by
  have hroom : e.offset + (source ++ [0]).length ≤ e.capacity := by
    rw [List.length_append, List.length_singleton]
    omega
  obtain ⟨e', hstore, hstores⟩ := store_spec he hroom
  have htext : source.take (e.capacity - e.offset - 1) = source :=
    List.take_of_length_le (by omega)
  refine ⟨e', ?_, hstores⟩
  rw [vsnprintf, if_neg (by omega), htext, hstore, if_pos hint]
  rfl

/-- Otherwise `vsnprintf` fills the free space, which does not count as data. -/
theorem vsnprintf_short (he : Sound e) (hint : source.length ≤ intMax)
    (hshort : ¬ source.length < e.capacity - e.offset) :
    ∃ e', vsnprintf e (e.capacity - e.offset) source = some ((source.length : Int), e') ∧
      Writes e e' [] ∧ e'.offset = e.offset := by
  by_cases havail : e.capacity - e.offset = 0
  · refine ⟨e, ?_, .refl he, rfl⟩
    rw [vsnprintf, if_pos havail, if_pos hint]
    rfl
  · have hlength : (source.take (e.capacity - e.offset - 1) ++ [0]).length =
        e.capacity - e.offset := by
      rw [List.length_append, List.length_take, List.length_singleton]
      omega
    have hroom : e.offset +
        ([] ++ (source.take (e.capacity - e.offset - 1) ++ [0])).length ≤ e.capacity := by
      rw [List.nil_append, hlength]
      have hoffset := he.offset
      omega
    obtain ⟨e', hstore, hstores⟩ := store_spec he.toRoom hroom
    refine ⟨e', ?_, ⟨⟨hstores.room, ?_⟩, hstores.written, hstores.follows⟩, hstores.offset⟩
    · rw [vsnprintf, if_neg havail, if_pos hint]
      rw [List.nil_append] at hstore
      rw [hstore]
      rfl
    · rw [hstores.target, hstores.offset, hstores.capacity]
      exact he.tight

theorem vprintfLoop_last (he : Room e) (hint : source.length ≤ intMax)
    (hfits : source.length < e.capacity - e.offset) (fuel i : Nat) :
    ∃ e', vprintfLoop sys source (fuel + 1) i e = some (true, advance e' source.length) ∧
      Stores e e' source := by
  obtain ⟨e', hprint, hstores⟩ := vsnprintf_fits he hint hfits
  refine ⟨e', ?_, hstores⟩
  have hnonneg : ¬ ((source.length : Int) < 0) := by omega
  simp only [vprintfLoop, hprint, Option.bind_eq_bind, Option.bind_some, if_neg hnonneg,
    Int.toNat_natCast, if_pos hfits]
  rfl

/-- The loop ends in its second turn at the latest. -/
theorem vprintfLoop_spec (hsys : Succeeds sys limit) (he : Sound e)
    (hint : source.length ≤ intMax) (hlimit : (written e).length + source.length < limit)
    (fuel : Nat) :
    ∃ e', vprintfLoop sys source (fuel + 2) 0 e = some (true, e') ∧ Writes e e' source := by
  by_cases hfits : source.length < e.capacity - e.offset
  · obtain ⟨e', hloop, hstores⟩ := vprintfLoop_last he.toRoom hint hfits (fuel + 1) 0
    refine ⟨_, hloop, ⟨hstores.room, ?_⟩, hstores.written, hstores.follows⟩
    intro htarget hoffset
    change e'.target = .alloc at htarget
    change e'.offset + source.length = 0 at hoffset
    rw [hstores.target] at htarget
    rw [hstores.offset] at hoffset
    have htight := he.tight htarget (by omega)
    exact hstores.capacity.trans_le htight
  · obtain ⟨e₁, hprint, hwrites, hoffset⟩ := vsnprintf_short he hint hfits
    have hspace : e₁.offset + (source.length + 1) ≤ limit := by
      have hle := offset_le_written he.toRoom
      omega
    obtain ⟨e₂, hgrow, hgrows⟩ := growBufferSpace_spec hsys hwrites.sound hspace
    have hroom : source.length < e₂.capacity - e₂.offset := by
      have hle := hgrows.space
      rw [hgrows.offset]
      omega
    obtain ⟨e', hloop, hstores⟩ := vprintfLoop_last hgrows.room hint hroom fuel 1
    refine ⟨_, ?_, hwrites.trans (hgrows.writes hstores fun h => by simp [h])⟩
    have hnonneg : ¬ ((source.length : Int) < 0) := by omega
    rw [vprintfLoop]
    simp only [hprint, Option.bind_eq_bind, Option.bind_some, if_neg hnonneg,
      Int.toNat_natCast, if_neg hfits, lt_irrefl, if_false, hgrow, if_true]
    exact hloop

theorem exportVprintf_spec (hsys : Succeeds sys limit) (he : Sound e)
    (hint : source.length ≤ intMax) (hlimit : (written e).length + source.length < limit)
    (fuel : Nat) :
    ∃ e', exportVprintf sys fuel e source = some (true, e') ∧ Writes e e' source := by
  rw [exportVprintf, if_neg he.going]
  by_cases hfp : e.target = .fp
  · obtain ⟨flushed, hflush, hfirst, hstill, hempty, -⟩ := fastFlush_spec hsys he (.inl hfp)
    refine ⟨_, ?_,
      hfirst.trans (writes_direct hfirst.sound hstill hempty source (flushed.calls + 1))⟩
    simp only [if_pos hfp, hflush, Option.bind_eq_bind, Option.bind_some, if_true,
      hsys.vfprintf, List.take_length, hint, and_self]
    rfl
  · rw [if_neg hfp]
    exact vprintfLoop_spec hsys he hint hlimit fuel

/-- One call writes its bytes, wherever they go. -/
theorem run_writes (hsys : Succeeds sys limit) (he : Sound e) {call : Call}
    (hformats : ∀ source, call = .printf source → source.length ≤ intMax)
    (hlimit : (written e).length + (text call).length < limit) (fuel : Nat) :
    ∃ e', call.run sys fuel e = some (true, e') ∧ Writes e e' (text call) := by
  cases call with
  | putc c => exact exportPutc_spec hsys he c hlimit.le
  | write source => exact exportWrite_spec hsys he hlimit.le
  | puts source => exact exportPuts_spec hsys he hlimit.le
  | printf source => exact exportVprintf_spec hsys he (hformats source rfl) hlimit fuel
  | flush =>
    obtain ⟨e', hflush, hwrites, -⟩ := exportFlush_spec hsys he
    exact ⟨e', hflush, hwrites⟩

theorem exportPage_writes (hsys : Succeeds sys limit) {calls : List Call}
    (hformats : Formats calls) (fuel : Nat) (he : Sound e)
    (hlimit : (written e).length + (output calls).length < limit) :
    ∃ e', exportPage sys fuel calls e = some (true, e') ∧ Writes e e' (output calls) := by
  induction calls generalizing e with
  | nil => exact ⟨e, by rw [exportPage, he.succeeded]; rfl, .refl he⟩
  | cons call calls ih =>
    have houtput : output (call :: calls) = text call ++ output calls := rfl
    rw [houtput, List.length_append] at hlimit
    obtain ⟨e₁, hrun, hfirst⟩ := run_writes hsys he
      (fun source hcall => hformats source (hcall ▸ List.mem_cons_self)) (by omega) fuel
    have hlength := congrArg List.length hfirst.written
    rw [List.length_append] at hlength
    obtain ⟨e₂, hpage, hrest⟩ := ih
      (fun source hsource => hformats source (List.mem_cons_of_mem _ hsource)) hfirst.sound
      (by omega)
    refine ⟨e₂, ?_, houtput ▸ hfirst.trans hrest⟩
    simp only [exportPage, hrun, Option.bind_eq_bind, Option.bind_some]
    exact hpage

end outputs

section exports

variable {sys : System} {limit : Nat} {calls : List Call}

/-- The state an export into anything but the caller's memory starts from. -/
def start (target : Target) (write : Option WriteFn) : Export where
  target := target
  handle := []
  write := write
  client := []
  data := .null
  offset := 0
  capacity := 0
  writeError := false
  calls := 0

theorem sound_start (hstream : target = .fp → write = some .writeFp)
    (hfile : target = .fd ∨ target = .file → write = some .writeFd) :
    Sound (start target write) :=
  ⟨⟨le_rfl, rfl, rfl, fun _ => rfl, fun _ => .inr ⟨rfl, rfl⟩, hstream, hfile⟩,
    fun _ _ => Nat.zero_le 1⟩

/-- An export into a target that is not exchanged for another one. -/
theorem exportPage_start (hsys : Succeeds sys limit) (hformats : Formats calls)
    (hlimit : (output calls).length < limit) (fuel : Nat) (hstart : Sound (start target write))
    (hmem : target ≠ .mem) :
    ∃ e, exportPage sys fuel calls (start target write) = some (true, e) ∧ Sound e ∧
      written e = output calls ∧ e.target = target ∧ e.client = [] := by
  have hnone : written (start target write) = [] := rfl
  obtain ⟨e, hpage, hwrites⟩ := exportPage_writes hsys hformats fuel hstart
    (by rw [hnone, List.length_nil, Nat.zero_add]; exact hlimit)
  refine ⟨e, hpage, hwrites.sound, ?_, ?_, List.length_eq_zero_iff.mp hwrites.follows.2⟩
  · rw [hwrites.written, hnone, List.nil_append]
  · rcases hwrites.follows.1 with htarget | ⟨htarget, -⟩
    · exact htarget
    · exact (hmem htarget).elim

/-- After the final flush the stream or file has everything. -/
theorem flush_handle (hsys : Succeeds sys limit) {e : Export} (he : Sound e)
    (hhandled : Handled e) :
    ∃ e', exportFlush sys e = some (true, e') ∧ e'.handle = written e := by
  obtain ⟨e', hflush, hwrites, hempty⟩ := exportFlush_spec hsys he
  have hwritten := hwrites.written
  rw [written, hempty hhandled, List.take_zero, List.append_nil, List.append_nil] at hwritten
  exact ⟨e', hflush, hwritten⟩

theorem exportStdio_spec (hsys : Succeeds sys limit) (hformats : Formats calls)
    (hlimit : (output calls).length < limit) (fuel : Nat) :
    exportStdio sys fuel calls = some (true, output calls) := by
  obtain ⟨e, hpage, he, hwritten, htarget, -⟩ := exportPage_start hsys hformats hlimit fuel
    (sound_start (fun _ => rfl) (by decide) : Sound (start .fp (some .writeFp))) (by decide)
  obtain ⟨e', hflush, hhandle⟩ := flush_handle hsys he (.inl htarget)
  rw [start] at hpage
  simp only [exportStdio, hpage, Option.bind_eq_bind, Option.bind_some, if_true, hflush, hhandle,
    hwritten]
  rfl

theorem exportFile_spec (hsys : Succeeds sys limit) (hformats : Formats calls)
    (hlimit : (output calls).length < limit) (fuel : Nat) :
    exportFile sys fuel calls = some (true, some (output calls)) := by
  obtain ⟨e, hpage, he, hwritten, htarget, -⟩ := exportPage_start hsys hformats hlimit fuel
    (sound_start (by decide) (fun _ => rfl) : Sound (start .file (some .writeFd))) (by decide)
  obtain ⟨e', hflush, hhandle⟩ := flush_handle hsys he (.inr (.inr htarget))
  rw [start] at hpage
  simp only [exportFile, hsys.xopen, hsys.xclose, hpage, Option.bind_eq_bind, Option.bind_some,
    if_true, hflush, hhandle, hwritten]
  rfl

/-- The bytes an export into memory has written are all in the buffer. -/
theorem held_memory {e : Export} (he : Sound e) (hmemory : e.target = .mem ∨ e.target = .alloc)
    (hwritten : written e = output calls) :
    e.bytes.take e.offset = output calls ∧ e.offset = (output calls).length := by
  have hheld : held e = output calls := by
    rw [← hwritten, written, he.memory hmemory, List.nil_append, held]
  refine ⟨hheld, ?_⟩
  rw [← hheld, length_held he.toRoom]

theorem exportAlloc_spec (hsys : Succeeds sys limit) (hformats : Formats calls)
    (hlimit : (output calls).length < limit) (fuel : Nat) :
    ∃ data, exportAlloc sys fuel calls = some (some (data, (output calls).length)) ∧
      (data.memory []).take (output calls).length = output calls := by
  obtain ⟨e, hpage, he, hwritten, htarget, hclient⟩ := exportPage_start hsys hformats hlimit
    fuel (sound_start (by decide) (by decide) : Sound (start .alloc none)) (by decide)
  obtain ⟨hbytes, hoffset⟩ := held_memory he (.inr htarget) hwritten
  rw [start] at hpage
  simp only [exportAlloc, hpage, Option.bind_eq_bind, Option.bind_some, if_true]
  rw [Export.bytes, hclient] at hbytes
  rw [← hoffset]
  by_cases hwaste : 256 ≤ e.capacity - e.offset
  · have hsome : ¬ e.offset = 0 := by
      intro hempty
      have htight := he.tight htarget hempty
      omega
    rw [if_pos hwaste, if_neg hsome]
    by_cases hrealloc : sys.realloc e.calls e.offset = true
    · refine ⟨_, by rw [if_pos hrealloc]; rfl, ?_⟩
      have hbound : e.offset ≤ e.bytes.length := he.capacity ▸ he.offset
      change (resize sys e.calls e.bytes e.offset).take e.offset = _
      rw [take_resize _ _ le_rfl hbound, Export.bytes, hclient, hbytes]
    · exact ⟨e.data, by rw [if_neg hrealloc]; rfl, hbytes⟩
  · exact ⟨e.data, by rw [if_neg hwaste]; rfl, hbytes⟩

theorem mem_kept {e : Export} (he : Sound e) (hmem : e.target = .mem)
    (hwritten : written e = output calls) :
    e.client.take (output calls).length = (output calls).take e.client.length := by
  obtain ⟨hbytes, hoffset⟩ := held_memory he (.inl hmem) hwritten
  rw [← hoffset]
  rcases he.caller hmem with hdata | ⟨hdata, hclient⟩
  · rw [Export.bytes, hdata, Data.memory] at hbytes
    have hroom : e.offset ≤ e.client.length := by
      have hcapacity := he.capacity
      rw [Export.bytes, hdata, Data.memory] at hcapacity
      exact hcapacity ▸ he.offset
    rw [hbytes, List.take_of_length_le (hoffset ▸ hroom)]
  · rw [hclient, List.take_nil, List.length_nil, List.take_zero]

/-- What was begun in the caller's memory is finished. -/
theorem mem_finished {e : Export} (he : Sound e) (halloc : e.target = .alloc)
    (hwritten : written e = output calls) :
    ∃ source stored, BlockStore.load e.bytes 0 (min e.offset e.client.length) = some source ∧
      BlockStore.store e.client 0 source = some stored ∧
      stored.length = e.client.length ∧
      stored.take (output calls).length = (output calls).take e.client.length := by
  obtain ⟨hbytes, hoffset⟩ := held_memory he (.inr halloc) hwritten
  have hbound : min e.offset e.client.length ≤ e.bytes.length :=
    (min_le_left _ _).trans (he.capacity ▸ he.offset)
  have hsource : e.bytes.take (min e.offset e.client.length) =
      (output calls).take e.client.length := by
    rw [← hbytes, List.take_take, min_comm]
  have hlength : ((output calls).take e.client.length).length =
      min e.offset e.client.length := by
    rw [List.length_take, hoffset, min_comm]
  have hfits : 0 + ((output calls).take e.client.length).length ≤ e.client.length := by
    rw [hlength, Nat.zero_add]
    exact min_le_right _ _
  obtain ⟨stored, hstore⟩ := BlockStore.store_isSome hfits
  have hcount := BlockStore.store_length hstore
  refine ⟨_, stored, BlockStore.load_zero hbound, hsource ▸ hstore, hcount, ?_⟩
  have htake := BlockStore.take_store hstore
  rw [Nat.zero_add, List.take_zero, List.nil_append, hlength, ← hcount,
    ← List.take_eq_take_min] at htake
  rw [← hoffset, htake, hcount]

/-- The caller's memory after an export that was not, or was, moved to another block. -/
theorem exportMem_spec (hsys : Succeeds sys limit) (hformats : Formats calls)
    (hlimit : (output calls).length < limit) (fuel : Nat) (buffer : Option (List UInt8)) :
    ∃ stored : List UInt8,
      exportMem sys fuel buffer calls = some (((output calls).length : Int), stored) ∧
      stored.length = (buffer.getD []).length ∧
      stored.take (output calls).length = (output calls).take (buffer.getD []).length := by
  have hstart : Sound {
      target := .mem
      handle := []
      write := none
      client := buffer.getD []
      data := if buffer.isSome then .client else .null
      offset := 0
      capacity := (buffer.getD []).length
      writeError := false
      calls := 0 } := by
    cases buffer with
    | none =>
      exact ⟨⟨le_rfl, rfl, rfl, fun _ => rfl, fun _ => .inr ⟨rfl, rfl⟩, by decide, by decide⟩,
        fun _ _ => Nat.zero_le 1⟩
    | some client =>
      exact ⟨⟨Nat.zero_le _, rfl, rfl, fun _ => rfl, fun _ => .inl rfl, by simp, by simp⟩,
        by simp⟩
  obtain ⟨e, hpage, hwrites⟩ := exportPage_writes hsys hformats fuel hstart
    (by simpa [written] using hlimit)
  have hwritten : written e = output calls := by
    simpa [written] using hwrites.written
  have hclient : e.client.length = (buffer.getD []).length := hwrites.follows.2
  have htarget : e.target = .mem ∨ e.target = .alloc := by
    rcases hwrites.follows.1 with htarget | ⟨-, htarget⟩
    · exact .inl htarget
    · exact .inr htarget
  obtain ⟨hbytes, hoffset⟩ := held_memory hwrites.sound htarget hwritten
  have hfits : ¬ ssizeMax < e.offset := by
    have hbound := limit_le hsys
    omega
  simp only [exportMem, hpage, Option.bind_eq_bind, Option.bind_some, if_true, if_neg hfits]
  rw [← hclient, ← hoffset]
  rcases htarget with hmem | halloc
  · have hnot : e.target ≠ .alloc := by
      rw [hmem]
      decide
    refine ⟨e.client, ?_, rfl, hoffset ▸ mem_kept hwrites.sound hmem hwritten⟩
    rw [if_neg hnot]
    rfl
  · obtain ⟨source, stored, hload, hstore, hcount, htake⟩ :=
      mem_finished hwrites.sound halloc hwritten
    refine ⟨stored, ?_, hcount, hoffset ▸ htake⟩
    simp only [if_pos halloc, hload, hstore, Option.bind_some]
    rfl

/-- Export target independence: every target receives the bytes of the calls. The caller of
`vbi_export_mem` learns their number, and has as many of them as its buffer can hold. An
access outside of the buffer would have no result. -/
theorem targets_agree (hformats : Formats calls)
    (hsys : Succeeds sys ((output calls).length + 1)) (fuel : Nat) :
    exportStdio sys fuel calls = some (true, output calls) ∧
      exportFile sys fuel calls = some (true, some (output calls)) ∧
      (∃ data, exportAlloc sys fuel calls = some (some (data, (output calls).length)) ∧
        (data.memory []).take (output calls).length = output calls) ∧
      ∀ buffer : Option (List UInt8), ∃ stored : List UInt8,
        exportMem sys fuel buffer calls = some (((output calls).length : Int), stored) ∧
        stored.length = (buffer.getD []).length ∧
        stored.take (output calls).length = (output calls).take (buffer.getD []).length := by
  have hlimit : (output calls).length < (output calls).length + 1 := Nat.lt_succ_self _
  exact ⟨exportStdio_spec hsys hformats hlimit fuel, exportFile_spec hsys hformats hlimit fuel,
    exportAlloc_spec hsys hformats hlimit fuel, exportMem_spec hsys hformats hlimit fuel⟩

/-- A C library that finds memory for every object it can have. -/
def willing : System where
  realloc _ size := decide (size ≤ ssizeMax)
  bounded := of_decide_eq_true
  fresh _ _ := 0
  fwrite _ size := size
  vfprintf _ size := size
  write _ size := size
  xopen := true
  xclose := true

theorem willing_succeeds {limit : Nat} (hlimit : limit ≤ ssizeMax) : Succeeds willing limit where
  realloc _ _ hsize := decide_eq_true (hsize.trans hlimit)
  fwrite _ _ := rfl
  vfprintf _ _ := rfl
  write _ _ := rfl
  xopen := rfl
  xclose := rfl

/-- Two characters and a formatted text. -/
def greeting : List Call := [.putc 72, .printf [105, 33], .flush]

/-- The text does not fit into a buffer of two bytes, but its length is returned. -/
theorem targets_agree_greeting :
    exportStdio willing 0 greeting = some (true, [72, 105, 33]) ∧
      ∃ stored : List UInt8, exportMem willing 0 (some [0, 0]) greeting = some (3, stored) ∧
        stored.length = 2 := by
  have hformats : Formats greeting := by
    intro text htext
    simp only [greeting, List.mem_cons, Call.printf.injEq, reduceCtorEq, List.not_mem_nil,
      or_false, false_or] at htext
    subst htext
    decide
  obtain ⟨hstdio, -, -, hmem⟩ :=
    targets_agree hformats (willing_succeeds (by decide)) 0
  obtain ⟨stored, hstored, hlength, -⟩ := hmem (some [0, 0])
  exact ⟨hstdio, stored, hstored, hlength⟩

end exports

end ExportTargets

import Zvbi.BlockStore

/-!
# The output functions of an export module

An export module writes a page with putc, write, puts, printf and flush calls. Depending on
the target the bytes collect in the caller's memory, in a buffer that grows, or in a buffer
that is written into a stream or a file now and then. An access outside of the memory a
pointer stands for has no result.
-/

namespace ExportBuffer

/-- `SIZE_MAX` on a machine with 64 bit pointers. -/
def sizeMax : Nat := 0xFFFFFFFFFFFFFFFF

def ssizeMax : Nat := 0x7FFFFFFFFFFFFFFF

def intMax : Nat := 0x7FFFFFFF

/-- The answers of the C library, by the number of calls made before and the number of bytes
asked for. -/
structure System where
  /-- Whether `realloc` finds that many bytes. -/
  realloc : Nat → Nat → Bool
  /-- No object is larger than `SSIZE_MAX`. -/
  bounded : ∀ {k size : Nat}, realloc k size = true → size ≤ ssizeMax
  /-- What new memory contains, byte by byte. -/
  fresh : Nat → Nat → UInt8
  /-- The bytes `fwrite` accepts. -/
  fwrite : Nat → Nat → Nat
  /-- The bytes `vfprintf` accepts. -/
  vfprintf : Nat → Nat → Nat
  /-- The result of `write`. -/
  write : Nat → Nat → Int
  xopen : Bool
  xclose : Bool

/-- The export target, `_vbi_export_target`. -/
inductive Target where
  | mem
  | alloc
  | fp
  | fd
  | file
  deriving DecidableEq, Repr

/-- The functions `_write` can point to. -/
inductive WriteFn where
  | writeFp
  | writeFd
  deriving DecidableEq, Repr

/-- What `buffer.data` points to. -/
inductive Data where
  | null
  /-- The memory the caller of `vbi_export_mem` supplies. -/
  | client
  | heap (bytes : List UInt8)
  deriving DecidableEq, Repr

/-- The memory a pointer stands for, when the caller's memory contains `client`. -/
def Data.memory (client : List UInt8) : Data → List UInt8
  | .null => []
  | .client => client
  | .heap bytes => bytes

structure Export where
  target : Target
  /-- What the stream or file behind `_handle` has received. -/
  handle : List UInt8
  /-- `_write`, or `none` for a null pointer. -/
  write : Option WriteFn
  /-- The memory of the caller of `vbi_export_mem`. -/
  client : List UInt8
  data : Data
  offset : Nat
  capacity : Nat
  writeError : Bool
  /-- The C library calls made so far. -/
  calls : Nat
  deriving DecidableEq, Repr

namespace Export

/-- The memory `buffer.data` points to. -/
def bytes (e : Export) : List UInt8 := e.data.memory e.client

/-- Put new contents into the memory `buffer.data` points to. -/
def setBytes (e : Export) (bytes : List UInt8) : Export :=
  match e.data with
  | .null => e
  | .client => { e with client := bytes }
  | .heap _ => { e with data := .heap bytes }

/-- Store `source` at `buffer.data + start`. -/
def store (e : Export) (start : Nat) (source : List UInt8) : Option Export :=
  (BlockStore.store e.bytes start source).map e.setBytes

end Export

/-- `realloc` keeps the contents; what it adds is not initialized. -/
def resize (sys : System) (k : Nat) (bytes : List UInt8) (size : Nat) : List UInt8 :=
  bytes.take size ++ (List.range' bytes.length (size - bytes.length)).map (sys.fresh k)

def newCapacity (oldCapacity minCapacity : Nat) : Nat :=
  if sizeMax - 0x10000 < oldCapacity then sizeMax
  else if 0x10000 ≤ oldCapacity then max minCapacity (oldCapacity + 0x10000)
  else max minCapacity (oldCapacity * 2)

/-- `_vbi_grow_vector_capacity` for the output buffer, whose elements are bytes. -/
def growVectorCapacity (sys : System) (e : Export) (minCapacity : Nat) : Bool × Export :=
  if sizeMax < minCapacity then (false, e)
  else
    let size := newCapacity e.capacity minCapacity
    if sys.realloc e.calls size then
      (true, { e with
        data := .heap (resize sys e.calls e.bytes size)
        capacity := size
        calls := e.calls + 1 })
    else if size ≤ minCapacity then (false, { e with calls := e.calls + 1 })
    else if sys.realloc (e.calls + 1) minCapacity then
      (true, { e with
        data := .heap (resize sys (e.calls + 1) e.bytes minCapacity)
        capacity := minCapacity
        calls := e.calls + 2 })
    else (false, { e with calls := e.calls + 2 })

/-- `_vbi_export_grow_buffer_space`. -/
def growBufferSpace (sys : System) (e : Export) (minSpace : Nat) : Option (Bool × Export) :=
  if e.capacity < e.offset then none
  else if e.writeError then some (false, e)
  else if minSpace ≤ e.capacity ∧ e.offset ≤ e.capacity - minSpace then some (true, e)
  else if sizeMax - minSpace < e.offset then some (false, e)
  else if e.target = .mem then
    -- Not enough space: from here on the needed amount is counted.
    let grown := growVectorCapacity sys
      { e with target := .alloc, write := none, data := .null, capacity := 0 }
      (e.offset + minSpace)
    if grown.1 then do
      let old ← BlockStore.load e.bytes 0 e.offset
      let e' ← grown.2.store 0 old
      return (true, e')
    else some (false, grown.2)
  else some (growVectorCapacity sys e (e.offset + minSpace))

def writeFp (sys : System) (e : Export) (source : List UInt8) : Bool × Export :=
  let actual := sys.fwrite e.calls source.length
  let e := { e with handle := e.handle ++ source.take actual, calls := e.calls + 1 }
  if actual = source.length then (true, e) else (false, { e with writeError := true })

/-- The inner loop of `write_fd`: a `write` that accepts nothing is repeated. -/
def writeRetry (sys : System) (e : Export) (source : List UInt8) (retry : Nat) :
    Bool × Export :=
  let actual := sys.write e.calls source.length
  let e := { e with handle := e.handle ++ source.take actual.toNat, calls := e.calls + 1 }
  if actual = source.length then (true, e)
  else
    match retry with
    | 0 => (false, { e with writeError := true })
    | retry + 1 =>
        if actual = 0 then writeRetry sys e source retry
        else (false, { e with writeError := true })

/-- The bytes `write_fd` hands to one `write`. -/
def writeCount (size : Nat) : Nat := if ssizeMax < size then 0x7FFFFFFFFFFFF000 else size

theorem writeCount_pos {size : Nat} (hsize : 0 < size) : 0 < writeCount size := by
  rw [writeCount]
  split <;> omega

def writeFd (sys : System) (e : Export) (source : List UInt8) : Bool × Export :=
  if source.length = 0 then (true, e)
  else
    let count := writeCount source.length
    let written := writeRetry sys e (source.take count) 10
    if written.1 then writeFd sys written.2 (source.drop count) else written
termination_by source.length
decreasing_by
  have hcount : 0 < writeCount source.length := writeCount_pos (by omega)
  rw [List.length_drop]
  omega

/-- The call of `_write`. -/
def callWrite (sys : System) (e : Export) (source : List UInt8) : Option (Bool × Export) :=
  match e.write with
  | none => none
  | some .writeFp => some (writeFp sys e source)
  | some .writeFd => some (writeFd sys e source)

def fastFlush (sys : System) (e : Export) : Option (Bool × Export) :=
  if 0 < e.offset then do
    let source ← BlockStore.load e.bytes 0 e.offset
    let written ← callWrite sys e source
    if written.1 then return (true, { written.2 with offset := 0 })
    else return (false, { written.2 with writeError := true })
  else some (true, e)

/-- `vbi_export_flush`. -/
def exportFlush (sys : System) (e : Export) : Option (Bool × Export) :=
  if e.writeError then some (false, e)
  else
    match e.target with
    | .mem | .alloc => some (true, e)
    | .fp | .fd | .file => fastFlush sys e

/-- `vbi_export_putc`. -/
def exportPutc (sys : System) (e : Export) (c : UInt8) : Option (Bool × Export) := do
  let grown ← growBufferSpace sys e 1
  if grown.1 then do
    let e ← grown.2.store grown.2.offset [c]
    return (true, { e with offset := e.offset + 1 })
  else return (false, { grown.2 with writeError := true })

def fastWrite (sys : System) (e : Export) (source : List UInt8) : Option (Bool × Export) := do
  let flushed ← fastFlush sys e
  if flushed.1 then do
    let written ← callWrite sys flushed.2 source
    if written.1 then return written
    else return (false, { written.2 with writeError := true })
  else return flushed

/-- The part of `vbi_export_write` that uses buffered I/O. -/
def bufferedWrite (sys : System) (e : Export) (source : List UInt8) :
    Option (Bool × Export) := do
  let grown ← growBufferSpace sys e source.length
  if grown.1 then do
    let e ← grown.2.store grown.2.offset source
    return (true, { e with offset := e.offset + source.length })
  else return (false, { grown.2 with writeError := true })

/-- `vbi_export_write`. -/
def exportWrite (sys : System) (e : Export) (source : List UInt8) : Option (Bool × Export) :=
  if e.writeError then some (false, e)
  else
    match e.target with
    | .mem | .alloc => bufferedWrite sys e source
    | .fp | .fd | .file =>
        if 4096 ≤ source.length then fastWrite sys e source else bufferedWrite sys e source

def cString (source : List UInt8) : List UInt8 := source.takeWhile (· ≠ 0)

/-- `vbi_export_puts`; `none` is a null pointer. -/
def exportPuts (sys : System) (e : Export) (source : Option (List UInt8)) :
    Option (Bool × Export) :=
  if e.writeError then some (false, e)
  else
    match source with
    | none => some (true, e)
    | some source => exportWrite sys e (cString source)

/-- `vsnprintf` into the `avail` bytes at `buffer.data + offset`. It truncates the text to
have room for a NUL, and returns the length of the whole text when an `int` can hold it. -/
def vsnprintf (e : Export) (avail : Nat) (text : List UInt8) : Option (Int × Export) := do
  let e ← if avail = 0 then some e else e.store e.offset (text.take (avail - 1) ++ [0])
  return (if text.length ≤ intMax then (text.length : Int) else -1, e)

/-- The loop of `vbi_export_vprintf` in its turn `i`, for at most `fuel` turns. -/
def vprintfLoop (sys : System) (text : List UInt8) :
    Nat → Nat → Export → Option (Bool × Export)
  | 0, _, _ => none
  | fuel + 1, i, e => do
      let avail := e.capacity - e.offset
      let printed ← vsnprintf e avail text
      let len := printed.1
      let e := printed.2
      if len < 0 then
        if 0x10000 ≤ avail then return (false, { e with writeError := true })
        else do
          let grown ← growBufferSpace sys e 256
          if grown.1 then vprintfLoop sys text fuel (i + 1) grown.2
          else return (false, { grown.2 with writeError := true })
      else if len.toNat < avail then return (true, { e with offset := e.offset + len.toNat })
      else if 0 < i then return (false, { e with writeError := true })
      else do
        -- The buffer must also hold a terminating NUL.
        let grown ← growBufferSpace sys e (len.toNat + 1)
        if grown.1 then vprintfLoop sys text fuel (i + 1) grown.2
        else return (false, { grown.2 with writeError := true })

/-- `vbi_export_vprintf` of a template and arguments that give `text`. The loop is followed
for two turns and then for `fuel` more. -/
def exportVprintf (sys : System) (fuel : Nat) (e : Export) (text : List UInt8) :
    Option (Bool × Export) :=
  if e.writeError then some (false, e)
  else if e.target = .fp then do
    let flushed ← fastFlush sys e
    if flushed.1 then
      let accepted := sys.vfprintf flushed.2.calls text.length
      let e := { flushed.2 with
        handle := flushed.2.handle ++ text.take accepted
        calls := flushed.2.calls + 1 }
      if accepted = text.length ∧ text.length ≤ intMax then return (true, e)
      else return (false, { e with writeError := true })
    else return flushed
  else vprintfLoop sys text (fuel + 2) 0 e

/-- A call an export module can make. -/
inductive Call where
  | putc (c : UInt8)
  | write (source : List UInt8)
  | puts (source : Option (List UInt8))
  | printf (text : List UInt8)
  | flush
  deriving DecidableEq, Repr

namespace Call

def run (sys : System) (fuel : Nat) (e : Export) : Call → Option (Bool × Export)
  | .putc c => exportPutc sys e c
  | .write source => exportWrite sys e source
  | .puts source => exportPuts sys e source
  | .printf text => exportVprintf sys fuel e text
  | .flush => exportFlush sys e

end Call

/-- An export module: it makes its calls and returns `!e->write_error`. -/
def exportPage (sys : System) (fuel : Nat) : List Call → Export → Option (Bool × Export)
  | [], e => some (!e.writeError, e)
  | call :: calls, e => do
      let result ← call.run sys fuel e
      exportPage sys fuel calls result.2

/-- `vbi_export_mem`: the result, and the caller's memory afterwards. -/
def exportMem (sys : System) (fuel : Nat) (buffer : Option (List UInt8)) (calls : List Call) :
    Option (Int × List UInt8) := do
  let client := buffer.getD []
  let (success, e) ← exportPage sys fuel calls
    { target := .mem
      handle := []
      write := none
      client := client
      data := if buffer.isSome then .client else .null
      offset := 0
      capacity := client.length
      writeError := false
      calls := 0 }
  if success then do
    let stored ← if e.target = .alloc then do
        -- The caller's buffer was too small; what was begun in it is finished.
        let source ← BlockStore.load e.bytes 0 (min e.offset client.length)
        BlockStore.store e.client 0 source
      else some e.client
    return (if ssizeMax < e.offset then -1 else (e.offset : Int), stored)
  else return (-1, e.client)

/-- `vbi_export_alloc`: what is stored in `*buffer` and `*buffer_size` on success. -/
def exportAlloc (sys : System) (fuel : Nat) (calls : List Call) :
    Option (Option (Data × Nat)) := do
  let (success, e) ← exportPage sys fuel calls
    { target := .alloc
      handle := []
      write := none
      client := []
      data := .null
      offset := 0
      capacity := 0
      writeError := false
      calls := 0 }
  if success then
    if 256 ≤ e.capacity - e.offset then
      -- `realloc` to no bytes frees the memory that is returned below.
      if e.offset = 0 then none
      else if sys.realloc e.calls e.offset then
        return some (.heap (resize sys e.calls e.bytes e.offset), e.offset)
      else return some (e.data, e.offset)
    else return some (e.data, e.offset)
  else return none

/-- `vbi_export_stdio`: the result, and the bytes the stream has received. -/
def exportStdio (sys : System) (fuel : Nat) (calls : List Call) :
    Option (Bool × List UInt8) := do
  let (success, e) ← exportPage sys fuel calls
    { target := .fp
      handle := []
      write := some .writeFp
      client := []
      data := .null
      offset := 0
      capacity := 0
      writeError := false
      calls := 0 }
  let (success, e) ← if success then exportFlush sys e else some (false, e)
  return (success, e.handle)

/-- `vbi_export_file`: the result, and the contents of the file unless it was deleted. -/
def exportFile (sys : System) (fuel : Nat) (calls : List Call) :
    Option (Bool × Option (List UInt8)) :=
  if sys.xopen then do
    let (success, e) ← exportPage sys fuel calls
      { target := .file
        handle := []
        write := some .writeFd
        client := []
        data := .null
        offset := 0
        capacity := 0
        writeError := false
        calls := 0 }
    let (success, e) ← if success then exportFlush sys e else some (false, e)
    return (success && sys.xclose, if success then some e.handle else none)
  else some (false, none)

end ExportBuffer

import Mathlib.Logic.Function.Basic
import Zvbi.MotLinks
import Zvbi.PopPointers
import Zvbi.TeletextHeader

/-!
# Enhancement of Teletext pages

Triplets in X/26 packets and in object pages change the characters of a page which was
formatted at Level 1. They set an active position and attributes from there on, and they
invoke objects: more triplets, placed relative to the active position. All positions come
from the transmission. Here the text of the page is the memory at `text`, of which the
first 25 * 41 positions are the page, and every use of an array is logged.
-/

namespace TeletextEnhance
open Hamming
open MotLinks (WstLevel)
open PopPointers (Triplet)
open TeletextHeader (pageFunctionUnknown pageFunctionPop pageFunctionGdrcs pageFunctionDrcs)

def rows : Nat := 25
def columns : Nat := 40
def extColumns : Nat := 41

def pageFunctionGpop : Int := 2

/-- `VBI_TRANSPARENT_BLACK`, `VBI_WHITE` and `VBI_BLACK`. -/
def vbiTransparentBlack : Nat := 8
def vbiWhite : Nat := 7
def vbiBlack : Nat := 0

/-- `vbi_size` and `vbi_opacity`. -/
def vbiNormalSize : Nat := 0
def vbiDoubleWidth : Nat := 1
def vbiDoubleHeight : Nat := 2
def vbiDoubleSize : Nat := 3
def vbiOverTop : Nat := 4
def vbiOverBottom : Nat := 5
def vbiDoubleHeight2 : Nat := 6
def vbiDoubleSize2 : Nat := 7
def vbiTransparentSpace : Nat := 0
def vbiSemiTransparent : Nat := 2
def vbiOpaque : Nat := 3

/-- `enum ttx_object_type`, 0 for local enhancement data. -/
def objectTypeActive : Nat := 1
def objectTypeAdaptive : Nat := 2
def objectTypePassive : Nat := 3

structure StoredTriplet extends Triplet where
  stored : address < 64 ∧ mode < 32 ∧ data < 128 ∨ address = 0xFF ∧ mode = 0xFF ∧ data = 0xFF

structure TripletArray where
  size : Nat
  get : Nat → StoredTriplet

structure VbiChar where
  underline : Bool
  bold : Bool
  italic : Bool
  flash : Bool
  conceal : Bool
  proportional : Bool
  size : Nat
  opacity : Nat
  foreground : Nat
  background : Nat
  unicode : Nat

/-- The fields of a character which are set, in `mac`. -/
structure Mask where
  underline : Bool
  flash : Bool
  conceal : Bool
  size : Bool
  opacity : Bool
  foreground : Bool
  background : Bool
  unicode : Bool

/-- What is used of a page in the cache with objects or DRCS. `pointer` is the array with
the memory behind it. -/
structure ObjectPage (Chars : Type) where
  function : Int
  pointer : Nat → UInt16
  triplet : Nat → StoredTriplet
  invalid : Nat
  chars : Chars

/-- What is used of `vbi_page`. -/
structure VbiPage (Font Chars : Type) where
  text : Nat → VbiChar
  screenColor : Nat
  screenOpacity : Nat
  pageOpacity : Nat → Nat
  boxedOpacity : Nat → Nat
  font : Font
  drcs : Nat → Option Chars

/-- The use of an array: a character of the page, a byte of the rows received, a triplet
of an array of this size, `pg->drcs[]` and `drcs_s1[]`. The last one is the invocation of
an object, by an object of the type `invoker` which is at some depth itself. -/
inductive Access
  | text (offset : Nat)
  | raw (row column : Nat)
  | triplet (size index : Nat)
  | drcs (index : Nat)
  | drcsS1 (index : Nat)
  | invoke (depth invoker type : Nat)

structure Memory (World Font Chars : Type) where
  pg : VbiPage Font Chars
  world : World
  log : List Access

structure DefaultObjects where
  pgno : Int
  firstType : Nat
  firstAddress : Nat
  secondType : Nat
  secondAddress : Nat

/-- What the formatter knows of the page, and the functions it calls. The links lead to
page numbers, or there is none. -/
structure Context (World Font Chars : Type) where
  maxLevel : WstLevel
  headerOnly : Bool
  newsflashOrSubtitle : Bool
  raw : Nat → Nat → UInt8
  x26Designations : Nat
  enh : Nat → StoredTriplet
  defRowColor : Nat
  defaultObjects : Option DefaultObjects
  globalObjectLink : Option Int
  publicObjectLink : Option Int
  globalDrcsLink : Option Int
  normalDrcsLink : Option Int
  vbiCacheGetPage : World → Int → Nat → World × Option (ObjectPage Chars)
  vbiConvertPage : World → ObjectPage Chars → Int → World × Option (ObjectPage Chars)
  setFunction : World → ObjectPage Chars → Int → World
  fontDescriptor : Nat → Option Font
  g0Unicode : Font → Nat → Nat
  g2Unicode : Font → Nat → Nat
  composedUnicode : Nat → Nat → Nat

variable {World Font Chars : Type}

/-- `struct enhance_state` and the variables of `enhance()`. -/
structure State (World Font Chars : Type) where
  memory : Memory World Font Chars
  type : Nat
  ac : VbiChar
  mac : Mask
  acp : Nat
  invRow : Nat
  invColumn : Nat
  activeRow : Nat
  activeColumn : Nat
  rowColor : Nat
  nextRowColor : Nat
  rowColorTransparent : Bool
  invert : Bool
  offsetColumn : Nat
  offsetRow : Nat
  font : Font
  drcsS1 : Nat → Nat
  pdcHr : Nat

def Memory.note (memory : Memory World Font Chars) (a : Access) : Memory World Font Chars :=
  { memory with log := a :: memory.log }

def Memory.write (memory : Memory World Font Chars) (offset : Nat) (c : VbiChar) :
    Memory World Font Chars :=
  let memory := memory.note (.text offset)
  { memory with pg := { memory.pg with text := Function.update memory.pg.text offset c } }

def State.note (s : State World Font Chars) (a : Access) : State World Font Chars :=
  { s with memory := s.memory.note a }

def State.write (s : State World Font Chars) (offset : Nat) (c : VbiChar) :
    State World Font Chars :=
  { s with memory := s.memory.write offset c }

def vbiIsGfx (unicode : Nat) : Bool := 0xEE00 ≤ unicode ∧ unicode ≤ 0xEFFF

def mergeUnderline (ac c : VbiChar) (mac : Mask) : VbiChar × VbiChar × Mask :=
  if mac.underline then
    let unicode := if mac.unicode then ac.unicode else c.unicode
    if vbiIsGfx unicode then
      let unicode := if ac.underline then unicode - (unicode &&& 0x20) else unicode ||| 0x20
      ({ ac with unicode := unicode }, { c with underline := false }, { mac with unicode := true })
    else
      ({ ac with unicode := unicode }, { c with underline := ac.underline }, mac)
  else
    (ac, c, mac)

def opaqueColor (s : State World Font Chars) (color : Nat) : Nat :=
  if color ≠ vbiTransparentBlack then color
  else if s.rowColorTransparent then vbiTransparentBlack
  else s.rowColor

def mergeChar (s : State World Font Chars) (c : VbiChar) : State World Font Chars × VbiChar :=
  let merged := mergeUnderline s.ac c s.mac
  let ac := merged.1
  let c := merged.2.1
  let mac := merged.2.2
  let foreground := if mac.foreground then opaqueColor s ac.foreground else c.foreground
  let background := if mac.background then opaqueColor s ac.background else c.background
  let c := { c with
    foreground := if s.invert then background else foreground
    background := if s.invert then foreground else background
    opacity := if mac.opacity then ac.opacity else c.opacity
    flash := if mac.flash then ac.flash else c.flash
    conceal := if mac.conceal then ac.conceal else c.conceal }
  if mac.unicode then
    let size :=
      if mac.size then ac.size else if vbiDoubleSize < c.size then vbiNormalSize else c.size
    ({ s with ac := ac, mac := { mac with unicode := false } },
      { c with unicode := ac.unicode, size := size })
  else
    ({ s with ac := ac, mac := mac }, c)

def rawChar (ctx : Context World Font Chars) (row column : Nat) : Int :=
  vbiUnpar8 (ctx.raw row column)

def readRaw (ctx : Context World Font Chars) (hidden : Bool) (row column : Nat)
    (s : State World Font Chars) : State World Font Chars × Int :=
  if hidden then (s, 0x20) else (s.note (.raw row column), rawChar ctx row column)

/-- A set-after spacing attribute in front of column `i` cancels an attribute. -/
def cancelAfter (ctx : Context World Font Chars) (row i : Nat) (raw : Int)
    (s : State World Font Chars) : State World Font Chars :=
  if 0x00 ≤ raw ∧ raw ≤ 0x07 ∨ 0x10 ≤ raw ∧ raw ≤ 0x17 then
    { s with mac := { s.mac with foreground := false, conceal := false } }
  else if raw = 0x08 then
    { s with mac := { s.mac with flash := false } }
  else if raw = 0x0A ∨ raw = 0x0B then
    if i < columns then
      let s := s.note (.raw row i)
      if rawChar ctx row i = raw then { s with mac := { s.mac with opacity := false } } else s
    else
      s
  else if 0x0D ≤ raw ∧ raw ≤ 0x0F then
    { s with mac := { s.mac with size := false } }
  else
    s

def cancelAt (raw : Int) (s : State World Font Chars) : State World Font Chars :=
  if raw = 0x09 then
    { s with mac := { s.mac with flash := false } }
  else if raw = 0x0C then
    { s with mac := { s.mac with size := false } }
  else if raw = 0x18 then
    { s with mac := { s.mac with conceal := false } }
  else if raw = 0x1C ∨ raw = 0x1D then
    { s with mac := { s.mac with background := false } }
  else
    s

/-- The loop over at most `n` columns from column `i` on. -/
def flushColumns (ctx : Context World Font Chars) (row : Nat) :
    Nat → Nat → State World Font Chars → State World Font Chars
  | 0, _, s => s
  | n + 1, i, s =>
    if 39 < i then
      s
    else
      let merged := mergeChar s (s.memory.pg.text (s.acp + i))
      let s := merged.1.write (s.acp + i) merged.2
      if s.type = objectTypePassive then
        s
      else if s.type = objectTypeAdaptive then
        flushColumns ctx row n (i + 1) s
      else
        let before := readRaw ctx (row = 0 ∧ i + 1 < 9) row i s
        let s := cancelAfter ctx row (i + 1) before.2 before.1
        if 39 < i + 1 then
          s
        else
          let here := readRaw ctx (row = 0 ∧ i + 1 < 8) row (i + 1) s
          flushColumns ctx row n (i + 1) (cancelAt here.2 here.1)

def enhanceFlush (ctx : Context World Font Chars) (s : State World Font Chars) (column : Nat) :
    State World Font Chars :=
  let row := s.invRow + s.activeRow
  if rows ≤ row then
    s
  else if s.type = objectTypePassive ∧ s.mac.unicode = false then
    { s with activeColumn := column }
  else
    let s := flushColumns ctx row (column - s.activeColumn) (s.invColumn + s.activeColumn) s
    { s with activeColumn := column }

def noMask : Mask := ⟨false, false, false, false, false, false, false, false⟩

def enhanceFlushRow (ctx : Context World Font Chars) (s : State World Font Chars) :
    State World Font Chars :=
  let column :=
    if s.type = objectTypePassive ∨ s.type = objectTypeAdaptive then s.activeColumn + 1
    else columns
  let s := enhanceFlush ctx s column
  if s.type = objectTypePassive then s else { s with mac := noMask }

/-- The size of `pop.triplet`. -/
def popTripletCount : Nat := 39 * 13 + 1

/-- The size of `ttx_enhancement`. -/
def enhancementCount : Nat := 16 * 13 + 1

/-- An object: its array, its first triplet and `remaining`. -/
structure Object where
  array : TripletArray
  start : Nat
  remaining : Int

/-- The page in the cache with a function, if it has it or gets it. A page which already
has the function `own` is given the new one. -/
def sourcePage (ctx : Context World Font Chars) (w : World) (pgno : Int) (s1 : Nat)
    (own function : Int) : World × Option (ObjectPage Chars) :=
  let got := ctx.vbiCacheGetPage w pgno s1
  match got.2 with
  | none => (got.1, none)
  | some vtp =>
    if vtp.function = pageFunctionUnknown then
      ctx.vbiConvertPage got.1 vtp function
    else if vtp.function = own then
      (ctx.setFunction got.1 vtp function, some { vtp with function := function })
    else if vtp.function ≠ function then
      (got.1, none)
    else
      (got.1, some vtp)

/-- `resolve_obj_address()`, which reads the definition of the object. -/
def resolveObjAddress (ctx : Context World Font Chars) (memory : Memory World Font Chars)
    (type : Nat) (pgno : Int) (address : Nat) (function : Int) :
    Memory World Font Chars × Option Object :=
  let s1 := address &&& 15
  let packet := address >>> 7 &&& 3
  let i := (address >>> 5 &&& 3) * 3 + type
  let source := sourcePage ctx memory.world pgno s1 pageFunctionPop function
  let memory := { memory with world := source.1 }
  match source.2 with
  | none => (memory, none)
  | some vtp =>
    let pointer := (vtp.pointer (packet * 24 + i * 2 + (address >>> 4 &&& 1))).toNat
    if 506 < pointer then
      (memory, none)
    else
      let memory := memory.note (.triplet popTripletCount pointer)
      let trip := vtp.triplet pointer
      let address := address ^^^ trip.address.toNat <<< 7 ^^^ trip.data.toNat
      if trip.mode.toNat ≠ type + 0x14 ∨ address &&& 0x1FF ≠ 0 then
        (memory, none)
      else
        (memory, some ⟨⟨popTripletCount, vtp.triplet⟩, pointer + 1,
          (popTripletCount : Int) - (pointer + 1)⟩)

def localObject (ctx : Context World Font Chars) (designation triplet : Nat) : Object :=
  ⟨⟨enhancementCount, ctx.enh⟩, designation * 13 + triplet,
    (enhancementCount : Int) - (designation * 13 + triplet : Nat)⟩

/-- How the loop over the triplets goes on. `skip` looks for the next row address. -/
inductive Next
  | go
  | skip
  | done
  | fail
  deriving DecidableEq

structure Call where
  object : Object
  invRow : Nat
  invColumn : Nat

def screenColor (ctx : Context World Font Chars) (s : State World Font Chars) (color : Nat) :
    State World Font Chars :=
  { s with memory := { s.memory with pg := { s.memory.pg with
    screenColor := color
    screenOpacity :=
      if color = vbiTransparentBlack ∨ ctx.newsflashOrSubtitle then vbiTransparentSpace
      else vbiOpaque } } }

def fullRowColor (ctx : Context World Font Chars) (s : State World Font Chars) (data : Nat) :
    State World Font Chars :=
  if data >>> 5 = 0 then
    { s with rowColor := data &&& 0x1F, nextRowColor := ctx.defRowColor }
  else if data >>> 5 = 3 then
    { s with rowColor := data &&& 0x1F, nextRowColor := data &&& 0x1F }
  else
    { s with rowColor := s.nextRowColor }

def setActive (ctx : Context World Font Chars) (s : State World Font Chars) (row column : Nat) :
    State World Font Chars × Next :=
  if ctx.headerOnly ∧ 0 < row then
    (s, .skip)
  else
    let s := if s.activeRow < row then enhanceFlushRow ctx s
      else enhanceFlush ctx s (s.activeColumn + 1)
    ({ s with
      activeRow := row
      activeColumn := column
      acp := (s.invRow + row) * extColumns }, .go)

/-- The object a triplet invokes. `none` is a failure, unless the triplet is ignored. -/
def findObject (ctx : Context World Font Chars) (memory : Memory World Font Chars)
    (type newType : Nat) (t : Triplet) : Memory World Font Chars × Option Object × Next :=
  let source := t.address.toNat >>> 3 &&& 3
  let address := t.address.toNat <<< 7 + t.data.toNat
  if source = 0 then
    (memory, none, .go)
  else if source = 1 then
    let designation := t.data.toNat >>> 4 + (t.address.toNat &&& 1) <<< 4
    let triplet := t.data.toNat &&& 15
    if type ≠ 0 ∨ 12 < triplet then
      (memory, none, .go)
    else if ctx.x26Designations &&& 1 = 0 then
      (memory, none, .fail)
    else
      (memory, some (localObject ctx designation triplet), .go)
  else
    let link := if source = 3 then ctx.globalObjectLink else ctx.publicObjectLink
    let function := if source = 3 then pageFunctionGpop else pageFunctionPop
    match link with
    | none => (memory, none, .fail)
    | some pgno =>
      let resolved := resolveObjAddress ctx memory newType pgno address function
      (resolved.1, resolved.2, .fail)

/-- Invocation of an object by `enhance()` at some depth. -/
def invokeObject (ctx : Context World Font Chars)
    (call : (c : Call) → Memory World Font Chars → Memory World Font Chars × Bool)
    (depth newType : Nat) (t : Triplet) (s : State World Font Chars) :
    State World Font Chars × Next :=
  let found := findObject ctx s.memory s.type newType t
  let s := { s with memory := found.1 }
  match found.2.1 with
  | none => (s, found.2.2)
  | some object =>
    let s := s.note (.invoke depth s.type newType)
    let called := call ⟨object, s.invRow + s.activeRow + s.offsetRow,
      s.invColumn + s.activeColumn + s.offsetColumn⟩ s.memory
    let s := { s with memory := called.1 }
    if called.2 then ({ s with offsetRow := 0, offsetColumn := 0 }, .go) else (s, .fail)

def objectType (mode : UInt8) : Fin 4 := ⟨mode.toNat % 4, Nat.mod_lt _ (Nat.zero_lt_succ 3)⟩

def addressedRow (t : Triplet) : Nat := if t.address = 40 then rows - 1 else t.address.toNat - columns

def Context.high (ctx : Context World Font Chars) : Bool := 2 ≤ ctx.maxLevel.rank

def fullScreenColor (ctx : Context World Font Chars) (data : Nat) (s : State World Font Chars) :
    State World Font Chars :=
  if ctx.high ∧ data >>> 5 = 0 ∧ s.type ≤ objectTypeActive then screenColor ctx s (data &&& 0x1F)
  else s

def setPosition (ctx : Context World Font Chars) (row data : Nat) (s : State World Font Chars) :
    State World Font Chars × Next :=
  if ctx.high ∧ columns ≤ data then
    (s, .go)
  else
    let s := if s.activeRow < row then { s with rowColor := s.nextRowColor } else s
    setActive ctx s row (if ctx.high then data else 0)

def setOrigin (ctx : Context World Font Chars) (t : Triplet) (s : State World Font Chars) :
    State World Font Chars :=
  if ctx.high ∧ t.data < 72 then
    { s with offsetColumn := t.data.toNat, offsetRow := t.address.toNat - columns }
  else
    s

def setDrcsMode (data : Nat) (s : State World Font Chars) : State World Font Chars :=
  let s := s.note (.drcsS1 (data >>> 6))
  { s with drcsS1 := Function.update s.drcsS1 (data >>> 6) (data &&& 15) }

/-- Row address triplets. The PDC table is null in all calls, so those with PDC data only
have an effect on `pdc_hr`. -/
def rowTriplet (ctx : Context World Font Chars)
    (invoke : Fin 4 → Triplet → State World Font Chars → State World Font Chars × Next)
    (t : Triplet) (s : State World Font Chars) : State World Font Chars × Next :=
  if s.pdcHr ≠ 0 then
    (s, .fail)
  else if t.mode = 0x00 then
    (fullScreenColor ctx t.data.toNat s, .go)
  else if t.mode = 0x07 then
    if t.address = 0x3F then setActive ctx (fullRowColor ctx s t.data.toNat) 0 0 else (s, .go)
  else if t.mode = 0x01 then
    setActive ctx (fullRowColor ctx s t.data.toNat) (addressedRow t) 0
  else if t.mode = 0x04 then
    setPosition ctx (addressedRow t) t.data.toNat s
  else if t.mode = 0x0B then
    ({ s with pdcHr := 0x0B }, .go)
  else if t.mode = 0x10 then
    (setOrigin ctx t s, .go)
  else if 0x11 ≤ t.mode ∧ t.mode ≤ 0x13 then
    if ctx.high then invoke (objectType t.mode) t s else (s, .go)
  else if 0x15 ≤ t.mode ∧ t.mode ≤ 0x17 ∨ 0x1F ≤ t.mode then
    (enhanceFlushRow ctx s, .done)
  else if t.mode = 0x18 then
    (setDrcsMode t.data.toNat s, .go)
  else
    (s, .go)

def flushTo (ctx : Context World Font Chars) (column : Nat) (s : State World Font Chars) :
    State World Font Chars :=
  if s.activeColumn < column then enhanceFlush ctx s column else s

/-- `store`. -/
def storeUnicode (unicode : Nat) (s : State World Font Chars) : State World Font Chars × Next :=
  ({ s with ac := { s.ac with unicode := unicode }, mac := { s.mac with unicode := true } }, .go)

def displayAttributes (ctx : Context World Font Chars) (data : Nat)
    (s : State World Font Chars) : State World Font Chars :=
  let size := (if data.testBit 6 then vbiDoubleWidth else 0) +
    (if data.testBit 0 then vbiDoubleHeight else 0)
  let s := { s with ac := { s.ac with size := size }, mac := { s.mac with size := true } }
  let s :=
    if ctx.newsflashOrSubtitle then
      let opacity := if data.testBit 1 then vbiSemiTransparent else s.memory.pg.pageOpacity 1
      { s with ac := { s.ac with opacity := opacity }, mac := { s.mac with opacity := true } }
    else
      { s with rowColorTransparent := data.testBit 1 }
  { s with
    ac := { s.ac with conceal := data.testBit 2, underline := data.testBit 5 }
    mac := { s.mac with conceal := true, underline := true }
    invert := data.testBit 4 }

def drcsCharacter (ctx : Context World Font Chars) (column data : Nat)
    (s : State World Font Chars) : State World Font Chars × Next :=
  let normal := data >>> 6
  let offset := data &&& 0x3F
  if 48 ≤ offset then
    (s, .go)
  else
    let s := (flushTo ctx column s).note (.drcsS1 normal)
    let page := normal * 16 + s.drcsS1 normal
    let link := if normal = 0 then ctx.globalDrcsLink else ctx.normalDrcsLink
    let function := if normal = 0 then pageFunctionGdrcs else pageFunctionDrcs
    match link with
    | none => (s, .fail)
    | some pgno =>
      let source := sourcePage ctx s.memory.world pgno (s.drcsS1 normal) pageFunctionDrcs function
      let s := { s with memory := { s.memory with world := source.1 } }
      match source.2 with
      | none => (s, .fail)
      | some dvtp =>
        if dvtp.invalid.testBit offset then
          (s, .fail)
        else
          let s := s.note (.drcs page)
          let pg := { s.memory.pg with
            drcs := Function.update s.memory.pg.drcs page (some dvtp.chars) }
          storeUnicode (0xF000 + page <<< 6 + offset) { s with memory := { s.memory with pg := pg } }

def setStyle (data : Nat) (s : State World Font Chars) (offset : Nat) : State World Font Chars :=
  s.write offset { s.memory.pg.text offset with
    proportional := data.testBit 0, bold := data.testBit 1, italic := data.testBit 2 }

/-- Font style of at most `count` rows from row `row` on, from column `column` on. -/
def fontStyle (data column : Nat) : Nat → Nat → State World Font Chars → State World Font Chars
  | 0, _, s => s
  | count + 1, row, s =>
    if row < rows then
      fontStyle data column count (row + 1)
        ((List.range' column (columns - column)).foldl
          (fun s col => setStyle data s (row * extColumns + col)) s)
    else
      s

def setForeground (ctx : Context World Font Chars) (column data : Nat)
    (s : State World Font Chars) : State World Font Chars × Next :=
  if ctx.high ∧ data >>> 5 = 0 then
    let s := flushTo ctx column s
    ({ s with
      ac := { s.ac with foreground := data &&& 0x1F }
      mac := { s.mac with foreground := true } }, .go)
  else
    (s, .go)

def setBackground (ctx : Context World Font Chars) (column data : Nat)
    (s : State World Font Chars) : State World Font Chars × Next :=
  if ctx.high ∧ data >>> 5 = 0 then
    let s := flushTo ctx column s
    ({ s with
      ac := { s.ac with background := data &&& 0x1F }
      mac := { s.mac with background := true } }, .go)
  else
    (s, .go)

def blockMosaic (ctx : Context World Font Chars) (column data : Nat)
    (s : State World Font Chars) : State World Font Chars × Next :=
  if ctx.high then
    let s := flushTo ctx column s
    if data.testBit 5 then storeUnicode (0xEE00 + data) s
    else if 0x40 ≤ data then storeUnicode (ctx.g0Unicode s.font data) s
    else (s, .go)
  else
    (s, .go)

def smoothMosaic (ctx : Context World Font Chars) (column data : Nat)
    (s : State World Font Chars) : State World Font Chars × Next :=
  if 0x20 ≤ data then storeUnicode (0xEF00 + data) (flushTo ctx column s) else (s, .go)

def setFlash (ctx : Context World Font Chars) (column data : Nat)
    (s : State World Font Chars) : State World Font Chars × Next :=
  if ctx.high then
    let s := flushTo ctx column s
    ({ s with
      ac := { s.ac with flash := data &&& 3 ≠ 0 }
      mac := { s.mac with flash := true } }, .go)
  else
    (s, .go)

def selectFont (ctx : Context World Font Chars) (column data : Nat)
    (s : State World Font Chars) : State World Font Chars × Next :=
  if ctx.high then
    let s := flushTo ctx column s
    ({ s with font := (ctx.fontDescriptor data).getD s.memory.pg.font }, .go)
  else
    (s, .go)

def fontCharacter (ctx : Context World Font Chars) (unicode : Font → Nat → Nat)
    (column data : Nat) (s : State World Font Chars) : State World Font Chars × Next :=
  if 0x20 ≤ data then
    let s := flushTo ctx column s
    storeUnicode (unicode s.font data) s
  else
    (s, .go)

def columnTriplet (ctx : Context World Font Chars) (t : Triplet) (s : State World Font Chars) :
    State World Font Chars × Next :=
  if t.mode = 0x00 then
    setForeground ctx t.address.toNat t.data.toNat s
  else if t.mode = 0x01 then
    blockMosaic ctx t.address.toNat t.data.toNat s
  else if t.mode = 0x0B then
    if ctx.high then smoothMosaic ctx t.address.toNat t.data.toNat s else (s, .go)
  else if t.mode = 0x02 then
    smoothMosaic ctx t.address.toNat t.data.toNat s
  else if t.mode = 0x03 then
    setBackground ctx t.address.toNat t.data.toNat s
  else if t.mode = 0x07 then
    setFlash ctx t.address.toNat t.data.toNat s
  else if t.mode = 0x08 then
    selectFont ctx t.address.toNat t.data.toNat s
  else if t.mode = 0x09 then
    if ctx.high then fontCharacter ctx ctx.g0Unicode t.address.toNat t.data.toNat s else (s, .go)
  else if t.mode = 0x0C then
    if ctx.high then (displayAttributes ctx t.data.toNat (flushTo ctx t.address.toNat s), .go)
    else (s, .go)
  else if t.mode = 0x0D then
    if ctx.high then drcsCharacter ctx t.address.toNat t.data.toNat s else (s, .go)
  else if t.mode = 0x0E then
    if ctx.maxLevel.rank < 3 then
      (s, .go)
    else
      (fontStyle t.data.toNat (s.invColumn + t.address.toNat) (t.data.toNat >>> 4 + 1)
        (s.invRow + s.activeRow) s, .go)
  else if t.mode = 0x0F then
    fontCharacter ctx ctx.g2Unicode t.address.toNat t.data.toNat s
  else if 0x10 ≤ t.mode ∧ t.mode ≤ 0x1F then
    fontCharacter ctx (fun _ => ctx.composedUnicode (t.mode.toNat - 0x10)) t.address.toNat
      t.data.toNat s
  else
    (s, .go)

def stepTriplet (ctx : Context World Font Chars)
    (invoke : Fin 4 → Triplet → State World Font Chars → State World Font Chars × Next)
    (t : Triplet) (s : State World Font Chars) : State World Font Chars × Next :=
  if columns ≤ t.address.toNat then rowTriplet ctx invoke t s else columnTriplet ctx t s

/-- The loop over at most `n` triplets from position `p` on, which returns `false` when
`enhance()` fails. While `skipping`, it is in the inner loop which looks at the triplets
after a position below the header row, for a header row or a termination marker. -/
def tripletLoop (ctx : Context World Font Chars)
    (invoke : Fin 4 → Triplet → State World Font Chars → State World Font Chars × Next)
    (array : TripletArray) :
    Nat → Nat → Bool → State World Font Chars → State World Font Chars × Bool
  | 0, _, _, s => (s, true)
  | n + 1, p, skipping, s =>
    let s := s.note (.triplet array.size p)
    let t := (array.get p).toTriplet
    if skipping ∧ (t.address.toNat < columns ∨ t.mode ≠ 0x07) then
      if columns ≤ t.address.toNat ∧ 0x1F ≤ t.mode then (enhanceFlushRow ctx s, true)
      else tripletLoop ctx invoke array n (p + 1) true s
    else
      let stepped := stepTriplet ctx invoke t s
      match stepped.2 with
      | .go => tripletLoop ctx invoke array n (p + 1) false stepped.1
      | .skip => tripletLoop ctx invoke array n (p + 1) true stepped.1
      | .done => (stepped.1, true)
      | .fail => (stepped.1, false)

def noChar : VbiChar := ⟨false, false, false, false, false, false, 0, 0, 0, 0, 0⟩

def passiveChar (pg : VbiPage Font Chars) : VbiChar :=
  { noChar with foreground := vbiWhite, background := vbiBlack, opacity := pg.pageOpacity 1 }

def passiveMask : Mask := ⟨true, true, true, true, true, true, true, false⟩

/-- The variables at the beginning of `enhance()`. -/
def startState (ctx : Context World Font Chars) (type : Nat) (c : Call)
    (memory : Memory World Font Chars) : State World Font Chars where
  memory := memory
  type := type
  ac := if type = objectTypePassive then passiveChar memory.pg else noChar
  mac := if type = objectTypePassive then passiveMask else noMask
  acp := c.invRow * extColumns
  invRow := c.invRow
  invColumn := c.invColumn
  activeRow := 0
  activeColumn := 0
  rowColor := ctx.defRowColor
  nextRowColor := ctx.defRowColor
  rowColorTransparent := false
  invert := false
  offsetColumn := 0
  offsetRow := 0
  font := memory.pg.font
  drcsS1 := fun _ => 0
  pdcHr := 0

/-- `enhance()`. An object only invokes objects of higher types. -/
def enhance (ctx : Context World Font Chars) (depth type : Nat) (c : Call)
    (memory : Memory World Font Chars) : Memory World Font Chars × Bool :=
  let r := tripletLoop ctx
    (fun newType t s =>
      if _h : newType ≤ type then (s, .go)
      else invokeObject ctx (enhance ctx (depth + 1) newType) depth newType t s)
    c.object.array c.object.remaining.toNat c.object.start false (startState ctx type c memory)
  (r.1.memory, r.2)
termination_by 4 - type

def invokeDefault (ctx : Context World Font Chars) (pgno : Int) (type address : Nat)
    (memory : Memory World Font Chars) : Memory World Font Chars × Bool :=
  if type = 0 then
    (memory, true)
  else
    let resolved := resolveObjAddress ctx memory type pgno address pageFunctionPop
    match resolved.2 with
    | none => (resolved.1, false)
    | some object => enhance ctx 1 type ⟨object, 0, 0⟩ resolved.1

/-- `default_object_invocation()`, the object of the lower type first. -/
def defaultObjectInvocation (ctx : Context World Font Chars)
    (memory : Memory World Font Chars) : Memory World Font Chars × Bool :=
  match ctx.defaultObjects with
  | none => (memory, false)
  | some pop =>
    let first := invokeDefault ctx pop.pgno pop.firstType pop.firstAddress
    let second := invokeDefault ctx pop.pgno pop.secondType pop.secondAddress
    if pop.secondType < pop.firstType then
      let r := second memory
      if r.2 then first r.1 else r
    else
      let r := first memory
      if r.2 then second r.1 else r

def transparentChar (c : VbiChar) : VbiChar :=
  if c.opacity = vbiTransparentSpace ∨
      c.foreground = vbiTransparentBlack ∧ c.background = vbiTransparentBlack then
    { c with opacity := vbiTransparentSpace, unicode := 0x0020 }
  else if c.background = vbiTransparentBlack then
    { c with opacity := vbiSemiTransparent }
  else
    c

def repairChar (c : VbiChar) : VbiChar := { c with unicode := 0x0020, size := vbiNormalSize }

/-- The body of the loop of `post_enhance()`, where `below` stands for `row < last_row`. -/
def postChar (below : Bool) (row column : Nat) (memory : Memory World Font Chars) :
    Memory World Font Chars :=
  let acp := row * extColumns + column
  let c := transparentChar (memory.pg.text acp)
  let memory := memory.write acp c
  if c.size = vbiNormalSize then
    let under := memory.pg.text (acp + extColumns)
    let memory :=
      if below ∧ (under.size = vbiDoubleHeight2 ∨ under.size = vbiDoubleSize2) then
        memory.write (acp + extColumns) (repairChar under)
      else
        memory
    let next := memory.pg.text (acp + 1)
    if column < 39 ∧ (next.size = vbiOverTop ∨ next.size = vbiOverBottom) then
      memory.write (acp + 1) (repairChar next)
    else
      memory
  else if c.size = vbiDoubleHeight then
    if below then memory.write (acp + extColumns) { c with size := vbiDoubleHeight2 } else memory
  else if c.size = vbiDoubleSize ∨ c.size = vbiDoubleWidth then
    let memory :=
      if below ∧ c.size = vbiDoubleSize then
        (memory.write (acp + extColumns) { c with size := vbiDoubleSize2 }).write
          (acp + extColumns + 1) { c with size := vbiOverBottom }
      else
        memory
    if column < 39 then memory.write (acp + 1) { c with size := vbiOverTop } else memory
  else
    memory

def postEnhance (displayRows : Nat) (memory : Memory World Font Chars) :
    Memory World Font Chars :=
  let last := min displayRows rows - 1
  (List.range last).foldl (fun memory row =>
    (List.range columns).foldl (fun memory column =>
      postChar (row + 1 < last) row column memory) memory) memory

def hideBoxes (pg : VbiPage Font Chars) : VbiPage Font Chars :=
  let opacity := Function.update pg.boxedOpacity 0 vbiTransparentSpace
  { pg with boxedOpacity := Function.update opacity 1 vbiTransparentSpace }

def enhancePage (ctx : Context World Font Chars) (memory : Memory World Font Chars) :
    Memory World Font Chars × Bool :=
  if ctx.x26Designations &&& 1 ≠ 0 then
    enhance ctx 0 0 ⟨⟨⟨enhancementCount, ctx.enh⟩, 0, enhancementCount⟩, 0, 0⟩ memory
  else
    defaultObjectInvocation ctx memory

/-- The part of `vbi_format_vt_page()` after the page was formatted at Level 1. -/
def formatEnhanced (ctx : Context World Font Chars) (displayRows : Nat)
    (memory : Memory World Font Chars) : Memory World Font Chars × Bool :=
  if ctx.maxLevel.rank < 1 ∨ displayRows = 0 then
    (memory, true)
  else
    let page := memory.pg
    let pg := if ctx.newsflashOrSubtitle then page else hideBoxes page
    let r := enhancePage ctx { memory with pg := pg }
    if r.2 then
      (if 2 ≤ ctx.maxLevel.rank then postEnhance displayRows r.1 else r.1, true)
    else
      ({ r.1 with pg := page }, false)

end TeletextEnhance

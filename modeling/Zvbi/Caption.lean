import Zvbi.XdsSeparator

/-!
# The Closed Caption decoder

Each of eight caption and text channels has a cursor, a window and two pages,
of which one is displayed and the other one, named by `hidden`, receives
characters. The pointer to the current row is modelled by the page it points
into and its distance from the beginning of that page.

The page text is an array larger than the fifteen rows. A channel therefore
remembers if a cell outside these rows was written, or if a row was copied
while the pointer was not in the hidden page. Events and the character stream
for the trigger decoder are left out.
-/

namespace Caption
open Hamming XdsSeparator

def rows : Nat := 15

def columns : Nat := 34

inductive VbiColor where
  | black | red | green | yellow | blue | magenta | cyan | white
  deriving DecidableEq

inductive VbiOpacity where
  | transparentSpace | transparentFull | semiTransparent | fullOpaque
  deriving DecidableEq

/-- The fields of `vbi_char` the decoder uses. -/
structure VbiChar where
  underline : Bool
  italic : Bool
  flash : Bool
  foreground : VbiColor
  background : VbiColor
  opacity : VbiOpacity
  unicode : Nat
  deriving DecidableEq

structure Dirty where
  y0 : Int
  y1 : Int
  roll : Int
  deriving DecidableEq

/-- `vbi_page`, less what stays as initialized. -/
structure Page where
  text : Nat → VbiChar
  dirty : Dirty

inductive CcMode where
  | none | popOn | paintOn | rollUp | text
  deriving DecidableEq

/-- `cc_channel`. The page index `false` stands for 0. -/
structure Channel where
  mode : CcMode
  col : Nat
  col1 : Nat
  row : Nat
  row1 : Nat
  roll : Nat
  nulCt : Nat
  attr : VbiChar
  linePage : Bool
  lineStart : Nat
  hidden : Bool
  pg : Bool → Page
  /-- A write left the page, or a copy was made with a wrong pointer. -/
  stray : Bool

/-- `transp_space[]`. -/
def transpSpace (text : Bool) : VbiChar :=
  ⟨false, false, false, .white, .black, if text then .fullOpaque else .transparentSpace, 0x20⟩

/-- `vbi_caption_unicode (c, FALSE)` for the basic and the special characters,
the only ones asked for here. -/
def vbiCaptionUnicode (c : Nat) : Nat :=
  match c with
  | 0x2A => 0xE1 | 0x5C => 0xE9 | 0x5E => 0xED | 0x5F => 0xF3 | 0x60 => 0xFA | 0x7B => 0xE7
  | 0x7C => 0xF7 | 0x7D => 0xD1 | 0x7E => 0xF1 | 0x7F => 0x25A0
  | 0x1130 => 0xAE | 0x1131 => 0xB0 | 0x1132 => 0xBD | 0x1133 => 0xBF | 0x1134 => 0x2122
  | 0x1135 => 0xA2 | 0x1136 => 0xA3 | 0x1137 => 0x266A | 0x1138 => 0xE0 | 0x1139 => 0x20
  | 0x113A => 0xE8 | 0x113B => 0xE2 | 0x113C => 0xEA | 0x113D => 0xEE | 0x113E => 0xF4
  | 0x113F => 0xFB
  | _ => if 0x20 ≤ c ∧ c < 0x80 then c else 0

/-- `palette_mapping[]`. -/
def paletteMapping (c : Nat) : VbiColor :=
  match c % 8 with
  | 0 => .white | 1 => .green | 2 => .blue | 3 => .cyan | 4 => .red | 5 => .yellow | 6 => .magenta
  | _ => .black

/-- `row_mapping[]`. -/
def rowMapping (i : Nat) : Int :=
  match i % 16 with
  | 0 => 10 | 1 => -1 | 2 => 0 | 3 => 1 | 4 => 2 | 5 => 3 | 6 => 11 | 7 => 12 | 8 => 13 | 9 => 14
  | 10 => 4 | 11 => 5 | 12 => 6 | 13 => 7 | 14 => 8 | _ => 9

def render (row : Int) (pg : Page) : Page :=
  { pg with dirty :=
      if row < 0 ∨ pg.dirty.roll ≠ 0 then ⟨0, rows - 1, 0⟩
      else { pg.dirty with y0 := min row pg.dirty.y0, y1 := max row pg.dirty.y1 } }

def clear (pg : Page) : Page := { pg with dirty := ⟨0, rows - 1, -rows⟩ }

def rollUp (firstRow lastRow : Int) (pg : Page) : Page :=
  { pg with dirty :=
      if pg.dirty.roll ≠ 0 ∨ pg.dirty.y0 ≤ pg.dirty.y1 then
        ⟨min firstRow pg.dirty.y0, max lastRow pg.dirty.y1, 0⟩
      else
        ⟨firstRow, lastRow, -1⟩ }

def onPage (ch : Channel) (page : Bool) (f : Page → Page) : Channel :=
  { ch with pg := fun k => if k = page then f (ch.pg k) else ch.pg k }

/-- `ch->line[i]`. -/
def cell (ch : Channel) (i : Nat) : VbiChar := (ch.pg ch.linePage).text (ch.lineStart + i)

/-- `ch->line[i] = c`. -/
def setCell (ch : Channel) (c : VbiChar) (i : Nat) : Channel :=
  { onPage ch ch.linePage fun pg =>
      { pg with text := fun k => if k = ch.lineStart + i then c else pg.text k } with
    stray := ch.stray || decide (ch.lineStart + i ≥ rows * columns) }

/-- `ch->line[i] = c` for `first <= i < stop`. -/
def fillCells (ch : Channel) (c : VbiChar) (first stop : Nat) : Channel :=
  (List.range' first (stop - first)).foldl (fun ch i => setCell ch c i) ch

/-- Copy the current row to the other page. -/
def update (ch : Channel) : Channel :=
  { onPage ch (!ch.hidden) fun pg =>
      { pg with text := fun k =>
          if ch.lineStart ≤ k ∧ k < ch.lineStart + columns then (ch.pg ch.linePage).text k
          else pg.text k } with
    stray := ch.stray || ch.linePage != ch.hidden ||
      decide (ch.lineStart + columns > rows * columns) }

def isSpace (c : VbiChar) : Bool := c.unicode % 0x80 == 0x20

def padWord (ch : Channel) : Channel :=
  if ch.col > ch.col1 then
    let c := cell ch ch.col1
    let ch :=
      if !isSpace c ∧ (cell ch (ch.col1 - 1)).opacity = .transparentSpace then
        setCell ch { c with unicode := 0x20 } (ch.col1 - 1)
      else
        ch
    let c := cell ch (ch.col - 1)
    if !isSpace c ∧ (cell ch ch.col).opacity = .transparentSpace then
      setCell ch { c with unicode := 0x20 } ch.col
    else
      ch
  else
    ch

def wordBreak (ch : Channel) (upd : Bool) : Channel :=
  let ch := padWord ch
  if !upd ∨ ch.mode = .popOn then ch else onPage (update ch) true (render ch.row)

def setCursor (ch : Channel) (col row : Nat) : Channel :=
  { ch with col := col, col1 := col, row := row, linePage := ch.hidden, lineStart := row * columns }

def putChar (ch : Channel) (c : VbiChar) : Channel :=
  let ch :=
    if ch.col < columns - 1 then { setCell ch c ch.col with col := ch.col + 1 }
    else setCell ch c (columns - 2)
  if isSpace c then wordBreak ch true else ch

def putCharSpace (ch : Channel) : Channel := putChar ch { ch.attr with unicode := 0x20 }

def eraseMemory (ch : Channel) (page : Bool) (space : VbiChar) : Channel :=
  onPage ch page fun pg =>
    { text := fun k => if k < columns * rows then space else pg.text k
      dirty := ⟨0, rows - 1, rows⟩ }

/-- Up to `n` transparent spaces, as a preamble address or a tab inserts them. -/
def indent (ch : Channel) (space : VbiChar) (n : Nat) : Channel :=
  let col := max ch.col (min (ch.col + n) (columns - 1))
  let ch' := fillCells ch space ch.col col
  if col > ch.col then { ch' with col := col, col1 := col } else ch'

def colorAttr (attr : VbiChar) (c2 : Nat) : VbiChar :=
  if c2 / 2 % 8 < 7 then
    { attr with italic := false, foreground := paletteMapping (c2 / 2 % 8) }
  else
    { attr with italic := true, foreground := .white }

def moveToRow (ch : Channel) (space : VbiChar) (row : Nat) : Channel :=
  if ch.mode = .rollUp then
    let row1 := row + 1 - ch.roll
    let ch :=
      if row1 ≠ ch.row1 then
        let ch := eraseMemory { ch with row1 := row1 } ch.hidden space
        eraseMemory ch (!ch.hidden) space
      else
        ch
    setCursor ch 1 (ch.row1 + ch.roll - 1)
  else
    setCursor ch 1 row

def preambleAddress (ch : Channel) (space : VbiChar) (c1 c2 : Nat) : Channel :=
  let row := rowMapping (c1 * 2 + c2 / 32 % 2)
  if row < 0 ∨ ch.mode = .none then
    ch
  else
    let ch := { ch with attr := { ch.attr with
      underline := c2 % 2 = 1, background := .black, opacity := .fullOpaque, flash := false } }
    let ch := moveToRow (wordBreak ch true) space row.toNat
    if c2 / 16 % 2 = 1 then
      let ch := indent ch space (c2 % 16 / 2 * 2 * 2)
      { ch with attr := { ch.attr with italic := false, foreground := .white } }
    else
      { ch with attr := colorAttr ch.attr c2 }

def backgroundAttr (ch : Channel) (c2 : Nat) : Channel :=
  putCharSpace { ch with attr := { ch.attr with
    opacity := if c2 % 2 = 1 then .semiTransparent else .fullOpaque
    background := paletteMapping (c2 / 2 % 8) } }

def specialCharacter (ch : Channel) (space : VbiChar) (c2 : Nat) : Channel :=
  if c2 % 16 = 9 then
    if ch.col < columns - 1 then
      { setCell ch space ch.col with col := ch.col + 1, col1 := ch.col + 1 }
    else
      setCell ch space (columns - 2)
  else
    putChar ch { ch.attr with unicode := vbiCaptionUnicode (0x1130 + c2 % 16) }

def midrowCode (ch : Channel) (c2 : Nat) : Channel :=
  let attr := { ch.attr with flash := false, underline := c2 % 2 = 1 }
  putCharSpace { ch with attr := colorAttr attr c2 }

def rollUpCaptions (ch : Channel) (roll : Nat) : Channel :=
  if ch.mode = .rollUp ∧ ch.roll = roll then
    ch
  else
    let ch := eraseMemory ch ch.hidden (transpSpace false)
    let ch := eraseMemory ch (!ch.hidden) (transpSpace false)
    let ch := setCursor { ch with mode := .rollUp, roll := roll } 1 14
    { ch with row1 := 14 + 1 - roll }

def endOfCaption (ch : Channel) : Channel :=
  let ch := wordBreak { ch with mode := .popOn } true
  let ch := { ch with hidden := !ch.hidden }
  let ch := onPage ch (!ch.hidden) (render (-1))
  let ch := eraseMemory ch ch.hidden (transpSpace false)
  setCursor ch 1 (rows - 1)

def backspace (ch : Channel) (space : VbiChar) : Channel :=
  if ch.mode ≠ .none ∧ ch.col > 1 then
    let ch := setCell { ch with col := ch.col - 1 } space (ch.col - 1)
    if ch.col < ch.col1 then { ch with col1 := ch.col } else ch
  else
    ch

def lastRow (ch : Channel) : Nat := min (ch.row1 + ch.roll - 1) (rows - 1)

def scroll (pg : Page) (row1 roll : Nat) : Page :=
  { pg with text := fun k =>
      if row1 * columns ≤ k ∧ k < row1 * columns + (roll - 1) * columns then pg.text (k + columns)
      else pg.text k }

def scrollWindow (ch : Channel) (page : Bool) : Channel :=
  { onPage ch page (fun pg => scroll pg ch.row1 ch.roll) with
    stray := ch.stray || decide ((ch.row1 + ch.roll) * columns > rows * columns) }

/-- The source blanks the current row with `i <= COLUMNS`. -/
def blankRow (ch : Channel) (space : VbiChar) : Channel := fillCells ch space 0 (columns + 1)

def scrollUp (ch : Channel) (space : VbiChar) : Channel :=
  let page := if ch.mode ≠ .popOn then !ch.hidden else ch.hidden
  let ch := blankRow (scrollWindow (update (wordBreak ch true)) page) space
  let ch :=
    if ch.mode ≠ .popOn then
      onPage (update ch) (!ch.hidden) (rollUp ch.row1 (lastRow ch))
    else
      ch
  { ch with col := 1, col1 := 1 }

def carriageReturn (ch : Channel) (space : VbiChar) : Channel :=
  if ch.mode = .none then
    ch
  else if ch.row < lastRow ch then
    setCursor (wordBreak ch true) 1 (ch.row + 1)
  else
    scrollUp ch space

def deleteToEndOfRow (ch : Channel) (space : VbiChar) : Channel :=
  if ch.mode = .none then
    ch
  else
    let ch := wordBreak (fillCells ch space ch.col columns) false
    if ch.mode ≠ .popOn then onPage (update ch) (!ch.hidden) (render ch.row) else ch

def eraseDisplayed (ch : Channel) (space : VbiChar) : Channel :=
  let ch := if ch.mode ≠ .popOn then eraseMemory ch ch.hidden space else ch
  onPage (eraseMemory ch (!ch.hidden) space) (!ch.hidden) clear

def eraseNonDisplayed (ch : Channel) (space : VbiChar) : Channel :=
  if ch.mode = .popOn then eraseMemory ch ch.hidden space else ch

def attrBackspace (ch : Channel) : Channel :=
  if ch.col > 1 ∧ isSpace (cell ch (ch.col - 1)) then
    setCell ch { ch.attr with unicode := 0x20 } (ch.col - 1)
  else
    ch

def tabsAndAttributes (ch : Channel) (space : VbiChar) (c2 : Nat) : Channel :=
  if ch.mode = .none then
    ch
  else if 0x21 ≤ c2 ∧ c2 ≤ 0x23 then
    indent ch space (c2 % 4)
  else if c2 = 0x2D then
    attrBackspace { ch with attr := { ch.attr with opacity := .transparentFull } }
  else if c2 = 0x2E ∨ c2 = 0x2F then
    attrBackspace { ch with attr := { ch.attr with
      foreground := .black, underline := c2 % 2 = 1 } }
  else
    ch

/-- The strings are those in the arrays of `vbi_network`. -/
structure Network where
  name : List UInt8
  call : List UInt8
  cycle : Nat
  nuid : Nat
  deriving DecidableEq

/-- `struct caption`, and the network the XDS decoder identifies. -/
structure Decoder where
  last : UInt8 × UInt8
  currChan : Nat
  channel : Nat → Channel
  xds : Xds
  network : Network

def setChannel (d : Decoder) (i : Nat) (ch : Channel) : Decoder :=
  { d with channel := fun k => if k = i then ch else d.channel k }

def switchChannel (d : Decoder) (chan newChan : Nat) (f : Channel → Channel) : Decoder :=
  let d := { setChannel d chan (wordBreak (d.channel chan) true) with currChan := newChan }
  setChannel d newChan (f (d.channel newChan))

def miscControl (d : Decoder) (chan : Nat) (space : VbiChar) (c2 : Nat) : Decoder :=
  let ch := d.channel chan
  let caption := chan % 4
  let text := chan % 4 + 4
  match c2 % 16 with
  | 0 => switchChannel d chan caption fun ch => { ch with mode := .popOn }
  | 5 => switchChannel d chan caption fun ch => rollUpCaptions ch 2
  | 6 => switchChannel d chan caption fun ch => rollUpCaptions ch 3
  | 7 => switchChannel d chan caption fun ch => rollUpCaptions ch 4
  | 9 => switchChannel d chan caption fun ch => { ch with mode := .paintOn }
  | 10 => switchChannel d chan text fun ch => setCursor ch 1 0
  | 11 => switchChannel d chan text fun ch => ch
  | 15 => switchChannel d chan caption endOfCaption
  | 8 => setChannel d chan { ch with attr := { ch.attr with flash := true } }
  | 1 => setChannel d chan (backspace ch space)
  | 13 => setChannel d chan (carriageReturn ch space)
  | 4 => setChannel d chan (deleteToEndOfRow ch space)
  | 12 => setChannel d chan (eraseDisplayed ch space)
  | 14 => setChannel d chan (eraseNonDisplayed ch space)
  | _ => d

def commandChannel (d : Decoder) (c1 : Nat) (field2 : Bool) : Nat :=
  (if d.currChan / 4 % 2 = 1 then 4 else 0) + (if field2 then 2 else 0) + c1 / 8 % 2

def captionCommand (d : Decoder) (c1 c2 : Nat) (field2 : Bool) : Decoder :=
  let chan := commandChannel d c1 field2
  let ch := d.channel chan
  let space := transpSpace (decide (chan / 4 = 1))
  if c2 ≥ 0x40 then
    setChannel d chan (preambleAddress ch space (c1 % 8) c2)
  else
    match c1 % 8 with
    | 0 => setChannel d chan (backgroundAttr ch c2)
    | 1 =>
      setChannel d chan (if c2 / 16 % 2 = 1 then specialCharacter ch space c2 else midrowCode ch c2)
    | 4 => miscControl d chan space c2
    | 5 => miscControl d chan space c2
    | 7 => setChannel d chan (tabsAndAttributes ch space c2)
    | _ => d

/-- A channel after `vbi_caption_channel_switched()`. The cursor is set before
`hidden` is cleared. -/
def resetChannel (ch : Channel) (isText : Bool) : Channel :=
  let ch := { ch with
    mode := if isText then .text else .none
    row := if isText then 0 else rows - 1
    row1 := if isText then 0 else rows - 3
    roll := if isText then rows else 3
    attr := { ch.attr with opacity := .fullOpaque, foreground := .white, background := .black } }
  let ch := setCursor ch 1 ch.row
  let ch := eraseMemory { ch with hidden := false } false (transpSpace isText)
  { ch with pg := fun _ => ch.pg false }

/-- `vbi_caption_channel_switched()`. -/
def channelSwitched (d : Decoder) : Decoder :=
  { d with
    channel := fun i => resetChannel (d.channel i) (decide (4 ≤ i))
    xds := XdsSeparator.initial }

def zeroChannel : Channel :=
  let blank : VbiChar := ⟨false, false, false, .black, .black, .transparentSpace, 0⟩
  ⟨.none, 0, 0, 0, 0, 0, 0, blank, false, 0, false, fun _ => ⟨fun _ => blank, ⟨0, 0, 0⟩⟩, false⟩

/-- `vbi_caption_init()`, for a given state of the network identification. -/
def captionInit (network : Network) : Decoder :=
  channelSwitched ⟨(0, 0), 0, fun _ => zeroChannel, XdsSeparator.initial, network⟩

/-- The new string of `xds_strfu()`. -/
def xdsStrfu (s : List UInt8) : List UInt8 := (s.dropWhile fun c => c ≤ 0x20).map fun c => max 0x20 c

def hcrc (i : Nat) : Nat :=
  (List.range 7).foldl (fun sum j => if i.testBit j then sum ^^^ (0x48000000 >>> j) else sum) 0

def nameChecksum (s : List UInt8) : Nat :=
  let sum := s.foldl (fun sum c => (sum >>> 7) ^^^ hcrc ((sum ^^^ c.toNat) % 128)) 0
  sum % 2 ^ 31 ||| 2 ^ 30

/-- The packets of `xds_decoder()` which identify the network. The second
result tells if the channel has been switched. -/
def xdsDecoder (n : Network) (c : DecoderCall) : Network × Bool :=
  let s := xdsStrfu (c.buffer.toList.take c.length)
  if c.cls = 2 ∧ c.type = 1 then
    if s ≠ n.name then
      ({ n with name := s, cycle := 1 }, false)
    else if n.cycle = 1 then
      ({ n with nuid := nameChecksum (if n.call ≠ [] then n.call else n.name), cycle := 3 },
        decide (n.nuid ≠ 0))
    else
      (n, false)
  else if c.cls = 2 ∧ c.type = 2 then
    if s ≠ n.call then
      if n.cycle ≠ 1 then ({ n with call := s, name := [], cycle := 0 }, false)
      else ({ n with call := s }, false)
    else
      (n, false)
  else
    (n, false)

def charOf (b : UInt8) : Nat := if vbiUnpar8 b < 0 then 127 else (vbiUnpar8 b).toNat

def putText (ch : Channel) (attr : VbiChar) (b : UInt8) : Channel :=
  if charOf b ≤ 0x1F then ch else putChar ch { attr with unicode := vbiCaptionUnicode (charOf b) }

def characters (ch : Channel) (b0 b1 : UInt8) : Channel :=
  if b0 = 0x80 ∧ b1 = 0x80 then
    if ch.mode ≠ .none then
      let ch' := if ch.nulCt = 2 then wordBreak ch true else ch
      { ch' with nulCt := ch'.nulCt + 2 }
    else
      ch
  else
    let ch := { ch with nulCt := 0 }
    if ch.mode = .none then ch else putText (putText ch ch.attr b0) ch.attr b1

def characterChannel (d : Decoder) (field2 : Bool) : Nat :=
  (if d.currChan / 4 % 2 = 1 then 4 else 0) + d.currChan % 2 + (if field2 then 2 else 0)

/-- The command a pair with good parity stands for, unless it repeats the last
command of the first field. -/
def commandOf (d : Decoder) (field2 : Bool) (b0 b1 : UInt8) : Option (Nat × Nat) :=
  let c1 := (b0 &&& 0x7F).toNat
  if 0x10 ≤ c1 ∧ c1 ≤ 0x1F ∧ 0 ≤ vbiUnpar8 b1 ∧ (field2 ∨ (b0, b1) ≠ d.last) then
    some (c1, (b1 &&& 0x7F).toNat)
  else
    none

def clearLast (d : Decoder) (field2 : Bool) : Decoder :=
  if field2 then d else { d with last := (0, d.last.2) }

def decodeBytes (d : Decoder) (field2 : Bool) (b0 b1 : UInt8) : Decoder :=
  let c1 := (b0 &&& 0x7F).toNat
  if 0x01 ≤ c1 ∧ c1 ≤ 0x0F then
    clearLast d field2
  else if 0x10 ≤ c1 ∧ c1 ≤ 0x1F then
    match commandOf d field2 b0 b1 with
    | none => clearLast d field2
    | some (c1, c2) =>
      let d := captionCommand d c1 c2 field2
      if field2 then d else { d with last := (b0, b1) }
  else
    let chan := characterChannel d field2
    let d' := setChannel d chan (characters (d.channel chan) b0 b1)
    if b0 = 0x80 ∧ b1 = 0x80 then d' else clearLast d' field2

def decodePair (d : Decoder) (field2 : Bool) (b0 b1 : UInt8) : Decoder :=
  if vbiUnpar8 b0 < 0 then decodeBytes d field2 127 127 else decodeBytes d field2 b0 b1

def applyPacket (d : Decoder) : Option DecoderCall → Decoder
  | none => d
  | some c =>
    let r := xdsDecoder d.network c
    if r.2 then channelSwitched { d with network := r.1 } else { d with network := r.1 }

def vbiDecodeCaption (d : Decoder) (line : Nat) (b0 b1 : UInt8) : Option Decoder :=
  if line = 21 ∨ line = 22 then
    some (decodePair d false b0 b1)
  else if line = 335 then
    some (decodePair d true b0 b1)
  else if line = 284 then do
    let (xds, call, consumed) ← decodeLine284 d.xds b0 b1
    let d := applyPacket { d with xds := xds } call
    if consumed then some d else some (decodePair d true b0 b1)
  else
    some d

/-- A call of `vbi_decode_caption()` or `vbi_caption_channel_switched()`. -/
inductive Event where
  | pair (line : Nat) (b0 b1 : UInt8)
  | channelSwitched
  deriving DecidableEq

def handle (d : Decoder) : Event → Option Decoder
  | .pair line b0 b1 => vbiDecodeCaption d line b0 b1
  | .channelSwitched => some (channelSwitched d)

end Caption

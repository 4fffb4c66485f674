import Mathlib
import Zvbi.TriggerParsing

/-!
# EACEM and ATVEF triggers

Both kinds of triggers have a URL and attributes, and may end with a checksum.
-/

namespace TriggerAttributes

open TriggerDates (CString Zone parseDate parseDec utc)
open TriggerStrings

/-- A `char` as an `unsigned long`. -/
def ulong (c : UInt8) : UInt64 :=
  if c < 0x80 then c.toUInt64 else c.toUInt64 + 0xFFFFFFFFFFFFFF00

def sumPairs : List UInt8 → UInt64 → UInt64 × List UInt8
  | a :: b :: s, sum => sumPairs s (sum + (ulong a <<< 8) + ulong b)
  | s, sum => (sum, s)

def addCarries (sum : Nat) : Nat :=
  if sum < 2 ^ 16 then sum else addCarries (sum % 2 ^ 16 + sum / 2 ^ 16)

def verifyChecksum (s : List UInt8) (checksum : Int) : Bool :=
  match sumPairs s (UInt64.ofInt checksum) with
  | (sum, []) => addCarries sum.toNat = 0xFFFF
  | (sum, c :: _) =>
    addCarries (sum + (ulong c <<< 8)).toNat = 0xFFFF ∨ addCarries (sum + ulong c).toNat = 0xFFFF

def isspace (c : UInt8) : Bool := c = 0x20 || (0x09 ≤ c && c ≤ 0x0D)

def tolower (c : UInt8) : UInt8 := if 0x41 ≤ c ∧ c ≤ 0x5A then c + 0x20 else c

def digit (base : Nat) (c : UInt8) : Option Nat :=
  let n := c.toNat % 16 + if 0x39 < c then 9 else 0
  if isxdigit c ∧ n < base then some n else none

def digits (base : Nat) : List UInt8 → List Nat × List UInt8
  | [] => ([], [])
  | c :: s =>
    match digit base c with
    | none => ([], c :: s)
    | some n => (n :: (digits base s).1, (digits base s).2)

def sign : List UInt8 → Bool × List UInt8
  | 0x2D :: s => (true, s)
  | 0x2B :: s => (false, s)
  | s => (false, s)

/-- So is `0x` of a hexadecimal one. -/
def skip0x (base : Nat) : List UInt8 → List UInt8
  | 0x30 :: x :: h :: s =>
    if base = 16 ∧ tolower x = 0x78 ∧ isxdigit h then h :: s else 0x30 :: x :: h :: s
  | s => s

/-- `strtoul`, which also returns the end of the number. -/
def strtoul (base : Nat) (s : List UInt8) : Nat × List UInt8 :=
  let (negative, t) := sign (s.dropWhile isspace)
  match digits base (skip0x base t) with
  | ([], _) => (0, s)
  | (ds, rest) =>
    let n := ds.foldl (fun n d => n * base + d) 0
    (if 2 ^ 64 ≤ n then 2 ^ 64 - 1 else if negative then (2 ^ 64 - n) % 2 ^ 64 else n, rest)

/-- The conversion to an `int`. -/
def int (n : Int) : Int := n.bmod (2 ^ 32)

def cstring (s : List UInt8) : CString where
  bytes := s.takeWhile (· ≠ 0)
  nonzero := fun _ hc => by simpa using List.mem_takeWhile_imp hc

def parseTime (s : List UInt8) : Int :=
  let (seconds, rest) := strtoul 10 s
  match rest with
  | [] => int (int seconds * 25)
  | c :: frames =>
    if c ≠ 0x46 then
      -1
    else
      match parseDec (cstring frames) 0 2 0 with
      | none => -1
      | some frames => int (int seconds * 25 + frames)

def chars (s : String) : List UInt8 := s.toList.map fun c => UInt8.ofNat c.toNat

/-- `strcasecmp (s, keyword) == 0` with a keyword in lower case. -/
def sameKeyword (s : List UInt8) (keyword : String) : Bool := s.map tolower = chars keyword

def parseBool (s : List UInt8) : Bool := s = chars "1" || sameKeyword s "true"

/-- `keyword`. A single letter is the first of a keyword. -/
def keyword (s : List UInt8) (keywords : List String) : Option Nat :=
  match s with
  | [] => none
  | [c] => keywords.findIdx? fun k => (chars k).head? = some (tolower c)
  | s => keywords.findIdx? (sameKeyword s)

/-- The members of `vbi_link_type` which are used here. -/
inductive LinkType where
  | none
  | message
  | page
  | http
  | lid
  | teleweb
deriving DecidableEq, Repr

/-- `vbi_trigger` and its `vbi_link`. -/
structure Trigger (Time : Type) where
  type : LinkType
  name : List UInt8
  url : List UInt8
  script : List UInt8
  nuid : Int
  pgno : Int
  subno : Int
  expires : Time
  itvType : Nat
  priority : Int
  autoload : Bool
  fire : Time
  view : UInt8
  delete : Bool

/-- The members of `vbi_cni_entry` which are used here. -/
structure CniEntry where
  id : Int
  cni1 : Nat
  cni4 : Nat
deriving DecidableEq, Repr

/-- The other arguments, times as `double` numbers, and `vbi_cni_table`. -/
structure Environment (Time : Type) where
  zone : Zone
  nuid : Int
  now : Time
  /-- A `time_t` as a `double`. -/
  ofTime : Int → Time
  /-- `t + frames / 25.0`. -/
  later : Time → Int → Time
  /-- `t <= 0.0`. -/
  nonpos : Time → Bool
  cniTable : List CniEntry

/-- The trigger, and the variable `active`. -/
structure State (Time : Type) where
  trigger : Trigger Time
  active : Int

/-- `strlcpy` into a buffer of this size. -/
def strlcpy (src : List UInt8) (size : Nat) : List UInt8 := src.take (size - 1)

section
variable {Time : Type} (env : Environment Time)

/-- What both parsers start with. -/
def reset (t : Trigger Time) : State Time where
  trigger := { t with
    url := [], name := [], script := [], priority := 9, expires := env.ofTime 0,
    autoload := false, delete := false, fire := env.now, view := 0x77, itvType := 0 }
  active := 2 ^ 31 - 1

def checksum (st : State Time) (before attr : List UInt8) : Bare (State Time) :=
  if verifyChecksum before (int (strtoul 16 attr).1) then .last st else .rejected

def setUrl (st : State Time) (url : List UInt8) : State Time :=
  { st with trigger := { st.trigger with url } }

def eacemAttributes : List String :=
  ["active", "countdown", "delete", "expires", "name", "priority", "script"]

def eacemReceive (st : State Time) (attr text : List UInt8) : Option (State Time) :=
  let t := st.trigger
  match keyword attr eacemAttributes with
  | some 0 =>
    let active := parseTime text
    if active < 0 then none else some { st with active }
  | some 1 =>
    let countdown := parseTime text
    if countdown < 0 then none
    else some { st with trigger := { t with fire := env.later env.now countdown } }
  | some 2 => some { st with trigger := { t with delete := true } }
  | some 3 =>
    let date := parseDate env.zone (cstring text)
    if date = -1 then none
    else some { st with trigger := { t with expires := env.ofTime date } }
  | some 4 => some { st with trigger := { t with name := strlcpy text 79 } }
  | some 5 =>
    let priority := int (strtoul 10 text).1
    if 9 < priority then none else some { st with trigger := { t with priority } }
  | some 6 => some { st with trigger := { t with script := strlcpy text 255 } }
  | _ => some st

/-- The page of a `ttx://` URL. -/
def pageLink (t : Trigger Time) : Option (Trigger Time) := do
  let cni ← parseHex (t.url.drop 6) 4 0
  if t.url[10]? ≠ some 0x2F then failure
  let pgno ← parseHex (t.url.drop 11) 3 0
  if pgno < 0x100 ∨ t.url[14]? ≠ some 0x2F then failure
  let subno ← parseHex (t.url.drop 15) 4 0
  let nuid ← if 0 < cni then
      (env.cniTable.find? fun p => p.cni1 = cni ∨ p.cni4 = cni).map (·.id)
    else
      some env.nuid
  return { t with pgno, subno, nuid, type := .page }

/-- What follows the loop of `parse_eacem`. -/
def eacemLink (st : State Time) : Option (State Time) :=
  let t := st.trigger
  let t := if env.nonpos t.expires then { t with expires := env.later t.fire st.active } else t
  let link :=
    if (chars "http://").isPrefixOf t.url then
      some { t with type := .http }
    else if (chars "lid://").isPrefixOf t.url then
      some { t with type := .lid }
    else if (chars "tw://").isPrefixOf t.url then
      some { t with type := .teleweb }
    else if (chars "dummy").isPrefixOf t.url then
      match parseDec (cstring t.url) 5 2 0 with
      | none => none
      | some pgno => if t.url[7]?.isSome then none else some { t with pgno, type := .message }
    else if (chars "ttx://").isPrefixOf t.url then
      pageLink env t
    else
      none
  link.map fun trigger => { st with trigger }

/-- `parse_eacem`, whose buffer for the URL has room for another character. -/
def eacem : Dialect (State Time) where
  urlRoom := 254
  opens := fun c => c = 0x5B || c = 0x28
  setUrl := setUrl
  bare := checksum
  receive := eacemReceive env
  link := eacemLink env
  urlRoom_le := Nat.le_succ 254
  opens_delim := fun _ h => by simpa using h

def parseEacem (t : Trigger Time) (s : CString) : Outcome (State Time) :=
  (eacem env).parse (reset env t) s

def atvefAttributes : List String :=
  ["auto", "expires", "name", "script", "type", "time", "tve", "tve-level", "view"]

def typeAttrs : List String := ["program", "network", "station", "sponsor", "operator", "tve"]

def atvefReceive (st : State Time) (attr text : List UInt8) : Option (State Time) :=
  let t := st.trigger
  match keyword attr atvefAttributes with
  | some 0 => some { st with trigger := { t with autoload := parseBool text } }
  | some 1 =>
    let date := parseDate env.zone (cstring text)
    if date < 0 then none
    else some { st with trigger := { t with expires := env.ofTime date } }
  | some 2 => some { st with trigger := { t with name := strlcpy text 79 } }
  | some 3 => some { st with trigger := { t with script := strlcpy text 256 } }
  | some 4 =>
    let itvType := match keyword text typeAttrs with
      | some i => i + 1
      | none => 0
    some { st with trigger := { t with itvType } }
  | some 5 =>
    let date := parseDate env.zone (cstring text)
    if date < 0 then none
    else some { st with trigger := { t with fire := env.ofTime date } }
  | some 8 => some { st with trigger := { t with view := text.headD 0 } }
  | _ => some st

def atvefBare (st : State Time) (before attr : List UInt8) : Bare (State Time) :=
  match (typeAttrs.take 5).tail.findIdx? (sameKeyword attr) with
  | some i => .skip { st with trigger := { st.trigger with itvType := i + 2 } }
  | none => checksum st before attr

/-- What follows the loop of `parse_atvef`. -/
def atvefLink (st : State Time) : Option (State Time) :=
  let t := st.trigger
  if (chars "http://").isPrefixOf t.url then
    some { st with trigger := { t with type := .http } }
  else if (chars "lid://").isPrefixOf t.url then
    some { st with trigger := { t with type := .lid } }
  else
    none

/-- `parse_atvef`. -/
def atvef : Dialect (State Time) where
  urlRoom := 255
  opens := fun c => c = 0x5B
  setUrl := setUrl
  bare := atvefBare
  receive := atvefReceive env
  link := atvefLink
  urlRoom_le := Nat.le_refl 255
  opens_delim := fun _ h => Or.inl (by simpa using h)

def parseAtvef (t : Trigger Time) (s : CString) : Outcome (State Time) :=
  (atvef env).parse (reset env t) s

/-- Both parsers read all strings up to their NUL, and the attributes of all triggers receive
their values, just when no string ends with an opening quote or a type, all quotes are empty and
there is room in the buffers. -/
theorem attributes_received_iff (t : Trigger Time) (s : CString) :
    (Meets (eacem env) (reset env t) s (parseEacem env t s) ↔
      Holds (eacem env) (reset env t) s) ∧
    (Meets (atvef env) (reset env t) s (parseAtvef env t s) ↔
      Holds (atvef env) (reset env t) s) :=
  ⟨meets_iff s, meets_iff s⟩

end

def seconds : Environment Rat where
  zone := utc
  nuid := 0
  now := 0
  ofTime := fun t => t
  later := fun t frames => t + frames / 25
  nonpos := fun t => t ≤ 0
  cniTable := []

def blank : Trigger Rat where
  type := .none
  name := []
  url := []
  script := []
  nuid := 0
  pgno := 0
  subno := 0
  expires := 0
  itvType := 0
  priority := 0
  autoload := false
  fire := 0
  view := 0
  delete := false

/-- `http://a`. -/
def httpUrl : List UInt8 := [0x68, 0x74, 0x74, 0x70, 0x3A, 0x2F, 0x2F, 0x61]

/-- `name`. -/
def nameAttribute : List UInt8 := [0x6E, 0x61, 0x6D, 0x65]

/-- `<http://a>[name:"x"]`. -/
def quotedName : CString where
  bytes := 0x3C :: (httpUrl ++ 0x3E :: 0x5B :: (nameAttribute ++ [0x3A, 0x22, 0x78, 0x22, 0x5D]))
  nonzero := by simp [httpUrl, nameAttribute]

/-- `<http://a>[name:"`. -/
def openName : CString where
  bytes := 0x3C :: (httpUrl ++ 0x3E :: 0x5B :: (nameAttribute ++ [0x3A, 0x22]))
  nonzero := by simp [httpUrl, nameAttribute]

lemma httpUrl_chars : ∀ c ∈ httpUrl, c ≠ 0 ∧ c ≠ 0x3E := by simp [httpUrl]

lemma nameAttribute_named : Name (closing 0x5B) nameAttribute nameAttribute :=
  .of_plain (by simp [nameAttribute, closing])

lemma quoted_valued : Value (closing 0x5B) false [0x22, 0x78, 0x22] [0x22, 0x78, 0x22] :=
  .quote (.plain (by simp) (by simp) (by simp) (by simp) (.quote .nil))

def quotedDocument : Document (eacem seconds) where
  url := httpUrl
  groups := [{
    opening := 0x5B
    nameCode := nameAttribute
    name := nameAttribute
    valueCode := [0x22, 0x78, 0x22]
    value := [0x22, 0x78, 0x22]
    opens := rfl
    named := nameAttribute_named
    name_ne := List.cons_ne_nil _ _
    valued := quoted_valued }]
  url_chars := httpUrl_chars

/-- The trigger with a quoted name is rejected, and after one which ends with an opening quote
the memory is read on. -/
theorem quoted_lost :
    ¬ Meets (eacem seconds) (reset seconds blank) quotedName
        (parseEacem seconds blank quotedName) ∧
      (parseEacem seconds blank openName).result = .error .overread := by
  constructor
  · intro h
    have hread := ((meets_iff quotedName).1 h).readable quotedDocument rfl
    simpa using ((paired_quote _ _).1 hread.1.paired).1
  · have hbytes : openName.bytes ++ [0] =
        0x3C :: (httpUrl ++ 0x3E :: 0x5B :: (nameAttribute ++ [0x3A, 0x22, 0])) := rfl
    rw [parseEacem, Dialect.parse, Dialect.loop_overread_iff (CString.terminated _), hbytes]
    refine ⟨_, _, .head (Dialect.turn_url httpUrl_chars ?_ _) (.refl _ _), Or.inl ?_⟩
    · simp [httpUrl, eacem]
    · exact ⟨0x5B, nameAttribute, nameAttribute, [], [], rfl, rfl, nameAttribute_named,
        by simp [nameAttribute], .nil, by simp [nameAttribute]⟩

end TriggerAttributes

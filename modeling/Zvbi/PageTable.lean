import Zvbi.WordBitmap

/-!
# The Teletext page table

The table remembers pages and subpages. A page with all its subpages is a bit
in a bitmap of 64 words, other subpages are ranges in a vector. Page and
subpage numbers come as signed integers and are checked before use.

The vector grows with `realloc()`, a parameter here: given the number of
elements the old block has room for and the number asked for, it returns the
room of the new block, or nothing. A call without a result writes an element
the block has no room for.
-/

namespace PageTable
open WordBitmap

/-- `VBI_ANY_SUBNO`. -/
def anySubno : Int := 0x3F7F

def maxSubno : Nat := 0x3F7E

structure SubpageRange where
  pgno : Nat
  first : Nat
  last : Nat
  deriving DecidableEq

/-- `vbi_page_table`. The vector is the list of its first `subpages_size`
elements, and `room` tells how many fit into its block. -/
structure VbiPageTable where
  pages : Vector (BitVec 32) 64
  pagesPopcnt : Int
  subpages : List SubpageRange
  subpagesCapacity : Nat
  room : Nat
  deriving DecidableEq

/-- `vbi_page_table_new()`. -/
def new : VbiPageTable := ⟨Vector.replicate 64 0, 0, [], 0, 0⟩

abbrev Realloc := Nat → Nat → Option Nat

def validPgno (pgno : Int) : Bool := decide (0x100 ≤ pgno ∧ pgno < 0x900)

def offsetOf (pgno : Nat) : Nat := (pgno - 0x100) / 32

def popcnt (x : BitVec 32) : Nat := (List.range 32).countP fun i => x.getLsbD i

def containsAllSubpages (pt : VbiPageTable) (pgno : Nat) : Bool :=
  word pt.pages (offsetOf pgno) &&& (1#32 <<< (pgno % 32)) != 0#32

/-- `vbi_page_table_contains_subpage()`. -/
def containsSubpage (pt : VbiPageTable) (pgno subno : Int) : Bool :=
  if validPgno pgno then
    if containsAllSubpages pt pgno.toNat then
      true
    else if subno = anySubno then
      pt.subpages.any fun r => pgno = r.pgno
    else
      pt.subpages.any fun r => pgno = r.pgno ∧ subno ≥ r.first ∧ subno ≤ r.last
  else
    false

/-- `vbi_page_table_contains_page()`. -/
def containsPage (pt : VbiPageTable) (pgno : Int) : Bool := containsSubpage pt pgno anySubno

/-- `shrink_subpages_vector()` with `shrink_vector()`. -/
def shrinkSubpagesVector (realloc : Realloc) (pt : VbiPageTable) : VbiPageTable :=
  if pt.subpages.length ≥ pt.subpagesCapacity / 4 then
    pt
  else if pt.subpagesCapacity / 2 ≥ pt.subpagesCapacity then
    pt
  else
    match realloc pt.room (pt.subpagesCapacity / 2) with
    | none => pt
    | some room => { pt with subpagesCapacity := pt.subpagesCapacity / 2, room := room }

/-- `UINT_MAX / sizeof (struct subpage_range)`. -/
def maxCapacity : Nat := 0xFFFFFFFF / 12

/-- `extend_vector()`. No result means failure. -/
def extendVector (realloc : Realloc) (pt : VbiPageTable) (minCapacity : Nat) : Option VbiPageTable :=
  if minCapacity > maxCapacity then
    none
  else
    let newCapacity :=
      if pt.subpagesCapacity > maxCapacity / 2 then maxCapacity
      else min minCapacity (pt.subpagesCapacity * 2)
    (realloc pt.room newCapacity).map fun room =>
      { pt with subpagesCapacity := newCapacity, room := room }

def extendSubpagesVector (realloc : Realloc) (pt : VbiPageTable) (minCapacity : Nat) :
    Option VbiPageTable :=
  if minCapacity ≤ pt.subpagesCapacity then some pt else extendVector realloc pt minCapacity

/-- Make `rs` the elements of the vector, if there is room. -/
def setSubpages (pt : VbiPageTable) (rs : List SubpageRange) : Option VbiPageTable :=
  if rs.length ≤ pt.room then some { pt with subpages := rs } else none

def validSubpageRange (pgno first last : Int) : Bool :=
  validPgno pgno && decide (0 ≤ first ∧ first ≤ maxSubno ∧ 0 ≤ last ∧ last ≤ maxSubno)

def removeSubpagesInPageRange (realloc : Realloc) (pt : VbiPageTable) (first last : Nat) :
    VbiPageTable :=
  shrinkSubpagesVector realloc
    { pt with subpages := pt.subpages.filter fun r => r.pgno < first ∨ r.pgno > last }

abbrev Change := BitVec 32 → BitVec 32 × Int

def touch (change : Change) (pt : VbiPageTable) (offset : Nat) : VbiPageTable :=
  let old := word pt.pages offset
  { pt with
    pages := setWord pt.pages offset (change old).1
    pagesPopcnt := pt.pagesPopcnt + (change old).2 }

/-- The changes `vbi_page_table_add_pages()` and `vbi_page_table_remove_pages()`
make to the bitmap: a masked one of the first and last word, and one of all
words between. The mask of the last word is `~(-2 << (last_pgno & 31))`. -/
def changePages (masked : BitVec 32 → Change) (whole : Change) (pt : VbiPageTable)
    (first last : Nat) : VbiPageTable :=
  let firstMask := maskFrom 32 (first % 32)
  let firstOffset := offsetOf first
  let lastMask := maskUpTo 32 (last % 32)
  let lastOffset := offsetOf last
  if firstOffset ≠ lastOffset then
    let pt := touch (masked firstMask) pt firstOffset
    let pt := (List.range' (firstOffset + 1) (lastOffset - firstOffset - 1)).foldl (touch whole) pt
    touch (masked (lastMask &&& BitVec.allOnes 32)) pt lastOffset
  else
    touch (masked (lastMask &&& firstMask)) pt lastOffset

/-- Both functions on pages check and order their arguments and treat the range
of all pages apart. -/
def onPages (realloc : Realloc) (all : BitVec 32) (allPopcnt : Int) (masked : BitVec 32 → Change)
    (whole : Change) (pt : VbiPageTable) (first last : Int) : VbiPageTable × Bool :=
  if validPgno first ∧ validPgno last then
    let low := (min first last).toNat
    let high := (max first last).toNat
    if high = 0x8FF ∧ low = 0x100 then
      let pt := shrinkSubpagesVector realloc { pt with subpages := [] }
      ({ pt with pages := Vector.replicate 64 all, pagesPopcnt := allPopcnt }, true)
    else
      (changePages masked whole (removeSubpagesInPageRange realloc pt low high) low high, true)
  else
    (pt, false)

/-- `vbi_page_table_remove_pages()`. -/
def removePages (realloc : Realloc) : VbiPageTable → Int → Int → VbiPageTable × Bool :=
  onPages realloc 0 0
    (fun mask old => (old &&& ~~~mask, -(popcnt (old &&& mask) : Int)))
    (fun old => (0, -(popcnt old : Int)))

/-- `vbi_page_table_add_pages()`. -/
def addPages (realloc : Realloc) : VbiPageTable → Int → Int → VbiPageTable × Bool :=
  onPages realloc (BitVec.allOnes 32) 0x800
    (fun mask old => (mask ||| old, (popcnt (mask &&& ~~~old) : Int)))
    (fun old => (BitVec.allOnes 32, 32 - (popcnt old : Int)))

/-- The loop of `vbi_page_table_remove_subpages()` over the ranges behind
`done`. The result is false if the vector cannot be extended. -/
def removeLoop (realloc : Realloc) (pgno first last : Nat) :
    VbiPageTable → List SubpageRange → List SubpageRange → Option (VbiPageTable × Bool)
  | pt, done, [] => some ({ pt with subpages := done }, true)
  | pt, done, r :: rest =>
    if pgno ≠ r.pgno ∨ first > r.last ∨ last < r.first then
      removeLoop realloc pgno first last pt (done ++ [r]) rest
    else if first > r.first ∧ last < r.last then
      match extendSubpagesVector realloc pt ((done ++ r :: rest).length + 1) with
      | none => some ({ pt with subpages := done ++ r :: rest }, false)
      | some pt =>
        if (done ++ r :: rest).length + 1 ≤ pt.room then
          removeLoop realloc pgno first last pt
            (done ++ [{ r with last := first }, { r with first := last + 1 }]) rest
        else
          none
    else
      let r := { r with first := max first r.first, last := min last r.last }
      if r.first > r.last then
        removeLoop realloc pgno first last pt done rest
      else
        removeLoop realloc pgno first last pt (done ++ [r]) rest

def remaining (pgno low high : Nat) : List SubpageRange :=
  (if low > 0 then [⟨pgno, 0, low - 1⟩] else []) ++
    (if high < maxSubno then [⟨pgno, high + 1, maxSubno⟩] else [])

/-- `vbi_page_table_remove_subpages()`. -/
def removeSubpages (realloc : Realloc) (pt : VbiPageTable) (pgno first last : Int) :
    Option (VbiPageTable × Bool) :=
  if first = anySubno ∧ last = anySubno then
    some (removePages realloc pt pgno pgno)
  else if validSubpageRange pgno first last then
    let low := (min first last).toNat
    let high := (max first last).toNat
    let pgno := pgno.toNat
    if containsAllSubpages pt pgno then
      match extendSubpagesVector realloc pt (pt.subpages.length + 2) with
      | none => some (pt, false)
      | some pt =>
        let pt := { pt with
          pagesPopcnt := pt.pagesPopcnt - 1
          pages := setWord pt.pages (offsetOf pgno)
            (word pt.pages (offsetOf pgno) &&& ~~~(1#32 <<< (pgno % 32))) }
        (setSubpages pt (pt.subpages ++ remaining pgno low high)).map fun pt => (pt, true)
    else
      (removeLoop realloc pgno low high pt [] pt.subpages).map fun r =>
        if r.2 then (shrinkSubpagesVector realloc r.1, true) else r
  else
    some (pt, false)

def mergeFirst (pgno first last : Nat) : List SubpageRange → Option (List SubpageRange)
  | [] => none
  | r :: rest =>
    if pgno = r.pgno ∧ last ≥ r.first ∧ first ≤ r.last then
      some ({ r with first := min first r.first, last := max last r.last } :: rest)
    else
      (mergeFirst pgno first last rest).map fun rest => r :: rest

/-- `vbi_page_table_add_subpages()`. -/
def addSubpages (realloc : Realloc) (pt : VbiPageTable) (pgno first last : Int) :
    Option (VbiPageTable × Bool) :=
  if first = anySubno ∧ last = anySubno then
    some (addPages realloc pt pgno pgno)
  else if validSubpageRange pgno first last then
    if containsPage pt pgno then
      some (pt, true)
    else
      let low := (min first last).toNat
      let high := (max first last).toNat
      match mergeFirst pgno.toNat low high pt.subpages with
      | some rs => some ({ pt with subpages := rs }, true)
      | none =>
        match extendSubpagesVector realloc pt (pt.subpages.length + 1) with
        | none => some (pt, false)
        | some pt =>
          (setSubpages pt (pt.subpages ++ [⟨pgno.toNat, low, high⟩])).map fun pt => (pt, true)
  else
    some (pt, false)

/-- `vbi_page_table_remove_all_pages()`. -/
def removeAllPages (realloc : Realloc) (pt : VbiPageTable) : VbiPageTable :=
  (removePages realloc pt 0x100 0x8FF).1

/-- `vbi_page_table_add_all_pages()`. -/
def addAllPages (realloc : Realloc) (pt : VbiPageTable) : VbiPageTable :=
  (addPages realloc pt 0x100 0x8FF).1

/-- Twenty pages from `pgno` on, which is a multiple of 32. -/
def addDisplayable (realloc : Realloc) (pt : VbiPageTable) (pgno : Nat) : VbiPageTable :=
  let pt := removeSubpagesInPageRange realloc pt (pgno + 0x00) (pgno + 0x09)
  let pt := removeSubpagesInPageRange realloc pt (pgno + 0x10) (pgno + 0x19)
  let mask := 0x03FF03FF#32
  touch (fun old => (mask ||| old, (popcnt (mask &&& ~~~old) : Int))) pt (offsetOf pgno)

/-- The values of `pgno` in the loops of `vbi_page_table_add_all_displayable_pages()`. -/
def displayableStarts : List Nat :=
  (List.range' 0x100 8 0x100).flatMap fun pgno => List.range' pgno 5 0x20

/-- `vbi_page_table_add_all_displayable_pages()`. -/
def addAllDisplayablePages (realloc : Realloc) (pt : VbiPageTable) : VbiPageTable :=
  displayableStarts.foldl (addDisplayable realloc) pt

end PageTable

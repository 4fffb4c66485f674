import Zvbi.RecordHeap

/-!
# The Teletext page cache

Cached pages and networks are records on a heap. A page is a node of two
lists: a hash chain by page number, unless it is a zombie, and the list of
unreferenced or of referenced pages. Lists are lists of addresses, a list head
is the first element. An operation without a result follows a pointer to freed
memory or fails an assertion.

Reference counts wrap like the unsigned integers they are. Counters of objects
in memory are natural numbers. Sizes are those of 64 bit systems.
-/

namespace PageCache
open RecordHeap

abbrev Addr := Nat

/-- `ttx_page_function`. -/
inductive PageFunction
  | aci | epg | eacemTrigger | discard | unknown | lop | data | gpop | pop | gdrcs | drcs
  | mot | mip | btt | ait | mpt | mptEx | iecTrigger
  deriving DecidableEq

inductive CachePriority
  | zombie | normal | special
  deriving DecidableEq

/-- The Teletext fields of a `cache_page`. The union `data` is the list of its
bytes as far as they are used. -/
structure TtxPage where
  function : PageFunction
  pgno : Nat
  subno : Nat
  national : Int
  flags : UInt32
  lopPackets : UInt32
  x26Designations : UInt32
  x27Designations : UInt32
  x28Designations : UInt32
  data : List UInt8
  deriving DecidableEq

/-- `cache_page`. `room` is the size of the block it was allocated in. -/
structure CachePage extends TtxPage where
  network : Addr
  refCount : Nat
  priority : CachePriority
  room : Nat
  deriving DecidableEq

/-- The fields of `ttx_page_stat` the cache looks at. -/
structure PageStat where
  pageType : UInt8
  nSubpages : UInt8
  maxSubpages : UInt8
  subnoMin : UInt8
  subnoMax : UInt8
  deriving DecidableEq

def PageStat.clear : PageStat := ⟨0, 0, 0, 0, 0⟩

/-- `cache_network`, the page statistics by page number. -/
structure CacheNetwork where
  refCount : Nat
  zombie : Bool
  nCachedPages : Nat
  maxCachedPages : Nat
  nReferencedPages : Nat
  pageStat : Nat → PageStat

def CacheNetwork.clear : CacheNetwork := ⟨0, false, 0, 0, 0, fun _ => PageStat.clear⟩

/-- `vbi_cache`. The allocator returns the address `top`, which was never used
before. -/
structure VbiCache where
  pages : Heap CachePage
  networkRecords : Heap CacheNetwork
  hash : Nat → List Addr
  priority : List Addr
  referenced : List Addr
  networks : List Addr
  nCachedPages : Nat
  memoryUsed : BitVec 64
  memoryLimit : BitVec 64
  nCachedNetworks : Nat
  nNetworksLimit : Nat
  top : Addr

def hashSize : Nat := 113

/-- Size of `deathRow`. -/
def deathRowSize : Nat := 20

/-- `VBI_ANY_SUBNO`. -/
def anySubno : Nat := 0x3F7F

/-- `VBI_CLOCK_PAGE`. -/
def clockPage : UInt8 := 0x79

def vbiIsBcd (bcd : Nat) : Bool :=
  ((0x06666666 + bcd) ^^^ (bcd ^^^ 0x06666666)) &&& 0x11111110 == 0

def vbiBcdDigitsGreater (bcd maximum : Nat) : Bool :=
  let inverse := maximum ^^^ 0xFFFFFFFF
  ((inverse + bcd) ^^^ bcd ^^^ inverse) &&& 0x11111110 != 0

def pageLinkSize : Nat := 12
def lopSize : Nat := 26 * 40 + 36 * pageLinkSize + 4
def enhancementSize : Nat := 209 * 3
def extensionSize : Nat := 40 + 42 + 2 + 40 * 4
def enhLopSize : Nat := lopSize + enhancementSize + 1
def extLopSize : Nat := lopSize + enhancementSize + 1 + extensionSize
def popSize : Nat := 96 * 2 + 508 * 3
def drcsSize : Nat := lopSize + 48 * 60 + 48 + 4 + 8
def aitSize : Nat := 46 * (pageLinkSize + 12) + 4

def headerSize : Nat := 88

def sizeofCachePage : Nat := headerSize + drcsSize

def cachePageSize (cp : TtxPage) : Nat :=
  match cp.function with
  | .unknown | .lop =>
    if cp.x28Designations &&& 0x13 ≠ 0 then headerSize + extLopSize
    else if cp.x26Designations ≠ 0 then headerSize + enhLopSize
    else headerSize + lopSize
  | .gpop | .pop => headerSize + popSize
  | .gdrcs | .drcs => headerSize + drcsSize
  | .ait => headerSize + aitSize
  | _ => sizeofCachePage

theorem cachePageSize_le (cp : TtxPage) : cachePageSize cp ≤ sizeofCachePage := by
  simp only [cachePageSize]
  split
  case h_1 | h_2 =>
    split
    · decide
    split <;> decide
  all_goals decide

/-- Four of the smallest pages take more room than one of the largest. -/
theorem le_cachePageSize (cp : TtxPage) : sizeofCachePage ≤ 4 * cachePageSize cp := by
  simp only [cachePageSize]
  split
  case h_1 | h_2 =>
    split
    · decide
    split <;> decide
  all_goals decide

def hashOf (pgno : Nat) : Nat := pgno % hashSize

def unlinkHash (ca : VbiCache) (pgno : Nat) (a : Addr) : VbiCache :=
  { ca with hash := Function.update ca.hash (hashOf pgno) ((ca.hash (hashOf pgno)).erase a) }

def addHeadHash (ca : VbiCache) (pgno : Nat) (a : Addr) : VbiCache :=
  { ca with hash := Function.update ca.hash (hashOf pgno) (a :: ca.hash (hashOf pgno)) }

def unlinkPri (ca : VbiCache) (a : Addr) : VbiCache :=
  { ca with priority := ca.priority.erase a, referenced := ca.referenced.erase a }

def setPage (ca : VbiCache) (a : Addr) (cp : CachePage) : VbiCache :=
  { ca with pages := ca.pages.insert a cp }

def setNetwork (ca : VbiCache) (n : Addr) (cn : CacheNetwork) : VbiCache :=
  { ca with networkRecords := ca.networkRecords.insert n cn }

/-- The page numbers `cache_network_page_stat()` accepts. -/
def validPgno (pgno : Nat) : Prop := 0x100 ≤ pgno ∧ pgno ≤ 0x8FF

instance (pgno : Nat) : Decidable (validPgno pgno) := inferInstanceAs (Decidable (_ ∧ _))

def removeSubpage (ps : PageStat) : PageStat := { ps with nSubpages := ps.nSubpages - 1 }

def addSubpage (ps : PageStat) (subno : Nat) : PageStat :=
  let n := ps.nSubpages + 1
  { ps with
    nSubpages := n
    maxSubpages := if n > ps.maxSubpages then n else ps.maxSubpages
    subnoMin :=
      if ps.subnoMin = 0 ∨ subno < ps.subnoMin.toNat then UInt8.ofNat subno else ps.subnoMin
    subnoMax := if subno > ps.subnoMax.toNat then UInt8.ofNat subno else ps.subnoMax }

def cacheNetworkRemovePage (ca : VbiCache) (cp : CachePage) : Option VbiCache := do
  let cn ← ca.networkRecords.lookup cp.network
  if validPgno cp.pgno then
    some (setNetwork ca cp.network { cn with
      nCachedPages := cn.nCachedPages - 1
      pageStat := Function.update cn.pageStat cp.pgno (removeSubpage (cn.pageStat cp.pgno)) })
  else none

def revive (ca : VbiCache) (n : Addr) (cn : CacheNetwork) : VbiCache × CacheNetwork :=
  if cn.zombie then
    let cn := { cn with zombie := false }
    ({ setNetwork ca n cn with nCachedNetworks := ca.nCachedNetworks + 1 }, cn)
  else (ca, cn)

/-- `cache_network_add_page()`, the network of the page already set. -/
def cacheNetworkAddPage (ca : VbiCache) (n : Addr) (cp : TtxPage) : Option VbiCache := do
  let cn ← ca.networkRecords.lookup n
  let (ca, cn) := revive ca n cn
  if validPgno cp.pgno then
    let cached := cn.nCachedPages + 1
    some (setNetwork ca n { cn with
      nCachedPages := cached
      maxCachedPages := if cached > cn.maxCachedPages then cached else cn.maxCachedPages
      pageStat :=
        Function.update cn.pageStat cp.pgno (addSubpage (cn.pageStat cp.pgno) cp.subno) })
  else none

/-- `delete_page()`. A referenced page becomes a zombie. -/
def deletePage (ca : VbiCache) (a : Addr) : Option VbiCache := do
  let cp ← ca.pages.lookup a
  if cp.refCount > 0 then
    if cp.priority ≠ .zombie then
      some (setPage (unlinkHash ca cp.pgno a) a { cp with priority := .zombie })
    else some ca
  else
    let ca :=
      if cp.priority ≠ .zombie then
        unlinkHash { ca with
          memoryUsed := ca.memoryUsed - BitVec.ofNat 64 (cachePageSize cp.toTtxPage) } cp.pgno a
      else ca
    let ca ← cacheNetworkRemovePage (unlinkPri ca a) cp
    some { ca with pages := ca.pages.erase a, nCachedPages := ca.nCachedPages - 1 }

/-- `delete_all_pages()` of one network. -/
def deleteAllPages (ca : VbiCache) (n : Addr) : Option VbiCache :=
  ca.priority.foldlM (fun ca a => do
    let cp ← ca.pages.lookup a
    if cp.network = n then deletePage ca a else some ca) ca

/-- One of the loops of `delete_surplus_pages()`. After the return inside of it
the remaining loops would do nothing either. -/
def surplusPass (unreferencedOnly : Bool) (pri : CachePriority) (ca : VbiCache) :
    Option VbiCache :=
  ca.priority.foldlM (fun ca a => do
    if ca.memoryUsed ≤ ca.memoryLimit then some ca
    else
      let cp ← ca.pages.lookup a
      let cn ← ca.networkRecords.lookup cp.network
      if cp.priority = pri ∧ (unreferencedOnly → cn.refCount = 0) then deletePage ca a
      else some ca) ca

def deleteSurplusPages (ca : VbiCache) : Option VbiCache := do
  let ca ← surplusPass true .normal ca
  let ca ← surplusPass true .special ca
  let ca ← surplusPass false .normal ca
  surplusPass false .special ca

def deletePagesOf (ca : VbiCache) (n : Addr) (cn : CacheNetwork) : Option VbiCache :=
  if cn.nCachedPages > 0 then deleteAllPages ca n else some ca

def deleteNetwork (ca : VbiCache) (n : Addr) : Option VbiCache := do
  let cn ← ca.networkRecords.lookup n
  let ca ← deletePagesOf ca n cn
  let cn ← ca.networkRecords.lookup n
  let ca :=
    if cn.zombie then ca else { ca with nCachedNetworks := ca.nCachedNetworks - 1 }
  if cn.refCount > 0 ∨ cn.nReferencedPages > 0 then
    some (setNetwork ca n { cn with zombie := true })
  else
    some { ca with
      networks := ca.networks.erase n
      networkRecords := ca.networkRecords.erase n }

def deleteSurplusNetworks (ca : VbiCache) : Option VbiCache :=
  ca.networks.reverse.foldlM (fun ca n => do
    let cn ← ca.networkRecords.lookup n
    if cn.refCount > 0 ∨ cn.nReferencedPages > 0 then some ca
    else if cn.zombie ∨ ca.nCachedNetworks > ca.nNetworksLimit then deleteNetwork ca n
    else some ca) ca

/-- `network_by_id()`. A network is only found by the address of the
`vbi_network` in its record. -/
def networkById (ca : VbiCache) (nk : Addr) : Option (VbiCache × Addr) :=
  if nk ∈ ca.networks then some ({ ca with networks := nk :: ca.networks.erase nk }, nk) else none

def idle (ca : VbiCache) (n : Addr) : Bool :=
  match ca.networkRecords.lookup n with
  | some cn => cn.refCount = 0 ∧ cn.nReferencedPages = 0
  | none => false

def recycleNetwork (ca : VbiCache) : Option (VbiCache × Option Addr) :=
  match ca.networks.reverse.find? (idle ca) with
  | none => some (ca, none)
  | some n => do
    let cn ← ca.networkRecords.lookup n
    let ca ← deletePagesOf ca n cn
    let cn ← ca.networkRecords.lookup n
    some (setNetwork { ca with networks := ca.networks.erase n } n { cn with
      refCount := 0
      zombie := false
      nCachedPages := 0
      maxCachedPages := 0
      nReferencedPages := 0 }, some n)

def allocateNetwork (ca : VbiCache) (memory : Bool) : VbiCache × Option Addr :=
  if memory then
    ({ setNetwork ca ca.top CacheNetwork.clear with
        nCachedNetworks := ca.nCachedNetworks + 1
        top := ca.top + 1 }, some ca.top)
  else (ca, none)

def enlist : VbiCache × Option Addr → VbiCache × Option Addr
  | (ca, some n) => ({ ca with networks := n :: ca.networks }, some n)
  | (ca, none) => (ca, none)

/-- `add_network()` for a network which was not found. -/
def addNewNetwork (ca : VbiCache) (memory : Bool) : Option (VbiCache × Option Addr) :=
  if ca.nCachedNetworks < ca.nNetworksLimit then some (enlist (allocateNetwork ca memory))
  else do
    match ← recycleNetwork ca with
    | (ca, none) => some (enlist (allocateNetwork ca memory))
    | recycled => some (enlist recycled)

/-- `add_network()`. -/
def addNetwork (ca : VbiCache) (nk : Option Addr) (memory : Bool) :
    Option (VbiCache × Option Addr) :=
  match nk.bind (networkById ca) with
  | some (ca, n) => some (ca, some n)
  | none => addNewNetwork ca memory

def cacheNetworkRef (ca : VbiCache) (n : Addr) : Option VbiCache := do
  let cn ← ca.networkRecords.lookup n
  some (setNetwork ca n { cn with refCount := (cn.refCount + 1) % 2 ^ 32 })

def vbiCacheAddNetwork (ca : VbiCache) (nk : Option Addr) (memory : Bool) :
    Option (VbiCache × Option Addr) := do
  match ← addNetwork ca nk memory with
  | (ca, some n) => (cacheNetworkRef ca n).map fun ca => (ca, some n)
  | failed => some failed

def vbiCacheGetNetwork (ca : VbiCache) (nk : Addr) : Option (VbiCache × Option Addr) :=
  match networkById ca nk with
  | some (ca, n) => do
    let cn ← ca.networkRecords.lookup n
    (cacheNetworkRef (revive ca n cn).1 n).map fun ca => (ca, some n)
  | none => some (ca, none)

def cacheNetworkUnref (ca : VbiCache) (n : Addr) : Option VbiCache := do
  let cn ← ca.networkRecords.lookup n
  if cn.refCount = 0 then some ca
  else if cn.refCount = 1 then deleteSurplusNetworks (setNetwork ca n { cn with refCount := 0 })
  else some (setNetwork ca n { cn with refCount := cn.refCount - 1 })

def cachePageRef (ca : VbiCache) (a : Addr) : Option VbiCache := do
  let cp ← ca.pages.lookup a
  let ca ← if cp.refCount = 0 then do
      let cn ← ca.networkRecords.lookup cp.network
      let (ca, cn) := revive ca cp.network cn
      let ca := setNetwork ca cp.network { cn with nReferencedPages := cn.nReferencedPages + 1 }
      let ca := unlinkPri { ca with
        memoryUsed := ca.memoryUsed - BitVec.ofNat 64 (cachePageSize cp.toTtxPage) } a
      some { ca with referenced := ca.referenced ++ [a] }
    else some ca
  some (setPage ca a { cp with refCount := (cp.refCount + 1) % 2 ^ 32 })

/-- `cache_page_unref()` for the last reference. -/
def pageRelease (ca : VbiCache) (a : Addr) (cp : CachePage) : Option VbiCache := do
  let ca := setPage ca a { cp with refCount := 0 }
  let ca ← if cp.priority = .zombie then deletePage ca a
    else
      let ca := unlinkPri ca a
      some { ca with
        priority := ca.priority ++ [a]
        memoryUsed := ca.memoryUsed + BitVec.ofNat 64 (cachePageSize cp.toTtxPage) }
  let cn ← ca.networkRecords.lookup cp.network
  let cn := { cn with nReferencedPages := cn.nReferencedPages - 1 }
  let ca := setNetwork ca cp.network cn
  let ca ← if cn.zombie ∧ cn.nReferencedPages = 0 ∧ cn.refCount = 0 then
      deleteNetwork ca cp.network
    else some ca
  if ca.memoryUsed > ca.memoryLimit then deleteSurplusPages ca else some ca

def cachePageUnref (ca : VbiCache) (a : Addr) : Option VbiCache := do
  let cp ← ca.pages.lookup a
  if cp.refCount = 0 then some ca
  else if cp.refCount = 1 then pageRelease ca a cp
  else some (setPage ca a { cp with refCount := cp.refCount - 1 })

/-- The page is one `page_by_pgno()` looks for. -/
def matchesPage (ca : VbiCache) (n : Addr) (pgno subno mask : Nat) (a : Addr) : Bool :=
  match ca.pages.lookup a with
  | some cp => cp.pgno = pgno ∧ cp.subno &&& mask = subno &&& mask ∧ cp.network = n
  | none => false

/-- `page_by_pgno()`. A page found moves to the head of its chain. -/
def pageByPgno (ca : VbiCache) (n : Addr) (pgno subno mask : Nat) : VbiCache × Option Addr :=
  match (ca.hash (hashOf pgno)).find? (matchesPage ca n pgno subno mask) with
  | some a => (addHeadHash (unlinkHash ca pgno a) pgno a, some a)
  | none => (ca, none)

/-- `_vbi_cache_get_page()`. -/
def vbiCacheGetPage (ca : VbiCache) (n : Addr) (pgno subno mask : Nat) :
    Option (VbiCache × Option Addr) :=
  if pgno < 0x100 ∨ pgno > 0x8FF ∨ pgno &&& 0xFF = 0xFF then some (ca, none)
  else
    let mask := if subno = anySubno then 0 else mask
    match pageByPgno ca n pgno subno mask with
    | (ca, none) => some (ca, none)
    | (ca, some a) => (cachePageRef ca a).map fun ca => (ca, some a)

/-- The subpage number stored for a page of decimal number, and the bits of it
which tell versions of the page apart. -/
def versionOf (pageType : UInt8) (subno : Nat) : Nat × Nat :=
  if pageType = clockPage ∨ subno ≥ 0x100 then
    -- a clock page or a rolling page without subpages, one version
    if vbiBcdDigitsGreater subno 0x2959 ∨ subno > 0x2300 then (0, 0) else (subno, 0)
  else if vbiBcdDigitsGreater subno 0x79 then (0, 0)
  else (subno, 0xFF)

/-- Stored subpage number and mask of a page. -/
def storedSubno (ca : VbiCache) (n : Addr) (cp : TtxPage) : Option (Nat × Nat) :=
  if vbiIsBcd cp.pgno then
    if cp.subno = 0 then some (0, 0)
    else do
      let cn ← ca.networkRecords.lookup n
      if validPgno cp.pgno then some (versionOf (cn.pageStat cp.pgno).pageType cp.subno) else none
  else some (cp.subno, 0x0F)

def retire (ca : VbiCache) (found : Option Addr) : Option (VbiCache × Option Addr) :=
  match found with
  | none => some (ca, none)
  | some a => do
    let old ← ca.pages.lookup a
    if old.refCount > 0 then
      some (setPage (unlinkHash ca old.pgno a) a { old with priority := .zombie }, none)
    else some (ca, some a)

/-- `death_row` and `memory_available`. `enough` is set by the jump to the
replacement. -/
structure DeathRow where
  available : Int
  row : List Addr
  enough : Bool
  deriving DecidableEq

def condemn (ca : VbiCache) (needed : Int) (old : Option Addr) (unreferencedOnly : Bool)
    (pri : CachePriority) (r : DeathRow) (a : Addr) : Option DeathRow :=
  if r.enough then some r
  else if r.available ≥ needed then some { r with enough := true }
  else do
    let cp ← ca.pages.lookup a
    let cn ← ca.networkRecords.lookup cp.network
    if cp.priority ≠ pri ∨ (unreferencedOnly ∧ cn.refCount > 0) ∨ old = some a then some r
    else if r.row.length < deathRowSize then
      some { r with available := r.available + cachePageSize cp.toTtxPage, row := r.row ++ [a] }
    else none

def deathPass (ca : VbiCache) (needed : Int) (old : Option Addr) (unreferencedOnly : Bool)
    (pri : CachePriority) (r : DeathRow) : Option DeathRow :=
  ca.priority.foldlM (condemn ca needed old unreferencedOnly pri) r

def firstVictim (ca : VbiCache) (needed : Int) (old : Option Addr) : Option DeathRow := do
  let available := (ca.memoryLimit - ca.memoryUsed).toInt
  match old with
  | none => some ⟨available, [], available ≥ needed⟩
  | some a =>
    let cp ← ca.pages.lookup a
    let available := available + cachePageSize cp.toTtxPage
    some ⟨available, [a], available ≥ needed⟩

def deathRow (ca : VbiCache) (needed : Int) (old : Option Addr) : Option DeathRow := do
  let r ← firstVictim ca needed old
  let r ← deathPass ca needed old true .normal r
  let r ← deathPass ca needed old true .special r
  let r ← deathPass ca needed old false .normal r
  deathPass ca needed old false .special r

/-- Take the block of a page for another page. The record stays on the heap until
it is overwritten. -/
def reusePage (ca : VbiCache) (needed : Nat) (a : Addr) : Option (VbiCache × Addr × Nat) := do
  let old ← ca.pages.lookup a
  let ca ← cacheNetworkRemovePage (unlinkHash (unlinkPri ca a) old.pgno a) old
  some ({ ca with memoryUsed := ca.memoryUsed - BitVec.ofNat 64 needed }, a, old.room)

def allocatePage (ca : VbiCache) (needed : Nat) (row : List Addr) :
    Option (VbiCache × Addr × Nat) := do
  let a := ca.top
  let ca ← row.foldlM deletePage { ca with top := a + 1 }
  some ({ ca with nCachedPages := ca.nCachedPages + 1 }, a, needed)

def pagePriority (cp : TtxPage) (subno : Nat) : CachePriority :=
  if cp.pgno &&& 0xFF = 0 then .special
  else if cp.pgno >>> 4 = cp.pgno &&& 0xFF then .special
  else if cp.function = .unknown then .normal
  else if cp.function ≠ .lop then .special
  else if vbiIsBcd cp.pgno ∧ subno > 0 ∧ subno ≤ 0x79 then .special
  else .normal

def storedPage (cp : TtxPage) (subno : Nat) : TtxPage :=
  { cp with
    subno := subno
    data := cp.data.take (cachePageSize cp - headerSize) }

def storePage (ca : VbiCache) (n : Addr) (cp : TtxPage) (subno : Nat) (a : Addr) (room : Nat) :
    Option VbiCache := do
  let page : CachePage :=
    { storedPage cp subno with
      network := n
      refCount := 1
      priority := pagePriority cp subno
      room := room }
  let ca := setPage (addHeadHash ca cp.pgno a) a page
  let cn ← ca.networkRecords.lookup n
  let ca := setNetwork ca n { cn with nReferencedPages := cn.nReferencedPages + 1 }
  cacheNetworkAddPage { ca with referenced := ca.referenced ++ [a] } n page.toTtxPage

/-- The part of `_vbi_cache_put_page()` after the search for pages to replace. -/
def replacePages (ca : VbiCache) (n : Addr) (cp : TtxPage) (subno : Nat) (memory : Bool)
    (r : DeathRow) : Option (VbiCache × Option Addr) :=
  let needed := cachePageSize cp
  if r.enough then
    -- usually a single page of same size is replaced
    if r.available = needed ∧ r.row.length = 1 then do
      let (ca, a, room) ← r.row.head?.bind (reusePage ca needed)
      (storePage ca n cp subno a room).map fun ca => (ca, some a)
    else if memory then do
      let (ca, a, room) ← allocatePage ca needed r.row
      (storePage ca n cp subno a room).map fun ca => (ca, some a)
    else some (ca, none)
  else some (ca, none)

/-- `_vbi_cache_put_page()`. `memory` tells if `malloc()` succeeds. -/
def vbiCachePutPage (ca : VbiCache) (n : Addr) (cp : TtxPage) (memory : Bool) :
    Option (VbiCache × Option Addr) :=
  if cp.pgno &&& 0xFF = 0xFF then some (ca, none)
  else do
    let (subno, mask) ← storedSubno ca n cp
    let (ca, found) := pageByPgno ca n cp.pgno (subno &&& mask) mask
    let (ca, old) ← retire ca found
    let r ← deathRow ca (cachePageSize cp) old
    replacePages ca n cp subno memory r

/-- `vbi_cache_new()` with another memory limit, which
`vbi_cache_set_memory_limit()` keeps between 1 KiB and 1 GiB. -/
def vbiCacheNew (memoryLimit : Nat) : VbiCache where
  pages := ∅
  networkRecords := ∅
  hash := fun _ => []
  priority := []
  referenced := []
  networks := []
  nCachedPages := 0
  memoryUsed := 0
  memoryLimit := BitVec.ofNat 64 (max (2 ^ 10) (min memoryLimit (2 ^ 30)))
  nCachedNetworks := 0
  nNetworksLimit := 1
  top := 0

/-- Calls of the cache. Those which allocate come with the success of `malloc()`.
Between calls the decoder sets page types. -/
inductive Op
  | putPage (n : Addr) (cp : TtxPage) (memory : Bool)
  | getPage (n : Addr) (pgno subno mask : Nat)
  | pageRef (a : Addr)
  | pageUnref (a : Addr)
  | addNetwork (nk : Option Addr) (memory : Bool)
  | getNetwork (nk : Addr)
  | networkRef (n : Addr)
  | networkUnref (n : Addr)
  | setPageType (n : Addr) (pgno : Nat) (pageType : UInt8)

def setPageType (ca : VbiCache) (n : Addr) (pgno : Nat) (pageType : UInt8) : Option VbiCache := do
  let cn ← ca.networkRecords.lookup n
  some (setNetwork ca n { cn with
    pageStat := Function.update cn.pageStat pgno { cn.pageStat pgno with pageType := pageType } })

def call (ca : VbiCache) : Op → Option (VbiCache × Option Addr)
  | .putPage n cp memory => vbiCachePutPage ca n cp memory
  | .getPage n pgno subno mask => vbiCacheGetPage ca n pgno subno mask
  | .pageRef a => (cachePageRef ca a).map fun ca => (ca, some a)
  | .pageUnref a => (cachePageUnref ca a).map fun ca => (ca, none)
  | .addNetwork nk memory => vbiCacheAddNetwork ca nk memory
  | .getNetwork nk => vbiCacheGetNetwork ca nk
  | .networkRef n => (cacheNetworkRef ca n).map fun ca => (ca, some n)
  | .networkUnref n => (cacheNetworkUnref ca n).map fun ca => (ca, none)
  | .setPageType n pgno pageType => (setPageType ca n pgno pageType).map fun ca => (ca, none)

def step (ca : VbiCache) (op : Op) : Option VbiCache := (call ca op).map Prod.fst

end PageCache

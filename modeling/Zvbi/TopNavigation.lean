import Zvbi.PageCacheLending
import Zvbi.PageCacheRuns

/-!
# TOP navigation

Pages with additional information tables (AIT) list titles of pages. `next_ait()` looks for
the first title behind a page, and holds a reference to the AIT page with the best title so
far. It gives a reference back for each better title, also for one on the same page, and none
for an AIT page without a better title. So it keeps a reference to such a page for ever.
-/

namespace TopNavigation
open RecordHeap PageCache PageCacheAccounts PageCacheReferences PageCacheCounts
open PageCacheLending PageCacheEviction PageCachePut PageCacheRuns GuardedRuns

/-- `ttx_page_link`. -/
structure PageLink where
  function : PageFunction
  pgno : Nat
  subno : Nat

structure PageKey where
  pgno : Int
  subno : Int
  deriving DecidableEq

/-- `ttx_ait_title`. -/
structure AitTitle where
  link : PageKey
  text : List UInt8
  deriving DecidableEq

/-- An `int` of four bytes. -/
def int32 (data : List UInt8) (i : Nat) : Int :=
  (BitVec.ofNat 32 ((data.getD i 0).toNat + (data.getD (i + 1) 0).toNat * 0x100 +
    (data.getD (i + 2) 0).toNat * 0x10000 + (data.getD (i + 3) 0).toNat * 0x1000000)).toInt

/-- `data.ait.title[j]`, a link with a function, and 12 characters. -/
def aitTitle (data : List UInt8) (j : Nat) : AitTitle :=
  ⟨⟨int32 data (24 * j + 4), int32 data (24 * j + 8)⟩, (data.drop (24 * j + 12)).take 12⟩

def PageKey.le (a b : PageKey) : Bool :=
  a.pgno < b.pgno || (a.pgno = b.pgno && a.subno ≤ b.subno)

def PageKey.gt (a b : PageKey) : Bool :=
  a.pgno > b.pgno || (a.pgno = b.pgno && a.subno > b.subno)

/-- The variables of `next_ait()`: the cache, `mait`, `mpgno` and `msubno`, and `mvtp`. -/
structure Search where
  ca : VbiCache
  mait : Option AitTitle
  best : PageKey
  mvtp : Option Addr

def unrefBest (ca : VbiCache) : Option Addr → Option VbiCache
  | none => some ca
  | some a => cachePageUnref ca a

def scanTitles (start : PageKey) (vtp : Addr) : List Nat → Search → Option Search
  | [], s => some s
  | j :: js, s =>
    (s.ca.pages.lookup vtp).bind fun cp =>
      let ait := aitTitle cp.data j
      if ait.link.pgno = 0 then some s
      else if ait.link.le start then scanTitles start vtp js s
      else if ait.link.gt s.best then scanTitles start vtp js s
      else
        (unrefBest s.ca s.mvtp).bind fun ca =>
          scanTitles start vtp js ⟨ca, some ait, ait.link, some vtp⟩

def scanLink (n : Addr) (start : PageKey) (s : Search) (link : PageLink) : Option Search :=
  if link.function = .ait then
    (vbiCacheGetPage s.ca n link.pgno link.subno 0x3F7F).bind fun r =>
      match r.2 with
      | none => some { s with ca := r.1 }
      | some vtp =>
        (r.1.pages.lookup vtp).bind fun cp =>
          if cp.function ≠ .ait then
            (cachePageUnref r.1 vtp).map fun ca => { s with ca := ca }
          else
            scanTitles start vtp (List.range 46) { s with ca := r.1 }
  else
    some s

/-- `mpgno` and `msubno` before the search. -/
def lastKey : PageKey := ⟨0xFFF, 0xFFFF⟩

/-- The links `next_ait()` follows. -/
def bttLinks (bttLink : Nat → PageLink) : List PageLink := (List.range 8).map bttLink

def nextAit (ca : VbiCache) (n : Addr) (bttLink : Nat → PageLink) (start : PageKey) :
    Option Search :=
  (bttLinks bttLink).foldlM (scanLink n start) ⟨ca, none, lastKey, none⟩

/-- If a title is shown by `top_index()`, and the subpages and lines which are left. -/
def topLine (subno lines : Int) : Bool × Int × Int :=
  if 0 < subno then
    if lines = 0 then (false, subno - 1, 17) else (false, subno, lines - 1)
  else
    (0 < lines, subno, lines - 1)

/-- The loop of `top_index()`: the cache, and the titles which are shown. -/
def topIndex (n : Addr) (bttLink : Nat → PageLink) :
    Nat → VbiCache → Int → Int → PageKey → Option (VbiCache × List AitTitle)
  | 0, _, _, _, _ => none
  | fuel + 1, ca, subno, lines, start =>
    (nextAit ca n bttLink start).bind fun s =>
      match s.mait with
      | none => some (s.ca, [])
      | some ait =>
        (unrefBest s.ca s.mvtp).bind fun ca =>
          let r := topLine subno lines
          (topIndex n bttLink fuel ca r.2.1 r.2.2 ait.link).map fun p =>
            (p.1, if r.1 then ait :: p.2 else p.2)

def titles (cp : CachePage) (js : List Nat) : List AitTitle :=
  (js.map (aitTitle cp.data)).takeWhile fun t => t.link.pgno ≠ 0

def titlesAt (ca : VbiCache) (a : Addr) : List AitTitle :=
  ((ca.pages.lookup a).map fun cp => titles cp (List.range 46)).getD []

def isAit (ca : VbiCache) (a : Addr) : Bool :=
  (ca.pages.lookup a).any fun cp => cp.function = .ait

def follow (n : Addr) (ca : VbiCache) (link : PageLink) : VbiCache × Option Addr :=
  if link.function = .ait then
    let r := locate ca n link.pgno link.subno 0x3F7F
    (r.1, r.2.filter (isAit ca))
  else
    (ca, none)

def aitPages (n : Addr) : VbiCache → List PageLink → List Addr
  | _, [] => []
  | ca, link :: links => (follow n ca link).2.toList ++ aitPages n (follow n ca link).1 links

def improvements (start : PageKey) : PageKey → List AitTitle → List AitTitle
  | _, [] => []
  | best, t :: ts =>
    if t.link.le start then improvements start best ts
    else if t.link.gt best then improvements start best ts
    else t :: improvements start t.link ts

def lastBest (best : PageKey) (ts : List AitTitle) : PageKey :=
  (ts.getLast?.map AitTitle.link).getD best

def improvementsOf (start : PageKey) (ca : VbiCache) : PageKey → List Addr → List (List AitTitle)
  | _, [] => []
  | best, a :: pages =>
    let ts := improvements start best (titlesAt ca a)
    ts :: improvementsOf start ca (lastBest best ts) pages

structure Answer (ca : VbiCache) (start : PageKey) (pages : List Addr) (s : Search) : Prop where
  refs : pageRefs s.ca = more (pageRefs ca) s.mvtp
  nothing : s.mait = none → s.mvtp = none ∧
    ∀ a ∈ pages, ∀ u ∈ titlesAt ca a, u.link.le start = false → u.link.gt lastKey = true
  found : ∀ t, s.mait = some t → t.link.le start = false ∧
    (∃ a ∈ pages, s.mvtp = some a ∧ t ∈ titlesAt ca a) ∧
    ∀ a ∈ pages, ∀ u ∈ titlesAt ca a, u.link.le start = false → t.link.gt u.link = false

def NextAitRight (ca : VbiCache) (n : Addr) (bttLink : Nat → PageLink) (start : PageKey) : Prop :=
  ∃ s, nextAit ca n bttLink start = some s ∧ Answer ca start (aitPages n ca (bttLinks bttLink)) s

/-- `top_index()` returns, and its subpages show each title once in ascending order. -/
def TopIndexRight (ca : VbiCache) (n : Addr) (bttLink : Nat → PageLink) : Prop :=
  ∃ shown : Nat → List AitTitle,
    (∀ subno : Nat, ∃ fuel t, topIndex n bttLink fuel ca subno 17 ⟨0, 0⟩ = some (t, shown subno) ∧
      pageRefs t = pageRefs ca ∧ (shown subno).Pairwise fun t u => u.link.gt t.link = true) ∧
    ∀ a ∈ aitPages n ca (bttLinks bttLink), ∀ t ∈ titlesAt ca a, ∃! subno, t ∈ shown subno

def Navigates (ca : VbiCache) (n : Addr) (bttLink : Nat → PageLink) : Prop :=
  (∀ start, NextAitRight ca n bttLink start) ∧ TopIndexRight ca n bttLink

variable {b start : PageKey} {ca v : VbiCache} {s : Search} {seen leaks : List Addr} {a n : Addr}

theorem gt_iff {a : PageKey} :
    a.gt b = true ↔ b.pgno < a.pgno ∨ (a.pgno = b.pgno ∧ b.subno < a.subno) := by
  simp [PageKey.gt]

theorem le_iff {a : PageKey} :
    a.le b = true ↔ a.pgno < b.pgno ∨ (a.pgno = b.pgno ∧ a.subno ≤ b.subno) := by
  simp [PageKey.le]

theorem gt_false_iff {a : PageKey} :
    a.gt b = false ↔ ¬ (b.pgno < a.pgno ∨ (a.pgno = b.pgno ∧ b.subno < a.subno)) := by
  rw [← gt_iff, Bool.not_eq_true]

theorem not_gt_self (a : PageKey) : a.gt a = false := by
  rw [gt_false_iff]
  omega

theorem not_gt_trans {a c : PageKey} (hab : a.gt b = false) (hbc : b.gt c = false) :
    a.gt c = false := by
  rw [gt_false_iff] at *
  omega

theorem not_gt_of_gt {a : PageKey} (h : a.gt b = true) : b.gt a = false := by
  rw [gt_false_iff]
  rw [gt_iff] at h
  omega

structure Improved (start best : PageKey) (ts im : List AitTitle) : Prop where
  mem : ∀ t ∈ im, t ∈ ts ∧ t.link.le start = false
  within : (lastBest best im).gt best = false
  least : ∀ u ∈ ts, u.link.le start = false → (lastBest best im).gt u.link = false
  idle : im = [] → ∀ u ∈ ts, u.link.le start = false → u.link.gt best = true

theorem lastBest_cons (best : PageKey) (t : AitTitle) (ts : List AitTitle) :
    lastBest best (t :: ts) = lastBest t.link ts := by
  cases ts with
  | nil => rfl
  | cons u ts =>
    rw [lastBest, lastBest, List.getLast?_cons_cons, List.getLast?_cons, Option.map_some,
      Option.getD_some, Option.getD_some]

theorem improvements_improved (start best : PageKey) (ts : List AitTitle) :
    Improved start best ts (improvements start best ts) := by
  induction ts generalizing best with
  | nil =>
    exact ⟨fun t ht => absurd ht List.not_mem_nil, not_gt_self best,
      fun u hu => absurd hu List.not_mem_nil, fun _ u hu => absurd hu List.not_mem_nil⟩
  | cons t ts ih =>
    rw [improvements]
    by_cases hle : t.link.le start = true
    · rw [if_pos hle]
      obtain ⟨hmem, hwithin, hleast, hidle⟩ := ih best
      have hlater : ∀ u ∈ t :: ts, u.link.le start = false → u ∈ ts := by
        intro u hu hbehind
        rcases List.mem_cons.mp hu with rfl | hu
        · rw [hle] at hbehind
          cases hbehind
        · exact hu
      exact ⟨fun u hu => ⟨List.mem_cons_of_mem t (hmem u hu).1, (hmem u hu).2⟩, hwithin,
        fun u hu hbehind => hleast u (hlater u hu hbehind) hbehind,
        fun hnone u hu hbehind => hidle hnone u (hlater u hu hbehind) hbehind⟩
    · rw [if_neg hle]
      by_cases hgt : t.link.gt best = true
      · rw [if_pos hgt]
        obtain ⟨hmem, hwithin, hleast, hidle⟩ := ih best
        refine ⟨fun u hu => ⟨List.mem_cons_of_mem t (hmem u hu).1, (hmem u hu).2⟩, hwithin,
          fun u hu hbehind => ?_, fun hnone u hu hbehind => ?_⟩
        · rcases List.mem_cons.mp hu with rfl | hu
          · exact not_gt_trans hwithin (not_gt_of_gt hgt)
          · exact hleast u hu hbehind
        · rcases List.mem_cons.mp hu with rfl | hu
          · exact hgt
          · exact hidle hnone u hu hbehind
      · rw [if_neg hgt]
        rw [Bool.not_eq_true] at hle hgt
        obtain ⟨hmem, hwithin, hleast, -⟩ := ih t.link
        refine ⟨fun u hu => ?_, ?_, fun u hu hbehind => ?_, fun hnone => ?_⟩
        · rcases List.mem_cons.mp hu with rfl | hu
          · exact ⟨List.mem_cons_self, hle⟩
          · exact ⟨List.mem_cons_of_mem t (hmem u hu).1, (hmem u hu).2⟩
        · rw [lastBest_cons]
          exact not_gt_trans hwithin hgt
        · rw [lastBest_cons]
          rcases List.mem_cons.mp hu with rfl | hu
          · exact hwithin
          · exact hleast u hu hbehind
        · cases hnone

structure Found (ca : VbiCache) (start : PageKey) (seen : List Addr) (s : Search) : Prop where
  within : s.best.gt lastKey = false
  nothing : s.mait = none → s.best = lastKey ∧ s.mvtp = none ∧
    ∀ a ∈ seen, ∀ u ∈ titlesAt ca a, u.link.le start = false → u.link.gt lastKey = true
  found : ∀ t, s.mait = some t → s.best = t.link ∧ t.link.le start = false ∧
    ∃ a ∈ seen, s.mvtp = some a ∧ t ∈ titlesAt ca a
  least : ∀ a ∈ seen, ∀ u ∈ titlesAt ca a, u.link.le start = false → s.best.gt u.link = false

theorem Found.recached (h : Found ca start seen s) (t : VbiCache) :
    Found ca start seen { s with ca := t } :=
  ⟨h.within, h.nothing, h.found, h.least⟩

theorem Found.idle (h : Found ca start seen s)
    (hnone : improvements start s.best (titlesAt ca a) = []) :
    Found ca start (seen ++ [a]) s := by
  have hidle := (improvements_improved start s.best (titlesAt ca a)).idle hnone
  refine ⟨h.within, fun hmait => ?_, fun t ht => ?_, fun b hb u hu hbehind => ?_⟩
  · obtain ⟨hbest, hmvtp, hseen⟩ := h.nothing hmait
    refine ⟨hbest, hmvtp, fun b hb u hu hbehind => ?_⟩
    rcases List.mem_append.mp hb with hb | hb
    · exact hseen b hb u hu hbehind
    · obtain rfl := List.mem_singleton.mp hb
      exact hbest ▸ hidle u hu hbehind
  · obtain ⟨hbest, hbehind, b, hb, hmvtp, hin⟩ := h.found t ht
    exact ⟨hbest, hbehind, b, List.mem_append_left [a] hb, hmvtp, hin⟩
  · rcases List.mem_append.mp hb with hb | hb
    · exact h.least b hb u hu hbehind
    · obtain rfl := List.mem_singleton.mp hb
      exact not_gt_of_gt (hidle u hu hbehind)

variable {x : AitTitle} {cp : CachePage} {vtp : Addr} {t : VbiCache} {link : PageLink}
  {bttLink : Nat → PageLink}

theorem Found.improve (h : Found ca start seen s)
    (hone : improvements start s.best (titlesAt ca a) = [x]) (t : VbiCache) :
    Found ca start (seen ++ [a]) ⟨t, some x, x.link, some a⟩ := by
  have himproved := improvements_improved start s.best (titlesAt ca a)
  rw [hone] at himproved
  obtain ⟨hmem, hwithin, hleast, -⟩ := himproved
  obtain ⟨hx, hbehind⟩ := hmem x List.mem_cons_self
  have hbetter : x.link.gt s.best = false := hwithin
  refine ⟨not_gt_trans hbetter h.within, fun hmait => ?_, fun u hu => ?_,
    fun b hb u hu hbehind => ?_⟩
  · cases hmait
  · obtain rfl := Option.some.inj hu
    exact ⟨rfl, hbehind, a, List.mem_append_right seen (List.mem_singleton_self a), rfl, hx⟩
  · rcases List.mem_append.mp hb with hb | hb
    · exact not_gt_trans hbetter (h.least b hb u hu hbehind)
    · obtain rfl := List.mem_singleton.mp hb
      exact hleast u hu hbehind

theorem titles_cons (cp : CachePage) (j : Nat) (js : List Nat) :
    titles cp (j :: js) =
      if (aitTitle cp.data j).link.pgno = 0 then [] else aitTitle cp.data j :: titles cp js := by
  rw [titles, List.map_cons, List.takeWhile_cons]
  by_cases hempty : (aitTitle cp.data j).link.pgno = 0
  · rw [if_pos hempty, if_neg (by rw [decide_eq_true_iff]; exact not_not_intro hempty)]
  · rw [if_neg hempty, if_pos (decide_eq_true hempty)]
    rfl

/-- A page without a better title changes nothing. -/
theorem scanTitles_idle (hvtp : s.ca.pages.lookup vtp = some cp) (js : List Nat)
    (hnone : improvements start s.best (titles cp js) = []) :
    scanTitles start vtp js s = some s := by
  induction js with
  | nil => rfl
  | cons j js ih =>
    rw [titles_cons] at hnone
    rw [scanTitles, hvtp, Option.bind_some]
    dsimp only
    by_cases hempty : (aitTitle cp.data j).link.pgno = 0
    · rw [if_pos hempty]
    · rw [if_neg hempty, improvements] at hnone
      rw [if_neg hempty]
      by_cases hle : (aitTitle cp.data j).link.le start = true
      · rw [if_pos hle] at hnone ⊢
        exact ih hnone
      · rw [if_neg hle] at hnone ⊢
        by_cases hgt : (aitTitle cp.data j).link.gt s.best = true
        · rw [if_pos hgt] at hnone ⊢
          exact ih hnone
        · rw [if_neg hgt] at hnone
          cases hnone

/-- On a page with one better title the best title before is given back. -/
theorem scanTitles_improve {next : CachePage} (hvtp : s.ca.pages.lookup vtp = some cp)
    (hback : unrefBest s.ca s.mvtp = some t) (hnext : t.pages.lookup vtp = some next)
    (hdata : next.data = cp.data) (js : List Nat)
    (hone : improvements start s.best (titles cp js) = [x]) :
    scanTitles start vtp js s = some ⟨t, some x, x.link, some vtp⟩ := by
  induction js with
  | nil => cases hone
  | cons j js ih =>
    rw [titles_cons] at hone
    rw [scanTitles, hvtp, Option.bind_some]
    dsimp only
    by_cases hempty : (aitTitle cp.data j).link.pgno = 0
    · rw [if_pos hempty] at hone
      cases hone
    · rw [if_neg hempty, improvements] at hone
      rw [if_neg hempty]
      by_cases hle : (aitTitle cp.data j).link.le start = true
      · rw [if_pos hle] at hone ⊢
        exact ih hone
      · rw [if_neg hle] at hone ⊢
        by_cases hgt : (aitTitle cp.data j).link.gt s.best = true
        · rw [if_pos hgt] at hone ⊢
          exact ih hone
        · rw [if_neg hgt] at hone ⊢
          obtain ⟨hfirst, hrest⟩ := List.cons.inj hone
          rw [hback, Option.bind_some, hfirst]
          rw [hfirst] at hrest
          refine scanTitles_idle hnext js ?_
          rw [titles, hdata, ← titles]
          exact hrest

def held (leaks : List Addr) (mvtp : Option Addr) : Addr → Nat :=
  fun a => leaks.count a + if mvtp = some a then 1 else 0

theorem held_le (leaks : List Addr) (mvtp : Option Addr) (a : Addr) :
    held leaks mvtp a ≤ leaks.length + 1 := by
  have hcount : leaks.count a ≤ leaks.length := List.count_le_length
  rw [held]
  split <;> omega

theorem more_eq (extra : Addr → Nat) (a b : Addr) :
    more extra (some a) b = extra b + if a = b then 1 else 0 := by
  rw [more]
  by_cases hba : b = a
  · rw [hba, Function.update_self, if_pos rfl]
  · rw [Function.update_of_ne hba, if_neg (Ne.symm hba), Nat.add_zero]

/-- The reference to a page without a better title is kept. -/
theorem more_held (leaks : List Addr) (mvtp : Option Addr) (a : Addr) :
    more (held leaks mvtp) (some a) = held (a :: leaks) mvtp := by
  funext b
  rw [more_eq, held, held, List.count_cons]
  by_cases hab : a = b
  · rw [if_pos hab, if_pos (beq_iff_eq.mpr hab), Nat.add_right_comm]
  · rw [if_neg hab, if_neg (mt beq_iff_eq.mp hab), Nat.add_zero, Nat.add_zero]

/-- The page of the best title before is exchanged for another. -/
theorem more_exchange (leaks : List Addr) (m a : Addr) :
    Function.update (more (held leaks (some m)) (some a)) m
      (more (held leaks (some m)) (some a) m - 1) = held leaks (some a) := by
  funext b
  by_cases hbm : b = m
  · subst hbm
    rw [Function.update_self, more_eq, held, held, if_pos rfl]
    simp only [Option.some.injEq]
    omega
  · rw [Function.update_of_ne hbm, more_eq, held, held,
      if_neg fun h => hbm (Option.some.inj h).symm]
    simp only [Option.some.injEq, Nat.add_zero]

theorem more_first (leaks : List Addr) (a : Addr) :
    more (held leaks none) (some a) = held leaks (some a) := by
  funext b
  rw [more_eq, held, held]
  simp only [Option.some.injEq, reduceCtorEq, if_false, Nat.add_zero]

/-- A page which was just lent is given back. -/
theorem more_back (extra : Addr → Nat) (a : Addr) :
    Function.update (more extra (some a)) a (more extra (some a) a - 1) = extra := by
  funext b
  by_cases hba : b = a
  · subst hba
    rw [Function.update_self, more_eq, if_pos rfl, Nat.add_sub_cancel]
  · rw [Function.update_of_ne hba, more_eq, if_neg (Ne.symm hba), Nat.add_zero]

structure Scanned (ca : VbiCache) (start : PageKey) (v : VbiCache) (seen leaks : List Addr)
    (s : Search) : Prop where
  consistent : Consistent v
  pages : v.pages = ca.pages
  lent : Lent v s.ca (held leaks s.mvtp)
  cached : ∀ a ∈ leaks, isAit ca a = true
  found : Found ca start seen s

theorem isAit_iff :
    isAit ca a = true ↔ ∃ cp, ca.pages.lookup a = some cp ∧ cp.function = .ait := by
  rw [isAit]
  cases ca.pages.lookup a with
  | none => simp
  | some cp => simp

theorem lookup_of_title {t : AitTitle} (ht : t ∈ titlesAt ca a) :
    ∃ cp, ca.pages.lookup a = some cp := by
  rw [titlesAt] at ht
  cases ha : ca.pages.lookup a with
  | none =>
    rw [ha] at ht
    cases ht
  | some cp => exact ⟨cp, rfl⟩

/-- A page can be looked up by a search. -/
theorem Scanned.get (h : Scanned ca start v seen leaks s) (n : Addr) (pgno subno mask : Nat)
    (hroom : ∀ a, pageRefs ca a + leaks.length + 2 < 0x100000000) :
    ∃ t, vbiCacheGetPage s.ca n pgno subno mask = some (t, (locate v n pgno subno mask).2) ∧
      Lent (locate v n pgno subno mask).1 t
        (more (held leaks s.mvtp) (locate v n pgno subno mask).2) := by
  refine h.lent.get h.consistent n pgno subno mask fun a => ?_
  have hheld := held_le leaks s.mvtp a
  have hcount := hroom a
  have hsame : pageRefs v a = pageRefs ca a := by rw [pageRefs, h.pages, pageRefs]
  omega

theorem scanLink_other (h : Scanned ca start v seen leaks s)
    (hroom : ∀ a, pageRefs ca a + leaks.length + 2 < 0x100000000)
    (hnone : (follow n v link).2 = none) :
    ∃ t, scanLink n start s link = some { s with ca := t } ∧
      Scanned ca start (follow n v link).1 seen leaks { s with ca := t } := by
  rw [follow] at hnone ⊢
  rw [scanLink]
  by_cases hait : link.function = .ait
  · rw [if_pos hait] at hnone ⊢
    rw [if_pos hait]
    obtain ⟨t, ht, hlent⟩ := h.get n link.pgno link.subno 0x3F7F hroom
    have hlocated := locate_located h.consistent n link.pgno link.subno 0x3F7F
    rw [ht, Option.bind_some]
    generalize locate v n link.pgno link.subno 0x3F7F = r at hnone hlent hlocated
    obtain ⟨v', found⟩ := r
    have hpages : v'.pages = ca.pages := hlocated.pages.trans h.pages
    cases found with
    | none =>
      exact ⟨t, rfl, hlocated.consistent, hpages, hlent, h.cached, h.found.recached t⟩
    | some a =>
      obtain ⟨cp, ha, hlive, -⟩ := hlocated.found a rfl
      have hv : v'.pages.lookup a = some cp := hlocated.pages ▸ ha
      have hother : cp.function ≠ .ait := by
        intro hcp
        dsimp only at hnone
        rw [Option.filter_some, if_pos (isAit_iff.mpr ⟨cp, ha, hcp⟩)] at hnone
        cases hnone
      have hlent' : more (held leaks s.mvtp) (some a) a ≠ 0 := by
        rw [more_eq, if_pos rfl]
        exact Nat.succ_ne_zero _
      obtain ⟨r, hr, hback⟩ := hlent.unref hlocated.consistent hv hlent'
      rw [more_back] at hback
      refine ⟨r, ?_, hlocated.consistent, hpages, hback, h.cached, h.found.recached r⟩
      dsimp only
      rw [hlent.lookup hv, Option.bind_some, if_pos hother, hr, Option.map_some]
  · rw [if_neg hait]
    rw [if_neg hait]
    exact ⟨s.ca, rfl, h.consistent, h.pages, h.lent, h.cached, h.found⟩

/-- The best title before is given back for a better one. -/
theorem unrefBest_held (hv : Consistent v) (hpages : v.pages = ca.pages)
    (hfound : Found ca start seen s) (h : Lent v t (more (held leaks s.mvtp) (some a))) :
    ∃ r, unrefBest t s.mvtp = some r ∧ Lent v r (held leaks (some a)) := by
  cases hmait : s.mait with
  | none =>
    rw [(hfound.nothing hmait).2.1] at h ⊢
    rw [more_first] at h
    exact ⟨t, rfl, h⟩
  | some x =>
    obtain ⟨-, -, m, -, hmvtp, hx⟩ := hfound.found x hmait
    rw [hmvtp] at h ⊢
    obtain ⟨cp, hm⟩ := lookup_of_title hx
    have hlent : more (held leaks (some m)) (some a) m ≠ 0 := by
      rw [more_eq, held, if_pos rfl]
      omega
    obtain ⟨r, hr, hback⟩ := h.unref hv (hpages ▸ hm) hlent
    rw [more_exchange] at hback
    exact ⟨r, hr, hback⟩

/-- A link which leads to an AIT page with at most one better title. -/
theorem scanLink_ait (h : Scanned ca start v seen leaks s)
    (hroom : ∀ a, pageRefs ca a + leaks.length + 2 < 0x100000000)
    (hfollow : (follow n v link).2 = some a)
    (hsingle : (improvements start s.best (titlesAt ca a)).length ≤ 1) :
    ∃ s', scanLink n start s link = some s' ∧
      Scanned ca start (follow n v link).1 (seen ++ [a])
        (if improvements start s.best (titlesAt ca a) = [] then a :: leaks else leaks) s' ∧
      s'.best = lastBest s.best (improvements start s.best (titlesAt ca a)) := by
  rw [follow] at hfollow ⊢
  rw [scanLink]
  by_cases hait : link.function = .ait
  · rw [if_pos hait] at hfollow ⊢
    rw [if_pos hait]
    obtain ⟨t, ht, hlent⟩ := h.get n link.pgno link.subno 0x3F7F hroom
    have hlocated := locate_located h.consistent n link.pgno link.subno 0x3F7F
    rw [ht, Option.bind_some]
    generalize locate v n link.pgno link.subno 0x3F7F = r at hfollow hlent hlocated
    obtain ⟨v', found⟩ := r
    have hpages : v'.pages = ca.pages := hlocated.pages.trans h.pages
    obtain ⟨hfound, hisAit⟩ := Option.filter_eq_some_iff.mp hfollow
    dsimp only at hfound hlent ⊢
    subst hfound
    obtain ⟨cp, ha, hcp⟩ := isAit_iff.mp hisAit
    have hv : v'.pages.lookup a = some cp := hlocated.pages ▸ ha
    have htitles : titlesAt ca a = titles cp (List.range 46) := by
      rw [titlesAt, ← h.pages, ha, Option.map_some, Option.getD_some]
    rw [htitles] at hsingle ⊢
    have hta := hlent.lookup hv
    dsimp only
    rw [hta, Option.bind_some, if_neg (not_not_intro hcp)]
    have hidle := h.found.idle (a := a)
    have himprove := fun x => h.found.improve (a := a) (x := x)
    rw [htitles] at hidle himprove
    generalize List.range 46 = js at hsingle hidle himprove ⊢
    have hsame : ∀ count, titles { cp with refCount := count } js = titles cp js := fun _ => rfl
    cases him : improvements start s.best (titles cp js) with
    | nil =>
      rw [if_pos rfl]
      refine ⟨{ s with ca := t }, scanTitles_idle hta js (by rw [hsame, him]),
        ⟨hlocated.consistent, hpages, ?_, ?_, (hidle him).recached t⟩, rfl⟩
      · rw [← more_held]
        exact hlent
      · intro b hb
        rcases List.mem_cons.mp hb with rfl | hb
        · rw [isAit, ← h.pages]
          exact hisAit
        · exact h.cached b hb
    | cons x rest =>
      obtain rfl : rest = [] := by
        rw [him, List.length_cons] at hsingle
        exact List.length_eq_zero_iff.mp (by omega)
      rw [if_neg (List.cons_ne_nil x [])]
      obtain ⟨r, hr, hback⟩ := unrefBest_held hlocated.consistent hpages h.found hlent
      exact ⟨⟨r, some x, x.link, some a⟩,
        scanTitles_improve hta hr (hback.lookup hv) (by rfl) js (by rw [hsame, him]),
        ⟨hlocated.consistent, hpages, hback, h.cached, himprove x him r⟩, rfl⟩
  · rw [if_neg hait] at hfollow
    cases hfollow

/-- The search holds references it should not hold exactly if some page had no better title. -/
theorem scanLinks_outcome (links : List PageLink) (h : Scanned ca start v seen leaks s)
    (hroom : ∀ a, pageRefs ca a + leaks.length + links.length + 1 < 0x100000000)
    (hsingle : ∀ ts ∈ improvementsOf start ca s.best (aitPages n v links), ts.length ≤ 1) :
    ∃ s' v' leaks', links.foldlM (scanLink n start) s = some s' ∧
      Scanned ca start v' (seen ++ aitPages n v links) leaks' s' ∧
      (leaks' = [] ↔
        leaks = [] ∧ ∀ ts ∈ improvementsOf start ca s.best (aitPages n v links), ts ≠ []) := by
  induction links generalizing v seen leaks s with
  | nil =>
    refine ⟨s, v, leaks, rfl, ?_, ?_⟩
    · rw [aitPages, List.append_nil]
      exact h
    · rw [aitPages, improvementsOf]
      exact ⟨fun hleaks => ⟨hleaks, fun ts hts => absurd hts List.not_mem_nil⟩, And.left⟩
  | cons link links ih =>
    have hnow : ∀ a, pageRefs ca a + leaks.length + 2 < 0x100000000 := by
      intro a
      have hcount := hroom a
      rw [List.length_cons] at hcount
      omega
    rw [aitPages] at hsingle ⊢
    rw [List.foldlM_cons, Option.bind_eq_bind]
    cases hfollow : (follow n v link).2 with
    | none =>
      rw [hfollow, Option.toList_none, List.nil_append] at hsingle
      rw [Option.toList_none, List.nil_append]
      obtain ⟨t, hlink, hscanned⟩ := scanLink_other h hnow hfollow
      rw [hlink, Option.bind_some]
      refine ih hscanned (fun a => ?_) hsingle
      have hcount := hroom a
      rw [List.length_cons] at hcount
      omega
    | some a =>
      rw [hfollow, Option.toList_some, List.singleton_append, improvementsOf,
        List.forall_mem_cons] at hsingle
      rw [Option.toList_some, List.singleton_append, improvementsOf, List.forall_mem_cons]
      obtain ⟨s₁, hlink, hscanned, hbest⟩ := scanLink_ait h hnow hfollow hsingle.1
      rw [hlink, Option.bind_some]
      rw [← hbest] at hsingle ⊢
      have hlater : ∀ b, pageRefs ca b + (if improvements start s.best (titlesAt ca a) = []
          then a :: leaks else leaks).length + links.length + 1 < 0x100000000 := by
        intro b
        have hcount := hroom b
        rw [List.length_cons] at hcount
        split
        · rw [List.length_cons]
          omega
        · omega
      obtain ⟨s', v', leaks', hrun, hend, hleaks⟩ := ih hscanned hlater hsingle.2
      refine ⟨s', v', leaks', hrun, ?_, ?_⟩
      · rw [List.append_assoc, List.singleton_append] at hend
        exact hend
      · rw [hleaks]
        by_cases hidle : improvements start s.best (titlesAt ca a) = []
        · rw [if_pos hidle]
          exact ⟨fun hfalse => absurd hfalse.1 (List.cons_ne_nil a leaks),
            fun hfalse => absurd hidle hfalse.2.1⟩
        · rw [if_neg hidle]
          exact ⟨fun hall => ⟨hall.1, hidle, hall.2⟩, fun hall => ⟨hall.1, hall.2.2⟩⟩

theorem scanned_start (h : Consistent ca) (start : PageKey) :
    Scanned ca start ca [] [] ⟨ca, none, lastKey, none⟩ := by
  refine ⟨h, rfl, ?_, fun a ha => absurd ha List.not_mem_nil, not_gt_self lastKey,
    fun _ => ⟨rfl, rfl, fun a ha => absurd ha List.not_mem_nil⟩, fun t ht => ?_,
    fun a ha => absurd ha List.not_mem_nil⟩
  · have hnone : held [] none = fun _ => 0 := by
      funext a
      rw [held, List.count_nil, if_neg (Option.some_ne_none a).symm]
    rw [hnone]
    exact Lent.refl h
  · cases ht

theorem Found.lookup (h : Found ca start seen s) (hmvtp : s.mvtp = some a) :
    ∃ cp, ca.pages.lookup a = some cp := by
  cases hmait : s.mait with
  | none =>
    rw [(h.nothing hmait).2.1] at hmvtp
    cases hmvtp
  | some t =>
    obtain ⟨-, -, b, -, hb, ht⟩ := h.found t hmait
    obtain rfl := Option.some.inj (hb.symm.trans hmvtp)
    exact lookup_of_title ht

/-- The reference counts are right exactly if no other page is held. -/
theorem Scanned.refs_iff (h : Scanned ca start v seen leaks s) :
    pageRefs s.ca = more (pageRefs ca) s.mvtp ↔ leaks = [] := by
  have hsame : ∀ a, pageRefs v a = pageRefs ca a := fun a => by rw [pageRefs, h.pages, pageRefs]
  have hmore : ∀ a, more (pageRefs ca) s.mvtp a =
      pageRefs ca a + if s.mvtp = some a then 1 else 0 := by
    intro a
    cases s.mvtp with
    | none => rfl
    | some b =>
      rw [more_eq]
      simp only [Option.some.injEq]
  constructor
  · intro hrefs
    cases leaks with
    | nil => rfl
    | cons a leaks =>
      obtain ⟨cp, ha, -⟩ := isAit_iff.mp (h.cached a List.mem_cons_self)
      have hcount := h.lent.pageRefs_eq (h.pages ▸ ha)
      rw [hrefs, hmore, hsame, held, List.count_cons_self] at hcount
      omega
  · rintro rfl
    funext a
    rw [hmore]
    cases ha : v.pages.lookup a with
    | none =>
      have hnot : s.mvtp ≠ some a := by
        intro hmvtp
        obtain ⟨cp, hcp⟩ := h.found.lookup hmvtp
        rw [← h.pages, ha] at hcp
        cases hcp
      rw [if_neg hnot, ← hsame, pageRefs, pageRefs, h.lent.pages, ha]
      rfl
    | some cp =>
      rw [h.lent.pageRefs_eq ha, hsame, held, List.count_nil, Nat.zero_add]

/-- One search among pages which have at most one better title each. -/
theorem nextAit_right_iff (h : Consistent ca)
    (hroom : ∀ a, pageRefs ca a + 9 < 0x100000000)
    (hsingle : ∀ ts ∈ improvementsOf start ca lastKey (aitPages n ca (bttLinks bttLink)),
      ts.length ≤ 1) :
    NextAitRight ca n bttLink start ↔
      ∀ ts ∈ improvementsOf start ca lastKey (aitPages n ca (bttLinks bttLink)), ts ≠ [] := by
  have hlength : (bttLinks bttLink).length = 8 := by
    rw [bttLinks, List.length_map, List.length_range]
  obtain ⟨s, v, leaks, hrun, hscanned, hleaks⟩ :=
    scanLinks_outcome (bttLinks bttLink) (scanned_start h start) (n := n)
      (by rw [hlength]; exact hroom) hsingle
  rw [List.nil_append] at hscanned
  rw [eq_self, true_and] at hleaks
  rw [← hleaks, ← hscanned.refs_iff]
  constructor
  · rintro ⟨s', hs', hanswer⟩
    obtain rfl := Option.some.inj (hs'.symm.trans hrun)
    exact hanswer.refs
  · intro hrefs
    refine ⟨s, hrun, hrefs, fun hmait => (hscanned.found.nothing hmait).2, fun t ht => ?_⟩
    obtain ⟨hbest, hbehind, hpage⟩ := hscanned.found.found t ht
    exact ⟨hbehind, hpage, hbest ▸ hscanned.found.least⟩

/-- No title is behind a start page and not behind the same page. -/
theorem improvements_self (start : PageKey) (ts : List AitTitle) :
    improvements start start ts = [] := by
  induction ts with
  | nil => rfl
  | cons t ts ih =>
    rw [improvements]
    by_cases hle : t.link.le start = true
    · rw [if_pos hle]
      exact ih
    · have hgt : t.link.gt start = true := by
        rw [gt_iff]
        rw [le_iff] at hle
        omega
      rw [if_neg hle, if_pos hgt]
      exact ih

theorem improvementsOf_self (start : PageKey) (ca : VbiCache) (pages : List Addr) :
    ∀ ts ∈ improvementsOf start ca start pages, ts = [] := by
  induction pages with
  | nil => exact fun ts hts => absurd hts List.not_mem_nil
  | cons a pages ih =>
    rw [improvementsOf, improvements_self, List.forall_mem_cons]
    exact ⟨rfl, ih⟩

/-- Without AIT pages `top_index()` returns at once. -/
theorem topIndex_right_of_nil (hpages : aitPages n ca (bttLinks bttLink) = [])
    (h : NextAitRight ca n bttLink ⟨0, 0⟩) : TopIndexRight ca n bttLink := by
  obtain ⟨s, hrun, hanswer⟩ := h
  have hmait : s.mait = none := by
    cases hmait : s.mait with
    | none => rfl
    | some t =>
      obtain ⟨-, ⟨a, ha, -⟩, -⟩ := hanswer.found t hmait
      rw [hpages] at ha
      cases ha
  have hrefs := hanswer.refs
  rw [(hanswer.nothing hmait).1] at hrefs
  refine ⟨fun _ => [], fun subno => ⟨1, s.ca, ?_, hrefs, List.Pairwise.nil⟩, fun a ha => ?_⟩
  · rw [topIndex, hrun, Option.bind_some, hmait]
  · rw [hpages] at ha
    cases ha

/-- Navigation is correct exactly if no link leads to an AIT page. One search is correct
exactly if each AIT page has a better title than the pages before, as long as none has
several. -/
theorem top_navigation {ca : VbiCache} (h : Consistent ca)
    (hroom : ∀ a, pageRefs ca a + 9 < 0x100000000) (n : Addr) (bttLink : Nat → PageLink) :
    (Navigates ca n bttLink ↔ aitPages n ca (bttLinks bttLink) = []) ∧
    ∀ start, (∀ ts ∈ improvementsOf start ca lastKey (aitPages n ca (bttLinks bttLink)),
        ts.length ≤ 1) →
      (NextAitRight ca n bttLink start ↔
        ∀ ts ∈ improvementsOf start ca lastKey (aitPages n ca (bttLinks bttLink)),
          ts.length = 1) := by
  refine ⟨⟨fun hright => ?_, fun hpages => ?_⟩, fun start hsingle => ?_⟩
  · -- the search behind the last key holds each AIT page
    have hself := improvementsOf_self lastKey ca (aitPages n ca (bttLinks bttLink))
    have hnone := (nextAit_right_iff h hroom fun ts hts => by rw [hself ts hts]; decide).mp
      (hright.1 lastKey)
    cases hpages : aitPages n ca (bttLinks bttLink) with
    | nil => rfl
    | cons a pages =>
      rw [hpages, improvementsOf] at hself hnone
      exact absurd (hself _ List.mem_cons_self) (hnone _ List.mem_cons_self)
  · have hnext : ∀ start, NextAitRight ca n bttLink start := by
      intro start
      refine (nextAit_right_iff h hroom ?_).mpr ?_
      · rw [hpages]
        exact fun ts hts => absurd hts List.not_mem_nil
      · rw [hpages]
        exact fun ts hts => absurd hts List.not_mem_nil
    exact ⟨hnext, topIndex_right_of_nil hpages (hnext _)⟩
  · rw [nextAit_right_iff h hroom hsingle]
    refine forall₂_congr fun ts hts => ?_
    have hle := hsingle ts hts
    rw [← List.length_pos_iff]
    omega

/-- The counts of the pages in the cache are the only ones. -/
theorem pageRefs_le (bound : Nat) (h : ∀ e ∈ ca.pages.entries, e.2.refCount ≤ bound) (a : Addr) :
    pageRefs ca a ≤ bound := by
  rw [pageRefs]
  cases ha : ca.pages.lookup a with
  | none => exact Nat.zero_le bound
  | some cp => exact h ⟨a, cp⟩ (AList.mem_lookup_iff.mp ha)

def aitPage : TtxPage :=
  ⟨.ait, 0x1F0, 0, 0, 0, 0, 0, 0, 0, [0, 0, 0, 0, 0x00, 0x01, 0, 0] ++ List.replicate 1100 0⟩

def aitLink : Nat → PageLink
  | 0 => ⟨.ait, 0x1F0, 0⟩
  | _ => ⟨.unknown, 0, 0⟩

theorem top_navigation_one_title :
    ∃ ca, run step (vbiCacheNew 10000) [.addNetwork none true, .putPage 0 aitPage true,
        .pageUnref 1] = some ca ∧
      ¬Navigates ca 0 aitLink ∧ NextAitRight ca 0 aitLink ⟨0, 0⟩ := by
  have safe : Permitted step (fun ca op => Callable ca op ∧ Safe ca op) (vbiCacheNew 10000)
      [.addNetwork none true, .putPage 0 aitPage true, .pageUnref 1] := by
    decide +kernel
  have hresult : ((run step (vbiCacheNew 10000) [.addNetwork none true, .putPage 0 aitPage true,
      .pageUnref 1]).map fun ca => (ca.pages.entries.map fun e => e.2.refCount,
        aitPages 0 ca (bttLinks aitLink), (improvementsOf ⟨0, 0⟩ ca lastKey
          (aitPages 0 ca (bttLinks aitLink))).map List.length)) = some ([0], [1], [1]) := by
    decide +kernel
  obtain ⟨ca, hca, hfacts⟩ := Option.map_eq_some_iff.mp hresult
  obtain ⟨hcounts, hfacts⟩ := Prod.mk.inj hfacts
  obtain ⟨hpages, hlengths⟩ := Prod.mk.inj hfacts
  have hfree : ∀ e ∈ ca.pages.entries, e.2.refCount ≤ 0 := by
    intro e he
    have hmem := List.mem_map_of_mem (f := fun e => e.2.refCount) he
    rw [hcounts] at hmem
    exact Nat.le_of_eq (List.mem_singleton.mp hmem)
  have hlength : ∀ ts ∈ improvementsOf ⟨0, 0⟩ ca lastKey (aitPages 0 ca (bttLinks aitLink)),
      ts.length = 1 := by
    intro ts hts
    have hmem := List.mem_map_of_mem (f := List.length) hts
    rw [hlengths] at hmem
    exact List.mem_singleton.mp hmem
  have hroom : ∀ a, pageRefs ca a + 9 < 0x100000000 := by
    intro a
    have hle := pageRefs_le 0 hfree a
    omega
  obtain ⟨hall, hone⟩ := top_navigation (run_consistent safe hca) hroom 0 aitLink
  refine ⟨ca, hca, fun hright => ?_, (hone ⟨0, 0⟩ fun ts hts => ?_).mpr hlength⟩
  · rw [hall, hpages] at hright
    cases hright
  · exact Nat.le_of_eq (hlength ts hts)

/-- Behind the only title nothing is found, and the AIT page is held for ever. -/
theorem next_ait_holds_page :
    ∃ ca s, Permitted step (fun ca op => Callable ca op ∧ Safe ca op) (vbiCacheNew 10000)
        [.addNetwork none true, .putPage 0 aitPage true, .pageUnref 1] ∧
      run step (vbiCacheNew 10000) [.addNetwork none true, .putPage 0 aitPage true,
        .pageUnref 1] = some ca ∧
      nextAit ca 0 aitLink ⟨0x100, 0⟩ = some s ∧ s.mait = none ∧
      pageRefs ca 1 = 0 ∧ pageRefs s.ca 1 = 1 ∧ ¬Navigates ca 0 aitLink := by
  have hresult : ((run step (vbiCacheNew 10000) [.addNetwork none true, .putPage 0 aitPage true,
      .pageUnref 1]).bind fun ca => (nextAit ca 0 aitLink ⟨0x100, 0⟩).map fun s =>
        (s.mait, pageRefs ca 1, pageRefs s.ca 1)) = some (none, 0, 1) := by
    decide +kernel
  obtain ⟨ca, hca, hsearch⟩ := Option.bind_eq_some_iff.mp hresult
  obtain ⟨s, hs, hcounts⟩ := Option.map_eq_some_iff.mp hsearch
  obtain ⟨hmait, hcounts⟩ := Prod.mk.inj hcounts
  obtain ⟨hbefore, hafter⟩ := Prod.mk.inj hcounts
  refine ⟨ca, s, by decide +kernel, hca, hs, hmait, hbefore, hafter, fun hright => ?_⟩
  obtain ⟨r, hr, hanswer⟩ := hright.1 ⟨0x100, 0⟩
  obtain rfl := Option.some.inj (hr.symm.trans hs)
  have hrefs := congrFun hanswer.refs 1
  rw [(hanswer.nothing hmait).1, hafter] at hrefs
  change 1 = pageRefs ca 1 at hrefs
  rw [hbefore] at hrefs
  cases hrefs

end TopNavigation

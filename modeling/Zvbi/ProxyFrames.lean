import Mathlib.Data.List.Nodup
import Zvbi.GuardedRuns
import Zvbi.ProxyQueue

/-!
# References to queued frames

A queued frame has as many references as clients of the device have their pointer at it
or before it in the queue. The step lemmas follow the pointer of a client through the
queue, and the run theorem says when this holds in each state of the daemon.
-/

namespace ProxyFrames
open ProxyQueue

section
universe u
variable {α : Type u}

/-- Where an element of a split list stands in another split of it. -/
theorem split_cases {pre post p q : List α} {x y : α} (h : pre ++ x :: post = p ++ y :: q) :
    (∃ m, pre = p ++ y :: m ∧ q = m ++ x :: post) ∨ (p = pre ∧ y = x ∧ q = post) ∨
      ∃ m, p = pre ++ x :: m ∧ post = m ++ y :: q := by
  induction pre generalizing p with
  | nil =>
    cases p with
    | nil =>
      obtain ⟨rfl, rfl⟩ := List.cons.inj h
      exact Or.inr (Or.inl ⟨rfl, rfl, rfl⟩)
    | cons a p =>
      obtain ⟨rfl, rfl⟩ := List.cons.inj h
      exact Or.inr (Or.inr ⟨p, rfl, rfl⟩)
  | cons a pre ih =>
    cases p with
    | nil =>
      obtain ⟨rfl, rfl⟩ := List.cons.inj h
      exact Or.inl ⟨pre, rfl, rfl⟩
    | cons b p =>
      obtain ⟨rfl, htail⟩ := List.cons.inj h
      rcases ih htail with ⟨m, rfl, rfl⟩ | ⟨rfl, rfl, rfl⟩ | ⟨m, rfl, rfl⟩
      · exact Or.inl ⟨m, rfl, rfl⟩
      · exact Or.inr (Or.inl ⟨rfl, rfl, rfl⟩)
      · exact Or.inr (Or.inr ⟨m, rfl, rfl⟩)

end

def DistinctClnts (clnts : List Clnt) : Prop := (clnts.map Clnt.id).Nodup

theorem DistinctClnts.eq {clnts : List Clnt} (h : DistinctClnts clnts) {a b : Clnt}
    (ha : a ∈ clnts) (hb : b ∈ clnts) (hid : a.id = b.id) : a = b :=
  List.inj_on_of_nodup_map h ha hb hid

theorem findClnt_some {clnts : List Clnt} {id : Nat} {c : Clnt} (h : findClnt clnts id = some c) :
    c ∈ clnts ∧ c.id = id :=
  ⟨List.mem_of_find?_eq_some h, by simpa using List.find?_some h⟩

theorem findClnt_mem {clnts : List Clnt} (h : DistinctClnts clnts) {c : Clnt} (hc : c ∈ clnts) :
    findClnt clnts c.id = some c := by
  cases hfind : findClnt clnts c.id with
  | none =>
    have hnot := List.find?_eq_none.mp hfind c hc
    exact absurd (decide_eq_true rfl) hnot
  | some a =>
    obtain ⟨ha, hid⟩ := findClnt_some hfind
    rw [h.eq ha hc hid]

theorem modifyClnt_mem {id : Nat} {f : Clnt → Clnt} {clnts : List Clnt} {c' : Clnt}
    (h : c' ∈ modifyClnt id f clnts) :
    ∃ c ∈ clnts, (c.id = id ∧ c' = f c) ∨ (c.id ≠ id ∧ c' = c) := by
  rw [modifyClnt, List.mem_map] at h
  obtain ⟨c, hc, rfl⟩ := h
  by_cases hid : c.id = id
  · rw [if_pos hid]
    exact ⟨c, hc, Or.inl ⟨hid, rfl⟩⟩
  · rw [if_neg hid]
    exact ⟨c, hc, Or.inr ⟨hid, rfl⟩⟩

theorem modifyClnt_of_mem {id : Nat} {f : Clnt → Clnt} {clnts : List Clnt} {c : Clnt}
    (hc : c ∈ clnts) (hid : c.id ≠ id) : c ∈ modifyClnt id f clnts :=
  List.mem_map.mpr ⟨c, hc, if_neg hid⟩

/-- A change of the clients which keeps their identifiers. -/
theorem map_ids {f : Clnt → Clnt} (hf : ∀ c, (f c).id = c.id) (clnts : List Clnt) :
    (clnts.map f).map Clnt.id = clnts.map Clnt.id := by
  rw [List.map_map]
  exact List.map_congr_left fun c _ => hf c

theorem modifyClnt_ids {f : Clnt → Clnt} (hf : ∀ c, (f c).id = c.id) (id : Nat)
    (clnts : List Clnt) : (modifyClnt id f clnts).map Clnt.id = clnts.map Clnt.id := by
  apply map_ids
  intro c
  split
  · exact hf c
  · rfl

theorem modifyClnt_absent {id : Nat} {clnts : List Clnt} (h : ∀ c ∈ clnts, c.id ≠ id)
    (f : Clnt → Clnt) : modifyClnt id f clnts = clnts := by
  have hsame : modifyClnt id f clnts = clnts.map fun c => c :=
    List.map_congr_left fun c hc => if_neg (h c hc)
  rw [hsame, List.map_id']

/-- The count of the clients with a property changes with the one which is changed. -/
theorem countP_modify {clnts : List Clnt} (h : DistinctClnts clnts) {req : Clnt}
    (hreq : req ∈ clnts) (f : Clnt → Clnt) (p : Clnt → Bool) :
    (modifyClnt req.id f clnts).countP p + (if p req then 1 else 0) =
      clnts.countP p + if p (f req) then 1 else 0 := by
  induction clnts with
  | nil => cases hreq
  | cons c clnts ih =>
    obtain ⟨hnot, hrest⟩ := List.nodup_cons.mp h
    rw [modifyClnt, List.map_cons, List.countP_cons, List.countP_cons]
    rcases List.mem_cons.mp hreq with rfl | hreq
    · have habsent : ∀ c ∈ clnts, c.id ≠ req.id := by
        intro c hc hid
        apply hnot
        rw [← hid]
        exact List.mem_map_of_mem hc
      have hsame : clnts.map (fun c => if c.id = req.id then f c else c) = clnts :=
        modifyClnt_absent habsent f
      rw [if_pos rfl, hsame]
      omega
    · have hne : c.id ≠ req.id := by
        intro hid
        exact hnot (hid ▸ List.mem_map_of_mem hreq)
      have hind := ih hrest hreq
      rw [modifyClnt] at hind
      rw [if_neg hne]
      omega

/-- The client belongs to a device and points to one of some buffers. -/
def pointsInto (dev : Nat) (ids : List Nat) (c : Clnt) : Bool :=
  decide (c.devIdx = dev) && c.pSliced.any fun b => decide (b ∈ ids)

theorem pointsInto_iff {dev : Nat} {ids : List Nat} {c : Clnt} :
    pointsInto dev ids c = true ↔ c.devIdx = dev ∧ ∃ b ∈ ids, c.pSliced = some b := by
  rw [pointsInto, Bool.and_eq_true, decide_eq_true_iff, Option.any_eq_true]
  apply and_congr_right
  intro _
  constructor
  · rintro ⟨b, hb, hmem⟩
    exact ⟨b, of_decide_eq_true hmem, hb⟩
  · rintro ⟨b, hmem, hb⟩
    exact ⟨b, hb, decide_eq_true hmem⟩

theorem pointsInto_false {dev : Nat} {ids : List Nat} {c : Clnt}
    (h : ∀ b, c.pSliced = some b → b ∉ ids) : pointsInto dev ids c = false := by
  apply Bool.eq_false_iff.mpr
  intro hpoints
  obtain ⟨-, b, hb, hp⟩ := pointsInto_iff.mp hpoints
  exact h b hp hb

def holders (clnts : List Clnt) (dev : Nat) (ids : List Nat) : Nat :=
  clnts.countP (pointsInto dev ids)

theorem holders_mono (clnts : List Clnt) (dev : Nat) {ids ids' : List Nat}
    (h : ∀ b ∈ ids, b ∈ ids') : holders clnts dev ids ≤ holders clnts dev ids' := by
  apply List.countP_mono_left
  intro c _ hc
  obtain ⟨hdev, b, hb, hp⟩ := pointsInto_iff.mp hc
  exact pointsInto_iff.mpr ⟨hdev, b, h b hb, hp⟩

theorem holders_pos {clnts : List Clnt} {dev : Nat} {ids : List Nat} {c : Clnt} (hc : c ∈ clnts)
    (hpoints : pointsInto dev ids c = true) : 0 < holders clnts dev ids :=
  List.countP_pos_iff.mpr ⟨c, hc, hpoints⟩

def ids (queue : List Buf) : List Nat := queue.map Buf.id

def Counted (clnts : List Clnt) (dev : Nat) (queue : List Buf) : Prop :=
  ∀ pre x post, queue = pre ++ x :: post →
    x.refCount = holders clnts dev (ids (pre ++ [x])) ∧ 0 < x.refCount

def bufs (d : Dev) : List Nat := ids d.pSliced ++ d.pFree

structure Apart (s : Server) : Prop where
  nodup : ∀ dev, (bufs (s.dev dev)).Nodup
  bound : ∀ dev, ∀ b ∈ bufs (s.dev dev), b < s.nextBuf
  apart : ∀ dev dev' b, b ∈ bufs (s.dev dev) → b ∈ bufs (s.dev dev') → dev = dev'

/-- What holds in every state of the daemon. -/
structure Consistent (s : Server) : Prop where
  distinct : DistinctClnts s.clnts
  fresh : ∀ c ∈ s.clnts, c.id < s.nextClnt
  buffers : Apart s
  queued : ∀ c ∈ s.clnts, ∀ b, c.pSliced = some b →
    b ∈ ids (s.dev c.devIdx).pSliced ∧ c.active = true
  counted : ∀ dev, Counted s.clnts dev (s.dev dev).pSliced
  closed : ∀ dev, (s.dev dev).capture = false → (s.dev dev).pSliced = []

theorem setDev_same (s : Server) (dev : Nat) (v : Dev) : (s.setDev dev v).dev dev = v := if_pos rfl

theorem setDev_other (s : Server) {dev i : Nat} (h : i ≠ dev) (v : Dev) :
    (s.setDev dev v).dev i = s.dev i := if_neg h

/-- Buffers move between the lists of a device, or go away. -/
theorem Apart.setDev {s : Server} (h : Apart s) {dev : Nat} {v : Dev} (hnodup : (bufs v).Nodup)
    (hsub : ∀ b ∈ bufs v, b ∈ bufs (s.dev dev)) : Apart (s.setDev dev v) := by
  have hold : ∀ i, ∀ b ∈ bufs ((s.setDev dev v).dev i), b ∈ bufs (s.dev i) := by
    intro i b hb
    by_cases hi : i = dev
    · rw [hi, setDev_same] at hb
      rw [hi]
      exact hsub b hb
    · rw [setDev_other s hi] at hb
      exact hb
  refine ⟨?_, fun i b hb => h.bound i b (hold i b hb), fun i j b hi hj =>
    h.apart i j b (hold i b hi) (hold j b hj)⟩
  intro i
  by_cases hi : i = dev
  · rw [hi, setDev_same]
    exact hnodup
  · rw [setDev_other s hi]
    exact h.nodup i

theorem Apart.setClnts {s : Server} (h : Apart s) (clnts : List Clnt) : Apart (s.setClnts clnts) :=
  ⟨h.nodup, h.bound, h.apart⟩

theorem ids_append (q r : List Buf) : ids (q ++ r) = ids q ++ ids r := List.map_append

theorem queue_nodup {s : Server} (h : Apart s) (dev : Nat) : (ids (s.dev dev).pSliced).Nodup :=
  (List.nodup_append.mp (h.nodup dev)).1

theorem framesFrom_split {id : Nat} {queue : List Buf} (h : id ∈ ids queue) :
    ∃ pre x post, queue = pre ++ x :: post ∧ x.id = id ∧ framesFrom id queue = x :: post := by
  induction queue with
  | nil => cases h
  | cons b queue ih =>
    rw [framesFrom]
    by_cases hb : b.id = id
    · rw [if_pos hb]
      exact ⟨[], b, queue, rfl, hb, rfl⟩
    · rw [if_neg hb]
      rcases List.mem_cons.mp h with heq | hmem
      · exact absurd heq.symm hb
      · obtain ⟨pre, x, post, rfl, hx, hfrom⟩ := ih hmem
        exact ⟨b :: pre, x, post, rfl, hx, hfrom⟩

theorem unref_split {id : Nat} {pre post : List Buf} {x : Buf} (hx : x.id = id)
    (h : (ids (pre ++ x :: post)).Nodup) :
    unref id (pre ++ x :: post) = pre ++ ⟨x.id, x.refCount - 1⟩ :: post := by
  rw [ids_append, List.nodup_append] at h
  obtain ⟨-, htail, hdisjoint⟩ := h
  obtain ⟨hnot, -⟩ := List.nodup_cons.mp htail
  have hsame : ∀ queue : List Buf, id ∉ ids queue → unref id queue = queue := by
    intro queue hid
    have hmap : unref id queue = queue.map fun b => b := by
      apply List.map_congr_left
      intro b hb
      apply if_neg
      intro hbid
      apply hid
      rw [← hbid]
      exact List.mem_map_of_mem hb
    rw [hmap, List.map_id']
  have hpre : id ∉ ids pre := fun hmem => hdisjoint id hmem x.id List.mem_cons_self hx.symm
  have hsplit : unref id (pre ++ x :: post) = unref id pre ++ unref id (x :: post) :=
    List.map_append
  rw [hsplit, hsame pre hpre]
  have hhead : unref id (x :: post) = ⟨x.id, x.refCount - 1⟩ :: unref id post := by
    rw [unref, List.map_cons, if_pos hx]
    rfl
  rw [hhead, hsame post (hx ▸ hnot)]

section
variable {clnts : List Clnt} {dev : Nat} {pre post : List Buf} {x : Buf} {req : Clnt}

def advance (post : List Buf) (c : Clnt) : Clnt := c.point ((post.head?).map Buf.id)

theorem next_mem {post : List Buf} {b : Nat} (h : (post.head?).map Buf.id = some b) :
    b ∈ ids post := by
  cases post with
  | nil => cases h
  | cons y post =>
    obtain rfl := Option.some.inj h
    exact List.mem_cons_self

/-- How the references are counted when a client leaves a frame. -/
theorem holders_advance (post : List Buf) (hdistinct : DistinctClnts clnts) (hreq : req ∈ clnts)
    (hdev : req.devIdx = dev) (hp : req.pSliced = some x.id) (ids : List Nat) :
    holders (modifyClnt req.id (advance post) clnts) dev ids + (if x.id ∈ ids then 1 else 0) =
      holders clnts dev ids +
        if pointsInto dev ids (advance post req) then 1 else 0 := by
  have hcount := countP_modify hdistinct hreq (advance post) (pointsInto dev ids)
  have hreqpoints : pointsInto dev ids req = decide (x.id ∈ ids) := by
    rw [pointsInto, hdev, hp, decide_eq_true rfl, Bool.true_and]
    rfl
  rw [hreqpoints] at hcount
  simp only [decide_eq_true_eq] at hcount
  exact hcount

variable (hdistinct : DistinctClnts clnts) (hreq : req ∈ clnts) (hdev : req.devIdx = dev)
  (hp : req.pSliced = some x.id) (hnodup : (ids (pre ++ x :: post)).Nodup)
include hdistinct hreq hdev hp hnodup

theorem holders_before {p m : List Buf} {y : Buf} (hsplit : pre = p ++ y :: m) :
    holders (modifyClnt req.id (advance post) clnts) dev (ids (p ++ [y])) =
      holders clnts dev (ids (p ++ [y])) := by
  have hcount := holders_advance post hdistinct hreq hdev hp (ids (p ++ [y]))
  rw [ids_append, List.nodup_append] at hnodup
  have hsub : ∀ b ∈ ids (p ++ [y]), b ∈ ids pre := by
    intro b hb
    rw [hsplit, ids_append]
    rw [ids_append] at hb
    rcases List.mem_append.mp hb with hb | hb
    · exact List.mem_append_left _ hb
    · obtain rfl := List.mem_singleton.mp hb
      exact List.mem_append_right _ List.mem_cons_self
  have hx : x.id ∉ ids (p ++ [y]) :=
    fun hmem => hnodup.2.2 x.id (hsub _ hmem) x.id List.mem_cons_self rfl
  have hnext : pointsInto dev (ids (p ++ [y])) (advance post req) = false := by
    apply pointsInto_false
    intro b hb hmem
    exact hnodup.2.2 b (hsub b hmem) b (List.mem_cons_of_mem _ (next_mem hb)) rfl
  rw [if_neg hx, hnext] at hcount
  simpa using hcount

theorem holders_at :
    holders (modifyClnt req.id (advance post) clnts) dev (ids (pre ++ [x])) + 1 =
      holders clnts dev (ids (pre ++ [x])) := by
  have hcount := holders_advance post hdistinct hreq hdev hp (ids (pre ++ [x]))
  have hx : x.id ∈ ids (pre ++ [x]) := by
    rw [ids_append]
    exact List.mem_append_right _ List.mem_cons_self
  have hnext : pointsInto dev (ids (pre ++ [x])) (advance post req) = false := by
    apply pointsInto_false
    intro b hb hmem
    have hpost := next_mem hb
    rw [ids_append, List.nodup_append] at hnodup
    rw [ids_append] at hmem
    rcases List.mem_append.mp hmem with hmem | hmem
    · exact hnodup.2.2 b hmem b (List.mem_cons_of_mem _ hpost) rfl
    · obtain rfl := List.mem_singleton.mp hmem
      exact (List.nodup_cons.mp hnodup.2.1).1 hpost
  rw [if_pos hx, hnext] at hcount
  simpa using hcount

omit hnodup in
theorem holders_after {m q : List Buf} {y : Buf} (hsplit : post = m ++ y :: q) :
    holders (modifyClnt req.id (advance post) clnts) dev (ids (pre ++ x :: m ++ [y])) =
      holders clnts dev (ids (pre ++ x :: m ++ [y])) := by
  have hcount := holders_advance post hdistinct hreq hdev hp (ids (pre ++ x :: m ++ [y]))
  have hx : x.id ∈ ids (pre ++ x :: m ++ [y]) := by
    rw [ids_append, ids_append]
    exact List.mem_append_left _ (List.mem_append_right _ List.mem_cons_self)
  have hnext : pointsInto dev (ids (pre ++ x :: m ++ [y])) (advance post req) = true := by
    apply pointsInto_iff.mpr
    refine ⟨hdev, ?_⟩
    rw [hsplit, ids_append]
    cases m with
    | nil => exact ⟨y.id, List.mem_append_right _ List.mem_cons_self, rfl⟩
    | cons z m =>
      refine ⟨z.id, List.mem_append_left _ ?_, rfl⟩
      rw [ids_append]
      exact List.mem_append_right _ (List.mem_cons_of_mem _ List.mem_cons_self)
  rw [if_pos hx, hnext, if_pos rfl] at hcount
  exact Nat.add_right_cancel hcount

/-- The frame keeps other references. -/
theorem counted_unref (h : Counted clnts dev (pre ++ x :: post)) (hmore : x.refCount - 1 ≠ 0) :
    Counted (modifyClnt req.id (advance post) clnts) dev
      (pre ++ ⟨x.id, x.refCount - 1⟩ :: post) := by
  intro p y q hsplit
  rcases split_cases hsplit with ⟨m, rfl, rfl⟩ | ⟨rfl, rfl, rfl⟩ | ⟨m, rfl, rfl⟩
  · rw [holders_before hdistinct hreq hdev hp hnodup rfl]
    apply h p y (m ++ x :: post)
    rw [List.append_assoc]
    rfl
  · have hold := (h p x q rfl).1
    have hcount := holders_at hdistinct hreq hdev hp hnodup
    have hids : ids (p ++ [⟨x.id, x.refCount - 1⟩]) = ids (p ++ [x]) := by
      rw [ids_append, ids_append]
      rfl
    rw [hids]
    dsimp only
    omega
  · have hids : ids (pre ++ ⟨x.id, x.refCount - 1⟩ :: m ++ [y]) = ids (pre ++ x :: m ++ [y]) := by
      rw [ids_append, ids_append, ids_append, ids_append]
      rfl
    rw [hids, holders_after hdistinct hreq hdev hp rfl]
    apply h (pre ++ x :: m) y q
    rw [List.append_assoc]
    rfl

/-- Without other references the frame is the head of the queue. -/
theorem pre_nil (h : Counted clnts dev (pre ++ x :: post)) (hlast : x.refCount - 1 = 0) :
    pre = [] := by
  cases hpre : pre with
  | nil => rfl
  | cons y m =>
    exfalso
    have hold := h pre x post rfl
    have hcount := holders_at hdistinct hreq hdev hp hnodup
    have hfirst := h [] y (m ++ x :: post) (by rw [hpre]; rfl)
    have hbefore := holders_before (p := []) hdistinct hreq hdev hp hnodup hpre
    have hsub : ∀ b ∈ ids [y], b ∈ ids (pre ++ [x]) := by
      intro b hb
      obtain rfl := List.mem_singleton.mp hb
      rw [hpre, List.cons_append]
      exact List.mem_cons_self
    have hmono := holders_mono (modifyClnt req.id (advance post) clnts) dev hsub
    rw [List.nil_append] at hfirst hbefore
    omega

theorem counted_pop (hnil : pre = []) (h : Counted clnts dev (pre ++ x :: post))
    (hlast : x.refCount - 1 = 0) :
    Counted (modifyClnt req.id (advance post) clnts) dev post := by
  subst hnil
  have hnone : holders (modifyClnt req.id (advance post) clnts) dev (ids [x]) = 0 := by
    have hold := h [] x post rfl
    have hcount := holders_at hdistinct hreq hdev hp hnodup
    rw [List.nil_append] at hold hcount
    omega
  intro p y q hsplit
  have hafter : holders (modifyClnt req.id (advance post) clnts) dev (ids ([] ++ x :: p ++ [y])) =
      holders clnts dev (ids ([] ++ x :: p ++ [y])) := holders_after hdistinct hreq hdev hp hsplit
  have hsame : holders (modifyClnt req.id (advance post) clnts) dev (ids (p ++ [y])) =
      holders (modifyClnt req.id (advance post) clnts) dev (ids ([] ++ x :: p ++ [y])) := by
    apply List.countP_congr
    intro c hc
    rw [pointsInto_iff, pointsInto_iff]
    apply and_congr_right
    intro hcdev
    constructor
    · rintro ⟨b, hb, hcb⟩
      exact ⟨b, List.mem_cons_of_mem _ hb, hcb⟩
    · rintro ⟨b, hb, hcb⟩
      rcases List.mem_cons.mp hb with rfl | hb
      · have hpos := holders_pos hc (pointsInto_iff.mpr ⟨hcdev, x.id, List.mem_cons_self, hcb⟩ :
          pointsInto dev (ids [x]) c = true)
        omega
      · exact ⟨b, hb, hcb⟩
  rw [hsame, hafter]
  apply h (x :: p) y q
  rw [hsplit]
  rfl

end

structure Released (s s' : Server) (req : Clnt) (pre : List Buf) (x : Buf) (post : List Buf) :
    Prop where
  clnts : s'.clnts = modifyClnt req.id (advance post) s.clnts
  queue : (x.refCount - 1 ≠ 0 ∧ (s'.dev req.devIdx).pSliced =
    pre ++ ⟨x.id, x.refCount - 1⟩ :: post) ∨
    (x.refCount - 1 = 0 ∧ pre = [] ∧ (s'.dev req.devIdx).pSliced = post)
  capture : ∀ i, (s'.dev i).capture = (s.dev i).capture
  others : ∀ i, i ≠ req.devIdx → s'.dev i = s.dev i
  nextClnt : s'.nextClnt = s.nextClnt

theorem holders_elsewhere {clnts : List Clnt} (hdistinct : DistinctClnts clnts) {req : Clnt}
    (hreq : req ∈ clnts) {dev : Nat} (hdev : dev ≠ req.devIdx) (post : List Buf) (l : List Nat) :
    holders (modifyClnt req.id (advance post) clnts) dev l = holders clnts dev l := by
  have hcount := countP_modify hdistinct hreq (advance post) (pointsInto dev l)
  have hreqpoints : pointsInto dev l req = false := by
    rw [pointsInto, decide_eq_false (Ne.symm hdev), Bool.false_and]
  have hnext : pointsInto dev l (advance post req) = false := by
    have hkept : (advance post req).devIdx = req.devIdx := rfl
    rw [pointsInto, hkept, decide_eq_false (Ne.symm hdev), Bool.false_and]
  rw [hreqpoints, hnext] at hcount
  exact hcount

theorem advance_point {post : List Buf} {c : Clnt} {b : Nat}
    (h : (advance post c).pSliced = some b) : b ∈ ids post := next_mem h

theorem consistent_of_counted {s s' : Server} (h : Consistent s) {req : Clnt} (hreq : req ∈ s.clnts)
    {pre post : List Buf} {x : Buf} (hqueue : (s.dev req.devIdx).pSliced = pre ++ x :: post)
    (hrel : Released s s' req pre x post) (happart : Apart s')
    (hactive : req.active = true) (hp : req.pSliced = some x.id)
    (hcounted : Counted s'.clnts req.devIdx (s'.dev req.devIdx).pSliced) : Consistent s' := by
  have hnodup := queue_nodup h.buffers req.devIdx
  have hkeep : ∀ b ∈ ids (s.dev req.devIdx).pSliced,
      b ∈ ids (s'.dev req.devIdx).pSliced ∨
        (b = x.id ∧ pre = [] ∧ x.refCount - 1 = 0 ∧ (s'.dev req.devIdx).pSliced = post) := by
    intro b hb
    rw [hqueue, ids_append] at hb
    rcases hrel.queue with ⟨-, hq⟩ | ⟨hlast, hnil, hq⟩
    · left
      rw [hq, ids_append]
      exact hb
    · rw [hnil] at hb
      rcases List.mem_cons.mp hb with hb | hb
      · exact Or.inr ⟨hb, hnil, hlast, hq⟩
      · left
        rw [hq]
        exact hb
  have hpost : ∀ b ∈ ids post, b ∈ ids (s'.dev req.devIdx).pSliced := by
    intro b hb
    rcases hrel.queue with ⟨-, hq⟩ | ⟨-, -, hq⟩
    · rw [hq, ids_append]
      exact List.mem_append_right _ (List.mem_cons_of_mem _ hb)
    · rw [hq]
      exact hb
  refine ⟨?_, ?_, happart, ?_, ?_, ?_⟩
  · rw [DistinctClnts, hrel.clnts, modifyClnt_ids (f := advance post) fun _ => rfl]
    exact h.distinct
  · intro c' hc'
    rw [hrel.clnts] at hc'
    rw [hrel.nextClnt]
    obtain ⟨c, hc, ⟨-, rfl⟩ | ⟨-, rfl⟩⟩ := modifyClnt_mem hc'
    · exact h.fresh c hc
    · exact h.fresh c' hc
  · intro c' hc' b hb
    rw [hrel.clnts] at hc'
    obtain ⟨c, hc, ⟨hid, rfl⟩ | ⟨hid, rfl⟩⟩ := modifyClnt_mem hc'
    · obtain rfl := h.distinct.eq hc hreq hid
      exact ⟨hpost b (advance_point hb), hactive⟩
    · obtain ⟨hmem, hcactive⟩ := h.queued c' hc b hb
      refine ⟨?_, hcactive⟩
      by_cases hdev : c'.devIdx = req.devIdx
      · rw [hdev] at hmem ⊢
        rcases hkeep b hmem with hkept | ⟨rfl, hnil, hlast, hq⟩
        · exact hkept
        · exfalso
          have hcount := holders_at h.distinct hreq rfl hp (hqueue ▸ hnodup)
          have hold := (h.counted req.devIdx pre x post hqueue).1
          have hmember : c' ∈ modifyClnt req.id (advance post) s.clnts := modifyClnt_of_mem hc hid
          have hpos := holders_pos hmember (pointsInto_iff.mpr ⟨hdev, x.id, by
            rw [ids_append]
            exact List.mem_append_right _ List.mem_cons_self, hb⟩ :
              pointsInto req.devIdx (ids (pre ++ [x])) c' = true)
          omega
      · rw [hrel.others _ hdev]
        exact hmem
  · intro dev
    by_cases hdev : dev = req.devIdx
    · rw [hdev]
      exact hcounted
    · rw [hrel.others dev hdev, hrel.clnts]
      intro p y q hsplit
      obtain ⟨hcount, hpos⟩ := h.counted dev p y q hsplit
      exact ⟨hcount.trans (holders_elsewhere h.distinct hreq hdev _ _).symm, hpos⟩
  · intro dev hclosed
    rw [hrel.capture] at hclosed
    by_cases hdev : dev = req.devIdx
    · have hempty := h.closed dev hclosed
      rw [hdev, hqueue] at hempty
      exact absurd hempty (by simp)
    · rw [hrel.others dev hdev]
      exact h.closed dev hclosed

theorem releaseSliced_spec {s : Server} (h : Consistent s) {req : Clnt} (hreq : req ∈ s.clnts)
    {b : Nat} (hp : req.pSliced = some b) :
    ∃ pre x post s', (s.dev req.devIdx).pSliced = pre ++ x :: post ∧ x.id = b ∧
      framesFrom b (s.dev req.devIdx).pSliced = x :: post ∧
      releaseSliced s req = some s' ∧ Released s s' req pre x post ∧ Consistent s' := by
  obtain ⟨hmem, hactive⟩ := h.queued req hreq b hp
  obtain ⟨pre, x, post, hqueue, rfl, hfrom⟩ := framesFrom_split hmem
  have hnodup := queue_nodup h.buffers req.devIdx
  have hbufs := h.buffers.nodup req.devIdx
  rw [hqueue] at hnodup
  have hcounted := h.counted req.devIdx
  rw [hqueue] at hcounted
  have hbase : Apart (s.setClnts (modifyClnt req.id (advance post) s.clnts)) := h.buffers.setClnts _
  rw [bufs, hqueue] at hbufs
  have hfinish : ∀ v : Dev, releaseBuf (s.dev req.devIdx) x = some v →
      v.capture = (s.dev req.devIdx).capture → (bufs v).Nodup →
      (∀ i ∈ bufs v, i ∈ bufs (s.dev req.devIdx)) →
      ((x.refCount - 1 ≠ 0 ∧ v.pSliced = pre ++ ⟨x.id, x.refCount - 1⟩ :: post) ∨
        (x.refCount - 1 = 0 ∧ pre = [] ∧ v.pSliced = post)) →
      Counted (modifyClnt req.id (advance post) s.clnts) req.devIdx v.pSliced →
      ∃ s', releaseSliced s req = some s' ∧ Released s s' req pre x post ∧ Consistent s' := by
    intro v hv hcapture hvnodup hsub hform hvcounted
    let s' := (s.setClnts (modifyClnt req.id (advance post) s.clnts)).setDev req.devIdx v
    have hsame : s'.dev req.devIdx = v := setDev_same _ _ _
    have hothers : ∀ i, i ≠ req.devIdx → s'.dev i = s.dev i := fun i hi => setDev_other _ hi v
    have hrel : Released s s' req pre x post := by
      refine ⟨rfl, hsame ▸ hform, ?_, hothers, rfl⟩
      intro i
      by_cases hi : i = req.devIdx
      · rw [hi, hsame, hcapture]
      · rw [hothers i hi]
    refine ⟨s', ?_, hrel, ?_⟩
    · rw [releaseSliced, hp, Option.bind_some, hfrom]
      dsimp only
      rw [hv]
      rfl
    · exact consistent_of_counted h hreq hqueue hrel (hbase.setDev hvnodup hsub) hactive hp
        (hsame ▸ hvcounted)
  by_cases hlast : x.refCount - 1 = 0
  · have hnil := pre_nil h.distinct hreq rfl hp hnodup hcounted hlast
    have hbuf : releaseBuf (s.dev req.devIdx) x =
        some ⟨(s.dev req.devIdx).capture, post, x.id :: (s.dev req.devIdx).pFree⟩ := by
      rw [releaseBuf, if_pos hlast, hqueue, hnil]
      exact if_pos rfl
    have hperm : (ids post ++ x.id :: (s.dev req.devIdx).pFree).Perm
        (ids (pre ++ x :: post) ++ (s.dev req.devIdx).pFree) := by
      rw [hnil]
      exact List.perm_middle
    obtain ⟨s', hs', hrel, hcons⟩ := hfinish _ hbuf rfl (hperm.nodup_iff.mpr hbufs)
      (fun i hi => by
        rw [bufs, hqueue]
        exact hperm.mem_iff.mp hi)
      (Or.inr ⟨hlast, hnil, rfl⟩)
      (counted_pop h.distinct hreq rfl hp hnodup hnil hcounted hlast)
    exact ⟨pre, x, post, s', hqueue, rfl, hfrom, hs', hrel, hcons⟩
  · have hunref : unref x.id (s.dev req.devIdx).pSliced =
        pre ++ ⟨x.id, x.refCount - 1⟩ :: post := by
      rw [hqueue, unref_split rfl hnodup]
    have hbuf : releaseBuf (s.dev req.devIdx) x =
        some ⟨(s.dev req.devIdx).capture, pre ++ ⟨x.id, x.refCount - 1⟩ :: post,
          (s.dev req.devIdx).pFree⟩ := by
      rw [releaseBuf, if_neg hlast, hunref]
    have hids : ids (pre ++ ⟨x.id, x.refCount - 1⟩ :: post) = ids (pre ++ x :: post) := by
      rw [ids_append, ids_append]
      rfl
    obtain ⟨s', hs', hrel, hcons⟩ := hfinish _ hbuf rfl (by
        rw [bufs, hids]
        exact hbufs)
      (fun i hi => by
        rw [bufs, hids] at hi
        rw [bufs, hqueue]
        exact hi)
      (Or.inl ⟨hlast, rfl⟩)
      (counted_unref h.distinct hreq rfl hp hnodup hcounted hlast)
    exact ⟨pre, x, post, s', hqueue, rfl, hfrom, hs', hrel, hcons⟩

structure Emptied (s s' : Server) (id : Nat) : Prop where
  clnts : s'.clnts = modifyClnt id (fun c => c.point none) s.clnts
  capture : ∀ i, (s'.dev i).capture = (s.dev i).capture

theorem modifyClnt_twice {f g : Clnt → Clnt} (hid : ∀ c, (f c).id = c.id) (hfg : ∀ c, g (f c) = g c)
    (id : Nat) (clnts : List Clnt) :
    modifyClnt id g (modifyClnt id f clnts) = modifyClnt id g clnts := by
  rw [modifyClnt, modifyClnt, modifyClnt, List.map_map]
  apply List.map_congr_left
  intro c _
  by_cases hc : c.id = id
  · rw [Function.comp_apply, if_pos hc, if_pos hc, hid, if_pos hc, hfg]
  · rw [Function.comp_apply, if_neg hc, if_neg hc]

theorem framesFrom_append {id : Nat} {pre : List Buf} (h : id ∉ ids pre) (queue : List Buf) :
    framesFrom id (pre ++ queue) = framesFrom id queue := by
  induction pre with
  | nil => rfl
  | cons b pre ih =>
    have hb : b.id ≠ id := fun hb => h (hb ▸ List.mem_cons_self)
    rw [List.cons_append, framesFrom, if_neg hb]
    exact ih fun hmem => h (List.mem_cons_of_mem _ hmem)

/-- After a release the client is at the next frame. -/
theorem framesFrom_released {s s' : Server} (h' : Consistent s') {req : Clnt} {pre : List Buf}
    {x : Buf} {post : List Buf} (hrel : Released s s' req pre x post) {b : Nat}
    (hb : (advance post req).pSliced = some b) :
    framesFrom b (s'.dev req.devIdx).pSliced = post := by
  have hnodup := queue_nodup h'.buffers req.devIdx
  have hpost : framesFrom b post = post := by
    cases post with
    | nil => cases hb
    | cons y post =>
      obtain rfl := Option.some.inj hb
      rw [framesFrom, if_pos rfl]
  rcases hrel.queue with ⟨-, hq⟩ | ⟨-, -, hq⟩
  · have hsplit : pre ++ ⟨x.id, x.refCount - 1⟩ :: post = (pre ++ [⟨x.id, x.refCount - 1⟩]) ++ post := by
      rw [List.append_assoc]
      rfl
    rw [hq, hsplit, ids_append, List.nodup_append] at hnodup
    rw [hq, hsplit, framesFrom_append _ post, hpost]
    intro hmem
    exact hnodup.2.2 b hmem b (advance_point hb) rfl
  · rw [hq]
    exact hpost

theorem releaseLoop_spec (id fuel : Nat) {s : Server} (h : Consistent s) (hpos : 0 < fuel)
    (hfuel : ∀ req, findClnt s.clnts id = some req → ∀ b, req.pSliced = some b →
      (framesFrom b (s.dev req.devIdx).pSliced).length < fuel) :
    ∃ s', releaseLoop id fuel s = some s' ∧ Consistent s' ∧ Emptied s s' id := by
  induction fuel generalizing s with
  | zero => cases hpos
  | succ fuel ih =>
    rw [releaseLoop]
    cases hfind : findClnt s.clnts id with
    | none =>
      refine ⟨s, rfl, h, ?_, fun _ => rfl⟩
      refine (modifyClnt_absent ?_ _).symm
      intro c hc hid
      have hsome := findClnt_mem h.distinct hc
      rw [hid, hfind] at hsome
      cases hsome
    | some req =>
      obtain ⟨hreq, hid⟩ := findClnt_some hfind
      dsimp only
      cases hp : req.pSliced with
      | none =>
        refine ⟨s, if_pos rfl, h, ?_, fun _ => rfl⟩
        have hsame : modifyClnt id (fun c => c.point none) s.clnts = s.clnts.map fun c => c := by
          apply List.map_congr_left
          intro c hc
          split
          · rename_i hcid
            obtain rfl := h.distinct.eq hc hreq (hcid.trans hid.symm)
            have hpoint : c.point none = c := by
              rw [← hp]
              rfl
            exact hpoint
          · rfl
        rw [hsame, List.map_id']
      | some b =>
        obtain ⟨pre, x, post, s₁, -, -, hfrom, hs₁, hrel, hcons⟩ := releaseSliced_spec h hreq hp
        have hlength := hfuel req hfind b hp
        rw [hfrom, List.length_cons] at hlength
        have hnext : ∀ req', findClnt s₁.clnts id = some req' → ∀ b', req'.pSliced = some b' →
            (framesFrom b' (s₁.dev req'.devIdx).pSliced).length < fuel := by
          intro req' hreq' b' hb'
          obtain ⟨hmem, hid'⟩ := findClnt_some hreq'
          rw [hrel.clnts] at hmem
          obtain ⟨c, hc, ⟨hcid, rfl⟩ | ⟨hcid, rfl⟩⟩ := modifyClnt_mem hmem
          · obtain rfl := h.distinct.eq hc hreq hcid
            have hframes := framesFrom_released hcons hrel hb'
            have hdev : (advance post c).devIdx = c.devIdx := rfl
            rw [hdev, hframes]
            exact Nat.lt_of_succ_lt_succ hlength
          · exact absurd (hid'.trans hid.symm) hcid
        obtain ⟨s', hs', hcons', hemptied⟩ :=
          ih hcons (Nat.lt_of_le_of_lt (Nat.zero_le _) (Nat.lt_of_succ_lt_succ hlength)) hnext
        refine ⟨s', ?_, hcons', ?_, fun i => (hemptied.capture i).trans (hrel.capture i)⟩
        · rw [if_neg nofun, hs₁]
          exact hs'
        · rw [hemptied.clnts, hrel.clnts, ← hid]
          exact modifyClnt_twice (f := advance post) (fun _ => rfl) (fun _ => rfl) req.id s.clnts

theorem releaseFrames_spec {s : Server} (h : Consistent s) {req : Clnt} (hreq : req ∈ s.clnts) :
    ∃ s', releaseFrames s req = some s' ∧ Consistent s' ∧ Emptied s s' req.id := by
  apply releaseLoop_spec req.id _ h (Nat.succ_pos _)
  intro req' hfind b _
  obtain ⟨hreq', hid⟩ := findClnt_some hfind
  obtain rfl := h.distinct.eq hreq' hreq hid
  have hle : ∀ queue : List Buf, (framesFrom b queue).length ≤ queue.length := by
    intro queue
    induction queue with
    | nil => exact Nat.le_refl 0
    | cons y queue ih =>
      rw [framesFrom]
      split
      · exact Nat.le_refl _
      · exact Nat.le_succ_of_le ih
  exact Nat.lt_succ_of_le (hle _)

/-- While the clients are released from the head of the queue: either there are two frames,
or a client which was released before is at the head now. -/
def Forced (dev : Nat) (s : Server) (rest : List Nat) : Prop :=
  (∃ x y post, (s.dev dev).pSliced = x :: y :: post) ∨
    ∃ y post, (s.dev dev).pSliced = y :: post ∧
      ∃ c ∈ s.clnts, c.devIdx = dev ∧ c.pSliced = some y.id ∧ c.id ∉ rest

theorem forced_head {dev : Nat} {s : Server} {rest : List Nat} (h : Forced dev s rest) :
    ∃ x post, (s.dev dev).pSliced = x :: post := by
  rcases h with ⟨x, y, post, hq⟩ | ⟨y, post, hq, -⟩
  · exact ⟨x, y :: post, hq⟩
  · exact ⟨y, post, hq⟩

theorem forceClnt_spec {dev : Nat} {s : Server} (h : Consistent s) {id : Nat} {rest : List Nat}
    (hid : id ∉ rest) (hforced : Forced dev s (id :: rest)) :
    ∃ s', forceClnt dev s id = some s' ∧ Consistent s' ∧ Forced dev s' rest ∧
      ∀ i, (s'.dev i).capture = (s.dev i).capture := by
  have hweaker : Forced dev s rest := by
    rcases hforced with htwo | ⟨y, post, hq, c, hc, hcdev, hp, hnot⟩
    · exact Or.inl htwo
    · exact Or.inr ⟨y, post, hq, c, hc, hcdev, hp, fun hmem => hnot (List.mem_cons_of_mem _ hmem)⟩
  obtain ⟨head, tail, hqueue⟩ := forced_head hforced
  rw [forceClnt]
  cases hfind : findClnt s.clnts id with
  | none => exact ⟨s, rfl, h, hweaker, fun _ => rfl⟩
  | some req =>
    obtain ⟨hreq, rfl⟩ := findClnt_some hfind
    dsimp only
    by_cases hat : req.pSliced = ((s.dev dev).pSliced.head?).map Buf.id
    · have hp : req.pSliced = some head.id := by
        rw [hat, hqueue]
        rfl
      have hdev : req.devIdx = dev := by
        have hmem := (h.queued req hreq head.id hp).1
        refine h.buffers.apart req.devIdx dev head.id (List.mem_append_left _ hmem) ?_
        apply List.mem_append_left
        rw [hqueue]
        exact List.mem_cons_self
      obtain ⟨pre, x, post, s', hsplit, hx, hfrom, hs', hrel, hcons⟩ := releaseSliced_spec h hreq hp
      rw [hdev] at hsplit hfrom
      have hheads : head :: tail = x :: post := by
        rw [← hfrom, hqueue, framesFrom, if_pos rfl]
      obtain ⟨rfl, rfl⟩ := List.cons.inj hheads
      have hnil : pre = [] := by
        have hlength := congrArg List.length (hqueue.symm.trans hsplit)
        rw [List.length_append] at hlength
        exact List.eq_nil_of_length_eq_zero (by omega)
      refine ⟨s', ?_, hcons, ?_, hrel.capture⟩
      · rw [if_pos hat]
        exact hs'
      · rw [Forced, hqueue] at hforced
        have hform := hrel.queue
        rw [hdev, hnil] at hform
        rcases hforced with ⟨x', y, post, hq⟩ | ⟨y, post, hq, c, hc, hcdev, hcp, hnot⟩
        · obtain ⟨rfl, rfl⟩ := List.cons.inj hq
          rcases hform with ⟨-, hform⟩ | ⟨-, -, hform⟩
          · exact Or.inl ⟨_, y, post, hform⟩
          · refine Or.inr ⟨y, post, hform, advance (y :: post) req, ?_, hdev, rfl, hid⟩
            rw [hrel.clnts]
            exact List.mem_map.mpr ⟨req, hreq, if_pos rfl⟩
        · obtain ⟨rfl, rfl⟩ := List.cons.inj hq
          have hne : c.id ≠ req.id := fun heq => hnot (heq ▸ List.mem_cons_self)
          have hmem : c ∈ s'.clnts := by
            rw [hrel.clnts]
            exact modifyClnt_of_mem hc hne
          rcases hform with ⟨-, hform⟩ | ⟨hlast, -, hform⟩
          · exact Or.inr ⟨_, tail, hform, c, hmem, hcdev, hcp,
              fun hmem' => hnot (List.mem_cons_of_mem _ hmem')⟩
          · exfalso
            rw [hnil] at hsplit
            have hnodup := queue_nodup h.buffers dev
            rw [hsplit] at hnodup
            have hcount := holders_at h.distinct hreq hdev hp hnodup
            have hold := (h.counted dev [] head tail hsplit).1
            rw [hrel.clnts] at hmem
            have hpos := holders_pos hmem (pointsInto_iff.mpr
              ⟨hcdev, head.id, List.mem_cons_self, hcp⟩ :
                pointsInto dev (ids ([] ++ [head])) c = true)
            omega
    · exact ⟨s, if_neg hat, h, hweaker, fun _ => rfl⟩

theorem forceLoop_spec {dev : Nat} (rest : List Nat) {s : Server} (h : Consistent s)
    (hrest : rest.Nodup) (hforced : Forced dev s rest) :
    ∃ s', rest.foldlM (forceClnt dev) s = some s' ∧ Consistent s' ∧
      ∀ i, (s'.dev i).capture = (s.dev i).capture := by
  induction rest generalizing s with
  | nil => exact ⟨s, rfl, h, fun _ => rfl⟩
  | cons id rest ih =>
    obtain ⟨hid, hnodup⟩ := List.nodup_cons.mp hrest
    obtain ⟨s₁, hs₁, hcons, hforced₁, hcapture⟩ := forceClnt_spec h hid hforced
    obtain ⟨s', hs', hcons', hcapture'⟩ := ih hcons hnodup hforced₁
    refine ⟨s', ?_, hcons', fun i => (hcapture' i).trans (hcapture i)⟩
    rw [List.foldlM_cons, hs₁]
    exact hs'

/-- The head of the queue is freed by force if there are two frames. -/
theorem forceFree_spec {s : Server} (h : Consistent s) {dev : Nat}
    (hmany : (s.dev dev).pFree = [] → (s.dev dev).pSliced.length ≠ 1) :
    ∃ s', forceFree s dev = some s' ∧ Consistent s' ∧
      ∀ i, (s'.dev i).capture = (s.dev i).capture := by
  rw [forceFree]
  split
  · rename_i hfull
    apply forceLoop_spec _ h h.distinct
    left
    cases hq : (s.dev dev).pSliced with
    | nil =>
      rw [hq] at hfull
      cases hfull.2
    | cons x queue =>
      cases queue with
      | nil =>
        have hone := hmany hfull.1
        rw [hq] at hone
        exact absurd rfl hone
      | cons y post => exact ⟨x, y, post, rfl⟩
  · exact ⟨s, rfl, h, fun _ => rfl⟩

end ProxyFrames

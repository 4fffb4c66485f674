import Zvbi.LinkedRings
import Mathlib.Data.Option.Basic

/-!
# Lists of nodes

The rings of `dlist.h` with a node as the head of the list. After any run of operations the
pointers of all lists agree with the lists of their members.
-/

namespace NodeLists
open LinkedRings Function

universe u

variable {N : Type u} [DecidableEq N]

/-- `_insert_nodes()`. -/
def insertNodes (h : Links N) (before after first last : N) : Links N :=
  { succ := update (update h.succ last (some after)) before (some first)
    pred := update (update h.pred first (some before)) after (some last) }

/-- `_remove_nodes()`. -/
def removeNodes (h : Links N) (before after first last : N) (closeRing returnRing : Bool) :
    Links N :=
  let ring := (if closeRing then some after else none, if closeRing then some before else none)
  let removed := (if returnRing then some last else none, if returnRing then some first else none)
  { succ := update (update h.succ before ring.1) last removed.2
    pred := update (update h.pred after ring.2) first removed.1 }

/-- What a function returns: a pointer to a node, a truth value, or the nodes of a traversal. -/
inductive Result (N : Type u) where
  | node (n : Option N)
  | truth (b : Bool)
  | visited (ns : List N)

/-- `insert_after()`, which `add_head()` repeats for the head of a list. -/
def insertAfter (h : Links N) (a n : N) : Option (Links N) :=
  (h.succ a).map fun after => insertNodes h a after n n

/-- `insert_before()`, which `add_tail()` repeats for the head of a list. -/
def insertBefore (h : Links N) (b n : N) : Option (Links N) :=
  (h.pred b).map fun before => insertNodes h before b n n

def unlinkNode (h : Links N) (n : N) : Option (Links N) := do
  let before ← h.pred n
  let after ← h.succ n
  some (removeNodes h before after n n true false)

def listInit (h : Links N) (l : N) : Links N :=
  { succ := update h.succ l (some l), pred := update h.pred l (some l) }

/-- The loop of `is_member()` from `q` on. -/
def isMember (h : Links N) (l n : N) : Nat → N → Option Bool
  | 0, _ => none
  | fuel + 1, q =>
    if q = l then some false
    else if q = n then some true
    else (h.succ q).bind (isMember h l n fuel)

/-- The nodes which `FOR_ALL_NODES` visits from `p` on, with a body which unlinks some of them. -/
def forAllNodes (l : N) (gone : N → Bool) : Nat → Links N → N → Option (Links N × List N)
  | 0, _, _ => none
  | fuel + 1, h, p => do
    let p1 ← h.succ p
    if p = l then some (h, [])
    else
      let h ← if gone p then unlinkNode h p else some h
      let (h, visited) ← forAllNodes l gone fuel h p1
      some (h, p :: visited)

def addTailList (h : Links N) (l1 l2 : N) : Option (Links N × Option N) := do
  let h2 ← h.succ l2
  if l2 = h2 then some (h, none)
  else
    let before ← h.pred l1
    let last ← h.pred l2
    some (listInit (insertNodes h before l1 h2 last) l2, some h2)

/-- The functions and their arguments. -/
inductive Op (N : Type u) where
  | listInit (l : N)
  | insertAfter (a n : N)
  | insertBefore (b n : N)
  | unlinkNode (n : N)
  | addTailList (l1 l2 : N)
  | isEmpty (l : N)
  | isMember (l n : N)
  | forAllNodes (l : N) (gone : N → Bool)

/-- A call, unless it follows a null pointer. A loop makes at most `fuel` rounds. -/
def call (fuel : Nat) (h : Links N) : Op N → Option (Links N × Result N)
  | .listInit l => some (listInit h l, .node (some l))
  | .insertAfter a n => (insertAfter h a n).map (·, .node (some n))
  | .insertBefore b n => (insertBefore h b n).map (·, .node (some n))
  | .unlinkNode n => (unlinkNode h n).map (·, .node (some n))
  | .addTailList l1 l2 => (addTailList h l1 l2).map (Prod.map id .node)
  | .isEmpty l => some (h, .truth (h.succ l == some l))
  | .isMember l n => ((h.succ l).bind (isMember h l n fuel)).map (h, .truth ·)
  | .forAllNodes l gone => (h.succ l).bind fun p =>
      (forAllNodes l gone fuel h p).map (Prod.map id .visited)

def run (fuel : Nat) (h : Links N) : List (Op N) → Option (Links N × List (Result N))
  | [] => some (h, [])
  | op :: ops => do
    let (h, r) ← call fuel h op
    let (h, rs) ← run fuel h ops
    some (h, r :: rs)

/-- The members of the lists. -/
abbrev Lists (N : Type u) := N → Option (List N)

def Unused (s : Lists N) (n : N) : Prop :=
  ∀ l ms, s l = some ms → n ∉ l :: ms

/-- What a call does to the lists and what it returns. A node is in one list at most. -/
inductive Step (s : Lists N) : Op N → Lists N → Result N → Prop where
  | listInit {l : N} (hl : Unused s l) :
    Step s (.listInit l) (update s l (some [])) (.node (some l))
  | insertAfter {l a n : N} {p q : List N} (hl : s l = some (p ++ q))
    (ha : (l :: p).getLast? = some a) (hn : Unused s n) :
    Step s (.insertAfter a n) (update s l (some (p ++ n :: q))) (.node (some n))
  | insertBefore {l b n : N} {p q : List N} (hl : s l = some (p ++ q))
    (hb : (q ++ [l]).head? = some b) (hn : Unused s n) :
    Step s (.insertBefore b n) (update s l (some (p ++ n :: q))) (.node (some n))
  | unlinkNode {l n : N} {p q : List N} (hl : s l = some (p ++ n :: q)) :
    Step s (.unlinkNode n) (update s l (some (p ++ q))) (.node (some n))
  | addTailList {l1 l2 : N} {ms1 ms2 : List N} (hne : l1 ≠ l2) (h1 : s l1 = some ms1)
    (h2 : s l2 = some ms2) :
    Step s (.addTailList l1 l2) (update (update s l1 (some (ms1 ++ ms2))) l2 (some []))
      (.node ms2.head?)
  | isEmpty {l : N} {ms : List N} (hl : s l = some ms) :
    Step s (.isEmpty l) s (.truth ms.isEmpty)
  | isMember {l n : N} {ms : List N} (hl : s l = some ms) :
    Step s (.isMember l n) s (.truth (decide (n ∈ ms)))
  | forAllNodes {l : N} {g : N → Bool} {ms : List N} (hl : s l = some ms) :
    Step s (.forAllNodes l g) (update s l (some (ms.filter (! g ·)))) (.visited ms)

inductive Steps : Lists N → List (Op N) → Lists N → List (Result N) → Prop where
  | nil {s : Lists N} : Steps s [] s []
  | cons {s s' s'' : Lists N} {op : Op N} {ops : List (Op N)} {r : Result N}
    {rs : List (Result N)} (hstep : Step s op s' r) (hsteps : Steps s' ops s'' rs) :
    Steps s (op :: ops) s'' (r :: rs)

/-- The pointers agree with the lists, which have no node in common. -/
structure Represents (h : Links N) (s : Lists N) : Prop where
  ring : ∀ l ms, s l = some ms → h.Ring (l :: ms)
  nodup : ∀ l ms, s l = some ms → (l :: ms).Nodup
  apart : ∀ l l' ms ms', l ≠ l' → s l = some ms → s l' = some ms' →
    (l :: ms).Disjoint (l' :: ms')

variable {h h' : Links N} {s : Lists N} {l a b n first last : N} {ms p q g : List N}

/-- A list changes, with pointers which no other list uses. -/
theorem Represents.update (hrep : Represents h s) (hring : h'.Ring (l :: ms))
    (hnodup : (l :: ms).Nodup)
    (hothers : ∀ l' ms', l' ≠ l → s l' = some ms' → ∀ x ∈ l' :: ms', x ∉ l :: ms ∧
      h'.succ x = h.succ x ∧ h'.pred x = h.pred x) :
    Represents h' (update s l (some ms)) := by
  have hcase : ∀ {l' ms'}, Function.update s l (some ms) l' = some ms' →
      l' = l ∧ ms' = ms ∨ l' ≠ l ∧ s l' = some ms' := by
    intro l' ms' hl'
    by_cases heq : l' = l
    · subst heq
      exact .inl ⟨rfl, by simpa using hl'.symm⟩
    · exact .inr ⟨heq, by simpa [heq] using hl'⟩
  refine ⟨fun l' ms' hl' => ?_, fun l' ms' hl' => ?_, fun l1 l2 ms1 ms2 hne h1 h2 => ?_⟩
  · obtain ⟨rfl, rfl⟩ | ⟨hne, hl'⟩ := hcase hl'
    · exact hring
    · exact (hrep.ring l' ms' hl').congr fun x hx => (hothers l' ms' hne hl' x hx).2
  · obtain ⟨rfl, rfl⟩ | ⟨hne, hl'⟩ := hcase hl'
    · exact hnodup
    · exact hrep.nodup l' ms' hl'
  · obtain ⟨rfl, rfl⟩ | ⟨hne1, hl1⟩ := hcase h1
    · obtain ⟨rfl, rfl⟩ | ⟨hne2, hl2⟩ := hcase h2
      · exact absurd rfl hne
      · exact fun x hx hx' => (hothers l2 ms2 hne2 hl2 x hx').1 hx
    · obtain ⟨rfl, rfl⟩ | ⟨-, hl2⟩ := hcase h2
      · exact fun x hx hx' => (hothers l1 ms1 hne1 hl1 x hx).1 hx'
      · exact hrep.apart l1 l2 ms1 ms2 hne hl1 hl2

theorem Represents.listInit (hrep : Represents h s) (hl : Unused s l) :
    Represents (listInit h l) (Function.update s l (some [])) := by
  refine hrep.update ?_ (List.nodup_singleton l) fun l' ms' _ hl' x hx => ?_
  · exact ring_head_iff.mpr (.cons_cons (by simp [Links.Linked, NodeLists.listInit]) (.singleton l))
  · have hne : x ≠ l := fun hxl => hl l' ms' hl' (hxl ▸ hx)
    simp [NodeLists.listInit, hne]

theorem Represents.insert (hrep : Represents h s) (hl : s l = some (p ++ q))
    (ha : (l :: p).getLast? = some a) (hb : (q ++ [l]).head? = some b)
    (hseg : List.IsChain h.Linked g) (hnodup : g.Nodup) (hunused : ∀ x ∈ g, Unused s x)
    (hfirst : g.head? = some first) (hlast : g.getLast? = some last) :
    Represents (insertNodes h a b first last) (Function.update s l (some (p ++ (g ++ q)))) := by
  have hring := hrep.ring l _ hl
  have hold := hrep.nodup l _ hl
  have hsep : ∀ x ∈ l :: (p ++ q), x ∉ g := fun x hx hxs => hunused x hxs l _ hl hx
  have hamem : a ∈ l :: (p ++ q) := List.mem_append_left q (List.mem_of_getLast? ha)
  have hbmem : b ∈ l :: (p ++ q) := by
    have := List.mem_of_head? hb
    simp only [List.mem_append, List.mem_cons, List.not_mem_nil, or_false] at this ⊢
    tauto
  have hfmem := List.mem_of_head? hfirst
  have hlmem := List.mem_of_getLast? hlast
  have hsucc : ∀ x, x ≠ a → x ≠ last → (insertNodes h a b first last).succ x = h.succ x := by
    intro x hxa hxl
    simp [insertNodes, hxa, hxl]
  have hpred : ∀ x, x ≠ b → x ≠ first → (insertNodes h a b first last).pred x = h.pred x := by
    intro x hxb hxf
    simp [insertNodes, hxb, hxf]
  have hne : ∀ {x y}, x ∈ l :: (p ++ q) → y ∈ g → x ≠ y := fun hx hy hxy =>
    hsep _ hx (hxy ▸ hy)
  have hseg' : List.IsChain (insertNodes h a b first last).Linked (a :: (g ++ [b])) := by
    have hkept : List.IsChain (insertNodes h a b first last).Linked g := by
      refine chain_congr hseg (fun x hx => hsucc x ?_ (ne_last hnodup hlast hx))
        fun x hx => hpred x ?_ (ne_first hnodup hfirst hx)
      · exact (hne hamem (List.dropLast_subset _ hx)).symm
      · exact (hne hbmem (List.mem_of_mem_tail hx)).symm
    have hend : List.IsChain (insertNodes h a b first last).Linked (g ++ [b]) := by
      refine List.isChain_append.mpr ⟨hkept, .singleton b, fun x hx y hy => ?_⟩
      rw [hlast] at hx
      cases hx
      cases hy
      simp [Links.Linked, insertNodes, (hne hamem hlmem).symm]
    refine List.isChain_cons.mpr ⟨fun y hy => ?_, hend⟩
    rw [List.head?_append, hfirst] at hy
    cases hy
    simp [Links.Linked, insertNodes, (hne hbmem hfmem).symm]
  refine hrep.update ?_ ?_ fun l' ms' hl' hms' x hx => ?_
  · exact hring.splice (m := []) hold ha hb (fun x hx hxa => hsucc x hxa (hne hx hlmem))
      (fun x hx hxb => hpred x hxb (hne hx hfmem)) hseg'
  · grind
  · have hx' : x ∉ l :: (p ++ q) := fun h' => hrep.apart l l' _ ms' hl'.symm hl hms' h' hx
    have hxs : x ∉ g := fun h' => hunused x h' l' ms' hms' hx
    refine ⟨?_, hsucc x ?_ ?_, hpred x ?_ ?_⟩
    · grind
    · exact fun h' => hx' (h' ▸ hamem)
    · exact fun h' => hxs (h' ▸ hlmem)
    · exact fun h' => hx' (h' ▸ hbmem)
    · exact fun h' => hxs (h' ▸ hfmem)

theorem Represents.remove (hrep : Represents h s) (hl : s l = some (p ++ n :: q)) :
    ∃ h', unlinkNode h n = some h' ∧ Represents h' (Function.update s l (some (p ++ q))) := by
  have hring := hrep.ring l _ hl
  have hold := hrep.nodup l _ hl
  obtain ⟨a, ha⟩ := exists_last l p
  obtain ⟨b, hb⟩ := exists_head q l
  have hpredn : h.pred n = some a := (hring.pred_eq (q := n :: q) rfl).trans ha
  have hsuccn : h.succ n = some b := hring.next_eq.trans hb
  have hamem : a ∈ l :: p := List.mem_of_getLast? ha
  have hbmem : b ∈ q ++ [l] := List.mem_of_head? hb
  refine ⟨removeNodes h a b n n true false, by simp [unlinkNode, hpredn, hsuccn], ?_⟩
  have hsame : ∀ x, x ≠ n → (x ≠ a → (removeNodes h a b n n true false).succ x = h.succ x) ∧
      (x ≠ b → (removeNodes h a b n n true false).pred x = h.pred x) := by
    intro x hxn
    exact ⟨fun hxa => by simp [removeNodes, hxn, hxa], fun hxb => by simp [removeNodes, hxn, hxb]⟩
  have hnot : ∀ x ∈ l :: (p ++ q), x ≠ n := by grind
  refine hrep.update ?_ (by grind) fun l' ms' hl' hms' x hx => ?_
  · refine hring.splice (m := [n]) (g := []) (by grind) ha hb
      (fun x hx => (hsame x (hnot x hx)).1) (fun x hx => (hsame x (hnot x hx)).2) ?_
    have han : a ≠ n := hnot a (List.mem_append_left q hamem)
    have hbn : b ≠ n := hnot b (by grind)
    exact .cons_cons (by simp [Links.Linked, removeNodes, han, hbn]) (.singleton b)
  · have hx' : x ∉ l :: (p ++ n :: q) := fun h' => hrep.apart l l' _ ms' hl'.symm hl hms' h' hx
    obtain ⟨hsucc, hpred⟩ := hsame x (by grind)
    exact ⟨by grind, hsucc (by grind), hpred (by grind)⟩

theorem update_same (hl : s l = some ms) : Function.update s l (some ms) = s := by
  rw [← hl, Function.update_eq_self]

theorem isMember_eq (hrep : Represents h s) (hl : s l = some (p ++ q)) {c : N}
    (hc : (q ++ [l]).head? = some c) {fuel : Nat} (hfuel : q.length < fuel) :
    isMember h l n fuel c = some (decide (n ∈ q)) := by
  obtain ⟨fuel, rfl⟩ := Nat.exists_eq_succ_of_ne_zero (by omega : fuel ≠ 0)
  induction q generalizing p c fuel with
  | nil =>
    cases hc
    simp [isMember]
  | cons y q ih =>
    cases hc
    have hyl : y ≠ l := by
      have := hrep.nodup l _ hl
      grind
    obtain ⟨b, hb⟩ := exists_head q l
    obtain ⟨fuel, rfl⟩ := Nat.exists_eq_succ_of_ne_zero (by grind : fuel ≠ 0)
    have hrest := ih (p := p ++ [y]) (by simpa using hl) hb fuel (by simpa using hfuel)
    rw [isMember, if_neg hyl, (hrep.ring l _ hl).next_eq, hb]
    by_cases hyn : y = n
    · simp [hyn]
    · rw [if_neg hyn, Option.bind_some, hrest]
      simp [Ne.symm hyn]

/-- The traversal goes on to the node which was next before the body ran. -/
theorem forAllNodes_eq (gone : N → Bool) (hrep : Represents h s) (hl : s l = some (p ++ q))
    {c : N} (hc : (q ++ [l]).head? = some c) :
    ∃ h', Represents h' (Function.update s l (some (p ++ q.filter (! gone ·)))) ∧
      ∀ fuel, q.length < fuel → forAllNodes l gone fuel h c = some (h', q) := by
  induction q generalizing h s p c with
  | nil =>
    cases hc
    obtain ⟨b, hb⟩ := exists_head (p ++ []) l
    refine ⟨h, by rwa [List.filter_nil, update_same hl], fun fuel hfuel => ?_⟩
    obtain ⟨fuel, rfl⟩ := Nat.exists_eq_succ_of_ne_zero (by omega : fuel ≠ 0)
    simp [forAllNodes, ((hrep.ring l _ hl).head_eq).trans hb]
  | cons y q ih =>
    cases hc
    have hyl : y ≠ l := by
      have := hrep.nodup l _ hl
      grind
    obtain ⟨b, hb⟩ := exists_head q l
    have hnext := (hrep.ring l _ hl).next_eq.trans hb
    by_cases hgone : gone y = true
    · obtain ⟨h1, hunlink, hrep1⟩ := hrep.remove hl
      obtain ⟨h2, hrep2, hrest⟩ := ih hrep1 (Function.update_self ..) hb
      refine ⟨h2, by simpa [hgone] using hrep2, fun fuel hfuel => ?_⟩
      obtain ⟨fuel, rfl⟩ := Nat.exists_eq_succ_of_ne_zero (by omega : fuel ≠ 0)
      simp [forAllNodes, hnext, hyl, hgone, hunlink, hrest fuel (by simpa using hfuel)]
    · obtain ⟨h2, hrep2, hrest⟩ := ih (p := p ++ [y]) hrep (by simpa using hl) hb
      refine ⟨h2, by simpa [hgone] using hrep2, fun fuel hfuel => ?_⟩
      obtain ⟨fuel, rfl⟩ := Nat.exists_eq_succ_of_ne_zero (by omega : fuel ≠ 0)
      simp [forAllNodes, hnext, hyl, hgone, hrest fuel (by simpa using hfuel)]

theorem addTailList_eq {l1 l2 : N} {ms1 ms2 : List N} (hrep : Represents h s) (hne : l1 ≠ l2)
    (h1 : s l1 = some ms1) (h2 : s l2 = some ms2) :
    ∃ h', addTailList h l1 l2 = some (h', ms2.head?) ∧
      Represents h' (Function.update (Function.update s l1 (some (ms1 ++ ms2))) l2 (some [])) := by
  have hfirst := (hrep.ring l2 _ h2).head_eq
  cases ms2 with
  | nil =>
    refine ⟨h, by simp [addTailList, hfirst], ?_⟩
    rwa [List.append_nil, update_same h1, update_same h2]
  | cons m ms =>
    have hnodup := hrep.nodup l2 _ h2
    have hml : l2 ≠ m := by grind
    obtain ⟨a, ha⟩ := exists_last l1 ms1
    obtain ⟨z, hz⟩ := exists_last m ms
    have hpred1 := (hrep.ring l1 _ h1).tail_eq.trans ha
    have hpred2 := (hrep.ring l2 _ h2).tail_eq.trans ((List.getLast?_cons_cons ..).trans hz)
    -- The other lists do not have the nodes of the second one.
    have hold : ∀ l ms', Function.update s l2 none l = some ms' → s l = some ms' ∧
        (l2 :: m :: ms).Disjoint (l :: ms') := by
      intro l ms' hl
      have hll : l2 ≠ l := by
        rintro rfl
        simp at hl
      rw [Function.update_of_ne hll.symm] at hl
      exact ⟨hl, hrep.apart l2 l _ ms' hll h2 hl⟩
    have hrep0 : Represents h (Function.update s l2 none) :=
      ⟨fun l ms' hl => hrep.ring l ms' (hold l ms' hl).1,
        fun l ms' hl => hrep.nodup l ms' (hold l ms' hl).1,
        fun l l' ms' ms'' hll hl hl' =>
          hrep.apart l l' ms' ms'' hll (hold l ms' hl).1 (hold l' ms'' hl').1⟩
    have hins := hrep0.insert (l := l1) (p := ms1) (q := []) (g := m :: ms) (b := l1)
      (by simp [hne, h1]) ha rfl (List.isChain_append.mp (ring_head_iff.mp
        (hrep.ring l2 _ h2)).tail).1 (List.nodup_cons.mp hnodup).2
      (fun x hx l ms' hl hx' => (hold l ms' hl).2 (List.mem_cons_of_mem _ hx) hx') rfl hz
    have hempty := hins.listInit (l := l2) fun l ms' hl hl2 => ?_
    · rw [List.append_nil, Function.update_comm hne.symm, Function.update_idem] at hempty
      exact ⟨_, by simp [addTailList, hfirst, hml, hpred1, hpred2], hempty⟩
    · by_cases hll : l = l1
      · subst hll
        rw [Function.update_self] at hl
        have hapart : l2 ∉ l :: ms1 := fun hmem =>
          hrep.apart _ _ _ _ hne h1 h2 hmem List.mem_cons_self
        grind
      · rw [Function.update_of_ne hll] at hl
        exact (hold l ms' hl).2 List.mem_cons_self hl2

/-- One call. -/
theorem call_represents {s' : Lists N} {op : Op N} {r : Result N} (hstep : Step s op s' r)
    (hrep : Represents h s) :
    ∃ needed h', Represents h' s' ∧ ∀ fuel ≥ needed, call fuel h op = some (h', r) := by
  cases hstep with
  | listInit hl => exact ⟨0, _, hrep.listInit hl, fun _ _ => rfl⟩
  | @insertAfter l a n p q hl ha hn =>
    obtain ⟨b, hb⟩ := exists_head q l
    have hsucc := ((hrep.ring l _ hl).succ_eq ha).trans hb
    refine ⟨0, _, hrep.insert hl ha hb (.singleton n) (List.nodup_singleton n) (by simpa using hn)
      rfl rfl, fun fuel _ => by simp [call, insertAfter, hsucc]⟩
  | @insertBefore l b n p q hl hb hn =>
    obtain ⟨a, ha⟩ := exists_last l p
    have hpred := ((hrep.ring l _ hl).pred_eq hb).trans ha
    refine ⟨0, _, hrep.insert hl ha hb (.singleton n) (List.nodup_singleton n) (by simpa using hn)
      rfl rfl, fun fuel _ => by simp [call, insertBefore, hpred]⟩
  | unlinkNode hl =>
    obtain ⟨h', hunlink, hrep'⟩ := hrep.remove hl
    exact ⟨0, h', hrep', fun fuel _ => by simp [call, hunlink]⟩
  | addTailList hne h1 h2 =>
    obtain ⟨h', hadd, hrep'⟩ := addTailList_eq hrep hne h1 h2
    exact ⟨0, h', hrep', fun fuel _ => by simp [call, hadd]⟩
  | @isEmpty l ms hl =>
    refine ⟨0, h, hrep, fun fuel _ => ?_⟩
    have hhead := (hrep.ring l _ hl).head_eq
    have hnodup := hrep.nodup l _ hl
    cases ms with
    | nil => simp [call, hhead]
    | cons m ms =>
      have hml : m ≠ l := by grind
      simp [call, hhead, hml]
  | @isMember l n ms hl =>
    obtain ⟨c, hc⟩ := exists_head ms l
    refine ⟨ms.length + 1, h, hrep, fun fuel hfuel => ?_⟩
    simp [call, (hrep.ring l _ hl).head_eq, hc, isMember_eq (p := []) hrep hl hc hfuel]
  | @forAllNodes l gone ms hl =>
    obtain ⟨c, hc⟩ := exists_head ms l
    obtain ⟨h', hrep', hrun⟩ := forAllNodes_eq gone (p := []) hrep hl hc
    refine ⟨ms.length + 1, h', hrep', fun fuel hfuel => ?_⟩
    simp [call, (hrep.ring l _ hl).head_eq, hc, hrun fuel hfuel]

/-- A run follows no null pointer, and each call returns what it says about the lists. -/
theorem run_represents {s' : Lists N} {ops : List (Op N)} {rs : List (Result N)}
    (hsteps : Steps s ops s' rs) (hrep : Represents h s) :
    ∃ needed h', Represents h' s' ∧ ∀ fuel ≥ needed, run fuel h ops = some (h', rs) := by
  induction hsteps generalizing h with
  | nil => exact ⟨0, h, hrep, fun fuel _ => rfl⟩
  | cons hstep _ ih =>
    obtain ⟨needed, h1, hrep1, hcall⟩ := call_represents hstep hrep
    obtain ⟨needed', h2, hrep2, hrun⟩ := ih hrep1
    refine ⟨max needed needed', h2, hrep2, fun fuel hfuel => ?_⟩
    simp [run, hcall fuel (le_of_max_le_left hfuel), hrun fuel (le_of_max_le_right hfuel)]

/-- A list of two nodes, of which a traversal unlinks the first one. -/
theorem run_represents_unlinking :
    ∃ needed h', Represents h' (Function.update (fun _ => none) 0 (some [2])) ∧ ∀ fuel ≥ needed,
      run fuel ⟨fun _ => none, fun _ => none⟩
        [.listInit 0, .insertBefore 0 1, .insertAfter 1 2, .forAllNodes 0 (· == 1)] =
          some (h', [.node (some 0), .node (some 1), .node (some 2), .visited [1, 2]]) := by
  have hempty : Represents ⟨fun _ => none, fun _ => none⟩ (fun _ : Nat => none) :=
    ⟨nofun, nofun, nofun⟩
  have hrun := run_represents (.cons (.listInit (l := 0) nofun) (.cons
    (.insertBefore (p := []) (q := []) (n := 1) (Function.update_self ..) rfl ?_) (.cons
      (.insertAfter (p := [1]) (q := []) (n := 2) (Function.update_self ..) rfl ?_)
        (.cons (.forAllNodes (g := (· == 1)) (Function.update_self ..)) .nil)))) hempty
  · simpa using hrun
  all_goals
    intro l ms hl
    by_cases hl0 : l = 0
    · subst hl0
      simp only [Function.update_self, Option.some.injEq] at hl
      subst hl
      decide
    · simp [hl0] at hl

end NodeLists

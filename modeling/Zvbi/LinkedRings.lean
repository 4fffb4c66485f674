import Mathlib.Data.List.Cycle

/-!
# Doubly linked rings

Nodes form a ring when each of them holds the addresses of the next and the previous one. To put
a segment between two neighbours or to take one out only the pointers at the seams change.
-/

namespace LinkedRings

universe u

/-- The pointers of all nodes. -/
structure Links (N : Type u) where
  succ : N → Option N
  pred : N → Option N

variable {N : Type u} {h h' : Links N} {l a b first last : N} {ns p q m g : List N}

def Links.Linked (h : Links N) (a b : N) : Prop :=
  h.succ a = some b ∧ h.pred b = some a

def Links.Ring (h : Links N) (ns : List N) : Prop :=
  Cycle.Chain h.Linked ns

/-- A ring which begins with `l` consists of two arcs, from `l` and back to `l`. -/
theorem ring_iff : h.Ring (l :: (p ++ q)) ↔ List.IsChain h.Linked (l :: p) ∧
    List.IsChain h.Linked (q ++ [l]) ∧
    ∀ a ∈ (l :: p).getLast?, ∀ b ∈ (q ++ [l]).head?, h.Linked a b := by
  rw [Links.Ring, Cycle.chain_coe_cons, List.append_assoc, ← List.cons_append,
    List.isChain_append]

theorem ring_head_iff : h.Ring (l :: ns) ↔ List.IsChain h.Linked (l :: (ns ++ [l])) :=
  Cycle.chain_coe_cons _ l ns

theorem exists_head (q : List N) (l : N) : ∃ b, (q ++ [l]).head? = some b := by
  cases q <;> exact ⟨_, rfl⟩

theorem exists_last (l : N) (p : List N) : ∃ a, (l :: p).getLast? = some a :=
  ⟨_, List.getLast?_eq_some_getLast (List.cons_ne_nil l p)⟩

theorem Links.Ring.succ_eq (hring : h.Ring (l :: (p ++ q))) (ha : (l :: p).getLast? = some a) :
    h.succ a = (q ++ [l]).head? := by
  obtain ⟨b, hb⟩ := exists_head q l
  exact ((ring_iff.mp hring).2.2 a ha _ hb).1.trans hb.symm

theorem Links.Ring.pred_eq (hring : h.Ring (l :: (p ++ q))) (hb : (q ++ [l]).head? = some b) :
    h.pred b = (l :: p).getLast? := by
  obtain ⟨a, ha⟩ := exists_last l p
  exact ((ring_iff.mp hring).2.2 _ ha b hb).2.trans ha.symm

theorem Links.Ring.head_eq (hring : h.Ring (l :: ns)) : h.succ l = (ns ++ [l]).head? :=
  hring.succ_eq (p := []) rfl

theorem Links.Ring.tail_eq (hring : h.Ring (l :: ns)) : h.pred l = (l :: ns).getLast? :=
  Links.Ring.pred_eq (q := []) (by rwa [List.append_nil]) rfl

theorem Links.Ring.next_eq (hring : h.Ring (l :: (p ++ a :: q))) :
    h.succ a = (q ++ [l]).head? :=
  Links.Ring.succ_eq (p := p ++ [a]) (by simpa using hring)
    (List.getLast?_concat (l := l :: p))

/-- The successors of all nodes but the last one and the predecessors of all but the first one
make a chain. -/
theorem chain_congr (hns : List.IsChain h.Linked ns)
    (hsucc : ∀ x ∈ ns.dropLast, h'.succ x = h.succ x)
    (hpred : ∀ x ∈ ns.tail, h'.pred x = h.pred x) : List.IsChain h'.Linked ns := by
  induction ns with
  | nil => exact .nil
  | cons x ns ih =>
    cases ns with
    | nil => exact .singleton x
    | cons y ns =>
      obtain ⟨⟨hxy, hyx⟩, hrest⟩ := List.isChain_cons_cons.mp hns
      refine List.isChain_cons_cons.mpr ⟨⟨?_, ?_⟩, ih hrest (fun z hz => ?_) (fun z hz => ?_)⟩
      · rw [hsucc x (by simp), hxy]
      · rw [hpred y (by simp), hyx]
      · exact hsucc z (by simp [hz])
      · exact hpred z (List.mem_cons_of_mem _ hz)

theorem Links.Ring.congr (hring : h.Ring (l :: ns))
    (hsame : ∀ x ∈ l :: ns, h'.succ x = h.succ x ∧ h'.pred x = h.pred x) : h'.Ring (l :: ns) := by
  refine ring_head_iff.mpr (chain_congr (ring_head_iff.mp hring) (fun x hx => ?_) fun x hx => ?_)
  · rw [← List.cons_append, List.dropLast_concat] at hx
    exact (hsame x hx).1
  · exact (hsame x (by simpa [or_comm] using hx)).2

theorem ne_last (hns : ns.Nodup) (hlast : ns.getLast? = some last) {x : N}
    (hx : x ∈ ns.dropLast) : x ≠ last := by
  obtain ⟨zs, rfl⟩ := List.getLast?_eq_some_iff.mp hlast
  rw [List.dropLast_concat] at hx
  rintro rfl
  exact List.disjoint_of_nodup_append hns hx (List.mem_singleton_self _)

theorem ne_first (hns : ns.Nodup) (hfirst : ns.head? = some first) {x : N} (hx : x ∈ ns.tail) :
    x ≠ first := by
  obtain ⟨zs, rfl⟩ := List.head?_eq_some_iff.mp hfirst
  rintro rfl
  exact (List.nodup_cons.mp hns).1 hx

/-- The nodes `m` between `a` and `b` give way to a segment, perhaps an empty one. -/
theorem Links.Ring.splice (hring : h.Ring (l :: (p ++ (m ++ q))))
    (hnodup : (l :: (p ++ q)).Nodup) (ha : (l :: p).getLast? = some a)
    (hb : (q ++ [l]).head? = some b)
    (hsucc : ∀ x ∈ l :: (p ++ q), x ≠ a → h'.succ x = h.succ x)
    (hpred : ∀ x ∈ l :: (p ++ q), x ≠ b → h'.pred x = h.pred x)
    (hseg : List.IsChain h'.Linked (a :: (g ++ [b]))) : h'.Ring (l :: (p ++ (g ++ q))) := by
  obtain ⟨hlx, hyl, -⟩ := ring_iff.mp hring
  rw [List.append_assoc] at hyl
  have hyl := (List.isChain_append.mp hyl).2.1
  have hlxNodup : (l :: p).Nodup := (List.sublist_append_left (l :: p) q).nodup hnodup
  have hylNodup : (q ++ [l]).Nodup := by
    refine (List.nodup_append_comm : ([l] ++ q).Nodup ↔ _).mp ?_
    exact ((List.sublist_append_right p q).cons_cons l).nodup hnodup
  have hapart : ∀ x ∈ p, x ≠ b := by
    rintro x hx rfl
    have hmem := List.mem_of_head? hb
    simp only [List.nodup_cons, List.nodup_append, List.mem_append, List.mem_singleton] at *
    grind
  have hapart' : ∀ x ∈ q, x ≠ a := by
    rintro x hx rfl
    have hmem := List.mem_of_getLast? ha
    simp only [List.nodup_cons, List.nodup_append, List.mem_append, List.mem_cons] at *
    grind
  have hlx' : List.IsChain h'.Linked (l :: p) := by
    refine chain_congr hlx (fun x hx => hsucc x ?_ (ne_last hlxNodup ha hx)) fun x hx => ?_
    · exact List.mem_append_left q (List.dropLast_subset _ hx)
    · exact hpred x (by simp_all) (hapart x hx)
  have hyl' : List.IsChain h'.Linked (q ++ [l]) := by
    refine chain_congr hyl (fun x hx => ?_) fun x hx => hpred x ?_ (ne_first hylNodup hb hx)
    · rw [List.dropLast_concat] at hx
      exact hsucc x (by simp [hx]) (hapart' x hx)
    · have hmem := List.mem_of_mem_tail hx
      simp only [List.mem_append, List.mem_cons, List.not_mem_nil, or_false] at hmem ⊢
      tauto
  rw [Links.Ring, Cycle.chain_coe_cons, List.append_assoc, List.append_assoc, ← List.cons_append]
  obtain ⟨us, hus⟩ := List.getLast?_eq_some_iff.mp ha
  obtain ⟨vs, hvs⟩ := List.head?_eq_some_iff.mp hb
  rw [hus] at hlx' ⊢
  rw [hvs] at hyl' ⊢
  have hfront : List.IsChain h'.Linked (us ++ [a] ++ (g ++ [b])) :=
    hlx'.append_overlap hseg (by simp)
  rw [← List.append_assoc] at hfront
  have hall : List.IsChain h'.Linked (us ++ [a] ++ g ++ [b] ++ vs) :=
    hfront.append_overlap hyl' (by simp)
  simpa using hall

end LinkedRings

import Mathlib.Data.List.Basic

/-!
# A choice made along a list

A loop keeps one element of a list and replaces it by a later one which wins against it. If
winning is not an order, the choice depends on the order of the list. Elements which are never
replaced by others, and replace all others, still contain the choice.
-/

namespace RunningChoice

universe u
variable {α : Type u} {wins : α → α → Bool} {G : α → Prop}

def choose (wins : α → α → Bool) : Option α → List α → Option α
  | s, [] => s
  | none, w :: ws => choose wins (some w) ws
  | some s, w :: ws => choose wins (some (if wins w s then w else s)) ws

theorem choose_append (s : Option α) (ws vs : List α) :
    choose wins s (ws ++ vs) = choose wins (choose wins s ws) vs := by
  induction ws generalizing s with
  | nil => rw [List.nil_append, choose]
  | cons w ws ih =>
    cases s with
    | none => exact ih (some w)
    | some s => exact ih (some (if wins w s then w else s))

theorem choose_congr {wins' : α → α → Bool} (ws : List α)
    (h : ∀ w ∈ ws, ∀ s, wins w s = wins' w s) (s : Option α) :
    choose wins s ws = choose wins' s ws := by
  induction ws generalizing s with
  | nil => rfl
  | cons w ws ih =>
    have hrest : ∀ v ∈ ws, ∀ s, wins v s = wins' v s := fun v hv => h v (List.mem_cons_of_mem w hv)
    cases s with
    | none => exact ih hrest (some w)
    | some s =>
      rw [choose, choose, h w List.mem_cons_self]
      exact ih hrest _

/-- The choice is the first element or one of the others. -/
theorem choose_some (wins : α → α → Bool) (s : α) (ws : List α) :
    ∃ z, choose wins (some s) ws = some z ∧ (z = s ∨ z ∈ ws) := by
  induction ws generalizing s with
  | nil => exact ⟨s, rfl, Or.inl rfl⟩
  | cons w ws ih =>
    obtain ⟨z, hz, hmem⟩ := ih (if wins w s then w else s)
    refine ⟨z, hz, ?_⟩
    rcases hmem with rfl | hmem
    · by_cases h : wins w s = true
      · rw [if_pos h]
        exact Or.inr List.mem_cons_self
      · rw [if_neg h]
        exact Or.inl rfl
    · exact Or.inr (List.mem_cons_of_mem w hmem)

variable {ws : List α} {z : α}

theorem choose_mem (h : choose wins none ws = some z) : z ∈ ws := by
  cases ws with
  | nil => exact absurd h (Option.some_ne_none z).symm
  | cons w ws =>
    obtain ⟨v, hv, hmem⟩ := choose_some wins w ws
    obtain rfl : v = z := Option.some.inj (hv.symm.trans h)
    exact List.mem_cons.mpr hmem

/-- From an element of a kind which keeps its place against all others, the choice is of this
kind. -/
theorem choose_kept {s : α} (hs : G s) (hkeep : ∀ w ∈ ws, ¬ G w → wins w s = false)
    (hpair : ws.Pairwise fun v w => G v → ¬ G w → wins w v = false) :
    ∃ z, choose wins (some s) ws = some z ∧ G z := by
  induction ws generalizing s with
  | nil => exact ⟨s, rfl, hs⟩
  | cons w ws ih =>
    obtain ⟨hfirst, hrest⟩ := List.pairwise_cons.mp hpair
    have hlater : ∀ v ∈ ws, ¬ G v → wins v s = false :=
      fun v hv => hkeep v (List.mem_cons_of_mem w hv)
    by_cases hw : G w
    · by_cases hwins : wins w s = true
      · rw [choose, if_pos hwins]
        exact ih hw (fun v hv => hfirst v hv hw) hrest
      · rw [choose, if_neg hwins]
        exact ih hs hlater hrest
    · rw [choose, hkeep w List.mem_cons_self hw]
      exact ih hs hlater hrest

/-- If the elements of a kind keep their place against all others and take it from them, the
choice is of this kind as soon as there is one. -/
theorem choose_kind {s : Option α}
    (hstart : ∀ v, s = some v → ∀ w ∈ ws, (G v → ¬ G w → wins w v = false) ∧
      (¬ G v → G w → wins w v = true))
    (hkeep : ws.Pairwise fun v w => G v → ¬ G w → wins w v = false)
    (htake : ws.Pairwise fun v w => ¬ G v → G w → wins w v = true) (hsome : ∃ g ∈ ws, G g) :
    ∃ z, choose wins s ws = some z ∧ G z := by
  induction ws generalizing s with
  | nil =>
    obtain ⟨g, hg, -⟩ := hsome
    exact absurd hg List.not_mem_nil
  | cons w ws ih =>
    obtain ⟨hkeepw, hkeep⟩ := List.pairwise_cons.mp hkeep
    obtain ⟨htakew, htake⟩ := List.pairwise_cons.mp htake
    by_cases hw : G w
    · -- From here on the choice is of the kind.
      have hself := choose_kept hw (fun v hv => hkeepw v hv hw) hkeep
      cases s with
      | none => exact hself
      | some v =>
        obtain ⟨hv, hnv⟩ := hstart v rfl w List.mem_cons_self
        by_cases hGv : G v
        · rw [choose]
          split
          · exact hself
          · exact choose_kept hGv
              (fun u hu hnu => (hstart v rfl u (List.mem_cons_of_mem w hu)).1 hGv hnu) hkeep
        · rw [choose, hnv hGv hw]
          exact hself
    · have hrest : ∃ g ∈ ws, G g := by
        obtain ⟨g, hg, hGg⟩ := hsome
        rcases List.mem_cons.mp hg with rfl | hg
        · exact absurd hGg hw
        · exact ⟨g, hg, hGg⟩
      have hnext : ∀ u ∈ ws, (G w → ¬ G u → wins u w = false) ∧ (¬ G w → G u → wins u w = true) :=
        fun u hu => ⟨hkeepw u hu, htakew u hu⟩
      cases s with
      | none =>
        refine ih ?_ hkeep htake hrest
        intro v hv
        exact Option.some.inj hv ▸ hnext
      | some v =>
        rw [choose]
        refine ih ?_ hkeep htake hrest
        intro t ht
        obtain rfl := Option.some.inj ht
        split
        · exact hnext
        · exact fun u hu => hstart v rfl u (List.mem_cons_of_mem w hu)

theorem choose_later {pre post : List α} (hpre : z ∉ pre) (hpost : z ∉ post)
    (h : choose wins none (pre ++ z :: post) = some z) : ∀ w ∈ post, wins w z = false := by
  have hgone : ∀ (ws : List α) (s : α), s ≠ z → z ∉ ws → choose wins (some s) ws ≠ some z := by
    intro ws s hne hz hsome
    obtain ⟨v, hv, hmem⟩ := choose_some wins s ws
    obtain rfl : v = z := Option.some.inj (hv.symm.trans hsome)
    exact hmem.elim (fun heq => hne heq.symm) hz
  have hstays : ∀ ws : List α, z ∉ ws → choose wins (some z) ws = some z →
      ∀ w ∈ ws, wins w z = false := by
    intro ws
    induction ws with
    | nil => exact fun _ _ w hw => absurd hw List.not_mem_nil
    | cons w ws ih =>
      intro hz hchoose
      obtain ⟨hzw, hzws⟩ := not_or.mp (fun hor => hz (List.mem_cons.mpr hor))
      by_cases hwins : wins w z = true
      · rw [choose, if_pos hwins] at hchoose
        exact absurd hchoose (hgone ws w (Ne.symm hzw) hzws)
      · rw [choose, if_neg hwins] at hchoose
        intro v hv
        rcases List.mem_cons.mp hv with rfl | hv
        · exact Bool.not_eq_true _ ▸ hwins
        · exact ih hzws hchoose v hv
  rw [choose_append] at h
  cases hs : choose wins none pre with
  | none =>
    rw [hs, choose] at h
    exact hstays post hpost h
  | some s =>
    rw [hs, choose] at h
    have hne : s ≠ z := fun heq => hpre (heq ▸ choose_mem hs)
    by_cases hwins : wins z s = true
    · rw [if_pos hwins] at h
      exact hstays post hpost h
    · rw [if_neg hwins] at h
      exact absurd h (hgone post s hne hpost)

theorem choose_after {w : α} (hsub : [z, w].Sublist ws) (hnodup : ws.Nodup)
    (h : choose wins none ws = some z) : wins w z = false := by
  obtain ⟨first, rest, rfl, hz, hw⟩ := List.cons_sublist_iff.mp hsub
  obtain ⟨pre, post, rfl⟩ := List.append_of_mem hz
  rw [List.append_assoc, List.cons_append] at h hnodup
  obtain ⟨-, hright, hdisjoint⟩ := List.nodup_append.mp hnodup
  have hpre : z ∉ pre := fun hmem => hdisjoint z hmem z List.mem_cons_self rfl
  have hpost := (List.nodup_cons.mp hright).1
  exact choose_later hpre hpost h w (List.mem_append_right post (List.singleton_sublist.mp hw))

end RunningChoice

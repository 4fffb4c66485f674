import Zvbi.ProxyFrameRuns

/-!
# The price of a forced free

If the free list is empty, the oldest frame is released for each client which still waits
for it. The loop compares with the head of the queue, which is the next frame as soon as the
last reference is gone: clients further down the list then lose the next frame too.
-/

namespace ProxyForcedFree
open ProxyQueue ProxyFrames

def frames (s : Server) (c : Clnt) : List Buf :=
  c.pSliced.elim [] fun id => framesFrom id (s.dev c.devIdx).pSliced

/-- The oldest frame is free, the clients which waited for it wait for the rest, and nothing
else has changed. -/
structure CostsOldest (dev : Nat) (x : Buf) (tail : List Buf) (s s' : Server) : Prop where
  freed : s'.dev dev = ⟨(s.dev dev).capture, tail, [x.id]⟩
  others : ∀ i, i ≠ dev → s'.dev i = s.dev i
  lost : ∀ c ∈ s.clnts, c.pSliced = some x.id →
    advance tail c ∈ s'.clnts ∧ frames s c = x :: frames s' (advance tail c)
  kept : ∀ c ∈ s.clnts, c.pSliced ≠ some x.id → c ∈ s'.clnts ∧ frames s' c = frames s c

/-- The clients behind the last one which waits for a frame. -/
def behindLast (id : Nat) (clnts : List Clnt) : List Clnt :=
  (clnts.reverse.takeWhile fun c => decide (c.pSliced ≠ some id)).reverse

theorem behindLast_split {id : Nat} {pre post : List Clnt} {last : Clnt}
    (hlast : last.pSliced = some id) (hpost : ∀ c ∈ post, c.pSliced ≠ some id) :
    behindLast id (pre ++ last :: post) = post := by
  have hreverse : (pre ++ last :: post).reverse = post.reverse ++ last :: pre.reverse := by
    rw [List.reverse_append, List.reverse_cons, List.append_assoc]
    rfl
  have hwhile : ∀ c ∈ post.reverse, decide (c.pSliced ≠ some id) = true :=
    fun c hc => decide_eq_true (hpost c (List.mem_reverse.mp hc))
  have hstop : (last :: pre.reverse).takeWhile (fun c => decide (c.pSliced ≠ some id)) = [] :=
    List.takeWhile_cons_of_neg (by simp [hlast])
  rw [behindLast, hreverse, List.takeWhile_append_of_pos hwhile, hstop, List.append_nil,
    List.reverse_reverse]

/-- A list with a client which waits for a frame has a last one. -/
theorem exists_last {id : Nat} {clnts : List Clnt} (h : ∃ c ∈ clnts, c.pSliced = some id) :
    ∃ pre last post, clnts = pre ++ last :: post ∧ last.pSliced = some id ∧
      ∀ c ∈ post, c.pSliced ≠ some id := by
  induction clnts with
  | nil =>
    obtain ⟨c, hc, -⟩ := h
    cases hc
  | cons c clnts ih =>
    by_cases hlater : ∃ d ∈ clnts, d.pSliced = some id
    · obtain ⟨pre, last, post, rfl, hlast, hpost⟩ := ih hlater
      exact ⟨c :: pre, last, post, rfl, hlast, hpost⟩
    · have hnone : ∀ d ∈ clnts, d.pSliced ≠ some id := fun d hd hp => hlater ⟨d, hd, hp⟩
      obtain ⟨d, hd, hp⟩ := h
      rcases List.mem_cons.mp hd with rfl | hd
      · exact ⟨[], d, clnts, rfl, hp, hnone⟩
      · exact absurd hp (hnone d hd)

section
variable {s s' : Server} {dev : Nat} {x : Buf} {tail : List Buf} {c : Clnt}

/-- A client which waits for a frame of a device belongs to this device. -/
theorem devIdx_of_waiting (h : Consistent s) {b : Nat} (hb : b ∈ ids (s.dev dev).pSliced)
    (hc : c ∈ s.clnts) (hp : c.pSliced = some b) : c.devIdx = dev :=
  h.buffers.apart c.devIdx dev b (List.mem_append_left _ (h.queued c hc b hp).1)
    (List.mem_append_left _ hb)

theorem head_mem (hq : (s.dev dev).pSliced = x :: tail) : x.id ∈ ids (s.dev dev).pSliced := by
  rw [hq]
  exact List.mem_cons_self

/-- No later frame has the identifier of the first. -/
theorem head_not_tail (h : Consistent s) (hq : (s.dev dev).pSliced = x :: tail) :
    x.id ∉ ids tail := by
  have hnodup := queue_nodup h.buffers dev
  rw [hq] at hnodup
  exact (List.nodup_cons.mp hnodup).1

theorem head_waiting (h : Consistent s) (hq : (s.dev dev).pSliced = x :: tail) :
    ∃ c ∈ s.clnts, c.pSliced = some x.id := by
  obtain ⟨hcount, hpos⟩ := h.counted dev [] x tail hq
  rw [hcount] at hpos
  obtain ⟨c, hc, hpoints⟩ := List.countP_pos_iff.mp hpos
  obtain ⟨-, b, hb, hp⟩ := pointsInto_iff.mp hpoints
  obtain rfl := List.mem_singleton.mp hb
  exact ⟨c, hc, hp⟩

structure Visited (dev : Nat) (x : Buf) (tail : List Buf) (c : Clnt) (s s' : Server) : Prop where
  consistent : Consistent s'
  clnts : s'.clnts = modifyClnt c.id (advance tail) s.clnts
  others : ∀ i, i ≠ dev → s'.dev i = s.dev i
  freed : s'.dev dev =
      ⟨(s.dev dev).capture, ⟨x.id, x.refCount - 1⟩ :: tail, (s.dev dev).pFree⟩ ∨
    s'.dev dev = ⟨(s.dev dev).capture, tail, x.id :: (s.dev dev).pFree⟩

theorem forceClnt_head (h : Consistent s) (hq : (s.dev dev).pSliced = x :: tail)
    (hc : c ∈ s.clnts) (hp : c.pSliced = some x.id) :
    ∃ s', forceClnt dev s c.id = some s' ∧ Visited dev x tail c s s' := by
  have hdev : c.devIdx = dev := devIdx_of_waiting h (head_mem hq) hc hp
  have hnodup := queue_nodup h.buffers dev
  rw [hq] at hnodup
  obtain ⟨-, -, -, s', -, -, -, hs', -, hcons⟩ := releaseSliced_spec h hc hp
  have hrelease := hs'
  rw [releaseSliced, hp, Option.bind_some, hdev, hq, framesFrom, if_pos rfl] at hrelease
  dsimp only at hrelease
  obtain ⟨d, hd, rfl⟩ := Option.map_eq_some_iff.mp hrelease
  refine ⟨_, ?_, hcons, rfl, fun i hi => setDev_other _ hi d, ?_⟩
  · rw [forceClnt, findClnt_mem h.distinct hc]
    dsimp only
    have hat : c.pSliced = ((s.dev dev).pSliced.head?).map Buf.id := by
      rw [hp, hq]
      rfl
    rw [if_pos hat, hs']
  · rw [setDev_same]
    rw [releaseBuf] at hd
    by_cases hlast : x.refCount - 1 = 0
    · rw [if_pos hlast, hq] at hd
      dsimp only at hd
      rw [if_pos rfl] at hd
      exact Or.inr (Option.some.inj hd).symm
    · have hunref : unref x.id (x :: tail) = ⟨x.id, x.refCount - 1⟩ :: tail :=
        @unref_split x.id [] tail x rfl hnodup
      rw [if_neg hlast, hq, hunref] at hd
      exact Or.inl (Option.some.inj hd).symm

/-- A client which waits for another frame is left alone. -/
theorem forceClnt_other (h : DistinctClnts s.clnts) (hc : c ∈ s.clnts)
    (hp : c.pSliced ≠ ((s.dev dev).pSliced.head?).map Buf.id) :
    forceClnt dev s c.id = some s := by
  rw [forceClnt, findClnt_mem h hc]
  exact if_neg hp

end

def lose (id : Nat) (tail : List Buf) (c : Clnt) : Clnt :=
  if c.pSliced = some id then advance tail c else c

structure Freed (dev : Nat) (id : Nat) (tail : List Buf) (s s' : Server) : Prop where
  consistent : Consistent s'
  clnts : s'.clnts = s.clnts.map (lose id tail)
  others : ∀ i, i ≠ dev → s'.dev i = s.dev i
  freed : s'.dev dev = ⟨(s.dev dev).capture, tail, [id]⟩

section
variable {s s' : Server} {dev : Nat} {x : Buf} {tail : List Buf} {c : Clnt}

theorem lose_advanced (hx : x.id ∉ ids tail) (c : Clnt) :
    lose x.id tail (advance tail c) = advance tail c :=
  if_neg fun hp => hx (next_mem hp)

theorem lose_visited (h : DistinctClnts s.clnts) (hx : x.id ∉ ids tail) (hc : c ∈ s.clnts)
    (hp : c.pSliced = some x.id) :
    (modifyClnt c.id (advance tail) s.clnts).map (lose x.id tail) =
      s.clnts.map (lose x.id tail) := by
  rw [modifyClnt, List.map_map]
  apply List.map_congr_left
  intro a ha
  rw [Function.comp_apply]
  by_cases hid : a.id = c.id
  · obtain rfl := h.eq ha hc hid
    rw [if_pos rfl, lose_advanced hx, lose, if_pos hp]
  · rw [if_neg hid]

/-- After the visit of a client a later one still waits, so the head has other references. -/
theorem Visited.more (h : Consistent s) (hv : Visited dev x tail c s s')
    (hq : (s.dev dev).pSliced = x :: tail) {d : Clnt} (hd : d ∈ s.clnts) (hne : d.id ≠ c.id)
    (hp : d.pSliced = some x.id) :
    s'.dev dev = ⟨(s.dev dev).capture, ⟨x.id, x.refCount - 1⟩ :: tail, (s.dev dev).pFree⟩ := by
  refine hv.freed.resolve_right fun hlast => ?_
  have hmem : d ∈ s'.clnts := by
    rw [hv.clnts]
    exact modifyClnt_of_mem hd hne
  have hqueued := (hv.consistent.queued d hmem x.id hp).1
  rw [devIdx_of_waiting h (head_mem hq) hd hp, hlast] at hqueued
  exact head_not_tail h hq hqueued

/-- After the visit of the only client which waits, the head is free. -/
theorem Visited.last (h : Consistent s) (hv : Visited dev x tail c s s')
    (hq : (s.dev dev).pSliced = x :: tail)
    (honly : ∀ d ∈ s.clnts, d.pSliced = some x.id → d.id = c.id) :
    s'.dev dev = ⟨(s.dev dev).capture, tail, x.id :: (s.dev dev).pFree⟩ := by
  refine hv.freed.resolve_left fun hmore => ?_
  have hhead : (s'.dev dev).pSliced = ⟨x.id, x.refCount - 1⟩ :: tail := by rw [hmore]
  obtain ⟨d, hd, hp⟩ := head_waiting hv.consistent hhead
  rw [hv.clnts] at hd
  obtain ⟨a, ha, ⟨-, rfl⟩ | ⟨hid, rfl⟩⟩ := modifyClnt_mem hd
  · exact head_not_tail h hq (next_mem hp)
  · exact hid (honly d ha hp)

/-- The loop over clients of which the last one waits, if no client behind it does. -/
theorem foldlM_waiting (rest : List Clnt) (last : Clnt) {s : Server} {x : Buf}
    (h : Consistent s) (hq : (s.dev dev).pSliced = x :: tail) (hfree : (s.dev dev).pFree = [])
    (hrest : ∀ c ∈ rest, ∃ a ∈ s.clnts, a.id = c.id) (hmem : last ∈ s.clnts)
    (hp : last.pSliced = some x.id) (hnodup : ((rest ++ [last]).map Clnt.id).Nodup)
    (hall : ∀ d ∈ s.clnts, d.pSliced = some x.id → d.id ∈ (rest ++ [last]).map Clnt.id) :
    ∃ s', ((rest ++ [last]).map Clnt.id).foldlM (forceClnt dev) s = some s' ∧
      Freed dev x.id tail s s' := by
  induction rest generalizing s x with
  | nil =>
    obtain ⟨s', hs', hv⟩ := forceClnt_head h hq hmem hp
    have honly : ∀ d ∈ s.clnts, d.pSliced = some x.id → d.id = last.id :=
      fun d hd hdp => List.mem_singleton.mp (hall d hd hdp)
    have hlast := hv.last h hq honly
    rw [hfree] at hlast
    refine ⟨s', ?_, hv.consistent, ?_, hv.others, hlast⟩
    · rw [List.nil_append, List.map_singleton, List.foldlM_cons, hs']
      rfl
    · rw [hv.clnts]
      apply List.map_congr_left
      intro a ha
      by_cases hid : a.id = last.id
      · obtain rfl := h.distinct.eq ha hmem hid
        rw [if_pos rfl, lose, if_pos hp]
      · rw [if_neg hid, lose, if_neg fun hap => hid (honly a ha hap)]
  | cons c rest ih =>
    rw [List.cons_append, List.map_cons] at hnodup
    obtain ⟨hnot, hnodup⟩ := List.nodup_cons.mp hnodup
    obtain ⟨a, ha, hid⟩ := hrest c List.mem_cons_self
    have hne : last.id ≠ a.id := by
      intro heq
      apply hnot
      rw [List.map_append, ← hid, ← heq]
      exact List.mem_append_right _ List.mem_cons_self
    rw [List.cons_append, List.map_cons, List.foldlM_cons, ← hid]
    by_cases hap : a.pSliced = some x.id
    · obtain ⟨s₁, hs₁, hv⟩ := forceClnt_head h hq ha hap
      have hmore := hv.more h hq hmem hne hp
      have hq₁ : (s₁.dev dev).pSliced = ⟨x.id, x.refCount - 1⟩ :: tail := by rw [hmore]
      have hfree₁ : (s₁.dev dev).pFree = [] := by rw [hmore, ← hfree]
      have hrest₁ : ∀ b ∈ rest, ∃ d ∈ s₁.clnts, d.id = b.id := by
        intro b hb
        obtain ⟨d, hd, hdid⟩ := hrest b (List.mem_cons_of_mem _ hb)
        rw [hv.clnts]
        refine ⟨_, List.mem_map_of_mem hd, ?_⟩
        split
        · exact hdid
        · exact hdid
      have hmem₁ : last ∈ s₁.clnts := by
        rw [hv.clnts]
        exact modifyClnt_of_mem hmem hne
      have hall₁ : ∀ d ∈ s₁.clnts, d.pSliced = some x.id → d.id ∈ (rest ++ [last]).map Clnt.id := by
        intro d hd hdp
        rw [hv.clnts] at hd
        obtain ⟨b, hb, ⟨-, rfl⟩ | ⟨hbid, rfl⟩⟩ := modifyClnt_mem hd
        · exact absurd (next_mem hdp) (head_not_tail h hq)
        · exact (List.mem_cons.mp (hall d hb hdp)).resolve_left fun heq => hbid (heq.trans hid.symm)
      obtain ⟨s', hs', hfreed⟩ := ih hv.consistent hq₁ hfree₁ hrest₁ hmem₁ hp hnodup hall₁
      refine ⟨s', by rw [hs₁]; exact hs', hfreed.consistent, ?_, ?_, ?_⟩
      · rw [hfreed.clnts, hv.clnts]
        exact lose_visited (x := x) h.distinct (head_not_tail h hq) ha hap
      · exact fun i hi => (hfreed.others i hi).trans (hv.others i hi)
      · rw [hfreed.freed, hmore]
    · have hskip : forceClnt dev s a.id = some s := by
        apply forceClnt_other h.distinct ha
        rw [hq]
        exact hap
      have hall₁ : ∀ d ∈ s.clnts, d.pSliced = some x.id → d.id ∈ (rest ++ [last]).map Clnt.id := by
        intro d hd hdp
        refine (List.mem_cons.mp (hall d hd hdp)).resolve_left fun heq => hap ?_
        rw [h.distinct.eq ha hd (hid.trans heq.symm)]
        exact hdp
      obtain ⟨s', hs', hfreed⟩ := ih h hq hfree (fun b hb => hrest b (List.mem_cons_of_mem _ hb))
        hmem hp hnodup hall₁
      exact ⟨s', by rw [hskip]; exact hs', hfreed⟩

/-- The loop over clients none of which is at the head of the queue. -/
theorem foldlM_idle (h : DistinctClnts s.clnts) (rest : List Clnt)
    (hrest : ∀ c ∈ rest, c ∈ s.clnts ∧ c.pSliced ≠ ((s.dev dev).pSliced.head?).map Buf.id) :
    (rest.map Clnt.id).foldlM (forceClnt dev) s = some s := by
  induction rest with
  | nil => rfl
  | cons c rest ih =>
    obtain ⟨⟨hc, hp⟩, hlater⟩ := List.forall_mem_cons.mp hrest
    rw [List.map_cons, List.foldlM_cons, forceClnt_other h hc hp]
    exact ih hlater

/-- Only the record of the released client changes. -/
theorem releaseSliced_clnts {req : Clnt} (hs' : releaseSliced s req = some s') :
    ∃ id queue, req.pSliced = some id ∧
      (∃ b, framesFrom id (s.dev req.devIdx).pSliced = b :: queue) ∧
      s'.clnts = modifyClnt req.id (advance queue) s.clnts := by
  rw [releaseSliced] at hs'
  obtain ⟨id, hid, hrest⟩ := Option.bind_eq_some_iff.mp hs'
  cases hfrom : framesFrom id (s.dev req.devIdx).pSliced with
  | nil =>
    rw [hfrom] at hrest
    cases hrest
  | cons b queue =>
    rw [hfrom] at hrest
    obtain ⟨d, -, rfl⟩ := Option.map_eq_some_iff.mp hrest
    exact ⟨id, queue, hid, ⟨b, hfrom⟩, rfl⟩

/-- The loop adds no record for a client which it does not visit. -/
theorem mem_of_foldlM (rest : List Nat) {s s' : Server}
    (hs' : rest.foldlM (forceClnt dev) s = some s') (hc : c ∈ s'.clnts) (hid : c.id ∉ rest) :
    c ∈ s.clnts := by
  induction rest generalizing s with
  | nil =>
    obtain rfl := Option.some.inj hs'
    exact hc
  | cons id rest ih =>
    obtain ⟨hne, hnot⟩ := List.ne_and_not_mem_of_not_mem_cons hid
    rw [List.foldlM_cons] at hs'
    obtain ⟨s₁, hs₁, hrest⟩ := Option.bind_eq_some_iff.mp hs'
    have hmem := ih hrest hnot
    rw [forceClnt] at hs₁
    cases hfind : findClnt s.clnts id with
    | none =>
      rw [hfind] at hs₁
      obtain rfl := Option.some.inj hs₁
      exact hmem
    | some req =>
      rw [hfind] at hs₁
      dsimp only at hs₁
      split at hs₁
      · obtain ⟨-, queue, -, -, hclnts⟩ := releaseSliced_clnts hs₁
        rw [hclnts] at hmem
        obtain ⟨a, ha, ⟨haid, rfl⟩ | ⟨-, rfl⟩⟩ := modifyClnt_mem hmem
        · exact absurd (haid.trans (findClnt_some hfind).2) hne
        · exact ha
      · obtain rfl := Option.some.inj hs₁
        exact hmem

/-- A client at the head of the queue does not keep its place. -/
theorem foldlM_takes (h : Consistent s) {rest : List Clnt} (hnodup : (rest.map Clnt.id).Nodup)
    (hrest : ∀ c ∈ rest, c ∈ s.clnts)
    (hat : ∃ c ∈ rest, c.pSliced = ((s.dev dev).pSliced.head?).map Buf.id)
    (hs' : (rest.map Clnt.id).foldlM (forceClnt dev) s = some s') :
    ∃ c ∈ rest, c.pSliced = ((s.dev dev).pSliced.head?).map Buf.id ∧ c ∉ s'.clnts := by
  induction rest with
  | nil =>
    obtain ⟨c, hc, -⟩ := hat
    cases hc
  | cons c rest ih =>
    obtain ⟨hnot, hnodup⟩ := List.nodup_cons.mp hnodup
    obtain ⟨hc, hlater⟩ := List.forall_mem_cons.mp hrest
    rw [List.map_cons, List.foldlM_cons] at hs'
    by_cases hp : c.pSliced = ((s.dev dev).pSliced.head?).map Buf.id
    · refine ⟨c, List.mem_cons_self, hp, fun hmem => ?_⟩
      obtain ⟨s₁, hs₁, hfold⟩ := Option.bind_eq_some_iff.mp hs'
      have hkept := mem_of_foldlM _ hfold hmem hnot
      rw [forceClnt, findClnt_mem h.distinct hc] at hs₁
      dsimp only at hs₁
      rw [if_pos hp] at hs₁
      obtain ⟨id, queue, hcp, ⟨b, hfrom⟩, hclnts⟩ := releaseSliced_clnts hs₁
      rw [hclnts] at hkept
      obtain ⟨a, ha, ⟨-, heq⟩ | ⟨hid, rfl⟩⟩ := modifyClnt_mem hkept
      · have hnext : (queue.head?).map Buf.id = some id := by
          rw [← hcp, heq]
          rfl
        obtain ⟨pre, y, post, hsplit, hy, hfrom'⟩ := framesFrom_split (h.queued c hc id hcp).1
        obtain ⟨rfl, rfl⟩ := List.cons.inj (hfrom.symm.trans hfrom')
        have hdistinct := queue_nodup h.buffers c.devIdx
        rw [hsplit, ids_append, List.nodup_append] at hdistinct
        apply (List.nodup_cons.mp hdistinct.2.1).1
        rw [hy]
        exact next_mem hnext
      · exact hid rfl
    · rw [forceClnt_other h.distinct hc hp] at hs'
      obtain ⟨d, hd, hdp⟩ := hat
      rcases List.mem_cons.mp hd with rfl | hd
      · exact absurd hdp hp
      · obtain ⟨e, he, hep, hgone⟩ := ih hnodup hlater ⟨d, hd, hdp⟩ hs'
        exact ⟨e, List.mem_cons_of_mem _ he, hep, hgone⟩

end

section
variable {s s' : Server} {dev : Nat} {x : Buf} {tail : List Buf}

theorem Freed.costs (h : Consistent s) (hq : (s.dev dev).pSliced = x :: tail)
    (hf : Freed dev x.id tail s s') : CostsOldest dev x tail s s' := by
  have hqueue : (s'.dev dev).pSliced = tail := by rw [hf.freed]
  refine ⟨hf.freed, hf.others, fun c hc hp => ⟨?_, ?_⟩, fun c hc hp => ⟨?_, ?_⟩⟩
  · rw [hf.clnts]
    exact List.mem_map.mpr ⟨c, hc, if_pos hp⟩
  · have hdev : c.devIdx = dev := devIdx_of_waiting h (head_mem hq) hc hp
    have hbefore : frames s c = x :: tail := by
      rw [frames, hp, Option.elim_some, hdev, hq, framesFrom, if_pos rfl]
    have hkept : (advance tail c).devIdx = c.devIdx := rfl
    have hafter : frames s' (advance tail c) = tail := by
      rw [frames, hkept, hdev, hqueue]
      cases tail with
      | nil => rfl
      | cons y tail => exact if_pos rfl
    rw [hbefore, hafter]
  · rw [hf.clnts]
    exact List.mem_map.mpr ⟨c, hc, if_neg hp⟩
  · rw [frames, frames]
    cases hb : c.pSliced with
    | none => rfl
    | some b =>
      rw [hb] at hp
      rw [Option.elim_some, Option.elim_some]
      by_cases hdev : c.devIdx = dev
      · have hne : x.id ≠ b := fun heq => hp (congrArg some heq.symm)
        rw [hdev, hqueue, hq, framesFrom, if_neg hne]
      · rw [hf.others _ hdev]

/-- The loop splits behind the last client which waits for the oldest frame. -/
theorem forceFree_split (h : Consistent s) (hfree : (s.dev dev).pFree = [])
    (hq : (s.dev dev).pSliced = x :: tail) :
    ∃ s₁, Freed dev x.id tail s s₁ ∧
      forceFree s dev = ((behindLast x.id s.clnts).map Clnt.id).foldlM (forceClnt dev) s₁ ∧
      ((behindLast x.id s.clnts).map Clnt.id).Nodup ∧
      ∀ c ∈ behindLast x.id s.clnts, c ∈ s.clnts ∧ c ∈ s₁.clnts ∧ c.pSliced ≠ some x.id := by
  obtain ⟨pre, last, post, hsplit, hlast, hpost⟩ := exists_last (head_waiting h hq)
  have hids : s.clnts.map Clnt.id = (pre ++ [last]).map Clnt.id ++ post.map Clnt.id := by
    rw [hsplit, ← List.map_append, List.append_assoc]
    rfl
  have hdistinct := h.distinct
  rw [DistinctClnts, hids, List.nodup_append] at hdistinct
  have hpre : ∀ c ∈ pre, ∃ a ∈ s.clnts, a.id = c.id := by
    intro c hc
    refine ⟨c, ?_, rfl⟩
    rw [hsplit]
    exact List.mem_append_left _ hc
  have hmem : last ∈ s.clnts := by
    rw [hsplit]
    exact List.mem_append_right _ List.mem_cons_self
  have hall : ∀ d ∈ s.clnts, d.pSliced = some x.id → d.id ∈ (pre ++ [last]).map Clnt.id := by
    intro d hd hdp
    have hd' : d ∈ (pre ++ [last]) ++ post := by
      rw [hsplit] at hd
      rw [List.append_assoc]
      exact hd
    rcases List.mem_append.mp hd' with hd' | hd'
    · exact List.mem_map_of_mem hd'
    · exact absurd hdp (hpost d hd')
  obtain ⟨s₁, hs₁, hf⟩ := foldlM_waiting pre last h hq hfree hpre hmem hlast hdistinct.1 hall
  have hbehind : behindLast x.id s.clnts = post := by
    rw [hsplit]
    exact behindLast_split hlast hpost
  refine ⟨s₁, hf, ?_, hbehind ▸ hdistinct.2.1, ?_⟩
  · have hfull : (s.dev dev).pFree = [] ∧ (s.dev dev).pSliced.isEmpty = false :=
      ⟨hfree, by rw [hq]; rfl⟩
    rw [forceFree, if_pos hfull, hids, List.foldlM_append, hs₁, hbehind]
    rfl
  · rw [hbehind]
    intro c hc
    have hc' : c ∈ s.clnts := by
      rw [hsplit]
      exact List.mem_append_right _ (List.mem_cons_of_mem _ hc)
    refine ⟨hc', ?_, hpost c hc⟩
    rw [hf.clnts]
    exact List.mem_map.mpr ⟨c, hc', if_neg (hpost c hc)⟩

theorem Freed.head (hf : Freed dev x.id tail s s') :
    ((s'.dev dev).pSliced.head?).map Buf.id = (tail.head?).map Buf.id := by rw [hf.freed]

/-- Without a client at the next frame behind the last one at the oldest, one frame is lost. -/
theorem forceFree_costs (h : Consistent s) (hfree : (s.dev dev).pFree = [])
    (hq : (s.dev dev).pSliced = x :: tail)
    (hbehind : ∀ c ∈ behindLast x.id s.clnts, c.pSliced ≠ (tail.head?).map Buf.id) :
    ∃ s', forceFree s dev = some s' ∧ CostsOldest dev x tail s s' := by
  obtain ⟨s₁, hf, hfold, -, hmem⟩ := forceFree_split h hfree hq
  refine ⟨s₁, ?_, hf.costs h hq⟩
  rw [hfold]
  apply foldlM_idle hf.consistent.distinct
  intro c hc
  rw [hf.head]
  exact ⟨(hmem c hc).2.1, hbehind c hc⟩

/-- With such a client this one loses its next frame, or there is none which it could lose. -/
theorem forceFree_exceeds (h : Consistent s) (hfree : (s.dev dev).pFree = [])
    (hq : (s.dev dev).pSliced = x :: tail)
    (hbehind : ∃ c ∈ behindLast x.id s.clnts, c.pSliced = (tail.head?).map Buf.id) (s' : Server)
    (hs' : forceFree s dev = some s') : ¬ CostsOldest dev x tail s s' := by
  obtain ⟨s₁, hf, hfold, hnodup, hmem⟩ := forceFree_split h hfree hq
  rw [hfold] at hs'
  rw [← hf.head] at hbehind
  obtain ⟨c, hc, -, hgone⟩ := foldlM_takes hf.consistent hnodup
    (fun c hc => (hmem c hc).2.1) hbehind hs'
  intro hcosts
  exact hgone (hcosts.kept c (hmem c hc).1 (hmem c hc).2.2).1

/-- A forced free costs one frame exactly if no client behind the last one which waits for the
oldest frame waits for the next one, or is idle if there is no next one. -/
theorem forced_free (h : Consistent s) (hfree : (s.dev dev).pFree = [])
    (hq : (s.dev dev).pSliced = x :: tail) :
    (∃ s', forceFree s dev = some s' ∧ CostsOldest dev x tail s s') ↔
      ∀ c ∈ behindLast x.id s.clnts, c.pSliced ≠ (tail.head?).map Buf.id := by
  constructor
  · rintro ⟨s', hs', hcosts⟩ c hc hat
    exact forceFree_exceeds h hfree hq ⟨c, hc, hat⟩ s' hs' hcosts
  · exact forceFree_costs h hfree hq

end

/-- Both buffers hold a frame. The client which was sent the first of them is `sent`. -/
def twoFrames (sent : Nat) : List Op :=
  [.accept 0, .accept 0, .connect 0 0 true ⟨true, 2, fun _ => 1⟩,
    .connect 1 0 true ⟨true, 2, fun _ => 1⟩, .frame 0 true, .frame 0 true, .forward sent]

theorem twoFrames_state (sent : Nat) (queue : List Buf) (behind : List (Option Nat))
    (hok : GuardedRuns.Permitted step (fun s op => ProxyFrameRuns.careful s op = true) (initial 0)
      (twoFrames sent))
    (hstate : (GuardedRuns.run step (initial 0) (twoFrames sent)).map (fun s =>
      ((s.dev 0).pFree, (s.dev 0).pSliced, (behindLast 1 s.clnts).map Clnt.pSliced)) =
        some ([], queue, behind)) :
    ∃ s, GuardedRuns.run step (initial 0) (twoFrames sent) = some s ∧ Consistent s ∧
      (s.dev 0).pFree = [] ∧ (s.dev 0).pSliced = queue ∧
      (behindLast 1 s.clnts).map Clnt.pSliced = behind := by
  obtain ⟨s, hs, hcons⟩ := GuardedRuns.run_keeps Consistent
    (fun s op hcons hok => ProxyFrameRuns.step_consistent hcons hok)
    (ProxyFrameRuns.initial_consistent 0) hok
  rw [hs] at hstate
  obtain ⟨hfree, hrest⟩ := Prod.mk.inj (Option.some.inj hstate)
  obtain ⟨hqueue, hbehind⟩ := Prod.mk.inj hrest
  exact ⟨s, hs, hcons, hfree, hqueue, hbehind⟩

/-- The first client was sent a frame, the second one loses it. -/
theorem forced_free_second :
    ∃ s, GuardedRuns.run step (initial 0) (twoFrames 0) = some s ∧
      ∃ s', forceFree s 0 = some s' ∧ CostsOldest 0 ⟨1, 1⟩ [⟨0, 2⟩] s s' := by
  obtain ⟨s, hs, hcons, hfree, hqueue, hbehind⟩ :=
    twoFrames_state 0 [⟨1, 1⟩, ⟨0, 2⟩] [] (by decide) rfl
  refine ⟨s, hs, (forced_free hcons hfree hqueue).mpr ?_⟩
  intro c hc hat
  have hmem := List.mem_map_of_mem (f := Clnt.pSliced) hc
  rw [hbehind] at hmem
  cases hmem

/-- The second client was sent a frame. After the first one lost it, the second one loses the
next. -/
theorem forced_free_both :
    ∃ s, GuardedRuns.run step (initial 0) (twoFrames 1) = some s ∧ Consistent s ∧
      (s.dev 0).pFree = [] ∧ (s.dev 0).pSliced = [⟨1, 1⟩, ⟨0, 2⟩] ∧
      ¬ ∃ s', forceFree s 0 = some s' ∧ CostsOldest 0 ⟨1, 1⟩ [⟨0, 2⟩] s s' := by
  obtain ⟨s, hs, hcons, hfree, hqueue, hbehind⟩ :=
    twoFrames_state 1 [⟨1, 1⟩, ⟨0, 2⟩] [some 0] (by decide) rfl
  refine ⟨s, hs, hcons, hfree, hqueue, fun ⟨s', hs', hcosts⟩ => ?_⟩
  refine forceFree_exceeds hcons hfree hqueue ?_ s' hs' hcosts
  have hmem : some 0 ∈ (behindLast 1 s.clnts).map Clnt.pSliced := by
    rw [hbehind]
    exact List.mem_cons_self
  obtain ⟨c, hc, hp⟩ := List.mem_map.mp hmem
  exact ⟨c, hc, hp⟩

end ProxyForcedFree

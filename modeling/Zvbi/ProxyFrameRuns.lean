import Zvbi.ProxyFrames

/-!
# Runs of the frame queues

Each step of the daemon keeps the references right, unless an update of the services
leaves a client without services while frames are queued for it, or a frame is freed by
force when it is the only buffer of the device.
-/

namespace ProxyFrameRuns
open ProxyQueue ProxyFrames

variable {s : Server} {id dev : Nat} {env : Env} {req : Clnt} {op : Op}

variable {s' : Server} {f : Clnt → Clnt}

theorem consistent_of_queues (h : Consistent s) (hclnts : s'.clnts = s.clnts)
    (hnext : s'.nextClnt = s.nextClnt) (hqueue : ∀ i, (s'.dev i).pSliced = (s.dev i).pSliced)
    (hcapture : ∀ i, (s'.dev i).capture = false → (s.dev i).capture = false) (happart : Apart s') :
    Consistent s' := by
  refine ⟨?_, ?_, happart, ?_, ?_, ?_⟩
  · rw [hclnts]
    exact h.distinct
  · rw [hclnts, hnext]
    exact h.fresh
  · rw [hclnts]
    intro c hc b hb
    rw [hqueue]
    exact h.queued c hc b hb
  · rw [hclnts]
    intro dev
    rw [hqueue]
    exact h.counted dev
  · intro dev hclosed
    rw [hqueue]
    exact h.closed dev (hcapture dev hclosed)

theorem consistent_of_devs (h : Consistent s) (hclnts : s'.clnts = s.clnts)
    (hnext : s'.nextClnt = s.nextClnt) (hbuf : s'.nextBuf = s.nextBuf)
    (hdev : ∀ i, s'.dev i = s.dev i) : Consistent s' := by
  refine consistent_of_queues h hclnts hnext (fun i => by rw [hdev]) (fun i hi => hdev i ▸ hi)
    ⟨fun i => ?_, fun i b hb => ?_, fun i j b hi hj => ?_⟩
  · rw [hdev]
    exact h.buffers.nodup i
  · rw [hdev] at hb
    rw [hbuf]
    exact h.buffers.bound i b hb
  · rw [hdev] at hi hj
    exact h.buffers.apart i j b hi hj

theorem holders_map (hdev : ∀ c, (f c).devIdx = c.devIdx) (hp : ∀ c, (f c).pSliced = c.pSliced)
    (clnts : List Clnt) (dev : Nat) (l : List Nat) :
    holders (clnts.map f) dev l = holders clnts dev l := by
  rw [holders, holders, List.countP_map]
  apply List.countP_congr
  intro c _
  rw [Function.comp_apply, pointsInto, pointsInto, hdev, hp]

/-- Clients change which keep their pointers, and stay active if they have frames. -/
theorem consistent_of_map (h : Consistent s) (hid : ∀ c, (f c).id = c.id)
    (hdev : ∀ c, (f c).devIdx = c.devIdx) (hp : ∀ c, (f c).pSliced = c.pSliced)
    (hactive : ∀ c ∈ s.clnts, c.pSliced ≠ none → (f c).active = true) :
    Consistent (s.setClnts (s.clnts.map f)) := by
  refine ⟨?_, ?_, h.buffers.setClnts _, ?_, ?_, h.closed⟩
  · have hids : (s.clnts.map f).map Clnt.id = s.clnts.map Clnt.id := map_ids hid s.clnts
    have hdistinct := h.distinct
    rw [DistinctClnts, ← hids] at hdistinct
    exact hdistinct
  · intro c' hc'
    obtain ⟨c, hc, rfl⟩ := List.mem_map.mp hc'
    rw [hid]
    exact h.fresh c hc
  · intro c' hc' b hb
    obtain ⟨c, hc, rfl⟩ := List.mem_map.mp hc'
    rw [hp] at hb
    rw [hdev]
    refine ⟨(h.queued c hc b hb).1, hactive c hc ?_⟩
    rw [hb]
    exact Option.some_ne_none b
  · intro dev pre x post hsplit
    have hcount := h.counted dev pre x post hsplit
    exact ⟨hcount.1.trans (holders_map hdev hp s.clnts dev _).symm, hcount.2⟩

/-- A client without frames changes. -/
theorem modifyClnt_consistent (h : Consistent s)
    (hnone : ∀ c ∈ s.clnts, c.id = id → c.pSliced = none) (hid : ∀ c, (f c).id = c.id)
    (hdev : ∀ c, (f c).devIdx = c.devIdx) (hp : ∀ c, (f c).pSliced = c.pSliced) :
    Consistent (s.setClnts (modifyClnt id f s.clnts)) := by
  apply consistent_of_map h
  · intro c
    split
    · exact hid c
    · rfl
  · intro c
    split
    · exact hdev c
    · rfl
  · intro c
    split
    · exact hp c
    · rfl
  · intro c hc hqueued
    split
    · rename_i hcid
      exact absurd (hnone c hc hcid) hqueued
    · obtain ⟨b, hb⟩ := Option.ne_none_iff_exists'.mp hqueued
      exact (h.queued c hc b hb).2

/-- The queue of a device is emptied when no client has frames there. -/
theorem consistent_of_empty (h : Consistent s) {v : Dev}
    (hnone : ∀ c ∈ s.clnts, c.devIdx = dev → c.pSliced = none) (hv : v.pSliced = [])
    (happart : Apart (s.setDev dev v)) : Consistent (s.setDev dev v) := by
  refine ⟨h.distinct, h.fresh, happart, ?_, ?_, ?_⟩
  · intro c hc b hb
    have hdev : c.devIdx ≠ dev := by
      intro hdev
      rw [hnone c hc hdev] at hb
      cases hb
    rw [setDev_other s hdev]
    exact h.queued c hc b hb
  · intro i
    by_cases hi : i = dev
    · rw [hi, setDev_same, hv]
      intro pre x post hsplit
      exact absurd hsplit (by simp)
    · rw [setDev_other s hi]
      exact h.counted i
  · intro i hi
    by_cases hidev : i = dev
    · rw [hidev, setDev_same]
      exact hv
    · rw [setDev_other s hidev] at hi ⊢
      exact h.closed i hi

/-- A client without frames goes. -/
theorem removeClnt_consistent (h : Consistent s)
    (hnone : ∀ c ∈ s.clnts, c.id = id → c.pSliced = none) :
    Consistent (s.setClnts (s.clnts.filter fun c => c.id ≠ id)) := by
  have hsub : (s.clnts.filter fun c => c.id ≠ id).Sublist s.clnts := List.filter_sublist
  refine ⟨h.distinct.sublist (hsub.map Clnt.id), fun c hc => h.fresh c (hsub.subset hc),
    h.buffers.setClnts _, fun c hc => h.queued c (hsub.subset hc), ?_, h.closed⟩
  intro dev pre x post hsplit
  obtain ⟨hcount, hpos⟩ := h.counted dev pre x post hsplit
  refine ⟨hcount.trans ?_, hpos⟩
  dsimp only [Server.setClnts]
  rw [holders, holders, List.countP_filter]
  apply List.countP_congr
  intro c hc
  rw [Bool.and_eq_true, decide_eq_true_iff]
  constructor
  · intro hpoints
    refine ⟨hpoints, fun hid => ?_⟩
    obtain ⟨-, b, -, hb⟩ := pointsInto_iff.mp hpoints
    rw [hnone c hc hid] at hb
    cases hb
  · exact And.left

theorem addConnection_consistent (h : Consistent s) (dev : Nat) :
    Consistent (addConnection s dev) := by
  refine ⟨?_, ?_, ⟨h.buffers.nodup, h.buffers.bound, h.buffers.apart⟩, ?_, ?_, h.closed⟩
  · rw [DistinctClnts, addConnection, List.map_append, List.nodup_append]
    refine ⟨h.distinct, List.nodup_singleton _, ?_⟩
    intro i hi j hj
    obtain ⟨c, hc, rfl⟩ := List.mem_map.mp hi
    obtain rfl := List.mem_singleton.mp hj
    exact Nat.ne_of_lt (h.fresh c hc)
  · intro c hc
    rcases List.mem_append.mp hc with hc | hc
    · exact Nat.lt_succ_of_lt (h.fresh c hc)
    · obtain rfl := List.mem_singleton.mp hc
      exact Nat.lt_succ_self _
  · intro c hc b hb
    rcases List.mem_append.mp hc with hc | hc
    · exact h.queued c hc b hb
    · obtain rfl := List.mem_singleton.mp hc
      cases hb
  · intro i pre x post hsplit
    obtain ⟨hcount, hpos⟩ := h.counted i pre x post hsplit
    refine ⟨hcount.trans ?_, hpos⟩
    rw [holders, holders, addConnection, List.countP_append, List.countP_singleton]
    have hnone : pointsInto i (ids (pre ++ [x]))
        ⟨s.nextClnt, dev, .waitConReq, 0, 0, none⟩ = false :=
      pointsInto_false fun _ hp => absurd hp (Option.some_ne_none _).symm
    rw [hnone]
    rfl

theorem receive_id (dev id : Nat) (c : Clnt) : (c.receive dev id).id = c.id := by
  rw [Clnt.receive]
  split
  · rfl
  · rfl

theorem receive_devIdx (dev id : Nat) (c : Clnt) : (c.receive dev id).devIdx = c.devIdx := by
  rw [Clnt.receive]
  split
  · rfl
  · rfl

theorem receive_active (dev id : Nat) (c : Clnt) : (c.receive dev id).active = c.active := by
  rw [Clnt.receive]
  split
  · rfl
  · rfl

/-- The pointer of a client after a frame was queued. -/
theorem receive_pSliced (dev id : Nat) (c : Clnt) :
    (c.receive dev id).pSliced = c.pSliced ∨
      (c.wants dev = true ∧ c.pSliced = none ∧ (c.receive dev id).pSliced = some id) := by
  rw [Clnt.receive]
  split
  · rename_i hnew
    rw [Bool.and_eq_true, Option.isNone_iff_eq_none] at hnew
    exact Or.inr ⟨hnew.1, hnew.2, rfl⟩
  · exact Or.inl rfl

theorem receive_wanted {c : Clnt} (h : c.wants dev = true) (id : Nat) :
    ∃ b, (c.receive dev id).pSliced = some b := by
  cases hp : c.pSliced with
  | none =>
    refine ⟨id, ?_⟩
    rw [Clnt.receive, h, hp]
    rfl
  | some b =>
    refine ⟨b, ?_⟩
    rw [Clnt.receive, h, hp]
    exact hp

/-- The older frames have the references they had. -/
theorem receive_holders {l : List Nat} (hid : id ∉ l) (clnts : List Clnt) (i : Nat) :
    holders (clnts.map (Clnt.receive dev id)) i l = holders clnts i l := by
  rw [holders, holders, List.countP_map]
  apply List.countP_congr
  intro c _
  rw [Function.comp_apply, pointsInto_iff, pointsInto_iff, receive_devIdx]
  apply and_congr_right
  intro _
  rcases receive_pSliced dev id c with hsame | ⟨-, hnone, hnew⟩
  · rw [hsame]
  · rw [hnone, hnew]
    constructor
    · rintro ⟨b, hb, heq⟩
      obtain rfl := Option.some.inj heq
      exact absurd hb hid
    · rintro ⟨b, -, heq⟩
      cases heq

theorem receive_counted (h : Consistent s) (hnew : ∀ i, id ∉ bufs (s.dev i)) (i : Nat) :
    Counted (s.clnts.map (Clnt.receive dev id)) i (s.dev i).pSliced := by
  intro p y q hsplit
  obtain ⟨hcount, hpos⟩ := h.counted i p y q hsplit
  refine ⟨hcount.trans (receive_holders ?_ s.clnts i).symm, hpos⟩
  intro hmem
  apply hnew i
  apply List.mem_append_left
  rw [hsplit, ids_append]
  rw [ids_append] at hmem
  rcases List.mem_append.mp hmem with hmem | hmem
  · exact List.mem_append_left _ hmem
  · obtain rfl := List.mem_singleton.mp hmem
    exact List.mem_append_right _ List.mem_cons_self

/-- The clients which want the new frame are at it or before it. -/
theorem receive_newest (h : Consistent s) (dev id : Nat) :
    s.clnts.countP (Clnt.wants dev) =
      holders (s.clnts.map (Clnt.receive dev id)) dev (ids (s.dev dev).pSliced ++ [id]) := by
  rw [holders, List.countP_map]
  apply List.countP_congr
  intro c hc
  rw [Function.comp_apply, pointsInto_iff, receive_devIdx]
  constructor
  · intro hwants
    have hdev : c.devIdx = dev := of_decide_eq_true (Bool.and_eq_true_iff.mp hwants).1
    obtain ⟨b, hb⟩ := receive_wanted hwants id
    refine ⟨hdev, b, ?_, hb⟩
    rcases receive_pSliced dev id c with hsame | ⟨-, -, hnew⟩
    · rw [hsame] at hb
      rw [← hdev]
      exact List.mem_append_left _ (h.queued c hc b hb).1
    · rw [hnew] at hb
      obtain rfl := Option.some.inj hb
      exact List.mem_append_right _ List.mem_cons_self
  · rintro ⟨hdev, b, -, hb⟩
    rcases receive_pSliced dev id c with hsame | ⟨hwants, -, -⟩
    · rw [hsame] at hb
      rw [Clnt.wants, decide_eq_true hdev, (h.queued c hc b hb).2]
      rfl
    · exact hwants

theorem queueFrame_consistent (h : Consistent s) (hopen : (s.dev dev).capture = true)
    (hnodup : (id :: bufs (s.dev dev)).Nodup) (hbound : id < s.nextBuf)
    (hnew : ∀ i, id ∉ bufs (s.dev i)) : Consistent (queueFrame s dev id) := by
  have hadd : ∀ {v : Dev} {clnts : List Clnt}, (bufs v).Perm (id :: bufs (s.dev dev)) →
      Apart ((s.setClnts clnts).setDev dev v) := by
    intro v clnts hperm
    have hcases : ∀ i, ∀ b ∈ bufs (((s.setClnts clnts).setDev dev v).dev i),
        (b = id ∧ i = dev) ∨ b ∈ bufs (s.dev i) := by
      intro i b hb
      by_cases hi : i = dev
      · rw [hi, setDev_same] at hb
        rcases List.mem_cons.mp (hperm.mem_iff.mp hb) with heq | hmem
        · exact Or.inl ⟨heq, hi⟩
        · exact Or.inr (hi ▸ hmem)
      · rw [setDev_other _ hi] at hb
        exact Or.inr hb
    refine ⟨?_, ?_, ?_⟩
    · intro i
      by_cases hi : i = dev
      · rw [hi, setDev_same]
        exact hperm.nodup_iff.mpr hnodup
      · rw [setDev_other _ hi]
        exact h.buffers.nodup i
    · intro i b hb
      rcases hcases i b hb with ⟨rfl, -⟩ | hmem
      · exact hbound
      · exact h.buffers.bound i b hmem
    · intro i j b hi hj
      rcases hcases i b hi with ⟨rfl, hidev⟩ | himem
      · rcases hcases j b hj with ⟨-, hjdev⟩ | hjmem
        · exact hidev.trans hjdev.symm
        · exact absurd hjmem (hnew j)
      · rcases hcases j b hj with ⟨rfl, -⟩ | hjmem
        · exact absurd himem (hnew i)
        · exact h.buffers.apart i j b himem hjmem
  rw [queueFrame]
  split
  · rename_i hrefs
    have hnotqueued : id ∉ ids (s.dev dev).pSliced :=
      fun hmem => hnew dev (List.mem_append_left _ hmem)
    refine ⟨?_, ?_, hadd ?_, ?_, ?_, ?_⟩
    · have hids : (s.clnts.map (Clnt.receive dev id)).map Clnt.id = s.clnts.map Clnt.id :=
        map_ids (receive_id dev id) s.clnts
      have hdistinct := h.distinct
      rw [DistinctClnts, ← hids] at hdistinct
      exact hdistinct
    · intro c' hc'
      obtain ⟨c, hc, rfl⟩ := List.mem_map.mp hc'
      rw [receive_id]
      exact h.fresh c hc
    · rw [bufs, bufs, ids_append, List.append_assoc]
      exact List.perm_middle
    · intro c' hc' b hb
      obtain ⟨c, hc, rfl⟩ := List.mem_map.mp hc'
      rw [receive_devIdx, receive_active]
      rcases receive_pSliced dev id c with hsame | ⟨hwants, -, hpoint⟩
      · rw [hsame] at hb
        obtain ⟨hmem, hactive⟩ := h.queued c hc b hb
        refine ⟨?_, hactive⟩
        by_cases hdev : c.devIdx = dev
        · rw [hdev, setDev_same, ids_append]
          exact List.mem_append_left _ (hdev ▸ hmem)
        · rw [setDev_other _ hdev]
          exact hmem
      · rw [hpoint] at hb
        obtain rfl := Option.some.inj hb
        obtain ⟨hdev, hactive⟩ := Bool.and_eq_true_iff.mp hwants
        rw [of_decide_eq_true hdev, setDev_same, ids_append]
        exact ⟨List.mem_append_right _ List.mem_cons_self, hactive⟩
    · intro i
      by_cases hi : i = dev
      · rw [hi, setDev_same]
        intro p y q hsplit
        rcases split_cases hsplit with ⟨m, hold, -⟩ | ⟨rfl, rfl, -⟩ | ⟨m, -, hnil⟩
        · exact receive_counted h hnew dev p y m hold
        · refine ⟨?_, hrefs⟩
          rw [ids_append]
          exact receive_newest h dev id
        · exact absurd hnil (by simp)
      · rw [setDev_other _ hi]
        exact receive_counted h hnew i
    · intro i hi
      by_cases hidev : i = dev
      · rw [hidev, setDev_same] at hi
        rw [hopen] at hi
        cases hi
      · rw [setDev_other _ hidev] at hi ⊢
        exact h.closed i hi
  · refine consistent_of_queues h rfl rfl ?_ ?_ (@hadd _ s.clnts ?_)
    · intro i
      by_cases hi : i = dev
      · rw [hi, setDev_same]
      · rw [setDev_other s hi]
    · intro i hi
      by_cases hidev : i = dev
      · rw [hidev, setDev_same] at hi
        rw [hidev]
        exact hi
      · rw [setDev_other s hidev] at hi
        exact hi
    · exact List.perm_middle

theorem captureFrame_consistent (h : Consistent s) (hopen : (s.dev dev).capture = true)
    (captured : Bool) : Consistent (captureFrame s dev captured) := by
  rw [captureFrame]
  cases hfree : (s.dev dev).pFree with
  | nil => exact h
  | cons id free =>
    have hbufs : (bufs (s.dev dev)).Perm (id :: (ids (s.dev dev).pSliced ++ free)) := by
      rw [bufs, hfree]
      exact List.perm_middle
    have hnodup := hbufs.nodup_iff.mp (h.buffers.nodup dev)
    have hmem : id ∈ bufs (s.dev dev) := hbufs.mem_iff.mpr List.mem_cons_self
    let taken := s.setDev dev ⟨(s.dev dev).capture, (s.dev dev).pSliced, free⟩
    have hsame : taken.dev dev = ⟨(s.dev dev).capture, (s.dev dev).pSliced, free⟩ :=
      setDev_same _ _ _
    have htaken : Consistent taken := by
      refine consistent_of_queues h rfl rfl ?_ ?_ (h.buffers.setDev (List.nodup_cons.mp hnodup).2
        fun b hb => hbufs.mem_iff.mpr (List.mem_cons_of_mem _ hb))
      · intro i
        by_cases hi : i = dev
        · rw [hi, hsame]
        · rw [setDev_other s hi]
      · intro i hi
        by_cases hidev : i = dev
        · rw [hidev, hsame] at hi
          rw [hidev]
          exact hi
        · rw [setDev_other s hidev] at hi
          exact hi
    dsimp only
    split
    · apply queueFrame_consistent htaken
      · rw [hsame]
        exact hopen
      · rw [hsame]
        exact hnodup
      · exact h.buffers.bound dev id hmem
      · intro i hi
        by_cases hidev : i = dev
        · rw [hidev, hsame] at hi
          exact (List.nodup_cons.mp hnodup).1 hi
        · rw [setDev_other s hidev] at hi
          exact hidev (h.buffers.apart i dev id hi hmem)
    · refine consistent_of_devs h rfl rfl rfl ?_
      intro i
      by_cases hi : i = dev
      · rw [hi, setDev_same, ← hfree]
      · rw [setDev_other taken hi, setDev_other s hi]

theorem releaseAll_consistent (h : Consistent s) (dev : Nat) :
    Consistent (releaseAll s dev) := by
  have hperm : ((ids (s.dev dev).pSliced).reverse ++ (s.dev dev).pFree).Perm (bufs (s.dev dev)) :=
    List.Perm.append_right _ (List.reverse_perm _)
  have hpoint : ∀ c : Clnt, c.devIdx ≠ dev → (if c.devIdx = dev then c.point none else c) = c :=
    fun c hc => if_neg hc
  refine ⟨?_, ?_, ?_, ?_, ?_, ?_⟩
  · have hids := map_ids (f := fun c => if c.devIdx = dev then c.point none else c) (by
      intro c
      split
      · rfl
      · rfl) s.clnts
    have hdistinct := h.distinct
    rw [DistinctClnts, ← hids] at hdistinct
    exact hdistinct
  · intro c' hc'
    obtain ⟨c, hc, rfl⟩ := List.mem_map.mp hc'
    have hfresh := h.fresh c hc
    split
    · exact hfresh
    · exact hfresh
  · apply (h.buffers.setClnts _).setDev
    · exact hperm.nodup_iff.mpr (h.buffers.nodup dev)
    · exact fun b hb => hperm.mem_iff.mp hb
  · intro c' hc' b hb
    obtain ⟨c, hc, rfl⟩ := List.mem_map.mp hc'
    by_cases hdev : c.devIdx = dev
    · rw [if_pos hdev] at hb
      cases hb
    · rw [hpoint c hdev] at hb ⊢
      rw [releaseAll, setDev_other _ hdev]
      exact h.queued c hc b hb
  · intro i
    by_cases hi : i = dev
    · rw [hi, releaseAll, setDev_same]
      intro pre x post hsplit
      exact absurd hsplit (by simp)
    · rw [releaseAll, setDev_other _ hi]
      intro pre x post hsplit
      obtain ⟨hcount, hpos⟩ := h.counted i pre x post hsplit
      refine ⟨hcount.trans ?_, hpos⟩
      have hmap : holders (s.clnts.map fun c => if c.devIdx = dev then c.point none else c) i
          (ids (pre ++ [x])) = holders s.clnts i (ids (pre ++ [x])) := by
        rw [holders, holders, List.countP_map]
        apply List.countP_congr
        intro c _
        rw [Function.comp_apply]
        by_cases hdev : c.devIdx = dev
        · have hother : c.devIdx ≠ i := fun hci => hi (hci.symm.trans hdev)
          rw [if_pos hdev, pointsInto_iff, pointsInto_iff]
          exact ⟨fun hp => absurd hp.1 hother, fun hp => absurd hp.1 hother⟩
        · rw [hpoint c hdev]
      exact hmap.symm
  · intro i hi
    by_cases hidev : i = dev
    · rw [hidev, releaseAll, setDev_same]
    · rw [releaseAll, setDev_other _ hidev] at hi ⊢
      exact h.closed i hi

theorem allocate_consistent (h : Consistent s) (dev malloc : Nat) :
    Consistent (allocate s dev malloc) := by
  rw [allocate]
  generalize hfree : (if bufferCount s dev < (s.dev dev).pFree.length + (s.dev dev).pSliced.length
    then [] else (s.dev dev).pFree) = free
  generalize min malloc (bufferCount s dev - (free.length + (s.dev dev).pSliced.length)) = more
  have hold : ∀ b ∈ ids (s.dev dev).pSliced ++ free, b ∈ bufs (s.dev dev) := by
    intro b hb
    rcases List.mem_append.mp hb with hb | hb
    · exact List.mem_append_left _ hb
    · rw [← hfree] at hb
      split at hb
      · cases hb
      · exact List.mem_append_right _ hb
  have hperm : (ids (s.dev dev).pSliced ++ ((List.range' s.nextBuf more).reverse ++ free)).Perm
      (List.range' s.nextBuf more ++ (ids (s.dev dev).pSliced ++ free)) := by
    rw [← List.append_assoc, ← List.append_assoc]
    apply List.Perm.append_right
    exact List.perm_append_comm.trans (List.Perm.append_right _ (List.reverse_perm _))
  have hcases : ∀ i, ∀ b ∈ bufs ((s.setDev dev ⟨(s.dev dev).capture, (s.dev dev).pSliced,
      (List.range' s.nextBuf more).reverse ++ free⟩).dev i),
        (i = dev ∧ s.nextBuf ≤ b ∧ b < s.nextBuf + more) ∨ b ∈ bufs (s.dev i) := by
    intro i b hb
    by_cases hi : i = dev
    · rw [hi, setDev_same] at hb
      rcases List.mem_append.mp (hperm.mem_iff.mp hb) with hb | hb
      · left
        have hrange := List.mem_range'_1.mp hb
        exact ⟨hi, hrange.1, hrange.2⟩
      · exact Or.inr (hi ▸ hold b hb)
    · rw [setDev_other s hi] at hb
      exact Or.inr hb
  refine consistent_of_queues h rfl rfl ?_ ?_ ?_
  · intro i
    dsimp only
    by_cases hi : i = dev
    · rw [hi, setDev_same]
    · rw [setDev_other s hi]
  · intro i hi
    dsimp only at hi
    by_cases hidev : i = dev
    · rw [hidev, setDev_same] at hi
      rw [hidev]
      exact hi
    · rw [setDev_other s hidev] at hi
      exact hi
  · refine ⟨?_, ?_, ?_⟩
    · intro i
      dsimp only
      by_cases hi : i = dev
      · rw [hi, setDev_same]
        apply hperm.nodup_iff.mpr
        rw [List.nodup_append]
        refine ⟨List.nodup_range', ?_, ?_⟩
        · have hnodup := h.buffers.nodup dev
          rw [← hfree]
          split
          · rw [List.append_nil]
            exact queue_nodup h.buffers dev
          · exact hnodup
        · intro a ha b hb hab
          have hrange := List.mem_range'_1.mp ha
          have hbound := h.buffers.bound dev b (hold b hb)
          omega
      · rw [setDev_other s hi]
        exact h.buffers.nodup i
    · intro i b hb
      dsimp only at hb ⊢
      rcases hcases i b hb with ⟨-, -, hlt⟩ | hmem
      · exact hlt
      · exact Nat.lt_add_right _ (h.buffers.bound i b hmem)
    · intro i j b hi hj
      dsimp only at hi hj
      rcases hcases i b hi with ⟨hidev, hge, -⟩ | himem
      · rcases hcases j b hj with ⟨hjdev, -⟩ | hjmem
        · exact hidev.trans hjdev.symm
        · exact absurd (h.buffers.bound j b hjmem) (Nat.not_lt.mpr hge)
      · rcases hcases j b hj with ⟨-, hge, -⟩ | hjmem
        · exact absurd (h.buffers.bound i b himem) (Nat.not_lt.mpr hge)
        · exact h.buffers.apart i j b himem hjmem

/-- No frames are queued for clients of the device. -/
theorem stopAcquisition_consistent (h : Consistent s)
    (hnone : ∀ c ∈ s.clnts, c.devIdx = dev → c.pSliced = none) :
    Consistent (stopAcquisition s dev) := by
  rw [stopAcquisition]
  split
  · apply consistent_of_empty h hnone rfl
    exact h.buffers.setDev List.nodup_nil fun b hb => (nomatch hb)
  · exact h

theorem startAcquisition_consistent (h : Consistent s) (dev : Nat) (env : Env) :
    Consistent (startAcquisition s dev env) := by
  rw [startAcquisition]
  split
  · apply allocate_consistent
    refine consistent_of_queues h rfl rfl ?_ ?_ ?_
    · intro i
      by_cases hi : i = dev
      · rw [hi, openCapture, setDev_same]
      · rw [openCapture, setDev_other s hi]
    · intro i hi
      by_cases hidev : i = dev
      · rw [hidev, openCapture, setDev_same] at hi
        cases hi
      · rw [openCapture, setDev_other s hidev] at hi
        exact hi
    · exact h.buffers.setDev (h.buffers.nodup dev) fun b hb => hb
  · exact h

theorem startAcquisition_clnts (s : Server) (dev : Nat) (env : Env) :
    (startAcquisition s dev env).clnts = s.clnts := by
  rw [startAcquisition]
  split
  · rfl
  · rfl

/-- The services are updated, and no client loses them while it has frames. -/
theorem updateServices_consistent (h : Consistent s)
    (hkeeps : ∀ c ∈ s.clnts, c.devIdx = dev → c.pSliced ≠ none → env.granted c.id ≠ 0) :
    Consistent (updateServices s dev env) := by
  have hstarted : ∃ s₁, (if (s.dev dev).capture then s else startAcquisition s dev env) = s₁ ∧
      Consistent s₁ ∧ s₁.clnts = s.clnts := by
    split
    · exact ⟨s, rfl, h, rfl⟩
    · exact ⟨_, rfl, startAcquisition_consistent h dev env, startAcquisition_clnts s dev env⟩
  obtain ⟨s₁, hs₁, hcons, hclnts⟩ := hstarted
  rw [updateServices]
  dsimp only
  rw [hs₁]
  split
  · have hgrant : Consistent (grantServices s₁ dev env) := by
      apply consistent_of_map hcons
      · intro c
        split
        · rfl
        · rfl
      · intro c
        split
        · rfl
        · rfl
      · intro c
        split
        · rfl
        · rfl
      · intro c hc hqueued
        obtain ⟨b, hb⟩ := Option.ne_none_iff_exists'.mp hqueued
        have hactive := (hcons.queued c hc b hb).2
        split
        · rename_i hforward
          have hgranted := hkeeps c (hclnts ▸ hc) hforward.1 hqueued
          rw [Clnt.active, Bool.and_eq_true, decide_eq_true_iff, decide_eq_true_iff]
          exact ⟨hforward.2, hgranted⟩
        · exact hactive
    split
    · exact allocate_consistent hgrant dev env.malloc
    · rename_i hnobody
      apply stopAcquisition_consistent hgrant
      intro c hc hdev
      cases hp : c.pSliced with
      | none => rfl
      | some b =>
        exfalso
        apply hnobody
        apply List.any_eq_true.mpr
        exact ⟨c, hc, by rw [decide_eq_true hdev, (hgrant.queued c hc b hp).2]; rfl⟩
  · exact hcons

def serviceUpdate (s : Server) (op : Op) : Option (Clnt × Env) :=
  (op.clnt.bind (findClnt s.clnts)).bind fun req =>
    match op with
    | .connect _ _ _ env => if req.state = .waitConReq then some (req, env) else none
    | .service _ env => if req.state = .forward then some (req, env) else none
    | .close _ env => if req.allServices ≠ 0 then some (req, env) else none
    | _ => none

def keepsServices (s : Server) (req : Clnt) (env : Env) : Bool :=
  s.clnts.all fun c =>
    decide (c.devIdx ≠ req.devIdx) || decide (c.id = req.id) || c.pSliced.isNone ||
      decide (env.granted c.id ≠ 0)

def hasRoom (s : Server) : Op → Bool
  | .frame dev _ => !(s.dev dev).pFree.isEmpty || decide ((s.dev dev).pSliced.length ≠ 1)
  | _ => true

/-- The step does not reach the defects. -/
def careful (s : Server) (op : Op) : Bool :=
  ((serviceUpdate s op).all fun p => keepsServices s p.1 p.2) && hasRoom s op

theorem keepsServices_iff :
    keepsServices s req env = true ↔ ∀ c ∈ s.clnts, c.devIdx = req.devIdx → c.id ≠ req.id →
      c.pSliced ≠ none → env.granted c.id ≠ 0 := by
  rw [keepsServices, List.all_eq_true]
  apply forall_congr'
  intro c
  apply imp_congr_right
  intro _
  cases c.pSliced with
  | none => simp
  | some b =>
    by_cases hdev : c.devIdx = req.devIdx
    · by_cases hid : c.id = req.id
      · simp [hid]
      · simp [hdev, hid]
    · simp [hdev]

theorem careful_update (h : careful s op = true) (hupdate : serviceUpdate s op = some (req, env)) :
    ∀ c ∈ s.clnts, c.devIdx = req.devIdx → c.id ≠ req.id → c.pSliced ≠ none →
      env.granted c.id ≠ 0 := by
  rw [careful, hupdate, Option.all_some, Bool.and_eq_true] at h
  exact keepsServices_iff.mp h.1

/-- After a client released its frames, the services of the others are updated. -/
theorem updateServices_emptied
    (hcons : Consistent s') (hemptied : Emptied s s' req.id)
    (hkeeps : ∀ c ∈ s.clnts, c.devIdx = dev → c.id ≠ req.id → c.pSliced ≠ none →
      env.granted c.id ≠ 0) : Consistent (updateServices s' dev env) := by
  apply updateServices_consistent hcons
  intro c' hc' hdev hqueued
  rw [hemptied.clnts] at hc'
  obtain ⟨c, hc, ⟨-, rfl⟩ | ⟨hid, rfl⟩⟩ := modifyClnt_mem hc'
  · exact absurd rfl hqueued
  · exact hkeeps c' hc hdev hid hqueued

/-- An update of the services keeps the pointers of the clients. -/
theorem updateServices_pSliced (s : Server) (dev : Nat) (env : Env) {c' : Clnt}
    (hc' : c' ∈ (updateServices s dev env).clnts) :
    ∃ c ∈ s.clnts, c'.id = c.id ∧ c'.pSliced = c.pSliced := by
  have hstarted : ∃ s₁, (if (s.dev dev).capture then s else startAcquisition s dev env) = s₁ ∧
      s₁.clnts = s.clnts := by
    refine ⟨_, rfl, ?_⟩
    split
    · rfl
    · exact startAcquisition_clnts s dev env
  obtain ⟨s₁, hs₁, hclnts⟩ := hstarted
  have hgranted : ∀ c' ∈ (grantServices s₁ dev env).clnts,
      ∃ c ∈ s.clnts, c'.id = c.id ∧ c'.pSliced = c.pSliced := by
    intro c' hc'
    obtain ⟨c, hc, rfl⟩ := List.mem_map.mp hc'
    refine ⟨c, hclnts ▸ hc, ?_⟩
    split
    · exact ⟨rfl, rfl⟩
    · exact ⟨rfl, rfl⟩
  have hstop : ∀ s : Server, (stopAcquisition s dev).clnts = s.clnts := by
    intro s
    rw [stopAcquisition]
    split
    · rfl
    · rfl
  rw [updateServices, hs₁] at hc'
  dsimp only at hc'
  split at hc'
  · split at hc'
    · exact hgranted c' hc'
    · rw [hstop] at hc'
      exact hgranted c' hc'
  · rw [hclnts] at hc'
    exact ⟨c', hc', rfl, rfl⟩

theorem connectReq_consistent (h : Consistent s) (hreq : req ∈ s.clnts)
    (hnone : req.pSliced = none) (bufferCount : Nat) (accepted : Bool)
    (hkeeps : ∀ c ∈ s.clnts, c.devIdx = req.devIdx → c.id ≠ req.id → c.pSliced ≠ none →
      env.granted c.id ≠ 0) : Consistent (connectReq s req bufferCount accepted env) := by
  have hreqnone : ∀ c ∈ s.clnts, c.id = req.id → c.pSliced = none := by
    intro c hc hid
    rw [h.distinct.eq hc hreq hid]
    exact hnone
  have hmodified : Consistent
      (s.setClnts (modifyClnt req.id (fun c => c.connect bufferCount) s.clnts)) :=
    modifyClnt_consistent h hreqnone (fun _ => rfl) (fun _ => rfl) (fun _ => rfl)
  have hupdated : Consistent (updateServices
      (s.setClnts (modifyClnt req.id (fun c => c.connect bufferCount) s.clnts)) req.devIdx env) := by
    apply updateServices_consistent hmodified
    intro c' hc' hdev hqueued
    obtain ⟨c, hc, ⟨hid, rfl⟩ | ⟨hid, rfl⟩⟩ := modifyClnt_mem hc'
    · obtain rfl := h.distinct.eq hc hreq hid
      exact absurd hnone hqueued
    · exact hkeeps c' hc hdev hid hqueued
  rw [connectReq]
  split
  · exact hupdated
  · refine modifyClnt_consistent hupdated ?_ (fun _ => rfl) (fun _ => rfl) (fun _ => rfl)
    intro c'' hc'' hid
    obtain ⟨c', hc', hid', hp⟩ := updateServices_pSliced _ _ _ hc''
    rw [hp]
    obtain ⟨c, hc, ⟨hcid, rfl⟩ | ⟨hcid, rfl⟩⟩ := modifyClnt_mem hc'
    · exact hreqnone c hc hcid
    · exact absurd (hid'.symm.trans hid) hcid

theorem closeConnection_consistent (h : Consistent s)
    (hreq : req ∈ s.clnts)
    (hkeeps : req.allServices ≠ 0 → ∀ c ∈ s.clnts, c.devIdx = req.devIdx → c.id ≠ req.id →
      c.pSliced ≠ none → env.granted c.id ≠ 0) :
    ∃ s', closeConnection s req env = some s' ∧ Consistent s' := by
  obtain ⟨s₁, hs₁, hcons, hemptied⟩ := releaseFrames_spec h hreq
  have hnone : ∀ c ∈ s₁.clnts, c.id = req.id → c.pSliced = none := by
    intro c' hc' hid
    rw [hemptied.clnts] at hc'
    obtain ⟨c, hc, ⟨-, rfl⟩ | ⟨hne, rfl⟩⟩ := modifyClnt_mem hc'
    · rfl
    · exact absurd hid hne
  have hremoved := removeClnt_consistent hcons hnone
  rw [closeConnection, hs₁]
  refine ⟨_, rfl, ?_⟩
  dsimp only
  split
  · rename_i hservices
    apply updateServices_consistent hremoved
    intro c' hc' hdev hqueued
    obtain ⟨hmem, hid⟩ := List.mem_filter.mp hc'
    rw [hemptied.clnts] at hmem
    obtain ⟨c, hc, ⟨hcid, rfl⟩ | ⟨hne, rfl⟩⟩ := modifyClnt_mem hmem
    · exact absurd rfl hqueued
    · exact hkeeps hservices c' hc hdev hne hqueued
  · exact hremoved

theorem clntStep_consistent (h : Consistent s) (hreq : req ∈ s.clnts)
    (hfind : op.clnt.bind (findClnt s.clnts) = some req) (hok : careful s op = true) :
    ∃ s', clntStep s req op = some s' ∧ Consistent s' := by
  have hkeeps : ∀ env, serviceUpdate s op = some (req, env) → ∀ c ∈ s.clnts,
      c.devIdx = req.devIdx → c.id ≠ req.id → c.pSliced ≠ none → env.granted c.id ≠ 0 :=
    fun env hupdate => careful_update hok hupdate
  cases op with
  | accept dev => cases hfind
  | frame dev captured => cases hfind
  | connect id bufferCount accepted env =>
    rw [clntStep]
    split
    · rename_i hstate
      have hnone : req.pSliced = none := by
        cases hp : req.pSliced with
        | none => rfl
        | some b =>
          have hactive := (h.queued req hreq b hp).2
          rw [Clnt.active, hstate] at hactive
          cases hactive
      refine ⟨_, rfl, connectReq_consistent h hreq hnone bufferCount accepted (hkeeps env ?_)⟩
      rw [serviceUpdate, hfind, Option.bind_some]
      exact if_pos hstate
    · exact ⟨s, rfl, h⟩
  | service id env =>
    rw [clntStep]
    split
    · rename_i hstate
      obtain ⟨s₁, hs₁, hcons, hemptied⟩ := releaseFrames_spec h hreq
      rw [hs₁]
      refine ⟨_, rfl, updateServices_emptied hcons hemptied (hkeeps env ?_)⟩
      rw [serviceUpdate, hfind, Option.bind_some]
      exact if_pos hstate
    · exact ⟨s, rfl, h⟩
  | forward id =>
    rw [clntStep]
    cases hp : req.pSliced with
    | none => exact ⟨s, if_pos rfl, h⟩
    | some b =>
      obtain ⟨_, _, _, s', -, -, -, hs', -, hcons⟩ := releaseSliced_spec h hreq hp
      refine ⟨s', ?_, hcons⟩
      rw [if_neg nofun]
      exact hs'
  | flush id =>
    rw [clntStep]
    split
    · exact ⟨_, rfl, releaseAll_consistent h _⟩
    · exact ⟨s, rfl, h⟩
  | ioctl id env =>
    rw [clntStep]
    split
    · rename_i hclosed
      refine ⟨_, rfl, stopAcquisition_consistent (startAcquisition_consistent h _ env) ?_⟩
      intro c hc hdev
      rw [startAcquisition_clnts] at hc
      cases hp : c.pSliced with
      | none => rfl
      | some b =>
        have hmem := (h.queued c hc b hp).1
        rw [hdev, h.closed _ hclosed.2] at hmem
        cases hmem
    · exact ⟨s, rfl, h⟩
  | close id env =>
    apply closeConnection_consistent h hreq
    intro hservices
    apply hkeeps env
    rw [serviceUpdate, hfind, Option.bind_some]
    exact if_pos hservices

theorem step_of_clnt (h : op.clnt = some id) :
    step s op = (findClnt s.clnts id).elim (some s) fun req => clntStep s req op := by
  cases op with
  | accept dev => cases h
  | frame dev captured => cases h
  | _ =>
    obtain rfl := Option.some.inj h
    simp only [step, Op.clnt, Option.bind_some]
    split
    · rename_i hnone
      rw [hnone]
      rfl
    · rename_i hsome
      rw [hsome]
      rfl

theorem step_consistent (h : Consistent s) (hok : careful s op = true) :
    ∃ s', step s op = some s' ∧ Consistent s' := by
  have hclnt : ∀ id, op.clnt = some id → ∃ s', step s op = some s' ∧ Consistent s' := by
    intro id hid
    rw [step_of_clnt hid]
    cases hfind : findClnt s.clnts id with
    | none => exact ⟨s, rfl, h⟩
    | some req =>
      have hreq : op.clnt.bind (findClnt s.clnts) = some req := by
        rw [hid, Option.bind_some, hfind]
      exact clntStep_consistent h (findClnt_some hfind).1 hreq hok
  cases op with
  | accept dev => exact ⟨_, rfl, addConnection_consistent h dev⟩
  | frame dev captured =>
    rw [step]
    split
    · rename_i hopen
      have hmany : (s.dev dev).pFree = [] → (s.dev dev).pSliced.length ≠ 1 := by
        intro hfree
        have hroom := (Bool.and_eq_true_iff.mp hok).2
        rw [hasRoom, hfree] at hroom
        exact of_decide_eq_true hroom
      obtain ⟨s₁, hs₁, hcons, hcapture⟩ := forceFree_spec h hmany
      rw [forwardData, hs₁]
      refine ⟨_, rfl, captureFrame_consistent hcons ?_ captured⟩
      rw [hcapture]
      exact hopen
    · exact ⟨s, rfl, h⟩
  | connect id bufferCount accepted env => exact hclnt id rfl
  | service id env => exact hclnt id rfl
  | forward id => exact hclnt id rfl
  | flush id => exact hclnt id rfl
  | ioctl id env => exact hclnt id rfl
  | close id env => exact hclnt id rfl

theorem initial_consistent (optBufferCount : Nat) : Consistent (initial optBufferCount) := by
  refine ⟨List.nodup_nil, fun _ hc => (nomatch hc), ⟨fun _ => List.nodup_nil, ?_, ?_⟩,
    fun _ hc => (nomatch hc), ?_, fun _ _ => rfl⟩
  · exact fun _ _ hb => (nomatch hb)
  · exact fun _ _ _ hb => (nomatch hb)
  · intro dev pre x post hsplit
    exact absurd hsplit (by simp [initial])

/-- In a run of careful steps no assertion fails. The pointer of each client is at a queued
frame of its device, each queued frame has the references of the clients at it or before it,
one at least, and no queued buffer is free. -/
theorem references_counted (optBufferCount : Nat) {ops : List Op}
    (h : GuardedRuns.Permitted step (fun s op => careful s op = true) (initial optBufferCount) ops) :
    ∃ s, GuardedRuns.run step (initial optBufferCount) ops = some s ∧
      (∀ c ∈ s.clnts, ∀ b, c.pSliced = some b → b ∈ ids (s.dev c.devIdx).pSliced) ∧
      (∀ dev pre x post, (s.dev dev).pSliced = pre ++ x :: post →
        x.refCount = s.clnts.countP (pointsInto dev (ids (pre ++ [x]))) ∧ 0 < x.refCount) ∧
      ∀ dev dev', ∀ b ∈ ids (s.dev dev).pSliced, b ∉ (s.dev dev').pFree := by
  obtain ⟨s, hs, hcons⟩ := GuardedRuns.run_keeps Consistent
    (fun s op hcons hok => step_consistent hcons hok) (initial_consistent optBufferCount) h
  refine ⟨s, hs, fun c hc b hb => (hcons.queued c hc b hb).1, hcons.counted, ?_⟩
  intro dev dev' b hb hfree
  have hdev := hcons.buffers.apart dev dev' b (List.mem_append_left _ hb)
    (List.mem_append_right _ hfree)
  subst hdev
  have hnodup := hcons.buffers.nodup dev
  rw [bufs, List.nodup_append] at hnodup
  exact hnodup.2.2 b hb b hfree rfl

def bothServed : Env := ⟨true, 20, fun _ => 1⟩

def oneFrame : List Op :=
  [.accept 0, .accept 0, .connect 0 0 true bothServed, .connect 1 0 true bothServed, .frame 0 true]

theorem references_counted_frame :
    ∃ s, GuardedRuns.run step (initial 8) oneFrame = some s ∧
      (∀ c ∈ s.clnts, ∀ b, c.pSliced = some b → b ∈ ids (s.dev c.devIdx).pSliced) ∧
      (∀ dev pre x post, (s.dev dev).pSliced = pre ++ x :: post →
        x.refCount = s.clnts.countP (pointsInto dev (ids (pre ++ [x]))) ∧ 0 < x.refCount) ∧
      ∀ dev dev', ∀ b ∈ ids (s.dev dev).pSliced, b ∉ (s.dev dev').pFree :=
  references_counted 8 (by decide)

/-- The device can serve the first client only when that one asks for other services, and
the second client still has a frame when the next one arrives. -/
def serviceLost : List Op :=
  [.service 0 ⟨true, 20, fun id => if id = 0 then 1 else 0⟩, .frame 0 true]

/-- Then the new frame has one reference, while two clients are at it or before it. After
both were sent the older frame and the second client the new one, the pointer of the first
client is at a free buffer. -/
theorem reference_missing :
    ((GuardedRuns.run step (initial 8) (oneFrame ++ serviceLost)).map fun s =>
      ((s.dev 0).pSliced.map Buf.refCount,
        s.clnts.countP (pointsInto 0 (ids (s.dev 0).pSliced)))) = some ([1, 1], 2) ∧
    ((GuardedRuns.run step (initial 8) (oneFrame ++ serviceLost ++ [.forward 1, .forward 1])).map
      fun s => (s.dev 0).pSliced.isEmpty && s.clnts.any fun c =>
        c.pSliced.any fun b => decide (b ∈ (s.dev 0).pFree)) = some true := by
  constructor
  · decide
  · decide

end ProxyFrameRuns

import Zvbi.ProxyReplies

/-!
# The service update of the proxy daemon

Capturing is suspended by the first call which updates the services of a device and resumed
by the last one. If a call is the last one is found out by a look at the services which are
still to come, those of all clients further down the list.
-/

namespace ProxyServiceUpdate
open ProxyReplies (ReqState)

/-- `VBI_MIN_STRICT` to `VBI_MAX_STRICT`. -/
def levels : List Int := [-1, 0, 1, 2]

/-- The fields of `PROXY_CLNT` for the services, which are one mask for each level. -/
structure Clnt where
  id : Nat
  devIdx : Nat
  state : ReqState
  services : Int → UInt32
  allServices : UInt32

structure Request where
  clnt : Nat
  strict : Int
  services : UInt32
  deriving DecidableEq

/-- A call of `vbi_capture_update_services()`. -/
structure Call where
  request : Request
  reset : Bool
  commit : Bool
  deriving DecidableEq

def lookLevels (services : Int → UInt32) : List Int → UInt32 → UInt32
  | [], next => next
  | strict :: above, next =>
    if next ||| services strict ≠ 0 then next ||| services strict
    else lookLevels services above (next ||| services strict)

def lookClnts : List Clnt → UInt32 → UInt32
  | [], next => next
  | walk :: clnts, next =>
    if lookLevels walk.services levels next ≠ 0 then lookLevels walk.services levels next
    else lookClnts clnts (lookLevels walk.services levels next)

def nextServices (req : Clnt) (above : List Int) (later : List Clnt) : UInt32 :=
  if lookLevels req.services above 0 = 0 then lookClnts later (lookLevels req.services above 0)
  else lookLevels req.services above 0

/-- The calls of a pass, the services which the device gave, and `is_first`. -/
structure Pass where
  calls : List Call
  devServices : UInt32
  isFirst : Bool

def Clnt.grant (c : Clnt) (isNew : Bool) (strict : Int) (granted : UInt32) : Clnt :=
  { c with
    allServices := c.allServices ||| granted
    services := fun i => if isNew ∧ i = strict then c.services i &&& granted else c.services i }

def Pass.call (p : Pass) (device : List Call → UInt32) (c : Call) : Pass :=
  ⟨p.calls ++ [c], p.devServices ||| device (p.calls ++ [c]), false⟩

section
variable (device : List Call → UInt32) (dev : Nat) (newReq : Option Nat)

def updateLevels (later : List Clnt) : List Int → Clnt → Pass → Clnt × Pass
  | [], req, p => (req, p)
  | strict :: above, req, p =>
    if req.services strict ≠ 0 then
      let c : Call := ⟨⟨req.id, strict, req.services strict⟩, p.isFirst,
        decide (nextServices req above later = 0)⟩
      updateLevels later above
        (req.grant (decide (newReq = some req.id)) strict (device (p.calls ++ [c])))
        (p.call device c)
    else
      updateLevels later above req p

def Clnt.on (c : Clnt) : Bool := decide (c.devIdx = dev) && decide (c.state = .forward)

def updateClnts : List Clnt → Pass → List Clnt × Pass
  | [], p => ([], p)
  | req :: later, p =>
    if req.on dev then
      let r := updateLevels device newReq later levels { req with allServices := 0 } p
      let rest := updateClnts later r.2
      (r.1 :: rest.1, rest.2)
    else
      let rest := updateClnts later p
      (req :: rest.1, rest.2)

end

/-- The fields of `PROXY_DEV` for the services. -/
structure Dev where
  capture : Bool
  apiKnown : Bool
  allServices : UInt32
  maxLines : Nat

/-- What the device does: if it can be opened, its answers to the calls, its number of lines,
and if capturing can be started then. -/
structure Env where
  opens : Bool
  device : List Call → UInt32
  lines : Nat
  starts : Bool

structure Updated where
  clnts : List Clnt
  dev : Dev
  calls : List Call
  result : Bool

def openDev (env : Env) (clnts : List Clnt) (d : Dev) : Dev × Bool :=
  if d.capture then
    (d, false)
  else if lookClnts clnts 0 ≠ 0 then
    ({ d with capture := env.opens, apiKnown := true }, env.opens)
  else
    ({ d with apiKnown := true }, true)

/-- `vbi_proxyd_update_services()`. -/
def updateServices (env : Env) (dev : Nat) (newReq : Option Nat) (clnts : List Clnt) (d : Dev) :
    Updated :=
  let opened := openDev env clnts d
  if opened.1.capture then
    let r := updateClnts env.device dev newReq clnts ⟨[], 0, true⟩
    let result := if r.2.devServices ≠ 0 then env.starts else r.2.isFirst
    let d :=
      if r.2.devServices ≠ 0 then
        { opened.1 with allServices := r.2.devServices, maxLines := env.lines }
      else
        opened.1
    ⟨r.1, if r.2.devServices = 0 ∨ result = false then { d with capture := false } else d,
      r.2.calls, result⟩
  else
    ⟨clnts, opened.1, [], opened.2⟩

/-- The calls are one for each request, the first one of them resets and the last commits. -/
structure Transaction (requests : List Request) (calls : List Call) : Prop where
  requests : calls.map Call.request = requests
  reset : ∀ i, (h : i < calls.length) → calls[i].reset = decide (i = 0)
  commit : ∀ i, (h : i < calls.length) → calls[i].commit = decide (i + 1 = calls.length)

def announced (final : Bool) : Bool → List Request → List Call
  | _, [] => []
  | first, r :: requests => ⟨r, first, requests.isEmpty && final⟩ :: announced final false requests

theorem announced_requests (final first : Bool) (requests : List Request) :
    (announced final first requests).map Call.request = requests := by
  induction requests generalizing first with
  | nil => rfl
  | cons r requests ih => rw [announced, List.map_cons, ih]

theorem announced_length (final first : Bool) (requests : List Request) :
    (announced final first requests).length = requests.length := by
  have hlength := congrArg List.length (announced_requests final first requests)
  rw [List.length_map] at hlength
  exact hlength

theorem announced_reset (final first : Bool) (requests : List Request) (i : Nat)
    (h : i < (announced final first requests).length) :
    (announced final first requests)[i].reset = (first && decide (i = 0)) := by
  induction requests generalizing first i with
  | nil => exact absurd h (Nat.not_lt_zero i)
  | cons r requests ih =>
    cases i with
    | zero => simp [announced]
    | succ i =>
      have hrest := ih false i (Nat.lt_of_succ_lt_succ h)
      simp only [announced, List.getElem_cons_succ, hrest]
      simp

theorem announced_commit (final first : Bool) (requests : List Request) (i : Nat)
    (h : i < (announced final first requests).length) :
    (announced final first requests)[i].commit = (final && decide (i + 1 = requests.length)) := by
  induction requests generalizing first i with
  | nil => exact absurd h (Nat.not_lt_zero i)
  | cons r requests ih =>
    cases i with
    | zero => cases requests with
      | nil => simp [announced]
      | cons r' requests => simp [announced]
    | succ i =>
      have hrest := ih false i (Nat.lt_of_succ_lt_succ h)
      simp only [announced, List.getElem_cons_succ, hrest, List.length_cons]
      simp

/-- The calls are those of a transaction if the last one commits. -/
theorem announced_transaction (final : Bool) (requests : List Request) :
    Transaction requests (announced final true requests) ↔ requests = [] ∨ final = true := by
  constructor
  · intro h
    cases requests with
    | nil => exact Or.inl rfl
    | cons r requests =>
      right
      have hlast : requests.length < (announced final true (r :: requests)).length := by
        rw [announced_length]
        exact Nat.lt_succ_self _
      have hcommit := h.commit requests.length hlast
      rw [announced_commit, announced_length] at hcommit
      simpa using hcommit
  · intro h
    refine ⟨announced_requests final true requests, fun i hi => ?_, fun i hi => ?_⟩
    · rw [announced_reset, Bool.true_and]
    · rw [announced_commit, announced_length]
      rcases h with rfl | rfl
      · exact absurd hi (Nat.not_lt_zero i)
      · exact Bool.true_and _

/-- Calls which are followed by others do not commit. -/
theorem announced_append (final first : Bool) (xs ys : List Request) :
    announced final first (xs ++ ys) =
      announced (ys.isEmpty && final) first xs ++ announced final (first && xs.isEmpty) ys := by
  induction xs generalizing first with
  | nil =>
    rw [List.nil_append, announced, List.nil_append]
    simp
  | cons x xs ih =>
    have hempty : (xs ++ ys).isEmpty = (xs.isEmpty && ys.isEmpty) := by cases xs <;> rfl
    rw [List.cons_append, announced, announced, ih false, List.cons_append, hempty, Bool.and_assoc]
    simp

def Clnt.served (c : Clnt) : Bool := levels.any fun strict => decide (c.services strict ≠ 0)

def requestsAt (c : Clnt) (ls : List Int) : List Request :=
  (ls.filter fun strict => decide (c.services strict ≠ 0)).map fun strict =>
    ⟨c.id, strict, c.services strict⟩

/-- The requests for a device: those of the clients which take part in the pass. -/
def requests (dev : Nat) (clnts : List Clnt) : List Request :=
  (clnts.filter (Clnt.on dev)).flatMap fun c => requestsAt c levels

variable {c : Clnt} {strict : Int} {ls : List Int}

theorem requestsAt_cons_pos (h : c.services strict ≠ 0) (ls : List Int) :
    requestsAt c (strict :: ls) = ⟨c.id, strict, c.services strict⟩ :: requestsAt c ls := by
  have hfilter : (strict :: ls).filter (fun i => decide (c.services i ≠ 0)) =
      strict :: ls.filter fun i => decide (c.services i ≠ 0) :=
    List.filter_cons_of_pos (decide_eq_true h)
  rw [requestsAt, hfilter, List.map_cons]
  rfl

theorem requestsAt_cons_neg (h : ¬ c.services strict ≠ 0) (ls : List Int) :
    requestsAt c (strict :: ls) = requestsAt c ls := by
  have hfilter : (strict :: ls).filter (fun i => decide (c.services i ≠ 0)) =
      ls.filter fun i => decide (c.services i ≠ 0) :=
    List.filter_cons_of_neg (by simpa using h)
  rw [requestsAt, hfilter]
  rfl

theorem requestsAt_eq_nil : requestsAt c ls = [] ↔ ∀ strict ∈ ls, c.services strict = 0 := by
  rw [requestsAt, List.map_eq_nil_iff, List.filter_eq_nil_iff]
  simp

theorem served_false : c.served = false ↔ ∀ strict ∈ levels, c.services strict = 0 := by
  rw [Clnt.served, List.any_eq_false]
  simp

theorem requests_cons_on {dev : Nat} (h : c.on dev = true) (clnts : List Clnt) :
    requests dev (c :: clnts) = requestsAt c levels ++ requests dev clnts := by
  rw [requests, List.filter_cons_of_pos h, List.flatMap_cons]
  rfl

theorem requests_cons_off {dev : Nat} (h : ¬ c.on dev = true) (clnts : List Clnt) :
    requests dev (c :: clnts) = requests dev clnts := by
  rw [requests, List.filter_cons_of_neg h]
  rfl

theorem lookLevels_eq_zero {services : Int → UInt32} (ls : List Int) (next : UInt32) :
    lookLevels services ls next = 0 ↔ next = 0 ∧ ∀ strict ∈ ls, services strict = 0 := by
  induction ls generalizing next with
  | nil => simp [lookLevels]
  | cons strict ls ih =>
    rw [lookLevels, List.forall_mem_cons]
    by_cases hany : next ||| services strict ≠ 0
    · rw [if_pos hany]
      constructor
      · exact fun hzero => absurd hzero hany
      · rintro ⟨hnext, hservice, -⟩
        exact UInt32.or_eq_zero_iff.mpr ⟨hnext, hservice⟩
    · rw [if_neg hany, ih, UInt32.or_eq_zero_iff, and_assoc]

theorem lookClnts_eq_zero (clnts : List Clnt) (next : UInt32) :
    lookClnts clnts next = 0 ↔ next = 0 ∧ ∀ c ∈ clnts, c.served = false := by
  induction clnts generalizing next with
  | nil => simp [lookClnts]
  | cons c clnts ih =>
    have hlevels := @lookLevels_eq_zero c.services levels next
    rw [← served_false] at hlevels
    rw [lookClnts, List.forall_mem_cons]
    by_cases hany : lookLevels c.services levels next ≠ 0
    · rw [if_pos hany]
      constructor
      · exact fun hzero => absurd hzero hany
      · rintro ⟨hnext, hserved, -⟩
        exact hlevels.mpr ⟨hnext, hserved⟩
    · rw [if_neg hany, ih, hlevels, and_assoc]

def quiet (clnts : List Clnt) : Bool := clnts.all fun c => !c.served

variable {clnts : List Clnt}

theorem quiet_iff : quiet clnts = true ↔ ∀ c ∈ clnts, c.served = false := by
  rw [quiet, List.all_eq_true]
  simp

/-- The look ahead finds nothing if the client has no request left and no later one services. -/
theorem nextServices_eq_zero (req : Clnt) (above : List Int) (later : List Clnt) :
    decide (nextServices req above later = 0) =
      ((requestsAt req above).isEmpty && quiet later) := by
  have hlevels := @lookLevels_eq_zero req.services above 0
  rw [Bool.eq_iff_iff, decide_eq_true_iff, Bool.and_eq_true, List.isEmpty_iff, requestsAt_eq_nil,
    quiet_iff, nextServices]
  by_cases hzero : lookLevels req.services above 0 = 0
  · rw [if_pos hzero, lookClnts_eq_zero]
    exact ⟨fun h => ⟨(hlevels.mp hzero).2, h.2⟩, fun h => ⟨hzero, h.2⟩⟩
  · rw [if_neg hzero]
    exact ⟨fun h => absurd h hzero, fun h => absurd (hlevels.mpr ⟨rfl, h.1⟩) hzero⟩

section
variable (device : List Call → UInt32) (dev : Nat) (newReq : Option Nat)

theorem grant_requestsAt (c : Clnt) (isNew : Bool) (granted : UInt32) (h : strict ∉ ls) :
    requestsAt (c.grant isNew strict granted) ls = requestsAt c ls := by
  have hsame : ∀ i ∈ ls, (c.grant isNew strict granted).services i = c.services i :=
    fun i hi => if_neg fun hnew : isNew = true ∧ i = strict => h (hnew.2 ▸ hi)
  rw [requestsAt, requestsAt]
  have hfilter : (ls.filter fun i => decide ((c.grant isNew strict granted).services i ≠ 0)) =
      ls.filter fun i => decide (c.services i ≠ 0) :=
    List.filter_congr fun i hi => by rw [hsame i hi]
  rw [hfilter]
  apply List.map_congr_left
  intro i hi
  rw [hsame i (List.mem_filter.mp hi).1]
  rfl

theorem updateLevels_spec (later : List Clnt) (hls : ls.Nodup) (req : Clnt) (p : Pass) :
    (updateLevels device newReq later ls req p).2.calls =
        p.calls ++ announced (quiet later) p.isFirst (requestsAt req ls) ∧
      (updateLevels device newReq later ls req p).2.isFirst =
        (p.isFirst && (requestsAt req ls).isEmpty) := by
  induction ls generalizing req p with
  | nil => simp [updateLevels, requestsAt, announced]
  | cons strict ls ih =>
    obtain ⟨hnot, hnodup⟩ := List.nodup_cons.mp hls
    rw [updateLevels]
    by_cases hservice : req.services strict ≠ 0
    · rw [if_pos hservice, requestsAt_cons_pos hservice, announced]
      obtain ⟨hcalls, hfirst⟩ := ih hnodup
        (req.grant (decide (newReq = some req.id)) strict (device (p.calls ++
          [⟨⟨req.id, strict, req.services strict⟩, p.isFirst,
            decide (nextServices req ls later = 0)⟩])))
        (p.call device ⟨⟨req.id, strict, req.services strict⟩, p.isFirst,
          decide (nextServices req ls later = 0)⟩)
      rw [grant_requestsAt _ _ _ hnot] at hcalls hfirst
      refine ⟨hcalls.trans ?_, hfirst.trans ?_⟩
      · rw [Pass.call, nextServices_eq_zero, List.append_assoc]
        rfl
      · rw [Pass.call, Bool.false_and, List.isEmpty_cons, Bool.and_false]
    · rw [if_neg hservice, requestsAt_cons_neg hservice]
      exact ih hnodup req p

/-- The clients behind the last one with a request for a device. -/
def behind : List Clnt → List Clnt
  | [] => []
  | c :: clnts =>
    if (requests dev clnts).isEmpty then
      if (requests dev [c]).isEmpty then c :: clnts else clnts
    else
      behind clnts

theorem not_quiet (h : requests dev clnts ≠ []) : quiet clnts = false := by
  rw [Bool.eq_false_iff, Ne, quiet_iff]
  intro hquiet
  apply h
  rw [requests, List.flatMap_eq_nil_iff]
  intro c hc
  rw [requestsAt_eq_nil, ← served_false]
  exact hquiet c (List.mem_filter.mp hc).1

theorem updateClnts_calls (clnts : List Clnt) (p : Pass) :
    (updateClnts device dev newReq clnts p).2.calls =
      p.calls ++ announced (quiet (behind dev clnts)) p.isFirst (requests dev clnts) := by
  induction clnts generalizing p with
  | nil => exact (List.append_nil _).symm
  | cons req later ih =>
    rw [updateClnts]
    by_cases hon : req.on dev = true
    · rw [if_pos hon]
      have hnodup : levels.Nodup := by decide
      obtain ⟨hcalls, hfirst⟩ := updateLevels_spec device newReq later hnodup
        { req with allServices := 0 } p
      have hsame : requestsAt { req with allServices := 0 } levels = requestsAt req levels := rfl
      rw [hsame] at hcalls hfirst
      dsimp only
      rw [ih, hcalls, hfirst, requests_cons_on hon, announced_append, List.append_assoc, behind]
      by_cases hlater : requests dev later = []
      · have hempty : (requests dev later).isEmpty = true := List.isEmpty_iff.mpr hlater
        have hself : requests dev [req] = requestsAt req levels := by
          rw [requests_cons_on hon]
          exact List.append_nil _
        rw [if_pos hempty, hlater, hself]
        cases hreq : requestsAt req levels with
        | nil => rfl
        | cons r rs => rfl
      · have hempty : ¬ (requests dev later).isEmpty = true :=
          fun h => hlater (List.isEmpty_iff.mp h)
        rw [if_neg hempty, not_quiet dev hlater, Bool.eq_false_iff.mpr hempty, Bool.false_and]
    · rw [if_neg hon]
      dsimp only
      rw [ih, requests_cons_off hon, behind]
      by_cases hlater : requests dev later = []
      · rw [hlater]
        rfl
      · rw [if_neg fun h => hlater (List.isEmpty_iff.mp h)]

end

/-- The calls of an update are those of a transaction exactly if there is no request, or the
device is open then and no client behind the last one with a request has services. -/
theorem update_transaction (env : Env) (dev : Nat) (newReq : Option Nat) (clnts : List Clnt)
    (d : Dev) :
    Transaction (requests dev clnts) (updateServices env dev newReq clnts d).calls ↔
      requests dev clnts = [] ∨
        (d.capture = true ∨ env.opens = true) ∧ ∀ c ∈ behind dev clnts, c.served = false := by
  have hcalls : (updateServices env dev newReq clnts d).calls =
      if (openDev env clnts d).1.capture then
        announced (quiet (behind dev clnts)) true (requests dev clnts)
      else [] := by
    rw [updateServices]
    by_cases hopen : (openDev env clnts d).1.capture = true
    · rw [if_pos hopen, if_pos hopen]
      exact updateClnts_calls env.device dev newReq clnts ⟨[], 0, true⟩
    · rw [if_neg hopen, if_neg hopen]
  by_cases hnone : requests dev clnts = []
  · have hempty : (updateServices env dev newReq clnts d).calls = [] := by
      rw [hcalls, hnone]
      exact ite_self _
    rw [hnone, hempty]
    exact iff_of_true ((announced_transaction true []).mpr (Or.inl rfl)) (Or.inl rfl)
  · have hlook : lookClnts clnts 0 ≠ 0 := by
      intro hzero
      have hquiet := quiet_iff.mpr ((lookClnts_eq_zero clnts 0).mp hzero).2
      rw [not_quiet dev hnone] at hquiet
      cases hquiet
    have hopen : (openDev env clnts d).1.capture = true ↔ d.capture = true ∨ env.opens = true := by
      rw [openDev]
      by_cases hcapture : d.capture = true
      · rw [if_pos hcapture]
        exact iff_of_true hcapture (Or.inl hcapture)
      · rw [if_neg hcapture, if_pos hlook]
        exact (or_iff_right hcapture).symm
    rw [hcalls, or_iff_right hnone, ← hopen, ← quiet_iff]
    by_cases hcapture : (openDev env clnts d).1.capture = true
    · rw [if_pos hcapture, announced_transaction, or_iff_right hnone]
      exact (and_iff_right hcapture).symm
    · rw [if_neg hcapture]
      exact iff_of_false (fun h => hnone h.requests.symm) fun h => hcapture h.1

/-- Two clients of one device and a third one of another device, all with services. -/
def threeClnts : List Clnt :=
  [⟨0, 0, .forward, fun i => if i = 0 then 1 else 0, 0⟩,
    ⟨1, 0, .forward, fun i => if i = 1 then 2 else 0, 0⟩,
    ⟨2, 1, .forward, fun i => if i = 0 then 1 else 0, 0⟩]

/-- The second call for the first device is the last one, but does not commit. -/
theorem update_not_committed :
    (updateServices ⟨true, fun _ => 3, 32, true⟩ 0 none threeClnts ⟨true, true, 0, 0⟩).calls =
        [⟨⟨0, 0, 1⟩, true, false⟩, ⟨⟨1, 1, 2⟩, false, false⟩] ∧
      ¬ Transaction (requests 0 threeClnts) (updateServices ⟨true, fun _ => 3, 32, true⟩ 0 none
        threeClnts ⟨true, true, 0, 0⟩).calls := by
  have hcalls : (updateServices ⟨true, fun _ => 3, 32, true⟩ 0 none threeClnts
      ⟨true, true, 0, 0⟩).calls = [⟨⟨0, 0, 1⟩, true, false⟩, ⟨⟨1, 1, 2⟩, false, false⟩] := by
    decide +kernel
  refine ⟨hcalls, fun h => ?_⟩
  rw [hcalls] at h
  exact absurd (h.commit 1 (by decide)) (by decide)

end ProxyServiceUpdate

import Mathlib.Data.List.Induction

/-!
# Programme identification from VPS packets

A VPS packet has a code of the network (CNI) and a programme identification, and no
error protection. The decoder waits for the second packet with a new CNI, then it
identifies the network, and compares the programme identification of both packets.
-/

namespace VpsProgramId

/-- `vbi_pid_channel`. -/
inductive PidChannel
  | lci0
  | lci1
  | lci2
  | lci3
  | vps
  | pdcDescriptor
  | xdsCurrent
  | xdsFuture
  deriving DecidableEq

/-- `vbi_cni_type`. -/
inductive CniType
  | none
  | vps
  | cni8301
  | cni8302
  | pdcA
  | pdcB
  deriving DecidableEq

/-- The fields of `vbi_program_id` which a VPS packet sets. -/
structure ProgramId where
  channel : PidChannel
  cniType : CniType
  cni : Nat
  pil : Nat
  mi : Bool
  pcsAudio : Nat
  pty : Nat
  deriving DecidableEq

/-- The fields of `vbi_network` which VPS packets set. -/
structure Network where
  nuid : Nat
  name : List UInt8
  cniVps : Nat
  cycle : Nat

inductive Event
  | network (n : Network)
  | networkId (n : Network)
  | progId (pid : ProgramId)

/-- What the decoder remembers, and if the event mask has `VBI_EVENT_PROG_ID`. -/
structure State where
  network : Network
  vpsPid : ProgramId
  progIdEnabled : Bool

/-- An entry of `vbi_cni_table`. -/
structure CniEntry where
  id : Nat
  name : List UInt8
  cni4 : Nat

abbrev Packet := Nat → UInt8

def vbiDecodeVpsCni (buffer : Packet) : Nat :=
  let cniValue := ((buffer 10).toNat &&& 0x03) <<< 10 + ((buffer 11).toNat &&& 0xC0) <<< 2 +
    ((buffer 8).toNat &&& 0xC0) + ((buffer 11).toNat &&& 0x3F)
  if cniValue = 0x0DC3 then
    if (buffer 2).toNat &&& 0x10 ≠ 0 then 0x0DC1 else 0x0DC2
  else
    cniValue

/-- `vbi_decode_vps_pdc()`, which does not fail. -/
def vbiDecodeVpsPdc (buffer : Packet) : ProgramId where
  channel := .vps
  cniType := .vps
  cni := vbiDecodeVpsCni buffer
  pil := ((buffer 8).toNat &&& 0x3F) <<< 14 + (buffer 9).toNat <<< 6 + (buffer 10).toNat >>> 2
  mi := true
  pcsAudio := (buffer 2).toNat >>> 6
  pty := (buffer 12).toNat

/-- `vbi->network` after `memset`. -/
def clearNetwork : Network := ⟨0, [], 0, 0⟩

/-- `CLEAR (vbi->vps_pid)`. -/
def clearPid : ProgramId := ⟨.lci0, .none, 0, 0, false, 0, 0⟩

/-- What `vbi_chsw_reset()` does to the network. -/
def vbiChswReset (identified : Nat) (n : Network) : Network × List Event :=
  if identified = 0 then
    (clearNetwork, if n.nuid ≠ 0 then [.network clearNetwork] else [])
  else
    (n, [])

section
variable (vbiCniTable : List CniEntry)

/-- `station_lookup()` for `VBI_CNI_TYPE_VPS`. -/
def stationLookup (cni : Nat) : Option CniEntry :=
  if cni = 0 then none else vbiCniTable.find? fun p => p.cni4 = cni

/-- The size of `name`. -/
def nameSize : Nat := 64

/-- `id` of the table entry, zero if there is none. -/
def stationId (cni : Nat) : Nat := ((stationLookup vbiCniTable cni).map CniEntry.id).getD 0

def stationName (cni : Nat) : List UInt8 :=
  ((stationLookup vbiCniTable cni).map CniEntry.name).getD []

def setName (cni : Nat) (n : Network) : Network :=
  if stationId vbiCniTable cni = 0 then
    { n with name := [] }
  else
    { n with name := (stationName vbiCniTable cni).take (nameSize - 2) }

def setNuid (id : Nat) (n : Network) : Network × List Event :=
  let r := if n.nuid ≠ 0 then vbiChswReset id n else (n, [])
  ({ nuid := id, name := r.1.name, cniVps := r.1.cniVps, cycle := r.1.cycle }, r.2)

def identify (cni : Nat) (n : Network) : Network × List Event :=
  let id := stationId vbiCniTable cni
  let n := setName vbiCniTable cni n
  if id ≠ n.nuid then
    let r := setNuid id n
    ({ nuid := r.1.nuid, name := r.1.name, cniVps := r.1.cniVps, cycle := 2 },
      r.2 ++ [.network r.1, .networkId r.1])
  else
    ({ n with cycle := 2 }, [.networkId n])

def vbiDecodeVps (s : State) (buf : Packet) : State × List Event :=
  let cni := vbiDecodeVpsCni buf
  if cni ≠ s.network.cniVps then
    ({ s with network := { s.network with cniVps := cni, cycle := 1 },
              vpsPid := vbiDecodeVpsPdc buf }, [])
  else if s.network.cycle = 1 then
    let r := identify vbiCniTable cni s.network
    let s := { s with network := r.1 }
    if s.progIdEnabled then
      let pid := vbiDecodeVpsPdc buf
      if pid ≠ s.vpsPid then
        ({ s with vpsPid := pid }, r.2)
      else
        (s, r.2 ++ [.progId pid])
    else
      (s, r.2)
  else
    (s, [])

/-- A decoder with a handler for `VBI_EVENT_PROG_ID`. -/
def initial : State := ⟨clearNetwork, clearPid, true⟩

/-- The decoder and the events it sent after a sequence of packets. -/
def decode (packets : List Packet) : State × List Event :=
  packets.foldl (fun r buf =>
    ((vbiDecodeVps vbiCniTable r.1 buf).1, r.2 ++ (vbiDecodeVps vbiCniTable r.1 buf).2))
    (initial, [])

def progIds (events : List Event) : List ProgramId :=
  events.filterMap fun e =>
    match e with
    | .progId pid => some pid
    | _ => none

def lastReported (before : List Packet) (cni : Nat) : Option ProgramId :=
  ((progIds (decode vbiCniTable before).2).filter fun pid => pid.cni = cni).getLast?

def reports (before : List Packet) (buf : Packet) : List ProgramId :=
  progIds (vbiDecodeVps vbiCniTable (decode vbiCniTable before).1 buf).2

/-- The packet before had the same data. -/
def Repeats (before : List Packet) (buf : Packet) : Prop :=
  before.getLast?.map vbiDecodeVpsPdc = some (vbiDecodeVpsPdc buf)

/-- Data received twice in succession which was not reported last. -/
def Confirms (before : List Packet) (buf : Packet) : Prop :=
  Repeats before buf ∧
    lastReported vbiCniTable before (vbiDecodeVpsCni buf) ≠ some (vbiDecodeVpsPdc buf)

/-- New data is reported when it is received for the second time, and not before. -/
structure Reported (before : List Packet) (buf : Packet) : Prop where
  second : Confirms vbiCniTable before buf → reports vbiCniTable before buf = [vbiDecodeVpsPdc buf]
  once : ∀ pid ∈ reports vbiCniTable before buf, pid = vbiDecodeVpsPdc buf ∧ Repeats before buf

def CniUnconfirmed (before : List Packet) : Prop :=
  (decode vbiCniTable before).1.network.cycle = 1

def EachPacket (P : List Packet → Packet → Prop) (packets : List Packet) : Prop :=
  ∀ before buf after, packets = before ++ buf :: after → P before buf

end

theorem progIds_append (first second : List Event) :
    progIds (first ++ second) = progIds first ++ progIds second :=
  List.filterMap_append

theorem progIds_setNuid (id : Nat) (n : Network) : progIds (setNuid id n).2 = [] := by
  unfold setNuid vbiChswReset
  dsimp only
  repeat' split
  all_goals rfl

theorem progIds_identify (vbiCniTable : List CniEntry) (cni : Nat) (n : Network) :
    progIds (identify vbiCniTable cni n).2 = [] := by
  rw [identify]
  dsimp only
  split
  · rw [progIds_append, progIds_setNuid]
    rfl
  · rfl

theorem identify_cycle (vbiCniTable : List CniEntry) (cni : Nat) (n : Network) :
    (identify vbiCniTable cni n).1.cycle = 2 := by
  rw [identify]
  dsimp only
  split <;> rfl

theorem vbiDecodeVps_progIds (vbiCniTable : List CniEntry) (s : State) (buf : Packet) :
    progIds (vbiDecodeVps vbiCniTable s buf).2 =
      if vbiDecodeVpsCni buf = s.network.cniVps ∧ s.network.cycle = 1 ∧ s.progIdEnabled = true ∧
        vbiDecodeVpsPdc buf = s.vpsPid then [vbiDecodeVpsPdc buf] else [] := by
  have hnone := progIds_identify vbiCniTable (vbiDecodeVpsCni buf) s.network
  rw [vbiDecodeVps]
  dsimp only
  by_cases hcni : vbiDecodeVpsCni buf = s.network.cniVps
  · rw [if_neg (not_not_intro hcni)]
    by_cases hcycle : s.network.cycle = 1
    · rw [if_pos hcycle]
      by_cases henabled : s.progIdEnabled = true
      · rw [if_pos henabled]
        by_cases hpid : vbiDecodeVpsPdc buf = s.vpsPid
        · rw [if_neg (not_not_intro hpid), if_pos ⟨hcni, hcycle, henabled, hpid⟩, progIds_append,
            hnone]
          rfl
        · rw [if_pos hpid, if_neg (fun h => hpid h.2.2.2)]
          exact hnone
      · rw [if_neg henabled, if_neg (fun h => henabled h.2.2.1)]
        exact hnone
    · rw [if_neg hcycle, if_neg (fun h => hcycle h.2.1)]
      rfl
  · rw [if_pos hcni, if_neg (fun h => hcni h.1)]
    rfl

theorem vbiDecodeVps_enabled (vbiCniTable : List CniEntry) (s : State) (buf : Packet) :
    (vbiDecodeVps vbiCniTable s buf).1.progIdEnabled = s.progIdEnabled := by
  unfold vbiDecodeVps
  dsimp only
  repeat' split
  all_goals rfl

theorem vbiDecodeVps_new {vbiCniTable : List CniEntry} {s : State} {buf : Packet}
    (h : vbiDecodeVpsCni buf ≠ s.network.cniVps) :
    (vbiDecodeVps vbiCniTable s buf).1.network.cniVps = vbiDecodeVpsCni buf ∧
      (vbiDecodeVps vbiCniTable s buf).1.network.cycle = 1 ∧
      (vbiDecodeVps vbiCniTable s buf).1.vpsPid = vbiDecodeVpsPdc buf := by
  rw [vbiDecodeVps, if_pos h]
  exact ⟨rfl, rfl, rfl⟩

theorem vbiDecodeVps_same {vbiCniTable : List CniEntry} {s : State} {buf : Packet}
    (h : vbiDecodeVpsCni buf = s.network.cniVps) :
    (vbiDecodeVps vbiCniTable s buf).1.network.cycle ≠ 1 := by
  have hcycle := identify_cycle vbiCniTable (vbiDecodeVpsCni buf) s.network
  have htwo : (identify vbiCniTable (vbiDecodeVpsCni buf) s.network).1.cycle ≠ 1 := by
    rw [hcycle]
    decide
  rw [vbiDecodeVps, if_neg (not_not_intro h)]
  dsimp only
  split
  · repeat' split
    all_goals exact htwo
  · rename_i hother
    exact hother

theorem decode_append (vbiCniTable : List CniEntry) (before : List Packet) (buf : Packet) :
    decode vbiCniTable (before ++ [buf]) =
      ((vbiDecodeVps vbiCniTable (decode vbiCniTable before).1 buf).1,
        (decode vbiCniTable before).2 ++
          (vbiDecodeVps vbiCniTable (decode vbiCniTable before).1 buf).2) := by
  rw [decode, List.foldl_append]
  rfl

theorem decode_enabled (vbiCniTable : List CniEntry) (packets : List Packet) :
    (decode vbiCniTable packets).1.progIdEnabled = true := by
  induction packets using List.reverseRecOn with
  | nil => rfl
  | append_singleton before buf ih => rw [decode_append, vbiDecodeVps_enabled, ih]

/-- The decoder waits for another packet exactly if the last one had a new CNI. -/
theorem cniUnconfirmed_iff (vbiCniTable : List CniEntry) (before : List Packet) (buf : Packet) :
    CniUnconfirmed vbiCniTable (before ++ [buf]) ↔
      vbiDecodeVpsCni buf ≠ (decode vbiCniTable before).1.network.cniVps := by
  rw [CniUnconfirmed, decode_append]
  constructor
  · intro h hsame
    exact vbiDecodeVps_same hsame h
  · intro h
    exact (vbiDecodeVps_new h).2.1

theorem decode_unconfirmed {vbiCniTable : List CniEntry} {packets : List Packet}
    (h : CniUnconfirmed vbiCniTable packets) :
    ∃ buf, packets.getLast? = some buf ∧
      (decode vbiCniTable packets).1.network.cniVps = vbiDecodeVpsCni buf ∧
      (decode vbiCniTable packets).1.vpsPid = vbiDecodeVpsPdc buf := by
  induction packets using List.reverseRecOn with
  | nil => cases h
  | append_singleton before buf _ =>
    have hcni : vbiDecodeVpsCni buf ≠ (decode vbiCniTable before).1.network.cniVps :=
      (cniUnconfirmed_iff vbiCniTable before buf).mp h
    have hnew := @vbiDecodeVps_new vbiCniTable _ _ hcni
    refine ⟨buf, List.getLast?_concat, ?_⟩
    rw [decode_append]
    exact ⟨hnew.1, hnew.2.2⟩

/-- A report follows an unconfirmed CNI, and has the data of both packets. -/
theorem reports_eq (vbiCniTable : List CniEntry) (before : List Packet) (buf : Packet) :
    (CniUnconfirmed vbiCniTable before ∧ Repeats before buf ∧
      reports vbiCniTable before buf = [vbiDecodeVpsPdc buf]) ∨
    (¬ (CniUnconfirmed vbiCniTable before ∧ Repeats before buf) ∧
      reports vbiCniTable before buf = []) := by
  have hreports := vbiDecodeVps_progIds vbiCniTable (decode vbiCniTable before).1 buf
  by_cases h : CniUnconfirmed vbiCniTable before ∧ Repeats before buf
  · left
    obtain ⟨last, hlast, hcni, hpid⟩ := decode_unconfirmed h.1
    have hsame : vbiDecodeVpsPdc last = vbiDecodeVpsPdc buf := by
      have hrepeats := h.2
      rw [Repeats, hlast] at hrepeats
      exact Option.some.inj hrepeats
    refine ⟨h.1, h.2, ?_⟩
    rw [reports, hreports, if_pos]
    refine ⟨?_, h.1, decode_enabled vbiCniTable before, ?_⟩
    · rw [hcni]
      exact (congrArg ProgramId.cni hsame).symm
    · rw [hpid, hsame]
  · right
    refine ⟨h, ?_⟩
    rw [reports, hreports, if_neg]
    rintro ⟨-, hcycle, -, hpid⟩
    obtain ⟨last, hlast, -, hstored⟩ := decode_unconfirmed hcycle
    apply h
    refine ⟨hcycle, ?_⟩
    rw [Repeats, hlast, Option.map_some, ← hstored, hpid]

theorem reported_iff (vbiCniTable : List CniEntry) (before : List Packet) (buf : Packet) :
    Reported vbiCniTable before buf ↔
      (Confirms vbiCniTable before buf → CniUnconfirmed vbiCniTable before) := by
  rcases reports_eq vbiCniTable before buf with ⟨hcni, hrepeats, hsent⟩ | ⟨hnot, hsent⟩
  · refine ⟨fun _ _ => hcni, fun _ => ⟨fun _ => hsent, ?_⟩⟩
    intro pid hpid
    rw [hsent, List.mem_singleton] at hpid
    exact ⟨hpid, hrepeats⟩
  · constructor
    · intro h hconfirms
      have hsecond := h.second hconfirms
      rw [hsent] at hsecond
      cases hsecond
    · intro h
      refine ⟨fun hconfirms => absurd ⟨h hconfirms, hconfirms.1⟩ hnot, ?_⟩
      intro pid hpid
      rw [hsent] at hpid
      cases hpid

/-- The reports of a sequence are right exactly if new data is repeated only in the first
two packets with a CNI. -/
theorem eachReported_iff (vbiCniTable : List CniEntry) (packets : List Packet) :
    EachPacket (Reported vbiCniTable) packets ↔
      EachPacket (fun before buf =>
        Confirms vbiCniTable before buf → CniUnconfirmed vbiCniTable before) packets := by
  constructor
  · intro h before buf after hsplit
    exact (reported_iff vbiCniTable before buf).mp (h before buf after hsplit)
  · intro h before buf after hsplit
    exact (reported_iff vbiCniTable before buf).mpr (h before buf after hsplit)

def orfEins : CniEntry := ⟨193, [79, 82, 70, 32, 101, 105, 110, 115], 0x0AC1⟩

def orfPacket (programme : UInt8) : Packet := fun i =>
  if i = 8 then 0xC0 else if i = 9 then programme else if i = 10 then 0x02 else
  if i = 11 then 0x81 else 0

/-- The next programme is not reported. -/
theorem programme_change_not_reported : ¬ EachPacket (Reported [orfEins])
    [orfPacket 1, orfPacket 1, orfPacket 2, orfPacket 2] := by
  intro h
  have hlast := h [orfPacket 1, orfPacket 1, orfPacket 2] (orfPacket 2) [] rfl
  have hconfirms : Confirms [orfEins] [orfPacket 1, orfPacket 1, orfPacket 2] (orfPacket 2) :=
    ⟨rfl, by decide⟩
  have hsecond := hlast.second hconfirms
  revert hsecond
  decide

end VpsProgramId

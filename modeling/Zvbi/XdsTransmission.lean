import Mathlib.Data.List.Count
import Zvbi.StreamMachine
import Zvbi.XdsReception

/-!
# Interleaved Extended Data Service packets

A sender transmits a family of packets. It may interrupt a packet between any
two pairs with caption codes, stuffing or another packet, and resumes it with
its continue code. If no two packets of the family share an element of the
table, each of them is delivered at its end code as if it had been sent alone.
-/

namespace XdsTransmission
open Hamming XdsDemux XdsReception

structure Source where
  xdsClass : Nat
  xdsSubclass : Nat
  characters : List UInt8
  known : Known xdsClass xdsSubclass
  length_pos : 1 ≤ characters.length
  length_le : characters.length ≤ 32
  printable : ∀ c ∈ characters, 0x20 ≤ c ∧ c < 0x80

def Source.element (p : Source) : Nat := XdsDemux.element p.xdsClass p.xdsSubclass

def charPairs : List UInt8 → List (UInt8 × UInt8)
  | [] => []
  | [c] => [(c, 0)]
  | c :: d :: rest => (c, d) :: charPairs rest

def Source.sum (p : Source) : Nat :=
  p.xdsClass * 2 + 1 + p.xdsSubclass + (p.characters.map UInt8.toNat).sum

def Source.checksum (p : Source) : Nat := (128 - (p.sum + 0x0F) % 128) % 128

universe u

variable {Name : Type u} [DecidableEq Name]

/-- What a sender puts on the line. -/
inductive Symbol (Name : Type u) where
  | start (name : Name)
  | resume (name : Name)
  | content (c d : UInt8)
  | finish (name : Name)
  | caption (c d : UInt8)
  | stuffing (d : UInt8)
  deriving DecidableEq

def pairOf (c d : Nat) : UInt8 × UInt8 := (vbiPar8 (UInt8.ofNat c), vbiPar8 (UInt8.ofNat d))

def Symbol.pair (packets : Name → Source) : Symbol Name → UInt8 × UInt8
  | .start name => pairOf ((packets name).xdsClass * 2 + 1) (packets name).xdsSubclass
  | .resume name => pairOf ((packets name).xdsClass * 2 + 2) (packets name).xdsSubclass
  | .content c d => (vbiPar8 c, vbiPar8 d)
  | .finish name => pairOf 0x0F (packets name).checksum
  | .caption c d => (vbiPar8 c, vbiPar8 d)
  | .stuffing d => (vbiPar8 0, vbiPar8 d)

inductive Phase where
  | waiting
  | sending (rest : List (UInt8 × UInt8))
  | sent
  deriving DecidableEq

/-- How far each packet is, and the packet on the line. -/
structure Line (Name : Type u) where
  phase : Name → Phase
  current : Option Name

def idle : Line Name := ⟨fun _ => .waiting, none⟩

/-- The symbols a sender may put on the line. -/
def send (packets : Name → Source) (line : Line Name) : Symbol Name → Option (Line Name)
  | .start name =>
    if line.phase name = .waiting then
      some ⟨Function.update line.phase name (.sending (charPairs (packets name).characters)),
        some name⟩
    else
      none
  | .resume name =>
    match line.phase name with
    | .sending _ => some ⟨line.phase, some name⟩
    | _ => none
  | .content c d =>
    match line.current with
    | none => none
    | some name =>
      match line.phase name with
      | .sending (next :: rest) =>
        if next = (c, d) then
          some ⟨Function.update line.phase name (.sending rest), some name⟩
        else
          none
      | _ => none
  | .finish name =>
    if line.current = some name ∧ line.phase name = .sending [] then
      some ⟨Function.update line.phase name .sent, none⟩
    else
      none
  | .caption c d => if 0x10 ≤ c ∧ c < 0x20 ∧ d < 0x80 then some ⟨line.phase, none⟩ else none
  | .stuffing d => if d < 0x80 then some line else none

structure Delivered where
  xdsClass : Nat
  xdsSubclass : Nat
  bufferSize : Nat
  content : List UInt8
  deriving DecidableEq

def view (p : XdsPacket) : Delivered :=
  ⟨p.xdsClass, p.xdsSubclass, p.bufferSize, content p.buffer p.bufferSize⟩

def Source.delivered (p : Source) : Delivered :=
  ⟨p.xdsClass, p.xdsSubclass, p.characters.length, p.characters⟩

def deliver (callback : XdsPacket → Bool) (xd : Demux) (pair : UInt8 × UInt8) :
    Option (Demux × List Delivered) :=
  (feed callback xd pair).map fun o => (o.xd, (o.delivered.map view).toList)

def alone (packets : Name → Source) (name : Name) : List (Symbol Name) :=
  .start name :: (charPairs (packets name).characters).map (fun p => .content p.1 p.2) ++
    [.finish name]

def ended : List (Symbol Name) → List Name
  | [] => []
  | .finish name :: rest => name :: ended rest
  | _ :: rest => ended rest

/-- An element with the first characters of a packet, when `rest` is still to
be sent. -/
structure Partial (p : Source) (rest : List (UInt8 × UInt8)) (sp : XdsSubpacket) : Prop where
  split : ∃ first last, first ++ last = p.characters ∧ rest = charPairs last ∧
    (last = [] ∨ first.length % 2 = 0) ∧ sp.count = first.length + 2 ∧
    content sp.buffer first.length = first ∧
    sp.checksum = p.xdsClass * 2 + 1 + p.xdsSubclass + (first.map UInt8.toNat).sum

structure Follows (packets : Name → Source) (line : Line Name) (xd : Demux) : Prop where
  elements : ∀ name rest, line.phase name = .sending rest →
    ∃ sp, xd.subpacket[(packets name).element]? = some sp ∧ Partial (packets name) rest sp
  unselected : line.current = none → xd.currSp = none
  selected : ∀ name, line.current = some name →
    xd.currSp = some (packets name).element ∧ xd.curr.xdsClass = (packets name).xdsClass ∧
      xd.curr.xdsSubclass = (packets name).xdsSubclass

omit [DecidableEq Name] in
theorem reset_follows (packets : Name → Source) (xd : Demux) :
    Follows packets idle (reset xd) := by
  constructor
  · intro name rest h
    cases h
  · intro _
    rfl
  · intro name h
    cases h

variable {c d : UInt8} {sp : XdsSubpacket} {xd : Demux} {packets : Name → Source} {line : Line Name}

theorem feed_par8 (callback : XdsPacket → Bool) (xd : Demux) (hc : c < 128) (hd : d < 128) :
    feed callback xd (vbiPar8 c, vbiPar8 d) = dispatch callback xd c.toNat d.toNat := by
  have hvalid : ¬ ((c.toNat : Int) < 0 ∨ (d.toNat : Int) < 0) := by omega
  simp only [feed, vbiUnpar8_par8 c hc, vbiUnpar8_par8 d hd, if_neg hvalid, Int.toNat_natCast]

theorem feed_pairOf (callback : XdsPacket → Bool) (xd : Demux) {c d : Nat} (hc : c < 128)
    (hd : d < 128) : feed callback xd (pairOf c d) = dispatch callback xd c d := by
  have toNat_ofNat : ∀ n, n < 128 → (UInt8.ofNat n).toNat = n := by
    intro n hn
    rw [UInt8.toNat_ofNat']
    omega
  have lt : ∀ n, n < 128 → UInt8.ofNat n < 128 := by
    intro n hn
    rw [UInt8.lt_iff_toNat_lt, toNat_ofNat n hn]
    exact hn
  rw [pairOf, feed_par8 callback xd (lt c hc) (lt d hd), toNat_ofNat c hc, toNat_ofNat d hd]

theorem Source.bounds (p : Source) : p.xdsClass ≤ 3 ∧ p.xdsSubclass ≤ 0x48 := by
  have known := p.known
  simp only [Known, vbiXdsClassMisc, vbiXdsMaxSubclasses, column] at known
  split at known
  · omega
  · omega

theorem Source.exists_element (p : Source) (xd : Demux) :
    ∃ sp, xd.subpacket[p.element]? = some sp :=
  ⟨_, Vector.getElem?_eq_getElem (element_lt p.known)⟩

/-- The state behind a start or continue code. -/
def select (p : Source) (xd : Demux) : Demux :=
  { xd with
    currSp := some p.element
    curr := { xd.curr with xdsClass := p.xdsClass, xdsSubclass := p.xdsSubclass } }

theorem feed_start (callback : XdsPacket → Bool) (p : Source)
    (hsp : xd.subpacket[p.element]? = some sp) :
    feed callback xd (pairOf (p.xdsClass * 2 + 1) p.xdsSubclass) =
      some ⟨setSp (select p xd) p.element
        { sp with checksum := p.xdsClass * 2 + 1 + p.xdsSubclass, count := 2 }, none, true⟩ := by
  have hbounds := p.bounds
  have hclass : (p.xdsClass * 2 + 1 - 1) / 2 = p.xdsClass := by omega
  have hodd : (p.xdsClass * 2 + 1) % 2 = 1 := by omega
  have hsp' : xd.subpacket[XdsDemux.element p.xdsClass p.xdsSubclass]? = some sp := hsp
  rw [feed_pairOf callback xd (by omega) (by omega), dispatch, if_neg (by omega),
    if_pos (by omega)]
  simp only [header, hclass, if_neg (not_not.mpr p.known), hsp', Option.bind_eq_bind,
    Option.bind_some, if_pos hodd, Option.map_some]
  rfl

theorem feed_resume (callback : XdsPacket → Bool) (p : Source)
    (hsp : xd.subpacket[p.element]? = some sp) (hcount : sp.count ≠ 0) :
    feed callback xd (pairOf (p.xdsClass * 2 + 2) p.xdsSubclass) =
      some ⟨select p xd, none, true⟩ := by
  have hbounds := p.bounds
  have hclass : (p.xdsClass * 2 + 2 - 1) / 2 = p.xdsClass := by omega
  have heven : ¬ (p.xdsClass * 2 + 2) % 2 = 1 := by omega
  have hsp' : xd.subpacket[XdsDemux.element p.xdsClass p.xdsSubclass]? = some sp := hsp
  rw [feed_pairOf callback xd (by omega) (by omega), dispatch, if_neg (by omega),
    if_pos (by omega)]
  simp only [header, hclass, if_neg (not_not.mpr p.known), hsp', Option.bind_eq_bind,
    Option.bind_some, if_neg heven, if_neg hcount, Option.map_some]
  rfl

omit [DecidableEq Name] in
/-- Elements of other packets are not touched. -/
theorem other_element
    (distinct : Function.Injective fun name => (packets name).element) {name other : Name}
    (hne : other ≠ name) (xd : Demux) (sp : XdsSubpacket) :
    (setSp xd (packets name).element sp).subpacket[(packets other).element]? =
      xd.subpacket[(packets other).element]? := by
  have hindex : (packets name).element ≠ (packets other).element := fun h => hne (distinct h.symm)
  simp only [setSp, Vector.getElem?_setIfInBounds_ne hindex]

theorem follows_update (distinct : Function.Injective fun name => (packets name).element)
    (h : Follows packets line xd) (name : Name) (phase : Phase) (sp : XdsSubpacket) {t : Demux}
    (ht : t.subpacket = xd.subpacket)
    (hphase : ∀ rest, phase = .sending rest → Partial (packets name) rest sp) :
    ∀ other rest, Function.update line.phase name phase other = .sending rest →
      ∃ p, (setSp t (packets name).element sp).subpacket[(packets other).element]? = some p ∧
        Partial (packets other) rest p := by
  intro other rest hother
  by_cases hne : other = name
  · subst hne
    rw [Function.update_self] at hother
    obtain ⟨old, hold⟩ := (packets other).exists_element t
    exact ⟨sp, subpacket_setSp_self hold, hphase rest hother⟩
  · rw [Function.update_of_ne hne] at hother
    obtain ⟨p, hp, hpartial⟩ := h.elements other rest hother
    rw [other_element distinct hne, ht]
    exact ⟨p, hp, hpartial⟩

theorem partial_start (p : Source) (sp : XdsSubpacket) :
    Partial p (charPairs p.characters)
      { sp with checksum := p.xdsClass * 2 + 1 + p.xdsSubclass, count := 2 } :=
  ⟨[], p.characters, rfl, rfl, Or.inr rfl, rfl, List.take_zero, rfl⟩

theorem eq_nil_of_charPairs {last : List UInt8} (h : charPairs last = []) : last = [] := by
  rcases last with - | ⟨c, - | ⟨d, tail⟩⟩
  · rfl
  · cases h
  · cases h

theorem charPairs_cons {last : List UInt8} {rest : List (UInt8 × UInt8)}
    (h : (c, d) :: rest = charPairs last) :
    last = [c] ∧ d = 0 ∧ rest = [] ∨ ∃ tail, last = c :: d :: tail ∧ rest = charPairs tail := by
  match last, h with
  | [a], h =>
    simp only [charPairs, List.cons.injEq, Prod.mk.injEq] at h
    obtain ⟨⟨rfl, rfl⟩, rfl⟩ := h
    exact Or.inl ⟨rfl, rfl, rfl⟩
  | a :: b :: tail, h =>
    simp only [charPairs, List.cons.injEq, Prod.mk.injEq] at h
    obtain ⟨⟨rfl, rfl⟩, rfl⟩ := h
    exact Or.inr ⟨tail, rfl, rfl⟩

/-- The next pair of a packet, its characters and what remains. -/
theorem Partial.next {p : Source} {rest : List (UInt8 × UInt8)}
    (h : Partial p ((c, d) :: rest) sp) :
    0x20 ≤ c ∧ c < 0x80 ∧ d < 0x80 ∧ 2 ≤ sp.count ∧ sp.count ≤ 32 ∧
      Partial p rest
        ⟨(sp.buffer.setIfInBounds (sp.count - 2) (UInt8.ofNat c.toNat)).setIfInBounds
            (sp.count - 2 + 1) (UInt8.ofNat d.toNat),
          sp.count + (1 + if d.toNat ≠ 0 then 1 else 0), sp.checksum + (c.toNat + d.toNat)⟩ := by
  obtain ⟨first, last, hsplit, hrest, heven, hcount, hcontent, hsum⟩ := h.split
  have hlength := congrArg List.length hsplit
  have hmax := p.length_le
  rw [List.length_append] at hlength
  have hmem : ∀ x ∈ last, 0x20 ≤ x ∧ x < 0x80 := by
    intro x hx
    apply p.printable
    rw [← hsplit]
    exact List.mem_append_right first hx
  have hsize : sp.count - 2 = first.length := by omega
  rcases charPairs_cons hrest with ⟨rfl, rfl, rfl⟩ | ⟨tail, rfl, rfl⟩
  · have heven' : first.length % 2 = 0 := heven.resolve_left (List.cons_ne_nil _ _)
    rw [List.length_singleton] at hlength
    obtain ⟨hlow, hhigh⟩ := hmem c List.mem_cons_self
    refine ⟨hlow, hhigh, by decide, by omega, by omega, ?_⟩
    refine ⟨first ++ [c], [], by rw [List.append_nil, hsplit], rfl, Or.inl rfl, ?_, ?_, ?_⟩
    · simp only [List.length_append, List.length_singleton]
      rw [if_neg (by decide)]
      omega
    · have hstore := content_store sp.buffer (k := first.length) (by omega) c.toNat 0
      simp only [List.length_append, List.length_singleton, hsize]
      refine Eq.trans hstore ?_
      rw [hcontent, characters, if_neg (by decide), UInt8.ofNat_toNat]
    · simp only [hsum, List.map_append, List.sum_append, List.map_cons, List.map_nil,
        List.sum_cons, List.sum_nil]
      have hzero : (0 : UInt8).toNat = 0 := rfl
      omega
  · have heven' : first.length % 2 = 0 := heven.resolve_left (List.cons_ne_nil _ _)
    rw [List.length_cons, List.length_cons] at hlength
    obtain ⟨hlow, hhigh⟩ := hmem c List.mem_cons_self
    obtain ⟨hlow', hhigh'⟩ := hmem d (List.mem_cons_of_mem _ List.mem_cons_self)
    have hd : d.toNat ≠ 0 := by
      have h20 : (0x20 : UInt8).toNat ≤ d.toNat := UInt8.le_iff_toNat_le.mp hlow'
      have h32 : (0x20 : UInt8).toNat = 32 := rfl
      omega
    refine ⟨hlow, hhigh, hhigh', by omega, by omega, ?_⟩
    refine ⟨first ++ [c, d], tail, ?_, rfl, Or.inr ?_, ?_, ?_, ?_⟩
    · rw [← hsplit, List.append_assoc]
      rfl
    · simp only [List.length_append, List.length_cons, List.length_nil]
      omega
    · simp only [List.length_append, List.length_cons, List.length_nil]
      rw [if_pos hd]
      omega
    · have hstore := content_store sp.buffer (k := first.length) (by omega) c.toNat d.toNat
      rw [if_pos hd] at hstore
      simp only [List.length_append, List.length_cons, List.length_nil, hsize]
      refine Eq.trans hstore ?_
      rw [hcontent, characters, if_pos hd, UInt8.ofNat_toNat, UInt8.ofNat_toNat]
    · simp only [hsum, List.map_append, List.sum_append, List.map_cons, List.map_nil,
        List.sum_cons, List.sum_nil]
      omega

theorem feed_content (callback : XdsPacket → Bool) {n : Nat} (hn : xd.currSp = some n)
    (hsp : xd.subpacket[n]? = some sp) (hlow : 2 ≤ sp.count) (hhigh : sp.count ≤ 32) (hc : 0x20 ≤ c)
    (hc' : c < 0x80) (hd : d < 0x80) :
    feed callback xd (vbiPar8 c, vbiPar8 d) =
      some ⟨setSp xd n ⟨(sp.buffer.setIfInBounds (sp.count - 2)
          (UInt8.ofNat c.toNat)).setIfInBounds (sp.count - 2 + 1) (UInt8.ofNat d.toNat),
        sp.count + (1 + if d.toNat ≠ 0 then 1 else 0), sp.checksum + (c.toNat + d.toNat)⟩,
        none, true⟩ := by
  have h20 : (0x20 : UInt8).toNat ≤ c.toNat := UInt8.le_iff_toNat_le.mp hc
  have h32 : (0x20 : UInt8).toNat = 32 := rfl
  have hfirst : ((sp.count : Int) - 2).toNat = sp.count - 2 := by omega
  have hsecond : ((sp.count : Int) - 1).toNat = sp.count - 2 + 1 := by omega
  rw [feed_par8 callback xd hc' hd, dispatch, if_neg (by omega), if_neg (by omega),
    if_neg (by omega), if_neg (by omega), hn]
  simp only [contents, hsp, Option.bind_eq_bind, Option.bind_some]
  rw [if_neg (by omega), store, if_pos (by omega), Option.bind_some, store, if_pos (by omega),
    Option.bind_some]
  simp only [hfirst, hsecond, Option.map_some]

theorem feed_finish (callback : XdsPacket → Bool) (p : Source) (hn : xd.currSp = some p.element)
    (hclass : xd.curr.xdsClass = p.xdsClass) (hsubclass : xd.curr.xdsSubclass = p.xdsSubclass)
    (hsp : xd.subpacket[p.element]? = some sp) (complete : Partial p [] sp) :
    ∃ curr, feed callback xd (pairOf 0x0F p.checksum) =
        some ⟨setSp { xd with currSp := none, curr := curr } p.element sp.clear, some curr,
          callback curr⟩ ∧ view curr = p.delivered := by
  obtain ⟨first, last, hsplit, hrest, -, hcount, hcontent, hsum⟩ := complete.split
  have hlast : last = [] := eq_nil_of_charPairs hrest.symm
  subst hlast
  rw [List.append_nil] at hsplit
  subst hsplit
  have hpos := p.length_pos
  have hmax := p.length_le
  have hchecksum : (sp.checksum + 0x0F + p.checksum) % 128 = 0 := by
    simp only [Source.checksum, Source.sum, hsum]
    omega
  have hlt : p.checksum < 128 := Nat.mod_lt _ (by decide)
  have hsize : sp.count - 2 = p.characters.length := by omega
  rw [feed_pairOf callback xd (by decide) hlt, dispatch, if_neg (by decide), if_neg (by decide),
    if_pos rfl, hn]
  simp only [terminator, hsp, Option.bind_eq_bind, Option.bind_some]
  rw [if_neg (not_not.mpr hchecksum), if_neg (by omega), XdsDemux.complete, if_pos (by omega),
    Option.bind_some, discard_some (by exact hsp)]
  refine ⟨_, rfl, ?_⟩
  simp only [view, Source.delivered, hclass, hsubclass, hsize]
  rw [content_copy _ _ hmax, hcontent]

/-- The demultiplexer keeps up with the sender, symbol by symbol, and delivers
a packet at its end code. -/
theorem send_follows (callback : XdsPacket → Bool)
    (distinct : Function.Injective fun name => (packets name).element) {next : Line Name}
    {symbol : Symbol Name} (hsend : send packets line symbol = some next)
    (h : Follows packets line xd) :
    ∃ t, deliver callback xd (symbol.pair packets) =
        some (t, (ended [symbol]).map fun name => (packets name).delivered) ∧
      Follows packets next t := by
  cases symbol with
  | start name =>
    simp only [send] at hsend
    split at hsend
    · cases hsend
      obtain ⟨sp, hsp⟩ := (packets name).exists_element xd
      refine ⟨_, by rw [deliver, Symbol.pair, feed_start callback _ hsp]; rfl, ?_⟩
      refine ⟨follows_update distinct h name _ _ rfl ?_, fun hnone => ?_, fun other hother => ?_⟩
      · intro rest hrest
        cases hrest
        exact partial_start _ sp
      · cases hnone
      · cases hother
        exact ⟨rfl, rfl, rfl⟩
    · cases hsend
  | resume name =>
    simp only [send] at hsend
    split at hsend
    · rename_i rest hphase
      cases hsend
      obtain ⟨sp, hsp, hpartial⟩ := h.elements name rest hphase
      have hcount : sp.count ≠ 0 := by
        obtain ⟨first, -, -, -, -, hcount, -⟩ := hpartial.split
        omega
      refine ⟨_, by rw [deliver, Symbol.pair, feed_resume callback _ hsp hcount]; rfl, ?_⟩
      refine ⟨h.elements, fun hnone => ?_, fun other hother => ?_⟩
      · cases hnone
      · cases hother
        exact ⟨rfl, rfl, rfl⟩
    · cases hsend
  | content c d =>
    simp only [send] at hsend
    split at hsend
    · cases hsend
    rename_i name hcurrent
    split at hsend
    · rename_i pair rest hphase
      split at hsend
      · rename_i hpair
        cases hsend
        subst hpair
        obtain ⟨sp, hsp, hpartial⟩ := h.elements name _ hphase
        obtain ⟨hc, hc', hd, hlow, hhigh, hnext⟩ := hpartial.next
        obtain ⟨hn, hclass, hsubclass⟩ := h.selected name hcurrent
        refine ⟨_, by
          rw [deliver, Symbol.pair, feed_content callback hn hsp hlow hhigh hc hc' hd]; rfl, ?_⟩
        refine ⟨follows_update distinct h name _ _ rfl ?_, fun hnone => ?_, fun other hother => ?_⟩
        · intro rest' hrest
          cases hrest
          exact hnext
        · cases hnone
        · cases hother
          exact ⟨hn, hclass, hsubclass⟩
      · cases hsend
    · cases hsend
  | finish name =>
    simp only [send] at hsend
    split at hsend
    · rename_i hend
      cases hsend
      obtain ⟨sp, hsp, hpartial⟩ := h.elements name [] hend.2
      obtain ⟨hn, hclass, hsubclass⟩ := h.selected name hend.1
      obtain ⟨curr, hfeed, hview⟩ := feed_finish callback _ hn hclass hsubclass hsp hpartial
      have hdeliver : deliver callback xd (Symbol.pair packets (.finish name)) =
          some (setSp { xd with currSp := none, curr := curr } (packets name).element sp.clear,
            [(packets name).delivered]) := by
        rw [deliver, Symbol.pair, hfeed, Option.map_some, Option.map_some, hview]
        rfl
      refine ⟨_, hdeliver, follows_update distinct h name _ _ rfl ?_, fun _ => rfl, ?_⟩
      · intro rest hrest
        cases hrest
      · intro other hother
        cases hother
    · cases hsend
  | caption c d =>
    simp only [send] at hsend
    split at hsend
    · rename_i hcode
      cases hsend
      obtain ⟨hlow, hhigh, hd⟩ := hcode
      have h16 : (0x10 : UInt8).toNat ≤ c.toNat := UInt8.le_iff_toNat_le.mp hlow
      have h32 : c.toNat < (0x20 : UInt8).toNat := UInt8.lt_iff_toNat_lt.mp hhigh
      have hc : c < 128 := UInt8.lt_trans hhigh (by decide)
      have hfeed : feed callback xd (vbiPar8 c, vbiPar8 d) =
          some ⟨{ xd with currSp := none }, none, true⟩ := by
        change 16 ≤ c.toNat at h16
        change c.toNat < 32 at h32
        rw [feed_par8 callback xd hc hd, dispatch, if_neg (by omega), if_neg (by omega),
          if_neg (by omega), if_pos (by omega)]
      refine ⟨{ xd with currSp := none }, by rw [deliver, Symbol.pair, hfeed]; rfl, ?_⟩
      refine ⟨h.elements, fun _ => rfl, fun other hother => ?_⟩
      cases hother
    · cases hsend
  | stuffing d =>
    simp only [send] at hsend
    split at hsend
    · rename_i hd
      cases hsend
      have hfeed : feed callback xd (vbiPar8 0, vbiPar8 d) = some ⟨xd, none, true⟩ := by
        rw [feed_par8 callback xd (by decide) hd, dispatch]
        exact if_pos rfl
      exact ⟨xd, by rw [deliver, Symbol.pair, hfeed]; rfl, h⟩
    · cases hsend

omit [DecidableEq Name] in
theorem ended_cons (symbol : Symbol Name) (symbols : List (Symbol Name)) :
    ended (symbol :: symbols) = ended [symbol] ++ ended symbols := by
  cases symbol <;> rfl

/-- The output is what the sender has finished. -/
theorem run_follows (callback : XdsPacket → Bool)
    (distinct : Function.Injective fun name => (packets name).element)
    {symbols : List (Symbol Name)} {last : Line Name}
    (hrun : GuardedRuns.run (send packets) line symbols = some last) (h : Follows packets line xd) :
    ∃ t, StreamMachine.run (deliver callback) xd (symbols.map (Symbol.pair packets)) =
      some (t, (ended symbols).map fun name => (packets name).delivered) := by
  induction symbols generalizing line xd with
  | nil => exact ⟨xd, rfl⟩
  | cons symbol symbols ih =>
    rw [GuardedRuns.run_cons] at hrun
    obtain ⟨next, hsend, hrest⟩ := Option.bind_eq_some_iff.mp hrun
    obtain ⟨t, hstep, hnext⟩ := send_follows callback distinct hsend h
    obtain ⟨u, hu⟩ := ih hrest hnext
    refine ⟨u, ?_⟩
    rw [ended_cons, List.map_append, List.map_cons]
    exact StreamMachine.run_cons hstep hu

def sentCount (line : Line Name) (name : Name) : Nat := if line.phase name = .sent then 1 else 0

theorem sentCount_update {name : Name} {phase : Phase} (current : Option Name)
    (hold : line.phase name ≠ .sent) (hnew : phase ≠ .sent) (other : Name) :
    sentCount ⟨Function.update line.phase name phase, current⟩ other = sentCount line other := by
  by_cases hne : other = name
  · subst hne
    simp only [sentCount, Function.update_self, if_neg hold, if_neg hnew]
  · simp only [sentCount, Function.update_of_ne hne]

theorem count_send {symbol : Symbol Name} {next : Line Name}
    (hsend : send packets line symbol = some next) (name : Name) :
    (ended [symbol]).count name + sentCount line name = sentCount next name := by
  cases symbol with
  | start other =>
    simp only [send] at hsend
    split at hsend
    · rename_i hphase
      cases hsend
      have hold : line.phase other ≠ .sent := by
        rw [hphase]
        exact fun h => Phase.noConfusion h
      rw [sentCount_update _ hold (fun h => Phase.noConfusion h)]
      exact Nat.zero_add _
    · cases hsend
  | resume other =>
    simp only [send] at hsend
    split at hsend
    · cases hsend
      exact Nat.zero_add _
    · cases hsend
  | content c d =>
    simp only [send] at hsend
    split at hsend
    · cases hsend
    split at hsend
    · rename_i hphase
      split at hsend
      · cases hsend
        rw [sentCount_update _ (by rw [hphase]; exact fun h => Phase.noConfusion h)
          (fun h => Phase.noConfusion h)]
        exact Nat.zero_add _
      · cases hsend
    · cases hsend
  | finish other =>
    simp only [send] at hsend
    split at hsend
    · rename_i hend
      cases hsend
      by_cases hne : name = other
      · subst hne
        have hold : ¬ line.phase name = .sent := by
          rw [hend.2]
          exact fun h => Phase.noConfusion h
        simp only [sentCount, Function.update_self, if_neg hold, if_true, ended,
          List.count_singleton_self]
      · have hcount : (ended [Symbol.finish other]).count name = 0 := by
          rw [List.count_eq_zero]
          simpa only [ended, List.mem_singleton] using hne
        rw [hcount, Nat.zero_add]
        simp only [sentCount, Function.update_of_ne hne]
    · cases hsend
  | caption c d =>
    simp only [send] at hsend
    split at hsend
    · cases hsend
      exact Nat.zero_add _
    · cases hsend
  | stuffing d =>
    simp only [send] at hsend
    split at hsend
    · cases hsend
      exact Nat.zero_add _
    · cases hsend

/-- A packet ends once, and not again after it was sent. -/
theorem count_ended {symbols : List (Symbol Name)} {last : Line Name}
    (hrun : GuardedRuns.run (send packets) line symbols = some last) (name : Name) :
    (ended symbols).count name + sentCount line name = sentCount last name := by
  induction symbols generalizing line with
  | nil =>
    cases hrun
    exact Nat.zero_add _
  | cons symbol symbols ih =>
    rw [GuardedRuns.run_cons] at hrun
    obtain ⟨next, hsend, hrest⟩ := Option.bind_eq_some_iff.mp hrun
    have hfirst := count_send hsend name
    have htail := ih hrest
    rw [ended_cons, List.count_append]
    omega

theorem run_content (packets : Name → Source) (name : Name) (pairs : List (UInt8 × UInt8))
    (hcurrent : line.current = some name) (hphase : line.phase name = .sending pairs) :
    ∃ last, GuardedRuns.run (send packets) line (pairs.map fun p => .content p.1 p.2) =
      some last ∧ last.current = some name ∧ last.phase name = .sending [] := by
  induction pairs generalizing line with
  | nil => exact ⟨line, rfl, hcurrent, hphase⟩
  | cons pair pairs ih =>
    have hsend : send packets line (.content pair.1 pair.2) =
        some ⟨Function.update line.phase name (.sending pairs), some name⟩ := by
      simp only [send, hcurrent, hphase, if_true]
    have hnext : (⟨Function.update line.phase name (.sending pairs), some name⟩ :
        Line Name).phase name = .sending pairs := Function.update_self ..
    obtain ⟨last, hlast, hend⟩ := ih rfl hnext
    refine ⟨last, ?_, hend⟩
    rw [List.map_cons, GuardedRuns.run_cons, hsend, Option.bind_some, hlast]

omit [DecidableEq Name] in
theorem ended_content (pairs : List (UInt8 × UInt8)) (rest : List (Symbol Name)) :
    ended (pairs.map (fun p => .content p.1 p.2) ++ rest) = ended rest := by
  induction pairs with
  | nil => rfl
  | cons pair pairs ih => exact ih

/-- A sender may send each packet alone. -/
theorem run_alone (packets : Name → Source) (name : Name) :
    ∃ last, GuardedRuns.run (send packets) idle (alone packets name) = some last := by
  have hstart : (⟨Function.update idle.phase name
      (.sending (charPairs (packets name).characters)), some name⟩ : Line Name).phase name =
        .sending (charPairs (packets name).characters) := Function.update_self ..
  obtain ⟨last, hlast, hcurrent, hphase⟩ := run_content packets name _ rfl hstart
  refine ⟨⟨Function.update last.phase name .sent, none⟩, ?_⟩
  rw [alone, List.cons_append, GuardedRuns.run_cons]
  change (GuardedRuns.run (send packets) _ _) = _
  rw [GuardedRuns.run_append, hlast, Option.bind_some, GuardedRuns.run_cons]
  simp only [send, hcurrent, hphase, and_self, if_true, Option.bind_some, GuardedRuns.run_nil]

theorem printable_of_all {characters : List UInt8}
    (h : (characters.all fun c => Nat.ble 0x20 c.toNat && Nat.blt c.toNat 0x80) = true) :
    ∀ c ∈ characters, 0x20 ≤ c ∧ c < 0x80 := by
  intro c hc
  have hboth := List.all_eq_true.mp h c hc
  rw [Bool.and_eq_true] at hboth
  exact ⟨UInt8.le_iff_toNat_le.mpr (Nat.le_of_ble_eq_true hboth.1),
    UInt8.lt_iff_toNat_lt.mpr (Nat.le_of_ble_eq_true hboth.2)⟩

/-- The name of a television channel and the title of its current program. -/
def channelAndTitle : Bool → Source
  | true => ⟨2, 1, [0x5A, 0x56, 0x42], by decide, by decide, by decide, printable_of_all rfl⟩
  | false => ⟨0, 3, [0x42, 0x49], by decide, by decide, by decide, printable_of_all rfl⟩

def titleInName : List (Symbol Bool) :=
  [.start true, .content 0x5A 0x56, .start false, .content 0x42 0x49, .finish false,
    .resume true, .content 0x42 0, .finish true]

/-- Two packets of the same class, with types 0x10 and 0x40. -/
def descriptions : Bool → Source
  | true => ⟨0, 0x10, [0x41, 0x42], by decide, by decide, by decide, printable_of_all rfl⟩
  | false => ⟨0, 0x40, [0x43, 0x44], by decide, by decide, by decide, printable_of_all rfl⟩

/-- The second packet interrupts the first one. -/
def descriptionsMixed : List (Symbol Bool) :=
  [.start true, .content 0x41 0x42, .start false, .content 0x43 0x44, .finish false,
    .resume true, .finish true]

end XdsTransmission

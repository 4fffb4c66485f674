import Zvbi.TriggerStrings

/-!
# Parsing triggers

The URL and the groups of a trigger are parsed one after another. After an attribute without a
value, which names a type, one character is skipped.
-/

namespace TriggerStrings

open TriggerDates (CString isdigit)

/-- What is done with an attribute without a value: a checksum ends the trigger, a type is
followed by `continue`. -/
inductive Bare (σ : Type) where
  | rejected
  | last (st : σ)
  | skip (st : σ)

structure Dialect (σ : Type) where
  /-- `dx - d` for the URL. -/
  urlRoom : Nat
  opens : UInt8 → Bool
  setUrl : σ → List UInt8 → σ
  bare : σ → List UInt8 → List UInt8 → Bare σ
  /-- The `switch` over the attributes. -/
  receive : σ → List UInt8 → List UInt8 → Option σ
  /-- What follows the loop. -/
  link : σ → Option σ
  urlRoom_le : urlRoom ≤ 255
  opens_delim : ∀ c, opens c = true → c = 0x5B ∨ c = 0x28

/-- `delim`. -/
def closing (c : UInt8) : UInt8 := if c = 0x5B then 0x5D else 0x29

/-- An attribute with the text received as its value, and what is parsed next. -/
structure Received where
  name : List UInt8
  text : List UInt8
  rest : List UInt8
deriving DecidableEq, Repr

inductive Turn (σ : Type) where
  | stop (received : List Received) (e : Stop)
  | finish (st : σ) (s : List UInt8)
  | proceed (received : List Received) (st : σ) (s : List UInt8)

structure Outcome (σ : Type) where
  received : List Received
  result : Except Stop (σ × List UInt8)

namespace Dialect
variable {σ : Type} (p : Dialect σ)

/-- An attribute without a value, in the group which starts at `s`. -/
def bareTurn (s1 : List UInt8) (st : σ) (s attr rest : List UInt8) : Turn σ :=
  match p.bare st (s1.take (s1.length - s.length)) attr with
  | .rejected => .stop [] .rejected
  | .last st => .finish st rest
  | .skip st => .proceed [] st rest.tail

def valueTurn (st : σ) (delim : UInt8) (attr s : List UInt8) : Turn σ :=
  match scanText delim s (attr.length + 1) false with
  | .error e => .stop [] e
  | .ok (text, rest) =>
    match p.receive st attr text with
    | none => .stop [⟨attr, text, rest⟩] .rejected
    | some st => .proceed [⟨attr, text, rest⟩] st rest

def turn (s1 : List UInt8) (st : σ) : List UInt8 → Turn σ
  | [] => .stop [] .overread
  | c :: s =>
    if c = 0x3C then
      if (c :: s).length ≠ s1.length then
        .stop [] .rejected
      else
        match scanUrl p.urlRoom s 0 with
        | .error e => .stop [] e
        | .ok (url, s) => .proceed [] (p.setUrl st url) s
    else if p.opens c then
      match scanName (closing c) s 0 with
      | .error e => .stop [] e
      | .ok (attr, sep, rest) =>
        if attr = [] then
          .stop [] .rejected
        else if sep ≠ 0x3A then
          p.bareTurn s1 st (c :: s) attr rest
        else
          p.valueTurn st (closing c) attr rest
    else if c = 0 then
      .finish st (c :: s)
    else
      .stop [] .rejected

end Dialect

variable {c : UInt8}

theorem closing_ne (c : UInt8) {d : UInt8} (h : d ≠ 0x5D ∧ d ≠ 0x29) : d ≠ closing c := by
  simp only [closing]
  split
  · exact h.1
  · exact h.2

namespace Dialect
variable {σ : Type} {p : Dialect σ} {s1 : List UInt8} {st : σ}

theorem opens_ne (h : p.opens c = true) : c ≠ 0x3C ∧ c ≠ 0 := by
  rcases p.opens_delim c h with rfl | rfl <;> simp

theorem turn_url {url : List UInt8} (h : ∀ c ∈ url, c ≠ 0 ∧ c ≠ 0x3E)
    (hroom : url.length ≤ p.urlRoom) (rest : List UInt8) :
    p.turn (0x3C :: (url ++ 0x3E :: rest)) st (0x3C :: (url ++ 0x3E :: rest)) =
      .proceed [] (p.setUrl st url) rest := by
  have hscan : scanUrl p.urlRoom (url ++ 0x3E :: rest) 0 = .ok (url, rest) :=
    (scanUrl_eq_ok p.urlRoom_le).2 ⟨rfl, h, Or.inr (by omega), by simp⟩
  simp [turn, hscan]

/-- A group with an attribute, after which comes its value. -/
theorem turn_named (h : p.opens c = true) {code name : List UInt8} (hn : Name (closing c) code name)
    (hne : name ≠ []) (hroom : name.length ≤ 254) (rest : List UInt8) :
    p.turn s1 st (c :: (code ++ 0x3A :: rest)) = p.valueTurn st (closing c) name rest := by
  have hscan := scanName_complete hn (Or.inl rfl) (closing_ne c (by simp)) rest (d := 0) (by omega)
  simp [turn, (opens_ne h).1, h, hscan, hne]

theorem turn_bare (h : p.opens c = true) {code name : List UInt8} (hn : Name (closing c) code name)
    (hne : name ≠ []) (hroom : name.length ≤ 254) (rest : List UInt8) :
    p.turn s1 st (c :: (code ++ closing c :: rest)) =
      p.bareTurn s1 st (c :: (code ++ closing c :: rest)) name rest := by
  have hscan := scanName_complete hn (Or.inr rfl) (closing_ne c (by simp)) rest (d := 0) (by omega)
  have hcolon : closing c ≠ 0x3A := (closing_ne c (by simp)).symm
  simp [turn, (opens_ne h).1, h, hscan, hne, hcolon]

inductive Part (p : Dialect σ) (s1 : List UInt8) (st : σ) : List UInt8 → Turn σ → Prop where
  | stop {s : List UInt8} {e : Stop} : (Terminated s → e = .rejected) →
      Part p s1 st s (.stop [] e)
  | finish {s : List UInt8} : Part p s1 st (0 :: s) (.finish st (0 :: s))
  | url {url rest : List UInt8} :
      Part p s1 st (0x3C :: (url ++ 0x3E :: rest)) (.proceed [] (p.setUrl st url) rest)
  | bare {c : UInt8} {code name rest : List UInt8} : p.opens c = true →
      Name (closing c) code name → name ≠ [] → name.length ≤ 254 →
      Part p s1 st (c :: (code ++ closing c :: rest))
        (p.bareTurn s1 st (c :: (code ++ closing c :: rest)) name rest)
  | value {c : UInt8} {code name rest : List UInt8} : p.opens c = true →
      Name (closing c) code name → name ≠ [] → name.length ≤ 254 →
      Part p s1 st (c :: (code ++ 0x3A :: rest)) (p.valueTurn st (closing c) name rest)

theorem turn_part (s : List UInt8) : Part p s1 st s (p.turn s1 st s) := by
  cases s with
  | nil => exact .stop False.elim
  | cons c s =>
    simp only [turn]
    split
    · rename_i hc
      subst hc
      split
      · exact .stop fun _ => rfl
      · cases hu : scanUrl p.urlRoom s 0 with
        | error e =>
          refine .stop fun ht => ?_
          by_contra he
          exact scanUrl_inside ((terminated_cons (by simp)).1 ht) p.urlRoom_le (by simp) he hu
        | ok r =>
          obtain ⟨rfl, -⟩ := (scanUrl_eq_ok p.urlRoom_le).1 hu
          exact .url
    · split
      · rename_i _ ho
        cases hn : scanName (closing c) s 0 with
        | error e =>
          refine .stop fun ht => ?_
          by_contra he
          exact scanName_inside ((terminated_cons (opens_ne ho).2).1 ht) (by simp) he hn
        | ok r =>
          obtain ⟨name, sep, rest⟩ := r
          obtain ⟨code, rfl, hsep, hname, hroom⟩ := scanName_sound hn
          simp only
          split
          · exact .stop fun _ => rfl
          · rename_i hne
            have hroom : name.length ≤ 254 := by simpa using hroom.resolve_left hne
            split
            · rename_i hcolon
              obtain rfl : sep = closing c := hsep.resolve_left hcolon
              exact .bare ho hname hne hroom
            · rename_i hcolon
              obtain rfl : sep = 0x3A := not_not.1 hcolon
              exact .value ho hname hne hroom
      · split
        · rename_i h0
          subst h0
          exact .finish
        · exact .stop fun _ => rfl

theorem bareTurn_proceed {s name rest s' : List UInt8} {received : List Received} {st' : σ} :
    p.bareTurn s1 st s name rest = .proceed received st' s' ↔
      p.bare st (s1.take (s1.length - s.length)) name = .skip st' ∧ received = [] ∧
        s' = rest.tail := by
  simp only [bareTurn]
  cases p.bare st (s1.take (s1.length - s.length)) name with
  | rejected | last => simp
  | skip st =>
    simp only [Turn.proceed.injEq, Bare.skip.injEq]
    grind

theorem valueTurn_proceed {delim : UInt8} {name s s' : List UInt8} {received : List Received}
    {st' : σ} : p.valueTurn st delim name s = .proceed received st' s' ↔
      ∃ text, scanText delim s (name.length + 1) false = .ok (text, s') ∧
        p.receive st name text = some st' ∧ received = [⟨name, text, s'⟩] := by
  simp only [valueTurn]
  rcases scanText delim s (name.length + 1) false with e | ⟨text, rest⟩
  · simp
  · cases hr : p.receive st name text with
    | none => simp [hr]
    | some st => simp [hr]; grind

theorem turn_shorter {s s' : List UInt8} {received : List Received} {st' : σ}
    (h : p.turn s1 st s = .proceed received st' s') : s'.length < s.length := by
  have hpart : Part p s1 st s (p.turn s1 st s) := p.turn_part s
  rw [h] at hpart
  generalize ht : Turn.proceed received st' s' = t at hpart
  cases hpart with
  | stop | finish => cases ht
  | url =>
    cases ht
    simp
    omega
  | bare =>
    obtain ⟨-, -, rfl⟩ := bareTurn_proceed.1 ht.symm
    simp
    omega
  | value =>
    obtain ⟨text, hs, -⟩ := valueTurn_proceed.1 ht.symm
    obtain ⟨code, rfl, -⟩ := scanText_sound hs
    simp
    omega

variable (p)

/-- The main loop, from `s` on, and what follows it. -/
def loop (s1 : List UInt8) (st : σ) (s : List UInt8) : Outcome σ :=
  match h : p.turn s1 st s with
  | .stop received e => ⟨received, .error e⟩
  | .finish st s =>
    match p.link st with
    | none => ⟨[], .error .rejected⟩
    | some st => ⟨[], .ok (st, s)⟩
  | .proceed received st s =>
    have := turn_shorter h
    let o := loop s1 st s
    ⟨received ++ o.received, o.result⟩
termination_by s.length

/-- The parser is given the string `s`. -/
def parse (st : σ) (s : CString) : Outcome σ :=
  p.loop (s.bytes ++ [0]) st (s.bytes ++ [0])

variable {p}

theorem loop_stop {s : List UInt8} {received : List Received} {e : Stop}
    (h : p.turn s1 st s = .stop received e) : p.loop s1 st s = ⟨received, .error e⟩ := by
  rw [loop]
  split <;> simp_all

theorem loop_finish {s s' : List UInt8} {st' : σ} (h : p.turn s1 st s = .finish st' s') :
    p.loop s1 st s = match p.link st' with
      | none => ⟨[], .error .rejected⟩
      | some st => ⟨[], .ok (st, s')⟩ := by
  rw [loop]
  split <;> simp_all

theorem loop_proceed {s s' : List UInt8} {received : List Received} {st' : σ}
    (h : p.turn s1 st s = .proceed received st' s') :
    p.loop s1 st s =
      ⟨received ++ (p.loop s1 st' s').received, (p.loop s1 st' s').result⟩ := by
  rw [loop]
  split <;> simp_all

/-- The main loop comes from one position to another. -/
inductive Reaches (p : Dialect σ) (s1 : List UInt8) : σ → List UInt8 → σ → List UInt8 → Prop where
  | refl (st : σ) (s : List UInt8) : Reaches p s1 st s st s
  | head {st st' st'' : σ} {s s' s'' : List UInt8} {received : List Received} :
      p.turn s1 st s = .proceed received st' s' → Reaches p s1 st' s' st'' s'' →
      Reaches p s1 st s st'' s''

/-- The value of this group ends with an opening quote and the string, and there is room for two
more characters. -/
def Unclosed (p : Dialect σ) (s : List UInt8) : Prop :=
  ∃ c code name value text, p.opens c = true ∧
    s = c :: (code ++ 0x3A :: (value ++ [0x22, 0])) ∧ Name (closing c) code name ∧ name ≠ [] ∧
    Spans (closing c) value text ∧ name.length + text.length + 3 ≤ 254

def SkipsNul (p : Dialect σ) (s1 : List UInt8) (st : σ) (s : List UInt8) : Prop :=
  ∃ c code name st', p.opens c = true ∧ s = c :: (code ++ [closing c, 0]) ∧
    Name (closing c) code name ∧ name ≠ [] ∧ name.length ≤ 254 ∧
    p.bare st (s1.take (s1.length - s.length)) name = .skip st'

theorem turn_unclosed {s : List UInt8} (h : p.Unclosed s) :
    p.turn s1 st s = .stop [] .overread := by
  obtain ⟨c, code, name, value, text, ho, rfl, hn, hne, hs, hroom⟩ := h
  have hscan := scanText_unclosed hs (closing_ne c (by simp)) (closing_ne c (by simp))
    (d := name.length + 1) (by omega)
  simp [turn_named ho hn hne (by omega), valueTurn, hscan]

theorem turn_skipsNul {s : List UInt8} (h : p.SkipsNul s1 st s) :
    ∃ st', p.turn s1 st s = .proceed [] st' [] := by
  obtain ⟨c, code, name, st', ho, rfl, hn, hne, hroom, hb⟩ := h
  refine ⟨st', ?_⟩
  rw [turn_bare ho hn hne hroom]
  exact bareTurn_proceed.2 ⟨hb, rfl, rfl⟩

theorem turn_stop {s : List UInt8} {received : List Received} {e : Stop} (ht : Terminated s)
    (h : p.turn s1 st s = .stop received e) : e = .rejected ∨ e = .overread ∧ p.Unclosed s := by
  have hpart : Part p s1 st s (p.turn s1 st s) := p.turn_part s
  rw [h] at hpart
  generalize hturn : Turn.stop received e = t at hpart
  cases hpart with
  | stop he =>
    cases hturn
    exact Or.inl (he ht)
  | finish | url => cases hturn
  | bare ho hn hne hroom =>
    simp only [bareTurn] at hturn
    split at hturn <;> cases hturn
    exact Or.inl rfl
  | @value c code name rest ho hn hne hroom =>
    have hrest : Terminated rest := Terminated.after (a := c :: code) ht (by simp)
    simp only [valueTurn] at hturn
    split at hturn
    · rename_i e' hscan
      cases hturn
      cases e with
      | rejected => exact Or.inl rfl
      | overwrite => exact absurd hscan (scanText_overwrite (by omega))
      | overread =>
        obtain ⟨value, text, hs, hspans, hle⟩ := scanText_overread hrest hscan
        obtain rfl : rest = value ++ [0x22, 0] := by simpa [opened] using hs
        simp only [Bool.toNat_false] at hle
        exact Or.inr ⟨rfl, c, code, name, value, text, ho, rfl, hn, hne, hspans, by omega⟩
    · split at hturn <;> cases hturn
      exact Or.inl rfl

theorem turn_terminated {s s' : List UInt8} {received : List Received} {st' : σ}
    (ht : Terminated s) (h : p.turn s1 st s = .proceed received st' s') :
    s' = [] ∧ p.SkipsNul s1 st s ∨ Terminated s' := by
  have hpart : Part p s1 st s (p.turn s1 st s) := p.turn_part s
  rw [h] at hpart
  generalize hturn : Turn.proceed received st' s' = t at hpart
  cases hpart with
  | stop | finish => cases hturn
  | @url url rest =>
    cases hturn
    exact Or.inr (Terminated.after (a := 0x3C :: url) ht (by simp))
  | @bare c code name rest ho hn hne hroom =>
    obtain ⟨hb, -, rfl⟩ := bareTurn_proceed.1 hturn.symm
    have hrest : Terminated rest :=
      Terminated.after (a := c :: code) ht (closing_ne c (by simp)).symm
    cases rest with
    | nil => exact hrest.elim
    | cons c' rest =>
      by_cases h0 : c' = 0
      · obtain rfl : rest = [] := by simpa [Terminated, h0] using hrest
        subst h0
        exact Or.inl ⟨rfl, c, code, name, st', ho, rfl, hn, hne, hroom, hb⟩
      · exact Or.inr ((terminated_cons h0).1 hrest)
  | @value c code name rest ho hn hne hroom =>
    have hrest : Terminated rest := Terminated.after (a := c :: code) ht (by simp)
    obtain ⟨text, hscan, -⟩ := valueTurn_proceed.1 hturn.symm
    obtain ⟨value, rfl, -⟩ := scanText_sound hscan
    exact Or.inr (hrest.after (closing_ne c (by simp)).symm)

def ReadsOn (p : Dialect σ) (s1 : List UInt8) (st : σ) (s : List UInt8) : Prop :=
  p.Unclosed s ∨ p.SkipsNul s1 st s

theorem turn_readsOn {s : List UInt8} (h : p.ReadsOn s1 st s) :
    p.turn s1 st s = .stop [] .overread ∨ ∃ st', p.turn s1 st s = .proceed [] st' [] := by
  rcases h with h | h
  · exact Or.inl (turn_unclosed h)
  · exact Or.inr (turn_skipsNul h)

theorem loop_end : (p.loop s1 st []).result = .error .overread := by
  rw [loop_stop (by rfl)]

/-- The NUL is passed just where the main loop comes to such a group. -/
theorem loop_overread_iff {s : List UInt8} (ht : Terminated s) :
    (p.loop s1 st s).result = .error .overread ↔
      ∃ st' s', p.Reaches s1 st s st' s' ∧ p.ReadsOn s1 st' s' := by
  induction hlen : s.length using Nat.strong_induction_on generalizing s st with
  | _ n ih =>
  cases hturn : p.turn s1 st s with
  | stop received e =>
    rw [loop_stop hturn]
    constructor
    · rintro ⟨⟩
      exact ⟨st, s, .refl st s, Or.inl ((turn_stop ht hturn).resolve_left (by simp)).2⟩
    · rintro ⟨st', s', hr, h⟩
      cases hr with
      | head h' => simp [hturn] at h'
      | refl =>
        rcases turn_readsOn h with h | ⟨_, h⟩ <;> rw [hturn] at h <;> cases h
        rfl
  | finish st' s' =>
    rw [loop_finish hturn]
    constructor
    · intro h
      split at h <;> cases h
    · rintro ⟨st', s', hr, h⟩
      cases hr with
      | head h' => simp [hturn] at h'
      | refl => rcases turn_readsOn h with h | ⟨_, h⟩ <;> simp [hturn] at h
  | proceed received st' s' =>
    rw [loop_proceed hturn]
    rcases turn_terminated ht hturn with ⟨rfl, hskips⟩ | hs'
    · exact iff_of_true loop_end ⟨st, s, .refl st s, Or.inr hskips⟩
    · rw [ih _ (hlen ▸ turn_shorter hturn) hs' rfl]
      constructor
      · rintro ⟨st'', s'', hr, h⟩
        exact ⟨st'', s'', .head hturn hr, h⟩
      · rintro ⟨st'', s'', hr, h⟩
        cases hr with
        | head h' hr =>
          rw [hturn] at h'
          cases h'
          exact ⟨st'', s'', hr, h⟩
        | refl =>
          rcases turn_readsOn h with h | ⟨_, h⟩ <;> rw [hturn] at h <;> cases h
          exact hs'.elim

theorem loop_overwrite {s : List UInt8} (ht : Terminated s) :
    (p.loop s1 st s).result ≠ .error .overwrite := by
  induction hlen : s.length using Nat.strong_induction_on generalizing s st with
  | _ n ih =>
  cases hturn : p.turn s1 st s with
  | stop received e =>
    rw [loop_stop hturn]
    rintro ⟨⟩
    have := turn_stop ht hturn
    simp at this
  | finish st' s' =>
    rw [loop_finish hturn]
    split <;> simp
  | proceed received st' s' =>
    rw [loop_proceed hturn]
    rcases turn_terminated ht hturn with ⟨rfl, -⟩ | hs'
    · simp [loop_end]
    · exact ih _ (hlen ▸ turn_shorter hturn) hs' rfl

end Dialect

structure Group {σ : Type} (p : Dialect σ) where
  opening : UInt8
  nameCode : List UInt8
  name : List UInt8
  valueCode : List UInt8
  value : List UInt8
  opens : p.opens opening = true
  named : Name (closing opening) nameCode name
  name_ne : name ≠ []
  valued : Value (closing opening) false valueCode value

structure Document {σ : Type} (p : Dialect σ) where
  url : List UInt8
  groups : List (Group p)
  url_chars : ∀ c ∈ url, c ≠ 0 ∧ c ≠ 0x3E

section
variable {σ : Type} {p : Dialect σ} {s1 : List UInt8} {st : σ}

def Group.code (g : Group p) : List UInt8 :=
  g.opening :: (g.nameCode ++ 0x3A :: (g.valueCode ++ [closing g.opening]))

def Document.code (d : Document p) : List UInt8 :=
  0x3C :: (d.url ++ 0x3E :: d.groups.flatMap Group.code)

def promised : σ → List (Group p) → List Received
  | _, [] => []
  | st, g :: gs =>
    ⟨g.name, g.value, gs.flatMap Group.code ++ [0]⟩ ::
      match p.receive st g.name g.value with
      | none => []
      | some st => promised st gs

structure Group.Readable (g : Group p) : Prop where
  paired : Paired g.valueCode
  name_le : g.name.length ≤ 254
  value_le : g.value = [] ∨ g.name.length + 1 + g.value.length ≤ 254

def AllReadable : σ → List (Group p) → Prop
  | _, [] => True
  | st, g :: gs =>
    g.Readable ∧ ∀ st', p.receive st g.name g.value = some st' → AllReadable st' gs

theorem Group.Readable.scanText {g : Group p} (h : g.Readable) (rest : List UInt8) :
    scanText (closing g.opening) (g.valueCode ++ closing g.opening :: rest)
      (g.name.length + 1) false = .ok (g.value, rest) :=
  scanText_complete (g.valued.spans_iff.2 h.paired) (closing_ne _ (by simp))
    (closing_ne _ (by simp)) rest (Nat.lt_succ_of_le (Nat.succ_le_succ h.name_le)) h.value_le

theorem Group.readable {g : Group p} (hname : g.name.length ≤ 254) {rest : List UInt8}
    (h : TriggerStrings.scanText (closing g.opening) (g.valueCode ++ closing g.opening :: rest)
      (g.name.length + 1) false = .ok (g.value, rest)) : g.Readable := by
  obtain ⟨code, hcode, hs, hroom⟩ := scanText_sound h
  obtain rfl : g.valueCode = code := List.append_cancel_right hcode
  exact ⟨g.valued.spans_iff.1 hs, hname, hroom⟩

theorem loop_value {s name s' : List UInt8} {delim : UInt8} {r : List UInt8 × List UInt8}
    (hturn : p.turn s1 st s = p.valueTurn st delim name s')
    (hscan : scanText delim s' (name.length + 1) false = .ok r) :
    ∃ tail, (p.loop s1 st s).received = ⟨name, r.1, r.2⟩ :: tail := by
  simp only [Dialect.valueTurn, hscan] at hturn
  cases hreceive : p.receive st name r.1 with
  | none =>
    simp only [hreceive] at hturn
    exact ⟨[], by rw [Dialect.loop_stop hturn]⟩
  | some st' =>
    simp only [hreceive] at hturn
    exact ⟨_, by rw [Dialect.loop_proceed hturn]; rfl⟩

/-- The attributes receive what is promised just when their groups are readable. -/
theorem loop_groups (gs : List (Group p)) :
    (p.loop s1 st (gs.flatMap Group.code ++ [0])).received = promised st gs ↔
      AllReadable st gs := by
  induction gs generalizing st with
  | nil =>
    have hturn : p.turn s1 st [0] = .finish st [0] := by
      have : ¬ p.opens 0 = true := fun h => (Dialect.opens_ne h).2 rfl
      simp [Dialect.turn, this]
    simp only [List.flatMap_nil, List.nil_append, Dialect.loop_finish hturn, promised, AllReadable,
      iff_true]
    split <;> rfl
  | cons g gs ih =>
    have hcode : (g :: gs).flatMap Group.code ++ [0] = g.opening :: (g.nameCode ++ 0x3A ::
        (g.valueCode ++ closing g.opening :: (gs.flatMap Group.code ++ [0]))) := by
      simp [Group.code]
    rw [hcode]
    generalize hrest : gs.flatMap Group.code ++ [0] = rest at ih ⊢
    by_cases hname : g.name.length ≤ 254
    · have hturn : p.turn s1 st (g.opening ::
            (g.nameCode ++ 0x3A :: (g.valueCode ++ closing g.opening :: rest))) =
          p.valueTurn st (closing g.opening) g.name (g.valueCode ++ closing g.opening :: rest) :=
        Dialect.turn_named g.opens g.named g.name_ne hname _
      by_cases hread : g.Readable
      · simp only [Dialect.valueTurn, hread.scanText] at hturn
        cases hreceive : p.receive st g.name g.value with
        | none =>
          simp only [hreceive] at hturn
          simp [Dialect.loop_stop hturn, promised, AllReadable, hreceive, hread, hrest]
        | some st' =>
          simp only [hreceive] at hturn
          simp [Dialect.loop_proceed hturn, promised, AllReadable, hreceive, hread, hrest, ih]
      · refine iff_of_false (fun h => hread ?_) fun h => hread h.1
        cases hscan : scanText (closing g.opening) (g.valueCode ++ closing g.opening :: rest)
            (g.name.length + 1) false with
        | error e =>
          simp only [Dialect.valueTurn, hscan] at hturn
          simp [Dialect.loop_stop hturn, promised] at h
        | ok r =>
          obtain ⟨text, rest'⟩ := r
          obtain ⟨tail, htail⟩ := loop_value hturn hscan
          simp only [htail, promised, hrest, List.cons.injEq, Received.mk.injEq, true_and] at h
          obtain ⟨⟨rfl, rfl⟩, -⟩ := h
          exact Group.readable hname hscan
    · have hturn : p.turn s1 st (g.opening :: (g.nameCode ++ 0x3A ::
          (g.valueCode ++ closing g.opening :: rest))) = .stop [] .rejected := by
        have hscan := scanName_full g.named (closing_ne _ (by simp))
          (0x3A :: (g.valueCode ++ closing g.opening :: rest)) (d := 0) (by simp) (by omega)
        simp [Dialect.turn, (Dialect.opens_ne g.opens).1, g.opens, hscan]
      simp only [Dialect.loop_stop hturn, promised, AllReadable]
      constructor
      · intro h
        cases h
      · intro h
        exact absurd h.1.name_le hname

variable (p st) in
/-- The string is read up to its NUL, and if it is a trigger each attribute receives its value. -/
def Meets (s : CString) (o : Outcome σ) : Prop :=
  o.result ≠ .error .overread ∧ o.result ≠ .error .overwrite ∧
    ∀ d : Document p, s.bytes = d.code → o.received = promised (p.setUrl st d.url) d.groups

variable (p st) in
structure Holds (s : CString) : Prop where
  /-- The main loop comes to no group after which it reads on. -/
  inside : ∀ st' s', p.Reaches (s.bytes ++ [0]) st (s.bytes ++ [0]) st' s' →
    ¬ p.ReadsOn (s.bytes ++ [0]) st' s'
  /-- There is room for the URL of a trigger. -/
  url_le : ∀ d : Document p, s.bytes = d.code → d.groups ≠ [] → d.url.length ≤ p.urlRoom
  /-- The groups of a trigger are readable. -/
  readable : ∀ d : Document p, s.bytes = d.code → AllReadable (p.setUrl st d.url) d.groups

theorem parse_inside_iff (s : CString) : (p.parse st s).result ≠ .error .overread ↔
    ∀ st' s', p.Reaches (s.bytes ++ [0]) st (s.bytes ++ [0]) st' s' →
      ¬ p.ReadsOn (s.bytes ++ [0]) st' s' := by
  rw [Dialect.parse, ne_eq, Dialect.loop_overread_iff (CString.terminated s)]
  simp

theorem parse_received_iff {s : CString} {d : Document p} (h : s.bytes = d.code) :
    (p.parse st s).received = promised (p.setUrl st d.url) d.groups ↔
      (d.groups ≠ [] → d.url.length ≤ p.urlRoom) ∧
        AllReadable (p.setUrl st d.url) d.groups := by
  have hcode : s.bytes ++ [0] =
      0x3C :: (d.url ++ 0x3E :: (d.groups.flatMap Group.code ++ [0])) := by
    simp [h, Document.code]
  rw [Dialect.parse, hcode]
  by_cases hle : d.url.length ≤ p.urlRoom
  · rw [Dialect.loop_proceed (Dialect.turn_url d.url_chars hle _)]
    simpa [hle] using loop_groups d.groups
  · have hscan := scanUrl_full p.urlRoom_le (fun c hc => (d.url_chars c hc).2)
      (0x3E :: (d.groups.flatMap Group.code ++ [0])) (d := 0) (by simp) (by omega)
    generalize d.groups.flatMap Group.code ++ [0] = rest at hscan ⊢
    have hturn : p.turn (0x3C :: (d.url ++ 0x3E :: rest)) st (0x3C :: (d.url ++ 0x3E :: rest)) =
        .stop [] .rejected := by simp [Dialect.turn, hscan]
    rw [Dialect.loop_stop hturn]
    cases d.groups with
    | nil => simp [promised, AllReadable]
    | cons g gs => simp [promised, hle]

/-- A string is read so under exactly these conditions. -/
theorem meets_iff (s : CString) : Meets p st s (p.parse st s) ↔ Holds p st s := by
  constructor
  · rintro ⟨hread, -, hreceived⟩
    exact {
      inside := (parse_inside_iff s).1 hread
      url_le := fun d hd => ((parse_received_iff hd).1 (hreceived d hd)).1
      readable := fun d hd => ((parse_received_iff hd).1 (hreceived d hd)).2 }
  · intro h
    exact ⟨(parse_inside_iff s).2 h.inside, Dialect.loop_overwrite (CString.terminated s),
      fun d hd => (parse_received_iff hd).2 ⟨h.url_le d hd, h.readable d hd⟩⟩

end

end TriggerStrings

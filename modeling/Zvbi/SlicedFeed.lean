import Zvbi.SlicedFilter

/-!
# The filter with a buffer of its own

`vbi_sliced_filter_feed()` filters a frame into a buffer of the filter, which grows when a
frame has more lines than any before, and passes the result to a callback function. When
there is an error in the frame the lines before it are not passed on.
-/

namespace SlicedFeed
open SlicedFilter

structure FeedFilter where
  filter : VbiSlicedFilter
  outputMaxLines : Nat

/-- The result of `vbi_sliced_filter_feed()`: the filter, the lines passed to the callback if
it was called, the number of lines read, and the return value. -/
structure FeedResult where
  filter : FeedFilter
  passed : Option (List VbiSliced)
  linesIn : Nat
  ok : Bool

/-- The size of the output buffer for a frame of `n` lines. -/
def grownLines (maxLines n : Nat) : Nat := if maxLines < n then min n 50 else maxLines

/-- `vbi_sliced_filter_feed()`. When the buffer cannot be enlarged, `memory` is false. -/
def feed (memory : Bool) (callback : Option (List VbiSliced → Bool)) (sf : FeedFilter)
    (sliced : List VbiSliced) : FeedResult :=
  if sf.outputMaxLines < sliced.length ∧ memory = false then
    ⟨sf, none, sliced.length, false⟩
  else
    let maxLines := grownLines sf.outputMaxLines sliced.length
    let r := cor sf.filter maxLines sliced
    match r.error with
    | some _ => ⟨⟨r.filter, maxLines⟩, none, r.linesIn, false⟩
    | none =>
      match callback with
      | none => ⟨⟨r.filter, maxLines⟩, none, r.linesIn, true⟩
      | some f => ⟨⟨r.filter, maxLines⟩, some r.slicedOut, r.linesIn, f r.slicedOut⟩

theorem corLoop_length_le (maxLinesOut : Nat) (lines : List VbiSliced) (sf : VbiSlicedFilter)
    (out : List VbiSliced) (n : Nat) :
    out.length ≤ (corLoop maxLinesOut sf out n lines).slicedOut.length := by
  induction lines generalizing sf out n with
  | nil => exact Nat.le_refl _
  | cons s lines ih =>
    rw [corLoop]
    split
    · exact Nat.le_refl _
    · exact ih _ out (n + 1)
    · split
      · exact Nat.le_refl _
      · refine Nat.le_trans ?_ (ih _ (out ++ [s]) (n + 1))
        rw [List.length_append]
        exact Nat.le_add_right _ _

variable {room : Nat} {sf : VbiSlicedFilter}

variable {maxLinesOut n : Nat} {out lines : List VbiSliced} {e : Error}

/-- A smaller buffer makes no difference if the output fits. -/
theorem corLoop_fits (lines : List VbiSliced) (hroom : out.length + lines.length ≤ room)
    (hfits : (corLoop room sf out n lines).slicedOut.length ≤ maxLinesOut) :
    corLoop maxLinesOut sf out n lines = corLoop room sf out n lines := by
  induction lines generalizing sf out n with
  | nil => rfl
  | cons s lines ih =>
    rw [List.length_cons] at hroom
    rw [corLoop] at hfits ⊢
    rw [corLoop]
    cases hpass : passThrough sf s with
    | error e => rfl
    | ok r =>
      obtain ⟨sf', keep⟩ := r
      rw [hpass] at hfits
      cases keep with
      | false => exact ih (by omega) hfits
      | true =>
        have hspace : ¬room ≤ out.length := by omega
        have hlength : (out ++ [s]).length = out.length + 1 := List.length_append
        dsimp only at hfits ⊢
        rw [if_neg hspace] at hfits ⊢
        have hgrown := corLoop_length_le room lines sf' (out ++ [s]) (n + 1)
        rw [if_neg (by omega)]
        exact ih (by omega) hfits

theorem cor_fits (hroom : lines.length ≤ room)
    (hfits : (cor sf room lines).slicedOut.length ≤ maxLinesOut) :
    cor sf maxLinesOut lines = cor sf room lines :=
  corLoop_fits lines (by rw [List.length_nil, Nat.zero_add]; exact hroom) hfits

theorem corLoop_slicedOut_le (maxLinesOut : Nat) (lines : List VbiSliced) (sf : VbiSlicedFilter)
    (out : List VbiSliced) (n : Nat) :
    (corLoop maxLinesOut sf out n lines).slicedOut.length ≤ out.length + lines.length := by
  induction lines generalizing sf out n with
  | nil => exact Nat.le_refl _
  | cons s lines ih =>
    rw [corLoop, List.length_cons]
    split
    · exact Nat.le_add_right _ _
    · exact Nat.le_trans (ih _ out (n + 1)) (by omega)
    · split
      · exact Nat.le_add_right _ _
      · refine Nat.le_trans (ih _ (out ++ [s]) (n + 1)) ?_
        rw [List.length_append, List.length_singleton]
        omega

theorem decodeTeletextPacket0_error {keepMagSet : BitVec 32} {buffer : Nat → UInt8}
    (h : decodeTeletextPacket0 sf keepMagSet buffer = .error e) : e ≠ .overflow := by
  rw [decodeTeletextPacket0] at h
  by_cases hpage : page buffer < 0
  · rw [if_pos hpage] at h
    cases h
    decide
  · rw [if_neg hpage] at h
    by_cases hfiller : page buffer = 0xFF
    · rw [if_pos hfiller] at h
      cases h
    · rw [if_neg hfiller] at h
      by_cases hflags : flags buffer < 0
      · rw [if_pos hflags] at h
        cases h
        decide
      · rw [if_neg hflags] at h
        split_ifs at h

theorem passThrough_error {s : VbiSliced} (h : passThrough sf s = .error e) :
    e ≠ .overflow := by
  rw [passThrough] at h
  split_ifs at h
  rw [decodeTeletext] at h
  split_ifs at h
  · cases h
    decide
  · cases hdecode : decodeTeletextPacket0 sf sf.keepMagSetNext s.data with
    | error e' =>
      rw [hdecode] at h
      cases h
      exact decodeTeletextPacket0_error hdecode
    | ok r =>
      rw [hdecode] at h
      cases h

/-- With enough room the only errors are those of Teletext packets. -/
theorem corLoop_no_overflow (lines : List VbiSliced) (hroom : out.length + lines.length ≤ room) :
    (corLoop room sf out n lines).error ≠ some .overflow := by
  induction lines generalizing sf out n with
  | nil =>
    rw [corLoop]
    exact Option.some_ne_none _ ∘ Eq.symm
  | cons s lines ih =>
    rw [List.length_cons] at hroom
    rw [corLoop]
    cases hpass : passThrough sf s with
    | error e => exact fun h => passThrough_error hpass (Option.some.inj h)
    | ok r =>
      obtain ⟨sf', keep⟩ := r
      cases keep with
      | false => exact ih (by omega)
      | true =>
        have hspace : ¬room ≤ out.length := by omega
        have hlength : (out ++ [s]).length = out.length + 1 := List.length_append
        dsimp only
        rw [if_neg hspace]
        exact ih (by omega)

theorem cor_no_overflow {room : Nat} {sf : VbiSlicedFilter} {lines : List VbiSliced}
    (hroom : lines.length ≤ room) : (cor sf room lines).error ≠ some .overflow :=
  corLoop_no_overflow lines (by rw [List.length_nil, Nat.zero_add]; exact hroom)

/-- The buffer of the filter has room for the lines which are kept, if these are 50 at most. -/
theorem kept_le_grownLines (hlines : (cor sf room lines).slicedOut.length ≤ 50) (maxLines : Nat) :
    (cor sf room lines).slicedOut.length ≤ grownLines maxLines lines.length := by
  have hall := corLoop_slicedOut_le room lines sf [] 0
  rw [List.length_nil, Nat.zero_add] at hall
  rw [grownLines]
  split
  · exact Nat.le_min.mpr ⟨hall, hlines⟩
  · exact Nat.le_trans hall (by omega)

/-- With memory for its buffer the filter does what `vbi_sliced_filter_cor()` does with enough
room, as long as no more than 50 lines are kept. -/
theorem feed_cor_result (callback : Option (List VbiSliced → Bool)) (sf : FeedFilter)
    {sliced : List VbiSliced} (hroom : sliced.length ≤ room)
    (hlines : (cor sf.filter room sliced).slicedOut.length ≤ 50) :
    feed true callback sf sliced =
      match (cor sf.filter room sliced).error with
      | some _ => ⟨⟨(cor sf.filter room sliced).filter,
          grownLines sf.outputMaxLines sliced.length⟩, none,
          (cor sf.filter room sliced).linesIn, false⟩
      | none => ⟨⟨(cor sf.filter room sliced).filter,
          grownLines sf.outputMaxLines sliced.length⟩,
          callback.map fun _ => (cor sf.filter room sliced).slicedOut,
          (cor sf.filter room sliced).linesIn,
          callback.all fun f => f (cor sf.filter room sliced).slicedOut⟩ := by
  have hmemory : ¬(sf.outputMaxLines < sliced.length ∧ true = false) :=
    fun h => Bool.noConfusion h.2
  have hcor := cor_fits hroom (kept_le_grownLines hlines sf.outputMaxLines)
  rw [feed, if_neg hmemory]
  dsimp only
  rw [hcor]
  cases (cor sf.filter room sliced).error with
  | some e => rfl
  | none =>
    cases callback with
    | none => rfl
    | some f => rfl

/-- A line of a service which is always kept, the header of page 100, and a Teletext line with
an error. -/
def brokenFrame : List VbiSliced :=
  [⟨0x400, 23, fun _ => 0⟩, teletextLine [0x02, 0x15], teletextLine [0x16]]

end SlicedFeed

/-!
# Sets of characters as code point ranges

A Unicode property is stored as the list of the closed ranges of code points that have it. A
`RangeSet` is such a list in ascending order, so that a lookup can stop at the first range that does
not end before the code point. `RangeSet.includes_eq_true_iff` says that the lookup finds exactly
the characters of the ranges.
-/

namespace SchemaCompiler.Text

/-- Whether every range is non-empty and starts after the end of the range before it. -/
def Ascending : List (Nat × Nat) → Prop
  | [] => True
  | [(first, last)] => first ≤ last
  | (first, last) :: (next, stop) :: rest =>
    first ≤ last ∧ last < next ∧ Ascending ((next, stop) :: rest)

/-- Whether a list of ranges is ascending can be computed. -/
instance decidableAscending : (ranges : List (Nat × Nat)) → Decidable (Ascending ranges)
  | [] => .isTrue trivial
  | [(first, last)] => inferInstanceAs (Decidable (first ≤ last))
  | (first, last) :: (next, stop) :: rest =>
    haveI := decidableAscending ((next, stop) :: rest)
    inferInstanceAs (Decidable (first ≤ last ∧ last < next ∧ Ascending ((next, stop) :: rest)))

/-- Closed ranges of code points in ascending order, each given by its first and its last member. -/
structure RangeSet where
  ranges : List (Nat × Nat)
  ascending : Ascending ranges

/-- Whether a code point lies in one of the ranges. The search stops at the first range that does
not end before the code point. -/
def inRanges : List (Nat × Nat) → Nat → Bool
  | [], _ => false
  | (first, last) :: rest, code =>
    if last < code then inRanges rest code else decide (first ≤ code)

/-- The tail of an ascending list of ranges is ascending. -/
theorem Ascending.tail {range : Nat × Nat} {rest : List (Nat × Nat)}
    (h : Ascending (range :: rest)) : Ascending rest := by
  cases rest with
  | nil => trivial
  | cons next rest => exact h.2.2

/-- Every range after the head of an ascending list starts after the head's last member. -/
theorem Ascending.lt_of_mem {range other : Nat × Nat} {rest : List (Nat × Nat)}
    (h : Ascending (range :: rest)) (hmem : other ∈ rest) : range.2 < other.1 := by
  induction rest generalizing range with
  | nil => cases hmem
  | cons next rest ih =>
    have hnext : next.1 ≤ next.2 := by
      cases rest with
      | nil => exact h.2.2
      | cons _ _ => exact h.2.2.1
    rcases List.mem_cons.1 hmem with rfl | hrest
    · exact h.2.1
    · have := ih h.tail hrest
      have := h.2.1
      omega

/-- A code point is found in an ascending list of ranges iff one of the ranges holds it. -/
theorem inRanges_eq_true_iff {ranges : List (Nat × Nat)} (h : Ascending ranges) (code : Nat) :
    inRanges ranges code = true ↔ ∃ range ∈ ranges, range.1 ≤ code ∧ code ≤ range.2 := by
  induction ranges with
  | nil => simp [inRanges]
  | cons range rest ih =>
    by_cases hlast : range.2 < code
    · simp only [inRanges, hlast, if_true, ih h.tail, List.mem_cons, exists_eq_or_imp]
      constructor
      · exact .inr
      · rintro (hrange | hrest)
        · omega
        · exact hrest
    · simp only [inRanges, hlast, if_false, decide_eq_true_eq, List.mem_cons, exists_eq_or_imp]
      constructor
      · intro hfirst
        exact .inl ⟨hfirst, by omega⟩
      · rintro (hrange | ⟨other, hmem, hother⟩)
        · exact hrange.1
        · have := h.lt_of_mem hmem
          omega

namespace RangeSet

/-- Whether a code point lies in one of the ranges. -/
def includesCode (set : RangeSet) (code : Nat) : Bool :=
  inRanges set.ranges code

/-- Whether a character lies in one of the ranges. -/
def includes (set : RangeSet) (c : Char) : Bool :=
  set.includesCode c.toNat

/-- A character is found in a set iff one of the ranges holds it. -/
theorem includes_eq_true_iff (set : RangeSet) (c : Char) :
    set.includes c = true ↔ ∃ range ∈ set.ranges, range.1 ≤ c.toNat ∧ c.toNat ≤ range.2 :=
  inRanges_eq_true_iff set.ascending c.toNat

end RangeSet

end SchemaCompiler.Text

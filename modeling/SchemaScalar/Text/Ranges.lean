/-!
# Sets of characters

A set of characters is given by ranges of code points in increasing order. A look-up stops at the
first range that does not end before the character: `Ranges.contains_iff` says that no later range
can hold it.
-/

namespace SchemaScalar.Text

/-- Ranges of code points, each given by its first and its last. -/
abbrev Ranges := List (Nat × Nat)

namespace Ranges

/-- None of the ranges is empty, all start at `least` or later, and there is a gap between each and
the next. -/
def isOrdered : (least : Nat) → Ranges → Bool
  | _, [] => true
  | least, (first, last) :: others => least ≤ first && first ≤ last && isOrdered (last + 2) others

def contains : Ranges → Char → Bool
  | [], _ => false
  | (first, last) :: others, c => if c.toNat ≤ last then first ≤ c.toNat else contains others c

def size : Ranges → Nat
  | [] => 0
  | (first, last) :: others => last + 1 - first + size others

theorem le_first_of_isOrdered {ranges : Ranges} {least : Nat} (ordered : ranges.isOrdered least)
    {range : Nat × Nat} (member : range ∈ ranges) : least ≤ range.1 := by
  induction ranges generalizing least with
  | nil => simp at member
  | cons head others ih =>
    simp only [isOrdered, Bool.and_eq_true, decide_eq_true_eq] at ordered
    rcases List.mem_cons.mp member with rfl | later
    · exact ordered.1.1
    · have := ih ordered.2 later
      omega

theorem contains_iff {ranges : Ranges} {least : Nat} (ordered : ranges.isOrdered least) (c : Char) :
    ranges.contains c ↔ ∃ range ∈ ranges, range.1 ≤ c.toNat ∧ c.toNat ≤ range.2 := by
  induction ranges generalizing least with
  | nil => simp [contains]
  | cons head others ih =>
    simp only [isOrdered, Bool.and_eq_true, decide_eq_true_eq] at ordered
    by_cases inside : c.toNat ≤ head.2
    · have noneLater : ¬ ∃ range ∈ others, range.1 ≤ c.toNat ∧ c.toNat ≤ range.2 := by
        rintro ⟨range, later, starts, -⟩
        have := le_first_of_isOrdered ordered.2 later
        omega
      simp [contains, inside, noneLater]
    · simp [contains, inside, ih ordered.2]

end Ranges

end SchemaScalar.Text

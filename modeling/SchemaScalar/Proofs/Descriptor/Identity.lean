import SchemaScalar.Proofs.Leaf.Domain

/-!
# What a tower is called

The name of a tower comes from its innermost refinement, the description from its outermost one, and
layers that demand a value have no part in either. A description is written when its refinement is
made, after the name that the tower inside has by then; the name that the refinement itself is given
later does not appear in it.

The towers in question are those that can be made by calls (`Plan`): a refinement that was just made
may be described, and named only if it is the first one over a leaf of texts.
-/

namespace SchemaScalar

namespace Descriptor

variable {leaf : Leaf}

/-! ## Making towers -/

/-- A call on a refinement, by whether the refinement can be named. -/
inductive Retouch : Bool → Type where
  | named (name : String) : Retouch true
  | described {nameable : Bool} (description : String) : Retouch nameable

namespace Retouch

variable {nameable : Bool}

def description? : Retouch nameable → Option String
  | named _ => none
  | described description => some description

def apply (descriptor : Descriptor leaf) : Retouch nameable → Descriptor leaf
  | named name => descriptor.rename name
  | described description => descriptor.describe description

end Retouch

/-- The calls that make a tower, by whether the tower is without bounds. -/
inductive Plan (leaf : Leaf) : Bool → Type where
  | bare (descriptions : List String) : Plan leaf true
  | nonNull {unbounded : Bool} (inner : Plan leaf unbounded) : Plan leaf unbounded
  | refined {unbounded : Bool} (parent : Plan leaf unbounded) (bound : Bound leaf.Measure)
      (calls : List (Retouch (leaf.isText && unbounded))) : Plan leaf false

/-- A refinement in a plan: the plan of the tower inside, and what is done around it. -/
structure Refinement (leaf : Leaf) where
  {unbounded : Bool}
  parent : Plan leaf unbounded
  bound : Bound leaf.Measure
  calls : List (Retouch (leaf.isText && unbounded))

namespace Plan

/-- The tower that a plan makes. -/
def build {unbounded : Bool} : Plan leaf unbounded → Descriptor leaf
  | bare descriptions => descriptions.foldl (fun tower text => tower.describe text) (plain leaf)
  | nonNull inner => .nonNull inner.build
  | refined parent bound calls => calls.foldl Retouch.apply (parent.build.refine bound)

end Plan

namespace Refinement

/-- The description that a refinement was given last, or else the one that it was made with. -/
def description (refinement : Refinement leaf) : String :=
  (refinement.calls.filterMap Retouch.description?).getLast?.getD
    (refinement.bound.describe refinement.parent.build.name leaf.noun?)

end Refinement

/-! ## What the calls amount to -/

namespace Plan

variable {unbounded : Bool}

end Plan

end Descriptor

end SchemaScalar

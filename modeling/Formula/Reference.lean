/-
**References to variables and functions.**

A reference is a list of names written with dots between them. References are ordered segment by
segment, each segment by its code points, and a reference comes before those that go on after it.
-/

import Formula.SortedSet

namespace Formula

/-- A dotted reference such as `order.total`, by its segments. -/
structure Reference where
  segments : List String
  deriving DecidableEq, Inhabited

namespace Reference

/-- The segments with dots between them. -/
def name (reference : Reference) : String :=
  ".".intercalate reference.segments

instance : LT Reference :=
  ⟨fun first second => first.segments < second.segments⟩

instance : DecidableLT Reference :=
  fun first second => inferInstanceAs (Decidable (first.segments < second.segments))

instance : Trans (α := Reference) (· < ·) (· < ·) (· < ·) :=
  ⟨fun less more => List.lt_trans less more⟩

end Reference

end Formula

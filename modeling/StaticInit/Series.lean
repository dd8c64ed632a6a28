/-!
# The series behind the derived sum

The derived sum starts at a counter value and adds the terms 0, 1, 2, 3, 4 to
it, one after another, in signed 32-bit arithmetic (`Series.sumFrom`). Since
that arithmetic wraps, the order of the additions does not matter and the sum
is always ten above its start (`Series.sumFrom_eq_add`).
-/

namespace StaticInit

/-- The value the counter is initialized to unless a configuration says otherwise. -/
def standardSeed : Int32 := 100

namespace Series

/-- The number of terms. -/
def length : Nat := 5

/-- The start and the terms below `length`, added from left to right. -/
def sumFrom (start : Int32) : Int32 :=
  (List.range length).foldl (fun sum i => sum + Int32.ofNat i) start

/-- The sum of the terms alone. -/
def sum : Int32 := sumFrom 0

theorem sumFrom_eq_add (start : Int32) : sumFrom start = start + 10 := by
  simp only [sumFrom, length, List.range, List.range.loop, List.foldl, Int32.add_assoc]
  rfl

theorem sum_eq : sum = 10 := by
  rw [sum, sumFrom_eq_add, Int32.zero_add]

end Series

/-- What the reporting operation returns: the input and the derived sum, added. -/
def say (input sum : Int32) : Int32 := input + sum

end StaticInit

import BenchStats.Binary64.Arithmetic

/-!
# Relative change

Two ways to compare two measurements in percent. A zero base gives an infinity or not-a-number, as
the arithmetic of floating-point numbers has it.
-/

namespace BenchStats.Series

/-- The change from one value to another, in percent of the first. -/
def percentChange (before after : Binary64) : Binary64 :=
  ((after.sub before).div before).mul (.ofNat 100)

/-- The distance of two values in percent of their mean; it is the same in both directions. -/
def percentDifference (a b : Binary64) : Binary64 :=
  ((a.sub b).abs.div ((a.add b).div (.ofNat 2))).mul (.ofNat 100)

end BenchStats.Series

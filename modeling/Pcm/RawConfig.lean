import Mathlib.Algebra.Ring.Nat
import Mathlib.Data.List.Sort

/-!
# Raw event configurations

The types of raw event groups (`cpucounters.h:1545-1566`): an event is six words and a name, a
PMU has programmable and fixed events, and a configuration maps the names of PMU types to
them. `std::map` keeps its keys in order, and each key once.
-/

namespace Pcm

abbrev RawEventEncoding := Vector (BitVec 64) 6

/-- For the numerals of the words. -/
@[instance] theorem neZeroSix : NeZero 6 := ⟨by decide⟩

/-- `RawEventConfig`, an encoding and the name the user gave it. -/
structure RawEventConfig where
  encoding : RawEventEncoding
  name : String := ""
  deriving DecidableEq

structure RawPMUConfig where
  programmable : List RawEventConfig := []
  fixed : List RawEventConfig := []
  deriving DecidableEq

/-- `RawPMUConfigs`, the entries of a `std::map` in the order of iteration. -/
structure RawPMUConfigs where
  entries : List (String × RawPMUConfig)
  sorted : (entries.map Prod.fst).Pairwise (· < ·)

/-- The events of a configuration that `readMSRs` and its siblings walk through, in their order. -/
def RawPMUConfig.events (c : RawPMUConfig) : List RawEventConfig := c.programmable ++ c.fixed

end Pcm

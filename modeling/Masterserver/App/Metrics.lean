import Masterserver.Lib.Rounding
import Masterserver.Lib.Dict
import Masterserver.Lib.Sorting
import Masterserver.Lib.Window
import Mathlib.Algebra.Order.Ring.Rat
import Mathlib.Data.List.Infix
import Mathlib.Data.Rat.Floor
import Mathlib.Data.String.Basic
import Mathlib.Order.WithBot

/-!
# The metrics registry

Counters, gauges and the last samples of each histogram, and what is exported
of them. Values are exact: a number is the rational it denotes, also where the
source holds a float. A rendering is the list of the exported values, each
under the series it belongs to; how a name and a value are spelt in the text
is left out.
-/

namespace Masterserver

open Lib

structure Metrics where
  counters : Dict String ℚ
  gauges : Dict String ℚ
  samples : Dict String (List ℚ)

/-- A line of the export: which metric, and which of its values. -/
inductive Series
  | total (name : String)
  | gauge (name : String)
  | bucket (name : String) (le : WithTop ℚ)
  | count (name : String)
  | sum (name : String)
  deriving DecidableEq

/-- The binary64 number a decimal literal of the source denotes. -/
def literal (n d : Nat) : ℚ := ((toBinary64 n d).map Binary64.toRat).getD 0

/-- `_histogram_boundaries`. -/
def histogramBoundaries (name : String) : List ℚ :=
  if "cpu_percent".toList <:+: name.toList then [5, 10, 25, 50, 80, 100, 200]
  else if "_seconds".toList <:+ name.toList then
    [literal 1 1000, literal 5 1000, literal 1 100, literal 25 1000, literal 5 100, literal 1 10,
      literal 25 100, literal 5 10, 1]
  else [1, 5, 10, 25, 50, 100, 250, 500, 1000]

/-- `_quantile`. -/
def quantileOf (values : List ℚ) (quantile : ℚ) : ℚ :=
  let ordered := values.insertionSort (· ≤ ·)
  let index : Int := max 0 (min (ordered.length - 1) (⌈quantile * ordered.length⌉ - 1))
  ordered.getD index.toNat 0

namespace Metrics

def new : Metrics := ⟨∅, ∅, ∅⟩

/-- How many samples of a metric are kept. -/
def maxSamples : Nat := 4096

variable (metrics : Metrics)

def increment (name : String) (amount : ℚ) : Metrics :=
  { metrics with counters := metrics.counters.set name (metrics.counters.getD name 0 + amount) }

def gauge (name : String) (value : ℚ) : Metrics :=
  { metrics with gauges := metrics.gauges.set name value }

/-- A value that is not finite is `none`, and is not kept. -/
def observe (name : String) : Option ℚ → Metrics
  | none => metrics
  | some value =>
      let samples := metrics.samples.getD name [] ++ [value]
      { metrics with
        samples := metrics.samples.set name
          (if maxSamples < samples.length then samples.drop (samples.length - maxSamples)
            else samples) }

def quantile (name : String) (value : ℚ) : ℚ :=
  quantileOf (metrics.samples.getD name []) value

/-- `gauge_value`: the value as a float, `none` where that overflows. -/
def gaugeValue (name : String) : Option ℚ :=
  let value := metrics.gauges.getD name 0
  (toBinary64 value.num.natAbs value.den).map fun x => if 0 ≤ value then x.toRat else -x.toRat

@[simp] theorem gaugeValue_new (name : String) : Metrics.new.gaugeValue name = some 0 := by
  have hempty : Metrics.new.gauges.getD name 0 = 0 := rfl
  unfold gaugeValue
  rw [hempty]
  decide +kernel

theorem gaugeValue_gauge_self (name : String) (value : ℚ) :
    (metrics.gauge name value).gaugeValue name =
      (toBinary64 value.num.natAbs value.den).map
        fun x => if 0 ≤ value then x.toRat else -x.toRat := by
  unfold gaugeValue gauge Dict.getD
  rw [Dict.get?_set_self, Option.getD_some]

theorem gaugeValue_gauge_of_ne {name name' : String} (value : ℚ) (h : name' ≠ name) :
    (metrics.gauge name value).gaugeValue name' = metrics.gaugeValue name' := by
  unfold gaugeValue gauge Dict.getD
  rw [Dict.get?_set_of_ne _ _ h]

/-- The export of one histogram. -/
def histogram (name : String) (values : List ℚ) : List (Series × ℚ) :=
  let total : ℚ := values.length
  ((histogramBoundaries name).map fun (boundary : ℚ) =>
      (Series.bucket name boundary,
        ((values.countP fun value => decide (value ≤ boundary) : Nat) : ℚ))) ++
    [(Series.bucket name ⊤, total), (Series.count name, total), (Series.sum name, values.sum)]

def renderPrometheus : List (Series × ℚ) :=
  (sorted metrics.counters.keys.toFinset).map
      (fun name => (Series.total name, metrics.counters.getD name 0)) ++
    (sorted metrics.gauges.keys.toFinset).map
      (fun name => (Series.gauge name, metrics.gauges.getD name 0)) ++
    (sorted metrics.samples.keys.toFinset).flatMap
      fun name => histogram name (metrics.samples.getD name [])

end Metrics

end Masterserver

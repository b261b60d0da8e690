import Masterserver.App.Metrics
import Masterserver.Lib.System

/-!
# Runs of the metrics registry

A registry that starts out empty and is written to, in any order and under any
names.
-/

namespace Masterserver

inductive MetricsOp
  | increment (name : String) (amount : ℚ)
  | gauge (name : String) (value : ℚ)
  | observe (name : String) (value : Option ℚ)

def Metrics.after (metrics : Metrics) : MetricsOp → Metrics
  | .increment name amount => metrics.increment name amount
  | .gauge name value => metrics.gauge name value
  | .observe name value => metrics.observe name value

/-- The registry after a sequence of writes. -/
def Metrics.written (ops : List MetricsOp) : Metrics := ops.foldl Metrics.after .new

end Masterserver

import DiskGauge.Usage.Size
import DiskGauge.Usage.Snapshot

namespace DiskGauge

inductive Tier where
  | normal
  | warning
  | critical
deriving DecidableEq, Repr

namespace Tier

def name : Tier → String
  | .normal => "normal"
  | .warning => "warning"
  | .critical => "critical"

def colour : Tier → String
  | .normal => "success"
  | .warning => "warning"
  | .critical => "error"

end Tier

structure Thresholds where
  warning : Nat
  critical : Nat
deriving DecidableEq, Repr

namespace Thresholds
open DiskGauge.Json

def criticalGigabytes : Double := Double.ofDecimal false 1 (-2)

def defaultGigabytes : Double := Double.ofNat 5

def ofGigabytes (gigabytes : Double) : Thresholds :=
  ⟨Size.ofGigabytes gigabytes, Size.ofGigabytes criticalGigabytes⟩

def standard : Thresholds := ofGigabytes defaultGigabytes

-- A free space equal to a threshold has already reached it.
def tier (t : Thresholds) (free : Nat) : Tier :=
  if free ≤ t.critical then .critical
  else if free ≤ t.warning then .warning
  else .normal

def toJson (t : Thresholds) : Value :=
  .object [("warning_bytes", .ofNat t.warning), ("critical_bytes", .ofNat t.critical)]

end Thresholds

end DiskGauge

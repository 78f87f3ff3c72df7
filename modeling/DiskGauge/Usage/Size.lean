import DiskGauge.Number.Decimal

namespace DiskGauge.Size
open Double

def maxBytes : Nat := twoTo 64 - 1

-- What is not a positive number of gigabytes has no bytes.
def ofGigabytes (gigabytes : Double) : Nat :=
  if gigabytes.isFinite && lt zero gigabytes then
    (gigabytes * ofNat 1000000000).round.toNatClamped maxBytes
  else 0

def unitNames : List String := ["B", "KB", "MB", "GB", "TB", "PB"]

def unitName (unit : Nat) : String := unitNames.getD unit ""

def step : Double := ofNat 1000

-- Values from here on would be written with four digits before the point.
def overflowing : Double := ofDecimal false 99995 (-2)

def climb : Nat → Double → Nat → Double × Nat
  | 0, value, unit => (value, unit)
  | larger + 1, value, unit =>
    if le step value then climb larger (value / step) (unit + 1) else (value, unit)

-- A value that would round to a thousand takes one more step.
def promote (climbed : Double × Nat) : Double × Nat :=
  if le overflowing climbed.1 && climbed.2 < 5 then (climbed.1 / step, climbed.2 + 1) else climbed

def scaled (bytes : Nat) : Double × Nat := promote (climb 5 (ofNat bytes) 0)

def tenthsOf : Double → List Char
  | .finite _ rank => tenthsText rank
  | x => Layout.plain.chars x

def label (bytes : Nat) : String :=
  if bytes < 1000 then toString bytes ++ " B"
  else
    let (value, unit) := scaled bytes
    String.ofList (tenthsOf value) ++ " " ++ unitName unit

end DiskGauge.Size

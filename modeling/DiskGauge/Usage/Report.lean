import DiskGauge.Usage.Snapshot

namespace DiskGauge
open DiskGauge.Json

structure MountReport where
  percent : Double
  free : Int
  total : Option Int
  used : Option Int
deriving DecidableEq, Repr

structure Report where
  node : String
  mounts : List (String × MountReport)
deriving DecidableEq, Repr

def rootMount : String := "/"

namespace MountReport

def toJson (m : MountReport) : Value :=
  .object ([("used_percent", .ofDouble m.percent), ("free", .ofInt m.free)] ++
    (m.total.map fun total => ("total", Value.ofInt total)).toList ++
    (m.used.map fun used => ("used", Value.ofInt used)).toList)

structure Partial where
  percent : Option Double
  free : Option Int
  total : Option (Option Int)
  used : Option (Option Int)

def readMember (name : String) (p : Partial) : Reader Partial := fun rest =>
  if name = "used_percent" then do
    let (percent, rest) ← fill name p.percent readDouble rest
    return ({ p with percent }, rest)
  else if name = "free" then do
    let (free, rest) ← fill name p.free readInteger rest
    return ({ p with free }, rest)
  else if name = "total" then do
    let (total, rest) ← fill name p.total (readOptional readInteger) rest
    return ({ p with total }, rest)
  else if name = "used" then do
    let (used, rest) ← fill name p.used (readOptional readInteger) rest
    return ({ p with used }, rest)
  else skipMember name p rest

def read : Reader MountReport :=
  readRecord "struct MountUsage"
    (fun rest => do
      let (p, rest) ← readMembers readMember ⟨none, none, none, none⟩ rest
      let percent ← require "used_percent" p.percent rest
      let free ← require "free" p.free rest
      return (⟨percent, free, p.total.join, p.used.join⟩, rest))
    (fun rest => do
      let expected := "struct MountUsage with 4 elements"
      let (percent, rest) ← readElement 0 expected readDouble rest
      let (free, rest) ← readElement 1 expected readInteger rest
      let (total, rest) ← readElement? 2 (readOptional readInteger) rest
      let (used, rest) ← match total with
        | some _ => readElement? 3 (readOptional readInteger) rest
        | none => pure (none, rest)
      return (⟨percent, free, total.join, used.join⟩, rest))

end MountReport

namespace Report

structure Partial where
  node : Option String
  mounts : Option (List (String × MountReport))

def readMember (name : String) (p : Partial) : Reader Partial := fun rest =>
  if name = "node_id" then do
    let (node, rest) ← fill name p.node readText rest
    return ({ p with node }, rest)
  else if name = "usage" then do
    let (mounts, rest) ← fill name p.mounts (readMap MountReport.read) rest
    return ({ p with mounts }, rest)
  else skipMember name p rest

def read : Reader Report :=
  readRecord "struct UsageEvent"
    (fun rest => do
      let (p, rest) ← readMembers readMember ⟨none, none⟩ rest
      let node ← require "node_id" p.node rest
      let mounts ← require "usage" p.mounts rest
      return (⟨node, mounts⟩, rest))
    (fun rest => do
      let expected := "struct UsageEvent with 2 elements"
      let (node, rest) ← readElement 0 expected readText rest
      let (mounts, rest) ← readElement 1 expected (readMap MountReport.read) rest
      return (⟨node, mounts⟩, rest))

def ofBytes (document : Bytes) : Except Rejection Report :=
  (readDocument read document).mapError .json

-- The last entry for a mount.
def find? (r : Report) (mount : String) : Option MountReport :=
  (r.mounts.reverse.find? fun entry => entry.1 = mount).map (·.2)

def sortedMounts (r : Report) : List (String × MountReport) := Keyed.ofList r.mounts

def toSnapshot (r : Report) : Except Rejection Snapshot :=
  match r.find? rootMount with
  | none => .error (.missingRoot r.node)
  | some root =>
    let s : Snapshot := ⟨r.node, root.percent, root.free⟩
    match s.validate with
    | .ok _ => .ok s
    | .error rejection => .error rejection

end Report

def Snapshot.decode (payload : Bytes) : Except Rejection Snapshot :=
  match Report.ofBytes payload with
  | .ok report => report.toSnapshot
  | .error rejection => .error rejection

namespace Report

variable {r : Report} {mount : String}

theorem reverse_find?_none {entries : List (String × MountReport)} (absent : ∀ entry ∈ entries, entry.1 ≠ mount) :
    (entries.reverse.find? fun entry => entry.1 = mount) = none := by
  rw [List.find?_eq_none]
  intro entry member same
  exact absent entry (List.mem_reverse.mp member) (of_decide_eq_true same)

theorem find?_none (absent : ∀ entry ∈ r.mounts, entry.1 ≠ mount) : r.find? mount = none := by
  unfold find?
  rw [reverse_find?_none absent, Option.map_none]

theorem find?_last {before after : List (String × MountReport)} {last : MountReport}
    (split : r.mounts = before ++ (mount, last) :: after) (absent : ∀ entry ∈ after, entry.1 ≠ mount) :
    r.find? mount = some last := by
  unfold find?
  rw [split, List.reverse_append, List.reverse_cons, List.append_assoc, List.find?_append, reverse_find?_none absent,
    Option.none_or, List.singleton_append, List.find?_cons_of_pos (by simp), Option.map_some]

end Report

theorem Report.toSnapshot_valid {r : Report} {s : Snapshot} (accepted : r.toSnapshot = .ok s) :
    s.validate = .ok () := by
  unfold Report.toSnapshot at accepted
  cases found : r.find? rootMount with
  | none => simp [found] at accepted
  | some root =>
    cases checked : (⟨r.node, root.percent, root.free⟩ : Snapshot).validate with
    | error rejection => simp [found, checked] at accepted
    | ok =>
      obtain rfl : ⟨r.node, root.percent, root.free⟩ = s := by simpa [found, checked] using accepted
      exact checked

theorem Snapshot.decode_valid {payload : Bytes} {s : Snapshot}
    (accepted : Snapshot.decode payload = .ok s) : s.validate = .ok () := by
  unfold Snapshot.decode at accepted
  cases read : Report.ofBytes payload with
  | error rejection => simp [read] at accepted
  | ok report =>
    rw [read] at accepted
    exact Report.toSnapshot_valid accepted

end DiskGauge

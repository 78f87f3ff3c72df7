import DiskGauge.Proofs.Usage.Trees

namespace DiskGauge
open DiskGauge.Json

-- An event: an object with the text of its node and with an object of entries, each given once. Other members
-- may be there as well.
structure UsageEvent where
  members : List (Spelling × Tree)
  node : String
  entries : List (Spelling × Tree)
  texts : areTexts members = true
  hasNode : (named "node_id" members).map Tree.text? = [some node]
  hasUsage : named "usage" members = [.object entries]

namespace UsageEvent

variable {e f : UsageEvent} {payload other : Bytes}

-- A payload has the event for its content.
def Writes (e : UsageEvent) (payload : Bytes) : Prop := Spaced (Tree.object e.members).tokens payload

def text (e : UsageEvent) : Bytes := (Tree.object e.members).tokens.flatten

theorem text_writes (e : UsageEvent) : e.Writes e.text := by
  have compact := (Tree.object e.members).compact .done
  rw [List.append_nil, List.append_nil] at compact
  exact compact

def roots (e : UsageEvent) : List Tree := named rootMount e.entries

def isReadable (e : UsageEvent) : Bool := e.entries.all fun entry => (Tree.pair? MountReport.ofTree? entry).isSome

-- What the entries of the root mount amount to.
def verdict (node : String) (roots : List MountReport) : Except Rejection Snapshot :=
  match roots.getLast? with
  | none => .error (.missingRoot node)
  | some root =>
    let s : Snapshot := ⟨node, root.percent, root.free⟩
    match s.validate with
    | .ok _ => .ok s
    | .error rejection => .error rejection

theorem report_event (e : UsageEvent) : Report.ofTree? (.object e.members) =
    (e.entries.mapM (Tree.pair? MountReport.ofTree?)).map fun mounts => ⟨e.node, mounts⟩ := by
  obtain ⟨t, single, text⟩ := List.map_eq_singleton_iff.mp e.hasNode
  have node : field? Tree.text? "node_id" e.members = some (some e.node) := by
    unfold field?
    rw [single]
    dsimp only
    rw [text, Option.map_some]
  have usage : field? Report.mounts? "usage" e.members =
      (e.entries.mapM (Tree.pair? MountReport.ofTree?)).map some := by
    unfold field?
    rw [e.hasUsage]
    rfl
  change Report.ofMembers? e.members = _
  unfold Report.ofMembers?
  rw [e.texts, node, usage]
  cases e.entries.mapM (Tree.pair? MountReport.ofTree?) <;> rfl

-- The entries for a mount, read one by one.
theorem named_read {entries : List (Spelling × Tree)} {mounts : List (String × MountReport)}
    (read : entries.mapM (Tree.pair? MountReport.ofTree?) = some mounts) (name : String) :
    (named name entries).map MountReport.ofTree? = ((mounts.filter fun m => m.1 = name).map (·.2)).map some := by
  induction entries generalizing mounts with
  | nil =>
    obtain rfl : [] = mounts := by simpa using read
    rfl
  | cons entry entries ih =>
    rw [List.mapM_cons] at read
    obtain ⟨mount, here, later⟩ := Option.bind_eq_some_iff.mp read
    obtain ⟨others, behind, all⟩ := Option.bind_eq_some_iff.mp later
    obtain rfl := Option.some.inj all
    obtain ⟨own, text, value⟩ := Option.bind_eq_some_iff.mp here
    obtain ⟨report, found, rfl⟩ := Option.map_eq_some_iff.mp value
    obtain ⟨spelling, t⟩ := entry
    have rest := ih behind
    by_cases same : own = name
    · subst same
      rw [named_here t entries text]
      simpa [found] using rest
    · rw [named_other t entries text same]
      simpa [same] using rest

theorem toSnapshot_verdict (r : Report) :
    r.toSnapshot = verdict r.node ((r.mounts.filter fun m => m.1 = rootMount).map (·.2)) := by
  have last : r.find? rootMount = ((r.mounts.filter fun m => m.1 = rootMount).map (·.2)).getLast? := by
    unfold Report.find?
    rw [← List.head?_filter, List.filter_reverse, List.head?_reverse, List.getLast?_map]
  unfold Report.toSnapshot verdict
  rewrite [last]
  rfl

theorem isReadable_iff (e : UsageEvent) :
    e.isReadable = (e.entries.mapM (Tree.pair? MountReport.ofTree?)).isSome := by
  unfold isReadable
  induction e.entries with
  | nil => rfl
  | cons entry entries ih =>
    rw [List.all_cons, ih, List.mapM_cons]
    cases Tree.pair? MountReport.ofTree? entry with
    | none => rfl
    | some mount => cases entries.mapM (Tree.pair? MountReport.ofTree?) <;> rfl

-- With readable entries the root alone decides; with others the payload is no report.
theorem decode_event (writes : e.Writes payload) :
    (e.isReadable = true → ∃ mounts, e.roots.map MountReport.ofTree? = mounts.map some ∧
      Snapshot.decode payload = verdict e.node mounts) ∧
    (e.isReadable = false → ∃ error, Snapshot.decode payload = .error (.json error)) := by
  have decoded := Snapshot.decode_tree (.object e.members) writes
  rw [report_event] at decoded
  rw [isReadable_iff]
  cases read : e.entries.mapM (Tree.pair? MountReport.ofTree?) with
  | none =>
    rw [read] at decoded
    exact ⟨fun readable => (nomatch readable), fun _ => decoded⟩
  | some mounts =>
    rw [read] at decoded
    refine ⟨fun _ => ⟨_, named_read read rootMount, ?_⟩, fun readable => (nomatch readable)⟩
    exact decoded.trans (toSnapshot_verdict ⟨e.node, mounts⟩)

-- Two payloads for one node, with the same entries of the root mount.
theorem root_decides (writes : e.Writes payload) (writesOther : f.Writes other) (node : e.node = f.node)
    (roots : e.roots.map MountReport.ofTree? = f.roots.map MountReport.ofTree?) :
    (e.isReadable = true → f.isReadable = true → Snapshot.decode payload = Snapshot.decode other) ∧
      (e.isReadable = false → ∃ error, Snapshot.decode payload = .error (.json error)) := by
  refine ⟨?_, (decode_event writes).2⟩
  intro readable otherReadable
  obtain ⟨mounts, own, decoded⟩ := (decode_event writes).1 readable
  obtain ⟨otherMounts, others, otherDecoded⟩ := (decode_event writesOther).1 otherReadable
  rw [own, others] at roots
  have same : mounts = otherMounts := (List.map_inj_right fun _ _ => Option.some.inj).mp roots
  rw [decoded, otherDecoded, node, same]

-- An event with nothing but its node and its entries.
def plain (node : String) (entries : List (Spelling × Tree)) : UsageEvent where
  members := [(.ofString "node_id", .text (.ofString node)), (.ofString "usage", .object entries)]
  node := node
  entries := entries
  texts := by simp [areTexts, Spelling.text?_ofString]
  hasNode := by simp [named, Spelling.text?_ofString, Tree.text?]
  hasUsage := by simp [named, Spelling.text?_ofString]

-- A mount that is 72 percent full, with two billion bytes left.
def fairlyFull : Tree :=
  .object [(.ofString "used_percent", .number (.ofNat 72)), (.ofString "free", .number (.ofNat 2000000000))]

-- A root mount alone, and with something else beside it.
def rootAlone : UsageEvent := plain "n1" [(.ofString "/", fairlyFull)]
def rootBeside (t : Tree) : UsageEvent := plain "n1" [(.ofString "/", fairlyFull), (.ofString "/data", t)]

theorem root_decides_beside : Snapshot.decode rootAlone.text = Snapshot.decode (rootBeside fairlyFull).text ∧
    ∃ error, Snapshot.decode (rootBeside .null).text = .error (.json error) :=
  ⟨(root_decides rootAlone.text_writes (rootBeside fairlyFull).text_writes rfl (by decide +kernel)).1
      (by decide +kernel) (by decide +kernel),
    (root_decides (rootBeside .null).text_writes rootAlone.text_writes rfl (by decide +kernel)).2 (by decide +kernel)⟩

theorem roots_beside (t : Tree) : (rootBeside t).roots = rootAlone.roots := by
  simp [roots, rootBeside, rootAlone, plain, named, Spelling.text?_ofString, rootMount]

-- Two payloads that tell the same of the root mount; in the second the number 5 stands for another mount.
def alonePayload : String :=
  "\x7b\"node_id\":\"n1\",\"usage\":\x7b\"/\":\x7b\"used_percent\":72,\"free\":2000000000\x7d\x7d\x7d"
def fivePayload : String :=
  "\x7b\"node_id\":\"n1\",\"usage\":\x7b\"/\":\x7b\"used_percent\":72,\"free\":2000000000\x7d,\"/data\":5\x7d\x7d"

theorem five_refused :
    rootAlone.Writes (Utf8.ofString alonePayload) ∧
      (rootBeside (.number (.ofNat 5))).Writes (Utf8.ofString fivePayload) ∧
      rootAlone.node = (rootBeside (.number (.ofNat 5))).node ∧
      rootAlone.roots = (rootBeside (.number (.ofNat 5))).roots ∧
      Snapshot.decode (Utf8.ofString alonePayload) = .ok ⟨"n1", Double.ofNat 72, 2000000000⟩ ∧
      ∃ error, Snapshot.decode (Utf8.ofString fivePayload) = .error (.json error) := by
  have alone : Utf8.ofString alonePayload = rootAlone.text := by decide +kernel
  have five : Utf8.ofString fivePayload = (rootBeside (.number (.ofNat 5))).text := by decide +kernel
  rw [alone, five]
  refine ⟨rootAlone.text_writes, (rootBeside _).text_writes, rfl, (roots_beside _).symm, ?_, ?_⟩
  · decide +kernel
  · exact (decode_event (rootBeside _).text_writes).2 (by decide +kernel)

end UsageEvent

end DiskGauge

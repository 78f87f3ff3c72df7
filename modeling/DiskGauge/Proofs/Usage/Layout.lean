import DiskGauge.Proofs.Number.Value
import DiskGauge.Proofs.Usage.Trees

namespace DiskGauge
open DiskGauge.Json

namespace Json

def given (name : String) (fields : List (String × Tree)) : List Tree :=
  (fields.filter fun field => field.1 = name).map (·.2)

-- The members are the fields in any order, with their names in any spelling, among others with names not known.
def Arranged (known : List String) (fields : List (String × Tree)) (members : List (Spelling × Tree)) : Prop :=
  ∃ others : List (String × Tree), (∀ other ∈ others, other.1 ∉ known) ∧
    (members.map fun m => (m.1.text?, m.2)).Perm ((fields ++ others).map fun field => (some field.1, field.2))

namespace Arranged

variable {known : List String} {fields : List (String × Tree)} {members : List (Spelling × Tree)} {name : String}

theorem texts (arranged : Arranged known fields members) : areTexts members = true := by
  obtain ⟨others, _, same⟩ := arranged
  apply List.all_eq_true.mpr
  intro m member
  have listed := same.mem_iff.mp (List.mem_map_of_mem member)
  obtain ⟨field, _, equal⟩ := List.mem_map.mp listed
  have text : some field.1 = m.1.text? := congrArg Prod.fst equal
  rw [← text]
  rfl

theorem named_perm (arranged : Arranged known fields members) (isKnown : name ∈ known) :
    (named name members).Perm (given name fields) := by
  obtain ⟨others, unknown, same⟩ := arranged
  have foreign : others.filter (fun field => field.1 = name) = [] := by
    rw [List.filter_eq_nil_iff]
    intro other member here
    exact unknown other member (of_decide_eq_true here ▸ isKnown)
  have kept := (same.filter fun m => m.1 = some name).map (·.2)
  simpa [List.filter_map, Function.comp_def, foreign, named, given] using kept

-- A field is what was given for its name, if that is one tree at most.
theorem field?_eq (arranged : Arranged known fields members) (isKnown : name ∈ known) {trees : List Tree}
    (own : given name fields = trees) (few : trees.length ≤ 1) {α : Type} (value? : Tree → Option α) :
    field? value? name members = fillAll? value? none trees := by
  have same := arranged.named_perm isKnown
  rw [own] at same
  rw [← fillAll?_none]
  cases trees with
  | nil => rw [same.eq_nil]
  | cons t more =>
    obtain rfl : more = [] := List.eq_nil_of_length_eq_zero (by simpa using few)
    rw [same.eq_singleton]

-- Members that stand the other way round.
theorem of_reverse (others : List (String × Tree)) (unknown : ∀ other ∈ others, other.1 ∉ known)
    (reversed : (members.map fun m => (m.1.text?, m.2)) =
      ((fields ++ others).map fun field => (some field.1, field.2)).reverse) : Arranged known fields members :=
  ⟨others, unknown, by rw [reversed]; exact List.reverse_perm _⟩

end Arranged

theorem Tree.integer?_ofInt (i : Int64) : (Tree.number (.ofInt i.toInt)).integer? = some i.toInt := by
  have above : -(twoTo 63 : Int) ≤ i.toInt := i.le_toInt
  have below : i.toInt < twoTo 63 := i.toInt_lt
  change (NumberText.value? _).bind _ = _
  rw [NumberText.value?_ofInt above below]
  exact if_pos below

theorem Tree.double?_read {n : NumberText} {x : Double} (read : readDouble n.bytes = .ok (x, [])) :
    (Tree.number n).double? = some x := by
  have closed : Closed [] := fun token head => nomatch head
  have yields := reads_double (.number n) [] _ closed ((Tree.number n).compact .done)
  rw [Tree.tokens, List.flatten_singleton, List.append_nil, read] at yields
  cases value : (Tree.number n).double? with
  | none =>
    rw [value] at yields
    obtain ⟨stop, failed⟩ := yields
    cases failed
  | some y =>
    rw [value] at yields
    obtain ⟨rest, same, _⟩ := yields
    cases same
    rfl

end Json

-- What an event tells of a mount: a percentage as it is written and as it is read, and sizes of 64 bits, the last two
-- of which may be left out or be null.
structure Figures where
  percent : NumberText
  value : Double
  reads : readDouble percent.bytes = .ok (value, [])
  free : Int64
  total : Option (Option Int64)
  used : Option (Option Int64)

namespace Figures

variable {f : Figures} {t : Tree}

def report (f : Figures) : MountReport :=
  ⟨f.value, f.free.toInt, f.total.join.map Int64.toInt, f.used.join.map Int64.toInt⟩

def integer (i : Int64) : Tree := .number (.ofInt i.toInt)

def sizeTrees : Option (Option Int64) → List Tree
  | none => []
  | some none => [.null]
  | some (some size) => [integer size]

def fields (f : Figures) : List (String × Tree) :=
  ("used_percent", .number f.percent) :: ("free", integer f.free) ::
    ((sizeTrees f.total).map (("total", ·)) ++ (sizeTrees f.used).map (("used", ·)))

def names : List String := ["used_percent", "free", "total", "used"]

def Written (f : Figures) (t : Tree) : Prop := ∃ members, t = .object members ∧ Arranged names f.fields members

theorem given_percent (f : Figures) : given "used_percent" f.fields = [.number f.percent] := by
  simp [given, fields, List.filter_map, Function.comp_def]

theorem given_free (f : Figures) : given "free" f.fields = [integer f.free] := by
  simp [given, fields, List.filter_map, Function.comp_def]

theorem given_total (f : Figures) : given "total" f.fields = sizeTrees f.total := by
  simp [given, fields, List.filter_map, Function.comp_def]

theorem given_used (f : Figures) : given "used" f.fields = sizeTrees f.used := by
  simp [given, fields, List.filter_map, Function.comp_def]

theorem sizeTrees_few (size : Option (Option Int64)) : (sizeTrees size).length ≤ 1 := by
  rcases size with _ | _ | size <;> simp [sizeTrees]

theorem sizeTrees_read (size : Option (Option Int64)) :
    fillAll? MountReport.size? none (sizeTrees size) = some (size.map (·.map Int64.toInt)) := by
  rcases size with _ | _ | size
  · rfl
  · rfl
  · have read : MountReport.size? (integer size) = some (some size.toInt) :=
      congrArg (Option.map some) (Tree.integer?_ofInt size)
    simp [sizeTrees, fillAll?, fill?, read]

theorem written_read (written : f.Written t) : MountReport.ofTree? t = some f.report := by
  obtain ⟨members, rfl, arranged⟩ := written
  have percent := arranged.field?_eq (by simp [names]) f.given_percent (Nat.le_refl 1) Tree.double?
  have free := arranged.field?_eq (by simp [names]) f.given_free (Nat.le_refl 1) Tree.integer?
  have total := arranged.field?_eq (by simp [names]) f.given_total (sizeTrees_few f.total) MountReport.size?
  have used := arranged.field?_eq (by simp [names]) f.given_used (sizeTrees_few f.used) MountReport.size?
  rw [sizeTrees_read] at total used
  have joined (size : Option (Option Int64)) : (size.map (·.map Int64.toInt)).join = size.join.map Int64.toInt := by
    rcases size with _ | _ | size <;> rfl
  change MountReport.ofMembers? members = _
  unfold MountReport.ofMembers?
  rw [arranged.texts, percent, free, total, used]
  simp [fillAll?, fill?, Tree.double?_read f.reads, integer, Tree.integer?_ofInt, report, joined]

end Figures

-- What an event tells: its node, and of each mount its figures, in the order in which they are written. A mount may be
-- there more than once.
structure Bulletin where
  node : String
  mounts : List (String × Figures)

namespace Bulletin

variable {b : Bulletin} {payload : Bytes}

def reports (mounts : List (String × Figures)) : List (String × MountReport) :=
  mounts.map fun mount => (mount.1, mount.2.report)

def report (b : Bulletin) : Report := ⟨b.node, reports b.mounts⟩

-- The entries are the mounts one by one.
def Listed (mounts : List (String × Figures)) (entries : List (Spelling × Tree)) : Prop :=
  List.Forall₂ (fun mount entry => entry.1.text? = some mount.1 ∧ mount.2.Written entry.2) mounts entries

def fields (node : Spelling) (entries : List (Spelling × Tree)) : List (String × Tree) :=
  [("node_id", .text node), ("usage", .object entries)]

def Written (b : Bulletin) (payload : Bytes) : Prop :=
  ∃ members node entries, Spaced (Tree.object members).tokens payload ∧ node.text? = some b.node ∧
    Arranged ["node_id", "usage"] (fields node entries) members ∧ Listed b.mounts entries

theorem given_node (node : Spelling) (entries : List (Spelling × Tree)) :
    given "node_id" (fields node entries) = [.text node] := by
  simp [given, fields]

theorem given_usage (node : Spelling) (entries : List (Spelling × Tree)) :
    given "usage" (fields node entries) = [.object entries] := by
  simp [given, fields]

theorem listed_read {mounts : List (String × Figures)} {entries : List (Spelling × Tree)}
    (listed : Listed mounts entries) : entries.mapM (Tree.pair? MountReport.ofTree?) = some (reports mounts) := by
  induction listed with
  | nil => rfl
  | @cons mount entry mounts entries here _ ih =>
    obtain ⟨text, written⟩ := here
    have pair : Tree.pair? MountReport.ofTree? entry = some (mount.1, mount.2.report) := by
      unfold Tree.pair?
      rw [text, Option.bind_some, Figures.written_read written, Option.map_some]
    rw [List.mapM_cons, pair, ih]
    rfl

theorem decode_report (written : b.Written payload) : Snapshot.decode payload = b.report.toSnapshot := by
  obtain ⟨members, node, entries, spaced, text, arranged, listed⟩ := written
  have nodeField := arranged.field?_eq (by simp) (given_node node entries) (Nat.le_refl 1) Tree.text?
  have usageField := arranged.field?_eq (by simp) (given_usage node entries) (Nat.le_refl 1) Report.mounts?
  have meaning : Report.ofTree? (.object members) = some b.report := by
    change Report.ofMembers? members = _
    unfold Report.ofMembers?
    rw [arranged.texts, nodeField, usageField]
    have mounts : Report.mounts? (.object entries) = some (reports b.mounts) := listed_read listed
    simp [fillAll?, fill?, Tree.text?, text, mounts]
    rfl
  have decoded := Snapshot.decode_tree (.object members) spaced
  rw [meaning] at decoded
  exact decoded

end Bulletin

-- A number that is neither below 0 nor above 100.
def Snapshot.IsShare (percent : Double) : Prop := percent.isFinite = true ∧ 0 ≤ percent.value ∧ percent.value ≤ 100

theorem Snapshot.percentInRange_iff (percent : Double) : percentInRange percent = true ↔ IsShare percent := by
  obtain ⟨rank, number, exact⟩ := Double.ofNat_exact (n := 100) (by decide)
  have top : hundred.value = 100 := by
    rw [hundred, number, Double.value_finite, exact, Nat.cast_mul, mul_div_assoc,
      div_self Double.unitsPerOne_rat.ne', mul_one, Nat.cast_ofNat]
  have bounded : hundred.isFinite = true := by
    rw [hundred, number]
    rfl
  unfold percentInRange IsShare
  rw [Bool.and_eq_true, Bool.and_eq_true, and_assoc]
  refine and_congr_right fun finite => ?_
  rw [Double.le_iff_value rfl finite, Double.le_iff_value finite bounded, Double.value_zero, top]

theorem Report.toSnapshot_root {r : Report} {root : MountReport} (found : r.find? rootMount = some root) :
    (root.free < 0 → r.toSnapshot = .error (.negativeFree r.node root.free)) ∧
      (0 ≤ root.free → ¬Snapshot.IsShare root.percent →
        r.toSnapshot = .error (.percentOutOfRange r.node root.percent)) ∧
      (0 ≤ root.free → Snapshot.IsShare root.percent → r.toSnapshot = .ok ⟨r.node, root.percent, root.free⟩) := by
  unfold toSnapshot Snapshot.validate
  rw [found]
  dsimp only
  refine ⟨fun negative => ?_, fun natural outside => ?_, fun natural inside => ?_⟩
  · rw [if_pos negative]
  · rw [if_neg (Int.not_lt.mpr natural), if_neg fun inside => outside ((Snapshot.percentInRange_iff _).mp inside)]
  · rw [if_neg (Int.not_lt.mpr natural), if_pos ((Snapshot.percentInRange_iff _).mpr inside)]

namespace Bulletin

variable {b : Bulletin} {payload : Bytes}

theorem reports_absent {mounts : List (String × Figures)} {mount : String} (absent : ∀ m ∈ mounts, m.1 ≠ mount) :
    ∀ entry ∈ reports mounts, entry.1 ≠ mount := by
  intro entry member
  obtain ⟨m, listed, rfl⟩ := List.mem_map.mp member
  exact absent m listed

theorem find?_reports {before after : List (String × Figures)} {root : Figures}
    (split : b.mounts = before ++ (rootMount, root) :: after) (absent : ∀ m ∈ after, m.1 ≠ rootMount) :
    b.report.find? rootMount = some root.report := by
  have entries : b.report.mounts = reports before ++ (rootMount, root.report) :: reports after := by
    unfold report reports
    rw [split, List.map_append, List.map_cons]
  exact Report.find?_last entries (reports_absent absent)

-- The last entry of the root mount decides, and its free space does so before its percentage.
theorem decode_written (written : b.Written payload) :
    ((∀ mount ∈ b.mounts, mount.1 ≠ "/") → Snapshot.decode payload = .error (.missingRoot b.node)) ∧
      ∀ (before after : List (String × Figures)) (root : Figures), b.mounts = before ++ ("/", root) :: after →
        (∀ mount ∈ after, mount.1 ≠ "/") →
        (root.free.toInt < 0 → Snapshot.decode payload = .error (.negativeFree b.node root.free.toInt)) ∧
          (0 ≤ root.free.toInt → ¬Snapshot.IsShare root.value →
            Snapshot.decode payload = .error (.percentOutOfRange b.node root.value)) ∧
          (0 ≤ root.free.toInt → Snapshot.IsShare root.value →
            Snapshot.decode payload = .ok ⟨b.node, root.value, root.free.toInt⟩) := by
  rw [decode_report written]
  constructor
  · intro absent
    have rootless : b.report.find? rootMount = none := Report.find?_none (reports_absent absent)
    unfold Report.toSnapshot
    rw [rootless]
    rfl
  · intro before after root split absent
    exact Report.toSnapshot_root (find?_reports split absent)

-- A root mount with figures that are out of range, and once more with good ones.
def sparePercent : NumberText := ⟨false, ['7', '2'], numeral_toDigits 72, ['5'], digits_toDigits 5, none⟩
def spare : Figures := ⟨sparePercent, .ofDecimal false 725 (-1), by decide +kernel, 5, some none, none⟩
def broken : Figures := ⟨.ofNat 300, .ofNat 300, by decide +kernel, -1, none, none⟩
def repaired : Bulletin := ⟨"n1", [("/", broken), ("/home", broken), ("/", spare)]⟩

-- The same in an odd layout: the members stand the other way round, escapes are where none are needed, and there is
-- more than was asked for.
def slash : Spelling := [.letter .slash]
def percentName : Spelling := Spelling.ofString "used" ++ .unit (.ofNat 0x5F) :: Spelling.ofString "percent"
def nodeName : Spelling := Spelling.ofString "node" ++ .unit (.ofNat 0x5F) :: Spelling.ofString "id"
def aside : Tree := .list [.text [.unit (.ofNat 0xD800)], .object []]

def spareTree : Tree :=
  .object [(.ofString "spare", aside), (.ofString "total", .null), (.ofString "free", Figures.integer 5),
    (percentName, .number sparePercent)]

def brokenTree : Tree :=
  .object [(.ofString "free", Figures.integer (-1)), (.ofString "used_percent", .number (.ofNat 300))]

def repairedEntries : List (Spelling × Tree) :=
  [(.ofString "/", brokenTree), (slash ++ .ofString "home", brokenTree), (slash, spareTree)]

def repairedMembers : List (Spelling × Tree) :=
  [(.ofString "mounts", aside), (.ofString "usage", .object repairedEntries),
    (nodeName, .text (.ofString "n1"))]

def repairedPayload : String :=
  "\n\x7b\"mounts\":[\"\\ud800\",\x7b\x7d],\"usage\":\x7b" ++
    "\"/\":\x7b\"free\":-1,\"used_percent\":300\x7d," ++
    "\"\\/home\":\x7b\"free\":-1,\"used_percent\":300\x7d," ++
    "\"\\/\":\x7b\"spare\":[\"\\ud800\",\x7b\x7d],\"total\":null,\"free\":5,\"used\\u005fpercent\":72.5\x7d\x7d," ++
    "\"node\\u005fid\":\"n1\"\x7d"

theorem spare_written : spare.Written spareTree := by
  have percent : percentName.text? = some "used_percent" := by decide +kernel
  refine ⟨_, rfl, .of_reverse [("spare", aside)] (by simp [Figures.names]) ?_⟩
  simp [Spelling.text?_ofString, percent, Figures.fields, spare, Figures.sizeTrees]

theorem broken_written : broken.Written brokenTree := by
  refine ⟨_, rfl, .of_reverse [] (by simp) ?_⟩
  simp [Spelling.text?_ofString, Figures.fields, broken, Figures.sizeTrees]

theorem repaired_written : repaired.Written (Utf8.ofString repairedPayload) := by
  have node : nodeName.text? = some "node_id" := by decide +kernel
  have home : (slash ++ Spelling.ofString "home").text? = some "/home" := by decide +kernel
  have root : slash.text? = some "/" := by decide +kernel
  have text : Utf8.ofString repairedPayload = 0x0A :: (Tree.object repairedMembers).tokens.flatten := by decide +kernel
  have compact := (Tree.object repairedMembers).compact .done
  rw [List.append_nil, List.append_nil] at compact
  refine ⟨repairedMembers, .ofString "n1", repairedEntries, ?_, Spelling.text?_ofString _, ?_, ?_⟩
  · rw [text]
    exact .blank rfl compact
  · refine .of_reverse [("mounts", aside)] (by simp) ?_
    simp [repairedMembers, Spelling.text?_ofString, node, fields]
  · have first : (Spelling.ofString "/").text? = some "/" := Spelling.text?_ofString _
    exact .cons ⟨first, broken_written⟩ (.cons ⟨home, broken_written⟩ (.cons ⟨root, spare_written⟩ .nil))

theorem decode_repaired :
    Snapshot.decode (Utf8.ofString repairedPayload) = .ok ⟨"n1", .ofDecimal false 725 (-1), 5⟩ := by
  have share : Snapshot.IsShare spare.value := (Snapshot.percentInRange_iff _).mp (by decide +kernel)
  have value : spare.value = .ofDecimal false 725 (-1) := by rw [spare]
  have free : spare.free.toInt = 5 := by decide
  have decoded := (decode_written repaired_written).2 [("/", broken), ("/home", broken)] [] spare rfl
    fun mount member => nomatch member
  rw [value] at decoded share
  rw [free] at decoded
  exact decoded.2.2 (by decide) share

end Bulletin

end DiskGauge

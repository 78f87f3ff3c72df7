import DiskGauge.Proofs.Json.Reading
import DiskGauge.Usage.Report

namespace DiskGauge
open DiskGauge.Json

namespace MountReport

variable {more : List Bytes} {bytes : Bytes}

-- A size may be left out.
def size? : Tree → Option (Option Int) := Tree.optional? Tree.integer?

-- An entry as an object, with other members that are not looked at.
def ofMembers? (members : List (Spelling × Tree)) : Option MountReport := do
  guard (areTexts members)
  let percent ← field? Tree.double? "used_percent" members
  let free ← field? Tree.integer? "free" members
  let total ← field? size? "total" members
  let used ← field? size? "used" members
  return ⟨← percent, ← free, total.join, used.join⟩

-- An entry as a list of its fields, the last two of which may be left out.
def ofElements? (elements : List Tree) : Option MountReport := do
  let percent ← elements.head?.bind Tree.double?
  let free ← elements.tail.head?.bind Tree.integer?
  let total ← element? size? elements.tail.tail
  let used ← element? size? elements.tail.tail.tail
  guard (elements.tail.tail.tail.tail = [])
  return ⟨percent, free, total.join, used.join⟩

def ofTree? : Tree → Option MountReport := Tree.record? ofMembers? ofElements?

def step? (name : String) (p : Partial) (t : Tree) : Option Partial :=
  if name = "used_percent" then (fill? p.percent t.double?).map fun percent => { p with percent }
  else if name = "free" then (fill? p.free t.integer?).map fun free => { p with free }
  else if name = "total" then (fill? p.total (size? t)).map fun total => { p with total }
  else if name = "used" then (fill? p.used (size? t)).map fun used => { p with used }
  else some p

theorem reads_size : Reads (readOptional readInteger) size? := reads_optional reads_integer

theorem reads_member : ReadsMember readMember step? := by
  intro name p t more bytes closed spaced
  unfold readMember step?
  dsimp only
  split
  · exact (fill_yields name p.percent reads_double t closed spaced).map _
  · split
    · exact (fill_yields name p.free reads_integer t closed spaced).map _
    · split
      · exact (fill_yields name p.total reads_size t closed spaced).map _
      · split
        · exact (fill_yields name p.used reads_size t closed spaced).map _
        · exact skipMember_yields name p t closed spaced

theorem foldNamed?_step (p : Partial) (members : List (Spelling × Tree)) :
    foldNamed? step? p members = (do
      guard (areTexts members)
      let percent ← fillAll? Tree.double? p.percent (named "used_percent" members)
      let free ← fillAll? Tree.integer? p.free (named "free" members)
      let total ← fillAll? size? p.total (named "total" members)
      let used ← fillAll? size? p.used (named "used" members)
      return ⟨percent, free, total, used⟩) := by
  induction members generalizing p with
  | nil => rfl
  | cons m members ih =>
    obtain ⟨spelling, t⟩ := m
    unfold foldNamed?
    cases spelled : spelling.text? with
    | none => simp [areTexts, spelled]
    | some name =>
      have texts : areTexts ((spelling, t) :: members) = areTexts members := by simp [areTexts, spelled]
      rw [texts, Option.bind_some]
      by_cases percent : name = "used_percent"
      · subst percent
        have step : step? "used_percent" p t = (fill? p.percent t.double?).map fun percent => { p with percent } := rfl
        rw [step, named_here t members spelled, named_other t members spelled (by decide),
          named_other t members spelled (by decide), named_other t members spelled (by decide), fillAll?]
        cases fill? p.percent t.double? <;> simp [ih]
      · by_cases free : name = "free"
        · subst free
          have step : step? "free" p t = (fill? p.free t.integer?).map fun free => { p with free } := rfl
          rw [step, named_other t members spelled percent, named_here t members spelled,
            named_other t members spelled (by decide), named_other t members spelled (by decide), fillAll?]
          cases fill? p.free t.integer? <;> simp [ih]
        · by_cases total : name = "total"
          · subst total
            have step : step? "total" p t = (fill? p.total (size? t)).map fun total => { p with total } := rfl
            rw [step, named_other t members spelled percent, named_other t members spelled free,
              named_here t members spelled, named_other t members spelled (by decide), fillAll?]
            cases fill? p.total (size? t) <;> simp [ih]
          · by_cases used : name = "used"
            · subst used
              have step : step? "used" p t = (fill? p.used (size? t)).map fun used => { p with used } := rfl
              rw [step, named_other t members spelled percent, named_other t members spelled free,
                named_other t members spelled total, named_here t members spelled, fillAll?]
              cases fill? p.used (size? t) <;> simp [ih]
            · have step : step? name p t = some p := by simp [step?, percent, free, total, used]
              rw [step, named_other t members spelled percent, named_other t members spelled free,
                named_other t members spelled total, named_other t members spelled used]
              exact ih p

def complete? (p : Partial) : Option MountReport := do
  return ⟨← p.percent, ← p.free, p.total.join, p.used.join⟩

theorem ofMembers?_fold (members : List (Spelling × Tree)) :
    ofMembers? members = (foldNamed? step? ⟨none, none, none, none⟩ members).bind complete? := by
  rw [foldNamed?_step]
  simp [fillAll?_none, ofMembers?, complete?, Option.bind_assoc]

theorem read_members (members : List (Spelling × Tree)) (spaced : Spaced (memberTokens true members ++ more) bytes) :
    Yields (do
      let (p, rest) ← readMembers readMember ⟨none, none, none, none⟩ bytes
      let percent ← require "used_percent" p.percent rest
      let free ← require "free" p.free rest
      return (⟨percent, free, p.total.join, p.used.join⟩, rest)) (ofMembers? members) (Spaced more) := by
  rw [ofMembers?_fold]
  refine (readMembers_yields reads_member members _ spaced).bind fun p rest spaced => ?_
  obtain ⟨percent, free, total, used⟩ := p
  cases percent with
  | none => exact ⟨_, rfl⟩
  | some percent =>
    cases free with
    | none => exact ⟨_, rfl⟩
    | some free => exact .value _ spaced

theorem read_elements (elements : List Tree) (spaced : Spaced (elementTokens true elements ++ more) bytes) :
    Yields (do
      let (value, rest) ← (do
        let expected := "struct MountUsage with 4 elements"
        let (percent, rest) ← readElement 0 expected readDouble bytes
        let (free, rest) ← readElement 1 expected readInteger rest
        let (total, rest) ← readElement? 2 (readOptional readInteger) rest
        let (used, rest) ← match total with
          | some _ => readElement? 3 (readOptional readInteger) rest
          | none => pure (none, rest)
        return ((⟨percent, free, total.join, used.join⟩ : MountReport), rest))
      let rest ← closeList rest
      return (value, rest)) (ofElements? elements) (Spaced more) := by
  rw [bind_assoc]
  refine (readElement_yields reads_double 0 _ elements spaced).bind fun percent rest spaced => ?_
  dsimp only
  rw [bind_assoc]
  refine (readElement_yields reads_integer 1 _ elements.tail spaced).bind fun free rest spaced => ?_
  have total := readElement?_yields reads_size 2 elements.tail.tail spaced
  generalize elements.tail.tail = sizes at total spaced ⊢
  dsimp only
  rw [bind_assoc]
  cases sizes with
  | nil =>
    obtain ⟨rest, found, spaced⟩ := total
    rw [found]
    exact closeList_yields [] _ spaced
  | cons t sizes =>
    refine total.bind_map fun total rest spaced => ?_
    dsimp only
    rw [bind_assoc]
    refine (readElement?_yields reads_size 3 sizes spaced).bind fun used rest spaced => ?_
    exact closeList_yields sizes.tail _ spaced

theorem reads_mount : Reads MountReport.read ofTree? :=
  reads_record "struct MountUsage" (fun members _ _ spaced => read_members members spaced)
    fun elements _ _ spaced => read_elements elements spaced

end MountReport

namespace Report

variable {more : List Bytes} {bytes : Bytes}

def mounts? : Tree → Option (List (String × MountReport)) := Tree.map? MountReport.ofTree?

def ofMembers? (members : List (Spelling × Tree)) : Option Report := do
  guard (areTexts members)
  let node ← field? Tree.text? "node_id" members
  let mounts ← field? mounts? "usage" members
  return ⟨← node, ← mounts⟩

def ofElements? (elements : List Tree) : Option Report := do
  let node ← elements.head?.bind Tree.text?
  let mounts ← elements.tail.head?.bind mounts?
  guard (elements.tail.tail = [])
  return ⟨node, mounts⟩

def ofTree? : Tree → Option Report := Tree.record? ofMembers? ofElements?

def step? (name : String) (p : Partial) (t : Tree) : Option Partial :=
  if name = "node_id" then (fill? p.node t.text?).map fun node => { p with node }
  else if name = "usage" then (fill? p.mounts (mounts? t)).map fun mounts => { p with mounts }
  else some p

theorem reads_mounts : Reads (readMap MountReport.read) mounts? := reads_map MountReport.reads_mount

theorem reads_member : ReadsMember readMember step? := by
  intro name p t more bytes closed spaced
  unfold readMember step?
  dsimp only
  split
  · exact (fill_yields name p.node reads_text t closed spaced).map _
  · split
    · exact (fill_yields name p.mounts reads_mounts t closed spaced).map _
    · exact skipMember_yields name p t closed spaced

theorem foldNamed?_step (p : Partial) (members : List (Spelling × Tree)) :
    foldNamed? step? p members = (do
      guard (areTexts members)
      let node ← fillAll? Tree.text? p.node (named "node_id" members)
      let mounts ← fillAll? mounts? p.mounts (named "usage" members)
      return ⟨node, mounts⟩) := by
  induction members generalizing p with
  | nil => rfl
  | cons m members ih =>
    obtain ⟨spelling, t⟩ := m
    unfold foldNamed?
    cases spelled : spelling.text? with
    | none => simp [areTexts, spelled]
    | some name =>
      have texts : areTexts ((spelling, t) :: members) = areTexts members := by simp [areTexts, spelled]
      rw [texts, Option.bind_some]
      by_cases node : name = "node_id"
      · subst node
        have step : step? "node_id" p t = (fill? p.node t.text?).map fun node => { p with node } := rfl
        rw [step, named_here t members spelled, named_other t members spelled (by decide), fillAll?]
        cases fill? p.node t.text? <;> simp [ih]
      · by_cases usage : name = "usage"
        · subst usage
          have step : step? "usage" p t = (fill? p.mounts (mounts? t)).map fun mounts => { p with mounts } := rfl
          rw [step, named_other t members spelled node, named_here t members spelled, fillAll?]
          cases fill? p.mounts (mounts? t) <;> simp [ih]
        · have step : step? name p t = some p := by simp [step?, node, usage]
          rw [step, named_other t members spelled node, named_other t members spelled usage]
          exact ih p

def complete? (p : Partial) : Option Report := do
  return ⟨← p.node, ← p.mounts⟩

theorem ofMembers?_fold (members : List (Spelling × Tree)) :
    ofMembers? members = (foldNamed? step? ⟨none, none⟩ members).bind complete? := by
  rw [foldNamed?_step]
  simp [fillAll?_none, ofMembers?, complete?, Option.bind_assoc]

theorem read_members (members : List (Spelling × Tree)) (spaced : Spaced (memberTokens true members ++ more) bytes) :
    Yields (do
      let (p, rest) ← readMembers readMember ⟨none, none⟩ bytes
      let node ← require "node_id" p.node rest
      let mounts ← require "usage" p.mounts rest
      return (⟨node, mounts⟩, rest)) (ofMembers? members) (Spaced more) := by
  rw [ofMembers?_fold]
  refine (readMembers_yields reads_member members _ spaced).bind fun p rest spaced => ?_
  obtain ⟨node, mounts⟩ := p
  cases node with
  | none => exact ⟨_, rfl⟩
  | some node =>
    cases mounts with
    | none => exact ⟨_, rfl⟩
    | some mounts => exact .value _ spaced

theorem read_elements (elements : List Tree) (spaced : Spaced (elementTokens true elements ++ more) bytes) :
    Yields (do
      let (value, rest) ← (do
        let expected := "struct UsageEvent with 2 elements"
        let (node, rest) ← readElement 0 expected readText bytes
        let (mounts, rest) ← readElement 1 expected (readMap MountReport.read) rest
        return ((⟨node, mounts⟩ : Report), rest))
      let rest ← closeList rest
      return (value, rest)) (ofElements? elements) (Spaced more) := by
  rw [bind_assoc]
  refine (readElement_yields reads_text 0 _ elements spaced).bind fun node rest spaced => ?_
  dsimp only
  rw [bind_assoc]
  refine (readElement_yields reads_mounts 1 _ elements.tail spaced).bind fun mounts rest spaced => ?_
  exact closeList_yields elements.tail.tail _ spaced

theorem reads_report : Reads Report.read ofTree? :=
  reads_record "struct UsageEvent" (fun members _ _ spaced => read_members members spaced)
    fun elements _ _ spaced => read_elements elements spaced

end Report

-- What becomes of a payload that is well-formed, whatever its layout.
theorem Snapshot.decode_tree (t : Tree) {payload : Bytes} (spaced : Spaced t.tokens payload) :
    match Report.ofTree? t with
    | some report => Snapshot.decode payload = report.toSnapshot
    | none => ∃ e, Snapshot.decode payload = .error (.json e) := by
  have document := readDocument_tree Report.reads_report t spaced
  unfold Snapshot.decode Report.ofBytes
  cases meaning : Report.ofTree? t with
  | none =>
    rw [meaning] at document
    obtain ⟨e, failed⟩ := document
    rw [failed]
    exact ⟨e, rfl⟩
  | some report =>
    rw [meaning] at document
    rw [document]
    rfl

end DiskGauge

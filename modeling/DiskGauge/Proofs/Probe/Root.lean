import DiskGauge.Proofs.Usage.Exchange

namespace DiskGauge

namespace Path

-- A name for the root: slashes, and nothing but single points between them.
def NamesRoot (name : String) : Prop :=
  name.toList.head? = some '/' ∧ ∀ piece ∈ Text.split '/' name.toList, piece = [] ∨ piece = ['.']

instance {name : String} : Decidable (NamesRoot name) := inferInstanceAs (Decidable (_ ∧ _))

theorem ofText_root (name : String) : ofText name = ofText rootMount ↔ NamesRoot name := by
  have root : ofText rootMount = ⟨true, []⟩ := by decide
  rw [root]
  unfold ofText ofChars NamesRoot
  by_cases rooted : name.toList.head? = some '/'
  · simp [rooted, List.filter_eq_nil_iff, or_iff_not_imp_left]
  · simp [rooted]

end Path

namespace Probe

def Disk.measure (disk : Disk) : Sample := .ofSpace disk.total disk.available

variable {disks : List Disk} {mounts : List String} {samples : List (String × Sample)} {name mount : String}
  {disk : Disk} {sample : Sample}

-- Names of one place lead to one disk.
theorem findDisk?_names (names : Path.NamesRoot name) : findDisk? disks name = findDisk? disks rootMount := by
  unfold findDisk?
  rw [(Path.ofText_root name).mpr names]

theorem mem_collect (collected : collect disks mounts = .ok samples) :
    (mount, sample) ∈ samples ↔ mount ∈ mounts ∧ ∃ disk, findDisk? disks mount = some disk ∧ disk.measure = sample := by
  unfold collect at collected
  dsimp only at collected
  split at collected
  · cases collected
  · obtain rfl := Except.ok.inj collected
    simp [Disk.measure]

-- However often a mount is configured, all its entries are the same.
theorem lookup_collect (collected : collect disks mounts = .ok samples) (mount : String) :
    samples.reverse.lookup mount = if mount ∈ mounts then (findDisk? disks mount).map Disk.measure else none := by
  cases found : samples.reverse.lookup mount with
  | some sample =>
    have member := List.mem_reverse.mp (Keyed.mem_of_lookup found)
    obtain ⟨configured, disk, here, rfl⟩ := (mem_collect collected).mp member
    rw [if_pos configured, here]
    rfl
  | none =>
    split
    · next configured =>
      cases here : findDisk? disks mount with
      | none => rfl
      | some disk =>
        have member := List.mem_reverse.mpr ((mem_collect collected).mpr ⟨configured, disk, here, rfl⟩)
        exact absurd rfl (Keyed.absent_of_lookup found _ member)
    · rfl

theorem tick_ok_iff {c : Config} {message : Message} :
    c.tick disks = .ok message ↔ ∃ samples, collect disks c.mounts = .ok samples ∧ c.report samples = message := by
  unfold Config.tick
  cases collect disks c.mounts with
  | error e => simp
  | ok samples => simp

open Measurement in
-- The entry for the root is the one of the disk that is found under the root's own name.
theorem decode_report (c : Config) (fits : ∀ disk ∈ disks, disk.total < twoTo 63)
    (collected : collect disks c.mounts = .ok samples) :
    Snapshot.decode (c.report samples).payload =
      match if rootMount ∈ c.mounts then findDisk? disks rootMount else none with
      | none => .error (.missingRoot c.node)
      | some disk => .ok ⟨c.node, disk.measure.percent, disk.measure.free⟩ := by
  have sampled : ∀ e ∈ (ofSamples c.node samples).samples, ∃ disk ∈ disks, disk.measure = e.2 := by
    intro e member
    have found := Keyed.lookup_of_mem (distinct_ofSamples c.node samples) member
    rw [lookup_ofSamples] at found
    obtain ⟨_, disk, here, same⟩ := (mem_collect collected).mp (List.mem_reverse.mp (Keyed.mem_of_lookup found))
    exact ⟨disk, List.mem_of_find?_eq_some here, same⟩
  have measured : ∀ e ∈ (ofSamples c.node samples).samples, e.2.Measured := by
    intro e member
    obtain ⟨disk, present, same⟩ := sampled e member
    rw [← same]
    exact Sample.measured_ofSpace (Nat.lt_trans (fits disk present) (twoTo_lt (by decide))) _
  have small : ∀ e ∈ (ofSamples c.node samples).samples, e.2.total < twoTo 63 := by
    intro e member
    obtain ⟨disk, present, same⟩ := sampled e member
    rw [← same]
    exact fits disk present
  refine (decode_payload (distinct_ofSamples c.node samples) measured small).trans ?_
  rw [lookup_ofSamples, lookup_collect collected]
  by_cases configured : rootMount ∈ c.mounts
  · rw [if_pos configured, if_pos configured]
    cases findDisk? disks rootMount <;> rfl
  · rw [if_neg configured, if_neg configured]
    rfl

structure RootShown (c : Config) (disk : Disk) (samples : List (String × Sample))
    (decoded : Except Rejection Snapshot) : Prop where
  -- The root is sampled under each of its names that is configured.
  sampled : ∀ name ∈ c.mounts, Path.NamesRoot name → (name, disk.measure) ∈ samples
  shown : rootMount ∈ c.mounts → decoded = .ok ⟨c.node, disk.measure.percent, (min disk.available disk.total : Nat)⟩
  -- No other name for it will do.
  unseen : rootMount ∉ c.mounts → decoded = .error (.missingRoot c.node)

theorem tick_root (c : Config) {message : Message} (fits : ∀ disk ∈ disks, disk.total < twoTo 63)
    (root : findDisk? disks rootMount = some disk) (ticked : c.tick disks = .ok message) :
    ∃ samples, collect disks c.mounts = .ok samples ∧ RootShown c disk samples (Snapshot.decode message.payload) := by
  obtain ⟨samples, collected, rfl⟩ := tick_ok_iff.mp ticked
  have decoded := decode_report c fits collected
  refine ⟨samples, collected, ?_⟩
  constructor
  case sampled =>
    intro name configured names
    exact (mem_collect collected).mpr ⟨configured, disk, (findDisk?_names names).trans root, rfl⟩
  case shown =>
    intro configured
    rw [decoded, if_pos configured, root]
    rfl
  case unseen =>
    intro missing
    rw [decoded, if_neg missing]

-- A node with one disk, and a probe that is to watch it under some names.
def only : Disk := ⟨"/", 100, 10⟩

def watching (mounts : List String) : Config := ⟨⟨"127.0.0.1", 1883, none, 30, usageTopic⟩, "n1", 10, mounts⟩

theorem only_fits : ∀ disk ∈ [only], disk.total < twoTo 63 := by
  intro disk member
  obtain rfl := List.mem_singleton.mp member
  decide

theorem root_spelt_twice : ∃ message, (watching ["//", "/"]).tick [only] = .ok message ∧
    ∃ samples, collect [only] ["//", "/"] = .ok samples ∧
      RootShown (watching ["//", "/"]) only samples (Snapshot.decode message.payload) := by
  have collected : collect [only] (watching ["//", "/"]).mounts =
      .ok [("//", only.measure), ("/", only.measure)] := rfl
  have ticked := tick_ok_iff.mpr ⟨_, collected, rfl⟩
  exact ⟨_, ticked, tick_root (watching ["//", "/"]) only_fits rfl ticked⟩

-- The disk at the root is found and its sample is reported, but nothing of it is shown.
theorem root_misspelt : Path.NamesRoot "//" ∧ collect [only] ["//"] = .ok [("//", only.measure)] ∧
    ∃ message, (watching ["//"]).tick [only] = .ok message ∧
      Snapshot.decode message.payload = .error (.missingRoot "n1") := by
  have collected : collect [only] (watching ["//"]).mounts = .ok [("//", only.measure)] := rfl
  refine ⟨by decide, collected, _, tick_ok_iff.mpr ⟨_, collected, rfl⟩, ?_⟩
  exact decode_report (watching ["//"]) only_fits collected

end Probe

end DiskGauge

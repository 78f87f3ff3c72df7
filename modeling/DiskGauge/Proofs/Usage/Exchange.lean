import DiskGauge.Probe.Start
import DiskGauge.Proofs.Json.Members
import DiskGauge.Proofs.Usage.Percent
import DiskGauge.Usage.Report

namespace DiskGauge
open Json Utf8

variable {rest : Bytes}

-- Whether a reader of integers takes a number as one that might be missing.
theorem readOptional_written {n : Nat} (fits : n < twoTo 63) (ends : Ends rest) :
    readOptional readInteger (encode (Value.ofNat n).chars ++ rest) = .ok (some (n : Int), rest) := by
  have wide := Nat.lt_trans fits (twoTo_lt (by decide : 63 < 64))
  change readOptional readInteger (encode (integerChars n) ++ rest) = _
  rw [readOptional_number (readNumber_natural wide ends), readInteger_written fits ends]
  rfl

theorem readOptional_large {n : Nat} (fits : n < twoTo 64) (large : twoTo 63 ≤ n) (ends : Ends rest) :
    ∃ stop, readOptional readInteger (encode (Value.ofNat n).chars ++ rest) = .error stop := by
  change ∃ stop, readOptional readInteger (encode (integerChars n) ++ rest) = .error stop
  rw [readOptional_number (readNumber_natural fits ends), readInteger_large fits large ends]
  exact ⟨_, rfl⟩

namespace Sample

-- What is measured on a disk: the used and the free bytes add up to all of them, so that they fit where
-- those fit, and the percentage is read as it was written.
structure Measured (s : Sample) : Prop where
  free : s.free ≤ s.total
  used : s.used ≤ s.total
  total : s.total < twoTo 64
  percent : reread? s.percent = some s.percent
  inRange : Snapshot.percentInRange s.percent = true

theorem measured_ofSpace {total : Nat} (fits : total < twoTo 64) (available : Nat) :
    (ofSpace total available).Measured := by
  have used : total - min available total ≤ total := Nat.sub_le ..
  exact ⟨Nat.min_le_right .., used, fits, reread?_percentOf used fits, percentInRange_percentOf used fits⟩

def entry (s : Sample) : MountReport := ⟨s.percent, s.free, some s.total, some s.used⟩

open MountReport in
theorem takes_members {s : Sample} (measured : s.Measured) (fits : s.total < twoTo 63) :
    TakesAll readMember ⟨none, none, none, none⟩
      [("used_percent", .ofDouble s.percent), ("free", .ofNat s.free), ("total", .ofNat s.total),
        ("used", .ofNat s.used)]
      ⟨some s.percent, some s.free, some (some s.total), some (some s.used)⟩ := by
  have freeFits := Nat.lt_of_le_of_lt measured.free fits
  have usedFits := Nat.lt_of_le_of_lt measured.used fits
  refine .next (takes_fill (fun percent => ⟨percent, none, none, none⟩) (fun _ => rfl) fun _ ends =>
    readDouble_written measured.percent ends) ?_
  refine .next (takes_fill (fun free => ⟨some s.percent, free, none, none⟩) (fun _ => rfl) fun _ ends =>
    readInteger_written freeFits ends) ?_
  refine .next (takes_fill (fun total => ⟨some s.percent, some s.free, total, none⟩) (fun _ => rfl) fun _ ends =>
    readOptional_written fits ends) ?_
  refine .next (takes_fill (fun used => ⟨some s.percent, some s.free, some (some s.total), used⟩) (fun _ => rfl)
    fun _ ends => readOptional_written usedFits ends) ?_
  exact .done _

open MountReport in
theorem refuses_members {s : Sample} (measured : s.Measured) (large : twoTo 63 ≤ s.total) :
    RefusesOne readMember ⟨none, none, none, none⟩
      [("used_percent", .ofDouble s.percent), ("free", .ofNat s.free), ("total", .ofNat s.total),
        ("used", .ofNat s.used)] := by
  refine .later (takes_fill (fun percent => ⟨percent, none, none, none⟩) (fun _ => rfl) fun _ ends =>
    readDouble_written measured.percent ends) ?_
  rcases Nat.lt_or_ge s.free (twoTo 63) with freeFits | freeLarge
  · refine .later (takes_fill (fun free => ⟨some s.percent, free, none, none⟩) (fun _ => rfl) fun _ ends =>
      readInteger_written freeFits ends) ?_
    exact .here _ (refuses_fill (fun total => ⟨some s.percent, some s.free, total, none⟩) (fun _ => rfl)
      fun _ ends => readOptional_large measured.total large ends)
  · have freeFits := Nat.lt_of_le_of_lt measured.free measured.total
    exact .here _ (refuses_fill (fun free => ⟨some s.percent, free, none, none⟩) (fun _ => rfl)
      fun _ ends => ⟨_, readInteger_large freeFits freeLarge ends⟩)

theorem read_toJson {s : Sample} (measured : s.Measured) (fits : s.total < twoTo 63) (rest : Bytes) :
    MountReport.read (encode s.toJson.chars ++ rest) = .ok (s.entry, rest) := by
  unfold MountReport.read toJson
  rw [encode_object, readRecord_object, readMembers_taken (takes_members measured fits)]
  rfl

theorem read_toJson_large {s : Sample} (measured : s.Measured) (large : twoTo 63 ≤ s.total) (rest : Bytes) :
    ∃ stop, MountReport.read (encode s.toJson.chars ++ rest) = .error stop := by
  obtain ⟨stop, refused⟩ := readMembers_refused (refuses_members measured large) rest
  refine ⟨stop, ?_⟩
  unfold MountReport.read toJson
  rw [encode_object, readRecord_object, refused]
  rfl

end Sample

namespace Measurement

def members (samples : List (String × Sample)) : List (String × Value) :=
  samples.map fun entry => (entry.1, entry.2.toJson)

def entries (samples : List (String × Sample)) : List (String × MountReport) :=
  samples.map fun entry => (entry.1, entry.2.entry)

theorem takes_samples {samples : List (String × Sample)} (measured : ∀ e ∈ samples, e.2.Measured)
    (fits : ∀ e ∈ samples, e.2.total < twoTo 63) (before : List (String × MountReport)) :
    TakesAll (readMap.entry MountReport.read) before (members samples) ((entries samples).reverse ++ before) := by
  induction samples generalizing before with
  | nil => exact .done _
  | cons e samples ih =>
    have here := Sample.read_toJson (measured e (List.mem_cons_self ..)) (fits e (List.mem_cons_self ..))
    have later := ih (fun d member => measured d (List.mem_cons_of_mem _ member))
      (fun d member => fits d (List.mem_cons_of_mem _ member)) ((e.1, e.2.entry) :: before)
    have order : (entries (e :: samples)).reverse ++ before = (entries samples).reverse ++ (e.1, e.2.entry) :: before := by
      simp [entries]
    rw [order]
    exact .next (takes_entry before fun rest _ => here rest) later

theorem refuses_samples {samples : List (String × Sample)} (measured : ∀ e ∈ samples, e.2.Measured)
    (large : ∃ e ∈ samples, twoTo 63 ≤ e.2.total) (before : List (String × MountReport)) :
    RefusesOne (readMap.entry MountReport.read) before (members samples) := by
  induction samples generalizing before with
  | nil => simp at large
  | cons e samples ih =>
    have here := measured e (List.mem_cons_self ..)
    rcases Nat.lt_or_ge e.2.total (twoTo 63) with fits | big
    · refine .later (takes_entry before fun rest _ => Sample.read_toJson here fits rest) ?_
      refine ih (fun d member => measured d (List.mem_cons_of_mem _ member)) ?_ _
      obtain ⟨d, member, bigger⟩ := large
      rcases List.mem_cons.mp member with rfl | behind
      · exact absurd bigger (Nat.not_le.mpr fits)
      · exact ⟨d, behind, bigger⟩
    · exact .here _ (refuses_entry before fun rest _ => Sample.read_toJson_large here big rest)

theorem read_samples {samples : List (String × Sample)} (measured : ∀ e ∈ samples, e.2.Measured)
    (fits : ∀ e ∈ samples, e.2.total < twoTo 63) (rest : Bytes) :
    readMap MountReport.read (encode (Value.object (members samples)).chars ++ rest) =
      .ok (entries samples, rest) := by
  have taken := readMembers_taken (takes_samples measured fits []) rest
  rw [encode_object, readMap_object, taken]
  simp [bind, Except.bind, pure, Except.pure]

theorem read_samples_large {samples : List (String × Sample)} (measured : ∀ e ∈ samples, e.2.Measured)
    (large : ∃ e ∈ samples, twoTo 63 ≤ e.2.total) (rest : Bytes) :
    ∃ stop, readMap MountReport.read (encode (Value.object (members samples)).chars ++ rest) = .error stop := by
  obtain ⟨stop, refused⟩ := readMembers_refused (refuses_samples measured large []) rest
  refine ⟨stop, ?_⟩
  rw [encode_object, readMap_object, refused]
  rfl

theorem payload_object (m : Measurement) :
    m.payload = encode (Value.object [("node_id", .text m.node), ("usage", .object (members m.samples))]).chars ++
      [] := by
  rw [List.append_nil]
  rfl

theorem ofBytes_payload (m : Measurement) (measured : ∀ e ∈ m.samples, e.2.Measured)
    (fits : ∀ e ∈ m.samples, e.2.total < twoTo 63) :
    Report.ofBytes m.payload = .ok ⟨m.node, entries m.samples⟩ := by
  have taken : TakesAll Report.readMember ⟨none, none⟩
      [("node_id", .text m.node), ("usage", .object (members m.samples))]
      ⟨some m.node, some (entries m.samples)⟩ := by
    refine .next (takes_fill (fun node => ⟨node, none⟩) (fun _ => rfl) fun rest _ =>
      readText_written m.node rest) ?_
    refine .next (takes_fill (fun mounts => ⟨some m.node, mounts⟩) (fun _ => rfl) fun rest _ =>
      read_samples measured fits rest) ?_
    exact .done _
  have document : Report.read m.payload = .ok (⟨m.node, entries m.samples⟩, []) := by
    rw [payload_object]
    unfold Report.read
    rw [encode_object, readRecord_object, readMembers_taken taken]
    rfl
  unfold Report.ofBytes readDocument
  rw [document]
  rfl

theorem ofBytes_payload_large (m : Measurement) (measured : ∀ e ∈ m.samples, e.2.Measured)
    (large : ∃ e ∈ m.samples, twoTo 63 ≤ e.2.total) :
    ∃ error, Report.ofBytes m.payload = .error (.json error) := by
  have refused : RefusesOne Report.readMember ⟨none, none⟩
      [("node_id", .text m.node), ("usage", .object (members m.samples))] := by
    refine .later (takes_fill (fun node => ⟨node, none⟩) (fun _ => rfl) fun rest _ =>
      readText_written m.node rest) ?_
    exact .here _ (refuses_fill (fun mounts => ⟨some m.node, mounts⟩) (fun _ => rfl) fun rest _ =>
      read_samples_large measured large rest)
  obtain ⟨stop, failed⟩ := readMembers_refused refused []
  have document : Report.read m.payload = .error stop := by
    rw [payload_object]
    unfold Report.read
    rw [encode_object, readRecord_object, failed]
    rfl
  refine ⟨stop.locate m.payload, ?_⟩
  unfold Report.ofBytes readDocument
  rw [document]
  rfl

-- With each mount once, the last entry for a mount is the only one.
theorem find?_entries (node mount : String) {samples : List (String × Sample)} (distinct : Keyed.Distinct samples) :
    (⟨node, entries samples⟩ : Report).find? mount = (samples.lookup mount).map Sample.entry := by
  cases found : samples.lookup mount with
  | none =>
    apply Report.find?_none
    intro entry member
    obtain ⟨e, old, rfl⟩ := List.mem_map.mp member
    exact Keyed.absent_of_lookup found e old
  | some sample =>
    obtain ⟨front, back, rfl, _⟩ := Keyed.split_of_lookup found
    have once : mount ∉ back.map Prod.fst := by
      simp only [Keyed.Distinct, List.map_append, List.map_cons, List.nodup_append, List.nodup_cons] at distinct
      exact distinct.2.1.1
    have parts : entries (front ++ (mount, sample) :: back) = entries front ++ (mount, sample.entry) :: entries back := by
      simp [entries]
    refine Report.find?_last parts fun entry member same => ?_
    obtain ⟨e, old, rfl⟩ := List.mem_map.mp member
    exact once (List.mem_map.mpr ⟨e, old, same⟩)

end Measurement

-- A mount of a node, with the total and the available bytes of its disk.
structure Space where
  mount : String
  total : UInt64
  available : UInt64
deriving DecidableEq, Repr

def Space.measure (space : Space) : String × Sample :=
  (space.mount, Sample.ofSpace space.total.toNat space.available.toNat)

-- What is measured for a mount. Of repeated mounts the last one counts.
def usage? (spaces : List Space) (mount : String) : Option Sample :=
  (spaces.map Space.measure).reverse.lookup mount

structure Understood (node : String) (spaces : List Space) (decoded : Except Rejection Snapshot) : Prop where
  -- The root's own figures, to the last bit of the percentage.
  root (root : Sample) : (∀ mount sample, usage? spaces mount = some sample → sample.total < twoTo 63) →
    usage? spaces rootMount = some root → decoded = .ok ⟨node, root.percent, root.free⟩
  rootless : (∀ mount sample, usage? spaces mount = some sample → sample.total < twoTo 63) →
    usage? spaces rootMount = none → decoded = .error (.missingRoot node)
  -- Any disk that is too large for a signed number spoils the report, be it the root's or not.
  oversized (mount : String) (sample : Sample) : usage? spaces mount = some sample → twoTo 63 ≤ sample.total →
    ∃ error, decoded = .error (.json error)
  notNegative (other : String) (free : Int) : decoded ≠ .error (.negativeFree other free)
  notOutOfRange (other : String) (percent : Double) : decoded ≠ .error (.percentOutOfRange other percent)

namespace Measurement

theorem measured_ofSamples (node : String) (spaces : List Space) :
    ∀ e ∈ (ofSamples node (spaces.map Space.measure)).samples, e.2.Measured := by
  intro e member
  have found := Keyed.lookup_of_mem (distinct_ofSamples node _) member
  rw [lookup_ofSamples] at found
  obtain ⟨space, _, same⟩ := List.mem_map.mp (List.mem_reverse.mp (Keyed.mem_of_lookup found))
  have sample : e.2 = Sample.ofSpace space.total.toNat space.available.toNat := (congrArg Prod.snd same).symm
  rw [sample]
  exact Sample.measured_ofSpace space.total.toNat_lt _

theorem toSnapshot_entries (node : String) {samples : List (String × Sample)} (distinct : Keyed.Distinct samples)
    (measured : ∀ e ∈ samples, e.2.Measured) :
    (⟨node, entries samples⟩ : Report).toSnapshot =
      match samples.lookup rootMount with
      | none => .error (.missingRoot node)
      | some root => .ok ⟨node, root.percent, root.free⟩ := by
  unfold Report.toSnapshot
  rw [find?_entries node rootMount distinct]
  cases found : samples.lookup rootMount with
  | none => rfl
  | some root =>
    have inRange := (measured _ (Keyed.mem_of_lookup found)).inRange
    have valid : (⟨node, root.percent, root.free⟩ : Snapshot).validate = .ok () := by
      unfold Snapshot.validate
      rw [if_neg (Int.not_lt.mpr (Int.natCast_nonneg _)), if_pos inRange]
    simp only [Option.map_some, Sample.entry, valid]

theorem decode_payload {m : Measurement} (distinct : Keyed.Distinct m.samples)
    (measured : ∀ e ∈ m.samples, e.2.Measured) (fits : ∀ e ∈ m.samples, e.2.total < twoTo 63) :
    Snapshot.decode m.payload =
      match m.samples.lookup rootMount with
      | none => .error (.missingRoot m.node)
      | some root => .ok ⟨m.node, root.percent, root.free⟩ := by
  unfold Snapshot.decode
  rw [ofBytes_payload m measured fits]
  exact toSnapshot_entries m.node distinct measured

theorem decode_payload_large {m : Measurement} (measured : ∀ e ∈ m.samples, e.2.Measured)
    (large : ∃ e ∈ m.samples, twoTo 63 ≤ e.2.total) :
    ∃ error, Snapshot.decode m.payload = .error (.json error) := by
  obtain ⟨error, spoiled⟩ := ofBytes_payload_large m measured large
  refine ⟨error, ?_⟩
  unfold Snapshot.decode
  rw [spoiled]

end Measurement

open Measurement in
theorem report_understood (c : Probe.Config) (spaces : List Space) :
    Understood c.node spaces (Snapshot.decode (c.report (spaces.map Space.measure)).payload) := by
  have distinct := distinct_ofSamples c.node (spaces.map Space.measure)
  have measured := measured_ofSamples c.node spaces
  have looked (mount : String) : _ = usage? spaces mount := lookup_ofSamples c.node (spaces.map Space.measure) mount
  have node : (ofSamples c.node (spaces.map Space.measure)).node = c.node := rfl
  change Understood c.node spaces (Snapshot.decode (ofSamples c.node (spaces.map Space.measure)).payload)
  generalize ofSamples c.node (spaces.map Space.measure) = m at distinct measured looked node ⊢
  rw [← node]
  by_cases fits : ∀ e ∈ m.samples, e.2.total < twoTo 63
  · rw [decode_payload distinct measured fits, looked rootMount]
    constructor
    case root =>
      intro root _ found
      rw [found]
    case rootless =>
      intro _ missing
      rw [missing]
    case oversized =>
      intro mount sample found large
      rw [← looked mount] at found
      exact absurd large (Nat.not_le.mpr (fits _ (Keyed.mem_of_lookup found)))
    case notNegative =>
      intro other free refused
      split at refused <;> cases refused
    case notOutOfRange =>
      intro other percent refused
      split at refused <;> cases refused
  · obtain ⟨e, member, large⟩ : ∃ e ∈ m.samples, twoTo 63 ≤ e.2.total := by simpa using fits
    have own := looked e.1
    rw [Keyed.lookup_of_mem distinct member] at own
    obtain ⟨error, spoiled⟩ := decode_payload_large measured ⟨e, member, large⟩
    rw [spoiled]
    constructor
    case root =>
      intro root all _
      exact absurd large (Nat.not_le.mpr (all e.1 e.2 own.symm))
    case rootless =>
      intro all _
      exact absurd large (Nat.not_le.mpr (all e.1 e.2 own.symm))
    case oversized =>
      intro _ _ _ _
      exact ⟨error, rfl⟩
    case notNegative =>
      intro other free refused
      cases refused
    case notOutOfRange =>
      intro other percent refused
      cases refused

end DiskGauge

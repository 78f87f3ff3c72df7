import DiskGauge.Proofs.Station.Upkeep

namespace DiskGauge

namespace Station
variable {s : Station} {key other : Nat} {act : Gauge → Gauge × List Stroke} {g : Gauge} {b : Binding}
  {slot : Slot} {node : Option String} {issued held : List (FeedName × Handle)}

theorem gauge?_touch : (s.touch key act).1.gauge? other =
    if other = key then (s.gauge? other).map fun g => (act g).1 else s.gauge? other := by
  by_cases equal : other = key
  · subst other
    cases found : s.gauge? key with
    | some g => simp [gauge?_touch_self found]
    | none => simp [touch_missing (Option.map_eq_none_iff.mp found), found]
  · simp [gauge?_touch_other equal, equal]

theorem gauge?_touchAll {keys : List Nat} : (touchAll act keys s).1.gauge? key =
    (s.gauge? key).map (fun g => (act g).1)^[keys.count key] := by
  induction keys generalizing s with
  | nil => simp [touchAll]
  | cons first rest ih =>
    simp only [touchAll, ih, gauge?_touch]
    by_cases equal : key = first
    · subst key
      cases s.gauge? first <;> simp
    · simp [equal, Ne.symm equal]

theorem gauge?_unsubscribe? {feed : FeedName} {handle : Option Handle} :
    (s.unsubscribe? feed handle).gauge? key = s.gauge? key := by
  rw [gauge?, gauge?, fixture?, fixture?, gauges_unsubscribe?]

@[simp] theorem bind_feed : (s.bind b slot node).1.feed = b.feed := by
  unfold bind
  split
  · rfl
  · cases node <;> exact Binding.feed_setHandle

@[simp] theorem bind_key : (s.bind b slot node).1.key = b.key := by
  unfold bind
  split
  · rfl
  · cases node <;> exact Binding.key_setHandle

theorem gauge?_bind_other (different : key ≠ b.key) :
    (s.bind b slot node).2.1.gauge? key = s.gauge? key := by
  have told : ((s.unsubscribe? b.feed (b.handle? slot)).touch b.key (·.setSlot slot node)).1.gauge? key =
      s.gauge? key := by
    rw [gauge?_touch_other different, gauge?_unsubscribe?]
  unfold bind
  split
  · rfl
  · cases node with
    | none => exact told
    | some node =>
      refine Eq.trans ?_ told
      simp only [gauge?, fixture?, subscribe, gauges_setFeed]

-- A slot that is bound to its node already stays as it is, like all else.
theorem gauge?_bind_self (slot : Slot) (node : Option String) (told : s.Told b) (found : s.gauge? b.key = some g) :
    ∃ after, (s.bind b slot node).2.1.gauge? b.key = some after ∧ after.thresholds = g.thresholds ∧
      after.slots = g.slots.put slot node ∧ after.last = g.last := by
  by_cases same : (b.handle? slot).map (·.node) = node
  · obtain ⟨_, known, present, slots⟩ := told
    have equal : known = g := Option.some.inj (present.symm.trans found)
    have kept : g.slots.put slot node = g.slots := by
      rw [← same, ← slots slot, equal]
      cases slot <;> rfl
    exact ⟨g, by simpa [bind, same] using found, rfl, kept.symm, rfl⟩
  · have touched : ((s.unsubscribe? b.feed (b.handle? slot)).touch b.key
        (·.setSlot slot node)).1.gauge? b.key = some (g.setSlot slot node).1 :=
      gauge?_touch_self (gauge?_unsubscribe?.trans found)
    refine ⟨(g.setSlot slot node).1, ?_, Gauge.setSlot_thresholds, Gauge.setSlot_slots, Gauge.setSlot_last⟩
    unfold bind
    rw [if_neg same]
    cases node with
    | none => exact touched
    | some node =>
      refine Eq.trans ?_ touched
      simp only [gauge?, fixture?, subscribe, gauges_setFeed]

end Station

def Callback.gauge? : Callback → Option Nat
  | .gauge key => some key
  | .client _ => none

theorem gauges_only {rs : List (Registration Callback)}
    (quiet : ∀ r ∈ rs, ∀ client, r.callback ≠ .client client) :
    rs.map (·.callback) = (rs.filterMap (·.callback.gauge?)).map .gauge := by
  induction rs with
  | nil => rfl
  | cons r rest ih =>
    have later := ih fun r member => quiet r (by simp [member])
    cases called : r.callback with
    | gauge key => simp [called, Callback.gauge?, later]
    | client c => exact absurd called (quiet r (by simp) c)

namespace Session
variable {s : Session} {snapshot : Snapshot} {keys : List Nat}

theorem deliver_gauges {body : String → List Step → Session → Session × List Event} {depth : Nat}
    {rs : List (Registration Callback)} {d : Delivery} (calls : rs.map (·.callback) = keys.map .gauge) :
    (deliver body depth snapshot rs d s).1 = ⟨d.delivered + keys.length, d.failed⟩ ∧
    (deliver body depth snapshot rs d s).2.1 =
      { s with station := (Station.touchAll (·.receive snapshot) keys s.station).1 } := by
  induction keys generalizing rs d s with
  | nil =>
    rw [List.map_eq_nil_iff.mp (calls.trans List.map_nil)]
    exact ⟨rfl, rfl⟩
  | cons key rest ih =>
    cases rs with
    | nil => cases calls
    | cons r others =>
      obtain ⟨first, later⟩ := List.cons.inj calls
      simp only [deliver, first, call, Station.touchAll]
      obtain ⟨delivered, station⟩ := ih (s := { s with station :=
        (s.station.touch key (·.receive snapshot)).1 }) (d := d.count true) later
      rw [delivered, station]
      refine ⟨?_, rfl⟩
      simp only [Delivery.count, if_true, List.length_cons, Delivery.mk.injEq, and_true]
      omega

theorem publish_gauges (nested depth : Nat) (feed : FeedName)
    (calls : ((s.station.feed feed).registrations snapshot.node).map (·.callback) = keys.map .gauge) :
    (publishWithin nested depth feed snapshot s).1 = ⟨keys.length, 0⟩ ∧
    (publishWithin nested depth feed snapshot s).2.1 =
      { s with station := (Station.touchAll (·.receive snapshot) keys s.station).1 } := by
  have counted : (⟨Delivery.none.delivered + keys.length, Delivery.none.failed⟩ : Delivery) =
      ⟨keys.length, 0⟩ := by
    rw [Delivery.none, Nat.zero_add]
  cases nested with
  | zero => exact (deliver_gauges calls).imp_left (·.trans counted)
  | succ nested => exact (deliver_gauges calls).imp_left (·.trans counted)

end Session

end DiskGauge

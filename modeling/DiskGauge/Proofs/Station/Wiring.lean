import DiskGauge.Proofs.Gauge.Coherence
import DiskGauge.Proofs.Station.Listing

namespace DiskGauge

def Slots.node? (slots : Slots) : Slot → Option String
  | .current => slots.current
  | .selected => slots.selected

@[simp] theorem Slots.node?_put_self {slots : Slots} {slot : Slot} {node : Option String} :
    (slots.put slot node).node? slot = node := by
  cases slot <;> rfl

theorem Slots.node?_put_other {slots : Slots} {slot other : Slot} {node : Option String}
    (different : other ≠ slot) : (slots.put slot node).node? other = slots.node? other := by
  cases slot <;> cases other <;> first | rfl | exact absurd rfl different

theorem Slots.shows_iff {slots : Slots} {node : String} :
    slots.shows node = true ↔ ∃ slot, slots.node? slot = some node := by
  simp only [shows, Bool.or_eq_true, decide_eq_true_eq]
  constructor
  · intro either
    rcases either with current | selected
    · exact ⟨.current, current⟩
    · exact ⟨.selected, selected⟩
  · intro parts
    obtain ⟨slot, shows⟩ := parts
    cases slot with
    | current => exact .inl shows
    | selected => exact .inr shows

def Slots.hits (slots : Slots) (node : String) : Nat :=
  (if slots.current = some node then 1 else 0) + (if slots.selected = some node then 1 else 0)

theorem Binding.length_numbers {b : Binding} {node : String} {slots : Slots}
    (told : ∀ slot, slots.node? slot = (b.handle? slot).map (·.node)) :
    (b.numbers node).length = slots.hits node := by
  have current : slots.current = b.current.map (·.node) := told .current
  have selected : slots.selected = b.selected.map (·.node) := told .selected
  have one (slot : Slot) : (b.number? node slot).toList.length =
      if (b.handle? slot).map (·.node) = some node then 1 else 0 := by
    unfold Binding.number?
    cases b.handle? slot with
    | none => rfl
    | some h => by_cases same : h.node = node <;> simp [same]
  have split : (b.numbers node).length =
      (b.number? node .current).toList.length + (b.number? node .selected).toList.length := by
    simp only [Binding.numbers, List.filterMap_cons, List.filterMap_nil]
    cases b.number? node .current <;> cases b.number? node .selected <;> rfl
  rw [split, one, one, Slots.hits, current, selected]
  rfl

namespace Station

-- That a gauge is there, and its slots are bound to the nodes of its handles.
def Told (s : Station) (b : Binding) : Prop :=
  b.key ≤ s.lastGauge ∧
    ∃ g, s.gauge? b.key = some g ∧ ∀ slot, g.slots.node? slot = (b.handle? slot).map (·.node)

-- The slots of a binding's gauge, if it is there.
def slotsOf (s : Station) (b : Binding) : Slots :=
  match s.gauge? b.key with
  | some g => g.slots
  | none => ⟨none, none⟩

structure Wired (s : Station) (bs : List Binding) (issued held : List (FeedName × Handle)) : Prop where
  listed : s.Listed bs issued held
  told : ∀ b ∈ bs, s.Told b

variable {s s' : Station} {feed other : FeedName} {node : String} {h handle : Handle}
  {c callback : Callback} {b : Binding} {bs bs' rest : List Binding} {slot : Slot} {key : Nat}
  {issued held : List (FeedName × Handle)} {act : Gauge → Gauge × List Stroke}

namespace Told

theorem same (told : s.Told b) (gauges : s'.gauges = s.gauges) (lastGauge : s'.lastGauge = s.lastGauge) :
    s'.Told b := by
  simpa only [Told, gauge?, fixture?, gauges, lastGauge] using told

theorem slots (told : s.Told b) (slot : Slot) :
    (s.slotsOf b).node? slot = (b.handle? slot).map (·.node) := by
  obtain ⟨_, g, found, slots⟩ := told
  simpa only [slotsOf, found] using slots slot

theorem touch_other (told : s.Told b) (different : b.key ≠ key) : (s.touch key act).1.Told b := by
  simpa only [Told, gauge?_touch_other different, lastGauge_touch] using told

theorem touch (told : s.Told b) (kept : ∀ g, (act g).1.slots = g.slots) :
    (s.touch key act).1.Told b := by
  by_cases equal : b.key = key
  · obtain ⟨bound, g, found, slots⟩ := told
    rw [equal] at found
    refine ⟨by rwa [lastGauge_touch], (act g).1, ?_, by rwa [kept]⟩
    rw [equal]
    exact gauge?_touch_self found
  · exact told.touch_other equal

theorem setSlot {node : Option String} {handle : Option Handle} (told : s.Told b)
    (same : handle.map (·.node) = node) :
    (s.touch b.key (·.setSlot slot node)).1.Told (b.setHandle slot handle) := by
  obtain ⟨bound, g, found, slots⟩ := told
  refine ⟨by simpa using bound, (g.setSlot slot node).1, ?_, ?_⟩
  · rw [Binding.key_setHandle]
    exact gauge?_touch_self found
  · intro other
    rw [Gauge.setSlot_slots]
    by_cases equal : other = slot
    · rw [equal, Slots.node?_put_self, Binding.handle?_setHandle_self, same]
    · rw [Slots.node?_put_other equal, Binding.handle?_setHandle_other equal]
      exact slots other

end Told

namespace Wired

theorem perm (wired : s.Wired bs issued held) (perm : bs.Perm bs') : s.Wired bs' issued held :=
  ⟨wired.listed.perm perm, fun b member => wired.told b (perm.mem_iff.mpr member)⟩

theorem aside (wired : s.Wired bs issued held) (main : s'.main = s.main) (side : s'.side = s.side)
    (gauges : s'.gauges = s.gauges) (lastGauge : s'.lastGauge = s.lastGauge) :
    s'.Wired bs issued held :=
  ⟨wired.listed.congr fun feed => by cases feed <;> assumption,
    fun b member => (wired.told b member).same gauges lastGauge⟩

theorem touch (wired : s.Wired bs issued held) (kept : ∀ g, (act g).1.slots = g.slots) :
    (s.touch key act).1.Wired bs issued held :=
  ⟨wired.listed.congr fun _ => feed_touch, fun b member => (wired.told b member).touch kept⟩

theorem elsewhere (wired : s.Wired (b :: rest) issued held) : ∀ x ∈ rest, x.key ≠ b.key := by
  intro x member equal
  apply (List.nodup_cons.mp wired.listed.keys).1
  simpa only [equal] using List.mem_map_of_mem (f := (·.key)) member

theorem bind (wired : s.Wired (b :: rest) issued held) (slot : Slot) (node : Option String) :
    (s.bind b slot node).2.1.Wired ((s.bind b slot node).1 :: rest) issued held := by
  unfold Station.bind
  split
  · exact wired
  · let cleared := s.unsubscribe? b.feed (b.handle? slot)
    let set := (cleared.touch b.key (·.setSlot slot node)).1
    have told : ∀ x ∈ b :: rest, cleared.Told x := fun x member =>
      (wired.told x member).same gauges_unsubscribe? lastGauge_unsubscribe?
    have others : ∀ x ∈ rest, set.Told x := fun x member =>
      (told x (by simp [member])).touch_other (wired.elsewhere x member)
    have own : ∀ handle : Option Handle, handle.map (·.node) = node → set.Told (b.setHandle slot handle) :=
      fun _ same => (told b (by simp)).setSlot same
    have listed : set.Listed (b.setHandle slot none :: rest) issued held :=
      (wired.listed.clear_slot slot).congr fun _ => feed_touch
    cases node with
    | none =>
      refine ⟨listed, ?_⟩
      intro x member
      rcases List.mem_cons.mp member with rfl | old
      · exact own none rfl
      · exact others x old
    | some node =>
      have filled := listed.fill_slot node Binding.handle?_setHandle_self
      simp only [Binding.feed_setHandle, Binding.key_setHandle, Binding.setHandle_setHandle] at filled
      refine ⟨filled, ?_⟩
      intro x member
      rcases List.mem_cons.mp member with rfl | old
      · exact (own _ rfl).same gauges_setFeed lastGauge_setFeed
      · exact (others x old).same gauges_setFeed lastGauge_setFeed

theorem release (wired : s.Wired (b :: rest) issued held) : (s.release b).Wired rest issued held := by
  have current := wired.listed.clear_slot .current
  have selected := current.clear_slot .selected
  have listed := selected.leave fun slot => by cases slot <;> rfl
  refine ⟨listed.congr fun feed => by cases feed <;> rfl, ?_⟩
  intro x member
  obtain ⟨bound, told⟩ := wired.told x (by simp [member])
  rw [← gauge?_release_other (wired.elsewhere x member)] at told
  exact ⟨by simpa [Station.release] using bound, told⟩

theorem newGauge (wired : s.Wired bs issued held) (feed : FeedName) (name : Option String)
    (thresholds : Thresholds) : (s.newGauge name thresholds).2.Wired
      (⟨feed, (s.newGauge name thresholds).1, none, none⟩ :: bs) issued held := by
  have new : (s.newGauge name thresholds).1 ∉ bs.map (·.key) := by
    intro member
    obtain ⟨b, old, equal⟩ := List.mem_map.mp member
    have bound := (wired.told b old).1
    rw [equal] at bound
    exact Nat.not_succ_le_self _ bound
  refine ⟨(wired.listed.congr fun feed => by cases feed <;> rfl).join new, ?_⟩
  intro x member
  rcases List.mem_cons.mp member with rfl | old
  · exact ⟨Nat.le_refl _, .new thresholds, gauge?_newGauge_self, fun slot => by cases slot <;> rfl⟩
  · obtain ⟨bound, told⟩ := wired.told x old
    have different : x.key ≠ s.lastGauge + 1 := Nat.ne_of_lt (Nat.lt_succ_of_le bound)
    rw [← gauge?_newGauge_other different] at told
    exact ⟨Nat.le_succ_of_le bound, told⟩

theorem subscribe (wired : s.Wired bs issued held) {client : Client} :
    (s.subscribe feed node (.client client)).2.Wired bs
      ((feed, (s.subscribe feed node (.client client)).1) :: issued)
      ((feed, (s.subscribe feed node (.client client)).1) :: held) :=
  ⟨wired.listed.subscribe, fun b member =>
    (wired.told b member).same gauges_setFeed lastGauge_setFeed⟩

theorem unsubscribe (wired : s.Wired bs issued held) (mine : (feed, h) ∈ issued) :
    (s.unsubscribe feed h).2.Wired bs issued (held.filter (· ≠ (feed, h))) :=
  ⟨wired.listed.unsubscribe mine, fun b member =>
    (wired.told b member).same gauges_setFeed lastGauge_setFeed⟩

end Wired

end Station

end DiskGauge

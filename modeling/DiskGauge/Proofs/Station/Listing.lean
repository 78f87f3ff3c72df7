import DiskGauge.Proofs.Feed.Tidy
import DiskGauge.Station.Delivery
import Mathlib.Algebra.GroupWithZero.Nat

namespace DiskGauge

-- That a binding keeps a handle of a feed for a gauge.
def Binding.Holds (b : Binding) (feed : FeedName) (h : Handle) (key : Nat) : Prop :=
  b.feed = feed ∧ b.key = key ∧ ∃ slot, b.handle? slot = some h

-- A slot that was set holds its new handle, and the other slot what it held before.
theorem Binding.holds_setHandle {b : Binding} {slot : Slot} {new : Option Handle} {feed : FeedName}
    {h : Handle} {key : Nat} : (b.setHandle slot new).Holds feed h key ↔
      b.feed = feed ∧ b.key = key ∧ (new = some h ∨ ∃ other, other ≠ slot ∧ b.handle? other = some h) := by
  simp only [Binding.Holds, feed_setHandle, key_setHandle]
  refine and_congr_right fun _ => and_congr_right fun _ => ?_
  constructor
  · intro parts
    obtain ⟨other, his⟩ := parts
    by_cases same : other = slot
    · rw [same, handle?_setHandle_self] at his
      exact .inl his
    · rw [handle?_setHandle_other same] at his
      exact .inr ⟨other, same, his⟩
  · intro either
    rcases either with his | ⟨other, different, his⟩
    · exact ⟨slot, by rwa [handle?_setHandle_self]⟩
    · exact ⟨other, by rwa [handle?_setHandle_other different]⟩

namespace Station

-- That a feed has a callback for a handle, under the handle's node and number.
def Registered (s : Station) (feed : FeedName) (handle : Handle) (callback : Callback) : Prop :=
  ⟨handle.id, callback⟩ ∈ (s.feed feed).registrations handle.node

-- Which registrations the feeds have, for some bindings, all handles ever issued to clients, and
-- those of them that were not given back.
structure Listed (s : Station) (bs : List Binding) (issued held : List (FeedName × Handle)) : Prop where
  tidy : ∀ feed, (s.feed feed).Tidy
  keys : (bs.map (·.key)).Nodup
  apart : ∀ b ∈ bs, ∀ h slot other, b.handle? slot = some h → b.handle? other = some h → slot = other
  gauges : ∀ feed h key, s.Registered feed h (.gauge key) ↔ ∃ b ∈ bs, b.Holds feed h key
  clients : ∀ feed h, (∃ client, s.Registered feed h (.client client)) ↔ (feed, h) ∈ held
  distinct : held.Nodup
  foreign : ∀ e ∈ issued, e.2.id ≤ (s.feed e.1).lastId ∧ ∀ key, ¬s.Registered e.1 e.2 (.gauge key)

variable {s s' : Station} {feed other : FeedName} {node : String} {h handle : Handle}
  {c callback : Callback} {b : Binding} {bs bs' rest : List Binding} {slot : Slot} {key : Nat}
  {issued held : List (FeedName × Handle)}

theorem registered_subscribe : (s.subscribe feed node callback).2.Registered other h c ↔
    s.Registered other h c ∨ other = feed ∧ h = ⟨node, (s.feed feed).lastId + 1⟩ ∧ c = callback := by
  obtain ⟨place, id⟩ := h
  unfold Registered
  by_cases same : other = feed
  · subst other
    rw [feed_subscribe_self]
    by_cases equal : place = node
    · subst place
      simp
    · simp [Feed.registrations_subscribe_other equal, equal]
  · simp [feed_subscribe_other same, same]

theorem registered_unsubscribe : (s.unsubscribe feed handle).2.Registered other h c ↔
    s.Registered other h c ∧ ¬(other = feed ∧ h = handle) := by
  obtain ⟨place, id⟩ := h
  obtain ⟨node, number⟩ := handle
  unfold Registered
  by_cases same : other = feed
  · subst other
    rw [feed_unsubscribe_self]
    by_cases equal : place = node
    · subst place
      have list : ((s.feed feed).unsubscribe ⟨node, number⟩).2.registrations node =
          ((s.feed feed).registrations node).filter fun r => r.id ≠ number :=
        Feed.registrations_unsubscribe_self
      simp [list]
    · have list : ((s.feed feed).unsubscribe ⟨node, number⟩).2.registrations place =
          (s.feed feed).registrations place := Feed.registrations_unsubscribe_other equal
      simp [list, equal]
  · simp [feed_unsubscribe_other same, same]

theorem subscribe_tidy (tidy : ∀ feed, (s.feed feed).Tidy) (other : FeedName) :
    ((s.subscribe feed node callback).2.feed other).Tidy := by
  by_cases same : other = feed
  · subst other
    rw [feed_subscribe_self]
    exact (tidy feed).subscribe
  · rw [feed_subscribe_other same]
    exact tidy other

theorem unsubscribe_tidy (tidy : ∀ feed, (s.feed feed).Tidy) (other : FeedName) :
    ((s.unsubscribe feed handle).2.feed other).Tidy := by
  by_cases same : other = feed
  · subst other
    rw [feed_unsubscribe_self]
    exact (tidy feed).unsubscribe
  · rw [feed_unsubscribe_other same]
    exact tidy other

theorem lastId_subscribe :
    (s.feed other).lastId ≤ ((s.subscribe feed node callback).2.feed other).lastId := by
  by_cases same : other = feed
  · simp [same]
  · rw [feed_subscribe_other same]

theorem lastId_unsubscribe :
    ((s.unsubscribe feed handle).2.feed other).lastId = (s.feed other).lastId := by
  by_cases same : other = feed
  · simp [same]
  · rw [feed_unsubscribe_other same]

namespace Listed

-- A handle belongs to one callback only.
theorem unique (listed : s.Listed bs issued held) {d : Callback} (left : s.Registered feed h c)
    (right : s.Registered feed h d) : c = d :=
  congrArg Registration.callback ((listed.tidy feed).unique left right rfl)

theorem fresh (listed : s.Listed bs issued held) :
    ¬s.Registered feed ⟨node, (s.feed feed).lastId + 1⟩ c := by
  intro registered
  exact Nat.not_succ_le_self _ ((listed.tidy feed).numbered node _ registered)

theorem congr (listed : s.Listed bs issued held) (feeds : ∀ feed, s'.feed feed = s.feed feed) :
    s'.Listed bs issued held := by
  have same : ∀ feed h c, s'.Registered feed h c ↔ s.Registered feed h c := by
    intro feed h c
    rw [Registered, Registered, feeds]
  constructor
  · simpa only [feeds] using listed.tidy
  · exact listed.keys
  · exact listed.apart
  · simpa only [same] using listed.gauges
  · simpa only [same] using listed.clients
  · exact listed.distinct
  · simpa only [feeds, same] using listed.foreign

theorem perm (listed : s.Listed bs issued held) (perm : bs.Perm bs') : s.Listed bs' issued held where
  tidy := listed.tidy
  keys := (perm.map _).nodup_iff.mp listed.keys
  apart := fun b member => listed.apart b (perm.mem_iff.mpr member)
  gauges := by simpa only [perm.mem_iff] using listed.gauges
  clients := listed.clients
  distinct := listed.distinct
  foreign := listed.foreign

-- Handles of clients stay apart from those of gauges, as numbers are never given out again.
theorem foreign_subscribe (listed : s.Listed bs issued held) : ∀ e ∈ issued,
    e.2.id ≤ ((s.subscribe feed node callback).2.feed e.1).lastId ∧
      ∀ key, ¬(s.subscribe feed node callback).2.Registered e.1 e.2 (.gauge key) := by
  intro e member
  obtain ⟨bound, unheld⟩ := listed.foreign e member
  refine ⟨Nat.le_trans bound lastId_subscribe, ?_⟩
  intro key registered
  rcases registered_subscribe.mp registered with old | ⟨same, equal, _⟩
  · exact unheld key old
  · rw [same, equal] at bound
    exact Nat.not_succ_le_self _ bound

theorem foreign_unsubscribe (listed : s.Listed bs issued held) : ∀ e ∈ issued,
    e.2.id ≤ ((s.unsubscribe feed handle).2.feed e.1).lastId ∧
      ∀ key, ¬(s.unsubscribe feed handle).2.Registered e.1 e.2 (.gauge key) := by
  intro e member
  obtain ⟨bound, unheld⟩ := listed.foreign e member
  exact ⟨by rwa [lastId_unsubscribe], fun key registered =>
    unheld key (registered_unsubscribe.mp registered).1⟩

-- The handle of a slot of one binding is no handle of any other, nor of a client.
theorem owner (listed : s.Listed (b :: rest) issued held) (own : b.handle? slot = some h) :
    (∀ x ∈ rest, ∀ key, ¬x.Holds b.feed h key) ∧ (b.feed, h) ∉ held := by
  have mine : s.Registered b.feed h (.gauge b.key) :=
    (listed.gauges _ _ _).mpr ⟨b, by simp, rfl, rfl, slot, own⟩
  constructor
  · intro x member key holds
    have theirs : s.Registered b.feed h (.gauge key) :=
      (listed.gauges _ _ _).mpr ⟨x, by simp [member], holds⟩
    have equal : b.key = x.key := (Callback.gauge.inj (listed.unique mine theirs)).trans holds.2.1.symm
    apply (List.nodup_cons.mp listed.keys).1
    simpa only [equal] using List.mem_map_of_mem (f := (·.key)) member
  · intro member
    obtain ⟨client, registered⟩ := (listed.clients _ _).mpr member
    exact Callback.noConfusion (listed.unique mine registered)

-- The registration of a slot goes with its handle.
theorem drop_slot (listed : s.Listed (b :: rest) issued held) (own : b.handle? slot = some h) :
    (s.unsubscribe b.feed h).2.Listed (b.setHandle slot none :: rest) issued held := by
  obtain ⟨alone, foreign⟩ := listed.owner own
  have one := listed.apart b (by simp)
  constructor
  case tidy => exact unsubscribe_tidy listed.tidy
  case keys => simpa using listed.keys
  case apart =>
    intro x member h slot' other first second
    rcases List.mem_cons.mp member with rfl | old
    · by_cases left : slot' = slot
      · simp [left] at first
      · by_cases right : other = slot
        · simp [right] at second
        · rw [Binding.handle?_setHandle_other left] at first
          rw [Binding.handle?_setHandle_other right] at second
          exact one h slot' other first second
    · exact listed.apart x (by simp [old]) h slot' other first second
  case gauges =>
    intro feed h' key
    rw [registered_unsubscribe, listed.gauges, List.exists_mem_cons_iff, List.exists_mem_cons_iff,
      Binding.holds_setHandle]
    constructor
    · intro parts
      rcases parts with ⟨⟨rfl, rfl, other, his⟩ | old, different⟩
      · refine .inl ⟨rfl, rfl, .inr ⟨other, ?_, his⟩⟩
        rintro rfl
        exact different ⟨rfl, Option.some.inj (his.symm.trans own)⟩
      · exact .inr old
    · intro either
      rcases either with ⟨rfl, rfl, his | ⟨other, apart, his⟩⟩ | ⟨x, member, holds⟩
      · cases his
      · refine ⟨.inl ⟨rfl, rfl, other, his⟩, ?_⟩
        intro parts
        obtain ⟨_, rfl⟩ := parts
        exact apart (one h' other slot his own)
      · refine ⟨.inr ⟨x, member, holds⟩, ?_⟩
        intro parts
        obtain ⟨rfl, rfl⟩ := parts
        exact alone x member key holds
  case clients =>
    intro feed h'
    rw [← listed.clients]
    constructor
    · intro parts
      obtain ⟨client, registered⟩ := parts
      exact ⟨client, (registered_unsubscribe.mp registered).1⟩
    · intro parts
      obtain ⟨client, registered⟩ := parts
      refine ⟨client, registered_unsubscribe.mpr ⟨registered, ?_⟩⟩
      intro parts
      obtain ⟨rfl, rfl⟩ := parts
      exact foreign ((listed.clients _ _).mp ⟨client, registered⟩)
  case distinct => exact listed.distinct
  case foreign => exact listed.foreign_unsubscribe

-- A new handle is unlike all that were issued before.
theorem fill_slot (node : String) (listed : s.Listed (b :: rest) issued held)
    (empty : b.handle? slot = none) : (s.subscribe b.feed node (.gauge b.key)).2.Listed
      (b.setHandle slot (some (s.subscribe b.feed node (.gauge b.key)).1) :: rest) issued held := by
  have new : (s.subscribe b.feed node (.gauge b.key)).1 = ⟨node, (s.feed b.feed).lastId + 1⟩ := rfl
  have absent : ∀ slot, b.handle? slot ≠ some ⟨node, (s.feed b.feed).lastId + 1⟩ := by
    intro slot own
    exact listed.fresh ((listed.gauges _ _ _).mpr ⟨b, by simp, rfl, rfl, slot, own⟩)
  rw [new]
  constructor
  case tidy => exact subscribe_tidy listed.tidy
  case keys => simpa using listed.keys
  case apart =>
    intro x member h slot' other first second
    rcases List.mem_cons.mp member with rfl | old
    · by_cases left : slot' = slot <;> by_cases right : other = slot
      · rw [left, right]
      · rw [left, Binding.handle?_setHandle_self] at first
        rw [Binding.handle?_setHandle_other right, ← first] at second
        exact absurd second (absent other)
      · rw [right, Binding.handle?_setHandle_self] at second
        rw [Binding.handle?_setHandle_other left, ← second] at first
        exact absurd first (absent slot')
      · rw [Binding.handle?_setHandle_other left] at first
        rw [Binding.handle?_setHandle_other right] at second
        exact listed.apart b (by simp) h slot' other first second
    · exact listed.apart x (by simp [old]) h slot' other first second
  case gauges =>
    intro feed h key
    rw [registered_subscribe, listed.gauges, List.exists_mem_cons_iff, List.exists_mem_cons_iff,
      Binding.holds_setHandle]
    constructor
    · intro either
      rcases either with (⟨rfl, rfl, other, his⟩ | old) | ⟨rfl, rfl, equal⟩
      · refine .inl ⟨rfl, rfl, .inr ⟨other, ?_, his⟩⟩
        rintro rfl
        simp [empty] at his
      · exact .inr old
      · exact .inl ⟨rfl, (Callback.gauge.inj equal).symm, .inl rfl⟩
    · intro either
      rcases either with ⟨rfl, rfl, equal | ⟨other, _, his⟩⟩ | old
      · exact .inr ⟨rfl, (Option.some.inj equal).symm, rfl⟩
      · exact .inl (.inl ⟨rfl, rfl, other, his⟩)
      · exact .inl (.inr old)
  case clients =>
    intro feed h
    simp [registered_subscribe, ← listed.clients]
  case distinct => exact listed.distinct
  case foreign => exact listed.foreign_subscribe

-- Bindings without handles come and go unnoticed.
theorem join (listed : s.Listed bs issued held) (new : key ∉ bs.map (·.key)) :
    s.Listed (⟨feed, key, none, none⟩ :: bs) issued held := by
  constructor
  case keys => exact List.nodup_cons.mpr ⟨new, listed.keys⟩
  case apart =>
    intro x member h slot other first second
    rcases List.mem_cons.mp member with rfl | old
    · cases slot <;> cases first
    · exact listed.apart x old h slot other first second
  case gauges =>
    intro feed h key
    rw [listed.gauges, List.exists_mem_cons_iff]
    refine ⟨.inr, ?_⟩
    intro either
    rcases either with ⟨_, _, slot, his⟩ | old
    · cases slot <;> cases his
    · exact old
  case tidy => exact listed.tidy
  case clients => exact listed.clients
  case distinct => exact listed.distinct
  case foreign => exact listed.foreign

theorem leave (listed : s.Listed (b :: rest) issued held) (empty : ∀ slot, b.handle? slot = none) :
    s.Listed rest issued held := by
  constructor
  case keys => exact (List.nodup_cons.mp listed.keys).2
  case apart => exact fun x member => listed.apart x (by simp [member])
  case gauges =>
    intro feed h key
    rw [listed.gauges, List.exists_mem_cons_iff]
    refine ⟨?_, .inr⟩
    intro either
    rcases either with ⟨_, _, slot, his⟩ | old
    · simp [empty] at his
    · exact old
  case tidy => exact listed.tidy
  case clients => exact listed.clients
  case distinct => exact listed.distinct
  case foreign => exact listed.foreign

theorem subscribe (listed : s.Listed bs issued held) {client : Client} :
    (s.subscribe feed node (.client client)).2.Listed bs
      ((feed, (s.subscribe feed node (.client client)).1) :: issued)
      ((feed, (s.subscribe feed node (.client client)).1) :: held) := by
  have new : (s.subscribe feed node (.client client)).1 = ⟨node, (s.feed feed).lastId + 1⟩ := rfl
  rw [new]
  constructor
  case tidy => exact subscribe_tidy listed.tidy
  case keys => exact listed.keys
  case apart => exact listed.apart
  case gauges =>
    intro other h key
    simp [registered_subscribe, ← listed.gauges]
  case clients =>
    intro other h
    simp only [registered_subscribe, List.mem_cons, ← listed.clients]
    constructor
    · intro parts
      rcases parts with ⟨one, old | ⟨rfl, rfl, _⟩⟩
      · exact .inr ⟨one, old⟩
      · exact .inl rfl
    · intro either
      rcases either with equal | ⟨one, old⟩
      · obtain ⟨rfl, rfl⟩ := Prod.mk.inj equal
        exact ⟨client, .inr ⟨rfl, rfl, rfl⟩⟩
      · exact ⟨one, .inl old⟩
  case distinct =>
    refine List.nodup_cons.mpr ⟨?_, listed.distinct⟩
    intro member
    obtain ⟨one, registered⟩ := (listed.clients _ _).mpr member
    exact listed.fresh registered
  case foreign =>
    intro e member
    rcases List.mem_cons.mp member with rfl | old
    · refine ⟨by simp, ?_⟩
      intro key registered
      rcases registered_subscribe.mp registered with before | ⟨_, _, equal⟩
      · exact listed.fresh before
      · exact Callback.noConfusion equal
    · exact listed.foreign_subscribe e old

-- A handle that was issued takes out a client, or nothing if it was given back before.
theorem unsubscribe (listed : s.Listed bs issued held) (mine : (feed, h) ∈ issued) :
    (s.unsubscribe feed h).2.Listed bs issued (held.filter (· ≠ (feed, h))) := by
  obtain ⟨_, never⟩ := listed.foreign _ mine
  constructor
  case tidy => exact unsubscribe_tidy listed.tidy
  case keys => exact listed.keys
  case apart => exact listed.apart
  case gauges =>
    intro other h' key
    rw [registered_unsubscribe, ← listed.gauges]
    refine ⟨And.left, fun registered => ⟨registered, ?_⟩⟩
    intro parts
    obtain ⟨rfl, rfl⟩ := parts
    exact never key registered
  case clients =>
    intro other h'
    have given : (other, h') ∈ held.filter (· ≠ (feed, h)) ↔
        (other, h') ∈ held ∧ ¬(other = feed ∧ h' = h) := by
      simp only [List.mem_filter, ne_eq, Prod.mk.injEq, decide_not, Bool.not_eq_eq_eq_not, Bool.not_true,
        decide_eq_false_iff_not]
    rw [given, ← listed.clients]
    simp only [registered_unsubscribe, exists_and_right]
  case distinct => exact listed.distinct.filter _
  case foreign => exact listed.foreign_unsubscribe

-- The registration of a slot, if it has one, goes with its handle.
theorem clear_slot (slot : Slot) (listed : s.Listed (b :: rest) issued held) :
    (s.unsubscribe? b.feed (b.handle? slot)).Listed (b.setHandle slot none :: rest) issued held := by
  cases own : b.handle? slot with
  | none =>
    rw [Binding.setHandle_same own]
    exact listed
  | some h => exact listed.drop_slot own

end Listed

end Station

def Binding.number? (b : Binding) (node : String) (slot : Slot) : Option Nat :=
  (b.handle? slot).bind fun h => if h.node = node then some h.id else none

def Binding.numbers (b : Binding) (node : String) : List Nat :=
  [Slot.current, .selected].filterMap (b.number? node)

namespace Binding
variable {b : Binding} {node : String} {slot : Slot} {id : Nat}

theorem number?_eq_some : b.number? node slot = some id ↔ b.handle? slot = some ⟨node, id⟩ := by
  unfold number?
  cases b.handle? slot with
  | none => simp
  | some h =>
    obtain ⟨place, number⟩ := h
    by_cases same : place = node <;> simp [same]

theorem mem_numbers : id ∈ b.numbers node ↔ ∃ slot, b.handle? slot = some ⟨node, id⟩ := by
  simp only [numbers, List.mem_filterMap, number?_eq_some]
  constructor
  · intro parts
    obtain ⟨slot, _, own⟩ := parts
    exact ⟨slot, own⟩
  · intro parts
    obtain ⟨slot, own⟩ := parts
    exact ⟨slot, by cases slot <;> simp, own⟩

end Binding

namespace Station
variable {s : Station} {feed : FeedName} {node : String} {bs : List Binding} {b : Binding}
  {issued held : List (FeedName × Handle)} {id : Nat}

namespace Listed

theorem numbers_nodup (listed : s.Listed bs issued held) (member : b ∈ bs) :
    (b.numbers node).Nodup := by
  refine List.Nodup.filterMap ?_ (by decide)
  intro slot other id first second
  exact listed.apart b member _ slot other (Binding.number?_eq_some.mp first)
    (Binding.number?_eq_some.mp second)

theorem mem_numbers (listed : s.Listed bs issued held) :
    id ∈ ((s.feed feed).registrations node).map (·.id) ↔
      (feed, ⟨node, id⟩) ∈ held ∨ ∃ b ∈ bs.filter (·.feed = feed), id ∈ b.numbers node := by
  have any : id ∈ ((s.feed feed).registrations node).map (·.id) ↔
      ∃ c, s.Registered feed ⟨node, id⟩ c := by
    simp only [List.mem_map, Registered]
    constructor
    · intro parts
      obtain ⟨r, member, rfl⟩ := parts
      exact ⟨r.callback, member⟩
    · intro parts
      obtain ⟨c, member⟩ := parts
      exact ⟨_, member, rfl⟩
  rw [any, ← listed.clients]
  constructor
  · intro parts
    obtain ⟨c, registered⟩ := parts
    cases c with
    | gauge key =>
      obtain ⟨b, member, rfl, rfl, own⟩ := (listed.gauges _ _ _).mp registered
      exact .inr ⟨b, by simp [member], Binding.mem_numbers.mpr own⟩
    | client c => exact .inl ⟨c, registered⟩
  · intro either
    rcases either with ⟨c, registered⟩ | ⟨b, member, own⟩
    · exact ⟨_, registered⟩
    · obtain ⟨old, rfl⟩ : b ∈ bs ∧ b.feed = feed := by simpa using member
      exact ⟨.gauge b.key, (listed.gauges _ _ _).mpr ⟨b, old, rfl, rfl, Binding.mem_numbers.mp own⟩⟩

-- A feed has one registration for each handle of its clients and each slot bound on it.
theorem count_eq (listed : s.Listed bs issued held) : (s.feed feed).count node =
    (held.filter fun e => e.1 = feed ∧ e.2.node = node).length +
      ((bs.filter (·.feed = feed)).map fun b => (b.numbers node).length).sum := by
  have mine : ∀ b ∈ bs.filter (·.feed = feed), b ∈ bs ∧ b.feed = feed := by simp
  have clients : ((held.filter fun e => e.1 = feed ∧ e.2.node = node).map (·.2.id)).Nodup := by
    refine List.Nodup.map_on ?_ (listed.distinct.filter _)
    rintro ⟨_, ⟨_, _⟩⟩ left ⟨_, ⟨_, _⟩⟩ right rfl
    obtain ⟨_, rfl, rfl⟩ : _ ∧ _ ∧ _ := by simpa using left
    obtain ⟨_, rfl, rfl⟩ : _ ∧ _ ∧ _ := by simpa using right
    rfl
  have gauges : ((bs.filter (·.feed = feed)).flatMap (·.numbers node)).Nodup := by
    refine List.nodup_flatMap.mpr ⟨fun b member => listed.numbers_nodup (mine b member).1, ?_⟩
    refine ((List.pairwise_map.mp listed.keys).filter _).imp_of_mem ?_
    intro a b left right different id inA inB
    obtain ⟨inList, feedA⟩ := mine a left
    obtain ⟨inOther, feedB⟩ := mine b right
    have first : s.Registered feed ⟨node, id⟩ (.gauge a.key) :=
      (listed.gauges _ _ _).mpr ⟨a, inList, feedA, rfl, Binding.mem_numbers.mp inA⟩
    have second : s.Registered feed ⟨node, id⟩ (.gauge b.key) :=
      (listed.gauges _ _ _).mpr ⟨b, inOther, feedB, rfl, Binding.mem_numbers.mp inB⟩
    exact different (Callback.gauge.inj (listed.unique first second))
  have given : ∀ id, id ∈ (held.filter fun e => e.1 = feed ∧ e.2.node = node).map (·.2.id) ↔
      (feed, ⟨node, id⟩) ∈ held := by
    intro id
    simp only [List.mem_map, List.mem_filter, decide_eq_true_eq]
    constructor
    · intro parts
      obtain ⟨⟨_, ⟨_, _⟩⟩, ⟨member, rfl, rfl⟩, rfl⟩ := parts
      exact member
    · intro member
      exact ⟨_, ⟨member, rfl, rfl⟩, rfl⟩
  have apart : ∀ id ∈ (held.filter fun e => e.1 = feed ∧ e.2.node = node).map (·.2.id),
      ∀ other ∈ (bs.filter (·.feed = feed)).flatMap (·.numbers node), id ≠ other := by
    rintro id left _ right rfl
    obtain ⟨client, first⟩ := (listed.clients _ _).mpr ((given id).mp left)
    obtain ⟨b, member, own⟩ := List.mem_flatMap.mp right
    have second : s.Registered feed ⟨node, id⟩ (.gauge b.key) :=
      (listed.gauges _ _ _).mpr ⟨b, (mine b member).1, (mine b member).2, rfl, Binding.mem_numbers.mp own⟩
    exact Callback.noConfusion (listed.unique first second)
  have numbers : (((s.feed feed).registrations node).map (·.id)).Nodup :=
    List.pairwise_map.mpr (((listed.tidy feed).ascending node).imp fun less => Nat.ne_of_lt less)
  have perm := (List.perm_ext_iff_of_nodup numbers
    (List.nodup_append.mpr ⟨clients, gauges, apart⟩)).mpr fun id => by
      rw [listed.mem_numbers, List.mem_append, given, List.mem_flatMap]
  have length := perm.length_eq
  rwa [List.length_append, List.length_map, List.length_map, List.length_flatMap] at length

end Listed

end Station

end DiskGauge

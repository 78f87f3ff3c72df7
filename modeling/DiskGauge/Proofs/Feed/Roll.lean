import DiskGauge.Proofs.Feed.Tidy

namespace DiskGauge

structure Roll (κ : Type) where
  -- Oldest first.
  made : List (Handle × κ)
  returned : List Handle

namespace Roll
variable {κ : Type}

def blank : Roll κ := ⟨[], []⟩

def issued (r : Roll κ) : List Handle := r.made.map Prod.fst

def live (r : Roll κ) : List (Handle × κ) := r.made.filter fun e => e.1 ∉ r.returned

def liveFor (r : Roll κ) (node : String) : List (Handle × κ) := r.live.filter fun e => e.1.node = node

def registration (e : Handle × κ) : Registration κ := ⟨e.1.id, e.2⟩

def note (r : Roll κ) (handle : Handle) (callback : κ) : Roll κ :=
  { r with made := r.made ++ [(handle, callback)] }

def strike (r : Roll κ) (handle : Handle) : Roll κ := { r with returned := handle :: r.returned }

variable {r : Roll κ} {handle : Handle} {callback : κ} {node : String}

@[simp] theorem issued_note : (r.note handle callback).issued = r.issued ++ [handle] := by
  simp [issued, note]

theorem live_note (fresh : handle ∉ r.returned) :
    (r.note handle callback).live = r.live ++ [(handle, callback)] := by
  have kept : [(handle, callback)].filter (fun e => e.1 ∉ r.returned) = [(handle, callback)] := by
    simp [fresh]
  change (r.made ++ [(handle, callback)]).filter (fun e => e.1 ∉ r.returned) = _
  rw [List.filter_append, kept]
  rfl

theorem live_strike : (r.strike handle).live = r.live.filter fun e => e.1 ≠ handle := by
  simp [live, strike, List.filter_filter, not_or]

theorem mem_live {e : Handle × κ} : e ∈ r.live ↔ e ∈ r.made ∧ e.1 ∉ r.returned := by
  simp [live]

theorem mem_liveFor {e : Handle × κ} : e ∈ r.liveFor node ↔ e ∈ r.live ∧ e.1.node = node := by
  simp [liveFor]

end Roll

namespace Feed
variable {κ : Type}

-- What calls on one feed lead to. A handle may be given back at any time after this feed issued
-- it, and more than once.
inductive Reached : Feed κ → Roll κ → Prop where
  | empty : Reached .empty .blank
  | subscribe {f r} {node : String} {callback : κ} : Reached f r →
      Reached (f.subscribe node callback).2 (r.note (f.subscribe node callback).1 callback)
  | unsubscribe {f r} {handle : Handle} : Reached f r → handle ∈ r.issued →
      Reached (f.unsubscribe handle).2 (r.strike handle)

variable {f : Feed κ} {r : Roll κ} {node : String} {handle : Handle}

theorem reached_tidy (path : Reached f r) : f.Tidy := by
  induction path with
  | empty => exact .empty
  | subscribe _ ih => exact ih.subscribe
  | unsubscribe _ _ ih => exact ih.unsubscribe

-- Numbers count the registrations, so fewer than 2 ^ 64 of them need no larger number.
theorem reached_lastId (path : Reached f r) : f.lastId = r.made.length := by
  induction path with
  | empty => rfl
  | subscribe _ ih => simp [Roll.note, ih]
  | unsubscribe _ _ ih => simpa [Roll.strike] using ih

theorem reached_bounded (path : Reached f r) : ∀ e ∈ r.made, e.1.id ≤ f.lastId := by
  induction path with
  | empty => simp [Roll.blank]
  | @subscribe f r node callback _ ih =>
    intro e member
    rcases List.mem_append.mp member with old | new
    · exact Nat.le_succ_of_le (ih e old)
    · rw [List.mem_singleton.mp new]
      exact Nat.le_refl _
  | unsubscribe _ _ ih => simpa [Roll.strike] using ih

theorem reached_ascending (path : Reached f r) : r.made.Pairwise fun a b => a.1.id < b.1.id := by
  induction path with
  | empty => exact .nil
  | subscribe path ih =>
    refine List.pairwise_append.mpr ⟨ih, by simp, ?_⟩
    intro a old b new
    rw [List.mem_singleton.mp new]
    exact Nat.lt_succ_of_le (reached_bounded path a old)
  | unsubscribe _ _ ih => exact ih

theorem reached_returned (path : Reached f r) : ∀ h ∈ r.returned, h ∈ r.issued := by
  induction path with
  | empty => simp [Roll.blank]
  | subscribe _ ih =>
    intro h member
    rw [Roll.issued_note]
    exact List.mem_append_left _ (ih h member)
  | unsubscribe _ issued ih =>
    intro h member
    rcases List.mem_cons.mp member with rfl | old
    · exact issued
    · exact ih h old

theorem reached_fresh (path : Reached f r) : (⟨node, f.lastId + 1⟩ : Handle) ∉ r.returned := by
  intro member
  obtain ⟨e, made, equal⟩ := List.mem_map.mp (reached_returned path _ member)
  have bound := reached_bounded path e made
  rw [equal] at bound
  exact Nat.not_succ_le_self _ bound

theorem reached_lists (path : Reached f r) :
    ∀ node, f.registrations node = (r.liveFor node).map Roll.registration := by
  induction path with
  | empty => simp [Roll.blank, Roll.liveFor, Roll.live]
  | @subscribe f r added callback path ih =>
    intro node
    have live : (r.note ⟨added, f.lastId + 1⟩ callback).live = r.live ++ [(⟨added, f.lastId + 1⟩, callback)] :=
      Roll.live_note (reached_fresh path)
    simp only [Roll.liveFor] at ih ⊢
    change (f.subscribe added callback).2.registrations node =
      ((r.note ⟨added, f.lastId + 1⟩ callback).live.filter _).map _
    rw [live, List.filter_append, List.map_append, ← ih node]
    by_cases equal : node = added
    · subst node
      simp [Roll.registration]
    · rw [registrations_subscribe_other equal]
      simp [Ne.symm equal]
  | @unsubscribe f r handle path issued ih =>
    intro node
    simp only [Roll.liveFor] at ih ⊢
    rw [Roll.live_strike]
    by_cases equal : node = handle.node
    · subst node
      rw [registrations_unsubscribe_self, ih, List.filter_map, List.filter_filter, List.filter_filter]
      congr 1
      refine List.filter_congr fun e _ => ?_
      obtain ⟨⟨node, id⟩, callback⟩ := e
      obtain ⟨other, number⟩ := handle
      by_cases same : node = other <;> by_cases equal : id = number <;>
        simp [Roll.registration, same, equal]
    · rw [registrations_unsubscribe_other equal, ih, List.filter_filter]
      congr 1
      refine List.filter_congr fun e _ => ?_
      by_cases same : e.1.node = node
      · have apart : e.1 ≠ handle := fun this => equal (by rw [← same, this])
        simp [same, apart]
      · simp [same]

theorem mem_registrations (path : Reached f r) {entry : Registration κ} :
    entry ∈ f.registrations node ↔ (⟨node, entry.id⟩, entry.callback) ∈ r.live := by
  rw [reached_lists path, List.mem_map]
  constructor
  · intro parts
    obtain ⟨⟨handle, callback⟩, member, rfl⟩ := parts
    obtain ⟨live, rfl⟩ := Roll.mem_liveFor.mp member
    exact live
  · intro live
    exact ⟨_, Roll.mem_liveFor.mpr ⟨live, rfl⟩, rfl⟩

theorem made_unique (path : Reached f r) {a b : Handle × κ} (left : a ∈ r.made) (right : b ∈ r.made)
    (same : a.1.id = b.1.id) : a = b := by
  refine List.inj_on_of_nodup_map (f := fun e : Handle × κ => e.1.id) ?_ left right same
  exact List.pairwise_map.mpr ((reached_ascending path).imp fun less => Nat.ne_of_lt less)

theorem numbers_nodup (path : Reached f r) :
    (f.lists.flatMap fun entry => entry.2.map (·.id)).Nodup := by
  have tidy := reached_tidy path
  have known : ∀ entry ∈ f.lists, f.registrations entry.1 = entry.2 :=
    fun entry member => registrations_of_lookup (Keyed.lookup_of_mem tidy.distinct member)
  refine List.nodup_flatMap.mpr ⟨?_, ?_⟩
  · intro entry member
    rw [← known entry member]
    exact List.pairwise_map.mpr ((tidy.ascending entry.1).imp fun less => Nat.ne_of_lt less)
  · refine (List.pairwise_map.mp tidy.distinct).imp_of_mem ?_
    intro a b left right apart number inLeft inRight
    obtain ⟨x, inA, rfl⟩ := List.mem_map.mp inLeft
    obtain ⟨y, inB, same⟩ := List.mem_map.mp inRight
    rw [← known a left] at inA
    rw [← known b right] at inB
    have first := Roll.mem_live.mp ((mem_registrations path).mp inA)
    have second := Roll.mem_live.mp ((mem_registrations path).mp inB)
    exact apart (congrArg (·.1.node) (made_unique path first.1 second.1 same.symm))

theorem live_iff (path : Reached f r) :
    handle ∈ r.live.map Prod.fst ↔ ∃ entry ∈ f.registrations handle.node, entry.id = handle.id := by
  constructor
  · intro member
    obtain ⟨⟨h, callback⟩, live, rfl⟩ := List.mem_map.mp member
    exact ⟨⟨h.id, callback⟩, (mem_registrations path).mpr live, rfl⟩
  · intro parts
    obtain ⟨entry, member, same⟩ := parts
    have live := (mem_registrations path).mp member
    rw [same] at live
    exact List.mem_map_of_mem (f := Prod.fst) live

theorem total_live (path : Reached f r) : f.total = r.live.length := by
  let nodes := r.live.map fun e => e.1.node
  have each : ∀ node, f.count node = nodes.count node := by
    intro node
    rw [count, reached_lists path, List.length_map, List.count_eq_countP, List.countP_map,
      List.countP_eq_length_filter]
    rfl
  have covered : ∀ node, f.count node ≠ 0 → node ∈ nodes.toFinset := by
    intro node filled
    rw [each] at filled
    exact List.mem_toFinset.mpr (List.count_pos_iff.mp (Nat.pos_of_ne_zero filled))
  calc f.total = ∑ node ∈ nodes.toFinset, f.count node :=
        (reached_tidy path).total_eq_sum nodes.toFinset covered
    _ = ∑ node ∈ nodes.toFinset, nodes.count node := Finset.sum_congr rfl fun node _ => each node
    _ = nodes.length := List.sum_toFinset_count_eq_length nodes
    _ = r.live.length := List.length_map ..

-- That a feed and a record tell the same, now and when a handle is given back next.
structure Refines (f : Feed κ) (r : Roll κ) : Prop where
  lists : ∀ node, f.registrations node = (r.liveFor node).map Roll.registration
  numbers : f.lastId = r.made.length
  -- Up to 2 ^ 64 registrations a 64-bit counter gives the same numbers.
  fits : r.made.length + 1 < 2 ^ 64 → ∀ node callback,
    (f.subscribe node callback).1.id = (UInt64.ofNat f.lastId + 1).toNat
  order : r.made.Pairwise fun a b => a.1.id < b.1.id
  ascending : ∀ node, (f.registrations node).Pairwise fun a b => a.id < b.id
  apart : (f.lists.flatMap fun entry => entry.2.map (·.id)).Nodup
  distinct : Keyed.Distinct f.lists
  filled : ∀ entry ∈ f.lists, entry.2 ≠ []
  answered : ∀ handle, (f.unsubscribe handle).1 = true ↔ handle ∈ r.live.map Prod.fst
  removed : ∀ handle callback, (handle, callback) ∈ r.live → ∃ front back,
    f.registrations handle.node = front ++ ⟨handle.id, callback⟩ :: back ∧
    (f.unsubscribe handle).2.registrations handle.node = front ++ back
  others : ∀ handle node, node ≠ handle.node →
    (f.unsubscribe handle).2.registrations node = f.registrations node
  unknown : ∀ handle, handle ∉ r.live.map Prod.fst → (f.unsubscribe handle).2 = f
  counted : ∀ node, f.count node = (r.liveFor node).length
  total : f.total = r.live.length

theorem reached_refines (path : Reached f r) : Refines f r where
  lists := reached_lists path
  numbers := reached_lastId path
  fits := fun few node callback => by
    have small : f.lastId + 1 < 2 ^ 64 := reached_lastId path ▸ few
    rw [UInt64.toNat_add, UInt64.toNat_ofNat_of_lt' (Nat.lt_of_succ_lt small)]
    exact (Nat.mod_eq_of_lt small).symm
  order := reached_ascending path
  ascending := (reached_tidy path).ascending
  apart := numbers_nodup path
  distinct := (reached_tidy path).distinct
  filled := (reached_tidy path).filled
  answered := fun _ => unsubscribe_answer.trans (live_iff path).symm
  removed := fun _ _ live =>
    (reached_tidy path).unsubscribe_known ((mem_registrations path).mpr live) rfl
  others := fun _ _ different => registrations_unsubscribe_other different
  unknown := fun _ dead => (reached_tidy path).unsubscribe_unknown fun entry member same =>
    dead ((live_iff path).mpr ⟨entry, member, same⟩)
  counted := fun node => by rw [count, reached_lists path, List.length_map]
  total := total_live path

-- Two of three registrations are left, and the first one is given back for the second time.
theorem refines_after_return :
    Refines (((((empty.subscribe "a" 10).2.subscribe "b" 20).2.subscribe "a" 30).2.unsubscribe
        ⟨"a", 1⟩).2.unsubscribe ⟨"a", 1⟩).2
      ⟨[(⟨"a", 1⟩, 10), (⟨"b", 2⟩, 20), (⟨"a", 3⟩, 30)], [⟨"a", 1⟩, ⟨"a", 1⟩]⟩ :=
  reached_refines (.unsubscribe (.unsubscribe (.subscribe (.subscribe (.subscribe .empty)))
    (by decide)) (by decide))

end Feed

end DiskGauge

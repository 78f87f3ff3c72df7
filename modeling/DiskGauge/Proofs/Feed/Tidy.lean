import DiskGauge.Feed
import Mathlib.Algebra.BigOperators.Group.Finset.Basic

namespace DiskGauge.Feed
variable {κ : Type} {f : Feed κ} {node : String} {handle : Handle} {callback : κ}

structure Tidy (f : Feed κ) : Prop where
  distinct : Keyed.Distinct f.lists
  filled : ∀ entry ∈ f.lists, entry.2 ≠ []
  ascending : ∀ node, (f.registrations node).Pairwise fun a b => a.id < b.id
  numbered : ∀ node, ∀ r ∈ f.registrations node, r.id ≤ f.lastId

theorem Tidy.empty : (empty : Feed κ).Tidy :=
  ⟨List.nodup_nil, by simp [Feed.empty], by simp, by simp⟩

theorem Tidy.subscribe (tidy : f.Tidy) : (f.subscribe node callback).2.Tidy where
  distinct := tidy.distinct.put
  filled := by
    intro entry member
    rcases Keyed.mem_put member with rfl | old
    · simp
    · exact tidy.filled entry old
  ascending := by
    intro other
    by_cases equal : other = node
    · subst other
      rw [registrations_subscribe_self, List.pairwise_append]
      refine ⟨tidy.ascending node, by simp, ?_⟩
      intro a old b new
      have bound := tidy.numbered node a old
      rw [List.mem_singleton.mp new]
      exact Nat.lt_succ_of_le bound
    · rw [registrations_subscribe_other equal]
      exact tidy.ascending other
  numbered := by
    intro other r member
    by_cases equal : other = node
    · subst other
      rw [registrations_subscribe_self] at member
      rcases List.mem_append.mp member with old | new
      · exact Nat.le_succ_of_le (tidy.numbered node r old)
      · rw [List.mem_singleton.mp new]
        exact Nat.le_refl _
    · rw [registrations_subscribe_other equal] at member
      exact Nat.le_succ_of_le (tidy.numbered other r member)

theorem Tidy.unsubscribe (tidy : f.Tidy) : (f.unsubscribe handle).2.Tidy where
  distinct := by
    unfold Feed.unsubscribe
    split
    · exact tidy.distinct
    · dsimp only
      split
      · exact tidy.distinct.drop
      · exact tidy.distinct.put
  filled := by
    unfold Feed.unsubscribe
    split
    · exact tidy.filled
    · dsimp only
      split
      · exact fun entry member => tidy.filled entry (List.mem_filter.mp member).1
      · next kept =>
        intro entry member
        rcases Keyed.mem_put member with rfl | old
        · simpa using kept
        · exact tidy.filled entry old
  ascending := fun node =>
    (tidy.ascending node).sublist (registrations_unsubscribe_sublist f handle node)
  numbered := fun node r member => by
    rw [lastId_unsubscribe]
    exact tidy.numbered node r ((registrations_unsubscribe_sublist f handle node).subset member)

theorem Tidy.unique (tidy : f.Tidy) {a b : Registration κ} (left : a ∈ f.registrations node)
    (right : b ∈ f.registrations node) (same : a.id = b.id) : a = b := by
  refine List.inj_on_of_nodup_map (f := fun r : Registration κ => r.id) ?_ left right same
  exact List.pairwise_map.mpr ((tidy.ascending node).imp fun less => Nat.ne_of_lt less)

-- A handle whose registration is not there changes nothing at all.
theorem Tidy.unsubscribe_unknown (tidy : f.Tidy)
    (unknown : ∀ r ∈ f.registrations handle.node, r.id ≠ handle.id) : (f.unsubscribe handle).2 = f := by
  unfold Feed.unsubscribe
  split
  · rfl
  · next list found =>
    rw [registrations_of_lookup found] at unknown
    have all : list.filter (fun r => r.id ≠ handle.id) = list :=
      List.filter_eq_self.mpr fun r member => by simpa using unknown r member
    have nonempty : list.isEmpty = false := by
      simpa using tidy.filled _ (Keyed.mem_of_lookup found)
    simp only [all, nonempty, Keyed.put_same found]
    rfl

theorem Tidy.unsubscribe_known (tidy : f.Tidy) {r : Registration κ}
    (known : r ∈ f.registrations handle.node) (same : r.id = handle.id) :
    ∃ front back, f.registrations handle.node = front ++ r :: back ∧
      (f.unsubscribe handle).2.registrations handle.node = front ++ back := by
  obtain ⟨front, back, split⟩ := List.append_of_mem known
  refine ⟨front, back, split, ?_⟩
  have ascending := tidy.ascending handle.node
  rw [split, List.pairwise_append, List.pairwise_cons] at ascending
  obtain ⟨_, ⟨after, _⟩, before⟩ := ascending
  have keepFront : front.filter (fun r => r.id ≠ handle.id) = front := by
    refine List.filter_eq_self.mpr fun e member => ?_
    have less := before e member r (by simp)
    simpa using (show e.id ≠ handle.id by omega)
  have keepBack : back.filter (fun r => r.id ≠ handle.id) = back := by
    refine List.filter_eq_self.mpr fun e member => ?_
    have less := after e member
    simpa using (show e.id ≠ handle.id by omega)
  rw [registrations_unsubscribe_self, split, List.filter_append, List.filter_cons, keepFront, keepBack]
  simp [same]

def subscribed (f : Feed κ) : List String := f.lists.flatMap fun entry => entry.2.map fun _ => entry.1

theorem length_subscribed : f.subscribed.length = f.total := by
  simp [subscribed, total, List.length_flatMap]

theorem count_nodes {lists : List (String × List (Registration κ))} (distinct : Keyed.Distinct lists) :
    (lists.flatMap fun entry => entry.2.map fun _ => entry.1).count node =
      ((lists.lookup node).getD []).length := by
  induction lists with
  | nil => rfl
  | cons head rest ih =>
    obtain ⟨other, list⟩ := head
    obtain ⟨absent, later⟩ := List.nodup_cons.mp distinct
    rw [List.flatMap_cons, List.count_append, ih later, List.map_const', List.count_replicate]
    by_cases equal : other = node
    · subst other
      have unlisted : rest.lookup node = none := List.lookup_eq_none_iff.mpr fun e member => by
        have apart : node ≠ e.1 := fun same => absent (by simpa [same] using List.mem_map_of_mem (f := Prod.fst) member)
        simpa using apart
      simp [unlisted]
    · have unequal : (node == other) = false := by simpa using Ne.symm equal
      simp [equal, List.lookup_cons, unequal]

theorem Tidy.count_subscribed (tidy : f.Tidy) : f.subscribed.count node = f.count node :=
  count_nodes tidy.distinct

-- However the nodes with registrations are collected, their counts add up to the total.
theorem Tidy.total_eq_sum (tidy : f.Tidy) (nodes : Finset String)
    (covered : ∀ node, f.count node ≠ 0 → node ∈ nodes) : f.total = ∑ node ∈ nodes, f.count node := by
  have part : ∀ node ∈ (f.subscribed : Multiset String), node ∈ nodes := by
    intro node member
    apply covered
    rw [← tidy.count_subscribed]
    exact Nat.ne_of_gt (List.count_pos_iff.mpr (Multiset.mem_coe.mp member))
  calc f.total = Multiset.card (f.subscribed : Multiset String) := by
        rw [Multiset.coe_card, length_subscribed]
    _ = ∑ node ∈ nodes, (f.subscribed : Multiset String).count node :=
        (Multiset.sum_count_eq_card part).symm
    _ = ∑ node ∈ nodes, f.count node :=
        Finset.sum_congr rfl fun node _ => by rw [Multiset.coe_count, tidy.count_subscribed]

end DiskGauge.Feed

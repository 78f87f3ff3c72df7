import DiskGauge.Proofs.Feed.Roll

namespace DiskGauge.Feed
variable {κ ι : Type} {a : Feed κ} {b : Feed ι} {ra : Roll κ} {rb : Roll ι} {handle : Handle}

-- The number of a handle tells its place in the history of the feed that issued it.
theorem reached_place (path : Reached a ra) :
    ∀ i e, ra.made[i]? = some e → e.1.id = i + 1 := by
  induction path with
  | empty => simp [Roll.blank]
  | @subscribe f r node callback path ih =>
    intro i e found
    simp only [Roll.note, List.getElem?_append] at found
    split at found
    · exact ih i e found
    · next past =>
      obtain ⟨last, rfl⟩ := List.getElem?_eq_some_iff.mp found
      have here : i = r.made.length := by
        rw [List.length_singleton] at last
        omega
      simp [subscribe, reached_lastId path, here]
  | unsubscribe _ _ ih => exact ih

-- In the same place of their histories both feeds registered something for the handle's node, and
-- the first feed still has its own registration.
def Aligned (ra : Roll κ) (rb : Roll ι) (handle : Handle) : Prop :=
  ∃ (place : Nat) (mine : Handle × κ) (theirs : Handle × ι),
    ra.made[place]? = some mine ∧ rb.made[place]? = some theirs ∧ theirs.1 = handle ∧
      mine.1.node = handle.node ∧ mine.1 ∉ ra.returned

theorem aligned_iff (left : Reached a ra) (right : Reached b rb) (issued : handle ∈ rb.issued) :
    Aligned ra rb handle ↔ handle ∈ ra.live.map Prod.fst := by
  obtain ⟨theirs, made, rfl⟩ := List.mem_map.mp issued
  constructor
  · intro aligned
    obtain ⟨place, mine, other, here, there, same, node, kept⟩ := aligned
    have number : mine.1.id = theirs.1.id := by
      rw [reached_place left place mine here, ← same, reached_place right place other there]
    have equal : mine.1 = theirs.1 := by
      cases first : mine.1
      cases second : theirs.1
      simp_all
    exact List.mem_map.mpr ⟨mine, Roll.mem_live.mpr ⟨List.mem_of_getElem? here, kept⟩, equal⟩
  · intro member
    obtain ⟨mine, live, equal⟩ := List.mem_map.mp member
    obtain ⟨present, kept⟩ := Roll.mem_live.mp live
    obtain ⟨i, here⟩ := List.getElem?_of_mem present
    obtain ⟨j, there⟩ := List.getElem?_of_mem made
    have place : i = j := by
      have one := reached_place left i mine here
      have two := reached_place right j theirs there
      rw [equal] at one
      omega
    subst place
    exact ⟨i, mine, theirs, here, there, rfl, by rw [equal], kept⟩

-- A feed given a handle of another feed. Whatever it does, it touches no list but the node's own.
structure TakesBack (a : Feed κ) (ra : Roll κ) (rb : Roll ι) (handle : Handle) : Prop where
  ignored : a.unsubscribe handle = (false, a) ↔ ¬Aligned ra rb handle
  taken : Aligned ra rb handle → (a.unsubscribe handle).1 = true ∧ ∃ callback front back,
    a.registrations handle.node = front ++ ⟨handle.id, callback⟩ :: back ∧
    (a.unsubscribe handle).2.registrations handle.node = front ++ back
  others : ∀ node, node ≠ handle.node →
    (a.unsubscribe handle).2.registrations node = a.registrations node

theorem foreign_takesBack (left : Reached a ra) (right : Reached b rb) (issued : handle ∈ rb.issued) :
    TakesBack a ra rb handle := by
  have refines := reached_refines left
  have lined := aligned_iff left right issued
  constructor
  case ignored =>
    constructor
    · intro nothing aligned
      have answered := (refines.answered handle).mpr (lined.mp aligned)
      rw [nothing] at answered
      cases answered
    · intro apart
      have dead : handle ∉ ra.live.map Prod.fst := fun live => apart (lined.mpr live)
      have answer : (a.unsubscribe handle).1 = false := by
        rw [Bool.eq_false_iff, ne_eq, refines.answered]
        exact dead
      exact Prod.ext answer (refines.unknown handle dead)
  case taken =>
    intro aligned
    have live := lined.mp aligned
    obtain ⟨⟨found, callback⟩, member, rfl⟩ := List.mem_map.mp live
    exact ⟨(refines.answered _).mpr live, callback, refines.removed _ _ member⟩
  case others => exact refines.others handle

-- The second registrations of both feeds are for the same node.
theorem takesBack_second :
    TakesBack ((empty.subscribe "a" 10).2.subscribe "b" 20).2
      ⟨[(⟨"a", 1⟩, 10), (⟨"b", 2⟩, 20)], []⟩
      ⟨[(⟨"c", 1⟩, 30), (⟨"b", 2⟩, 40)], []⟩ ⟨"b", 2⟩ :=
  foreign_takesBack (b := ((empty.subscribe "c" 30).2.subscribe "b" 40).2)
    (.subscribe (.subscribe .empty)) (.subscribe (.subscribe .empty)) (by decide)

-- A foreign handle is not always ignored: here it takes away the only registration there is.
theorem foreign_not_ignored :
    ¬∀ (a b : Feed Nat) (ra rb : Roll Nat) (handle : Handle), Reached a ra → Reached b rb →
      handle ∈ rb.issued → a.unsubscribe handle = (false, a) := by
  intro ignored
  have unheard := ignored (empty.subscribe "n1" 1).2 (empty.subscribe "n1" 2).2 _ _ ⟨"n1", 1⟩
    (.subscribe .empty) (.subscribe .empty) (by decide)
  have answer : ((empty.subscribe "n1" 1).2.unsubscribe ⟨"n1", 1⟩).1 = true := by decide
  rw [unheard] at answer
  cases answer

end DiskGauge.Feed

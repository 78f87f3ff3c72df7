import DiskGauge.Keyed

namespace DiskGauge

structure Handle where
  node : String
  id : Nat
deriving DecidableEq, Repr

structure Registration (κ : Type) where
  id : Nat
  callback : κ
deriving Repr

-- How many callbacks a delivery reached, and how many of them failed.
structure Delivery where
  delivered : Nat
  failed : Nat
deriving DecidableEq, Repr

def Delivery.none : Delivery := ⟨0, 0⟩

def Delivery.count (d : Delivery) (ok : Bool) : Delivery :=
  if ok then { d with delivered := d.delivered + 1 } else { d with failed := d.failed + 1 }

structure Feed (κ : Type) where
  -- The number of the newest registration. Numbers have 64 bits and are taken not to run out.
  lastId : Nat
  lists : List (String × List (Registration κ))
deriving Repr

namespace Feed
variable {κ : Type}

def empty : Feed κ := ⟨0, []⟩

-- The registrations for a node, oldest first.
def registrations (f : Feed κ) (node : String) : List (Registration κ) :=
  (f.lists.lookup node).getD []

def subscribe (f : Feed κ) (node : String) (callback : κ) : Handle × Feed κ :=
  let id := f.lastId + 1
  (⟨node, id⟩, ⟨id, Keyed.put node (f.registrations node ++ [⟨id, callback⟩]) f.lists⟩)

-- The list of the handle's node goes with its last registration. Tells whether the handle's number stood in it.
def unsubscribe (f : Feed κ) (handle : Handle) : Bool × Feed κ :=
  match f.lists.lookup handle.node with
  | none => (false, f)
  | some list =>
    let kept := list.filter fun r => r.id ≠ handle.id
    let removed := kept.length ≠ list.length
    if kept.isEmpty then (removed, { f with lists := Keyed.drop handle.node f.lists })
    else (removed, { f with lists := Keyed.put handle.node kept f.lists })

def count (f : Feed κ) (node : String) : Nat := (f.registrations node).length

def total (f : Feed κ) : Nat := (f.lists.flatMap fun entry => entry.2).length

variable {f : Feed κ} {node other : String} {handle : Handle} {callback : κ}

@[simp] theorem registrations_empty : (empty : Feed κ).registrations node = [] := rfl

theorem registrations_of_lookup {list : List (Registration κ)} (found : f.lists.lookup node = some list) :
    f.registrations node = list := by
  simp [registrations, found]

@[simp] theorem lastId_subscribe : (f.subscribe node callback).2.lastId = f.lastId + 1 := rfl

@[simp] theorem registrations_subscribe_self : (f.subscribe node callback).2.registrations node =
    f.registrations node ++ [⟨f.lastId + 1, callback⟩] := by
  simp [subscribe, registrations]

theorem registrations_subscribe_other (different : other ≠ node) :
    (f.subscribe node callback).2.registrations other = f.registrations other := by
  simp [subscribe, registrations, Keyed.lookup_put_other different]

@[simp] theorem lastId_unsubscribe : (f.unsubscribe handle).2.lastId = f.lastId := by
  unfold unsubscribe
  split
  · rfl
  · dsimp only
    split <;> rfl

@[simp] theorem registrations_unsubscribe_self : (f.unsubscribe handle).2.registrations handle.node =
    (f.registrations handle.node).filter fun r => r.id ≠ handle.id := by
  unfold unsubscribe
  split
  · next missing => simp [registrations, missing]
  · next list found =>
    dsimp only
    split
    · next emptied =>
      rw [registrations_of_lookup found, List.isEmpty_iff.mp emptied]
      simp [registrations]
    · simp [registrations, found]

theorem registrations_unsubscribe_other (different : other ≠ handle.node) :
    (f.unsubscribe handle).2.registrations other = f.registrations other := by
  unfold unsubscribe
  split
  · rfl
  · dsimp only
    split
    · simp [registrations, Keyed.lookup_drop_other different]
    · simp [registrations, Keyed.lookup_put_other different]

theorem registrations_unsubscribe_sublist (f : Feed κ) (handle : Handle) (node : String) :
    ((f.unsubscribe handle).2.registrations node).Sublist (f.registrations node) := by
  by_cases equal : node = handle.node
  · subst node
    rw [registrations_unsubscribe_self]
    exact List.filter_sublist
  · simpa only [registrations_unsubscribe_other equal] using List.Sublist.refl _

theorem unsubscribe_answer :
    (f.unsubscribe handle).1 = true ↔ ∃ r ∈ f.registrations handle.node, r.id = handle.id := by
  have shorter (list : List (Registration κ)) :
      (list.filter fun r => r.id ≠ handle.id).length ≠ list.length ↔ ∃ r ∈ list, r.id = handle.id := by
    rw [ne_eq, List.length_filter_eq_length_iff]
    simp
  unfold unsubscribe
  split
  · next missing => simp [registrations, missing]
  · next list found =>
    rw [registrations_of_lookup found, ← shorter list]
    dsimp only
    split <;> simp only [decide_eq_true_eq]

end Feed

end DiskGauge

namespace DiskGauge.Keyed

section
variable {κ α : Type} [DecidableEq κ]

def put (key : κ) (value : α) : List (κ × α) → List (κ × α)
  | [] => [(key, value)]
  | (other, old) :: rest =>
    if other = key then (key, value) :: rest else (other, old) :: put key value rest

def drop (key : κ) (list : List (κ × α)) : List (κ × α) :=
  list.filter fun entry => entry.1 ≠ key

variable {key other : κ} {value old : α} {list front back : List (κ × α)}

def Distinct (list : List (κ × α)) : Prop := (list.map Prod.fst).Nodup

theorem split_of_lookup (found : list.lookup key = some value) :
    ∃ front back, list = front ++ (key, value) :: back ∧ ∀ e ∈ front, e.1 ≠ key := by
  obtain ⟨front, back, rfl, absent⟩ := List.lookup_eq_some_iff.mp found
  refine ⟨front, back, rfl, ?_⟩
  intro e member equal
  simpa [equal] using absent e member

theorem absent_of_lookup (missing : list.lookup key = none) : ∀ e ∈ list, e.1 ≠ key := by
  intro e member equal
  simpa [equal] using List.lookup_eq_none_iff.mp missing e member

theorem mem_of_lookup (found : list.lookup key = some value) : (key, value) ∈ list := by
  obtain ⟨front, back, rfl, _⟩ := split_of_lookup found
  simp

theorem lookup_of_mem (distinct : Distinct list) (member : (key, value) ∈ list) :
    list.lookup key = some value := by
  obtain ⟨front, back, rfl⟩ := List.append_of_mem member
  refine List.lookup_eq_some_iff.mpr ⟨front, back, rfl, ?_⟩
  intro e before
  simp only [Distinct, List.map_append, List.nodup_append] at distinct
  have apart : e.1 ≠ key := distinct.2.2 e.1 (List.mem_map_of_mem before) key (by simp)
  simpa using Ne.symm apart

@[simp] theorem lookup_put_self : (put key value list).lookup key = some value := by
  induction list with
  | nil => simp [put]
  | cons head rest ih =>
    obtain ⟨k, v⟩ := head
    by_cases equal : k = key
    · simp [put, equal]
    · have unequal : (key == k) = false := by simpa using Ne.symm equal
      simp [put, equal, List.lookup_cons, unequal, ih]

theorem lookup_put_other (different : other ≠ key) :
    (put key value list).lookup other = list.lookup other := by
  have unequal : (other == key) = false := by simpa using different
  induction list with
  | nil => simp [put, List.lookup_cons, unequal]
  | cons head rest ih =>
    obtain ⟨k, v⟩ := head
    by_cases equal : k = key
    · simp [put, equal, List.lookup_cons, unequal]
    · simp [put, equal, List.lookup_cons, ih]

theorem put_split (absent : ∀ e ∈ front, e.1 ≠ key) :
    put key value (front ++ (key, old) :: back) = front ++ (key, value) :: back := by
  induction front with
  | nil => simp [put]
  | cons head rest ih =>
    have here : head.1 ≠ key := absent head (by simp)
    have later := ih fun e member => absent e (by simp [member])
    simp [put, here, later]

theorem drop_cons (entry : κ × α) :
    drop key (entry :: list) = if entry.1 = key then drop key list else entry :: drop key list := by
  by_cases equal : entry.1 = key <;> simp [drop, equal]

theorem drop_absent (absent : ∀ e ∈ list, e.1 ≠ key) : drop key list = list :=
  List.filter_eq_self.mpr fun e member => by simpa using absent e member

theorem drop_split (distinct : Distinct (front ++ (key, old) :: back)) :
    drop key (front ++ (key, old) :: back) = front ++ back := by
  simp only [Distinct, List.map_append, List.map_cons, List.nodup_append, List.nodup_cons] at distinct
  obtain ⟨_, ⟨after, _⟩, before⟩ := distinct
  have keepFront : drop key front = front :=
    drop_absent fun e member => before e.1 (List.mem_map_of_mem member) key (by simp)
  have keepBack : drop key back = back :=
    drop_absent fun e member equal => after (equal ▸ List.mem_map_of_mem member)
  have parts : drop key (front ++ (key, old) :: back) = drop key front ++ drop key ((key, old) :: back) :=
    List.filter_append ..
  rw [parts, keepFront, drop_cons, if_pos rfl, keepBack]

theorem put_absent (absent : ∀ e ∈ list, e.1 ≠ key) : put key value list = list ++ [(key, value)] := by
  induction list with
  | nil => simp [put]
  | cons head rest ih =>
    have here : head.1 ≠ key := absent head (by simp)
    have later := ih fun e member => absent e (by simp [member])
    simp [put, here, later]

@[simp] theorem lookup_drop_self : (drop key list).lookup key = none := by
  refine List.lookup_eq_none_iff.mpr ?_
  intro e member
  have kept : e.1 ≠ key := by simpa using (List.mem_filter.mp member).2
  simpa using Ne.symm kept

theorem lookup_drop_other (different : other ≠ key) :
    (drop key list).lookup other = list.lookup other := by
  have unequal : (other == key) = false := by simpa using different
  induction list with
  | nil => rfl
  | cons head rest ih =>
    obtain ⟨k, v⟩ := head
    rw [drop_cons]
    by_cases equal : k = key
    · simp [equal, List.lookup_cons, unequal, ih]
    · simp [equal, List.lookup_cons, ih]

theorem mem_put {entry : κ × α} (member : entry ∈ put key value list) :
    entry = (key, value) ∨ entry ∈ list := by
  cases found : list.lookup key with
  | none =>
    rw [put_absent (absent_of_lookup found)] at member
    simpa [or_comm] using member
  | some old =>
    obtain ⟨front, back, rfl, absent⟩ := split_of_lookup found
    rw [put_split absent] at member
    rcases List.mem_append.mp member with before | rest
    · exact .inr (by simp [before])
    · rcases List.mem_cons.mp rest with rfl | after
      · exact .inl rfl
      · exact .inr (by simp [after])

theorem put_same (found : list.lookup key = some value) : put key value list = list := by
  obtain ⟨front, back, rfl, absent⟩ := split_of_lookup found
  exact put_split absent

theorem Distinct.put (distinct : Distinct list) : Distinct (put key value list) := by
  cases found : list.lookup key with
  | none =>
    have absent := absent_of_lookup found
    rw [put_absent absent]
    simp only [Distinct, List.map_append, List.map_cons, List.map_nil, List.nodup_append]
    refine ⟨distinct, by simp, ?_⟩
    intro k old j new equal
    obtain ⟨e, member, rfl⟩ := List.mem_map.mp old
    exact absent e member (by simpa [equal] using new)
  | some old =>
    obtain ⟨front, back, rfl, absent⟩ := split_of_lookup found
    rw [put_split absent]
    simpa [Distinct] using distinct

theorem Distinct.drop (distinct : Distinct list) : Distinct (drop key list) :=
  List.Sublist.nodup (List.Sublist.map _ List.filter_sublist) distinct

end

section
variable {α : Type}

def insert (name : String) (value : α) : List (String × α) → List (String × α)
  | [] => [(name, value)]
  | (other, old) :: rest =>
    if name = other then (name, value) :: rest
    else if name < other then (name, value) :: (other, old) :: rest
    else (other, old) :: insert name value rest

-- Of repeated names the last one counts.
def ofList (entries : List (String × α)) : List (String × α) :=
  entries.foldl (fun sorted e => insert e.1 e.2 sorted) []

variable {name other : String} {value old : α} {list front back : List (String × α)}

def Ascending (list : List (String × α)) : Prop := list.Pairwise fun a b => a.1 < b.1

@[simp] theorem lookup_insert_self : (insert name value list).lookup name = some value := by
  induction list with
  | nil => simp [insert]
  | cons head rest ih =>
    obtain ⟨k, v⟩ := head
    by_cases equal : name = k
    · simp [insert, equal]
    · have unequal : (name == k) = false := by simpa using equal
      by_cases less : name < k
      · simp [insert, equal, less]
      · simp [insert, equal, less, List.lookup_cons, unequal, ih]

theorem lookup_insert_other (different : other ≠ name) :
    (insert name value list).lookup other = list.lookup other := by
  have unequal : (other == name) = false := by simpa using different
  induction list with
  | nil => simp [insert, List.lookup_cons, unequal]
  | cons head rest ih =>
    obtain ⟨k, v⟩ := head
    by_cases equal : name = k
    · subst equal
      simp [insert, List.lookup_cons, unequal]
    · by_cases less : name < k
      · simp [insert, equal, less, List.lookup_cons, unequal]
      · simp [insert, equal, less, List.lookup_cons, ih]

theorem insert_absent (absent : ∀ e ∈ list, e.1 ≠ name) :
    (insert name value list).Perm ((name, value) :: list) := by
  induction list with
  | nil => simp [insert]
  | cons head rest ih =>
    obtain ⟨k, v⟩ := head
    have here : name ≠ k := Ne.symm (absent (k, v) (by simp))
    by_cases less : name < k
    · simp [insert, here, less]
    · have later := ih fun e member => absent e (by simp [member])
      simpa [insert, here, less] using (later.cons (k, v)).trans (.swap _ _ _)

theorem insert_split (ascending : Ascending (front ++ (name, old) :: back)) :
    insert name value (front ++ (name, old) :: back) = front ++ (name, value) :: back := by
  induction front with
  | nil => simp [insert]
  | cons head rest ih =>
    obtain ⟨k, v⟩ := head
    obtain ⟨first, later⟩ := List.pairwise_cons.mp ascending
    have below : k < name := first (name, old) (by simp)
    have different : name ≠ k := fun equal => String.lt_irrefl k (equal ▸ below)
    have above : ¬name < k := fun less => String.lt_irrefl k (String.lt_trans below less)
    simpa [insert, different, above] using ih later

theorem mem_insert {entry : String × α} (member : entry ∈ insert name value list) :
    entry = (name, value) ∨ entry ∈ list := by
  induction list with
  | nil => simpa [insert] using member
  | cons head rest ih =>
    obtain ⟨k, v⟩ := head
    simp only [insert] at member
    split at member
    · rcases List.mem_cons.mp member with rfl | old
      · exact .inl rfl
      · exact .inr (by simp [old])
    · split at member
      · simpa using member
      · rcases List.mem_cons.mp member with rfl | later
        · exact .inr (by simp)
        · rcases ih later with rfl | old
          · exact .inl rfl
          · exact .inr (by simp [old])

theorem Ascending.insert (ascending : Ascending list) : Ascending (insert name value list) := by
  induction list with
  | nil => simp [Keyed.insert, Ascending]
  | cons head rest ih =>
    obtain ⟨k, v⟩ := head
    obtain ⟨first, later⟩ := List.pairwise_cons.mp ascending
    simp only [Keyed.insert]
    split
    · next equal => exact List.pairwise_cons.mpr ⟨by simpa [equal] using first, later⟩
    · next different =>
      split
      · next less =>
        refine List.pairwise_cons.mpr ⟨?_, ascending⟩
        intro e member
        rcases List.mem_cons.mp member with rfl | old
        · exact less
        · exact String.lt_trans less (first e old)
      · next notLess =>
        refine List.pairwise_cons.mpr ⟨?_, ih later⟩
        intro e member
        rcases mem_insert member with rfl | old
        · rcases String.le_total name k with le | le
          · exact absurd (String.le_antisymm le (String.not_lt.mp notLess)) different
          · exact String.not_le.mp fun ge => different (String.le_antisymm ge le)
        · exact first e old

theorem lookup_insert (e : String × α) : (insert e.1 e.2 list).lookup name = (e :: list).lookup name := by
  rw [List.lookup_cons]
  by_cases same : name = e.1
  · rw [same, lookup_insert_self]
    simp
  · have different : (name == e.1) = false := by simpa using same
    rw [lookup_insert_other same, different]

-- The fold starts from any list, for the induction.
theorem lookup_foldl_insert (entries : List (String × α)) :
    (entries.foldl (fun sorted e => insert e.1 e.2 sorted) list).lookup name =
      (entries.reverse ++ list).lookup name := by
  induction entries generalizing list with
  | nil => rfl
  | cons e entries ih =>
    rw [List.foldl_cons, ih, List.reverse_cons, List.append_assoc, List.lookup_append, List.lookup_append,
      lookup_insert]
    rfl

theorem lookup_ofList (entries : List (String × α)) : (ofList entries).lookup name = entries.reverse.lookup name := by
  have folded : (ofList entries).lookup name = (entries.reverse ++ []).lookup name := lookup_foldl_insert entries
  rw [List.append_nil] at folded
  exact folded

theorem Ascending.foldl_insert (entries : List (String × α)) (ascending : Ascending list) :
    Ascending (entries.foldl (fun sorted e => Keyed.insert e.1 e.2 sorted) list) := by
  induction entries generalizing list with
  | nil => exact ascending
  | cons e entries ih => exact ih ascending.insert

theorem ofList_ascending (entries : List (String × α)) : Ascending (ofList entries) :=
  Ascending.foldl_insert entries List.Pairwise.nil

theorem Ascending.drop (ascending : Ascending list) : Ascending (drop name list) :=
  List.Pairwise.filter _ ascending

theorem Ascending.distinct (ascending : Ascending list) : Distinct list := by
  refine List.pairwise_map.mpr (ascending.imp ?_)
  intro a b less equal
  exact String.lt_irrefl b.1 (equal ▸ less)

end

end DiskGauge.Keyed

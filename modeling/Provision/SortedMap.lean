namespace Provision

/-- The entries of a map, in increasing order of their keys. -/
abbrev SortedMap (α : Type) := List (String × α)

namespace SortedMap

variable {α : Type}

def get? (m : SortedMap α) (key : String) : Option α := m.lookup key

def contains (m : SortedMap α) (key : String) : Bool := (m.lookup key).isSome

def insert (m : SortedMap α) (key : String) (value : α) : SortedMap α :=
  match m with
  | [] => [(key, value)]
  | (k, v) :: rest =>
    if key = k then (k, value) :: rest
    else if key < k then (key, value) :: (k, v) :: rest
    else (k, v) :: insert rest key value

def erase (m : SortedMap α) (key : String) : SortedMap α := m.filter (·.1 != key)

def ofList (entries : List (String × α)) : SortedMap α :=
  entries.foldl (fun m (k, v) => insert m k v) []

@[simp] theorem get?_insert_self (m : SortedMap α) (key : String) (value : α) :
    (m.insert key value).get? key = some value := by
  induction m with
  | nil => simp [insert, get?]
  | cons e rest ih =>
    obtain ⟨k, v⟩ := e
    simp only [insert]
    split
    · subst_vars
      simp [get?]
    · split
      · simp [get?]
      · rename_i h _
        have hb : (key == k) = false := by simpa using h
        simpa [get?, List.lookup_cons, hb] using ih

theorem get?_insert_of_ne (m : SortedMap α) {key other : String} (value : α) (h : other ≠ key) :
    (m.insert key value).get? other = m.get? other := by
  have hb : (other == key) = false := by simpa using h
  induction m with
  | nil => simp [insert, get?, List.lookup_cons, hb]
  | cons e rest ih =>
    obtain ⟨k, v⟩ := e
    simp only [insert]
    split
    · subst_vars
      simp [get?, List.lookup_cons, hb]
    · split
      · simp [get?, List.lookup_cons, hb]
      · simp only [get?, List.lookup_cons] at ih ⊢
        rw [ih]

@[simp] theorem get?_erase_self (m : SortedMap α) (key : String) : (m.erase key).get? key = none := by
  induction m with
  | nil => rfl
  | cons e rest ih =>
    obtain ⟨k, v⟩ := e
    by_cases h : k = key
    · subst h
      simpa [erase, get?] using ih
    · have hb : (key == k) = false := by simpa using Ne.symm h
      simpa [erase, get?, h, List.lookup_cons, hb] using ih

theorem get?_erase_of_ne (m : SortedMap α) {key other : String} (h : other ≠ key) :
    (m.erase key).get? other = m.get? other := by
  induction m with
  | nil => rfl
  | cons e rest ih =>
    obtain ⟨k, v⟩ := e
    by_cases gone : k = key
    · subst gone
      have hb : (other == k) = false := by simpa using h
      simpa [erase, get?, List.lookup_cons, hb] using ih
    · have kept : erase ((k, v) :: rest) key = (k, v) :: erase rest key :=
        List.filter_cons_of_pos (by simpa using gone)
      simp only [get?, List.lookup_cons] at ih ⊢
      rw [kept, List.lookup_cons, ih]

end SortedMap

end Provision

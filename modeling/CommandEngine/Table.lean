/-!
# Tables

A table holds at most one value for a key. It is a list of rows in the order in which their keys
first came, so it has a visible order, but nothing depends on it: all that other modules use is
`get?`, and each operation is described by what it does to `get?`. Inserting replaces the row of a
known key where it stands, which keeps one row for each key.
-/

namespace CommandEngine

/-- At most one value for each key. -/
structure Table (κ α : Type) where
  /-- The keys with their values, in the order in which the keys first came. -/
  rows : List (κ × α) := []
  deriving DecidableEq

namespace Table

variable {κ α : Type} [DecidableEq κ]

/-- The value in the first row with a key. -/
def findRow (key : κ) : List (κ × α) → Option α
  | [] => none
  | row :: rest => if row.1 = key then some row.2 else findRow key rest

/-- The value of a key. -/
def get? (t : Table κ α) (key : κ) : Option α := findRow key t.rows

def contains (t : Table κ α) (key : κ) : Bool := (t.get? key).isSome

def keys (t : Table κ α) : List κ := t.rows.map Prod.fst

/-- Put a row in place of the row with its key, at the end if there is none. -/
def insertRow (key : κ) (value : α) : List (κ × α) → List (κ × α)
  | [] => [(key, value)]
  | row :: rest =>
    if row.1 = key then (key, value) :: rest else row :: insertRow key value rest

/-- Give a key a value. -/
def insert (t : Table κ α) (key : κ) (value : α) : Table κ α := ⟨insertRow key value t.rows⟩

/-- Give several keys one value. -/
def insertAll (t : Table κ α) (keys : List κ) (value : α) : Table κ α :=
  keys.foldl (·.insert · value) t

/-- Take the value of a key away. -/
def erase (t : Table κ α) (key : κ) : Table κ α := ⟨t.rows.filter (·.1 ≠ key)⟩

/-- Take the values of several keys away. -/
def eraseAll (t : Table κ α) (keys : List κ) : Table κ α := keys.foldl erase t

@[simp]
theorem get?_empty (key : κ) : ({} : Table κ α).get? key = none := rfl

/-- Inserting changes the value of the inserted key and of no other. -/
theorem get?_insert (t : Table κ α) (key other : κ) (value : α) :
    (t.insert key value).get? other = if key = other then some value else t.get? other := by
  obtain ⟨rows⟩ := t
  simp only [get?, insert]
  induction rows with
  | nil => rfl
  | cons row rest ih =>
    by_cases held : row.1 = key
    · by_cases same : key = other <;> simp [insertRow, findRow, held, same]
    · rw [insertRow, if_neg held, findRow, findRow, ih]
      by_cases here : row.1 = other
      · have apart : key ≠ other := fun same => held (here.trans same.symm)
        simp [here, apart]
      · simp [here]

@[simp]
theorem get?_insert_self (t : Table κ α) (key : κ) (value : α) :
    (t.insert key value).get? key = some value := by simp [get?_insert]

/-- Inserting the value that a key has changes nothing, not even the order of the rows. -/
theorem insert_of_get?_eq_some {t : Table κ α} {key : κ} {value : α}
    (held : t.get? key = some value) : t.insert key value = t := by
  obtain ⟨rows⟩ := t
  simp only [get?, insert, mk.injEq] at held ⊢
  induction rows with
  | nil => cases held
  | cons row rest ih =>
    by_cases here : row.1 = key
    · rw [findRow, if_pos here, Option.some.injEq] at held
      rw [insertRow, if_pos here, ← here, ← held]
    · rw [findRow, if_neg here] at held
      rw [insertRow, if_neg here, ih held]

/-- Erasing takes away the value of the erased key and of no other. -/
theorem get?_erase (t : Table κ α) (key other : κ) :
    (t.erase key).get? other = if key = other then none else t.get? other := by
  obtain ⟨rows⟩ := t
  simp only [get?, erase]
  induction rows with
  | nil => simp [findRow]
  | cons row rest ih =>
    by_cases held : row.1 = key
    · rw [List.filter_cons_of_neg (by simpa using held), ih]
      by_cases same : key = other <;> simp [findRow, held, same]
    · rw [List.filter_cons_of_pos (by simpa using held), findRow, findRow, ih]
      by_cases here : row.1 = other
      · have apart : key ≠ other := fun same => held (here.trans same.symm)
        simp [here, apart]
      · simp [here]

/-- Inserting one value under several keys changes their values and no others. -/
theorem get?_insertAll (t : Table κ α) (keys : List κ) (other : κ) (value : α) :
    (t.insertAll keys value).get? other = if other ∈ keys then some value else t.get? other := by
  induction keys generalizing t with
  | nil => rfl
  | cons key rest ih =>
    change ((t.insert key value).insertAll rest value).get? other = _
    rw [ih, get?_insert]
    by_cases here : other ∈ rest
    · simp [here]
    · by_cases same : key = other
      · simp [same]
      · simp [here, same, Ne.symm same]

/-- Erasing several keys takes away their values and no others. -/
theorem get?_eraseAll (t : Table κ α) (keys : List κ) (other : κ) :
    (t.eraseAll keys).get? other = if other ∈ keys then none else t.get? other := by
  induction keys generalizing t with
  | nil => rfl
  | cons key rest ih =>
    change ((t.erase key).eraseAll rest).get? other = _
    rw [ih, get?_erase]
    by_cases here : other ∈ rest
    · simp [here]
    · by_cases same : key = other
      · simp [same]
      · simp [here, same, Ne.symm same]

end Table

end CommandEngine

/-!
# Tables

A table maps names to values, in the order of the names (by code points), each name once. Tables are
built by `Table.insert`, where a later value replaces an earlier one of the same name.
-/

namespace Telltale

/-- Names with their values, in the order of the names. -/
abbrev Table (α : Type u) := List (String × α)

namespace Table

/-- The value of a name. -/
def get? (t : Table α) (name : String) : Option α := List.lookup name t

/-- Whether the table has the name. -/
def has (t : Table α) (name : String) : Bool := (get? t name).isSome

/-- Puts a value at its place, instead of an earlier one of that name. -/
def insert (name : String) (value : α) : Table α → Table α
  | [] => [(name, value)]
  | (n, v) :: rest =>
    if name < n then (name, value) :: (n, v) :: rest
    else if name = n then (name, value) :: rest
    else (n, v) :: insert name value rest

/-- The table of a list of pairs; of two pairs with one name the later one stays. -/
def ofPairs (pairs : List (String × α)) : Table α :=
  pairs.foldl (fun t p => insert p.1 p.2 t) []

/-- The names, in order. -/
def names (t : Table α) : List String := t.map (·.1)

/-- The value of a name, changed. Without a value the change starts from `initial`. -/
def update (name : String) (initial : α) (change : α → α) (t : Table α) : Table α :=
  insert name (change ((get? t name).getD initial)) t

@[simp] theorem get?_nil (name : String) : get? ([] : Table α) name = none := rfl

theorem get?_cons (n : String) (v : α) (t : Table α) (name : String) :
    get? ((n, v) :: t) name = if name = n then some v else get? t name := by
  unfold get?
  rw [List.lookup_cons]
  by_cases h : name = n
  · simp [h]
  · simp [h, show (name == n) = false by simp [h]]

/-- What a name stands for in a table is one of the values of the table. -/
theorem mem_values_of_get? {t : Table α} {name : String} {a : α}
    (h : Table.get? t name = some a) : a ∈ t.map (·.2) := by
  induction t with
  | nil => cases h
  | cons p rest ih =>
    obtain ⟨n, b⟩ := p
    rw [Table.get?_cons] at h
    split at h
    · cases h
      exact List.mem_cons_self
    · exact List.mem_cons_of_mem _ (ih h)

/-- Looking a name up after a value was put in. -/
theorem get?_insert (t : Table α) (n : String) (v : α) (name : String) :
    get? (insert n v t) name = if name = n then some v else get? t name := by
  induction t with
  | nil => simp [insert, get?_cons]
  | cons p rest ih =>
    obtain ⟨m, w⟩ := p
    unfold insert
    split
    · rw [get?_cons]
    · split
      · rename_i h; subst h; simp only [get?_cons]; split <;> rfl
      · rename_i h; simp only [get?_cons, ih]; split <;> split <;> simp_all

end Table

/-- A set of names, in order, each once. -/
abbrev Names := List String

namespace Names

/-- Puts a name at its place, unless it is there. -/
def insert (name : String) : Names → Names
  | [] => [name]
  | n :: rest =>
    if name < n then name :: n :: rest
    else if name = n then n :: rest
    else n :: insert name rest

/-- Takes a name out. -/
def erase (name : String) (s : Names) : Names := s.filter (· ≠ name)

/-- The set of the names in a list. -/
def ofList (names : List String) : Names := names.foldl (fun s n => insert n s) []

/-- What a set holds after a name was put in. -/
theorem mem_insert {name n : String} {s : Names} : n ∈ insert name s ↔ n = name ∨ n ∈ s := by
  induction s with
  | nil => simp [insert]
  | cons m rest ih =>
    unfold insert
    split
    · simp
    · split
      · rename_i h; simp [h]
      · simp [ih]; grind

/-- What a set holds after a name was taken out. -/
theorem mem_erase {name n : String} {s : Names} : n ∈ erase name s ↔ n ∈ s ∧ n ≠ name := by
  simp [erase]

end Names

end Telltale

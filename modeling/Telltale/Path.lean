import Telltale.Json
import Telltale.Text.Digits

/-!
# Dotted paths

A path leads into a value by the names of fields and the positions of items, with a point between
them. Empty names count.

* `Path.split` takes a path apart; `Path.split_append_dot` says that a point joins two paths.
* `Path.walk` follows the segments of a path from a value. A null at the end counts as absent.
-/

namespace Telltale.Path

/-! ### Segments -/

/-- The segments of a path's characters, where `current` are the characters of the first segment
that were read before, last one first. -/
def splitList (current : List Char) : List Char → List (List Char)
  | [] => [current.reverse]
  | c :: rest =>
    if c = '.' then current.reverse :: splitList [] rest else splitList (c :: current) rest

/-- The segments of a path; there is always one. -/
def split (path : String) : List String := (splitList [] path.toList).map String.ofList

/-- A point separates the segments of two paths. -/
theorem splitList_append_dot (current p q : List Char) :
    splitList current (p ++ '.' :: q) = splitList current p ++ splitList [] q := by
  induction p generalizing current with
  | nil => simp [splitList]
  | cons c rest ih =>
    simp only [List.cons_append, splitList]
    split <;> simp [ih]

/-- The segments of two paths joined by a point are those of both. -/
theorem split_append_dot (p q : String) : split (p ++ "." ++ q) = split p ++ split q := by
  have : (p ++ "." ++ q).toList = p.toList ++ '.' :: q.toList := by simp
  unfold split
  rw [this, splitList_append_dot, List.map_append]

theorem splitList_ne_nil (current cs : List Char) : splitList current cs ≠ [] := by
  induction cs generalizing current with
  | nil => simp [splitList]
  | cons c rest ih => unfold splitList; split <;> simp [ih]

/-! ### Walking -/

/-- The characters without one plus sign in front. -/
def dropPlus : List Char → List Char
  | '+' :: rest => rest
  | cs => cs

/-- The position that a segment stands for: digits, perhaps after a plus sign. -/
def position? (segment : String) : Option Nat :=
  let digits := dropPlus segment.toList
  if digits.isEmpty || !digits.all Char.isDigit then none else some (Text.natOfDigits digits)

/-- The field or item that a segment leads to. -/
def step (v : Json) (segment : String) : Option Json :=
  match v with
  | .object fields => Table.get? fields segment
  | .array items => (position? segment).bind fun i => items[i]?
  | _ => none

/-- The value that segments lead to, unless it is null. -/
def walk (v : Json) : List String → Option Json
  | [] => v.nonNull?
  | s :: rest => (step v s).bind (walk · rest)

@[simp] theorem walk_nil (v : Json) : walk v [] = v.nonNull? := rfl

theorem walk_cons (v : Json) (s : String) (rest : List String) :
    walk v (s :: rest) = (step v s).bind (walk · rest) := rfl

theorem step_null (s : String) : step .null s = none := rfl

/-- Walking on from where some segments lead, which is nowhere if that is null. -/
theorem walk_append (v : Json) (p : List String) {q : List String} (h : q ≠ []) :
    walk v (p ++ q) = (walk v p).bind (walk · q) := by
  induction p generalizing v with
  | nil =>
    obtain ⟨s, rest, rfl⟩ := List.exists_cons_of_ne_nil h
    cases v <;> simp [walk_cons, Json.nonNull?, Json.isNull, step_null]
  | cons s rest ih =>
    simp only [List.cons_append, walk_cons]
    cases step v s with
    | none => rfl
    | some u => exact ih u

end Telltale.Path

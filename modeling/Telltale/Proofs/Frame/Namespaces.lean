import Telltale.Frame

/-!
# Paths and the documents that they lead into

A path leads into one document: that of the source which its first segment names, or the frame's
own data if the segment names none. The rest is a walk along segments, in which a null is nowhere.

* `Path.source?`, `Path.inner` — the source that a path names, and the segments behind it.
* `lookup_eq_bind` — what a path finds is what the walk finds in the document `root?`.
* `Path.source?_append_dot`, `lookup_append_dot` — a longer path leads into the same document, and
  on from what the shorter one finds.
* `lookup_of_other`, `lookup_of_own` — a path that names another source than the frame's does not
  see the frame, and every other path does not see the documents beside it.
* `paths_compose` — all of this for every path, frame and pair of documents.
-/

namespace Telltale

namespace Path

/-! ## What a path names -/

theorem split_ne_nil (p : String) : split p ≠ [] := by
  rw [split, Ne, List.map_eq_nil_iff]
  exact splitList_ne_nil _ _

/-- The source that the first segment names, if it names one. -/
def source? (p : String) : Option Source := (split p).head?.bind Source.ofName?

/-- The segments that lead into the document of a path. -/
def inner (p : String) : List String := if (source? p).isSome then (split p).tail else split p

theorem head?_split_append_dot (p q : String) : (split (p ++ "." ++ q)).head? = (split p).head? := by
  obtain ⟨head, rest, hsplit⟩ := List.exists_cons_of_ne_nil (split_ne_nil p)
  rw [split_append_dot, hsplit, List.cons_append, List.head?_cons, List.head?_cons]

/-- What stands behind a point does not change what is named before it. -/
theorem source?_append_dot (p q : String) : source? (p ++ "." ++ q) = source? p := by
  rw [source?, source?, head?_split_append_dot]

/-- The name of a source names it, by itself and in front of a point. -/
theorem source?_name (s : Source) : source? s.name = some s := by cases s <;> decide

theorem inner_append_dot (p q : String) : inner (p ++ "." ++ q) = inner p ++ split q := by
  rw [inner, inner, source?_append_dot, split_append_dot]
  split
  · exact List.tail_append_of_ne_nil (split_ne_nil p)
  · rfl

/-! ## Null -/

theorem walk_null (segments : List String) : walk .null segments = none := by
  cases segments <;> rfl

theorem nonNull?_ne_null (v : Json) : v.nonNull? ≠ some .null := by
  cases v with
  | null => exact fun h => nomatch h
  | bool | number | string | array | object => exact fun h => nomatch h

/-- A walk does not end at a null. -/
theorem walk_ne_null (v : Json) (segments : List String) : walk v segments ≠ some .null := by
  induction segments generalizing v with
  | nil => exact nonNull?_ne_null v
  | cons s rest ih =>
    rw [walk_cons]
    intro h
    obtain ⟨u, -, hu⟩ := Option.bind_eq_some_iff.mp h
    exact ih u hu

end Path

/-! ## Documents -/

/-- The document that a path leads into, if it is there. -/
def root? (f : Frame) (x : Externals) (p : String) : Option Json :=
  (Path.source? p).elim (some f.data) (document? f x)

/-- A path finds what the walk finds in its document. -/
theorem lookup_eq_bind (f : Frame) (x : Externals) (p : String) :
    lookup f x p = (root? f x p).bind (Path.walk · (Path.inner p)) := by
  obtain ⟨head, rest, hsplit⟩ := List.exists_cons_of_ne_nil (Path.split_ne_nil p)
  have hsource : Path.source? p = Source.ofName? head := by
    rw [Path.source?, hsplit, List.head?_cons, Option.bind_some]
  rw [lookup, root?, Path.inner, hsource, hsplit, lookupSegments]
  cases Source.ofName? head with
  | some s => rfl
  | none => rfl

variable {f : Frame} {x : Externals}

/-- A longer path goes on from what the shorter one finds. -/
theorem lookup_append_dot (f : Frame) (x : Externals) (p q : String) :
    lookup f x (p ++ "." ++ q) = (lookup f x p).bind (Path.walk · (Path.split q)) := by
  rw [lookup_eq_bind, lookup_eq_bind, root?, root?, Path.source?_append_dot, Path.inner_append_dot,
    Option.bind_assoc]
  simp only [Path.walk_append _ _ (Path.split_ne_nil q)]

theorem lookup_ne_null (f : Frame) (x : Externals) (p : String) : lookup f x p ≠ some .null := by
  rw [lookup_eq_bind]
  intro h
  obtain ⟨document, -, hwalk⟩ := Option.bind_eq_some_iff.mp h
  exact Path.walk_ne_null _ _ hwalk

/-- A path that names another source than the frame's leads into the document beside the frame. -/
theorem lookup_of_other {p : String} {s : Source} (hp : Path.source? p = some s)
    (hs : s ≠ f.source) :
    lookup f x p = (x.document? s).bind (Path.walk · (Path.split p).tail) := by
  rw [lookup_eq_bind, root?, Path.inner, hp, Option.elim_some, document?, if_neg hs,
    Option.isSome_some, if_pos rfl]

/-- Every other path leads into the frame's own data. -/
theorem lookup_of_own {p : String} (h : ∀ s, Path.source? p = some s → s = f.source) :
    lookup f x p = Path.walk f.data (Path.inner p) := by
  have hroot : root? f x p = some f.data := by
    cases hp : Path.source? p with
    | none => rw [root?, hp, Option.elim_none]
    | some s => rw [root?, hp, Option.elim_some, document?, if_pos (h s hp)]
  rw [lookup_eq_bind, hroot, Option.bind_some]

/-! ## Paths as a whole -/

/-- What paths find on a frame with documents beside it. -/
structure PathsCompose (f : Frame) (x : Externals) : Prop where
  /-- A path of two parts finds what its second part finds from where the first one leads. -/
  append : ∀ p q v, lookup f x (p ++ "." ++ q) = some v ↔
    ∃ u, lookup f x p = some u ∧ Path.walk u (Path.split q) = some v
  /-- So does a walk of two parts, from every value. -/
  walk_append : ∀ w p q v, Path.walk w (Path.split (p ++ "." ++ q)) = some v ↔
    ∃ u, Path.walk w (Path.split p) = some u ∧ Path.walk u (Path.split q) = some v
  /-- A null is never found, and nothing is found behind it. -/
  null : ∀ p, lookup f x p ≠ some .null
  walk_null : ∀ w p, Path.walk w (Path.split p) ≠ some .null ∧
    Path.walk .null (Path.split p) = none
  /-- A path names a source by its first segment. -/
  named : ∀ (s : Source) p, Path.source? s.name = some s ∧
    Path.source? (s.name ++ "." ++ p) = some s
  /-- A path that names another source does not see what is in the frame. -/
  frame_unseen : ∀ p s, Path.source? p = some s → s ≠ f.source →
    ∀ f' : Frame, f'.source = f.source → lookup f' x p = lookup f x p
  /-- It finds nothing in the streams of frames, and otherwise sees only the document of its own
  name. -/
  absent : ∀ p s, Path.source? p = some s → s ≠ f.source → s = .dashboard ∨ s = .journal →
    lookup f x p = none
  state : ∀ p, Path.source? p = some .state → f.source ≠ .state →
    lookup f x p = x.state.bind (Path.walk · (Path.split p).tail)
  capi : ∀ p, Path.source? p = some .capi → f.source ≠ .capi →
    lookup f x p = x.capi.bind (Path.walk · (Path.split p).tail)
  /-- Every other path does not see the documents beside the frame. -/
  externals_unseen : ∀ p, (∀ s, Path.source? p = some s → s = f.source) →
    ∀ x', lookup f x' p = lookup f x p

/-- **Paths compose and keep to the document that they name**, for every frame and all documents
beside it. -/
theorem paths_compose (f : Frame) (x : Externals) : PathsCompose f x where
  append p q v := by
    rw [lookup_append_dot]
    exact Option.bind_eq_some_iff
  walk_append w p q v := by
    rw [Path.split_append_dot, Path.walk_append _ _ (Path.split_ne_nil q)]
    exact Option.bind_eq_some_iff
  null := lookup_ne_null f x
  walk_null w _ := ⟨Path.walk_ne_null w _, Path.walk_null _⟩
  named s p := ⟨Path.source?_name s, (Path.source?_append_dot _ p).trans (Path.source?_name s)⟩
  frame_unseen p s hp hs f' hf' := by
    rw [lookup_of_other hp hs, lookup_of_other hp (hf' ▸ hs)]
  absent p s hp hs hstream := by
    rw [lookup_of_other hp hs]
    rcases hstream with rfl | rfl <;> rfl
  state _ hp hf := lookup_of_other hp hf.symm
  capi _ hp hf := lookup_of_other hp hf.symm
  externals_unseen p h x' := by rw [lookup_of_own h, lookup_of_own h]

/-- A frame that tells of a ship and its pads, the first of which is not known. -/
def shipFrame : Frame where
  source := .journal
  event := some "Docked"
  timestamp := ⟨0, 0⟩
  data := .object [("ship", .object [("pads", .array [.null, .string "large"])])]

/-- A persisted state that tells of another ship. -/
def shipState : Externals := ⟨some (.object [("ship", .string "sidewinder")]), none⟩

theorem paths_compose_ship :
    lookup shipFrame shipState ("ship" ++ "." ++ "pads.1") = some (.string "large") ∧
    lookup shipFrame .absent ("ship" ++ "." ++ "pads.1") = some (.string "large") ∧
    lookup shipFrame shipState ("ship.pads" ++ "." ++ "0") = none ∧
    lookup shipFrame shipState "state.ship" = some (.string "sidewinder") ∧
    lookup shipFrame shipState "dashboard.ship" = none := by
  have hpaths := paths_compose shipFrame shipState
  have hlarge : lookup shipFrame shipState ("ship" ++ "." ++ "pads.1") = some (.string "large") :=
    (hpaths.append "ship" "pads.1" _).mpr ⟨_, rfl, rfl⟩
  have hsame := hpaths.externals_unseen ("ship" ++ "." ++ "pads.1") (by decide) .absent
  refine ⟨hlarge, hsame.trans hlarge, ?_, ?_, ?_⟩
  · refine Option.eq_none_iff_forall_ne_some.mpr fun v hv => ?_
    obtain ⟨u, hu, hwalk⟩ := (hpaths.append "ship.pads" "0" v).mp hv
    cases hu
    cases hwalk
  · exact hpaths.state "state.ship" (by decide) (by decide)
  · exact hpaths.absent "dashboard.ship" .dashboard (by decide) (by decide) (.inl rfl)

-- a field with the name of a source is found only behind the name of the frame's own source
example :
    let f : Frame := ⟨.dashboard, none, ⟨0, 0⟩, .object [("state", .object [("x", .bool true)])]⟩
    lookup f .absent "state.x" = none ∧
      lookup f .absent "dashboard.state.x" = some (.bool true) :=
  ⟨rfl, rfl⟩

end Telltale

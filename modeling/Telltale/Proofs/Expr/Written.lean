import Telltale.Proofs.Datum.Spelled
import Telltale.Proofs.Expr.Shifts

/-!
# Expressions that are written and read back

An expression is written as an object with its fields, where those that are not there are left out.
Whatever spells this object is read as the expression again, no matter how deeply expressions are
nested, as long as no bound and no default is lost in writing.

* `Expr.IsTyped` — what the types of an expression's parts promise. `Expr.typed_of_ofDatum?` says
  that every expression that is read keeps it.
* `Expr.IsPlain` — what is not lost: bounds are finite, and no default is null.
* `Expr.fields`, `Expr.sublist_fieldNames` — what is written of an expression are fields that its
  operation has.
* `Expr.ofFields?_of_spells`, `Expr.read?_of_spells` — one operation is read back if what stands in
  it is, and so is a whole expression.
* `Expr.ofDatum?_of_spells` — the same for documents.
-/

namespace Telltale.Expr

/-! ## What an expression holds -/

/-- The default that an expression has itself. -/
def default? : Expr → Option Json
  | .path _ default | .bitfield _ _ _ default | .map _ _ default | .event _ _ _ default
  | .firstMatch _ default => default
  | .all _ | .any _ | .not _ | .recent .. | .compare .. | .literal _ | .combine .. => none

/-- The values that an expression holds itself. -/
def values : Expr → List Json
  | .map _ table default => .object table :: default.toList
  | .firstMatch cases default => cases.map (·.2) ++ default.toList
  | .path _ default | .bitfield _ _ _ default | .event _ _ _ default => default.toList
  | .compare _ _ value | .literal value => [value]
  | .all _ | .any _ | .not _ | .recent .. | .combine .. => []

/-- What an expression holds itself is of its type: objects and tables are in order, and the index
of a bit fits in a byte. -/
structure IsTyped (e : Expr) : Prop where
  inOrder : ∀ v ∈ e.values, v.InOrder
  byte : ∀ path group i default, e = .bitfield path group (.index i) default → i < 256

/-- What an expression holds itself can be written: its bound is finite, and its default is not the
null that stands for none. -/
structure IsPlain (e : Expr) : Prop where
  finite : ∀ name within, e = .recent name within → ∃ x, within = .finite x
  default_ne_null : e.default? ≠ some .null

/-- Something holds of an expression and of all that stand in it. -/
def Throughout (P : Expr → Prop) (e : Expr) : Prop := ∀ t, Inside t e → P t

/-! ## Fields -/

/-- The fields that are written of an expression. -/
def fields : Expr → List (String × Json)
  | .path p default => ("path", .string p) :: defaultField default
  | .bitfield p group bit default =>
    optionField "path" .string p ++ optionField "field_ref" .string group ++
      ("bit", bitJson bit) :: defaultField default
  | .map input table default =>
    ("from", toJson input) :: ("map", .object table) :: defaultField default
  | .event name field category default =>
    ("event", .string name) :: (optionField "field" .string field ++
      optionField "category" .string category ++ defaultField default)
  | .firstMatch cases default => ("cases", .array (casesToJson cases)) :: defaultField default
  | .all terms | .any terms => [("terms", .array (termsToJson terms))]
  | .not term => [("term", toJson term)]
  | .recent name within => [("event", .string name), ("within_seconds", Json.ofExtended within)]
  | .compare input c value =>
    [("from", toJson input), ("cmp", .string c.name), ("value", value)]
  | .literal value => [("value", value)]
  | .combine combiner inputs =>
    [("combiner", .string combiner), ("inputs", .array (termsToJson inputs))]

theorem toJson_eq_operation (e : Expr) : e.toJson = operation e.kind e.fields := by
  cases e <;> rfl

theorem termsToJson_eq_map (terms : List Expr) : termsToJson terms = terms.map toJson := by
  induction terms with
  | nil => rfl
  | cons e rest ih => rw [termsToJson, ih, List.map_cons]

/-- The value of a case. -/
def caseJson (c : Expr × Json) : Json := .object [("when", toJson c.1), ("value", c.2)]

theorem casesToJson_eq_map (cases : List (Expr × Json)) :
    casesToJson cases = cases.map caseJson := by
  induction cases with
  | nil => rfl
  | cons c rest ih => rw [casesToJson, ih, List.map_cons, caseJson]

theorem kind_mem_kinds (e : Expr) : e.kind ∈ kinds := by
  cases e <;> simp [kind, kinds]

theorem sublist_optionField (name : String) (write : α → Json) (x : Option α) :
    ((optionField name write x).map (·.1)).Sublist [name] := by
  cases x with
  | none => exact List.nil_sublist _
  | some a => exact List.Sublist.refl _

/-- The fields of an operation that are written are fields that it has, in their order. -/
theorem sublist_fieldNames (e : Expr) : (e.fields.map (·.1)).Sublist (fieldNames e.kind) := by
  have hdefault (default : Option Json) :
      ((defaultField default).map (·.1)).Sublist ["default"] := sublist_optionField _ _ _
  cases e with
  | path p default => exact (hdefault default).cons_cons "path"
  | bitfield p group bit default =>
    rw [fields, List.map_append, List.map_append, List.map_cons]
    exact ((sublist_optionField "path" _ p).append (sublist_optionField "field_ref" _ group)).append
      ((hdefault default).cons_cons "bit")
  | map input table default => exact ((hdefault default).cons_cons "map").cons_cons "from"
  | event name field category default =>
    rw [fields, List.map_cons, List.map_append, List.map_append]
    exact (((sublist_optionField "field" _ field).append
      (sublist_optionField "category" _ category)).append (hdefault default)).cons_cons "event"
  | firstMatch cases default => exact (hdefault default).cons_cons "cases"
  | all | any | not | recent | compare | literal | combine => exact List.Sublist.refl _

theorem op_notMem_fieldNames (e : Expr) : "op" ∉ fieldNames e.kind := by
  cases e <;> simp [kind, fieldNames]

theorem nodup_fieldNames (e : Expr) : (fieldNames e.kind).Nodup := by
  cases e <;> simp [kind, fieldNames]

theorem lookup_default (e : Expr) : e.fields.lookup "default" = e.default? := by
  cases e with
  | path p default | map input table default | firstMatch cases default => cases default <;> rfl
  | bitfield p group bit default => cases p <;> cases group <;> cases default <;> rfl
  | event name field category default => cases field <;> cases category <;> cases default <;> rfl
  | all | any | not | recent | compare | literal | combine => rfl

theorem mem_values_of_default? {e : Expr} {v : Json} (h : e.default? = some v) : v ∈ e.values := by
  cases e with
  | path | bitfield | map | event | firstMatch => cases h; simp [values]
  | all | any | not | recent | compare | literal | combine => cases h

/-! ## Reading back -/

/-- The expressions that stand in an expression directly. -/
def children : Expr → List Expr
  | .map input _ _ => [input]
  | .compare input _ _ => [input]
  | .not term => [term]
  | .firstMatch cases _ => cases.map (·.1)
  | .all terms | .any terms => terms
  | .combine _ inputs => inputs
  | .path .. | .bitfield .. | .event .. | .recent .. | .literal _ => []

theorem inside_of_mem_children {e c t : Expr} (hc : c ∈ e.children) (h : Inside t c) :
    Inside t e := by
  cases e with
  | path | bitfield | event | recent | literal => cases hc
  | map => cases List.mem_singleton.mp hc; exact .map h
  | compare => cases List.mem_singleton.mp hc; exact .compare h
  | not => cases List.mem_singleton.mp hc; exact .not h
  | firstMatch cases default =>
    obtain ⟨⟨condition, value⟩, hmem, rfl⟩ := List.mem_map.mp hc
    exact .firstMatch hmem h
  | all => exact .all hc h
  | any => exact .any hc h
  | combine => exact .combine hc h

section Read

variable {read : Datum → Option Expr} {r : Record} {depth : Nat}

theorem bitOf?_of_spells {bit : BitRef} (hbyte : ∀ i, bit = .index i → i < 256) {d : Datum}
    (hd : d.Spells (bitJson bit)) : bitOf? d = some bit := by
  cases bit with
  | index i =>
    have hi := hbyte i rfl
    obtain ⟨hrange, hjson⟩ := Json.ofNat_eq_integer (n := i) (by omega)
    rw [bitJson, hjson] at hd
    cases hd
    simp [bitOf?, Datum.natBelow?, hi]
  | name s =>
    cases hd
    rfl

theorem caseOf?_of_spells {c : Expr × Json} (hvalue : c.2.InOrder) {d : Datum}
    (hd : d.Spells (caseJson c))
    (hread : ∀ d', d'.Spells c.1.toJson → d'.depth < d.depth → read d' = some c.1) :
    caseOf? read d = some c := by
  obtain ⟨r, depth, hrecord, hdepth, hr⟩ := hd.record? ["when", "value"] (by simp)
  have hwhen : r.field? "when" read = some c.1 :=
    hr.field? (v := c.1.toJson) rfl fun d' hd' hlt => hread d' hd' (by omega)
  have hjson : r.field? "value" Datum.toJson? = some c.2 :=
    hr.field? (v := c.2) rfl fun d' hd' _ => hd'.toJson? hvalue
  simp [caseOf?, hrecord, hwhen, hjson]

theorem optional?_default (e : Expr) (htyped : e.IsTyped) (hplain : e.IsPlain)
    (hr : r.Spells depth e.fields) : r.optional? "default" Datum.toJson? = some e.default? := by
  have hlookup : e.fields.lookup "default" = e.default?.map id := by
    rw [lookup_default, Option.map_id_fun, id]
  refine hr.optional? hlookup fun v hv => ⟨?_, fun d hd => ?_⟩
  · rintro rfl
    exact hplain.default_ne_null hv
  · exact hd.toJson? (htyped.inOrder v (mem_values_of_default? hv))

theorem optional?_text {fields : List (String × Json)} {name : String} {x : Option String}
    (hr : r.Spells depth fields) (hx : fields.lookup name = x.map .string) :
    r.optional? name Datum.string? = some x :=
  hr.optional? hx fun _ _ => ⟨nofun, fun _ hd => hd.string?⟩

theorem ofFields?_of_spells (e : Expr) (htyped : e.IsTyped) (hplain : e.IsPlain)
    (hread : ∀ c ∈ e.children, ∀ d, d.Spells c.toJson → d.depth ≤ depth → read d = some c)
    (hr : r.Spells depth e.fields) : ofFields? read e.kind r = some e := by
  have hdefault := optional?_default e htyped hplain hr
  have hterms (name : String) {terms : List Expr}
      (hlookup : e.fields.lookup name = some (.array (termsToJson terms)))
      (hchildren : e.children = terms) : r.field? name (Datum.listOf? read) = some terms := by
    refine hr.field? hlookup fun d hd hdepth => ?_
    rw [termsToJson_eq_map] at hd
    exact hd.listOf? fun t ht b hb hlt => hread t (hchildren ▸ ht) b hb (by omega)
  cases e with
  | path p default =>
    have hp : r.field? "path" Datum.string? = some p :=
      hr.field? (v := .string p) rfl fun d hd _ => hd.string?
    simp [ofFields?, kind, hdefault, hp, default?]
  | bitfield p group bit default =>
    have hp : r.optional? "path" Datum.string? = some p :=
      optional?_text hr (by cases p <;> cases group <;> cases default <;> rfl)
    have hgroup : r.optional? "field_ref" Datum.string? = some group :=
      optional?_text hr (by cases p <;> cases group <;> cases default <;> rfl)
    have hbit : r.field? "bit" bitOf? = some bit := by
      refine hr.field? (v := bitJson bit) (by cases p <;> cases group <;> rfl) fun d hd _ => ?_
      exact bitOf?_of_spells (fun i hi => htyped.byte p group i default (hi ▸ rfl)) hd
    simp [ofFields?, kind, hdefault, hp, hgroup, hbit, default?]
  | map input table default =>
    have hinput : r.field? "from" read = some input :=
      hr.field? (v := input.toJson) rfl (hread input (List.mem_singleton_self _))
    have htable : r.field? "map" (Datum.table? Datum.toJson?) = some table :=
      hr.field? (v := .object table) rfl fun d hd _ =>
        hd.table? (htyped.inOrder _ List.mem_cons_self)
    simp [ofFields?, kind, hdefault, hinput, htable, default?]
  | event name field category default =>
    have hname : r.field? "event" Datum.string? = some name :=
      hr.field? (v := .string name) rfl fun d hd _ => hd.string?
    have hfield : r.optional? "field" Datum.string? = some field :=
      optional?_text hr (by cases field <;> cases category <;> cases default <;> rfl)
    have hcategory : r.optional? "category" Datum.string? = some category :=
      optional?_text hr (by cases field <;> cases category <;> cases default <;> rfl)
    simp [ofFields?, kind, hdefault, hname, hfield, hcategory, default?]
  | firstMatch cases default =>
    have hcases : r.field? "cases" (Datum.listOf? (caseOf? read)) = some cases := by
      refine hr.field? (v := .array (casesToJson cases)) rfl fun d hd hdepth => ?_
      rw [casesToJson_eq_map] at hd
      refine hd.listOf? fun c hc b hb hlt => ?_
      have hvalue := htyped.inOrder c.2 (List.mem_append_left _ (List.mem_map_of_mem hc))
      refine caseOf?_of_spells hvalue hb fun b' hb' hlt' => ?_
      exact hread c.1 (List.mem_map_of_mem hc) b' hb' (by omega)
    simp [ofFields?, kind, hdefault, hcases, default?]
  | all terms => simp [ofFields?, kind, hdefault, hterms "terms" rfl rfl]
  | any terms => simp [ofFields?, kind, hdefault, hterms "terms" rfl rfl]
  | not term =>
    have hterm : r.field? "term" read = some term :=
      hr.field? (v := term.toJson) rfl (hread term (List.mem_singleton_self _))
    simp [ofFields?, kind, hdefault, hterm]
  | recent name within =>
    obtain ⟨x, rfl⟩ := hplain.finite name within rfl
    have hname : r.field? "event" Datum.string? = some name :=
      hr.field? (v := .string name) rfl fun d hd _ => hd.string?
    have hwithin : r.field? "within_seconds" Datum.real? = some (.finite x) :=
      hr.field? (v := .number (.double x)) rfl fun d hd _ => by cases hd; rfl
    simp [ofFields?, kind, hdefault, hname, hwithin]
  | compare input c value =>
    have hinput : r.field? "from" read = some input :=
      hr.field? (v := input.toJson) rfl (hread input (List.mem_singleton_self _))
    have hcomparison : r.field? "cmp" (Datum.choice? Comparison.ofName? true) = some c :=
      hr.field? (v := .string c.name) rfl fun d hd _ => by
        cases hd
        cases c <;> decide
    have hvalue : r.field? "value" Datum.toJson? = some value :=
      hr.field? (v := value) rfl fun d hd _ =>
        hd.toJson? (htyped.inOrder _ (List.mem_singleton_self _))
    simp [ofFields?, kind, hdefault, hinput, hcomparison, hvalue]
  | literal value =>
    have hvalue : r.field? "value" Datum.toJson? = some value :=
      hr.field? (v := value) rfl fun d hd _ =>
        hd.toJson? (htyped.inOrder _ (List.mem_singleton_self _))
    simp [ofFields?, kind, hdefault, hvalue]
  | combine combiner inputs =>
    have hcombiner : r.field? "combiner" Datum.string? = some combiner :=
      hr.field? (v := .string combiner) rfl fun d hd _ => hd.string?
    simp [ofFields?, kind, hdefault, hcombiner, hterms "inputs" rfl rfl]

end Read

/-- An expression is read back from whatever spells it, no matter how deeply it is nested. -/
theorem read?_of_spells {inner : Bool} {depth : Nat} {e : Expr} {d : Datum}
    (htyped : e.Throughout IsTyped) (hplain : e.Throughout IsPlain) (hd : d.Spells e.toJson)
    (hdepth : d.depth ≤ depth) : read? inner depth d = some e := by
  induction depth generalizing inner e d with
  | zero =>
    rw [toJson_eq_operation] at hd
    cases hd
    simp [Datum.depth] at hdepth
  | succ depth ih =>
    rw [toJson_eq_operation] at hd
    obtain ⟨rest, r, n, htag, hrest, hn, hr⟩ :=
      hd.tagged? (op_notMem_fieldNames e) fun f hf =>
        (sublist_fieldNames e).subset (List.mem_map_of_mem hf)
    have hkind : (Datum.string e.kind).tagName? kinds inner = some e.kind := by
      rw [Datum.tagName?, if_pos (List.contains_iff_mem.mpr (kind_mem_kinds e))]
    have hfields : ofFields? (read? true depth) e.kind r = some e := by
      refine ofFields?_of_spells e (htyped e .self) (hplain e .self) (fun c hc d hd hle => ?_) hr
      exact ih (fun t ht => htyped t (inside_of_mem_children hc ht))
        (fun t ht => hplain t (inside_of_mem_children hc ht)) hd (by omega)
    simp [read?, htag, hkind, hrest, hfields]

/-! ## What is written -/

theorem sizeOf_lt_of_mem_children {e c : Expr} (hc : c ∈ e.children) : sizeOf c < sizeOf e := by
  cases e with
  | path | bitfield | event | recent | literal => cases hc
  | map | compare | not =>
    cases List.mem_singleton.mp hc
    simp only [map.sizeOf_spec, compare.sizeOf_spec, not.sizeOf_spec]
    omega
  | firstMatch cases default =>
    obtain ⟨⟨condition, value⟩, hmem, rfl⟩ := List.mem_map.mp hc
    have hlt := List.sizeOf_lt_of_mem hmem
    simp only [Prod.mk.sizeOf_spec] at hlt
    simp only [firstMatch.sizeOf_spec]
    omega
  | all | any | combine =>
    have hlt := List.sizeOf_lt_of_mem hc
    simp only [children] at hlt
    simp only [all.sizeOf_spec, any.sizeOf_spec, combine.sizeOf_spec]
    omega

/-- What holds of an expression if it holds of those that stand in it directly holds of all. -/
theorem induction_on_children {P : Expr → Prop} (h : ∀ e, (∀ c ∈ e.children, P c) → P e)
    (e : Expr) : P e :=
  h e fun c hc =>
    have := sizeOf_lt_of_mem_children hc
    induction_on_children h c
termination_by sizeOf e

theorem forall_mem_optionField {P : Json → Prop} {name : String} {write : α → Json}
    {x : Option α} (h : ∀ a ∈ x, P (write a)) : ∀ f ∈ optionField name write x, P f.2 := by
  cases x with
  | none => exact nofun
  | some a => exact List.forall_mem_singleton.mpr (h a rfl)

theorem distinct_fields (e : Expr) (htyped : e.IsTyped)
    (hchildren : ∀ c ∈ e.children, c.toJson.Distinct) : ∀ f ∈ e.fields, f.2.Distinct := by
  have hvalue {v : Json} (hv : v ∈ e.values) : v.Distinct := (htyped.inOrder v hv).distinct
  have hdefault {default : Option Json} (h : e.default? = default) :
      ∀ f ∈ defaultField default, f.2.Distinct :=
    forall_mem_optionField fun v hv => hvalue (mem_values_of_default? (h.trans hv))
  have htext {name : String} {x : Option String} :
      ∀ f ∈ optionField name .string x, f.2.Distinct :=
    forall_mem_optionField fun s _ => .string s
  have hterms {terms : List Expr} (h : e.children = terms) :
      (Json.array (termsToJson terms)).Distinct := by
    rw [termsToJson_eq_map]
    exact .array_map fun t ht => hchildren t (h ▸ ht)
  cases e with
  | path p default => exact List.forall_mem_cons.mpr ⟨.string p, hdefault rfl⟩
  | bitfield p group bit default =>
    have hbit : (bitJson bit).Distinct := by
      cases bit with
      | index i => exact .ofNat i
      | name s => exact .string s
    rw [fields, List.forall_mem_append, List.forall_mem_append, List.forall_mem_cons]
    exact ⟨⟨htext, htext⟩, hbit, hdefault rfl⟩
  | map input table default =>
    rw [fields, List.forall_mem_cons, List.forall_mem_cons]
    exact ⟨hchildren input (List.mem_singleton_self _), hvalue List.mem_cons_self, hdefault rfl⟩
  | event name field category default =>
    rw [fields, List.forall_mem_cons, List.forall_mem_append, List.forall_mem_append]
    exact ⟨.string name, ⟨htext, htext⟩, hdefault rfl⟩
  | firstMatch cases default =>
    rw [fields, List.forall_mem_cons, casesToJson_eq_map]
    refine ⟨.array_map fun c hc => ?_, hdefault rfl⟩
    refine .object (by simp) (List.forall_mem_cons.mpr ⟨?_, List.forall_mem_singleton.mpr ?_⟩)
    · exact hchildren c.1 (List.mem_map_of_mem hc)
    · exact hvalue (List.mem_append_left _ (List.mem_map_of_mem hc))
  | all terms | any terms => exact List.forall_mem_singleton.mpr (hterms rfl)
  | not term => exact List.forall_mem_singleton.mpr (hchildren term (List.mem_singleton_self _))
  | recent name within =>
    have hwithin : (Json.ofExtended within).Distinct := by
      cases within with
      | finite x => exact .number _
      | infinity negative => exact .null
      | nan => exact .null
    exact List.forall_mem_cons.mpr ⟨.string name, List.forall_mem_singleton.mpr hwithin⟩
  | compare input c value =>
    rw [fields, List.forall_mem_cons, List.forall_mem_cons, List.forall_mem_singleton]
    exact ⟨hchildren input (List.mem_singleton_self _), .string _,
      hvalue (List.mem_singleton_self _)⟩
  | literal value => exact List.forall_mem_singleton.mpr (hvalue (List.mem_singleton_self _))
  | combine combiner inputs =>
    exact List.forall_mem_cons.mpr ⟨.string combiner, List.forall_mem_singleton.mpr (hterms rfl)⟩

/-- No name stands twice in an object of what is written. -/
theorem distinct_toJson {e : Expr} (htyped : e.Throughout IsTyped) : e.toJson.Distinct := by
  induction e using induction_on_children with
  | _ e ih =>
    rw [toJson_eq_operation]
    refine .object ?_ (List.forall_mem_cons.mpr ⟨.string _, ?_⟩)
    · rw [List.map_cons]
      refine List.nodup_cons.mpr ⟨fun hmem => ?_, ?_⟩
      · exact op_notMem_fieldNames e ((sublist_fieldNames e).subset hmem)
      · exact (nodup_fieldNames e).sublist (sublist_fieldNames e)
    · refine distinct_fields e (htyped e .self) fun c hc => ih c hc fun t ht => ?_
      exact htyped t (inside_of_mem_children hc ht)

/-- An expression is read back from whatever spells it. -/
theorem ofDatum?_of_spells {e : Expr} {d : Datum} (htyped : e.Throughout IsTyped)
    (hplain : e.Throughout IsPlain) (hd : d.Spells e.toJson) : ofDatum? d = some e := by
  rw [ofDatum?, if_pos (hd.isReadable (distinct_toJson htyped))]
  exact read?_of_spells htyped hplain hd (Nat.le_refl _)

/-! ## What is read -/

theorem Inside.eq_or_inside_child {t e : Expr} (h : Inside t e) :
    t = e ∨ ∃ c ∈ e.children, Inside t c := by
  cases h with
  | self => exact .inl rfl
  | map h | compare h | not h => exact .inr ⟨_, List.mem_singleton_self _, h⟩
  | firstMatch hmem h => exact .inr ⟨_, List.mem_map_of_mem hmem, h⟩
  | all hmem h | any hmem h | combine hmem h => exact .inr ⟨_, hmem, h⟩

/-- What holds of an expression itself and throughout those that stand in it directly. -/
theorem Throughout.of_children {P : Expr → Prop} {e : Expr} (he : P e)
    (h : ∀ c ∈ e.children, c.Throughout P) : e.Throughout P := by
  intro t ht
  rcases ht.eq_or_inside_child with rfl | ⟨c, hc, ht⟩
  · exact he
  · exact h c hc t ht

theorem byte_of_bitOf? {d : Datum} {i : Nat} (h : bitOf? d = some (.index i)) : i < 256 := by
  unfold bitOf? at h
  split at h
  · next j hj =>
    cases h
    unfold Datum.natBelow? at hj
    split at hj
    · split at hj
      · next hlt =>
        cases hj
        rw [Bool.and_eq_true, decide_eq_true_eq, decide_eq_true_eq] at hlt
        exact hlt.2
      · cases hj
    · cases hj
  · obtain ⟨s, -, hs⟩ := Option.map_eq_some_iff.mp h
    cases hs

theorem of_caseOf? {read : Datum → Option Expr} {d : Datum} {c : Expr × Json}
    (h : caseOf? read d = some c) : c.2.InOrder ∧ ∃ d', read d' = some c.1 := by
  obtain ⟨r, -, h⟩ := Option.bind_eq_some_iff.mp h
  obtain ⟨condition, hcondition, h⟩ := Option.bind_eq_some_iff.mp h
  obtain ⟨value, hvalue, h⟩ := Option.bind_eq_some_iff.mp h
  cases h
  obtain ⟨d', hd'⟩ := Record.exists_of_field? hvalue
  exact ⟨Datum.inOrder_of_toJson? hd', Record.exists_of_field? hcondition⟩

/-- What an operation holds is of its type once it is read, and what stands in it has been read. -/
theorem of_ofFields? {read : Datum → Option Expr} {kind : String} {r : Record} {e : Expr}
    (h : ofFields? read kind r = some e) : e.IsTyped ∧ ∀ c ∈ e.children, ∃ d, read d = some c := by
  obtain ⟨default, hdefault, h⟩ := Option.bind_eq_some_iff.mp h
  have hdefault : ∀ v ∈ default.toList, v.InOrder := fun v hv =>
    (Record.exists_of_optional? hdefault v (Option.mem_toList.mp hv)).elim fun d hd =>
      Datum.inOrder_of_toJson? hd
  have hvalue {name : String} {v : Json} (hv : r.field? name Datum.toJson? = some v) : v.InOrder :=
    (Record.exists_of_field? hv).elim fun d hd => Datum.inOrder_of_toJson? hd
  have hterms {name : String} {terms : List Expr}
      (hterms : r.field? name (Datum.listOf? read) = some terms) :
      ∀ c ∈ terms, ∃ d, read d = some c := by
    obtain ⟨d, hd⟩ := Record.exists_of_field? hterms
    exact fun c hc => Datum.exists_of_mem_listOf? hd hc
  split at h
  -- a path
  · obtain ⟨p, -, h⟩ := Option.bind_eq_some_iff.mp h
    cases h
    exact ⟨⟨hdefault, nofun⟩, nofun⟩
  -- a bit
  · obtain ⟨p, -, h⟩ := Option.bind_eq_some_iff.mp h
    obtain ⟨group, -, h⟩ := Option.bind_eq_some_iff.mp h
    obtain ⟨bit, hbit, h⟩ := Option.bind_eq_some_iff.mp h
    cases h
    refine ⟨⟨hdefault, fun p group i default heq => ?_⟩, nofun⟩
    cases heq
    obtain ⟨d, hd⟩ := Record.exists_of_field? hbit
    exact byte_of_bitOf? hd
  -- a table
  · obtain ⟨input, hinput, h⟩ := Option.bind_eq_some_iff.mp h
    obtain ⟨table, htable, h⟩ := Option.bind_eq_some_iff.mp h
    cases h
    obtain ⟨d, hd⟩ := Record.exists_of_field? htable
    refine ⟨⟨List.forall_mem_cons.mpr ⟨Datum.inOrder_of_table? hd, hdefault⟩, nofun⟩, ?_⟩
    exact List.forall_mem_singleton.mpr (Record.exists_of_field? hinput)
  -- an event
  · obtain ⟨name, -, h⟩ := Option.bind_eq_some_iff.mp h
    obtain ⟨field, -, h⟩ := Option.bind_eq_some_iff.mp h
    obtain ⟨category, -, h⟩ := Option.bind_eq_some_iff.mp h
    cases h
    exact ⟨⟨hdefault, nofun⟩, nofun⟩
  -- cases
  · obtain ⟨cases, hcases, h⟩ := Option.bind_eq_some_iff.mp h
    cases h
    obtain ⟨d, hd⟩ := Record.exists_of_field? hcases
    have hcase (c) (hc : c ∈ cases) : c.2.InOrder ∧ ∃ d', read d' = some c.1 := by
      obtain ⟨b, hb⟩ := Datum.exists_of_mem_listOf? hd hc
      exact of_caseOf? hb
    refine ⟨⟨List.forall_mem_append.mpr ⟨fun v hv => ?_, hdefault⟩, nofun⟩, fun t ht => ?_⟩
    · obtain ⟨c, hc, rfl⟩ := List.mem_map.mp hv
      exact (hcase c hc).1
    · obtain ⟨c, hc, rfl⟩ := List.mem_map.mp ht
      exact (hcase c hc).2
  -- conjunction, disjunction and negation
  · obtain ⟨terms, hread, h⟩ := Option.bind_eq_some_iff.mp h
    cases h
    exact ⟨⟨nofun, nofun⟩, hterms hread⟩
  · obtain ⟨terms, hread, h⟩ := Option.bind_eq_some_iff.mp h
    cases h
    exact ⟨⟨nofun, nofun⟩, hterms hread⟩
  · obtain ⟨term, hterm, h⟩ := Option.bind_eq_some_iff.mp h
    cases h
    exact ⟨⟨nofun, nofun⟩, List.forall_mem_singleton.mpr (Record.exists_of_field? hterm)⟩
  -- a check for a recent event
  · obtain ⟨name, -, h⟩ := Option.bind_eq_some_iff.mp h
    obtain ⟨within, -, h⟩ := Option.bind_eq_some_iff.mp h
    cases h
    exact ⟨⟨nofun, nofun⟩, nofun⟩
  -- a comparison
  · obtain ⟨input, hinput, h⟩ := Option.bind_eq_some_iff.mp h
    obtain ⟨comparison, -, h⟩ := Option.bind_eq_some_iff.mp h
    obtain ⟨value, hread, h⟩ := Option.bind_eq_some_iff.mp h
    cases h
    exact ⟨⟨List.forall_mem_singleton.mpr (hvalue hread), nofun⟩,
      List.forall_mem_singleton.mpr (Record.exists_of_field? hinput)⟩
  -- a fixed value
  · obtain ⟨value, hread, h⟩ := Option.bind_eq_some_iff.mp h
    cases h
    exact ⟨⟨List.forall_mem_singleton.mpr (hvalue hread), nofun⟩, nofun⟩
  -- a combiner
  · obtain ⟨combiner, -, h⟩ := Option.bind_eq_some_iff.mp h
    obtain ⟨inputs, hread, h⟩ := Option.bind_eq_some_iff.mp h
    cases h
    exact ⟨⟨nofun, nofun⟩, hterms hread⟩
  · cases h

/-- Whatever is read as an expression holds what is of its type, at any depth. -/
theorem typed_of_read? {inner : Bool} {depth : Nat} {d : Datum} {e : Expr}
    (h : read? inner depth d = some e) : e.Throughout IsTyped := by
  induction depth generalizing inner d e with
  | zero => cases h
  | succ depth ih =>
    obtain ⟨⟨tag, rest⟩, -, h⟩ := Option.bind_eq_some_iff.mp h
    obtain ⟨kind, -, h⟩ := Option.bind_eq_some_iff.mp h
    obtain ⟨r, -, h⟩ := Option.bind_eq_some_iff.mp h
    obtain ⟨htyped, hchildren⟩ := of_ofFields? h
    exact .of_children htyped fun c hc => (hchildren c hc).elim fun d hd => ih hd

theorem typed_of_ofDatum? {d : Datum} {e : Expr} (h : ofDatum? d = some e) :
    e.Throughout IsTyped := by
  unfold ofDatum? at h
  split at h
  · exact typed_of_read? h
  · cases h

end Telltale.Expr

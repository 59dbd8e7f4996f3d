import Telltale.Catalog.Report
import Telltale.Proofs.Catalog.Accepted
import Telltale.Proofs.Expr.Written
import Telltale.Proofs.Yaml.Spelled

/-!
# Catalogs that are written and read back

The tables of a catalog and the values of its signals make up a document again, and the catalog is
read back from it.

* `Catalog.document` — the document of a catalog.
* `Catalog.IsTyped` — what the types of a catalog's parts promise, and `Catalog.typed_of_ofNode?`:
  every catalog that is read keeps it.
* `Catalog.ofNode?_of_spells` — a catalog is read back from whatever spells its document.
* `written_reads_back` — so accepted catalogs are accepted again, and their expressions are read
  back from their values.
-/

namespace Telltale

open Yaml (Node)

-- the powers of the core library, whatever else is in scope
attribute [local instance (2000)] instPowNat

/-! ## What is written -/

/-- The value that documents write for a flag group. -/
def FlagGroup.toJson (g : FlagGroup) : Json :=
  .object [("path", .string g.path), ("bits", .object (g.bits.mapValues Json.ofNat))]

theorem SignalType.ofName?_name (type : SignalType) : ofName? type.name = some type := by
  cases type <;> decide

namespace Signal

/-- The fields of a signal. -/
def fieldNames : List String := ["id", "type", "values", "default", "description", "derive"]

/-- The fields that are written of a signal. -/
def fields (s : Signal) : List (String × Json) :=
  ("id", .string s.id) :: ("type", .string s.type.name) ::
    ((if s.values.isEmpty then [] else [("values", .array (s.values.map enumValueJson))]) ++
      Expr.optionField "default" (fun v => v) s.default ++
      Expr.optionField "description" .string s.description ++ [("derive", s.expr.toJson)])

variable (s : Signal)

theorem toJson_eq_object : s.toJson = .object s.fields := rfl

/-- The fields that are written are fields of a signal, in their order. -/
theorem sublist_fieldNames : (s.fields.map (·.1)).Sublist fieldNames := by
  have hvalues : ((if s.values.isEmpty then []
      else [("values", Json.array (s.values.map enumValueJson))]).map (·.1)).Sublist ["values"] := by
    split
    · exact List.nil_sublist _
    · exact List.Sublist.refl _
  have hdefault := Expr.sublist_optionField "default" (fun v => v) s.default
  have hdescription := Expr.sublist_optionField "description" Json.string s.description
  rw [fields, List.map_cons, List.map_cons, List.map_append, List.map_append, List.map_append]
  exact ((((hvalues.append hdefault).append hdescription).append
    (List.Sublist.refl ["derive"])).cons_cons "type").cons_cons "id"

/-- What is written of a signal besides its identifier and its type. -/
theorem lookup_fields :
    s.fields.lookup "values" =
      (if s.values.isEmpty then none else some (.array (s.values.map enumValueJson))) ∧
    s.fields.lookup "default" = s.default.map (fun v => v) ∧
    s.fields.lookup "description" = s.description.map .string ∧
    s.fields.lookup "derive" = some s.expr.toJson := by
  obtain ⟨id, type, values, default, description, expr⟩ := s
  cases values <;> cases default <;> cases description <;> exact ⟨rfl, rfl, rfl, rfl⟩

end Signal

/-- The document of a catalog: its version, its tables and the values of its signals. -/
def Catalog.document (c : Catalog) : Json :=
  .object [("version", Json.ofNat c.version),
    ("flag_groups", .object (c.vocabulary.groups.mapValues FlagGroup.toJson)),
    ("event_categories", .object (c.vocabulary.categories.mapValues fun events =>
      .array (events.map .string))),
    ("signals", c.signalsJson)]

/-! ## What a catalog holds -/

/-- A flag group holds what is of its type: its table is in order, and indices of bits fit in a
byte. -/
structure FlagGroup.IsTyped (g : FlagGroup) : Prop where
  ordered : Table.Ordered g.bits
  byte : ∀ p ∈ g.bits, p.2 < 256

/-- A signal holds what is of its type. -/
structure Signal.IsTyped (s : Signal) : Prop where
  values : ∀ v ∈ s.values, v.value.InOrder
  default : ∀ v ∈ s.default, v.InOrder
  expr : s.expr.Throughout Expr.IsTyped

/-- A catalog holds what is of its type. -/
structure Catalog.IsTyped (c : Catalog) : Prop where
  version : c.version < 2 ^ (32 : Nat)
  groups : Table.Ordered c.vocabulary.groups
  group : ∀ p ∈ c.vocabulary.groups, p.2.IsTyped
  categories : Table.Ordered c.vocabulary.categories
  signals : ∀ s ∈ c.signals, s.IsTyped

/-- What a signal holds can be written. -/
structure Signal.IsPlain (s : Signal) : Prop where
  default_ne_null : s.default ≠ some .null
  expr : s.expr.Throughout Expr.IsPlain

/-- No default in a catalog is the null that stands for none. -/
def Catalog.NoNullDefault (c : Catalog) : Prop :=
  ∀ s ∈ c.signals, s.default ≠ some .null ∧ s.expr.Throughout fun e => e.default? ≠ some .null

namespace Catalog

/-! ## Reading back -/

variable {t : Node}

theorem enumValueOf?_of_spells {v : EnumValue} (hv : v.value.InOrder)
    (ht : t.Spells (Signal.enumValueJson v)) : enumValueOf? t = some v := by
  obtain ⟨value, label⟩ := v
  obtain ⟨r, hrecord, hr⟩ :=
    ht.record? ["value", "label"] (by cases label <;> simp [Expr.optionField])
  have hvalue : Node.field? r "value" Node.json? = some value :=
    hr.field? (v := value) rfl fun t ht => ht.json? hv
  have hlookup : (("value", value) :: Expr.optionField "label" Json.string label).lookup "label" =
      label.map .string := by cases label <;> rfl
  have hlabel : Node.optionalField? r "label" Node.text? = some label :=
    hr.optionalField? hlookup fun _ _ => ⟨nofun, fun _ ht => ht.text?⟩
  simp [enumValueOf?, hrecord, hvalue, hlabel]

theorem groupOf?_of_spells {g : FlagGroup} (hg : g.IsTyped) (ht : t.Spells g.toJson) :
    groupOf? t = some g := by
  obtain ⟨path, bits⟩ := g
  obtain ⟨r, hrecord, hr⟩ := ht.record? ["path", "bits"] (by simp)
  have hpath : Node.field? r "path" Node.text? = some path :=
    hr.field? (v := .string path) rfl fun t ht => ht.text?
  have hbits : Node.fieldOr? r "bits" [] (Node.table? (Node.natBelow? 256)) = some bits := by
    refine hr.fieldOr? (v := .object (bits.mapValues Json.ofNat)) rfl fun t ht => ?_
    refine ht.table? hg.ordered fun p hp t ht => ?_
    have hbyte := hg.byte p hp
    exact ht.natBelow? hbyte (by omega)
  simp [groupOf?, hrecord, hpath, hbits]

theorem signalOf?_of_spells {s : Signal} (hs : s.IsTyped) (hplain : s.IsPlain)
    (ht : t.Spells s.toJson) : signalOf? t = some s := by
  obtain ⟨r, hrecord, hr⟩ := ht.record? Signal.fieldNames fun f hf =>
    s.sublist_fieldNames.subset (List.mem_map_of_mem hf)
  obtain ⟨hvalues, hdefault, hdescription, hderive⟩ := s.lookup_fields
  have hid : Node.field? r "id" Node.text? = some s.id :=
    hr.field? (v := .string s.id) rfl fun t ht => ht.text?
  have htype : Node.field? r "type" (Node.choice? SignalType.ofName?) = some s.type :=
    hr.field? (v := .string s.type.name) rfl fun t ht => (ht.choice? _).trans s.type.ofName?_name
  have hvalues : Node.fieldOr? r "values" [] (Node.listOf? enumValueOf?) = some s.values := by
    split at hvalues
    · next hempty => rw [hr.fieldOr?_default hvalues, List.isEmpty_iff.mp hempty]
    · refine hr.fieldOr? hvalues fun t ht => ht.listOf? fun v hv t ht => ?_
      exact enumValueOf?_of_spells (hs.values v hv) ht
  have hdefault : Node.optionalField? r "default" Node.json? = some s.default := by
    refine hr.optionalField? hdefault fun v hv => ⟨?_, fun t ht => ?_⟩
    · rintro rfl
      exact hplain.default_ne_null hv
    · exact ht.json? (hs.default v hv)
  have hdescription : Node.optionalField? r "description" Node.text? = some s.description :=
    hr.optionalField? hdescription fun _ _ => ⟨nofun, fun _ ht => ht.text?⟩
  have hexpr : Node.field? r "derive" (fun t => Expr.ofDatum? t.datum) = some s.expr := by
    refine hr.field? hderive fun t ht => ?_
    exact Expr.ofDatum?_of_spells hs.expr hplain.expr (ht.datum (Expr.distinct_toJson hs.expr))
  rw [Signal.fieldNames] at hrecord
  simp [signalOf?, hrecord, hid, htype, hvalues, hdefault, hdescription, hexpr]

/-- A catalog is read back from whatever spells its document. -/
theorem ofNode?_of_spells {c : Catalog} (hc : c.IsTyped) (hplain : ∀ s ∈ c.signals, s.IsPlain)
    (ht : t.Spells c.document) : ofNode? t = some c := by
  obtain ⟨r, hrecord, hr⟩ :=
    ht.record? ["version", "flag_groups", "event_categories", "signals"] (by simp)
  have hversion : Node.fieldOr? r "version" 1 (Node.natBelow? (2 ^ (32 : Nat))) = some c.version :=
    hr.fieldOr? List.lookup_cons_self fun t ht =>
      ht.natBelow? hc.version (Nat.lt_trans hc.version (by decide))
  have hgroups : Node.fieldOr? r "flag_groups" [] (Node.table? groupOf?) =
      some c.vocabulary.groups := by
    refine hr.fieldOr? (v := .object (c.vocabulary.groups.mapValues _)) rfl fun t ht => ?_
    exact ht.table? hc.groups fun p hp t ht => groupOf?_of_spells (hc.group p hp) ht
  have hcategories : Node.fieldOr? r "event_categories" []
      (Node.table? (Node.listOf? Node.text?)) = some c.vocabulary.categories := by
    refine hr.fieldOr? (v := .object (c.vocabulary.categories.mapValues _)) rfl fun t ht => ?_
    refine ht.table? hc.categories fun p hp t ht => ?_
    exact ht.listOf? fun text _ t ht => ht.text?
  have hsignals : Node.field? r "signals" (Node.listOf? signalOf?) = some c.signals := by
    refine hr.field? (v := .array (c.signals.map Signal.toJson)) rfl fun t ht => ?_
    exact ht.listOf? fun s hs t ht => signalOf?_of_spells (hc.signals s hs) (hplain s hs) ht
  simp [ofNode?, hrecord, hversion, hgroups, hcategories, hsignals]

/-! ## One document for every catalog -/

theorem distinct_enumValueJson {v : EnumValue} (hv : v.value.InOrder) :
    (Signal.enumValueJson v).Distinct := by
  refine .object ?_ (List.forall_mem_cons.mpr ⟨hv.distinct, ?_⟩)
  · exact (List.Nodup.sublist · (by decide : ["value", "label"].Nodup))
      ((Expr.sublist_optionField "label" Json.string v.label).cons_cons "value")
  · exact Expr.forall_mem_optionField fun s _ => .string s

theorem distinct_groupJson {g : FlagGroup} (hg : g.IsTyped) : g.toJson.Distinct := by
  refine .object (by simp) (List.forall_mem_cons.mpr ⟨.string _, List.forall_mem_singleton.mpr ?_⟩)
  exact Json.distinct_mapValues hg.ordered fun p _ => .ofNat p.2

theorem distinct_signalJson {s : Signal} (hs : s.IsTyped) : s.toJson.Distinct := by
  rw [s.toJson_eq_object]
  refine .object ((by decide : Signal.fieldNames.Nodup).sublist s.sublist_fieldNames) ?_
  have hvalues : ∀ f ∈ (if s.values.isEmpty then []
      else [("values", Json.array (s.values.map Signal.enumValueJson))]), f.2.Distinct := by
    split
    · exact List.forall_mem_nil _
    · refine List.forall_mem_singleton.mpr (.array_map fun v hv => ?_)
      exact distinct_enumValueJson (hs.values v hv)
  have hdefault : ∀ f ∈ Expr.optionField "default" (fun v => v) s.default, f.2.Distinct :=
    Expr.forall_mem_optionField fun v hv => (hs.default v hv).distinct
  have hdescription : ∀ f ∈ Expr.optionField "description" Json.string s.description,
      f.2.Distinct := Expr.forall_mem_optionField fun text _ => .string text
  rw [Signal.fields, List.forall_mem_cons, List.forall_mem_cons, List.forall_mem_append,
    List.forall_mem_append, List.forall_mem_append, List.forall_mem_singleton]
  exact ⟨.string _, .string _, ⟨⟨hvalues, hdefault⟩, hdescription⟩, Expr.distinct_toJson hs.expr⟩

theorem distinct_document {c : Catalog} (hc : c.IsTyped) : c.document.Distinct := by
  have hversion : (Json.ofNat c.version).Distinct := .ofNat _
  have hgroups := Json.distinct_mapValues hc.groups fun p hp => distinct_groupJson (hc.group p hp)
  have hcategories : (Json.object (c.vocabulary.categories.mapValues fun events =>
      .array (events.map .string))).Distinct :=
    Json.distinct_mapValues hc.categories fun p _ => .array_map fun event _ => .string event
  have hsignals : c.signalsJson.Distinct :=
    .array_map fun s hs => distinct_signalJson (hc.signals s hs)
  refine .object (by simp) ?_
  simp only [List.forall_mem_cons]
  exact ⟨hversion, hgroups, hcategories, hsignals, List.forall_mem_nil _⟩

/-! ## What is read -/

theorem inOrder_of_enumValueOf? {v : EnumValue} (h : enumValueOf? t = some v) :
    v.value.InOrder := by
  obtain ⟨r, -, h⟩ := Option.bind_eq_some_iff.mp h
  obtain ⟨value, hvalue, h⟩ := Option.bind_eq_some_iff.mp h
  obtain ⟨label, -, h⟩ := Option.bind_eq_some_iff.mp h
  cases h
  obtain ⟨b, hb⟩ := Node.exists_of_field? hvalue
  exact Node.inOrder_of_json? hb

theorem typed_of_groupOf? {g : FlagGroup} (h : groupOf? t = some g) : g.IsTyped := by
  obtain ⟨r, -, h⟩ := Option.bind_eq_some_iff.mp h
  obtain ⟨path, -, h⟩ := Option.bind_eq_some_iff.mp h
  obtain ⟨bits, hbits, h⟩ := Option.bind_eq_some_iff.mp h
  cases h
  rcases Node.eq_or_exists_of_fieldOr? hbits with rfl | ⟨b, hb⟩
  · exact ⟨.nil, nofun⟩
  · obtain ⟨hordered, hread⟩ := Node.ordered_of_table? hb
    exact ⟨hordered, fun p hp => (hread p hp).elim fun b hb => Node.lt_of_natBelow? hb⟩

theorem typed_of_signalOf? {s : Signal} (h : signalOf? t = some s) : s.IsTyped := by
  obtain ⟨r, -, h⟩ := Option.bind_eq_some_iff.mp h
  obtain ⟨id, -, h⟩ := Option.bind_eq_some_iff.mp h
  obtain ⟨type, -, h⟩ := Option.bind_eq_some_iff.mp h
  obtain ⟨values, hvalues, h⟩ := Option.bind_eq_some_iff.mp h
  obtain ⟨default, hdefault, h⟩ := Option.bind_eq_some_iff.mp h
  obtain ⟨description, -, h⟩ := Option.bind_eq_some_iff.mp h
  obtain ⟨expr, hexpr, h⟩ := Option.bind_eq_some_iff.mp h
  cases h
  refine ⟨fun v hv => ?_, fun v hv => ?_, ?_⟩
  · rcases Node.eq_or_exists_of_fieldOr? hvalues with rfl | ⟨b, hb⟩
    · cases hv
    · obtain ⟨b', hb'⟩ := Node.exists_of_mem_listOf? hb hv
      exact inOrder_of_enumValueOf? hb'
  · obtain ⟨b, hb⟩ := Node.exists_of_optionalField? hdefault v hv
    exact Node.inOrder_of_json? hb
  · obtain ⟨b, hb⟩ := Node.exists_of_field? hexpr
    exact Expr.typed_of_ofDatum? hb

/-- Whatever is read as a catalog holds what is of its type. -/
theorem typed_of_ofNode? {c : Catalog} (h : ofNode? t = some c) : c.IsTyped := by
  obtain ⟨r, -, h⟩ := Option.bind_eq_some_iff.mp h
  obtain ⟨version, hversion, h⟩ := Option.bind_eq_some_iff.mp h
  obtain ⟨groups, hgroups, h⟩ := Option.bind_eq_some_iff.mp h
  obtain ⟨categories, hcategories, h⟩ := Option.bind_eq_some_iff.mp h
  obtain ⟨signals, hsignals, h⟩ := Option.bind_eq_some_iff.mp h
  cases h
  have hgroups : Table.Ordered groups ∧ ∀ p ∈ groups, ∃ b, groupOf? b = some p.2 := by
    rcases Node.eq_or_exists_of_fieldOr? hgroups with rfl | ⟨b, hb⟩
    · exact ⟨.nil, nofun⟩
    · exact Node.ordered_of_table? hb
  refine ⟨?_, hgroups.1, fun p hp => ?_, ?_, fun s hs => ?_⟩
  · rcases Node.eq_or_exists_of_fieldOr? hversion with rfl | ⟨b, hb⟩
    · show 1 < 2 ^ (32 : Nat)
      decide
    · exact Node.lt_of_natBelow? hb
  · exact (hgroups.2 p hp).elim fun b hb => typed_of_groupOf? hb
  · rcases Node.eq_or_exists_of_fieldOr? hcategories with rfl | ⟨b, hb⟩
    · exact .nil
    · exact (Node.ordered_of_table? hb).1
  · obtain ⟨b, hb⟩ := Node.exists_of_field? hsignals
    obtain ⟨b', hb'⟩ := Node.exists_of_mem_listOf? hb hs
    exact typed_of_signalOf? hb'

end Catalog

/-! ## Accepted catalogs -/

/-- A check for a recent event without a fault has a bound that is finite. -/
theorem Expr.finite_of_ownFault? {v : Vocabulary} {name : String} {within : Extended}
    (h : ownFault? v (.recent name within) = none) : ∃ x, within = .finite x := by
  cases within with
  | finite x => exact ⟨x, rfl⟩
  | infinity | nan =>
    rw [ownFault?] at h
    split at h <;> cases h

namespace Catalog

/-- Without a null default, the signals of an accepted catalog can be written. -/
theorem Accepted.isPlain {c : Catalog} (h : c.Accepted) (hdefaults : c.NoNullDefault) {s : Signal}
    (hs : s ∈ c.signals) : s.IsPlain := by
  obtain ⟨hdefault, hdefaults⟩ := hdefaults s hs
  refine ⟨hdefault, fun e he => ⟨?_, hdefaults e he⟩⟩
  rintro name within rfl
  obtain ⟨-, -, -, hexpr, -⟩ := Signal.checks_of_fault? (h.fault?_eq_none hs)
  exact Expr.finite_of_ownFault? (Expr.fault?_eq_none_iff.mp hexpr _ he.mem_subterms)

/-- A catalog that a text brings was read from its document. -/
theorem typed_of_ofText {text : String} {c : Catalog} (h : ofText text = .ok c) : c.IsTyped := by
  unfold ofText at h
  split at h
  · cases h
  · next c' hread =>
    obtain ⟨rfl, -⟩ := eq_of_check (eq_ok_of_mapError h)
    obtain ⟨t, -, ht⟩ := Option.bind_eq_some_iff.mp hread
    exact typed_of_ofNode? ht

end Catalog

/-- **What is written is read back.** An expression of any depth is read from its value, and from
whatever else spells this value, unless a bound is not finite or a default is null. So is an
accepted catalog from its document, and there it is accepted again: all its tables, and its signals
in their order. That expressions and catalogs hold what is of their types is no restriction of what
is read (`Expr.typed_of_ofDatum?`, `Catalog.typed_of_ofText`). -/
theorem written_reads_back :
    (∀ e : Expr, e.Throughout Expr.IsTyped → e.Throughout Expr.IsPlain →
      Expr.ofDatum? (Datum.ofJson e.toJson) = some e ∧
      ∀ d, Datum.Spells d e.toJson → Expr.ofDatum? d = some e) ∧
    ∀ text c, Catalog.ofText text = .ok c → c.NoNullDefault →
      Node.Spells (Node.ofJson c.document) c.document ∧
      ∀ t, Node.Spells t c.document → Catalog.ofNode? t = some c ∧ c.check = .ok c ∧
        ∀ text', Node.ofText? text' = some t → Catalog.ofText text' = .ok c := by
  refine ⟨fun e htyped hplain => ?_, fun text c htext hdefaults => ?_⟩
  · have hread (d) (hd : Datum.Spells d e.toJson) : Expr.ofDatum? d = some e :=
      Expr.ofDatum?_of_spells htyped hplain hd
    exact ⟨hread _ (Datum.spells_ofJson (Expr.distinct_toJson htyped)), hread⟩
  · have htyped := Catalog.typed_of_ofText htext
    have haccepted := Catalog.accepted_of_ofText htext
    have hcheck : c.check = .ok c := by
      unfold Catalog.check
      rw [show c.fault? = none from haccepted]
    refine ⟨Node.spells_ofJson (Catalog.distinct_document htyped), fun t ht => ?_⟩
    have hread : Catalog.ofNode? t = some c :=
      Catalog.ofNode?_of_spells htyped (fun s hs => haccepted.isPlain hdefaults hs) ht
    refine ⟨hread, hcheck, fun text' htext' => ?_⟩
    have hbind : (Node.ofText? text').bind Catalog.ofNode? = some c := by
      rw [htext', Option.bind_some, hread]
    rw [Catalog.ofText_eq_check hbind, hcheck]
    rfl

/-- A bit that is not set. -/
def landed : Expr := .not (.bitfield none (some "ship") (.index 7) none)

/-- Cases with a default: one after a recent event, and one as long as a bit is not set. -/
def berthed : Expr :=
  .firstMatch [(.recent "Docked" (.finite .posZero), .array [.null]),
    (landed, .object [("berth", .string "free")])] (some (.number .zero))

theorem Expr.typed_berthed : berthed.Throughout IsTyped := by
  have hlanded : landed.Throughout IsTyped := by
    refine .of_children ⟨nofun, nofun⟩ (List.forall_mem_singleton.mpr ?_)
    refine .of_children ⟨nofun, fun path group i default h => ?_⟩ nofun
    cases h
    decide
  have hvalues : ∀ v ∈ berthed.values, v.InOrder := by
    refine List.forall_mem_cons.mpr ⟨.array (List.forall_mem_singleton.mpr .null), ?_⟩
    refine List.forall_mem_cons.mpr ⟨?_, List.forall_mem_singleton.mpr (.number _)⟩
    exact .object (List.pairwise_singleton _ _) (List.forall_mem_singleton.mpr (.string "free"))
  refine .of_children ⟨hvalues, nofun⟩ (List.forall_mem_cons.mpr ⟨?_, ?_⟩)
  · exact .of_children ⟨nofun, nofun⟩ nofun
  · exact List.forall_mem_singleton.mpr hlanded

theorem Expr.plain_berthed : berthed.Throughout IsPlain := by
  have hlanded : landed.Throughout IsPlain :=
    .of_children ⟨nofun, nofun⟩
      (List.forall_mem_singleton.mpr (.of_children ⟨nofun, nofun⟩ nofun))
  refine .of_children ⟨nofun, nofun⟩ (List.forall_mem_cons.mpr ⟨?_, ?_⟩)
  · refine .of_children ⟨fun name within h => ?_, nofun⟩ nofun
    cases h
    exact ⟨.posZero, rfl⟩
  · exact List.forall_mem_singleton.mpr hlanded

/-- A catalog with a table of bits, a category, a default and a description. -/
def berthText : String :=
  "flag_groups: \x7bship: \x7bpath: flags, bits: \x7bup: 7\x7d\x7d\x7d\n" ++
  "event_categories: \x7bdock: [Docked]\x7d\n" ++
  "signals:\n- id: berth\n  type: number\n  default: 2\n  description: place\n" ++
  "  derive: \x7bop: path, path: berth, default: 1.5\x7d\n"

theorem written_reads_back_berth :
    Expr.ofDatum? (Datum.ofJson berthed.toJson) = some berthed ∧
    ∃ c, Catalog.ofText berthText = .ok c ∧ c.ids = ["berth"] ∧ c.NoNullDefault ∧
      Catalog.ofNode? (Node.ofJson c.document) = some c := by
  have hparse : (Catalog.ofText berthText).toOption.any (fun c => decide (c.ids = ["berth"]) &&
      c.signals.all fun s => s.default.all (fun v => v.isNumber) &&
        s.expr.subterms.all fun e => e.default?.all fun v => v.isNumber) = true := by
    decide +kernel
  obtain ⟨c, hc, hparse⟩ := exists_of_any_toOption hparse
  simp only [Bool.and_eq_true, decide_eq_true_eq, List.all_eq_true] at hparse
  obtain ⟨hids, hsignals⟩ := hparse
  have hne {x : Option Json} (hx : x.all (fun v => v.isNumber) = true) : x ≠ some .null := by
    rintro rfl
    cases hx
  have hdefaults : c.NoNullDefault := fun s hs =>
    ⟨hne (hsignals s hs).1, fun e he => hne ((hsignals s hs).2 e he.mem_subterms)⟩
  obtain ⟨hspells, hread⟩ := written_reads_back.2 berthText c hc hdefaults
  exact ⟨(written_reads_back.1 berthed Expr.typed_berthed Expr.plain_berthed).1, c, hc, hids,
    hdefaults, (hread _ hspells).1⟩

end Telltale

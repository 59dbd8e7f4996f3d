import Telltale.Proofs.Datum.Spelled
import Telltale.Proofs.Yaml.Numerals
import Telltale.Yaml.Node

/-!
# Documents that spell a value

A part of a document spells a value as a datum does, and scalars may be written in every way that
gives them their type. Only integers have to stand as their digits, since some readings want them
so. Records and tables that are read directly find in such a part what the value says.

* `Yaml.Node.Spells` — a part of a document spells a value. `Yaml.Node.spells_ofJson` has one that
  does.
* `Yaml.Node.Spells.datum`, `Yaml.Node.Spells.json?` — its datum spells the value, and a value in
  order is read back.
* `Yaml.Node.Spells.record?`, `Yaml.Node.Spells.table?`, `Yaml.Node.Spells.listOf?` — what is read
  directly; `Yaml.Node.FieldsSpell` is what lookups say of the fields of a record.
-/

namespace Telltale.Yaml

/-! ## Scalars -/

namespace Scalar

variable {s : Scalar} {text : String}

theorem integerDatum_ne_string (n : Int) : integerDatum n ≠ .string text := by
  unfold integerDatum
  split <;> nofun

theorem realDatum_ne_string (x : Extended) : realDatum x ≠ .string text := by
  cases x <;> nofun

theorem eq_of_plainDatum {x : String} (h : plainDatum x = .string text) : x = text := by
  unfold plainDatum at h
  split at h
  · cases h
  · simp only at h
    split at h
    · cases h
    · exact absurd h (integerDatum_ne_string _)
    · split at h
      · exact absurd h (realDatum_ne_string _)
      · cases h
        rfl

/-- A tag that gives other types than strings has no string. -/
theorem getD_map_ne_string {x : Option α} {write : α → Datum} (h : ∀ a, write a ≠ .string text) :
    (x.map write).getD .unreadable ≠ .string text := by
  cases x with
  | none => nofun
  | some a => exact h a

/-- What is a string by its datum has the text of the scalar. -/
theorem text_of_datum (h : s.datum = .string text) :
    s.text = text ∧ localTag? s.tag = none := by
  unfold datum at h
  split at h
  · next htag =>
    rw [htag]
    split at h
    · exact ⟨eq_of_plainDatum h, rfl⟩
    · cases h
      exact ⟨rfl, rfl⟩
  · split at h
    · cases h
    · next hlocal =>
      refine ⟨?_, by simpa using hlocal⟩
      split at h
      · exact absurd h (getD_map_ne_string nofun)
      · split at h
        · exact absurd h (getD_map_ne_string integerDatum_ne_string)
        · split at h
          · exact absurd h (getD_map_ne_string realDatum_ne_string)
          · split at h
            · split at h <;> cases h
            · cases h
              rfl

/-- A scalar that says something is not absent. -/
theorem isAbsent?_eq_false (hnull : s.datum ≠ .null) (hreadable : s.datum ≠ .unreadable) :
    s.isAbsent? = some false := by
  unfold isAbsent?
  split
  · rfl
  · next hstyle =>
    have hplain : s.style = .plain := not_not.mp hstyle
    unfold datum at hnull hreadable
    split
    · next htag =>
      rw [htag] at hnull
      simp only [hplain, if_true] at hnull
      cases hempty : s.text == "" || isNullText s.text with
      | false => rfl
      | true =>
        unfold plainDatum at hnull
        rw [if_pos hempty] at hnull
        exact absurd rfl hnull
    · next tag htag =>
      split
      -- the tag of null allows nothing else
      · next hnulltag =>
        rw [htag, beq_iff_eq.mp hnulltag] at hnull hreadable
        cases htext : isNullText s.text <;> rw [htext] at hnull hreadable
        · exact absurd rfl hreadable
        · exact absurd rfl hnull
      · rfl

end Scalar

namespace Node

/-! ## Spelling -/

/-- Entries of a mapping whose keys are scalars. -/
def entries (l : List (Scalar × Node)) : List (Node × Node) := l.map fun e => (.scalar e.1, e.2)

/-- Entries by the texts of their keys. -/
def texts (l : List (Scalar × Node)) : List (String × Node) := l.map fun e => (e.1.text, e.2)

/-- A part of a document spells a value. The entries of a mapping say of each name what the fields
of an object say of it, and no name stands twice among them. -/
inductive Spells : Node → Json → Prop
  | null {s : Scalar} (h : s.datum = .null) : Spells (.scalar s) .null
  | bool {s : Scalar} {b : Bool} (h : s.datum = .bool b) : Spells (.scalar s) (.bool b)
  | integer {n : Int} (hn : Number.InRange n) :
    Spells (.scalar ⟨toString n, .plain, none⟩) (.number (.integer n hn))
  | double {s : Scalar} {x : Double} (h : s.datum = .number (.double x)) :
    Spells (.scalar s) (.number (.double x))
  | string {s : Scalar} {text : String} (h : s.datum = .string text) :
    Spells (.scalar s) (.string text)
  | array {tag : Option String} {items : List Node} {vs : List Json} (htag : localTag? tag = none)
    (h : List.Forall₂ Spells items vs) : Spells (.sequence tag items) (.array vs)
  | object {tag : Option String} {l : List (Scalar × Node)} {fields : List (String × Json)}
    (htag : localTag? tag = none) (hkeys : ∀ e ∈ l, e.1.datum = .string e.1.text)
    (distinct : ((texts l).map (·.1)).Nodup)
    (h : ∀ name, Option.Rel Spells ((texts l).lookup name) (fields.lookup name)) :
    Spells (.mapping tag (entries l)) (.object fields)

variable {t : Node} {v : Json} {l : List (Scalar × Node)} {fields : List (String × Json)}

theorem dataOf_eq_map (items : List Node) : dataOf items = items.map datum := by
  induction items with
  | nil => rfl
  | cons t rest ih => rw [dataOf, ih, List.map_cons]

theorem dataOfEntries_entries (hkeys : ∀ e ∈ l, e.1.datum = .string e.1.text) :
    dataOfEntries (entries l) = Datum.named ((texts l).map fun e => (e.1, e.2.datum)) := by
  induction l with
  | nil => rfl
  | cons e rest ih =>
    obtain ⟨he, hrest⟩ := List.forall_mem_cons.mp hkeys
    rw [entries, List.map_cons, dataOfEntries, ← entries, ih hrest, datum, he]
    rfl

/-- The datum of what spells a value spells it too. -/
theorem Spells.datum (hv : v.Distinct) : ∀ {t : Node}, Spells t v → Datum.Spells t.datum v := by
  induction hv with
  | null =>
    intro t h
    cases h with
    | null h =>
      rw [Node.datum, h]
      exact .null
  | bool b =>
    intro t h
    cases h with
    | bool h =>
      rw [Node.datum, h]
      exact .bool b
  | number n =>
    intro t h
    cases h with
    | integer hn =>
      have hplain : Scalar.datum ⟨toString _, .plain, none⟩ = _ := plainDatum_integer hn
      rw [Node.datum, hplain]
      exact .number _
    | double h =>
      rw [Node.datum, h]
      exact .number _
  | string s =>
    intro t h
    cases h with
    | string h =>
      rw [Node.datum, h]
      exact .string s
  | @array vs _ ih =>
    intro t h
    cases h with
    | @array tag items _ htag h =>
      rw [Node.datum, htag, if_neg (by decide), dataOf_eq_map]
      refine .array (List.forall₂_map_left_iff.mpr ?_)
      exact forall₂_imp_of_mem h fun t v hv ht => ih v hv ht
  | @object fields hdistinct _ ih =>
    intro t h
    cases h with
    | @object tag l _ htag hkeys hl h =>
      rw [Node.datum, htag, if_neg (by decide), dataOfEntries_entries hkeys]
      refine .object ?_ fun name => ?_
      · rwa [List.map_map]
      · have hmem {v} := (mem_iff_lookup_of_nodup hdistinct name v).mpr
        rw [lookup_map_snd]
        exact rel_map_left (rel_imp_of_eq (h name) fun t v hv ht => ih _ (hmem hv) ht)

theorem jsonItems?_eq_mapM (items : List Node) : jsonItems? items = items.mapM json? := by
  induction items with
  | nil => rfl
  | cons t rest ih =>
    rw [jsonItems?, ih, List.mapM_cons]
    rfl

theorem jsonFields?_entries (l : List (Scalar × Node)) :
    jsonFields? (entries l) = readPairs json? (texts l) := by
  induction l with
  | nil => rfl
  | cons e rest ih =>
    unfold readPairs at ih ⊢
    rw [entries, List.map_cons, jsonFields?, ← entries, ih]
    show _ = List.mapM _ ((e.1.text, e.2) :: texts rest)
    rw [List.mapM_cons]
    cases hv : json? e.2 with
    | none => simp [text?]
    | some v => simp [text?]

/-- A value in order is read back from whatever spells it. -/
theorem Spells.json? (hv : v.InOrder) : ∀ {t : Node}, Spells t v → t.json? = some v := by
  induction hv with
  | null | bool b | number n | string s =>
    intro t h
    have hdatum := h.datum (by constructor)
    cases h <;> exact hdatum.toJson? (by constructor)
  | @array vs _ ih =>
    intro t h
    cases h with
    | @array tag items _ htag h =>
      have hitems : jsonItems? items = some vs := by
        rw [jsonItems?_eq_mapM, mapM_eq_some_iff_forall₂]
        exact forall₂_imp_of_mem h fun t v hv ht => ih v hv ht
      rw [Node.json?, htag, if_neg (by decide), hitems, Option.map_some]
  | @object fields hordered _ ih =>
    intro t h
    cases h with
    | @object tag l _ htag _ hl h =>
      have hmem {name v} := (mem_iff_lookup_of_nodup hordered.nodup_names name v).mpr
      have htable : (readPairs Node.json? (texts l)).map Table.ofPairs = some fields :=
        Table.ofPairs_readPairs hl hordered fun name =>
          rel_imp_of_eq (h name) fun t v hv ht => ih _ (hmem hv) ht
      obtain ⟨pairs, hpairs, hfields⟩ := Option.map_eq_some_iff.mp htable
      rw [Node.json?, htag, if_neg (by decide), jsonFields?_entries, hpairs, Option.map_some,
        Json.ofPairs, hfields]

/-! ## Direct readings -/

theorem Spells.text? {text : String} (h : Spells t (.string text)) : t.text? = some text := by
  cases h with
  | string h => rw [Node.text?, (Scalar.text_of_datum h).1]

/-- One of a list of alternatives is read from its name. -/
theorem Spells.choice? {name : String} (h : Spells t (.string name))
    (ofName? : String → Option α) : t.choice? ofName? = ofName? name := by
  cases h with
  | string h =>
    obtain ⟨htext, htag⟩ := Scalar.text_of_datum h
    rw [Node.choice?, htag, htext]

/-- A natural number is read from its digits. -/
theorem Spells.natBelow? {n bound : Nat} (hn : n < bound) (hword : n < 18446744073709551616)
    (h : Spells t (Json.ofNat n)) : t.natBelow? bound = some n := by
  obtain ⟨hrange, hjson⟩ := Json.ofNat_eq_integer hword
  rw [hjson] at h
  cases h with
  | integer =>
    have hdigits : natOfText? (toString (n : Int)).toList = some n := natOfText?_toString n
    show (natOfText? (toString (n : Int)).toList).filter (· < bound) = some n
    rw [hdigits, Option.filter_some, if_pos (decide_eq_true hn)]

theorem Spells.listOf? {read : Node → Option α} {write : α → Json} {xs : List α}
    (h : Spells t (.array (xs.map write)))
    (hread : ∀ x ∈ xs, ∀ t, Spells t (write x) → read t = some x) :
    t.listOf? read = some xs := by
  cases h with
  | @array tag items _ _ h =>
    rw [List.forall₂_map_right_iff] at h
    exact mapM_eq_some_iff_forall₂.mpr (forall₂_imp_of_mem h fun t x hx ht => hread x hx t ht)

theorem mapM_entries (read : Node → Option α) (l : List (Scalar × Node)) :
    ((entries l).mapM fun (key, t) => do
      let name ← Node.text? key
      let v ← read t
      some (name, v)) = readPairs read (texts l) := by
  rw [readPairs, entries, texts, List.mapM_map, List.mapM_map]
  congr 1
  funext e
  show (read e.2).bind (fun v => some (e.1.text, v)) = (read e.2).map fun v => (e.1.text, v)
  cases read e.2 <;> rfl

/-- A table is read from what spells the values of its entries. -/
theorem Spells.table? {read : Node → Option α} {write : α → Json} {table : Table α}
    (h : Spells t (.object (table.mapValues write))) (htable : Table.Ordered table)
    (hread : ∀ p ∈ table, ∀ t, Spells t (write p.2) → read t = some p.2) :
    t.table? read = some table := by
  cases h with
  | @object tag l _ _ _ hl h =>
    rw [Node.table?, mapM_entries]
    refine Table.ofPairs_readPairs hl htable fun name => ?_
    have hrel := h name
    rw [Table.mapValues, lookup_map_snd] at hrel
    refine rel_imp_of_eq (rel_of_rel_map_right hrel) fun t v hv ht => ?_
    exact hread (name, v) ((mem_iff_lookup_of_nodup htable.nodup_names name v).mpr hv) t ht

/-- What is not null may be left out and is there. -/
theorem Spells.optional? (h : Spells t v) (hv : v ≠ .null) (read : Node → Option α) :
    t.optional? read = (read t).map some := by
  have hsome {s : Scalar} {d : Datum} (hd : s.datum = d) (hnull : d ≠ .null)
      (hreadable : d ≠ .unreadable) :
      (Node.scalar s).optional? read = (read (.scalar s)).map some := by
    subst hd
    rw [Node.optional?, Scalar.isAbsent?_eq_false hnull hreadable]
  cases h with
  | null => exact absurd rfl hv
  | bool h => exact hsome h nofun nofun
  | integer hn => exact hsome (plainDatum_integer hn) nofun nofun
  | double h => exact hsome h nofun nofun
  | string h => exact hsome h nofun nofun
  | array => rfl
  | object => rfl

/-! ## Records -/

/-- The fields of a record spell those of an object. -/
def FieldsSpell (r : List (String × Node)) (fields : List (String × Json)) : Prop :=
  ∀ name, Option.Rel Spells (r.lookup name) (fields.lookup name)

theorem fields?_entries {names : List String} (hl : ((texts l).map (·.1)).Nodup) :
    fields? names false (entries l) = some ((texts l).filter fun e => names.contains e.1) := by
  induction l with
  | nil => rfl
  | cons e rest ih =>
    have hcons : texts (e :: rest) = (e.1.text, e.2) :: texts rest := rfl
    rw [hcons, List.map_cons] at hl
    obtain ⟨hn, hrest⟩ := List.nodup_cons.mp hl
    rw [entries, List.map_cons, fields?, ← entries, ih hrest, hcons, Node.text?]
    cases hcontains : names.contains e.1.text with
    | false =>
      rw [List.filter_cons_of_neg (by rw [hcontains]; decide)]
      simp only [Option.bind_eq_bind, Option.bind_some, hcontains, Bool.false_eq_true, if_false]
    | true =>
      have hnone : ((texts rest).filter fun e => names.contains e.1).lookup e.1.text = none := by
        rw [lookup_filter_names, lookup_eq_none_of_notMem hn, ite_self]
      rw [List.filter_cons_of_pos (by rw [hcontains])]
      simp only [Option.bind_eq_bind, Option.bind_some, hcontains, if_true, hnone,
        Option.isSome_none, Bool.false_eq_true, if_false]

/-- What spells an object gives a record of its fields. -/
theorem Spells.record? (h : Spells t (.object fields)) (names : List String)
    (hnames : ∀ f ∈ fields, f.1 ∈ names) :
    ∃ r, t.record? names false = some r ∧ FieldsSpell r fields := by
  cases h with
  | @object tag l _ _ _ hl h =>
    exact ⟨_, fields?_entries hl, rel_lookup_filter (fun name _ => h name) hnames⟩

namespace FieldsSpell

variable {r : List (String × Node)} {name : String} {read : Node → Option α}

/-- A field that spells a value is read. -/
theorem field? (h : FieldsSpell r fields) (hv : fields.lookup name = some v) {a : α}
    (hread : ∀ t, Spells t v → read t = some a) : Node.field? r name read = some a := by
  have hrel := h name
  rw [hv] at hrel
  obtain ⟨t, ht, hspells⟩ := exists_of_rel_some_right hrel
  rw [Node.field?, ht, Option.bind_some]
  exact hread t hspells

/-- A field with a value for when it is not there is read. -/
theorem fieldOr? (h : FieldsSpell r fields) (hv : fields.lookup name = some v) {default a : α}
    (hread : ∀ t, Spells t v → read t = some a) : Node.fieldOr? r name default read = some a := by
  have hrel := h name
  rw [hv] at hrel
  obtain ⟨t, ht, hspells⟩ := exists_of_rel_some_right hrel
  unfold Node.fieldOr?
  rw [ht]
  exact hread t hspells

theorem fieldOr?_default (h : FieldsSpell r fields) (hnone : fields.lookup name = none)
    (default : α) : Node.fieldOr? r name default read = some default := by
  have hrel := h name
  rw [hnone] at hrel
  unfold Node.fieldOr?
  rw [eq_none_of_rel hrel]

/-- A field that may be missing is read, if what it spells is not null. -/
theorem optionalField? (h : FieldsSpell r fields) {x : Option α} {write : α → Json}
    (hx : fields.lookup name = x.map write)
    (hread : ∀ a ∈ x, write a ≠ .null ∧ ∀ t, Spells t (write a) → read t = some a) :
    Node.optionalField? r name read = some x := by
  cases x with
  | none => exact h.fieldOr?_default hx none
  | some a =>
    obtain ⟨hnull, hread⟩ := hread a rfl
    refine h.fieldOr? hx fun t ht => ?_
    rw [ht.optional? hnull, hread t ht, Option.map_some]

end FieldsSpell

/-! ## What was read -/

mutual

/-- A value that is read from a part of a document is in order. -/
theorem inOrder_of_json? : ∀ {t : Node} {v : Json}, t.json? = some v → v.InOrder
  | .scalar _, _, h => Datum.inOrder_of_toJson? h
  | .sequence tag items, _, h => by
    rw [Node.json?] at h
    split at h
    · cases h
    · obtain ⟨vs, hvs, rfl⟩ := Option.map_eq_some_iff.mp h
      exact .array (inOrder_of_jsonItems? hvs)
  | .mapping tag entries, _, h => by
    rw [Node.json?] at h
    split at h
    · cases h
    · obtain ⟨pairs, hpairs, rfl⟩ := Option.map_eq_some_iff.mp h
      exact Json.inOrder_ofPairs (inOrder_of_jsonFields? hpairs)
  | .unreadable, _, h => nomatch h

theorem inOrder_of_jsonItems? : ∀ {items : List Node} {vs : List Json},
    jsonItems? items = some vs → ∀ v ∈ vs, v.InOrder
  | [], _, h => by cases h; exact nofun
  | t :: rest, _, h => by
    obtain ⟨v, hv, h⟩ := Option.bind_eq_some_iff.mp h
    obtain ⟨vs, hvs, h⟩ := Option.bind_eq_some_iff.mp h
    cases h
    exact List.forall_mem_cons.mpr ⟨inOrder_of_json? hv, inOrder_of_jsonItems? hvs⟩

theorem inOrder_of_jsonFields? : ∀ {entries : List (Node × Node)} {pairs : List (String × Json)},
    jsonFields? entries = some pairs → ∀ p ∈ pairs, p.2.InOrder
  | [], _, h => by cases h; exact nofun
  | (key, t) :: rest, _, h => by
    obtain ⟨name, -, h⟩ := Option.bind_eq_some_iff.mp h
    obtain ⟨v, hv, h⟩ := Option.bind_eq_some_iff.mp h
    obtain ⟨vs, hvs, h⟩ := Option.bind_eq_some_iff.mp h
    cases h
    exact List.forall_mem_cons.mpr ⟨inOrder_of_json? hv, inOrder_of_jsonFields? hvs⟩

end

section Read

variable {read : Node → Option α} {r : List (String × Node)} {name : String}

theorem lt_of_natBelow? {bound n : Nat} (h : t.natBelow? bound = some n) : n < bound := by
  cases t with
  | scalar s =>
    rw [Node.natBelow?, Scalar.natBelow?] at h
    split at h
    · exact of_decide_eq_true (Option.filter_eq_some_iff.mp h).2
    · cases h
  | _ => cases h

theorem exists_of_mem_listOf? {xs : List α} (h : t.listOf? read = some xs) {x : α} (hx : x ∈ xs) :
    ∃ b, read b = some x := by
  obtain ⟨items, -, hitems⟩ := Option.bind_eq_some_iff.mp h
  obtain ⟨b, -, hb⟩ := exists_of_mem_forall₂ (mapM_eq_some_iff_forall₂.mp hitems) hx
  exact ⟨b, hb⟩

/-- A table that was read is in order, and its values were read. -/
theorem ordered_of_table? {table : Table α} (h : t.table? read = some table) :
    Table.Ordered table ∧ ∀ p ∈ table, ∃ b, read b = some p.2 := by
  unfold Node.table? at h
  split at h
  · next entries =>
    obtain ⟨pairs, hpairs, rfl⟩ := Option.map_eq_some_iff.mp h
    refine ⟨Table.ordered_ofPairs pairs, fun p hp => ?_⟩
    obtain ⟨e, -, he⟩ := exists_of_mem_forall₂ (mapM_eq_some_iff_forall₂.mp hpairs)
      (Table.mem_of_mem_ofPairs hp)
    obtain ⟨name, -, he⟩ := Option.bind_eq_some_iff.mp he
    obtain ⟨v, hv, he⟩ := Option.bind_eq_some_iff.mp he
    cases he
    exact ⟨e.2, hv⟩
  · split at h
    · cases h
      exact ⟨.nil, nofun⟩
    · cases h

theorem exists_of_field? {a : α} (h : Node.field? r name read = some a) :
    ∃ b, read b = some a := by
  obtain ⟨b, -, hb⟩ := Option.bind_eq_some_iff.mp h
  exact ⟨b, hb⟩

theorem eq_or_exists_of_fieldOr? {default a : α} (h : Node.fieldOr? r name default read = some a) :
    a = default ∨ ∃ b, read b = some a := by
  unfold Node.fieldOr? at h
  split at h
  · cases h
    exact .inl rfl
  · next b _ => exact .inr ⟨b, h⟩

theorem exists_of_optionalField? {x : Option α} (h : Node.optionalField? r name read = some x) :
    ∀ a ∈ x, ∃ b, read b = some a := by
  rintro a rfl
  rcases eq_or_exists_of_fieldOr? h with hnone | ⟨b, hb⟩
  · cases hnone
  · have hread (h : (read b).map some = some (some a)) : read b = some a := by
      obtain ⟨a', ha', heq⟩ := Option.map_eq_some_iff.mp h
      cases heq
      exact ha'
    unfold Node.optional? at hb
    split at hb
    · split at hb
      · cases hb
      · cases hb
      · exact ⟨_, hread hb⟩
    · exact ⟨b, hread hb⟩

end Read

/-! ## A document for every value -/

mutual

/-- The part of a document that is written for a value: strings are quoted, everything else is
plain. -/
def ofJson : Json → Node
  | .null => .scalar ⟨"null", .plain, none⟩
  | .bool b => .scalar ⟨if b then "true" else "false", .plain, none⟩
  | .number (.integer n _) => .scalar ⟨toString n, .plain, none⟩
  | .number (.double x) => .scalar ⟨exactText x, .plain, none⟩
  | .string s => .scalar ⟨s, .quoted, none⟩
  | .array items => .sequence none (ofItems items)
  | .object fields => .mapping none (ofFields fields)

/-- The parts for the items of an array. -/
def ofItems : List Json → List Node
  | [] => []
  | v :: rest => ofJson v :: ofItems rest

/-- The entries for the fields of an object. -/
def ofFields : List (String × Json) → List (Node × Node)
  | [] => []
  | (name, v) :: rest => (.scalar ⟨name, .quoted, none⟩, ofJson v) :: ofFields rest

end

theorem ofItems_eq_map (items : List Json) : ofItems items = items.map ofJson := by
  induction items with
  | nil => rfl
  | cons v rest ih => rw [ofItems, ih, List.map_cons]

theorem ofFields_eq_entries (fields : List (String × Json)) :
    ofFields fields = entries (fields.map fun f => (⟨f.1, .quoted, none⟩, ofJson f.2)) := by
  induction fields with
  | nil => rfl
  | cons f rest ih =>
    obtain ⟨name, v⟩ := f
    rw [ofFields, ih]
    rfl

theorem plainDatum_null : plainDatum "null" = .null := by
  unfold plainDatum
  rw [if_pos (by decide)]

theorem plainDatum_bool (b : Bool) : plainDatum (if b then "true" else "false") = .bool b := by
  have hsome : boolOfText? (if b then "true" else "false") = some b := by cases b <;> decide
  unfold plainDatum
  rw [if_neg (by cases b <;> decide), hsome]

/-- The document of a value spells it. -/
theorem spells_ofJson (h : v.Distinct) : Spells (ofJson v) v := by
  induction h with
  | null => exact .null plainDatum_null
  | bool b => exact .bool (plainDatum_bool b)
  | number n =>
    cases n with
    | integer n hn => exact .integer hn
    | double x => exact .double (plainDatum_exactText x)
  | string s => exact .string rfl
  | @array items _ ih =>
    rw [ofJson, ofItems_eq_map]
    refine .array rfl ?_
    rw [List.forall₂_map_left_iff, List.forall₂_same]
    exact ih
  | @object fields hdistinct _ ih =>
    have htexts : texts (fields.map fun f => (⟨f.1, .quoted, none⟩, ofJson f.2)) =
        fields.map fun f => (f.1, ofJson f.2) := List.map_map
    rw [ofJson, ofFields_eq_entries]
    refine .object rfl (fun e he => ?_) ?_ fun name => ?_
    · obtain ⟨f, -, rfl⟩ := List.mem_map.mp he
      rfl
    · rwa [htexts, List.map_map]
    · have hmem {v} := (mem_iff_lookup_of_nodup hdistinct name v).mpr
      rw [htexts, lookup_map_snd]
      cases hv : fields.lookup name with
      | none => exact .none
      | some v => exact .some (ih _ (hmem hv))

end Node

end Telltale.Yaml

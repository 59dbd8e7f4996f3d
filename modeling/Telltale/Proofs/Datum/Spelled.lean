import Telltale.Datum
import Telltale.Proofs.Table.Pairs

/-!
# Data that spell a value

A value can be written down in many ways: the entries of a mapping come in any order. Whatever is
read from a datum does not depend on that. A record finds its fields, a table and a value come out
in order.

* `Json.AllObjects` — what holds of every object in a value: that no name stands twice in it
  (`Json.Distinct`), or that its fields are a table in order (`Json.InOrder`).
* `Datum.Spells` — a datum spells a value. `Datum.spells_ofJson` has the datum that keeps the order.
* `Datum.Spells.toJson?` — a value in order is read back from whatever spells it.
* `Datum.Spells.record?`, `Datum.Spells.tagged?` — a datum that spells an object gives the fields of
  a record, or a tag and the fields beside it; `Record.Spells` is what lookups say of them.
-/

namespace Telltale

/-! ## Values whose objects are all alike -/

/-- Something holds of the fields of every object in a value. -/
inductive Json.AllObjects (P : List (String × Json) → Prop) : Json → Prop
  | null : AllObjects P .null
  | bool (b : Bool) : AllObjects P (.bool b)
  | number (n : Number) : AllObjects P (.number n)
  | string (s : String) : AllObjects P (.string s)
  | array {items : List Json} (h : ∀ v ∈ items, AllObjects P v) : AllObjects P (.array items)
  | object {fields : List (String × Json)} (hP : P fields) (h : ∀ f ∈ fields, AllObjects P f.2) :
    AllObjects P (.object fields)

namespace Json

/-- No name stands twice in an object. -/
abbrev Distinct : Json → Prop := AllObjects fun fields => (fields.map (·.1)).Nodup

/-- The fields of objects are tables in order. -/
abbrev InOrder : Json → Prop := AllObjects Table.Ordered

theorem AllObjects.mono {P Q : List (String × Json) → Prop} (hPQ : ∀ fields, P fields → Q fields)
    {v : Json} (h : v.AllObjects P) : v.AllObjects Q := by
  induction h with
  | null => exact .null
  | bool b => exact .bool b
  | number n => exact .number n
  | string s => exact .string s
  | array _ ih => exact .array ih
  | object hP _ ih => exact .object (hPQ _ hP) ih

theorem AllObjects.distinct {v : Json} (h : v.InOrder) : v.Distinct :=
  h.mono fun _ hordered => Table.Ordered.nodup_names hordered

/-- An object of pairs is in order if their values are. -/
theorem inOrder_ofPairs {pairs : List (String × Json)} (h : ∀ p ∈ pairs, p.2.InOrder) :
    (ofPairs pairs).InOrder :=
  .object (Table.ordered_ofPairs pairs) fun p hp => h p (Table.mem_of_mem_ofPairs hp)

theorem AllObjects.array_map {P : List (String × Json) → Prop} {xs : List α} {write : α → Json}
    (h : ∀ x ∈ xs, (write x).AllObjects P) : (Json.array (xs.map write)).AllObjects P :=
  .array (List.forall_mem_map.mpr h)

/-- The object of a table has no name twice. -/
theorem distinct_mapValues {table : Table α} {write : α → Json} (htable : Table.Ordered table)
    (h : ∀ p ∈ table, (write p.2).Distinct) : (object (table.mapValues write)).Distinct :=
  .object (htable.mapValues write).nodup_names (List.forall_mem_map.mpr h)

theorem AllObjects.ofNat {P : List (String × Json) → Prop} (n : Nat) :
    (Json.ofNat n).AllObjects P := by
  unfold Json.ofNat
  cases Number.ofInt? n with
  | none => exact .null
  | some m => exact .number m

theorem ofNat_eq_integer {n : Nat} (h : n < 18446744073709551616) :
    ∃ hn, ofNat n = .number (.integer n hn) := by
  have hn : Number.InRange n :=
    ⟨Int.le_trans (by decide) (Int.natCast_nonneg n),
      lt_of_lt_of_eq (Int.ofNat_lt.mpr h) (by decide)⟩
  have hsome : Number.ofInt? n = some (.integer n hn) := dif_pos hn
  exact ⟨hn, by rw [ofNat, hsome, Option.elim_some]⟩

end Json

/-! ## Spelling -/

namespace Datum

/-- Entries whose keys are texts. -/
def named (l : List (String × Datum)) : List (Datum × Datum) := l.map fun e => (.string e.1, e.2)

/-- A datum spells a value. The entries of a mapping say of each name what the fields of an object
say of it, and no name stands twice among them. -/
inductive Spells : Datum → Json → Prop
  | null : Spells .null .null
  | bool (b : Bool) : Spells (.bool b) (.bool b)
  | number (n : Number) : Spells (.number n) (.number n)
  | string (s : String) : Spells (.string s) (.string s)
  | array {ds : List Datum} {items : List Json} (h : List.Forall₂ Spells ds items) :
    Spells (.list ds) (.array items)
  | object {l : List (String × Datum)} {fields : List (String × Json)}
    (distinct : (l.map (·.1)).Nodup)
    (h : ∀ name, Option.Rel Spells (l.lookup name) (fields.lookup name)) :
    Spells (.mapping (named l)) (.object fields)

variable {d : Datum} {v : Json} {l : List (String × Datum)} {fields : List (String × Json)}

theorem ofItems_eq_map (items : List Json) : ofItems items = items.map ofJson := by
  induction items with
  | nil => rfl
  | cons v rest ih => rw [ofItems, ih, List.map_cons]

theorem ofFields_eq_named (fields : List (String × Json)) :
    ofFields fields = named (fields.map fun f => (f.1, ofJson f.2)) := by
  induction fields with
  | nil => rfl
  | cons f rest ih =>
    obtain ⟨name, v⟩ := f
    rw [ofFields, ih]
    rfl

/-- The datum of a value spells it. -/
theorem spells_ofJson (h : v.Distinct) : Spells (ofJson v) v := by
  induction h with
  | null => exact .null
  | bool b => exact .bool b
  | number n => exact .number n
  | string s => exact .string s
  | @array items _ ih =>
    rw [ofJson, ofItems_eq_map]
    refine .array ?_
    rw [List.forall₂_map_left_iff, List.forall₂_same]
    exact ih
  | @object fields hdistinct _ ih =>
    rw [ofJson, ofFields_eq_named]
    refine .object ?_ fun name => ?_
    · rwa [List.map_map]
    · rw [lookup_map_snd]
      cases hv : fields.lookup name with
      | none => exact .none
      | some v => exact .some (ih _ ((mem_iff_lookup_of_nodup hdistinct name v).mpr hv))

/-! ### What a datum says as a whole -/

theorem areReadable_eq_all (ds : List Datum) : areReadable ds = ds.all isReadable := by
  induction ds with
  | nil => rfl
  | cons d rest ih => rw [areReadable, ih, List.all_cons]

theorem haveReadable_named (l : List (String × Datum)) :
    haveReadable (named l) = l.all fun e => e.2.isReadable := by
  induction l with
  | nil => rfl
  | cons e rest ih =>
    rw [named, List.map_cons, haveReadable, ← named, ih, List.all_cons]
    rfl

/-- What is said of a name is a field that is spelled. -/
theorem exists_field (hdistinct : (l.map (·.1)).Nodup) {R : Datum → Json → Prop}
    (h : ∀ name, Option.Rel R (l.lookup name) (fields.lookup name)) {e : String × Datum}
    (he : e ∈ l) : ∃ v, fields.lookup e.1 = some v ∧ R e.2 v := by
  have hrel := h e.1
  rw [(mem_iff_lookup_of_nodup hdistinct e.1 e.2).mp he] at hrel
  exact exists_of_rel_some hrel

/-- What spells a value can be read in all its parts. -/
theorem Spells.isReadable (hv : v.Distinct) : ∀ {d : Datum}, Spells d v → d.isReadable = true := by
  induction hv with
  | null => rintro d ⟨⟩; rfl
  | bool b => rintro d ⟨⟩; rfl
  | number n => rintro d ⟨⟩; rfl
  | string s => rintro d ⟨⟩; rfl
  | @array items _ ih =>
    intro d hd
    cases hd with
    | @array ds _ h =>
      rw [Datum.isReadable, areReadable_eq_all, List.all_eq_true]
      intro d hd
      obtain ⟨v, hv, hspells⟩ := exists_of_mem_forall₂ (List.Forall₂.flip h) hd
      exact ih v hv hspells
  | @object fields hdistinct _ ih =>
    intro d hd
    cases hd with
    | @object l _ hl h =>
      rw [Datum.isReadable, haveReadable_named, List.all_eq_true]
      intro e he
      obtain ⟨v, hv, hspells⟩ := exists_field hl h he
      exact ih _ ((mem_iff_lookup_of_nodup hdistinct e.1 v).mpr hv) hspells

theorem toItems?_eq_mapM (ds : List Datum) : toItems? ds = ds.mapM toJson? := by
  induction ds with
  | nil => rfl
  | cons d rest ih =>
    rw [toItems?, ih, List.mapM_cons]
    rfl

theorem toFields?_named (l : List (String × Datum)) :
    toFields? (named l) = readPairs toJson? l := by
  induction l with
  | nil => rfl
  | cons e rest ih =>
    unfold readPairs at ih ⊢
    rw [named, List.map_cons, toFields?, ← named, ih, List.mapM_cons]
    cases toJson? e.2 with
    | none => rfl
    | some v => rfl

/-- A value in order is read back from whatever spells it. -/
theorem Spells.toJson? (hv : v.InOrder) : ∀ {d : Datum}, Spells d v → d.toJson? = some v := by
  induction hv with
  | null => rintro d ⟨⟩; rfl
  | bool b => rintro d ⟨⟩; rfl
  | number n => rintro d ⟨⟩; rfl
  | string s => rintro d ⟨⟩; rfl
  | @array items _ ih =>
    intro d hd
    cases hd with
    | @array ds _ h =>
      have hitems : toItems? ds = some items := by
        rw [toItems?_eq_mapM, mapM_eq_some_iff_forall₂]
        exact forall₂_imp_of_mem h fun d v hv hd => ih v hv hd
      rw [Datum.toJson?, hitems, Option.map_some]
  | @object fields hordered _ ih =>
    intro d hd
    cases hd with
    | @object l _ hl h =>
      have hmem {name v} := (mem_iff_lookup_of_nodup hordered.nodup_names name v).mpr
      have htable : (readPairs Datum.toJson? l).map Table.ofPairs = some fields :=
        Table.ofPairs_readPairs hl hordered fun name =>
          rel_imp_of_eq (h name) fun d v hv hd => ih _ (hmem hv) hd
      obtain ⟨pairs, hpairs, hfields⟩ := Option.map_eq_some_iff.mp htable
      rw [Datum.toJson?, toFields?_named, hpairs, Option.map_some, Json.ofPairs, hfields]

mutual

/-- A value that is read from a datum is in order. -/
theorem inOrder_of_toJson? : ∀ {d : Datum} {v : Json}, d.toJson? = some v → v.InOrder
  | .null, _, h => by cases h; exact .null
  | .bool b, _, h => by cases h; exact .bool b
  | .number n, _, h => by cases h; exact .number n
  | .infinity _, _, h => by cases h; exact .null
  | .nan, _, h => by cases h; exact .null
  | .string s, _, h => by cases h; exact .string s
  | .list ds, _, h => by
    obtain ⟨items, hitems, rfl⟩ := Option.map_eq_some_iff.mp h
    exact .array (inOrder_of_toItems? hitems)
  | .mapping entries, _, h => by
    obtain ⟨pairs, hpairs, rfl⟩ := Option.map_eq_some_iff.mp h
    exact Json.inOrder_ofPairs (inOrder_of_toFields? hpairs)
  | .unreadable, _, h => nomatch h

theorem inOrder_of_toItems? : ∀ {ds : List Datum} {items : List Json},
    toItems? ds = some items → ∀ v ∈ items, v.InOrder
  | [], _, h => by cases h; exact nofun
  | d :: rest, _, h => by
    obtain ⟨v, hv, h⟩ := Option.bind_eq_some_iff.mp h
    obtain ⟨vs, hvs, h⟩ := Option.bind_eq_some_iff.mp h
    cases h
    exact List.forall_mem_cons.mpr ⟨inOrder_of_toJson? hv, inOrder_of_toItems? hvs⟩

theorem inOrder_of_toFields? : ∀ {entries : List (Datum × Datum)} {pairs : List (String × Json)},
    toFields? entries = some pairs → ∀ p ∈ pairs, p.2.InOrder
  | [], _, h => by cases h; exact nofun
  | (key, d) :: rest, _, h => by
    cases key with
    | string name =>
      obtain ⟨v, hv, h⟩ := Option.bind_eq_some_iff.mp h
      obtain ⟨vs, hvs, h⟩ := Option.bind_eq_some_iff.mp h
      cases h
      exact List.forall_mem_cons.mpr ⟨inOrder_of_toJson? hv, inOrder_of_toFields? hvs⟩
    | _ => cases h

end

/-! ### Nesting -/

theorem depth_le_depthItems {ds : List Datum} (h : d ∈ ds) : d.depth ≤ depthItems ds := by
  induction ds with
  | nil => cases h
  | cons b rest ih =>
    rw [depthItems]
    rcases List.mem_cons.mp h with rfl | h
    · exact Nat.le_max_left _ _
    · exact Nat.le_trans (ih h) (Nat.le_max_right _ _)

theorem depth_le_depthEntries {name : String} (h : l.lookup name = some d) :
    d.depth ≤ depthEntries (named l) := by
  induction l with
  | nil => cases h
  | cons e rest ih =>
    obtain ⟨n, b⟩ := e
    rw [named, List.map_cons, depthEntries, ← named]
    rw [List.lookup_cons] at h
    split at h
    · cases h
      exact Nat.le_max_left _ _
    · exact Nat.le_trans (ih h) (Nat.le_max_right _ _)

end Datum

/-! ## Records -/

/-- The fields of a record spell those of an object, and their data are nested at most so deep. -/
def Record.Spells (depth : Nat) (r : Record) (fields : List (String × Json)) : Prop :=
  ∀ name, Option.Rel (fun d v => Datum.Spells d v ∧ d.depth ≤ depth) (r.lookup name)
    (fields.lookup name)

namespace Datum

variable {d : Datum} {l : List (String × Datum)} {fields : List (String × Json)}
  {names : List String}

theorem fields?_named (h : (l.map (·.1)).Nodup) :
    fields? names false (named l) = some (l.filter fun e => names.contains e.1) := by
  induction l with
  | nil => rfl
  | cons e rest ih =>
    obtain ⟨n, d⟩ := e
    obtain ⟨hn, hrest⟩ := List.nodup_cons.mp h
    rw [named, List.map_cons, fields?, ← named, ih hrest, fieldName?]
    cases hcontains : names.contains n with
    | false =>
      rw [List.filter_cons_of_neg (by rw [hcontains]; decide)]
      rfl
    | true =>
      have hnone : (rest.filter fun e => names.contains e.1).lookup n = none := by
        rw [lookup_filter_names, lookup_eq_none_of_notMem hn, ite_self]
      rw [List.filter_cons_of_pos (by rw [hcontains])]
      simp only [Option.bind_eq_bind, Option.bind_some, if_true, hnone, Option.isSome_none,
        Bool.false_eq_true, if_false]

theorem splitKey_named (key : String) (l : List (String × Datum)) :
    splitKey key (named l) =
      ((l.filter fun e => e.1 = key).map (·.2), named (l.filter fun e => e.1 ≠ key)) := by
  induction l with
  | nil => rfl
  | cons e rest ih =>
    obtain ⟨n, d⟩ := e
    rw [named, List.map_cons, splitKey, ← named, ih]
    by_cases hn : n = key
    · simp [hn]
    · simp [hn, named]

/-- Entries that say what fields say of the names of a record give the record those fields. -/
theorem exists_fields {R : Datum → Json → Prop} (hl : (l.map (·.1)).Nodup)
    (h : ∀ name ∈ names, Option.Rel R (l.lookup name) (fields.lookup name))
    (hnames : ∀ f ∈ fields, f.1 ∈ names) :
    ∃ r, fields? names false (named l) = some r ∧
      ∀ name, Option.Rel R (r.lookup name) (fields.lookup name) :=
  ⟨_, fields?_named hl, rel_lookup_filter h hnames⟩

theorem rel_depth {name : String} {v? : Option Json}
    (h : Option.Rel Spells (l.lookup name) v?) :
    Option.Rel (fun d v => Spells d v ∧ d.depth ≤ depthEntries (named l)) (l.lookup name) v? := by
  cases hd : l.lookup name with
  | none =>
    rw [hd] at h
    cases h
    exact .none
  | some d =>
    rw [hd] at h
    obtain ⟨v, rfl, hv⟩ := exists_of_rel_some h
    exact .some ⟨hv, depth_le_depthEntries hd⟩

/-- What spells an object gives a record of its fields. -/
theorem Spells.record? (h : Spells d (.object fields)) (names : List String)
    (hnames : ∀ f ∈ fields, f.1 ∈ names) :
    ∃ r depth, d.record? names false = some r ∧ d.depth = depth + 1 ∧ r.Spells depth fields := by
  cases h with
  | @object l _ hl h =>
    obtain ⟨r, hr, hfields⟩ := exists_fields hl (fun name _ => rel_depth (h name)) hnames
    exact ⟨r, _, hr, rfl, hfields⟩

/-- What spells an object with a tag gives the tag and a record of the fields beside it. -/
theorem Spells.tagged? {key tag : String}
    (h : Spells d (.object ((key, .string tag) :: fields))) (hkey : key ∉ names)
    (hnames : ∀ f ∈ fields, f.1 ∈ names) :
    ∃ rest r depth, d.tagged? key = some (.string tag, rest) ∧ rest.record? names false = some r ∧
      d.depth = depth + 1 ∧ r.Spells depth fields := by
  cases h with
  | @object l _ hl h =>
    have htag : l.lookup key = some (.string tag) := by
      have hrel := h key
      rw [List.lookup_cons_self] at hrel
      obtain ⟨d, hd, htag⟩ := exists_of_rel_some_right hrel
      cases htag
      exact hd
    have hothers : ((l.filter fun e => e.1 ≠ key).map (·.1)).Nodup :=
      hl.sublist (List.filter_sublist.map _)
    have hbeside (name) (hname : name ∈ names) :
        Option.Rel (fun d v => Spells d v ∧ d.depth ≤ depthEntries (named l))
          ((l.filter fun e => e.1 ≠ key).lookup name) (fields.lookup name) := by
      have hne : name ≠ key := fun heq => hkey (heq ▸ hname)
      have hbeq : (name == key) = false := by simpa using hne
      have hrel := h name
      rw [List.lookup_cons, hbeq] at hrel
      rw [lookup_filter_names (· ≠ key), decide_eq_true hne, if_pos rfl]
      exact rel_depth hrel
    obtain ⟨r, hr, hfields⟩ := exists_fields hothers hbeside hnames
    refine ⟨.mapping (named (l.filter fun e => e.1 ≠ key)), r, _, ?_, hr, rfl, hfields⟩
    rw [Datum.tagged?, splitKey_named, filter_name hl htag]
    rfl

/-! ### Readings -/

theorem Spells.string? {text : String} (h : Spells d (.string text)) : d.string? = some text := by
  cases h
  rfl

/-- A list is read from what spells the values of its items. -/
theorem Spells.listOf? {read : Datum → Option α} {write : α → Json} {xs : List α}
    (h : Spells d (.array (xs.map write)))
    (hread : ∀ x ∈ xs, ∀ b, Spells b (write x) → b.depth < d.depth → read b = some x) :
    d.listOf? read = some xs := by
  cases h with
  | @array ds _ h =>
    rw [List.forall₂_map_right_iff] at h
    have hrows : List.Forall₂ (fun b x => read b = some x) ds xs := by
      have hdepth (b) (hb : b ∈ ds) : b.depth < (Datum.list ds).depth :=
        Nat.lt_succ_of_le (depth_le_depthItems hb)
      generalize (Datum.list ds).depth = depth at hdepth hread
      induction h with
      | nil => exact .nil
      | cons hb _ ih =>
        obtain ⟨hx, hrest⟩ := List.forall_mem_cons.mp hread
        obtain ⟨hlt, hlts⟩ := List.forall_mem_cons.mp hdepth
        exact .cons (hx _ hb hlt) (ih hlts hrest)
    exact mapM_eq_some_iff_forall₂.mpr hrows

/-- A table of values is read from what spells it. -/
theorem Spells.table? {t : Table Json} (h : Spells d (.object t)) (ht : (Json.object t).InOrder) :
    d.table? Datum.toJson? = some t := by
  cases h with
  | @object l _ hl h =>
    cases ht with
    | object hordered hvalues =>
      have hpairs : (named l).mapM (pairOf? Datum.toJson?) = readPairs Datum.toJson? l := by
        rw [readPairs, named, List.mapM_map]
        rfl
      rw [Datum.table?, hpairs]
      have hmem {name v} := (mem_iff_lookup_of_nodup hordered.nodup_names name v).mpr
      exact Table.ofPairs_readPairs hl hordered fun name =>
        rel_imp_of_eq (h name) fun d v hv hd => hd.toJson? (hvalues _ (hmem hv))

/-! ### What was read -/

theorem exists_of_mem_listOf? {read : Datum → Option α} {xs : List α}
    (h : d.listOf? read = some xs) {x : α} (hx : x ∈ xs) : ∃ b, read b = some x := by
  obtain ⟨ds, -, hds⟩ := Option.bind_eq_some_iff.mp h
  obtain ⟨b, -, hb⟩ := exists_of_mem_forall₂ (mapM_eq_some_iff_forall₂.mp hds) hx
  exact ⟨b, hb⟩

theorem inOrder_of_table? {t : Table Json} (h : d.table? Datum.toJson? = some t) :
    (Json.object t).InOrder := by
  cases d with
  | mapping entries =>
    obtain ⟨pairs, hpairs, rfl⟩ := Option.map_eq_some_iff.mp h
    refine Json.inOrder_ofPairs fun p hp => ?_
    obtain ⟨⟨key, d⟩, -, hread⟩ := exists_of_mem_forall₂ (mapM_eq_some_iff_forall₂.mp hpairs) hp
    cases key with
    | string name =>
      obtain ⟨v, hv, rfl⟩ := Option.map_eq_some_iff.mp hread
      exact inOrder_of_toJson? hv
    | _ => cases hread
  | _ => cases h

end Datum

namespace Record

variable {r : Record} {name : String}

theorem exists_of_field? {read : Datum → Option α} {a : α} (h : r.field? name read = some a) :
    ∃ d, read d = some a := by
  obtain ⟨d, -, hd⟩ := Option.bind_eq_some_iff.mp h
  exact ⟨d, hd⟩

theorem exists_of_optional? {read : Datum → Option α} {x : Option α}
    (h : r.optional? name read = some x) : ∀ a ∈ x, ∃ d, read d = some a := by
  unfold optional? at h
  split at h
  · cases h
    exact nofun
  · cases h
    exact nofun
  · next d _ _ =>
    obtain ⟨a, ha, rfl⟩ := Option.map_eq_some_iff.mp h
    rintro b ⟨⟩
    exact ⟨d, ha⟩

end Record

namespace Record.Spells

variable {r : Record} {depth : Nat} {fields : List (String × Json)} {name : String}

/-- A field that spells a value is read. -/
theorem field? (h : r.Spells depth fields) {v : Json} (hv : fields.lookup name = some v)
    {read : Datum → Option α} {a : α}
    (hread : ∀ d, Datum.Spells d v → d.depth ≤ depth → read d = some a) :
    r.field? name read = some a := by
  have hrel := h name
  rw [hv] at hrel
  obtain ⟨d, hd, hspells, hdepth⟩ := exists_of_rel_some_right hrel
  rw [Record.field?, hd, Option.bind_some]
  exact hread d hspells hdepth

/-- A field that may be missing is read, if what it spells is not null. -/
theorem optional? (h : r.Spells depth fields) {x : Option α} {write : α → Json}
    (hx : fields.lookup name = x.map write) {read : Datum → Option α}
    (hread : ∀ a ∈ x, write a ≠ .null ∧ ∀ d, Datum.Spells d (write a) → read d = some a) :
    r.optional? name read = some x := by
  have hrel := h name
  rw [hx] at hrel
  unfold Record.optional?
  cases x with
  | none => rw [eq_none_of_rel hrel]
  | some a =>
    obtain ⟨d, hd, hspells, -⟩ := exists_of_rel_some_right hrel
    obtain ⟨hnull, hread⟩ := hread a rfl
    rw [hd]
    cases d with
    | null =>
      generalize write a = v at hspells hnull
      cases hspells
      exact absurd rfl hnull
    | _ => simp only [hread _ hspells, Option.map_some]

end Record.Spells

end Telltale

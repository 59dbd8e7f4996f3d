import Mathlib.Data.List.Forall2
import Telltale.Proofs.Table.Order

/-!
# Rows that are read

A list is read item by item, and a list of pairs value by value. What comes out is given by what is
read of each item, or of each name, and the order of the pairs does not matter for a table.

* `mapM_eq_some_iff_forall₂` — a list is read if each of its items is.
* `readPairs` — pairs whose values are read. `Table.ofPairs_readPairs` is the table they make.
* `lookup_filter_names`, `rel_lookup_filter`, `filter_name` — what is left of pairs when some names
  are dropped, or all but one.
* `Table.places` — where names stand in a row, noted one after the other. If names differ, looking a
  member up by its noted place finds the one that a search finds (`Table.find?_eq_of_places`).
-/

namespace Telltale

/-! ## Rows -/

/-- Of rows that belong together, every item of one row has its partner in the other. -/
theorem exists_of_mem_forall₂ {R : α → β → Prop} {l : List α} {l' : List β}
    (h : List.Forall₂ R l l') {b : β} (hb : b ∈ l') : ∃ a ∈ l, R a b := by
  induction h with
  | nil => cases hb
  | cons hab _ ih =>
    rcases List.mem_cons.mp hb with rfl | hb
    · exact ⟨_, List.mem_cons_self, hab⟩
    · obtain ⟨a, ha, hab⟩ := ih hb
      exact ⟨a, List.mem_cons_of_mem _ ha, hab⟩

theorem forall₂_imp_of_mem {R S : α → β → Prop} {l : List α} {l' : List β}
    (h : List.Forall₂ R l l') (himp : ∀ a, ∀ b ∈ l', R a b → S a b) : List.Forall₂ S l l' := by
  induction h with
  | nil => exact .nil
  | cons hab _ ih =>
    exact .cons (himp _ _ List.mem_cons_self hab)
      (ih fun a b hb => himp a b (List.mem_cons_of_mem _ hb))

/-- What is picked from some members of a row stands in the order of the row. -/
theorem sublist_map_filterMap {pick : α → Option β} {g : β → γ} {k : α → γ}
    (h : ∀ a b, pick a = some b → g b = k a) (l : List α) :
    ((l.filterMap pick).map g).Sublist (l.map k) := by
  induction l with
  | nil => exact .slnil
  | cons a rest ih =>
    rw [List.filterMap_cons]
    split
    · exact ih.cons _
    · next b hb =>
      rw [List.map_cons, List.map_cons, h a b hb]
      exact ih.cons_cons _

/-- A list is read if each of its items is. -/
theorem mapM_eq_some_iff_forall₂ {read : α → Option β} {l : List α} {l' : List β} :
    l.mapM read = some l' ↔ List.Forall₂ (fun a b => read a = some b) l l' := by
  induction l generalizing l' with
  | nil =>
    rw [List.mapM_nil, List.forall₂_nil_left_iff]
    exact ⟨fun h => (Option.some.inj h).symm, fun h => h ▸ rfl⟩
  | cons a rest ih =>
    rw [List.mapM_cons, List.forall₂_cons_left_iff]
    constructor
    · intro h
      obtain ⟨b, hb, h⟩ := Option.bind_eq_some_iff.mp h
      obtain ⟨bs, hbs, h⟩ := Option.bind_eq_some_iff.mp h
      cases h
      exact ⟨b, bs, hb, ih.mp hbs, rfl⟩
    · rintro ⟨b, bs, hb, hbs, rfl⟩
      rw [hb, ih.mpr hbs]
      rfl

/-! ## Options that belong together -/

theorem exists_of_rel_some {R : α → β → Prop} {a : α} {y : Option β}
    (h : Option.Rel R (some a) y) : ∃ b, y = some b ∧ R a b := by
  cases h with
  | some hab => exact ⟨_, rfl, hab⟩

theorem exists_of_rel_some_right {R : α → β → Prop} {x : Option α} {b : β}
    (h : Option.Rel R x (some b)) : ∃ a, x = some a ∧ R a b := by
  cases h with
  | some hab => exact ⟨_, rfl, hab⟩

theorem rel_imp_of_eq {R S : α → β → Prop} {x : Option α} {y : Option β} (h : Option.Rel R x y)
    (himp : ∀ a b, y = some b → R a b → S a b) : Option.Rel S x y := by
  cases h with
  | none => exact .none
  | some hab => exact .some (himp _ _ rfl hab)

theorem rel_map_left {R : γ → β → Prop} {g : α → γ} {x : Option α} {y : Option β}
    (h : Option.Rel (fun a b => R (g a) b) x y) : Option.Rel R (x.map g) y := by
  cases h with
  | none => exact .none
  | some hab => exact .some hab

theorem rel_of_rel_map_right {R : α → γ → Prop} {g : β → γ} {x : Option α} {y : Option β}
    (h : Option.Rel R x (y.map g)) : Option.Rel (fun a b => R a (g b)) x y := by
  cases y with
  | none =>
    cases h
    exact .none
  | some b =>
    cases h with
    | some hab => exact .some hab

theorem eq_none_of_rel {R : α → β → Prop} {x : Option α} (h : Option.Rel R x (none : Option β)) :
    x = none := by
  cases h
  rfl

/-! ## Pairs -/

section Pairs

variable {l : List (String × β)}

theorem lookup_eq_none_of_notMem {name : String} (h : name ∉ l.map (·.1)) :
    l.lookup name = none := by
  rw [List.lookup_eq_none_iff]
  intro e he
  rw [bne_iff_ne]
  rintro rfl
  exact h (List.mem_map.mpr ⟨e, he, rfl⟩)

theorem lookup_filter_names (p : String → Bool) (l : List (String × β)) (name : String) :
    (l.filter fun e => p e.1).lookup name = if p name then l.lookup name else none := by
  induction l with
  | nil => simp
  | cons e rest ih =>
    obtain ⟨n, d⟩ := e
    by_cases hname : name = n
    · subst hname
      cases hp : p name with
      | true => simp [hp]
      | false => simp [hp, ih]
    · have hbeq : (name == n) = false := by simpa using hname
      rw [List.filter_cons, List.lookup_cons, hbeq, ← ih]
      cases p n with
      | true => simp [List.lookup_cons, hbeq]
      | false => rfl

/-- Pairs that say what other pairs say of some names still do so when all other names are
dropped, if the others have no other names. -/
theorem rel_lookup_filter {l' : List (String × γ)} {R : β → γ → Prop} {names : List String}
    (h : ∀ name ∈ names, Option.Rel R (l.lookup name) (l'.lookup name))
    (hnames : ∀ e ∈ l', e.1 ∈ names) (name : String) :
    Option.Rel R ((l.filter fun e => names.contains e.1).lookup name) (l'.lookup name) := by
  rw [lookup_filter_names]
  cases hcontains : names.contains name with
  | true => exact h name (by simpa using hcontains)
  | false =>
    have habsent : name ∉ l'.map (·.1) := by
      intro hmem
      obtain ⟨e, he, rfl⟩ := List.mem_map.mp hmem
      have he := hnames e he
      simp [he] at hcontains
    rw [lookup_eq_none_of_notMem habsent]
    exact .none

theorem lookup_map_snd (g : β → γ) (l : List (String × β)) (name : String) :
    (l.map fun e => (e.1, g e.2)).lookup name = (l.lookup name).map g :=
  Table.get?_mapValues g l name

/-- Without repeated names, what is left of a name are its entry or nothing. -/
theorem filter_name (h : (l.map (·.1)).Nodup) {name : String} {d : β}
    (hd : l.lookup name = some d) : (l.filter fun e => e.1 = name) = [(name, d)] := by
  induction l with
  | nil => cases hd
  | cons e rest ih =>
    obtain ⟨n, b⟩ := e
    obtain ⟨hn, hrest⟩ := List.nodup_cons.mp h
    by_cases hname : name = n
    · subst hname
      have hnone : (rest.filter fun e => e.1 = name) = [] := by
        refine List.filter_eq_nil_iff.mpr fun e he heq => hn ?_
        exact List.mem_map.mpr ⟨e, he, of_decide_eq_true heq⟩
      simp only [List.lookup_cons, beq_self_eq_true, Option.some.injEq] at hd
      rw [List.filter_cons_of_pos (by simp), hnone, hd]
    · have hbeq : (name == n) = false := by simpa using hname
      rw [List.lookup_cons, hbeq] at hd
      rw [List.filter_cons_of_neg (by simpa using Ne.symm hname), ih hrest hd]

/-- Pairs whose values are all read alike. -/
def readPairs (read : β → Option α) (l : List (String × β)) : Option (List (String × α)) :=
  l.mapM fun e => (read e.2).map fun a => (e.1, a)

/-- What is found among pairs that were read has been read of what was found before. -/
theorem readPairs_eq_some {read : β → Option α} {pairs : List (String × α)}
    (h : readPairs read l = some pairs) :
    pairs.map (·.1) = l.map (·.1) ∧ ∀ name, pairs.lookup name = (l.lookup name).bind read := by
  have hrows := mapM_eq_some_iff_forall₂.mp h
  clear h
  induction hrows with
  | nil => exact ⟨rfl, fun _ => rfl⟩
  | @cons e p rest pairs hread _ ih =>
    obtain ⟨a, ha, rfl⟩ := Option.map_eq_some_iff.mp hread
    refine ⟨?_, fun name => ?_⟩
    · rw [List.map_cons, List.map_cons, ih.1]
    · obtain ⟨n, d⟩ := e
      rw [List.lookup_cons, List.lookup_cons, ih.2]
      cases name == n with
      | true => exact ha.symm
      | false => rfl

/-- Pairs are read if every value is. -/
theorem exists_readPairs {read : β → Option α} (h : ∀ e ∈ l, ∃ a, read e.2 = some a) :
    ∃ pairs, readPairs read l = some pairs := by
  induction l with
  | nil => exact ⟨[], rfl⟩
  | cons e rest ih =>
    obtain ⟨he, hrest⟩ := List.forall_mem_cons.mp h
    obtain ⟨a, ha⟩ := he
    obtain ⟨pairs, hpairs⟩ := ih hrest
    refine ⟨(e.1, a) :: pairs, ?_⟩
    unfold readPairs at hpairs ⊢
    rw [List.mapM_cons, ha, hpairs]
    rfl

end Pairs

/-! ## Tables of pairs -/

namespace Table

theorem ordered_ofPairs (pairs : List (String × α)) : Ordered (ofPairs pairs) := by
  unfold ofPairs
  generalize hstart : ([] : Table α) = t
  have ht : Ordered t := hstart ▸ .nil
  clear hstart
  induction pairs generalizing t with
  | nil => exact ht
  | cons p rest ih => exact ih _ (ht.insert p.1 p.2)

/-- A table of pairs holds none but these. -/
theorem mem_of_mem_ofPairs {pairs : List (String × α)} {p : String × α} (h : p ∈ ofPairs pairs) :
    p ∈ pairs := by
  have hfold (t : Table α) (h : p ∈ pairs.foldl (fun t p => insert p.1 p.2 t) t) :
      p ∈ pairs ∨ p ∈ t := by
    clear * - h
    induction pairs generalizing t with
    | nil => exact .inr h
    | cons q rest ih =>
      rcases ih _ h with hmem | hmem
      · exact .inl (List.mem_cons_of_mem _ hmem)
      · rcases mem_insert hmem with rfl | hmem
        · exact .inl List.mem_cons_self
        · exact .inr hmem
  exact (hfold [] h).resolve_right List.not_mem_nil

theorem get?_foldl_insert {pairs : List (String × α)} (h : (pairs.map (·.1)).Nodup) (t : Table α)
    (name : String) :
    get? (pairs.foldl (fun t p => insert p.1 p.2 t) t) name =
      (pairs.lookup name).or (get? t name) := by
  induction pairs generalizing t with
  | nil => rfl
  | cons p rest ih =>
    obtain ⟨n, a⟩ := p
    obtain ⟨hn, hrest⟩ := List.nodup_cons.mp h
    rw [List.foldl_cons, ih hrest, get?_insert, List.lookup_cons]
    by_cases hname : name = n
    · subst hname
      rw [lookup_eq_none_of_notMem hn, if_pos rfl, beq_self_eq_true]
      rfl
    · have hbeq : (name == n) = false := by simpa using hname
      rw [if_neg hname, hbeq]

/-- Without repeated names, a table of pairs answers as the pairs do. -/
theorem get?_ofPairs {pairs : List (String × α)} (h : (pairs.map (·.1)).Nodup) (name : String) :
    get? (ofPairs pairs) name = pairs.lookup name := by
  rw [ofPairs, get?_foldl_insert h, get?_nil, Option.or_none]

/-- A table is read back from pairs that say of each name what the table says of it. -/
theorem ofPairs_readPairs {read : β → Option α} {l : List (String × β)} {t : Table α}
    (hdistinct : (l.map (·.1)).Nodup) (ht : Ordered t)
    (h : ∀ name, Option.Rel (fun d a => read d = some a) (l.lookup name) (get? t name)) :
    (readPairs read l).map ofPairs = some t := by
  have hreads (e) (he : e ∈ l) : ∃ a, read e.2 = some a := by
    have hrel := h e.1
    rw [(mem_iff_lookup_of_nodup hdistinct e.1 e.2).mp he] at hrel
    obtain ⟨a, -, ha⟩ := exists_of_rel_some hrel
    exact ⟨a, ha⟩
  obtain ⟨pairs, hpairs⟩ := exists_readPairs hreads
  obtain ⟨hnames, hlookup⟩ := readPairs_eq_some hpairs
  rw [hpairs, Option.map_some]
  refine congrArg some (Ordered.ext (ordered_ofPairs pairs) ht fun name => ?_)
  rw [get?_ofPairs (hnames ▸ hdistinct), hlookup]
  have hrel := h name
  cases ha : get? t name with
  | none =>
    rw [ha] at hrel
    rw [eq_none_of_rel hrel]
    rfl
  | some a =>
    rw [ha] at hrel
    obtain ⟨d, hd, hread⟩ := exists_of_rel_some_right hrel
    rw [hd]
    exact hread

/-! ## Places of names -/

/-- The places of names in a row, noted one after the other: of two places of one name the later one
stays. -/
def places (names : List String) : Table Nat := .ofPairs names.zipIdx

/-- Different names are noted with their places. -/
theorem get?_places {names : List String} (h : names.Nodup) (name : String) :
    get? (places names) name = names.zipIdx.lookup name := by
  refine get?_ofPairs ?_ name
  rwa [List.zipIdx_map_fst]

theorem isSome_get?_places {names : List String} (h : names.Nodup) (name : String) :
    (get? (places names) name).isSome = true ↔ name ∈ names := by
  have hnames : names.zipIdx.map (·.1) = names := List.zipIdx_map_fst ..
  rw [get?_places h]
  constructor
  · intro hsome
    by_contra hmem
    rw [lookup_eq_none_of_notMem (hnames.symm ▸ hmem)] at hsome
    cases hsome
  · intro hmem
    rw [← hnames] at hmem h
    obtain ⟨⟨_, i⟩, hi, rfl⟩ := List.mem_map.mp hmem
    rw [(mem_iff_lookup_of_nodup h _ i).mp hi]
    rfl

theorem lookup_zipIdx_bind (key : α → String) (before rest : List α) (name : String) :
    (((rest.map key).zipIdx before.length).lookup name).bind (fun i => (before ++ rest)[i]?) =
      rest.find? (key · == name) := by
  induction rest generalizing before with
  | nil => rfl
  | cons a rest ih =>
    rw [List.map_cons, List.zipIdx_cons, List.lookup_cons, List.find?_cons, Bool.beq_comm]
    cases key a == name with
    | true => simp
    | false => simpa using ih (before ++ [a])

/-- Among members with different names, the one at the noted place of a name is the one that a
search finds. -/
theorem find?_eq_of_places {l : List α} {key : α → String} {name : String}
    (h : (l.map key).Nodup) :
    (get? (places (l.map key)) name).bind (fun i => l[i]?) = l.find? (key · == name) := by
  rw [get?_places h]
  exact lookup_zipIdx_bind key [] l name

end Table

end Telltale

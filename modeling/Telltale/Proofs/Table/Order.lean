import Mathlib.Data.List.Nodup
import Mathlib.Data.String.Basic
import Telltale.Table

/-!
# Tables in order

A list of pairs in which no key stands twice says of each key what it holds. A table is such a list,
and its names are in order besides, so that it is given by what it answers.

* `mem_iff_lookup_of_nodup`, `perm_of_lookup_eq` — lists of pairs without a repeated key, through
  what is found in them.
* `Table.Ordered` — the names of a table are in order. `Table.insert` and dropping entries keep it.
* `Table.Ordered.ext` — tables in order that answer alike are the same.
* `Table.get?_filter`, `Table.get?_mapValues` — what a table answers once entries were dropped or
  values were changed.
* `Table.insert_insert`, `Table.insert_comm` — putting in twice, and putting in under two names.
-/

namespace Telltale

/-! ## Lists without a repeated key -/

/-- Without repeated keys, what a list holds is what is found in it. -/
theorem mem_iff_lookup_of_nodup [BEq κ] [LawfulBEq κ] {l : List (κ × β)}
    (h : (l.map (·.1)).Nodup) (k : κ) (v : β) : (k, v) ∈ l ↔ l.lookup k = some v := by
  induction l with
  | nil => simp
  | cons p rest ih =>
    obtain ⟨key, w⟩ := p
    obtain ⟨hkey, hrest⟩ := List.nodup_cons.mp h
    rw [List.mem_cons, List.lookup_cons, ih hrest]
    by_cases hk : k = key
    · subst hk
      have habsent : rest.lookup k ≠ some v := by
        intro hfound
        exact hkey (List.mem_map.mpr ⟨(k, v), (ih hrest).mpr hfound, rfl⟩)
      simp [habsent, eq_comm]
    · have hbeq : (k == key) = false := by simpa using hk
      simp [hk, hbeq]

/-- Without repeated keys, lists that answer alike hold the same, perhaps in another order. -/
theorem perm_of_lookup_eq [BEq κ] [LawfulBEq κ] {l l' : List (κ × β)} (h : (l.map (·.1)).Nodup)
    (h' : (l'.map (·.1)).Nodup) (hlookup : ∀ k, l.lookup k = l'.lookup k) : l.Perm l' := by
  refine (List.perm_ext_iff_of_nodup h.of_map h'.of_map).mpr ?_
  rintro ⟨k, v⟩
  rw [mem_iff_lookup_of_nodup h, mem_iff_lookup_of_nodup h', hlookup]

namespace Table

/-! ## Order -/

/-- The names of a table are in order, each once. -/
def Ordered (t : Table α) : Prop := t.Pairwise fun p q => p.1 < q.1

/-- A name before all names of a table is not one of them. -/
theorem get?_eq_none_of_before {t : Table α} {name : String} (h : ∀ p ∈ t, name < p.1) :
    get? t name = none := by
  induction t with
  | nil => rfl
  | cons p rest ih =>
    obtain ⟨n, v⟩ := p
    obtain ⟨hn, hrest⟩ := List.forall_mem_cons.mp h
    rw [get?_cons, if_neg hn.ne, ih hrest]

theorem mem_insert {t : Table α} {name : String} {v : α} {p : String × α}
    (h : p ∈ insert name v t) : p = (name, v) ∨ p ∈ t := by
  induction t with
  | nil => exact .inl (List.mem_singleton.mp h)
  | cons q rest ih =>
    unfold insert at h
    split at h
    · exact List.mem_cons.mp h
    · split at h
      · exact (List.mem_cons.mp h).imp_right (List.mem_cons_of_mem _)
      · rcases List.mem_cons.mp h with rfl | h
        · exact .inr List.mem_cons_self
        · exact (ih h).imp_right (List.mem_cons_of_mem _)

theorem Ordered.insert {t : Table α} (h : Ordered t) (name : String) (v : α) :
    Ordered (insert name v t) := by
  induction t with
  | nil => exact List.pairwise_singleton _ _
  | cons p rest ih =>
    obtain ⟨n, w⟩ := p
    obtain ⟨hn, hrest⟩ := List.pairwise_cons.mp h
    unfold Table.insert
    split
    · next hlt =>
      refine List.pairwise_cons.mpr ⟨List.forall_mem_cons.mpr ⟨hlt, ?_⟩, h⟩
      exact fun q hq => hlt.trans (hn q hq)
    · next hlt =>
      split
      · next heq =>
        subst heq
        exact List.pairwise_cons.mpr ⟨hn, hrest⟩
      · next hne =>
        have hafter : n < name := lt_of_le_of_ne (not_lt.mp hlt) (Ne.symm hne)
        refine List.pairwise_cons.mpr ⟨fun q hq => ?_, ih hrest⟩
        rcases mem_insert hq with rfl | hq
        · exact hafter
        · exact hn q hq

theorem Ordered.filter {t : Table α} (h : Ordered t) (p : String × α → Bool) :
    Ordered (t.filter p) :=
  List.Pairwise.filter p h

theorem Ordered.nodup_names {t : Table α} (h : Ordered t) : (t.map (·.1)).Nodup :=
  List.pairwise_map.mpr (h.imp fun hlt => hlt.ne)

/-- Tables in order that answer alike are the same. -/
theorem Ordered.ext {t t' : Table α} (h : Ordered t) (h' : Ordered t')
    (hget : ∀ name, get? t name = get? t' name) : t = t' := by
  have hperm : t.Perm t' := perm_of_lookup_eq h.nodup_names h'.nodup_names hget
  exact hperm.eq_of_pairwise (fun p q _ _ hpq hqp => absurd hqp hpq.not_gt) h h'

/-! ## Dropping and putting in -/

/-- Dropping entries drops what they say. -/
theorem get?_filter {t : Table α} (h : Ordered t) (p : String × α → Bool) (name : String) :
    get? (t.filter p) name = (get? t name).filter fun v => p (name, v) := by
  induction t with
  | nil => rfl
  | cons q rest ih =>
    obtain ⟨n, v⟩ := q
    obtain ⟨hn, hrest⟩ := List.pairwise_cons.mp h
    rw [List.filter_cons, get?_cons]
    by_cases heq : name = n
    · subst heq
      rw [if_pos rfl]
      split
      · next hp => rw [get?_cons, if_pos rfl, Option.filter_some, if_pos hp]
      -- without its entry, the name is before all that is left
      · next hp =>
        rw [get?_eq_none_of_before fun q hq => hn q (List.mem_of_mem_filter hq),
          Option.filter_some, if_neg hp]
    · rw [if_neg heq]
      split
      · rw [get?_cons, if_neg heq, ih hrest]
      · exact ih hrest

/-- A value that was put in replaces one that was put in before under the same name. -/
theorem insert_insert (name : String) (v w : α) (t : Table α) :
    insert name v (insert name w t) = insert name v t := by
  induction t with
  | nil => simp [insert]
  | cons p rest ih =>
    obtain ⟨n, u⟩ := p
    by_cases hlt : name < n
    · simp [insert, hlt]
    · by_cases heq : name = n
      · simp [insert, heq]
      · simp [insert, hlt, heq, ih]

/-- Values of different names can be put in in either order. -/
theorem insert_comm {a b : String} (h : a ≠ b) (v w : α) (t : Table α) :
    insert a v (insert b w t) = insert b w (insert a v t) := by
  induction t with
  | nil =>
    rcases lt_or_gt_of_ne h with hab | hba
    · simp [insert, hab, h.symm, hab.not_gt]
    · simp [insert, hba, h, hba.not_gt]
  | cons p rest ih =>
    obtain ⟨n, u⟩ := p
    grind [insert]

/-! ## Changing all values -/

/-- A table with all values changed. -/
def mapValues (g : α → β) (t : Table α) : Table β := t.map fun p => (p.1, g p.2)

theorem get?_mapValues (g : α → β) (t : Table α) (name : String) :
    get? (t.mapValues g) name = (get? t name).map g := by
  induction t with
  | nil => rfl
  | cons p rest ih =>
    show get? ((p.1, g p.2) :: mapValues g rest) name = (get? ((p.1, p.2) :: rest) name).map g
    rw [get?_cons, get?_cons, ih]
    split <;> rfl

theorem insert_mapValues (g : α → β) (name : String) (v : α) (t : Table α) :
    insert name (g v) (t.mapValues g) = (insert name v t).mapValues g := by
  induction t with
  | nil => rfl
  | cons p rest ih =>
    obtain ⟨n, w⟩ := p
    show insert name (g v) ((n, g w) :: mapValues g rest) = _
    unfold insert
    split
    · rfl
    · split
      · rfl
      · exact congrArg (List.cons _) ih

theorem Ordered.mapValues {t : Table α} (h : Ordered t) (g : α → β) : Ordered (t.mapValues g) :=
  List.pairwise_map.mpr h

end Table

end Telltale

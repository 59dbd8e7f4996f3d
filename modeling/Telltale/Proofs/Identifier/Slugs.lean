import Mathlib
import Telltale.Proofs.Rule.WellFormed

/-!
# Slugs are identifiers

The slug of a title is made of the letters and digits of the title, with single dashes between runs
of them. Cutting it at the greatest length may leave a dash at the end, which is dropped.

* `Identifier.Joined` — letters and digits with single dashes between them. Such characters form an
  identifier if there are not too many (`Joined.isValidList`), and are their own slug
  (`Joined.dashed_eq`, `Joined.cut`).
* `Identifier.joined_dashed`, `Identifier.joined_slugList` — the slug of a title is empty or joined.
* `Identifier.filter_dashed` — no letter or digit of a title is lost before the cut.
* `Identifier.slugs_are_identifiers` — what slugs are, for every title, and what becomes of a rule
  that takes its identifier from its title.
-/

namespace Telltale

namespace Identifier

/-! ## Letters and digits -/

section Characters

variable {c : Char}

theorem isUpper_iff : c.isUpper = true ↔ 65 ≤ c.toNat ∧ c.toNat ≤ 90 := by
  simp only [Char.isUpper, decide_eq_true_eq, ge_iff_le, UInt32.le_iff_toNat_le]
  rfl

theorem isLower_iff : c.isLower = true ↔ 97 ≤ c.toNat ∧ c.toNat ≤ 122 := by
  simp only [Char.isLower, Bool.and_eq_true, decide_eq_true_eq, ge_iff_le, UInt32.le_iff_toNat_le]
  rfl

theorem isDigit_iff : c.isDigit = true ↔ 48 ≤ c.toNat ∧ c.toNat ≤ 57 := by
  simp only [Char.isDigit, Bool.and_eq_true, decide_eq_true_eq, ge_iff_le, UInt32.le_iff_toNat_le]
  rfl

theorem isAlphanum_iff : c.isAlphanum = true ↔
    c.isUpper = true ∨ c.isLower = true ∨ c.isDigit = true := by
  simp only [Char.isAlphanum, Char.isAlpha, Bool.or_eq_true, or_assoc]

theorem isWordChar_iff : isWordChar c = true ↔ c.isLower = true ∨ c.isDigit = true := by
  simp only [isWordChar, Bool.or_eq_true]

theorem isAlphanum_of_isWordChar (h : isWordChar c = true) : c.isAlphanum = true :=
  isAlphanum_iff.mpr (.inr (isWordChar_iff.mp h))

theorem ne_dash_of_isAlphanum (h : c.isAlphanum = true) : c ≠ '-' := by
  rintro rfl
  revert h
  decide

/-- A letter or digit of a slug is not changed by another turn. -/
theorem toLower_of_isWordChar (h : isWordChar c = true) : c.toLower = c := by
  apply Char.toLower_eq_of_not_isUpper
  rcases isWordChar_iff.mp h with hlower | hdigit
  · exact Char.not_isUpper_of_isLower hlower
  · intro hupper
    have hdigits := isDigit_iff.mp hdigit
    have hcapitals := isUpper_iff.mp hupper
    omega

theorem isWordChar_toLower (h : c.isAlphanum = true) : isWordChar c.toLower = true := by
  rcases Bool.or_eq_true_iff.mp h with hletter | hdigit
  · rw [isWordChar_iff, Char.isLower_toLower_eq_isAlpha]
    exact .inl hletter
  · have hword : isWordChar c = true := isWordChar_iff.mpr (.inr hdigit)
    rw [toLower_of_isWordChar hword]
    exact hword

theorem isAlphanum_of_isBlank (h : Text.isBlank c = true) : c.isAlphanum = false := by
  rw [Bool.eq_false_iff]
  intro halnum
  simp only [Text.isBlank, Text.blankRanges, List.any_cons, List.any_nil, Bool.or_eq_true,
    Bool.and_eq_true, decide_eq_true_eq, Bool.false_eq_true, or_false] at h
  rw [isAlphanum_iff, isUpper_iff, isLower_iff, isDigit_iff] at halnum
  omega

theorem utf8Size_of_isInnerChar (h : isInnerChar c = true) : c.utf8Size = 1 := by
  have hascii : c.toNat ≤ 127 := by
    simp only [isInnerChar, Bool.or_eq_true, beq_iff_eq] at h
    rcases h with (hword | rfl) | rfl
    · rcases isWordChar_iff.mp hword with hlower | hdigit
      · have := isLower_iff.mp hlower
        omega
      · have := isDigit_iff.mp hdigit
        omega
    · decide
    · decide
  rw [Char.utf8Size_eq_one_iff]
  exact UInt32.le_iff_toNat_le.mpr hascii

end Characters

/-! ## Joined characters -/

/-- Letters and digits, at both ends and on both sides of every dash. -/
inductive Joined : List Char → Prop where
  | last {c : Char} (hc : isWordChar c = true) : Joined [c]
  | next {c : Char} {rest : List Char} (hc : isWordChar c = true) (h : Joined rest) :
    Joined (c :: rest)
  | dash {c : Char} {rest : List Char} (hc : isWordChar c = true) (h : Joined rest) :
    Joined (c :: '-' :: rest)

namespace Joined

variable {cs : List Char}

theorem ne_nil (h : Joined cs) : cs ≠ [] := by cases h <;> exact List.cons_ne_nil _ _

theorem exists_mem (h : Joined cs) : ∃ c ∈ cs, isWordChar c = true := by
  cases h <;> exact ⟨_, List.mem_cons_self, by assumption⟩

theorem head? (h : Joined cs) : cs.head?.any isWordChar = true := by cases h <;> assumption

theorem getLast? (h : Joined cs) : cs.getLast?.any isWordChar = true := by
  induction h with
  | last hc => exact hc
  | next hc h ih => rwa [List.getLast?_cons_of_ne_nil h.ne_nil]
  | dash hc h ih =>
    rwa [List.getLast?_cons_of_ne_nil (List.cons_ne_nil _ _),
      List.getLast?_cons_of_ne_nil h.ne_nil]

theorem all_isInnerChar (h : Joined cs) : cs.all isInnerChar = true := by
  have hinner {c : Char} (hc : isWordChar c = true) : isInnerChar c = true := by
    rw [isInnerChar, hc, Bool.true_or, Bool.true_or]
  induction h with
  | last hc => rw [List.all_cons, hinner hc, List.all_nil, Bool.and_true]
  | next hc h ih => rw [List.all_cons, hinner hc, ih, Bool.and_true]
  | dash hc h ih =>
    have hdash : isInnerChar '-' = true := by decide
    rw [List.all_cons, List.all_cons, hinner hc, hdash, ih, Bool.and_true, Bool.and_true]

/-- Not too many joined characters form an identifier. -/
theorem isValidList (h : Joined cs) (hlength : cs.length ≤ maxLength) :
    Identifier.isValidList cs = true := by
  rw [Identifier.isValidList, decide_eq_true hlength, h.all_isInnerChar, h.head?, h.getLast?]
  rfl

/-- No dash stands beside another one. -/
theorem not_dashes (h : Joined cs) : ¬ ['-', '-'] <:+: cs := by
  have hfront {rest : List Char} (h : Joined rest) : ¬ ['-', '-'] <+: '-' :: rest := by
    rintro ⟨tail, htail⟩
    have hrest : rest = '-' :: tail := (List.cons.inj htail).2.symm
    have hhead := h.head?
    rw [hrest] at hhead
    cases hhead
  have hword {c : Char} (hc : isWordChar c = true) (rest : List Char) :
      ¬ ['-', '-'] <+: c :: rest := by
    intro hprefix
    rw [← (List.cons_prefix_cons.mp hprefix).1] at hc
    cases hc
  induction h with
  | last hc =>
    rw [List.infix_cons_iff, not_or]
    exact ⟨hword hc _, by simp⟩
  | next hc h ih =>
    rw [List.infix_cons_iff, not_or]
    exact ⟨hword hc _, ih⟩
  | dash hc h ih =>
    rw [List.infix_cons_iff, not_or, List.infix_cons_iff, not_or]
    exact ⟨hword hc _, hfront h, ih⟩

end Joined

/-! ## Dashes between runs -/

/-- No letter or digit is lost, and none is added. -/
theorem filter_dashed (started pending : Bool) (cs : List Char) :
    (dashed started pending cs).filter Char.isAlphanum =
      (cs.filter Char.isAlphanum).map Char.toLower := by
  induction cs generalizing started pending with
  | nil => rfl
  | cons c rest ih =>
    rw [dashed]
    split
    · next hc =>
      have hlower : c.toLower.isAlphanum = true := isAlphanum_of_isWordChar (isWordChar_toLower hc)
      rw [List.filter_cons_of_pos hc, List.map_cons]
      split
      · rw [List.filter_cons_of_neg (by decide), List.filter_cons_of_pos hlower, ih]
      · rw [List.filter_cons_of_pos hlower, ih]
    · next hc => rw [List.filter_cons_of_neg hc, ih]

/-- Without characters before, the result is empty or joined. Behind some, a dash may come first. -/
theorem joined_dashed (started pending : Bool) (cs : List Char) :
    dashed started pending cs = [] ∨ Joined (dashed started pending cs) ∨
      (started = true ∧ ∃ rest, dashed started pending cs = '-' :: rest ∧ Joined rest) := by
  induction cs generalizing started pending with
  | nil => exact .inl rfl
  | cons c rest ih =>
    rw [dashed]
    split
    · next hc =>
      have hword := isWordChar_toLower hc
      have hjoined : Joined (c.toLower :: dashed true false rest) := by
        rcases ih true false with hnil | h | ⟨-, rest', heq, h⟩
        · rw [hnil]
          exact .last hword
        · exact .next hword h
        · rw [heq]
          exact .dash hword h
      split
      · next hboth => exact .inr (.inr ⟨(Bool.and_eq_true_iff.mp hboth).1, _, rfl, hjoined⟩)
      · exact .inr (.inl hjoined)
    · exact ih started true

/-- Joined characters stay as they are, behind a dash that was due. -/
theorem Joined.dashed_eq {cs : List Char} (h : Joined cs) (started pending : Bool) :
    dashed started pending cs = if started && pending then '-' :: cs else cs := by
  induction h generalizing started pending with
  | last hc => rw [dashed, if_pos (isAlphanum_of_isWordChar hc), toLower_of_isWordChar hc]; rfl
  | next hc h ih =>
    rw [dashed, if_pos (isAlphanum_of_isWordChar hc), toLower_of_isWordChar hc, ih true false]
    rfl
  | @dash c rest hc h ih =>
    have hdash : dashed true false ('-' :: rest) = dashed true true rest := by
      rw [dashed, if_neg (by decide)]
    rw [dashed, if_pos (isAlphanum_of_isWordChar hc), toLower_of_isWordChar hc, hdash, ih true true]
    rfl

/-! ## The cut -/

theorem dropFinalDashes_eq (cs : List Char) : dropFinalDashes cs = cs.rdropWhile (· == '-') := rfl

theorem dropFinalDashes_cons (c : Char) (cs : List Char) :
    dropFinalDashes (c :: cs) =
      if dropFinalDashes cs = [] ∧ c = '-' then [] else c :: dropFinalDashes cs := by
  unfold dropFinalDashes
  rw [List.reverse_cons, List.dropWhile_append]
  cases cs.reverse.dropWhile (· == '-') with
  | nil => by_cases hc : c = '-' <;> simp [hc]
  | cons d rest => simp

namespace Joined

variable {cs : List Char}

/-- Wherever joined characters are cut, they stay joined without a dash at the end, and no more than
that dash is lost. -/
theorem cut (h : Joined cs) (n : Nat) :
    Joined (dropFinalDashes (cs.take (n + 1))) ∧
      min n (cs.length - 1) ≤ (dropFinalDashes (cs.take (n + 1))).length := by
  have hcons {c : Char} (hc : isWordChar c = true) (cs : List Char) :
      dropFinalDashes (c :: cs) = c :: dropFinalDashes cs := by
    rw [dropFinalDashes_cons, if_neg fun hdash => ?_]
    exact ne_dash_of_isAlphanum (isAlphanum_of_isWordChar hc) hdash.2
  induction h generalizing n with
  | last hc =>
    rw [List.take_succ_cons, List.take_nil, hcons hc]
    exact ⟨.last hc, by simp⟩
  | next hc h ih =>
    rw [List.take_succ_cons, hcons hc]
    cases n with
    | zero => exact ⟨.last hc, by simp⟩
    | succ n =>
      obtain ⟨hjoined, hlength⟩ := ih n
      refine ⟨.next hc hjoined, ?_⟩
      simp only [List.length_cons]
      omega
  | dash hc h ih =>
    rw [List.take_succ_cons, hcons hc]
    match n with
    | 0 => exact ⟨.last hc, by simp⟩
    -- the dash is the last character of the cut
    | 1 => exact ⟨.last hc, by simp⟩
    | n + 2 =>
      obtain ⟨hjoined, hlength⟩ := ih n
      rw [List.take_succ_cons, dropFinalDashes_cons, if_neg fun hnil => hjoined.ne_nil hnil.1]
      refine ⟨.dash hc hjoined, ?_⟩
      simp only [List.length_cons]
      omega

theorem dropFinalDashes_eq_self (h : Joined cs) : dropFinalDashes cs = cs := by
  rw [dropFinalDashes_eq, List.rdropWhile_eq_self_iff]
  intro hne hdash
  have hlast := h.getLast?
  rw [List.getLast?_eq_some_getLast hne, Option.any_some, beq_iff_eq.mp hdash] at hlast
  cases hlast

/-- Joined characters that are not too many are their own slug. -/
theorem slugList_eq_self (h : Joined cs) (hlength : cs.length ≤ maxLength) : slugList cs = cs := by
  rw [slugList, h.dashed_eq false false, Bool.false_and, if_neg Bool.false_ne_true,
    List.take_of_length_le hlength, h.dropFinalDashes_eq_self]

end Joined

/-! ## Slugs -/

/-- From the start of a title on, no dash is due. -/
theorem dashed_eq_nil_or_joined (title : List Char) :
    dashed false false title = [] ∨ Joined (dashed false false title) := by
  rcases joined_dashed false false title with hnil | h | ⟨hstarted, -⟩
  · exact .inl hnil
  · exact .inr h
  · cases hstarted

theorem slugList_eq_nil_of_dashed {title : List Char} (h : dashed false false title = []) :
    slugList title = [] := by
  rw [slugList, h]
  rfl

theorem slugList_starts_take (title : List Char) :
    slugList title <+: (dashed false false title).take maxLength :=
  List.rdropWhile_prefix _ _

theorem slugList_starts_dashed (title : List Char) :
    slugList title <+: dashed false false title :=
  (slugList_starts_take title).trans <| List.take_prefix _ _

theorem length_slugList_le (title : List Char) : (slugList title).length ≤ maxLength :=
  (slugList_starts_take title).length_le.trans (List.length_take_le _ _)

theorem joined_slugList (title : List Char) : slugList title = [] ∨ Joined (slugList title) := by
  rcases dashed_eq_nil_or_joined title with hnil | h
  · exact .inl (slugList_eq_nil_of_dashed hnil)
  · exact .inr (h.cut 63).1

/-- The slug is empty exactly if there is no letter or digit that it could be made of. -/
theorem slugList_eq_nil_iff (title : List Char) :
    slugList title = [] ↔ ∀ c ∈ title, c.isAlphanum = false := by
  have hfilter := filter_dashed false false title
  rcases dashed_eq_nil_or_joined title with hnil | h
  · have hslug := slugList_eq_nil_of_dashed hnil
    rw [hnil, List.filter_nil, eq_comm, List.map_eq_nil_iff, List.filter_eq_nil_iff] at hfilter
    simpa [hslug] using hfilter
  · constructor
    · intro hslug
      exact absurd hslug (h.cut 63).1.ne_nil
    · intro hnone
      have hnil : title.filter Char.isAlphanum = [] :=
        List.filter_eq_nil_iff.mpr fun c hc => by rw [hnone c hc]; exact Bool.false_ne_true
      rw [hnil, List.map_nil, List.filter_eq_nil_iff] at hfilter
      obtain ⟨c, hc, hword⟩ := h.exists_mem
      exact absurd (isAlphanum_of_isWordChar hword) (hfilter c hc)

/-- A slug that is shorter than the cut allows has all letters and digits of its title. -/
theorem slugList_eq_dashed {title : List Char} (h : (slugList title).length + 1 < maxLength) :
    slugList title = dashed false false title := by
  rcases dashed_eq_nil_or_joined title with hnil | hjoined
  · rw [slugList_eq_nil_of_dashed hnil, hnil]
  · have hlength : min 63 ((dashed false false title).length - 1) ≤ (slugList title).length :=
      (hjoined.cut 63).2
    have hmax : maxLength = 64 := rfl
    have hshort : (dashed false false title).length ≤ maxLength := by omega
    rw [slugList, List.take_of_length_le hshort, hjoined.dropFinalDashes_eq_self]

theorem utf8ByteSize_ofList {cs : List Char} (h : cs.all isInnerChar = true) :
    (String.ofList cs).utf8ByteSize = cs.length := by
  rw [String.utf8ByteSize_ofList]
  induction cs with
  | nil => rfl
  | cons c rest ih =>
    rw [List.all_cons, Bool.and_eq_true_iff] at h
    rw [String.utf8Len, ih h.2, utf8Size_of_isInnerChar h.1, List.length_cons]

/-- A slug that is not empty is an identifier. -/
theorem isValid_slug_iff (title : String) :
    isValid (slug title) = false ↔ ∀ c ∈ title.toList, c.isAlphanum = false := by
  rw [← slugList_eq_nil_iff, isValid, slug, String.toList_ofList]
  rcases joined_slugList title.toList with hnil | h
  · rw [hnil]
    exact iff_of_true rfl rfl
  · rw [h.isValidList (length_slugList_le _)]
    exact iff_of_false (fun h => by cases h) h.ne_nil

/-- What the slug of a title is. -/
structure IsSlugOf (title s : String) : Prop where
  /-- It is empty only for a title that has no letter or digit. -/
  eq_empty_iff : s = "" ↔ ∀ c ∈ title.toList, c.isAlphanum = false
  /-- If it is not empty, it is an identifier, -/
  valid : s ≠ "" → isValid s = true
  /-- which starts and ends with a letter in lower case or a digit. -/
  ends : s ≠ "" → s.toList.head?.any isWordChar = true ∧ s.toList.getLast?.any isWordChar = true
  /-- It is not too long, -/
  size : s.utf8ByteSize ≤ 64
  /-- has no two dashes beside each other, -/
  dashes : ¬ ['-', '-'] <:+: s.toList
  /-- and has the letters and digits of the title in lower case and in order, up to a place, -/
  letters : s.toList.filter Char.isAlphanum <+:
    (title.toList.filter Char.isAlphanum).map Char.toLower
  /-- which is the end unless the slug was cut. -/
  uncut : s.utf8ByteSize < 63 →
    s.toList.filter Char.isAlphanum = (title.toList.filter Char.isAlphanum).map Char.toLower

theorem isSlugOf_slug (title : String) : IsSlugOf title (slug title) := by
  have hlist : (slug title).toList = slugList title.toList := String.toList_ofList
  have hjoined (hne : slug title ≠ "") : Joined (slugList title.toList) := by
    refine (joined_slugList title.toList).resolve_left fun hnil => hne ?_
    rw [slug, hnil]
  have hempty : slug title = "" ↔ slugList title.toList = [] := by
    rw [← String.toList_inj, hlist]
    rfl
  have hsize : (slug title).utf8ByteSize = (slugList title.toList).length := by
    apply utf8ByteSize_ofList
    rcases joined_slugList title.toList with hnil | h
    · rw [hnil]
      rfl
    · exact h.all_isInnerChar
  constructor
  case eq_empty_iff => rw [hempty, slugList_eq_nil_iff]
  case valid =>
    intro hne
    rw [isValid, hlist]
    exact (hjoined hne).isValidList (length_slugList_le _)
  case ends =>
    intro hne
    rw [hlist]
    exact ⟨(hjoined hne).head?, (hjoined hne).getLast?⟩
  case size =>
    rw [hsize]
    exact length_slugList_le _
  case dashes =>
    rw [hlist]
    rcases joined_slugList title.toList with hnil | h
    · rw [hnil]
      simp
    · exact h.not_dashes
  case letters =>
    rw [hlist, ← filter_dashed false false]
    exact (slugList_starts_dashed title.toList).filter _
  case uncut =>
    intro hshort
    rw [hsize] at hshort
    rw [hlist, ← filter_dashed false false, slugList_eq_dashed (Nat.succ_lt_succ hshort)]

/-- A slug is its own slug. -/
theorem slug_slug (title : String) : slug (slug title) = slug title := by
  have hself : slugList (slugList title.toList) = slugList title.toList := by
    rcases joined_slugList title.toList with hnil | h
    · rw [hnil]
      rfl
    · exact h.slugList_eq_self (length_slugList_le _)
  rw [slug, slug, String.toList_ofList, hself]

/-! ## Titles of rules -/

theorem filter_dropWhile {α : Type} {p q : α → Bool}
    (h : ∀ a, p a = true → q a = false) (l : List α) :
    (l.dropWhile p).filter q = l.filter q := by
  induction l with
  | nil => rfl
  | cons a rest ih =>
    rw [List.dropWhile_cons]
    split
    · next ha => rw [ih, List.filter_cons_of_neg (by rw [h a ha]; exact Bool.false_ne_true)]
    · rfl

/-- Trimming takes off no letter and no digit. -/
theorem filter_trim (title : String) :
    (Text.trim title).toList.filter Char.isAlphanum = title.toList.filter Char.isAlphanum := by
  have hblank (c : Char) (h : Text.isBlank c = true) := isAlphanum_of_isBlank h
  rw [Text.trim_eq, String.toList_ofList, List.rdropWhile, List.filter_reverse,
    filter_dropWhile hblank, List.filter_reverse, List.reverse_reverse, filter_dropWhile hblank]

/-- The title of a rule has letters and digits exactly if the trimmed title has. -/
theorem forall_trim_iff (title : String) :
    (∀ c ∈ (Text.trim title).toList, c.isAlphanum = false) ↔
      ∀ c ∈ title.toList, c.isAlphanum = false := by
  simp only [← Bool.not_eq_true, ← List.filter_eq_nil_iff, filter_trim]

/-- Without an identifier of its own a rule has the slug of its title. -/
theorem isValid_ruleId_iff {e : RuleEntry} (h : e.id = none) :
    isValid e.ruleId = false ↔ ∀ c ∈ e.title.toList, c.isAlphanum = false := by
  rw [RuleEntry.ruleId, h, Option.getD_none, isValid_slug_iff]
  exact forall_trim_iff e.title

/-- An entry with a title is refused for its identifier exactly if that is none. -/
theorem compile_eq_badId_iff (c : Catalog) (e : RuleEntry) :
    (∃ title id, e.compile c = .error (.badId title id)) ↔
      e.trimmedTitle ≠ "" ∧ isValid e.ruleId = false := by
  unfold RuleEntry.compile
  split
  · next htitle => simp [htitle]
  · next htitle =>
    split
    · next hid => simpa [htitle] using hid
    · next hid =>
      have hvalid : isValid e.ruleId = true := by simpa using hid
      cases e.compileBody c <;> simp [Except.mapError, hvalid]

/-- **Slugs are identifiers**, unless a title has no letter or digit, for every title. So an entry
that takes its identifier from its title is refused for it only if the title has none. -/
theorem slugs_are_identifiers (title : String) :
    IsSlugOf title (slug title) ∧ slug (slug title) = slug title ∧
    ∀ (c : Catalog) (e : RuleEntry), e.id = none → e.title = title →
      (isValid e.ruleId = false ↔ ∀ ch ∈ title.toList, ch.isAlphanum = false) ∧
      ((∃ shown id, e.compile c = .error (.badId shown id)) ↔
        e.trimmedTitle ≠ "" ∧ ∀ ch ∈ title.toList, ch.isAlphanum = false) := by
  refine ⟨isSlugOf_slug title, slug_slug title, ?_⟩
  rintro c e hid rfl
  have hvalid := isValid_ruleId_iff hid
  exact ⟨hvalid, by rw [compile_eq_badId_iff, hvalid]⟩

theorem slugs_are_identifiers_docked :
    let e : RuleEntry := ⟨none, " Docked @ station!! ", none, [], none, none, [], []⟩
    e.id = none ∧ e.title = " Docked @ station!! " ∧ e.ruleId = "docked-station" ∧
    isValid e.ruleId = true ∧
    ∀ c shown id, e.compile c ≠ .error (.badId shown id) := by
  intro e
  have hword : ¬ ∀ ch ∈ " Docked @ station!! ".toList, ch.isAlphanum = false := by
    intro hnone
    have hletter : 'D'.isAlphanum = false := hnone 'D' (by decide +kernel)
    exact absurd hletter (by decide)
  have hslug (c : Catalog) := (slugs_are_identifiers " Docked @ station!! ").2.2 c e rfl rfl
  refine ⟨rfl, rfl, by decide +kernel, ?_, ?_⟩
  · exact Bool.eq_true_of_not_eq_false fun h => hword ((hslug ⟨1, ⟨[], []⟩, []⟩).1.mp h)
  · intro c shown id hbad
    exact hword ((hslug c).2.mp ⟨shown, id, hbad⟩).2

-- the cut falls behind a dash
example : slugList (List.replicate 63 'a' ++ [' ', 'b']) = List.replicate 63 'a' := by
  decide +kernel

end Identifier

end Telltale

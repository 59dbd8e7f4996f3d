import Telltale.Disk
import Telltale.Replay

/-!
# The lines of a text

A log is cut into lines before its bytes are read as texts. Where they are one text altogether, its
lines are those of its characters, and each of them can be read.

* `rows_flatMap` — rows stay rows when each member is written as several ones.
* `rows_flatten_take` — the first rows of a list, alone, have the same rows.
* `Log.splitLines` — the lines of a text. `Bytes.lines_toUTF8` says that they are the lines of its
  bytes.
* `Log.ofText` — the log of a text.
-/

namespace Telltale

/-! ## Rows -/

section Rows

variable [DecidableEq α] [DecidableEq β] {feed : α} {front : List α}

theorem rows_cons (feed a : α) (l : List α) : rows feed (a :: l) = consRow feed a (rows feed l) :=
  rfl

theorem rows_append (feed : α) (front l : List α) :
    rows feed (front ++ l) = front.foldr (consRow feed) (rows feed l) := List.foldr_append

theorem consRow_feed (more : List (List α)) : consRow feed feed more = [feed] :: more := by
  cases more with
  | nil => rfl
  | cons row more => exact if_pos rfl

/-- Members that are no feed become the beginning of the first row. -/
theorem foldr_consRow_cons (h : feed ∉ front) (row : List α) (more : List (List α)) :
    front.foldr (consRow feed) (row :: more) = (front ++ row) :: more := by
  induction front with
  | nil => rfl
  | cons a rest ih =>
    rw [List.mem_cons, not_or] at h
    obtain ⟨ha, hrest⟩ := h
    rw [List.foldr_cons, ih hrest, consRow, if_neg (Ne.symm ha), List.cons_append]

/-- They are a row of their own if there is none. -/
theorem rows_of_not_mem (h : feed ∉ front) (hne : front ≠ []) : rows feed front = [front] := by
  obtain ⟨init, last, rfl⟩ := (List.eq_nil_or_concat front).resolve_left hne
  rw [List.concat_eq_append] at h ⊢
  rw [List.mem_append, not_or] at h
  rw [rows_append]
  exact foldr_consRow_cons h.1 [last] []

/-- A row ends with a feed. -/
theorem rows_append_feed (h : feed ∉ front) (l : List α) :
    rows feed (front ++ feed :: l) = (front ++ [feed]) :: rows feed l := by
  rw [rows_append, rows_cons, consRow_feed, foldr_consRow_cons h]

/-- The rows of a list are all of it, in order. -/
theorem flatten_rows (feed : α) (l : List α) : (rows feed l).flatten = l := by
  induction l with
  | nil => rfl
  | cons a rest ih =>
    rw [rows_cons]
    cases hrows : rows feed rest with
    | nil => rw [← ih, hrows]; rfl
    | cons row more =>
      rw [hrows, List.flatten_cons] at ih
      rw [consRow]
      split
      · rw [List.flatten_cons, List.flatten_cons, ih]; rfl
      · rw [List.flatten_cons, List.cons_append, ih]

/-- The first rows of a list, alone, have the same rows. -/
theorem rows_flatten_take (n : Nat) (l : List α) :
    rows feed ((rows feed l).take n).flatten = (rows feed l).take n := by
  induction l generalizing n with
  | nil => rw [show rows feed [] = [] from rfl, List.take_nil]; rfl
  | cons a rest ih =>
    cases n with
    | zero => rw [List.take_zero]; rfl
    | succ n =>
      rw [rows_cons]
      by_cases ha : a = feed
      · subst ha
        rw [consRow_feed, List.take_succ_cons, List.flatten_cons, List.singleton_append, rows_cons,
          ih, consRow_feed]
      · have ih := ih (n + 1)
        cases hrows : rows feed rest with
        | nil => rw [consRow, List.take_succ_cons, List.take_nil]; rfl
        | cons row more =>
          rw [hrows, List.take_succ_cons, List.flatten_cons] at ih
          rw [consRow, if_neg ha, List.take_succ_cons, List.flatten_cons, List.cons_append,
            rows_cons, ih, consRow, if_neg ha]

/-- Rows stay rows when each member is written as several ones, and the feed as one that is part of
no other member. -/
theorem rows_flatMap {f : α → List β} {feed' : β} (hfeed : f feed = [feed'])
    (hother : ∀ a, a ≠ feed → f a ≠ [] ∧ feed' ∉ f a) (l : List α) :
    rows feed' (l.flatMap f) = (rows feed l).map (·.flatMap f) := by
  induction l with
  | nil => rfl
  | cons a rest ih =>
    rw [List.flatMap_cons, rows_cons, rows_append, ih]
    by_cases ha : a = feed
    · subst ha
      rw [hfeed, consRow_feed, List.map_cons, List.flatMap_singleton, hfeed]
      exact consRow_feed _
    · obtain ⟨hne, hmem⟩ := hother a ha
      cases rows feed rest with
      | nil =>
        rw [List.map_nil]
        refine (rows_of_not_mem hmem hne).trans ?_
        simp [consRow]
      | cons row more =>
        rw [List.map_cons, foldr_consRow_cons hmem, consRow, if_neg ha, List.map_cons,
          List.flatMap_cons]

end Rows

/-! ## Bytes of texts -/

/-- The byte of a character below 128 is its code, and other characters have greater bytes only. -/
theorem toNat_of_mem_utf8EncodeChar {c : Char} {b : UInt8} (h : b ∈ String.utf8EncodeChar c) :
    b.toNat = c.toNat ∨ 128 ≤ b.toNat := by
  have hbyte {n : Nat} (hb : b = UInt8.ofNat n) : b.toNat = n % 256 := by rw [hb]; rfl
  have hcode : c.val.toNat = c.toNat := rfl
  unfold String.utf8EncodeChar at h
  dsimp only at h
  split at h
  · have := hbyte (List.mem_singleton.mp h)
    omega
  · right
    repeat' split at h
    all_goals
      simp only [List.mem_cons, List.not_mem_nil, or_false] at h
    · rcases h with h | h <;> have := hbyte h <;> omega
    · rcases h with h | h | h <;> have := hbyte h <;> omega
    · rcases h with h | h | h | h <;> have := hbyte h <;> omega

theorem eq_of_lineFeed_mem {c : Char} (h : lineFeed ∈ String.utf8EncodeChar c) : c = '\n' := by
  have hfeed : lineFeed.toNat = 10 := rfl
  have hcode : c.toNat = 10 := by
    have := toNat_of_mem_utf8EncodeChar h
    omega
  exact Char.toNat_inj.mp hcode

theorem utf8EncodeChar_ne_nil (c : Char) : String.utf8EncodeChar c ≠ [] := by
  unfold String.utf8EncodeChar
  dsimp only
  repeat' split
  all_goals exact List.cons_ne_nil _ _

theorem toUTF8_ofList (cs : List Char) :
    (String.ofList cs).toUTF8 = (cs.flatMap String.utf8EncodeChar).toByteArray := by
  rw [String.toUTF8_eq_toByteArray, String.toByteArray_ofList]
  rfl

namespace Bytes

/-- Bytes are a text if they are the bytes of that text. -/
theorem text_eq_ok_iff {bytes : ByteArray} {text : String} :
    Bytes.text bytes = .ok text ↔ bytes = text.toUTF8 := by
  unfold Bytes.text String.fromUTF8?
  rw [String.toUTF8_eq_toByteArray]
  constructor
  · intro h
    split at h
    · next heq =>
      obtain rfl := Except.ok.inj h
      split at heq
      · exact congrArg String.toByteArray (Option.some.inj heq)
      · cases heq
    · cases h
  · rintro rfl
    rw [dif_pos text.isValidUTF8]
    rfl

theorem toList_toUTF8 (text : String) :
    text.toUTF8.data.toList = text.toList.flatMap String.utf8EncodeChar := by
  have h := toUTF8_ofList text.toList
  rw [String.ofList_toList] at h
  rw [h, List.toList_data_toByteArray]

/-- The rows of the bytes of a text are the bytes of its rows. -/
theorem rows_toUTF8 (text : String) :
    Bytes.rows text.toUTF8 =
      (Telltale.rows '\n' text.toList).map (·.flatMap String.utf8EncodeChar) := by
  unfold Bytes.rows
  rw [toList_toUTF8]
  refine rows_flatMap (by rfl) (fun c hc => ⟨utf8EncodeChar_ne_nil c, fun h => ?_⟩) text.toList
  exact hc (eq_of_lineFeed_mem h)

/-- Each row of a text is a line that can be read. -/
theorem lines_toUTF8_eq_map (text : String) :
    Bytes.lines text.toUTF8 =
      (Telltale.rows '\n' text.toList).map fun row => .ok (withoutLineEnd (String.ofList row)) := by
  unfold Bytes.lines
  rw [rows_toUTF8, List.map_map]
  refine List.map_congr_left fun row _ => ?_
  have htext : Bytes.text (row.flatMap String.utf8EncodeChar).toByteArray =
      .ok (String.ofList row) := text_eq_ok_iff.mpr (toUTF8_ofList row).symm
  rw [Function.comp_apply, htext]
  rfl

end Bytes

/-! ## Lines of texts -/

namespace Log

/-- A line, given in reverse, without the carriage return at its end. -/
def chomp : List Char → List Char
  | '\r' :: rest => rest
  | line => line

/-- The lines of characters, where `line` is what came of the first one before, in reverse. A line
ends with a line feed, which belongs to it with a carriage return before it. What follows the last
line feed counts as a line, too. -/
def pieces (line : List Char) : List Char → List String
  | [] => [String.ofList line.reverse]
  | c :: rest =>
    if c = '\n' then String.ofList (chomp line).reverse :: pieces [] rest
    else pieces (c :: line) rest

/-- Pieces without the last one, if that is empty. -/
def trimLast (lines : List String) : List String :=
  if lines.getLast? = some "" then lines.dropLast else lines

/-- The lines of a text. What follows the last line feed is no line if it is empty. -/
def splitLines (text : String) : List String := trimLast (pieces [] text.toList)

/-- The log of a text. -/
def ofText (text : String) : Log := ofLines 1 ((splitLines text).map .ok)

theorem pieces_ne_nil (line cs : List Char) : pieces line cs ≠ [] := by
  induction cs generalizing line with
  | nil => exact List.cons_ne_nil _ _
  | cons c rest ih =>
    rw [pieces]
    split
    · exact List.cons_ne_nil _ _
    · exact ih _

theorem trimLast_cons (first : String) {lines : List String} (h : lines ≠ []) :
    trimLast (first :: lines) = first :: trimLast lines := by
  obtain ⟨second, rest, rfl⟩ := List.exists_cons_of_ne_nil h
  unfold trimLast
  rw [List.getLast?_cons_cons, List.dropLast_cons_cons]
  split <;> rfl

theorem dropLineEnd_of_not_mem {line : List Char} (h : '\n' ∉ line) : dropLineEnd line = line := by
  cases line with
  | nil => rfl
  | cons c rest =>
    unfold dropLineEnd
    split
    · next heq => exact absurd (heq ▸ List.mem_cons_self) h
    · next heq => exact absurd (heq ▸ List.mem_cons_self) h
    · rfl

theorem dropLineEnd_cons (line : List Char) : dropLineEnd ('\n' :: line) = chomp line := by
  unfold chomp
  split
  · rfl
  · next h =>
    unfold dropLineEnd
    split
    · next heq => exact absurd (List.cons.inj heq).2 (h _)
    · next heq => exact (List.cons.inj heq).2.symm
    · next h' => exact absurd rfl (h' line)

theorem withoutLineEnd_ofList_reverse (line : List Char) :
    withoutLineEnd (String.ofList line.reverse) = String.ofList (dropLineEnd line).reverse := by
  rw [withoutLineEnd, String.toList_ofList, List.reverse_reverse]

/-- The pieces of characters are their rows without the ends, but for an empty one at the end. -/
theorem trimLast_pieces {line : List Char} (h : '\n' ∉ line) (cs : List Char) :
    trimLast (pieces line cs) =
      (rows '\n' (line.reverse ++ cs)).map fun row => withoutLineEnd (String.ofList row) := by
  have hreverse {line : List Char} (h : '\n' ∉ line) : '\n' ∉ line.reverse :=
    fun hmem => h (List.mem_reverse.mp hmem)
  induction cs generalizing line with
  | nil =>
    rw [pieces, List.append_nil]
    cases line with
    | nil => rfl
    | cons c rest =>
      have hrow : (c :: rest).reverse ≠ [] := by simp
      have hpiece : [String.ofList (c :: rest).reverse].getLast? ≠ some "" := by simp
      rw [rows_of_not_mem (hreverse h) hrow, List.map_singleton,
        withoutLineEnd_ofList_reverse, dropLineEnd_of_not_mem h, trimLast, if_neg hpiece]
  | cons c rest ih =>
    by_cases hc : c = '\n'
    · subst hc
      rw [pieces, if_pos rfl, trimLast_cons _ (pieces_ne_nil _ _), ih List.not_mem_nil,
        rows_append_feed (hreverse h), ← List.reverse_cons, List.map_cons,
        withoutLineEnd_ofList_reverse, dropLineEnd_cons]
      rfl
    · rw [pieces, if_neg hc, ih (by simp [h, Ne.symm hc]), List.reverse_cons, List.append_assoc]
      rfl

/-- The lines of a text are those of its bytes, and each of them can be read. -/
theorem lines_toUTF8 (text : String) : Bytes.lines text.toUTF8 = (splitLines text).map .ok := by
  rw [Bytes.lines_toUTF8_eq_map, splitLines, trimLast_pieces List.not_mem_nil, List.map_map]
  rfl

end Log

/-! ## Texts on disks -/

/-- A text is read from a file that holds its bytes. -/
theorem Disk.read_eq_ok_iff {d : Disk} {path text : String} :
    d.read path = .ok text ↔ d.readBytes path = .ok text.toUTF8 := by
  unfold Disk.read
  cases d.readBytes path with
  | error e =>
    constructor
    · intro h
      cases h
    · intro h
      cases h
  | ok bytes =>
    show Bytes.text bytes = .ok text ↔ _
    rw [Bytes.text_eq_ok_iff]
    exact ⟨congrArg _, Except.ok.inj⟩

end Telltale

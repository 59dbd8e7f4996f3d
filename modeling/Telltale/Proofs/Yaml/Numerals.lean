import Mathlib.Data.Nat.Digits.Defs
import Mathlib.Tactic.IntervalCases
import Telltale.Proofs.Double.Order
import Telltale.Yaml.Resolve

/-!
# Numbers as plain text

Every number has a plain text that stands for it and nothing else: an integer has its digits, and a
double has all the digits of the decimal that it exactly is. Their readings try many other types
first, and none of those takes such a text.

* `Yaml.natInBase?_ten` — digits are read in base ten precisely if they are decimal digits.
* `Yaml.plainDatum_integer`, `Yaml.natOfText?_toString` — an integer is read from its digits.
* `Yaml.exactText`, `Yaml.plainDatum_exactText` — a double is read from its exact decimal.
-/

namespace Telltale

-- the powers of the core library, whatever else is in scope
attribute [local instance (2000)] instPowNat

namespace Yaml

/-! ## Digits -/

/-- A number with one more decimal digit behind it. -/
def withDigit? (n : Nat) (c : Char) : Option Nat :=
  if c.isDigit then some (10 * n + (c.toNat - '0'.toNat)) else none

theorem toNat_sub_lt_ten {c : Char} (h : c.isDigit = true) : c.toNat - '0'.toNat < 10 := by
  unfold Char.isDigit at h
  rw [Bool.and_eq_true, decide_eq_true_eq, decide_eq_true_eq] at h
  have hle : c.toNat ≤ 57 := UInt32.le_iff_toNat_le.mp h.2
  have hzero : '0'.toNat = 48 := rfl
  omega

/-- Of the hexadecimal digits, base ten takes the decimal ones. -/
theorem withDigit?_eq (n : Nat) (c : Char) :
    ((Quoted.hexValue? c).bind fun v => if v < 10 then some (n * 10 + v) else none) =
      withDigit? n c := by
  unfold Quoted.hexValue? withDigit?
  cases hc : c.isDigit with
  | true =>
    rw [if_pos rfl, if_pos rfl, Option.bind_some, if_pos (toNat_sub_lt_ten hc), Nat.mul_comm]
  | false =>
    simp only [Bool.false_eq_true, if_false]
    split
    · rw [Option.bind_some, if_neg (by omega)]
    · split
      · rw [Option.bind_some, if_neg (by omega)]
      · rfl

theorem natInBase?_ten {cs : List Char} (hne : cs ≠ []) :
    natInBase? 10 cs = cs.foldlM withDigit? 0 := by
  unfold natInBase?
  rw [if_neg (by simpa using hne)]
  congr 1
  funext n c
  exact withDigit?_eq n c

/-- Decimal digits are read as the number that they are. -/
theorem natInBase?_digits {cs : List Char} (hne : cs ≠ []) (h : ∀ c ∈ cs, c.isDigit = true) :
    natInBase? 10 cs = some (Nat.ofDigitChars 10 cs 0) := by
  rw [natInBase?_ten hne, Nat.ofDigitChars]
  clear hne
  generalize 0 = n
  induction cs generalizing n with
  | nil => rfl
  | cons c rest ih =>
    obtain ⟨hc, hrest⟩ := List.forall_mem_cons.mp h
    rw [List.foldlM_cons, withDigit?, if_pos hc]
    exact ih hrest _

/-- A text with anything else in it is not read so. -/
theorem natInBase?_eq_none {cs : List Char} {c : Char} (hmem : c ∈ cs)
    (hc : c.isDigit = false) : natInBase? 10 cs = none := by
  rw [natInBase?_ten (List.ne_nil_of_mem hmem)]
  generalize 0 = n
  induction cs generalizing n with
  | nil => cases hmem
  | cons b rest ih =>
    rw [List.foldlM_cons, withDigit?]
    rcases List.mem_cons.mp hmem with rfl | hrest
    · rw [hc]
      rfl
    · split
      · exact ih hrest _
      · rfl

theorem natInBase?_toDigits (n : Nat) : natInBase? 10 (Nat.toDigits 10 n) = some n := by
  rw [natInBase?_digits Nat.toDigits_ne_nil
    fun c hc => Nat.isDigit_of_mem_toDigits (by decide) (by decide) hc,
    Nat.ofDigitChars_toDigits (by decide) (by decide)]

/-- The digits of a number begin with a zero only if the number is zero. -/
theorem head?_toDigits {n : Nat} (hn : n ≠ 0) : (Nat.toDigits 10 n).head? ≠ some '0' := by
  induction n using Nat.strongRecOn with
  | ind n ih =>
    rcases Nat.lt_or_ge n 10 with hlt | hge
    · rw [Nat.toDigits_of_lt_base hlt]
      interval_cases n <;> simp_all
    · have htens := ih (n / 10) (by omega) (by omega)
      obtain ⟨c, rest, hdigits⟩ := List.exists_cons_of_ne_nil (@Nat.toDigits_ne_nil (n / 10) 10)
      rw [Nat.toDigits_of_base_le (by decide) hge, hdigits]
      rwa [hdigits] at htens

/-! ## Integers -/

/-- The end of a numeral: nothing, or an exponent. -/
def IsEnd (cs : List Char) : Prop := cs = [] ∨ ∃ rest, cs = 'e' :: rest

/-- A numeral: a digit, which is no zero in front of others. -/
inductive IsNumeral : List Char → Prop
  | intro {c : Char} {rest : List Char} (hc : c.isDigit = true) (hzero : c = '0' → IsEnd rest) :
    IsNumeral (c :: rest)

theorem isNumeral_toDigits (n : Nat) {rest : List Char} (h : IsEnd rest) :
    IsNumeral (Nat.toDigits 10 n ++ rest) := by
  obtain ⟨c, digits, hdigits⟩ := List.exists_cons_of_ne_nil (@Nat.toDigits_ne_nil n 10)
  have hc : c.isDigit = true :=
    Nat.isDigit_of_mem_toDigits (b := 10) (n := n) (by decide) (by decide)
      (hdigits ▸ List.mem_cons_self)
  rw [hdigits]
  refine .intro hc fun hzero => ?_
  by_cases hn : n = 0
  · subst hn
    cases hdigits
    exact h
  · have hhead := head?_toDigits hn
    rw [hdigits, hzero] at hhead
    exact absurd rfl hhead

section Numeral

variable {cs : List Char}

theorem IsNumeral.head?_ne (h : IsNumeral cs) {b : Char} (hb : b.isDigit = false) :
    cs.head? ≠ some b := by
  cases h with
  | intro hc _ =>
    rintro heq
    cases heq
    rw [hc] at hb
    cases hb

theorem IsNumeral.isPaddedDigits (h : IsNumeral cs) :
    isPaddedDigits cs = false ∧ isPaddedDigits ('-' :: cs) = false := by
  cases h with
  | @intro c rest hc hzero =>
    have hpadded : (1 < (c :: rest).length && (c :: rest).head? == some '0' &&
        (c :: rest).all Char.isDigit) = false := by
      by_cases h : c = '0'
      · rcases hzero h with rfl | ⟨r, rfl⟩
        · rfl
        · simp
      · simp [h]
    refine ⟨?_, hpadded⟩
    unfold Yaml.isPaddedDigits
    split
    · next heq =>
      cases heq
      exact absurd hc (by decide)
    · next heq =>
      cases heq
      exact absurd hc (by decide)
    · exact hpadded

/-- A numeral announces no other base. -/
theorem IsNumeral.baseOf? (h : IsNumeral cs) {c : Char} {rest : List Char}
    (hcs : cs = '0' :: c :: rest) : baseOf? c = none := by
  cases h with
  | intro hc hzero =>
    cases hcs
    rcases hzero rfl with hnil | ⟨r, hr⟩
    · cases hnil
    · cases hr
      rfl

theorem IsNumeral.natOfText? (h : IsNumeral cs) : natOfText? cs = natInBase? 10 cs := by
  have hplus : (cs.head? == some '+') = false :=
    beq_eq_false_iff_ne.mpr (h.head?_ne (by decide))
  unfold Yaml.natOfText?
  simp only [hplus, Bool.false_eq_true, if_false, h.isPaddedDigits.1]
  split
  · next n hbased =>
    split at hbased
    · rw [h.baseOf? rfl] at hbased
      cases hbased
    · cases hbased
  · rfl

theorem IsNumeral.negativeOfText? (h : IsNumeral cs) :
    negativeOfText? ('-' :: cs) = natInBase? 10 cs := by
  unfold Yaml.negativeOfText?
  simp only [Bool.false_eq_true, if_false, h.isPaddedDigits.2]
  split
  · next n hbased =>
    split at hbased
    · rw [h.baseOf? rfl] at hbased
      cases hbased
    · cases hbased
  · rfl

theorem natOfText?_minus (cs : List Char) : natOfText? ('-' :: cs) = none := by
  unfold natOfText?
  have hplus : (('-' :: cs).head? == some '+') = false := rfl
  simp only [hplus, Bool.false_eq_true, if_false]
  split
  · next hbased => cases hbased
  · split
    · rfl
    · exact natInBase?_eq_none (c := '-') List.mem_cons_self (by decide)

theorem IsNumeral.integer? (h : IsNumeral cs) :
    Yaml.integer? cs =
      (natInBase? 10 cs).bind fun n => if n < 2 ^ (128 : Nat) then some (n : Int) else none := by
  have hnegative : Yaml.negativeOfText? cs = none := by
    cases h with
    | @intro c rest hc _ =>
      unfold Yaml.negativeOfText?
      split
      · next heq =>
        cases heq
        exact absurd hc (by decide)
      · rfl
  unfold Yaml.integer?
  rw [h.natOfText?, hnegative]
  cases natInBase? 10 cs with
  | none => rfl
  | some n => rfl

theorem IsNumeral.integer?_minus (h : IsNumeral cs) :
    Yaml.integer? ('-' :: cs) =
      (natInBase? 10 cs).bind fun n => if n ≤ 2 ^ (127 : Nat) then some (-(n : Int)) else none := by
  unfold Yaml.integer?
  rw [natOfText?_minus, h.negativeOfText?]
  cases natInBase? 10 cs with
  | none => rfl
  | some n => rfl

end Numeral

/-! ## Plain texts -/

/-- A numeral, perhaps behind a minus sign. -/
def signed (negative : Bool) (cs : List Char) : List Char := if negative then '-' :: cs else cs

/-- No word is a numeral. -/
theorem contains_eq_false {words : List String} {s : String} {negative : Bool} {cs : List Char}
    (hcs : IsNumeral cs) (hs : s.toList = signed negative cs)
    (hwords : ∀ w ∈ words, ∀ c rest, (w.toList = c :: rest → c.isDigit = false) ∧
      (w.toList = '-' :: c :: rest → c.isDigit = false)) : words.contains s = false := by
  rw [← Bool.not_eq_true, List.contains_iff_mem]
  intro hmem
  cases hcs with
  | @intro c rest hc _ =>
    cases negative with
    | false => rw [((hwords s hmem c rest).1 hs)] at hc; cases hc
    | true => rw [((hwords s hmem c rest).2 hs)] at hc; cases hc

section Plain

variable {s : String} {negative : Bool} {cs : List Char}

theorem isEmpty_or_isNullText_eq_false (hcs : IsNumeral cs) (hs : s.toList = signed negative cs) :
    (s == "" || isNullText s) = false := by
  have hne : (s == "") = false := by
    rw [beq_eq_false_iff_ne]
    rintro rfl
    cases hcs with
    | intro _ _ => cases negative <;> cases hs
  rw [hne, Bool.false_or]
  exact contains_eq_false hcs hs (by simp)

theorem boolOfText?_eq_none (hcs : IsNumeral cs) (hs : s.toList = signed negative cs) :
    boolOfText? s = none := by
  unfold boolOfText?
  rw [contains_eq_false hcs hs (by simp), contains_eq_false hcs hs (by simp)]
  rfl

/-- A numeral that is an integer is read as one. -/
theorem plainDatum_of_integer? (hcs : IsNumeral cs) (hs : s.toList = signed negative cs) {n : Int}
    (hn : integer? (signed negative cs) = some n) : plainDatum s = integerDatum n := by
  unfold plainDatum
  simp only [isEmpty_or_isNullText_eq_false hcs hs, boolOfText?_eq_none hcs hs, hs, hn,
    Bool.false_eq_true, if_false]

/-- A numeral that is no integer is read as a real. -/
theorem plainDatum_of_real? (hcs : IsNumeral cs) (hs : s.toList = signed negative cs)
    (hn : integer? (signed negative cs) = none) {x : Extended}
    (hx : real? (signed negative cs) = some x) : plainDatum s = realDatum x := by
  have hpadded : isPaddedDigits (signed negative cs) = false := by
    cases negative with
    | false => exact hcs.isPaddedDigits.1
    | true => exact hcs.isPaddedDigits.2
  unfold plainDatum
  simp only [isEmpty_or_isNullText_eq_false hcs hs, boolOfText?_eq_none hcs hs, hs, hn, hpadded,
    hx, Bool.false_eq_true, if_false]

/-- A numeral is read as a real by its digits alone. -/
theorem real?_signed (hcs : IsNumeral cs) :
    real? (signed negative cs) =
      (decimal? negative cs).bind fun d => d.nearest?.map .finite := by
  have hs : (String.ofList (signed negative cs)).toList = signed negative cs := String.toList_ofList
  have hplus : ((signed negative cs).head? == some '+') = false := by
    cases negative with
    | true => rfl
    | false => exact beq_eq_false_iff_ne.mpr (hcs.head?_ne (by decide))
  have hinfinity : [".inf", ".Inf", ".INF"].contains (String.ofList (signed negative cs)) = false :=
    contains_eq_false hcs hs (by simp)
  have hbelow :
      ["-.inf", "-.Inf", "-.INF"].contains (String.ofList (signed negative cs)) = false :=
    contains_eq_false hcs hs (by simp [forall_and])
  have hnan : [".nan", ".NaN", ".NAN"].contains (String.ofList (signed negative cs)) = false :=
    contains_eq_false hcs hs (by simp)
  unfold real?
  simp only [hplus, Bool.false_eq_true, if_false, hinfinity, hbelow, hnan]
  cases hcs with
  | @intro c rest hc _ =>
    cases negative with
    | true => rfl
    | false =>
      have hunsigned : signed false (c :: rest) = c :: rest := rfl
      rw [hunsigned]
      split
      · next heq =>
        cases heq
        exact absurd hc (by decide)
      · rfl

end Plain

theorem toList_toString (n : Int) :
    (toString n).toList = signed (decide (n < 0)) (Nat.toDigits 10 n.natAbs) := by
  cases n with
  | ofNat m =>
    show (toString m).toList = _
    rw [Nat.toString_eq_ofList_toDigits, String.toList_ofList]
    rfl
  | negSucc m =>
    show ("-" ++ toString (m + 1)).toList = _
    rw [Nat.toString_eq_ofList_toDigits, String.toList_append, String.toList_ofList,
      String.toList_ofList, decide_eq_true (Int.negSucc_lt_zero m)]
    rfl

/-- An integer is read from its digits. -/
theorem plainDatum_integer {n : Int} (hn : Number.InRange n) :
    plainDatum (toString n) = .number (.integer n hn) := by
  have hnumeral : IsNumeral (Nat.toDigits 10 n.natAbs) := by
    have h := isNumeral_toDigits n.natAbs (.inl rfl)
    rwa [List.append_nil] at h
  have hinteger : integer? (signed (decide (n < 0)) (Nat.toDigits 10 n.natAbs)) = some n := by
    obtain ⟨hlow, hhigh⟩ := hn
    by_cases hneg : n < 0
    · rw [decide_eq_true hneg, signed, if_pos rfl, hnumeral.integer?_minus, natInBase?_toDigits,
        Option.bind_some, if_pos (by omega)]
      congr 1
      omega
    · rw [decide_eq_false hneg, signed, if_neg (by decide), hnumeral.integer?, natInBase?_toDigits,
        Option.bind_some, if_pos (by omega)]
      congr 1
      omega
  have hsome : Number.ofInt? n = some (.integer n hn) := dif_pos hn
  rw [plainDatum_of_integer? hnumeral (toList_toString n) hinteger, integerDatum, hsome]

theorem natOfText?_toString (n : Nat) : natOfText? (toString n).toList = some n := by
  have hnumeral := isNumeral_toDigits n (.inl rfl)
  rw [List.append_nil] at hnumeral
  rw [Nat.toString_eq_ofList_toDigits, String.toList_ofList, hnumeral.natOfText?,
    natInBase?_toDigits]

/-! ## Doubles -/

/-- The exponent of the exact decimals of doubles. -/
def exactEnd : List Char := "e-1074".toList

/-- The digits of the decimal that a magnitude in units exactly is, where the point stands 1074
places from the end. -/
def exactDigits (units : Nat) : Nat := units * 5 ^ (1074 : Nat)

/-- The text of the decimal that a double exactly is. -/
def exactText (x : Double) : String :=
  String.ofList (signed x.isNegative (Nat.toDigits 10 (exactDigits x.magnitude) ++ exactEnd))

theorem decimal?_exact (negative : Bool) (n : Nat) :
    decimal? negative (Nat.toDigits 10 n ++ exactEnd) = some ⟨negative, n, -1074⟩ := by
  have hdigits : ∀ c ∈ Nat.toDigits 10 n, c.isDigit = true := fun c hc =>
    Nat.isDigit_of_mem_toDigits (by decide) (by decide) hc
  have htake : (Nat.toDigits 10 n ++ exactEnd).takeWhile Char.isDigit = Nat.toDigits 10 n := by
    rw [List.takeWhile_append_of_pos hdigits]
    exact List.append_nil _
  have hdrop : (Nat.toDigits 10 n ++ exactEnd).dropWhile Char.isDigit = exactEnd := by
    rw [List.dropWhile_append_of_pos hdigits]
    rfl
  have hpoint : (exactEnd.head? == some '.') = false := by decide +kernel
  have hexponent : exponent? "-1074".toList = some (-1074) := by decide +kernel
  unfold decimal?
  simp only [htake, hdrop, hpoint, Bool.false_eq_true, if_false, List.append_nil,
    natInBase?_toDigits]
  show (exponent? "-1074".toList).map _ = _
  rw [hexponent]
  rfl

/-- The decimal of a magnitude, as a quotient. -/
theorem quotient_exact (negative : Bool) (units : Nat) :
    Decimal.quotient ⟨negative, exactDigits units, -1074⟩ =
      (units * 10 ^ (1074 : Nat), 10 ^ (1074 : Nat)) := by
  have hpow (k : Nat) : units * 5 ^ k * 2 ^ k = units * 10 ^ k := by
    rw [Nat.mul_assoc, ← Nat.mul_pow]
  have hmul : exactDigits units * Double.unitsPerOne = units * 10 ^ (1074 : Nat) := by
    unfold exactDigits Double.unitsPerOne Double.unitExponent
    exact hpow 1074
  have hexponent : ¬(0 : Int) ≤ -1074 := by decide
  unfold Decimal.quotient
  rw [if_neg hexponent, hmul]
  rfl

/-- The decimal of a magnitude that is not zero is neither too great nor too small to be read. -/
theorem digitCount_exact {units : Nat} (hpos : 0 < units) (hlt : units < Double.limit) :
    743 < Decimal.digitCount (exactDigits units) ∧
      Decimal.digitCount (exactDigits units) ≤ 1384 := by
  have hlow : 10 ^ (743 : Nat) ≤ exactDigits units := by
    refine Nat.le_trans ?_ (Nat.le_mul_of_pos_left _ hpos)
    decide +kernel
  have hhigh : exactDigits units < 10 ^ (1384 : Nat) := by
    have hfive (k : Nat) : 0 < 5 ^ k := Nat.pow_pos (by decide)
    refine Nat.lt_of_lt_of_le (Nat.mul_lt_mul_of_pos_right hlt (hfive 1074)) ?_
    unfold Double.limit Double.topExponent
    decide +kernel
  generalize exactDigits units = n at hlow hhigh
  refine ⟨Nat.lt_of_not_le fun hle => ?_, ?_⟩
  · have hsmall := (Nat.length_toDigits_le_iff (k := 743) (by decide) (by decide)).mp hle
    exact Nat.not_le_of_lt hsmall hlow
  · exact (Nat.length_toDigits_le_iff (by decide) (by decide)).mpr hhigh

/-- The decimal that a double exactly is has no other nearest double. -/
theorem nearest?_exact (x : Double) :
    Decimal.nearest? ⟨x.isNegative, exactDigits x.magnitude, -1074⟩ = some x := by
  have hten (k : Nat) : 0 < 10 ^ k := Nat.pow_pos (by decide)
  obtain ⟨hfinite, hnearest⟩ := Double.nearest_magnitude x (hten 1074)
  have hquotient := quotient_exact x.isNegative x.magnitude
  unfold Decimal.nearest?
  rcases Nat.eq_zero_or_pos x.magnitude with hzero | hpos
  · have hdigits : exactDigits x.magnitude = 0 := Nat.mul_eq_zero.mpr (.inl hzero)
    have hone := (Double.nearest_magnitude x Nat.one_pos).2
    rw [hzero, Nat.zero_mul] at hone
    rw [if_pos hdigits, hone]
  · obtain ⟨hmany, hfew⟩ := digitCount_exact hpos x.fits.2
    have hdigits : exactDigits x.magnitude ≠ 0 := by
      intro hzero
      rw [hzero] at hmany
      exact absurd hmany (by decide)
    generalize exactDigits x.magnitude = n at hquotient hmany hfew hdigits
    simp only [hquotient, hfinite, hnearest, Bool.false_eq_true, if_false]
    rw [if_neg hdigits, if_neg (by omega), if_neg (by omega)]

/-- A double is read from its exact decimal. -/
theorem plainDatum_exactText (x : Double) : plainDatum (exactText x) = .number (.double x) := by
  have hnumeral : IsNumeral (Nat.toDigits 10 (exactDigits x.magnitude) ++ exactEnd) :=
    isNumeral_toDigits _ (.inr ⟨"-1074".toList, rfl⟩)
  have hs : (exactText x).toList =
      signed x.isNegative (Nat.toDigits 10 (exactDigits x.magnitude) ++ exactEnd) :=
    String.toList_ofList
  have hnearest := nearest?_exact x
  generalize exactDigits x.magnitude = n at hnumeral hs hnearest
  have hletter : natInBase? 10 (Nat.toDigits 10 n ++ exactEnd) = none :=
    natInBase?_eq_none (c := 'e') (List.mem_append_right _ List.mem_cons_self) (by decide)
  have hinteger : integer? (signed x.isNegative (Nat.toDigits 10 n ++ exactEnd)) = none := by
    cases x.isNegative with
    | false => rw [signed, if_neg (by decide), hnumeral.integer?, hletter, Option.bind_none]
    | true => rw [signed, if_pos rfl, hnumeral.integer?_minus, hletter, Option.bind_none]
  have hreal : real? (signed x.isNegative (Nat.toDigits 10 n ++ exactEnd)) = some (.finite x) := by
    rw [real?_signed hnumeral, decimal?_exact, Option.bind_some, hnearest, Option.map_some]
  rw [plainDatum_of_real? hnumeral hs hinteger hreal, realDatum]

end Yaml

end Telltale

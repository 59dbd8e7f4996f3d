import Telltale.Catalog
import Telltale.Identifier
import Telltale.Json.Text
import Telltale.Rule
import Telltale.Text.Blank

/-!
# Checking rules

The entries of a rules document say what a rule is by keys that may or may not be there. An entry is
made into a rule against a catalog, and a document with one bad entry is refused as a whole.

* `ConditionEntry.compile` and `RuleEntry.compile` make the entries into conditions and rules.
* `RuleEntry.compileEach` makes all entries of a document into rules with different identifiers.
* `RulesFault.message` is the wording of all that can be wrong.
-/

namespace Telltale

/-! ### Entries -/

/-- The keys of an entry that describe a leaf. -/
structure LeafEntry where
  signal : Option String
  field : Option String
  flags : Option String
  comparisons : List (Comparison × Json)
  oneOf : Option (List Json)
  allOf : Option (List String)
  anyOf : Option (List String)
  noneOf : Option (List String)

/-- An entry of a condition: the keys of a leaf and those of groups. -/
inductive ConditionEntry where
  | mk (leaf : LeafEntry) (all any : Option (List ConditionEntry))

/-- An entry of a rules document. -/
structure RuleEntry where
  id : Option String
  title : String
  source : Option Source
  events : List String
  all : Option (List ConditionEntry)
  any : Option (List ConditionEntry)
  onRise : List Action
  onFall : List Action

/-! ### Causes -/

/-- What is wrong with a condition. -/
inductive ConditionFault where
  | emptyGroup (name : String)
  | bothGroups
  | groupAndLeaf
  | noOperand
  | severalOperands
  | unknownSignal (id : String)
  | emptyField
  | unknownGroup (group : String)
  | comparedFlags (group : String)
  | flagsWithoutBits (group : String)
  | noSuchBit (group bit : String)
  | noBits (group : String)
  | bitsWithoutFlags
  | notOneTest
  | notANumber (comparison : Comparison) (value : Json)
  | emptySet
  | neverTaken (signal : String) (value : Json)

/-- What is wrong with a rule whose identifier is known. -/
inductive RuleFault where
  | emptyEvent
  | noCondition
  | condition (fault : ConditionFault)
  | noActions
  | emptyToken
  | emptyName

/-- What is wrong with an entry of a document. -/
inductive EntryFault where
  | noTitle
  | badId (title id : String)
  | rule (id : String) (fault : RuleFault)

/-- What is wrong with a document. Entries are counted from one. -/
inductive RulesFault where
  | entry (number : Nat) (fault : EntryFault)
  | duplicateId (id : String)

/-- The wording of a fault. -/
def ConditionFault.message : ConditionFault → String
  | .emptyGroup name => "'" ++ name ++ "' is empty"
  | .bothGroups => "a nested group takes 'all' or 'any', not both"
  | .groupAndLeaf => "a condition is either a nested group or a leaf"
  | .noOperand => "condition needs 'signal', 'field' or 'flags'"
  | .severalOperands => "condition takes exactly one of 'signal', 'field', 'flags'"
  | .unknownSignal id => "unknown signal '" ++ id ++ "'"
  | .emptyField => "empty field path"
  | .unknownGroup group => "unknown flag group '" ++ group ++ "'"
  | .comparedFlags group => "flags '" ++ group ++ "' only supports all_of / any_of / none_of"
  | .flagsWithoutBits group => "flags '" ++ group ++ "' needs all_of, any_of or none_of"
  | .noSuchBit group bit => "flag group '" ++ group ++ "' has no bit '" ++ bit ++ "'"
  | .noBits group => "flags '" ++ group ++ "' lists no bits"
  | .bitsWithoutFlags => "all_of / any_of / none_of need a 'flags' operand"
  | .notOneTest => "condition needs exactly one of eq, ne, in, gt, gte, lt, lte"
  | .notANumber comparison value =>
    "'" ++ comparison.name ++ "' needs a number, got " ++ value.compact
  | .emptySet => "'in' with an empty list"
  | .neverTaken signal value =>
    "signal '" ++ signal ++ "' never takes the value " ++ value.compact

/-- The wording of a fault. -/
def RuleFault.message : RuleFault → String
  | .emptyEvent => "empty event name in filter"
  | .noCondition => "'when' needs 'all' or 'any'"
  | .condition fault => fault.message
  | .noActions => "'then' has no actions"
  | .emptyToken => "flag action with an empty token"
  | .emptyName => "emit action with an empty name"

/-- The wording of a fault. -/
def EntryFault.message : EntryFault → String
  | .noTitle => "missing title"
  | .badId title id => "'" ++ title ++ "': " ++ Identifier.invalidMessage id
  | .rule id fault => "'" ++ id ++ "': " ++ fault.message

/-- The wording of a fault. -/
def RulesFault.message : RulesFault → String
  | .entry number fault => "rule #" ++ toString number ++ ": " ++ fault.message
  | .duplicateId id => "duplicate rule id '" ++ id ++ "'"

/-! ### Leaves -/

namespace LeafEntry

/-- Whether the entry names an operand. -/
def hasOperand (e : LeafEntry) : Bool := e.signal.isSome || e.field.isSome || e.flags.isSome

/-- Whether the entry names bits. -/
def hasBits (e : LeafEntry) : Bool := e.allOf.isSome || e.anyOf.isSome || e.noneOf.isSome

/-- The one operand of the entry. -/
def operand (c : Catalog) (e : LeafEntry) : Except ConditionFault Operand :=
  match e.signal, e.field, e.flags with
  | some id, none, none => if c.has id then .ok (.signal id) else .error (.unknownSignal id)
  | none, some path, none =>
    if Text.isBlankText path then .error .emptyField else .ok (.field path)
  | none, none, some group =>
    match c.vocabulary.group? group with
    | some g => .ok (.flags group g.path)
    | none => .error (.unknownGroup group)
  | none, none, none => .error .noOperand
  | _, _, _ => .error .severalOperands

/-- The comparisons of the entry, each as a test of its own. -/
def comparingTests (e : LeafEntry) : List Test :=
  e.comparisons.map (fun (comparison, value) => .compare comparison value) ++
    (e.oneOf.map Test.oneOf).toList

/-- The index of a bit of a group. -/
def bitOf (c : Catalog) (group bit : String) : Except ConditionFault Nat :=
  match (c.vocabulary.group? group).bind fun g => Table.get? g.bits bit with
  | some i => .ok i
  | none => .error (.noSuchBit group bit)

/-- The indices of bits of a group. -/
def bitsOf (c : Catalog) (group : String) (names : Option (List String)) :
    Except ConditionFault (List Nat) :=
  (names.getD []).mapM (bitOf c group)

/-- The test of a word of flags. -/
def bitTest (c : Catalog) (e : LeafEntry) (group : String) : Except ConditionFault Test := do
  if !e.comparingTests.isEmpty then .error (.comparedFlags group)
  else if !e.hasBits then .error (.flagsWithoutBits group)
  else
    let allOf ← bitsOf c group e.allOf
    let anyOf ← bitsOf c group e.anyOf
    let noneOf ← bitsOf c group e.noneOf
    if allOf.isEmpty && anyOf.isEmpty && noneOf.isEmpty then .error (.noBits group)
    else .ok (.bits allOf anyOf noneOf)

/-- The one comparison of any other operand. -/
def comparingTest (e : LeafEntry) : Except ConditionFault Test :=
  if e.hasBits then .error .bitsWithoutFlags
  else
    match e.comparingTests with
    | [test] => .ok test
    | _ => .error .notOneTest

/-- What is wrong with a test by itself. -/
def testFault? : Test → Option ConditionFault
  | .compare comparison value =>
    if comparison.isOrdering && !value.isNumber then some (.notANumber comparison value) else none
  | .oneOf [] => some .emptySet
  | _ => none

/-- The literals that a test compares for equality. -/
def equalityLiterals : Test → List Json
  | .compare comparison value => if comparison.isOrdering then [] else [value]
  | .oneOf values => values
  | .bits .. => []

/-- What is wrong with a test of a signal: an enumerated signal cannot take a value that it does not
declare. -/
def literalFault? (c : Catalog) (operand : Operand) (test : Test) : Option ConditionFault :=
  match operand with
  | .signal id =>
    (c.get? id).bind fun s =>
      if s.type = .enum then
        ((equalityLiterals test).find? fun v => !v.memberOf (s.values.map (·.value))).map
          (.neverTaken id)
      else none
  | _ => none

/-- The leaf of an entry. -/
def compile (c : Catalog) (e : LeafEntry) : Except ConditionFault Leaf := do
  let operand ← e.operand c
  let test ← match operand with
    | .flags group _ => e.bitTest c group
    | _ => e.comparingTest
  match (testFault? test).or (literalFault? c operand test) with
  | some fault => .error fault
  | none => .ok ⟨operand, test⟩

end LeafEntry

/-! ### Conditions -/

namespace ConditionEntry

mutual

/-- The condition of an entry: a group if the entry has one, and a leaf otherwise. -/
def compile (c : Catalog) : ConditionEntry → Except ConditionFault Condition
  | .mk _ (some _) (some _) => .error .bothGroups
  | .mk leaf (some members) none =>
    if leaf.hasOperand then .error .groupAndLeaf
    else if members.isEmpty then .error (.emptyGroup "all")
    else (compileEach c members).map .all
  | .mk leaf none (some members) =>
    if leaf.hasOperand then .error .groupAndLeaf
    else if members.isEmpty then .error (.emptyGroup "any")
    else (compileEach c members).map .any
  | .mk leaf none none => (leaf.compile c).map .leaf

/-- The conditions of entries in a row. -/
def compileEach (c : Catalog) : List ConditionEntry → Except ConditionFault (List Condition)
  | [] => .ok []
  | e :: rest => do
    let condition ← compile c e
    let conditions ← compileEach c rest
    .ok (condition :: conditions)

end

/-- The conditions of a group that may be absent, but not empty. -/
def compileGroup (c : Catalog) (name : String) :
    Option (List ConditionEntry) → Except ConditionFault (Option (List Condition))
  | none => .ok none
  | some [] => .error (.emptyGroup name)
  | some members => (compileEach c members).map some

end ConditionEntry

/-! ### Rules -/

/-- What is wrong with an action. -/
def Action.fault? : Action → Option RuleFault
  | .setFlag token | .clearFlag token => if Text.isBlankText token then some .emptyToken else none
  | .emit name _ => if Text.isBlankText name then some .emptyName else none
  | .log _ => none

namespace RuleEntry

/-- The title without blanks around it. -/
def trimmedTitle (e : RuleEntry) : String := Text.trim e.title

/-- The identifier: the given one, or the slug of the title. -/
def ruleId (e : RuleEntry) : String := e.id.getD (Identifier.slug e.trimmedTitle)

/-- The rule of an entry whose title and identifier are good. -/
def compileBody (c : Catalog) (e : RuleEntry) : Except RuleFault Rule := do
  if e.events.any Text.isBlankText then .error .emptyEvent
  else if e.all.isNone && e.any.isNone then .error .noCondition
  else
    let all ← (ConditionEntry.compileGroup c "all" e.all).mapError .condition
    let any ← (ConditionEntry.compileGroup c "any" e.any).mapError .condition
    if e.onRise.isEmpty then .error .noActions
    else
      match (e.onRise ++ e.onFall).findSome? Action.fault? with
      | some fault => .error fault
      | none =>
        .ok ⟨e.ruleId, e.trimmedTitle, ⟨e.source, e.events⟩, all, any, e.onRise, e.onFall⟩

/-- The rule of an entry. -/
def compile (c : Catalog) (e : RuleEntry) : Except EntryFault Rule :=
  if e.trimmedTitle = "" then .error .noTitle
  else if !Identifier.isValid e.ruleId then .error (.badId e.trimmedTitle e.ruleId)
  else (e.compileBody c).mapError (.rule e.ruleId)

/-- The rules of entries in a row, where `number` is the number of the first one and `earlier` are
the identifiers before it. -/
def compileFrom (c : Catalog) (number : Nat) (earlier : List String) :
    List RuleEntry → Except RulesFault (List Rule)
  | [] => .ok []
  | e :: rest => do
    let rule ← (e.compile c).mapError (.entry number)
    if earlier.contains rule.id then .error (.duplicateId rule.id)
    else
      let rules ← compileFrom c (number + 1) (rule.id :: earlier) rest
      .ok (rule :: rules)

/-- The rules of all entries of a document. -/
def compileEach (c : Catalog) (entries : List RuleEntry) : Except RulesFault (List Rule) :=
  compileFrom c 1 [] entries

end RuleEntry

end Telltale

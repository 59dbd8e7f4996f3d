import Telltale.Catalog
import Telltale.Identifier
import Telltale.Json.Text
import Telltale.Text.Blank
import Telltale.Text.Escaped

/-!
# Checking catalogs

A catalog with one bad entry is refused as a whole, so that no signal is dropped in silence. Entries
are looked at in order, and the first fault is reported.

* `CatalogFault` and the faults inside it are the causes, and `message` their wording.
* `Vocabulary.check`, `Expr.check`, `Signal.check` look at one entry each.
* `Catalog.build` is the catalog of entries that are all good.
-/

namespace Telltale

/-! ### Causes -/

/-- What is wrong with an expression. -/
inductive ExprFault where
  | emptyPath
  | pathAndGroup
  | noPathOrGroup
  | emptyBitPath
  | bitTooHigh (i : Nat)
  | bitNameWithoutGroup (name : String)
  | unknownGroup (group : String)
  | noSuchBit (group : String) (bit : BitRef)
  | emptyEvent
  | categoryWithoutWildcard (event : String)
  | unknownCategory (category : String)
  | noCases
  | noTerms (kind : String)
  | recentEmptyEvent
  | badBound (event : String)
  | noCombiner

/-- What is wrong with a signal. -/
inductive SignalFault where
  | badId
  | noValues
  | duplicateValue (v : Json)
  | valuesNotAllowed (type : SignalType)
  | badDefault (v : Json) (type : SignalType)
  | expr (fault : ExprFault)
  | undeclaredOutput (v : Json)
  | wrongOutput (v : Json) (type : SignalType)

/-- What is wrong with a catalog. -/
inductive CatalogFault where
  | emptyGroupPath (group : String)
  | groupBitTooHigh (group bit : String) (i : Nat)
  | emptyCategory (category : String)
  | duplicateSignal (id : String)
  | signal (id : String) (fault : SignalFault)

/-- A bit as messages show it: the kind of reference with what it refers to. -/
def BitRef.shown : BitRef → String
  | .index i => "Index(" ++ toString i ++ ")"
  | .name s => "Name(" ++ Text.escaped s ++ ")"

/-- The wording of a fault. -/
def ExprFault.message : ExprFault → String
  | .emptyPath => "path expression with an empty path"
  | .pathAndGroup => "bitfield sets both 'path' and 'field_ref'"
  | .noPathOrGroup => "bitfield needs 'path' or 'field_ref'"
  | .emptyBitPath => "bitfield with an empty path"
  | .bitTooHigh i => "bit index " ++ toString i ++ " exceeds " ++ toString maxBit
  | .bitNameWithoutGroup name => "bit name '" ++ name ++ "' needs a 'field_ref' flag group"
  | .unknownGroup group => "unknown flag group '" ++ group ++ "'"
  | .noSuchBit group bit => "flag group '" ++ group ++ "' has no bit " ++ bit.shown
  | .emptyEvent => "journal_event with an empty event"
  | .categoryWithoutWildcard event =>
    "journal_event '" ++ event ++ "': 'category' only applies to the '*' wildcard"
  | .unknownCategory category => "unknown event category '" ++ category ++ "'"
  | .noCases => "first_match without cases"
  | .noTerms kind => "'" ++ kind ++ "' without terms"
  | .recentEmptyEvent => "recent with an empty event"
  | .badBound event => "recent '" ++ event ++ "': within_seconds must be >= 0"
  | .noCombiner => "combine without a combiner name"

/-- The wording of a fault. -/
def SignalFault.message : SignalFault → String
  | .badId => "id must be lowercase alphanumeric with '-' or '_'"
  | .noValues => "enum declares no values"
  | .duplicateValue v => "duplicate enum value " ++ v.compact
  | .valuesNotAllowed type => "'values' is only allowed on enum signals, not " ++ type.name
  | .badDefault v type => "default " ++ v.compact ++ " is not a valid " ++ type.name ++ " value"
  | .expr fault => fault.message
  | .undeclaredOutput v => "derivation can produce undeclared value " ++ v.compact
  | .wrongOutput v type =>
    "derivation can produce " ++ v.compact ++ ", which is not a " ++ type.name ++ " value"

/-- The wording of a fault. -/
def CatalogFault.message : CatalogFault → String
  | .emptyGroupPath group => "flag group '" ++ group ++ "' has an empty path"
  | .groupBitTooHigh group bit i =>
    "flag group '" ++ group ++ "': bit '" ++ bit ++ "' index " ++ toString i ++ " exceeds " ++
      toString maxBit
  | .emptyCategory category => "event category '" ++ category ++ "' is empty"
  | .duplicateSignal id => "duplicate signal id '" ++ id ++ "'"
  | .signal id fault => "signal '" ++ id ++ "': " ++ fault.message

/-! ### Vocabulary -/

/-- What is wrong with a flag group. -/
def FlagGroup.fault? (name : String) (g : FlagGroup) : Option CatalogFault :=
  if Text.isBlankText g.path then some (.emptyGroupPath name)
  else (g.bits.find? (maxBit < ·.2)).map fun (bit, i) => .groupBitTooHigh name bit i

/-- What is wrong with a vocabulary: its groups are looked at first. -/
def Vocabulary.fault? (v : Vocabulary) : Option CatalogFault :=
  (v.groups.findSome? fun (name, g) => g.fault? name).or
    (v.categories.findSome? fun (name, events) =>
      if events.isEmpty then some (.emptyCategory name) else none)

/-! ### Expressions -/

namespace Expr

/-- What is wrong with a reference to a bit. -/
def bitFault? (v : Vocabulary) (p group : Option String) (bit : BitRef) : Option ExprFault :=
  match p, group with
  | some _, some _ => some .pathAndGroup
  | none, none => some .noPathOrGroup
  | some p, none =>
    if Text.isBlankText p then some .emptyBitPath
    else
      match bit with
      | .index i => if maxBit < i then some (.bitTooHigh i) else none
      | .name s => some (.bitNameWithoutGroup s)
  | none, some g =>
    if (v.group? g).isNone then some (.unknownGroup g)
    else if (v.resolveBit? g bit).isNone then some (.noSuchBit g bit)
    else none

/-- What is wrong with the events that an expression asks for. -/
def eventFault? (v : Vocabulary) (name : String) (category : Option String) : Option ExprFault :=
  if Text.isBlankText name then some .emptyEvent
  else
    match category with
    | none => none
    | some c =>
      if name ≠ anyEvent then some (.categoryWithoutWildcard name)
      else if (v.category? c).isNone then some (.unknownCategory c)
      else none

/-- Whether a number of seconds is finite and not negative. -/
def isBound : Extended → Bool
  | .finite x => 0 ≤ x.units
  | _ => false

/-- What is wrong with an expression itself, apart from those inside it. -/
def ownFault? (v : Vocabulary) : Expr → Option ExprFault
  | .path p _ => if Text.isBlankText p then some .emptyPath else none
  | .bitfield p group bit _ => bitFault? v p group bit
  | .event name _ category _ => eventFault? v name category
  | .firstMatch cases _ => if cases.isEmpty then some .noCases else none
  | .all terms => if terms.isEmpty then some (.noTerms "and") else none
  | .any terms => if terms.isEmpty then some (.noTerms "or") else none
  | .recent name within =>
    if Text.isBlankText name then some .recentEmptyEvent
    else if !isBound within then some (.badBound name)
    else none
  | .combine name _ => if Text.isBlankText name then some .noCombiner else none
  | _ => none

/-- The first fault among an expression and those inside it. -/
def fault? (v : Vocabulary) (e : Expr) : Option ExprFault := e.subterms.findSome? (ownFault? v)

end Expr

/-! ### Signals -/

namespace Signal

/-- The first declared value that is loosely equal to an earlier one. -/
def duplicate? (earlier : List EnumValue) : List EnumValue → Option Json
  | [] => none
  | v :: rest =>
    if earlier.any (·.value.looseEq v.value) then some v.value
    else duplicate? (earlier ++ [v]) rest

/-- What is wrong with the declared values. -/
def valuesFault? (s : Signal) : Option SignalFault :=
  if s.type = .enum then
    if s.values.isEmpty then some .noValues else (duplicate? [] s.values).map .duplicateValue
  else if s.values.isEmpty then none
  else some (.valuesNotAllowed s.type)

/-- What is wrong with the declared default: it has to conform. -/
def defaultFault? (s : Signal) : Option SignalFault :=
  s.default.bind fun v =>
    match s.conform v with
    | .accepted _ => none
    | _ => some (.badDefault v s.type)

/-- What is wrong with a literal that the expression can hand back: it has to conform. -/
def outputFault? (s : Signal) (v : Json) : Option SignalFault :=
  match s.conform v with
  | .accepted _ => none
  | .undeclared v => some (.undeclaredOutput v)
  | .wrongType v => some (.wrongOutput v s.type)

/-- The first fault of a signal. -/
def fault? (v : Vocabulary) (s : Signal) : Option SignalFault :=
  if !Identifier.isValid s.id then some .badId
  else
    s.valuesFault?.or <| s.defaultFault?.or <| ((s.expr.fault? v).map .expr).or <|
      s.expr.outputs.literals.findSome? s.outputFault?

end Signal

/-! ### Catalogs -/

namespace Catalog

/-- The first fault among signals, where `earlier` are the identifiers before them. -/
def signalsFault? (v : Vocabulary) (earlier : List String) : List Signal → Option CatalogFault
  | [] => none
  | s :: rest =>
    if earlier.contains s.id then some (.duplicateSignal s.id)
    else
      match s.fault? v with
      | some fault => some (.signal s.id fault)
      | none => signalsFault? v (s.id :: earlier) rest

/-- The first fault of a catalog. -/
def fault? (c : Catalog) : Option CatalogFault :=
  c.vocabulary.fault?.or (signalsFault? c.vocabulary [] c.signals)

/-- The catalog itself, if nothing is wrong with it. -/
def check (c : Catalog) : Except CatalogFault Catalog :=
  match c.fault? with
  | some fault => .error fault
  | none => .ok c

end Catalog

end Telltale

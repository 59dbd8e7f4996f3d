import Telltale.Expr

/-!
# Signals

A signal is a named, typed value that is computed from each frame by an expression.

* `Signal.conform` holds a computed value against the signal's declaration. It replaces an
  enumerated value by the declared one that is loosely equal to it, and lets zero and one stand for
  truth values.
* `Signal.defaultValue` is what the signal is when nothing can be computed.
-/

namespace Telltale

/-- The type of a signal. -/
inductive SignalType where
  | enum
  | bool
  | number
  | string
  | array
  deriving DecidableEq

namespace SignalType

/-- Every type, in the order of declaration. -/
def all : List SignalType := [.enum, .bool, .number, .string, .array]

/-- The name of a type. -/
def name : SignalType → String
  | .enum => "enum"
  | .bool => "bool"
  | .number => "number"
  | .string => "string"
  | .array => "array"

/-- The type of a name. -/
def ofName? (s : String) : Option SignalType := all.find? (·.name == s)

end SignalType

/-- A declared value of an enumerated signal, perhaps with a label for people. -/
structure EnumValue where
  value : Json
  label : Option String

/-- A signal. -/
structure Signal where
  id : String
  type : SignalType
  values : List EnumValue
  default : Option Json
  description : Option String
  expr : Expr

/-- What holding a value against a declaration comes to. -/
inductive Conformance where
  | accepted (value : Json)
  | undeclared (value : Json)
  | wrongType (value : Json)

namespace Signal

/-- The declared value that is loosely equal to a value, the first if there are several. -/
def declared? (s : Signal) (v : Json) : Option EnumValue := s.values.find? (·.value.looseEq v)

/-- Whether some declared value is loosely equal to a value. -/
def declares (s : Signal) (v : Json) : Bool := s.values.any (·.value.looseEq v)

/-- The label of a value, if it is declared with one. -/
def labelFor? (s : Signal) (v : Json) : Option String := (s.declared? v).bind (·.label)

/-- The value of a signal that cannot be computed: the declared default, or the first declared
value, or the simplest value of the type. -/
def defaultValue (s : Signal) : Json :=
  match s.default with
  | some v => v
  | none =>
    match s.type with
    | .enum => (s.values.head?.map (·.value)).getD .null
    | .bool => .bool false
    | .number => .number .zero
    | .string => .string ""
    | .array => .array []

/-- Holds a value against the type of truth values. -/
def conformBool : Json → Conformance
  | .bool b => .accepted (.bool b)
  | .number n =>
    if n.sameValue .zero then .accepted (.bool false)
    else if n.sameValue .one then .accepted (.bool true)
    else .wrongType (.number n)
  | v => .wrongType v

/-- Holds a value against the declaration. -/
def conform (s : Signal) (v : Json) : Conformance :=
  match s.type with
  | .enum =>
    match s.declared? v with
    | some d => .accepted d.value
    | none => .undeclared v
  | .bool => conformBool v
  | .number => if v.isNumber then .accepted v else .wrongType v
  | .string => if v.string?.isSome then .accepted v else .wrongType v
  | .array => if v.array?.isSome then .accepted v else .wrongType v

/-! ### Writing -/

/-- The value that documents write for a declared value. -/
def enumValueJson (v : EnumValue) : Json :=
  .object (("value", v.value) :: Expr.optionField "label" .string v.label)

/-- The value that documents write for a signal. Options that are not there, and an empty list of
declared values, are left out. -/
def toJson (s : Signal) : Json :=
  let values := if s.values.isEmpty then [] else [("values", .array (s.values.map enumValueJson))]
  .object (("id", .string s.id) :: ("type", .string s.type.name) :: (values ++
    Expr.optionField "default" (fun v => v) s.default ++
    Expr.optionField "description" .string s.description ++ [("derive", s.expr.toJson)]))

end Signal

end Telltale

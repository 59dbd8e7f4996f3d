import Telltale.Command

/-!
# Arguments

How a command line names a command: its words, and options that can stand anywhere between them.

* `Arguments.ofList?` reads a command line.
-/

namespace Telltale

/-- The words of a command line, its options with a value, and whether a value is asked for. -/
structure Words where
  plain : List String
  options : List (String × String)
  asJson : Bool

/-- The options that take a value. -/
def Words.valued : List String := ["--root", "--frame", "--at", "--actor"]

/-- Sorts the words of a command line. An option without its value makes no sense. -/
def Words.ofList? : List String → Option Words
  | [] => some ⟨[], [], false⟩
  | word :: rest =>
    if word == "--json" || word == "-j" then
      (ofList? rest).map fun w => { w with asJson := true }
    else if valued.contains word then
      match rest with
      | [] => none
      | value :: rest =>
        (ofList? rest).map fun w => { w with options := (word, value) :: w.options }
    else (ofList? rest).map fun w => { w with plain := word :: w.plain }

/-- The command that words name. -/
def Words.command? (w : Words) : Option Command :=
  match w.plain with
  | ["init"] => some .init
  | ["catalog", "validate"] => some .checkCatalog
  | ["catalog", "show"] => some .showCatalog
  | ["catalog", "show", id] => some (.showSignal id)
  | ["catalog", "events"] => some .listEvents
  | ["rules", "validate"] => some .checkRules
  | ["rules", "list"] => some .listRules
  | ["config", "validate"] => some .checkConfig
  | ["derive"] => (w.options.lookup "--frame").map (.derive · (w.options.lookup "--at"))
  | ["replay", path] => some (.replay path (w.options.lookup "--actor"))
  | _ => none

/-- What a command line asks for. -/
structure Arguments where
  root : Option String
  asJson : Bool
  command : Command

/-- Reads a command line. -/
def Arguments.ofList? (words : List String) : Option Arguments := do
  let w ← Words.ofList? words
  let command ← w.command?
  some ⟨w.options.lookup "--root", w.asJson, command⟩

/-- The forms of a command line. -/
def Arguments.usage : String :=
  Text.lines ["usage: flagdeck [--root DIR] [--json] COMMAND", "  init",
    "  catalog validate | show [ID] | events", "  rules validate | list", "  config validate",
    "  derive --frame FILE [--at TIME]", "  replay FILE [--actor ACTOR]"]

end Telltale

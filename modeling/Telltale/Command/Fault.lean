import Telltale.Project

/-!
# Failures of commands

Why a command fails, with its causes.

* `Fault` lists the failures.
* `Fault.chain` words one of them, the outermost cause first, and `Fault.message` does so in one
  line.
-/

namespace Telltale

/-- The formats whose texts can be malformed. -/
inductive Format where
  | json
  | yaml
  | timestamp
  deriving DecidableEq

/-- The wording of a text that is not in its format. -/
def Format.message : Format → String
  | .json => "the text is not JSON of the expected structure"
  | .yaml => "the text is not YAML of the expected structure"
  | .timestamp => "the text is not a timestamp"

/-- Why a command fails. -/
inductive Fault where
  | config (subject : String) (cause : ConfigFault)
  | catalog (subject : String) (cause : LoadFault CatalogFault)
  | rules (path : String) (cause : LoadFault RulesFault)
  | combiner (cause : MissingCombiner)
  | window (cause : Config.LongWindow)
  | unknownSignal (id : String)
  | frameFile (path : String) (cause : FileFault)
  | frameText (path : String)
  | time (text : String)
  | noTime
  | logFile (path : String) (cause : FileFault)
  | logLine (number : Nat) (cause : FileFault)
  | malformedLine (path : String) (number : Nat)
  | directory (path : String) (cause : FileFault)
  | page (name : String) (cause : FileFault)
  | unsound

/-- The wording of a configuration that cannot be had. -/
def ConfigFault.message (word : Format → String) : ConfigFault → String
  | .notInitialized => "not initialized: run 'flagdeck init'"
  | .file cause => cause.message
  | .malformed => word .yaml

/-- The wording of a document that cannot be had. -/
def LoadFault.message (word : Format → String) (document : String) (wording : ε → String) :
    LoadFault ε → String
  | .file cause => cause.message
  | .refused cause => cause.message document wording (word .yaml)

namespace Fault

/-- The wordings of a failure and of its causes, where malformed texts are worded by `word`. -/
def chain (word : Format → String) : Fault → List String
  | .config subject cause => ["failed to load " ++ subject, cause.message word]
  | .catalog subject cause =>
    ["failed to load " ++ subject, cause.message word "catalog" CatalogFault.message]
  | .rules path cause => ["failed to load " ++ path, cause.message word "rules" RulesFault.message]
  | .combiner cause => [cause.message]
  | .window cause => [cause.message]
  | .unknownSignal id => ["unknown signal '" ++ id ++ "'"]
  | .frameFile path cause => ["failed to read " ++ path, cause.message]
  | .frameText path => ["failed to parse frame in " ++ path, word .json]
  | .time text => ["--at '" ++ text ++ "' is not an RFC 3339 timestamp", word .timestamp]
  | .noTime => ["the frame has no timestamp: give one with --at"]
  | .logFile path cause => ["failed to open " ++ path, cause.message]
  | .logLine number cause => ["failed to read line " ++ toString number, cause.message]
  | .malformedLine path number =>
    [path ++ ":" ++ toString number ++ ": malformed frame", word .json]
  | .directory path cause => ["failed to create " ++ path, cause.message]
  | .page name cause => ["failed to write " ++ name, cause.message]
  | .unsound => ["config validation found errors"]

/-- The wording of a failure in one line. -/
def message (f : Fault) : String := ": ".intercalate (f.chain Format.message)

end Fault

end Telltale

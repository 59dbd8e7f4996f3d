import Telltale.Catalog.Report
import Telltale.Command.Run
import Telltale.Config.Report
import Telltale.Replay.Report
import Telltale.Rule.Report
import Telltale.Snapshot.Report

/-!
# Commands

What can be asked of a project from a command line. A command prints text, or a value where one is
asked for; when it fails, what it has printed stays printed.

* `Command` lists the commands.
* `Command.run` carries one out, and `Command.result` is what it has printed in the end, with the
  failure if there is one.
-/

namespace Telltale

/-- What can be asked of a project. -/
inductive Command where
  | init
  | checkCatalog
  | showCatalog
  | showSignal (id : String)
  | listEvents
  | checkRules
  | listRules
  | checkConfig
  | derive (path : String) (time : Option String)
  | replay (path : String) (actor : Option String)

namespace Command

variable {m : Type → Type} [Monad m] [FileSystem m]

/-! ### Loading -/

/-- The configuration of a directory, or the default one if it has none. -/
def configOrDefault (root : String) : Run m Config := do
  match ← (Project.loadConfig root : ExceptT ConfigFault m Config).run with
  | .ok c => return c
  | .error .notInitialized => return .default
  | .error e => throw (.config Config.fileName e)

/-- What a catalog is called in failures. -/
def catalogSubject (root : String) (c : Config) : String :=
  (c.catalogPath? root).getD "built-in catalog"

/-- The catalog of a configuration. -/
def catalogOf (root : String) (c : Config) : Run m Catalog :=
  Run.attempt (.catalog (catalogSubject root c)) (Project.loadCatalog root c)

/-- The rules of a configuration. -/
def rulesOf (root : String) (c : Config) (catalog : Catalog) : Run m RuleSet :=
  Run.attempt (.rules (c.rulesPath root)) (Project.loadRules root c catalog)

/-- The catalog, with no combiners registered. -/
def deriverOf (catalog : Catalog) : Run m Deriver :=
  Run.demand .combiner (Deriver.build catalog .absent)

/-! ### The commands one by one -/

/-- Adds a file to a new project and prints what came of it. -/
def addPage (root : String) (page : Project.Page) : Run m Unit := do
  let created ← Run.attempt (.page page.name) (Project.addPage root page : ExceptT FileFault m Bool)
  Run.print ((if created then "  created: " else "  exists:  ") ++ page.name ++ "\n")

/-- Makes a new project and keeps the files that are there. -/
def runInit (root : String) : Run m Unit := do
  Run.print ("Initializing flagdeck in: " ++ root ++ "\n")
  Run.attempt (.directory root) (FileSystem.makeDirectory root : ExceptT FileFault m Unit)
  Project.pages.forM (addPage root)
  Run.print ("\nNext: edit " ++ Config.rulesName ++ " and run 'flagdeck rules validate'.\n")

/-- Shows something of the catalog. -/
def withCatalog (root : String) (act : Catalog → Run m Unit) : Run m Unit := do
  let config ← configOrDefault root
  act (← catalogOf root config)

/-- Shows something of the rules. -/
def withRules (root : String) (act : List Rule → Run m Unit) : Run m Unit := do
  let config ← configOrDefault root
  let catalog ← catalogOf root config
  act (← rulesOf root config catalog).rules

/-- Shows one signal. -/
def showSignalOf (asJson : Bool) (id : String) (c : Catalog) : Run m Unit := do
  let s ← Run.need (.unknownSignal id) (c.get? id)
  Run.present asJson s.toJson s.report

/-- The catalog that a configuration is held against: the built-in one, if its own is missing. -/
def reviewCatalog (root : String) (c : Config) : Run m Catalog := do
  let missing ←
    match c.catalogPath? root with
    | some path => pure !(← (FileSystem.isThere path : m Bool))
    | none => pure false
  catalogOf root (if missing then { c with catalog := none } else c)

/-- Reviews the configuration and fails if some concern is an error. -/
def runCheckConfig (root : String) (asJson : Bool) : Run m Unit := do
  let load : ExceptT ConfigFault m Config := Project.loadConfig root
  let config ← Run.attempt (.config "config") load
  let catalog ← reviewCatalog root config
  let concerns ← (config.review root catalog : m (List Config.Concern))
  Run.present asJson (Config.concernsJson concerns) (Config.concernLines concerns)
  if !Config.isSound concerns then throw .unsound

/-- The time to derive at: the given one, or that of the frame. -/
def timeOf (given : Option String) (f : FrameFile) : Except Fault Timestamp :=
  match given, f.timestamp with
  | some text, _ =>
    match Timestamp.ofStrictText? text with
    | some t => .ok t
    | none => .error (.time text)
  | none, some t => .ok t
  | none, none => .error .noTime

/-- Derives all signals on the frame of a file. -/
def runDerive (root : String) (asJson : Bool) (path : String) (time : Option String) :
    Run m Unit := do
  let config ← configOrDefault root
  let catalog ← catalogOf root config
  let deriver ← deriverOf catalog
  let text ← Run.attempt (.frameFile path) (FileSystem.read path : ExceptT FileFault m String)
  let file ← Run.need (.frameText path) (FrameFile.ofText? text)
  let now ← MonadExcept.ofExcept (timeOf time file)
  let derived := deriver.derive (file.scene now)
  Run.present asJson derived.toJson (derived.text catalog)

/-- A session with the rules of a project. -/
def sessionOf (root : String) (config : Config) : Run m Session := do
  let catalog ← catalogOf root config
  let rules ← rulesOf root config catalog
  let deriver ← deriverOf catalog
  let window ← Run.demand .window config.window
  return .start deriver rules window

/-- How a replay fails at a malformed line. -/
def lineFault (path : String) (number : Nat) : LineFault → Fault
  | .notFrame => .malformedLine path number
  | .unreadable cause => .logLine number cause

/-- What is printed of a replay of a log. -/
def showReplay (asJson : Bool) (path : String) (r : Replay) (log : Log) : Run m Unit := do
  if !asJson then Run.print r.firingLines
  match log.malformed with
  | some (number, cause) => throw (lineFault path number cause)
  | none => Run.present asJson r.toJson r.summary

/-- Replays the log of a file. Lines that were read before one that cannot be read count. -/
def runReplay (root : String) (asJson : Bool) (path : String) (actor : Option String) :
    Run m Unit := do
  let config ← configOrDefault root
  let session ← sessionOf root config
  let load : ExceptT FileFault m (List (Except FileFault String)) := FileSystem.readLines path
  let log := Log.ofLines 1 (← Run.attempt (.logFile path) load)
  let replay := Replay.run (actor.getD config.defaultActor) (.start session) log
  showReplay asJson path replay log

/-- Carries out a command in the directory of a project. -/
def run (root : String) (asJson : Bool) : Command → Run m Unit
  | .init => runInit root
  | .checkCatalog => withCatalog root fun c => Run.present asJson c.verdictJson c.verdictText
  | .showCatalog => withCatalog root fun c => Run.present asJson c.signalsJson c.listing
  | .showSignal id => withCatalog root (showSignalOf asJson id)
  | .listEvents =>
    withCatalog root fun c => Run.present asJson c.eventsJson (Text.lines c.eventNames)
  | .checkRules =>
    withRules root fun rules => Run.present asJson (Rule.verdictJson rules) (Rule.verdictText rules)
  | .listRules =>
    withRules root fun rules => Run.present asJson (Rule.summariesJson rules) (Rule.listing rules)
  | .checkConfig => runCheckConfig root asJson
  | .derive path time => runDerive root asJson path time
  | .replay path actor => runReplay root asJson path actor

/-- What a command prints, and why it fails if it does. -/
def result (root : String) (asJson : Bool) (c : Command) : m (String × Option Fault) := do
  let (result, printed) ← ((c.run root asJson : Run m Unit).run).run ""
  match result with
  | .ok () => return (printed, none)
  | .error fault => return (printed, some fault)

end Command

end Telltale

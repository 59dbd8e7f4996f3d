import Telltale.Catalog
import Telltale.Decimal
import Telltale.FilePath
import Telltale.FileSystem
import Telltale.Session
import Telltale.Text.Blank

/-!
# Configurations

A project is a directory with a configuration, which says where its catalog and its rules are, how
long events are remembered, and to whom frames without an actor belong.

* `Config.default` is the configuration of a directory without one, `Config.scaffold` the one that
  new projects start with.
* `Config.window` is the time after which events are forgotten, as long as it can be counted in
  milliseconds.
* `Config.concerns` is what is doubtful about a configuration.
-/

namespace Telltale

/-- The configuration of a project. Paths are relative to its directory. -/
structure Config where
  version : Nat
  catalog : Option String
  rules : String
  windowSeconds : Nat
  defaultActor : String

namespace Config

/-- The name of the file with the configuration. -/
def fileName : String := "flagdeck.yaml"

/-- The name that the file with the catalog has in new projects. -/
def catalogName : String := "catalog.yaml"

/-- The name that the file with the rules has if nothing else is said. -/
def rulesName : String := "rules.yaml"

/-- The configuration of a directory without one, which takes the built-in catalog. -/
def default : Config := ⟨1, none, rulesName, Session.defaultWindowSeconds, "default"⟩

/-- The configuration of a new project, which has a catalog of its own. -/
def scaffold : Config := { default with catalog := some catalogName }

/-! ### Paths -/

/-- The file with the configuration of a directory. -/
def path (root : String) : String := FilePath.resolve root fileName

/-- The file with the catalog, unless it is the built-in one. -/
def catalogPath? (c : Config) (root : String) : Option String :=
  c.catalog.map (FilePath.resolve root)

/-- The file with the rules. -/
def rulesPath (c : Config) (root : String) : String := FilePath.resolve root c.rules

/-! ### The window -/

/-- The most seconds whose milliseconds are below `2 ^ 63`. -/
def maxWindowSeconds : Nat := 9223372036854775

/-- A window that is too long. -/
structure LongWindow where
  seconds : Nat

/-- The wording of a window that is too long. -/
def LongWindow.message (w : LongWindow) : String :=
  "malformed config document: recency_window_seconds " ++ toString w.seconds ++ " is out of range"

/-- The time, in nanoseconds, after which events are forgotten. -/
def window (c : Config) : Except LongWindow Int :=
  if c.windowSeconds ≤ maxWindowSeconds then .ok (Session.windowOfSeconds c.windowSeconds)
  else .error ⟨c.windowSeconds⟩

/-! ### Concerns -/

/-- What can be doubtful about a configuration. -/
inductive Concern where
  | noWindow
  | longWindow (w : LongWindow)
  | longBound (signal event : String) (bound : Double) (window : Nat)
  | missingCatalog (path : String)
  | missingRules (path : String)
  | blankActor

/-- How much a concern weighs. -/
inductive Weight where
  | warning
  | error
  deriving DecidableEq

/-- The name of a weight. -/
def Weight.name : Weight → String
  | .warning => "warning"
  | .error => "error"

namespace Concern

/-- The weight of a concern. -/
def weight : Concern → Weight
  | .noWindow | .longWindow _ | .missingCatalog _ | .missingRules _ => .error
  | .longBound .. | .blankActor => .warning

/-- The wording of a concern. -/
def message : Concern → String
  | .noWindow => "recency_window_seconds is 0: no discrete event would ever be recent"
  | .longWindow w => w.message
  | .longBound signal event bound window =>
    "signal '" ++ signal ++ "' checks '" ++ event ++ "' within " ++ Layout.plain.write bound ++
      "s but events are pruned after " ++ toString window ++ "s"
  | .missingCatalog path => "catalog file '" ++ path ++ "' does not exist"
  | .missingRules path => "rules file '" ++ path ++ "' does not exist"
  | .blankActor => "default_actor is empty; frames without an actor share one history"

end Concern

/-- A window of no length, or one that is too long. -/
def windowConcern? (c : Config) : Option Concern :=
  if c.windowSeconds = 0 then some .noWindow
  else
    match c.window with
    | .ok _ => none
    | .error w => some (.longWindow w)

/-- The double nearest to the number of seconds of the window. -/
def windowBound (c : Config) : Double := Double.ofInt c.windowSeconds

/-- An expression of a signal that asks for events longer ago than they are remembered. -/
def boundConcern? (c : Config) (signal : String) : Expr → Option Concern
  | .recent event (.finite bound) =>
    if bound.atMost c.windowBound then none
    else some (.longBound signal event bound c.windowSeconds)
  | _ => none

/-- What is doubtful about a configuration with a catalog, where a test tells whether there is
something at a path. -/
def concerns (c : Config) (root : String) (catalog : Catalog) (isThere : String → Bool) :
    List Concern :=
  let bounds := catalog.subterms.filterMap fun (signal, e) => c.boundConcern? signal e
  let missingCatalog := ((c.catalogPath? root).filter (!isThere ·)).map .missingCatalog
  let rules := c.rulesPath root
  let missingRules := if isThere rules then none else some (.missingRules rules)
  let blankActor := if Text.isBlankText c.defaultActor then some .blankActor else none
  c.windowConcern?.toList ++ bounds ++ missingCatalog.toList ++ missingRules.toList ++
    blankActor.toList

/-- What is doubtful about a configuration on the file system. -/
def review [Monad m] [FileSystem m] (c : Config) (root : String) (catalog : Catalog) :
    m (List Concern) := do
  let paths := c.rulesPath root :: (c.catalogPath? root).toList
  let present ← paths.filterM FileSystem.isThere
  return c.concerns root catalog present.contains

end Config

end Telltale

import Telltale.Catalog.Document
import Telltale.Config.Document
import Telltale.Rule.Document
import Telltale.Starter.Catalog
import Telltale.Starter.Rules

/-!
# Projects

The documents of a project, read from its directory.

* `Project.loadConfig`, `Project.loadCatalog` and `Project.loadRules` read them.
* `Project.scaffold` writes those of a new project, and keeps what is there.
* `Project.chooseRoot` is the directory of the project that a directory is in, unless one is given.
-/

namespace Telltale

/-- Why a document cannot be had: its file cannot be read, or it is refused. -/
inductive LoadFault (ε : Type) where
  | file (cause : FileFault)
  | refused (cause : Refusal ε)

/-- Why the configuration cannot be had. -/
inductive ConfigFault where
  | notInitialized
  | file (cause : FileFault)
  | malformed

namespace Project

variable {m : Type → Type} [Monad m] [FileSystem m]

/-! ### Reading -/

/-- The text of a file. -/
def readText (path : String) (fault : FileFault → ε) : ExceptT ε m String :=
  (FileSystem.read path).adapt fault

/-- The configuration of a directory. -/
def loadConfig (root : String) : ExceptT ConfigFault m Config := do
  if !(← (FileSystem.isThere (Config.path root) : m Bool)) then throw .notInitialized
  match Config.ofText? (← readText (Config.path root) .file) with
  | some c => return c
  | none => throw .malformed

/-- The catalog of a configuration. -/
def loadCatalog (root : String) (c : Config) : ExceptT (LoadFault CatalogFault) m Catalog := do
  let text ←
    match c.catalogPath? root with
    | some path => readText path .file
    | none => pure Starter.catalogText
  ExceptT.mk (pure ((Catalog.ofText text).mapError .refused))

/-- The rules of a configuration, under a catalog. -/
def loadRules (root : String) (c : Config) (catalog : Catalog) :
    ExceptT (LoadFault RulesFault) m RuleSet := do
  let text ← readText (c.rulesPath root) .file
  ExceptT.mk (pure (((Loader.start.load catalog text).map (·.1)).mapError .refused))

/-! ### Starting -/

/-- A file of a new project with its text. -/
structure Page where
  name : String
  text : String

/-- The files of a new project. -/
def pages : List Page :=
  [⟨Config.fileName, Config.scaffold.text⟩, ⟨Config.catalogName, Starter.catalogText⟩,
   ⟨Config.rulesName, Starter.rulesText⟩]

/-- Writes a file of a new project unless it is there, and tells whether it did. -/
def addPage (root : String) (page : Page) : ExceptT FileFault m Bool :=
  FileSystem.writeIfMissing (FilePath.resolve root page.name) page.text

/-! ### Finding -/

/-- The directory of the project that a directory is in: the nearest one upwards with a
configuration, or else the directory itself. -/
def findRoot (directory : String) : m String := do
  let places := (FilePath.ancestors directory).findM? fun place =>
    FileSystem.isFile (Config.path place)
  return (← places).getD directory

/-- The directory that commands work in: the given one, or that of the project around the current
directory. -/
def chooseRoot (given : Option String) (current : String) : m String :=
  match given with
  | some root => pure root
  | none => findRoot current

end Project

end Telltale

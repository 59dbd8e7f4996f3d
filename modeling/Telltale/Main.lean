import Telltale.Command.Arguments

/-!
# The command line

Commands on the real file system. Everything that they decide is decided elsewhere: here files are
read and written, and what was printed goes out.
-/

namespace Telltale

/-- The fault of a failed operation on a file. -/
def FileFault.ofError (path : String) : IO.Error → FileFault
  | .noFileOrDirectory .. => .notFound
  | .inappropriateType .. => if path.endsWith "/" then .notDirectory else .isDirectory
  | .alreadyExists .. => .alreadyExists
  | .resourceBusy .. => .busy
  | e => .other (toString e)

/-- An operation on a file, with its failure as a result. -/
def fileOperation (path : String) (act : IO α) : ExceptT FileFault IO α :=
  ExceptT.mk do
    match ← act.toBaseIO with
    | .ok a => return .ok a
    | .error e => return .error (.ofError path e)

/-- Whether an operation succeeds. -/
def succeeds (act : IO α) : IO Bool := do
  match ← act.toBaseIO with
  | .ok _ => return true
  | .error _ => return false

/-- Puts a text in place of a file at once, by way of a new file beside it. -/
def replaceFile (path text : String) : IO Unit := do
  let directory := FilePath.join (FilePath.parent (FilePath.segments path))
  if directory != "" then IO.FS.createDirAll directory
  let draft := path ++ ".new"
  IO.FS.writeFile draft text
  IO.FS.rename draft path

instance : FileSystem IO where
  isThere path := succeeds (IO.FS.realPath path)
  isFile path := succeeds (IO.FS.readBinFile path)
  readBytes path := fileOperation path (IO.FS.readBinFile path)
  makeDirectory path := fileOperation path (IO.FS.createDirAll path)
  write path text := fileOperation path (replaceFile path text)

/-- The directory that a command line gives, or else the environment. -/
def givenRoot (a : Arguments) : IO (Option String) := do
  match a.root with
  | some root => return some root
  | none => IO.getEnv "FLAGDECK_ROOT"

/-- Carries out what a command line asks for, and tells whether it worked. -/
def runArguments (a : Arguments) : IO Bool := do
  let current := (← IO.currentDir).toString
  let root ← Project.chooseRoot (← givenRoot a) current
  let (printed, fault) ← a.command.result root a.asJson
  IO.print printed
  match fault with
  | none => return true
  | some f =>
    IO.eprintln ("error: " ++ f.message)
    return false

end Telltale

/-- Runs the command of a command line. -/
def main (words : List String) : IO UInt32 := do
  match Telltale.Arguments.ofList? words with
  | some a => return if ← Telltale.runArguments a then 0 else 1
  | none =>
    IO.eprint Telltale.Arguments.usage
    return 2

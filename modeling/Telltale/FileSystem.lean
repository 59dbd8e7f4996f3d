import Telltale.Bytes

/-!
# File systems

What a program asks of the file system, and why it can be refused.

* `FileFault` lists the refusals, with the wording of the operating system.
* `FileSystem` is what a place where programs run offers.
* `FileSystem.read` reads a file as one text, and `FileSystem.readLines` reads it line by line.
-/

namespace Telltale

/-- Why a file cannot be read or written. -/
inductive FileFault where
  | notFound
  | notDirectory
  | isDirectory
  | alreadyExists
  | busy
  | nameTooLong
  | nulInPath
  | other (text : String)
  deriving DecidableEq

/-- The wording of a refusal. -/
def FileFault.message : FileFault → String
  | .notFound => "No such file or directory (os error 2)"
  | .notDirectory => "Not a directory (os error 20)"
  | .isDirectory => "Is a directory (os error 21)"
  | .alreadyExists => "File exists (os error 17)"
  | .busy => "Device or resource busy (os error 16)"
  | .nameTooLong => "File name too long (os error 36)"
  | .nulInPath => "file name contained an unexpected NUL byte"
  | .other text => text

/-- The refusal of bytes that are not UTF-8. -/
def FileFault.notText : FileFault := .other "stream did not contain valid UTF-8"

/-- The text of bytes. -/
def Bytes.text (bytes : ByteArray) : Except FileFault String :=
  match String.fromUTF8? bytes with
  | some text => .ok text
  | none => .error .notText

/-- The lines of bytes. Each of them is a text or is none, whatever the others are. -/
def Bytes.lines (bytes : ByteArray) : List (Except FileFault String) :=
  (rows bytes).map fun row => (text row.toByteArray).map withoutLineEnd

/-- The operations on files that programs need. `write` puts a whole text in place at once, and
makes the directories that the file is in. -/
class FileSystem (m : Type → Type) where
  isThere : String → m Bool
  isFile : String → m Bool
  readBytes : String → ExceptT FileFault m ByteArray
  makeDirectory : String → ExceptT FileFault m Unit
  write : String → String → ExceptT FileFault m Unit

namespace FileSystem

variable {m : Type → Type} [Monad m] [FileSystem m]

/-- The text of a file. -/
def read (path : String) : ExceptT FileFault m String :=
  ExceptT.mk ((·.bind Bytes.text) <$> (readBytes path).run)

/-- The lines of a file that was opened. A directory can be opened, but has no first line. -/
def linesOf : Except FileFault ByteArray → Except FileFault (List (Except FileFault String))
  | .ok bytes => .ok (Bytes.lines bytes)
  | .error .isDirectory => .ok [.error .isDirectory]
  | .error cause => .error cause

/-- The lines of a file, each of which may fail to be read. -/
def readLines (path : String) : ExceptT FileFault m (List (Except FileFault String)) :=
  ExceptT.mk (linesOf <$> (readBytes path).run)

/-- Writes a file unless something has its name, and tells whether it did. -/
def writeIfMissing (path text : String) : ExceptT FileFault m Bool := do
  if ← (isThere path : m Bool) then return false
  write path text
  return true

end FileSystem

end Telltale

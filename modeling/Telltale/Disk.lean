import Telltale.FilePath
import Telltale.FileSystem

/-!
# Disks in memory

A file system that is a value: places, each of them a file or a directory. Paths are followed part
by part, so that every part but the last has to be a directory.

* `Disk.locate` is the place of a path.
* The instance of `FileSystem` for programs with a disk as their state offers everything else.
-/

namespace Telltale

/-- What a place on a disk holds. -/
inductive DiskItem where
  | file (bytes : ByteArray)
  | directory

/-- A file that holds a text. -/
def DiskItem.textFile (text : String) : DiskItem := .file text.toUTF8

/-- A disk: what there is at each place below the top directory. A place is given by the names on
the way to it. -/
structure Disk where
  items : List (List String × DiskItem)

namespace Disk

/-- The greatest length of a name, in bytes. -/
def maxNameSize : Nat := 255

/-- A disk with nothing but the top directory. -/
def empty : Disk := ⟨[]⟩

/-! ### Finding -/

/-- What there is at a place. -/
def item? (d : Disk) : List String → Option DiskItem
  | [] => some .directory
  | place => d.items.lookup place

/-- Refuses a place that is no directory. -/
def needDirectory (d : Disk) (place : List String) : Except FileFault Unit :=
  match d.item? place with
  | some .directory => .ok ()
  | some (.file _) => .error .notDirectory
  | none => .error .notFound

/-- The place that a part of a path leads to from another one. -/
def enter (d : Disk) (place : List String) (segment : String) : Except FileFault (List String) := do
  d.needDirectory place
  if FilePath.isIdle segment then .ok place
  else if segment == ".." then .ok place.dropLast
  else if maxNameSize < segment.utf8ByteSize then .error .nameTooLong
  else .ok (place ++ [segment])

/-- The place of a path, whether there is something or not. -/
def locate (d : Disk) (path : String) : Except FileFault (List String) :=
  if path.toList.contains '\x00' then .error .nulInPath
  else if path == "" then .error .notFound
  else (FilePath.segments path).foldlM d.enter []

/-- What there is at a path. -/
def find (d : Disk) (path : String) : Except FileFault DiskItem := do
  match d.item? (← d.locate path) with
  | some item => .ok item
  | none => .error .notFound

/-- Whether there is something at a path. -/
def isThere (d : Disk) (path : String) : Bool := (d.find path).isOk

/-- Whether there is a file at a path. -/
def isFile (d : Disk) (path : String) : Bool :=
  match d.find path with
  | .ok (.file _) => true
  | _ => false

/-- The bytes of a file. -/
def readBytes (d : Disk) (path : String) : Except FileFault ByteArray := do
  match ← d.find path with
  | .file bytes => .ok bytes
  | .directory => .error .isDirectory

/-- The text of a file. -/
def read (d : Disk) (path : String) : Except FileFault String :=
  (d.readBytes path).bind Bytes.text

/-! ### Changing -/

/-- Puts something at a place. -/
def put (d : Disk) (place : List String) (item : DiskItem) : Disk :=
  ⟨(place, item) :: d.items.filter (·.1 ≠ place)⟩

/-- Follows the parts of a path and makes the directories that are missing. Those that were made
before a refusal stay. -/
def makePath (place : List String) : List String → Disk → Except FileFault (List String) × Disk
  | [], d => (.ok place, d)
  | segment :: rest, d =>
    match d.enter place segment with
    | .error e => (.error e, d)
    | .ok next =>
      match d.item? next with
      | some .directory => makePath next rest d
      | some (.file _) =>
        (.error (if rest.all (· == "") then .alreadyExists else .notDirectory), d)
      | none => makePath next rest (d.put next .directory)

/-- Makes a directory and those that it is in. -/
def makeDirectory (segments : List String) (d : Disk) : Except FileFault Unit × Disk :=
  let (result, d) := makePath [] segments d
  (result.map fun _ => (), d)

/-- Puts a text in place of the file at a path whose parent is there. -/
def replace (d : Disk) (path text : String) : Except FileFault Disk := do
  let last := (FilePath.segments path).getLast?
  if last == some "" then .error .notDirectory
  let place ← d.locate path
  if last == some "." || last == some ".." then .error .busy
  match d.item? place with
  | some .directory => .error .isDirectory
  | _ => .ok (d.put place (.textFile text))

/-- Writes a file and makes the directories that it is in. -/
def write (path text : String) (d : Disk) : Except FileFault Unit × Disk :=
  if path.toList.contains '\x00' then (.error .nulInPath, d)
  else
    match makeDirectory (FilePath.parent (FilePath.segments path)) d with
    | (.error e, d) => (.error e, d)
    | (.ok _, d) =>
      match d.replace path text with
      | .error e => (.error e, d)
      | .ok d => (.ok (), d)

/-- The files that hold texts, with their texts. -/
def files (d : Disk) : List (List String × String) :=
  d.items.filterMap fun (place, item) =>
    match item with
    | .file bytes => (String.fromUTF8? bytes).map fun text => (place, text)
    | .directory => none

end Disk

/-- The bytes of a file on the disk. -/
def readDisk (path : String) : ExceptT FileFault (StateM Disk) ByteArray :=
  ExceptT.mk (return (← get).readBytes path)

instance : FileSystem (StateM Disk) where
  isThere path := return (← get).isThere path
  isFile path := return (← get).isFile path
  readBytes := readDisk
  makeDirectory path := ExceptT.mk (modifyGet (Disk.makeDirectory (FilePath.segments path)))
  write path text := ExceptT.mk (modifyGet (Disk.write path text))

end Telltale

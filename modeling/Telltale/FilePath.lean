/-!
# File paths

Paths as texts, with a slash between their parts.

* `resolve` is the path that a text stands for in a directory.
* `segments`, `parent` and `ancestors` take a path apart.
-/

namespace Telltale.FilePath

/-- Whether a path starts at the root of the file system. -/
def isAbsolute (path : String) : Bool := path.toList.head? == some '/'

/-- The path below a directory; a path from the root of the file system stays as it is. -/
def resolve (directory path : String) : String :=
  if isAbsolute path || directory == "" then path
  else if directory.toList.getLast? == some '/' then directory ++ path
  else directory ++ "/" ++ path

/-- The parts of a list of characters between slashes. -/
def splitSlashes : List Char → List (List Char)
  | [] => [[]]
  | c :: rest =>
    if c = '/' then [] :: splitSlashes rest
    else
      match splitSlashes rest with
      | [] => [[c]]
      | part :: parts => (c :: part) :: parts

/-- The parts of a path between slashes. -/
def segments (path : String) : List String := (splitSlashes path.toList).map String.ofList

/-- Whether a part of a path leads nowhere else. -/
def isIdle (segment : String) : Bool := segment == "" || segment == "."

/-- The parts of a path without its last one and the idle ones after it. -/
def parent (segments : List String) : List String :=
  ((segments.reverse.dropWhile isIdle).drop 1).reverse

/-- The path of parts; the top of the file system is a slash. -/
def join (segments : List String) : String :=
  if segments == [""] then "/" else "/".intercalate segments

/-- What a list starts with, the whole list first, without the empty list. -/
def starts : List String → List (List String)
  | [] => []
  | segment :: rest => (starts rest).map (segment :: ·) ++ [[segment]]

/-- A directory and those that it is in, the nearest one first. -/
def ancestors (path : String) : List String := (starts (segments path)).map join

end Telltale.FilePath

import Telltale.Yaml.Lexer

/-!
# YAML trees

The tokens of a document put together: scalars, sequences, mappings and aliases.

Anchors are told apart by a number: how many distinct names there were before. An anchor that takes
a name again therefore may share its number with the next new name, and then the later of the two is
what aliases of either stand for. Aliases are resolved when the document is complete.

* `Tree.ofText?` reads a text that holds one document, or none.
-/

namespace Telltale.Yaml

/-- A scalar with its tag. -/
structure Scalar where
  text : String
  style : Style
  tag : Option String
  deriving DecidableEq

/-- The empty plain scalar, which stands for everything that is left out. -/
def Scalar.empty : Scalar := ⟨"", .plain, none⟩

/-- A part of a document in which aliases still stand for themselves. -/
inductive Tree where
  | scalar (s : Scalar)
  | sequence (tag : Option String) (items : List Tree)
  | mapping (tag : Option String) (entries : List (Tree × Tree))
  | alias (anchor : Nat)
  | unreadable

instance : Inhabited Tree := ⟨.unreadable⟩

/-! ### Building -/

/-- What building a tree keeps track of: the tokens left, the expansions of tag handles, the numbers
of anchor names, which anchored part each number stands for, how many parts were anchored, and the
parts that are complete. -/
structure Building where
  tokens : List Token
  handles : List (String × String)
  names : List (String × Nat)
  anchored : List (Nat × Nat)
  count : Nat
  complete : List (Nat × Tree)

/-- A step of building a tree. -/
abbrev Build := StateT Building Option

namespace Build

/-- The next token, left in place; nothing at the end. -/
def peek : Build (Option Token) := do return (← get).tokens.head?

/-- Takes the next token. -/
def skip : Build Unit := modify fun b => { b with tokens := b.tokens.tail }

/-- Takes a token that has to come next. -/
def expect (t : Token) : Build Unit := do
  if (← peek) == some t then skip else failure

/-- Whether one of some tokens comes next. -/
def nextIn (ts : List Token) : Build Bool := do
  return (← peek).any fun t => ts.contains t

/-- The tag that a handle and a suffix make. -/
def resolveTag (handle suffix : String) : Build String := do
  if handle == "" then return suffix
  else
    match (← get).handles.lookup handle with
    | some expansion => return expansion ++ suffix
    | none => failure

/-- The anchor and the tag in front of a part, in either order. -/
def properties : Build (Option String × Option String) := do
  match ← peek with
  | some (.anchor name) =>
    skip
    match ← peek with
    | some (.tag handle suffix) => skip; return (some name, some (← resolveTag handle suffix))
    | _ => return (some name, none)
  | some (.tag handle suffix) =>
    skip
    match ← peek with
    | some (.anchor name) => skip; return (some name, some (← resolveTag handle suffix))
    | _ => return (none, some (← resolveTag handle suffix))
  | _ => return (none, none)

/-- Notes the start of an anchored part, and gives its place among them. -/
def startAnchor (name : Option String) : Build (Option Nat) := do
  match name with
  | none => return none
  | some name =>
    let b ← get
    let number := b.names.length
    set { b with
      names := (name, number) :: b.names.filter (·.1 != name)
      anchored := (number, b.count) :: b.anchored
      count := b.count + 1 }
    return some b.count

/-- Notes the end of an anchored part. -/
def finishAnchor (place : Option Nat) (t : Tree) : Build Tree := do
  match place with
  | none => return t
  | some n =>
    modify fun b => { b with complete := (n, t) :: b.complete }
    return t

/-- The part that an alias stands for, which has to be anchored before. An alias inside its own part
cannot be read. -/
def aliasOf (name : String) : Build Tree := do
  let b ← get
  match b.names.lookup name with
  | none => failure
  | some number =>
    match b.anchored.lookup number with
    | none => failure
    | some place =>
      return if (b.complete.lookup place).isSome then .alias number else .unreadable

/-- The tag of a scalar with a text. An exclamation mark alone says nothing there. -/
def scalarTag (tag : Option String) : Option String := tag.filter (· != "!")

mutual

/-- A part of a document. In a block context it may be a block collection, and as the value of a
block mapping a sequence whose dashes stand at the column of its key. -/
def node (fuel : Nat) (block indentless : Bool) : Build Tree := do
  match fuel with
  | 0 => failure
  | n + 1 =>
    match ← peek with
    | some (.alias name) => skip; aliasOf name
    | _ =>
      let (anchor, tag) ← properties
      let place ← startAnchor anchor
      match ← peek with
      | some .dash =>
        if indentless then finishAnchor place (.sequence tag (← dashes n false)) else
        if anchor.isSome || tag.isSome then finishAnchor place (.scalar ⟨"", .plain, tag⟩)
        else failure
      | some (.scalar text style) =>
        skip
        finishAnchor place (.scalar ⟨text, style, scalarTag tag⟩)
      | some .openSequence => skip; finishAnchor place (.sequence tag (← flowItems n true))
      | some .openMapping => skip; finishAnchor place (.mapping tag (← flowEntries n true))
      | t =>
        if block && t == some .blockSequence then
          skip
          finishAnchor place (.sequence tag (← dashes n true))
        else if block && t == some .blockMapping then
          skip
          finishAnchor place (.mapping tag (← blockEntries n))
        else if anchor.isSome || tag.isSome then finishAnchor place (.scalar ⟨"", .plain, tag⟩)
        else failure

/-- A part, or the empty scalar when one of some tokens comes next. -/
def nodeUnless (fuel : Nat) (block indentless : Bool) (ends : List Token) : Build Tree := do
  match fuel with
  | 0 => failure
  | n + 1 => if ← nextIn ends then return .scalar .empty else node n block indentless

/-- The items of a block sequence, each after a dash. A sequence of its own ends with its block, and
one at the column of a key where no dash follows. -/
def dashes (fuel : Nat) (closed : Bool) : Build (List Tree) := do
  match fuel with
  | 0 => failure
  | n + 1 =>
    if ← nextIn [.dash] then
      skip
      let ends := if closed then [.dash, .blockEnd] else [.dash, .key, .value, .blockEnd]
      let first ← nodeUnless n true false ends
      return first :: (← dashes n closed)
    else if closed then expect .blockEnd; return []
    else return []

/-- The entries of a block mapping. -/
def blockEntries (fuel : Nat) : Build (List (Tree × Tree)) := do
  match fuel with
  | 0 => failure
  | n + 1 =>
    if ← nextIn [.blockEnd] then skip; return []
    else
      expect .key
      let key ← nodeUnless n true true [.key, .value, .blockEnd]
      let value ←
        if ← nextIn [.value] then
          skip
          nodeUnless n true true [.key, .value, .blockEnd]
        else pure (.scalar .empty)
      return (key, value) :: (← blockEntries n)

/-- The items of a flow sequence up to its end. An item after a question mark, or with a colon in
it, is a mapping of one entry. -/
def flowItems (fuel : Nat) (first : Bool) : Build (List Tree) := do
  match fuel with
  | 0 => failure
  | n + 1 =>
    if ← nextIn [.closeSequence] then skip; return []
    else
      unless first do expect .comma
      if ← nextIn [.closeSequence] then skip; return []
      else if ← nextIn [.key] then
        skip
        let item ← flowPair n
        return item :: (← flowItems n false)
      else
        let item ← node n false false
        return item :: (← flowItems n false)

/-- The mapping of one entry that is an item of a flow sequence. A key that is left out takes the
token after the question mark with it. -/
def flowPair (fuel : Nat) : Build Tree := do
  match fuel with
  | 0 => failure
  | n + 1 =>
    let key ←
      if ← nextIn [.value, .comma, .closeSequence] then skip; pure (.scalar .empty)
      else node n false false
    let value ←
      if ← nextIn [.value] then
        skip
        nodeUnless n false false [.comma, .closeSequence]
      else pure (.scalar .empty)
    return .mapping none [(key, value)]

/-- The entries of a flow mapping up to its end. A key without a colon has the empty value. -/
def flowEntries (fuel : Nat) (first : Bool) : Build (List (Tree × Tree)) := do
  match fuel with
  | 0 => failure
  | n + 1 =>
    if ← nextIn [.closeMapping] then skip; return []
    else
      unless first do expect .comma
      if ← nextIn [.closeMapping] then skip; return []
      else if ← nextIn [.key] then
        skip
        let key ← nodeUnless n false false [.value, .comma, .closeMapping]
        let value ←
          if ← nextIn [.value] then
            skip
            nodeUnless n false false [.comma, .closeMapping]
          else pure (.scalar .empty)
        return (key, value) :: (← flowEntries n false)
      else
        let key ← node n false false
        return (key, .scalar .empty) :: (← flowEntries n false)

end

/-! ### Documents -/

/-- The expansions that every document has. -/
def standardHandles : List (String × String) := [("!", "!"), ("!!", "tag:yaml.org,2002:")]

/-- The directives before a document: at most one version, which is 1.1 or 1.2, and handles of tags,
each once. -/
def directives (fuel : Nat) (versionSeen : Bool) (handles : List (String × String)) :
    Build (Bool × List (String × String)) := do
  match fuel with
  | 0 => failure
  | n + 1 =>
    match ← peek with
    | some (.version major minor) =>
      if versionSeen || major != 1 || (minor != 1 && minor != 2) then failure
      else skip; directives n true handles
    | some (.tagDirective handle expansion) =>
      if (handles.lookup handle).isSome then failure
      else skip; directives n versionSeen ((handle, expansion) :: handles)
    | _ => return (versionSeen, handles)

/-- Passes over the marks of a document's end. -/
def skipEnds (fuel : Nat) : Build Unit := do
  match fuel with
  | 0 => return
  | n + 1 => if ← nextIn [.documentEnd] then skip; skipEnds n

/-- The only document of a text. Without any, it is the empty scalar. -/
def document (fuel : Nat) : Build Tree := do
  if (← peek).isNone then return .scalar .empty
  else
    let (versionSeen, handles) ← directives fuel false []
    let explicit ← nextIn [.documentStart]
    if (versionSeen || !handles.isEmpty) && !explicit then failure
    else
      modify fun b =>
        { b with handles := handles ++ standardHandles }
      if explicit then skip
      let t ←
        if explicit then do
          let empty ← nextIn [.documentEnd, .documentStart]
          let directive := (← peek).any fun
            | .version .. | .tagDirective .. => true
            | _ => false
          if empty || directive || (← peek).isNone then pure (.scalar .empty)
          else node fuel true false
        else node fuel true false
      skipEnds fuel
      if (← peek).isNone then return t else failure

end Build

/-- The tree of a text with at most one document, and which part each anchor's number stands for. -/
def Tree.ofText? (s : String) : Option (Tree × (Nat → Option Tree)) := do
  let tokens ← Token.ofText? s
  let (t, b) ← (Build.document (4 * tokens.length + 8)).run ⟨tokens, [], [], [], 0, []⟩
  some (t, fun number => (b.anchored.lookup number).bind fun place => b.complete.lookup place)

end Telltale.Yaml

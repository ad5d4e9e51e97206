/-
  File:      ComponentContainer/Environment/File.lean
  Subject:   Files with variables, one a line.

  A line is `name=value`, perhaps with `export` in front; empty lines and lines that begin with `#`
  say nothing. In a value, single quotes keep everything, double quotes keep all but `$` and the
  backslash, and outside of quotes a blank ends the value, with room for a comment behind it.
  `$name` and `${name}` stand for a variable of the environment or of an earlier line.

  * `Value`, `Value.step` -- reading a value, character by character.
  * `readLine` -- a line.
  * `Environment.load` -- takes over the lines up to the first that is wrong. A variable that is
    there is left alone.
-/
import ComponentContainer.Environment
import ComponentContainer.Text.Alphanumeric
import ComponentContainer.Text.Blank
import ComponentContainer.Text.Pieces

namespace ComponentContainer.Environment

/-! ## 1. Values -/

/-- Where in a value the reading is. -/
inductive Mode where
  | plain
  | single
  | double
  /-- Behind a blank: only blanks and a comment may follow. -/
  | behind
  /-- In a comment. -/
  | comment
  deriving DecidableEq

/-- The name of a variable that is being read. -/
inductive Reference where
  | none
  /-- After `$`. -/
  | open (name : List Char)
  /-- After `${`. -/
  | braced (name : List Char)

/-- A value that is being read; names and text are kept in reverse. -/
structure Value where
  mode : Mode := .plain
  escaped : Bool := false
  reference : Reference := .none
  text : List Char := []

/-- A look-up of variables; an unknown one stands for nothing. -/
abbrev Lookup := String → String

namespace Value

/-- Adds a text. -/
def add (v : Value) (s : String) : Value := { v with text := s.toList.reverse ++ v.text }

/-- Adds a character. -/
def push (v : Value) (c : Char) : Value := { v with text := c :: v.text }

/-- Adds the value of the variable whose name has been read. -/
def resolve (lookup : Lookup) (v : Value) (name : List Char) : Value :=
  { v.add (lookup (String.ofList name.reverse)) with reference := .none }

/-- An escaped character; few can be escaped. -/
def stepEscaped (v : Value) (c : Char) : Option Value :=
  let v := { v with escaped := false }
  if c = 'n' then some (v.push '\n')
  else if c ∈ ['\\', '\'', '"', '$', ' '] then some (v.push c)
  else none

/-- A character outside of references and escapes. -/
def stepMode (v : Value) (c : Char) : Value :=
  match v.mode with
  | .single => if c = '\'' then { v with mode := .plain } else v.push c
  | mode =>
    if c = '$' then { v with reference := .open [] }
    else if c = '\\' then { v with escaped := true }
    else if mode = .double then
      if c = '"' then { v with mode := .plain } else v.push c
    else if c = '\'' then { v with mode := .single }
    else if c = '"' then { v with mode := .double }
    else if c = ' ' || c = '\t' then { v with mode := .behind }
    else v.push c

/-- One more character; `none` if it has no place there. -/
def step (lookup : Lookup) (v : Value) (c : Char) : Option Value :=
  match v.mode with
  | .comment => some v
  | .behind =>
    if c = ' ' || c = '\t' then some v
    else if c = '#' then some { v with mode := .comment }
    else none
  | _ =>
    if v.escaped then v.stepEscaped c
    else if v.mode = .single then some (v.stepMode c)
    else match v.reference with
      | .none => some (v.stepMode c)
      | .open name =>
        if Text.isAlphanumeric c then some { v with reference := .open (c :: name) }
        else if c = '\x7b' && name.isEmpty then some { v with reference := .braced [] }
        else
          let v := v.resolve lookup name
          if c = '$' then some { v with reference := .open [] } else some (v.push c)
      | .braced name =>
        if Text.isAlphanumeric c || c ≠ '\x7d' then
          some { v with reference := .braced (c :: name) }
        else some (v.resolve lookup name)

/-- The value at the end of its line; an open quote or brace has no end. -/
def finish (lookup : Lookup) (v : Value) : Option String :=
  if v.mode = .single ∨ v.mode = .double then none
  else match v.reference with
    | .braced _ => none
    | .open name => some (String.ofList (v.resolve lookup name).text.reverse)
    | .none => some (String.ofList (v.add (lookup "")).text.reverse)

/-- Reads a value. -/
def read (lookup : Lookup) (cs : List Char) : Option String := do
  (← cs.foldlM (step lookup) {}).finish lookup

end Value

/-! ## 2. Lines -/

/-- A letter or an underscore. -/
def startsName (c : Char) : Bool := c.isAlpha || c = '_'

/-- A character of a name behind the first. -/
def isNameChar (c : Char) : Bool := c.isAlphanum || c = '_' || c = '.'

/-- A name and what is left. -/
def readName : List Char → Option (String × List Char)
  | [] => none
  | c :: rest =>
    if startsName c then
      some (String.ofList ((c :: rest).takeWhile isNameChar), (c :: rest).dropWhile isNameChar)
    else none

/-- What is left after the equals sign. -/
def afterEquals : List Char → Option (List Char)
  | '=' :: rest => some rest
  | _ => none

/-- The name in front of a value, with or without `export`, which may be a name itself. -/
def readHead (cs : List Char) : Option (String × List Char) := do
  let (name, rest) ← readName cs
  let rest := Text.dropBlanks rest
  match afterEquals rest with
  | some value => return (name, value)
  | none =>
    if name ≠ "export" then none
    else
      let (name, rest) ← readName rest
      return (name, ← afterEquals (Text.dropBlanks rest))

/-- Nothing, or a comment. -/
def saysNothing : List Char → Bool
  | [] => true
  | c :: _ => c = '#'

/-- A line: nothing, or a name with its value; `none` if it is wrong. -/
def readLine (lookup : Lookup) (line : String) : Option (Option (String × String)) :=
  let cs := Text.dropBlanks (Text.trimEnd line).toList
  if saysNothing cs then some none
  else do
    let (name, rest) ← readHead cs
    let rest := Text.dropBlanks rest
    if saysNothing rest then return some (name, "")
    else return some (name, ← Value.read lookup rest)

/-! ## 3. Files -/

/-- The lines of a file; a last line without text does not count, and a carriage return belongs to
    the end of its line. -/
def linesOf (file : String) : List String :=
  let pieces := Text.splitOn '\n' file.toList
  let pieces := if pieces.getLast? = some [] then pieces.dropLast else pieces
  pieces.map String.ofList

/-- Takes over lines: the environment, and whether all were right. The table holds what earlier
    lines have said. -/
def loadLines (e : Environment) (said : Table String) : List String → Environment × Bool
  | [] => (e, true)
  | line :: rest =>
    let lookup : Lookup := fun name =>
      match e.text? name with
      | some value => value
      | none => (said.find? name).getD ""
    match readLine lookup line with
    | none => (e, false)
    | some none => loadLines e said rest
    | some (some (name, value)) =>
      let e := if (e.text? name).isSome then e else e.setText name value
      loadLines e (said.set name value) rest

/-- Takes over a file: the environment, and whether all its lines were right. -/
def load (e : Environment) (file : String) : Environment × Bool :=
  loadLines e .empty (linesOf file)

/-- A look-up of files by their names. -/
abbrev Files := String → Option String

/-- Takes over the file of a profile; if it is missing or wrong, the common file `.env` as well. -/
def loadProfile (e : Environment) (profile : String) (files : Files) : Environment :=
  let common (e : Environment) : Environment :=
    match files ".env" with
    | some file => (e.load file).1
    | none => e
  match files profile with
  | none => common e
  | some file =>
    match e.load file with
    | (e, true) => e
    | (e, false) => common e

end ComponentContainer.Environment

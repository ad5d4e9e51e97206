/-
  File:      ComponentContainer/Text/Pieces.lean
  Subject:   Cutting texts.

  * `splitOn` -- the pieces between the occurrences of one character.
  * `patterns` -- the pieces between commas, trimmed, blank ones dropped.
  * `lastSegment?` -- what follows the last path separator `::`.
  * `shortName` -- the last segment of a qualified name; the separators inside the angle brackets
    of its arguments do not count, and the arguments stay.
-/
import ComponentContainer.Text.Blank

namespace ComponentContainer.Text

/-! ## 1. Pieces between separators -/

/-- The pieces between the occurrences of `sep`; there is one more piece than there are
    separators. -/
def splitOn (sep : Char) : List Char → List (List Char)
  | [] => [[]]
  | c :: rest =>
    match splitOn sep rest with
    | [] => [[]]
    | piece :: pieces => if c = sep then [] :: piece :: pieces else (c :: piece) :: pieces

/-- A comma-separated list of patterns: the pieces trimmed, the blank ones dropped. -/
def patterns (s : String) : List String :=
  ((splitOn ',' s.toList).map fun piece => trim (String.ofList piece)).filter (!isBlank ·)

/-! ## 2. Qualified names -/

/-- What follows the last `::`, if there is one. -/
def lastSegment? : List Char → Option (List Char)
  | [] => none
  | c :: rest =>
    match lastSegment? rest with
    | some found => some found
    | none =>
      match c, rest with
      | ':', ':' :: after => some after
      | _, _ => none

/-- The last segment of a name, the whole name if it has no `::`. -/
def lastSegment (s : String) : String :=
  match lastSegment? s.toList with
  | some found => String.ofList found
  | none => s

/-- A qualified name without its path: the separators before the first `<` count, what follows
    stays as it is. -/
def shortName (s : String) : String :=
  let path := s.toList.takeWhile (· != '<')
  match lastSegment? path with
  | some found => String.ofList (found ++ s.toList.dropWhile (· != '<'))
  | none => s

end ComponentContainer.Text

/-
  File:      ComponentContainer/Json.lean
  Subject:   JSON values and their texts.

  * `Json` -- texts, natural numbers, lists, and objects with their members in order: all that is
    ever written here.
  * `Json.escapeChar`, `Json.quote` -- a text as a JSON string: the quotation mark, the backslash
    and the controls below the space are escaped, everything else stands for itself.
  * `Json.compact` -- without any space; `Json.pretty` -- one member or element a line, two spaces
    a level.
-/
namespace ComponentContainer

/-- JSON values. -/
inductive Json where
  | text (value : String)
  | number (value : Nat)
  | array (elements : List Json)
  | object (members : List (String × Json))

namespace Json

/-! ## 1. Texts -/

/-- A digit to base sixteen. -/
def hexDigit (n : Nat) : Char := "0123456789abcdef".toList.getD n '0'

/-- One character of a JSON string. -/
def escapeChar (c : Char) : List Char :=
  if c = '"' then ['\\', '"']
  else if c = '\\' then ['\\', '\\']
  else if c = '\x08' then ['\\', 'b']
  else if c = '\x0c' then ['\\', 'f']
  else if c = '\n' then ['\\', 'n']
  else if c = '\r' then ['\\', 'r']
  else if c = '\t' then ['\\', 't']
  else if c.toNat < 0x20 then
    ['\\', 'u', '0', '0', hexDigit (c.toNat / 16), hexDigit (c.toNat % 16)]
  else [c]

/-- The characters of a text as a JSON string, after the opening quotation mark. -/
def quoteChars (cs : List Char) : List Char := cs.flatMap escapeChar ++ ['"']

/-- A text as a JSON string. -/
def quote (s : String) : String := String.ofList ('"' :: quoteChars s.toList)

/-! ## 2. Values -/

mutual

/-- A value without any space. -/
def compact : Json → String
  | .text s => quote s
  | .number n => toString n
  | .array elements => "[" ++ ",".intercalate (compactAll elements) ++ "]"
  | .object members => "\x7b" ++ ",".intercalate (compactMembers members) ++ "\x7d"

def compactAll : List Json → List String
  | [] => []
  | v :: rest => compact v :: compactAll rest

def compactMembers : List (String × Json) → List String
  | [] => []
  | (k, v) :: rest => (quote k ++ ":" ++ compact v) :: compactMembers rest

end

/-- The lines between two brackets, a level deeper. -/
def block (opening closing : String) (level : Nat) (lines : List String) : String :=
  if lines.isEmpty then opening ++ closing
  else
    let margin := String.ofList (List.replicate (2 * (level + 1)) ' ')
    opening ++ "\n" ++ ",\n".intercalate (lines.map (margin ++ ·)) ++ "\n" ++
      String.ofList (List.replicate (2 * level) ' ') ++ closing

mutual

/-- A value over several lines; the first is not indented. -/
def prettyAt (level : Nat) : Json → String
  | .text s => quote s
  | .number n => toString n
  | .array elements => block "[" "]" level (prettyAll (level + 1) elements)
  | .object members => block "\x7b" "\x7d" level (prettyMembers (level + 1) members)

def prettyAll (level : Nat) : List Json → List String
  | [] => []
  | v :: rest => prettyAt level v :: prettyAll level rest

def prettyMembers (level : Nat) : List (String × Json) → List String
  | [] => []
  | (k, v) :: rest => (quote k ++ ": " ++ prettyAt level v) :: prettyMembers level rest

end

/-- A value over several lines. -/
def pretty (v : Json) : String := prettyAt 0 v

end Json

end ComponentContainer

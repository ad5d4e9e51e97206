/-
  File:      ComponentContainer/Environment.lean
  Subject:   Environment variables.

  The environment is a list of lines `name=value`, and a look-up takes the line that begins with
  the wanted name and an equals sign. So a wanted name may itself hold an equals sign: it then
  reaches into a value.

  * `Environment` -- variables with their values, which are bytes.
  * `Environment.bytes?` -- what follows a wanted name and an equals sign on its line.
  * `Environment.text?` -- the same as a text. Bytes that are no UTF-8 text count as absent,
    wherever texts are asked for; `text?_of_not_mem` -- a name without an equals sign is that of
    the variable.
  * `Environment.setText` -- gives a variable a text.
-/
import ComponentContainer.Table

namespace ComponentContainer

/-- Variables with their values, which are bytes. -/
structure Environment where
  bindings : Table ByteArray := .empty

namespace Environment

/-- What follows the text `start` in bytes that begin with it. -/
def afterStart? (start : String) (bytes : ByteArray) : Option ByteArray :=
  (start.toUTF8.data.toList.isPrefixOf? bytes.data.toList).map fun rest => ⟨rest.toArray⟩

/-- What follows a wanted name and an equals sign on its line. The variable's own name ends at the
    first equals sign. -/
def bytes? (e : Environment) (wanted : String) : Option ByteArray :=
  match wanted.toList.dropWhile (· ≠ '=') with
  | [] => e.bindings.find? wanted
  | _ :: start =>
    (e.bindings.find? (String.ofList (wanted.toList.takeWhile (· ≠ '=')))).bind
      (afterStart? (String.ofList (start ++ ['='])))

/-- The value of a variable, if it is there and is a text. -/
def text? (e : Environment) (name : String) : Option String :=
  (e.bytes? name).bind String.fromUTF8?

theorem dropWhile_of_not_mem {cs : List Char} (h : '=' ∉ cs) :
    cs.dropWhile (· ≠ '=') = [] := by
  induction cs with
  | nil => rfl
  | cons c rest ih =>
    simp only [List.mem_cons, not_or] at h
    rw [List.dropWhile_cons_of_pos (by simpa using Ne.symm h.1)]
    exact ih h.2

/-- A name without an equals sign is that of the variable. -/
theorem text?_of_not_mem (e : Environment) {name : String} (h : '=' ∉ name.toList) :
    e.text? name = (e.bindings.find? name).bind String.fromUTF8? := by
  simp only [text?, bytes?, dropWhile_of_not_mem h]

/-- Gives a variable a value. -/
def set (e : Environment) (name : String) (value : ByteArray) : Environment :=
  ⟨e.bindings.set name value⟩

/-- Gives a variable a text. -/
def setText (e : Environment) (name value : String) : Environment := e.set name value.toUTF8

end Environment

end ComponentContainer

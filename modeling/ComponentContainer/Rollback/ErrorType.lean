/-
  File:      ComponentContainer/Rollback/ErrorType.lean
  Subject:   Error types and their ancestors.

  * `ErrorType` -- a type by its qualified name and its parent; a type without a parent is the root
    of its line. Two types count as the same if their names are.
  * `ErrorType.ancestors` -- the line from the type itself to its root.
  * `isErrorType` -- the line passes through the root of all errors.
  * The built-in types.
-/
import ComponentContainer.Text.Pieces

namespace ComponentContainer.Rollback

/-- A type by its qualified name and its parent. -/
inductive ErrorType where
  | root (name : String)
  | child (name : String) (parent : ErrorType)
  deriving DecidableEq

namespace ErrorType

/-! ## 1. Lines of ancestors -/

def name : ErrorType → String
  | .root n => n
  | .child n _ => n

def parent? : ErrorType → Option ErrorType
  | .root _ => none
  | .child _ p => some p

/-- The name without its path. -/
def simpleName (t : ErrorType) : String := Text.lastSegment t.name

/-- The type itself, its parent, and so on up to the root. -/
def ancestors : ErrorType → List ErrorType
  | .root n => [.root n]
  | .child n p => .child n p :: p.ancestors

/-- The names of the line. -/
def lineage (t : ErrorType) : List String := t.ancestors.map name

/-! ## 2. The built-in types -/

def object : ErrorType := .root "lang::Object"
def throwable : ErrorType := .child "lang::Throwable" object
def error : ErrorType := .child "lang::Error" throwable
def exception : ErrorType := .child "lang::Exception" throwable
def runtimeException : ErrorType := .child "lang::RuntimeException" exception
def illegalArgument : ErrorType := .child "lang::IllegalArgumentException" runtimeException
def illegalState : ErrorType := .child "lang::IllegalStateException" runtimeException
def arithmetic : ErrorType := .child "lang::ArithmeticException" runtimeException
def ioException : ErrorType := .child "io::IOException" exception
def outOfMemory : ErrorType := .child "lang::OutOfMemoryError" error

/-- All of them. -/
def builtIn : List ErrorType :=
  [object, throwable, error, exception, runtimeException, illegalArgument, illegalState,
   arithmetic, ioException, outOfMemory]

/-! ## 3. Kinship by name -/

/-- The names are the same. -/
def same (t u : ErrorType) : Bool := t.name == u.name

/-- Some type in the line of `t` has the name of `u`. -/
def isSubtypeOf (t u : ErrorType) : Bool := t.ancestors.any (·.same u)

/-- The root of all errors. -/
def isRootError (t : ErrorType) : Bool := t.same throwable

/-- At or below the root of all errors. -/
def isErrorType (t : ErrorType) : Bool := t.isSubtypeOf throwable

end ErrorType

end ComponentContainer.Rollback

/-
  File:      ComponentContainer/Main.lean
  Subject:   The command line: runs the demonstration.

  The variables of the process and the files of the working directory (or the nearest one above it
  that has them) are looked up, the demonstration runs, and its lines are printed. A failure goes
  to the error output and ends the process with the code 1.
-/
import ComponentContainer.Demo
import Std.Time.Format

namespace ComponentContainer.CommandLine

/-! ## 1. What comes from outside -/

/-- The variables that matter whatever the files say. -/
def knownVariables : List String :=
  ["ENVIRONMENT", "CONTAINER_ALLOW_DEFINITION_OVERRIDING", "CONTAINER_MAX_REGISTRY_PASSES",
   "TX_ROLLBACK_FOR", "TX_NO_ROLLBACK_FOR", "DB_URL"]

/-- All that could be the name of a variable in a file. -/
def mentioned (file : String) : List String :=
  let separated := file.toList.map fun c => if Environment.isNameChar c then c else ' '
  (Text.splitOn ' ' separated).filterMap fun piece =>
    if piece.isEmpty then none else some (String.ofList piece)

/-- The nearest file of a name, from the working directory upwards so many levels. -/
def findFile (name : String) : Nat → String → IO (Option String)
  | 0, _ => return none
  | levels + 1, directory => do
    try
      return some (← IO.FS.readFile (directory ++ name))
    catch _ =>
      findFile name levels (directory ++ "../")

/-- The variables of the process among the names. -/
def readVariables (names : List String) : IO Environment :=
  let add (e : Environment) (name : String) : IO Environment := do
    match ← IO.getEnv name with
    | some value => return e.setText name value
    | none => return e
  names.foldlM add {}

/-- A number of two digits to base sixteen. -/
def hexByte (b : UInt8) : String :=
  String.ofList [Json.hexDigit (b.toNat / 16), Json.hexDigit (b.toNat % 16)]

/-- A name that nobody else has: sixteen random bytes with the marks of their kind. -/
def freshId : IO String := do
  let bytes := (← IO.getRandomBytes 16).toList
  let marked := bytes.zipIdx.map fun (b, i) =>
    if i == 6 then (b &&& 0x0f) ||| 0x40 else if i == 8 then (b &&& 0x3f) ||| 0x80 else b
  let digits := marked.map hexByte
  let part (start length : Nat) : String := String.join ((digits.drop start).take length)
  return "-".intercalate [part 0 4, part 4 2, part 6 2, part 8 2, part 10 6]

/-- The time now. -/
def now : IO String := do
  let stamp ← Std.Time.Timestamp.now
  return (Std.Time.DateTime.ofTimestampWithZone stamp Std.Time.TimeZone.UTC).format
    "uuuu-MM-dd'T'HH:mm:ss.SSSSSSSSS'Z'"

/-! ## 2. The process -/

/-- How many directories upwards a file is looked for. -/
def maxLevels : Nat := 64

/-- Runs the demonstration; the exit code. -/
def run : IO UInt32 := do
  let profile := (← readVariables knownVariables).profile
  let names := [profile.file, ".env"]
  let files ← names.mapM fun name => return (name, ← findFile name maxLevels "")
  let said := files.flatMap fun f => (f.2.map mentioned).getD []
  let e ← readVariables (knownVariables ++ said)
  let times : Times := ⟨← now, ← now⟩
  match Demo.run e (fun name => (files.lookup name).join) (← freshId) times with
  | none => return 1
  | some (outcome, lines) =>
    lines.forM IO.println
    match outcome with
    | .ok () => return 0
    | .error failure =>
      IO.eprintln failure.message
      return 1

end ComponentContainer.CommandLine

def main : IO UInt32 := ComponentContainer.CommandLine.run

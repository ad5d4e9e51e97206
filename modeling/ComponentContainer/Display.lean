/-
  File:      ComponentContainer/Display.lean
  Subject:   What is printed while a container starts.

  * `centred` -- a text in the middle of a field; a text that does not fit is not cut.
  * `boxedTitle`, `stepStart`, `stepComplete`, `subTask`, `finalSummary` -- the lines printed.
-/
import ComponentContainer.Context.Report

namespace ComponentContainer.Display

/-- So many times a character. -/
def rep (n : Nat) (c : Char) : String := String.ofList (List.replicate n c)

/-- A text in the middle of a field of so many characters; what cannot be shared out evenly goes to
    the right. -/
def centred (width : Nat) (s : String) : String :=
  let room := width - s.length
  rep (room / 2) ' ' ++ s ++ rep (room - room / 2) ' '

/-- The inner width of a box. -/
def boxWidth : Nat := 50

/-- A title in a box. -/
def boxedTitle (title : String) : List String :=
  ["╔" ++ rep boxWidth '═' ++ "╗",
   "║" ++ centred boxWidth title ++ "║",
   "╚" ++ rep boxWidth '═' ++ "╝"]

/-- A step begins. -/
def stepStart (number : Nat) (description : String) : List String :=
  ["→ Step " ++ toString number ++ ": " ++ description]

/-- A step has dealt with so many items. -/
def stepComplete (number : Nat) (description : String) (items : Nat) : List String :=
  ["✓ Step " ++ toString number ++ ": " ++ description ++ " (" ++ toString items ++ " items)"]

/-- A part of a step and what has become of it. -/
def subTask (name status : String) : List String := ["   ├─ " ++ name ++ ": " ++ status]

/-- The counts of a report. -/
def finalSummary (r : Report) : List String :=
  [""] ++ boxedTitle "🎉 CONTAINER BOOTSTRAP FINISHED" ++
    ["   🧩 Registry passes: " ++ toString r.registryPasses,
     "   🔧 Factory hooks invoked: " ++ toString r.factoryHooks,
     "   ⛓️ Instance post-processors: " ++ toString r.chain.length,
     "   📦 Singletons: " ++ toString r.componentsCreated,
     ""]

end ComponentContainer.Display

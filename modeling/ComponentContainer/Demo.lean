/-
  File:      ComponentContainer/Demo.lean
  Subject:   A small shop as a demonstration.

  Three extensions and three components: the audit configuration registers a listener, the
  placeholder resolver fills in the address of the data source, the tracer watches what is made;
  the data source inherits its address from a template, and the order service needs it.

  * `Code`, `Product` -- the code that runs in the container, and the components.
  * `behaviour` -- what the code does, given the address to fill in.
  * `definitions` -- the definitions of the shop.
  * `run` -- the lines printed, and whether all went well.
-/
import ComponentContainer.Context
import ComponentContainer.Display
import ComponentContainer.Environment.File
import ComponentContainer.Environment.Profile
import ComponentContainer.Environment.Settings

namespace ComponentContainer.Demo

/-! ## 1. The code of the shop -/

/-- The code that runs in the container. -/
inductive Code where
  | auditConfiguration
  | placeholderResolver
  | creationTracer
  | template
  | dataSource
  | orderService
  | auditLog
  deriving DecidableEq, Repr

/-- The components. -/
inductive Product where
  | dataSource (url : String)
  | orderService (dataSource : String)
  | auditLog
  deriving DecidableEq, Repr

/-- A data source, by its address. -/
def asDataSource : Expected Product String where
  typeName := "DataSource"
  cast
    | .dataSource url => some url
    | _ => none

/-- An order service, by the address of its data source. -/
def asOrderService : Expected Product String where
  typeName := "OrderService"
  cast
    | .orderService url => some url
    | _ => none

/-- The definition of the audit log, which hears events. -/
def auditLog : Definition Code :=
  { name := "auditLog", typeName := "AuditLog", kind := .component, supplier := .auditLog,
    listener := true }

/-- What stands for the address of the data source until it is filled in. -/
def placeholder : String := "$\x7bdb.url\x7d"

/-- Fills in the address. -/
def fillIn (url : String) (d : Definition Code) : Definition Code :=
  if d.attributes.get? "url" = some placeholder then d.setAttribute "url" url else d

/-- Fills in the address in all definitions. -/
def resolvePlaceholders (url : String) : Plan Code Product Unit Unit := do
  (← Plan.ask (.registry .names)).forM fun name => do
    let _ ← Plan.ask (.registry (.edit name (fillIn url)))

/-- The suppliers of the components. -/
def supply : Code → Plan Code Product Unit Product
  | .dataSource => do
    let merged ← Plan.merged "dataSource"
    return .dataSource ((merged.definition.attributes.get? "url").getD "")
  | .orderService => do return .orderService (← componentAs asDataSource "dataSource")
  | .auditLog => return .auditLog
  | _ => return .dataSource ""

/-- What the code does; `url` is the address to fill in. -/
def behaviour (url : String) : Behaviour Code Product Unit where
  name
    | .auditConfiguration => "AuditConfiguration"
    | .placeholderResolver => "PlaceholderResolver"
    | _ => "CreationTracer"
  supply code := (supply code).run
  build code := return .ok code
  onRegistry
    | .auditConfiguration =>
      Program.request (I := registryInterface Code Unit) (.register auditLog)
    | _ => return .ok ()
  onFactory
    | .placeholderResolver => (resolvePlaceholders url).run
    | _ => return .ok ()
  mergedAware code := code == .creationTracer
  onMerged _ _ _ world := (.ok (), world)
  before _ product _ world := (.ok product, world)
  after _ product _ world := (.ok product, world)

/-! ## 2. The definitions of the shop -/

/-- The definitions of the shop. -/
def definitions : List (Definition Code) :=
  [{ name := "auditConfiguration", typeName := "AuditConfiguration",
     kind := .postProcessor .registry, supplier := .auditConfiguration,
     precedence := .priority 0 },
   { name := "placeholderResolver", typeName := "PlaceholderResolver",
     kind := .postProcessor .factory, supplier := .placeholderResolver,
     precedence := .ordered 10 },
   { name := "creationTracer", typeName := "CreationTracer",
     kind := .postProcessor .component, supplier := .creationTracer },
   { name := "dataSourceTemplate", typeName := "DataSource", kind := .component,
     supplier := .template, attributes := .set .empty "url" placeholder, template := true },
   { name := "dataSource", typeName := "DataSource", kind := .component,
     supplier := .dataSource, parent := some "dataSourceTemplate", role := .infrastructure },
   { name := "orderService", typeName := "OrderService", kind := .component,
     supplier := .orderService }]

/-- The shop with its definitions and nothing made so far. -/
def shop : State Code Product Unit where
  container := { definitions := definitions.foldl (fun t d => t.set d.name d) .empty }
  world := ()

/-! ## 3. Rollback decisions -/

open Rollback

/-- The error for a payment that is declined. -/
def paymentDeclined : ErrorType :=
  .child "billing::PaymentDeclinedException" .runtimeException

/-- The policy in force; without any rule, a policy of the shop's own. -/
def policy (e : Environment) : Except Failure Policy := do
  let p ← e.policy
  if p.rules.isEmpty then
    return (p.rollbackFor (← Rule.ofPattern "IOException")).noRollbackFor
      (← Rule.ofType paymentDeclined)
  else return p

/-- The lines that show some decisions of a policy. -/
def decisions (p : Policy) : List String :=
  [paymentDeclined, .ioException, .arithmetic, .illegalArgument].flatMap fun t =>
    Display.subTask t.simpleName (if p.rollsBack t then "rollback" else "commit")

/-! ## 4. The demonstration -/

/-- An activity that prints lines and may fail; what was printed before a failure stays. -/
abbrev Printing : Type → Type := ExceptT Failure (StateT (List String) Option)

/-- Prints lines. -/
def print (lines : List String) : Printing Unit := modify (· ++ lines)

/-- A failure, or its absence, as part of the activity. -/
def check {α : Type} (outcome : Except Failure α) : Printing α := ExceptT.mk (pure outcome)

/-- Runs an act in a state and keeps the state. -/
def act {α : Type} (s : State Code Product Unit) (a : Act Code Product Unit α) :
    Printing (α × State Code Product Unit) :=
  ExceptT.lift (StateT.lift (a s))

/-- The address to fill in. -/
def url (e : Environment) : String := (e.text? "DB_URL").getD "jdbc:h2:mem:demo"

/-- The engine of the shop, whose creations nest twice and which needs no pass at all. -/
def engine (e : Environment) : Engine Code Product Unit := ⟨behaviour (url e), 16, 16⟩

/-- The demonstration in an environment that is complete. The context has the given name. -/
def body (e : Environment) (id : String) (times : Times) : Printing Unit := do
  let engine := engine e
  print (Display.boxedTitle "Container Bootstrap")
  print (Display.stepStart 1 "Registering definitions")
  let (container, options) ← check e.setUp
  let context : Context Code := { id, options }
  let s : State Code Product Unit := { container, world := () }
  let (registered, s) ← act s (engine.attempt (definitions.forM Plan.register)).outcome
  check registered
  print (Display.stepComplete 1 "Definitions registered" s.container.definitions.size)
  print (Display.stepStart 2 "Refreshing context")
  let ((refreshed, context), s) ← act s (context.refresh engine times)
  let report ← check refreshed
  print (report.chain.flatMap (Display.subTask · "registered"))
  print (Display.stepComplete 2 "Context refreshed" report.processedExtensions.length)
  let (service, _) ← act s (context.componentAs engine asOrderService "orderService").outcome
  let _ ← check service
  print [report.toJson.pretty]
  print (Display.stepStart 3 "Evaluating rollback rules")
  let policy ← check (policy e)
  print (decisions policy)
  print (Display.stepComplete 3 "Rollback rules evaluated" policy.rules.length)
  print (Display.finalSummary report)

/-- The demonstration: the variables of the profile are taken over, and the shop starts. The lines
    printed, and the failure if there is one. -/
def run (e : Environment) (files : Environment.Files) (id : String) (times : Times) :
    Option (Except Failure Unit × List String) :=
  (body (e.loadProfile e.profile.file files) id times).run []

end ComponentContainer.Demo

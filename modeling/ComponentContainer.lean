import ComponentContainer.Attributes
import ComponentContainer.Bootstrap
import ComponentContainer.Bootstrap.ChainPhase
import ComponentContainer.Bootstrap.FactoryPhases
import ComponentContainer.Bootstrap.Phase
import ComponentContainer.Bootstrap.Processed
import ComponentContainer.Container
import ComponentContainer.Container.Answering
import ComponentContainer.Container.Creation
import ComponentContainer.Container.State
import ComponentContainer.Context
import ComponentContainer.Context.Report
import ComponentContainer.Definition
import ComponentContainer.Demo
import ComponentContainer.Display
import ComponentContainer.Engine
import ComponentContainer.Environment
import ComponentContainer.Environment.File
import ComponentContainer.Environment.Profile
import ComponentContainer.Environment.Settings
import ComponentContainer.Extension
import ComponentContainer.Failure
import ComponentContainer.Json
import ComponentContainer.Json.Numeral
import ComponentContainer.Json.Reading
import ComponentContainer.Log
import ComponentContainer.Main
import ComponentContainer.Notice
import ComponentContainer.Plan
import ComponentContainer.Precedence
import ComponentContainer.Printed
import ComponentContainer.Program
import ComponentContainer.Request
import ComponentContainer.Rollback.ErrorType
import ComponentContainer.Rollback.Policy
import ComponentContainer.Rollback.Rule
import ComponentContainer.Rollback.Written
import ComponentContainer.Table
import ComponentContainer.Text.Alphanumeric
import ComponentContainer.Text.Blank
import ComponentContainer.Text.Case
import ComponentContainer.Text.Escaped
import ComponentContainer.Text.Lowercase
import ComponentContainer.Text.Numeral
import ComponentContainer.Text.Pieces
import ComponentContainer.Text.Quoted
import ComponentContainer.Text.Ranges
import ComponentContainer.Proofs.HookCalls
import ComponentContainer.Proofs.RegistryHooks
import ComponentContainer.Proofs.FactoryHooks
import ComponentContainer.Proofs.Answers
import ComponentContainer.Proofs.ExactlyOnce
import ComponentContainer.Proofs.PhaseRuns
import ComponentContainer.Proofs.Sorting
import ComponentContainer.Proofs.Acts
import ComponentContainer.Proofs.PassiveRuns
import ComponentContainer.Proofs.HookOrder
import ComponentContainer.Proofs.Course
import ComponentContainer.Proofs.Caches
import ComponentContainer.Proofs.ChainRuns
import ComponentContainer.Proofs.ChainShape
import ComponentContainer.Proofs.Moments
import ComponentContainer.Proofs.Nesting
import ComponentContainer.Proofs.Templates
import ComponentContainer.Proofs.HookPrecedence
import ComponentContainer.Proofs.Lineage
import ComponentContainer.Proofs.Dependencies
import ComponentContainer.Proofs.Depths
import ComponentContainer.Proofs.Resolution
import ComponentContainer.Proofs.Rounds
import ComponentContainer.Proofs.TierBarrier
import ComponentContainer.Proofs.Sightings
import ComponentContainer.Proofs.Notes
import ComponentContainer.Proofs.Watching
import ComponentContainer.Proofs.Waves
import ComponentContainer.Proofs.PrematureReports
import ComponentContainer.Proofs.OrderedRegistry
import ComponentContainer.Proofs.Passes
import ComponentContainer.Proofs.Settings
import ComponentContainer.Proofs.Settling
import ComponentContainer.Proofs.PassLimit
import ComponentContainer.Proofs.FirstFailure
import ComponentContainer.Proofs.Lifecycle
import ComponentContainer.Proofs.Staleness
import ComponentContainer.Proofs.ProcessingOrder
import ComponentContainer.Proofs.ListenerReports
import ComponentContainer.Proofs.Patterns
import ComponentContainer.Proofs.Decisions
import ComponentContainer.Proofs.Spellings
import ComponentContainer.Proofs.Stability
import ComponentContainer.Proofs.WrittenPolicies
import ComponentContainer.Proofs.Values
import ComponentContainer.Proofs.RegistrationOrder
import ComponentContainer.Proofs.TypeRules
import ComponentContainer.Proofs.RuleSources
import ComponentContainer.Proofs.Inheritance
import ComponentContainer.Proofs.Distances
import ComponentContainer.Proofs.Winners
import ComponentContainer.Proofs.Making
import ComponentContainer.Proofs.Ahead
import ComponentContainer.Proofs.CanonicalOrder
import ComponentContainer.Proofs.TierOrder
import ComponentContainer.Proofs.Numerals
import ComponentContainer.Proofs.Additions

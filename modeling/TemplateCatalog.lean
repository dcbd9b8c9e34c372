import TemplateCatalog.Collections.Dictionary
import TemplateCatalog.Collections.DistinctList
import TemplateCatalog.Collections.EnumSet
import TemplateCatalog.Collections.Table
import TemplateCatalog.CommandLine.Arguments
import TemplateCatalog.CommandLine.Run
import TemplateCatalog.CommandLine.Subcommand
import TemplateCatalog.Configuration.Settings
import TemplateCatalog.Exchange.Migration
import TemplateCatalog.Exchange.Model
import TemplateCatalog.Exchange.Plan
import TemplateCatalog.Incarnation.Apply
import TemplateCatalog.Incarnation.Error
import TemplateCatalog.Incarnation.Wiring
import TemplateCatalog.Incarnation.Workspace
import TemplateCatalog.Json.Form
import TemplateCatalog.Json.Parser
import TemplateCatalog.Json.Printer
import TemplateCatalog.Json.Record
import TemplateCatalog.Json.Scalar
import TemplateCatalog.Json.Value
import TemplateCatalog.Main
import TemplateCatalog.Migration.Breaking
import TemplateCatalog.Migration.Change
import TemplateCatalog.Migration.Compatibility
import TemplateCatalog.Migration.Diff
import TemplateCatalog.Migration.Evaluate
import TemplateCatalog.Migration.Trail
import TemplateCatalog.Model.Domain
import TemplateCatalog.Model.Element
import TemplateCatalog.Model.Error
import TemplateCatalog.Model.Id
import TemplateCatalog.Model.RiskDefinition
import TemplateCatalog.Model.TemplateGraph
import TemplateCatalog.Model.TemplateItem
import TemplateCatalog.Model.Translations
import TemplateCatalog.Model.Version
import TemplateCatalog.Model.Vocabulary
import TemplateCatalog.Number.Decimal
import TemplateCatalog.Number.Double
import TemplateCatalog.Plan.CreationOrder
import TemplateCatalog.Plan.Description
import TemplateCatalog.Plan.Merge
import TemplateCatalog.Plan.Request
import TemplateCatalog.Plan.Resolve
import TemplateCatalog.Plan.Walk
import TemplateCatalog.Proofs.Collections
import TemplateCatalog.Proofs.Exchange.Form
import TemplateCatalog.Proofs.Exchange.Model
import TemplateCatalog.Proofs.Exchange.RoundTrip
import TemplateCatalog.Proofs.Exchange.Text
import TemplateCatalog.Proofs.Incarnation.Agreement
import TemplateCatalog.Proofs.Incarnation.Amendment
import TemplateCatalog.Proofs.Incarnation.Consistency
import TemplateCatalog.Proofs.Incarnation.Derivation
import TemplateCatalog.Proofs.Incarnation.HiddenReferences
import TemplateCatalog.Proofs.Incarnation.Idempotence
import TemplateCatalog.Proofs.Incarnation.InPlace
import TemplateCatalog.Proofs.Incarnation.Interleaving
import TemplateCatalog.Proofs.Incarnation.MergedPlan
import TemplateCatalog.Proofs.Incarnation.Overlap
import TemplateCatalog.Proofs.Incarnation.Presence
import TemplateCatalog.Proofs.Incarnation.Realization
import TemplateCatalog.Proofs.Incarnation.Relations
import TemplateCatalog.Proofs.Incarnation.Repetition
import TemplateCatalog.Proofs.Incarnation.UniqueNames
import TemplateCatalog.Proofs.Incarnation.Wiring
import TemplateCatalog.Proofs.Incarnation.Workspace
import TemplateCatalog.Proofs.Migration.AxisChanges
import TemplateCatalog.Proofs.Migration.Compatibility
import TemplateCatalog.Proofs.Migration.Completeness
import TemplateCatalog.Proofs.Migration.Damage
import TemplateCatalog.Proofs.Migration.Definitions
import TemplateCatalog.Proofs.Migration.Effects
import TemplateCatalog.Proofs.Migration.Fixpoint
import TemplateCatalog.Proofs.Migration.Gate
import TemplateCatalog.Proofs.Migration.Monotonicity
import TemplateCatalog.Proofs.Migration.Moves
import TemplateCatalog.Proofs.Migration.Outcome
import TemplateCatalog.Proofs.Migration.Removals
import TemplateCatalog.Proofs.Migration.Reversal
import TemplateCatalog.Proofs.Migration.RiskValueReport
import TemplateCatalog.Proofs.Migration.RiskValues
import TemplateCatalog.Proofs.Migration.Schema
import TemplateCatalog.Proofs.Migration.SchemaReport
import TemplateCatalog.Proofs.Model.Content
import TemplateCatalog.Proofs.Model.Shape
import TemplateCatalog.Proofs.Model.Version
import TemplateCatalog.Proofs.Model.VersionText
import TemplateCatalog.Proofs.Plan.Closure
import TemplateCatalog.Proofs.Plan.CreationOrder
import TemplateCatalog.Proofs.Plan.Lookup
import TemplateCatalog.Proofs.Plan.Merging
import TemplateCatalog.Proofs.Plan.OrderCheck
import TemplateCatalog.Proofs.Plan.Placing
import TemplateCatalog.Proofs.Plan.Precedence
import TemplateCatalog.Proofs.Plan.References
import TemplateCatalog.Proofs.Plan.Representatives
import TemplateCatalog.Proofs.Plan.Resolution
import TemplateCatalog.Proofs.Plan.Stability
import TemplateCatalog.Proofs.Plan.Survey
import TemplateCatalog.Proofs.Plan.Targets
import TemplateCatalog.Proofs.Plan.Visibility
import TemplateCatalog.Proofs.Plan.Walk
import TemplateCatalog.Proofs.Soundness
import TemplateCatalog.Proofs.Support
import TemplateCatalog.Repository.Connection
import TemplateCatalog.Repository.Store
import TemplateCatalog.Service
import TemplateCatalog.Text.Blank
import TemplateCatalog.Text.Digits
import TemplateCatalog.Toml.Parser
import TemplateCatalog.Toml.Scalar
import TemplateCatalog.Toml.Tree

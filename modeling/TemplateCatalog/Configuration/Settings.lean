import TemplateCatalog.Json.Record
import TemplateCatalog.Migration.Change
import TemplateCatalog.Plan.Request
import TemplateCatalog.Toml.Parser

/-!
# Settings

The settings of a service. Every section and every field may be left out.
Settings of incarnations take precedence over those of a domain; the included
and the excluded types of references are replaced together.
-/

namespace TemplateCatalog

structure IncarnationSettings where
  mode : Option RequestMode := none
  lookup : Option LookupPolicy := none
  included : Option (EnumSet ReferenceType) := none
  excluded : Option (EnumSet ReferenceType) := none
  mergeBidirectional : Bool := false
  deriving DecidableEq

/-- The configuration of a domain where the settings say nothing else. -/
def IncarnationSettings.over (s : IncarnationSettings) (c : IncarnationConfiguration) :
    IncarnationConfiguration :=
  let replaced := s.included.isSome || s.excluded.isSome
  { mode := s.mode.getD c.mode
    lookup := s.lookup.getD c.lookup
    included := if replaced then s.included else c.included
    excluded := if replaced then s.excluded else c.excluded }

structure MigrationSettings where
  /-- The kinds of changes that are accepted without being listed. -/
  inert : EnumSet ChangeKind := ChangeKind.defaultInert
  deriving DecidableEq

structure RepositorySettings where
  uniqueNames : Bool := false
  deriving DecidableEq

structure Settings where
  incarnation : IncarnationSettings := {}
  migration : MigrationSettings := {}
  repository : RepositorySettings := {}
  logLevel : String := "info"
  deriving DecidableEq

/-! ## JSON forms -/

instance : JsonForm IncarnationSettings where
  encode s := .obj
    [("default_mode", encode s.mode), ("default_lookup", encode s.lookup),
      ("default_include", encode s.included), ("default_exclude", encode s.excluded),
      ("merge_bidirectional_references", encode s.mergeBidirectional)]
  decodeIn s j := do
    let r ← Record.ofJson?
      ["default_mode", "default_lookup", "default_include", "default_exclude",
        "merge_bidirectional_references"] s j
    return {
      mode := ← r.withDefault "default_mode" none
      lookup := ← r.withDefault "default_lookup" none
      included := ← r.withDefault "default_include" none
      excluded := ← r.withDefault "default_exclude" none
      mergeBidirectional := ← r.withDefault "merge_bidirectional_references" false }

instance : JsonForm MigrationSettings where
  encode s := .obj [("inert_change_kinds", encode s.inert)]
  decodeIn s j := do
    let r ← Record.ofJson? ["inert_change_kinds"] s j
    return { inert := ← r.withDefault "inert_change_kinds" ChangeKind.defaultInert }

instance : JsonForm RepositorySettings where
  encode s := .obj [("enforce_unique_names", encode s.uniqueNames)]
  decodeIn s j := do
    let r ← Record.ofJson? ["enforce_unique_names"] s j
    return { uniqueNames := ← r.withDefault "enforce_unique_names" false }

instance : JsonForm Settings where
  encode s := .obj
    [("incarnation", encode s.incarnation), ("migration", encode s.migration),
      ("repository", encode s.repository), ("log_level", encode s.logLevel)]
  decodeIn s j := do
    let r ← Record.ofJson? ["incarnation", "migration", "repository", "log_level"] s j
    return {
      incarnation := ← r.withDefault "incarnation" {}
      migration := ← r.withDefault "migration" {}
      repository := ← r.withDefault "repository" {}
      logLevel := ← r.withDefault "log_level" "info" }

/-- The settings that a TOML document holds. -/
def Settings.ofToml? (text : String) : Option Settings := (Toml.parse? text).bind (decodeIn .toml)

end TemplateCatalog

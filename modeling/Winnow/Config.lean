/-
  Configurations: where extension filters are listed and which filters are left out.

  A configuration is read from a JSON object.  Missing members have defaults, and
  members with other keys are passed over.
-/
import Winnow.Json.Reader

namespace Winnow

structure Config where
  /-- The directory of the list of extension filters; without it there are none. -/
  extensionRoot : Option String := none
  /-- The path of the list from there. -/
  extensionResource : String := "META-INF/services/covfilter.filters.Filter"
  disabledFilters : List String := []
deriving DecidableEq

inductive ConfigError where
  /-- The text is no JSON value, or a member has a value of the wrong kind. -/
  | malformed
  | notAnObject (kind : String)
deriving DecidableEq

namespace ConfigError

def message : ConfigError → String
  | malformed => "failed to parse filter configuration"
  | notAnObject kind => "filter configuration must be a JSON object, found " ++ kind

end ConfigError

namespace Config

/-! ## Members -/

def root? : Option Json → Option (Option String)
  | none | some .null => some none
  | some (.string root) => some (some root)
  | some _ => none

def resource? : Option Json → Option String
  | none => some ({} : Config).extensionResource
  | some (.string resource) => some resource
  | some _ => none

def string? : Json → Option String
  | .string s => some s
  | _ => none

def disabled? : Option Json → Option (List String)
  | none => some []
  | some (.array items) => items.mapM string?
  | some _ => none

/-- The configuration of an object. -/
def ofMembers? (members : List (String × Json)) : Option Config := do
  let extensionRoot ← root? (Json.member? members "extension_root")
  let extensionResource ← resource? (Json.member? members "extension_resource")
  let disabledFilters ← disabled? (Json.member? members "disabled_filters")
  return { extensionRoot, extensionResource, disabledFilters }

/-- Reads a configuration. -/
def parse (text : String) : Except ConfigError Config :=
  match Json.parse? text with
  | none => .error .malformed
  | some (.object members) =>
    match ofMembers? members with
    | none => .error .malformed
    | some config => .ok config
  | some j => .error (.notAnObject j.kind)

/-! ## The path of the list -/

/-- A path below a directory.  A path that starts with a slash stands for itself. -/
def joinPath (root path : String) : String :=
  if path.toList.head? = some '/' ∨ root = "" then path
  else if root.toList.getLast? = some '/' then root ++ path
  else root ++ "/" ++ path

def listPath? (c : Config) : Option String :=
  c.extensionRoot.map fun root => joinPath root c.extensionResource

end Config

end Winnow

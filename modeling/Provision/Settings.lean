import Provision.Guard
import Provision.LoadError
import Provision.RunList
import Provision.Toml.Parser

namespace Provision

structure SiteSettings where
  sitesAvailable : String := "/etc/apache2/sites-available"
  sitesEnabled : String := "/etc/apache2/sites-enabled"
  reloadCommand : String := "apache2ctl graceful"
deriving DecidableEq, Repr

structure Settings where
  templatesDir : String := "/etc/steward/templates"
  nameScope : NameScope := .perKind
  onGuardError : GuardErrorPolicy := .skip
  onConflict : ConflictPolicy := .warn
  shell : String := "/bin/sh"
  cronUser : String := "root"
  sites : SiteSettings := {}
deriving DecidableEq, Repr

namespace SiteSettings

def fieldNames : List String := ["sites_available", "sites_enabled", "reload_command"]

def ofFields? (fields : Fields) : Option SiteSettings := do
  let unset : SiteSettings := {}
  if fields.keys.all fieldNames.contains then
    let sitesAvailable ← fields.getOr? "sites_available" unset.sitesAvailable Json.asString?
    let sitesEnabled ← fields.getOr? "sites_enabled" unset.sitesEnabled Json.asString?
    let reloadCommand ← fields.getOr? "reload_command" unset.reloadCommand Json.asString?
    some ⟨sitesAvailable, sitesEnabled, reloadCommand⟩
  else none

/-- A table of fields, or an array of the values in order. -/
def ofJson? : Json → Option SiteSettings
  | .object fields => ofFields? fields
  | .array items => ofFields? (fieldNames.zip items)
  | _ => none

def toJson (s : SiteSettings) : Json :=
  .object [("sites_available", .string s.sitesAvailable), ("sites_enabled", .string s.sitesEnabled),
    ("reload_command", .string s.reloadCommand)]

end SiteSettings

namespace Settings

/-- The name of an alternative: a string, or the only key of a table, with an empty value. -/
def alternative? : Json → Option String
  | .string s => some s
  | .object [(k, .object [])] => some k
  | .object [(k, .array [])] => some k
  | _ => none

def fieldNames : List String :=
  ["templates_dir", "name_scope", "on_guard_error", "on_conflict", "shell", "cron_user", "apache"]

def ofFields? (fields : Fields) : Option Settings := do
  let unset : Settings := {}
  if fields.keys.all fieldNames.contains then
    let templatesDir ← fields.getOr? "templates_dir" unset.templatesDir Json.asString?
    let nameScope ← fields.getOr? "name_scope" unset.nameScope fun v =>
      (alternative? v).bind NameScope.ofName?
    let onGuardError ← fields.getOr? "on_guard_error" unset.onGuardError fun v =>
      (alternative? v).bind GuardErrorPolicy.ofName?
    let onConflict ← fields.getOr? "on_conflict" unset.onConflict fun v =>
      (alternative? v).bind ConflictPolicy.ofName?
    let shell ← fields.getOr? "shell" unset.shell Json.asString?
    let cronUser ← fields.getOr? "cron_user" unset.cronUser Json.asString?
    let sites ← fields.getOr? "apache" unset.sites SiteSettings.ofJson?
    some ⟨templatesDir, nameScope, onGuardError, onConflict, shell, cronUser, sites⟩
  else none

def parse (text : String) : Except LoadError Settings :=
  match (Toml.parse? text).bind ofFields? with
  | some s => .ok s
  | none => .error (.ofParty .toml "invalid settings")

def toJson (s : Settings) : Json :=
  .object [("templates_dir", .string s.templatesDir), ("name_scope", .string s.nameScope.name),
    ("on_guard_error", .string s.onGuardError.name), ("on_conflict", .string s.onConflict.name),
    ("shell", .string s.shell), ("cron_user", .string s.cronUser), ("apache", s.sites.toJson)]

/-- A path with the home directory in place of a tilde that stands for it. -/
def expandHome (home path : String) : String :=
  match path.toList with
  | ['~'] => home
  | '~' :: '/' :: _ => home ++ String.ofList (path.toList.drop 1)
  | _ => path

def templatesPath (s : Settings) (home : String) : String := expandHome home s.templatesDir

end Settings

end Provision

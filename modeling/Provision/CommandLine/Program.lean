import Provision.CommandLine.Arguments
import Provision.Execution
import Provision.Loading
import Provision.Local.Host
import Provision.Report.Codec
import Provision.Shell.Run

namespace Provision.CommandLine

open Display (Output)

structure Setting where
  vars : SortedMap String
  home : Option String
  consent : Consent
  startedAt : String := ""
  finishedAt : String := ""

structure Ending where
  output : Output := .none
  exit : Int

def loadErrorExit : Int := 2

def refused (message : String) : Ending := ⟨Display.error message, loadErrorExit⟩

def pairLine (key value : String) : String := "  " ++ key ++ ": " ++ value

def heading (dryRun : Bool) (args : RunArguments) (l : RunList) : Output :=
  Display.header (if dryRun then "Steward Diff" else "Steward Apply") ++
    .lines (pairLine "Recipe" args.recipe :: (args.target.map (pairLine "Target")).toList ++
      [pairLine "Resources" (Text.natText l.size)])

def declined : Execution → Bool
  | .declined _ => true
  | _ => false

def wasPreviewed : Execution → Bool
  | .previewed _ => true
  | _ => false

def reportJson (setting : Setting) (args : RunArguments) (e : Execution) : Json :=
  .object ([("recipe", .string args.recipe), ("started_at", .string setting.startedAt),
    ("finished_at", .string setting.finishedAt), ("declined", .bool (declined e))] ++
      e.report.toJson.asObject?.getD [])

def closing (setting : Setting) (args : RunArguments) (silent dryRun : Bool) (e : Execution) : Output :=
  if args.json then .lines [(reportJson setting args e).pretty]
  else if !silent && wasPreviewed e && !dryRun then Display.success "Already converged"
  else .none

structure Plan where
  settings : Settings
  recipe : Recipe
  runList : RunList

def Plan.load (system : LocalSystem) (setting : Setting) (args : RunArguments) : Except LoadError Plan := do
  let settings ← Settings.load system.tree system.base setting.home args.config
  let inventory ← Inventory.load system.tree system.base args.inventory
  let recipe ← Recipe.load system.tree system.base args.recipe inventory settings
  .ok ⟨settings, recipe, recipe.runList.filterByTarget args.target⟩

/-- The world of a run: the system with what the settings say, and the context at the start. -/
def Plan.world (plan : Plan) (setting : Setting) (system : LocalSystem) : World LocalSystem :=
  let templates := (setting.home.map plan.settings.templatesPath).getD plan.settings.templatesDir
  let context : Context :=
    { dryRun := false, verbose := false, env := .empty, node := plan.recipe.node
      onConflict := .warn, warnings := [] }
  ⟨{ system with shell := plan.settings.shell, templates }, context, [], []⟩

def Plan.options (plan : Plan) (verbose silent dryRun yes : Bool) : ExecutionOptions :=
  { dryRun, yes, verbose, silent, nameScope := plan.settings.nameScope
    onGuardError := plan.settings.onGuardError, onConflict := plan.settings.onConflict }

def executionMessage : ExecutionError → String
  | .refused e => e.message
  | .prompt fault => fault.message

/-- A run of a recipe; with the calls that it made. -/
def run (system : LocalSystem) (setting : Setting) (verbose quiet : Bool) (args : RunArguments)
    (dryRun yes : Bool) : Ending × LocalSystem × List Call :=
  let silent := args.json || quiet
  if silent && !yes then
    (refused "there is no diff to confirm with --json or --quiet; pass --yes", system, [])
  else
    match Plan.load system setting args with
    | .error e => (refused e.message, system, [])
    | .ok plan =>
      if plan.runList.isEmpty then
        (⟨if silent then .none else Display.warn "No resources to converge", 0⟩, system, [])
      else
        let above := if silent then .none else heading dryRun args plan.runList
        let ((result, shown), world) := Execution.execute LocalSystem.host setting.consent plan.runList
          (plan.options verbose silent dryRun yes) (plan.world setting system)
        let ending := match result with
          | .error e => ⟨above ++ shown ++ Display.error (executionMessage e), loadErrorExit⟩
          | .ok e => ⟨above ++ shown ++ closing setting args silent dryRun e, e.exitCode⟩
        (ending, world.machine, world.calls)

def query (system : LocalSystem) (quiet : Bool) (kind : String) (filter : Option String)
    (path : String) : Ending :=
  let found : Except LoadError (List Record) := do
    let inventory ← Inventory.load system.tree system.base (some path)
    let filter ← match filter with
      | some text => (Filter.parse text).mapError .ofError
      | none => .ok .all
    .ok (inventory.query kind filter)
  match found with
  | .error e => refused e.message
  | .ok records =>
    let warning := if records.isEmpty && !quiet then
        Display.warn ("No '" ++ kind ++ "' records match")
      else .none
    ⟨warning ++ .lines [(Json.array (records.map Record.toJson)).pretty], 0⟩

def start (system : LocalSystem) (setting : Setting) (args : List String) :
    Ending × LocalSystem × List Call :=
  match Arguments.parse args setting.vars with
  | .error .usage => (⟨.none, loadErrorExit⟩, system, [])
  | .error .help => (⟨.none, 0⟩, system, [])
  | .error (.version name) => (⟨.lines [name ++ " " ++ programVersion], 0⟩, system, [])
  | .ok arguments =>
    match arguments.command with
    | .apply args yes => run system setting arguments.verbose arguments.quiet args false yes
    | .diff args => run system setting arguments.verbose arguments.quiet args true true
    | .inventory kind filter path => (query system arguments.quiet kind filter path, system, [])
    | .completions _ => (⟨.none, 0⟩, system, [])

def interpreters : List String := ["/bin/sh", "/bin/bash", "/bin/dash", "/usr/bin/bash", "sh", "bash", "dash"]

/-- The programs of a system that has a shell, with the variables that they get, and a package
database that knows no package. -/
def programs (vars : SortedMap String) (user : String) (base : Place) : Programs :=
  fun _ invocation tree =>
    if interpreters.contains invocation.program then
      match invocation.args with
      | ["-c", text] =>
        let place := (invocation.cwd.bind fun dir => (tree.locate base true dir).toOption).getD base
        let vars := (⟨vars⟩ : Environment).overlay invocation.env
        some (Shell.execute text { tree, place, vars, user })
      | _ => some (⟨2, "", ""⟩, tree)
    else if invocation.program = "dpkg-query" then some (⟨1, "", "no packages found"⟩, tree)
    else none

end Provision.CommandLine

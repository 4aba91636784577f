import Provision.SortedMap
import Provision.Text.Split

namespace Provision.CommandLine

inductive OptionKind where
  | flag
  | counted
  | text
  | path
  | help
  | version
deriving DecidableEq, Repr

structure OptionSpec where
  long : String
  short : Option Char
  kind : OptionKind
deriving DecidableEq, Repr

inductive Stop where
  | usage
  | help
  | version (name : String)
deriving DecidableEq, Repr

structure Found where
  options : List (String × String) := []
  positionals : List String := []

namespace Found

def has (f : Found) (name : String) : Bool := (f.options.lookup name).isSome

def get? (f : Found) (name : String) : Option String := f.options.lookup name

end Found

structure Grammar where
  name : String
  options : List OptionSpec
  positionals : List Bool

def globalOptions : List OptionSpec :=
  [⟨"verbose", some 'v', .counted⟩, ⟨"quiet", some 'q', .flag⟩, ⟨"help", some 'h', .help⟩,
    ⟨"version", some 'V', .version⟩]

def Found.addOption (g : Grammar) (f : Found) (spec : OptionSpec) (value : String) : Except Stop Found :=
  match spec.kind with
  | .help => .error .help
  | .version => .error (.version g.name)
  | .counted => .ok { f with options := f.options ++ [(spec.long, value)] }
  | kind =>
    if f.has spec.long || (kind = .path && value = "") then .error .usage
    else .ok { f with options := f.options ++ [(spec.long, value)] }

def Found.addPositional (g : Grammar) (f : Found) (value : String) : Except Stop Found :=
  match g.positionals[f.positionals.length]? with
  | none => .error .usage
  | some isPath =>
    if isPath && value = "" then .error .usage
    else .ok { f with positionals := f.positionals ++ [value] }

def OptionKind.takesValue (k : OptionKind) : Bool := k = .text || k = .path

def isPlain (arg : String) : Bool := arg = "-" || !Text.startsWith "-" arg

/-- A cluster of short options: flags, and perhaps one option that takes the rest as its value.
The option that still waits for a value is given back. -/
def readCluster (g : Grammar) : List Char → Found → Except Stop (Found × Option OptionSpec)
  | [], f => .ok (f, none)
  | c :: rest, f =>
    match g.options.find? (·.short == some c) with
    | none => .error .usage
    | some spec =>
      if spec.kind.takesValue then
        match rest with
        | [] => .ok (f, some spec)
        | '=' :: value => do .ok (← f.addOption g spec (String.ofList value), none)
        | value => do .ok (← f.addOption g spec (String.ofList value), none)
      else do readCluster g rest (← f.addOption g spec "")

def readLong (g : Grammar) (text : String) (f : Found) : Except Stop (Found × Option OptionSpec) :=
  let (name, value) := match Text.splitFirst? "=" text with
    | some (name, value) => (name, some value)
    | none => (text, none)
  match g.options.find? (·.long == name) with
  | none => .error .usage
  | some spec =>
    match spec.kind.takesValue, value with
    | true, some value => do .ok (← f.addOption g spec value, none)
    | true, none => .ok (f, some spec)
    | false, none => do .ok (← f.addOption g spec "", none)
    | false, some _ => .error .usage

/-- Reads arguments; a waiting option takes the next one. -/
def read (g : Grammar) : (waiting : Option OptionSpec) → List String → Found → Except Stop Found
  | none, [], f => .ok f
  | some _, [], _ => .error .usage
  | some spec, arg :: rest, f =>
    if isPlain arg then do read g none rest (← f.addOption g spec arg) else .error .usage
  | none, arg :: rest, f =>
    if arg = "--" then rest.foldlM (fun f arg => f.addPositional g arg) f
    else if isPlain arg then do read g none rest (← f.addPositional g arg)
    else
      match Text.stripLead? "--" arg with
      | some text => do
        let (f, waiting) ← readLong g text f
        read g waiting rest f
      | none => do
        let (f, waiting) ← readCluster g (arg.toList.drop 1) f
        read g waiting rest f

structure RunArguments where
  recipe : String
  inventory : Option String := none
  config : Option String := none
  target : Option String := none
  json : Bool := false
deriving DecidableEq, Repr

inductive Command where
  | apply (run : RunArguments) (yes : Bool)
  | diff (run : RunArguments)
  | inventory (kind : String) (filter : Option String) (path : String)
  | completions (shell : String)
deriving DecidableEq, Repr

structure Arguments where
  verbose : Bool
  quiet : Bool
  command : Command
deriving DecidableEq, Repr

def programName : String := "steward"

def programVersion : String := "0.1.0"

def topGrammar : Grammar := ⟨programName, globalOptions, []⟩

def inventoryOption : OptionSpec := ⟨"inventory", some 'i', .path⟩

def runOptions : List OptionSpec :=
  [inventoryOption, ⟨"config", some 'c', .path⟩, ⟨"target", some 't', .text⟩, ⟨"json", none, .flag⟩]

def grammarFor (command : String) (options : List OptionSpec) (positionals : List Bool) : Grammar :=
  ⟨programName ++ "-" ++ command, options ++ globalOptions, positionals⟩

def applyGrammar : Grammar := grammarFor "apply" (runOptions ++ [⟨"yes", some 'y', .flag⟩]) [true]

def diffGrammar : Grammar := grammarFor "diff" runOptions [true]

def inventoryGrammar : Grammar := grammarFor "inventory" [inventoryOption] [false, false]

def completionsGrammar : Grammar := grammarFor "completions" [] [false]

def shells : List String := ["bash", "elvish", "fish", "powershell", "zsh"]

def commandNames : List String := ["apply", "diff", "inventory", "completions", "help"]

/-- A file named by an option, else by a variable, which must not be empty. -/
def fileOption (f : Found) (name envName : String) (vars : SortedMap String) :
    Except Stop (Option String) :=
  match f.get? name, vars.get? envName with
  | some path, _ => .ok (some path)
  | none, some path => if path = "" then .error .usage else .ok (some path)
  | none, none => .ok none

def inventoryVariable : String := "STEWARD_INVENTORY"

def configVariable : String := "STEWARD_CONFIG"

def runArguments (f : Found) (vars : SortedMap String) : Except Stop RunArguments := do
  let inventory ← fileOption f "inventory" inventoryVariable vars
  let config ← fileOption f "config" configVariable vars
  match f.positionals with
  | recipe :: _ => .ok ⟨recipe, inventory, config, f.get? "target", f.has "json"⟩
  | [] => .error .usage

def readCommand (name : String) (args : List String) (vars : SortedMap String) :
    Except Stop (Found × Command) := do
  match name with
  | "apply" =>
    let f ← read applyGrammar none args {}
    .ok (f, .apply (← runArguments f vars) (f.has "yes"))
  | "diff" =>
    let f ← read diffGrammar none args {}
    .ok (f, .diff (← runArguments f vars))
  | "inventory" =>
    let f ← read inventoryGrammar none args {}
    match f.positionals, ← fileOption f "inventory" inventoryVariable vars with
    | kind :: more, some path => .ok (f, .inventory kind more.head? path)
    | _, _ => .error .usage
  | "completions" =>
    let f ← read completionsGrammar none args {}
    match f.positionals with
    | shell :: _ => if shells.contains shell then .ok (f, .completions shell) else .error .usage
    | [] => .error .usage
  | "help" => .error (if args.all commandNames.contains then .help else .usage)
  | _ => .error .usage

def readTop : List String → Found → Except Stop (Found × Option (String × List String))
  | [], f => .ok (f, none)
  | arg :: rest, f =>
    if arg = "--" then .error .usage
    else if isPlain arg then .ok (f, some (arg, rest))
    else do
      let (f, _) ← match Text.stripLead? "--" arg with
        | some text => readLong topGrammar text f
        | none => readCluster topGrammar (arg.toList.drop 1) f
      readTop rest f

def Arguments.parse (args : List String) (vars : SortedMap String) : Except Stop Arguments := do
  let (top, command) ← readTop args {}
  match command with
  | none => .error .usage
  | some (name, rest) =>
    let (f, command) ← readCommand name rest vars
    .ok ⟨top.has "verbose" || f.has "verbose", top.has "quiet" || f.has "quiet", command⟩

end Provision.CommandLine

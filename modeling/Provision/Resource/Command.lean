import Provision.Host.World

namespace Provision

structure Command where
  command : String
  user : Option String := none
  cwd : Option String := none
  environment : SortedMap String := []
  returns : List Int := [0]
  creates : Option String := none
deriving DecidableEq, Repr

namespace Command

def describe (c : Command) : String :=
  match c.user with
  | some user => "Run `" ++ c.command ++ "` as " ++ user
  | none => "Run `" ++ c.command ++ "`"

def problem? (c : Command) : Option String :=
  if Text.isBlankText c.command then some "command is empty"
  else if c.returns.isEmpty then some "returns must list at least one exit code"
  else none

variable {σ : Type}

def alreadyCreated (host : Host σ) (c : Command) : Action σ Bool :=
  match c.creates with
  | none => return false
  | some path => perform host (.pathExists path)

def check (host : Host σ) (c : Command) : Action σ Drift := do
  if ← c.alreadyCreated host then return .inSync
  return .drifted ("run `" ++ c.command ++ "`")

def apply (host : Host σ) (c : Command) : Action σ Change := do
  if ← c.alreadyCreated host then return .unchanged
  let output ← Action.ofReply (runCommand host c.command c.user c.cwd c.environment)
  if c.returns.contains output.exit then return .converged ("ran `" ++ c.command ++ "`")
  throw (.commandFailed c.command output.exit output.stderr)

def toFields (c : Command) : Fields :=
  [("command", .string c.command), ("user", .optionString c.user), ("cwd", .optionString c.cwd),
    ("environment", .object (c.environment.map fun (k, v) => (k, .string v))),
    ("returns", .array (c.returns.map Json.int)), ("creates", .optionString c.creates)]

def fieldNames : List String := ["command", "user", "cwd", "environment", "returns", "creates"]

def exitOfJson? (v : Json) : Option Int := v.bounded? (-2147483648) 2147483647

def ofFields? (fields : Fields) : Option Command := do
  let command ← fields.need? "command" Json.asString?
  let user ← fields.optional? "user" Json.asString?
  let cwd ← fields.optional? "cwd" Json.asString?
  let environment ← fields.getOr? "environment" [] Json.stringFields?
  let returns ← fields.getOr? "returns" [0] (Json.list? exitOfJson?)
  let creates ← fields.optional? "creates" Json.asString?
  some ⟨command, user, cwd, SortedMap.ofList environment, returns, creates⟩

end Command

end Provision

import Provision.Host.World
import Provision.Pattern.Parser
import Provision.Pattern.Replace

namespace Provision

inductive Polarity where
  | onlyIf
  | notIf
deriving DecidableEq, Repr

namespace Polarity

def name : Polarity → String
  | .onlyIf => "only_if"
  | .notIf => "not_if"

def ofName? : String → Option Polarity
  | "only_if" => some .onlyIf
  | "not_if" => some .notIf
  | _ => none

end Polarity

inductive Check where
  | command (line : String) (user cwd : Option String)
  | fileExists (path : String)
  | ownedBy (path owner : String)
  | fileContains (path pattern : String)
deriving DecidableEq, Repr

namespace Check

def describe : Check → String
  | .command line _ _ => "`" ++ line ++ "`"
  | .fileExists path => path ++ " exists"
  | .ownedBy path owner => path ++ " owned by " ++ owner
  | .fileContains path pattern => path ++ " contains /" ++ pattern ++ "/"

def toFields : Check → Fields
  | .command line user cwd => [("check", .string "command"), ("command", .string line),
      ("user", .optionString user), ("cwd", .optionString cwd)]
  | .fileExists path => [("check", .string "file_exists"), ("path", .string path)]
  | .ownedBy path owner =>
    [("check", .string "owned_by"), ("path", .string path), ("owner", .string owner)]
  | .fileContains path pattern =>
    [("check", .string "file_contains"), ("path", .string path), ("pattern", .string pattern)]

def tags : List String := ["command", "file_exists", "owned_by", "file_contains"]

def ofFields? (fields : Fields) : Option Check := do
  let tag ← (fields.get? "check").bind (Json.tagOf? tags)
  match tag with
  | "command" => do
    let line ← fields.need? "command" Json.asString?
    let user ← fields.optional? "user" Json.asString?
    let cwd ← fields.optional? "cwd" Json.asString?
    some (.command line user cwd)
  | "file_exists" => (fields.need? "path" Json.asString?).map .fileExists
  | "owned_by" => do
    let path ← fields.need? "path" Json.asString?
    let owner ← fields.need? "owner" Json.asString?
    some (.ownedBy path owner)
  | _ => do
    let path ← fields.need? "path" Json.asString?
    let pattern ← fields.need? "pattern" Json.asString?
    some (.fileContains path pattern)

variable {σ : Type}

def ask {α : Type} (reply : StateM (World σ) (Except Fault α)) (context : String) : Action σ α :=
  ExceptT.mk do return (← reply).mapError fun f => .guardEvaluation (context ++ ": " ++ f.message)

def evaluate (host : Host σ) : Check → Action σ Bool
  | .command line user cwd => do
    let output ← ask (runCommand host line user cwd []) ("could not run `" ++ line ++ "`")
    return output.succeeded
  | .fileExists path => perform host (.pathExists path)
  | .ownedBy path owner => do
    let current ← ask (perform host (.owner path)) ("could not read owner of " ++ path)
    return current == some owner
  | .fileContains path pattern =>
    match Pattern.parse pattern with
    | .error m =>
      throw (.guardEvaluation ("invalid pattern " ++ Text.quote pattern ++ ": " ++ m.message))
    | .ok p => do
      let content ← ask (perform host (.read path)) ("could not read " ++ path)
      return content.any p.matchesLineOf

end Check

structure Guard where
  polarity : Polarity
  check : Check
deriving DecidableEq, Repr

inductive GuardErrorPolicy where
  | skip
  | fail
deriving DecidableEq, Repr, Inhabited

namespace GuardErrorPolicy

def name : GuardErrorPolicy → String
  | .skip => "skip"
  | .fail => "fail"

def ofName? : String → Option GuardErrorPolicy
  | "skip" => some .skip
  | "fail" => some .fail
  | _ => none

end GuardErrorPolicy

inductive Verdict where
  | permit
  | block (reason : String)
deriving DecidableEq, Repr

namespace Guard

def permits (g : Guard) (result : Bool) : Bool :=
  match g.polarity with
  | .onlyIf => result
  | .notIf => !result

def blockReason (g : Guard) : String :=
  match g.polarity with
  | .onlyIf => "only_if " ++ g.check.describe ++ " was false"
  | .notIf => "not_if " ++ g.check.describe ++ " was true"

/-- The reason why a guard with this result blocks for certain. -/
def blocks? (g : Guard) : Except Error Bool → Option String
  | .ok result => if g.permits result then none else some g.blockReason
  | .error _ => none

def failure? : Except Error Bool → Option Error
  | .ok _ => none
  | .error e => some e

/-- The verdict on guards and the results of their checks. -/
def compose (policy : GuardErrorPolicy) (results : List (Guard × Except Error Bool)) :
    Except Error Verdict :=
  match results.findSome? fun (g, r) => g.blocks? r with
  | some reason => .ok (.block reason)
  | none =>
    match results.findSome? fun (_, r) => failure? r, policy with
    | none, _ => .ok .permit
    | some e, .skip => .ok (.block ("guard error treated as false: " ++ e.message))
    | some e, .fail => .error e

variable {σ : Type}

def evaluateEach (host : Host σ) : List Guard → StateM (World σ) (List (Guard × Except Error Bool))
  | [] => return []
  | g :: rest => do
    let r ← (g.check.evaluate host).run
    let more ← evaluateEach host rest
    return (g, r) :: more

def evaluateAll (host : Host σ) (policy : GuardErrorPolicy) (guards : List Guard) :
    Action σ Verdict :=
  ExceptT.mk do return compose policy (← evaluateEach host guards)

def toJson (g : Guard) : Json :=
  .object (("polarity", .string g.polarity.name) :: g.check.toFields)

def ofJson? (v : Json) : Option Guard := do
  let fields ← v.asObject?
  let polarity ← fields.need? "polarity" fun v => (v.alternative? false).bind Polarity.ofName?
  let check ← Check.ofFields? fields
  some ⟨polarity, check⟩

end Guard

end Provision

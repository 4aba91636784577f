import Provision.Host.World

namespace Provision

structure WorkingCopy where
  destination : String
  repository : String
  revision : String
  deployKey : Option String := none
  user : Option String := none
deriving DecidableEq, Repr

/-- Whether a revision satisfies a requested one: it is the same, or the request is an abbreviated
commit id of seven characters at least that it starts with. -/
def revisionMatches (current requested : String) : Bool :=
  current == requested ||
    (7 ≤ requested.utf8ByteSize &&
      requested.toList.all (fun c => c.isDigit || ('a' ≤ c && c ≤ 'f') || ('A' ≤ c && c ≤ 'F')) &&
      Text.startsWith requested current)

namespace WorkingCopy

def describe (w : WorkingCopy) : String :=
  "Check out " ++ w.repository ++ "@" ++ w.revision ++ " into " ++ w.destination

def problem? (w : WorkingCopy) : Option String :=
  if Text.isBlankText w.repository then some "repository is empty"
  else if Text.isBlankText w.revision then some "revision is empty"
  else none

def isAt (w : WorkingCopy) (current : Option String) : Bool :=
  current.any (revisionMatches · w.revision)

def request (w : WorkingCopy) : CheckoutRequest :=
  ⟨w.repository, w.revision, w.deployKey, w.destination, w.user⟩

variable {σ : Type}

def check (host : Host σ) (w : WorkingCopy) : Action σ Drift := do
  let current ← Action.ofReply (perform host (.revision w.destination))
  if w.isAt current then return .inSync
  match current with
  | some current =>
    return .drifted ("move " ++ w.destination ++ " from " ++ current ++ " to " ++ w.revision)
  | none => return .drifted ("clone " ++ w.repository ++ " into " ++ w.destination)

def apply (host : Host σ) (w : WorkingCopy) : Action σ Change := do
  let before ← Action.ofReply (perform host (.revision w.destination))
  if w.isAt before then return .unchanged
  let after ← Action.ofReply (perform host (.checkout w.request))
  if before == some after then return .unchanged
  return .converged (w.destination ++ " now at " ++ after)

def toFields (w : WorkingCopy) : Fields :=
  [("destination", .string w.destination), ("repository", .string w.repository),
    ("revision", .string w.revision), ("deploy_key", .optionString w.deployKey),
    ("user", .optionString w.user)]

def fieldNames : List String := ["destination", "repository", "revision", "deploy_key", "user"]

def ofFields? (fields : Fields) : Option WorkingCopy := do
  let destination ← fields.need? "destination" Json.asString?
  let repository ← fields.need? "repository" Json.asString?
  let revision ← fields.getOr? "revision" "HEAD" Json.asString?
  let deployKey ← fields.optional? "deploy_key" Json.asString?
  let user ← fields.optional? "user" Json.asString?
  some ⟨destination, repository, revision, deployKey, user⟩

end WorkingCopy

end Provision

import Provision.Error
import Provision.Json.Decode

namespace Provision

inductive Drift where
  | inSync
  | drifted (change : String)
deriving DecidableEq, Repr

inductive Change where
  | unchanged
  | converged (detail : String)
deriving DecidableEq, Repr

inductive Phase where
  | pending
  | guardChecked
  | applying
  | skipped
  | unchanged
  | converged
  | failed
deriving DecidableEq, Repr

namespace Phase

def isTerminal : Phase → Bool
  | .skipped | .unchanged | .converged | .failed => true
  | _ => false

def name : Phase → String
  | .pending => "pending"
  | .guardChecked => "guard_checked"
  | .applying => "applying"
  | .skipped => "skipped"
  | .unchanged => "unchanged"
  | .converged => "converged"
  | .failed => "failed"

def all : List Phase := [.pending, .guardChecked, .applying, .skipped, .unchanged, .converged, .failed]

def ofName? (s : String) : Option Phase := all.find? (·.name == s)

end Phase

inductive Outcome where
  | unchanged
  | converged (detail : String)
  | skipped (reason : String)
  | failed (cause : String) (category : Category)
deriving DecidableEq, Repr

namespace Outcome

def isSuccess : Outcome → Bool
  | .failed .. => false
  | _ => true

def isChange : Outcome → Bool
  | .converged _ => true
  | _ => false

def phase : Outcome → Phase
  | .unchanged => .unchanged
  | .converged _ => .converged
  | .skipped _ => .skipped
  | .failed .. => .failed

def ofChange : Change → Outcome
  | .unchanged => .unchanged
  | .converged detail => .converged detail

def ofError (e : Error) : Outcome := .failed e.message e.category

def toFields : Outcome → Fields
  | .unchanged => [("outcome", .string "unchanged")]
  | .converged detail => [("outcome", .string "converged"), ("detail", .string detail)]
  | .skipped reason => [("outcome", .string "skipped"), ("reason", .string reason)]
  | .failed cause category => [("outcome", .string "failed"), ("cause", .string cause),
      ("category", .string category.name)]

def tags : List String := ["unchanged", "converged", "skipped", "failed"]

end Outcome

/-- The name that a tag stands for: one of the names, or an index into them. -/
def Json.tagOf? (names : List String) : Json → Option String
  | .string s => if names.contains s then some s else none
  | .number (.int n) => if 0 ≤ n then names[n.toNat]? else none
  | _ => none

def Outcome.ofFields? (fields : Fields) : Option Outcome := do
  let tag ← (fields.get? "outcome").bind (Json.tagOf? tags)
  match tag with
  | "unchanged" => some .unchanged
  | "converged" => (fields.need? "detail" Json.asString?).map .converged
  | "skipped" => (fields.need? "reason" Json.asString?).map .skipped
  | _ => do
    let cause ← fields.need? "cause" Json.asString?
    let category ← fields.need? "category" fun v => (v.alternative? true).bind Category.ofName?
    some (.failed cause category)

end Provision

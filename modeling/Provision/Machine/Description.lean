import Provision.Machine.Basic

namespace Provision.Machine

def fileOf : Json → StoredFile
  | .string content => { content }
  | v =>
    { content := ((v.get? "content").bind Json.asString?).getD ""
      owner := ((v.get? "owner").bind Json.asString?).getD "root" }

def fieldsOf (v : Json) (key : String) : Fields := ((v.get? key).bind Json.asObject?).getD []

def scriptOf (v : Json) : CommandScript :=
  let text (key : String) := ((v.get? key).bind Json.asString?).getD ""
  { output := ⟨((v.get? "exit").bind Json.asInt?).getD 0, text "stdout", text "stderr"⟩
    creates := (fieldsOf v "creates").map fun (path, f) => (path, fileOf f) }

def faultOf : Json → Fault
  | .string message => .ofText message
  | v => .ofChain (v.stringList?.getD [])

def layOver {α : Type} (m : SortedMap α) (entries : Fields) (read : Json → Option α) : SortedMap α :=
  entries.foldl (fun m (key, v) =>
    match v, read v with
    | .null, _ => m.erase key
    | _, some x => m.insert key x
    | _, none => m) m

def describedBy? (m : Machine) (v : Json) : Option Machine := do
  let jobs ← (((v.get? "jobs").bind Json.asArray?).getD []).mapM Job.ofJson?
  let texts (old : SortedMap String) (key : String) := layOver old (fieldsOf v key) Json.asString?
  some { m with
    files := layOver m.files (fieldsOf v "files") (some ∘ fileOf)
    links := texts m.links "links"
    commands := layOver m.commands (fieldsOf v "commands") (some ∘ scriptOf)
    revisions := texts m.revisions "revisions"
    resolve := texts m.resolve "resolve"
    packages := texts m.packages "packages"
    offers := (fieldsOf v "offers").foldl (fun os (name, o) => os.insert name o.asString?) m.offers
    jobs := m.jobs ++ jobs
    failures := layOver m.failures (fieldsOf v "fail") (some ∘ faultOf) }

end Provision.Machine

import Provision.Report.Basic

namespace Provision

namespace ResourceReport

def toJson (r : ResourceReport) : Json :=
  .object ([("kind", .string r.kind), ("name", .string r.name), ("best_effort", .bool r.bestEffort)] ++
    r.outcome.toFields ++ if r.warnings.isEmpty then [] else [("warnings", .strings r.warnings)])

def ofJson? (v : Json) : Option ResourceReport := do
  let fields ← v.asObject?
  let kind ← fields.need? "kind" Json.asString?
  let name ← fields.need? "name" Json.asString?
  let bestEffort ← fields.need? "best_effort" Json.asBool?
  let outcome ← Outcome.ofFields? fields
  let warnings ← fields.getOr? "warnings" [] Json.stringList?
  some ⟨kind, name, bestEffort, outcome, warnings⟩

end ResourceReport

namespace NotificationReport

def toJson (n : NotificationReport) : Json :=
  .object [("command", .string n.command), ("success", .bool n.success), ("detail", .string n.detail)]

def ofJson? (v : Json) : Option NotificationReport := do
  let fields ← v.record? ["command", "success", "detail"]
  let command ← fields.need? "command" Json.asString?
  let success ← fields.need? "success" Json.asBool?
  let detail ← fields.need? "detail" Json.asString?
  some ⟨command, success, detail⟩

end NotificationReport

namespace RunReport

def toJson (r : RunReport) : Json :=
  .object [("state", .string r.state.name), ("dry_run", .bool r.dryRun),
    ("resources", .array (r.resources.map ResourceReport.toJson)),
    ("notifications", .array (r.notifications.map NotificationReport.toJson))]

def ofJson? (v : Json) : Option RunReport := do
  let fields ← v.record? ["state", "dry_run", "resources", "notifications"]
  let state ← fields.need? "state" fun v => (v.alternative? false).bind RunState.ofName?
  let dryRun ← fields.need? "dry_run" Json.asBool?
  let resources ← fields.need? "resources" (Json.list? ResourceReport.ofJson?)
  let notifications ← fields.getOr? "notifications" [] (Json.list? NotificationReport.ofJson?)
  some ⟨state, dryRun, resources, notifications⟩

end RunReport

end Provision

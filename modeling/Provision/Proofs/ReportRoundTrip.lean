import Provision.CommandLine.Program
import Provision.Proofs.JsonText

namespace Provision

variable {fields : Fields}

open Json

theorem RunState.ofName?_name (s : RunState) : ofName? s.name = some s := by cases s <;> rfl

theorem Outcome.read (o : Outcome) (all : fields.Includes o.toFields) : ofFields? fields = some o := by
  cases o with
  | unchanged =>
    have tag : fields.get? "outcome" = some (.string "unchanged") := all _ _ rfl
    simp [ofFields?, tag, tagOf?, tags]
  | converged detail =>
    have tag : fields.get? "outcome" = some (.string "converged") := all _ _ rfl
    have detail : fields.need? "detail" asString? = some detail := all.need? rfl rfl
    simp [ofFields?, tag, tagOf?, tags, detail]
  | skipped reason =>
    have tag : fields.get? "outcome" = some (.string "skipped") := all _ _ rfl
    have reason : fields.need? "reason" asString? = some reason := all.need? rfl rfl
    simp [ofFields?, tag, tagOf?, tags, reason]
  | failed cause category =>
    have tag : fields.get? "outcome" = some (.string "failed") := all _ _ rfl
    have cause : fields.need? "cause" asString? = some cause := all.need? rfl rfl
    have category : fields.need? "category" (fun v => (v.alternative? true).bind Category.ofName?) = some category := by
      refine all.need? rfl ?_
      exact Category.ofName?_name category
    simp [ofFields?, tag, tagOf?, tags, cause, category]

theorem Outcome.get?_toFields (o : Outcome) {key : String} (other : key ∈ ["kind", "name", "best_effort", "warnings"]) :
    o.toFields.get? key = none := by
  simp only [List.mem_cons, List.not_mem_nil, or_false] at other
  rcases other with rfl | rfl | rfl | rfl <;> cases o <;> rfl

namespace ResourceReport

variable (r : ResourceReport)

def identityFields : Fields := [("kind", .string r.kind), ("name", .string r.name), ("best_effort", .bool r.bestEffort)]

def warningFields : Fields := if r.warnings.isEmpty then [] else [("warnings", .strings r.warnings)]

def toFields : Fields := r.identityFields ++ r.outcome.toFields ++ r.warningFields

theorem toJson_eq : r.toJson = .object r.toFields := rfl

theorem includes_identity : r.toFields.Includes r.identityFields :=
  (Fields.includes_front _ r.warningFields).trans (Fields.includes_front _ r.outcome.toFields)

theorem includes_outcome : r.toFields.Includes r.outcome.toFields := by
  refine (Fields.includes_front _ r.warningFields).trans (Fields.includes_back fun key member => ?_)
  refine r.outcome.get?_toFields ?_
  simp only [identityFields, List.map_cons, List.map_nil, List.mem_cons, List.not_mem_nil, or_false] at member ⊢
  rcases member with rfl | rfl | rfl <;> simp

theorem get?_warnings : r.toFields.get? "warnings" =
    if r.warnings.isEmpty then none else some (.strings r.warnings) := by
  have absent : "warnings" ∉ (r.identityFields ++ r.outcome.toFields).map Prod.fst := by
    cases r.outcome <;> simp [identityFields, Outcome.toFields]
  rw [toFields, Fields.get?_append_of_not_mem absent, warningFields]
  cases r.warnings <;> rfl

theorem ofJson?_toJson : ofJson? r.toJson = some r := by
  have all := r.includes_identity
  have kind : r.toFields.need? "kind" asString? = some r.kind := all.need? rfl rfl
  have name : r.toFields.need? "name" asString? = some r.name := all.need? rfl rfl
  have bestEffort : r.toFields.need? "best_effort" asBool? = some r.bestEffort := all.need? rfl rfl
  have outcome := r.outcome.read r.includes_outcome
  have warnings : r.toFields.getOr? "warnings" [] stringList? = some r.warnings := by
    rw [Fields.getOr?, get?_warnings]
    cases given : r.warnings with
    | nil => rfl
    | cons w rest => exact stringList?_strings (w :: rest)
  simp [toJson_eq, ofJson?, asObject?, kind, name, bestEffort, outcome, warnings]

end ResourceReport

theorem NotificationReport.ofJson?_toJson (n : NotificationReport) : ofJson? n.toJson = some n := rfl

namespace RunReport

variable (r : RunReport)

def toFields : Fields :=
  [("state", .string r.state.name), ("dry_run", .bool r.dryRun),
    ("resources", .array (r.resources.map ResourceReport.toJson)),
    ("notifications", .array (r.notifications.map NotificationReport.toJson))]

theorem read (all : fields.Includes r.toFields) : ofJson? (.object fields) = some r := by
  have state : fields.need? "state" (fun v => (v.alternative? false).bind RunState.ofName?) = some r.state := by
    refine all.need? rfl ?_
    exact RunState.ofName?_name r.state
  have dryRun : fields.need? "dry_run" asBool? = some r.dryRun := all.need? rfl rfl
  have resources : fields.need? "resources" (list? ResourceReport.ofJson?) = some r.resources :=
    all.need? rfl (list?_map fun x _ => x.ofJson?_toJson)
  have notifications : fields.getOr? "notifications" [] (list? NotificationReport.ofJson?) = some r.notifications :=
    all.getOr? rfl (list?_map fun n _ => n.ofJson?_toJson)
  simp [ofJson?, record?, state, dryRun, resources, notifications]

theorem ofJson?_toJson : ofJson? r.toJson = some r := r.read fun _ _ here => here

end RunReport

namespace Json

theorem Plain.strings {depth : Nat} (items : List String) : Plain (depth + 1) (strings items) := by
  refine .array fun v member => ?_
  obtain ⟨s, -, rfl⟩ := List.mem_map.mp member
  exact .string s

end Json

theorem Outcome.text_of_mem_toFields (o : Outcome) : ∀ field ∈ o.toFields, ∃ s, field.2 = .string s := by
  cases o <;> simp [toFields]

theorem ResourceReport.plain (r : ResourceReport) (depth : Nat) : Plain (depth + 2) r.toJson := by
  rw [toJson_eq, toFields]
  refine .object ?_ fun field member => ?_
  · unfold warningFields
    cases r.outcome <;> split <;> simp [identityFields, Outcome.toFields]
  · rcases List.mem_append.mp member with member | member
    · rcases List.mem_append.mp member with member | member
      · simp only [identityFields, List.mem_cons, List.not_mem_nil, or_false] at member
        rcases member with rfl | rfl | rfl
        · exact .string _
        · exact .string _
        · exact .bool _
      · obtain ⟨s, text⟩ := r.outcome.text_of_mem_toFields field member
        rw [text]
        exact .string s
    · unfold warningFields at member
      split at member
      · cases member
      · rw [List.mem_singleton.mp member]
        exact .strings _

theorem NotificationReport.plain (n : NotificationReport) (depth : Nat) : Plain (depth + 1) n.toJson := by
  refine .object (by simp) fun field member => ?_
  simp only [List.mem_cons, List.not_mem_nil, or_false] at member
  rcases member with rfl | rfl | rfl
  · exact .string _
  · exact .bool _
  · exact .string _

namespace RunReport

variable (r : RunReport)

theorem plain_toFields (depth : Nat) : ∀ field ∈ r.toFields, Plain (depth + 3) field.2 := by
  intro field member
  simp only [toFields, List.mem_cons, List.not_mem_nil, or_false] at member
  rcases member with rfl | rfl | rfl | rfl
  · exact .string _
  · exact .bool _
  · refine .array fun v member => ?_
    obtain ⟨x, -, rfl⟩ := List.mem_map.mp member
    exact x.plain depth
  · refine .array fun v member => ?_
    obtain ⟨n, -, rfl⟩ := List.mem_map.mp member
    exact n.plain (depth + 1)

theorem plain (depth : Nat) : Plain (depth + 4) r.toJson := .object (by simp) (r.plain_toFields depth)

end RunReport

def RunReport.ofText? (text : String) : Option RunReport := (Json.parse? text).bind RunReport.ofJson?

/-- The text carries the report: it is read with all its fields, and with all that is computed from them. -/
def RunReport.Carries (r : RunReport) (text : String) : Prop :=
  ∃ read, ofText? text = some read ∧ read = r ∧ read.summary = r.summary ∧ read.abortCause? = r.abortCause? ∧
    read.exitCode = r.exitCode ∧ read.pendingChanges = r.pendingChanges ∧ read.diffSummary = r.diffSummary

theorem RunReport.carries_of_read {r : RunReport} {text : String} {v : Json} (parsed : Json.parse? text = some v)
    (read : ofJson? v = some r) : r.Carries text := by
  have back : ofText? text = some r := by
    rw [ofText?, parsed]
    exact read
  exact ⟨r, back, rfl, rfl, rfl, rfl, rfl, rfl⟩

namespace CommandLine

variable (setting : Setting) (args : RunArguments) (e : Execution)

def runFields : Fields :=
  [("recipe", .string args.recipe), ("started_at", .string setting.startedAt),
    ("finished_at", .string setting.finishedAt), ("declined", .bool (declined e))]

theorem reportJson_eq : reportJson setting args e = .object (runFields setting args e ++ e.report.toFields) := rfl

theorem reportJson_plain (depth : Nat) : Plain (depth + 4) (reportJson setting args e) := by
  rw [reportJson_eq]
  refine .object (by simp [runFields, RunReport.toFields]) fun field member => ?_
  rcases List.mem_append.mp member with member | member
  · simp only [runFields, List.mem_cons, List.not_mem_nil, or_false] at member
    rcases member with rfl | rfl | rfl | rfl
    · exact .string _
    · exact .string _
    · exact .string _
    · exact .bool _
  · exact e.report.plain_toFields depth field member

theorem ofJson?_reportJson : RunReport.ofJson? (reportJson setting args e) = some e.report := by
  rw [reportJson_eq]
  refine e.report.read (Fields.includes_back fun key member => ?_)
  simp only [runFields, List.map_cons, List.map_nil, List.mem_cons, List.not_mem_nil, or_false] at member
  rcases member with rfl | rfl | rfl | rfl <;> rfl

theorem parse?_reportJson :
    Json.parse? ((reportJson setting args e).pretty ++ "\n") = some (reportJson setting args e) :=
  (reportJson_plain setting args e 123).parse?_prettyLine

end CommandLine

open CommandLine (Setting RunArguments reportJson) in
/-- A report is carried by its own texts, and by what is printed of a run that ended with it. -/
theorem RunReport.text_round_trip (r : RunReport) :
    r.Carries r.toJson.compact ∧ r.Carries r.toJson.pretty ∧
      ∀ (setting : Setting) (args : RunArguments) (e : Execution),
        e.report = r → r.Carries ((reportJson setting args e).pretty ++ "\n") := by
  have plain : Plain Source.maxDepth r.toJson := r.plain 123
  refine ⟨carries_of_read plain.parse?_compact r.ofJson?_toJson,
    carries_of_read plain.parse?_pretty r.ofJson?_toJson, ?_⟩
  rintro setting args e rfl
  exact carries_of_read (CommandLine.parse?_reportJson setting args e) (CommandLine.ofJson?_reportJson setting args e)

end Provision

import Provision.Proofs.JsonFields
import Provision.Resource.Basic

namespace Provision

variable {fields : Fields}

def Binding.entry (b : Binding) : String × Json := (b.key, .string b.value)

def Binding.merged (bindings : List Binding) : List Binding := ofFields (Fields.ofEntries (bindings.map entry))

namespace Binding

variable {bindings : List Binding}

theorem ofFields_entries (bindings : List Binding) : ofFields (bindings.map entry) = bindings := by
  induction bindings with
  | nil => rfl
  | cons b rest ih => exact congrArg (b :: ·) ih

theorem entries_keys (bindings : List Binding) : (bindings.map entry).map Prod.fst = bindings.map (·.key) := by
  rw [List.map_map]
  rfl

theorem entries_ofFields {fields : Fields} (texts : ∀ field ∈ fields, ∃ s, field.2 = .string s) :
    (ofFields fields).map entry = fields := by
  induction fields with
  | nil => rfl
  | cons field rest ih =>
    obtain ⟨k, v⟩ := field
    obtain ⟨s, here⟩ := texts (k, v) List.mem_cons_self
    cases here
    exact congrArg ((k, .string s) :: ·) (ih fun later member => texts later (List.mem_cons_of_mem _ member))

theorem merged_entries (bindings : List Binding) :
    (merged bindings).map entry = Fields.ofEntries (bindings.map entry) := by
  have written : ∀ e ∈ bindings.map entry, ∃ s, e.2 = .string s := by
    intro e member
    obtain ⟨b, -, rfl⟩ := List.mem_map.mp member
    exact ⟨b.value, rfl⟩
  exact entries_ofFields (Fields.ofEntries_forall (P := fun v => ∃ s, v = .string s) written)

theorem merged_distinct (bindings : List Binding) : ((merged bindings).map (·.key)).Nodup := by
  rw [← entries_keys, merged_entries]
  exact Fields.ofEntries_distinct _

theorem merged_eq_self_iff : merged bindings = bindings ↔ (bindings.map (·.key)).Nodup := by
  constructor
  · intro same
    rw [← same]
    exact merged_distinct bindings
  · intro distinct
    rw [← entries_keys] at distinct
    rw [merged, Fields.ofEntries_of_distinct distinct, ofFields_entries]

end Binding

def LineEdit.merged (e : LineEdit) : LineEdit := { e with bindings := Binding.merged e.bindings }

theorem LineEdit.merged_bindingsJson (e : LineEdit) : bindingsJson e.merged.bindings = bindingsJson e.bindings := by
  have written (bindings : List Binding) : bindingsJson bindings =
      .object (Fields.ofEntries (bindings.map Binding.entry)) := rfl
  rw [written, written, merged, Binding.merged_entries, Fields.ofEntries_of_distinct (Fields.ofEntries_distinct _)]

theorem LineSyntax.ofName?_name (s : LineSyntax) : ofName? s.name = some s := by cases s <;> rfl

theorem ConflictPolicy.ofName?_name (p : ConflictPolicy) : ofName? p.name = some p := by cases p <;> rfl

theorem Polarity.ofName?_name (p : Polarity) : ofName? p.name = some p := by cases p <;> rfl

open Json

theorem Package.read (p : Package) (all : fields.Includes p.toFields) : ofFields? fields = some p := by
  have package : fields.need? "package" asString? = some p.package := all.need? rfl rfl
  have version : fields.optional? "version" asString? = some p.version := all.optional? rfl (optional?_optionString _)
  simp [ofFields?, package, version]

structure Command.Proper (k : Command) : Prop where
  environment : k.environment.Increasing
  returns : ∀ n ∈ k.returns, -2147483648 ≤ n ∧ n ≤ 2147483647

theorem Command.read {k : Command} (proper : k.Proper) (all : fields.Includes k.toFields) :
    ofFields? fields = some k := by
  have command : fields.need? "command" asString? = some k.command := all.need? rfl rfl
  have user : fields.optional? "user" asString? = some k.user := all.optional? rfl (optional?_optionString _)
  have cwd : fields.optional? "cwd" asString? = some k.cwd := all.optional? rfl (optional?_optionString _)
  have environment : fields.getOr? "environment" [] stringFields? = some k.environment :=
    all.getOr? rfl (stringFields?_map _)
  have returns : fields.getOr? "returns" [0] (list? exitOfJson?) = some k.returns :=
    all.getOr? rfl (list?_map fun n member => bounded?_int (proper.returns n member).1 (proper.returns n member).2)
  have creates : fields.optional? "creates" asString? = some k.creates := all.optional? rfl (optional?_optionString _)
  have kept := SortedMap.ofList_of_increasing proper.environment
  simp [ofFields?, command, user, cwd, environment, returns, creates, kept]

theorem LineEdit.read (e : LineEdit) (all : fields.Includes e.toFields) : ofFields? fields = some e.merged := by
  have path : fields.optional? "path" asString? = some e.path := all.optional? rfl (optional?_optionString _)
  have lineSyntax : fields.getOr? "syntax" .plain (fun v => (v.alternative? true).bind LineSyntax.ofName?) =
      some e.lineSyntax := by
    refine all.getOr? rfl ?_
    exact LineSyntax.ofName?_name e.lineSyntax
  have bindings : fields.getOr? "bindings" [] (fun v => v.asObject?.map Binding.ofFields) =
      some (Binding.merged e.bindings) := all.getOr? rfl rfl
  have replace : fields.optional? "replace" replacementOfJson? = some e.replace :=
    all.optional? rfl (optional?_option (fun _ _ => rfl) (by simp [LineReplacement.toJson]))
  have onConflict : fields.optional? "on_conflict" (fun v => (v.alternative? true).bind ConflictPolicy.ofName?) =
      some e.onConflict := by
    refine all.optional? rfl ?_
    rw [optionString, Option.map_map]
    exact optional?_option (fun p _ => ConflictPolicy.ofName?_name p) (by simp)
  simp [ofFields?, path, lineSyntax, bindings, replace, onConflict, merged]

theorem RenderedFile.read (f : RenderedFile) (all : fields.Includes f.toFields) : ofFields? fields = some f := by
  have path : fields.need? "path" asString? = some f.path := all.need? rfl rfl
  have source : fields.need? "source" asString? = some f.source := all.need? rfl rfl
  have values : fields.getOr? "variables" [] asObject? = some f.values := all.getOr? rfl rfl
  simp [ofFields?, path, source, values]

theorem WorkingCopy.read (w : WorkingCopy) (all : fields.Includes w.toFields) : ofFields? fields = some w := by
  have destination : fields.need? "destination" asString? = some w.destination := all.need? rfl rfl
  have repository : fields.need? "repository" asString? = some w.repository := all.need? rfl rfl
  have revision : fields.getOr? "revision" "HEAD" asString? = some w.revision := all.getOr? rfl rfl
  have deployKey : fields.optional? "deploy_key" asString? = some w.deployKey :=
    all.optional? rfl (optional?_optionString _)
  have user : fields.optional? "user" asString? = some w.user := all.optional? rfl (optional?_optionString _)
  simp [ofFields?, destination, repository, revision, deployKey, user]

theorem Schedule.read (s : Schedule) (all : fields.Includes s.toFields) : ofFields? fields = some s := by
  have minute : fields.getOr? "minute" "*" asString? = some s.minute := all.getOr? rfl rfl
  have hour : fields.getOr? "hour" "*" asString? = some s.hour := all.getOr? rfl rfl
  have day : fields.getOr? "day" "*" asString? = some s.day := all.getOr? rfl rfl
  have month : fields.getOr? "month" "*" asString? = some s.month := all.getOr? rfl rfl
  have weekday : fields.getOr? "weekday" "*" asString? = some s.weekday := all.getOr? rfl rfl
  simp [ofFields?, minute, hour, day, month, weekday]

theorem ScheduledJob.read (j : ScheduledJob) (all : fields.Includes j.toFields) : ofFields? fields = some j := by
  have scheduled : fields.Includes j.schedule.toFields := by
    intro key v here
    apply all
    rw [toFields, Fields.get?_append, here]
    rfl
  have schedule : Schedule.ofFields? fields = some j.schedule := j.schedule.read scheduled
  have command : fields.need? "command" asString? = some j.command := all.need? rfl rfl
  have user : fields.getOr? "user" "root" asString? = some j.user := all.getOr? rfl rfl
  simp [ofFields?, schedule, command, user]

theorem Site.read {s : Site} (port : s.serverPort ≤ 65535) (all : fields.Includes s.toFields) :
    ofFields? fields = some s := by
  have template : fields.getOr? "template" "web_app.conf.j2" asString? = some s.template := all.getOr? rfl rfl
  have serverName : fields.need? "server_name" asString? = some s.serverName := all.need? rfl rfl
  have serverAliases : fields.getOr? "server_aliases" [] stringList? = some s.serverAliases :=
    all.getOr? rfl (stringList?_strings _)
  have serverPort : fields.getOr? "server_port" 80 (bounded? 0 65535) = some (s.serverPort : Int) :=
    all.getOr? rfl (bounded?_int (Int.natCast_nonneg _) (Int.ofNat_le.mpr port))
  have docroot : fields.need? "docroot" asString? = some s.docroot := all.need? rfl rfl
  have allowOverride : fields.optional? "allow_override" asString? = some s.allowOverride :=
    all.optional? rfl (optional?_optionString _)
  have params : fields.getOr? "params" [] asObject? = some s.params := all.getOr? rfl rfl
  have enabled : fields.getOr? "enabled" true asBool? = some s.enabled := all.getOr? rfl rfl
  have sitesAvailable : fields.optional? "sites_available" asString? = some s.sitesAvailable :=
    all.optional? rfl (optional?_optionString _)
  have sitesEnabled : fields.optional? "sites_enabled" asString? = some s.sitesEnabled :=
    all.optional? rfl (optional?_optionString _)
  simp [ofFields?, template, serverName, serverAliases, serverPort, docroot, allowOverride, params, enabled,
    sitesAvailable, sitesEnabled]

theorem Ownership.read (o : Ownership) (all : fields.Includes o.toFields) : ofFields? fields = some o := by
  have path : fields.need? "path" asString? = some o.path := all.need? rfl rfl
  have owner : fields.need? "owner" asString? = some o.owner := all.need? rfl rfl
  have group : fields.optional? "group" asString? = some o.group := all.optional? rfl (optional?_optionString _)
  have recursive : fields.getOr? "recursive" true asBool? = some o.recursive := all.getOr? rfl rfl
  simp [ofFields?, path, owner, group, recursive]

theorem Check.read (check : Check) (all : fields.Includes check.toFields) : ofFields? fields = some check := by
  cases check with
  | command line user cwd =>
    have tag : fields.get? "check" = some (.string "command") := all _ _ rfl
    have line : fields.need? "command" asString? = some line := all.need? rfl rfl
    have user : fields.optional? "user" asString? = some user := all.optional? rfl (optional?_optionString _)
    have cwd : fields.optional? "cwd" asString? = some cwd := all.optional? rfl (optional?_optionString _)
    simp [ofFields?, tag, tagOf?, tags, line, user, cwd]
  | fileExists path =>
    have tag : fields.get? "check" = some (.string "file_exists") := all _ _ rfl
    have path : fields.need? "path" asString? = some path := all.need? rfl rfl
    simp [ofFields?, tag, tagOf?, tags, path]
  | ownedBy path owner =>
    have tag : fields.get? "check" = some (.string "owned_by") := all _ _ rfl
    have path : fields.need? "path" asString? = some path := all.need? rfl rfl
    have owner : fields.need? "owner" asString? = some owner := all.need? rfl rfl
    simp [ofFields?, tag, tagOf?, tags, path, owner]
  | fileContains path pattern =>
    have tag : fields.get? "check" = some (.string "file_contains") := all _ _ rfl
    have path : fields.need? "path" asString? = some path := all.need? rfl rfl
    have pattern : fields.need? "pattern" asString? = some pattern := all.need? rfl rfl
    simp [ofFields?, tag, tagOf?, tags, path, pattern]

theorem Guard.ofJson?_toJson (g : Guard) : ofJson? g.toJson = some g := by
  have unpolarized : g.check.toFields.get? "polarity" = none := by cases g.check <;> rfl
  have all : Fields.Includes ([("polarity", .string g.polarity.name)] ++ g.check.toFields) g.check.toFields :=
    Fields.includes_back (by simpa using unpolarized)
  have polarity : Fields.need? (("polarity", .string g.polarity.name) :: g.check.toFields) "polarity"
      (fun v => (v.alternative? false).bind Polarity.ofName?) = some g.polarity := by
    rw [Fields.need?, Fields.get?_cons_self]
    exact Polarity.ofName?_name g.polarity
  rw [List.singleton_append] at all
  have check := g.check.read all
  simp [ofJson?, toJson, asObject?, polarity, check]

def Spec.merged : Spec → Spec
  | .lineEdit e => .lineEdit e.merged
  | spec => spec

/-- Properties as they are kept: statuses have 32 bits, ports 16, and values are proper. -/
def Spec.Proper : Spec → Prop
  | .command k => k.Proper
  | .renderedFile f => (Json.object f.values).Proper
  | .site s => s.serverPort ≤ 65535 ∧ (Json.object s.params).Proper
  | _ => True

theorem Spec.readOwn {spec : Spec} (proper : spec.Proper) (all : fields.Includes spec.ownFields) :
    ofOwnFields? spec.kind fields = some spec.merged := by
  cases spec with
  | package p => exact congrArg (Option.map Spec.package) (p.read all)
  | command k => exact congrArg (Option.map Spec.command) (Command.read proper all)
  | lineEdit e => exact congrArg (Option.map Spec.lineEdit) (e.read all)
  | renderedFile f => exact congrArg (Option.map Spec.renderedFile) (f.read all)
  | workingCopy w => exact congrArg (Option.map Spec.workingCopy) (w.read all)
  | scheduledJob j => exact congrArg (Option.map Spec.scheduledJob) (j.read all)
  | site s => exact congrArg (Option.map Spec.site) (Site.read proper.1 all)
  | ownership o => exact congrArg (Option.map Spec.ownership) (o.read all)

theorem Spec.read {spec : Spec} (proper : spec.Proper) (tag : fields.get? "kind" = some (.string spec.kind.tag))
    (all : fields.Includes spec.ownFields) : ofFields? fields = some spec.merged := by
  have known : tagOf? tags (.string spec.kind.tag) = some spec.kind.tag := by
    cases spec <;> rfl
  have kind : Kind.ofTag? spec.kind.tag = some spec.kind := Kind.ofTag?_tag spec.kind
  have own := readOwn proper all
  simp [ofFields?, tag, known, kind, own]

def Resource.commonNames : List String := ["name", "kind", "guards", "best_effort", "on_guard_error", "notifies"]

theorem Spec.get?_ownFields (spec : Spec) {key : String} (common : key ∈ Resource.commonNames) :
    spec.ownFields.get? key = none := by
  simp only [Resource.commonNames, List.mem_cons, List.not_mem_nil, or_false] at common
  rcases common with rfl | rfl | rfl | rfl | rfl | rfl <;> cases spec <;> rfl

namespace Resource

variable (r : Resource)

/-- The fields that follow those of the kind. Guards and notifications are left out where there are none. -/
def settings : Fields :=
  (if r.guards.isEmpty then [] else [("guards", .array (r.guards.map Guard.toJson))]) ++
    (("best_effort", .bool r.bestEffort) ::
      ((match r.onGuardError with
      | some p => [("on_guard_error", .string p.name)]
      | none => []) ++
        if r.notifies.isEmpty then [] else [("notifies", .strings r.notifies)]))

theorem toFields_eq : r.toFields =
    ("name", .string r.name) :: ("kind", .string r.kind.tag) :: (r.spec.ownFields ++ r.settings) := by
  cases policy : r.onGuardError <;> simp [toFields, Spec.toFields, settings, kind, policy]

theorem includes_ownFields : r.toFields.Includes r.spec.ownFields := by
  -- No kind has a field of a name that all resources have, so none hides another.
  have own : Fields.Includes ([("name", .string r.name), ("kind", .string r.kind.tag)] ++ r.spec.ownFields)
      r.spec.ownFields := by
    refine Fields.includes_back fun key member => r.spec.get?_ownFields ?_
    simp only [List.map_cons, List.map_nil, List.mem_cons, List.not_mem_nil, or_false] at member
    rcases member with rfl | rfl <;> decide
  rw [toFields_eq]
  exact (Fields.includes_front _ r.settings).trans own

theorem get?_settings {key : String} (common : key ∈ commonNames) (notName : key ≠ "name")
    (notKind : key ≠ "kind") : r.toFields.get? key = r.settings.get? key := by
  rw [toFields_eq, Fields.get?_cons_of_ne notName, Fields.get?_cons_of_ne notKind, Fields.get?_append,
    r.spec.get?_ownFields common]
  rfl

theorem get?_guards : r.toFields.get? "guards" =
    if r.guards.isEmpty then none else some (.array (r.guards.map Guard.toJson)) := by
  rw [get?_settings r (by decide) (by decide) (by decide), settings]
  cases r.guards <;> cases r.onGuardError <;> cases r.notifies <;> rfl

theorem get?_bestEffort : r.toFields.get? "best_effort" = some (.bool r.bestEffort) := by
  rw [get?_settings r (by decide) (by decide) (by decide), settings]
  cases r.guards <;> rfl

theorem get?_onGuardError : r.toFields.get? "on_guard_error" = r.onGuardError.map (.string ·.name) := by
  rw [get?_settings r (by decide) (by decide) (by decide), settings]
  cases r.guards <;> cases r.onGuardError <;> cases r.notifies <;> rfl

theorem get?_notifies : r.toFields.get? "notifies" =
    if r.notifies.isEmpty then none else some (.strings r.notifies) := by
  rw [get?_settings r (by decide) (by decide) (by decide), settings]
  cases r.guards <;> cases r.onGuardError <;> cases r.notifies <;> rfl

def merged : Resource := { r with spec := r.spec.merged }

theorem ofJson?_toJson (proper : r.spec.Proper) : ofJson? r.toJson = some r.merged := by
  have name : r.toFields.need? "name" asString? = some r.name := by
    rw [Fields.need?, toFields_eq, Fields.get?_cons_self]
    rfl
  have guards : r.toFields.getOr? "guards" [] (list? Guard.ofJson?) = some r.guards := by
    rw [Fields.getOr?, get?_guards]
    cases declared : r.guards with
    | nil => rfl
    | cons g rest => exact list?_map fun g _ => g.ofJson?_toJson
  have bestEffort : r.toFields.getOr? "best_effort" false asBool? = some r.bestEffort := by
    rw [Fields.getOr?, get?_bestEffort]
    rfl
  have onGuardError : r.toFields.optional? "on_guard_error"
      (fun v => (v.alternative? false).bind GuardErrorPolicy.ofName?) = some r.onGuardError := by
    rw [Fields.optional?, Fields.getOr?, get?_onGuardError]
    cases r.onGuardError with
    | none => rfl
    | some p => cases p <;> rfl
  have notifies : r.toFields.getOr? "notifies" [] stringList? = some r.notifies := by
    rw [Fields.getOr?, get?_notifies]
    cases declared : r.notifies with
    | nil => rfl
    | cons c rest => exact stringList?_strings _
  have tag : r.toFields.get? "kind" = some (.string r.spec.kind.tag) := by
    rw [toFields_eq, Fields.get?_cons_of_ne (by decide), Fields.get?_cons_self]
    rfl
  have spec : Spec.ofFields? r.toFields = some r.spec.merged := Spec.read proper tag r.includes_ownFields
  simp [ofJson?, toJson, asObject?, ofFields?, name, guards, bestEffort, onGuardError, notifies, spec, merged]

theorem merged_toJson : r.merged.toJson = r.toJson := by
  have own : r.spec.merged.ownFields = r.spec.ownFields := by
    cases r.spec with
    | lineEdit e =>
      have bindings := e.merged_bindingsJson
      simp only [Spec.merged, Spec.ownFields, LineEdit.toFields, bindings]
      rfl
    | _ => rfl
  have sameKind : r.spec.merged.kind = r.spec.kind := by cases r.spec <;> rfl
  simp [toJson, toFields, Spec.toFields, merged, own, sameKind]

end Resource

/-- The properties are bindings, and some key is bound more than once. -/
def Resource.RepeatsKey (r : Resource) : Prop :=
  ∃ e, r.spec = .lineEdit e ∧ ¬ (e.bindings.map (·.key)).Nodup

theorem LineEdit.merged_eq_self_iff (e : LineEdit) : e.merged = e ↔ (e.bindings.map (·.key)).Nodup := by
  rw [← Binding.merged_eq_self_iff]
  constructor
  · intro same
    exact congrArg LineEdit.bindings same
  · intro same
    rw [merged, same]

theorem Spec.same_self {spec : Spec} (proper : spec.Proper) : spec.same spec = true := by
  cases spec with
  | renderedFile f => simp [same, RenderedFile.same, Json.Proper.same_self proper]
  | site s => simp [same, Site.same, Json.Proper.same_self proper.2]
  | _ => simp [same]

namespace Resource

variable {r : Resource}

theorem merged_eq_self (single : ¬ r.RepeatsKey) : r.merged = r := by
  have spec : r.spec.merged = r.spec := by
    cases here : r.spec with
    | lineEdit e =>
      have distinct : (e.bindings.map (·.key)).Nodup := by
        by_contra repeated
        exact single ⟨e, here, repeated⟩
      exact congrArg Spec.lineEdit (e.merged_eq_self_iff.mpr distinct)
    | _ => rfl
  rw [merged, spec]

theorem same_merged_iff (proper : r.spec.Proper) : r.same r.merged = true ↔ ¬ r.RepeatsKey := by
  constructor
  · rintro same ⟨e, here, repeated⟩
    have specs : r.spec.same r.merged.spec = true := by
      simp only [Resource.same, Bool.and_eq_true] at same
      exact same.1.1.1.1.2
    rw [merged, here] at specs
    have equal : e = e.merged := by simpa [Spec.merged, Spec.same] using specs
    exact repeated (e.merged_eq_self_iff.mp equal.symm)
  · intro single
    rw [merged_eq_self single]
    simp [Resource.same, Spec.same_self proper]

end Resource

/-- A resource is read back from its JSON, as it was unless it binds a key more than once; and what is read back is
written as the same JSON. -/
theorem resource_round_trip {r : Resource} (proper : r.spec.Proper) :
    ∃ back, Resource.ofJson? r.toJson = some back ∧ (r.same back = true ↔ ¬ r.RepeatsKey) ∧
      (back = r ↔ ¬ r.RepeatsKey) ∧ back.toJson = r.toJson := by
  refine ⟨r.merged, r.ofJson?_toJson proper, Resource.same_merged_iff proper, ?_, r.merged_toJson⟩
  constructor
  · intro same
    rw [← Resource.same_merged_iff proper, same]
    simp [Resource.same, Spec.same_self proper]
  · exact Resource.merged_eq_self

theorem Json.Proper.field {fields : Fields} {key : String} {v : Json} (proper : (Json.object fields).Proper)
    (here : fields.get? key = some v) : v.Proper := by
  cases proper with
  | object distinct each => exact each (key, v) ((Fields.get?_eq_some_iff distinct).mp here)

theorem Json.Proper.objectField {fields values : Fields} {key : String} (proper : (Json.object fields).Proper)
    (read : fields.getOr? key [] Json.asObject? = some values) : (Json.object values).Proper := by
  rcases Fields.getOr?_eq_some read with rfl | ⟨v, here, isObject⟩
  · exact .object .nil (by simp)
  · have kept := proper.field here
    cases v <;> cases isObject
    exact kept

theorem Json.within_of_bounded? {low high n : Int} {v : Json} (read : v.bounded? low high = some n) :
    low ≤ n ∧ n ≤ high := by
  obtain ⟨-, within⟩ := Option.filter_eq_some_iff.mp read
  simpa using within

theorem Command.proper_of_read {k : Command} (read : ofFields? fields = some k) : k.Proper := by
  simp only [ofFields?, Option.bind_eq_bind, Option.bind_eq_some_iff] at read
  obtain ⟨command, -, user, -, cwd, -, environment, -, returns, listed, creates, -, made⟩ := read
  cases made
  refine ⟨SortedMap.ofList_increasing environment, fun n member => ?_⟩
  rcases Fields.getOr?_eq_some listed with rfl | ⟨v, -, isList⟩
  · rw [List.mem_singleton.mp member]
    decide
  · cases v with
    | array items =>
      obtain ⟨item, -, found⟩ := mem_of_mapM isList member
      exact within_of_bounded? found
    | _ => cases isList

theorem RenderedFile.proper_of_read {f : RenderedFile} (proper : (Json.object fields).Proper)
    (read : ofFields? fields = some f) : (Json.object f.values).Proper := by
  simp only [ofFields?, Option.bind_eq_bind, Option.bind_eq_some_iff] at read
  obtain ⟨path, -, source, -, values, given, made⟩ := read
  cases made
  exact proper.objectField given

theorem Site.proper_of_read {s : Site} (proper : (Json.object fields).Proper) (read : ofFields? fields = some s) :
    s.serverPort ≤ 65535 ∧ (Json.object s.params).Proper := by
  simp only [ofFields?, Option.bind_eq_bind, Option.bind_eq_some_iff] at read
  obtain ⟨template, -, name, -, aliases, -, port, bound, docroot, -, override, -, params, given, enabled, -,
    available, -, links, -, made⟩ := read
  cases made
  have small : port ≤ 65535 := by
    rcases Fields.getOr?_eq_some bound with rfl | ⟨v, -, isPort⟩
    · decide
    · exact (within_of_bounded? isPort).2
  exact ⟨Int.toNat_le.mpr small, proper.objectField given⟩

theorem Spec.proper_of_read {spec : Spec} (proper : (Json.object fields).Proper)
    (read : ofFields? fields = some spec) : spec.Proper := by
  simp only [ofFields?, Option.bind_eq_bind, Option.bind_eq_some_iff] at read
  obtain ⟨tag, -, kind, -, own⟩ := read
  cases kind <;> obtain ⟨properties, given, rfl⟩ := Option.map_eq_some_iff.mp own
  case command => exact Command.proper_of_read given
  case renderedFile => exact RenderedFile.proper_of_read proper given
  case site => exact Site.proper_of_read proper given
  all_goals trivial

theorem Resource.proper_of_read {v : Json} {r : Resource} (proper : v.Proper) (read : ofJson? v = some r) :
    r.spec.Proper := by
  cases v with
  | object fields =>
    simp only [ofJson?, asObject?, Option.bind_some, ofFields?, Option.bind_eq_bind, Option.bind_eq_some_iff] at read
    obtain ⟨name, -, guards, -, bestEffort, -, onGuardError, -, notifies, -, spec, given, made⟩ := read
    cases made
    exact Spec.proper_of_read proper given
  | _ => cases read

def guardedBuild : Resource where
  name := "build"
  spec := .command { command := "build", environment := [("DEPTH", "1"), ("STAGE", "own")], returns := [0, 3] }
  guards := [⟨.notIf, .fileExists "/opt/build"⟩, ⟨.onlyIf, .command "test -d src" none (some "/srv")⟩]
  onGuardError := some .fail
  notifies := ["restart"]

def twiceBound : Resource where
  name := "path"
  spec := .lineEdit { bindings := [⟨"STAGE", "test"⟩, ⟨"LANG", "C"⟩, ⟨"STAGE", "live"⟩] }

theorem resource_round_trip_guarded :
    (∃ back, Resource.ofJson? guardedBuild.toJson = some back ∧ back = guardedBuild) ∧
      ∃ back, Resource.ofJson? twiceBound.toJson = some back ∧ back ≠ twiceBound ∧
        back.toJson = twiceBound.toJson := by
  have built : guardedBuild.spec.Proper := ⟨List.pairwise_pair.mpr (by decide), by decide⟩
  have notEdit : ¬ guardedBuild.RepeatsKey := by
    rintro ⟨e, isEdit, -⟩
    cases isEdit
  have repeats : twiceBound.RepeatsKey := ⟨_, rfl, by decide⟩
  obtain ⟨back, read, -, same, -⟩ := resource_round_trip built
  obtain ⟨other, readOther, -, sameOther, again⟩ := resource_round_trip (r := twiceBound) trivial
  exact ⟨⟨back, read, same.mpr notEdit⟩, other, readOther, fun equal => sameOther.mp equal repeats, again⟩

end Provision

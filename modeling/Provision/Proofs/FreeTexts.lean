import Provision.Proofs.ResourceRoundTrip
import Provision.Proofs.Defaults

namespace Provision

def Kind.freeKeys : Kind → List String
  | .package => ["package", "version"]
  | .command => ["command", "user", "cwd", "creates"]
  | .lineEdit => ["path"]
  | .renderedFile => ["path", "source"]
  | .workingCopy => ["destination", "repository", "revision", "deploy_key", "user"]
  | .scheduledJob => ["minute", "hour", "day", "month", "weekday", "command", "user"]
  | .site => ["template", "server_name", "docroot", "allow_override", "sites_available", "sites_enabled"]
  | .ownership => ["path", "owner", "group"]

section

variable (carried : String → Bool) (text : String)

def retold (key own : String) : String := if carried key then text else own

def retold? (key : String) (own : Option String) : Option String := if carried key then some text else own

def Package.retext (p : Package) : Package :=
  ⟨retold carried text "package" p.package, retold? carried text "version" p.version⟩

def Command.retext (c : Command) : Command :=
  { c with
    command := retold carried text "command" c.command
    user := retold? carried text "user" c.user
    cwd := retold? carried text "cwd" c.cwd
    creates := retold? carried text "creates" c.creates }

def LineEdit.retext (e : LineEdit) : LineEdit := { e with path := retold? carried text "path" e.path }

def RenderedFile.retext (f : RenderedFile) : RenderedFile :=
  { f with path := retold carried text "path" f.path, source := retold carried text "source" f.source }

def WorkingCopy.retext (w : WorkingCopy) : WorkingCopy where
  destination := retold carried text "destination" w.destination
  repository := retold carried text "repository" w.repository
  revision := retold carried text "revision" w.revision
  deployKey := retold? carried text "deploy_key" w.deployKey
  user := retold? carried text "user" w.user

def Schedule.retext (s : Schedule) : Schedule where
  minute := retold carried text "minute" s.minute
  hour := retold carried text "hour" s.hour
  day := retold carried text "day" s.day
  month := retold carried text "month" s.month
  weekday := retold carried text "weekday" s.weekday

def ScheduledJob.retext (j : ScheduledJob) : ScheduledJob where
  schedule := j.schedule.retext carried text
  command := retold carried text "command" j.command
  user := retold carried text "user" j.user

def Site.retext (s : Site) : Site :=
  { s with
    template := retold carried text "template" s.template
    serverName := retold carried text "server_name" s.serverName
    docroot := retold carried text "docroot" s.docroot
    allowOverride := retold? carried text "allow_override" s.allowOverride
    sitesAvailable := retold? carried text "sites_available" s.sitesAvailable
    sitesEnabled := retold? carried text "sites_enabled" s.sitesEnabled }

def Ownership.retext (o : Ownership) : Ownership :=
  { o with
    path := retold carried text "path" o.path
    owner := retold carried text "owner" o.owner
    group := retold? carried text "group" o.group }

def Spec.retext : Spec → Spec
  | .package p => .package (p.retext carried text)
  | .command c => .command (c.retext carried text)
  | .lineEdit e => .lineEdit (e.retext carried text)
  | .renderedFile f => .renderedFile (f.retext carried text)
  | .workingCopy w => .workingCopy (w.retext carried text)
  | .scheduledJob j => .scheduledJob (j.retext carried text)
  | .site s => .site (s.retext carried text)
  | .ownership o => .ownership (o.retext carried text)

/-- The resource with the text in place of its name and its free texts under the carried keys. -/
def Resource.retext (r : Resource) : Resource :=
  { r with name := retold carried text "name" r.name, spec := r.spec.retext carried text }

end

theorem Fields.get?_swapRemove_self {fields : Fields} (distinct : (fields.map Prod.fst).Nodup) (key : String) :
    (fields.swapRemove key).get? key = none := by
  refine Option.eq_none_iff_forall_ne_some.mpr fun v found => ?_
  have erased : (fields.eraseP (·.1 == key)).map Prod.fst = (fields.map Prod.fst).erase key := by
    rw [List.erase_eq_eraseP', List.eraseP_map]
    rfl
  have left : key ∈ (fields.map Prod.fst).erase key := by
    rw [← erased]
    exact List.mem_map.mpr ⟨(key, v), (swapRemove_perm fields key).mem_iff.mp (Toml.mem_of_lookup found), rfl⟩
  exact distinct.not_mem_erase left

theorem Fields.get?_taken {fields : Fields} (distinct : (fields.map Prod.fst).Nodup) (removed key : String) :
    (fields.take? removed).2.get? key = if key = removed then none else fields.get? key := by
  split
  · rename_i same
    subst same
    unfold take?
    split
    · exact get?_swapRemove_self distinct key
    · assumption
  · rename_i other
    exact get?_take? distinct other

/-- The fields differ under the carried keys alone, where these have the one text and those the other. -/
structure Fields.Differ (carried : String → Bool) (text text' : String) (f f' : Fields) : Prop where
  texts : ∀ key, carried key = true → f.get? key = some (.string text) ∧ f'.get? key = some (.string text')
  others : ∀ key, carried key = false → f'.get? key = f.get? key

def Kind.Carries (k : Kind) (carried : String → Bool) : Prop := ∀ key, carried key = true → key ∈ "name" :: k.freeKeys

def commonKeys : List String := ["kind", "only_if", "not_if", "guards", "best_effort", "on_guard_error", "notifies"]

theorem Kind.not_free (k : Kind) : ∀ key ∈ commonKeys, key ∉ "name" :: k.freeKeys := by cases k <;> decide

variable {carried : String → Bool} {text text' : String} {f f' : Fields} {k : Kind}

theorem Kind.Carries.common (free : k.Carries carried) {key : String} (member : key ∈ commonKeys) :
    carried key = false :=
  Bool.eq_false_iff.mpr fun own => k.not_free key member (free key own)

namespace Fields.Differ

variable (differ : Fields.Differ carried text text' f f')

include differ

theorem need? (key : String) :
    f'.need? key Json.asString? = (f.need? key Json.asString?).map (retold carried text' key) := by
  unfold Fields.need? retold
  cases own : carried key with
  | true => simp [differ.texts key own, Json.asString?]
  | false => simp [differ.others key own]

theorem getOr? (key missing : String) :
    f'.getOr? key missing Json.asString? = (f.getOr? key missing Json.asString?).map (retold carried text' key) := by
  unfold Fields.getOr? retold
  cases own : carried key with
  | true => simp [differ.texts key own, Json.asString?]
  | false => simp [differ.others key own]

theorem optional? (key : String) :
    f'.optional? key Json.asString? = (f.optional? key Json.asString?).map (retold? carried text' key) := by
  unfold Fields.optional? Fields.getOr? retold?
  cases own : carried key with
  | true => simp [differ.texts key own, Json.asString?, Json.optional?]
  | false => simp [differ.others key own]

theorem apart (free : k.Carries carried) (key : String) (fixed : key ∉ "name" :: k.freeKeys) :
    f'.get? key = f.get? key :=
  differ.others key (Bool.eq_false_iff.mpr fun own => fixed (free key own))

theorem taken (distinct : (f.map Prod.fst).Nodup) (distinct' : (f'.map Prod.fst).Nodup) {removed : String}
    (kept : carried removed = false) : Fields.Differ carried text text' (f.take? removed).2 (f'.take? removed).2 := by
  refine ⟨fun key own => ?_, fun key other => ?_⟩
  · have apart : key ≠ removed := by
      rintro rfl
      exact Bool.noConfusion (own.symm.trans kept)
    rw [Fields.get?_taken distinct, Fields.get?_taken distinct', if_neg apart, if_neg apart]
    exact differ.texts key own
  · rw [Fields.get?_taken distinct, Fields.get?_taken distinct', differ.others key other]

theorem set {name : String} (kept : carried name = false) (v : Json) :
    Fields.Differ carried text text' (Fields.set f name v) (Fields.set f' name v) := by
  refine ⟨fun key own => ?_, fun key other => ?_⟩
  · have apart : key ≠ name := by
      rintro rfl
      exact Bool.noConfusion (own.symm.trans kept)
    rw [Fields.get?_set_of_ne apart, Fields.get?_set_of_ne apart]
    exact differ.texts key own
  · rw [Fields.get?_set, Fields.get?_set, differ.others key other]

end Fields.Differ

section

variable (differ : Fields.Differ carried text text' f f')

include differ

theorem Package.ofFields?_retext : ofFields? f' = (ofFields? f).map (·.retext carried text') := by
  unfold ofFields? retext
  simp only [differ.need?, differ.optional?, Option.bind_eq_bind, Option.map_bind, Option.bind_map, Function.comp_def,
    Option.map_some]

theorem WorkingCopy.ofFields?_retext : ofFields? f' = (ofFields? f).map (·.retext carried text') := by
  unfold ofFields? retext
  simp only [differ.need?, differ.optional?, differ.getOr?, Option.bind_eq_bind, Option.map_bind, Option.bind_map,
    Function.comp_def, Option.map_some]

theorem ScheduledJob.ofFields?_retext : ofFields? f' = (ofFields? f).map (·.retext carried text') := by
  unfold ofFields? retext Schedule.ofFields? Schedule.retext
  simp only [differ.need?, differ.getOr?, Option.bind_eq_bind, Option.map_bind, Option.bind_map, Function.comp_def,
    Option.map_some, Option.bind_assoc, Option.bind_some]

theorem Command.ofFields?_retext (free : Kind.Carries .command carried) :
    ofFields? f' = (ofFields? f).map (·.retext carried text') := by
  have environment := Fields.getOr?_congr (differ.apart free "environment" (by decide)) [] Json.stringFields?
  have returns := Fields.getOr?_congr (differ.apart free "returns" (by decide)) [0] (Json.list? exitOfJson?)
  unfold ofFields? retext
  simp only [environment, returns, differ.need?, differ.optional?, Option.bind_eq_bind, Option.map_bind,
    Option.bind_map, Function.comp_def, Option.map_some]

theorem LineEdit.ofFields?_retext (free : Kind.Carries .lineEdit carried) :
    ofFields? f' = (ofFields? f).map (·.retext carried text') := by
  unfold ofFields? retext
  rw [differ.optional?]
  simp only [Fields.optional?, Fields.getOr?, differ.apart free "syntax" (by decide),
    differ.apart free "bindings" (by decide), differ.apart free "replace" (by decide),
    differ.apart free "on_conflict" (by decide), Option.bind_eq_bind, Option.map_bind, Option.bind_map,
    Function.comp_def, Option.map_some]

theorem RenderedFile.ofFields?_retext (free : Kind.Carries .renderedFile carried) :
    ofFields? f' = (ofFields? f).map (·.retext carried text') := by
  have values := Fields.getOr?_congr (differ.apart free "variables" (by decide)) [] Json.asObject?
  unfold ofFields? retext
  simp only [values, differ.need?, Option.bind_eq_bind, Option.map_bind, Option.bind_map, Function.comp_def,
    Option.map_some]

theorem Site.ofFields?_retext (free : Kind.Carries .site carried) :
    ofFields? f' = (ofFields? f).map (·.retext carried text') := by
  have aliases := Fields.getOr?_congr (differ.apart free "server_aliases" (by decide)) [] Json.stringList?
  have port := Fields.getOr?_congr (differ.apart free "server_port" (by decide)) 80 (Json.bounded? 0 65535)
  have params := Fields.getOr?_congr (differ.apart free "params" (by decide)) [] Json.asObject?
  have enabled := Fields.getOr?_congr (differ.apart free "enabled" (by decide)) true Json.asBool?
  unfold ofFields? retext
  simp only [aliases, port, params, enabled, differ.need?, differ.optional?, differ.getOr?, Option.bind_eq_bind,
    Option.map_bind, Option.bind_map, Function.comp_def, Option.map_some]

theorem Ownership.ofFields?_retext (free : Kind.Carries .ownership carried) :
    ofFields? f' = (ofFields? f).map (·.retext carried text') := by
  have recursive := Fields.getOr?_congr (differ.apart free "recursive" (by decide)) true Json.asBool?
  unfold ofFields? retext
  simp only [recursive, differ.need?, differ.optional?, Option.bind_eq_bind, Option.map_bind, Option.bind_map,
    Function.comp_def, Option.map_some]

theorem Spec.ofOwnFields?_retext (free : k.Carries carried) :
    ofOwnFields? k f' = (ofOwnFields? k f).map (·.retext carried text') := by
  cases k <;> simp only [ofOwnFields?, Option.map_map]
  case package => rw [Package.ofFields?_retext differ, Option.map_map]; rfl
  case command => rw [Command.ofFields?_retext differ free, Option.map_map]; rfl
  case lineEdit => rw [LineEdit.ofFields?_retext differ free, Option.map_map]; rfl
  case renderedFile => rw [RenderedFile.ofFields?_retext differ free, Option.map_map]; rfl
  case workingCopy => rw [WorkingCopy.ofFields?_retext differ, Option.map_map]; rfl
  case scheduledJob => rw [ScheduledJob.ofFields?_retext differ, Option.map_map]; rfl
  case site => rw [Site.ofFields?_retext differ free, Option.map_map]; rfl
  case ownership => rw [Ownership.ofFields?_retext differ free, Option.map_map]; rfl

theorem Resource.ofFields?_retext (free : k.Carries carried) (tagged : f.get? "kind" = some (.string k.tag)) :
    ofFields? f' = (ofFields? f).map (·.retext carried text') := by
  have common : ∀ key ∈ commonKeys, f'.get? key = f.get? key := fun key member => differ.others key (free.common member)
  have spec : Spec.ofFields? f' = (Spec.ofFields? f).map (·.retext carried text') := by
    rw [Spec.ofFields?_tagged tagged, Spec.ofFields?_tagged ((common "kind" (by decide)).trans tagged)]
    exact Spec.ofOwnFields?_retext differ free
  unfold ofFields? retext
  rw [differ.need?, spec]
  simp only [Fields.optional?, Fields.getOr?, common "guards" (by decide), common "best_effort" (by decide),
    common "on_guard_error" (by decide), common "notifies" (by decide), Option.bind_eq_bind, Option.map_bind,
    Option.bind_map, Function.comp_def, Option.map_some]

end

theorem Spec.get?_retext {spec : Spec} : ∀ key ∈ spec.kind.freeKeys, carried key = true →
    (spec.retext carried text).ownFields.get? key = some (.string text) := by
  cases spec <;>
  · simp only [kind, Kind.freeKeys, List.forall_mem_cons]
    simp +contextual [retext, ownFields, Package.toFields, Package.retext, Command.toFields, Command.retext,
      LineEdit.toFields, LineEdit.retext, RenderedFile.toFields, RenderedFile.retext, WorkingCopy.toFields,
      WorkingCopy.retext, ScheduledJob.toFields, ScheduledJob.retext, Schedule.toFields, Schedule.retext, Site.toFields,
      Site.retext, Ownership.toFields, Ownership.retext, retold, retold?, Json.optionString, Json.option, Fields.get?,
      List.lookup_cons]

theorem Resource.get?_retext {r : Resource} {key : String} (member : key ∈ "name" :: r.kind.freeKeys)
    (own : carried key = true) : (r.retext carried text).toFields.get? key = some (.string text) := by
  rcases List.mem_cons.mp member with rfl | free
  · rw [toFields_eq, Fields.get?_cons_self]
    exact congrArg (some <| Json.string ·) (if_pos own)
  · exact includes_ownFields _ key _ (Spec.get?_retext key free own)

namespace Recipe

variable {settings : Settings} {kind : String}

theorem get?_setMissing_congr {key other : String} (same : f'.get? other = f.get? other) (v : Json) :
    (setMissing f' key v).get? other = (setMissing f key v).get? other := by
  by_cases here : other = key
  · rw [here, get?_setMissing_self, get?_setMissing_self, ← here, same]
  · rw [get?_setMissing here, get?_setMissing here, same]

theorem get?_setMissing_given {key other : String} {u : Json} (given : f.get? other = some u) (v : Json) :
    (setMissing f key v).get? other = some u := by
  by_cases here : other = key
  · rw [here, get?_setMissing_self, ← here, given, Option.getD_some]
  · rw [get?_setMissing here, given]

theorem get?_addReload_congr {key : String} (same : f'.get? key = f.get? key) (command : String) :
    (addReload command f').get? key = (addReload command f).get? key := by
  by_cases here : key = "notifies"
  · subst here
    unfold addReload
    rw [same]
    split
    · split
      · exact same
      · rw [Fields.get?_set, Fields.get?_set, if_pos rfl, if_pos rfl]
    · exact same
  · rw [get?_addReload command here, get?_addReload command here, same]

theorem get?_applyDefaults_congr {key : String} (same : f'.get? key = f.get? key) :
    (applyDefaults settings kind f').get? key = (applyDefaults settings kind f).get? key := by
  unfold applyDefaults
  cases Kind.ofAlias? kind with
  | none => exact same
  | some k =>
    rw [Fields.get?_set, Fields.get?_set]
    cases k with
    | site =>
      exact congrArg _ (get?_addReload_congr (get?_setMissing_congr (get?_setMissing_congr same _) _) _)
    | scheduledJob => exact congrArg _ (get?_setMissing_congr same _)
    | package | command | lineEdit | renderedFile | workingCopy | ownership => exact congrArg _ same

theorem get?_applyDefaults_given {key : String} {v : Json} (given : f.get? key = some v) (kindless : key ≠ "kind")
    (silent : key ≠ "notifies") : (applyDefaults settings kind f).get? key = some v := by
  unfold applyDefaults
  cases Kind.ofAlias? kind with
  | none => exact given
  | some k =>
    rw [Fields.get?_set_of_ne kindless]
    cases k with
    | site =>
      rw [get?_addReload _ silent]
      exact get?_setMissing_given (get?_setMissing_given given _) _
    | scheduledJob => exact get?_setMissing_given given _
    | package | command | lineEdit | renderedFile | workingCopy | ownership => exact given

def freeKeys (kind : String) : List String := "name" :: ((Kind.ofAlias? kind).map Kind.freeKeys).getD []

def Entry.retext (carried : String → Bool) (text : String) : Entry → Entry
  | .group name => .group (retold carried text "name" name)
  | .resource r => .resource (r.retext carried text)

theorem Entry.ofFields_toOption (settings : Settings) (fields : Fields) : (Entry.ofFields settings fields).toOption =
    (fields.need? "name" Json.asString?).bind fun name => (fields.need? "kind" Json.asString?).bind fun kind =>
      if kind = groupKind then some (.group name)
      else (collectGuards fields).toOption.bind fun collected =>
        (Resource.ofFields? (applyDefaults settings kind collected)).map .resource := by
  unfold Entry.ofFields Fields.need?
  cases (fields.get? "name").bind Json.asString? with
  | none => rfl
  | some name =>
    cases (fields.get? "kind").bind Json.asString? with
    | none => rfl
    | some kind =>
      change Except.toOption (if kind = groupKind then _ else _) = if kind = groupKind then _ else _
      split
      · rfl
      · rw [toOption_bind]
        refine congrArg _ (funext fun collected => ?_)
        cases Resource.ofFields? (applyDefaults settings kind collected) <;> rfl

theorem ofFields?_unknown {settings : Settings} {kind : String} {fields : Fields} (unknown : Kind.ofAlias? kind = none)
    (written : fields.get? "kind" = some (.string kind)) :
    Resource.ofFields? (applyDefaults settings kind fields) = none := by
  refine Option.eq_none_iff_forall_ne_some.mpr fun r read => ?_
  have known := kind_of_readFrom (Resource.readFrom read) written
  rw [unknown] at known
  cases known

theorem carries_of_free {kind : String} (free : ∀ key, carried key = true → key ∈ freeKeys kind) :
    ∃ k : Kind, k.Carries carried ∧ ∀ known, Kind.ofAlias? kind = some known → known = k := by
  unfold freeKeys at free
  cases known : Kind.ofAlias? kind with
  | none =>
    rw [known] at free
    refine ⟨.package, fun key own => ?_, fun _ found => by cases found⟩
    rw [List.mem_singleton.mp (free key own)]
    exact List.mem_cons_self
  | some k =>
    rw [known] at free
    exact ⟨k, free, fun _ found => (Option.some.inj found).symm⟩

variable (differ : Fields.Differ carried text text' f f')

include differ

theorem differ_applyDefaults {k : Kind} (free : k.Carries carried) :
    Fields.Differ carried text text' (applyDefaults settings kind f) (applyDefaults settings kind f') := by
  refine ⟨fun key own => ?_, fun key other => get?_applyDefaults_congr (differ.others key other)⟩
  have kindless : key ≠ "kind" := by
    rintro rfl
    exact k.not_free _ (by decide) (free _ own)
  have silent : key ≠ "notifies" := by
    rintro rfl
    exact k.not_free _ (by decide) (free _ own)
  obtain ⟨here, there⟩ := differ.texts key own
  exact ⟨get?_applyDefaults_given here kindless silent, get?_applyDefaults_given there kindless silent⟩

theorem collectGuards_differ (distinct : (f.map Prod.fst).Nodup) (distinct' : (f'.map Prod.fst).Nodup)
    (common : ∀ key ∈ commonKeys, carried key = false) :
    (collectGuards f).toOption = none ∧ (collectGuards f').toOption = none ∨
      ∃ c c', (collectGuards f).toOption = some c ∧ (collectGuards f').toOption = some c' ∧
        Fields.Differ carried text text' c c' := by
  have onlyIf := common "only_if" (by decide)
  have notIf := common "not_if" (by decide)
  have left : Fields.Differ carried text text' (unpolarized f) (unpolarized f') := by
    refine (differ.taken distinct distinct' onlyIf).taken ?_ ?_ notIf
    · exact Fields.take?_distinct distinct _
    · exact Fields.take?_distinct distinct' _
  rw [collectGuards_eq distinct, collectGuards_eq distinct', differ.others Polarity.onlyIf.name onlyIf,
    differ.others Polarity.notIf.name notIf]
  cases polarityGuards .onlyIf (f.get? Polarity.onlyIf.name) with
  | error e => exact .inl ⟨rfl, rfl⟩
  | ok first =>
    cases polarityGuards .notIf (f.get? Polarity.notIf.name) with
    | error e => exact .inl ⟨rfl, rfl⟩
    | ok second =>
      refine .inr ⟨_, _, rfl, rfl, ?_⟩
      split
      · exact left
      · exact left.set (common "guards" (by decide)) _

theorem resource_retext {k : Kind} (carries : k.Carries carried)
    (named : ∀ known, Kind.ofAlias? kind = some known → known = k) (written : f.get? "kind" = some (.string kind))
    (written' : f'.get? "kind" = some (.string kind)) :
    Resource.ofFields? (applyDefaults settings kind f') =
      (Resource.ofFields? (applyDefaults settings kind f)).map (·.retext carried text') := by
  cases known : Kind.ofAlias? kind with
  | none =>
    rw [ofFields?_unknown known written, ofFields?_unknown known written']
    rfl
  | some same =>
    obtain rfl := named same known
    have tagged : (applyDefaults settings kind f).get? "kind" = some (.string same.tag) := by
      rw [get?_applyDefaults_kind, known]
    exact Resource.ofFields?_retext (differ_applyDefaults differ carries) carries tagged

theorem kind_retext (free : ∀ kind, f.get? "kind" = some (.string kind) → ∀ key, carried key = true →
    key ∈ freeKeys kind) : f'.get? "kind" = f.get? "kind" := by
  cases own : carried "kind" with
  | false => exact differ.others "kind" own
  | true =>
    obtain ⟨k, carries, -⟩ := carries_of_free (free text (differ.texts "kind" own).1)
    exact absurd (carries.common (by decide)) (Bool.eq_false_iff.not_left.mpr own)

/-- The entry of fields that differ in free texts is that of the others with the other text. -/
theorem Entry.ofFields_retext (distinct : (f.map Prod.fst).Nodup) (distinct' : (f'.map Prod.fst).Nodup)
    (free : ∀ kind, f.get? "kind" = some (.string kind) → ∀ key, carried key = true → key ∈ freeKeys kind) :
    (Entry.ofFields settings f').toOption = (Entry.ofFields settings f).toOption.map (·.retext carried text') := by
  have kinded := kind_retext differ free
  rw [ofFields_toOption, ofFields_toOption, differ.need? "name"]
  unfold Fields.need? at *
  rw [kinded]
  cases (f.get? "name").bind Json.asString? with
  | none => rfl
  | some name =>
    cases read : (f.get? "kind").bind Json.asString? with
    | none => rfl
    | some kind =>
      have written := Fields.need?_string read
      obtain ⟨k, carries, named⟩ := carries_of_free (free kind written)
      simp only [Option.map_some, Option.bind_some]
      split
      · rfl
      rcases collectGuards_differ differ distinct distinct' (fun key => carries.common) with
        ⟨missing, missing'⟩ | ⟨c, c', done, done', inner⟩
      · rw [missing, missing']
        rfl
      · have own := (collectGuards_kind distinct (toOption_eq_some.mp done)).trans written
        have own' := (collectGuards_kind distinct' (toOption_eq_some.mp done')).trans (kinded.trans written)
        rw [done, done', Option.bind_some, Option.bind_some, resource_retext inner carries named own own',
          Option.map_map, Option.map_map]
        rfl

end Recipe

end Provision

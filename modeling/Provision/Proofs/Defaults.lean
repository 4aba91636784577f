import Provision.Proofs.DocumentOrder
import Provision.Proofs.DueCommands

namespace Provision

def withCommand (command : String) (commands : List String) : List String :=
  if command ∈ commands then commands else commands ++ [command]

theorem mem_withCommand (command : String) (commands : List String) : command ∈ withCommand command commands := by
  unfold withCommand
  split
  · assumption
  · simp

def Site.fill (settings : SiteSettings) (given : String → Bool) (s : Site) : Site :=
  { s with
    sitesAvailable := if given "sites_available" then s.sitesAvailable else some settings.sitesAvailable
    sitesEnabled := if given "sites_enabled" then s.sitesEnabled else some settings.sitesEnabled }

def ScheduledJob.fill (user : String) (given : String → Bool) (j : ScheduledJob) : ScheduledJob :=
  { j with user := if given "user" then j.user else user }

def Spec.fill (settings : Settings) (given : String → Bool) : Spec → Spec
  | .site s => .site (s.fill settings.sites given)
  | .scheduledJob j => .scheduledJob (j.fill settings.cronUser given)
  | other => other

theorem Spec.fill_kind (settings : Settings) (given : String → Bool) (spec : Spec) :
    (spec.fill settings given).kind = spec.kind := by cases spec <;> rfl

def Resource.isSite (r : Resource) : Bool := r.kind == .site

def Resource.fill (settings : Settings) (given : String → Bool) (r : Resource) : Resource :=
  { r with
    spec := r.spec.fill settings given
    notifies := if r.isSite then withCommand settings.sites.reloadCommand r.notifies else r.notifies }

theorem Resource.fill_notifies {settings : Settings} {given : String → Bool} {r : Resource}
    (site : (r.fill settings given).isSite) : settings.sites.reloadCommand ∈ (r.fill settings given).notifies := by
  have kind : (r.fill settings given).kind = r.kind := r.spec.fill_kind settings given
  rw [isSite, kind] at site
  have added : (r.fill settings given).notifies = withCommand settings.sites.reloadCommand r.notifies := if_pos site
  rw [added]
  exact mem_withCommand _ _

def filledKeys : List String := ["sites_available", "sites_enabled", "notifies", "user"]

theorem Resource.fill_congr {given known : String → Bool} (same : ∀ key ∈ filledKeys, given key = known key)
    (settings : Settings) (r : Resource) : r.fill settings given = r.fill settings known := by
  unfold fill Spec.fill Site.fill ScheduledJob.fill
  rw [same "sites_available" (by decide), same "sites_enabled" (by decide), same "user" (by decide)]

section

variable {f g : Fields} {given : String → Bool}

theorem Fields.getOr?_congr {α : Type} {key : String} (same : g.get? key = f.get? key) (missing : α)
    (read : Json → Option α) : g.getOr? key missing read = f.getOr? key missing read := by
  unfold getOr?
  rw [same]

theorem Spec.ofFields?_tagged {k : Kind} (tagged : f.get? "kind" = some (.string k.tag)) :
    Spec.ofFields? f = Spec.ofOwnFields? k f := by
  have known : Json.tagOf? Spec.tags (.string k.tag) = some k.tag := by cases k <;> rfl
  simp [Spec.ofFields?, tagged, known, Kind.ofTag?_tag]

variable (others : ∀ key ∉ filledKeys, g.get? key = f.get? key)

include others

theorem Resource.ofFields?_map {fillSpec : Spec → Spec} {announce : List String → List String}
    (notifies : g.getOr? "notifies" [] Json.stringList? =
      (f.getOr? "notifies" [] Json.stringList?).map announce)
    (spec : Spec.ofFields? g = (Spec.ofFields? f).map fillSpec) :
    Resource.ofFields? g =
      (Resource.ofFields? f).map fun r => { r with spec := fillSpec r.spec, notifies := announce r.notifies } := by
  unfold Resource.ofFields?
  rw [notifies, spec]
  simp only [Fields.need?, Fields.optional?, Fields.getOr?, others "name" (by decide), others "guards" (by decide),
    others "best_effort" (by decide), others "on_guard_error" (by decide), Option.bind_eq_bind, Option.map_bind,
    Function.comp_def, Option.map_some, Option.bind_map]

theorem Site.ofFields?_fill {settings : SiteSettings} (known : ∀ key, key ≠ "kind" → given key = f.contains key)
    (available : g.get? "sites_available" = some ((f.get? "sites_available").getD (.string settings.sitesAvailable)))
    (enabled : g.get? "sites_enabled" = some ((f.get? "sites_enabled").getD (.string settings.sitesEnabled))) :
    Site.ofFields? g = (Site.ofFields? f).map (·.fill settings given) := by
  have there : ∀ key, f.contains key = (f.get? key).isSome := fun key => rfl
  have written : ∀ s, Json.optional? Json.asString? (.string s) = some (some s) := fun s => rfl
  unfold Site.ofFields?
  simp only [Fields.need?, Fields.optional?, Fields.getOr?, available, enabled, others "template" (by decide),
    others "server_name" (by decide), others "server_aliases" (by decide), others "server_port" (by decide),
    others "docroot" (by decide), others "allow_override" (by decide), others "params" (by decide),
    others "enabled" (by decide), Option.bind_eq_bind, Option.map_bind, Function.comp_def, Option.map_some, Site.fill,
    known "sites_available" (by decide), known "sites_enabled" (by decide), there]
  cases f.get? "sites_available" <;> cases f.get? "sites_enabled" <;> simp [written]

theorem ScheduledJob.ofFields?_fill {user : String} (known : ∀ key, key ≠ "kind" → given key = f.contains key)
    (owner : g.get? "user" = some ((f.get? "user").getD (.string user))) :
    ScheduledJob.ofFields? g = (ScheduledJob.ofFields? f).map (·.fill user given) := by
  have there : f.contains "user" = (f.get? "user").isSome := rfl
  have written : ∀ s, Json.asString? (.string s) = some s := fun s => rfl
  unfold ScheduledJob.ofFields? Schedule.ofFields?
  simp only [Fields.need?, Fields.getOr?, owner, others "minute" (by decide), others "hour" (by decide),
    others "day" (by decide), others "month" (by decide), others "weekday" (by decide), others "command" (by decide),
    Option.bind_eq_bind, Option.map_bind, Function.comp_def, Option.map_some, ScheduledJob.fill,
    known "user" (by decide), there]
  cases f.get? "user" <;> simp [written]

end

theorem Json.mapM_asString? {items : List Json} {commands : List String}
    (read : items.mapM Json.asString? = some commands) : items = commands.map .string := by
  induction items generalizing commands with
  | nil =>
    cases read
    rfl
  | cons v rest ih =>
    rw [List.mapM_cons] at read
    obtain ⟨command, here, read⟩ := Option.bind_eq_some_iff.mp read
    obtain ⟨more, later, read⟩ := Option.bind_eq_some_iff.mp read
    cases read
    rw [Json.asString?_eq_some here, ih later, List.map_cons]

namespace Recipe

variable {settings : Settings} {scope : Scope} {table fields : Fields} {kind : String} {k : Kind}

theorem get?_setMissing_self (fields : Fields) (key : String) (v : Json) :
    (setMissing fields key v).get? key = some ((fields.get? key).getD v) := by
  unfold setMissing Fields.contains
  change (if (fields.get? key).isSome then fields else fields.set key v).get? key = _
  cases here : fields.get? key with
  | none => exact (Fields.get?_set _ _ _ _).trans (if_pos rfl)
  | some u => exact here

theorem any_same_iff {commands : List String} {command : String} :
    (commands.map Json.string).any (·.same (.string command)) = true ↔ command ∈ commands := by
  simp [Json.same]

theorem notifies_addReload (command : String) (fields : Fields) :
    (addReload command fields).getOr? "notifies" [] Json.stringList? =
      (fields.getOr? "notifies" [] Json.stringList?).map (withCommand command) := by
  have replaced : ∀ v, (Fields.set fields "notifies" v).get? "notifies" = some v := fun v =>
    (Fields.get?_set _ _ _ _).trans (if_pos rfl)
  unfold addReload Fields.getOr?
  cases here : fields.get? "notifies" with
  | none => simp [replaced, Json.stringList?, Json.list?, Json.asString?, withCommand]
  | some v =>
    cases v with
    | array items =>
      simp only [Option.getD_some]
      cases read : items.mapM Json.asString? with
      | some commands =>
        obtain rfl := Json.mapM_asString? read
        by_cases known : command ∈ commands
        · rw [if_pos (any_same_iff.mpr known), here]
          simp [Json.stringList?, Json.list?, read, withCommand, known]
        · rw [if_neg (mt any_same_iff.mp known), replaced]
          simp [Json.stringList?, Json.list?, List.mapM_append, read, Json.asString?, withCommand, known]
      | none =>
        by_cases known : items.any (·.same (.string command)) = true
        · rw [if_pos known, here]
          simp [Json.stringList?, Json.list?, read]
        · rw [if_neg known, replaced]
          simp [Json.stringList?, Json.list?, List.mapM_append, read]
    | null | bool | number | string | object => simp [here, Json.stringList?, Json.list?]

def tagged (k : Kind) (fields : Fields) : Fields := fields.set "kind" (.string k.tag)

theorem get?_tagged (k : Kind) (fields : Fields) : (tagged k fields).get? "kind" = some (.string k.tag) :=
  (Fields.get?_set _ _ _ _).trans (if_pos rfl)

theorem get?_tagged_of_ne {key : String} (other : key ≠ "kind") (k : Kind) (fields : Fields) :
    (tagged k fields).get? key = fields.get? key :=
  Fields.get?_set_of_ne other _

theorem get?_applyDefaults_tagged (known : Kind.ofAlias? kind = some k) {key : String} (own : key ∉ filledKeys) :
    (applyDefaults settings kind fields).get? key = (tagged k fields).get? key := by
  by_cases tag : key = "kind"
  · subst tag
    rw [get?_applyDefaults_kind, known, get?_tagged]
  · have outside : key ∉ defaultKeys := by simp_all [defaultKeys, filledKeys]
    rw [get?_applyDefaults settings kind outside, get?_tagged_of_ne tag]

theorem contains_tagged (k : Kind) (fields : Fields) (key : String) (other : key ≠ "kind") :
    fields.contains key = (tagged k fields).contains key :=
  (congrArg Option.isSome (get?_tagged_of_ne other k fields)).symm

theorem kind_of_tagged {r : Resource} (read : Resource.ofFields? (tagged k fields) = some r) : r.kind = k := by
  have spec := (Resource.readFrom read).spec
  rw [Spec.ofFields?_tagged (get?_tagged k fields)] at spec
  exact Spec.kind_of_ofOwnFields spec

theorem spec_applyDefaults (known : Kind.ofAlias? kind = some k) :
    Spec.ofFields? (applyDefaults settings kind fields) = Spec.ofOwnFields? k (applyDefaults settings kind fields) :=
  Spec.ofFields?_tagged (by rw [get?_applyDefaults_kind, known])

theorem resource_applyDefaults_site (known : Kind.ofAlias? kind = some .site) :
    Resource.ofFields? (applyDefaults settings kind fields) =
      (Resource.ofFields? (tagged .site fields)).map (·.fill settings fields.contains) := by
  let placed := setMissing (setMissing fields "sites_available" (.string settings.sites.sitesAvailable)) "sites_enabled"
    (.string settings.sites.sitesEnabled)
  have made : applyDefaults settings kind fields = tagged .site (addReload settings.sites.reloadCommand placed) := by
    unfold applyDefaults
    rw [known]
    rfl
  -- Away from the filled keys nothing changes; each of these is looked up by itself.
  have others : ∀ key ∉ filledKeys, (applyDefaults settings kind fields).get? key = (tagged .site fields).get? key :=
    fun key own => get?_applyDefaults_tagged known own
  have notifies : (applyDefaults settings kind fields).getOr? "notifies" [] Json.stringList? =
      ((tagged .site fields).getOr? "notifies" [] Json.stringList?).map
        (withCommand settings.sites.reloadCommand) := by
    have author : placed.get? "notifies" = fields.get? "notifies" :=
      (get?_setMissing (by decide) _).trans (get?_setMissing (by decide) _)
    rw [made, Fields.getOr?_congr (get?_tagged_of_ne (by decide) _ _), notifies_addReload,
      Fields.getOr?_congr author, Fields.getOr?_congr (get?_tagged_of_ne (by decide) _ _)]
  have available : (applyDefaults settings kind fields).get? "sites_available" =
      some (((tagged .site fields).get? "sites_available").getD (.string settings.sites.sitesAvailable)) := by
    rw [made, get?_tagged_of_ne (by decide), get?_tagged_of_ne (by decide), get?_addReload _ (by decide)]
    exact (get?_setMissing (by decide) _).trans (get?_setMissing_self _ _ _)
  have enabled : (applyDefaults settings kind fields).get? "sites_enabled" =
      some (((tagged .site fields).get? "sites_enabled").getD (.string settings.sites.sitesEnabled)) := by
    rw [made, get?_tagged_of_ne (by decide), get?_tagged_of_ne (by decide), get?_addReload _ (by decide)]
    exact (get?_setMissing_self _ _ _).trans (by rw [get?_setMissing (by decide)])
  have read := Site.ofFields?_fill others (contains_tagged .site fields) available enabled
  have spec : Spec.ofFields? (applyDefaults settings kind fields) =
      (Spec.ofFields? (tagged .site fields)).map (·.fill settings fields.contains) := by
    rw [spec_applyDefaults known, Spec.ofFields?_tagged (get?_tagged _ _)]
    change (Site.ofFields? _).map _ = ((Site.ofFields? _).map _).map _
    rw [read, Option.map_map, Option.map_map]
    rfl
  rw [Resource.ofFields?_map others notifies spec]
  refine Option.map_congr fun r read => ?_
  obtain ⟨name, spec, guards, bestEffort, onGuardError, notifies⟩ := r
  cases spec with
  | site s => rfl
  | package | command | lineEdit | renderedFile | workingCopy | scheduledJob | ownership => cases kind_of_tagged read

theorem resource_applyDefaults_job (known : Kind.ofAlias? kind = some .scheduledJob) :
    Resource.ofFields? (applyDefaults settings kind fields) =
      (Resource.ofFields? (tagged .scheduledJob fields)).map (·.fill settings fields.contains) := by
  have made : applyDefaults settings kind fields =
      tagged .scheduledJob (setMissing fields "user" (.string settings.cronUser)) := by
    unfold applyDefaults
    rw [known]
    rfl
  have others : ∀ key ∉ filledKeys,
      (applyDefaults settings kind fields).get? key = (tagged .scheduledJob fields).get? key :=
    fun key own => get?_applyDefaults_tagged known own
  have notifies : (applyDefaults settings kind fields).getOr? "notifies" [] Json.stringList? =
      ((tagged .scheduledJob fields).getOr? "notifies" [] Json.stringList?).map id := by
    rw [made, Option.map_id_apply]
    refine Fields.getOr?_congr ?_ _ _
    rw [get?_tagged_of_ne (by decide), get?_tagged_of_ne (by decide), get?_setMissing (by decide)]
  have owner : (applyDefaults settings kind fields).get? "user" =
      some (((tagged .scheduledJob fields).get? "user").getD (.string settings.cronUser)) := by
    rw [made, get?_tagged_of_ne (by decide), get?_tagged_of_ne (by decide), get?_setMissing_self]
  have read := ScheduledJob.ofFields?_fill others (contains_tagged .scheduledJob fields) owner
  have spec : Spec.ofFields? (applyDefaults settings kind fields) =
      (Spec.ofFields? (tagged .scheduledJob fields)).map (·.fill settings fields.contains) := by
    rw [spec_applyDefaults known, Spec.ofFields?_tagged (get?_tagged _ _)]
    change (ScheduledJob.ofFields? _).map _ = ((ScheduledJob.ofFields? _).map _).map _
    rw [read, Option.map_map, Option.map_map]
    rfl
  rw [Resource.ofFields?_map others notifies spec]
  refine Option.map_congr fun r read => ?_
  obtain ⟨name, spec, guards, bestEffort, onGuardError, notifies⟩ := r
  cases spec with
  | scheduledJob j => rfl
  | package | command | lineEdit | renderedFile | workingCopy | site | ownership => cases kind_of_tagged read

theorem resource_applyDefaults_other (known : Kind.ofAlias? kind = some k) (noSite : k ≠ .site)
    (noJob : k ≠ .scheduledJob) :
    Resource.ofFields? (applyDefaults settings kind fields) =
      (Resource.ofFields? (tagged k fields)).map (·.fill settings fields.contains) := by
  have made : applyDefaults settings kind fields = tagged k fields := by
    unfold applyDefaults
    rw [known]
    cases k <;> first | rfl | contradiction
  rw [made]
  refine Option.map_id_apply.symm.trans (Option.map_congr fun r read => ?_)
  obtain rfl := kind_of_tagged read
  obtain ⟨name, spec, guards, bestEffort, onGuardError, notifies⟩ := r
  cases spec with
  | site => exact absurd rfl noSite
  | scheduledJob => exact absurd rfl noJob
  | package | command | lineEdit | renderedFile | workingCopy | ownership => rfl

theorem resource_applyDefaults (known : Kind.ofAlias? kind = some k) :
    Resource.ofFields? (applyDefaults settings kind fields) =
      (Resource.ofFields? (tagged k fields)).map (·.fill settings fields.contains) := by
  by_cases site : k = .site
  · subst site
    exact resource_applyDefaults_site known
  by_cases job : k = .scheduledJob
  · subst job
    exact resource_applyDefaults_job known
  exact resource_applyDefaults_other known site job

/-- The resource that the table alone declares. -/
def authored? (scope : Scope) (table : Fields) : Option Resource := do
  let rendered ← (renderFields scope (table.swapRemove "children")).toOption
  let kind ← (rendered.get? "kind").bind Json.asString?
  let k ← Kind.ofAlias? kind
  let collected ← (collectGuards rendered).toOption
  Resource.ofFields? (tagged k collected)

/-- A group stays as it is; a resource is the one that its table declares, filled in. -/
def Filled (settings : Settings) (scope : Scope) (table : Fields) : Option Resource → Prop
  | none => isGroup scope table = true
  | some r => isGroup scope table = false ∧
      ∃ bare, authored? scope table = some bare ∧ r = bare.fill settings table.contains

theorem contains_iff {key : String} : fields.contains key = true ↔ key ∈ fields.map Prod.fst := by
  unfold Fields.contains
  cases here : fields.lookup key with
  | none => simp [Toml.not_mem_keys_of_lookup here]
  | some v =>
    refine iff_of_true rfl ?_
    exact List.mem_map_of_mem (f := Prod.fst) (Toml.mem_of_lookup here)

theorem contains_renderFields {rendered : Fields} (done : renderFields scope fields = .ok rendered) (key : String) :
    rendered.contains key = fields.contains key := by
  rw [Bool.eq_iff_iff, contains_iff, contains_iff, renderFields_keys done]

theorem collectGuards_kind {collected : Fields} (distinct : (fields.map Prod.fst).Nodup)
    (done : collectGuards fields = .ok collected) : collected.get? "kind" = fields.get? "kind" :=
  (collectGuards_eq_ok distinct done).2.1 "kind" (by decide) (by decide) (by decide)

theorem LoadsTo.filled {resource? : Option Resource} (distinct : (table.map Prod.fst).Nodup)
    (loads : LoadsTo settings scope table resource?) : Filled settings scope table resource? := by
  have shaped := loads.shaped distinct
  obtain ⟨rendered, entry, rendering, made, rfl⟩ := loads
  obtain ⟨name, kind, -, written, ⟨-, rfl⟩ | ⟨-, collected, r, collecting, read, rfl⟩⟩ := Entry.ofFields_eq_ok.mp made
  · exact shaped
  refine ⟨shaped.1, ?_⟩
  have keys : (rendered.map Prod.fst).Nodup := by
    rw [renderFields_keys rendering]
    exact Fields.swapRemove_distinct distinct "children"
  obtain ⟨-, kept, -⟩ := collectGuards_eq_ok keys collecting
  have given : ∀ key ∈ filledKeys, collected.contains key = table.contains key := by
    have apart : ∀ key ∈ filledKeys, key ≠ "only_if" ∧ key ≠ "not_if" ∧ key ≠ "guards" ∧ key ≠ "children" := by decide
    intro key member
    obtain ⟨onlyIf, notIf, guards, children⟩ := apart key member
    calc collected.contains key
      _ = rendered.contains key := congrArg Option.isSome (kept key onlyIf notIf guards)
      _ = (table.swapRemove "children").contains key := contains_renderFields rendering key
      _ = table.contains key := congrArg Option.isSome (Fields.get?_swapRemove distinct children)
  have tag : collected.get? "kind" = some (.string kind) := (collectGuards_kind keys collecting).trans written
  have known := kind_of_readFrom (Resource.readFrom read) tag
  rw [resource_applyDefaults known] at read
  obtain ⟨bare, own, filled⟩ := Option.map_eq_some_iff.mp read
  refine ⟨bare, ?_, ?_⟩
  · unfold authored?
    simp [toOption_eq_some.mpr rendering, written, Json.asString?, known, toOption_eq_some.mpr collecting, own]
  · exact filled.symm.trans (Resource.fill_congr given settings bare)

theorem resource_under {r : Resource} (other : Settings)
    (read : Resource.ofFields? (applyDefaults settings kind fields) = some r) :
    ∃ alike, Resource.ofFields? (applyDefaults other kind fields) = some alike := by
  cases known : Kind.ofAlias? kind with
  | none =>
    refine ⟨r, ?_⟩
    unfold applyDefaults at read ⊢
    rw [known] at read ⊢
    exact read
  | some k =>
    rw [resource_applyDefaults known] at read ⊢
    obtain ⟨bare, own, -⟩ := Option.map_eq_some_iff.mp read
    exact ⟨_, congrArg _ own⟩

theorem entry_under {entry : Entry} (other : Settings) (made : Entry.ofFields settings fields = .ok entry) :
    ∃ alike, Entry.ofFields other fields = .ok alike := by
  obtain ⟨name, kind, named, written, ⟨group, rfl⟩ | ⟨single, collected, r, collecting, read, rfl⟩⟩ :=
    Entry.ofFields_eq_ok.mp made
  · exact ⟨_, Entry.ofFields_eq_ok.mpr ⟨name, kind, named, written, .inl ⟨group, rfl⟩⟩⟩
  · obtain ⟨alike, reread⟩ := resource_under other read
    exact ⟨.resource alike, Entry.ofFields_eq_ok.mpr
      ⟨name, kind, named, written, .inr ⟨single, collected, alike, collecting, reread, rfl⟩⟩⟩

mutual

theorem load_under (other : Settings) : ∀ {d : Declaration} {node : RunNode}, d.load settings scope = .ok node →
    ∃ alike, d.load other scope = .ok alike
  | .table fields children, node => by
    intro loaded
    obtain ⟨rendered, entry, nodes, rendering, making, below, rfl⟩ := load_table loaded
    obtain ⟨entry', remade⟩ := entry_under other making
    obtain ⟨nodes', reloaded⟩ := loadAll_under other below
    refine ⟨entry'.node nodes', bind_eq_ok.mpr ⟨rendered, rendering, bind_eq_ok.mpr ⟨entry', remade, ?_⟩⟩⟩
    exact bind_eq_ok.mpr ⟨nodes', reloaded, rfl⟩
  | .badChildren, node | .notTable, node => by
    intro loaded
    cases loaded

theorem loadAll_under (other : Settings) : ∀ {ds : List Declaration} {nodes : List RunNode},
    loadAll settings scope ds = .ok nodes → ∃ alike, loadAll other scope ds = .ok alike
  | [], nodes => fun _ => ⟨[], rfl⟩
  | d :: rest, nodes => by
    intro loaded
    obtain ⟨node, more, first, later, rfl⟩ := loadAll_cons loaded
    obtain ⟨node', first'⟩ := load_under other first
    obtain ⟨more', later'⟩ := loadAll_under other later
    exact ⟨_, bind_eq_ok.mpr ⟨node', first', bind_eq_ok.mpr ⟨more', later', rfl⟩⟩⟩

end

/-- Whether a recipe loads does not depend on the settings. -/
theorem parse_under {text : String} {inventory : Inventory} {recipe : Recipe} (other : Settings)
    (accepted : parse text inventory settings = .ok recipe) : ∃ alike, parse text inventory other = .ok alike := by
  unfold parse at accepted ⊢
  split at accepted
  · rename_i document read
    rw [ofDocument_eq (Toml.parse?_distinct read).keys] at accepted ⊢
    obtain ⟨scope, scoping, accepted⟩ := bind_eq_ok.mp accepted
    obtain ⟨nodes, loaded, accepted⟩ := bind_eq_ok.mp accepted
    have reloaded : ∃ nodes', (ifThere (document.get? "resource") [] fun v => do
        loadAll other scope (← declarations v)) = .ok nodes' := by
      cases here : document.get? "resource" with
      | none => exact ⟨[], rfl⟩
      | some v =>
        rw [here] at loaded
        obtain ⟨ds, declared, loaded⟩ := bind_eq_ok.mp loaded
        obtain ⟨nodes', reloaded⟩ := loadAll_under other loaded
        exact ⟨nodes', bind_eq_ok.mpr ⟨ds, declared, reloaded⟩⟩
    obtain ⟨nodes', reloaded⟩ := reloaded
    refine ⟨⟨⟨nodes'⟩, inventory.nodeJson⟩, bind_eq_ok.mpr ⟨scope, scoping, bind_eq_ok.mpr ⟨nodes', reloaded, ?_⟩⟩⟩
    cases rest : leftover document with
    | nil => rfl
    | cons field more =>
      rw [rest] at accepted
      cases accepted
  · cases accepted

end Recipe

open Converge

/-- The command is executed as a notification once, after every resource of the list was taken. -/
structure RunReport.Reloads {σ : Type} (host : Host σ) (opts : RunOptions) (l : RunList) (w : World σ)
    (report : RunReport) (last : World σ) (command : String) : Prop where
  once : (report.notifications.map (·.command)).count command = 1
  whole : report.resources.length = l.resources.length
  afterwards : last.calls = (afterResources host opts l w report).calls ++
    report.notifications.map (notificationCall (afterResources host opts l w report))

variable {σ : Type} {host : Host σ} {opts : RunOptions} {l : RunList} {w last : World σ} {report : RunReport}

theorem RunReport.reloads {command : String} {r : Resource} {x : ResourceReport} {detail : String}
    (ran : w.run (converge host l opts).run = (.ok report, last)) (real : opts.dryRun = false)
    (completed : report.state = .completed) (taken : (r, x) ∈ l.resources.zip report.resources)
    (converged : x.outcome = .converged detail) (asks : command ∈ r.notifies) :
    report.Reloads host opts l w last command := by
  obtain ⟨-, rfl, rfl⟩ := converge_eq_ok ran
  have fine : ¬ ∃ x ∈ (walked host opts l w).1, x.Fatal := by
    rintro ⟨x, member, fatal⟩
    refine (finalState_completed_iff l w).mp completed ((finalState_aborted_iff l w).mpr (.inl ⟨x, ?_, fatal⟩))
    exact (walked_walk l w).fatal_last member fatal
  have announced := reportOf_announces host opts l w
  obtain ⟨whole, afterwards⟩ := announced.afterwards real fine
  have all : (notified host opts l w).1.map (·.command) = due l.resources (walked host opts l w).1 :=
    ((completed_iff real fine).mp completed).1
  refine ⟨?_, whole, afterwards⟩
  change ((notified host opts l w).1.map (·.command)).count command = 1
  rw [all]
  refine List.count_eq_one_of_mem (due_firsts _ _).nodup (mem_due.mpr ⟨r, x, taken, ?_, asks⟩)
  rw [converged]
  rfl

/-- A recipe loads alike under all settings. They fill in the directories of sites, have the reload command notified
after the author's commands, and name the owner of jobs; nothing else depends on them. So the end of a completed real
run in which a site converged executes the reload command once. -/
theorem Recipe.parse_fills {text : String} {inventory : Inventory} {settings : Settings} {recipe : Recipe}
    (accepted : parse text inventory settings = .ok recipe) :
    ∃ document scope, Toml.parse? text = some document ∧ scopeOf document inventory = .ok scope ∧
      ∀ other, ∃ filled, parse text inventory other = .ok filled ∧
        List.Forall₂ (Mirrors (Filled other scope)) (topTables document) filled.runList.nodes ∧
        ∀ (σ : Type) (host : Host σ) (opts : RunOptions) (w last : World σ) (report : RunReport),
          w.run (converge host filled.runList opts).run = (.ok report, last) → opts.dryRun = false →
            report.state = .completed →
            (∃ r x detail, (r, x) ∈ filled.runList.resources.zip report.resources ∧ r.isSite = true ∧
              x.outcome = .converged detail) →
            report.Reloads host opts filled.runList w last other.sites.reloadCommand := by
  obtain ⟨document, scope, read, distinct, scoping, -⟩ := parse_eq_ok accepted
  refine ⟨document, scope, read, scoping, fun other => ?_⟩
  obtain ⟨filled, refilled⟩ := parse_under other accepted
  obtain ⟨document', scope', read', -, scoping', mirrored⟩ := parse_eq_ok refilled
  obtain rfl := Option.some.inj (read.symm.trans read')
  obtain rfl := Except.ok.inj (scoping.symm.trans scoping')
  have shaped : List.Forall₂ (Mirrors (Filled other scope)) (topTables document) filled.runList.nodes :=
    impOf mirrored fun t member resource? loads => loads.filled (distinct_of_mem_topTables distinct t member)
  have listed := resourcesOf (fun t group => group) (fun t r single => single.1) shaped
  have asks : ∀ r ∈ filled.runList.resources, r.isSite = true → other.sites.reloadCommand ∈ r.notifies := by
    refine ((List.forall₂_and_left (R := fun _ _ => True) _ _).mp (listed.flip.imp ?_)).1
    rintro r t ⟨-, bare, -, rfl⟩
    exact ⟨Resource.fill_notifies, trivial⟩
  refine ⟨filled, refilled, shaped, ?_⟩
  rintro σ host opts w last report ran real completed ⟨r, x, detail, taken, site, converged⟩
  exact RunReport.reloads ran real completed taken converged (asks r (List.of_mem_zip taken).1 site)

def vhostText : String :=
  "[[resource]]\nkind=\"group\"\nname=\"web\"\nchildren=[\x7bkind=\"vhost\",name=\"shop\",server_name=\"shop\"," ++
    "docroot=\"/srv\",sites_enabled=\"/on\",notifies=[\"publish\"]\x7d]\n" ++
    "[[resource]]\nkind=\"job\"\nname=\"tidy\"\ncommand=\"tidy\"\n"

def localSettings : Settings :=
  { cronUser := "ops", sites := { sitesAvailable := "/available", reloadCommand := "reload" } }

def bareWorld : World Machine where
  machine := .empty
  context := ⟨false, false, .empty, .object [], .warn, []⟩
  calls := []
  events := []

theorem vhost_run :
    ((Recipe.parse vhostText .empty localSettings).toOption.bind fun recipe =>
      (bareWorld.run (converge Machine.host recipe.runList {}).run).1.toOption.map fun report =>
        (recipe.runList.resources.map (·.notifies), report.state,
          (recipe.runList.resources.zip report.resources).map fun (r, x) => r.isSite && x.outcome.isChange)) =
      some ([["publish", "reload"], []], .completed, [true, false]) := by
  decide +kernel

theorem Recipe.parse_fills_vhost :
    ∃ recipe, parse vhostText .empty {} = .ok recipe ∧ ∃ document scope, Toml.parse? vhostText = some document ∧
      scopeOf document .empty = .ok scope ∧ ∃ filled, parse vhostText .empty localSettings = .ok filled ∧
        filled.runList.resources.map (·.notifies) = [["publish", "reload"], []] ∧
        List.Forall₂ (Mirrors (Filled localSettings scope)) (topTables document) filled.runList.nodes ∧
        ∃ report last, bareWorld.run (converge Machine.host filled.runList {}).run = (.ok report, last) ∧
          report.Reloads Machine.host {} filled.runList bareWorld last "reload" := by
  obtain ⟨_, loads, -⟩ := Option.bind_eq_some_iff.mp vhost_run
  obtain ⟨recipe, accepted⟩ := parse_under {} (toOption_eq_some.mp loads)
  obtain ⟨document, scope, read, scoping, all⟩ := parse_fills accepted
  obtain ⟨filled, refilled, shaped, reloads⟩ := all localSettings
  have ran := vhost_run
  rw [refilled] at ran
  obtain ⟨report, reported, values⟩ := Option.map_eq_some_iff.mp ran
  rw [toOption_eq_some] at reported
  simp only [Prod.mk.injEq] at values
  obtain ⟨notifies, completed, converged⟩ := values
  have taken : ∃ r x detail, (r, x) ∈ filled.runList.resources.zip report.resources ∧ r.isSite = true ∧
      x.outcome = .converged detail := by
    obtain ⟨⟨r, x⟩, rest, both, first, -⟩ := List.map_eq_cons_iff.mp converged
    obtain ⟨site, change⟩ := Bool.and_eq_true_iff.mp first
    cases outcome : x.outcome with
    | converged detail => exact ⟨r, x, detail, by rw [both]; exact List.mem_cons_self, site, outcome⟩
    | unchanged | skipped | failed => simp [outcome, Outcome.isChange] at change
  refine ⟨recipe, accepted, document, scope, read, scoping, filled, refilled, notifies, shaped, report,
    (bareWorld.run (converge Machine.host filled.runList {}).run).2, ?_, ?_⟩
  · rw [← reported]
  · exact reloads Machine Machine.host {} bareWorld _ report (by rw [← reported]) rfl completed taken

end Provision

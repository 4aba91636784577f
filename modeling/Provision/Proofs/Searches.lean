import Provision.Proofs.LoadedResources

namespace Provision

theorem Json.get?_string {v : Json} {key s : String} (read : (v.get? key).bind Json.asString? = some s) :
    v.get? key = some (.string s) := by
  obtain ⟨u, here, string⟩ := Option.bind_eq_some_iff.mp read
  rw [here, Json.asString?_eq_some string]

namespace Inventory

variable {inventory : Inventory} {kind : String} {f : Filter} {record : Record}

def IsFirst (inventory : Inventory) (kind : String) (f : Filter) (record : Record) : Prop :=
  ∃ before after, inventory.records kind = before ++ record :: after ∧ f.holds record = true ∧
    ∀ r ∈ before, f.holds r = false

theorem first_eq_ok : inventory.first kind f = .ok record ↔ inventory.IsFirst kind f record := by
  unfold first query IsFirst
  constructor
  · intro found
    split at found
    · rename_i r rest here
      cases found
      obtain ⟨before, after, records, others, holds, -⟩ := List.filter_eq_cons_iff.mp here
      exact ⟨before, after, records, holds, fun r member => Bool.eq_false_iff.mpr (others r member)⟩
    · cases found
  · rintro ⟨before, after, records, holds, others⟩
    have here : (inventory.records kind).filter f.holds = record :: after.filter f.holds :=
      List.filter_eq_cons_iff.mpr ⟨before, after, records, fun r member => by simp [others r member], holds, rfl⟩
    rw [here]

theorem isFirst_all : inventory.IsFirst kind .all record ↔ (inventory.records kind).head? = some record := by
  unfold IsFirst
  constructor
  · rintro ⟨before, after, records, -, others⟩
    cases before with
    | nil => rw [records, List.nil_append, List.head?_cons]
    | cons r rest => cases others r List.mem_cons_self
  · intro head
    obtain ⟨rest, records⟩ := List.head?_eq_some_iff.mp head
    exact ⟨[], rest, records, rfl, by simp⟩

end Inventory

namespace Recipe

variable {inventory : Inventory} {name : String} {table : Json} {record : Record} {scope : Scope}

/-- The record is the one that the table of a search declares. -/
inductive Designates (inventory : Inventory) (table : Json) (record : Record) : Prop
  | any {kind : String} : table.get? "kind" = some (.string kind) → table.get? "filter" = none →
      (inventory.records kind).head? = some record → Designates inventory table record
  | filtered {kind query : String} {f : Filter} : table.get? "kind" = some (.string kind) →
      table.get? "filter" = some (.string query) → Filter.parse query = .ok f → inventory.IsFirst kind f record →
      Designates inventory table record

/-- A filter, if there is one, is a text. -/
def Legible (table : Json) : Prop := ∀ v, table.get? "filter" = some v → ∃ query, v = .string query

theorem legible_of_designates (declares : Designates inventory table record) : Legible table := by
  intro v here
  cases declares with
  | any _ absent =>
    rw [absent] at here
    cases here
  | filtered _ text =>
    rw [text] at here
    exact ⟨_, (Option.some.inj here).symm⟩

theorem search_designates (found : search inventory name table = .ok record) :
    Designates inventory table record ↔ Legible table := by
  refine ⟨legible_of_designates, fun legible => ?_⟩
  unfold search at found
  cases text : (table.get? "kind").bind Json.asString? with
  | none =>
    rw [text] at found
    cases found
  | some kind =>
    rw [text] at found
    obtain ⟨same, typed, found⟩ := bind_eq_ok.mp found
    cases typed
    have own := Json.get?_string text
    cases here : table.get? "filter" with
    | none =>
      rw [here] at found
      exact .any own here (Inventory.isFirst_all.mp (Inventory.first_eq_ok.mp (mapError_eq_ok.mp found)))
    | some v =>
      obtain ⟨query, rfl⟩ := legible v here
      rw [here] at found
      obtain ⟨f, parsed, found⟩ := bind_eq_ok.mp found
      exact .filtered own here (mapError_eq_ok.mp parsed) (Inventory.first_eq_ok.mp (mapError_eq_ok.mp found))

theorem bindSearches_keeps {searches : List (String × Json)} {start : Scope} (absent : name ∉ searches.map Prod.fst)
    (bound : bindSearches inventory searches start = .ok scope) : scope.get? name = start.get? name := by
  induction searches generalizing start with
  | nil =>
    cases bound
    rfl
  | cons entry rest ih =>
    obtain ⟨key, v⟩ := entry
    obtain ⟨other, later⟩ := not_or.mp (mt List.mem_cons.mpr absent)
    obtain ⟨found, -, bound⟩ := bind_eq_ok.mp bound
    rw [ih later bound, Fields.get?_set_of_ne other]

theorem bindSearches_binds {searches : List (String × Json)} {start : Scope}
    (distinct : (searches.map Prod.fst).Nodup) (member : (name, table) ∈ searches)
    (bound : bindSearches inventory searches start = .ok scope) :
    ∃ record, search inventory name table = .ok record ∧ scope.get? name = some record.toJson := by
  induction searches generalizing start with
  | nil => cases member
  | cons entry rest ih =>
    obtain ⟨key, v⟩ := entry
    obtain ⟨fresh, distinct⟩ := List.nodup_cons.mp distinct
    obtain ⟨found, searched, rest_⟩ := bind_eq_ok.mp bound
    rcases List.mem_cons.mp member with same | later
    · cases same
      refine ⟨found, searched, ?_⟩
      rw [bindSearches_keeps fresh rest_, Fields.get?_set, if_pos rfl]
    · exact ih distinct later rest_

theorem bindVars_keeps {vars : List (String × Json)} {start : Scope} (absent : name ∉ vars.map Prod.fst)
    (bound : bindVars vars start = .ok scope) : scope.get? name = start.get? name := by
  induction vars generalizing start with
  | nil =>
    cases bound
    rfl
  | cons entry rest ih =>
    obtain ⟨key, v⟩ := entry
    obtain ⟨other, later⟩ := not_or.mp (mt List.mem_cons.mpr absent)
    obtain ⟨value, -, bound⟩ := bind_eq_ok.mp bound
    rw [ih later bound, Fields.get?_set_of_ne other]

variable {document searches : Fields}

theorem searchScope_binds (distinct : (Json.object document).DistinctKeys)
    (here : document.get? "search" = some (.object searches)) (member : (name, table) ∈ searches)
    (bound : searchScope document inventory = .ok scope) :
    ∃ record, search inventory name table = .ok record ∧ scope.get? name = some record.toJson := by
  unfold searchScope at bound
  rw [here] at bound
  exact bindSearches_binds (distinct.field _ (Toml.mem_of_lookup here)).keys member bound

/-- The variables of the document leave the name to its search. -/
def Unshadowed (document : Fields) (name : String) : Prop :=
  ∀ vars, document.get? "vars" = some (.object vars) → name ∉ vars.map Prod.fst

theorem scopeOf_keeps (unshadowed : Unshadowed document name) (bound : scopeOf document inventory = .ok scope) :
    ∃ searched, searchScope document inventory = .ok searched ∧ scope.get? name = searched.get? name := by
  obtain ⟨searched, found, bound⟩ := bind_eq_ok.mp bound
  refine ⟨searched, found, ?_⟩
  cases here : document.get? "vars" with
  | none =>
    rw [here] at bound
    cases bound
    rfl
  | some v =>
    rw [here] at bound
    obtain ⟨vars, given, bound⟩ := bind_eq_ok.mp bound
    cases v with
    | object fields =>
      cases given
      exact bindVars_keeps (unshadowed vars here) bound
    | null | bool | number | string | array => cases given

/-- The name stands for the record, in the scope of the searches and in that of the resources. -/
def Binds (document : Fields) (inventory : Inventory) (name : String) (record : Record) : Prop :=
  ∃ searched scope, searchScope document inventory = .ok searched ∧ scopeOf document inventory = .ok scope ∧
    searched.get? name = some record.toJson ∧ (Unshadowed document name → scope.get? name = some record.toJson)

theorem parse_binds {text : String} {settings : Settings} {recipe : Recipe} (read : Toml.parse? text = some document)
    (here : document.get? "search" = some (.object searches)) (member : (name, table) ∈ searches)
    (accepted : parse text inventory settings = .ok recipe) :
    ∃ record, Binds document inventory name record ∧ search inventory name table = .ok record := by
  obtain ⟨loaded, scope, same, distinct, scoping, -⟩ := parse_eq_ok accepted
  cases read.symm.trans same
  obtain ⟨searched, searching, -⟩ := bind_eq_ok.mp scoping
  obtain ⟨record, found, bound⟩ := searchScope_binds distinct here member searching
  refine ⟨record, ⟨searched, scope, searching, scoping, bound, fun unshadowed => ?_⟩, found⟩
  obtain ⟨before, again, kept⟩ := scopeOf_keeps unshadowed scoping
  cases searching.symm.trans again
  rw [kept, bound]

/-- The name of a search stands for a record, and that is the declared one just if the filter is legible. -/
theorem searches_bind_declared {text : String} {settings : Settings} (read : Toml.parse? text = some document)
    (here : document.get? "search" = some (.object searches)) (member : (name, table) ∈ searches) :
    (∀ recipe, parse text inventory settings = .ok recipe →
        ∃ record, Binds document inventory name record ∧ (Designates inventory table record ↔ Legible table)) ∧
      (Legible table → (∀ record, ¬ Designates inventory table record) →
        ∃ e, parse text inventory settings = .error e) := by
  constructor
  · intro recipe accepted
    obtain ⟨record, binds, found⟩ := parse_binds read here member accepted
    exact ⟨record, binds, search_designates found⟩
  · intro legible none
    cases accepted : parse text inventory settings with
    | error e => exact ⟨e, rfl⟩
    | ok recipe =>
      obtain ⟨record, -, found⟩ := parse_binds read here member accepted
      exact absurd ((search_designates found).mpr legible) (none record)

def twoApps : Inventory :=
  ⟨[], [("app", [⟨[("name", .string "staging"), ("deploy", .bool false)]⟩,
    ⟨[("name", .string "shop"), ("deploy", .bool true)]⟩])]⟩

def deployText : String := "[search.app]\nkind=\"app\"\nfilter=\"deploy:true\"\n"

theorem searches_bind_declared_second :
    ∃ document searches table, Toml.parse? deployText = some document ∧
      document.get? "search" = some (.object searches) ∧ ("app", table) ∈ searches ∧
      ∃ recipe scope record, parse deployText twoApps {} = .ok recipe ∧ scopeOf document twoApps = .ok scope ∧
        scope.get? "app" = some (Record.toJson record) ∧ Designates twoApps table record := by
  have loads : (parse deployText twoApps {}).toOption.isSome = true := by decide +kernel
  have facts : ((Toml.parse? deployText).map fun document => ((document.get? "vars").isNone,
      (document.need? "search" Json.asObject?).map (·.map fun p => (p.1, (p.2.get? "filter").bind Json.asString?)))) =
      some (true, some [("app", some "deploy:true")]) := by decide +kernel
  obtain ⟨recipe, accepted⟩ := Option.isSome_iff_exists.mp loads
  obtain ⟨document, read, facts⟩ := Option.map_eq_some_iff.mp facts
  obtain ⟨vars, declared⟩ := Prod.mk.inj facts
  obtain ⟨searches, object, single⟩ := Option.map_eq_some_iff.mp declared
  obtain ⟨⟨name, table⟩, rfl, entry⟩ := List.map_eq_singleton_iff.mp single
  obtain ⟨rfl, filter⟩ := Prod.mk.inj entry
  have legible : Legible table := by
    intro v here
    cases (Json.get?_string filter).symm.trans here
    exact ⟨_, rfl⟩
  have unshadowed : Unshadowed document "app" := by
    intro fields here
    rw [here] at vars
    cases vars
  rw [toOption_eq_some] at accepted
  have here := Fields.need?_object object
  obtain ⟨record, ⟨-, scope, -, scoping, -, bound⟩, declares⟩ :=
    (searches_bind_declared read here List.mem_cons_self).1 recipe accepted
  exact ⟨document, _, table, read, here, List.mem_cons_self, recipe, scope, record, accepted, scoping,
    bound unshadowed, declares.mpr legible⟩

def listedText : String :=
  "[search.app]\nkind=\"app\"\nfilter=[\"deploy:true\"]\n" ++
    "[[resource]]\nkind=\"execute\"\nname=\"deploy\"\ncommand=\"deploy \x7b\x7b app.name \x7d\x7d\"\n"

/-- The recipe loads, and deploys the application that is not to be deployed. -/
theorem search_ignores_listed :
    ∃ document searches table recipe record, Toml.parse? listedText = some document ∧
      document.get? "search" = some (.object searches) ∧ ("app", table) ∈ searches ∧
      (∀ r, ¬ Designates twoApps table r) ∧ parse listedText twoApps {} = .ok recipe ∧
      Binds document twoApps "app" record ∧ record.get? "name" = some (.string "staging") ∧
      recipe.runList.resources.map (·.describe) = ["Run `deploy staging`"] := by
  have loads : (parse listedText twoApps {}).toOption.map (·.runList.resources.map (·.describe)) =
      some ["Run `deploy staging`"] := by decide +kernel
  have facts : ((Toml.parse? listedText).map fun document =>
      ((document.need? "search" Json.asObject?).map (·.map fun p =>
          (p.1, ((p.2.get? "filter").bind Json.asArray?).isSome)),
        (searchScope document twoApps).toOption.bind fun scope => (scope.need? "app" Json.asObject?).map fun fields =>
          fields.need? "name" Json.asString?)) =
      some (some [("app", true)], some (some "staging")) := by decide +kernel
  obtain ⟨recipe, accepted, deploys⟩ := Option.map_eq_some_iff.mp loads
  obtain ⟨document, read, facts⟩ := Option.map_eq_some_iff.mp facts
  obtain ⟨declared, bound⟩ := Prod.mk.inj facts
  obtain ⟨searches, object, single⟩ := Option.map_eq_some_iff.mp declared
  obtain ⟨⟨name, table⟩, rfl, entry⟩ := List.map_eq_singleton_iff.mp single
  obtain ⟨rfl, listed⟩ := Prod.mk.inj entry
  obtain ⟨items, listed⟩ := Option.isSome_iff_exists.mp listed
  obtain ⟨v, own, array⟩ := Option.bind_eq_some_iff.mp listed
  obtain ⟨searched, searching, bound⟩ := Option.bind_eq_some_iff.mp bound
  obtain ⟨attributes, app, staging⟩ := Option.map_eq_some_iff.mp bound
  rw [toOption_eq_some] at accepted searching
  have here := Fields.need?_object object
  obtain ⟨record, ⟨again, scope, same, scoping, has, keeps⟩, -⟩ := parse_binds read here List.mem_cons_self accepted
  cases searching.symm.trans same
  cases has.symm.trans (Fields.need?_object app)
  refine ⟨document, _, table, recipe, record, read, here, List.mem_cons_self, fun r declares => ?_, accepted,
    ⟨searched, scope, same, scoping, has, keeps⟩, Fields.need?_string staging, deploys⟩
  obtain ⟨query, rfl⟩ := legible_of_designates declares v own
  cases array

end Recipe

end Provision

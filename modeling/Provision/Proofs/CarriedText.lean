import Provision.Proofs.FreeTexts
import Provision.Proofs.StringPlaces

namespace Provision

variable {settings : Settings} {s s' : String}

namespace Recipe

variable {scope scope' : Scope} {P : Places}

def Places.carries (P : Places) (table : Fields) (key : String) : Bool :=
  ((table.swapRemove "children").get? key).any P.names

theorem renderFields_differ (alike : P.Alike s s' scope scope') {fields : Fields}
    (unused : ∀ field ∈ fields, P.names field.2 = false → P.Unused field.2) :
    Option.Rel (Fields.Differ (fun key => (fields.get? key).any P.names) s s') (renderFields scope fields).toOption
      (renderFields scope' fields).toOption := by
  induction fields with
  | nil => exact .some ⟨fun _ none => Bool.noConfusion none, fun _ _ => rfl⟩
  | cons field rest ih =>
    obtain ⟨k, v⟩ := field
    have later := ih fun field member => unused field (List.mem_cons_of_mem _ member)
    -- The value itself: the string where it names a place, else the same in both.
    have own : Option.Rel (fun w w' => if P.names v then w = .string s ∧ w' = .string s' else w' = w)
        (render scope v).toOption (render scope' v).toOption := by
      cases named : P.names v with
      | true =>
        rw [alike.hold.render named, alike.hold'.render named]
        exact .some ⟨rfl, rfl⟩
      | false =>
        rw [alike.render_unused (unused _ List.mem_cons_self named)]
        cases (render scope v).toOption with
        | none => exact .none
        | some w => exact .some rfl
    simp only [renderFields, toOption_bind]
    refine rel_bind own fun w w' _ both => rel_bind later fun more more' _ differ => .some ⟨?_, ?_⟩
    · intro key named
      by_cases same : key = k
      · subst same
        rw [Fields.get?_cons_self, Option.any_some] at named
        rw [if_pos named] at both
        rw [Fields.get?_cons_self, Fields.get?_cons_self, both.1, both.2]
        exact ⟨rfl, rfl⟩
      · rw [Fields.get?_cons_of_ne same] at named
        rw [Fields.get?_cons_of_ne same, Fields.get?_cons_of_ne same]
        exact differ.texts key named
    · intro key other
      by_cases same : key = k
      · subst same
        rw [Fields.get?_cons_self, Option.any_some] at other
        rw [if_neg (by rw [other]; decide)] at both
        rw [Fields.get?_cons_self, Fields.get?_cons_self, both]
      · rw [Fields.get?_cons_of_ne same] at other
        rw [Fields.get?_cons_of_ne same, Fields.get?_cons_of_ne same]
        exact differ.others key other

def entryOf (settings : Settings) (scope : Scope) (table : Fields) : Except LoadError Entry := do
  Entry.ofFields settings (← renderFields scope (table.swapRemove "children"))

/-- The table uses the places in free texts alone. -/
structure Places.CarriedBy (P : Places) (scope : Scope) (table : Fields) : Prop where
  free : ∀ kind, property scope table "kind" = some (.string kind) →
    ∀ key, P.carries table key = true → key ∈ freeKeys kind
  unused : ∀ field ∈ table.swapRemove "children", P.names field.2 = false → P.Unused field.2

theorem entryOf_retext (alike : P.Alike s s' scope scope') {table : Fields} (distinct : (table.map Prod.fst).Nodup)
    (carried : P.CarriedBy scope table) :
    (entryOf settings scope' table).toOption =
      (entryOf settings scope table).toOption.map (·.retext (P.carries table) s') := by
  have keys : ((table.swapRemove "children").map Prod.fst).Nodup := Fields.swapRemove_distinct distinct _
  unfold entryOf
  rw [toOption_bind, toOption_bind]
  refine bind_of_rel (renderFields_differ alike carried.unused) fun rendered rendered' done done' differ => ?_
  rw [toOption_eq_some] at done done'
  refine Entry.ofFields_retext differ ?_ ?_ fun kind written key own => ?_
  · rw [renderFields_keys done]
    exact keys
  · rw [renderFields_keys done']
    exact keys
  · rw [get?_renderFields done, property_swapRemove distinct (by decide)] at written
    exact carried.free kind written key own

mutual

/-- The node with the text in place of what its table and those below it carry. -/
def retextNode (carried : Fields → String → Bool) (text : String) (v : Json) : RunNode → RunNode
  | .node label resource? nodes =>
    match v with
    | .object table =>
      let below := retextNodes carried text ((childTables table).getD []) nodes
      match resource? with
      | some r => .ofResource (r.retext (carried table) text) below
      | none => .group (if carried table "name" then "group[" ++ text ++ "]" else label) below
    | _ => .node label resource? nodes

def retextNodes (carried : Fields → String → Bool) (text : String) (items : List Json) : List RunNode → List RunNode
  | [] => []
  | node :: nodes =>
    match items with
    | [] => node :: nodes
    | v :: rest => retextNode carried text v node :: retextNodes carried text rest nodes

end

theorem node_retext {carried : Fields → String → Bool} {table : Fields} {items : List Json}
    (here : childTables table = some items) (entry : Entry) (nodes : List RunNode) :
    retextNode carried s' (.object table) (entry.node nodes) =
      (entry.retext (carried table) s').node (retextNodes carried s' items nodes) := by
  cases entry with
  | group name =>
    simp only [Entry.node, RunNode.group, retextNode, here, Option.getD_some, Entry.retext, retold]
    split <;> rfl
  | resource r => simp [Entry.node, RunNode.ofResource, retextNode, here, Entry.retext]

theorem load_toOption (settings : Settings) (scope : Scope) (table : Fields) (children : List Declaration) :
    ((Declaration.table (table.swapRemove "children") children).load settings scope).toOption =
      (entryOf settings scope table).toOption.bind fun entry =>
        (loadAll settings scope children).toOption.map entry.node := by
  rw [Declaration.load, entryOf]
  simp only [toOption_bind, Option.bind_assoc]
  refine congrArg _ (funext fun rendered => congrArg _ (funext fun entry => ?_))
  cases loadAll settings scope children <;> rfl

def Follows (settings : Settings) (scope scope' : Scope) (carried : Fields → String → Bool) (text : String)
    (table : Fields) : Prop :=
  (entryOf settings scope' table).toOption = (entryOf settings scope table).toOption.map (·.retext (carried table) text)

variable {carried : Fields → String → Bool}

mutual

theorem load_retext : ∀ {v : Json}, (∀ t ∈ tables v, Follows settings scope scope' carried s' t) →
    ((Declaration.ofJson v).load settings scope').toOption =
      ((Declaration.ofJson v).load settings scope).toOption.map (retextNode carried s' v)
  | .object fields => by
    intro follows
    rw [Declaration.ofJson]
    cases below : Declaration.childrenOf fields with
    | none => rfl
    | some children =>
      obtain ⟨items, here, inner⟩ := loadUnder_retext below fun t member => follows t (List.mem_cons_of_mem _ member)
      have own : Follows settings scope scope' carried s' fields := follows fields List.mem_cons_self
      change ((Declaration.table _ children).load settings scope').toOption =
        ((Declaration.table _ children).load settings scope).toOption.map _
      rw [load_toOption, load_toOption, own, inner, Option.bind_map, Option.map_bind]
      refine congrArg _ (funext fun entry => ?_)
      simp only [Function.comp_def, Option.map_map, node_retext here]
  | .null | .bool _ | .number _ | .string _ | .array _ => fun _ => rfl

theorem loadUnder_retext : ∀ {fields : List (String × Json)} {children : List Declaration},
    Declaration.childrenOf fields = some children →
      (∀ t ∈ tablesUnder fields, Follows settings scope scope' carried s' t) →
        ∃ items, childTables fields = some items ∧ (loadAll settings scope' children).toOption =
          (loadAll settings scope children).toOption.map (retextNodes carried s' items)
  | [], children => by
    intro below _
    cases below
    exact ⟨[], rfl, rfl⟩
  | (k, v) :: rest, children => by
    intro below follows
    by_cases same : k = "children"
    · subst same
      cases v with
      | array items =>
        rw [Declaration.childrenOf, if_pos rfl] at below
        cases below
        rw [tablesUnder, if_pos rfl] at follows
        exact ⟨items, by rw [childTables, Fields.get?_cons_self], loadItems_retext follows⟩
      | null | bool | number | string | object => simp [Declaration.childrenOf] at below
    · have later : Declaration.childrenOf rest = some children := by
        cases v <;> simpa [Declaration.childrenOf, same] using below
      rw [tablesUnder_cons_of_ne same] at follows
      rw [childTables_cons_of_ne same]
      exact loadUnder_retext later follows

theorem loadItems_retext : ∀ {items : List Json}, (∀ t ∈ tablesOf items, Follows settings scope scope' carried s' t) →
    (loadAll settings scope' (Declaration.ofItems items)).toOption =
      (loadAll settings scope (Declaration.ofItems items)).toOption.map (retextNodes carried s' items)
  | [] => fun _ => rfl
  | v :: rest => by
    intro follows
    have first := load_retext (v := v) fun t member => follows t (List.mem_append_left _ member)
    have later : (loadAll settings scope' (Declaration.ofItems rest)).toOption =
        (loadAll settings scope (Declaration.ofItems rest)).toOption.map (retextNodes carried s' rest) :=
      loadItems_retext fun t member => follows t (List.mem_append_right _ member)
    simp only [Declaration.ofItems, loadAll, toOption_bind]
    rw [first, Option.bind_map, Option.map_bind]
    refine congrArg _ (funext fun node => ?_)
    simp only [Function.comp_def]
    rw [later, Option.bind_map, Option.map_bind]
    rfl

end

/-- The resource has the string itself in every free text that the table carries it to. -/
def Places.Kept (P : Places) (s : String) (table : Fields) (resource? : Option Resource) : Prop :=
  ∀ r, resource? = some r → ∀ key ∈ "name" :: r.kind.freeKeys, P.carries table key = true →
    r.toFields.get? key = some (.string s)

theorem LoadsTo.kept {table : Fields} {resource? : Option Resource} (hold : P.Hold s scope)
    (distinct : (table.map Prod.fst).Nodup) (loads : LoadsTo settings scope table resource?) :
    P.Kept s table resource? := by
  obtain ⟨rendered, entry, rendering, made, same⟩ := loads
  intro r declared key member carried
  have keys : (rendered.map Prod.fst).Nodup := by
    rw [renderFields_keys rendering]
    exact Fields.swapRemove_distinct distinct _
  have value : rendered.get? key = some (.string s) := by
    obtain ⟨v, field, named⟩ := (Option.any_eq_true _ _).mp carried
    rw [get?_renderFields rendering, property, field, Option.bind_some, hold.render named]
    rfl
  -- The fields differ from themselves in nothing, and under this key they have the string.
  have differ : Fields.Differ (· == key) s s rendered rendered :=
    ⟨fun k own => by rw [eq_of_beq own]; exact ⟨value, value⟩, fun _ _ => rfl⟩
  obtain ⟨name, kind, -, written, ⟨-, rfl⟩ | ⟨-, collected, r', collecting, read, rfl⟩⟩ := Entry.ofFields_eq_ok.mp made
  · cases same.trans declared
  · cases same.trans declared
    have known := kind_of_readFrom (Resource.readFrom read) ((collectGuards_kind keys collecting).trans written)
    have free : ∀ kind', rendered.get? "kind" = some (.string kind') → ∀ k, (k == key) = true → k ∈ freeKeys kind' := by
      intro kind' written' k own
      cases written.symm.trans written'
      rw [eq_of_beq own, freeKeys, known]
      exact member
    have again : (Entry.ofFields settings rendered).toOption =
        (Entry.ofFields settings rendered).toOption.map (·.retext (· == key) s) :=
      Entry.ofFields_retext differ keys keys free
    rw [made] at again
    have fixed : r = r.retext (· == key) s := by
      injection again with entries
      injection entries
    rw [fixed]
    exact Resource.get?_retext member (beq_self_eq_true key)

variable {document : Fields} {inventory other : Inventory} {spot : Spot}

/-- The recipe uses the string through chains of variables alone, and the chains end in free texts. -/
structure OnlyChains (document : Fields) (inventory : Inventory) (spot : Spot) : Prop where
  searches : ∀ entry ∈ subtable "search" document, Places.Unasked inventory entry.2 spot
  vars : Places.Chained (subtable "vars" document) (placesFound document inventory spot)
  tables : ∀ scope, scopeOf document inventory = .ok scope → ∀ table ∈ tablesOf (topTables document),
    (placesOf document inventory spot).CarriedBy scope table

def Places.fits (P : Places) (table : Fields) : Bool :=
  match table.get? "kind" with
  | some (.string kind) =>
    (soleExpression? kind).isNone && !isTemplate kind && (table.swapRemove "children").all fun (key, v) =>
      if P.names v then (freeKeys kind).contains key else (stringsOf v).all P.passes
  | _ => false

theorem Places.carriedBy_of_fits {table : Fields} (fits : P.fits table = true) : P.CarriedBy scope table := by
  unfold Places.fits at fits
  split at fits
  · rename_i kind here
    simp only [Bool.and_eq_true, Option.isNone_iff_eq_none, Bool.not_eq_true', List.all_eq_true] at fits
    obtain ⟨⟨sole, plain⟩, all⟩ := fits
    refine ⟨fun kind' written key carried => ?_, fun field member other => ?_⟩
    · have same : kind' = kind := by
        simpa [property, here, render, renderString, sole, plain, Except.toOption, eq_comm] using written
      obtain ⟨v, field, named⟩ := (Option.any_eq_true _ _).mp carried
      have own := all (key, v) (Toml.mem_of_lookup field)
      rw [if_pos named, List.contains_iff_mem] at own
      rw [same]
      exact own
    · have own := all field member
      rw [if_neg (by rw [other]; decide)] at own
      exact unused_of_passes own
  · cases fits

def keepsToChains (document : Fields) (inventory : Inventory) (spot : Spot) : Bool :=
  (subtable "search" document).all (fun entry => Places.asksElse entry.2 spot) &&
    Places.chains (subtable "vars" document) (placesFound document inventory spot) &&
      (tablesOf (topTables document)).all (placesOf document inventory spot).fits

theorem onlyChains_of_keepsToChains (keeps : keepsToChains document inventory spot = true) :
    OnlyChains document inventory spot := by
  simp only [keepsToChains, Bool.and_eq_true, List.all_eq_true] at keeps
  obtain ⟨⟨searches, vars⟩, tables⟩ := keeps
  exact ⟨fun entry member => Places.unasked_of_asksElse (searches entry member), Places.chained_of_chains vars,
    fun scope _ table member => Places.carriedBy_of_fits (tables table member)⟩

def nodesOf (settings : Settings) (scope : Scope) (document : Fields) : Except LoadError (List RunNode) :=
  ifThere (document.get? "resource") [] fun v => do loadAll settings scope (← declarations v)

theorem nodesOf_retext {carried : Fields → String → Bool}
    (follows : ∀ t ∈ tablesOf (topTables document), Follows settings scope scope' carried s' t) :
    (nodesOf settings scope' document).toOption =
      (nodesOf settings scope document).toOption.map (retextNodes carried s' (topTables document)) := by
  unfold topTables at follows ⊢
  unfold nodesOf
  cases here : document.get? "resource" with
  | none => rfl
  | some v =>
    rw [here] at follows
    cases v with
    | array items => exact loadItems_retext follows
    | null | bool | number | string | object => rfl

theorem parse_nodes {text : String} (read : Toml.parse? text = some document) (inventory : Inventory)
    (settings : Settings) : (parse text inventory settings).toOption.map (·.runList.nodes) =
      if leftover document = [] then
        (scopeOf document inventory).toOption.bind fun scope => (nodesOf settings scope document).toOption
      else none := by
  unfold parse
  rw [read]
  change (ofDocument document inventory settings).toOption.map _ = _
  rw [ofDocument_eq (Toml.parse?_distinct read).keys, toOption_bind, Option.map_bind]
  cases leftover document with
  | nil =>
    rw [if_pos rfl]
    refine congrArg _ (funext fun scope => ?_)
    simp only [Function.comp_def, toOption_bind, Option.map_bind]
    exact Option.bind_fun_some _
  | cons field rest =>
    obtain ⟨key, v⟩ := field
    rw [if_neg (List.cons_ne_nil _ _)]
    refine Option.bind_eq_none_iff.mpr fun scope _ => ?_
    simp only [Function.comp_def, toOption_bind, Option.map_bind]
    exact Option.bind_eq_none_iff.mpr fun nodes _ => rfl

theorem subtable_distinct (distinct : (Json.object document).DistinctKeys) (key : String) :
    ((subtable key document).map Prod.fst).Nodup := by
  unfold subtable
  cases here : document.get? key with
  | none => exact List.nodup_nil
  | some v =>
    have own : v.DistinctKeys := distinct.field _ (Toml.mem_of_lookup here)
    cases v with
    | object fields => exact own.keys
    | null | bool | number | string | array => exact List.nodup_nil

/-- A string of the inventory is never evaluated. Every chain of variables that starts at it ends in a variable that
holds it, a free text that is one expression for what holds it is loaded as it, and if the recipe uses it through such
chains alone then with another string in its place the same is loaded but for these texts. -/
theorem parse_carries {text : String} (read : Toml.parse? text = some document) (distinct : inventory.DistinctKeys)
    (here : inventory.at? spot = some (.string s)) (settings : Settings) :
    (∀ last, Places.Chain (placesFound document inventory spot) (subtable "vars" document) last →
      placesOf document inventory spot last = some []) ∧
    (∀ recipe, parse text inventory settings = .ok recipe →
      List.Forall₂ (Mirrors ((placesOf document inventory spot).Kept s)) (topTables document) recipe.runList.nodes) ∧
    (OnlyChains document inventory spot → ∀ s' other, inventory.Rewritten spot s' other →
      (parse text other settings).toOption.map (·.runList.nodes) =
        (parse text inventory settings).toOption.map fun recipe =>
          retextNodes (placesOf document inventory spot).carries s' (topTables document) recipe.runList.nodes) := by
  have tables := distinct_of_mem_topTables (Toml.parse?_distinct read)
  refine ⟨fun last chain => ?_, fun recipe accepted => ?_, fun only s' other rewritten => ?_⟩
  · exact chain.place (subtable_distinct (Toml.parse?_distinct read) "vars")
  · obtain ⟨document', scope, read', -, scoping, mirrored⟩ := parse_eq_ok accepted
    obtain rfl := Option.some.inj (read.symm.trans read')
    have hold := hold_of_scopeOf distinct here scoping
    exact impOf mirrored fun t member resource? loads => loads.kept hold (tables t member)
  · have scopes := alike_of_scopeOf distinct here rewritten only.searches only.vars
    have nodes := parse_nodes read inventory settings
    rw [parse_nodes read other]
    change _ = (parse text inventory settings).toOption.map (retextNodes _ s' _ ∘ (·.runList.nodes))
    rw [← Option.map_map, nodes]
    split
    · refine bind_of_rel scopes fun scope scope' scoping _ alike => nodesOf_retext fun t member => ?_
      exact entryOf_retext alike (tables t member) (only.tables scope (toOption_eq_some.mp scoping) t member)
    · rfl

/-- The key of a site goes through two variables to a command in a group. -/
def keyText : String :=
  "[search.site]\nkind=\"app\"\nfilter=\"deploy:true\"\n[vars]\nsecret=\"\x7b\x7b site.key \x7d\x7d\"\n" ++
    "owner=\"\x7b\x7b site.owner \x7d\x7d\"\nagain=\"\x7b\x7b secret \x7d\x7d\"\n" ++
    "[[resource]]\nkind=\"group\"\nname=\"web\"\nchildren=[\x7bkind=\"execute\",name=\"greet\"," ++
    "command=\"\x7b\x7b again \x7d\x7d\",user=\"\x7b\x7b owner \x7d\x7d\"," ++
    "cwd=\"/srv/\x7b\x7b site.owner \x7d\x7d\"\x7d]\n"

def keyedSites (key : String) : List Record :=
  [⟨[("deploy", .bool false)]⟩, ⟨[("deploy", .bool true), ("owner", .string "ops"), ("key", .string key)]⟩]

def keyed (key : String) : Inventory := ⟨[], [("app", keyedSites key)]⟩

def keySpot : Spot := .record "app" 1 [.key "key"]

def hostile : String := "\x7b\x7b site.owner \x7d\x7d\x7b% if \x7b# no #\x7d"

theorem records_keyed_of_ne {kind : String} (apart : kind ≠ "app") (key : String) : (keyed key).records kind = [] := by
  have test : (kind == "app") = false := beq_eq_false_iff_ne.mpr apart
  simp [Inventory.records, keyed, SortedMap.get?, List.lookup_cons, test]

theorem distinct_of_scalars {fields : Fields} (keys : (fields.map Prod.fst).Nodup)
    (scalars : fields.all (·.2.isScalar) = true) : (Json.object fields).DistinctKeys :=
  .object keys fun entry member => .scalar (List.all_eq_true.mp scalars entry member)

theorem keyed_distinct (key : String) : (keyed key).DistinctKeys := by
  refine ⟨distinct_of_scalars List.nodup_nil rfl, fun kind record member => ?_⟩
  by_cases app : kind = "app"
  · subst app
    change record ∈ keyedSites key at member
    simp only [keyedSites, List.mem_cons, List.not_mem_nil, or_false] at member
    rcases member with rfl | rfl
    · exact distinct_of_scalars (List.nodup_singleton _) rfl
    · exact distinct_of_scalars (by simp) rfl
  · rw [records_keyed_of_ne app] at member
    cases member

theorem keyed_rewritten (key other : String) : (keyed key).Rewritten keySpot other (keyed other) := by
  refine ⟨rfl, fun kind apart => ?_, _, ⟨_⟩, rfl, rfl, rfl⟩
  rw [records_keyed_of_ne apart, records_keyed_of_ne apart]

theorem entries_of_strings {entries : List (String × Json)} {texts : List (String × String)}
    (same : entries.map (fun entry => (entry.1, entry.2.asString?)) = texts.map fun text => (text.1, some text.2)) :
    entries = texts.map fun text => (text.1, .string text.2) := by
  induction entries generalizing texts with
  | nil =>
    rw [List.map_nil, eq_comm, List.map_eq_nil_iff] at same
    rw [same, List.map_nil]
  | cons entry rest ih =>
    obtain ⟨name, v⟩ := entry
    cases texts with
    | nil => cases same
    | cons text more =>
      obtain ⟨first, later⟩ := List.cons.inj same
      obtain ⟨rfl, string⟩ := Prod.mk.inj first
      have value : v = .string text.2 := Json.asString?_eq_some string
      rw [List.map_cons, ← ih later, value]

def keyVars : List (String × String) :=
  [("secret", "\x7b\x7b site.key \x7d\x7d"), ("owner", "\x7b\x7b site.owner \x7d\x7d"),
    ("again", "\x7b\x7b secret \x7d\x7d")]

def commands (recipe : Recipe) : List (Option Command) := recipe.runList.resources.map (·.spec.command?)

def greeting (command : String) : Command := { command, user := some "ops", cwd := some "/srv/ops" }

theorem parse_carries_key :
    ∃ document, Toml.parse? keyText = some document ∧
      Places.Chain (placesFound document (keyed hostile) keySpot) (subtable "vars" document) "again" ∧
      placesOf document (keyed hostile) keySpot "again" = some [] ∧ OnlyChains document (keyed hostile) keySpot ∧
      ∃ recipe, parse keyText (keyed hostile) {} = .ok recipe ∧ recipe.commands = [some (greeting hostile)] ∧
        List.Forall₂ (Mirrors ((placesOf document (keyed hostile) keySpot).Kept hostile)) (topTables document)
          recipe.runList.nodes ∧
        ∃ other, parse keyText (keyed "plain") {} = .ok other ∧ other.commands = [some (greeting "plain")] ∧
          other.runList.nodes =
            retextNodes (placesOf document (keyed hostile) keySpot).carries "plain" (topTables document)
              recipe.runList.nodes := by
  -- One computation for both, so that the text is read once.
  have facts : ((Toml.parse? keyText).map fun document =>
      ((subtable "vars" document).map (fun entry => (entry.1, entry.2.asString?)),
        placesFound document (keyed hostile) keySpot "site", keepsToChains document (keyed hostile) keySpot)) =
      some (keyVars.map (fun text => (text.1, some text.2)), some [.key "key"], true) ∧
    (parse keyText (keyed hostile) {}).toOption.map commands = some [some (greeting hostile)] ∧
    (parse keyText (keyed "plain") {}).toOption.map commands = some [some (greeting "plain")] := by decide +kernel
  obtain ⟨facts, loads, loads'⟩ := facts
  obtain ⟨document, read, facts⟩ := Option.map_eq_some_iff.mp facts
  simp only [Prod.mk.injEq] at facts
  obtain ⟨vars, site, keeps⟩ := facts
  obtain ⟨recipe, accepted, commands⟩ := Option.map_eq_some_iff.mp loads
  obtain ⟨other, accepted', commands'⟩ := Option.map_eq_some_iff.mp loads'
  rw [toOption_eq_some] at accepted accepted'
  have entries := entries_of_strings vars
  have earlier : subtable "vars" document = [] ++ ("secret", .string "\x7b\x7b site.key \x7d\x7d") ::
      [("owner", .string "\x7b\x7b site.owner \x7d\x7d"), ("again", .string "\x7b\x7b secret \x7d\x7d")] := entries
  have later : subtable "vars" document = [("secret", .string "\x7b\x7b site.key \x7d\x7d"),
      ("owner", .string "\x7b\x7b site.owner \x7d\x7d")] ++ ("again", .string "\x7b\x7b secret \x7d\x7d") :: [] :=
    entries
  have chain : Places.Chain (placesFound document (keyed hostile) keySpot) (subtable "vars" document) "again" :=
    .next (.first earlier (by decide +kernel) site (by simp)) later (by decide) (by decide +kernel)
  have only := onlyChains_of_keepsToChains keeps
  have here : (keyed hostile).at? keySpot = some (.string hostile) := rfl
  obtain ⟨ends, kept, alike⟩ := parse_carries read (keyed_distinct hostile) here {}
  have nodes := alike only "plain" (keyed "plain") (keyed_rewritten hostile "plain")
  rw [accepted, accepted'] at nodes
  exact ⟨document, read, chain, ends _ chain, only, recipe, accepted, commands, kept recipe accepted, other, accepted',
    commands', Option.some.inj nodes⟩

end Recipe

end Provision

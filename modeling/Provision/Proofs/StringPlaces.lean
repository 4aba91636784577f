import Provision.Proofs.AttributePaths
import Provision.Proofs.InventoryKeys
import Provision.Proofs.Searches
import Provision.Proofs.SparedLookups

namespace Provision

/-- Where a string of an inventory stands: among the attributes of the node, or in one of the records of a kind. -/
inductive Spot where
  | node (path : List Step)
  | record (kind : String) (i : Nat) (path : List Step)
deriving DecidableEq, Repr

namespace Inventory

def at? (inventory : Inventory) : Spot → Option Json
  | .node path => inventory.nodeJson.at? path
  | .record kind i path => (inventory.records kind)[i]?.bind (·.toJson.at? path)

/-- The other inventory has the text at the spot and is the same in all else. -/
def Rewritten (inventory : Inventory) (spot : Spot) (text : String) (other : Inventory) : Prop :=
  match spot with
  | .node path =>
    other.nodeJson = inventory.nodeJson.put path (.string text) ∧ ∀ kind, other.records kind = inventory.records kind
  | .record kind i path =>
    other.nodeJson = inventory.nodeJson ∧ (∀ k, k ≠ kind → other.records k = inventory.records k) ∧
      ∃ record record', (inventory.records kind)[i]? = some record ∧
        record'.toJson = record.toJson.put path (.string text) ∧
          other.records kind = (inventory.records kind).set i record'

end Inventory

namespace Recipe

def request? (table : Json) : Option (String × Filter) := do
  let kind ← (table.get? "kind").bind Json.asString?
  match (table.get? "filter").bind Json.asString? with
  | some query => (Filter.parse query).toOption.map (kind, ·)
  | none => some (kind, .all)

theorem search_toOption (inventory : Inventory) (name : String) (table : Json) :
    (search inventory name table).toOption =
      (request? table).bind fun (kind, filter) => (inventory.records kind).find? filter.holds := by
  have first : ∀ kind filter, (inventory.first kind filter).toOption = (inventory.records kind).find? filter.holds := by
    intro kind filter
    unfold Inventory.first
    rw [← List.head?_filter]
    change _ = (inventory.query kind filter).head?
    cases inventory.query kind filter <;> rfl
  unfold search request?
  cases (table.get? "kind").bind Json.asString? with
  | none => rfl
  | some kind =>
    cases (table.get? "filter").bind Json.asString? with
    | none =>
      refine (toOption_mapError _ _).trans ?_
      exact first kind .all
    | some query =>
      cases parsed : Filter.parse query with
      | error e => simp only [parsed]; rfl
      | ok filter =>
        simp only [parsed]
        exact (toOption_mapError _ _).trans (first kind filter)

def foundPath (inventory : Inventory) (table : Json) : Spot → Option (List Step)
  | .node _ => none
  | .record kind i path =>
    if (request? table).any fun (asked, filter) =>
      asked == kind && (inventory.records kind).findIdx? filter.holds == some i then some path else none

/-- The variables that hold the string, each with the path that leads to it. -/
abbrev Places := String → Option (List Step)

namespace Places

def bind (P : Places) (name : String) (path? : Option (List Step)) : Places := Function.update P name path?

def names (P : Places) : Json → Bool
  | .string text => (namedPlace? text).any fun (root, path) => P root == some path
  | _ => false

def start : Spot → Places
  | .node path => bind (fun _ => none) "node" (some path)
  | .record .. => fun _ => none

def afterSearches (inventory : Inventory) (spot : Spot) : List (String × Json) → Places → Places
  | [], P => P
  | (name, table) :: rest, P => afterSearches inventory spot rest (P.bind name (foundPath inventory table spot))

def afterVars : List (String × Json) → Places → Places
  | [], P => P
  | (name, v) :: rest, P => afterVars rest (P.bind name (if P.names v then some [] else none))

/-- The scope has the string at every place. -/
structure Hold (P : Places) (s : String) (scope : Scope) : Prop where
  keys : (scope.map Prod.fst).Nodup
  values : ∀ name path, P name = some path →
    ∃ v, scope.get? name = some v ∧ v.DistinctKeys ∧ v.at? path = some (.string s)

variable {P : Places} {s s' : String} {scope scope' : Scope} {name : String} {v : Json} {path? : Option (List Step)}

theorem bind_self (P : Places) (name : String) (path? : Option (List Step)) : P.bind name path? name = path? :=
  Function.update_self ..

theorem bind_of_ne {other : String} (apart : other ≠ name) (P : Places) (path? : Option (List Step)) :
    P.bind name path? other = P other :=
  Function.update_of_ne apart ..

theorem Hold.bind (hold : P.Hold s scope)
    (own : ∀ path, path? = some path → v.DistinctKeys ∧ v.at? path = some (.string s)) :
    (P.bind name path?).Hold s (Fields.set scope name v) := by
  refine ⟨Fields.sets_distinct [(name, v)] scope hold.keys, fun other path here => ?_⟩
  by_cases same : other = name
  · subst same
    rw [bind_self] at here
    exact ⟨v, (Fields.get?_set ..).trans (if_pos rfl), own path here⟩
  · rw [bind_of_ne same] at here
    rw [Fields.get?_set_of_ne same]
    exact hold.values other path here

/-- A value that names a place is loaded as the string, and is not looked into again. -/
theorem Hold.render (hold : P.Hold s scope) (named : P.names v = true) : Recipe.render scope v = .ok (.string s) := by
  cases v with
  | string text =>
    rw [names, Option.any_eq_true] at named
    obtain ⟨⟨root, path⟩, place, here⟩ := named
    obtain ⟨w, found, distinct, there⟩ := hold.values root path (eq_of_beq here)
    rw [Recipe.render]
    exact renderString_place hold.keys place found distinct there
  | null | bool | number | array | object => cases named

theorem scalar_string (s : String) : (Json.string s).DistinctKeys := .scalar rfl

theorem Hold.vars {vars : List (String × Json)} (hold : P.Hold s scope) (bound : bindVars vars scope = .ok scope') :
    (P.afterVars vars).Hold s scope' := by
  induction vars generalizing P scope with
  | nil =>
    cases bound
    exact hold
  | cons entry rest ih =>
    obtain ⟨name, v⟩ := entry
    obtain ⟨value, rendered, bound⟩ := bind_eq_ok.mp bound
    rw [mapError_eq_ok] at rendered
    refine ih (hold.bind fun path here => ?_) bound
    cases named : P.names v with
    | false =>
      rw [named] at here
      cases here
    | true =>
      rw [named] at here
      cases here
      obtain rfl := Except.ok.inj ((hold.render named).symm.trans rendered)
      exact ⟨scalar_string s, rfl⟩

theorem Hold.start {inventory : Inventory} {spot : Spot} (distinct : inventory.DistinctKeys)
    (here : inventory.at? spot = some (.string s)) : (start spot).Hold s [("node", inventory.nodeJson)] := by
  refine ⟨List.nodup_singleton _, fun name path place => ?_⟩
  cases spot with
  | record => cases place
  | node own =>
    by_cases same : name = "node"
    · subst same
      cases (bind_self ..).symm.trans place
      exact ⟨_, Fields.get?_cons_self .., distinct.node, here⟩
    · cases (bind_of_ne same ..).symm.trans place

theorem foundPath_spec {inventory : Inventory} {table : Json} {record : Record} {spot : Spot} {path : List Step}
    (distinct : inventory.DistinctKeys) (here : inventory.at? spot = some (.string s))
    (found : search inventory name table = .ok record) (place : foundPath inventory table spot = some path) :
    record.toJson.DistinctKeys ∧ record.toJson.at? path = some (.string s) := by
  cases spot with
  | node => cases place
  | record kind i own =>
    obtain ⟨asked, same⟩ := Option.ite_none_right_eq_some.mp place
    obtain rfl := Option.some.inj same
    obtain ⟨⟨own, filter⟩, request, first⟩ := (Option.any_eq_true _ _).mp asked
    obtain ⟨rfl, index⟩ := (Bool.and_eq_true_iff.mp first).imp eq_of_beq eq_of_beq
    have searched := (search_toOption inventory name table).symm.trans (toOption_eq_some.mpr found)
    rw [request] at searched
    change (inventory.records own).find? filter.holds = some record at searched
    rw [List.find?_eq_bind_findIdx?_getElem?, index, Option.bind_some] at searched
    change (inventory.records own)[i]?.bind _ = _ at here
    rw [searched] at here
    exact ⟨distinct.records own record (List.mem_of_getElem? searched), here⟩

theorem Hold.searches {inventory : Inventory} {spot : Spot} {searches : List (String × Json)}
    (distinct : inventory.DistinctKeys) (here : inventory.at? spot = some (.string s)) (hold : P.Hold s scope)
    (bound : bindSearches inventory searches scope = .ok scope') :
    (P.afterSearches inventory spot searches).Hold s scope' := by
  induction searches generalizing P scope with
  | nil =>
    cases bound
    exact hold
  | cons entry rest ih =>
    obtain ⟨name, table⟩ := entry
    obtain ⟨record, found, bound⟩ := bind_eq_ok.mp bound
    exact ih (hold.bind fun path place => foundPath_spec distinct here found place) bound

theorem afterVars_append (before after : List (String × Json)) (P : Places) :
    P.afterVars (before ++ after) = (P.afterVars before).afterVars after := by
  induction before generalizing P with
  | nil => rfl
  | cons entry rest ih => exact ih _

theorem afterVars_of_not_mem {vars : List (String × Json)} (absent : name ∉ vars.map Prod.fst) (P : Places) :
    P.afterVars vars name = P name := by
  induction vars generalizing P with
  | nil => rfl
  | cons entry rest ih =>
    obtain ⟨own, later⟩ := not_or.mp (mt List.mem_cons.mpr absent)
    exact (ih later _).trans (bind_of_ne own ..)

/-- The variable ends a chain: it is one expression for the variable that ends a shorter chain before it, or for a
place that was there before all variables. -/
inductive Chain (P : Places) (vars : List (String × Json)) : String → Prop
  | first {before after : List (String × Json)} {name text root : String} {path : List Step} :
      vars = before ++ (name, .string text) :: after → namedPlace? text = some (root, path) → P root = some path →
        root ∉ before.map Prod.fst → Chain P vars name
  | next {before after : List (String × Json)} {last name text : String} : Chain P vars last →
      vars = before ++ (name, .string text) :: after → last ∈ before.map Prod.fst →
        namedPlace? text = some (last, []) → Chain P vars name

theorem afterVars_named {before after : List (String × Json)} (absent : name ∉ after.map Prod.fst)
    (named : (P.afterVars before).names v = true) : P.afterVars (before ++ (name, v) :: after) name = some [] := by
  rw [afterVars_append]
  exact (afterVars_of_not_mem absent _).trans ((bind_self ..).trans (if_pos named))

theorem Chain.place {vars : List (String × Json)} (distinct : (vars.map Prod.fst).Nodup) (chain : Chain P vars name) :
    P.afterVars vars name = some [] := by
  induction chain with
  | @first before after name text root path whole named place fresh =>
    rw [whole, List.map_append, List.nodup_append] at distinct
    rw [whole]
    refine afterVars_named (List.nodup_cons.mp distinct.2.1).1 ?_
    simp [names, named, afterVars_of_not_mem fresh, place]
  | @next before after last name text _ whole earlier named ih =>
    rw [whole, List.map_append, List.nodup_append] at distinct
    rw [whole, afterVars_append, afterVars_of_not_mem fun later => distinct.2.2 last earlier last later rfl] at ih
    rw [whole]
    refine afterVars_named (List.nodup_cons.mp distinct.2.1).1 ?_
    simp [names, named, ih]

/-- The scopes have the same names, and at the places alone the one has this string and the other that. -/
structure Alike (P : Places) (s s' : String) (scope scope' : Scope) : Prop where
  hold : P.Hold s scope
  keys : scope'.map Prod.fst = scope.map Prod.fst
  values : ∀ name, scope'.get? name = (scope.get? name).map fun v => (P name).elim v (v.put · (.string s'))

theorem Alike.hold' (alike : P.Alike s s' scope scope') : P.Hold s' scope' := by
  refine ⟨alike.keys ▸ alike.hold.keys, fun name path here => ?_⟩
  obtain ⟨v, found, distinct, there⟩ := alike.hold.values name path here
  refine ⟨v.put path (.string s'), ?_, distinct.put (scalar_string s') there, Json.at?_put there⟩
  rw [alike.values, found, here]
  rfl

/-- Whatever the string is, the text stands for the same. -/
def Ignores (P : Places) (text : String) : Prop :=
  ∀ s s' scope scope', P.Alike s s' scope scope' →
    (renderString scope' text).toOption = (renderString scope text).toOption

def Unused (P : Places) (v : Json) : Prop := ∀ text ∈ stringsOf v, P.Ignores text

def spared (P : Places) (root : String) (path : List Step) : Bool := (P root).all (Template.parting · path)

theorem Alike.agree (alike : P.Alike s s' scope scope') :
    Template.Agree P.spared (.ofJson (.object scope)) (.ofJson (.object scope')) := by
  intro name path spare
  rw [Template.lookup_ofContext alike.hold'.keys, Template.lookup_ofContext alike.hold.keys, alike.values]
  cases place : P name with
  | none => simp
  | some own =>
    obtain ⟨v, found, distinct, there⟩ := alike.hold.values name own place
    rw [spared, place] at spare
    rw [found]
    exact Template.follow_put distinct (scalar_string s') there spare

/-- Enough for a text to ignore the places: all its lookups spare them. -/
def passes (P : Places) (text : String) : Bool :=
  match soleExpression? text with
  | some inner => (Template.Expr.parse inner).toOption.all (·.spares P.spared)
  | none =>
    !isTemplate text ||
      (Template.parse (Template.withoutFinalNewline text)).toOption.all (Template.Stmt.sparesAll P.spared)

theorem ignores_of_passes {text : String} (passes : P.passes text = true) : P.Ignores text := by
  intro s s' scope scope' alike
  unfold Places.passes at passes
  unfold renderString
  cases sole : soleExpression? text with
  | some inner =>
    rw [sole] at passes
    dsimp only at passes
    simp only [evaluate_toOption]
    refine Option.bind_congr fun e parsed => ?_
    rw [parsed] at passes
    rw [Template.eval_of_agree alike.agree passes]
  | none =>
    rw [sole] at passes
    obtain plain | spares := Bool.or_eq_true_iff.mp passes
    · rw [Bool.not_eq_true'] at plain
      simp only [plain, Bool.false_eq_true, if_false]
    · simp only [renderTemplate, Template.render_of_agree alike.agree spares]

theorem unused_of_passes (all : (stringsOf v).all P.passes = true) : P.Unused v := fun text member =>
  ignores_of_passes (List.all_eq_true.mp all text member)

theorem Alike.bind (alike : P.Alike s s' scope scope')
    (own : ∀ path, path? = some path → v.DistinctKeys ∧ v.at? path = some (.string s)) :
    (P.bind name path?).Alike s s' (Fields.set scope name v)
      (Fields.set scope' name (path?.elim v (v.put · (.string s')))) := by
  refine ⟨alike.hold.bind own, ?_, fun other => ?_⟩
  · rw [Fields.set_keys, Fields.set_keys, alike.keys]
  · by_cases same : other = name
    · subst same
      rw [Fields.get?_set, Fields.get?_set, if_pos rfl, if_pos rfl, bind_self]
      rfl
    · rw [Fields.get?_set_of_ne same, Fields.get?_set_of_ne same, bind_of_ne same]
      exact alike.values other

mutual

theorem Alike.render_unused (alike : P.Alike s s' scope scope') : ∀ {v : Json}, P.Unused v →
    (Recipe.render scope' v).toOption = (Recipe.render scope v).toOption
  | .string text => fun unused => unused text List.mem_cons_self s s' scope scope' alike
  | .array items => by
    intro unused
    rw [Recipe.render, Recipe.render, toOption_map, toOption_map, Alike.renderItems_unused alike unused]
  | .object fields => by
    intro unused
    rw [Recipe.render, Recipe.render, toOption_map, toOption_map, Alike.renderFields_unused alike unused]
  | .null | .bool _ | .number _ => fun _ => rfl

theorem Alike.renderItems_unused (alike : P.Alike s s' scope scope') : ∀ {items : List Json},
    (∀ text ∈ stringsOfItems items, P.Ignores text) →
      (renderItems scope' items).toOption = (renderItems scope items).toOption
  | [] => fun _ => rfl
  | v :: rest => by
    intro unused
    have first : P.Unused v := fun text member => unused text (List.mem_append_left _ member)
    have later : (renderItems scope' rest).toOption = (renderItems scope rest).toOption :=
      Alike.renderItems_unused alike fun text member => unused text (List.mem_append_right _ member)
    simp only [renderItems, toOption_bind, Alike.render_unused alike first, later]

theorem Alike.renderFields_unused (alike : P.Alike s s' scope scope') : ∀ {fields : List (String × Json)},
    (∀ text ∈ stringsOfFields fields, P.Ignores text) →
      (renderFields scope' fields).toOption = (renderFields scope fields).toOption
  | [] => fun _ => rfl
  | (k, v) :: rest => by
    intro unused
    have first : P.Unused v := fun text member => unused text (List.mem_append_left _ member)
    have later : (renderFields scope' rest).toOption = (renderFields scope rest).toOption :=
      Alike.renderFields_unused alike fun text member => unused text (List.mem_append_right _ member)
    simp only [renderFields, toOption_bind, Alike.render_unused alike first, later]

end

/-- Every variable names a place or uses none. -/
def Chained : List (String × Json) → Places → Prop
  | [], _ => True
  | (name, v) :: rest, P =>
    (P.names v = false → P.Unused v) ∧ Chained rest (P.bind name (if P.names v then some [] else none))

def chains : List (String × Json) → Places → Bool
  | [], _ => true
  | (name, v) :: rest, P =>
    (P.names v || (stringsOf v).all P.passes) && chains rest (P.bind name (if P.names v then some [] else none))

theorem chained_of_chains {vars : List (String × Json)} (all : chains vars P = true) : Chained vars P := by
  induction vars generalizing P with
  | nil => trivial
  | cons entry rest ih =>
    obtain ⟨own, later⟩ := Bool.and_eq_true_iff.mp all
    refine ⟨fun other => unused_of_passes ?_, ih later⟩
    exact (Bool.or_eq_true_iff.mp own).resolve_left (Bool.eq_false_iff.mp other)

theorem Alike.vars {vars : List (String × Json)} (chained : Chained vars P) (alike : P.Alike s s' scope scope') :
    Option.Rel ((P.afterVars vars).Alike s s') (bindVars vars scope).toOption (bindVars vars scope').toOption := by
  induction vars generalizing P scope scope' with
  | nil => exact .some alike
  | cons entry rest ih =>
    obtain ⟨name, v⟩ := entry
    obtain ⟨own, chained⟩ := chained
    unfold bindVars afterVars
    rw [toOption_bind, toOption_bind, toOption_mapError, toOption_mapError]
    cases named : P.names v with
    | true =>
      rw [named] at chained
      rw [alike.hold.render named, alike.hold'.render named]
      refine ih chained (alike.bind fun path here => ?_)
      cases here
      exact ⟨scalar_string s, rfl⟩
    | false =>
      rw [named] at chained
      rw [alike.render_unused (own named)]
      cases (Recipe.render scope v).toOption with
      | none => exact .none
      | some value => exact ih chained (alike.bind fun path here => by cases here)

theorem findIdx?_set {α : Type} {items : List α} {i : Nat} {a b : α} {p : α → Bool} (here : items[i]? = some a)
    (same : p b = p a) : (items.set i b).findIdx? p = items.findIdx? p := by
  obtain ⟨bound, rfl⟩ := List.getElem?_eq_some_iff.mp here
  have mapped : (items.set i b).map p = items.map p := by
    rw [List.map_set, same, ← List.map_set, List.set_getElem_self]
  have both : ∀ l : List α, l.findIdx? p = (l.map p).findIdx? id := fun l => by
    rw [List.findIdx?_map]
    rfl
  rw [both, both, mapped]

/-- The filter of a search does not look at the string. -/
def Unasked (inventory : Inventory) (table : Json) : Spot → Prop
  | .node _ => True
  | .record kind i path => ∀ filter record record' text, request? table = some (kind, filter) →
      (inventory.records kind)[i]? = some record → record'.toJson = record.toJson.put path (.string text) →
        filter.holds record' = filter.holds record

/-- Enough for a search: it asks for another kind, or for other attributes than the one with the string. -/
def asksElse (table : Json) : Spot → Bool
  | .node _ => true
  | .record kind _ path => (request? table).all fun (asked, filter) =>
      asked != kind || filter.terms.all fun t => path.head?.any (· != .key ((Text.splitAll "." t.path).headD ""))

theorem getPath?_rewritten {record record' : Record} {step : Step} {rest : List Step} {path : String} {w : Json}
    (changed : record'.toJson = record.toJson.put (step :: rest) w)
    (apart : step ≠ .key ((Text.splitAll "." path).headD "")) : record'.getPath? path = record.getPath? path := by
  unfold Record.getPath?
  cases parts : Text.splitAll "." path with
  | nil => rfl
  | cons first more =>
    rw [parts] at apart
    have kept : record'.toJson.step? (.key first) = record.toJson.step? (.key first) := by
      rw [changed]
      exact Json.step?_put_of_ne (Ne.symm apart)
    exact congrArg (more.foldlM Record.step? =<< ·) kept

theorem unasked_of_asksElse {inventory : Inventory} {table : Json} {spot : Spot}
    (elsewhere : asksElse table spot = true) : Unasked inventory table spot := by
  cases spot with
  | node => trivial
  | record kind i path =>
    intro filter record record' text request _ changed
    unfold asksElse at elsewhere
    rw [request] at elsewhere
    simp only [Option.all_some, bne_self_eq_false, Bool.false_or, List.all_eq_true] at elsewhere
    unfold Filter.holds
    rw [Bool.eq_iff_iff, List.all_eq_true, List.all_eq_true]
    refine forall₂_congr fun t member => ?_
    obtain ⟨step, head, apart⟩ := (Option.any_eq_true _ _).mp (elsewhere t member)
    obtain ⟨rest, rfl⟩ := List.head?_eq_some_iff.mp head
    unfold Term.holds
    rw [getPath?_rewritten changed (by simpa using apart)]

theorem search_rewritten {inventory other : Inventory} {spot : Spot} {table : Json}
    (rewritten : inventory.Rewritten spot s' other) (unasked : Unasked inventory table spot) :
    Option.Rel (fun record record' : Record =>
      record'.toJson = (foundPath inventory table spot).elim record.toJson (record.toJson.put · (.string s')))
      (search inventory name table).toOption (search other name table).toOption := by
  have alike : ∀ {found : Option Record}, foundPath inventory table spot = none →
      Option.Rel (fun record record' : Record =>
        record'.toJson = (foundPath inventory table spot).elim record.toJson (record.toJson.put · (.string s')))
        found found := by
    intro found none
    rw [none]
    cases found with
    | none => exact .none
    | some record => exact .some rfl
  rw [search_toOption, search_toOption]
  cases spot with
  | node path =>
    obtain ⟨-, records⟩ := rewritten
    simp only [records]
    exact alike rfl
  | record kind i path =>
    obtain ⟨-, others, record, record', here, changed, records⟩ := rewritten
    cases request : request? table with
    | none => exact .none
    | some asked =>
      obtain ⟨own, filter⟩ := asked
      simp only [Option.bind_some]
      by_cases same : own = kind
      · subst same
        -- The filter does not look at the string, so it holds of the same records as before.
        have index := findIdx?_set here (unasked filter record record' s' request here changed)
        rw [List.find?_eq_bind_findIdx?_getElem?, List.find?_eq_bind_findIdx?_getElem?, records, index]
        cases first : (inventory.records own).findIdx? filter.holds with
        | none => exact .none
        | some j =>
          rw [Option.bind_some, Option.bind_some]
          by_cases there : j = i
          · subst there
            rw [List.getElem?_set_self (List.getElem?_eq_some_iff.mp here).1, here]
            refine .some (changed.trans ?_)
            simp [foundPath, request, first]
          · rw [List.getElem?_set_ne (Ne.symm there)]
            exact alike (by simp [foundPath, request, first, there])
      · rw [others own same]
        exact alike (by simp [foundPath, request, same])

theorem Alike.start {inventory other : Inventory} {spot : Spot} (distinct : inventory.DistinctKeys)
    (here : inventory.at? spot = some (.string s)) (rewritten : inventory.Rewritten spot s' other) :
    (start spot).Alike s s' [("node", inventory.nodeJson)] [("node", other.nodeJson)] := by
  refine ⟨Hold.start distinct here, rfl, fun name => ?_⟩
  by_cases same : name = "node"
  · subst same
    rw [Fields.get?_cons_self, Fields.get?_cons_self]
    cases spot with
    | node path => exact congrArg some (rewritten.1.trans (by rw [Places.start, bind_self]; rfl))
    | record => exact congrArg some rewritten.1
  · rw [Fields.get?_cons_of_ne same, Fields.get?_cons_of_ne same]
    rfl

theorem Alike.searches {inventory other : Inventory} {spot : Spot} {searches : List (String × Json)}
    (distinct : inventory.DistinctKeys) (here : inventory.at? spot = some (.string s))
    (rewritten : inventory.Rewritten spot s' other) (unasked : ∀ entry ∈ searches, Unasked inventory entry.2 spot)
    (alike : P.Alike s s' scope scope') :
    Option.Rel ((P.afterSearches inventory spot searches).Alike s s') (bindSearches inventory searches scope).toOption
      (bindSearches other searches scope').toOption := by
  induction searches generalizing P scope scope' with
  | nil => exact .some alike
  | cons entry rest ih =>
    obtain ⟨name, table⟩ := entry
    unfold bindSearches afterSearches
    rw [toOption_bind, toOption_bind]
    refine rel_bind (search_rewritten rewritten (unasked _ List.mem_cons_self)) fun record record' found changed => ?_
    rw [changed]
    refine ih (fun entry member => unasked entry (List.mem_cons_of_mem _ member)) (alike.bind fun path place => ?_)
    exact foundPath_spec distinct here (toOption_eq_some.mp found) place

end Places

def subtable (key : String) (document : Fields) : List (String × Json) :=
  (document.get? key).elim [] fun
    | .object fields => fields
    | _ => []

def placesFound (document : Fields) (inventory : Inventory) (spot : Spot) : Places :=
  (Places.start spot).afterSearches inventory spot (subtable "search" document)

def placesOf (document : Fields) (inventory : Inventory) (spot : Spot) : Places :=
  (placesFound document inventory spot).afterVars (subtable "vars" document)

theorem ifThere_table {bind : List (String × Json) → Scope → Except LoadError Scope} {scope : Scope}
    (nothing : bind [] scope = .ok scope) (document : Fields) (key : String) :
    (ifThere (document.get? key) scope fun v => do bind (← tableOf key v) scope).toOption =
      if (document.get? key).all (·.asObject?.isSome) then (bind (subtable key document) scope).toOption else none := by
  unfold subtable
  cases document.get? key with
  | none => exact congrArg Except.toOption nothing.symm
  | some v => cases v <;> rfl

theorem scopeOf_toOption (document : Fields) (inventory : Inventory) : (scopeOf document inventory).toOption =
    (if (document.get? "search").all (·.asObject?.isSome) then
      (bindSearches inventory (subtable "search" document) [("node", inventory.nodeJson)]).toOption
    else none).bind fun scope =>
      if (document.get? "vars").all (·.asObject?.isSome) then (bindVars (subtable "vars" document) scope).toOption
      else none := by
  unfold scopeOf searchScope
  rw [toOption_bind, ifThere_table rfl]
  exact congrArg _ (funext fun scope => ifThere_table rfl document "vars")

variable {document : Fields} {inventory other : Inventory} {spot : Spot} {s s' : String} {scope : Scope}

theorem hold_of_scopeOf (distinct : inventory.DistinctKeys) (here : inventory.at? spot = some (.string s))
    (scoping : scopeOf document inventory = .ok scope) : (placesOf document inventory spot).Hold s scope := by
  have both := (scopeOf_toOption document inventory).symm.trans (toOption_eq_some.mpr scoping)
  obtain ⟨start, searched, bound⟩ := Option.bind_eq_some_iff.mp both
  obtain ⟨-, searched⟩ := Option.ite_none_right_eq_some.mp searched
  obtain ⟨-, bound⟩ := Option.ite_none_right_eq_some.mp bound
  rw [toOption_eq_some] at searched bound
  exact ((Places.Hold.start distinct here).searches distinct here searched).vars bound

theorem alike_of_scopeOf (distinct : inventory.DistinctKeys) (here : inventory.at? spot = some (.string s))
    (rewritten : inventory.Rewritten spot s' other)
    (unasked : ∀ entry ∈ subtable "search" document, Places.Unasked inventory entry.2 spot)
    (chained : Places.Chained (subtable "vars" document) (placesFound document inventory spot)) :
    Option.Rel ((placesOf document inventory spot).Alike s s') (scopeOf document inventory).toOption
      (scopeOf document other).toOption := by
  have searched := (Places.Alike.start distinct here rewritten).searches distinct here rewritten unasked
  rw [scopeOf_toOption, scopeOf_toOption]
  refine rel_bind (R := (placesFound document inventory spot).Alike s s') ?_ fun scope scope' _ alike => ?_
  · split
    · exact searched
    · exact .none
  · split
    · exact alike.vars chained
    · exact .none

end Recipe

end Provision

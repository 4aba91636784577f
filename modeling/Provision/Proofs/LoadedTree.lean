import Provision.Proofs.Tables
import Provision.Recipe.Basic

namespace Provision.Recipe

def childTables (table : Fields) : Option (List Json) :=
  match table.get? "children" with
  | none => some []
  | some (.array items) => some items
  | some _ => none

mutual

def tables : Json → List Fields
  | .object table => table :: tablesUnder table
  | _ => []

def tablesUnder : List (String × Json) → List Fields
  | [] => []
  | (k, v) :: rest =>
    if k = "children" then
      match v with
      | .array items => tablesOf items
      | _ => []
    else tablesUnder rest

def tablesOf : List Json → List Fields
  | [] => []
  | v :: rest => tables v ++ tablesOf rest

end

/-- The nodes are those of the tables, in one shape; `R` holds between each table and the resource of its node. -/
inductive Mirrors (R : Fields → Option Resource → Prop) : Json → RunNode → Prop
  | node {table : Fields} {items : List Json} {label : String} {resource? : Option Resource} {nodes : List RunNode} :
      R table resource? → childTables table = some items → List.Forall₂ (Mirrors R) items nodes →
      Mirrors R (.object table) (.node label resource? nodes)

theorem childTables_cons_of_ne {k : String} (other : k ≠ "children") (v : Json) (rest : Fields) :
    childTables ((k, v) :: rest) = childTables rest := by
  unfold childTables
  rw [Fields.get?_cons_of_ne other.symm]

theorem tablesUnder_cons_of_ne {k : String} (other : k ≠ "children") (v : Json) (rest : Fields) :
    tablesUnder ((k, v) :: rest) = tablesUnder rest := by
  cases v <;> simp [tablesUnder, other]

theorem tablesUnder_eq {table : Fields} {items : List Json} (here : childTables table = some items) :
    tablesUnder table = tablesOf items := by
  induction table with
  | nil =>
    cases here
    rfl
  | cons field rest ih =>
    obtain ⟨k, v⟩ := field
    by_cases same : k = "children"
    · subst same
      simp only [childTables, Fields.get?_cons_self] at here
      cases v with
      | array inside =>
        cases here
        rw [tablesUnder, if_pos rfl]
      | null | bool | number | string | object => cases here
    · rw [childTables_cons_of_ne same] at here
      rw [tablesUnder_cons_of_ne same]
      exact ih here

section

variable {R S : Fields → Option Resource → Prop}

mutual

theorem Mirrors.each : ∀ {node : RunNode} {v : Json}, Mirrors R v node → ∀ t ∈ tables v, ∃ resource?, R t resource?
  | .node label resource? nodes, _, .node own here below => by
    intro t member
    rw [tables, tablesUnder_eq here] at member
    rcases List.mem_cons.mp member with rfl | member
    · exact ⟨resource?, own⟩
    · exact eachOf below t member

theorem eachOf : ∀ {nodes : List RunNode} {items : List Json}, List.Forall₂ (Mirrors R) items nodes →
    ∀ t ∈ tablesOf items, ∃ resource?, R t resource?
  | [], _, .nil => by simp [tablesOf]
  | _ :: _, _, .cons first later => by
    intro t member
    rcases List.mem_append.mp member with here | after
    · exact first.each t here
    · exact eachOf later t after

end

mutual

theorem Mirrors.imp : ∀ {node : RunNode} {v : Json}, Mirrors R v node →
    (∀ t ∈ tables v, ∀ resource?, R t resource? → S t resource?) → Mirrors S v node
  | .node label resource? nodes, _, .node own here below, weaker => by
    rw [tables, tablesUnder_eq here] at weaker
    exact .node (weaker _ List.mem_cons_self _ own) here
      (impOf below fun t member => weaker t (List.mem_cons_of_mem _ member))

theorem impOf : ∀ {nodes : List RunNode} {items : List Json}, List.Forall₂ (Mirrors R) items nodes →
    (∀ t ∈ tablesOf items, ∀ resource?, R t resource? → S t resource?) → List.Forall₂ (Mirrors S) items nodes
  | [], _, .nil, _ => .nil
  | _ :: _, _, .cons first later, weaker =>
    .cons (first.imp fun t member => weaker t (List.mem_append_left _ member))
      (impOf later fun t member => weaker t (List.mem_append_right _ member))

end

variable {group : Fields → Bool}

mutual

theorem Mirrors.resources (grouped : ∀ t, R t none → group t = true) (single : ∀ t r, R t (some r) → group t = false) :
    ∀ {node : RunNode} {v : Json}, Mirrors R v node →
      List.Forall₂ (fun t r => R t (some r)) ((tables v).filter (!group ·)) node.resources
  | .node label resource? nodes, _, .node own here below => by
    have later := resourcesOf grouped single below
    rw [tables, tablesUnder_eq here, RunNode.resources]
    cases resource? with
    | none =>
      rw [List.filter_cons_of_neg (by simp [grouped _ own])]
      exact later
    | some r =>
      rw [List.filter_cons_of_pos (by simp [single _ r own])]
      exact .cons own later

theorem resourcesOf (grouped : ∀ t, R t none → group t = true) (single : ∀ t r, R t (some r) → group t = false) :
    ∀ {nodes : List RunNode} {items : List Json}, List.Forall₂ (Mirrors R) items nodes →
      List.Forall₂ (fun t r => R t (some r)) ((tablesOf items).filter (!group ·)) (RunNode.resourcesOf nodes)
  | [], _, .nil => .nil
  | _ :: _, _, .cons first later => by
    rw [tablesOf, List.filter_append, RunNode.resourcesOf]
    exact List.rel_append (first.resources grouped single) (resourcesOf grouped single later)

end

end

mutual

theorem distinct_of_mem_tables : ∀ {v : Json}, v.DistinctKeys → ∀ t ∈ tables v, (t.map Prod.fst).Nodup
  | .object table, .object keys values => by
    intro t member
    rw [tables] at member
    rcases List.mem_cons.mp member with rfl | member
    · exact keys
    · exact distinct_of_mem_tablesUnder values t member
  | .null, _ | .bool _, _ | .number _, _ | .string _, _ | .array _, _ => by simp [tables]

theorem distinct_of_mem_tablesUnder : ∀ {fields : List (String × Json)}, (∀ field ∈ fields, field.2.DistinctKeys) →
    ∀ t ∈ tablesUnder fields, (t.map Prod.fst).Nodup
  | [], _ => by simp [tablesUnder]
  | (k, v) :: rest, values => by
    intro t member
    have own : v.DistinctKeys := values (k, v) List.mem_cons_self
    have below : ∀ field ∈ rest, field.2.DistinctKeys := fun field inside =>
      values field (List.mem_cons_of_mem _ inside)
    have later := distinct_of_mem_tablesUnder below
    by_cases same : k = "children"
    · subst same
      cases own with
      | array inside =>
        rw [tablesUnder, if_pos rfl] at member
        exact distinct_of_mem_tablesOf inside t member
      | scalar plain =>
        cases v <;> simp_all [tablesUnder, Json.isScalar]
      | object keys inside => simp [tablesUnder] at member
    · rw [tablesUnder_cons_of_ne same] at member
      exact later t member

theorem distinct_of_mem_tablesOf : ∀ {items : List Json}, (∀ v ∈ items, v.DistinctKeys) →
    ∀ t ∈ tablesOf items, (t.map Prod.fst).Nodup
  | [], _ => by simp [tablesOf]
  | v :: rest, values => by
    intro t member
    rcases List.mem_append.mp member with here | after
    · exact distinct_of_mem_tables (values v List.mem_cons_self) t here
    · exact distinct_of_mem_tablesOf (fun u inside => values u (List.mem_cons_of_mem _ inside)) t after

end

def Entry.resource? : Entry → Option Resource
  | .group _ => none
  | .resource r => some r

/-- The loader makes the resource from the fields of the table, its children left out. -/
def LoadsTo (settings : Settings) (scope : Scope) (table : Fields) (resource? : Option Resource) : Prop :=
  ∃ rendered entry, renderFields scope (table.swapRemove "children") = .ok rendered ∧
    Entry.ofFields settings rendered = .ok entry ∧ entry.resource? = resource?

variable {settings : Settings} {scope : Scope}

theorem load_table {fields : Fields} {children : List Declaration} {node : RunNode}
    (loaded : (Declaration.table fields children).load settings scope = .ok node) :
    ∃ rendered entry nodes, renderFields scope fields = .ok rendered ∧ Entry.ofFields settings rendered = .ok entry ∧
      loadAll settings scope children = .ok nodes ∧ node = entry.node nodes := by
  obtain ⟨rendered, rendering, loaded⟩ := bind_eq_ok.mp loaded
  obtain ⟨entry, making, loaded⟩ := bind_eq_ok.mp loaded
  obtain ⟨nodes, below, loaded⟩ := bind_eq_ok.mp loaded
  cases loaded
  exact ⟨rendered, entry, nodes, rendering, making, below, rfl⟩

theorem loadAll_cons {d : Declaration} {rest : List Declaration} {nodes : List RunNode}
    (loaded : loadAll settings scope (d :: rest) = .ok nodes) :
    ∃ node more, d.load settings scope = .ok node ∧ loadAll settings scope rest = .ok more ∧ nodes = node :: more := by
  obtain ⟨node, first, loaded⟩ := bind_eq_ok.mp loaded
  obtain ⟨more, later, loaded⟩ := bind_eq_ok.mp loaded
  cases loaded
  exact ⟨node, more, first, later, rfl⟩

theorem Entry.node_eq (entry : Entry) : ∃ label, ∀ nodes, entry.node nodes = .node label entry.resource? nodes := by
  cases entry with
  | group name => exact ⟨_, fun _ => rfl⟩
  | resource r => exact ⟨_, fun _ => rfl⟩

mutual

theorem load_mirrors : ∀ {v : Json} {node : RunNode}, (Declaration.ofJson v).load settings scope = .ok node →
    Mirrors (LoadsTo settings scope) v node
  | .object fields, node => by
    intro loaded
    rw [Declaration.ofJson] at loaded
    cases below : Declaration.childrenOf fields with
    | none =>
      rw [below] at loaded
      cases loaded
    | some children =>
      rw [below] at loaded
      obtain ⟨rendered, entry, nodes, rendering, making, inner, rfl⟩ := load_table loaded
      obtain ⟨items, here, mirrored⟩ := loadUnder_mirrors below inner
      obtain ⟨label, shape⟩ := entry.node_eq
      rw [shape]
      exact .node ⟨rendered, entry, rendering, making, rfl⟩ here mirrored
  | .null, node | .bool _, node | .number _, node | .string _, node | .array _, node => by
    intro loaded
    cases loaded

theorem loadUnder_mirrors : ∀ {fields : List (String × Json)} {children : List Declaration} {nodes : List RunNode},
    Declaration.childrenOf fields = some children → loadAll settings scope children = .ok nodes →
      ∃ items, childTables fields = some items ∧ List.Forall₂ (Mirrors (LoadsTo settings scope)) items nodes
  | [], children, nodes => by
    intro below loaded
    cases below
    cases loaded
    exact ⟨[], rfl, .nil⟩
  | (k, v) :: rest, children, nodes => by
    intro below loaded
    by_cases same : k = "children"
    · subst same
      cases v with
      | array items =>
        rw [Declaration.childrenOf, if_pos rfl] at below
        cases below
        exact ⟨items, by rw [childTables, Fields.get?_cons_self], loadItems_mirrors loaded⟩
      | null | bool | number | string | object => simp [Declaration.childrenOf] at below
    · have later : Declaration.childrenOf rest = some children := by
        cases v <;> simpa [Declaration.childrenOf, same] using below
      rw [childTables_cons_of_ne same]
      exact loadUnder_mirrors later loaded

theorem loadItems_mirrors : ∀ {items : List Json} {nodes : List RunNode},
    loadAll settings scope (Declaration.ofItems items) = .ok nodes →
      List.Forall₂ (Mirrors (LoadsTo settings scope)) items nodes
  | [], nodes => by
    intro loaded
    cases loaded
    exact .nil
  | v :: rest, nodes => by
    intro loaded
    obtain ⟨node, more, first, later, rfl⟩ := loadAll_cons loaded
    exact .cons (load_mirrors first) (loadItems_mirrors later)

end

def topTables (document : Fields) : List Json :=
  match document.get? "resource" with
  | some (.array items) => items
  | _ => []

theorem distinct_of_mem_topTables {document : Fields} (distinct : (Json.object document).DistinctKeys) :
    ∀ t ∈ tablesOf (topTables document), (t.map Prod.fst).Nodup := by
  unfold topTables
  split
  · rename_i items here
    have values : (Json.array items).DistinctKeys := distinct.field _ (Toml.mem_of_lookup here)
    exact distinct_of_mem_tablesOf values.item
  · simp [tablesOf]

def searchScope (document : Fields) (inventory : Inventory) : Except LoadError Scope :=
  ifThere (document.get? "search") [("node", inventory.nodeJson)] fun v => do
    bindSearches inventory (← tableOf "search" v) [("node", inventory.nodeJson)]

def scopeOf (document : Fields) (inventory : Inventory) : Except LoadError Scope := do
  let scope ← searchScope document inventory
  ifThere (document.get? "vars") scope fun v => do bindVars (← tableOf "vars" v) scope

/-- The keys of the document that the loader knows are taken out. -/
def leftover (document : Fields) : Fields :=
  (((document.take? "search").2.take? "vars").2.take? "resource").2

theorem ofDocument_eq {document : Fields} (distinct : (document.map Prod.fst).Nodup) (inventory : Inventory)
    (settings : Settings) :
    ofDocument document inventory settings = (do
      let scope ← scopeOf document inventory
      let nodes ← ifThere (document.get? "resource") [] fun v => do loadAll settings scope (← declarations v)
      match leftover document with
      | [] => .ok ⟨⟨nodes⟩, inventory.nodeJson⟩
      | (key, _) :: _ => .error (.ofText ("unknown top-level key `" ++ key ++ "`"))) := by
  -- Each key is looked up in what the ones before it left, which may stand in another order.
  have vars : ((document.take? "search").2.take? "vars").1 = document.get? "vars" := by
    rw [Fields.take?_fst, Fields.get?_take? distinct (by decide)]
  have resources : (((document.take? "search").2.take? "vars").2.take? "resource").1 = document.get? "resource" := by
    rw [Fields.take?_fst, Fields.get?_take? (Fields.take?_distinct distinct _) (by decide),
      Fields.get?_take? distinct (by decide)]
  unfold ofDocument scopeOf searchScope leftover
  rw [← vars, ← resources, ← Fields.take?_fst document "search"]
  exact (bind_assoc _ _ _).symm

theorem load_topTables {document : Fields} {nodes : List RunNode}
    (loaded : (ifThere (document.get? "resource") [] fun v => do loadAll settings scope (← declarations v)) =
      .ok nodes) :
    List.Forall₂ (Mirrors (LoadsTo settings scope)) (topTables document) nodes := by
  unfold topTables
  cases here : document.get? "resource" with
  | none =>
    rw [here] at loaded
    cases loaded
    exact .nil
  | some v =>
    rw [here] at loaded
    obtain ⟨ds, declared, loaded⟩ := bind_eq_ok.mp loaded
    cases v with
    | array items =>
      cases declared
      exact loadItems_mirrors loaded
    | null | bool | number | string | object => cases declared

theorem parse_eq_ok {text : String} {inventory : Inventory} {settings : Settings} {recipe : Recipe}
    (accepted : parse text inventory settings = .ok recipe) :
    ∃ document scope, Toml.parse? text = some document ∧ (Json.object document).DistinctKeys ∧
      scopeOf document inventory = .ok scope ∧
        List.Forall₂ (Mirrors (LoadsTo settings scope)) (topTables document) recipe.runList.nodes := by
  unfold parse at accepted
  split at accepted
  · rename_i document read
    have distinct := Toml.parse?_distinct read
    rw [ofDocument_eq distinct.keys] at accepted
    obtain ⟨scope, scoping, accepted⟩ := bind_eq_ok.mp accepted
    obtain ⟨nodes, loaded, accepted⟩ := bind_eq_ok.mp accepted
    have same : recipe.runList.nodes = nodes := by
      cases rest : leftover document with
      | nil =>
        rw [rest] at accepted
        cases accepted
        rfl
      | cons field more =>
        rw [rest] at accepted
        cases accepted
    refine ⟨document, scope, read, distinct, scoping, ?_⟩
    rw [same]
    exact load_topTables loaded
  · cases accepted

end Provision.Recipe

import Provision.Proofs.LoadedResources

namespace Provision.Recipe

variable {settings : Settings} {scope : Scope} {table : Fields}

def isGroup (scope : Scope) (table : Fields) : Bool :=
  (property scope table "kind").bind Json.asString? == some groupKind

/-- The table declares a resource of this kind and name; the kind may be written by any of its names. -/
structure Declares (scope : Scope) (table : Fields) (r : Resource) : Prop where
  name : property scope table "name" = some (.string r.name)
  kind : ∃ written, property scope table "kind" = some (.string written) ∧ Kind.ofAlias? written = some r.kind

def Shaped (scope : Scope) (table : Fields) : Option Resource → Prop
  | none => isGroup scope table = true
  | some r => isGroup scope table = false ∧ Declares scope table r

theorem isGroup_eq {kind : String} (written : property scope table "kind" = some (.string kind)) :
    isGroup scope table = (kind == groupKind) := by
  unfold isGroup
  rw [written]
  rfl

/-- The settings put the tag of the kind in the place of its other names, so one kind is read for all of them. -/
theorem kind_of_readFrom {fields : Fields} {written : String} {r : Resource}
    (read : r.ReadFrom (applyDefaults settings written fields))
    (here : fields.get? "kind" = some (.string written)) : Kind.ofAlias? written = some r.kind := by
  have resolved := get?_applyDefaults_kind settings written fields
  cases known : Kind.ofAlias? written with
  | none =>
    rw [known] at resolved
    have same := Spec.kind_of_ofFields read.spec (resolved.trans here)
    rw [known] at same
    cases same.1
  | some k =>
    rw [known] at resolved
    have same := Spec.kind_of_ofFields read.spec resolved
    rw [Kind.ofTag?_tag] at same
    exact same.2

theorem LoadsTo.shaped {resource? : Option Resource} (distinct : (table.map Prod.fst).Nodup)
    (loads : LoadsTo settings scope table resource?) : Shaped scope table resource? := by
  obtain ⟨rendered, name, kind, keys, same, -, written, read⟩ := loads.read distinct
  rcases read with ⟨rfl, rfl⟩ | ⟨other, collected, r, collecting, read, rfl⟩
  · exact (isGroup_eq written).trans (beq_self_eq_true groupKind)
  · obtain ⟨-, kept, -⟩ := collectGuards_eq_ok keys collecting
    have named : collected.get? "name" = some (.string r.name) := by
      rw [← get?_applyDefaults settings kind (by decide)]
      exact read.name
    have kinded : collected.get? "kind" = some (.string kind) := by
      rw [kept "kind" (by decide) (by decide) (by decide), same "kind" (by decide)]
      exact written
    refine ⟨(isGroup_eq written).trans (beq_false_of_ne other), ?_, kind, written, kind_of_readFrom read kinded⟩
    rw [← same "name" (by decide), ← kept "name" (by decide) (by decide) (by decide)]
    exact named

/-- The tree of an accepted recipe mirrors its tables, and the resources of the run list are those of
the tables that are no groups, in pre-order. -/
theorem parse_keepsOrder {text : String} {inventory : Inventory} {recipe : Recipe}
    (accepted : parse text inventory settings = .ok recipe) :
    ∃ document scope, Toml.parse? text = some document ∧ scopeOf document inventory = .ok scope ∧
      List.Forall₂ (Mirrors (Shaped scope)) (topTables document) recipe.runList.nodes ∧
        List.Forall₂ (Declares scope) ((tablesOf (topTables document)).filter (!isGroup scope ·))
          recipe.runList.resources := by
  obtain ⟨document, scope, read, distinct, scoping, mirrored⟩ := parse_eq_ok accepted
  have keys := distinct_of_mem_topTables distinct
  have shaped : List.Forall₂ (Mirrors (Shaped scope)) (topTables document) recipe.runList.nodes :=
    impOf mirrored fun t member resource? loads => loads.shaped (keys t member)
  have listed : List.Forall₂ (fun t r => Shaped scope t (some r))
      ((tablesOf (topTables document)).filter (!isGroup scope ·)) recipe.runList.resources :=
    resourcesOf (fun t group => group) (fun t r single => single.1) shaped
  exact ⟨document, scope, read, scoping, shaped, listed.imp fun t r single => single.2⟩

def groupedText : String :=
  "[[resource]]\nkind=\"group\"\nname=\"site\"\nchildren=[\x7bkind=\"apt\",name=\"\x7b\x7b 'php' \x7d\x7d\"," ++
    "package=\"php\"\x7d,\x7bkind=\"exec\",name=\"up\",command=\"up\"\x7d]\n"

theorem parse_keepsOrder_grouped :
    ∃ recipe, parse groupedText .empty {} = .ok recipe ∧
      recipe.runList.resources.map Resource.id = ["package[php]", "execute[up]"] ∧
      ∃ document scope, Toml.parse? groupedText = some document ∧ scopeOf document .empty = .ok scope ∧
        List.Forall₂ (Mirrors (Shaped scope)) (topTables document) recipe.runList.nodes ∧
          List.Forall₂ (Declares scope) ((tablesOf (topTables document)).filter (!isGroup scope ·))
            recipe.runList.resources := by
  have loaded : (parse groupedText .empty {}).toOption.map (·.runList.resources.map Resource.id) =
      some ["package[php]", "execute[up]"] := by decide +kernel
  obtain ⟨recipe, accepted, ids⟩ := Option.map_eq_some_iff.mp loaded
  rw [toOption_eq_some] at accepted
  exact ⟨recipe, accepted, ids, parse_keepsOrder accepted⟩

end Provision.Recipe

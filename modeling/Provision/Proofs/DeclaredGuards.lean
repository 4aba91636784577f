import Provision.Proofs.DocumentOrder

namespace Provision

theorem mapM_eq_some {α β : Type} {f : α → Option β} {items : List α} {read : List β}
    (done : items.mapM f = some read) : items.map f = read.map some := by
  induction items generalizing read with
  | nil =>
    cases done
    rfl
  | cons item rest ih =>
    rw [List.mapM_cons] at done
    obtain ⟨b, here, done⟩ := Option.bind_eq_some_iff.mp done
    obtain ⟨more, later, done⟩ := Option.bind_eq_some_iff.mp done
    cases done
    rw [List.map_cons, List.map_cons, here, ih later]

theorem Check.ofFields?_set_polarity (fields : Fields) (v : Json) :
    Check.ofFields? (Fields.set fields "polarity" v) = Check.ofFields? fields := by
  have same : ∀ key, key ≠ "polarity" → (Fields.set fields "polarity" v).get? key = fields.get? key :=
    fun key other => Fields.get?_set_of_ne other v
  unfold Check.ofFields?
  simp only [Fields.need?, Fields.optional?, Fields.getOr?, same _ (by decide : "check" ≠ "polarity"),
    same _ (by decide : "command" ≠ "polarity"), same _ (by decide : "user" ≠ "polarity"),
    same _ (by decide : "cwd" ≠ "polarity"), same _ (by decide : "path" ≠ "polarity"),
    same _ (by decide : "owner" ≠ "polarity"), same _ (by decide : "pattern" ≠ "polarity")]

namespace Recipe

variable {settings : Settings} {scope : Scope} {table : Fields} {r : Resource}

def guardUnder? (polarity : Polarity) : Json → Option Guard
  | .string line => some ⟨polarity, .command line none none⟩
  | .object fields => (Check.ofFields? fields).map (⟨polarity, ·⟩)
  | _ => none

theorem ofJson?_taggedGuard {polarity : Polarity} {entry : Json} (tagged : (guardFields? polarity entry).isSome) :
    Guard.ofJson? (taggedGuard polarity entry) = guardUnder? polarity entry := by
  cases entry with
  | string line => cases polarity <;> rfl
  | object fields =>
    have here : (Fields.set fields "polarity" (.string polarity.name)).get? "polarity" = some (.string polarity.name) :=
      (Fields.get?_set _ _ _ _).trans (if_pos rfl)
    have named : Polarity.ofName? polarity.name = some polarity := by cases polarity <;> rfl
    simp only [taggedGuard, guardFields?, Option.map_some, Option.getD_some, Guard.ofJson?, Json.asObject?,
      Fields.need?, here, Json.alternative?, Option.bind_eq_bind, Option.bind_some, named,
      Check.ofFields?_set_polarity, guardUnder?]
    cases Check.ofFields? fields <;> rfl
  | null | bool | number | array => simp [guardFields?] at tagged

def listedGuards (scope : Scope) (table : Fields) : List (Option Guard) :=
  (((property scope table "guards").bind Json.asArray?).getD []).map Guard.ofJson?

def guardsUnder (scope : Scope) (table : Fields) (polarity : Polarity) : List (Option Guard) :=
  ((property scope table polarity.name).elim [] entriesOf).map (guardUnder? polarity)

def polarGuards (scope : Scope) (table : Fields) : List (Option Guard) :=
  guardsUnder scope table .onlyIf ++ guardsUnder scope table .notIf

/-- Every guard that a table declares; none for an entry that is no guard. -/
def declaredGuards (scope : Scope) (table : Fields) : List (Option Guard) :=
  listedGuards scope table ++ polarGuards scope table

/-- What becomes of the guards that a table declares. -/
structure Guarded (scope : Scope) (table : Fields) (r : Resource) : Prop where
  /-- Guards of one polarity take the place of those that are listed. -/
  exactly : r.guards.map some =
    if polarGuards scope table = [] then listedGuards scope table else polarGuards scope table
  polar : ∀ guard ∈ polarGuards scope table, guard ∈ r.guards.map some
  every : (∀ guard ∈ declaredGuards scope table, guard ∈ r.guards.map some) ↔
    polarGuards scope table = [] ∨ ∀ guard ∈ listedGuards scope table, guard ∈ polarGuards scope table

theorem Guarded.of_exactly
    (exactly : r.guards.map some =
      if polarGuards scope table = [] then listedGuards scope table else polarGuards scope table) :
    Guarded scope table r := by
  by_cases none : polarGuards scope table = []
  · rw [if_pos none] at exactly
    refine ⟨by rw [if_pos none, exactly], by simp [none], ?_⟩
    simp [declaredGuards, none, exactly]
  · rw [if_neg none] at exactly
    refine ⟨by rw [if_neg none, exactly], by simp [exactly], ?_⟩
    rw [exactly]
    simp only [declaredGuards, none, false_or]
    exact ⟨fun all guard member => all guard (List.mem_append_left _ member),
      fun all guard member => (List.mem_append.mp member).elim (all guard) id⟩

theorem LoadsTo.guarded (distinct : (table.map Prod.fst).Nodup) (loads : LoadsTo settings scope table (some r)) :
    Guarded scope table r := by
  obtain ⟨rendered, name, kind, keys, same, -, -, read⟩ := loads.read distinct
  rcases read with ⟨-, group⟩ | ⟨-, collected, r, collecting, read, single⟩
  · cases group
  · cases single
    obtain ⟨tagged, -, guards⟩ := collectGuards_eq_ok keys collecting
    -- The loader looks for entries among rendered fields, the guards declared are those of the table as it was written.
    have entries : ∀ polarity : Polarity,
        entriesUnder rendered polarity = (property scope table polarity.name).elim [] entriesOf := by
      intro polarity
      rw [← same _ (by cases polarity <;> decide)]
      rfl
    have under : ∀ polarity, ((entriesUnder rendered polarity).map (taggedGuard polarity)).map Guard.ofJson? =
        guardsUnder scope table polarity := by
      intro polarity
      rw [List.map_map, guardsUnder, ← entries]
      exact List.map_congr_left fun entry member => ofJson?_taggedGuard (tagged polarity entry member)
    have bare : polarGuards scope table = [] ↔
        entriesUnder rendered .onlyIf = [] ∧ entriesUnder rendered .notIf = [] := by
      simp [polarGuards, ← under]
    have held := read.guards
    rw [Fields.getOr?, get?_applyDefaults settings kind (by decide), guards] at held
    refine Guarded.of_exactly ?_
    by_cases none : polarGuards scope table = []
    · rw [if_pos (bare.mp none), same "guards" (by decide)] at held
      rw [if_pos none, listedGuards]
      cases here : property scope table "guards" with
      | none =>
        rw [here] at held
        rw [← Option.some.inj held]
        rfl
      | some v =>
        rw [here] at held
        cases v with
        | array items => exact (mapM_eq_some held).symm
        | null | bool | number | string | object => cases held
    · rw [if_neg (mt bare.mpr none)] at held
      rw [if_neg none, ← mapM_eq_some held, List.map_append, under, under]
      rfl

/-- Every guard under `only_if` and `not_if` is enforced. Those that are listed are enforced exactly if the table
has none under these keys, or declares the same guards there. -/
theorem parse_guards {text : String} {inventory : Inventory} {recipe : Recipe}
    (accepted : parse text inventory settings = .ok recipe) :
    ∃ document scope, Toml.parse? text = some document ∧ scopeOf document inventory = .ok scope ∧
      List.Forall₂ (Guarded scope) ((tablesOf (topTables document)).filter (!isGroup scope ·))
        recipe.runList.resources := by
  obtain ⟨document, scope, read, distinct, scoping, mirrored⟩ := parse_eq_ok accepted
  have keys := distinct_of_mem_topTables distinct
  have both : List.Forall₂ (Mirrors fun t resource? => Shaped scope t resource? ∧ ∀ r ∈ resource?, Guarded scope t r)
      (topTables document) recipe.runList.nodes := by
    refine impOf mirrored fun t member resource? loads => ⟨loads.shaped (keys t member), ?_⟩
    rintro r rfl
    exact loads.guarded (keys t member)
  have listed := resourcesOf (fun t group => group.1) (fun t r single => single.1.1) both
  exact ⟨document, scope, read, scoping, listed.imp fun t r single => single.2 r rfl⟩

def doublyGuardedText : String :=
  "[[resource]]\nkind=\"apt\"\nname=\"p\"\npackage=\"p\"\nonly_if=\"up\"\n" ++
    "guards=[\x7bpolarity=\"not_if\",check=\"file_exists\",path=\"/g\"\x7d]\n"

theorem doublyGuarded_loads : (parse doublyGuardedText .empty {}).toOption.map (·.runList.resources.map (·.guards)) =
    some [[⟨.onlyIf, .command "up" none none⟩]] := by
  decide +kernel

theorem parse_guards_doubly :
    ∃ recipe, parse doublyGuardedText .empty {} = .ok recipe ∧
      ∃ document scope, Toml.parse? doublyGuardedText = some document ∧ scopeOf document .empty = .ok scope ∧
        List.Forall₂ (Guarded scope) ((tablesOf (topTables document)).filter (!isGroup scope ·))
          recipe.runList.resources := by
  obtain ⟨recipe, accepted, -⟩ := Option.map_eq_some_iff.mp doublyGuarded_loads
  rw [toOption_eq_some] at accepted
  exact ⟨recipe, accepted, parse_guards accepted⟩

/-- The file that must not be there is not asked for. -/
theorem parse_loses_listed :
    ∃ recipe document scope table r, parse doublyGuardedText .empty {} = .ok recipe ∧
      Toml.parse? doublyGuardedText = some document ∧ scopeOf document .empty = .ok scope ∧
        (tablesOf (topTables document)).filter (!isGroup scope ·) = [table] ∧ recipe.runList.resources = [r] ∧
          some ⟨.notIf, .fileExists "/g"⟩ ∈ declaredGuards scope table ∧
            r.guards = [⟨.onlyIf, .command "up" none none⟩] := by
  have declared : ((Toml.parse? doublyGuardedText).bind fun document =>
      (scopeOf document .empty).toOption.map fun scope =>
        ((tablesOf (topTables document)).filter (!isGroup scope ·)).map (declaredGuards scope)) =
      some [[some ⟨.notIf, .fileExists "/g"⟩, some ⟨.onlyIf, .command "up" none none⟩]] := by decide +kernel
  obtain ⟨recipe, accepted, guards⟩ := Option.map_eq_some_iff.mp doublyGuarded_loads
  obtain ⟨document, read, declared⟩ := Option.bind_eq_some_iff.mp declared
  obtain ⟨scope, scoping, declared⟩ := Option.map_eq_some_iff.mp declared
  obtain ⟨r, single, guarded⟩ := List.map_eq_singleton_iff.mp guards
  obtain ⟨table, alone, all⟩ := List.map_eq_singleton_iff.mp declared
  rw [toOption_eq_some] at accepted scoping
  refine ⟨recipe, document, scope, table, r, accepted, read, scoping, alone, single, ?_, guarded⟩
  rw [all]
  exact List.mem_cons_self

end Recipe

end Provision

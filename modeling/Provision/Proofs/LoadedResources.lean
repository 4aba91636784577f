import Provision.Proofs.LoadedTree

namespace Provision

theorem Spec.kind_of_ofOwnFields {kind : Kind} {fields : Fields} {spec : Spec}
    (read : Spec.ofOwnFields? kind fields = some spec) : spec.kind = kind := by
  cases kind <;>
  · obtain ⟨properties, -, rfl⟩ := Option.map_eq_some_iff.mp read
    rfl

theorem Kind.ofAlias?_of_tag {tag : String} (known : tag ∈ Spec.tags) : Kind.ofAlias? tag = Kind.ofTag? tag := by
  have each : ∀ t ∈ Spec.tags, Kind.ofAlias? t = Kind.ofTag? t := by decide
  exact each tag known

theorem Json.tagOf?_string {names : List String} {s tag : String} (read : Json.tagOf? names (.string s) = some tag) :
    tag = s ∧ s ∈ names := by
  simp only [Json.tagOf?, Option.ite_none_right_eq_some, Option.some.injEq, List.contains_iff_mem] at read
  exact ⟨read.2.symm, read.1⟩

theorem Spec.kind_of_ofFields {fields : Fields} {spec : Spec} {s : String} (read : Spec.ofFields? fields = some spec)
    (here : fields.get? "kind" = some (.string s)) :
    Kind.ofAlias? s = some spec.kind ∧ Kind.ofTag? s = some spec.kind := by
  obtain ⟨tag, tagged, read⟩ := Option.bind_eq_some_iff.mp read
  obtain ⟨kind, known, read⟩ := Option.bind_eq_some_iff.mp read
  rw [here] at tagged
  obtain ⟨rfl, listed⟩ := Json.tagOf?_string tagged
  rw [Spec.kind_of_ofOwnFields read, Kind.ofAlias?_of_tag listed]
  exact ⟨known, known⟩

theorem Json.asString?_eq_some {v : Json} {s : String} (read : v.asString? = some s) : v = .string s := by
  cases v with
  | string t =>
    cases read
    rfl
  | null | bool | number | array | object => cases read

theorem Json.asObject?_eq_some {v : Json} {fields : Fields} (read : v.asObject? = some fields) : v = .object fields := by
  cases v with
  | object own =>
    cases read
    rfl
  | null | bool | number | string | array => cases read

theorem Fields.need?_string {fields : Fields} {key s : String} (read : fields.need? key Json.asString? = some s) :
    fields.get? key = some (.string s) := by
  obtain ⟨v, here, string⟩ := Option.bind_eq_some_iff.mp read
  rw [here, Json.asString?_eq_some string]

theorem Fields.need?_object {fields inner : Fields} {key : String}
    (read : fields.need? key Json.asObject? = some inner) : fields.get? key = some (.object inner) := by
  obtain ⟨v, here, object⟩ := Option.bind_eq_some_iff.mp read
  rw [here, Json.asObject?_eq_some object]

structure Resource.ReadFrom (fields : Fields) (r : Resource) : Prop where
  name : fields.get? "name" = some (.string r.name)
  spec : Spec.ofFields? fields = some r.spec
  guards : fields.getOr? "guards" [] (Json.list? Guard.ofJson?) = some r.guards
  notifies : fields.getOr? "notifies" [] Json.stringList? = some r.notifies

theorem Resource.readFrom {fields : Fields} {r : Resource} (read : Resource.ofFields? fields = some r) :
    r.ReadFrom fields := by
  obtain ⟨name, named, read⟩ := Option.bind_eq_some_iff.mp read
  obtain ⟨guards, guarded, read⟩ := Option.bind_eq_some_iff.mp read
  obtain ⟨bestEffort, -, read⟩ := Option.bind_eq_some_iff.mp read
  obtain ⟨onGuardError, -, read⟩ := Option.bind_eq_some_iff.mp read
  obtain ⟨notifies, notified, read⟩ := Option.bind_eq_some_iff.mp read
  obtain ⟨spec, specified, read⟩ := Option.bind_eq_some_iff.mp read
  cases read
  exact ⟨Fields.need?_string named, specified, guarded, notified⟩

namespace Recipe

variable {fields : Fields} {settings : Settings} {kind key : String}

def defaultKeys : List String := ["sites_available", "sites_enabled", "notifies", "user", "kind"]

theorem get?_setMissing {other : String} (ne : other ≠ key) (v : Json) :
    (setMissing fields key v).get? other = fields.get? other := by
  unfold setMissing
  split
  · rfl
  · exact Fields.get?_set_of_ne ne v

theorem get?_addReload (command : String) {other : String} (ne : other ≠ "notifies") :
    (addReload command fields).get? other = fields.get? other := by
  unfold addReload
  split
  · split
    · rfl
    · exact Fields.get?_set_of_ne ne _
  · rfl

theorem get?_applyDefaults (settings : Settings) (kind : String) (own : key ∉ defaultKeys) :
    (applyDefaults settings kind fields).get? key = fields.get? key := by
  simp only [defaultKeys, List.mem_cons, List.not_mem_nil, or_false, not_or] at own
  obtain ⟨available, enabled, notifies, user, tag⟩ := own
  unfold applyDefaults
  cases Kind.ofAlias? kind with
  | none => rfl
  | some k =>
    rw [Fields.get?_set_of_ne tag]
    cases k with
    | site => rw [get?_addReload _ notifies, get?_setMissing enabled, get?_setMissing available]
    | scheduledJob => exact get?_setMissing user _
    | package | command | lineEdit | renderedFile | workingCopy | ownership => rfl

theorem get?_applyDefaults_kind (settings : Settings) (kind : String) (fields : Fields) :
    (applyDefaults settings kind fields).get? "kind" =
      match Kind.ofAlias? kind with
      | some k => some (.string k.tag)
      | none => fields.get? "kind" := by
  unfold applyDefaults
  cases Kind.ofAlias? kind with
  | none => rfl
  | some k => exact (Fields.get?_set _ _ _ _).trans (if_pos rfl)

def entriesUnder (fields : Fields) (polarity : Polarity) : List Json :=
  (fields.get? polarity.name).elim [] entriesOf

def taggedGuard (polarity : Polarity) (entry : Json) : Json :=
  ((guardFields? polarity entry).map Json.object).getD .null

theorem mapM_taggedGuard {polarity : Polarity} {entries guards : List Json}
    (read : (entries.mapM fun entry =>
      match guardFields? polarity entry with
      | some fields => Except.ok (Json.object fields)
      | none => Except.error (LoadError.ofText ("`" ++ polarity.name ++ "` entries must be commands or tables"))) =
        .ok guards) :
    guards = entries.map (taggedGuard polarity) ∧ ∀ entry ∈ entries, (guardFields? polarity entry).isSome := by
  induction entries generalizing guards with
  | nil =>
    cases read
    exact ⟨rfl, by simp⟩
  | cons entry rest ih =>
    rw [List.mapM_cons] at read
    obtain ⟨guard, here, read⟩ := bind_eq_ok.mp read
    obtain ⟨more, later, read⟩ := bind_eq_ok.mp read
    cases read
    obtain ⟨rfl, others⟩ := ih later
    cases tagged : guardFields? polarity entry with
    | none =>
      rw [tagged] at here
      cases here
    | some own =>
      rw [tagged] at here
      cases here
      refine ⟨by simp [taggedGuard, tagged], fun e member => ?_⟩
      rcases List.mem_cons.mp member with rfl | member
      · simp [tagged]
      · exact others e member

theorem polarityGuards_eq_ok {polarity : Polarity} {guards : List Json}
    (read : polarityGuards polarity (fields.get? polarity.name) = .ok guards) :
    guards = (entriesUnder fields polarity).map (taggedGuard polarity) ∧
      ∀ entry ∈ entriesUnder fields polarity, (guardFields? polarity entry).isSome := by
  unfold entriesUnder
  cases here : fields.get? polarity.name with
  | none =>
    rw [here] at read
    cases read
    exact ⟨rfl, by simp⟩
  | some v =>
    rw [here] at read
    exact mapM_taggedGuard read

def unpolarized (fields : Fields) : Fields :=
  ((fields.take? Polarity.onlyIf.name).2.take? Polarity.notIf.name).2

theorem collectGuards_eq (distinct : (fields.map Prod.fst).Nodup) :
    collectGuards fields = (do
      let onlyIf ← polarityGuards .onlyIf (fields.get? Polarity.onlyIf.name)
      let notIf ← polarityGuards .notIf (fields.get? Polarity.notIf.name)
      .ok (if (onlyIf ++ notIf).isEmpty then unpolarized fields
        else (unpolarized fields).set "guards" (.array (onlyIf ++ notIf)))) := by
  have second :
      ((fields.take? Polarity.onlyIf.name).2.take? Polarity.notIf.name).1 = fields.get? Polarity.notIf.name := by
    rw [Fields.take?_fst, Fields.get?_take? distinct (by decide)]
  rw [← second, ← Fields.take?_fst fields]
  rfl

theorem get?_unpolarized (distinct : (fields.map Prod.fst).Nodup) (notOnlyIf : key ≠ "only_if")
    (notNotIf : key ≠ "not_if") : (unpolarized fields).get? key = fields.get? key := by
  have second := Fields.get?_take? (Fields.take?_distinct distinct Polarity.onlyIf.name) notNotIf
  exact second.trans (Fields.get?_take? distinct notOnlyIf)

theorem collectGuards_eq_ok {collected : Fields} (distinct : (fields.map Prod.fst).Nodup)
    (done : collectGuards fields = .ok collected) :
    (∀ polarity, ∀ entry ∈ entriesUnder fields polarity, (guardFields? polarity entry).isSome) ∧
      (∀ key, key ≠ "only_if" → key ≠ "not_if" → key ≠ "guards" → collected.get? key = fields.get? key) ∧
        collected.get? "guards" =
          if entriesUnder fields .onlyIf = [] ∧ entriesUnder fields .notIf = [] then fields.get? "guards"
          else some (.array ((entriesUnder fields .onlyIf).map (taggedGuard .onlyIf) ++
            (entriesUnder fields .notIf).map (taggedGuard .notIf))) := by
  rw [collectGuards_eq distinct] at done
  obtain ⟨onlyIf, first, done⟩ := bind_eq_ok.mp done
  obtain ⟨notIf, second, done⟩ := bind_eq_ok.mp done
  obtain ⟨rfl, firstEntries⟩ := polarityGuards_eq_ok first
  obtain ⟨rfl, secondEntries⟩ := polarityGuards_eq_ok second
  refine ⟨fun polarity => ?_, ?_⟩
  · cases polarity
    · exact firstEntries
    · exact secondEntries
  · cases done
    by_cases none : entriesUnder fields .onlyIf = [] ∧ entriesUnder fields .notIf = []
    · simp only [none.1, none.2, List.map_nil, List.append_nil, List.isEmpty_nil, and_self, ↓reduceIte]
      exact ⟨fun key other another _ => get?_unpolarized distinct other another,
        get?_unpolarized distinct (by decide) (by decide)⟩
    · have some : ((entriesUnder fields .onlyIf).map (taggedGuard .onlyIf) ++
          (entriesUnder fields .notIf).map (taggedGuard .notIf)).isEmpty = false := by
        simpa using none
      rw [some, if_neg none]
      refine ⟨fun key other another different => ?_, ?_⟩
      · exact (Fields.get?_set_of_ne different _).trans (get?_unpolarized distinct other another)
      · exact (Fields.get?_set _ _ _ _).trans (if_pos rfl)

theorem Entry.ofFields_eq_ok {entry : Entry} :
    Entry.ofFields settings fields = .ok entry ↔
      ∃ name kind, fields.get? "name" = some (.string name) ∧ fields.get? "kind" = some (.string kind) ∧
        ((kind = groupKind ∧ entry = .group name) ∨
          (kind ≠ groupKind ∧ ∃ collected r, collectGuards fields = .ok collected ∧
            Resource.ofFields? (applyDefaults settings kind collected) = some r ∧ entry = .resource r)) := by
  constructor
  · intro made
    unfold Entry.ofFields at made
    cases named : (fields.get? "name").bind Json.asString? with
    | none =>
      rw [named] at made
      cases made
    | some name =>
      cases tagged : (fields.get? "kind").bind Json.asString? with
      | none =>
        rw [named, tagged] at made
        cases made
      | some kind =>
        refine ⟨name, kind, Fields.need?_string named, Fields.need?_string tagged, ?_⟩
        rw [named, tagged] at made
        change (if kind = groupKind then Except.ok (Entry.group name) else _) = Except.ok entry at made
        split at made
        · rename_i group
          cases made
          exact .inl ⟨group, rfl⟩
        · rename_i other
          obtain ⟨collected, collecting, made⟩ := bind_eq_ok.mp made
          split at made
          · rename_i r read
            cases made
            exact .inr ⟨other, collected, r, collecting, read, rfl⟩
          · cases made
  · rintro ⟨name, kind, named, tagged, made⟩
    unfold Entry.ofFields
    rw [named, tagged]
    change (if kind = groupKind then Except.ok (Entry.group name) else _) = Except.ok entry
    rcases made with ⟨group, rfl⟩ | ⟨other, collected, r, collecting, read, rfl⟩
    · rw [if_pos group]
    · rw [if_neg other]
      refine bind_eq_ok.mpr ⟨collected, collecting, ?_⟩
      simp only [read]

theorem Entry.ofFields_named {entry : Entry} (made : Entry.ofFields settings fields = .ok entry) :
    ∃ name kind, fields.get? "name" = some (.string name) ∧ fields.get? "kind" = some (.string kind) ∧
      ((kind = groupKind ∧ entry = .group name) ∨
        (kind ≠ groupKind ∧ ∃ collected r, collectGuards fields = .ok collected ∧
          r.ReadFrom (applyDefaults settings kind collected) ∧ entry = .resource r)) := by
  obtain ⟨name, kind, named, tagged, made⟩ := Entry.ofFields_eq_ok.mp made
  refine ⟨name, kind, named, tagged, made.imp_right ?_⟩
  rintro ⟨other, collected, r, collecting, read, same⟩
  exact ⟨other, collected, r, collecting, Resource.readFrom read, same⟩

/-- What a table was read as, by what its properties stand for. -/
theorem LoadsTo.read {scope : Scope} {table : Fields} {resource? : Option Resource}
    (distinct : (table.map Prod.fst).Nodup) (loads : LoadsTo settings scope table resource?) :
    ∃ rendered name kind, (rendered.map Prod.fst).Nodup ∧
      (∀ key, key ≠ "children" → rendered.get? key = property scope table key) ∧
      property scope table "name" = some (.string name) ∧ property scope table "kind" = some (.string kind) ∧
      ((kind = groupKind ∧ resource? = none) ∨
        (kind ≠ groupKind ∧ ∃ collected r, collectGuards rendered = .ok collected ∧
          r.ReadFrom (applyDefaults settings kind collected) ∧ resource? = some r)) := by
  obtain ⟨rendered, entry, rendering, made, rfl⟩ := loads
  have keys : (rendered.map Prod.fst).Nodup := by
    rw [renderFields_keys rendering]
    exact Fields.swapRemove_distinct distinct "children"
  have same : ∀ key, key ≠ "children" → rendered.get? key = property scope table key := by
    intro key other
    rw [get?_renderFields rendering, property_swapRemove distinct other]
  obtain ⟨name, kind, named, tagged, read⟩ := Entry.ofFields_named made
  refine ⟨rendered, name, kind, keys, same, (same _ (by decide)).symm.trans named,
    (same _ (by decide)).symm.trans tagged, ?_⟩
  rcases read with ⟨group, rfl⟩ | ⟨other, collected, r, collecting, from_, rfl⟩
  · exact .inl ⟨group, rfl⟩
  · exact .inr ⟨other, collected, r, collecting, from_, rfl⟩

end Recipe

end Provision

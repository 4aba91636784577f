import Provision.Inventory.Basic
import Provision.Proofs.JsonFields

namespace Provision

structure Inventory.DistinctKeys (inventory : Inventory) : Prop where
  node : inventory.nodeJson.DistinctKeys
  records : ∀ kind, ∀ record ∈ inventory.records kind, record.toJson.DistinctKeys

mutual

theorem Source.toJson?_distinct : ∀ {depth : Nat} {source : Source} {v : Json}, source.toJson? depth = some v →
    v.DistinctKeys
  | _, .null, v | _, .bool _, v => by
    intro read
    rw [Source.toJson?] at read
    cases read
    exact .scalar rfl
  | _, .number _, v | _, .string _, v => by
    intro read
    rw [Source.toJson?] at read
    obtain ⟨_, -, rfl⟩ := Option.map_eq_some_iff.mp read
    exact .scalar rfl
  | 0, .array _, v | 0, .object _, v => by
    intro read
    rw [Source.toJson?] at read
    cases read
  | depth + 1, .array items, v => by
    intro read
    rw [Source.toJson?] at read
    obtain ⟨values, inner, rfl⟩ := Option.map_eq_some_iff.mp read
    exact .array (Source.itemsToJson?_distinct inner)
  | depth + 1, .object fields, v => by
    intro read
    rw [Source.toJson?] at read
    obtain ⟨entries, inner, rfl⟩ := Option.map_eq_some_iff.mp read
    exact .object (Fields.ofEntries_distinct entries) (Fields.ofEntries_forall (Source.fieldsToJson?_distinct inner))

theorem Source.itemsToJson?_distinct : ∀ {depth : Nat} {items : List Source} {values : List Json},
    Source.itemsToJson? depth items = some values → ∀ v ∈ values, v.DistinctKeys
  | _, [], values => by
    intro read
    rw [Source.itemsToJson?] at read
    cases read
    simp
  | depth, source :: rest, values => by
    intro read
    rw [Source.itemsToJson?] at read
    obtain ⟨first, own, read⟩ := Option.bind_eq_some_iff.mp read
    obtain ⟨more, later, read⟩ := Option.bind_eq_some_iff.mp read
    cases read
    exact List.forall_mem_cons.mpr ⟨Source.toJson?_distinct own, Source.itemsToJson?_distinct later⟩

theorem Source.fieldsToJson?_distinct : ∀ {depth : Nat} {fields : List (Option String × Source)}
    {entries : List (String × Json)}, Source.fieldsToJson? depth fields = some entries →
      ∀ entry ∈ entries, entry.2.DistinctKeys
  | _, [], entries => by
    intro read
    rw [Source.fieldsToJson?] at read
    cases read
    simp
  | depth, (k, source) :: rest, entries => by
    intro read
    rw [Source.fieldsToJson?] at read
    obtain ⟨key, -, read⟩ := Option.bind_eq_some_iff.mp read
    obtain ⟨first, own, read⟩ := Option.bind_eq_some_iff.mp read
    obtain ⟨more, later, read⟩ := Option.bind_eq_some_iff.mp read
    cases read
    exact List.forall_mem_cons.mpr ⟨Source.toJson?_distinct own, Source.fieldsToJson?_distinct later⟩

end

theorem SortedMap.mem_insert {α : Type} {m : SortedMap α} {key : String} {v : α} {entry : String × α}
    (member : entry ∈ m.insert key v) : entry = (key, v) ∨ entry ∈ m := by
  induction m with
  | nil => exact .inl (List.mem_singleton.mp member)
  | cons first rest ih =>
    obtain ⟨k, u⟩ := first
    unfold SortedMap.insert at member
    split at member
    · rename_i same
      rcases List.mem_cons.mp member with rfl | later
      · exact .inl (by rw [same])
      · exact .inr (List.mem_cons_of_mem _ later)
    · split at member
      · exact List.mem_cons.mp member
      · rcases List.mem_cons.mp member with rfl | later
        · exact .inr List.mem_cons_self
        · exact (ih later).imp_right (List.mem_cons_of_mem _)

theorem SortedMap.mem_ofList {α : Type} {entries : List (String × α)} {entry : String × α}
    (member : entry ∈ ofList entries) : entry ∈ entries := by
  have inserted : ∀ m : SortedMap α,
      entry ∈ (entries.foldl (fun m e => SortedMap.insert m e.1 e.2) m : SortedMap α) →
        entry ∈ entries ∨ entry ∈ m := by
    clear member
    induction entries with
    | nil => exact fun m => .inr
    | cons first rest ih =>
      intro m member
      rcases ih _ member with later | early
      · exact .inl (List.mem_cons_of_mem _ later)
      · exact (mem_insert early).imp_left fun same => by rw [same]; exact List.mem_cons_self
  exact (inserted [] member).resolve_right (List.not_mem_nil)

theorem Record.toJson_of_ofJson? {v : Json} {record : Record} (read : Record.ofJson? v = some record) :
    record.toJson = v := by
  cases v <;> cases read
  rfl

theorem Inventory.records_distinct {v : Json} (distinct : v.DistinctKeys) {search : SortedMap (List Record)}
    (read : Inventory.searchOfJson? v = some search) (kind : String) :
    ∀ record ∈ (search.get? kind).getD [], record.toJson.DistinctKeys := by
  cases v with
  | object fields =>
    obtain ⟨entries, done, read⟩ := Option.bind_eq_some_iff.mp read
    cases read
    cases here : SortedMap.get? (SortedMap.ofList entries) kind with
    | none => simp
    | some records =>
      have member : (kind, records) ∈ entries := SortedMap.mem_ofList (Toml.mem_of_lookup here)
      obtain ⟨⟨k, u⟩, field, own⟩ := mem_of_mapM done member
      obtain ⟨items, listed, same⟩ := Option.map_eq_some_iff.mp own
      cases same
      intro record inside
      have values : u.DistinctKeys := distinct.field _ field
      cases u with
      | array us =>
        obtain ⟨w, there, made⟩ := mem_of_mapM listed inside
        rw [Record.toJson_of_ofJson? made]
        exact values.item w there
      | null | bool | number | string | object => cases listed
  | null | bool | number | string | array => cases read

/-- In an inventory that is read from a text no object has a key twice. -/
theorem Inventory.parse?_distinct {text : String} {inventory : Inventory}
    (read : Inventory.parse? text = some inventory) : inventory.DistinctKeys := by
  obtain ⟨source, -, read⟩ := Option.bind_eq_some_iff.mp read
  obtain ⟨known, -, read⟩ := Option.bind_eq_some_iff.mp read
  obtain ⟨fields, values, read⟩ := Option.bind_eq_some_iff.mp read
  have distinct : ∀ field ∈ fields, field.2.DistinctKeys := by
    intro field member
    obtain ⟨⟨k, v⟩, -, own⟩ := mem_of_mapM values member
    obtain ⟨w, there, rfl⟩ := Option.map_eq_some_iff.mp own
    exact Source.toJson?_distinct there
  obtain ⟨node, first, read⟩ := Option.bind_eq_some_iff.mp read
  obtain ⟨search, second, read⟩ := Option.bind_eq_some_iff.mp read
  cases read
  refine ⟨?_, fun kind => ?_⟩
  · rcases Fields.getOr?_eq_some first with rfl | ⟨v, here, object⟩
    · exact .object List.nodup_nil (by simp)
    · cases v with
      | object fields =>
        cases object
        exact distinct _ (Toml.mem_of_lookup here)
      | null | bool | number | string | array => cases object
  · rcases Fields.getOr?_eq_some second with rfl | ⟨v, here, searched⟩
    · intro record member
      cases member
    · exact Inventory.records_distinct (distinct _ (Toml.mem_of_lookup here)) searched kind

end Provision

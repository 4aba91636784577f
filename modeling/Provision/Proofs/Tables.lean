import Mathlib.Data.List.Forall2
import Provision.Proofs.DistinctKeys
import Provision.Recipe.Text

namespace Provision

section

variable {ε ε' α β : Type} {x : Except ε α}

theorem bind_eq_ok {f : α → Except ε β} {b : β} : x >>= f = .ok b ↔ ∃ a, x = .ok a ∧ f a = .ok b := by
  cases x <;> simp [bind, Except.bind]

theorem map_eq_ok {f : α → β} {b : β} : x.map f = .ok b ↔ ∃ a, x = .ok a ∧ f a = b := by
  cases x <;> simp [Except.map]

theorem toOption_eq_some {a : α} : x.toOption = some a ↔ x = .ok a := by
  cases x <;> simp [Except.toOption]

theorem mapError_eq_ok {f : ε → ε'} {a : α} : x.mapError f = .ok a ↔ x = .ok a := by
  cases x <;> simp [Except.mapError]

theorem toOption_bind (x : Except ε α) (f : α → Except ε β) :
    (x >>= f).toOption = x.toOption.bind fun a => (f a).toOption := by
  cases x <;> rfl

theorem toOption_map (x : Except ε α) (f : α → β) : (x.map f).toOption = x.toOption.map f := by
  cases x <;> rfl

theorem toOption_mapError (x : Except ε α) (f : ε → ε') : (x.mapError f).toOption = x.toOption := by
  cases x <;> rfl

end

section

variable {α β γ δ : Type} {R : α → β → Prop} {x : Option α} {y : Option β} {f : α → Option γ} {g : β → Option δ}

theorem rel_bind {S : γ → δ → Prop} (related : Option.Rel R x y)
    (each : ∀ a b, x = some a → R a b → Option.Rel S (f a) (g b)) : Option.Rel S (x.bind f) (y.bind g) := by
  cases related with
  | none => exact .none
  | some both => exact each _ _ rfl both

theorem bind_of_rel {h : γ → δ} (related : Option.Rel R x y)
    (each : ∀ a b, x = some a → y = some b → R a b → g b = (f a).map h) : y.bind g = (x.bind f).map h := by
  cases related with
  | none => rfl
  | some both => exact each _ _ rfl rfl both

end

namespace Fields

variable {fields : Fields} {key : String}

@[simp] theorem get?_cons_self (key : String) (v : Json) (rest : Fields) : get? ((key, v) :: rest) key = some v := by
  simp [get?]

theorem get?_cons_of_ne {other : String} (ne : key ≠ other) (v : Json) (rest : Fields) :
    get? ((other, v) :: rest) key = get? rest key := by
  have test : (key == other) = false := beq_eq_false_iff_ne.mpr ne
  simp only [get?, List.lookup_cons, test]

theorem swapRemove_perm (fields : Fields) (key : String) :
    (fields.swapRemove key).Perm (fields.eraseP (·.1 == key)) := by
  induction fields with
  | nil => exact .nil
  | cons field rest ih =>
    obtain ⟨k, v⟩ := field
    by_cases same : k = key
    · have taken : ((k, v) :: rest).eraseP (·.1 == key) = rest := List.eraseP_cons_of_pos (by simp [same])
      rw [taken]
      simp only [swapRemove, same, ↓reduceIte]
      rcases rest.eq_nil_or_concat with rfl | ⟨front, last, rfl⟩
      · exact .nil
      · simpa using (List.perm_append_singleton last front).symm
    · have kept : ((k, v) :: rest).eraseP (·.1 == key) = (k, v) :: rest.eraseP (·.1 == key) :=
        List.eraseP_cons_of_neg (by simp [same])
      rw [kept]
      simp only [swapRemove, same, ↓reduceIte]
      exact ih.cons (k, v)

theorem swapRemove_distinct (distinct : (fields.map Prod.fst).Nodup) (key : String) :
    ((fields.swapRemove key).map Prod.fst).Nodup := by
  have fewer : (fields.eraseP (·.1 == key)).Sublist fields := List.eraseP_sublist
  exact (((swapRemove_perm fields key).map Prod.fst).nodup_iff).mpr (distinct.sublist (fewer.map Prod.fst))

theorem mem_swapRemove_of_ne {field : String × Json} (other : field.1 ≠ key) :
    field ∈ fields.swapRemove key ↔ field ∈ fields := by
  rw [(swapRemove_perm fields key).mem_iff]
  exact List.mem_eraseP_of_neg (by simpa using other)

theorem get?_eq_some_iff (distinct : (fields.map Prod.fst).Nodup) {v : Json} :
    fields.get? key = some v ↔ (key, v) ∈ fields := by
  constructor
  · exact Toml.mem_of_lookup
  · intro member
    induction fields with
    | nil => cases member
    | cons field rest ih =>
      obtain ⟨k, u⟩ := field
      obtain ⟨absent, later⟩ := List.nodup_cons.mp distinct
      rcases List.mem_cons.mp member with same | inside
      · cases same
        exact get?_cons_self key v rest
      · have other : key ≠ k := by
          rintro rfl
          exact absent (List.mem_map.mpr ⟨_, inside, rfl⟩)
        rw [get?_cons_of_ne other]
        exact ih later inside

theorem get?_swapRemove (distinct : (fields.map Prod.fst).Nodup) {removed : String} (other : key ≠ removed) :
    (fields.swapRemove removed).get? key = fields.get? key := by
  refine Option.ext fun v => ?_
  rw [get?_eq_some_iff (swapRemove_distinct distinct removed), get?_eq_some_iff distinct]
  exact mem_swapRemove_of_ne other

theorem take?_fst (fields : Fields) (key : String) : (fields.take? key).1 = fields.get? key := by
  unfold take?
  split <;> simp_all

theorem take?_distinct (distinct : (fields.map Prod.fst).Nodup) (key : String) :
    ((fields.take? key).2.map Prod.fst).Nodup := by
  unfold take?
  split
  · exact swapRemove_distinct distinct key
  · exact distinct

theorem get?_take? (distinct : (fields.map Prod.fst).Nodup) {removed : String} (other : key ≠ removed) :
    (fields.take? removed).2.get? key = fields.get? key := by
  unfold take?
  split
  · exact get?_swapRemove distinct other
  · rfl

theorem get?_set (fields : Fields) (key other : String) (v : Json) :
    (Fields.set fields key v).get? other = if other = key then some v else fields.get? other := by
  induction fields with
  | nil =>
    split
    · rename_i same
      rw [same]
      exact get?_cons_self key v []
    · rename_i ne
      exact get?_cons_of_ne ne v []
  | cons field rest ih =>
    obtain ⟨k, u⟩ := field
    by_cases here : k = key
    · subst here
      have replaced : Fields.set ((k, u) :: rest) k v = (k, v) :: rest := if_pos rfl
      rw [replaced]
      split
      · rename_i same
        rw [same]
        exact get?_cons_self k v rest
      · rename_i ne
        rw [get?_cons_of_ne ne, get?_cons_of_ne ne]
    · have kept : Fields.set ((k, u) :: rest) key v = (k, u) :: Fields.set rest key v := if_neg here
      rw [kept]
      by_cases first : other = k
      · rw [first, get?_cons_self, get?_cons_self, if_neg here]
      · rw [get?_cons_of_ne first, get?_cons_of_ne first, ih]

theorem get?_set_of_ne {other : String} (ne : other ≠ key) (v : Json) :
    (Fields.set fields key v).get? other = fields.get? other := by
  rw [get?_set, if_neg ne]

end Fields

namespace Recipe

variable {scope : Scope}

/-- What a property of a table stands for; none if it is missing or cannot be rendered. -/
def property (scope : Scope) (table : Fields) (key : String) : Option Json :=
  (table.get? key).bind fun v => (render scope v).toOption

theorem renderFields_each {fields rendered : Fields} (done : renderFields scope fields = .ok rendered) :
    List.Forall₂ (fun field out => field.1 = out.1 ∧ render scope field.2 = .ok out.2) fields rendered := by
  induction fields generalizing rendered with
  | nil =>
    cases done
    exact .nil
  | cons field rest ih =>
    obtain ⟨k, v⟩ := field
    obtain ⟨out, here, done⟩ := bind_eq_ok.mp done
    obtain ⟨more, later, done⟩ := bind_eq_ok.mp done
    cases done
    exact .cons ⟨rfl, here⟩ (ih later)

theorem renderFields_keys {fields rendered : Fields} (done : renderFields scope fields = .ok rendered) :
    rendered.map Prod.fst = fields.map Prod.fst := by
  have each := renderFields_each done
  clear done
  induction each with
  | nil => rfl
  | cons both _ ih => rw [List.map_cons, List.map_cons, both.1, ih]

theorem get?_renderFields {fields rendered : Fields} (done : renderFields scope fields = .ok rendered)
    (key : String) : rendered.get? key = property scope fields key := by
  have each := renderFields_each done
  clear done
  unfold property
  induction each with
  | nil => rfl
  | @cons field out rest more both _ ih =>
    obtain ⟨k, v⟩ := field
    obtain ⟨l, u⟩ := out
    obtain ⟨rfl, here⟩ := both
    by_cases same : key = k
    · rw [same, Fields.get?_cons_self, Fields.get?_cons_self]
      change some u = (render scope v).toOption
      rw [here]
      rfl
    · rw [Fields.get?_cons_of_ne same, Fields.get?_cons_of_ne same]
      exact ih

theorem property_swapRemove {table : Fields} (distinct : (table.map Prod.fst).Nodup) {key removed : String}
    (other : key ≠ removed) : property scope (table.swapRemove removed) key = property scope table key := by
  unfold property
  rw [Fields.get?_swapRemove distinct other]

end Recipe

end Provision

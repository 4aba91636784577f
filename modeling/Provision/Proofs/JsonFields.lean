import Provision.Json.Decode
import Provision.Proofs.Tables
import Provision.SortedMap

namespace Provision

variable {α : Type}

theorem mapM_map_of_back {β : Type} {read : β → Option α} {write : α → β} {items : List α}
    (back : ∀ a ∈ items, read (write a) = some a) : (items.map write).mapM read = some items := by
  induction items with
  | nil => rfl
  | cons a rest ih =>
    have later := ih fun b member => back b (List.mem_cons_of_mem a member)
    rw [List.map_cons, List.mapM_cons, back a List.mem_cons_self, later]
    rfl

theorem mem_of_mapM {β : Type} {read : β → Option α} {items : List β} {result : List α}
    (done : items.mapM read = some result) {a : α} (member : a ∈ result) :
    ∃ item ∈ items, read item = some a := by
  induction items generalizing result with
  | nil =>
    cases done
    cases member
  | cons item rest ih =>
    rw [List.mapM_cons] at done
    obtain ⟨b, here, done⟩ := Option.bind_eq_some_iff.mp done
    obtain ⟨more, later, done⟩ := Option.bind_eq_some_iff.mp done
    cases done
    rcases List.mem_cons.mp member with rfl | member
    · exact ⟨item, List.mem_cons_self, here⟩
    · obtain ⟨other, inside, found⟩ := ih later member
      exact ⟨other, List.mem_cons_of_mem item inside, found⟩

namespace Json

variable {read : Json → Option α} {write : α → Json}

theorem list?_map {items : List α} (back : ∀ a ∈ items, read (write a) = some a) :
    list? read (.array (items.map write)) = some items :=
  mapM_map_of_back back

theorem stringList?_strings (items : List String) : stringList? (strings items) = some items :=
  list?_map fun _ _ => rfl

theorem stringFields?_map (entries : SortedMap String) :
    stringFields? (.object (entries.map fun (k, v) => (k, .string v))) = some entries :=
  mapM_map_of_back fun _ _ => rfl

theorem optional?_option {o : Option α} (back : ∀ a, o = some a → read (write a) = some a)
    (present : ∀ a, write a ≠ .null) : optional? read (option (o.map write)) = some o := by
  cases o with
  | none => rfl
  | some a =>
    have some : optional? read (write a) = (read (write a)).map some := by
      unfold optional?
      split
      · rename_i null
        exact absurd null (present a)
      · rfl
    exact some.trans (by rw [back a rfl]; rfl)

theorem optional?_optionString (o : Option String) : optional? asString? (optionString o) = some o :=
  optional?_option (fun _ _ => rfl) (by simp)

theorem bounded?_int {low high n : Int} (above : low ≤ n) (below : n ≤ high) :
    bounded? low high (.int n) = some n := by
  simp [bounded?, Json.int, asInt?, Option.filter, above, below]

end Json

namespace Fields

def Includes (fields part : Fields) : Prop := ∀ key v, part.get? key = some v → fields.get? key = some v

section

variable {fields part : Fields} {key : String} {v : Json} (all : fields.Includes part) (here : part.get? key = some v)

include all here

theorem Includes.need? {read : Json → Option α} {a : α} (back : read v = some a) :
    fields.need? key read = some a := by
  rw [Fields.need?, all key v here]
  exact back

theorem Includes.getOr? {missing : α} {read : Json → Option α} {a : α} (back : read v = some a) :
    fields.getOr? key missing read = some a := by
  rw [Fields.getOr?, all key v here]
  exact back

theorem Includes.optional? {read : Json → Option α} {o : Option α} (back : Json.optional? read v = some o) :
    fields.optional? key read = some o :=
  all.getOr? here back

end

theorem getOr?_eq_some {fields : Fields} {key : String} {missing a : α} {read : Json → Option α}
    (found : fields.getOr? key missing read = some a) :
    a = missing ∨ ∃ v, fields.get? key = some v ∧ read v = some a := by
  unfold getOr? at found
  split at found
  · exact Or.inl (Option.some.inj found).symm
  · rename_i v here
    exact Or.inr ⟨v, here, found⟩

theorem get?_append (fields more : Fields) (key : String) :
    Fields.get? (fields ++ more) key = (fields.get? key).or (Fields.get? more key) := by
  induction fields with
  | nil => rfl
  | cons field rest ih =>
    obtain ⟨k, v⟩ := field
    by_cases same : key = k
    · subst same
      simp [get?_cons_self]
    · rw [List.cons_append, get?_cons_of_ne same, get?_cons_of_ne same, ih]

theorem get?_append_of_not_mem {fields more : Fields} {key : String} (absent : key ∉ fields.map Prod.fst) :
    Fields.get? (fields ++ more) key = Fields.get? more key := by
  induction fields with
  | nil => rfl
  | cons field rest ih =>
    obtain ⟨k, v⟩ := field
    rw [List.map_cons, List.mem_cons, not_or] at absent
    rw [List.cons_append, get?_cons_of_ne absent.1, ih absent.2]

theorem Includes.trans {fields part less : Fields} (all : fields.Includes part) (rest : part.Includes less) :
    fields.Includes less :=
  fun key v here => all key v (rest key v here)

theorem includes_front (fields more : Fields) : Includes (fields ++ more) fields := by
  intro key v here
  rw [get?_append, here]
  rfl

/-- Fields are not hidden by others in front of them that have none of their keys. -/
theorem includes_back {fields more : Fields} (apart : ∀ key ∈ fields.map Prod.fst, more.get? key = none) :
    Includes (fields ++ more) more := by
  intro key v here
  rw [get?_append_of_not_mem, here]
  intro hidden
  rw [apart key hidden] at here
  cases here

theorem set_of_not_mem {fields : Fields} {key : String} (absent : key ∉ fields.map Prod.fst) (v : Json) :
    Fields.set fields key v = fields ++ [(key, v)] := by
  induction fields with
  | nil => rfl
  | cons field rest ih =>
    obtain ⟨k, u⟩ := field
    rw [List.map_cons, List.mem_cons, not_or] at absent
    have kept : Fields.set ((k, u) :: rest) key v = (k, u) :: Fields.set rest key v := if_neg (Ne.symm absent.1)
    rw [kept, ih absent.2, List.cons_append]

theorem set_keys (fields : Fields) (key : String) (v : Json) : (Fields.set fields key v).map Prod.fst =
    if key ∈ fields.map Prod.fst then fields.map Prod.fst else fields.map Prod.fst ++ [key] := by
  induction fields with
  | nil => rfl
  | cons field rest ih =>
    obtain ⟨k, u⟩ := field
    by_cases here : k = key
    · simp [Fields.set, here]
    · have other : key ≠ k := Ne.symm here
      simp only [Fields.set, here, ↓reduceIte, List.map_cons, ih, List.mem_cons, other, false_or]
      split <;> rfl

theorem mem_set {fields : Fields} {key : String} {v : Json} {field : String × Json}
    (member : field ∈ Fields.set fields key v) : field ∈ fields ∨ field = (key, v) := by
  induction fields with
  | nil => exact Or.inr (List.mem_singleton.mp member)
  | cons first rest ih =>
    obtain ⟨k, u⟩ := first
    unfold Fields.set at member
    split at member
    · rename_i same
      rcases List.mem_cons.mp member with rfl | member
      · exact Or.inr (by rw [same])
      · exact Or.inl (List.mem_cons_of_mem _ member)
    · rcases List.mem_cons.mp member with rfl | member
      · exact Or.inl List.mem_cons_self
      · exact (ih member).imp_left (List.mem_cons_of_mem _)

theorem sets_distinct (entries fields : Fields) (distinct : (fields.map Prod.fst).Nodup) :
    ((entries.foldl (fun fields (k, v) => Fields.set fields k v) fields).map Prod.fst).Nodup := by
  induction entries generalizing fields with
  | nil => exact distinct
  | cons entry rest ih =>
    obtain ⟨k, v⟩ := entry
    apply ih
    rw [set_keys]
    split
    · exact distinct
    · rename_i absent
      exact List.Nodup.append distinct (List.nodup_singleton k) (by simpa using absent)

theorem ofEntries_distinct (entries : Fields) : ((ofEntries entries).map Prod.fst).Nodup :=
  sets_distinct entries [] List.nodup_nil

theorem sets_of_distinct (entries fields : Fields) (distinct : ((fields ++ entries).map Prod.fst).Nodup) :
    entries.foldl (fun fields (k, v) => Fields.set fields k v) fields = fields ++ entries := by
  induction entries generalizing fields with
  | nil => exact (List.append_nil fields).symm
  | cons entry rest ih =>
    obtain ⟨k, v⟩ := entry
    have absent : k ∉ fields.map Prod.fst := by
      intro present
      rw [List.map_append, List.map_cons] at distinct
      exact (List.nodup_append.mp distinct).2.2 k present k List.mem_cons_self rfl
    simp only [List.foldl_cons, set_of_not_mem absent]
    exact (ih (fields ++ [(k, v)]) (by simpa using distinct)).trans (by simp)

theorem ofEntries_of_distinct {entries : Fields} (distinct : (entries.map Prod.fst).Nodup) :
    ofEntries entries = entries :=
  sets_of_distinct entries [] distinct

theorem sets_forall {P : Json → Prop} (entries fields : Fields) (before : ∀ field ∈ fields, P field.2)
    (each : ∀ entry ∈ entries, P entry.2) :
    ∀ field ∈ entries.foldl (fun fields (k, v) => Fields.set fields k v) fields, P field.2 := by
  induction entries generalizing fields with
  | nil => exact before
  | cons entry rest ih =>
    obtain ⟨k, v⟩ := entry
    apply ih
    · intro field member
      rcases mem_set member with old | rfl
      · exact before field old
      · exact each (k, v) List.mem_cons_self
    · exact fun later member => each later (List.mem_cons_of_mem _ member)

theorem ofEntries_forall {P : Json → Prop} {entries : Fields} (each : ∀ entry ∈ entries, P entry.2) :
    ∀ field ∈ ofEntries entries, P field.2 :=
  sets_forall entries [] (by simp) each

end Fields

namespace SortedMap

def Increasing (m : SortedMap α) : Prop := (m.map Prod.fst).Pairwise (· < ·)

theorem insert_of_last {m : SortedMap α} {key : String} (last : ∀ k ∈ m.map Prod.fst, k < key) (v : α) :
    m.insert key v = m ++ [(key, v)] := by
  induction m with
  | nil => rfl
  | cons entry rest ih =>
    obtain ⟨k, u⟩ := entry
    have before : k < key := last k List.mem_cons_self
    have later := ih fun other member => last other (List.mem_cons_of_mem k member)
    simp only [insert, if_neg (String.ne_of_lt before).symm, if_neg (String.lt_asymm before), later, List.cons_append]

theorem inserts_of_increasing (entries m : SortedMap α) (increasing : Increasing (m ++ entries)) :
    entries.foldl (fun m (k, v) => insert m k v) m = m ++ entries := by
  induction entries generalizing m with
  | nil => exact (List.append_nil m).symm
  | cons entry rest ih =>
    obtain ⟨k, v⟩ := entry
    have last : ∀ other ∈ m.map Prod.fst, other < k := by
      intro other member
      rw [Increasing, List.map_append, List.map_cons] at increasing
      exact (List.pairwise_append.mp increasing).2.2 other member k List.mem_cons_self
    simp only [List.foldl_cons, insert_of_last last]
    exact (ih (m ++ [(k, v)]) (by simpa [Increasing] using increasing)).trans (by simp)

theorem ofList_of_increasing {m : SortedMap α} (increasing : m.Increasing) : ofList m = m :=
  inserts_of_increasing m [] increasing

theorem mem_keys_insert {m : SortedMap α} {key other : String} {v : α}
    (member : other ∈ (m.insert key v).map Prod.fst) : other = key ∨ other ∈ m.map Prod.fst := by
  induction m with
  | nil => exact Or.inl (List.mem_singleton.mp member)
  | cons entry rest ih =>
    obtain ⟨k, u⟩ := entry
    unfold insert at member
    split at member
    · exact Or.inr member
    · split at member
      · exact List.mem_cons.mp member
      · rcases List.mem_cons.mp member with rfl | member
        · exact Or.inr List.mem_cons_self
        · exact (ih member).imp_right (List.mem_cons_of_mem k)

theorem Increasing.insert {m : SortedMap α} (increasing : m.Increasing) (key : String) (v : α) :
    (m.insert key v).Increasing := by
  induction m with
  | nil => exact List.pairwise_singleton _ _
  | cons entry rest ih =>
    obtain ⟨k, u⟩ := entry
    obtain ⟨first, later⟩ := List.pairwise_cons.mp increasing
    unfold SortedMap.insert
    split
    · exact increasing
    · rename_i other
      split
      · rename_i before
        refine .cons (fun l member => ?_) increasing
        rcases List.mem_cons.mp member with rfl | member
        · exact before
        · exact String.lt_trans before (first l member)
      · rename_i notBefore
        have after : k < key := String.not_le.mp fun le => other (String.le_antisymm le (String.not_lt.mp notBefore))
        refine .cons (fun l member => ?_) (ih later)
        rcases mem_keys_insert member with rfl | member
        · exact after
        · exact first l member

theorem ofList_increasing (entries : List (String × α)) : (ofList entries).Increasing := by
  have inserted : ∀ m : SortedMap α, m.Increasing →
      (entries.foldl (fun m (k, v) => insert m k v) m : SortedMap α).Increasing := by
    induction entries with
    | nil => exact fun m increasing => increasing
    | cons entry rest ih => exact fun m increasing => ih _ (increasing.insert entry.1 entry.2)
  exact inserted [] .nil

end SortedMap

/-- A value as it is kept: no object has a key twice, and no number is undefined. -/
inductive Json.Proper : Json → Prop
  | null : Proper .null
  | bool (b : Bool) : Proper (.bool b)
  | int (n : Int) : Proper (.number (.int n))
  | double {x : Decimal.Binary64} (defined : x.isNaN = false) : Proper (.number (.double x))
  | string (s : String) : Proper (.string s)
  | array {items : List Json} (each : ∀ v ∈ items, Proper v) : Proper (.array items)
  | object {fields : List (String × Json)} (distinct : (fields.map Prod.fst).Nodup)
      (each : ∀ field ∈ fields, Proper field.2) : Proper (.object fields)

namespace Json

theorem sameItems_self {items : List Json} (each : ∀ v ∈ items, v.same v = true) :
    sameItems items items = true := by
  induction items with
  | nil => rfl
  | cons v rest ih =>
    rw [sameItems, each v List.mem_cons_self, ih fun u member => each u (List.mem_cons_of_mem v member)]
    rfl

theorem sameFields_of_mem {fields other : Fields} (distinct : (other.map Prod.fst).Nodup)
    (each : ∀ field ∈ fields, field ∈ other ∧ field.2.same field.2 = true) :
    sameFields fields other = true := by
  induction fields with
  | nil => rfl
  | cons field rest ih =>
    obtain ⟨k, v⟩ := field
    obtain ⟨here, same⟩ := each (k, v) List.mem_cons_self
    have found : other.lookup k = some v := (Fields.get?_eq_some_iff distinct).mpr here
    rw [sameFields, found, ih fun u member => each u (List.mem_cons_of_mem _ member)]
    simpa using same

theorem Proper.same_self {v : Json} (proper : v.Proper) : v.same v = true := by
  induction proper with
  | null => rfl
  | bool b => simp [same]
  | int n => simp [same, Number.same]
  | double defined => simp [same, Number.same, Decimal.Binary64.same, defined]
  | string s => simp [same]
  | array _ ih =>
    rw [same]
    exact sameItems_self ih
  | object distinct _ ih =>
    rw [same, sameFields_of_mem distinct fun field member => ⟨member, ih field member⟩]
    simp

end Json

end Provision

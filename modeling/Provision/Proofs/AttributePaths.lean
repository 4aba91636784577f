import Provision.Proofs.JsonFields
import Provision.Proofs.UndefinedNames

namespace Provision

inductive Step where
  | key (name : String)
  | index (i : Nat)
deriving DecidableEq, Repr

namespace Json

def step? : Json → Step → Option Json
  | .object fields, .key name => Fields.get? fields name
  | .array items, .index i => items[i]?
  | _, _ => none

def at? (v : Json) : List Step → Option Json
  | [] => some v
  | step :: rest => (v.step? step).bind (at? · rest)

def putStep : Json → Step → Json → Json
  | .object fields, .key name, w => .object (Fields.set fields name w)
  | .array items, .index i, w => .array (items.set i w)
  | v, _, _ => v

/-- The value with another part at the end of the path, if there is one. -/
def put (v : Json) (path : List Step) (w : Json) : Json :=
  match path with
  | [] => w
  | step :: rest =>
    match v.step? step with
    | some part => v.putStep step (part.put rest w)
    | none => v

variable {v w part : Json} {step other : Step} {path rest : List Step}

theorem at?_cons_eq_some : v.at? (step :: rest) = some w ↔ ∃ part, v.step? step = some part ∧ part.at? rest = some w :=
  Option.bind_eq_some_iff

theorem put_cons (here : v.step? step = some part) : v.put (step :: rest) w = v.putStep step (part.put rest w) := by
  rw [put, here]

theorem step?_putStep (here : v.step? step = some part) : (v.putStep step w).step? step = some w := by
  cases v <;> cases step <;> try cases here
  · rename_i items i
    change (items.set i w)[i]? = some w
    rw [List.getElem?_set_self]
    exact (List.getElem?_eq_some_iff.mp here).1
  · exact (Fields.get?_set _ _ _ _).trans (if_pos rfl)

theorem step?_putStep_of_ne (apart : other ≠ step) : (v.putStep step w).step? other = v.step? other := by
  cases v <;> cases step <;> cases other <;> try rfl
  · rename_i items i j
    exact List.getElem?_set_ne (fun same => apart (by rw [same]))
  · rename_i fields name key
    exact Fields.get?_set_of_ne (fun same => apart (by rw [same])) w

theorem step?_put_of_ne (apart : other ≠ step) : (v.put (step :: rest) w).step? other = v.step? other := by
  unfold put
  split
  · exact step?_putStep_of_ne apart
  · rfl

theorem at?_put (here : v.at? path = some part) : (v.put path w).at? path = some w := by
  induction path generalizing v with
  | nil => rfl
  | cons step rest ih =>
    obtain ⟨inner, first, later⟩ := at?_cons_eq_some.mp here
    rw [put_cons first]
    exact at?_cons_eq_some.mpr ⟨_, step?_putStep first, ih later⟩

theorem DistinctKeys.step? (distinct : v.DistinctKeys) (here : v.step? step = some part) : part.DistinctKeys := by
  cases v <;> cases step <;> try cases here
  · exact distinct.item _ (List.mem_of_getElem? here)
  · exact distinct.field _ (Toml.mem_of_lookup here)

theorem DistinctKeys.putStep (distinct : v.DistinctKeys) (own : w.DistinctKeys) (here : v.step? step = some part) :
    (v.putStep step w).DistinctKeys := by
  cases v <;> cases step <;> try cases here
  · refine .array fun u member => ?_
    rcases List.mem_or_eq_of_mem_set member with old | rfl
    · exact distinct.item u old
    · exact own
  · rename_i fields name
    have known : name ∈ fields.map Prod.fst := List.mem_map_of_mem (f := Prod.fst) (Toml.mem_of_lookup here)
    refine .object ?_ fun entry member => ?_
    · rw [Fields.set_keys, if_pos known]
      exact distinct.keys
    · rcases Fields.mem_set member with old | rfl
      · exact distinct.field entry old
      · exact own

theorem DistinctKeys.put (distinct : v.DistinctKeys) (own : w.DistinctKeys) (here : v.at? path = some part) :
    (v.put path w).DistinctKeys := by
  induction path generalizing v with
  | nil => exact own
  | cons step rest ih =>
    obtain ⟨inner, first, later⟩ := at?_cons_eq_some.mp here
    rw [put_cons first]
    exact distinct.putStep (ih (distinct.step? first) later) first

end Json

namespace Template

def stepValue : Step → Value
  | .key name => .text name
  | .index i => .int i

/-- The variable that an expression looks into, and the path that it takes from there. -/
def Expr.place? : Expr → Option (String × List Step)
  | .var name => some (name, [])
  | .attribute e name => e.place?.map fun (root, path) => (root, path ++ [.key name])
  | .item e (.literal (.text name)) => e.place?.map fun (root, path) => (root, path ++ [.key name])
  | .item e (.literal (.int i)) => e.place?.map fun (root, path) => (root, path ++ [.index i])
  | _ => none

/-- Looks into the value step by step. -/
def follow (v : Value) (path : List Step) : Except Failure Value :=
  path.foldlM (fun v step => lookInto v (stepValue step)) v

theorem follow_cons (v : Value) (step : Step) (path : List Step) :
    follow v (step :: path) = lookInto v (stepValue step) >>= (follow · path) :=
  List.foldlM_cons

theorem follow_concat (v : Value) (path : List Step) (step : Step) :
    follow v (path ++ [step]) = follow v path >>= (lookInto · (stepValue step)) := by
  simp only [follow, List.foldlM_append, List.foldlM_cons, List.foldlM_nil, bind_pure]

theorem Expr.place?_evaluate (caller : Caller) (scope : Scope) : ∀ {e : Expr} {root : String} {path : List Step},
    e.place? = some (root, path) → Template.evaluate caller scope e = follow (scope.lookup root) path := by
  intro e
  fun_induction Expr.place? e with
  | case1 name =>
    rintro root path ⟨⟩
    rfl
  | case2 e name ih | case3 e name ih | case4 e i ih =>
    intro root path found
    obtain ⟨⟨root, path⟩, inner, found⟩ := Option.map_eq_some_iff.mp found
    cases found
    rw [follow_concat, ← ih inner]
    rfl
  | case5 e =>
    intro root path found
    cases found

theorem ofItems_eq_map (items : List Json) : Value.ofItems items = items.map Value.ofJson := by
  induction items with
  | nil => rfl
  | cons v rest ih => rw [Value.ofItems, ih, List.map_cons]

theorem same_text_iff {k : Value} {name : String} : k.same (.text name) = true ↔ k = .text name := by
  cases k <;> simp [Value.same, Value.numeric?, Value.isUndefined]

theorem compare_text_iff {k : Value} {name : String} : (Value.text name).compare k = .eq ↔ k = .text name := by
  cases k with
  | text own =>
    simp only [Value.compare, Value.compareScalars, Value.rank, Value.text.injEq]
    rw [show Ord.compare 4 4 = Ordering.eq from rfl]
    exact Std.compare_eq_iff_eq.trans eq_comm
  | undefined | absent | none | bool | int | float | list | map | fragment =>
    simp [Value.compare, Value.compareScalars, Value.rank]
    try decide

theorem lookup?_cons_self (name : String) (v : Value) (rest : List (Value × Value)) :
    Value.lookup? ((.text name, v) :: rest) (.text name) = some v := by
  simp [Value.lookup?, same_text_iff]

theorem lookup?_cons_of_ne {k : Value} {name : String} (other : k ≠ .text name) (v : Value)
    (rest : List (Value × Value)) : Value.lookup? ((k, v) :: rest) (.text name) = Value.lookup? rest (.text name) := by
  simp [Value.lookup?, mt same_text_iff.mp other]

theorem lookup?_insert (entries : List (Value × Value)) (key name : String) (v : Value) :
    Value.lookup? (Value.insert entries (.text key) v) (.text name) =
      if name = key then some v else Value.lookup? entries (.text name) := by
  have front : ∀ rest, Value.lookup? ((.text key, v) :: rest) (.text name) =
      if name = key then some v else Value.lookup? rest (.text name) := by
    intro rest
    split
    · rename_i same
      rw [same, lookup?_cons_self]
    · rename_i other
      exact lookup?_cons_of_ne (by simpa [eq_comm] using other) v rest
  induction entries with
  | nil => exact front []
  | cons first rest ih =>
    obtain ⟨k, u⟩ := first
    unfold Value.insert
    split
    · exact front _
    · rename_i same
      rw [front, compare_text_iff.mp same]
      split
      · rfl
      · rename_i other
        rw [lookup?_cons_of_ne (by simpa [eq_comm] using other)]
    · rename_i after
      by_cases here : k = .text name
      · subst here
        have other : name ≠ key := by
          rintro rfl
          rw [compare_text_iff.mpr rfl] at after
          cases after
        rw [lookup?_cons_self, lookup?_cons_self, if_neg other]
      · rw [lookup?_cons_of_ne here, lookup?_cons_of_ne here, ih]

theorem lookup?_insert_int (entries : List (Value × Value)) (key : String) (i : Int) (v : Value) :
    Value.lookup? (Value.insert entries (.text key) v) (.int i) = Value.lookup? entries (.int i) := by
  have front : ∀ rest, Value.lookup? ((.text key, v) :: rest) (.int i) = Value.lookup? rest (.int i) := by
    simp [Value.lookup?, Value.same, Value.numeric?, Value.isUndefined]
  induction entries with
  | nil => exact front []
  | cons first rest ih =>
    obtain ⟨k, u⟩ := first
    unfold Value.insert
    split
    · exact front _
    · rename_i same
      rw [front, compare_text_iff.mp same]
      simp [Value.lookup?, Value.same, Value.numeric?, Value.isUndefined]
    · simp only [Value.lookup?, List.find?_cons] at ih ⊢
      split
      · rfl
      · exact ih

theorem lookup?_inserts {fields : List (String × Json)} (distinct : (fields.map Prod.fst).Nodup) (name : String)
    (entries : List (Value × Value)) :
    Value.lookup? ((Value.ofFields fields).foldl (fun m (k, v) => Value.insert m k v) entries) (.text name) =
      ((Fields.get? fields name).map Value.ofJson).or (Value.lookup? entries (.text name)) := by
  induction fields generalizing entries with
  | nil => rfl
  | cons field rest ih =>
    obtain ⟨k, v⟩ := field
    obtain ⟨absent, distinct⟩ := List.nodup_cons.mp distinct
    rw [Value.ofFields, List.foldl_cons, ih distinct, lookup?_insert]
    by_cases here : name = k
    · subst here
      have missing : Fields.get? rest name = none := by
        refine Option.eq_none_iff_forall_ne_some.mpr fun u found => ?_
        exact absent (List.mem_map.mpr ⟨(name, u), Toml.mem_of_lookup found, rfl⟩)
      rw [missing, Fields.get?_cons_self, if_pos rfl]
      rfl
    · rw [Fields.get?_cons_of_ne here, if_neg here]

theorem part?_object {fields : Fields} (distinct : (fields.map Prod.fst).Nodup) (name : String) :
    part? (.ofJson (.object fields)) (.text name) = (fields.get? name).map Value.ofJson := by
  have found := lookup?_inserts distinct name []
  rw [show Value.lookup? [] (.text name) = none from rfl, Option.or_none] at found
  rw [Value.ofJson]
  exact found

theorem lookup_ofContext {fields : Fields} (distinct : (fields.map Prod.fst).Nodup) (name : String) :
    (Scope.ofContext (.ofJson (.object fields))).lookup name =
      ((fields.get? name).map Value.ofJson).getD .undefined := by
  rw [← part?_object distinct]
  rfl

theorem part?_object_index (fields : Fields) (i : Nat) : part? (.ofJson (.object fields)) (.int i) = none := by
  have kept : ∀ entries : List (Value × Value),
      Value.lookup? ((Value.ofFields fields).foldl (fun m (k, v) => Value.insert m k v) entries) (.int i) =
        Value.lookup? entries (.int i) := by
    induction fields with
    | nil => exact fun entries => rfl
    | cons field rest ih =>
      obtain ⟨k, v⟩ := field
      intro entries
      rw [Value.ofFields, List.foldl_cons, ih, lookup?_insert_int]
  rw [Value.ofJson]
  exact kept []

theorem part?_array (items : List Json) (i : Nat) :
    part? (.ofJson (.array items)) (.int i) = items[i]?.map Value.ofJson := by
  rw [Value.ofJson, ofItems_eq_map]
  simp [part?, indexOf?, itemAt?]

theorem part?_ofJson {v part : Json} {step : Step} (distinct : v.DistinctKeys) (here : v.step? step = some part) :
    part? (.ofJson v) (stepValue step) = some (.ofJson part) := by
  cases v <;> cases step <;> try cases here
  · exact (part?_array _ _).trans (congrArg _ here)
  · exact (part?_object distinct.keys _).trans (congrArg _ here)

theorem lookInto_ofJson {v part : Json} {step : Step} (distinct : v.DistinctKeys) (here : v.step? step = some part) :
    lookInto (.ofJson v) (stepValue step) = .ok (.ofJson part) := by
  rw [lookInto, part?_ofJson distinct here]

theorem follow_ofJson {v w : Json} {path : List Step} (distinct : v.DistinctKeys) (here : v.at? path = some w) :
    follow (.ofJson v) path = .ok (.ofJson w) := by
  induction path generalizing v with
  | nil =>
    cases here
    rfl
  | cons step rest ih =>
    obtain ⟨part, first, later⟩ := Json.at?_cons_eq_some.mp here
    rw [follow_cons, lookInto_ofJson distinct first]
    exact ih (distinct.step? first) later

theorem lookInto_congr {v w key : Value} (same : part? w key = part? v key) (alike : w.isUndefined = v.isUndefined) :
    lookInto w key = lookInto v key := by
  rw [lookInto, lookInto, same, alike]

theorem lookInto_putStep {v part w : Json} {step other : Step} (distinct : v.DistinctKeys)
    (here : v.step? step = some part) (apart : other ≠ step) :
    lookInto (.ofJson (v.putStep step w)) (stepValue other) = lookInto (.ofJson v) (stepValue other) := by
  have moved := Json.step?_putStep_of_ne (v := v) (w := w) apart
  cases v <;> cases step <;> try cases here
  · rename_i items i
    refine lookInto_congr ?_ rfl
    cases other with
    | index j =>
      have parts : ∀ items, part? (.ofJson (.array items)) (stepValue (.index j)) = items[j]?.map Value.ofJson :=
        fun items => part?_array items j
      rw [Json.putStep, parts, parts]
      exact congrArg _ moved
    | key name =>
      rfl
  · rename_i fields name
    have known : name ∈ fields.map Prod.fst := List.mem_map_of_mem (f := Prod.fst) (Toml.mem_of_lookup here)
    have keys' : ((Fields.set fields name w).map Prod.fst).Nodup := by
      rw [Fields.set_keys, if_pos known]
      exact distinct.keys
    refine lookInto_congr ?_ rfl
    cases other with
    | index j => exact (part?_object_index _ j).trans (part?_object_index _ j).symm
    | key other =>
      refine (part?_object keys' other).trans (Eq.trans ?_ (part?_object distinct.keys other).symm)
      exact congrArg _ moved

/-- The paths part: from some point on they take different steps. -/
def parting : List Step → List Step → Bool
  | step :: rest, other :: rest' => step != other || parting rest rest'
  | _, _ => false

theorem follow_put {v part w : Json} {path other : List Step} (distinct : v.DistinctKeys) (own : w.DistinctKeys)
    (here : v.at? path = some part) (apart : parting path other = true) :
    follow (.ofJson (v.put path w)) other = follow (.ofJson v) other := by
  fun_induction parting path other generalizing v with
  | case1 step rest other rest' ih =>
    obtain ⟨inner, first, later⟩ := Json.at?_cons_eq_some.mp here
    rw [Json.put_cons first, follow_cons, follow_cons]
    by_cases same : other = step
    · subst same
      have changed := (distinct.step? first).put own later
      rw [lookInto_ofJson distinct first, lookInto_ofJson (distinct.putStep changed first) (Json.step?_putStep first)]
      exact ih (distinct.step? first) later (by simpa using apart)
    · rw [lookInto_putStep distinct first same]
  | case2 => cases apart

end Template

namespace Recipe

def namedPlace? (text : String) : Option (String × List Step) := do
  let inner ← soleExpression? text
  let e ← (Template.Expr.parse inner).toOption
  e.place?

variable {scope : Scope} {text root s : String} {path : List Step}

theorem evaluate_toOption (scope : Scope) (text : String) : (evaluate scope text).toOption =
    (Template.Expr.parse text).toOption.bind fun e =>
      (e.eval (.object scope)).toOption.bind Template.Value.toJson? := by
  unfold evaluate
  simp only [toOption_bind, toOption_mapError]
  refine congrArg _ (funext fun e => congrArg _ (funext fun v => ?_))
  cases v.toJson? <;> rfl

theorem renderString_named (distinct : (scope.map Prod.fst).Nodup) (named : namedPlace? text = some (root, path)) :
    (renderString scope text).toOption =
      (Template.follow (((scope.get? root).map Template.Value.ofJson).getD .undefined) path).toOption.bind
        Template.Value.toJson? := by
  obtain ⟨inner, sole, named⟩ := Option.bind_eq_some_iff.mp named
  obtain ⟨e, parsed, place⟩ := Option.bind_eq_some_iff.mp named
  have value := e.place?_evaluate (Template.callFragment Template.maxDepth) (.ofContext (.ofJson (.object scope))) place
  rw [Template.lookup_ofContext distinct] at value
  unfold renderString
  rw [sole]
  change (evaluate scope inner).toOption = _
  rw [evaluate_toOption, parsed, ← value]
  rfl

/-- A string that names a place stands for the string there, whatever that is. -/
theorem renderString_place {v : Json} (distinct : (scope.map Prod.fst).Nodup)
    (named : namedPlace? text = some (root, path)) (here : scope.get? root = some v) (keys : v.DistinctKeys)
    (place : v.at? path = some (.string s)) : renderString scope text = .ok (.string s) := by
  rw [← toOption_eq_some, renderString_named distinct named, here]
  change (Template.follow (.ofJson v) path).toOption.bind _ = _
  rw [Template.follow_ofJson keys place]
  rfl

end Recipe

end Provision

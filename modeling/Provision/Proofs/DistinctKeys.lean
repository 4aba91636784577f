import Mathlib.Data.List.Nodup
import Provision.Toml.Parser

namespace Provision

/-- No object in the value has a key twice. -/
inductive Json.DistinctKeys : Json → Prop
  | scalar {v : Json} : v.isScalar = true → v.DistinctKeys
  | array {items : List Json} : (∀ v ∈ items, v.DistinctKeys) → (Json.array items).DistinctKeys
  | object {fields : List (String × Json)} : (fields.map Prod.fst).Nodup → (∀ entry ∈ fields, entry.2.DistinctKeys) →
      (Json.object fields).DistinctKeys

namespace Json.DistinctKeys

theorem keys {fields : List (String × Json)} (distinct : (Json.object fields).DistinctKeys) :
    (fields.map Prod.fst).Nodup := by
  cases distinct with
  | object keys _ => exact keys
  | scalar plain => cases plain

theorem field {fields : List (String × Json)} (distinct : (Json.object fields).DistinctKeys) :
    ∀ entry ∈ fields, entry.2.DistinctKeys := by
  cases distinct with
  | object _ values => exact values
  | scalar plain => cases plain

theorem item {items : List Json} (distinct : (Json.array items).DistinctKeys) : ∀ v ∈ items, v.DistinctKeys := by
  cases distinct with
  | array inside => exact inside
  | scalar plain => cases plain

end Json.DistinctKeys

namespace Toml

inductive Item.DistinctKeys : Item → Prop
  | value {v : Json} : v.DistinctKeys → (Item.value v).DistinctKeys
  | table {origin : Origin} {entries : List (String × Item)} : (entries.map Prod.fst).Nodup →
      (∀ entry ∈ entries, entry.2.DistinctKeys) → (Item.table origin entries).DistinctKeys
  | tables {elements : List (List (String × Item))} : (∀ entries ∈ elements, (entries.map Prod.fst).Nodup) →
      (∀ entries ∈ elements, ∀ entry ∈ entries, entry.2.DistinctKeys) → (Item.tables elements).DistinctKeys

structure Entries.Distinct (entries : Entries) : Prop where
  keys : (entries.map Prod.fst).Nodup
  items : ∀ entry ∈ entries, entry.2.DistinctKeys

namespace Item

theorem entriesToJson_eq (entries : List (String × Item)) :
    entriesToJson entries = entries.map fun entry => (entry.1, entry.2.toJson) := by
  induction entries with
  | nil => rfl
  | cons entry rest ih => simp [entriesToJson, ih]

theorem elementsToJson_eq (elements : List (List (String × Item))) :
    elementsToJson elements = elements.map fun entries => .object (entriesToJson entries) := by
  induction elements with
  | nil => rfl
  | cons entries rest ih => simp [elementsToJson, ih]

theorem toJson_fields {entries : List (String × Item)} (keys : (entries.map Prod.fst).Nodup)
    (values : ∀ entry ∈ entries, entry.2.toJson.DistinctKeys) :
    (Json.object (entriesToJson entries)).DistinctKeys := by
  rw [entriesToJson_eq]
  refine .object ?_ ?_
  · simpa [Function.comp_def] using keys
  · intro field member
    obtain ⟨entry, here, rfl⟩ := List.mem_map.mp member
    exact values entry here

theorem DistinctKeys.toJson {i : Item} (distinct : i.DistinctKeys) : i.toJson.DistinctKeys := by
  induction distinct with
  | value h => exact h
  | table keys _ ih => exact toJson_fields keys ih
  | tables keys _ ih =>
    simp only [Item.toJson, elementsToJson_eq]
    refine .array fun v member => ?_
    obtain ⟨entries, here, rfl⟩ := List.mem_map.mp member
    exact toJson_fields (keys entries here) (ih entries here)

end Item

namespace Entries

variable {key : String} {entries out : Entries}

theorem Distinct.nil : Distinct [] := ⟨.nil, fun _ member => absurd member List.not_mem_nil⟩

theorem alter_cases {f : Option Item → Option Item} (done : alter key f entries = some out) :
    (∃ before old made after, entries = before ++ (key, old) :: after ∧ f (some old) = some made ∧
      out = before ++ (key, made) :: after) ∨
    (key ∉ entries.map Prod.fst ∧ ∃ made, f none = some made ∧ out = entries ++ [(key, made)]) := by
  induction entries generalizing out with
  | nil =>
    obtain ⟨made, new, rfl⟩ := Option.map_eq_some_iff.mp done
    exact Or.inr ⟨by simp, made, new, rfl⟩
  | cons entry rest ih =>
    obtain ⟨k, old⟩ := entry
    simp only [alter] at done
    split at done
    · rename_i same
      subst same
      obtain ⟨made, new, rfl⟩ := Option.map_eq_some_iff.mp done
      exact Or.inl ⟨[], old, made, rest, rfl, new, rfl⟩
    · rename_i other
      obtain ⟨changed, inner, rfl⟩ := Option.map_eq_some_iff.mp done
      rcases ih inner with ⟨before, was, made, after, rfl, new, rfl⟩ | ⟨absent, made, new, rfl⟩
      · exact Or.inl ⟨(k, old) :: before, was, made, after, rfl, new, rfl⟩
      · refine Or.inr ⟨?_, made, new, rfl⟩
        simpa [Ne.symm other] using absent

theorem Distinct.concat {made : Item} (distinct : entries.Distinct) (absent : key ∉ entries.map Prod.fst)
    (fine : made.DistinctKeys) : Distinct (entries ++ [(key, made)]) := by
  refine ⟨?_, fun entry member => ?_⟩
  · rw [List.map_append, List.map_singleton]
    exact List.Nodup.append distinct.keys (List.nodup_singleton key) (by simpa using absent)
  · rcases List.mem_append.mp member with old | single
    · exact distinct.items entry old
    · rw [List.mem_singleton.mp single]
      exact fine

theorem Distinct.alter {f : Option Item → Option Item} (distinct : entries.Distinct)
    (fresh : ∀ made, f none = some made → made.DistinctKeys)
    (kept : ∀ old made, old.DistinctKeys → f (some old) = some made → made.DistinctKeys)
    (done : alter key f entries = some out) : out.Distinct := by
  rcases alter_cases done with ⟨before, old, made, after, rfl, new, rfl⟩ | ⟨absent, made, new, rfl⟩
  · have changed : made.DistinctKeys := kept old made (distinct.items (key, old) (by simp)) new
    refine ⟨by simpa using distinct.keys, fun entry member => ?_⟩
    rcases List.mem_append.mp member with early | late
    · exact distinct.items entry (List.mem_append_left _ early)
    · rcases List.mem_cons.mp late with rfl | late
      · exact changed
      · exact distinct.items entry (by simp [late])
  · exact distinct.concat absent (fresh made new)

theorem Distinct.table {origin : Origin} (distinct : entries.Distinct) : (Item.table origin entries).DistinctKeys :=
  .table distinct.keys distinct.items

theorem distinct_of_table {origin : Origin} (h : (Item.table origin entries).DistinctKeys) : entries.Distinct := by
  cases h with
  | table keys items => exact ⟨keys, items⟩

theorem distinct_of_tables {elements : List Entries} (h : (Item.tables elements).DistinctKeys) :
    ∀ e ∈ elements, Entries.Distinct e := by
  cases h with
  | tables keys items => exact fun e member => ⟨keys e member, items e member⟩

theorem tables_of_distinct {elements : List Entries} (h : ∀ e ∈ elements, Entries.Distinct e) :
    (Item.tables elements).DistinctKeys :=
  .tables (fun e member => (h e member).keys) fun e member => (h e member).items

theorem distinct_onLast {f : Entries → Option Entries} {elements : List Entries} {made : Item}
    (keeps : ∀ sub out, Entries.Distinct sub → f sub = some out → Entries.Distinct out)
    (distinct : (Item.tables elements).DistinctKeys) (done : onLast f elements = some made) : made.DistinctKeys := by
  obtain ⟨last, final, changed, new, rfl⟩ : ∃ last, elements.getLast? = some last ∧ ∃ changed, f last = some changed ∧
      made = .tables (elements.dropLast ++ [changed]) := by
    simp only [onLast, Option.bind_eq_bind, Option.bind_eq_some_iff, Option.some.injEq] at done
    obtain ⟨last, final, changed, new, rfl⟩ := done
    exact ⟨last, final, changed, new, rfl⟩
  have each := distinct_of_tables distinct
  refine tables_of_distinct fun e member => ?_
  rcases List.mem_append.mp member with early | single
  · exact each e (List.dropLast_subset _ early)
  · rw [List.mem_singleton.mp single]
    exact keeps last changed (each last (List.mem_of_getLast? final)) new

theorem Distinct.define {value : Json} (valued : value.DistinctKeys) {keys : List String}
    (distinct : entries.Distinct) (done : define value keys entries = some out) : out.Distinct := by
  induction keys generalizing entries out with
  | nil => simp [Entries.define] at done
  | cons first rest ih =>
    cases rest with
    | nil =>
      refine distinct.alter ?_ ?_ done
      · intro made new
        cases new
        exact .value valued
      · intro old made _ new
        cases new
    | cons next rest =>
      refine distinct.alter ?_ ?_ done
      · intro made new
        obtain ⟨sub, inner, rfl⟩ := Option.map_eq_some_iff.mp new
        exact (ih .nil inner).table
      · intro old made fine new
        cases old with
        | value v => cases new
        | table origin sub =>
          dsimp only at new
          split at new
          · obtain ⟨changed, inner, rfl⟩ := Option.map_eq_some_iff.mp new
            exact (ih (distinct_of_table fine) inner).table
          · cases new
        | tables elements =>
          dsimp only at new
          split at new
          · cases new
          · exact distinct_onLast (fun _ _ => ih) fine new

theorem Distinct.descend {f : Entries → Option Entries}
    (keeps : ∀ sub out, Entries.Distinct sub → f sub = some out → Entries.Distinct out) {path : List String}
    (distinct : entries.Distinct) (done : descend f path entries = some out) : out.Distinct := by
  induction path generalizing entries out with
  | nil => exact keeps entries out distinct done
  | cons first rest ih =>
    refine distinct.alter ?_ ?_ done
    · intro made new
      obtain ⟨sub, inner, rfl⟩ := Option.map_eq_some_iff.mp new
      exact (ih .nil inner).table
    · intro old made fine new
      cases old with
      | value v => cases new
      | table origin sub =>
        obtain ⟨changed, inner, rfl⟩ := Option.map_eq_some_iff.mp new
        exact (ih (distinct_of_table fine) inner).table
      | tables elements => exact distinct_onLast (fun _ _ => ih) fine new

def BodyDistinct (body : List (List String × Json)) : Prop := ∀ pair ∈ body, pair.2.DistinctKeys

theorem Distinct.fill {body : List (List String × Json)} (valued : BodyDistinct body) (distinct : entries.Distinct)
    (done : fill body entries = some out) : out.Distinct := by
  induction body generalizing entries with
  | nil =>
    cases done
    exact distinct
  | cons pair rest ih =>
    obtain ⟨next, set, later⟩ := Option.bind_eq_some_iff.mp done
    have here : pair.2.DistinctKeys := valued pair List.mem_cons_self
    exact ih (fun other member => valued other (List.mem_cons_of_mem _ member)) (distinct.define here set) later

theorem objectOf?_distinct {body : List (List String × Json)} {v : Json} (valued : BodyDistinct body)
    (done : objectOf? body = some v) : v.DistinctKeys := by
  obtain ⟨entries, filled, rfl⟩ := Option.map_eq_some_iff.mp done
  have closed : (Item.table .dottedKey entries).DistinctKeys := (Distinct.nil.fill valued filled).table
  exact closed.toJson

end Entries

theorem mem_of_lookup {α : Type} {key : String} {v : α} {fields : List (String × α)}
    (here : fields.lookup key = some v) : (key, v) ∈ fields := by
  obtain ⟨before, after, rfl, -⟩ := List.lookup_eq_some_iff.mp here
  simp

theorem not_mem_keys_of_lookup {α : Type} {key : String} {fields : List (String × α)}
    (absent : fields.lookup key = none) : key ∉ fields.map Prod.fst := by
  rw [List.lookup_eq_none_iff] at absent
  intro present
  obtain ⟨entry, member, same⟩ := List.mem_map.mp present
  have other := absent entry member
  simp [same] at other

theorem Section.open?_distinct {s : Section} (valued : Entries.BodyDistinct s.body) {parent out : Entries}
    (distinct : parent.Distinct) (done : s.open? parent = some out) : out.Distinct := by
  unfold Section.open? at done
  split at done
  · obtain ⟨table, filled, opened⟩ := Option.bind_eq_some_iff.mp done
    have fine : table.Distinct := Entries.Distinct.nil.fill valued filled
    refine distinct.alter ?_ ?_ opened
    · intro made new
      cases new
      exact Entries.tables_of_distinct (by simpa using fine)
    · intro old made known new
      cases old with
      | value v => cases new
      | table origin sub => cases new
      | tables elements =>
        cases new
        refine Entries.tables_of_distinct fun e member => ?_
        rcases List.mem_append.mp member with early | single
        · exact Entries.distinct_of_tables known e early
        · rw [List.mem_singleton.mp single]
          exact fine
  · split at done
    · rename_i unknown
      obtain ⟨table, filled, rfl⟩ := Option.map_eq_some_iff.mp done
      have fine : table.Distinct := Entries.Distinct.nil.fill valued filled
      exact distinct.concat (not_mem_keys_of_lookup unknown) fine.table
    · rename_i sub here
      obtain ⟨table, filled, rfl⟩ := Option.map_eq_some_iff.mp done
      have known : (Item.table .path sub).DistinctKeys := distinct.items _ (mem_of_lookup here)
      have fine : table.Distinct := (Entries.distinct_of_table known).fill valued filled
      have others : Entries.Distinct (parent.filter (·.1 != s.key)) :=
        ⟨distinct.keys.sublist (List.filter_sublist.map Prod.fst),
          fun entry member => distinct.items entry (List.mem_of_mem_filter member)⟩
      refine others.concat ?_ fine.table
      simp
    · cases done

theorem scalar?_distinct {cs : List Char} {v : Json} (read : scalar? cs = some v) : v.DistinctKeys := by
  unfold scalar? at read
  split at read
  · cases read
    exact .scalar rfl
  split at read
  · cases read
    exact .scalar rfl
  split at read
  · cases read
    exact .scalar rfl
  split at read
  · cases read
    exact .scalar rfl
  split at read
  · cases read
    exact .scalar rfl
  · obtain ⟨text, -, rfl⟩ := Option.map_eq_some_iff.mp read
    refine .object (by simp) ?_
    simpa using Json.DistinctKeys.scalar rfl

/-- What the three readers of nested values give with so much fuel holds no key twice. -/
structure ReadsDistinct (fuel : Nat) : Prop where
  value : ∀ {depth cs v r}, readValue fuel depth cs = some (v, r) → v.DistinctKeys
  items : ∀ {depth cs items r}, readItems fuel depth cs = some (items, r) → ∀ v ∈ items, v.DistinctKeys
  pairs : ∀ {depth cs body r}, readPairs fuel depth cs = some (body, r) → Entries.BodyDistinct body

section

variable {fuel depth : Nat} {cs r : List Char}

theorem readValue_succ {v : Json} (all : ReadsDistinct fuel) (read : readValue (fuel + 1) depth cs = some (v, r)) :
    v.DistinctKeys := by
  unfold readValue at read
  split at read
  · split at read
    · cases read
    · obtain ⟨⟨vs, rest⟩, inner, same⟩ := Option.map_eq_some_iff.mp read
      cases same
      exact .array (all.items inner)
  · split at read
    · cases read
    · obtain ⟨⟨body, rest⟩, inner, read⟩ := Option.bind_eq_some_iff.mp read
      obtain ⟨made, closed, same⟩ := Option.bind_eq_some_iff.mp read
      cases same
      exact Entries.objectOf?_distinct (all.pairs inner) closed
  · obtain ⟨text, -, same⟩ := Option.map_eq_some_iff.mp read
    cases same
    exact .scalar rfl
  · obtain ⟨text, -, same⟩ := Option.map_eq_some_iff.mp read
    cases same
    exact .scalar rfl
  · obtain ⟨word, here, same⟩ := Option.map_eq_some_iff.mp read
    cases same
    exact scalar?_distinct here

theorem readItems_succ {items : List Json} (all : ReadsDistinct fuel)
    (read : readItems (fuel + 1) depth cs = some (items, r)) : ∀ v ∈ items, v.DistinctKeys := by
  unfold readItems at read
  split at read
  · cases read
    simp
  · obtain ⟨⟨v, rest⟩, first, read⟩ := Option.bind_eq_some_iff.mp read
    have own : v.DistinctKeys := all.value first
    dsimp only at read
    split at read
    · obtain ⟨⟨more, rest⟩, later, same⟩ := Option.map_eq_some_iff.mp read
      cases same
      exact List.forall_mem_cons.mpr ⟨own, all.items later⟩
    · cases read
      simpa using own
    · cases read

theorem readPairs_succ {body : List (List String × Json)} (all : ReadsDistinct fuel)
    (read : readPairs (fuel + 1) depth cs = some (body, r)) : Entries.BodyDistinct body := by
  unfold readPairs at read
  split at read
  · cases read
    simp [Entries.BodyDistinct]
  · obtain ⟨⟨key, rest⟩, -, read⟩ := Option.bind_eq_some_iff.mp read
    obtain ⟨rest, -, read⟩ := Option.bind_eq_some_iff.mp read
    obtain ⟨⟨v, rest⟩, first, read⟩ := Option.bind_eq_some_iff.mp read
    have own : v.DistinctKeys := all.value first
    dsimp only at read
    split at read
    · obtain ⟨⟨more, rest⟩, later, same⟩ := Option.map_eq_some_iff.mp read
      cases same
      exact List.forall_mem_cons.mpr ⟨own, all.pairs later⟩
    · cases read
      exact List.forall_mem_cons.mpr ⟨own, by simp⟩
    · cases read

end

theorem reads_distinct (fuel : Nat) : ReadsDistinct fuel := by
  induction fuel with
  | zero => exact ⟨by simp [readValue], by simp [readItems], by simp [readPairs]⟩
  | succ fuel ih => exact ⟨readValue_succ ih, readItems_succ ih, readPairs_succ ih⟩

theorem readAssignment_distinct {cs : List Char} {pair : List String × Json} {r : List Char}
    (read : readAssignment cs = some (pair, r)) : pair.2.DistinctKeys := by
  obtain ⟨⟨key, rest⟩, -, read⟩ := Option.bind_eq_some_iff.mp read
  obtain ⟨rest, -, read⟩ := Option.bind_eq_some_iff.mp read
  obtain ⟨⟨v, rest⟩, value, read⟩ := Option.bind_eq_some_iff.mp read
  obtain ⟨rest, -, same⟩ := Option.bind_eq_some_iff.mp read
  cases same
  exact (reads_distinct _).value value

structure Document.ValuesDistinct (d : Document) : Prop where
  body : Entries.BodyDistinct d.body
  sections : ∀ s ∈ d.sections, Entries.BodyDistinct s.body

theorem readDocument_distinct {fuel : Nat} {cs : List Char} {d : Document} (read : readDocument fuel cs = some d) :
    d.ValuesDistinct := by
  induction fuel generalizing cs d with
  | zero => simp [readDocument] at read
  | succ fuel ih =>
    have headed : ∀ {repeated : Bool} {r : List Char},
        ((readHeader repeated r).bind fun opened => (readDocument fuel opened.2).map (·.under opened.1)) = some d →
          d.ValuesDistinct := by
      intro repeated r under
      obtain ⟨⟨header, rest⟩, -, under⟩ := Option.bind_eq_some_iff.mp under
      obtain ⟨later, inner, rfl⟩ := Option.map_eq_some_iff.mp under
      have fine := ih inner
      exact ⟨by simp [Document.under, Entries.BodyDistinct], List.forall_mem_cons.mpr ⟨fine.body, fine.sections⟩⟩
    unfold readDocument at read
    split at read
    · cases read
      exact ⟨by simp [Entries.BodyDistinct], by simp⟩
    · exact headed read
    · exact headed read
    · obtain ⟨⟨pair, rest⟩, first, read⟩ := Option.bind_eq_some_iff.mp read
      obtain ⟨later, inner, same⟩ := Option.bind_eq_some_iff.mp read
      cases same
      have fine := ih inner
      exact ⟨List.forall_mem_cons.mpr ⟨readAssignment_distinct first, fine.body⟩, fine.sections⟩

theorem openSections_distinct {sections : List Section} (valued : ∀ s ∈ sections, Entries.BodyDistinct s.body)
    {root out : Entries} (distinct : root.Distinct)
    (done : sections.foldlM (fun root s => Entries.descend s.open? s.path root) root = some out) : out.Distinct := by
  induction sections generalizing root with
  | nil =>
    cases done
    exact distinct
  | cons s rest ih =>
    obtain ⟨next, opened, later⟩ := Option.bind_eq_some_iff.mp done
    have fine : next.Distinct := distinct.descend
      (fun _ _ sub made => Section.open?_distinct (valued s List.mem_cons_self) sub made) opened
    exact ih (fun other member => valued other (List.mem_cons_of_mem _ member)) fine later

/-- In a document no table has a key twice, at any depth. -/
theorem parse?_distinct {text : String} {document : Fields} (read : parse? text = some document) :
    (Json.object document).DistinctKeys := by
  obtain ⟨d, here, read⟩ := Option.bind_eq_some_iff.mp read
  have values : d.ValuesDistinct := readDocument_distinct here
  obtain ⟨root, filled, read⟩ := Option.bind_eq_some_iff.mp read
  obtain ⟨out, opened, same⟩ := Option.bind_eq_some_iff.mp read
  cases same
  have started : root.Distinct := Entries.Distinct.nil.fill values.body filled
  have whole : (Item.table .header out).DistinctKeys := (openSections_distinct values.sections started opened).table
  exact whole.toJson

end Toml

end Provision

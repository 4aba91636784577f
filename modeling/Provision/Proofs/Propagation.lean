import Provision.Proofs.Lines

namespace Provision

open Text

namespace BindingTable

variable {τ υ : Type} {t : BindingTable τ} {u : BindingTable υ} {keys : String → Prop} {s : τ} {v : υ}

/-- Among the keys a binding is found under its own only. -/
structure LawfulOn (t : BindingTable τ) (keys : String → Prop) : Prop extends Lawful t where
  look_put_of_ne : ∀ s b key, keys b.key → keys key → key ≠ b.key → t.look (t.put s b) key = t.look s key

def Agree (t : BindingTable τ) (u : BindingTable υ) (keys : String → Prop) (s : τ) (v : υ) : Prop :=
  ∀ key, keys key → t.look s key = u.look v key

theorem Agree.put (agree : Agree t u keys s v) (lawful : t.LawfulOn keys) (lawfulToo : u.LawfulOn keys) {b : Binding}
    (here : keys b.key) (absent : t.look s b.key = none) : Agree t u keys (t.put s b) (u.put v b) := by
  intro key known
  by_cases same : key = b.key
  · subst same
    have absentToo : u.look v b.key = none := (agree b.key here).symm.trans absent
    rw [lawful.look_put s b absent, lawfulToo.look_put v b absentToo]
  · rw [lawful.look_put_of_ne s b key here known same, lawfulToo.look_put_of_ne v b key here known same]
    exact agree key known

theorem Agree.step (agree : Agree t u keys s v) (lawful : t.LawfulOn keys) (lawfulToo : u.LawfulOn keys) {b : Binding}
    (here : keys b.key) (r : Insertion) :
    (t.step (s, r) b).2 = (u.step (v, r) b).2 ∧ Agree t u keys (t.step (s, r) b).1 (u.step (v, r) b).1 := by
  have both := agree b.key here
  unfold BindingTable.step
  cases found : t.look s b.key with
  | some existing =>
    rw [found] at both
    simp only [← both]
    exact ⟨trivial, agree⟩
  | none =>
    rw [found] at both
    simp only [← both]
    exact ⟨trivial, agree.put lawful lawfulToo here found⟩

theorem Agree.pass (agree : Agree t u keys s v) (lawful : t.LawfulOn keys) (lawfulToo : u.LawfulOn keys)
    {bindings : List Binding} (known : ∀ b ∈ bindings, keys b.key) :
    (t.pass s bindings).2 = (u.pass v bindings).2 ∧ Agree t u keys (t.pass s bindings).1 (u.pass v bindings).1 := by
  suffices steps : ∀ r, (bindings.foldl t.step (s, r)).2 = (bindings.foldl u.step (v, r)).2 ∧
      Agree t u keys (bindings.foldl t.step (s, r)).1 (bindings.foldl u.step (v, r)).1 from steps .none
  induction bindings generalizing s v with
  | nil => exact fun r => ⟨rfl, agree⟩
  | cons b rest ih =>
    intro r
    obtain ⟨account, after⟩ := agree.step lawful lawfulToo (known b List.mem_cons_self) r
    have later := ih after (fun c member => known c (List.mem_cons_of_mem _ member)) (t.step (s, r) b).2
    rw [List.foldl_cons, List.foldl_cons]
    -- The second pass goes on with the account of the first, which is its own.
    have same : ((u.step (v, r) b).1, (t.step (s, r) b).2) = u.step (v, r) b := Prod.ext rfl account
    rwa [same] at later

end BindingTable

theorem Environment.table_lawfulOn (keys : String → Prop) : table.LawfulOn keys where
  toLawful := table_lawful
  look_put_of_ne env b key _ _ other := by
    change (env.insertIfAbsent b.key b.value).2.get? key = env.get? key
    unfold insertIfAbsent
    split
    · rfl
    · exact SortedMap.get?_insert_of_ne _ _ other

namespace LineSyntax

theorem lead_append_inj (syn : LineSyntax) {key other : String} {rest more : List Char} (plain : '=' ∉ key.toList)
    (otherPlain : '=' ∉ other.toList) (same : syn.lead key ++ rest = syn.lead other ++ more) : key = other := by
  have cut {k : List Char} (plain : '=' ∉ k) (after : List Char) : (k ++ '=' :: after).takeWhile (· != '=') = k := by
    rw [List.takeWhile_append_of_pos, List.takeWhile_cons_of_neg (by decide), List.append_nil]
    intro c member
    rw [bne_iff_ne]
    rintro rfl
    exact plain member
  have keys : key.toList ++ '=' :: rest = other.toList ++ '=' :: more := by
    cases syn with
    | exported =>
      change "export ".toList ++ key.toList ++ ['='] ++ rest = "export ".toList ++ other.toList ++ ['='] ++ more at same
      rw [List.append_assoc, List.append_assoc, List.append_assoc, List.append_assoc] at same
      exact List.append_cancel_left same
    | plain =>
      change key.toList ++ ['='] ++ rest = other.toList ++ ['='] ++ more at same
      rwa [List.append_assoc, List.append_assoc] at same
  have cutBoth := congrArg (List.takeWhile (· != '=')) keys
  rw [cut plain, cut otherPlain] at cutBoth
  exact String.toList_inj.mp cutBoth

theorem valueOf?_lineFor_of_ne (syn : LineSyntax) {key : String} {b : Binding} (plain : '=' ∉ key.toList)
    (otherPlain : '=' ∉ b.key.toList) (other : key ≠ b.key) : syn.valueOf? key (syn.lineFor b) = none := by
  unfold valueOf?
  rw [Option.map_eq_none_iff]
  cases found : dropLead? (syn.lead key) (syn.lineFor b).toList with
  | none => rfl
  | some rest =>
    rw [dropLead?_eq_some_iff, lineFor, String.toList_ofList, List.append_assoc] at found
    exact absurd (syn.lead_append_inj otherPlain plain found).symm other

/-- What a text gives a key: the value on the first line that sets it. -/
def valueIn? (syn : LineSyntax) (content key : String) : Option String :=
  ((lines content).find? (syn.sets key)).bind (syn.valueOf? key)

theorem valueIn?_eq_look (syn : LineSyntax) (content key : String) :
    syn.valueIn? content key = (Binding.lineTable syn).look (lines content) key := by
  rw [Binding.look_eq_find, valueIn?]
  cases found : (lines content).find? (syn.sets key) with
  | none => rfl
  | some line =>
    have sets := List.find?_some found
    obtain ⟨value, given⟩ : ∃ value, syn.valueOf? key line = some value := by
      rw [LineSyntax.sets, Option.isSome_iff_exists] at sets
      obtain ⟨rest, starts⟩ := sets
      exact ⟨_, by rw [valueOf?, starts]; rfl⟩
    simp [given]

end LineSyntax

theorem Binding.lineTable_lawfulOn (syn : LineSyntax) {keys : String → Prop}
    (plain : ∀ key, keys key → '=' ∉ key.toList) : (lineTable syn).LawfulOn keys where
  toLawful := lineTable_lawful syn
  look_put_of_ne known b key here there other := by
    change (known ++ [syn.lineFor b]).findSome? (syn.valueOf? key) = known.findSome? (syn.valueOf? key)
    rw [List.findSome?_append, List.findSome?_singleton,
      syn.valueOf?_lineFor_of_ne (plain key there) (plain b.key here) other, Option.or_none]

/-- On any keys that lines can hold, those of the bindings among them, a pass over a text does what a pass over the
environment does. -/
theorem insertLines_refines_insertAll (syn : LineSyntax) {keys : String → Prop} {bindings : List Binding}
    {content : String} {env : Environment} (plain : ∀ key, keys key → '=' ∉ key.toList ∧ SingleLine key)
    (known : ∀ b ∈ bindings, keys b.key ∧ SingleLine b.value)
    (agree : ∀ key, keys key → env.get? key = syn.valueIn? content key) :
    (Binding.insertLines content bindings syn).2 = (env.insertAll bindings).2 ∧
      ∀ key, keys key →
        (env.insertAll bindings).1.get? key = syn.valueIn? (Binding.insertLines content bindings syn).1 key := by
  have single : ∀ b ∈ bindings, b.Single :=
    fun b member => ⟨(plain b.key (known b member).1).2, (known b member).2⟩
  have tables : Environment.table.Agree (Binding.lineTable syn) keys env (lines content) :=
    fun key here => (agree key here).trans (syn.valueIn?_eq_look content key)
  obtain ⟨account, after⟩ := tables.pass (Environment.table_lawfulOn keys)
    (Binding.lineTable_lawfulOn syn fun key here => (plain key here).1) fun b member => (known b member).1
  refine ⟨(Binding.insertLines_account content bindings syn).trans account.symm, ?_⟩
  intro key here
  rw [LineSyntax.valueIn?_eq_look, Binding.insertLines_look content syn syn key single]
  exact after key here

def sharedText : String := "A='1'\r\nB=2 \nB=3\n#C=0"

def sharedEnvironment : Environment := .ofList [("B", "2"), ("A", "1")]

def sharedBindings : List Binding := [⟨"A", "1"⟩, ⟨"C", "4\"5"⟩, ⟨"C", "6"⟩, ⟨"B", "3"⟩]

theorem insertLines_refines_insertAll_shared :
    (∀ key ∈ ["A", "B", "C"], sharedEnvironment.get? key = LineSyntax.plain.valueIn? sharedText key) ∧
      (Binding.insertLines sharedText sharedBindings .plain).2 = (sharedEnvironment.insertAll sharedBindings).2 ∧
      ∀ key ∈ ["A", "B", "C"], (sharedEnvironment.insertAll sharedBindings).1.get? key =
        LineSyntax.plain.valueIn? (Binding.insertLines sharedText sharedBindings .plain).1 key := by
  have agree : ∀ key ∈ ["A", "B", "C"], sharedEnvironment.get? key = LineSyntax.plain.valueIn? sharedText key := by
    decide +kernel
  refine ⟨agree, insertLines_refines_insertAll .plain ?_ ?_ agree⟩
  · decide +kernel
  · decide +kernel

example : (sharedEnvironment.insertAll sharedBindings).2 =
    ⟨["C"], ["A"], [⟨"C", "4\"5", "6"⟩, ⟨"B", "2", "3"⟩]⟩ := by
  decide +kernel

end Provision

import Provision.Proofs.KeyPatterns
import Provision.Proofs.SecondPass

namespace Provision

open Text

/-- What lines give a key: nothing if none of them starts with its lead, and else the rest of the first one that does,
unquoted. -/
inductive LineSyntax.Gives (syn : LineSyntax) (known : List String) (key : String) : Option String → Prop
  | nothing (clear : ∀ line ∈ known, ¬ syn.lead key <+: line.toList) : Gives syn known key none
  | value {front back : List String} {line : String} {rest : List Char} (whole : known = front ++ line :: back)
      (first : ∀ earlier ∈ front, ¬ syn.lead key <+: earlier.toList) (starts : line.toList = syn.lead key ++ rest) :
      Gives syn known key (some (String.ofList (unquote (trimEndChars rest))))

theorem LineSyntax.gives_look (syn : LineSyntax) (known : List String) (key : String) :
    syn.Gives known key ((Binding.lineTable syn).look known key) := by
  rw [Binding.look_eq_find]
  cases found : known.find? (syn.sets key) with
  | none =>
    refine .nothing fun line member starts => ?_
    exact List.find?_eq_none.mp found line member (sets_iff.mpr starts)
  | some line =>
    obtain ⟨sets, front, back, whole, first⟩ := List.find?_eq_some_iff_append.mp found
    obtain ⟨rest, starts⟩ := sets_iff.mp sets
    have dropped : dropLead? (syn.lead key) line.toList = some rest := dropLead?_eq_some_iff.mpr starts.symm
    simp only [Option.map_some, valueOf?, dropped, Option.getD_some]
    refine .value whole (fun earlier member lead => ?_) starts.symm
    simpa [sets_iff.mpr lead] using first earlier member

def Insertion.total (r : Insertion) : Nat := r.inserted.length + r.present.length + r.conflicts.length

namespace Binding

def newOf (found : List (Binding × Option String)) : List Binding :=
  found.filterMap fun (b, value) => if value = none then some b else none

def accountOf (found : List (Binding × Option String)) : Insertion where
  inserted := (newOf found).map (·.key)
  present := found.filterMap fun (b, value) => if value = some b.value then some b.key else none
  conflicts := found.filterMap fun (b, value) =>
    value.bind fun existing => if existing = b.value then none else some ⟨b.key, existing, b.value⟩

/-- Each binding in its turn, with the value that its key has in the lines from before and those written by then. -/
structure Turns (syn : LineSyntax) (known : List String) (bindings : List Binding)
    (found : List (Binding × Option String)) : Prop where
  inOrder : found.map Prod.fst = bindings
  each : ∀ i b value, found[i]? = some (b, value) →
    syn.Gives (known ++ (newOf (found.take i)).map syn.lineFor) b.key value

end Binding

namespace BindingTable

variable {τ : Type} {t : BindingTable τ}

theorem inserted_eq_newOf (t : BindingTable τ) (s : τ) (bindings : List Binding) :
    t.inserted s bindings = Binding.newOf (t.finds s bindings) := by
  unfold inserted Binding.newOf
  congr 1
  funext x
  rcases x with ⟨b, _ | existing⟩ <;> rfl

theorem finds_inOrder (t : BindingTable τ) (s : τ) (bindings : List Binding) :
    (t.finds s bindings).map Prod.fst = bindings := by
  induction bindings generalizing s with
  | nil => rfl
  | cons b rest ih => rw [finds, List.map_cons, ih]

theorem finds_getElem? {s : τ} {bindings : List Binding} {i : Nat} {b : Binding} {value : Option String}
    (here : (t.finds s bindings)[i]? = some (b, value)) :
    value = t.look ((Binding.newOf ((t.finds s bindings).take i)).foldl t.put s) b.key := by
  induction bindings generalizing s i with
  | nil => simp [finds] at here
  | cons c rest ih =>
    cases i with
    | zero =>
      cases here
      rfl
    | succ i =>
      cases found : t.look s c.key with
      | none =>
        rw [finds_absent found] at here ⊢
        exact ih here
      | some existing =>
        rw [finds_held found] at here ⊢
        exact ih here

theorem pass_account (t : BindingTable τ) (s : τ) (bindings : List Binding) :
    (t.pass s bindings).2 = Binding.accountOf (t.finds s bindings) := by
  obtain ⟨-, inserted, conflicts⟩ := t.pass_eq s bindings
  have present := t.pass_present s bindings
  have whole : (t.pass s bindings).2 =
      ⟨(t.pass s bindings).2.inserted, (t.pass s bindings).2.present, (t.pass s bindings).2.conflicts⟩ := rfl
  rw [whole, inserted, present, conflicts, inserted_eq_newOf, Binding.accountOf, Insertion.mk.injEq,
    BindingTable.present, BindingTable.conflicts, List.map_filterMap]
  refine ⟨rfl, ?_, ?_⟩
  all_goals
    congr 1
    funext x
    rcases x with ⟨b, _ | existing⟩
    · rfl
    · by_cases same : existing = b.value <;> simp [same]

end BindingTable

namespace Binding

theorem finds_turns (syn : LineSyntax) (known : List String) (bindings : List Binding) :
    Turns syn known bindings ((lineTable syn).finds known bindings) where
  inOrder := (lineTable syn).finds_inOrder known bindings
  each i b value here := by
    rw [BindingTable.finds_getElem? here, puts_lines]
    exact syn.gives_look _ b.key

theorem accountOf_total (found : List (Binding × Option String)) : (accountOf found).total = found.length := by
  induction found with
  | nil => rfl
  | cons first rest ih =>
    obtain ⟨b, value⟩ := first
    simp only [accountOf, newOf, Insertion.total, List.length_map] at ih ⊢
    rw [List.length_cons, ← ih]
    rcases value with _ | existing
    · simp only [↓reduceIte, reduceCtorEq, Option.some.injEq, List.filterMap_cons_some, List.filterMap_cons_none,
        Option.bind_none, List.length_cons]
      omega
    · by_cases same : existing = b.value
      all_goals
        simp only [same, ↓reduceIte, reduceCtorEq, Option.some.injEq, List.filterMap_cons_some,
          List.filterMap_cons_none, Option.bind_some, List.length_cons]
        omega

/-- The effect of a pass on the text and its account, by what the bindings met. A line meets the pattern of a key just
if it starts with the key's lead. -/
theorem insertLines_exact (content : String) (bindings : List Binding) (syn : LineSyntax) :
    (∃ found, Turns syn (lines content) bindings found ∧
      (insertLines content bindings syn).1.toList =
        (if newOf found = [] then content.toList
        else content.toList ++ (if content = "" ∨ content.toList.getLast? = some '\n' then [] else ['\n']) ++
          (newOf found).flatMap fun b => (syn.lineFor b).toList ++ ['\n']) ∧
      (insertLines content bindings syn).2 = accountOf found) ∧
    (insertLines content bindings syn).2.total = bindings.length ∧
    ∀ key p, Pattern.parse (syn.keyPattern key) = .ok p →
      ∀ line : String, p.isMatch line = true ↔ syn.lead key <+: line.toList := by
  refine ⟨⟨_, finds_turns syn (lines content) bindings, ?_, ?_⟩, ?_, ?_⟩
  · rw [insertLines_text, BindingTable.inserted_eq_newOf]
    split
    · rfl
    · have ended : endsWith "\n" content = true ↔ content.toList.getLast? = some '\n' :=
        endsWith_feed.trans List.getLast?_eq_some_iff.symm
      rw [appendLines_toList, List.flatMap_map]
      simp only [ended]
      split <;> simp
  · rw [insertLines_account, BindingTable.pass_account]
  · rw [insertLines_account, BindingTable.pass_account, accountOf_total, ← List.length_map Prod.fst,
      BindingTable.finds_inOrder]
  · intro key p read line
    rw [LineSyntax.keyPattern_isMatch read, LineSyntax.sets_iff]

example : insertLines "axb=1\r\nA='2'" [⟨"a.b", "3"⟩, ⟨"a.b", "4"⟩, ⟨"A", "2"⟩] .plain =
    ("axb=1\r\nA='2'\na.b=\"3\"\n", ⟨["a.b"], ["A"], [⟨"a.b", "3", "4"⟩]⟩) := by
  decide +kernel

end Binding

end Provision

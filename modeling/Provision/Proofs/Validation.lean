import Provision.Proofs.FilteredTree
import Provision.Proofs.RunOrder

namespace Provision

structure Resource.WellFormed (r : Resource) : Prop where
  named : Text.isBlankText r.name = false
  fit : r.spec.problem? = none

/-- Two resources may not both be declared. -/
def NameScope.Clash (scope : NameScope) (a b : Resource) : Prop :=
  match scope with
  | .perKind => a.kind = b.kind ∧ a.name = b.name
  | .global => a.name = b.name
  | .unrestricted => False

theorem NameScope.clash_iff {scope : NameScope} {a b : Resource} :
    scope.Clash a b ↔ ∃ key, scope.key? b = some key ∧ scope.key? a = some key := by
  cases scope with
  | perKind => simp [Clash, key?]
  | global => simp [Clash, key?]
  | unrestricted => simp [Clash, key?]

theorem Kind.tag_injective {a b : Kind} (same : a.tag = b.tag) : a = b := by
  have read := ofTag?_tag a
  rw [same, ofTag?_tag] at read
  exact (Option.some.inj read).symm

namespace RunList

structure Admissible (scope : NameScope) (rs : List Resource) : Prop where
  wellFormed : ∀ r ∈ rs, r.WellFormed
  apart : rs.Pairwise fun a b => ¬ scope.Clash a b

/-- A resource may not follow those before it. A blank name counts first, then the properties, then an earlier resource
that it clashes with. -/
inductive Offends (scope : NameScope) (before : List Resource) (r : Resource) : Error → Prop
  | blank (blank : Text.isBlankText r.name = true) :
      Offends scope before r (.invalidResource r.id "name must not be empty")
  | unfit {problem : String} (named : Text.isBlankText r.name = false) (unfit : r.spec.problem? = some problem) :
      Offends scope before r (.invalidResource r.id problem)
  | again {s : Resource} (wellFormed : r.WellFormed) (earlier : s ∈ before) (clash : scope.Clash s r) :
      Offends scope before r (.duplicateResource r.id)

variable {scope : NameScope} {before rs : List Resource} {r : Resource} {e : Error}

theorem Admissible.nil : Admissible scope [] := ⟨by simp, .nil⟩

theorem Admissible.concat (admissible : Admissible scope before) (wellFormed : r.WellFormed)
    (apart : ∀ s ∈ before, ¬ scope.Clash s r) : Admissible scope (before ++ [r]) := by
  constructor
  · intro s member
    rcases List.mem_append.mp member with earlier | last
    · exact admissible.wellFormed s earlier
    · rw [List.mem_singleton.mp last]
      exact wellFormed
  · rw [List.pairwise_append]
    refine ⟨admissible.apart, List.pairwise_singleton _ _, ?_⟩
    intro s earlier t last
    rw [List.mem_singleton.mp last]
    exact apart s earlier

theorem Admissible.sublist {fewer : List Resource} (admissible : Admissible scope rs) (sublist : fewer.Sublist rs) :
    Admissible scope fewer :=
  ⟨fun r member => admissible.wellFormed r (sublist.subset member), admissible.apart.sublist sublist⟩

theorem Admissible.wider {wide : NameScope} (admissible : Admissible scope rs)
    (wider : ∀ a b, wide.Clash a b → scope.Clash a b) : Admissible wide rs :=
  ⟨admissible.wellFormed, admissible.apart.imp fun apart clash => apart (wider _ _ clash)⟩

theorem Admissible.not_offends {after : List Resource} (admissible : Admissible scope (before ++ r :: after)) :
    ¬ Offends scope before r e := by
  have member : r ∈ before ++ r :: after := by simp
  have wellFormed := admissible.wellFormed r member
  rintro (blank | ⟨-, unfit⟩ | ⟨-, earlier, clash⟩)
  · rw [wellFormed.named] at blank
    cases blank
  · rw [wellFormed.fit] at unfit
    cases unfit
  · exact (List.pairwise_append.mp admissible.apart).2.2 _ earlier r List.mem_cons_self clash

theorem Offends.unique {d : Error} (offends : Offends scope before r e) (other : Offends scope before r d) : e = d := by
  cases offends with
  | blank blank =>
    cases other with
    | blank => rfl
    | unfit named => simp [named] at blank
    | again wellFormed => simp [wellFormed.named] at blank
  | unfit named unfit =>
    cases other with
    | blank blank => simp [named] at blank
    | unfit _ same =>
      rw [unfit] at same
      cases same
      rfl
    | again wellFormed => simp [wellFormed.fit] at unfit
  | again wellFormed =>
    cases other with
    | blank blank => simp [wellFormed.named] at blank
    | unfit _ unfit => simp [wellFormed.fit] at unfit
    | again => rfl

def KeysOf (scope : NameScope) (before : List Resource) (seen : List (Option Kind × String)) : Prop :=
  ∀ key, key ∈ seen ↔ ∃ s ∈ before, scope.key? s = some key

theorem ownError?_cases (scope : NameScope) (before : List Resource) (r : Resource) :
    (r.WellFormed ∧ ownError? r = none) ∨ ∃ e, Offends scope before r e ∧ ownError? r = some e := by
  unfold ownError?
  by_cases blank : Text.isBlankText r.name = true
  · exact Or.inr ⟨_, .blank blank, if_pos blank⟩
  · have named := Bool.eq_false_iff.mpr blank
    cases fit : r.spec.problem? with
    | none => exact Or.inl ⟨⟨named, fit⟩, if_neg blank⟩
    | some problem => exact Or.inr ⟨_, .unfit named fit, if_neg blank⟩

theorem firstError?_cases {seen : List (Option Kind × String)} (keys : KeysOf scope before seen) (r : Resource)
    (rest : List Resource) :
    (r.WellFormed ∧ (∀ s ∈ before, ¬ scope.Clash s r) ∧ ∃ more, KeysOf scope (before ++ [r]) more ∧
        firstError? scope seen (r :: rest) = firstError? scope more rest) ∨
      ∃ e, Offends scope before r e ∧ firstError? scope seen (r :: rest) = some e := by
  rcases ownError?_cases scope before r with ⟨wellFormed, own⟩ | ⟨e, offends, own⟩
  · simp only [firstError?, own]
    cases key : scope.key? r with
    | none =>
      refine Or.inl ⟨wellFormed, fun s _ clash => ?_, seen, fun other => ?_, rfl⟩
      · obtain ⟨_, here, -⟩ := NameScope.clash_iff.mp clash
        rw [key] at here
        cases here
      · simp [keys other, key]
    | some known =>
      by_cases repeated : seen.contains known = true
      · obtain ⟨s, earlier, same⟩ := (keys known).mp (List.contains_iff_mem.mp repeated)
        exact Or.inr ⟨_, .again wellFormed earlier (NameScope.clash_iff.mpr ⟨known, key, same⟩), if_pos repeated⟩
      · refine Or.inl ⟨wellFormed, fun s earlier clash => ?_, known :: seen, fun other => ?_, if_neg repeated⟩
        · obtain ⟨other, here, there⟩ := NameScope.clash_iff.mp clash
          cases key.symm.trans here
          exact repeated (List.contains_iff_mem.mpr ((keys known).mpr ⟨s, earlier, there⟩))
        · simp [keys other, key, or_comm, eq_comm]
  · exact Or.inr ⟨e, offends, by simp only [firstError?, own]⟩

theorem firstError?_decides {seen : List (Option Kind × String)} (keys : KeysOf scope before seen)
    (admissible : Admissible scope before) (rs : List Resource) :
    match firstError? scope seen rs with
    | none => Admissible scope (before ++ rs)
    | some e => ∃ front r back, rs = front ++ r :: back ∧ Admissible scope (before ++ front) ∧
        Offends scope (before ++ front) r e := by
  induction rs generalizing before seen with
  | nil => simpa [firstError?] using admissible
  | cons r rest ih =>
    rcases firstError?_cases keys r rest with ⟨wellFormed, apart, more, keysAfter, goesOn⟩ | ⟨e, offends, stops⟩
    · have later := ih keysAfter (admissible.concat wellFormed apart)
      rw [goesOn]
      cases found : firstError? scope more rest with
      | none =>
        rw [found] at later
        simpa using later
      | some e =>
        rw [found] at later
        obtain ⟨front, s, back, rfl, fine, offends⟩ := later
        exact ⟨r :: front, s, back, rfl, by simpa using fine, by simpa using offends⟩
    · rw [stops]
      exact ⟨[], r, rest, rfl, by simpa using admissible, by simpa using offends⟩

variable {l : RunList}

/-- The error is that of the first resource that offends. -/
def FirstOffence (scope : NameScope) (rs : List Resource) (e : Error) : Prop :=
  ∃ before r after, rs = before ++ r :: after ∧ Admissible scope before ∧ Offends scope before r e

theorem FirstOffence.not_admissible (offence : FirstOffence scope rs e) : ¬ Admissible scope rs := by
  obtain ⟨before, r, after, rfl, -, offends⟩ := offence
  exact fun admissible => admissible.not_offends offends

theorem FirstOffence.unique {d : Error} (offence : FirstOffence scope rs e) (other : FirstOffence scope rs d) :
    e = d := by
  obtain ⟨before, r, after, rfl, fine, offends⟩ := offence
  obtain ⟨front, s, back, same, fineToo, offendsToo⟩ := other
  rcases List.append_eq_append_iff.mp same with ⟨mid, rfl, rest⟩ | ⟨mid, rfl, rest⟩
  · cases mid with
    | nil =>
      cases rest
      rw [List.append_nil] at offendsToo
      exact offends.unique offendsToo
    | cons first mid =>
      cases rest
      exact absurd offends fineToo.not_offends
  · cases mid with
    | nil =>
      cases rest
      rw [List.append_nil] at offends
      exact offends.unique offendsToo
    | cons first mid =>
      cases rest
      exact absurd offendsToo fine.not_offends

theorem validate_cases (scope : NameScope) (l : RunList) :
    (l.validate scope = .ok () ∧ Admissible scope l.resources) ∨
      ∃ e, l.validate scope = .error e ∧ FirstOffence scope l.resources e := by
  have keys : KeysOf scope [] [] := by simp [KeysOf]
  have decided := firstError?_decides keys .nil l.resources
  unfold validate
  cases found : firstError? scope [] l.resources with
  | none =>
    rw [found] at decided
    exact Or.inl ⟨rfl, decided⟩
  | some e =>
    rw [found] at decided
    exact Or.inr ⟨e, rfl, decided⟩

theorem validate_eq_ok_iff : l.validate scope = .ok () ↔ Admissible scope l.resources := by
  rcases validate_cases scope l with ⟨valid, admissible⟩ | ⟨e, refused, offence⟩
  · exact iff_of_true valid admissible
  · refine iff_of_false (fun valid => ?_) offence.not_admissible
    rw [refused] at valid
    cases valid

theorem validate_eq_error_iff : l.validate scope = .error e ↔ FirstOffence scope l.resources e := by
  rcases validate_cases scope l with ⟨valid, admissible⟩ | ⟨d, refused, offence⟩
  · refine iff_of_false (fun refused => ?_) fun offence => offence.not_admissible admissible
    rw [valid] at refused
    cases refused
  · rw [refused, Except.error.injEq]
    exact ⟨fun same => same ▸ offence, fun other => offence.unique other⟩

theorem validate_filter (valid : l.validate scope = .ok ()) (keep : Resource → Bool) :
    (l.filter keep).validate scope = .ok () := by
  rw [validate_eq_ok_iff] at valid ⊢
  rw [resources_filter]
  exact valid.sublist List.filter_sublist

theorem validate_filterByTarget (valid : l.validate scope = .ok ()) (t : Option String) :
    (l.filterByTarget t).validate scope = .ok () := by
  cases t with
  | none => exact valid
  | some t => exact validate_filter valid _

theorem perKind_of_global (valid : l.validate .global = .ok ()) : l.validate .perKind = .ok () := by
  rw [validate_eq_ok_iff] at valid ⊢
  exact valid.wider fun _ _ => And.right

end RunList

namespace ResourceReport

def Apart (x y : ResourceReport) : Prop := ¬ (x.kind = y.kind ∧ x.name = y.name)

theorem find_of_apart {xs : List ResourceReport} (apart : xs.Pairwise Apart) {x : ResourceReport} (member : x ∈ xs) :
    xs.find? (fun y => y.kind == x.kind && y.name == x.name) = some x := by
  induction apart with
  | nil => cases member
  | @cons y rest others _ ih =>
    rcases List.mem_cons.mp member with rfl | later
    · simp
    · have differs : ¬ (y.kind == x.kind && y.name == x.name) = true := by simpa [Apart] using others x later
      rw [List.find?_cons, Bool.eq_false_iff.mpr differs]
      exact ih later

end ResourceReport

namespace Converge

variable {σ : Type} {host : Host σ} {opts : RunOptions} {l : RunList} {w last : World σ} {report : RunReport}

theorem reports_apart (admissible : RunList.Admissible .perKind l.resources)
    (ran : w.run (converge host l opts).run = (.ok report, last)) :
    report.resources.Pairwise ResourceReport.Apart := by
  obtain ⟨-, rfl, -⟩ := converge_eq_ok ran
  have order : (walked host opts l w).1.map ResourceReport.identity = _ := (walked_walk l w).inOrder
  have apart : (l.resources.take (walked host opts l w).1.length).Pairwise fun a b =>
      ¬ (a.identity.1 = b.identity.1 ∧ a.identity.2.1 = b.identity.2.1) := by
    refine (admissible.apart.sublist (List.take_sublist _ _)).imp fun apart same => apart ?_
    exact ⟨Kind.tag_injective same.1, same.2⟩
  have mapped : ((l.resources.take (walked host opts l w).1.length).map Resource.identity).Pairwise fun x y =>
      ¬ (x.1 = y.1 ∧ x.2.1 = y.2.1) := List.pairwise_map.mpr apart
  rw [← order, List.pairwise_map] at mapped
  exact mapped

theorem outcomeOf?_of_mem (valid : l.validate .perKind = .ok ())
    (ran : w.run (converge host l opts).run = (.ok report, last)) {x : ResourceReport} (member : x ∈ report.resources) :
    report.outcomeOf? x.kind x.name = some x.outcome := by
  have apart := reports_apart (RunList.validate_eq_ok_iff.mp valid) ran
  rw [RunReport.outcomeOf?, ResourceReport.find_of_apart apart member]
  rfl

end Converge

/-- Validation accepts the lists whose resources are well formed and have names that differ within the scope, refuses
any other for its first offence, and goes on accepting what is left by a filter. With names that differ, by kind at
least, the outcome looked up for an entry of a report is its own. -/
theorem RunList.validate_decides (l : RunList) :
    (l.validate .perKind = .ok () ↔ (∀ r ∈ l.resources, r.WellFormed) ∧
        l.resources.Pairwise fun a b => ¬ (a.kind = b.kind ∧ a.name = b.name)) ∧
      (l.validate .global = .ok () ↔ (∀ r ∈ l.resources, r.WellFormed) ∧
        l.resources.Pairwise fun a b => a.name ≠ b.name) ∧
      (l.validate .unrestricted = .ok () ↔ ∀ r ∈ l.resources, r.WellFormed) ∧
      (l.validate .global = .ok () → l.validate .perKind = .ok ()) ∧
      (l.validate .perKind = .ok () → l.validate .unrestricted = .ok ()) ∧
      (∀ scope e, l.validate scope = .error e ↔ FirstOffence scope l.resources e) ∧
      (∀ scope, l.validate scope = .ok () → (∀ keep, (l.filter keep).validate scope = .ok ()) ∧
        ∀ t, (l.filterByTarget t).validate scope = .ok ()) ∧
      (l.validate .perKind = .ok () ∨ l.validate .global = .ok () → ∀ (σ : Type) (host : Host σ) (opts : RunOptions)
        (w last : World σ) (report : RunReport), w.run (converge host l opts).run = (.ok report, last) →
          ∀ x ∈ report.resources, report.outcomeOf? x.kind x.name = some x.outcome) := by
  have spelled (scope : NameScope) : l.validate scope = .ok () ↔
      (∀ r ∈ l.resources, r.WellFormed) ∧ l.resources.Pairwise fun a b => ¬ scope.Clash a b :=
    validate_eq_ok_iff.trans ⟨fun admissible => ⟨admissible.1, admissible.2⟩, fun both => ⟨both.1, both.2⟩⟩
  refine ⟨spelled .perKind, spelled .global, ?_, perKind_of_global, ?_, fun scope e => validate_eq_error_iff, ?_, ?_⟩
  · rw [spelled]
    exact and_iff_left (List.pairwise_of_forall fun _ _ => id)
  · rw [validate_eq_ok_iff, validate_eq_ok_iff]
    exact fun admissible => admissible.wider fun _ _ => False.elim
  · exact fun scope valid => ⟨validate_filter valid, validate_filterByTarget valid⟩
  · intro valid σ host opts w last report ran x member
    exact Converge.outcomeOf?_of_mem (valid.elim id perKind_of_global) ran member

end Provision

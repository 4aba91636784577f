import Provision.Files.Access
import Provision.Proofs.PathNames
import Provision.Proofs.Tables

namespace Provision

namespace FileTree

variable {tree tree' tree'' : FileTree} {place q start : Place} {n : String} {e : FileEntry}

abbrev IsPlace (place : Place) : Prop := ∀ n ∈ place, IsName n

theorem at?_put_self (filled : place ≠ []) (tree : FileTree) (e : FileEntry) : (tree.put place e).at? place = some e := by
  rw [at?, if_neg (by simpa using filled)]
  exact SortedMap.get?_insert_self ..

theorem at?_erase_self (filled : place ≠ []) (tree : FileTree) : (tree.erase place).at? place = none := by
  rw [at?, if_neg (by simpa using filled)]
  exact SortedMap.get?_erase_self ..

section

variable (isPlace : IsPlace place) (other : IsPlace q) (apart : q ≠ place)

include isPlace other apart

theorem at?_put_of_ne (tree : FileTree) (e : FileEntry) : (tree.put place e).at? q = tree.at? q := by
  unfold at?
  split
  · rfl
  · exact SortedMap.get?_insert_of_ne _ _ fun same => apart (key_injective other isPlace same)

theorem at?_erase_of_ne (tree : FileTree) : (tree.erase place).at? q = tree.at? q := by
  unfold at?
  split
  · rfl
  · exact SortedMap.get?_erase_of_ne _ fun same => apart (key_injective other isPlace same)

end

def Rooted (tree : FileTree) : Prop :=
  ∀ place n, IsPlace (place ++ [n]) → tree.at? (place ++ [n]) ≠ none → tree.at? place = some .directory

theorem rooted_of_entries
    (held : ∀ entry ∈ tree.entries, tree.at? (Text.splitAll "/" entry.1).dropLast = some .directory) : tree.Rooted := by
  intro place n isPlace there
  rw [at?, if_neg (by simp)] at there
  obtain ⟨e, found⟩ := Option.ne_none_iff_exists'.mp there
  obtain ⟨before, after, whole, -⟩ := List.lookup_eq_some_iff.mp found
  have up := held (key (place ++ [n]), e) (by rw [whole]; simp)
  rwa [splitAll_key isPlace (by simp), List.dropLast_concat] at up

theorem Rooted.above (rooted : tree.Rooted) (isPlace : IsPlace place) (there : tree.at? place ≠ none) (part : q <+: place)
    (shorter : q ≠ place) : tree.at? q = some .directory := by
  induction place using List.reverseRecOn with
  | nil => exact absurd (List.prefix_nil.mp part) shorter
  | append_singleton place n ih =>
    have up := rooted place n isPlace there
    have inside : IsPlace place := fun m member => isPlace m (List.mem_append_left _ member)
    rcases List.prefix_concat_iff.mp part with same | part
    · exact absurd same shorter
    · by_cases same : q = place
      · exact same ▸ up
      · exact ih inside (by simp [up]) part same

theorem Rooted.below (rooted : tree.Rooted) (isPlace : IsPlace (place ++ q)) (filled : q ≠ [])
    (other : tree.at? place ≠ some .directory) : tree.at? (place ++ q) = none := by
  by_contra there
  exact other (rooted.above isPlace there (List.prefix_append _ _) (by simpa using filled))

theorem Rooted.put (rooted : tree.Rooted) (isPlace : IsPlace (place ++ [n])) (up : tree.at? place = some .directory)
    (vacant : tree.at? (place ++ [n]) ≠ some .directory) : (tree.put (place ++ [n]) e).Rooted := by
  intro q m other there
  have inside : IsPlace q := fun m member => other m (List.mem_append_left _ member)
  by_cases same : q ++ [m] = place ++ [n]
  · obtain ⟨rfl, -⟩ := List.append_inj' same rfl
    rw [at?_put_of_ne isPlace inside (by simp)]
    exact up
  · rw [at?_put_of_ne isPlace other same] at there
    have below := rooted q m other there
    by_cases here : q = place ++ [n]
    · exact absurd (here ▸ below) vacant
    · rw [at?_put_of_ne isPlace inside here]
      exact below

theorem Rooted.erase (rooted : tree.Rooted) (isPlace : IsPlace place) (vacant : tree.at? place ≠ some .directory) :
    (tree.erase place).Rooted := by
  intro q m other there
  have inside : IsPlace q := fun m member => other m (List.mem_append_left _ member)
  have filled : place ≠ [] := by
    rintro rfl
    exact vacant rfl
  by_cases same : q ++ [m] = place
  · subst same
    exact absurd (at?_erase_self filled tree) there
  · rw [at?_erase_of_ne isPlace other same] at there
    have below := rooted q m other there
    have here : q ≠ place := by
      rintro rfl
      exact vacant below
    rw [at?_erase_of_ne isPlace inside here]
    exact below

/-- What holds of the places strictly between the start of the steps and their end. -/
def Along (P : Place → Prop) (start : Place) (steps : List String) : Prop :=
  ∀ q, q <+: steps → q ≠ [] → q ≠ steps → P (start ++ q)

theorem along_nil {P : Place → Prop} : Along P start [] :=
  fun _ part filled => absurd (List.prefix_nil.mp part) filled

theorem along_cons {P : Place → Prop} {rest : List String} :
    Along P start (n :: rest) ↔ (rest ≠ [] → P (start ++ [n])) ∧ Along P (start ++ [n]) rest := by
  constructor
  · intro along
    refine ⟨fun more => along [n] (List.cons_prefix_cons.mpr ⟨rfl, List.nil_prefix⟩) (List.cons_ne_nil _ _)
      (by simpa using Ne.symm more), fun q part filled shorter => ?_⟩
    rw [List.append_assoc]
    exact along (n :: q) (List.cons_prefix_cons.mpr ⟨rfl, part⟩) (List.cons_ne_nil _ _) (by simpa using shorter)
  · rintro ⟨here, along⟩ q part filled shorter
    cases q with
    | nil => exact absurd rfl filled
    | cons m q =>
      obtain ⟨rfl, inside⟩ := List.cons_prefix_cons.mp part
      by_cases last : q = []
      · subst last
        exact here fun none => shorter (by rw [none])
      · have below := along q inside last (by simpa using shorter)
        rwa [List.append_assoc] at below

def Unlinked (tree : FileTree) : Place → List String → Prop :=
  Along fun q => ∀ target, tree.at? q ≠ some (.link target)

theorem Rooted.unlinked (rooted : tree.Rooted) (isPlace : IsPlace place) (up : tree.at? place = some .directory) :
    tree.Unlinked [] (place ++ [n]) := by
  intro q part filled shorter target linked
  rw [List.nil_append] at linked
  rcases List.prefix_concat_iff.mp part with same | part
  · exact shorter same
  · by_cases same : q = place
    · rw [same, up] at linked
      cases linked
    · rw [rooted.above isPlace (by simp [up]) part same] at linked
      cases linked

def Open (tree : FileTree) : Place → List String → Prop :=
  Along fun q => tree.at? q = some .directory

/-- A file stands in the way. -/
def Barred (tree : FileTree) (start : Place) (steps : List String) : Prop :=
  ¬ Along (fun q => ∀ content mode, tree.at? q ≠ some (.file content mode)) start steps

/-- The steps that go somewhere. -/
def solid (steps : List String) : List String := steps.filter (· ≠ ".")

theorem walk_name {follow : Bool} {links : Nat} {rest : List String} (solid : n ≠ ".") (down : n ≠ "..")
    (short : n.utf8ByteSize ≤ maxName)
    (plain : (rest = [] → follow = true) → ∀ target, tree.at? (start ++ [n]) ≠ some (.link target)) :
    tree.walk follow links start (n :: rest) = match tree.at? (start ++ [n]) with
      | none => if rest.isEmpty then .ok (start ++ [n]) else .error .notFound
      | some .directory => tree.walk follow links (start ++ [n]) rest
      | some _ => if rest.isEmpty then .ok (start ++ [n]) else .error .notDirectory := by
  rw [walk, if_neg solid, if_neg down, if_neg (by omega)]
  dsimp only
  cases found : tree.at? (start ++ [n]) with
  | none => rfl
  | some e =>
    cases e with
    | directory => rfl
    | file content mode => rfl
    | link target =>
      -- Only a link at the end is left, one that is not followed.
      by_cases last : rest = [] → follow = true
      · exact absurd found (plain last target)
      · obtain ⟨rfl, unfollowed⟩ : rest = [] ∧ follow = false := by simpa using last
        simp [unfollowed]

theorem walk_eq_ok {follow : Bool} {links : Nat} {steps : List String} (down : ∀ n ∈ steps, n ≠ "..")
    (unlinked : tree.Unlinked start (solid steps)) (last : ∀ target, tree.at? (start ++ solid steps) ≠ some (.link target))
    (walked : tree.walk follow links start steps = .ok place) :
    place = start ++ solid steps ∧ tree.Open start (solid steps) := by
  induction steps generalizing start with
  | nil =>
    rw [walk] at walked
    cases walked
    exact ⟨(List.append_nil place).symm, along_nil⟩
  | cons n rest ih =>
    obtain ⟨own, later⟩ := List.forall_mem_cons.mp down
    by_cases dot : n = "."
    · subst dot
      have same : solid ("." :: rest) = solid rest := by simp [solid]
      rw [walk, if_pos rfl] at walked
      rw [same] at unlinked last ⊢
      exact ih later unlinked last walked
    · have split : solid (n :: rest) = n :: solid rest := by simp [solid, dot]
      have short : n.utf8ByteSize ≤ maxName := by
        by_contra long
        rw [walk, if_neg dot, if_neg own, if_pos (by omega)] at walked
        cases walked
      rw [split, List.append_cons] at last ⊢
      obtain ⟨here, beyond⟩ := along_cons.mp (split ▸ unlinked)
      -- The last name may be no link by `last`, those before it by `unlinked`.
      have plain : ∀ target, tree.at? (start ++ [n]) ≠ some (.link target) := by
        by_cases more : solid rest = []
        · simpa [more] using last
        · exact here more
      rw [walk_name dot own short fun _ => plain] at walked
      have stops : ∀ {e : FileError}, (if rest.isEmpty then Except.ok (start ++ [n]) else .error e) = Except.ok place →
          place = start ++ [n] ++ solid rest ∧ tree.Open start (n :: solid rest) := by
        intro e stopped
        split at stopped
        · rename_i ends
          cases stopped
          rw [List.isEmpty_iff.mp ends]
          exact ⟨(List.append_nil _).symm, along_cons.mpr ⟨fun more => absurd rfl more, along_nil⟩⟩
        · cases stopped
      split at walked
      · exact stops walked
      · rename_i found
        obtain ⟨there, further⟩ := ih later beyond last walked
        exact ⟨there, along_cons.mpr ⟨fun _ => found, further⟩⟩
      · exact stops walked

/-- A walk down by names alone arrives, or misses a directory, or finds a file in its way. -/
theorem walk_cases {follow : Bool} {links : Nat} {steps : List String} (rooted : tree.Rooted)
    (isPlace : IsPlace (start ++ steps))
    (named : ∀ n ∈ steps, n ≠ "." ∧ n ≠ ".." ∧ n.utf8ByteSize ≤ maxName) (unlinked : tree.Unlinked start steps)
    (last : follow = true → ∀ target, tree.at? (start ++ steps) ≠ some (.link target)) :
    tree.walk follow links start steps = .ok (start ++ steps) ∧ tree.Open start steps ∨
      tree.walk follow links start steps = .error .notFound ∧ tree.at? (start ++ steps) = none ∧
        ¬ tree.Barred start steps ∨
      tree.walk follow links start steps = .error .notDirectory ∧ tree.at? (start ++ steps) = none ∧
        tree.Barred start steps := by
  induction steps generalizing start with
  | nil => exact .inl ⟨by rw [walk, List.append_nil], along_nil⟩
  | cons n rest ih =>
    obtain ⟨⟨dot, own, short⟩, later⟩ := List.forall_mem_cons.mp named
    obtain ⟨here, beyond⟩ := along_cons.mp unlinked
    rw [List.append_cons] at isPlace last ⊢
    by_cases more : rest = []
    · subst more
      refine .inl ⟨?_, along_cons.mpr ⟨fun more => absurd rfl more, along_nil⟩⟩
      rw [walk_name dot own short (by simpa using last)]
      split <;> simp [walk]
    · rw [walk_name dot own short fun _ => here more]
      -- Where there is no directory nothing stands below.
      have blocked : tree.at? (start ++ [n]) ≠ some .directory → tree.at? (start ++ [n] ++ rest) = none :=
        rooted.below isPlace more
      unfold Barred
      rw [along_cons]
      cases found : tree.at? (start ++ [n]) with
      | none =>
        refine .inr (.inl ⟨by simp [more], blocked (by simp [found]), not_not.mpr ⟨fun _ => by simp, ?_⟩⟩)
        intro q part filled _ content mode
        have inside : IsPlace (start ++ [n] ++ q) := fun m member => isPlace m (by
          simp only [List.mem_append] at member ⊢
          exact member.imp_right (part.subset ·))
        rw [rooted.below inside filled (by simp [found])]
        simp
      | some e =>
        cases e with
        | directory =>
          rcases ih isPlace later beyond last with ⟨arrives, way⟩ | ⟨misses, nothing, free⟩ | ⟨stops, nothing, barred⟩
          · exact .inl ⟨arrives, along_cons.mpr ⟨fun _ => found, way⟩⟩
          · exact .inr (.inl ⟨misses, nothing, not_not.mpr ⟨by simp, not_not.mp free⟩⟩)
          · exact .inr (.inr ⟨stops, nothing, fun clear => barred clear.2⟩)
        | file content mode =>
          exact .inr (.inr ⟨by simp [more], blocked (by simp [found]), fun clear => clear.1 more content mode rfl⟩)
        | link target => exact absurd found (here more target)

/-- Off the place nothing is changed but for directories that are made on the way to it. -/
def Touches (tree tree' : FileTree) (place : Place) : Prop :=
  ∀ q, IsPlace q → q ≠ place →
    tree'.at? q = tree.at? q ∨ tree.at? q = none ∧ tree'.at? q = some .directory ∧ q <+: place

theorem Touches.trans (first : tree.Touches tree' place) (second : tree'.Touches tree'' place) :
    tree.Touches tree'' place := by
  intro q isPlace other
  rcases second q isPlace other with same | ⟨vacant, made, part⟩
  · rw [same]
    exact first q isPlace other
  · rcases first q isPlace other with same | ⟨-, directory, -⟩
    · exact .inr ⟨same ▸ vacant, made, part⟩
    · rw [directory] at vacant
      cases vacant

theorem Touches.along {P : Option FileEntry → Prop} (touches : tree.Touches tree' place) (isPlace : IsPlace q)
    (apart : place <+: q → place = q) (directory : P (some .directory)) (before : Along (fun p => P (tree.at? p)) [] q) :
    Along (fun p => P (tree'.at? p)) [] q := by
  intro p part filled shorter
  have inside : IsPlace p := fun n member => isPlace n (part.subset member)
  have other : p ≠ place := by
    rintro rfl
    exact shorter (apart part)
  rcases touches p inside other with same | ⟨-, made, -⟩
  · exact same ▸ before p part filled shorter
  · rw [List.nil_append, made]
    exact directory

theorem Touches.unlinked (touches : tree.Touches tree' place) (isPlace : IsPlace q) (apart : place <+: q → place = q)
    (unlinked : tree.Unlinked [] q) : tree'.Unlinked [] q :=
  touches.along (P := fun e => ∀ target, e ≠ some (.link target)) isPlace apart (fun _ => nofun) unlinked

theorem Touches.barred (touches : tree.Touches tree' place) (isPlace : IsPlace q) (apart : place <+: q → place = q)
    (barred : tree'.Barred [] q) : tree.Barred [] q :=
  fun free => barred (touches.along (P := fun e => ∀ content mode, e ≠ some (.file content mode)) isPlace apart
    (fun _ _ => nofun) free)

structure Changes (tree tree' : FileTree) (place : Place) (e : Option FileEntry) : Prop where
  touches : tree.Touches tree' place
  here : tree'.at? place = e
  rooted : tree.Rooted → tree'.Rooted

abbrev Grows (tree tree' : FileTree) (place : Place) : Prop := tree.Changes tree' place (tree.at? place)

theorem Grows.refl (tree : FileTree) (place : Place) : tree.Grows tree place := ⟨fun _ _ _ => .inl rfl, rfl, id⟩

theorem Changes.after {e : Option FileEntry} (changes : tree'.Changes tree'' place e) (first : tree.Grows tree' place) :
    tree.Changes tree'' place e :=
  ⟨first.touches.trans changes.touches, changes.here, changes.rooted ∘ first.rooted⟩

theorem Grows.trans (first : tree.Grows tree' place) (second : tree'.Grows tree'' place) : tree.Grows tree'' place := by
  have whole := second.after first
  rwa [Changes.here first] at whole

theorem Along.above {P : Place → Prop} {p : Place} (along : Along P start place) (part : p <+: place) : Along P start p :=
  fun q inside filled shorter => along q (inside.trans part) filled fun same =>
    shorter (inside.eq_of_length_le (same ▸ part.length_le))

theorem solid_steps (path : String) : solid (steps path) = Path.names path := by
  unfold solid steps
  rw [List.filter_append, List.filter_filter]
  have tail : (if Text.endsWith "/" path then ["."] else []).filter (fun n => decide (n ≠ ".")) = [] := by
    split <;> rfl
  rw [tail, List.append_nil, Path.names]
  exact List.filter_congr fun n _ => by simp [Bool.and_comm]

theorem locate_eq_ok {base : Place} {follow : Bool} {path : String} : tree.locate base follow path = .ok place ↔
    (path.toList.contains '\x00' = false ∧ path ≠ "" ∧ path.utf8ByteSize ≤ maxPath) ∧
      tree.walk follow maxLinks (if Path.isAbsolute path then [] else base) (steps path) = .ok place := by
  unfold locate
  split
  · rename_i null
    exact iff_of_false nofun fun legal => Bool.false_ne_true (legal.1.1.symm.trans null)
  · rename_i clean
    split
    · rename_i nothing
      exact iff_of_false nofun fun legal => legal.1.2.1 nothing
    · rename_i filled
      split
      · exact iff_of_false nofun fun legal => absurd legal.1.2.2 (by omega)
      · exact (and_iff_right ⟨eq_false_of_ne_true clean, filled, by omega⟩).symm

theorem makeDirectory_eq_ok {base : Place} {path : String} : tree.makeDirectory base path = .ok tree' ↔
    ∃ p, tree.locate base false path = .ok p ∧ tree.at? p = none ∧ tree' = tree.put p .directory := by
  refine bind_eq_ok.trans (exists_congr fun p => and_congr_right fun _ => ?_)
  cases tree.at? p <;> simp [eq_comm]

theorem Rooted.put_open (rooted : tree.Rooted) (isPlace : IsPlace place) (way : tree.Open [] place)
    (vacant : tree.at? place ≠ some .directory) : (tree.put place e).Rooted := by
  cases place using List.reverseRecOn with
  | nil => exact absurd rfl vacant
  | append_singleton p n =>
    by_cases root : p = []
    · subst root
      exact rooted.put isPlace rfl vacant
    · exact rooted.put isPlace (way p (List.prefix_append _ _) root (by simp)) vacant

theorem ne_nil_of_vacant (vacant : tree.at? place ≠ some .directory) : place ≠ [] := by
  rintro rfl
  exact vacant rfl

theorem changes_put (isPlace : IsPlace place) (way : tree.Open [] place) (vacant : tree.at? place ≠ some .directory)
    (e : FileEntry) : tree.Changes (tree.put place e) place (some e) :=
  ⟨fun _ other apart => .inl (at?_put_of_ne isPlace other apart tree e), at?_put_self (ne_nil_of_vacant vacant) tree e,
    fun rooted => rooted.put_open isPlace way vacant⟩

theorem changes_erase (isPlace : IsPlace place) (vacant : tree.at? place ≠ some .directory) :
    tree.Changes (tree.erase place) place none :=
  ⟨fun _ other apart => .inl (at?_erase_of_ne isPlace other apart tree), at?_erase_self (ne_nil_of_vacant vacant) tree,
    fun rooted => rooted.erase isPlace vacant⟩

theorem Grows.made {p : Place} (part : p <+: place) (shorter : p ≠ place) (isPlace : IsPlace place)
    (way : tree.Open [] p) (vacant : tree.at? p = none) : tree.Grows (tree.put p .directory) place := by
  have inside : IsPlace p := fun m member => isPlace m (part.subset member)
  have free : tree.at? p ≠ some .directory := by simp [vacant]
  refine ⟨fun q other _ => ?_, at?_put_of_ne inside isPlace shorter.symm tree _,
    fun rooted => rooted.put_open inside way free⟩
  by_cases same : q = p
  · subst same
    exact .inr ⟨vacant, at?_put_self (ne_nil_of_vacant free) tree _, part⟩
  · exact .inl (at?_put_of_ne inside other same tree _)

theorem makeDirectory_grows {base : Place} {path : String} (absolute : Path.isAbsolute path = true)
    (down : ∀ n ∈ Path.names path, n ≠ "..") (part : Path.names path <+: place) (shorter : Path.names path ≠ place)
    (isPlace : IsPlace place) (unlinked : tree.Unlinked [] place)
    (made : tree.makeDirectory base path = .ok tree') : tree.Grows tree' place := by
  obtain ⟨p, located, vacant, rfl⟩ := makeDirectory_eq_ok.mp made
  have level : ∀ n ∈ steps path, n ≠ ".." := by
    rintro n member rfl
    exact down ".." (solid_steps path ▸ List.mem_filter.mpr ⟨member, by decide⟩) rfl
  have last : ∀ target, tree.at? (Path.names path) ≠ some (.link target) := by
    intro target linked
    by_cases root : Path.names path = []
    · rw [root] at linked
      cases linked
    · exact unlinked _ part root shorter target linked
  have walked := (locate_eq_ok.mp located).2
  rw [if_pos absolute] at walked
  have arrives := walk_eq_ok level (by rw [solid_steps]; exact Along.above unlinked part)
    (by rw [solid_steps]; exact last) walked
  rw [solid_steps, List.nil_append] at arrives
  obtain ⟨rfl, way⟩ := arrives
  exact .made part shorter isPlace way vacant

theorem makeDirectories_cases {base : Place} {fuel : Nat} {path : String}
    (made : makeDirectories base (fuel + 1) tree path = .ok tree') :
    tree' = tree ∨ tree.makeDirectory base path = .ok tree' ∨
      ∃ up grown, Path.parent? path = some up ∧ makeDirectories base fuel tree up = .ok grown ∧
        (tree' = grown ∨ grown.makeDirectory base path = .ok tree') := by
  have settled : ∀ {t : FileTree} {e : FileError}, (if t.isDirectory base path then Except.ok t else .error e) = .ok tree' →
      tree' = t := by
    intro t e settled
    split at settled <;> cases settled
    rfl
  rw [makeDirectories] at made
  split at made
  · cases made
    exact .inl rfl
  · split at made
    · rename_i direct
      cases made
      exact .inr (.inl direct)
    · split at made
      · exact .inl (settled made)
      · split at made
        · cases made
        · rename_i up above
          obtain ⟨grown, first, rest⟩ := bind_eq_ok.mp made
          refine .inr (.inr ⟨up, grown, above, first, ?_⟩)
          split at rest
          · rename_i direct
            cases rest
            exact .inr direct
          · exact .inl (settled rest)

theorem makeDirectories_grows {base : Place} {fuel : Nat} {path : String} (absolute : Path.isAbsolute path = true)
    (down : ∀ n ∈ Path.names path, n ≠ "..") (part : Path.names path <+: place) (shorter : Path.names path ≠ place)
    (isPlace : IsPlace place) (unlinked : tree.Unlinked [] place)
    (made : makeDirectories base fuel tree path = .ok tree') : tree.Grows tree' place := by
  induction fuel generalizing tree' path with
  | zero =>
    cases made
    exact .refl tree place
  | succ fuel ih =>
    -- A missing parent is made first, by the induction, and its names are the first of these.
    rcases makeDirectories_cases made with rfl | direct | ⟨up, grown, above, first, rest⟩
    · exact .refl _ place
    · exact makeDirectory_grows absolute down part shorter isPlace unlinked direct
    · obtain ⟨rooted, names⟩ := Path.parent?_names absolute above
      have inside : Path.names up <+: Path.names path := names ▸ List.dropLast_prefix _
      have below : Path.names up ≠ place := by
        rintro same
        exact shorter (part.eq_of_length_le (same ▸ inside.length_le))
      have grows := ih rooted (fun n member => down n (inside.subset member)) (inside.trans part) below first
      have later := grows.touches.unlinked isPlace (fun _ => rfl) unlinked
      rcases rest with rfl | direct
      · exact grows
      · exact grows.trans (makeDirectory_grows absolute down part shorter isPlace later direct)

theorem locate_cases (base : Place) (follow : Bool) {path : String} (straight : Path.Straight path) (rooted : tree.Rooted)
    (unlinked : tree.Unlinked [] (Path.names path))
    (last : follow = true → ∀ target, tree.at? (Path.names path) ≠ some (.link target)) :
    tree.locate base follow path = .ok (Path.names path) ∧ tree.Open [] (Path.names path) ∨
      tree.locate base follow path = .error .notFound ∧ tree.at? (Path.names path) = none ∧
        ¬ tree.Barred [] (Path.names path) ∨
      tree.locate base follow path = .error .notDirectory ∧ tree.at? (Path.names path) = none ∧
        tree.Barred [] (Path.names path) := by
  have named : ∀ n ∈ Path.names path, n ≠ "." ∧ n ≠ ".." ∧ n.utf8ByteSize ≤ maxName := fun n member =>
    ⟨Path.not_dot_of_mem_names member, straight.down n member, straight.short n member⟩
  have whole := straight.whole
  rw [locate, straight.clean, if_neg Bool.false_ne_true, if_neg straight.ne_empty, if_neg (by omega),
    if_pos straight.absolute, straight.steps]
  exact walk_cases rooted (fun n member => Path.isName_of_mem_names member) named unlinked last

theorem not_barred_of_open (way : tree.Open start place) : ¬ tree.Barred start place := by
  refine not_not.mpr fun q part filled shorter content mode file => ?_
  rw [way q part filled shorter] at file
  cases file

theorem optional_eq_ok {α : Type} {x : Except FileError α} {found : Option α} : FileError.optional x = .ok found ↔
    (∃ v, x = .ok v ∧ found = some v) ∨ x = .error .notFound ∧ found = none := by
  cases x with
  | ok v => simp [FileError.optional, eq_comm]
  | error e => cases e <;> simp [FileError.optional, eq_comm]

def textOf : Option FileEntry → Except FileError (Option String)
  | none => .ok none
  | some (.file content _) => match Text.decode? content with
    | some text => .ok (some text)
    | none => .error .notText
  | some _ => .error .isDirectory

theorem optional_readText (tree : FileTree) (base : Place) (path : String) :
    FileError.optional (tree.readText base path) = FileError.optional (tree.entry base true path) >>= textOf := by
  unfold readText read
  rcases tree.entry base true path with e | (_ | ⟨content, mode⟩ | target)
  · cases e <;> rfl
  · rfl
  · simp only [FileError.optional, bind, Except.bind, textOf]
    cases Text.decode? content <;> rfl
  · rfl

section

variable {base : Place} {path : String} (straight : Path.Straight path) (rooted : tree.Rooted)
  (unlinked : tree.Unlinked [] (Path.names path))

include straight rooted unlinked

theorem entry_iff (follow : Bool) {found : Option FileEntry}
    (last : follow = true → ∀ target, tree.at? (Path.names path) ≠ some (.link target)) :
    FileError.optional (tree.entry base follow path) = .ok found ↔
      ¬ tree.Barred [] (Path.names path) ∧ tree.at? (Path.names path) = found := by
  unfold entry
  rcases locate_cases base follow straight rooted unlinked last with
    ⟨arrives, way⟩ | ⟨misses, nothing, free⟩ | ⟨stops, -, barred⟩
  · rw [arrives]
    refine Iff.trans ?_ (and_iff_right (not_barred_of_open way)).symm
    dsimp only [bind, Except.bind]
    cases tree.at? (Path.names path) <;> simp [FileError.optional]
  · rw [misses, nothing]
    simp [FileError.optional, bind, Except.bind, free]
  · rw [stops]
    simp [FileError.optional, bind, Except.bind, barred]

theorem place_eq (located : tree.locate base false path = .ok place) :
    place = Path.names path ∧ tree.Open [] (Path.names path) := by
  have cases := locate_cases base false straight rooted unlinked nofun
  rw [located] at cases
  simpa using cases

theorem replace_changes {content : Text.Bytes} {mode : Nat} (replaced : tree.replace base path content mode = .ok tree') :
    tree.Changes tree' (Path.names path) (some (.file content mode)) := by
  obtain ⟨p, located, put⟩ := bind_eq_ok.mp replaced
  obtain ⟨rfl, way⟩ := place_eq straight rooted unlinked located
  split at put
  · cases put
  · rename_i vacant
    cases put
    exact changes_put (fun _ => Path.isName_of_mem_names) way vacant _

theorem makeLink_changes {target : String} (made : tree.makeLink base target path = .ok tree') :
    tree.Changes tree' (Path.names path) (some (.link target)) := by
  unfold makeLink at made
  split at made
  · cases made
  · split at made
    · cases made
    · obtain ⟨p, located, put⟩ := bind_eq_ok.mp made
      obtain ⟨rfl, way⟩ := place_eq straight rooted unlinked located
      split at put
      · cases put
      · rename_i vacant
        cases put
        exact changes_put (fun _ => Path.isName_of_mem_names) way (by simp [vacant]) _

theorem remove_changes {result : Option FileTree} (removed : FileError.optional (tree.remove base path) = .ok result) :
    tree.Changes (result.getD tree) (Path.names path) none := by
  have left : tree.at? (Path.names path) = none → tree.Changes tree (Path.names path) none := fun nothing =>
    nothing ▸ Grows.refl tree (Path.names path)
  rcases optional_eq_ok.mp removed with ⟨tree', done, rfl⟩ | ⟨missing, rfl⟩
  · obtain ⟨p, located, erased⟩ := bind_eq_ok.mp done
    obtain ⟨rfl, -⟩ := place_eq straight rooted unlinked located
    split at erased
    · cases erased
    · rename_i e other found
      cases erased
      exact changes_erase (fun _ => Path.isName_of_mem_names) (by simpa [found] using other)
    · cases erased
  · unfold remove at missing
    rcases locate_cases base false straight rooted unlinked nofun with ⟨arrives, -⟩ | ⟨-, nothing, -⟩ | ⟨-, nothing, -⟩
    · rw [arrives] at missing
      cases found : tree.at? (Path.names path) with
      | none => exact left found
      | some e => cases e <;> simp [bind, Except.bind, found] at missing
    · exact left nothing
    · exact left nothing

end

theorem readText_of_file {base : Place} {path text : String} {content : Text.Bytes} {mode : Nat}
    (straight : Path.Straight path) (rooted : tree.Rooted) (file : tree.at? (Path.names path) = some (.file content mode))
    (decoded : Text.decode? content = some text) : tree.readText base path = .ok text := by
  have way : tree.Open [] (Path.names path) := fun q part _ shorter =>
    rooted.above (fun _ => Path.isName_of_mem_names) (by simp [file]) part shorter
  have unlinked : tree.Unlinked [] (Path.names path) := fun q part filled shorter target linked => by
    rw [way q part filled shorter] at linked
    cases linked
  have entry : FileError.optional (tree.entry base true path) = .ok (some (.file content mode)) :=
    (entry_iff straight rooted unlinked true fun _ target => by simp [file]).mpr ⟨not_barred_of_open way, file⟩
  have read : FileError.optional (tree.readText base path) = .ok (some text) := by
    rw [optional_readText, entry]
    change textOf (some (.file content mode)) = _
    simp [textOf, decoded]
  obtain ⟨_, done, same⟩ | ⟨-, nothing⟩ := optional_eq_ok.mp read
  · rw [done, Option.some.inj same]
  · cases nothing

def Extends (tree tree' : FileTree) : Prop := ∀ q e, IsPlace q → tree.at? q = some e → tree'.at? q = some e

theorem isName_of_mem_steps {path n : String} (member : n ∈ steps path) : IsName n := by
  rcases List.mem_append.mp member with inside | tail
  · obtain ⟨part, filled⟩ := List.mem_filter.mp inside
    exact ⟨of_decide_eq_true filled, Text.not_slash_of_mem_splitAll part⟩
  · split at tail <;> simp at tail
    subst tail
    exact ⟨by decide, by decide +kernel⟩

theorem isPlace_nil : IsPlace [] :=
  fun _ member => absurd member List.not_mem_nil

theorem isPlace_concat (isPlace : IsPlace start) (name : IsName n) : IsPlace (start ++ [n]) :=
  List.forall_mem_append.mpr ⟨isPlace, by simpa using name⟩

/-- A walk that arrives at something arrives there in a tree that has more. -/
theorem walk_extends {follow : Bool} {links : Nat} {steps : List String} (more : tree.Extends tree')
    (isPlace : IsPlace start) (names : ∀ n ∈ steps, IsName n) (walked : tree.walk follow links start steps = .ok place)
    (there : tree.at? place ≠ none) : tree'.walk follow links start steps = .ok place ∧ IsPlace place := by
  -- By the recursion of the walk: each name it passed is there in the other tree too.
  fun_induction walk tree follow links start steps with
  | case1 links start =>
    cases walked
    exact ⟨by rw [walk], isPlace⟩
  | case2 links start rest ih =>
    rw [walk, if_pos rfl]
    exact ih isPlace (fun n member => names n (List.mem_cons_of_mem _ member)) walked
  | case3 links start rest dot ih =>
    rw [walk, if_neg dot, if_pos rfl]
    exact ih (fun n member => isPlace n ((List.dropLast_prefix start).subset member))
      (fun n member => names n (List.mem_cons_of_mem _ member)) walked
  | case4 | case6 | case9 | case11 | case12 => cases walked
  | case5 links start n rest dot up short next found last =>
    obtain rfl : start ++ [n] = place := Except.ok.inj walked
    exact absurd found there
  | case7 links start n rest dot up short next found ih =>
    have inside := isPlace_concat isPlace (names n List.mem_cons_self)
    rw [walk, if_neg dot, if_neg up, if_neg short]
    dsimp only
    rw [more _ _ inside found]
    exact ih inside (fun n member => names n (List.mem_cons_of_mem _ member)) walked
  | case8 links start n rest dot up short next _ _ found last | case10 links start n rest dot up short next _ found last =>
    have inside := isPlace_concat isPlace (names n List.mem_cons_self)
    obtain rfl : start ++ [n] = place := Except.ok.inj walked
    rw [walk, if_neg dot, if_neg up, if_neg short]
    dsimp only
    rw [more _ _ inside found]
    exact ⟨if_pos last, inside⟩
  | case13 start n rest dot up short next target found followed links filled ih =>
    have inside := isPlace_concat isPlace (names n List.mem_cons_self)
    have back : IsPlace (if Path.isAbsolute target then [] else start) := by
      split
      · exact isPlace_nil
      · exact isPlace
    rw [walk, if_neg dot, if_neg up, if_neg short]
    dsimp only
    rw [more _ _ inside found]
    dsimp only
    rw [if_neg followed, if_neg filled]
    refine ih back (fun m member => ?_) walked
    rcases List.mem_append.mp member with first | later
    · exact isName_of_mem_steps first
    · exact names m (List.mem_cons_of_mem _ later)

theorem entry_extends {base : Place} {follow : Bool} {path : String} (more : tree.Extends tree') (isPlace : IsPlace base)
    (there : tree.entry base follow path = .ok e) : tree'.entry base follow path = .ok e := by
  obtain ⟨p, located, held⟩ := bind_eq_ok.mp there
  have found : tree.at? p = some e := by
    split at held <;> cases held
    assumption
  have start : IsPlace (if Path.isAbsolute path then [] else base) := by
    split
    · exact isPlace_nil
    · exact isPlace
  obtain ⟨legal, walked⟩ := locate_eq_ok.mp located
  obtain ⟨again, inside⟩ := walk_extends more start (fun _ => isName_of_mem_steps) walked (by simp [found])
  exact bind_eq_ok.mpr ⟨p, locate_eq_ok.mpr ⟨legal, again⟩, by rw [more p e inside found]⟩

theorem readText_extends {base : Place} {path text : String} (more : tree.Extends tree') (isPlace : IsPlace base)
    (read : tree.readText base path = .ok text) : tree'.readText base path = .ok text := by
  obtain ⟨content, here, decoded⟩ := bind_eq_ok.mp read
  obtain ⟨e, there, file⟩ := bind_eq_ok.mp here
  exact bind_eq_ok.mpr ⟨content, bind_eq_ok.mpr ⟨e, entry_extends more isPlace there, file⟩, decoded⟩

end FileTree

end Provision

import Mathlib.Data.List.DropRight
import Provision.Files.Tree
import Provision.Proofs.Targets

namespace Provision

namespace Text

variable {c : Char} {cs u : List Char}

theorem splitAllChars_of_not_mem (none : c ∉ cs) : splitAllChars [c] cs = [cs] := by
  rw [splitAllChars, dif_neg (List.cons_ne_nil c [])]
  split
  · rfl
  · rename_i found
    rw [splitFirstChars_one_eq_none none] at found
    cases found

theorem splitAllChars_cons (none : c ∉ u) (v : List Char) :
    splitAllChars [c] (u ++ c :: v) = u :: splitAllChars [c] v := by
  rw [splitAllChars, dif_neg (List.cons_ne_nil c [])]
  split
  · rename_i found
    rw [splitFirstChars_one none] at found
    cases found
  · rename_i found
    rw [splitFirstChars_one none] at found
    cases found
    rfl

theorem not_mem_of_mem_splitAllChars {p : List Char} (member : p ∈ splitAllChars [c] cs) : c ∉ p := by
  induction len : cs.length using Nat.strong_induction_on generalizing cs with
  | _ n ih =>
    subst len
    by_cases here : c ∈ cs
    · obtain ⟨u, v, rfl, first⟩ := List.eq_append_cons_of_mem here
      rw [splitAllChars_cons first, List.mem_cons] at member
      rcases member with rfl | later
      · exact first
      · exact ih v.length (by simp; omega) later rfl
    · rw [splitAllChars_of_not_mem here, List.mem_singleton] at member
      exact member ▸ here

theorem splitAllChars_intercalate {ps : List (List Char)} (filled : ps ≠ []) (clear : ∀ p ∈ ps, c ∉ p) :
    splitAllChars [c] ([c].intercalate ps) = ps := by
  induction ps with
  | nil => exact absurd rfl filled
  | cons p ps ih =>
    obtain ⟨own, others⟩ := List.forall_mem_cons.mp clear
    cases ps with
    | nil =>
      rw [List.intercalate_singleton]
      exact splitAllChars_of_not_mem own
    | cons q ps =>
      have cut := splitAllChars_cons own ([c].intercalate (q :: ps))
      rw [ih (List.cons_ne_nil q ps) others] at cut
      rw [List.intercalate_cons_cons, List.append_assoc]
      exact cut

theorem slash_toList : "/".toList = ['/'] := by decide +kernel

theorem splitAll_joinWith {ps : List String} (filled : ps ≠ []) (clear : ∀ p ∈ ps, '/' ∉ p.toList) :
    splitAll "/" (joinWith "/" ps) = ps := by
  rw [splitAll, joinWith, slash_toList, String.toList_intercalate, slash_toList,
    splitAllChars_intercalate (by simpa using filled) (List.forall_mem_map.mpr clear)]
  simp [Function.comp_def]

theorem not_slash_of_mem_splitAll {s p : String} (member : p ∈ splitAll "/" s) : '/' ∉ p.toList := by
  obtain ⟨cs, inside, rfl⟩ := List.mem_map.mp member
  rw [slash_toList] at inside
  rw [String.toList_ofList]
  exact not_mem_of_mem_splitAllChars inside

theorem splitAll_absolute {s : String} (absolute : Path.isAbsolute s = true) :
    ∃ rest, splitAll "/" s = "" :: rest := by
  obtain ⟨cs, lead⟩ := Option.isSome_iff_exists.mp absolute
  have whole : s.toList = [] ++ '/' :: cs := by
    rw [dropLead?_eq_some_iff.mp lead, slash_toList]
    rfl
  refine ⟨(splitAllChars ['/'] cs).map String.ofList, ?_⟩
  rw [splitAll, slash_toList, whole, splitAllChars_cons (by simp)]
  rfl

end Text

namespace FileTree

def IsName (n : String) : Prop := n ≠ "" ∧ '/' ∉ n.toList
deriving Decidable

theorem splitAll_key {place : Place} (names : ∀ n ∈ place, IsName n) (filled : place ≠ []) :
    Text.splitAll "/" (key place) = place :=
  Text.splitAll_joinWith filled fun n member => (names n member).2

theorem key_injective {p q : Place} (names : ∀ n ∈ p, IsName n) (others : ∀ n ∈ q, IsName n) (same : key p = key q) :
    p = q := by
  -- The key of the root is also that of one empty name, which no place has.
  have root : ∀ {q : Place}, (∀ n ∈ q, IsName n) → key q = key [] → q = [] := by
    intro q names same
    by_contra filled
    have cut := splitAll_key names filled
    have nothing : Text.splitAll "/" (key []) = [""] := by
      rw [key, Text.joinWith, String.intercalate_nil, Text.splitAll, Text.slash_toList,
        Text.splitAllChars_of_not_mem (by simp)]
      rfl
    rw [same, nothing] at cut
    exact (names "" (cut ▸ List.mem_singleton_self "")).1 rfl
  by_cases empty : p = []
  · subst empty
    exact (root others same.symm).symm
  · by_cases bare : q = []
    · subst bare
      exact root names same
    · rw [← splitAll_key names empty, same, splitAll_key others bare]

end FileTree

namespace Path

def names (path : String) : List String := (Text.splitAll "/" path).filter fun n => n ≠ "" ∧ n ≠ "."

theorem isName_of_mem_names {path n : String} (member : n ∈ names path) : FileTree.IsName n := by
  obtain ⟨inside, solid⟩ := List.mem_filter.mp member
  exact ⟨(of_decide_eq_true solid).1, Text.not_slash_of_mem_splitAll inside⟩

theorem components_absolute {path : String} (absolute : isAbsolute path = true) : components path = (true, names path) :=
  if_pos absolute

theorem same_iff {p q : String} (absolute : isAbsolute p = true) (other : isAbsolute q = true) :
    same p q = true ↔ names p = names q := by
  rw [same, components_absolute absolute, components_absolute other, beq_iff_eq, Prod.mk.injEq]
  exact and_iff_right rfl

theorem isWithin_iff {p q : String} (absolute : isAbsolute p = true) (other : isAbsolute q = true) :
    isWithin p q = true ↔ names p <+: names q := by
  simp [isWithin, components_absolute absolute, components_absolute other]

/-- An absolute path that is walked down by its names alone, none of them too long for a file system. -/
structure Straight (path : String) : Prop where
  absolute : isAbsolute path = true
  steps : FileTree.steps path = names path
  down : ∀ n ∈ names path, n ≠ ".."
  short : ∀ n ∈ names path, n.utf8ByteSize ≤ FileTree.maxName
  whole : path.utf8ByteSize ≤ FileTree.maxPath
  clean : path.toList.contains '\x00' = false

instance (path : String) : Decidable (Straight path) :=
  decidable_of_iff (isAbsolute path = true ∧ FileTree.steps path = names path ∧ (∀ n ∈ names path, n ≠ "..") ∧
      (∀ n ∈ names path, n.utf8ByteSize ≤ FileTree.maxName) ∧ path.utf8ByteSize ≤ FileTree.maxPath ∧
      path.toList.contains '\x00' = false)
    ⟨fun ⟨absolute, steps, down, short, whole, clean⟩ => ⟨absolute, steps, down, short, whole, clean⟩,
      fun ⟨absolute, steps, down, short, whole, clean⟩ => ⟨absolute, steps, down, short, whole, clean⟩⟩

theorem not_dot_of_mem_names {path n : String} (member : n ∈ names path) : n ≠ "." :=
  (of_decide_eq_true (List.mem_filter.mp member).2).2

theorem Straight.ne_empty {path : String} (straight : Straight path) : path ≠ "" := by
  rintro rfl
  exact absurd straight.absolute (by decide +kernel)

def idle (p : String) : Bool := p = "" || p = "."

theorem dropEmptyTail_absolute (parts : List String) : dropEmptyTail true parts = parts.rdropWhile idle := by
  simp only [dropEmptyTail, Bool.not_true, Bool.and_false, Bool.false_and, Bool.false_eq_true, if_false]
  rfl

theorem names_eq (path : String) : names path = (Text.splitAll "/" path).filter fun n => !idle n := by
  simp [names, idle]

theorem filter_rdropWhile (parts : List String) :
    (parts.rdropWhile idle).filter (fun n => !idle n) = parts.filter fun n => !idle n := by
  induction parts using List.reverseRecOn with
  | nil => rfl
  | append_singleton parts p ih =>
    by_cases dropped : idle p = true
    · rw [List.rdropWhile_concat_pos _ _ _ dropped, ih, List.filter_append]
      simp [dropped]
    · rw [List.rdropWhile_concat_neg _ _ _ dropped]

theorem names_joinWith {parts : List String} (filled : parts ≠ []) (clear : ∀ p ∈ parts, '/' ∉ p.toList) :
    names (Text.joinWith "/" parts) = parts.filter fun n => !idle n := by
  rw [names_eq, Text.splitAll_joinWith filled clear]

theorem isAbsolute_joinWith (part : String) (rest : List String) :
    isAbsolute (Text.joinWith "/" ("" :: part :: rest)) = true := by
  have lead : (Text.joinWith "/" ("" :: part :: rest)).toList =
      "/".toList ++ (Text.joinWith "/" (part :: rest)).toList := by
    simp [Text.joinWith, String.intercalate_cons_cons]
  exact Option.isSome_iff_exists.mpr ⟨_, Text.dropLead?_eq_some_iff.mpr lead⟩

theorem parent?_absolute {path : String} {ps : List String} {p : String} (absolute : isAbsolute path = true)
    (kept : (Text.splitAll "/" path).rdropWhile idle = ps ++ [p]) :
    parent? path = some (if (ps.rdropWhile idle).isEmpty then "/" else Text.joinWith "/" (ps.rdropWhile idle)) := by
  unfold parent?
  simp only [absolute, dropEmptyTail_absolute, kept, Bool.true_and]
  split
  · simp_all
  · simp

theorem parent?_some {path : String} (absolute : isAbsolute path = true) (filled : names path ≠ []) :
    ∃ up, parent? path = some up := by
  cases kept : (Text.splitAll "/" path).rdropWhile idle using List.reverseRecOn with
  | nil =>
    have whole := filter_rdropWhile (Text.splitAll "/" path)
    rw [kept, ← names_eq] at whole
    exact absurd whole.symm filled
  | append_singleton ps p => exact ⟨_, parent?_absolute absolute kept⟩

theorem parent?_names {path up : String} (absolute : isAbsolute path = true) (above : parent? path = some up) :
    isAbsolute up = true ∧ names up = (names path).dropLast := by
  obtain ⟨rest, parts⟩ := Text.splitAll_absolute absolute
  have front : (Text.splitAll "/" path).rdropWhile idle <+: Text.splitAll "/" path := List.rdropWhile_prefix _ _
  have last := List.rdropWhile_last_not idle (Text.splitAll "/" path)
  have whole := (filter_rdropWhile (Text.splitAll "/" path)).trans (names_eq path).symm
  cases kept : (Text.splitAll "/" path).rdropWhile idle using List.reverseRecOn with
  | nil =>
    simp [parent?, absolute, dropEmptyTail_absolute, kept] at above
  | append_singleton ps p =>
    rw [parent?_absolute absolute kept, Option.some.injEq] at above
    rw [kept] at front last whole
    have solid : idle p = false := by simpa using last (by simp)
    have shorter : names path = (ps.filter fun n => !idle n) ++ [p] := by
      rw [← whole, List.filter_append]
      simp [solid]
    rw [shorter, List.dropLast_concat, ← filter_rdropWhile, ← above]
    have inside : ps.rdropWhile idle <+: Text.splitAll "/" path :=
      (List.rdropWhile_prefix _ _).trans ((List.prefix_append ps [p]).trans front)
    have named := List.rdropWhile_last_not idle ps
    generalize ps.rdropWhile idle = more at inside named
    have clear : ∀ n ∈ more, '/' ∉ n.toList := fun n member => Text.not_slash_of_mem_splitAll (inside.subset member)
    rcases more with _ | ⟨first, _ | ⟨second, more⟩⟩
    · exact ⟨by decide +kernel, by decide +kernel⟩
    · -- The part in front of the first slash is empty, and so cannot be the last one.
      rw [parts] at inside
      obtain rfl := (List.cons_prefix_cons.mp inside).1
      exact absurd rfl (named (List.cons_ne_nil _ _))
    · rw [parts] at inside
      obtain rfl := (List.cons_prefix_cons.mp inside).1
      exact ⟨isAbsolute_joinWith _ _, names_joinWith (List.cons_ne_nil _ _) clear⟩

end Path

end Provision

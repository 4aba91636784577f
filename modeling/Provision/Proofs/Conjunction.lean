import Provision.Proofs.SearchText
import Provision.Proofs.TermValues

namespace Provision.Filter

open Text (isBlank trimChars trimStartChars trimEndChars splitAllChars)

variable {cs a b p z : List Char} {ps qs : List (List Char)} {ts : List Term}

theorem termsOf_eq_ok : termsOf ps = .ok ts ↔
    List.Forall₂ (fun p t => parseTerm (String.ofList p) = .ok t) ps ts := by
  unfold termsOf
  induction ps generalizing ts with
  | nil =>
    rw [List.mapM_nil, List.forall₂_nil_left_iff]
    exact ⟨fun same => (Except.ok.inj same).symm, fun same => congrArg Except.ok same.symm⟩
  | cons p ps ih =>
    rw [List.mapM_cons, List.forall₂_cons_left_iff]
    constructor
    · intro all
      obtain ⟨t, first, all⟩ := bind_eq_ok.mp all
      obtain ⟨more, later, same⟩ := bind_eq_ok.mp all
      cases same
      exact ⟨t, more, first, ih.mp later, rfl⟩
    · rintro ⟨t, more, first, later, rfl⟩
      exact bind_eq_ok.mpr ⟨t, first, bind_eq_ok.mpr ⟨more, ih.mpr later, rfl⟩⟩

theorem termsOf_length (all : termsOf ps = .ok ts) : ts.length = ps.length := (termsOf_eq_ok.mp all).length_eq.symm

theorem colon_of_parseTerm {t : Term} (parsed : parseTerm (String.ofList p) = .ok t) : ':' ∈ p := by
  by_contra none
  obtain ⟨e, failed⟩ := parseTerm_keyless none
  cases failed.symm.trans parsed

theorem colon_of_termsOf (all : termsOf ps = .ok ts) : ∀ p ∈ ps, ':' ∈ p := by
  have each := termsOf_eq_ok.mp all
  clear all
  induction each with
  | nil => simp
  | cons parsed _ ih => exact List.forall_mem_cons.mpr ⟨colon_of_parseTerm parsed, ih⟩

theorem termsOf_append_ok : termsOf (ps ++ qs) = .ok ts ↔
    ∃ first second, termsOf ps = .ok first ∧ termsOf qs = .ok second ∧ ts = first ++ second := by
  rw [termsOf_append]
  constructor
  · intro all
    obtain ⟨first, one, all⟩ := bind_eq_ok.mp all
    obtain ⟨second, two, same⟩ := bind_eq_ok.mp all
    cases same
    exact ⟨first, second, one, two, rfl⟩
  · rintro ⟨first, second, one, two, rfl⟩
    exact bind_eq_ok.mpr ⟨first, one, bind_eq_ok.mpr ⟨second, two, rfl⟩⟩

/-- The terms of a text that is put together from two, neither of which is cut at the seam. -/
theorem terms_joined {first second : List Term} (shut : ¬ EndsOpen (a ++ z)) (blank : Blank z)
    {y : List Char} (spaced : Blank y) (started : ¬ StartsOpen (y ++ b))
    (one : termsOf (splitAllChars conj a) = .ok first) (two : termsOf (splitAllChars conj b) = .ok second) :
    termsOf (splitAllChars conj (a ++ z ++ conj ++ (y ++ b))) = .ok (first ++ second) := by
  obtain ⟨qs, behind, same⟩ := (cut_split b).pad_start spaced started
  obtain ⟨rs, cut, parts⟩ := (cut_split a).join behind blank shut
  rw [cut.split, ← termsOf_trim, parts, same, termsOf_append_ok]
  exact ⟨first, second, by rwa [termsOf_trim], by rwa [termsOf_trim], rfl⟩

theorem keyless_between {k : List Char} (none : ':' ∉ k) :
    termsOf (splitAllChars conj (a ++ conj ++ (k ++ conj ++ b))) ≠ .ok ts := by
  intro all
  obtain ⟨init, qs, parts, -, behind⟩ := (cut_split (a ++ conj ++ (k ++ conj ++ b))).seam
  have colons := colon_of_termsOf all
  rw [parts] at colons
  rcases behind with behind | behind
  · obtain ⟨p, more, rfl⟩ := List.exists_cons_of_ne_nil behind.ne_nil
    exact none (behind.head_prefix.subset (colons p (by simp)))
  · obtain ⟨p, more, rfl⟩ := List.exists_cons_of_ne_nil behind.ne_nil
    rw [← List.append_assoc, ← List.append_assoc] at behind
    have inside := behind.head_prefix.subset (colons p (by simp))
    simp [none] at inside

theorem Cut.head_of (cut : Cut cs (p :: ps)) : p <+: cs := by
  generalize parts : p :: ps = qs at cut
  cases cut with
  | last clear =>
    cases parts
    exact List.prefix_rfl
  | part clear later =>
    cases parts
    rw [List.append_assoc]
    exact List.prefix_append _ _

theorem first_path {t : Term} {u v : List Char} (all : termsOf (splitAllChars conj (u ++ ':' :: v)) = .ok (t :: ts))
    (none : ':' ∉ u) : t.path = Text.trim (String.ofList u) := by
  obtain ⟨p, ps, parts⟩ := List.exists_cons_of_ne_nil (cut_split (u ++ ':' :: v)).ne_nil
  have cut := cut_split (u ++ ':' :: v)
  rw [parts] at all cut
  obtain ⟨rest, whole⟩ := cut.head_of
  obtain ⟨x, y, rfl, first⟩ := List.eq_append_cons_of_mem (colon_of_termsOf all p List.mem_cons_self)
  rw [List.append_assoc, List.cons_append] at whole
  obtain ⟨rfl, -⟩ := colon_unique first none whole
  cases termsOf_eq_ok.mp all with
  | cons parsed _ =>
    rw [parseTerm_colon none] at parsed
    cases parsed
    rfl

theorem count_trim {c : Char} (solid : isBlank c = false) (cs : List Char) : (trimChars cs).count c = cs.count c := by
  obtain ⟨lead, after, whole, before, behind⟩ := Text.trimChars_parts cs
  have absent : ∀ blanks : List Char, Blank blanks → blanks.count c = 0 := fun blanks blank =>
    List.count_eq_zero.mpr fun member => by simp [blank c member] at solid
  conv_rhs => rw [whole]
  rw [List.count_append, List.count_append, absent lead before, absent after behind]
  simp

theorem colon_of_text (all : termsOf (splitAllChars conj cs) = .ok ts) : ':' ∈ cs := by
  obtain ⟨p, ps, parts⟩ := List.exists_cons_of_ne_nil (cut_split cs).ne_nil
  have cut := cut_split cs
  rw [parts] at all cut
  exact cut.head_of.subset (colon_of_termsOf all p List.mem_cons_self)

theorem terms_ne_nil (all : termsOf (splitAllChars conj cs) = .ok ts) : ts ≠ [] := by
  rintro rfl
  exact (cut_split cs).ne_nil (List.length_eq_zero_iff.mp (termsOf_length all).symm)

theorem not_blank_of_colon (blank : Blank z) : ':' ∉ z := fun member => by
  have solid : isBlank ':' = false := by decide
  rw [blank ':' member] at solid
  cases solid

/-- The rest of a place to cut goes to the path of the term behind it. -/
theorem misled (blank : Blank z) (own : termsOf (splitAllChars conj b) = .ok ts) :
    termsOf (splitAllChars conj (['A', 'N', 'D', ' '] ++ (z ++ b))) ≠ .ok ts := by
  intro all
  obtain ⟨t, more, rfl⟩ := List.exists_cons_of_ne_nil (terms_ne_nil own)
  obtain ⟨u, v, rfl, none⟩ := List.eq_append_cons_of_mem (colon_of_text own)
  have whole : ['A', 'N', 'D', ' '] ++ (z ++ (u ++ ':' :: v)) = (['A', 'N', 'D', ' '] ++ z ++ u) ++ ':' :: v := by simp
  rw [whole] at all
  have longer := first_path all (by simp [none, not_blank_of_colon blank])
  have path := first_path own none
  -- The path has one `A` more.
  have counts := congrArg (fun s : String => s.toList.count 'A') (path.symm.trans longer)
  rw [Text.trim, Text.trim, String.toList_ofList, String.toList_ofList, String.toList_ofList, String.toList_ofList,
    count_trim (by decide), count_trim (by decide)] at counts
  simp only [List.count_append] at counts
  have one : ['A', 'N', 'D', ' '].count 'A' = 1 := by decide
  omega

theorem Cut.single (cut : Cut cs [p]) : p = cs := by
  generalize parts : [p] = ps at cut
  cases cut with
  | last => exact (List.cons.inj parts).1
  | part _ later => exact absurd (List.cons.inj parts).2.symm later.ne_nil

theorem exists_last_term (all : termsOf (splitAllChars conj cs) = .ok ts) :
    ∃ front init p before t, cs = front ++ p ∧ Cut cs (init ++ [p]) ∧ ¬ conj <:+: p ∧ termsOf init = .ok before ∧
      parseTerm (String.ofList p) = .ok t ∧ ts = before ++ [t] := by
  have cut := cut_split cs
  obtain ⟨front, init, p, whole, parts, clear⟩ := cut.exists_last
  rw [parts] at all cut
  obtain ⟨before, last, first, one, rfl⟩ := termsOf_append_ok.mp all
  cases termsOf_eq_ok.mp one with
  | cons parsed none =>
    cases none
    exact ⟨front, init, p, before, _, whole, cut, clear, first, parsed, rfl⟩

theorem parseTerm_prolonged {t : Term} (parsed : parseTerm (String.ofList p) = .ok t) (z : List Char) :
    parseTerm (String.ofList (p ++ (z ++ [' ', 'A', 'N', 'D']))) ≠ .ok t := by
  intro again
  obtain ⟨u, v, rfl, none⟩ := List.eq_append_cons_of_mem (colon_of_parseTerm parsed)
  obtain ⟨blanks, value⟩ := List.rdropWhile_prefix isBlank v
  have goesOn : u ++ ':' :: v ++ (z ++ [' ', 'A', 'N', 'D']) =
      u ++ ':' :: (v ++ z ++ [' ', 'A', 'N'] ++ 'D' :: []) := by simp
  have grown : trimEndChars (v ++ z ++ [' ', 'A', 'N'] ++ 'D' :: []) =
      trimEndChars v ++ ((blanks ++ z ++ [' ', 'A', 'N']) ++ ['D']) := by
    rw [trimEnd_solid (by decide)]
    conv_lhs => rw [← value]
    simp [trimEndChars, List.rdropWhile]
  rw [goesOn, parseTerm_colon none, grown] at again
  rw [parseTerm_colon none] at parsed
  exact termValue_ne ⟨_, rfl⟩ (congrArg Term.value (Except.ok.inj (again.trans parsed.symm)))

theorem prolonged (own : termsOf (splitAllChars conj a) = .ok ts) (z : List Char) :
    termsOf (splitAllChars conj (a ++ (z ++ [' ', 'A', 'N', 'D']))) ≠ .ok ts := by
  intro all
  obtain ⟨front, init, p, before, t, -, cut, -, first, parsed, rfl⟩ := exists_last_term own
  rw [(cut.extend (cut_split (p ++ (z ++ [' ', 'A', 'N', 'D'])))).split, termsOf_append_ok] at all
  obtain ⟨again, last, same, behind, ends⟩ := all
  cases first.symm.trans same
  obtain rfl := List.append_cancel_left ends
  -- The last part has grown, and is still one.
  obtain ⟨whole, alone⟩ := List.length_eq_one_iff.mp (termsOf_length behind).symm
  have longer := cut_split (p ++ (z ++ [' ', 'A', 'N', 'D']))
  rw [alone] at longer behind
  obtain rfl := longer.single
  cases termsOf_eq_ok.mp behind with
  | cons reparsed _ => exact parseTerm_prolonged parsed z reparsed

theorem keyless_end {x w : List Char} (same : a ++ b = x ++ w) (colon : ':' ∈ b) (none : ':' ∉ w) :
    ∃ y, b = y ++ w := by
  rcases List.append_eq_append_iff.mp same with ⟨y, -, behind⟩ | ⟨y, -, inside⟩
  · exact ⟨y, behind⟩
  · rw [inside] at none
    exact absurd (List.mem_append_right y colon) none

/-- Where the first text ends in ` AND`, what is left of the seam goes to the second. -/
theorem merged {first second : List Term} {x y : List Char} (blank : Blank y)
    (one : termsOf (splitAllChars conj a) = .ok first) (ends : a = x ++ [' ', 'A', 'N', 'D'])
    (two : second = [] ∨ termsOf (splitAllChars conj b) = .ok second) :
    termsOf (splitAllChars conj (a ++ (conj ++ (y ++ b)))) ≠ .ok (first ++ second) := by
  intro all
  obtain ⟨front, init, p, before, t, rfl, cut, clear, known, parsed, rfl⟩ := exists_last_term one
  -- The last part has a colon, so it is the part that ends in ` AND`.
  obtain ⟨p₀, rfl⟩ := keyless_end ends (colon_of_parseTerm parsed) (by decide)
  have shorter : ¬ conj <:+: p₀ ++ [' '] := fun inside =>
    clear (inside.trans ⟨[], ['A', 'N', 'D'], by simp⟩)
  have behind : Cut (p₀ ++ [' ', 'A', 'N', 'D'] ++ (conj ++ (y ++ b)))
      (p₀ :: splitAllChars conj (['A', 'N', 'D', ' '] ++ (y ++ b))) := by
    have whole : p₀ ++ [' ', 'A', 'N', 'D'] ++ (conj ++ (y ++ b)) =
        p₀ ++ conj ++ (['A', 'N', 'D', ' '] ++ (y ++ b)) := by simp [conj]
    rw [whole]
    exact .part shorter (cut_split _)
  rw [(cut.extend behind).split, List.append_cons, termsOf_append_ok] at all
  obtain ⟨again, rest, some, left, same⟩ := all
  have lengths : again.length = (before ++ [t]).length := by
    have upTo := termsOf_length known
    have all := termsOf_length some
    simp only [List.length_append, List.length_singleton] at all ⊢
    omega
  obtain ⟨-, rfl⟩ := List.append_inj same.symm lengths
  rcases two with rfl | own
  · exact terms_ne_nil left rfl
  · exact misled blank own left

theorem trimmed_between (first : trimChars a = a) (filled : a ≠ []) (last : trimChars b = b) (filled_ : b ≠ [])
    (x : List Char) : trimChars (a ++ x ++ b) = a ++ x ++ b := by
  obtain ⟨start, -⟩ := Text.trimmed_ends first
  obtain ⟨-, final⟩ := Text.trimmed_ends last
  have front : trimStartChars (a ++ x ++ b) = a ++ x ++ b := by
    unfold trimStartChars at start ⊢
    rw [List.append_assoc, List.dropWhile_append, start, if_neg (by simpa using filled)]
  rw [trimChars, front]
  exact (Text.trimEndChars_append_iff _ filled_).mpr final

/-- A query as its text and the blanks around it. -/
structure Around (query : String) (lead text rest : List Char) : Prop where
  whole : query.toList = lead ++ (text ++ rest)
  before : Blank lead
  after : Blank rest
  trimmed : trimChars text = text

theorem exists_around (query : String) : ∃ lead text rest, Around query lead text rest := by
  obtain ⟨lead, rest, whole, before, after⟩ := Text.trimChars_parts query.toList
  exact ⟨lead, _, rest, whole, before, after, Text.trimChars_idem _⟩

section

variable {q q₁ q₂ : String} {lead text rest l₁ s₁ e₁ l₂ s₂ e₂ : List Char}

theorem Around.trim_eq (around : Around q lead text rest) : trimChars q.toList = text := by
  rw [around.whole, trim_padded around.before around.after around.trimmed]

theorem Around.asked_eq (around : Around q lead text rest) : asked q = termsOf (splitAllChars conj text) := by
  rw [asked, around.trim_eq]

theorem Around.asksNothing_iff (around : Around q lead text rest) :
    AsksNothing q ↔ text = [] ∨ text = ['*', ':', '*'] := by
  have star : "*:*".toList = ['*', ':', '*'] := by decide +kernel
  rw [AsksNothing, ← String.toList_inj, ← String.toList_inj, Text.trim, String.toList_ofList, around.trim_eq, star]
  rfl

/-- Both texts ask for something, and around the seam there is one place to cut. -/
structure Joinable (q₁ q₂ : String) : Prop where
  first : ¬ AsksNothing q₁
  second : ¬ AsksNothing q₂
  ended : ¬ EndsOpen q₁.toList
  started : ¬ StartsOpen q₂.toList

theorem joined_toList (q₁ q₂ : String) : (q₁ ++ " AND " ++ q₂).toList = q₁.toList ++ conj ++ q₂.toList := by
  rw [String.toList_append, String.toList_append, conj_toList]

theorem joined_asks (q₁ q₂ : String) : ¬ AsksNothing (q₁ ++ " AND " ++ q₂) := by
  obtain ⟨lead, text, rest, around⟩ := exists_around (q₁ ++ " AND " ++ q₂)
  have counts := count_trim (c := 'A') (by decide) (q₁ ++ " AND " ++ q₂).toList
  have one : conj.count 'A' = 1 := by decide
  rw [around.trim_eq, joined_toList, List.count_append, List.count_append, one] at counts
  have some : text.count 'A' ≠ 0 := by omega
  rw [around.asksNothing_iff]
  rintro (rfl | rfl) <;> exact some (by decide)

theorem Around.joined (first : Around q₁ l₁ s₁ e₁) (second : Around q₂ l₂ s₂ e₂) (filled₁ : s₁ ≠ [])
    (filled₂ : s₂ ≠ []) :
    asked (q₁ ++ " AND " ++ q₂) = termsOf (splitAllChars conj (s₁ ++ e₁ ++ conj ++ (l₂ ++ s₂))) := by
  have inner := trimmed_between first.trimmed filled₁ second.trimmed filled₂ (e₁ ++ conj ++ l₂)
  have parts : s₁ ++ (e₁ ++ conj ++ l₂) ++ s₂ = s₁ ++ e₁ ++ conj ++ (l₂ ++ s₂) := by simp
  rw [parts] at inner
  have whole : (q₁ ++ " AND " ++ q₂).toList = l₁ ++ ((s₁ ++ e₁ ++ conj ++ (l₂ ++ s₂)) ++ e₂) := by
    rw [joined_toList, first.whole, second.whole]
    simp
  exact Around.asked_eq ⟨whole, first.before, second.after, inner⟩

theorem Around.not_endsOpen (around : Around q lead text rest) (ended : ¬ EndsOpen q.toList) :
    ¬ EndsOpen (text ++ rest) := by
  rintro ⟨front, blanks, blank, same⟩
  refine ended ⟨lead ++ front, blanks, blank, ?_⟩
  rw [around.whole, List.append_assoc, same]
  simp

theorem Around.not_startsOpen (around : Around q lead text rest) (started : ¬ StartsOpen q.toList) :
    ¬ StartsOpen (lead ++ text) := by
  rintro ⟨blanks, more, blank, same⟩
  refine started ⟨blanks, more ++ rest, blank, ?_⟩
  rw [around.whole, ← List.append_assoc, same]
  simp

theorem asked_joined {first second : List Term} (ended : ¬ EndsOpen q₁.toList) (started : ¬ StartsOpen q₂.toList)
    (one : asked q₁ = .ok first) (two : asked q₂ = .ok second) :
    asked (q₁ ++ " AND " ++ q₂) = .ok (first ++ second) := by
  obtain ⟨l₁, s₁, e₁, left⟩ := exists_around q₁
  obtain ⟨l₂, s₂, e₂, right⟩ := exists_around q₂
  rw [left.asked_eq] at one
  rw [right.asked_eq] at two
  rw [left.joined right (List.ne_nil_of_mem (colon_of_text one)) (List.ne_nil_of_mem (colon_of_text two))]
  exact terms_joined (left.not_endsOpen ended) left.after right.before (right.not_startsOpen started) one two

variable {f₁ f₂ : Filter}

theorem Around.terms_cases {f : Filter} (around : Around q lead text rest) (parsed : parse q = .ok f) :
    f.terms = [] ∨ termsOf (splitAllChars conj text) = .ok f.terms := by
  rcases parse_cases parsed with ⟨-, none⟩ | ⟨-, all⟩
  · exact Or.inl none
  · exact Or.inr (around.asked_eq ▸ all)

theorem Around.exists_asked {f : Filter} (around : Around q lead text rest) (filled : text ≠ [])
    (parsed : parse q = .ok f) :
    ∃ ts, asked q = .ok ts ∧ f.terms.length ≤ ts.length ∧ (AsksNothing q → f.terms.length < ts.length) := by
  rcases parse_cases parsed with ⟨nothing, none⟩ | ⟨asks, all⟩
  · obtain rfl := (around.asksNothing_iff.mp nothing).resolve_left filled
    have alone : splitAllChars conj ['*', ':', '*'] = [['*', ':', '*']] := Cut.split (.last (by decide))
    obtain ⟨t, star⟩ : ∃ t, parseTerm (String.ofList ['*', ':', '*']) = .ok t :=
      ⟨_, parseTerm_colon (u := ['*']) (by decide) ['*']⟩
    refine ⟨[t], ?_, by simp [none]⟩
    rw [around.asked_eq, alone, termsOf_eq_ok]
    exact .cons star .nil
  · exact ⟨f.terms, all, le_rfl, fun nothing => absurd nothing asks⟩

theorem blank_first (first : Around q₁ l₁ [] e₁) (second : Around q₂ l₂ s₂ e₂) (parsed : parse q₂ = .ok f₂) :
    asked (q₁ ++ " AND " ++ q₂) ≠ .ok f₂.terms := by
  intro all
  have front : Blank (l₁ ++ e₁ ++ [' ']) :=
    blank_append.mpr ⟨blank_append.mpr ⟨first.before, first.after⟩, blank_space⟩
  by_cases blank : s₂ = []
  · subst blank
    have behind : Blank (' ' :: (l₂ ++ e₂)) :=
      blank_append (a := [' ']).mpr ⟨blank_space, blank_append.mpr ⟨second.before, second.after⟩⟩
    have whole : (q₁ ++ " AND " ++ q₂).toList = (l₁ ++ e₁ ++ [' ']) ++ (['A', 'N', 'D'] ++ ' ' :: (l₂ ++ e₂)) := by
      rw [joined_toList, first.whole, second.whole]
      simp [conj]
    rw [Around.asked_eq ⟨whole, front, behind, by decide⟩] at all
    exact absurd (colon_of_text all) (by decide)
  · have inner := trimmed_between (a := ['A', 'N', 'D']) (by decide) (by decide) second.trimmed blank (' ' :: l₂)
    have parts : ['A', 'N', 'D'] ++ ' ' :: l₂ ++ s₂ = ['A', 'N', 'D', ' '] ++ (l₂ ++ s₂) := by simp
    have whole : (q₁ ++ " AND " ++ q₂).toList = (l₁ ++ e₁ ++ [' ']) ++ (['A', 'N', 'D'] ++ ' ' :: l₂ ++ s₂ ++ e₂) := by
      rw [joined_toList, first.whole, second.whole]
      simp [conj]
    rw [Around.asked_eq ⟨whole, front, second.after, inner⟩, parts] at all
    rcases second.terms_cases parsed with none | own
    · exact terms_ne_nil all none
    · exact misled second.before own all

theorem blank_second (first : Around q₁ l₁ s₁ e₁) (second : Around q₂ l₂ [] e₂) (filled : s₁ ≠ [])
    (parsed : parse q₁ = .ok f₁) : asked (q₁ ++ " AND " ++ q₂) ≠ .ok f₁.terms := by
  intro all
  have behind : Blank (' ' :: (l₂ ++ e₂)) :=
    blank_append (a := [' ']).mpr ⟨blank_space, blank_append.mpr ⟨second.before, second.after⟩⟩
  have inner := trimmed_between first.trimmed filled (b := ['A', 'N', 'D']) (by decide) (by decide) (e₁ ++ [' '])
  have parts : s₁ ++ (e₁ ++ [' ']) ++ ['A', 'N', 'D'] = s₁ ++ (e₁ ++ [' ', 'A', 'N', 'D']) := by simp
  have whole : (q₁ ++ " AND " ++ q₂).toList =
      l₁ ++ (s₁ ++ (e₁ ++ [' ']) ++ ['A', 'N', 'D'] ++ ' ' :: (l₂ ++ e₂)) := by
    rw [joined_toList, first.whole, second.whole]
    simp [conj]
  rw [Around.asked_eq ⟨whole, first.before, behind, inner⟩, parts] at all
  rcases first.terms_cases parsed with none | own
  · exact terms_ne_nil all none
  · exact prolonged own e₁ all

theorem started_fails (first : Around q₁ l₁ s₁ e₁) (second : Around q₂ l₂ s₂ e₂) (filled : s₁ ≠ [])
    (colon : ':' ∈ s₂) (started : StartsOpen q₂.toList) : asked (q₁ ++ " AND " ++ q₂) ≠ .ok ts := by
  obtain ⟨blanks, rest, blank, same⟩ := started
  rw [second.whole, ← List.append_assoc] at same
  obtain ⟨x, inside⟩ : ∃ x, l₂ ++ s₂ = blanks ++ conj ++ x := by
    rcases List.append_eq_append_iff.mp same with ⟨x, short, -⟩ | ⟨x, long, -⟩
    · have member : ':' ∈ blanks ++ conj := by
        rw [short]
        exact List.mem_append_left x (List.mem_append_right l₂ colon)
      rcases List.mem_append.mp member with inside | inside
      · exact absurd inside (not_blank_of_colon blank)
      · exact absurd inside (by decide)
    · exact ⟨x, long⟩
  rw [first.joined second filled (List.ne_nil_of_mem colon), inside]
  exact keyless_between (not_blank_of_colon blank)

theorem ended_fails (first : Around q₁ l₁ s₁ e₁) (second : Around q₂ l₂ s₂ e₂) (colon : ':' ∈ s₁) (filled : s₂ ≠ [])
    (parsed₁ : parse q₁ = .ok f₁) (parsed₂ : parse q₂ = .ok f₂) (ended : EndsOpen q₁.toList) :
    asked (q₁ ++ " AND " ++ q₂) ≠ .ok (f₁.terms ++ f₂.terms) := by
  obtain ⟨front, blanks, blank, same⟩ := ended
  rw [first.joined second (List.ne_nil_of_mem colon) filled]
  rw [first.whole] at same
  have inside : ':' ∈ s₁ ++ e₁ := List.mem_append_left e₁ colon
  rcases blanks.eq_nil_or_concat with rfl | ⟨most, c, rfl⟩
  · have last : front ++ conj ++ [] = front ++ [' ', 'A', 'N', 'D'] ++ [' '] := by simp [conj]
    rw [last] at same
    obtain ⟨x, text⟩ := keyless_end (List.append_cancel_right same) inside (by decide)
    -- The blanks behind the text do not end in a letter, so there are none.
    have none : e₁ = [] := by
      rcases e₁.eq_nil_or_concat with rfl | ⟨es, c, rfl⟩
      · rfl
      · have letter : x ++ [' ', 'A', 'N', 'D'] = (x ++ [' ', 'A', 'N']) ++ ['D'] := by simp
        rw [List.concat_eq_append, ← List.append_assoc, letter] at text
        obtain rfl : c = 'D' := (List.cons.inj (List.append_inj' text rfl).2).1
        exact absurd (first.after 'D' (by simp)) (by decide)
    subst none
    rw [List.append_nil] at text ⊢
    rw [List.append_assoc]
    rcases parse_cases parsed₁ with ⟨nothing, -⟩ | ⟨-, own⟩
    · have star := (first.asksNothing_iff.mp nothing).resolve_left (List.ne_nil_of_mem colon)
      have lengths := congrArg List.length (star.symm.trans text)
      simp at lengths
    · exact merged second.before (first.asked_eq ▸ own) text (second.terms_cases parsed₂)
  · obtain ⟨front_, last⟩ := blank_append.mp (List.concat_eq_append ▸ blank)
    have most_ : l₁ ++ (s₁ ++ e₁) ++ [' '] = (front ++ (conj ++ most)) ++ [c] := by
      rw [same]
      simp
    obtain ⟨text, -⟩ := List.append_inj' most_ rfl
    obtain ⟨x, behind⟩ := keyless_end text inside (by simp [not_blank_of_colon front_]; decide)
    have cut : s₁ ++ e₁ ++ conj ++ (l₂ ++ s₂) = x ++ conj ++ (most ++ conj ++ (l₂ ++ s₂)) := by
      rw [behind]
      simp
    rw [cut]
    exact keyless_between (not_blank_of_colon front_)

theorem joinable_of_terms (parsed₁ : parse q₁ = .ok f₁) (parsed₂ : parse q₂ = .ok f₂)
    (joined : asked (q₁ ++ " AND " ++ q₂) = .ok (f₁.terms ++ f₂.terms)) : Joinable q₁ q₂ := by
  obtain ⟨l₁, s₁, e₁, first⟩ := exists_around q₁
  obtain ⟨l₂, s₂, e₂, second⟩ := exists_around q₂
  by_cases blank₁ : s₁ = []
  · subst blank₁
    rcases first.terms_cases parsed₁ with none | own
    · rw [none] at joined
      exact absurd joined (blank_first first second parsed₂)
    · exact absurd (colon_of_text own) (by simp)
  by_cases blank₂ : s₂ = []
  · subst blank₂
    rcases second.terms_cases parsed₂ with none | own
    · rw [none, List.append_nil] at joined
      exact absurd joined (blank_second first second blank₁ parsed₁)
    · exact absurd (colon_of_text own) (by simp)
  obtain ⟨one, asked₁, few₁, fewer₁⟩ := first.exists_asked blank₁ parsed₁
  obtain ⟨two, asked₂, few₂, fewer₂⟩ := second.exists_asked blank₂ parsed₂
  have colon₁ := colon_of_text (first.asked_eq ▸ asked₁)
  have colon₂ := colon_of_text (second.asked_eq ▸ asked₂)
  have started : ¬ StartsOpen q₂.toList := fun started => started_fails first second blank₁ colon₂ started joined
  have ended : ¬ EndsOpen q₁.toList := fun ended => ended_fails first second colon₁ blank₂ parsed₁ parsed₂ ended joined
  -- Cut at the seam alone, a text that asks for nothing counts as a term.
  have lengths := congrArg List.length (Except.ok.inj ((asked_joined ended started asked₁ asked₂).symm.trans joined))
  rw [List.length_append, List.length_append] at lengths
  refine ⟨fun nothing => ?_, fun nothing => ?_, ended, started⟩
  · have more := fewer₁ nothing
    omega
  · have more := fewer₂ nothing
    omega

/-- Texts are joined to the conjunction of their filters, and only where both ask for something and the seam is clean
do the terms come to that. -/
theorem joined_terms_iff (parsed₁ : parse q₁ = .ok f₁) (parsed₂ : parse q₂ = .ok f₂) :
    (Joinable q₁ q₂ → ∃ f, parse (q₁ ++ " AND " ++ q₂) = .ok f ∧ ∀ r, f.holds r = (f₁.holds r && f₂.holds r)) ∧
      (parse (q₁ ++ " AND " ++ q₂) = .ok ⟨f₁.terms ++ f₂.terms⟩ ↔ Joinable q₁ q₂) := by
  rw [parse_eq_ok_iff (joined_asks q₁ q₂)]
  have both : Joinable q₁ q₂ → asked (q₁ ++ " AND " ++ q₂) = .ok (f₁.terms ++ f₂.terms) := by
    rintro ⟨asks₁, asks₂, ended, started⟩
    obtain ⟨-, one⟩ := (parse_cases parsed₁).resolve_left fun nothing => asks₁ nothing.1
    obtain ⟨-, two⟩ := (parse_cases parsed₂).resolve_left fun nothing => asks₂ nothing.1
    exact asked_joined ended started one two
  refine ⟨fun joinable => ?_, joinable_of_terms parsed₁ parsed₂, both⟩
  refine ⟨_, (parse_eq_ok_iff (joined_asks q₁ q₂)).mpr (both joinable), fun r => ?_⟩
  exact List.all_append

end

theorem not_endsOpen_of_clear (clear : ¬ conj <:+: cs ++ [' ']) : ¬ EndsOpen cs := by
  rintro ⟨front, blanks, -, same⟩
  rw [same] at clear
  exact clear (conj_infix_append front blanks)

theorem not_startsOpen_of_clear (clear : ¬ conj <:+: cs) : ¬ StartsOpen cs := by
  rintro ⟨blanks, rest, -, same⟩
  rw [same] at clear
  exact clear (conj_infix_append blanks rest)

theorem joined_terms_iff_site :
    ∃ f₁ f₂ f, parse "shortname:site1" = .ok f₁ ∧ parse "deploy:true" = .ok f₂ ∧
      Joinable "shortname:site1" "deploy:true" ∧ parse ("shortname:site1" ++ " AND " ++ "deploy:true") = .ok f ∧
      ∀ r, f.holds r = (f₁.holds r && f₂.holds r) := by
  have reads : ((parse "shortname:site1").toOption.isSome, (parse "deploy:true").toOption.isSome) = (true, true) := by
    decide +kernel
  obtain ⟨one, two⟩ := Prod.mk.inj reads
  obtain ⟨f₁, one⟩ := Option.isSome_iff_exists.mp one
  obtain ⟨f₂, two⟩ := Option.isSome_iff_exists.mp two
  rw [toOption_eq_some] at one two
  have joinable : Joinable "shortname:site1" "deploy:true" :=
    ⟨by decide +kernel, by decide +kernel, not_endsOpen_of_clear (by decide +kernel),
      not_startsOpen_of_clear (by decide +kernel)⟩
  obtain ⟨f, joined, holds⟩ := (joined_terms_iff one two).1 joinable
  exact ⟨f₁, f₂, f, one, two, joinable, joined, holds⟩

def deployed : Record := ⟨[("deploy", .bool true)]⟩

/-- What asks for nothing alone asks for an attribute `*` in front of another term. -/
theorem joined_star_differs :
    ∃ f₁ f₂ f, parse "*:*" = .ok f₁ ∧ parse "deploy:true" = .ok f₂ ∧
      parse ("*:*" ++ " AND " ++ "deploy:true") = .ok f ∧
      f₁.holds deployed = true ∧ f₂.holds deployed = true ∧ f.holds deployed = false := by
  have facts : ((parse "*:*").toOption.map (·.holds deployed), (parse "deploy:true").toOption.map (·.holds deployed),
      (parse ("*:*" ++ " AND " ++ "deploy:true")).toOption.map (·.holds deployed)) =
        (some true, some true, some false) := by decide +kernel
  obtain ⟨one, facts⟩ := Prod.mk.inj facts
  obtain ⟨two, joined⟩ := Prod.mk.inj facts
  obtain ⟨f₁, one, holds₁⟩ := Option.map_eq_some_iff.mp one
  obtain ⟨f₂, two, holds₂⟩ := Option.map_eq_some_iff.mp two
  obtain ⟨f, joined, holds⟩ := Option.map_eq_some_iff.mp joined
  rw [toOption_eq_some] at one two joined
  exact ⟨f₁, f₂, f, one, two, joined, holds₁, holds₂, holds⟩

end Provision.Filter

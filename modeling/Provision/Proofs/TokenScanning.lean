import Mathlib.Data.List.TakeWhile
import Provision.Proofs.TokenReading

namespace Provision.Template

open Text (isBlank)

variable {cs pre rest after : List Char} {ts : List Token} {depth : Nat}

theorem Token.depth_of_nest? {t : Token} {inner : Nat} (nest : t.nest? depth = some inner) : t.depth depth = inner := by
  cases t with
  | symbol s => cases s <;> cases depth <;> cases nest <;> rfl
  | ident | text | int | float =>
    cases nest
    rfl

theorem match?_expression {trimAfter : Bool} (found : Closing.match? .expression cs = some (trimAfter, rest)) :
    cs = '\x7d' :: '\x7d' :: rest ∨ cs = '-' :: '\x7d' :: '\x7d' :: rest := by
  unfold Closing.match? at found
  split at found <;> simp_all

theorem match?_blank {c : Char} (blank : isBlank c = true) (rest : List Char) :
    Closing.match? .expression (c :: rest) = none := by
  cases found : Closing.match? .expression (c :: rest) with
  | none => rfl
  | some out =>
    rcases match?_expression found with same | same <;>
    · obtain ⟨rfl, -⟩ := List.cons.inj same
      exact absurd blank (by decide)

theorem scanTokens_blanks (fuel depth : Nat) (blank : ∀ c ∈ pre, isBlank c = true) (rest : List Char) :
    scanTokens .expression fuel depth (pre ++ rest) = scanTokens .expression fuel depth rest ∨
      ∃ what, scanTokens .expression fuel depth (pre ++ rest) = .error (.malformed what) := by
  induction pre with
  | nil => exact .inl rfl
  | cons c pre ih =>
    obtain ⟨own, later⟩ := List.forall_mem_cons.mp blank
    cases fuel with
    | zero => exact .inr ⟨_, rfl⟩
    | succ fuel =>
      cases space : isSpace c with
      | true =>
        have skipped : scanTokens .expression (fuel + 1) depth (c :: pre ++ rest) =
            scanTokens .expression (fuel + 1) depth (pre ++ rest) := by
          simp only [scanTokens, List.cons_append, List.dropWhile_cons, space, ↓reduceIte]
        rw [skipped]
        exact ih later
      | false =>
        refine .inr ⟨"unexpected character or end of input", ?_⟩
        simp only [scanTokens, List.cons_append, List.dropWhile_cons, space, Bool.false_eq_true, ↓reduceIte,
          match?_blank own, ite_self, readToken_blank own]

theorem scanAll_closeBrace {n : Nat} {more : List Token} (scanned : scanAll n ('\x7d' :: cs) = .ok more) :
    ∃ others, more = .symbol .closeBrace :: others := by
  cases n with
  | zero => cases scanned
  | succ n =>
    obtain ⟨others, -, same⟩ := bind_eq_ok.mp scanned
    cases same
    exact ⟨others, rfl⟩

theorem scanAll_nil {n : Nat} {more : List Token} (scanned : scanAll n [] = .ok more) : more = [] := by
  cases n with
  | zero => cases scanned
  | succ n =>
    cases scanned
    rfl

/-- No closing marker starts at a token, if the brackets are matched and no sign stands at the end. -/
theorem match?_token {n : Nat} {t : Token} {more : List Token} (read : readToken cs = some (t, rest))
    (later : scanAll n rest = .ok more) (level : nesting 0 (t :: more) = some 0)
    (sign : (t :: more).getLast? ≠ some (.symbol .minus)) (tail : List Char) :
    Closing.match? .expression (cs ++ tail) = none := by
  cases found : Closing.match? .expression (cs ++ tail) with
  | none => rfl
  | some out =>
    exfalso
    cases cs with
    | nil => cases read
    | cons c cs =>
      -- A marker would start with a brace that closes nothing, or with a minus sign before two such braces.
      rcases match?_expression found with whole | whole <;> obtain ⟨rfl, ends⟩ := List.cons.inj whole
      · rw [readToken_closeBrace] at read
        cases read
        cases level
      · rw [readToken_minus] at read
        cases read
        cases rest with
        | nil =>
          rw [scanAll_nil later] at sign
          exact sign rfl
        | cons d rest =>
          obtain ⟨rfl, -⟩ := List.cons.inj ends
          obtain ⟨others, rfl⟩ := scanAll_closeBrace later
          cases level

theorem isBlank_of_isSpace {c : Char} (space : isSpace c = true) : isBlank c = true := by
  simp only [isSpace, Bool.or_eq_true, decide_eq_true_eq] at space
  rcases space with (((rfl | rfl) | rfl) | rfl) | rfl <;> decide

/-- A token in front of the marker is read as if nothing stood behind it. -/
theorem scanTokens_token {n inner : Nat} {t : Token} {more : List Token} {tail : List Char} (stops : Stops tail)
    (fuel : Nat) (read : readToken cs = some (t, rest)) (later : scanAll n rest = .ok more)
    (level : nesting depth (t :: more) = some 0) (nest : t.nest? depth = some inner)
    (sign : (t :: more).getLast? ≠ some (.symbol .minus)) :
    scanTokens .expression (fuel + 1) depth (cs ++ tail) =
      (scanTokens .expression fuel inner (rest ++ tail)).map fun more => { more with tokens := t :: more.tokens } := by
  have first : (cs ++ tail).dropWhile isSpace = cs ++ tail := by
    cases cs with
    | nil => cases read
    | cons c cs =>
      cases space : isSpace c with
      | false => simp [space]
      | true =>
        rw [readToken_blank (isBlank_of_isSpace space)] at read
        cases read
  have outside : (if depth = 0 then Closing.match? .expression (cs ++ tail) else none) = none := by
    split
    · rename_i zero
      rw [zero] at level
      exact match?_token read later level sign tail
    · rfl
  obtain ⟨same, -⟩ := readToken_append stops read
  simp only [scanTokens, first, outside, same, Token.depth_of_nest? nest]
  cases scanTokens .expression fuel inner (rest ++ tail) <;> rfl

theorem stops_closing {post : List Char} (blank : ∀ c ∈ post, isBlank c = true) (after : List Char) :
    Stops (post ++ '\x7d' :: after) := by
  intro c first
  cases post with
  | nil =>
    cases first
    exact .inr rfl
  | cons d post =>
    cases first
    exact .inl (blank c List.mem_cons_self)

theorem scanTokens_behind {post : List Char} (blank : ∀ c ∈ post, isBlank c = true) (after : List Char) {n : Nat}
    (fuel : Nat) (scanned : scanAll n cs = .ok ts) (level : nesting depth ts = some 0)
    (sign : ts.getLast? ≠ some (.symbol .minus)) :
    scanTokens .expression fuel depth (cs ++ (post ++ '\x7d' :: '\x7d' :: after)) = .ok ⟨ts, false, after⟩ ∨
      ∃ what, scanTokens .expression fuel depth (cs ++ (post ++ '\x7d' :: '\x7d' :: after)) =
        .error (.malformed what) := by
  have stops := stops_closing blank ('\x7d' :: after)
  -- The two scanners have fuel of their own: where that of the template runs out, the right side holds.
  induction n generalizing fuel depth cs ts with
  | zero => cases scanned
  | succ n ih =>
    cases fuel with
    | zero => exact .inr ⟨_, rfl⟩
    | succ fuel =>
      have spaces : ∀ c ∈ cs.takeWhile isSpace, isBlank c = true := fun c member =>
        isBlank_of_isSpace (List.mem_takeWhile_imp member)
      have parts := List.takeWhile_append_dropWhile (p := isSpace) (l := cs)
      unfold scanAll at scanned
      split at scanned
      · rename_i nothing
        cases scanned
        cases level
        rw [nothing, List.append_nil] at parts
        rw [← parts, ← List.append_assoc]
        exact scanTokens_blanks (fuel + 1) 0 (List.forall_mem_append.mpr ⟨spaces, blank⟩) _
      · split at scanned
        · cases scanned
        · rename_i t rest read
          obtain ⟨more, later, scanned⟩ := bind_eq_ok.mp scanned
          cases scanned
          obtain ⟨inner, nest, deeper⟩ := Option.bind_eq_some_iff.mp level
          have ending : more.getLast? ≠ some (.symbol .minus) := by
            cases more with
            | nil => nofun
            | cons u more => exact fun last => sign (by rw [List.getLast?_cons_cons]; exact last)
          rw [← parts, List.append_assoc]
          rcases scanTokens_blanks (fuel + 1) depth spaces
            (cs.dropWhile isSpace ++ (post ++ '\x7d' :: '\x7d' :: after)) with skipped | stuck
          · rw [skipped, scanTokens_token stops fuel read later level nest sign]
            rcases ih fuel later deeper ending with found | ⟨what, found⟩
            · exact .inl (by rw [found]; rfl)
            · exact .inr ⟨what, by rw [found]; rfl⟩
          · exact .inr stuck

end Provision.Template

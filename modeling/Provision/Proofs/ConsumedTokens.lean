import Provision.Proofs.Tables
import Provision.Template.Parser

namespace Provision.Template

def Token.nest? : Token → Nat → Option Nat
  | .symbol .openParen, depth | .symbol .openBracket, depth | .symbol .openBrace, depth => some (depth + 1)
  | .symbol .closeParen, depth + 1 | .symbol .closeBracket, depth + 1 | .symbol .closeBrace, depth + 1 => some depth
  | .symbol .closeParen, 0 | .symbol .closeBracket, 0 | .symbol .closeBrace, 0 => none
  | _, depth => some depth

def nesting : Nat → List Token → Option Nat
  | depth, [] => some depth
  | depth, t :: ts => (t.nest? depth).bind (nesting · ts)

theorem nesting_append (depth : Nat) (us vs : List Token) :
    nesting depth (us ++ vs) = (nesting depth us).bind (nesting · vs) := by
  induction us generalizing depth with
  | nil => rfl
  | cons u us ih =>
    simp only [List.cons_append, nesting]
    cases u.nest? depth with
    | none => rfl
    | some inner => exact ih inner

/-- The tokens in between are some, they close so many brackets, and the last of them is no minus sign. -/
def Takes (closed : Nat) (before after : List Token) : Prop :=
  ∃ used last, before = used ++ last :: after ∧ last ≠ .symbol .minus ∧
    ∀ depth, nesting (depth + closed) (used ++ [last]) = some depth

def Passes (before after : List Token) : Prop := before = after ∨ Takes 0 before after

section

variable {a b c : List Token} {k l : Nat} {t : Token}

theorem Takes.single (step : ∀ depth, t.nest? (depth + k) = some depth) (sign : t ≠ .symbol .minus) :
    Takes k (t :: a) a := by
  refine ⟨[], t, rfl, sign, fun depth => ?_⟩
  simp [nesting, step]

theorem Takes.cons (step : ∀ depth, t.nest? (depth + k) = some (depth + l)) (later : Takes l a b) :
    Takes k (t :: a) b := by
  obtain ⟨used, last, rfl, sign, level⟩ := later
  refine ⟨t :: used, last, rfl, sign, fun depth => ?_⟩
  simp only [List.cons_append, nesting, step, Option.bind_some]
  exact level depth

theorem Takes.trans (first : Takes k a b) (later : Takes l b c) : Takes (k + l) a c := by
  obtain ⟨us, u, rfl, -, close⟩ := first
  obtain ⟨vs, v, rfl, sign, level⟩ := later
  refine ⟨us ++ u :: vs, v, by simp, sign, fun depth => ?_⟩
  have split : us ++ u :: vs ++ [v] = (us ++ [u]) ++ (vs ++ [v]) := by simp
  have inner := close (depth + l)
  rw [split, nesting_append, show depth + (k + l) = depth + l + k by omega, inner]
  exact level depth

theorem Takes.passes (first : Takes k a b) (later : Passes b c) : Takes k a c := by
  rcases later with rfl | later
  · exact first
  · exact first.trans later

theorem Passes.takes (first : Passes a b) (later : Takes k b c) : Takes k a c := by
  rcases first with rfl | first
  · exact later
  · exact Nat.zero_add k ▸ first.trans later

theorem Passes.refl (a : List Token) : Passes a a := .inl rfl

end

theorem expect_eq_ok {s : Symbol} {ts rest : List Token} (read : expect s ts = .ok rest) : ts = .symbol s :: rest := by
  unfold expect at read
  split at read
  · split at read
    · rename_i same
      cases read
      rw [same]
    · cases read
  · cases read

theorem expectName_eq_ok {name : String} {ts rest : List Token} (read : expectName ts = .ok (name, rest)) :
    ts = .ident name :: rest := by
  unfold expectName at read
  split at read
  · cases read
    rfl
  · cases read

/-- An operator may be a sign, so it is taken with what follows it. -/
theorem binaryOp?_takes {ts rest after : List Token} {op : BinaryOp} {k : Nat}
    (read : binaryOp? ts = some (op, rest)) (later : Takes k rest after) : Takes k ts after := by
  unfold binaryOp? at read
  split at read
  · cases read
    exact later.cons fun _ => rfl
  · cases read
    exact later.cons fun _ => rfl
  · cases read
    exact later.cons fun _ => rfl
  · cases read
    have inner : Takes k (.ident "in" :: rest) after := later.cons fun _ => rfl
    exact inner.cons fun _ => rfl
  · split at read <;> cases read <;> exact later.cons fun _ => rfl
  · cases read

/-- What every function of the parser takes at a bound. -/
structure Consumes (n : Nat) : Prop where
  expr : ∀ {ts e rest}, parseExpr n ts = .ok (e, rest) → Takes 0 ts rest
  condition : ∀ {e ts e' rest}, parseCondition n e ts = .ok (e', rest) → Passes ts rest
  level : ∀ {level ts e rest}, parseLevel n level ts = .ok (e, rest) → Takes 0 ts rest
  operators : ∀ {level e ts e' rest}, parseOperators n level e ts = .ok (e', rest) → Passes ts rest
  operand : ∀ {ts e rest}, parseOperand n ts = .ok (e, rest) → Takes 0 ts rest
  signed : ∀ {ts e rest}, parseSigned n ts = .ok (e, rest) → Takes 0 ts rest
  access : ∀ {e ts e' rest}, parseAccess n e ts = .ok (e', rest) → Passes ts rest
  subscript : ∀ {e ts e' rest}, parseSubscript n e ts = .ok (e', rest) → Takes 1 ts rest
  bound : ∀ {ts e? rest}, parseBound n ts = .ok (e?, rest) → Passes ts rest
  args : ∀ {positional ts args rest}, parseArgs n positional ts = .ok (args, rest) → Takes 1 ts rest
  filters : ∀ {e ts e' rest}, parseFilters n e ts = .ok (e', rest) → Passes ts rest
  testArgs : ∀ {ts args rest}, parseTestArgs n ts = .ok (args, rest) → Passes ts rest
  primary : ∀ {ts e rest}, parsePrimary n ts = .ok (e, rest) → Takes 0 ts rest
  items : ∀ {close ts es rest}, close = .closeParen ∨ close = .closeBracket →
    parseItems n close ts = .ok (es, rest) → Takes 1 ts rest
  entries : ∀ {ts es rest}, parseEntries n ts = .ok (es, rest) → Takes 1 ts rest

namespace Consumes

variable {n level : Nat} {e e' : Expr} {ts rest : List Token}

theorem parseExpr_succ (all : Consumes n) (read : parseExpr (n + 1) ts = .ok (e, rest)) : Takes 0 ts rest := by
  rw [parseExpr] at read
  obtain ⟨⟨first, middle⟩, operand, read⟩ := bind_eq_ok.mp read
  exact (all.level operand).passes (all.condition read)

theorem parseCondition_succ (all : Consumes n) (read : parseCondition (n + 1) e ts = .ok (e', rest)) :
    Passes ts rest := by
  unfold parseCondition at read
  split at read
  · cases read
  · rename_i fuel more same
    cases same
    obtain ⟨⟨test, middle⟩, tested, read⟩ := bind_eq_ok.mp read
    have head : Takes 0 (.ident "if" :: more) middle := (all.level tested).cons fun _ => rfl
    dsimp only at read
    split at read
    · obtain ⟨⟨no, last⟩, other, read⟩ := bind_eq_ok.mp read
      have branch : Takes 0 (.ident "else" :: _) last := (all.expr other).cons fun _ => rfl
      exact .inr ((head.trans branch).passes (all.condition read))
    · exact .inr (head.passes (all.condition read))
  · cases read
    exact .refl _

theorem parseLevel_succ (all : Consumes n) (read : parseLevel (n + 1) level ts = .ok (e, rest)) : Takes 0 ts rest := by
  unfold parseLevel at read
  split at read
  · obtain ⟨⟨negated, middle⟩, operand, read⟩ := bind_eq_ok.mp read
    have head : Takes 0 (.ident "not" :: _) middle := (all.level operand).cons fun _ => rfl
    exact head.passes (all.operators read)
  · obtain ⟨⟨first, middle⟩, operand, read⟩ := bind_eq_ok.mp read
    exact (all.operand operand).passes (all.operators read)

theorem parseOperators_succ (all : Consumes n) (read : parseOperators (n + 1) level e ts = .ok (e', rest)) :
    Passes ts rest := by
  rw [parseOperators] at read
  split at read
  · cases read
    exact .refl _
  · rename_i op after found
    split at read
    · cases read
      exact .refl _
    · obtain ⟨⟨right, middle⟩, operand, read⟩ := bind_eq_ok.mp read
      exact .inr ((binaryOp?_takes found (all.level operand)).passes (all.operators read))

theorem parseOperand_succ (all : Consumes n) (read : parseOperand (n + 1) ts = .ok (e, rest)) : Takes 0 ts rest := by
  rw [parseOperand] at read
  obtain ⟨⟨signed, middle⟩, first, read⟩ := bind_eq_ok.mp read
  obtain ⟨⟨accessed, later⟩, second, read⟩ := bind_eq_ok.mp read
  exact ((all.signed first).passes (all.access second)).passes (all.filters read)

theorem parseSigned_succ (all : Consumes n) (read : parseSigned (n + 1) ts = .ok (e, rest)) : Takes 0 ts rest := by
  unfold parseSigned at read
  split at read
  · cases read
  · rename_i fuel more same
    cases same
    obtain ⟨⟨signed, middle⟩, inner, read⟩ := bind_eq_ok.mp read
    cases read
    exact (all.signed inner).cons fun _ => rfl
  · rename_i fuel same _
    cases same
    exact all.primary read

theorem parseAccess_succ (all : Consumes n) (read : parseAccess (n + 1) e ts = .ok (e', rest)) : Passes ts rest := by
  unfold parseAccess at read
  split at read
  · cases read
  · rename_i fuel more same
    cases same
    obtain ⟨⟨name, middle⟩, named, read⟩ := bind_eq_ok.mp read
    rw [expectName_eq_ok named]
    have name : Takes 0 (.ident name :: middle) middle := .single (fun _ => rfl) nofun
    have head : Takes 0 (.symbol .dot :: .ident _ :: middle) middle := name.cons fun _ => rfl
    exact .inr (head.passes (all.access read))
  · rename_i fuel more same
    cases same
    obtain ⟨⟨sub, middle⟩, inner, read⟩ := bind_eq_ok.mp read
    have head : Takes 0 (.symbol .openBracket :: more) middle := (all.subscript inner).cons fun _ => rfl
    exact .inr (head.passes (all.access read))
  · rename_i fuel more same
    cases same
    obtain ⟨⟨args, middle⟩, inner, read⟩ := bind_eq_ok.mp read
    have head : Takes 0 (.symbol .openParen :: more) middle := (all.args inner).cons fun _ => rfl
    exact .inr (head.passes (all.access read))
  · cases read
    exact .refl _

theorem takes_expect {s : Symbol} (closer : s = .closeParen ∨ s = .closeBracket) (read : expect s ts = .ok rest) :
    Takes 1 ts rest := by
  rw [expect_eq_ok read]
  rcases closer with rfl | rfl <;> exact .single (fun _ => rfl) nofun

theorem parseSubscript_succ (all : Consumes n) (read : parseSubscript (n + 1) e ts = .ok (e', rest)) :
    Takes 1 ts rest := by
  rw [parseSubscript] at read
  obtain ⟨⟨start, afterStart⟩, first, read⟩ := bind_eq_ok.mp read
  dsimp only at read
  refine (all.bound first).takes ?_
  split at read
  · obtain ⟨⟨stop, afterStop⟩, second, read⟩ := bind_eq_ok.mp read
    have ended : Takes 1 afterStop rest := by
      dsimp only at read
      split at read
      · obtain ⟨⟨step, afterStep⟩, third, read⟩ := bind_eq_ok.mp read
        obtain ⟨after, close, read⟩ := bind_eq_ok.mp read
        cases read
        exact ((all.bound third).takes (takes_expect (.inr rfl) close)).cons fun _ => rfl
      · obtain ⟨step, same, read⟩ := bind_eq_ok.mp read
        cases same
        obtain ⟨after, close, read⟩ := bind_eq_ok.mp read
        cases read
        exact takes_expect (.inr rfl) close
    exact ((all.bound second).takes ended).cons fun _ => rfl
  · obtain ⟨after, close, read⟩ := bind_eq_ok.mp read
    have end_ : Takes 1 afterStart after := takes_expect (.inr rfl) close
    cases start with
    | none => cases read
    | some key =>
      cases read
      exact end_

theorem parseBound_succ {e? : Option Expr} (all : Consumes n) (read : parseBound (n + 1) ts = .ok (e?, rest)) :
    Passes ts rest := by
  unfold parseBound at read
  split at read
  · cases read
  · cases read
    exact .refl _
  · cases read
    exact .refl _
  · rename_i fuel same _ _
    cases same
    obtain ⟨⟨part, middle⟩, inner, read⟩ := bind_eq_ok.mp read
    cases read
    exact .inr (all.expr inner)

theorem moreArgs_succ {positional : Bool} {arg : Option String × Expr} {args : Args} (all : Consumes n)
    (read : (match ts with
      | .symbol .closeParen :: ts => Except.ok ([arg], ts)
      | ts => do
        let ts ← expect .comma ts
        let (more, ts) ← parseArgs n positional ts
        .ok (arg :: more, ts)) = .ok (args, rest)) : Takes 1 ts rest := by
  split at read
  · cases read
    exact .single (fun _ => rfl) nofun
  · obtain ⟨afterComma, comma, read⟩ := bind_eq_ok.mp read
    obtain ⟨⟨more, last⟩, others, read⟩ := bind_eq_ok.mp read
    cases read
    rw [expect_eq_ok comma]
    exact (all.args others).cons fun _ => rfl

theorem parseArgs_succ {positional : Bool} {args : Args} (all : Consumes n)
    (read : parseArgs (n + 1) positional ts = .ok (args, rest)) : Takes 1 ts rest := by
  unfold parseArgs at read
  split at read
  · cases read
  · cases read
    exact .single (fun _ => rfl) nofun
  · rename_i fuel same _
    cases same
    obtain ⟨⟨first, afterFirst⟩, inner, read⟩ := bind_eq_ok.mp read
    have head := all.expr inner
    dsimp only at read
    split at read
    · obtain ⟨⟨value, last⟩, named, read⟩ := bind_eq_ok.mp read
      have assigned : Takes 0 (.symbol .assign :: _) last := (all.expr named).cons fun _ => rfl
      exact (head.trans assigned).trans (moreArgs_succ all read)
    · split at read
      · exact head.trans (moreArgs_succ all read)
      · cases read

theorem parseFilters_succ (all : Consumes n) (read : parseFilters (n + 1) e ts = .ok (e', rest)) : Passes ts rest := by
  unfold parseFilters at read
  split at read
  · cases read
  · rename_i fuel more same
    cases same
    obtain ⟨⟨name, afterName⟩, named, read⟩ := bind_eq_ok.mp read
    rw [expectName_eq_ok named]
    have name : Takes 0 (.ident name :: afterName) afterName := .single (fun _ => rfl) nofun
    have head : Takes 0 (.symbol .pipe :: .ident _ :: afterName) afterName := name.cons fun _ => rfl
    refine .inr (head.passes ?_)
    dsimp only at read
    split at read
    · obtain ⟨⟨args, middle⟩, inner, read⟩ := bind_eq_ok.mp read
      have call : Takes 0 (.symbol .openParen :: _) middle := (all.args inner).cons fun _ => rfl
      exact .inr (call.passes (all.filters read))
    · obtain ⟨_, same, read⟩ := bind_eq_ok.mp read
      cases same
      exact all.filters read
  · rename_i fuel more same
    cases same
    split at read
    rename_i negated afterIs which
    obtain ⟨⟨name, afterName⟩, named, read⟩ := bind_eq_ok.mp read
    obtain ⟨⟨args, middle⟩, inner, read⟩ := bind_eq_ok.mp read
    have head : Takes 0 afterIs afterName := by
      rw [expectName_eq_ok named]
      exact .single (fun _ => rfl) nofun
    have tested : Takes 0 more afterName := by
      split at which <;> cases which
      · exact head.cons fun _ => rfl
      · exact head
    have test : Takes 0 (.ident "is" :: more) afterName := tested.cons fun _ => rfl
    exact .inr ((test.passes (all.testArgs inner)).passes (all.filters read))
  · cases read
    exact .refl _

theorem parseTestArgs_succ {args : Args} (all : Consumes n) (read : parseTestArgs (n + 1) ts = .ok (args, rest)) :
    Passes ts rest := by
  unfold parseTestArgs at read
  split at read
  · cases read
  · rename_i fuel more same
    cases same
    exact .inr ((all.args read).cons fun _ => rfl)
  · rename_i fuel same _
    cases same
    split at read
    · obtain ⟨⟨signed, middle⟩, first, read⟩ := bind_eq_ok.mp read
      obtain ⟨⟨accessed, last⟩, second, read⟩ := bind_eq_ok.mp read
      cases read
      exact .inr ((all.signed first).passes (all.access second))
    · cases read
      exact .refl _

theorem parsePrimary_succ (all : Consumes n) (read : parsePrimary (n + 1) ts = .ok (e, rest)) : Takes 0 ts rest := by
  unfold parsePrimary at read
  -- One case for each token that an operand starts with; what it opens is closed behind it.
  split at read
  · cases read
  · cases read
    exact .single (fun _ => rfl) nofun
  · cases read
    exact .single (fun _ => rfl) nofun
  · cases read
    exact .single (fun _ => rfl) nofun
  · cases read
    exact .single (fun _ => rfl) nofun
  · cases read
    have close : Takes 1 (.symbol .closeParen :: rest) rest := .single (fun _ => rfl) nofun
    exact close.cons fun _ => rfl
  · rename_i fuel more _ same
    cases same
    obtain ⟨⟨first, middle⟩, inner, read⟩ := bind_eq_ok.mp read
    have closed : Takes 1 more rest := by
      dsimp only at read
      split at read
      · obtain ⟨⟨items, last⟩, others, read⟩ := bind_eq_ok.mp read
        cases read
        have tail : Takes 1 (.symbol .comma :: _) last := (all.items (.inl rfl) others).cons fun _ => rfl
        exact (all.expr inner).trans tail
      · obtain ⟨after, close, read⟩ := bind_eq_ok.mp read
        cases read
        exact (all.expr inner).trans (takes_expect (.inl rfl) close)
    exact closed.cons fun _ => rfl
  · rename_i fuel more same
    cases same
    obtain ⟨⟨items, last⟩, inner, read⟩ := bind_eq_ok.mp read
    cases read
    exact (all.items (.inr rfl) inner).cons fun _ => rfl
  · rename_i fuel more same
    cases same
    obtain ⟨⟨entries, last⟩, inner, read⟩ := bind_eq_ok.mp read
    cases read
    exact (all.entries inner).cons fun _ => rfl
  · cases read

theorem parseItems_succ {close : Symbol} {es : List Expr} (all : Consumes n)
    (closer : close = .closeParen ∨ close = .closeBracket) (read : parseItems (n + 1) close ts = .ok (es, rest)) :
    Takes 1 ts rest := by
  rw [parseItems] at read
  split at read
  · rename_i closed
    cases read
    exact takes_expect closer closed
  · obtain ⟨⟨first, middle⟩, inner, read⟩ := bind_eq_ok.mp read
    dsimp only at read
    split at read
    · rename_i closed
      cases read
      exact (all.expr inner).trans (takes_expect closer closed)
    · obtain ⟨afterComma, comma, read⟩ := bind_eq_ok.mp read
      obtain ⟨⟨more, last⟩, others, read⟩ := bind_eq_ok.mp read
      cases read
      have tail : Takes 1 middle last := by
        rw [expect_eq_ok comma]
        exact (all.items closer others).cons fun _ => rfl
      exact (all.expr inner).trans tail

theorem parseEntries_succ {es : List (Expr × Expr)} (all : Consumes n)
    (read : parseEntries (n + 1) ts = .ok (es, rest)) : Takes 1 ts rest := by
  unfold parseEntries at read
  split at read
  · cases read
  · cases read
    exact .single (fun _ => rfl) nofun
  · rename_i fuel same _
    cases same
    obtain ⟨⟨k, afterKey⟩, key, read⟩ := bind_eq_ok.mp read
    obtain ⟨afterColon, colon, read⟩ := bind_eq_ok.mp read
    obtain ⟨⟨v, afterValue⟩, value, read⟩ := bind_eq_ok.mp read
    have valued : Takes 0 afterKey afterValue := by
      rw [expect_eq_ok colon]
      exact (all.expr value).cons fun _ => rfl
    have head := (all.expr key).trans valued
    dsimp only at read
    split at read
    · cases read
      have close : Takes 1 (.symbol .closeBrace :: rest) rest := .single (fun _ => rfl) nofun
      exact head.trans close
    · obtain ⟨afterComma, comma, read⟩ := bind_eq_ok.mp read
      obtain ⟨⟨more, last⟩, others, read⟩ := bind_eq_ok.mp read
      cases read
      have tail : Takes 1 afterValue last := by
        rw [expect_eq_ok comma]
        exact (all.entries others).cons fun _ => rfl
      exact head.trans tail

end Consumes

theorem consumes (n : Nat) : Consumes n := by
  -- Every function of the parser calls the others with one less.
  induction n with
  | zero => constructor <;> (intros; rename_i read; cases read)
  | succ n all =>
    exact
      { expr := all.parseExpr_succ
        condition := all.parseCondition_succ
        level := all.parseLevel_succ
        operators := all.parseOperators_succ
        operand := all.parseOperand_succ
        signed := all.parseSigned_succ
        access := all.parseAccess_succ
        subscript := all.parseSubscript_succ
        bound := all.parseBound_succ
        args := all.parseArgs_succ
        filters := all.parseFilters_succ
        testArgs := all.parseTestArgs_succ
        primary := all.parsePrimary_succ
        items := all.parseItems_succ
        entries := all.parseEntries_succ }

/-- Tokens that make up one expression have their brackets in pairs and no sign at their end. -/
theorem wholeExpression_tokens {ts : List Token} {e : Expr} (read : wholeExpression ts = .ok e) :
    nesting 0 ts = some 0 ∧ ts.getLast? ≠ some (.symbol .minus) := by
  obtain ⟨⟨e, rest⟩, parsed, finished⟩ := bind_eq_ok.mp read
  have none : rest = [] := by
    cases rest with
    | nil => rfl
    | cons => cases finished
  obtain ⟨used, last, rfl, sign, level⟩ := (consumes _).expr parsed
  subst none
  exact ⟨level 0, by simpa using sign⟩

theorem wholeExpression_plus (ts : List Token) (e : Expr) : wholeExpression (.symbol .plus :: ts) ≠ .ok e := by
  intro read
  obtain ⟨⟨e, rest⟩, parsed, -⟩ := bind_eq_ok.mp read
  cases parsed

end Provision.Template

import Provision.Proofs.AttributePaths

namespace Provision.Template

variable {spared : String → List Step → Bool}

mutual

/-- Whether every lookup of the expression is spared. A call may reach a fragment and with it any variable, so none is
made. -/
def Expr.spares (spared : String → List Step → Bool) : Expr → Bool
  | .literal _ => true
  | .var name => spared name []
  | .list items => sparesAll spared items
  | .map entries => sparesEntries spared entries
  | .not e | .neg e => e.spares spared
  | .binary _ left right => left.spares spared && right.spares spared
  | .conditional test yes no => test.spares spared && yes.spares spared && no.spares spared
  | .attribute e name => (Expr.attribute e name).place?.elim (e.spares spared) fun (root, path) => spared root path
  | .item e key =>
    (Expr.item e key).place?.elim (e.spares spared && key.spares spared) fun (root, path) => spared root path
  | .slice e start stop step =>
    e.spares spared && start.spares spared && stop.spares spared && step.spares spared
  | .call .. => false
  | .filter _ e args | .test _ e args => e.spares spared && sparesArgs spared args

def sparesAll (spared : String → List Step → Bool) : List Expr → Bool
  | [] => true
  | e :: rest => e.spares spared && sparesAll spared rest

def sparesEntries (spared : String → List Step → Bool) : List (Expr × Expr) → Bool
  | [] => true
  | (k, v) :: rest => k.spares spared && v.spares spared && sparesEntries spared rest

def sparesArgs (spared : String → List Step → Bool) : List (Option String × Expr) → Bool
  | [] => true
  | (_, e) :: rest => e.spares spared && sparesArgs spared rest

end

mutual

def Stmt.spares (spared : String → List Step → Bool) : Stmt → Bool
  | .text _ | .define .. | .other => true
  | .print e | .evaluate e | .assign _ e => e.spares spared
  | .choice test yes no => test.spares spared && Stmt.sparesAll spared yes && Stmt.sparesAll spared no
  | .loop _ items keep body otherwise =>
    items.spares spared && keep.spares spared && Stmt.sparesAll spared body && Stmt.sparesAll spared otherwise
  | .assignSection _ _ e body | .filtered _ e body => e.spares spared && Stmt.sparesAll spared body
  | .within bindings body => bindings.all (·.2.spares spared) && Stmt.sparesAll spared body
  | .block body => Stmt.sparesAll spared body

def Stmt.sparesAll (spared : String → List Step → Bool) : List Stmt → Bool
  | [] => true
  | s :: rest => s.spares spared && Stmt.sparesAll spared rest

end

def Agree (spared : String → List Step → Bool) (context context' : Value) : Prop :=
  ∀ name path, spared name path = true →
    follow ((Scope.ofContext context').lookup name) path = follow ((Scope.ofContext context).lookup name) path

inductive Moved (context context' : Value) : Scope → Scope → Prop
  | over (frames : List Frame) : Moved context context' ⟨frames, context⟩ ⟨frames, context'⟩

variable {context context' : Value} {scope scope' : Scope} {caller : Caller}

theorem Moved.follow (agree : Agree spared context context') (moved : Moved context context' scope scope')
    {name : String} {path : List Step} (spare : spared name path = true) :
    follow (scope'.lookup name) path = follow (scope.lookup name) path := by
  obtain ⟨frames⟩ := moved
  unfold Scope.lookup
  cases frames.findSome? (·.lookup name) with
  | some v => rfl
  | none => exact agree name path spare

theorem Moved.place (agree : Agree spared context context') (moved : Moved context context' scope scope') {e : Expr}
    {name : String} {path : List Step} (place : e.place? = some (name, path)) (spare : spared name path = true) :
    evaluate caller scope' e = evaluate caller scope e := by
  rw [e.place?_evaluate caller scope' place, e.place?_evaluate caller scope place, moved.follow agree spare]

mutual

/-- The value of an expression that looks up nothing else is the same in both. -/
theorem evaluate_moved (agree : Agree spared context context') (moved : Moved context context' scope scope') :
    ∀ {e : Expr}, e.spares spared = true → evaluate caller scope' e = evaluate caller scope e
  | .literal _ => fun _ => rfl
  | .var name => fun spare => moved.place agree rfl spare
  | .list items => fun spares => by simp only [evaluate, evaluateAll_moved agree moved spares]
  | .map entries => fun spares => by simp only [evaluate, evaluateEntries_moved agree moved spares]
  | .not e => fun spares => by simp only [evaluate, evaluate_moved agree moved (e := e) spares]
  | .neg e => fun spares => by simp only [evaluate, evaluate_moved agree moved (e := e) spares]
  | .binary op left right => by
    intro spares
    obtain ⟨first, second⟩ := Bool.and_eq_true_iff.mp spares
    simp only [evaluate, evaluate_moved agree moved first, evaluate_moved agree moved second]
  | .conditional test yes no => by
    intro spares
    obtain ⟨both, third⟩ := Bool.and_eq_true_iff.mp spares
    obtain ⟨first, second⟩ := Bool.and_eq_true_iff.mp both
    simp only [evaluate, evaluate_moved agree moved first, evaluate_moved agree moved second,
      evaluate_moved agree moved third]
  | .attribute e name => by
    intro spares
    rw [Expr.spares] at spares
    -- A path from a variable counts as a whole: what is on the way to it may differ.
    cases place : (Expr.attribute e name).place? with
    | none =>
      rw [place] at spares
      simp only [evaluate, evaluate_moved agree moved (e := e) spares]
    | some found =>
      rw [place] at spares
      exact moved.place agree place spares
  | .item e key => by
    intro spares
    rw [Expr.spares] at spares
    cases place : (Expr.item e key).place? with
    | none =>
      rw [place] at spares
      obtain ⟨first, second⟩ := Bool.and_eq_true_iff.mp spares
      simp only [evaluate, evaluate_moved agree moved first, evaluate_moved agree moved second]
    | some found =>
      rw [place] at spares
      exact moved.place agree place spares
  | .slice e start stop step => by
    intro spares
    simp only [Expr.spares, Bool.and_eq_true] at spares
    obtain ⟨⟨⟨first, second⟩, third⟩, fourth⟩ := spares
    simp only [evaluate, evaluate_moved agree moved first, evaluate_moved agree moved second,
      evaluate_moved agree moved third, evaluate_moved agree moved fourth]
  | .call callee args => fun spares => by cases spares
  | .filter name e args => by
    intro spares
    obtain ⟨first, second⟩ := Bool.and_eq_true_iff.mp spares
    simp only [evaluate, evaluate_moved agree moved first, evaluateArgs_moved agree moved second]
  | .test name e args => by
    intro spares
    obtain ⟨first, second⟩ := Bool.and_eq_true_iff.mp spares
    simp only [evaluate, evaluate_moved agree moved first, evaluateArgs_moved agree moved second]

theorem evaluateAll_moved (agree : Agree spared context context') (moved : Moved context context' scope scope') :
    ∀ {items : List Expr}, sparesAll spared items = true →
      evaluateAll caller scope' items = evaluateAll caller scope items
  | [] => fun _ => rfl
  | e :: rest => by
    intro spares
    obtain ⟨first, later⟩ := Bool.and_eq_true_iff.mp spares
    simp only [evaluateAll, evaluate_moved agree moved first, evaluateAll_moved agree moved later]

theorem evaluateEntries_moved (agree : Agree spared context context') (moved : Moved context context' scope scope') :
    ∀ {entries : List (Expr × Expr)}, sparesEntries spared entries = true →
      evaluateEntries caller scope' entries = evaluateEntries caller scope entries
  | [] => fun _ => rfl
  | (k, v) :: rest => by
    intro spares
    obtain ⟨both, later⟩ := Bool.and_eq_true_iff.mp spares
    obtain ⟨first, second⟩ := Bool.and_eq_true_iff.mp both
    simp only [evaluateEntries, evaluate_moved agree moved first, evaluate_moved agree moved second,
      evaluateEntries_moved agree moved later]

theorem evaluateArgs_moved (agree : Agree spared context context') (moved : Moved context context' scope scope') :
    ∀ {args : List (Option String × Expr)}, sparesArgs spared args = true →
      evaluateArgs caller scope' args = evaluateArgs caller scope args
  | [] => fun _ => rfl
  | (name, e) :: rest => by
    intro spares
    obtain ⟨first, later⟩ := Bool.and_eq_true_iff.mp spares
    simp only [evaluateArgs, evaluate_moved agree moved first, evaluateArgs_moved agree moved later]

end

/-- Two results of one kind: the same failure, or values that are related. -/
inductive Agrees {ε α β : Type} (R : α → β → Prop) : Except ε α → Except ε β → Prop
  | error (e : ε) : Agrees R (.error e) (.error e)
  | ok {a : α} {b : β} (related : R a b) : Agrees R (.ok a) (.ok b)

theorem Agrees.bind {ε α β γ δ : Type} {R : α → β → Prop} {S : γ → δ → Prop} {x : Except ε α} {y : Except ε β}
    {f : α → Except ε γ} {g : β → Except ε δ} (first : Agrees R x y) (later : ∀ a b, R a b → Agrees S (f a) (g b)) :
    Agrees S (x >>= f) (y >>= g) := by
  cases first with
  | error e => exact .error e
  | ok related => exact later _ _ related

theorem Agrees.same {ε α γ δ : Type} {S : γ → δ → Prop} (x : Except ε α) {f : α → Except ε γ} {g : α → Except ε δ}
    (later : ∀ a, Agrees S (f a) (g a)) : Agrees S (x >>= f) (x >>= g) := by
  cases x with
  | error e => exact .error e
  | ok a => exact later a

theorem Agrees.bind_eq {ε α β γ : Type} {R : α → β → Prop} {x : Except ε α} {y : Except ε β} {f : α → Except ε γ}
    {g : β → Except ε γ} (first : Agrees R x y) (later : ∀ a b, R a b → g b = f a) : (y >>= g) = (x >>= f) := by
  cases first with
  | error e => rfl
  | ok related => exact later _ _ related

namespace Moved

theorem push (moved : Moved context context' scope scope') (frame : Frame) :
    Moved context context' (scope.push frame) (scope'.push frame) := by
  obtain ⟨frames⟩ := moved
  exact ⟨_⟩

theorem pop (moved : Moved context context' scope scope') : Moved context context' scope.pop scope'.pop := by
  obtain ⟨frames⟩ := moved
  exact ⟨_⟩

theorem set (moved : Moved context context' scope scope') (name : String) (v : Value) :
    Moved context context' (scope.set name v) (scope'.set name v) := by
  obtain ⟨_ | ⟨frame, rest⟩⟩ := moved <;> exact ⟨_⟩

theorem loopDepth (moved : Moved context context' scope scope') : scope'.loopDepth = scope.loopDepth := by
  obtain ⟨frames⟩ := moved
  rfl

mutual

theorem bind : ∀ {scope scope' : Scope} (_ : Moved context context' scope scope') (target : Target) (v : Value),
    Agrees (Moved context context') (scope.bind target v) (scope'.bind target v)
  | _, _, moved, .name s, v => .ok (moved.set s v)
  | _, _, moved, .parts ts, v => by
    cases v with
    | list items => exact bindParts moved ts items
    | map entries => exact bindParts moved ts (entries.map (·.1))
    | _ => exact .error _

theorem bindParts : ∀ {scope scope' : Scope} (_ : Moved context context' scope scope') (ts : List Target)
    (vs : List Value), Agrees (Moved context context') (scope.bindParts ts vs) (scope'.bindParts ts vs)
  | _, _, moved, [], [] => .ok moved
  | _, _, moved, t :: ts, v :: vs => (bind moved t v).bind fun _ _ moved => bindParts moved ts vs
  | _, _, _, [], _ :: _ | _, _, _, _ :: _, [] => .error _

end

theorem bindAll (agree : Agree spared context context') : ∀ {bindings : List (Target × Expr)} {scope scope' : Scope},
    Moved context context' scope scope' → bindings.all (·.2.spares spared) = true →
      Agrees (Moved context context') (Template.bindAll caller bindings scope) (Template.bindAll caller bindings scope')
  | [], _, _ => fun moved _ => .ok moved
  | (t, e) :: rest, scope, scope' => by
    intro moved spares
    obtain ⟨first, later⟩ := Bool.and_eq_true_iff.mp spares
    unfold Template.bindAll
    rw [evaluate_moved agree moved first]
    exact .same _ fun v => (moved.bind t v).bind fun _ _ moved => moved.bindAll agree later

end Moved

def Parallel (context context' : Value) (out out' : Scope × String) : Prop :=
  Moved context context' out.1 out'.1 ∧ out'.2 = out.2

theorem runLoop_moved {body body' : Scope → Rendered} {target : Target} {depth : Nat} {items : List Value}
    (same : ∀ inner inner', Moved context context' inner inner' →
      Agrees (Parallel context context') (body inner) (body' inner')) (i : Nat) (rest : List Value)
    (moved : Moved context context' scope scope') :
    Agrees (Parallel context context') (runLoop target body depth items i rest scope)
      (runLoop target body' depth items i rest scope') := by
  induction rest generalizing i scope scope' with
  | nil => exact .ok ⟨moved, rfl⟩
  | cons v rest ih =>
    refine ((moved.set "loop" (loopValue depth items i)).bind target v).bind fun inner inner' moved => ?_
    refine (same inner inner' moved).bind fun first first' both => ?_
    refine (ih (i + 1) both.1).bind fun more more' later => ?_
    exact .ok ⟨later.1, by rw [both.2, later.2]⟩

mutual

theorem renderStmt_moved (agree : Agree spared context context') : ∀ {s : Stmt} {scope scope' : Scope},
    Moved context context' scope scope' → s.spares spared = true →
      Agrees (Parallel context context') (renderStmt caller s scope) (renderStmt caller s scope')
  | .text s, _, _ => fun moved _ => .ok ⟨moved, rfl⟩
  | .print e, scope, scope' => by
    intro moved spares
    rw [renderStmt, renderStmt, evaluate_moved agree moved (e := e) spares]
    exact .same _ fun v => .same _ fun text => .ok ⟨moved, rfl⟩
  | .choice test yes no, scope, scope' => by
    intro moved spares
    obtain ⟨both, third⟩ := Bool.and_eq_true_iff.mp spares
    obtain ⟨first, second⟩ := Bool.and_eq_true_iff.mp both
    rw [renderStmt, renderStmt, evaluate_moved agree moved first]
    refine .same _ fun v => .same _ fun holds => ?_
    cases holds
    · exact renderAll_moved agree moved third
    · exact renderAll_moved agree moved second
  | .loop target items keep body otherwise, scope, scope' => by
    intro moved spares
    simp only [Stmt.spares, Bool.and_eq_true] at spares
    obtain ⟨⟨⟨first, second⟩, third⟩, fourth⟩ := spares
    rw [renderStmt, renderStmt, evaluate_moved agree moved first]
    refine .same _ fun v => .same _ fun all => ?_
    -- The same items are kept, so both loops go through the same ones.
    have same : ∀ v, ((scope'.push []).bind target v >>= fun inner => evaluate caller inner keep >>= condition) =
        ((scope.push []).bind target v >>= fun inner => evaluate caller inner keep >>= condition) := by
      intro v
      refine ((moved.push []).bind target v).bind_eq fun inner inner' moved => ?_
      rw [evaluate_moved agree moved second]
    rw [← funext same]
    refine .same _ fun kept => ?_
    cases kept.isEmpty with
    | true => exact renderAll_moved agree moved fourth
    | false =>
      rw [moved.loopDepth]
      refine (runLoop_moved (fun inner inner' moved => ?_) 0 kept (moved.push [])).bind fun out out' both => ?_
      · exact renderAll_moved agree moved third
      · exact .ok ⟨both.1.pop, both.2⟩
  | .assign target e, scope, scope' => by
    intro moved spares
    rw [renderStmt, renderStmt, evaluate_moved agree moved (e := e) spares]
    exact .same _ fun v => (moved.bind target v).bind fun _ _ moved => .ok ⟨moved, rfl⟩
  | .assignSection target name e body, scope, scope' => by
    intro moved spares
    obtain ⟨first, second⟩ := Bool.and_eq_true_iff.mp spares
    rw [renderStmt, renderStmt]
    refine (renderAll_moved agree moved second).bind fun (inner, text) (inner', text') both => ?_
    obtain ⟨moved, rfl⟩ := both
    change Agrees _ (evaluate caller (inner.push _) e >>= _) (evaluate caller (inner'.push _) e >>= _)
    rw [evaluate_moved agree (moved.push _) first]
    exact .same _ fun v => .ok ⟨moved.set target v, rfl⟩
  | .within bindings body, scope, scope' => by
    intro moved spares
    obtain ⟨first, second⟩ := Bool.and_eq_true_iff.mp spares
    rw [renderStmt, renderStmt]
    refine ((moved.push []).bindAll agree first).bind fun inner inner' moved => ?_
    exact (renderAll_moved agree moved second).bind fun out out' both => .ok ⟨both.1.pop, both.2⟩
  | .filtered name e body, scope, scope' => by
    intro moved spares
    obtain ⟨first, second⟩ := Bool.and_eq_true_iff.mp spares
    rw [renderStmt, renderStmt]
    refine (renderAll_moved agree moved second).bind fun (inner, text) (inner', text') both => ?_
    obtain ⟨moved, rfl⟩ := both
    change Agrees _ (evaluate caller (inner.push _) e >>= _) (evaluate caller (inner'.push _) e >>= _)
    rw [evaluate_moved agree (moved.push _) first]
    exact .same _ fun v => .same _ fun text => .ok ⟨moved, rfl⟩
  | .define name params body, _, _ => fun moved _ => .ok ⟨moved.set name _, rfl⟩
  | .evaluate e, scope, scope' => by
    intro moved spares
    rw [renderStmt, renderStmt, evaluate_moved agree moved (e := e) spares]
    exact .same _ fun v => .ok ⟨moved, rfl⟩
  | .block body, scope, scope' => by
    intro moved spares
    rw [renderStmt, renderStmt]
    exact (renderAll_moved agree (moved.push []) spares).bind fun out out' both => .ok ⟨both.1.pop, both.2⟩
  | .other, _, _ => fun _ _ => .error _

theorem renderAll_moved (agree : Agree spared context context') : ∀ {stmts : List Stmt} {scope scope' : Scope},
    Moved context context' scope scope' → Stmt.sparesAll spared stmts = true →
      Agrees (Parallel context context') (renderAll caller stmts scope) (renderAll caller stmts scope')
  | [], _, _ => fun moved _ => .ok ⟨moved, rfl⟩
  | s :: rest, scope, scope' => by
    intro moved spares
    obtain ⟨first, later⟩ := Bool.and_eq_true_iff.mp spares
    rw [renderAll, renderAll]
    refine (renderStmt_moved agree moved first).bind fun out out' both => ?_
    refine (renderAll_moved agree both.1 later).bind fun more more' after => ?_
    exact .ok ⟨after.1, by rw [both.2, after.2]⟩

end

variable {source : String} {given given' : Json}

theorem eval_of_agree (agree : Agree spared (.ofJson given) (.ofJson given')) {e : Expr}
    (spares : e.spares spared = true) : e.eval given' = e.eval given :=
  evaluate_moved agree (.over _) spares

/-- A template all of whose lookups are spared is rendered to the same text. -/
theorem render_of_agree (agree : Agree spared (.ofJson given) (.ofJson given'))
    (spares : (parse source).toOption.all (Stmt.sparesAll spared) = true) :
    render source given' = render source given := by
  unfold render
  cases read : parse source with
  | error e => rfl
  | ok stmts =>
    rw [read] at spares
    exact (renderAll_moved agree (.over _) spares).bind_eq fun out out' both => congrArg Except.ok both.2

end Provision.Template

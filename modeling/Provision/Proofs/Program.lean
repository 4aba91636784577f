import Provision.Converge

namespace Provision

variable {σ α β : Type}

def World.run (w : World σ) (x : StateM (World σ) α) : α × World σ := x w

def World.after (host : Host σ) (w : World σ) (c : Call) : World σ :=
  { w with machine := (host.answer c w.machine).2, calls := w.calls ++ [c] }

namespace World

variable (host : Host σ) (w : World σ)

@[simp] theorem run_pure (a : α) : w.run (pure a) = (a, w) := rfl

@[simp] theorem run_bind (x : StateM (World σ) α) (f : α → StateM (World σ) β) :
    w.run (x >>= f) = (w.run x).2.run (f (w.run x).1) := rfl

@[simp] theorem run_emit (e : Event) :
    w.run (emit e) = ((), { w with events := w.events ++ [e] }) := rfl

@[simp] theorem run_getContext : w.run getContext = (w.context, w) := rfl

@[simp] theorem run_modifyContext (f : Context → Context) :
    w.run (modifyContext f) = ((), { w with context := f w.context }) := rfl

@[simp] theorem after_context (c : Call) : (w.after host c).context = w.context := rfl

@[simp] theorem after_calls (c : Call) : (w.after host c).calls = w.calls ++ [c] := rfl

@[simp] theorem try_lift (x : StateM (World σ) α) :
    w.run (liftM x : Action σ α).run = (.ok (w.run x).1, (w.run x).2) := rfl

@[simp] theorem try_ofReply (x : StateM (World σ) (Except Fault α)) :
    w.run (Action.ofReply x).run = ((w.run x).1.mapError .collaborator, (w.run x).2) := rfl

@[simp] theorem try_ask (x : StateM (World σ) (Except Fault α)) (context : String) :
    w.run (Check.ask x context).run =
      ((w.run x).1.mapError fun f => .guardEvaluation (context ++ ": " ++ f.message), (w.run x).2) := rfl

theorem try_bind (x : Action σ α) (f : α → Action σ β) :
    w.run (x >>= f).run =
      match w.run x.run with
      | (.ok a, next) => next.run (f a).run
      | (.error e, next) => (.error e, next) := by
  have step : w.run (x >>= f).run = (w.run x.run).2.run (ExceptT.bindCont f (w.run x.run).1) := rfl
  rw [step]
  rcases w.run x.run with ⟨_ | _, _⟩ <;> rfl

/-- A sequence ends where its first step fails, or where the second ends after it. -/
theorem try_bind_cases {w last : World σ} {x : Action σ α} {f : α → Action σ β}
    {reply : Except Error β} (ran : w.run (x >>= f).run = (reply, last)) :
    (∃ e, w.run x.run = (.error e, last) ∧ reply = .error e) ∨
      ∃ a next, w.run x.run = (.ok a, next) ∧ next.run (f a).run = (reply, last) := by
  rw [try_bind] at ran
  rcases first : w.run x.run with ⟨e | a, next⟩
  · rw [first] at ran
    cases ran
    exact Or.inl ⟨e, rfl, rfl⟩
  · rw [first] at ran
    exact Or.inr ⟨a, next, rfl, ran⟩

theorem try_bind_eq_ok {w last : World σ} {x : Action σ α} {f : α → Action σ β} {b : β} :
    w.run (x >>= f).run = (.ok b, last) ↔
      ∃ a next, w.run x.run = (.ok a, next) ∧ next.run (f a).run = (.ok b, last) := by
  constructor
  · intro h
    rcases try_bind_cases h with ⟨e, -, failed⟩ | steps
    · cases failed
    · exact steps
  · rintro ⟨a, next, hx, hf⟩
    rw [try_bind, hx]
    exact hf

theorem try_ofReply_eq_ok {w next : World σ} {x : StateM (World σ) (Except Fault α)} {a : α} :
    w.run (Action.ofReply x).run = (.ok a, next) ↔ w.run x = (.ok a, next) := by
  rw [try_ofReply]
  rcases w.run x with ⟨fault | b, last⟩
  · constructor
    · intro h
      cases h
    · intro h
      cases h
  · constructor
    · intro h
      cases h
      rfl
    · intro h
      cases h
      rfl

theorem run_of_answer {w : World σ} {x : StateM (World σ) α} {a : α} (answers : (w.run x).1 = a) :
    w.run x = (a, (w.run x).2) :=
  Prod.ext answers rfl

/-- A call and a value: the call decides whether that fails. -/
theorem try_ofReply_then {w last : World σ} {x : StateM (World σ) (Except Fault α)} {b : β}
    {reply : Except Error β} (ran : w.run (Action.ofReply x >>= fun _ => pure b).run = (reply, last)) :
    last = (w.run x).2 ∧ ∀ b', reply = .ok b' → ∃ a, (w.run x).1 = .ok a := by
  rw [try_bind, try_ofReply] at ran
  cases answered : (w.run x).1 with
  | ok a =>
    rw [answered] at ran
    cases ran
    exact ⟨rfl, fun _ _ => ⟨a, rfl⟩⟩
  | error fault =>
    rw [answered] at ran
    cases ran
    exact ⟨rfl, nofun⟩

end World

end Provision

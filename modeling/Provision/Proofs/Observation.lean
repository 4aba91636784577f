import Provision.Proofs.Calls

namespace Provision

variable {σ α β : Type}

/-- Two states that answer every call alike, now and after any calls. -/
def Host.Alike (host : Host σ) (m n : σ) : Prop :=
  ∀ calls c, (host.answer c (host.leads m calls)).1 = (host.answer c (host.leads n calls)).1

/-- A call that later calls cannot tell from none. -/
def Host.Quiet (host : Host σ) (m : σ) (c : Call) : Prop := host.Alike (host.answer c m).2 m

namespace Host.Alike

variable {host : Host σ} {m n o : σ}

theorem refl (m : σ) : host.Alike m m := fun _ _ => rfl

theorem trans (first : host.Alike m n) (second : host.Alike n o) : host.Alike m o :=
  fun calls c => (first calls c).trans (second calls c)

theorem answer (alike : host.Alike m n) (c : Call) : (host.answer c m).1 = (host.answer c n).1 := alike [] c

theorem after (alike : host.Alike m n) (c : Call) : host.Alike (host.answer c m).2 (host.answer c n).2 :=
  fun calls => alike (c :: calls)

end Host.Alike

/-- A likeness of states: like states answer alike, and go on to like ones. -/
structure Host.Likeness (host : Host σ) (R : σ → σ → Prop) : Prop where
  refl : ∀ m, R m m
  trans : ∀ {m n o}, R m n → R n o → R m o
  answer : ∀ {m n}, R m n → ∀ c, (host.answer c m).1 = (host.answer c n).1
  after : ∀ {m n}, R m n → ∀ c, R (host.answer c m).2 (host.answer c n).2

namespace Host.Likeness

variable {host : Host σ} {R : σ → σ → Prop} {m n : σ}

theorem leads (like : host.Likeness R) (same : R m n) (calls : List Call) :
    R (host.leads m calls) (host.leads n calls) := by
  induction calls generalizing m n with
  | nil => exact same
  | cons c rest ih => exact ih (like.after same c)

theorem alike (like : host.Likeness R) (same : R m n) : host.Alike m n :=
  fun calls c => like.answer (like.leads same calls) c

theorem leads_quiet (like : host.Likeness R) {calls : List Call} (quiet : ∀ c ∈ calls, R (host.answer c m).2 m)
    (same : R n m) : R (host.leads n calls) m := by
  induction calls generalizing n with
  | nil => exact same
  | cons c rest ih =>
    have still : R (host.answer c n).2 m := like.trans (like.after same c) (quiet c List.mem_cons_self)
    exact ih (fun d member => quiet d (List.mem_cons_of_mem c member)) still

end Host.Likeness

/-- A world that looks like `base` to resources; whether it is a dry run, and the warnings, are apart. -/
structure LooksLike (host : Host σ) (base w : World σ) : Prop where
  machine : host.Alike w.machine base.machine
  env : w.context.env = base.context.env
  node : w.context.node = base.context.node
  onConflict : w.context.onConflict = base.context.onConflict

/-- What a program that leaves no trace does to a world: calls of `P` and warnings. -/
structure Traceless (host : Host σ) (P : Call → Prop) (base : World σ) (warnings : List String)
    (w last : World σ) : Prop where
  machine : host.Alike last.machine base.machine
  context : last.context = { w.context with warnings := w.context.warnings ++ warnings }
  calls : Adds P w last

/-- From every world that looks like `base` the program gives the answer and the warnings and leaves
no trace. -/
def Tells (host : Host σ) (P : Call → Prop) (base : World σ) (x : StateM (World σ) α) (a : α)
    (warnings : List String) : Prop :=
  ∀ w, LooksLike host base w → (w.run x).1 = a ∧ Traceless host P base warnings w (w.run x).2

section

variable {host : Host σ} {P : Call → Prop} {base w : World σ}

theorem LooksLike.after {last : World σ} {warnings : List String} (like : LooksLike host base w)
    (less : Traceless host P base warnings w last) : LooksLike host base last := by
  constructor
  · exact less.machine
  · rw [less.context]
    exact like.env
  · rw [less.context]
    exact like.node
  · rw [less.context]
    exact like.onConflict

theorem Traceless.refl (like : LooksLike host base w) : Traceless host P base [] w w :=
  ⟨like.machine, by simp, .refl w⟩

theorem Traceless.trans {next last : World σ} {first second : List String}
    (before : Traceless host P base first w next) (after : Traceless host P base second next last) :
    Traceless host P base (first ++ second) w last :=
  ⟨after.machine, by simp [after.context, before.context], before.calls.trans after.calls⟩

namespace Tells

theorem pure (a : α) : Tells host P base (Pure.pure a) a [] :=
  fun _ like => ⟨rfl, .refl like⟩

theorem bind {x : StateM (World σ) α} {f : α → StateM (World σ) β} {a : α} {b : β} {first second : List String}
    (told : Tells host P base x a first) (rest : Tells host P base (f a) b second) :
    Tells host P base (x >>= f) b (first ++ second) := by
  intro w like
  obtain ⟨answer, less⟩ := told w like
  obtain ⟨last, lessAfter⟩ := rest _ (like.after less)
  rw [World.run_bind, answer]
  exact ⟨last, less.trans lessAfter⟩

theorem call {c : Call} (allowed : P c) (quiet : host.Quiet base.machine c) :
    Tells host P base (perform host c) (host.answer c base.machine).1 [] := by
  intro w like
  refine ⟨like.machine.answer c, (like.machine.after c).trans quiet, ?_, [c], rfl, by simpa using allowed⟩
  change w.context = _
  simp

theorem tryPure (a : α) : Tells host P base (Pure.pure a : Action σ α).run (.ok a) [] := pure _

theorem tryThrow (e : Error) : Tells host P base (throw e : Action σ α).run (.error e) [] := pure _

theorem tryBind {x : Action σ α} {f : α → Action σ β} {a : α} {b : Except Error β} {first second : List String}
    (told : Tells host P base x.run (.ok a) first) (rest : Tells host P base (f a).run b second) :
    Tells host P base (x >>= f).run b (first ++ second) :=
  bind (f := ExceptT.bindCont f) told rest

theorem tryBindError {x : Action σ α} {f : α → Action σ β} {e : Error} {warnings : List String}
    (told : Tells host P base x.run (.error e) warnings) :
    Tells host P base (x >>= f).run (.error e) warnings := by
  have stopped := bind (f := ExceptT.bindCont f) told (pure (Except.error e))
  rwa [List.append_nil] at stopped

theorem tryContext {f : Context → Action σ β} {b : Except Error β} {warnings : List String}
    (same : ∀ x : Context, x.env = base.context.env → x.node = base.context.node →
      x.onConflict = base.context.onConflict → f x = f base.context)
    (rest : Tells host P base (f base.context).run b warnings) :
    Tells host P base (Action.getContext >>= f).run b warnings := by
  intro w like
  have step : w.run (Action.getContext >>= f).run = w.run (f w.context).run := rfl
  rw [step, same w.context like.env like.node like.onConflict]
  exact rest w like

theorem warn (warnings : List String) :
    Tells host P base (Action.modifyContext fun x => { x with warnings := x.warnings ++ warnings }).run
      (.ok ()) warnings :=
  fun _ like => ⟨rfl, like.machine, rfl, [], (List.append_nil _).symm, by simp⟩

theorem except (x : Except Error α) : Tells host P base (liftM x : Action σ α).run x [] := by
  intro w like
  cases x <;> exact ⟨rfl, .refl like⟩

theorem ofReply {x : StateM (World σ) (Except Fault α)} {a : Except Fault α} {warnings : List String}
    (told : Tells host P base x a warnings) :
    Tells host P base (Action.ofReply x).run (a.mapError .collaborator) warnings := by
  have mapped := bind (f := fun r => Pure.pure (r.mapError Error.collaborator)) told (pure _)
  rwa [List.append_nil] at mapped

theorem lift {x : StateM (World σ) α} {a : α} {warnings : List String} (told : Tells host P base x a warnings) :
    Tells host P base (liftM x : Action σ α).run (.ok a) warnings := by
  have lifted := bind (f := fun r => Pure.pure (Except.ok (ε := Error) r)) told (pure _)
  rwa [List.append_nil] at lifted

end Tells

end

end Provision

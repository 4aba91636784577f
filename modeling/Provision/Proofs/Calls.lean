import Provision.Proofs.Program

namespace Provision

variable {σ α β : Type}

def Host.leads (host : Host σ) (m : σ) (calls : List Call) : σ :=
  calls.foldl (fun m c => (host.answer c m).2) m

namespace Host

variable (host : Host σ) (m : σ)

theorem leads_append (calls more : List Call) :
    host.leads m (calls ++ more) = host.leads (host.leads m calls) more :=
  List.foldl_append

end Host

def Adds (P : Call → Prop) (w last : World σ) : Prop :=
  ∃ made, last.calls = w.calls ++ made ∧ ∀ c ∈ made, P c

/-- Among the calls in between there is one that is meant to change the system. -/
def Changes (w last : World σ) : Prop :=
  ∃ made, last.calls = w.calls ++ made ∧ ∃ c ∈ made, c.mutates = true

section

variable {P : Call → Prop} {w next last : World σ}

theorem Adds.refl (w : World σ) : Adds P w w := ⟨[], (List.append_nil _).symm, by simp⟩

theorem Adds.trans (before : Adds P w next) (after : Adds P next last) : Adds P w last := by
  obtain ⟨made, log, allowed⟩ := before
  obtain ⟨more, moreLog, moreAllowed⟩ := after
  refine ⟨made ++ more, by rw [moreLog, log, List.append_assoc], ?_⟩
  intro c member
  rcases List.mem_append.mp member with here | later
  · exact allowed c here
  · exact moreAllowed c later

theorem Changes.earlier (before : Adds P w next) (after : Changes next last) : Changes w last := by
  obtain ⟨made, log, -⟩ := before
  obtain ⟨more, moreLog, c, member, mutates⟩ := after
  exact ⟨made ++ more, by rw [moreLog, log, List.append_assoc], c, List.mem_append_right _ member, mutates⟩

theorem Changes.later (before : Changes w next) (after : Adds P next last) : Changes w last := by
  obtain ⟨made, log, c, member, mutates⟩ := before
  obtain ⟨more, moreLog, -⟩ := after
  exact ⟨made ++ more, by rw [moreLog, log, List.append_assoc], c, List.mem_append_left _ member, mutates⟩

theorem Adds.not_changes (quiet : ∀ c, P c → c.mutates = false) (adds : Adds P w last) : ¬ Changes w last := by
  obtain ⟨made, log, allowed⟩ := adds
  rintro ⟨more, moreLog, c, member, mutates⟩
  rw [log, List.append_cancel_left_eq] at moreLog
  rw [← moreLog] at member
  rw [quiet c (allowed c member)] at mutates
  cases mutates

end

/-- What a run leaves alone in its context. Variables are added to the environment, none is changed. -/
structure Context.Steady (x y : Context) : Prop where
  dryRun : y.dryRun = x.dryRun
  node : y.node = x.node
  onConflict : y.onConflict = x.onConflict
  env : ∀ key value, x.env.get? key = some value → y.env.get? key = some value

theorem Context.Steady.refl (x : Context) : Steady x x := ⟨rfl, rfl, rfl, fun _ _ => id⟩

theorem Context.Steady.trans {x y z : Context} (first : Steady x y) (second : Steady y z) : Steady x z :=
  ⟨second.dryRun.trans first.dryRun, second.node.trans first.node, second.onConflict.trans first.onConflict,
    fun key value found => second.env key value (first.env key value found)⟩

/-- One world comes from another by calls of `P`, which account for all that became of the system. -/
structure Made (host : Host σ) (P : Call → Prop) (w last : World σ) : Prop where
  calls : ∃ calls, last.calls = w.calls ++ calls ∧ last.machine = host.leads w.machine calls ∧ ∀ c ∈ calls, P c
  context : w.context.Steady last.context

def Makes (host : Host σ) (P : Call → Prop) (x : StateM (World σ) α) : Prop :=
  ∀ w : World σ, Made host P w (w.run x).2

section

variable {host : Host σ} {P Q : Call → Prop} {w next last : World σ}

theorem Made.refl (w : World σ) : Made host P w w := ⟨⟨[], by simp, rfl, by simp⟩, .refl _⟩

theorem Made.trans (before : Made host P w next) (after : Made host P next last) : Made host P w last := by
  obtain ⟨calls, log, machine, each⟩ := before.calls
  obtain ⟨more, moreLog, moreMachine, moreEach⟩ := after.calls
  refine ⟨⟨calls ++ more, ?_, ?_, ?_⟩, before.context.trans after.context⟩
  · rw [moreLog, log, List.append_assoc]
  · rw [moreMachine, machine, Host.leads_append]
  · intro c member
    rcases List.mem_append.mp member with here | later
    · exact each c here
    · exact moreEach c later

theorem Made.adds (made : Made host P w last) : Adds P w last := by
  obtain ⟨calls, log, -, each⟩ := made.calls
  exact ⟨calls, log, each⟩

end

namespace Makes

variable {host : Host σ} {P : Call → Prop}

theorem adds {x : StateM (World σ) α} (made : Makes host P x) (w : World σ) : Adds P w (w.run x).2 := (made w).adds

theorem made {x : StateM (World σ) α} (makes : Makes host P x) {w next : World σ} {a : α} (ran : w.run x = (a, next)) :
    Made host P w next := by
  have came : (w.run x).2 = next := congrArg Prod.snd ran
  rw [← came]
  exact makes w

end Makes

def Context.Warned (x y : Context) : Prop := y = { x with warnings := y.warnings }

theorem Context.Warned.steady {x y : Context} (warned : Warned x y) : Steady x y := by
  rw [warned]
  exact ⟨rfl, rfl, rfl, fun _ _ => id⟩

/-- A program composed of calls of `P`, of progress, and of changes of the context that `C` allows. How it goes on
may depend on what it was answered, of which `Q` is known. -/
inductive Composed (host : Host σ) (P : Call → Prop) (C : Context → Context → Prop) :
    {α : Type} → StateM (World σ) α → Prop
  | read {α : Type} (f : Context → α) : Composed host P C fun w => (f w.context, w)
  | call (c : Call) (made : P c) : Composed host P C (perform host c)
  | emit (e : Event) : Composed host P C (emit e)
  | context {α : Type} (g : Context → α × Context) (allowed : ∀ x, C x (g x).2) :
    Composed host P C fun w => ((g w.context).1, { w with context := (g w.context).2 })
  | bind {α β : Type} {x : StateM (World σ) α} {f : α → StateM (World σ) β} (Q : α → Prop)
    (answers : ∀ w : World σ, Q (w.run x).1) (first : Composed host P C x)
    (rest : ∀ a, Q a → Composed host P C (f a)) : Composed host P C (x >>= f)

/-- A program that acts: it may add variables to the environment. -/
def Acts (host : Host σ) (P : Call → Prop) (x : StateM (World σ) α) : Prop := Composed host P Context.Steady x

/-- A program that looks: it may add warnings to the context. -/
def Looks (host : Host σ) (P : Call → Prop) (x : StateM (World σ) α) : Prop := Composed host P Context.Warned x

def Bare (host : Host σ) (P : Call → Prop) (x : StateM (World σ) α) : Prop := Composed host P Eq x

namespace Composed

variable {host : Host σ} {P Q : Call → Prop} {C D : Context → Context → Prop}

theorem mono {x : StateM (World σ) α} (composed : Composed host P C x) (calls : ∀ c, P c → Q c)
    (contexts : ∀ x y, C x y → D x y) : Composed host Q D x := by
  induction composed with
  | read f => exact .read f
  | call c made => exact .call c (calls c made)
  | emit e => exact .emit e
  | context g allowed => exact .context g fun x => contexts _ _ (allowed x)
  | bind known answers _ _ ihFirst ihRest => exact .bind known answers ihFirst ihRest

theorem pure (a : α) : Composed host P C (Pure.pure a) := .read fun _ => a

theorem andThen {x : StateM (World σ) α} {f : α → StateM (World σ) β} (first : Composed host P C x)
    (rest : ∀ a, Composed host P C (f a)) : Composed host P C (x >>= f) :=
  .bind (fun _ => True) (fun _ => trivial) first fun a _ => rest a

theorem getContext : Composed host P C (getContext (σ := σ)) := .read id

theorem command (line : String) (user cwd : Option String) (extra : SortedMap String)
    (made : ∀ env, P (.run line user cwd env)) : Composed host P C (runCommand host line user cwd extra) :=
  getContext.andThen fun _ => .call _ (made _)

theorem tryPure (a : α) : Composed host P C (Pure.pure a : Action σ α).run :=
  pure (Except.ok a)

theorem tryThrow (e : Error) : Composed host P C (throw e : Action σ α).run :=
  pure (Except.error e)

theorem tryExcept (x : Except Error α) : Composed host P C (liftM x : Action σ α).run := by
  cases x with
  | error e => exact tryThrow e
  | ok a => exact tryPure a

theorem tryContext : Composed host P C (Action.getContext (σ := σ)).run :=
  .read (Except.ok (ε := Error))

theorem tryModify {f : Context → Context} (allowed : ∀ x, C x (f x)) :
    Composed host P C (Action.modifyContext (σ := σ) f).run :=
  .context (fun x => (Except.ok (ε := Error) (), f x)) allowed

theorem ofReply {x : StateM (World σ) (Except Fault α)} (composed : Composed host P C x) :
    Composed host P C (Action.ofReply x).run :=
  composed.andThen fun _ => pure _

theorem lift {x : StateM (World σ) α} (composed : Composed host P C x) :
    Composed host P C (liftM x : Action σ α).run :=
  composed.andThen fun _ => pure _

theorem ask {x : StateM (World σ) (Except Fault α)} (composed : Composed host P C x) (context : String) :
    Composed host P C (Check.ask x context).run :=
  composed.andThen fun _ => pure _

theorem tryBindOf {x : Action σ α} {f : α → Action σ β} (K : α → Prop) (first : Composed host P C x.run)
    (answers : ∀ (w next : World σ) a, w.run x.run = (.ok a, next) → K a)
    (rest : ∀ a, K a → Composed host P C (f a).run) : Composed host P C (x >>= f).run := by
  refine .bind (f := ExceptT.bindCont f) (fun r => ∀ a, r = .ok a → K a) ?_ first ?_
  · intro w a told
    exact answers w (w.run x.run).2 a (Prod.ext told rfl)
  · intro r known
    cases r with
    | error e => exact pure (Except.error e)
    | ok a => exact rest a (known a rfl)

theorem tryBind {x : Action σ α} {f : α → Action σ β} (first : Composed host P C x.run)
    (rest : ∀ a, Composed host P C (f a).run) : Composed host P C (x >>= f).run :=
  tryBindOf (fun _ => True) first (fun _ _ _ _ => trivial) fun a _ => rest a

end Composed

namespace Acts

variable {host : Host σ} {P Q : Call → Prop}

theorem makes {x : StateM (World σ) α} (acts : Acts host P x) : Makes host P x := by
  induction acts with
  | read f => exact fun w => .refl w
  | call c made => exact fun _ => ⟨⟨[c], rfl, rfl, by simpa using made⟩, .refl _⟩
  | emit e => exact fun _ => ⟨⟨[], (List.append_nil _).symm, rfl, by simp⟩, .refl _⟩
  | context g allowed => exact fun w => ⟨⟨[], (List.append_nil _).symm, rfl, by simp⟩, allowed w.context⟩
  | bind _ answers _ _ ihFirst ihRest => exact fun w => (ihFirst w).trans (ihRest _ (answers w) (w.run _).2)

theorem made {x : StateM (World σ) α} (acts : Acts host P x) {w next : World σ} {a : α} (ran : w.run x = (a, next)) :
    Made host P w next :=
  acts.makes.made ran

theorem mono {x : StateM (World σ) α} (acts : Acts host P x) (weaker : ∀ c, P c → Q c) : Acts host Q x :=
  Composed.mono acts weaker fun _ _ => id

variable (host) in
theorem tryChanges {x : Action σ α} {f : α → Action σ β} {w : World σ} (first : Changes w (w.run x.run).2)
    (rest : ∀ a, Acts host P (f a).run) : Changes w (w.run (x >>= f).run).2 := by
  have step : w.run (x >>= f).run = (w.run x.run).2.run (ExceptT.bindCont f (w.run x.run).1) := rfl
  rw [step]
  cases (w.run x.run).1 with
  | error e => exact first
  | ok a => exact first.later ((rest a).makes.adds _)

end Acts

namespace Looks

variable {host : Host σ} {P Q : Call → Prop}

theorem acts {x : StateM (World σ) α} (looks : Looks host P x) (weaker : ∀ c, P c → Q c) : Acts host Q x :=
  Composed.mono looks weaker fun _ _ => Context.Warned.steady

end Looks

namespace Bare

variable {host : Host σ} {P Q : Call → Prop}

theorem mono {x : StateM (World σ) α} (bare : Bare host P x) (weaker : ∀ c, P c → Q c) : Bare host Q x :=
  Composed.mono bare weaker fun _ _ => id

theorem acts {x : StateM (World σ) α} (bare : Bare host P x) : Acts host P x := by
  refine Composed.mono bare (fun _ => id) ?_
  rintro x _ rfl
  exact .refl x

theorem looks {x : StateM (World σ) α} (bare : Bare host P x) : Looks host P x := by
  refine Composed.mono bare (fun _ => id) ?_
  rintro x _ rfl
  rfl

theorem context {x : StateM (World σ) α} (bare : Bare host P x) (w : World σ) : (w.run x).2.context = w.context := by
  induction bare generalizing w with
  | read f => rfl
  | call c made => rfl
  | emit e => rfl
  | context g same => exact (same w.context).symm
  | bind _ answers _ _ ihFirst ihRest => exact (ihRest _ (answers w) _).trans (ihFirst w)

end Bare

end Provision

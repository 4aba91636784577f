import Provision.Proofs.Foresight
import Provision.Proofs.MachineHost
import Provision.Proofs.ResourceCalls
import Provision.Proofs.RunOrder

namespace Provision

variable {σ : Type} {host : Host σ} {P : Call → Prop} {base : World σ} {opts : RunOptions} {r : Resource}

def Resource.GuardCall (env : Environment) (r : Resource) (c : Call) : Prop :=
  ∃ g ∈ r.guards, ∃ line user cwd, g.check = .command line user cwd ∧ c = .run line user cwd env.vars

def RunList.Harmless (l : RunList) (env : Environment) (c : Call) : Prop :=
  c.mutates = false ∧ (c.isRun = true → ∃ r ∈ l.resources, r.GuardCall env c)

/-- A torn site whose guards permit its action. -/
def Resource.Torn (host : Host σ) (opts : RunOptions) (w : World σ) (r : Resource) : Prop :=
  (∃ s, r.spec = .site s ∧ s.Torn host w r.name) ∧
    (w.run (Converge.verdictOf host opts r)).1 = .ok .permit

theorem LooksLike.refl (w : World σ) : LooksLike host w w := ⟨.refl _, rfl, rfl, rfl⟩

theorem PendingChange.ofReport?_drifted {x : ResourceReport} {change : String}
    (drifted : x.outcome = .skipped (dryRunLead ++ change)) : ofReport? x = some ⟨x.id, x.kind, change⟩ := by
  have lead : Text.dropLead? dryRunLead.toList (dryRunLead ++ change).toList = some change.toList := by
    rw [Text.dropLead?_eq_some_iff, String.toList_append]
  simp only [ofReport?, drifted, Text.stripLead?, lead, Option.map_some, String.ofList_toList]

namespace Converge

/-- In every world that looks like `base`, the resource comes to the outcome and leaves no trace. -/
def Comes (host : Host σ) (P : Call → Prop) (base : World σ) (opts : RunOptions) (r : Resource) (dryRun : Bool)
    (outcome : Outcome) (warnings : List String) : Prop :=
  ∀ w, LooksLike host base w → w.context.dryRun = dryRun →
    (w.run (resourceOutcome host opts r)).1 = outcome ∧
      Traceless host P base warnings w (w.run (resourceOutcome host opts r)).2

theorem comes_of_error {e : Error} (guards : Tells host P base (verdictOf host opts r) (.error e) [])
    (dryRun : Bool) : Comes host P base opts r dryRun (.ofError e) [] := by
  intro w like _
  obtain ⟨verdict, less⟩ := guards w like
  rw [run_resourceOutcome, verdict]
  exact ⟨rfl, less⟩

theorem comes_of_block {reason : String}
    (guards : Tells host P base (verdictOf host opts r) (.ok (.block reason)) []) (dryRun : Bool) :
    Comes host P base opts r dryRun (.skipped reason) [] := by
  intro w like _
  obtain ⟨verdict, less⟩ := guards w like
  rw [run_resourceOutcome, verdict]
  exact ⟨rfl, less.machine, less.context, less.calls⟩

theorem told_looksLike {w : World σ} (like : LooksLike host base w) (phase : Phase) :
    LooksLike host base (told r phase w) :=
  ⟨like.machine, like.env, like.node, like.onConflict⟩

theorem comes_of_check {seen : Except Error Drift} {warnings : List String}
    (guards : Tells host P base (verdictOf host opts r) (.ok .permit) [])
    (checked : Tells host P base (r.spec.check host r.name).run seen warnings) :
    Comes host P base opts r true (ofCheck seen) warnings := by
  intro w like dry
  obtain ⟨verdict, less⟩ := guards w like
  have stillDry : (w.run (verdictOf host opts r)).2.context.dryRun = true := by rw [less.context]; exact dry
  obtain ⟨answer, after⟩ := checked _ (told_looksLike (like.after less) .guardChecked)
  rw [run_resourceOutcome, verdict, concluded, if_pos stillDry, answer]
  exact ⟨rfl, less.trans ⟨after.machine, after.context, after.calls⟩⟩

theorem comes_of_apply {done : Except Error Change} {warnings : List String}
    (guards : Tells host P base (verdictOf host opts r) (.ok .permit) [])
    (applied : Tells host P base (r.spec.apply host r.name).run done warnings) :
    Comes host P base opts r false (ofApply done) warnings := by
  intro w like real
  obtain ⟨verdict, less⟩ := guards w like
  have stillReal : ¬ (w.run (verdictOf host opts r)).2.context.dryRun = true := by simp [less.context, real]
  obtain ⟨answer, after⟩ := applied _ (told_looksLike (told_looksLike (like.after less) .guardChecked) .applying)
  rw [run_resourceOutcome, verdict, concluded, if_neg stillReal, answer]
  exact ⟨rfl, less.trans ⟨after.machine, after.context, after.calls⟩⟩

theorem check_torn (discreet : Discreet host P base) {s : Site} {name : String} (torn : s.Torn host base name) :
    ∃ e, Tells host P base (s.check host name).run (.error e) [] := by
  obtain ⟨rendering, fault, made, -, read⟩ := torn
  have rendered := s.render_told discreet name
  have looked := (discreet.look (.readLink (s.linkPath name)) rfl rfl).ofReply
  rw [made] at rendered
  rw [read] at looked
  exact ⟨_, rendered.tryBind (looked.tryBindError.tryBindError)⟩

/-- A resource has one outcome in dry runs. It is no change, and unless it is drift or the resource is
torn, it is the outcome in real runs too. -/
theorem resourceOutcome_foreseen (discreet : Discreet host P base) (fit : r.spec.problem? = none)
    (allowed : ∀ c, r.GuardCall base.context.env c → P c) :
    ∃ outcome warnings, Comes host P base opts r true outcome warnings ∧ outcome.isChange = false ∧
      ((∀ change, outcome ≠ .skipped (dryRunLead ++ change)) → ¬ r.Torn host opts base →
        Comes host P base opts r false outcome warnings) := by
  obtain ⟨verdict, guards, owned⟩ := r.guards_told discreet (r.onGuardError.getD opts.onGuardError)
    fun g member line user cwd same => allowed _ ⟨g, member, line, user, cwd, same, rfl⟩
  change Tells host P base (verdictOf host opts r) verdict [] at guards
  rcases verdict with e | _ | reason
  · exact ⟨_, _, comes_of_error guards true, rfl, fun _ _ => comes_of_error guards false⟩
  · by_cases torn : ∃ s, r.spec = .site s ∧ s.Torn host base r.name
    · obtain ⟨s, spec, torn⟩ := torn
      obtain ⟨e, failed⟩ := check_torn discreet torn
      have checked : Tells host P base (r.spec.check host r.name).run (.error e) [] := by
        rw [spec]
        exact failed
      refine ⟨_, _, comes_of_check guards checked, rfl, ?_⟩
      intro _ whole
      exact absurd ⟨⟨s, spec, torn⟩, (guards base (.refl base)).1⟩ whole
    · have whole : ∀ s, r.spec = .site s → ¬ s.Torn host base r.name :=
        fun s spec tornSite => torn ⟨s, spec, tornSite⟩
      obtain ⟨seen, warnings, checked, synced, failed⟩ := Spec.agree discreet fit (owned rfl) whole
      refine ⟨_, _, comes_of_check guards checked, ?_, ?_⟩
      · rcases seen with e | _ | change <;> rfl
      · intro noDrift _
        rcases seen with e | _ | change
        · exact comes_of_apply guards (failed e rfl)
        · exact comes_of_apply guards (synced rfl)
        · exact absurd rfl (noDrift change)
  · exact ⟨_, _, comes_of_block guards true, rfl, fun _ _ => comes_of_block guards false⟩

theorem write_changes {rendering : Rendering} (stale : rendering.isCurrent = false) (w : World σ) :
    Changes w (w.run (rendering.write host).run).2 := by
  have wrote : Changes w (w.run (Action.ofReply (perform host (.write rendering.path rendering.content))).run).2 :=
    ⟨[.write rendering.path rendering.content], rfl, _, List.mem_singleton.mpr rfl, rfl⟩
  simp only [Rendering.write, stale]
  exact Acts.tryChanges host (P := fun _ => True) wrote fun _ => .tryPure _

theorem apply_torn_changes (discreet : Discreet host P base) {s : Site} {name : String}
    (torn : s.Torn host base name) {w : World σ} (like : LooksLike host base w) :
    Changes w (w.run (s.apply host name).run).2 := by
  obtain ⟨rendering, fault, made, stale, -⟩ := torn
  obtain ⟨answer, less⟩ := s.render_told discreet name w like
  rw [made] at answer
  rw [Site.apply_eq, World.try_bind]
  rcases rendered : w.run (s.render host name).run with ⟨reply, next⟩
  rw [rendered] at answer less
  cases answer
  have wrote : Changes next (next.run (rendering.write host).run).2 := write_changes stale next
  exact Changes.earlier less.calls (Acts.tryChanges host wrote fun written => s.finish_acts host name written)

theorem resourceOutcome_torn (discreet : Discreet host P base) (torn : r.Torn host opts base)
    (allowed : ∀ c, r.GuardCall base.context.env c → P c) {w : World σ} (like : LooksLike host base w)
    (real : w.context.dryRun = false) : Changes w (w.run (resourceOutcome host opts r)).2 := by
  obtain ⟨⟨s, spec, torn⟩, permitted⟩ := torn
  obtain ⟨verdict, guards, -⟩ := r.guards_told discreet (r.onGuardError.getD opts.onGuardError)
    fun g member line user cwd same => allowed _ ⟨g, member, line, user, cwd, same, rfl⟩
  change Tells host P base (verdictOf host opts r) verdict [] at guards
  have permits : verdict = .ok .permit := (guards base (.refl base)).1.symm.trans permitted
  subst permits
  obtain ⟨answer, less⟩ := guards w like
  have stillReal : ¬ (w.run (verdictOf host opts r)).2.context.dryRun = true := by simp [less.context, real]
  have changed := apply_torn_changes discreet torn
    (told_looksLike (r := r) (told_looksLike (r := r) (like.after less) .guardChecked) .applying)
  rw [run_resourceOutcome, answer, concluded, if_neg stillReal, spec]
  exact Changes.earlier less.calls changed

def Foretold (host : Host σ) (P : Call → Prop) (base : World σ) (opts : RunOptions) (r : Resource) (dryRun : Bool)
    (x : ResourceReport) : Prop :=
  ∀ w, LooksLike host base w → w.context.dryRun = dryRun →
    (w.run (oneResource host opts r)).1 = x ∧ LooksLike host base (w.run (oneResource host opts r)).2 ∧
      (w.run (oneResource host opts r)).2.context.dryRun = dryRun ∧ Adds P w (w.run (oneResource host opts r)).2

theorem Comes.foretold {dryRun : Bool} {outcome : Outcome} {warnings : List String}
    (comes : Comes host P base opts r dryRun outcome warnings) :
    Foretold host P base opts r dryRun ⟨r.kind.tag, r.name, r.bestEffort, outcome, warnings⟩ := by
  intro w like same
  have opening : LooksLike host base (opened r w) := ⟨like.machine, like.env, like.node, like.onConflict⟩
  obtain ⟨answer, less⟩ := comes (opened r w) opening same
  have after := opening.after less
  rw [run_oneResource, answer]
  refine ⟨?_, ⟨after.machine, after.env, after.node, after.onConflict⟩, ?_, less.calls⟩
  · rw [less.context]
    rfl
  · change ((opened r w).run (resourceOutcome host opts r)).2.context.dryRun = dryRun
    rw [less.context]
    exact same

theorem oneResource_foreseen (discreet : Discreet host P base) (fit : r.spec.problem? = none)
    (allowed : ∀ c, r.GuardCall base.context.env c → P c) :
    ∃ x, Foretold host P base opts r true x ∧ x.outcome.isChange = false ∧
      (PendingChange.ofReport? x = none → ¬ r.Torn host opts base → Foretold host P base opts r false x) := by
  obtain ⟨outcome, warnings, dry, noChange, real⟩ : ∃ _ _, Comes host P base opts r true _ _ ∧ _ :=
    resourceOutcome_foreseen discreet fit allowed
  refine ⟨_, dry.foretold, noChange, ?_⟩
  intro noDrift whole
  refine (real ?_ whole).foretold
  intro change drifted
  rw [PendingChange.ofReport?_drifted drifted] at noDrift
  cases noDrift

theorem oneResource_torn (discreet : Discreet host P base) (torn : r.Torn host opts base)
    (allowed : ∀ c, r.GuardCall base.context.env c → P c) {w : World σ} (like : LooksLike host base w)
    (real : w.context.dryRun = false) : Changes w (w.run (oneResource host opts r)).2 := by
  have opening : LooksLike host base (opened r w) := ⟨like.machine, like.env, like.node, like.onConflict⟩
  have openedReal : (opened r w).context.dryRun = false := real
  rw [run_oneResource]
  exact resourceOutcome_torn discreet torn allowed opening openedReal

def Admitted (P : Call → Prop) (base : World σ) (rs : List Resource) : Prop :=
  ∀ r ∈ rs, r.spec.problem? = none ∧ ∀ c, r.GuardCall base.context.env c → P c

variable {rs : List Resource} {w v : World σ}

theorem eachResource_agrees (discreet : Discreet host P base) (admitted : Admitted P base rs)
    (likeW : LooksLike host base w) (dry : w.context.dryRun = true)
    (likeV : LooksLike host base v) (real : v.context.dryRun = false) (i : Nat) (x : ResourceReport)
    (here : (w.run (eachResource host opts rs)).1[i]? = some x)
    (noDrift : ∀ j, j ≤ i → ∀ y, (w.run (eachResource host opts rs)).1[j]? = some y →
      PendingChange.ofReport? y = none)
    (whole : ∀ j, j ≤ i → ∀ r, rs[j]? = some r → ¬ r.Torn host opts base) :
    (v.run (eachResource host opts rs)).1[i]? = some x := by
  induction rs generalizing w v i with
  | nil => simp [eachResource] at here
  | cons r rest ih =>
    obtain ⟨fit, allowed⟩ := admitted r List.mem_cons_self
    obtain ⟨y, dryReport, -, realReport⟩ : ∃ y, Foretold host P base opts r true y ∧ _ :=
      oneResource_foreseen discreet fit allowed
    obtain ⟨answerW, likeAfterW, dryAfter, -⟩ := dryReport w likeW dry
    rw [run_eachResource_cons, answerW] at here noDrift
    have first : PendingChange.ofReport? y = none := noDrift 0 (Nat.zero_le i) y (by split <;> rfl)
    obtain ⟨answerV, likeAfterV, realAfter, -⟩ := realReport first (whole 0 (Nat.zero_le i) r rfl) v likeV real
    rw [run_eachResource_cons, answerV]
    -- Both runs have the report of this resource, so both stop here or both go on.
    by_cases stops : y.aborts = true
    · rw [if_pos stops] at here ⊢
      exact here
    · rw [if_neg stops] at here noDrift ⊢
      cases i with
      | zero => exact here
      | succ i =>
        refine ih (fun r member => admitted r (List.mem_cons_of_mem _ member)) likeAfterW dryAfter likeAfterV
          realAfter i here ?_ ?_
        · exact fun j bound z present => noDrift (j + 1) (Nat.succ_le_succ bound) z present
        · exact fun j bound r present => whole (j + 1) (Nat.succ_le_succ bound) r present

theorem eachResource_noChange (discreet : Discreet host P base) (admitted : Admitted P base rs)
    (like : LooksLike host base w) (dry : w.context.dryRun = true) :
    ∀ y ∈ (w.run (eachResource host opts rs)).1, y.outcome.isChange = false := by
  induction rs generalizing w with
  | nil => simp [eachResource]
  | cons r rest ih =>
    obtain ⟨fit, allowed⟩ := admitted r List.mem_cons_self
    obtain ⟨x, dryReport, noChange, -⟩ : ∃ x, Foretold host P base opts r true x ∧ _ :=
      oneResource_foreseen discreet fit allowed
    obtain ⟨answer, likeAfter, dryAfter, -⟩ := dryReport w like dry
    rw [run_eachResource_cons, answer]
    intro y member
    by_cases stops : x.aborts = true
    · rw [if_pos stops, List.mem_singleton] at member
      rw [member]
      exact noChange
    · rw [if_neg stops, List.mem_cons] at member
      rcases member with rfl | member
      · exact noChange
      · exact ih (fun r member => admitted r (List.mem_cons_of_mem _ member)) likeAfter dryAfter y member

theorem eachResource_quiet (discreet : Discreet host P base) (admitted : Admitted P base rs)
    (likeW : LooksLike host base w) (dry : w.context.dryRun = true)
    (likeV : LooksLike host base v) (real : v.context.dryRun = false)
    (noDrift : ∀ y ∈ (w.run (eachResource host opts rs)).1, PendingChange.ofReport? y = none)
    (whole : ∀ j r, j < (w.run (eachResource host opts rs)).1.length → rs[j]? = some r → ¬ r.Torn host opts base) :
    (v.run (eachResource host opts rs)).1 = (w.run (eachResource host opts rs)).1 ∧
      LooksLike host base (v.run (eachResource host opts rs)).2 ∧ Adds P v (v.run (eachResource host opts rs)).2 := by
  induction rs generalizing w v with
  | nil => exact ⟨rfl, likeV, .refl v⟩
  | cons r rest ih =>
    obtain ⟨fit, allowed⟩ := admitted r List.mem_cons_self
    obtain ⟨y, dryReport, -, realReport⟩ : ∃ y, Foretold host P base opts r true y ∧ _ :=
      oneResource_foreseen discreet fit allowed
    obtain ⟨answerW, likeAfterW, dryAfter, -⟩ := dryReport w likeW dry
    rw [run_eachResource_cons, answerW] at noDrift whole
    have first : PendingChange.ofReport? y = none := noDrift y (by split <;> simp)
    have wholeFirst : ¬ r.Torn host opts base := whole 0 r (by split <;> simp) rfl
    obtain ⟨answerV, likeAfterV, realAfter, adds⟩ := realReport first wholeFirst v likeV real
    rw [run_eachResource_cons host opts r rest v, run_eachResource_cons host opts r rest w, answerW, answerV]
    by_cases stops : y.aborts = true
    · rw [if_pos stops, if_pos stops]
      exact ⟨rfl, likeAfterV, adds⟩
    · rw [if_neg stops] at noDrift whole
      rw [if_neg stops, if_neg stops]
      obtain ⟨same, likeLast, addsAfter⟩ := ih (fun r member => admitted r (List.mem_cons_of_mem _ member))
        likeAfterW dryAfter likeAfterV realAfter (fun z member => noDrift z (List.mem_cons_of_mem _ member))
        (fun j s bound present => whole (j + 1) s (Nat.succ_lt_succ bound) present)
      exact ⟨by rw [same], likeLast, adds.trans addsAfter⟩

theorem eachResource_torn (discreet : Discreet host P base) (admitted : Admitted P base rs)
    (likeW : LooksLike host base w) (dry : w.context.dryRun = true)
    (likeV : LooksLike host base v) (real : v.context.dryRun = false)
    (noDrift : ∀ y ∈ (w.run (eachResource host opts rs)).1, PendingChange.ofReport? y = none)
    {j : Nat} (reached : j < (w.run (eachResource host opts rs)).1.length) (present : rs[j]? = some r)
    (torn : r.Torn host opts base) : Changes v (v.run (eachResource host opts rs)).2 := by
  induction rs generalizing w v j with
  | nil => cases present
  | cons s rest ih =>
    obtain ⟨fit, allowed⟩ := admitted s List.mem_cons_self
    -- Up to the first torn site nothing drifts, so the real run gets there.
    by_cases tornFirst : s.Torn host opts base
    · have changed := oneResource_torn discreet tornFirst allowed likeV real
      rw [run_eachResource_cons]
      split
      · exact changed
      · exact changed.later ((eachResource_acts host opts rest).makes.adds _)
    · obtain ⟨y, dryReport, -, realReport⟩ : ∃ y, Foretold host P base opts s true y ∧ _ :=
        oneResource_foreseen discreet fit allowed
      obtain ⟨answerW, likeAfterW, dryAfter, -⟩ := dryReport w likeW dry
      rw [run_eachResource_cons, answerW] at noDrift reached
      have first : PendingChange.ofReport? y = none := noDrift y (by split <;> simp)
      obtain ⟨answerV, likeAfterV, realAfter, adds⟩ := realReport first tornFirst v likeV real
      have later : j ≠ 0 := by
        rintro rfl
        cases present
        exact tornFirst torn
      obtain ⟨j, rfl⟩ := Nat.exists_eq_succ_of_ne_zero later
      rw [run_eachResource_cons, answerV]
      by_cases stops : y.aborts = true
      · rw [if_pos stops] at reached
        simp at reached
      · rw [if_neg stops] at noDrift reached ⊢
        have changed := ih (fun r member => admitted r (List.mem_cons_of_mem _ member)) likeAfterW dryAfter likeAfterV
          realAfter (fun z member => noDrift z (List.mem_cons_of_mem _ member)) (Nat.lt_of_succ_lt_succ reached) present
        exact Changes.earlier adds changed

theorem eachResource_dryRun (dryRun : Bool) (rs : List Resource) :
    eachResource host { opts with dryRun } rs = eachResource host opts rs := by
  induction rs with
  | nil => rfl
  | cons r rest ih =>
    simp only [eachResource, ih]
    rfl

variable {l : RunList}

theorem walked_dryRun (dryRun : Bool) : walked host { opts with dryRun } l w =
    (entered { opts with dryRun } l w).run (eachResource host opts l.resources) := by
  unfold walked
  rw [eachResource_dryRun]

theorem entered_looksLike (opts : RunOptions) (l : RunList) (w : World σ) (dryRun : Bool) :
    LooksLike host (entered opts l w) (entered { opts with dryRun } l w) :=
  ⟨.refl _, rfl, rfl, rfl⟩

/-- One of the first resources is torn where the run starts. -/
def TornBefore (host : Host σ) (opts : RunOptions) (l : RunList) (w : World σ) (n : Nat) : Prop :=
  ∃ j r, j < n ∧ l.resources[j]? = some r ∧ Resource.Torn host opts (entered opts l w) r

theorem entered_discreet (quiet : ∀ c, l.Harmless w.context.env c → host.Quiet w.machine c) :
    Discreet host (l.Harmless w.context.env) (entered opts l w) :=
  ⟨fun c mutates isRun => ⟨mutates, by simp [isRun]⟩, quiet⟩

theorem admitted_of_valid (valid : l.validate opts.nameScope = .ok ()) :
    Admitted (l.Harmless w.context.env) (entered opts l w) l.resources := by
  intro r member
  refine ⟨RunList.fit_of_valid valid r member, ?_⟩
  rintro c ⟨g, declared, line, user, cwd, check, rfl⟩
  exact ⟨rfl, fun _ => ⟨r, member, g, declared, line, user, cwd, check, rfl⟩⟩

section

variable (opts)
variable (quiet : ∀ c, l.Harmless w.context.env c → host.Quiet w.machine c)
variable (valid : l.validate opts.nameScope = .ok ())
include quiet valid

theorem walked_agrees (i : Nat) (x : ResourceReport)
    (here : (walked host { opts with dryRun := true } l w).1[i]? = some x)
    (noDrift : ∀ j, j ≤ i → ∀ y, (walked host { opts with dryRun := true } l w).1[j]? = some y →
      PendingChange.ofReport? y = none)
    (whole : ¬ TornBefore host opts l w (i + 1)) :
    (walked host { opts with dryRun := false } l w).1[i]? = some x := by
  rw [walked_dryRun] at here noDrift ⊢
  refine eachResource_agrees (entered_discreet quiet) (admitted_of_valid valid) (entered_looksLike opts l w true) rfl
    (entered_looksLike opts l w false) rfl i x here noDrift ?_
  exact fun j bound r present torn => whole ⟨j, r, Nat.lt_succ_of_le bound, present, torn⟩

theorem walked_noChange :
    ∀ y ∈ (walked host { opts with dryRun := true } l w).1, y.outcome.isChange = false := by
  rw [walked_dryRun]
  exact eachResource_noChange (entered_discreet quiet) (admitted_of_valid valid) (entered_looksLike opts l w true) rfl

variable (noDrift : ∀ y ∈ (walked host { opts with dryRun := true } l w).1, PendingChange.ofReport? y = none)
include noDrift

theorem walked_quiet
    (whole : ¬ TornBefore host opts l w (walked host { opts with dryRun := true } l w).1.length) :
    (walked host { opts with dryRun := false } l w).1 = (walked host { opts with dryRun := true } l w).1 ∧
      LooksLike host (entered opts l w) (walked host { opts with dryRun := false } l w).2 ∧
      Adds (l.Harmless w.context.env) w (walked host { opts with dryRun := false } l w).2 := by
  rw [walked_dryRun] at noDrift whole
  rw [walked_dryRun, walked_dryRun]
  refine eachResource_quiet (entered_discreet quiet) (admitted_of_valid valid) (entered_looksLike opts l w true) rfl
    (entered_looksLike opts l w false) rfl noDrift ?_
  exact fun j r bound present torn => whole ⟨j, r, bound, present, torn⟩

theorem walked_torn
    (torn : TornBefore host opts l w (walked host { opts with dryRun := true } l w).1.length) :
    Changes w (walked host { opts with dryRun := false } l w).2 := by
  rw [walked_dryRun] at noDrift torn
  rw [walked_dryRun]
  obtain ⟨j, r, reached, present, torn⟩ := torn
  exact eachResource_torn (entered_discreet quiet) (admitted_of_valid valid) (entered_looksLike opts l w true) rfl
    (entered_looksLike opts l w false) rfl noDrift reached present torn

end

end Converge

open Converge in
/-- What a dry run says about the real run from the same world, where looking and the commands of the
guards leave no trace. Up to the first drift the real run has the same reports, if no torn site is
among them. If there is no drift, the real run changes something just if it reaches a torn site, and
otherwise it is as the dry run says and leaves no trace. -/
theorem dryRun_foresees (opts : RunOptions) {l : RunList} {w wd wr : World σ} {preview real : RunReport}
    (quiet : ∀ c, l.Harmless w.context.env c → host.Quiet w.machine c)
    (previewed : w.run (converge host l { opts with dryRun := true }).run = (.ok preview, wd))
    (ran : w.run (converge host l { opts with dryRun := false }).run = (.ok real, wr)) :
    (∀ i x, preview.resources[i]? = some x →
      (∀ j, j ≤ i → ∀ y, preview.resources[j]? = some y → PendingChange.ofReport? y = none) →
      ¬ TornBefore host opts l w (i + 1) → real.resources[i]? = some x) ∧
    (preview.pendingChanges = [] →
      (Changes w wr ↔ TornBefore host opts l w preview.resources.length) ∧
      (¬ Changes w wr → real.resources = preview.resources ∧ real.state = preview.state ∧
        real.notifications = [] ∧ wr.context.env = w.context.env ∧ host.Alike wr.machine w.machine ∧
        Adds (l.Harmless w.context.env) w wr)) := by
  obtain ⟨valid, rfl, rfl⟩ := converge_eq_ok previewed
  obtain ⟨-, rfl, rfl⟩ := converge_eq_ok ran
  refine ⟨walked_agrees opts quiet valid, ?_⟩
  intro pending
  have noDrift : ∀ y ∈ (walked host { opts with dryRun := true } l w).1, PendingChange.ofReport? y = none := by
    simpa [RunReport.pendingChanges, reportOf] using pending
  -- A torn site that is reached writes its configuration; without one every resource only looks.
  by_cases torn : TornBefore host opts l w (walked host { opts with dryRun := true } l w).1.length
  · have changed : Changes w (worldOf host { opts with dryRun := false } l w) :=
      (walked_torn opts quiet valid noDrift torn).later (notified_made host _ l w).adds
    exact ⟨iff_of_true changed torn, fun unchanged => absurd changed unchanged⟩
  · obtain ⟨same, like, adds⟩ := walked_quiet opts quiet valid noDrift torn
    have noChange := walked_noChange opts quiet valid
    rw [← same] at noChange
    have silent := notified_noChange noChange
    have harmless : Adds (l.Harmless w.context.env) w (worldOf host { opts with dryRun := false } l w) := by
      simpa [Adds, worldOf, silent] using adds
    have unchanged := harmless.not_changes fun c allowed => allowed.1
    refine ⟨iff_of_false unchanged torn, fun _ => ⟨same, ?_, ?_, ?_, ?_, harmless⟩⟩
    · simp [reportOf, finalState, silent, same, notified_dry]
    · simp [reportOf, silent]
    · rw [worldOf, silent]
      exact like.env
    · rw [worldOf, silent]
      exact like.machine

def settledList : RunList :=
  ⟨[.ofResource
    { name := "conf"
      spec := .renderedFile ⟨"/etc/app.conf", "app.j2", []⟩
      guards := [⟨.onlyIf, .command "enabled" none none⟩] } []]⟩

def settledWorld : World Machine where
  machine := { Machine.empty with
    files := [("/etc/app.conf", { content := "on" })], renderer := fun _ _ => .ok "on" }
  context := ⟨false, false, .empty, .object [], .warn, []⟩
  calls := []
  events := []

open Converge in
theorem dryRun_foresees_settled :
    (∀ c, settledList.Harmless settledWorld.context.env c → Machine.host.Quiet settledWorld.machine c) ∧
      (reportOf Machine.host { dryRun := true } settledList settledWorld).pendingChanges = [] ∧
      (reportOf Machine.host {} settledList settledWorld).resources =
        (reportOf Machine.host { dryRun := true } settledList settledWorld).resources := by
  have valid : settledList.validate .perKind = .ok () := by rfl
  have quiet : ∀ c, settledList.Harmless settledWorld.context.env c → Machine.host.Quiet settledWorld.machine c := by
    intro c harmless
    obtain ⟨mutates, guards⟩ := harmless
    by_cases isRun : c.isRun = true
    · obtain ⟨r, member, g, declared, line, user, cwd, -, rfl⟩ := guards isRun
      exact Machine.run_quiet user cwd _ rfl
    · exact Machine.look_quiet mutates (Bool.eq_false_iff.mpr isRun) _
  have pending : (reportOf Machine.host { dryRun := true } settledList settledWorld).pendingChanges = [] := by
    decide +kernel
  have noSite : ∀ n, ¬ TornBefore Machine.host {} settledList settledWorld n := by
    rintro n ⟨j, r, -, present, ⟨s, spec, -⟩, -⟩
    rw [List.mem_singleton.mp (List.mem_of_getElem? present)] at spec
    cases spec
  have foreseen := (dryRun_foresees {} quiet (converge_of_valid valid settledWorld)
    (converge_of_valid valid settledWorld)).2 pending
  have unchanged := (not_congr foreseen.1).mpr (noSite _)
  exact ⟨quiet, pending, (foreseen.2 unchanged).1⟩

def tornList : RunList :=
  ⟨[.ofResource { name := "a", spec := .site { serverName := "a.org", docroot := "/srv" }, bestEffort := true } []]⟩

def tornWorld : World Machine where
  machine := { Machine.empty with
    failures := [("read_link /etc/apache2/sites-enabled/a.conf", .ofText "denied")] }
  context := ⟨false, false, .empty, .object [], .warn, []⟩
  calls := []
  events := []

open Converge in
/-- The dry run completes without drift, and the real run writes the configuration all the same. -/
theorem dryRun_misses_torn :
    ∃ preview real : RunReport, ∃ wd wr : World Machine,
      (∀ c, tornList.Harmless tornWorld.context.env c → Machine.host.Quiet tornWorld.machine c) ∧
        tornWorld.run (converge Machine.host tornList { dryRun := true }).run = (.ok preview, wd) ∧
        tornWorld.run (converge Machine.host tornList { dryRun := false }).run = (.ok real, wr) ∧
        preview.state = .completed ∧ preview.pendingChanges = [] ∧ Changes tornWorld wr := by
  have valid : tornList.validate .perKind = .ok () := by rfl
  refine ⟨_, _, _, _, ?_, converge_of_valid valid tornWorld, converge_of_valid valid tornWorld,
    by decide +kernel, by decide +kernel, ?_⟩
  · intro c harmless
    obtain ⟨mutates, guards⟩ := harmless
    have isRun : c.isRun = false := by
      by_cases isRun : c.isRun = true
      · obtain ⟨r, member, g, declared, -⟩ := guards isRun
        rw [List.mem_singleton.mp member] at declared
        cases declared
      · exact Bool.eq_false_iff.mpr isRun
    exact Machine.look_quiet mutates isRun _
  · have wrote : ((worldOf Machine.host {} tornList tornWorld).calls.any Call.mutates) = true := by decide +kernel
    exact ⟨_, rfl, List.any_eq_true.mp wrote⟩

end Provision

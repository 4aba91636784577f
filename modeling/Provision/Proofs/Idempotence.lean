import Provision.Proofs.FaithfulMachine
import Provision.Proofs.Standstill

namespace Provision

variable {σ : Type} {host : Host σ} {opts : RunOptions} {rs : List Resource} {start final w : World σ}

namespace Converge

def applying (r : Resource) (w : World σ) : World σ := told r .applying (told r .guardChecked w)

theorem concluded_permit {r : Resource} (real : w.context.dryRun = false) :
    concluded host r w (.ok .permit) = (ofApply ((applying r w).run (r.spec.apply host r.name).run).1,
      ((applying r w).run (r.spec.apply host r.name).run).2) := by
  have notDry : ¬ w.context.dryRun = true := by simp [real]
  exact if_neg notDry

theorem concluded_grows (r : Resource) (w : World σ) (verdict : Except Error Verdict) :
    w.calls <+: (concluded host r w verdict).2.calls := by
  rcases verdict with e | _ | reason
  · exact List.prefix_rfl
  · unfold concluded
    dsimp only
    split
    · exact ((r.spec.check_acts host r.name).makes (told r .guardChecked w)).grows
    · exact ((r.spec.apply_acts host r.name).makes (applying r w)).grows
  · exact List.prefix_rfl

theorem run_unguarded {r : Resource} (noGuards : r.guards = []) (unowned : ∀ o, r.spec ≠ .ownership o) :
    w.run (resourceOutcome host opts r) = concluded host r w (.ok .permit) := by
  have free : r.allGuards = [] := by
    have implicit : r.spec.implicitGuards = [] := by
      cases spec : r.spec with
      | ownership o => exact absurd spec (unowned o)
      | _ => rfl
    simp [Resource.allGuards, implicit, noGuards]
  have permitted : w.run (verdictOf host opts r) = (.ok .permit, w) := by
    unfold verdictOf
    rw [free]
    rfl
  rw [run_resourceOutcome, permitted]

theorem run_owned {r : Resource} {o : Ownership} (noGuards : r.guards = []) (spec : r.spec = .ownership o) :
    w.run (resourceOutcome host opts r) = concluded host r (w.after host (.owner o.path))
      (o.verdict (r.onGuardError.getD opts.onGuardError) (host.answer (.owner o.path) w.machine).1) := by
  have one : r.allGuards = [o.guard] := by simp [Resource.allGuards, spec, Spec.implicitGuards, noGuards]
  rw [run_resourceOutcome]
  unfold verdictOf
  rw [one, Ownership.run_guard]

theorem ofApply_success {done : Except Error Change} (fine : (ofApply done).isSuccess = true) :
    ∃ change, done = .ok change := by
  rcases done with e | change
  · cases fine
  · exact ⟨change, rfl⟩

theorem concluded_settles (faithful : Faithful host rs start final) (repeatable : Repeatable rs)
    {pre post : List Resource} {r : Resource} (order : rs = pre ++ r :: post) (apart : r.TargetsApart)
    (real : w.context.dryRun = false) (passes : Passes host start final w)
    (ends : (concluded host r w (.ok .permit)).2.calls <+: final.calls)
    (fine : (concluded host r w (.ok .permit)).1.isSuccess = true) :
    r.Settled host opts start (concluded host r w (.ok .permit)).2 := by
  rw [concluded_permit real] at ends fine ⊢
  obtain ⟨change, done⟩ := ofApply_success fine
  have started : Passes host start final (applying r w) := ⟨passes.since, passes.ends⟩
  exact Resource.apply_settles faithful repeatable order apart started ends (Prod.ext done rfl)

theorem resourceOutcome_settles (faithful : Faithful host rs start final) (repeatable : Repeatable rs)
    {pre post : List Resource} {r : Resource} (order : rs = pre ++ r :: post) (apart : r.TargetsApart)
    (real : w.context.dryRun = false) (passes : Passes host start final w)
    (ends : (w.run (resourceOutcome host opts r)).2.calls <+: final.calls)
    (fine : (w.run (resourceOutcome host opts r)).1.isSuccess = true) :
    r.Settled host opts start (w.run (resourceOutcome host opts r)).2 := by
  have member : r ∈ rs := by simp [order]
  have noGuards := repeatable.noGuards r member
  -- Without declared guards only ownerships are guarded, and what their guard blocks is owned.
  by_cases owned : ∃ o, r.spec = .ownership o
  · obtain ⟨o, spec⟩ := owned
    have managed : Managed rs (.owner o.path o.recursive) := ⟨r, member, by simp [Resource.targets, Spec.targets, spec]⟩
    rw [run_owned noGuards spec] at ends fine ⊢
    have seen := (concluded_grows r _ _).trans ends
    have looked := faithful.looked passes (Made.after rfl) seen managed
    cases verdict : o.verdict (r.onGuardError.getD opts.onGuardError) (host.answer (.owner o.path) w.machine).1 with
    | error e =>
      rw [verdict] at fine
      cases fine
    | ok decision =>
      rw [verdict] at ends fine
      cases decision with
      | permit => exact concluded_settles faithful repeatable order apart real (passes.after seen) ends fine
      | block reason =>
        have here : r.Settled host opts start w := by
          unfold Resource.Settled
          rw [spec]
          exact (o.verdict_block_iff _ _).mp ⟨reason, verdict⟩
        refine here.kept ?_ (w.grows_after host _) (.refl _)
        intro t present
        have only : t = .owner o.path o.recursive := by
          simpa [Resource.targets, Spec.targets, spec] using present
        rw [only]
        exact looked
  · have unowned : ∀ o, r.spec ≠ .ownership o := fun o spec => owned ⟨o, spec⟩
    rw [run_unguarded noGuards unowned] at ends fine ⊢
    exact concluded_settles faithful repeatable order apart real passes ends fine

theorem applied_of_success {r : Resource} (noGuards : r.guards = []) (unowned : ∀ o, r.spec ≠ .ownership o)
    (real : w.context.dryRun = false) (fine : (w.run (oneResource host opts r)).1.outcome.isSuccess = true) :
    ∃ change last, (applying r (opened r w)).run (r.spec.apply host r.name).run = (.ok change, last) ∧
      (w.run (oneResource host opts r)).2 = closed r (.ofChange change) last := by
  have unguarded : (opened r w).run (resourceOutcome host opts r) = _ := run_unguarded noGuards unowned
  have openedReal : (opened r w).context.dryRun = false := real
  rw [run_oneResource, unguarded, concluded_permit openedReal] at fine ⊢
  obtain ⟨change, done⟩ := ofApply_success fine
  refine ⟨change, _, Prod.ext done rfl, ?_⟩
  dsimp only
  rw [done]
  rfl

theorem settled_told {q : Resource} {next : World σ} (settled : q.Settled host opts start w)
    (machine : next.machine = w.machine) (calls : next.calls = w.calls) (context : w.context.Steady next.context) :
    q.Settled host opts start next := by
  refine settled.kept ?_ ?_ context
  · intro t managed
    rw [machine]
    exact .refl host _ t
  · exact ⟨[], by rw [List.append_nil, calls]⟩

theorem oneResource_settles (faithful : Faithful host rs start final) (repeatable : Repeatable rs)
    {pre post : List Resource} {r : Resource} (order : rs = pre ++ r :: post) (apart : r.TargetsApart)
    (real : w.context.dryRun = false) (passes : Passes host start final w)
    (ends : (w.run (oneResource host opts r)).2.calls <+: final.calls)
    (fine : (w.run (oneResource host opts r)).1.outcome.isSuccess = true) :
    r.Settled host opts start (w.run (oneResource host opts r)).2 := by
  rw [run_oneResource] at ends fine ⊢
  have started : Passes host start final (opened r w) := ⟨passes.since, passes.ends⟩
  have openedReal : (opened r w).context.dryRun = false := real
  have settled := resourceOutcome_settles faithful repeatable order apart openedReal started ends fine
  exact settled_told settled rfl rfl ⟨rfl, rfl, rfl, fun _ _ => id⟩

/-- An edit of bindings leaves settled what an edit before it settled. -/
theorem oneResource_shares (faithful : Faithful host rs start final) (repeatable : Repeatable rs) {q r : Resource}
    (memberQ : q ∈ rs) (member : r ∈ rs) (qInserts : q.insertsOnly = true) (rInserts : r.insertsOnly = true)
    {t u : Target} (managed : t ∈ q.targets) (managedU : u ∈ r.targets) (overlaps : u.overlaps t = true)
    (real : w.context.dryRun = false) (passes : Passes host start final w)
    (ends : (w.run (oneResource host opts r)).2.calls <+: final.calls)
    (fine : (w.run (oneResource host opts r)).1.outcome.isSuccess = true) (settled : q.Settled host opts start w) :
    q.Settled host opts start (w.run (oneResource host opts r)).2 := by
  obtain ⟨e, qSpec, inserting⟩ := Resource.edit_of_insertsOnly qInserts
  obtain ⟨other, rSpec, otherInserting⟩ := Resource.edit_of_insertsOnly rInserts
  have lines := repeatable.lines r member
  rw [rSpec] at lines
  have filed : Managed rs t := ⟨q, memberQ, managed⟩
  have otherFiled : Managed rs u := ⟨r, member, managedU⟩
  unfold Resource.targets at managed managedU
  rw [qSpec, LineEdit.mem_targets] at managed
  rw [rSpec, LineEdit.mem_targets] at managedU
  obtain ⟨path, here, rfl⟩ := managed
  obtain ⟨otherPath, otherHere, rfl⟩ := managedU
  have same : Path.same otherPath path = true := by simpa only [Target.overlaps] using overlaps
  have unowned : ∀ o, r.spec ≠ .ownership o := by
    intro o spec
    rw [rSpec] at spec
    cases spec
  -- The later edit puts bindings into the same file, where it keeps what is set.
  obtain ⟨change, last, ran, left⟩ := applied_of_success (repeatable.noGuards r member) unowned real fine
  rw [left] at ends ⊢
  rw [rSpec] at ran
  have started : Passes host start final (applying r (opened r w)) := ⟨passes.since, passes.ends⟩
  have before : q.Settled host opts start (applying r (opened r w)) :=
    settled_told settled rfl rfl ⟨rfl, rfl, rfl, fun _ _ => id⟩
  have after : q.Settled host opts start last := by
    unfold Resource.Settled at before ⊢
    rw [qSpec] at before ⊢
    exact LineEdit.insert_shares faithful here inserting otherHere otherInserting same filed otherFiled lines
      started ends ran before
  exact settled_told after rfl rfl ⟨rfl, rfl, rfl, fun _ _ => id⟩

theorem oneResource_keeps_settled (faithful : Faithful host rs start final) (repeatable : Repeatable rs)
    {pre post : List Resource} {r q : Resource} (order : rs = pre ++ r :: post) (before : q ∈ pre)
    (real : w.context.dryRun = false) (passes : Passes host start final w)
    (ends : (w.run (oneResource host opts r)).2.calls <+: final.calls)
    (fine : (w.run (oneResource host opts r)).1.outcome.isSuccess = true) (settled : q.Settled host opts start w) :
    q.Settled host opts start (w.run (oneResource host opts r)).2 := by
  have made := (oneResource_acts host opts r).makes w
  by_cases overlap : ∃ u ∈ r.targets, ∃ t ∈ q.targets, u.overlaps t = true
  · obtain ⟨u, managedU, t, managed, overlaps⟩ := overlap
    have ordered := repeatable.apart
    rw [order, List.pairwise_append] at ordered
    -- Only edits that insert may share a target, and those keep each other's bindings.
    rcases ordered.2.2 q before r List.mem_cons_self with ⟨qInserts, rInserts⟩ | apart
    · exact oneResource_shares faithful repeatable (by simp [order, before]) (by simp [order]) qInserts rInserts
        managed managedU overlaps real passes ends fine settled
    · rw [apart u managedU t managed] at overlaps
      cases overlaps
  · refine settled.kept ?_ made.grows made.context
    intro t managed
    refine faithful.apart passes order (List.mem_append_left _ before) made ends managed fun c mayCall => ?_
    cases touches : c.touches t with
    | false => rfl
    | true =>
      obtain ⟨u, managedU, overlaps⟩ := Resource.touches mayCall touches
      exact absurd ⟨u, managedU, t, managed, overlaps⟩ overlap

theorem goesOn_of_success {x : ResourceReport} (fine : x.outcome.isSuccess = true) : ¬ x.aborts = true := by
  simp [ResourceReport.aborts, fine]

theorem oneResource_grows (r : Resource) (rest : List Resource) (w : World σ) :
    (w.run (oneResource host opts r)).2.calls <+: (w.run (eachResource host opts (r :: rest))).2.calls := by
  rw [run_eachResource_cons]
  split
  · exact List.prefix_rfl
  · exact ((eachResource_acts host opts rest).makes _).grows

theorem eachResource_settles (faithful : Faithful host rs start final) (repeatable : Repeatable rs)
    (apart : ∀ r ∈ rs, r.TargetsApart) {pre post : List Resource} (order : rs = pre ++ post)
    (real : w.context.dryRun = false) (passes : Passes host start final w)
    (ends : (w.run (eachResource host opts post)).2.calls <+: final.calls)
    (fine : ∀ x ∈ (w.run (eachResource host opts post)).1, x.outcome.isSuccess = true)
    (settled : ∀ q ∈ pre, q.Settled host opts start w) :
    ∀ q ∈ rs, q.Settled host opts start (w.run (eachResource host opts post)).2 := by
  -- The resources before are those that the invariant covers; each step adds one to them.
  induction post generalizing pre w with
  | nil =>
    rw [order, List.append_nil]
    exact settled
  | cons r rest ih =>
    have made := (oneResource_acts host opts r).makes w
    have firstEnds := (oneResource_grows r rest w).trans ends
    rw [run_eachResource_cons] at ends fine ⊢
    have firstFine : (w.run (oneResource host opts r)).1.outcome.isSuccess = true := by
      split at fine
      · exact fine _ List.mem_cons_self
      · exact fine _ List.mem_cons_self
    rw [if_neg (goesOn_of_success firstFine)] at ends fine ⊢
    have extended : rs = (pre ++ [r]) ++ rest := by rw [order, List.append_assoc, List.singleton_append]
    refine ih extended (made.context.dryRun.trans real) (passes.made made firstEnds) ends
      (fun x member => fine x (List.mem_cons_of_mem _ member)) ?_
    intro q member
    rcases List.mem_append.mp member with before | here
    · exact oneResource_keeps_settled faithful repeatable order before real passes firstEnds firstFine (settled q before)
    · rw [List.mem_singleton.mp here]
      exact oneResource_settles faithful repeatable order (apart r (by simp [order])) real passes firstEnds firstFine

/-- Nothing came of the resource: it was found unchanged, or it is an ownership that its own guard held
back. -/
def AtRest (r : Resource) (x : ResourceReport) : Prop :=
  x.outcome = .unchanged ∨ ∃ o reason, r.spec = .ownership o ∧ x.outcome = .skipped reason

theorem AtRest.success {r : Resource} {x : ResourceReport} (rest : AtRest r x) :
    x.outcome.isSuccess = true ∧ x.outcome.isChange = false := by
  rcases rest with unchanged | ⟨o, reason, -, skipped⟩
  · rw [unchanged]
    exact ⟨rfl, rfl⟩
  · rw [skipped]
    exact ⟨rfl, rfl⟩

theorem oneResource_rests (faithful : Faithful host rs start final) (repeatable : Repeatable rs) {r : Resource}
    (member : r ∈ rs) (real : w.context.dryRun = false) (passes : Passes host start final w)
    (ends : (w.run (oneResource host opts r)).2.calls <+: final.calls) (settled : r.Settled host opts start w) :
    AtRest r (w.run (oneResource host opts r)).1 ∧ Kept host rs w (w.run (oneResource host opts r)).2 := by
  have noGuards := repeatable.noGuards r member
  have started : Passes host start final (opened r w) := ⟨passes.since, passes.ends⟩
  have openedReal : (opened r w).context.dryRun = false := real
  rw [run_oneResource] at ends ⊢
  by_cases owned : ∃ o, r.spec = .ownership o
  · obtain ⟨o, spec⟩ := owned
    unfold Resource.Settled at settled
    rw [spec] at settled
    obtain ⟨reason, blocked⟩ := (o.verdict_block_iff _ _).mpr settled
    have verdict : o.verdict _ (host.answer (.owner o.path) (opened r w).machine).1 = .ok (.block reason) := blocked
    have ran : (opened r w).run (resourceOutcome host opts r) = _ := run_owned noGuards spec
    rw [verdict] at ran
    rw [ran] at ends ⊢
    have seen : ((opened r w).after host (.owner o.path)).calls <+: final.calls := ends
    have looked : Kept host rs (opened r w) _ := Kept.looked faithful started seen rfl
    exact ⟨Or.inr ⟨o, reason, spec, rfl⟩, looked.targets, looked.env⟩
  · have unowned : ∀ o, r.spec ≠ .ownership o := fun o spec => owned ⟨o, spec⟩
    have ran : (opened r w).run (resourceOutcome host opts r) = _ := run_unguarded noGuards unowned
    rw [ran, concluded_permit openedReal] at ends ⊢
    have before : r.Settled host opts start (applying r (opened r w)) :=
      settled_told settled rfl rfl ⟨rfl, rfl, rfl, fun _ _ => id⟩
    have applied : Passes host start final (applying r (opened r w)) := ⟨passes.since, passes.ends⟩
    obtain ⟨last, unchanged, kept⟩ := Resource.rests faithful member applied ends unowned before
    rw [unchanged]
    exact ⟨Or.inl rfl, kept.targets, kept.env⟩

theorem eachResource_rests (faithful : Faithful host rs start final) (repeatable : Repeatable rs)
    {post : List Resource} (members : ∀ r ∈ post, r ∈ rs) (real : w.context.dryRun = false)
    (passes : Passes host start final w) (ends : (w.run (eachResource host opts post)).2.calls <+: final.calls)
    (settled : ∀ q ∈ rs, q.Settled host opts start w) :
    ((w.run (eachResource host opts post)).1.length = post.length ∧
        ∀ r x, (r, x) ∈ post.zip (w.run (eachResource host opts post)).1 → AtRest r x) ∧
      Kept host rs w (w.run (eachResource host opts post)).2 := by
  induction post generalizing w with
  | nil => exact ⟨⟨rfl, by simp⟩, fun t _ => .refl host _ t, rfl⟩
  | cons r rest ih =>
    have made := (oneResource_acts host opts r).makes w
    have firstEnds := (oneResource_grows r rest w).trans ends
    have member := members r List.mem_cons_self
    obtain ⟨atRest, kept⟩ := oneResource_rests faithful repeatable member real passes firstEnds (settled r member)
    rw [run_eachResource_cons, if_neg (goesOn_of_success atRest.success.1)] at ends ⊢
    have still : ∀ q ∈ rs, q.Settled host opts start (w.run (oneResource host opts r)).2 := fun q present =>
      (settled q present).kept (fun t managed => kept.targets t ⟨q, present, managed⟩) made.grows made.context
    obtain ⟨⟨length, later⟩, keptLater⟩ := ih (fun q present => members q (List.mem_cons_of_mem _ present))
      (made.context.dryRun.trans real) (passes.made made firstEnds) ends still
    refine ⟨⟨by simp [length], ?_⟩, kept.trans keptLater⟩
    intro q x present
    rw [List.zip_cons_cons, List.mem_cons] at present
    rcases present with same | present
    · cases same
      exact atRest
    · exact later q x present

variable {l : RunList}

variable (host opts) in
theorem walked_made (l : RunList) (w : World σ) :
    Made host (fun c => ∃ r ∈ l.resources, r.MayCall c) (entered opts l w) (walked host opts l w).2 :=
  (eachResource_acts host opts l.resources).makes (entered opts l w)

/-- The context of a real run, as the next one finds it. -/
theorem worldOf_steady (l : RunList) (w : World σ) :
    (enter opts w.context).Steady (worldOf host opts l w).context :=
  (walked_made host opts l w).context.trans (notified_made host opts l w).context

theorem worldOf_settled (real : opts.dryRun = false) (repeatable : Repeatable l.resources)
    (apart : ∀ r ∈ l.resources, r.TargetsApart) (faithful : Faithful host l.resources w final)
    (ends : (worldOf host opts l w).calls <+: final.calls)
    (fine : ∀ x ∈ (walked host opts l w).1, x.outcome.isSuccess = true) :
    (∀ q ∈ l.resources, q.Settled host opts w (worldOf host opts l w)) ∧
      Passes host w final (worldOf host opts l w) := by
  have walk := walked_made host opts l w
  have notify := notified_made host opts l w
  have notifiedEnds : (notified host opts l w).2.calls <+: final.calls := ends
  have walkedEnds := notify.grows.trans notifiedEnds
  have passes : Passes host w final (entered opts l w) :=
    ⟨⟨[], (List.append_nil _).symm, rfl⟩, walk.grows.trans walkedEnds⟩
  have walkedPasses := passes.made walk walkedEnds
  have notifiedPasses := walkedPasses.made notify notifiedEnds
  have order : l.resources = [] ++ l.resources := rfl
  have settled := eachResource_settles faithful repeatable apart order real passes walkedEnds fine (by simp)
  refine ⟨fun q member => ?_, notifiedPasses.since, ends⟩
  have still := (settled q member).kept
    (fun t managed => faithful.looked walkedPasses notify notifiedEnds ⟨q, member, managed⟩) notify.grows notify.context
  exact settled_told still rfl rfl (.refl _)

theorem runs_rest (real : opts.dryRun = false) (repeatable : Repeatable l.resources)
    (faithful : Faithful host l.resources start (worldOf host opts l w)) (passes : Passes host start (worldOf host opts l w) w)
    (steady : w.context.Steady (enter opts w.context)) (settled : ∀ q ∈ l.resources, q.Settled host opts start w) :
    (reportOf host opts l w).state = .completed ∧ (reportOf host opts l w).notifications = [] ∧
      (reportOf host opts l w).resources.length = l.resources.length ∧
      (∀ r x, (r, x) ∈ l.resources.zip (reportOf host opts l w).resources → AtRest r x) ∧
      Kept host l.resources w (worldOf host opts l w) := by
  have walkedEnds : (walked host opts l w).2.calls <+: (worldOf host opts l w).calls :=
    (notified_made host opts l w).grows
  have begins : Passes host start (worldOf host opts l w) (entered opts l w) := ⟨passes.since, passes.ends⟩
  have settledThere : ∀ q ∈ l.resources, q.Settled host opts start (entered opts l w) := fun q member =>
    settled_told (settled q member) rfl rfl steady
  obtain ⟨⟨length, atRest⟩, kept⟩ :=
    eachResource_rests faithful repeatable (fun _ => id) real begins walkedEnds settledThere
  have each : ∀ x ∈ (walked host opts l w).1, x.outcome.isSuccess = true ∧ x.outcome.isChange = false := by
    intro x member
    have all : (l.resources.zip (walked host opts l w).1).map Prod.snd = (walked host opts l w).1 :=
      List.map_snd_zip (Nat.le_of_eq length)
    rw [← all, List.mem_map] at member
    obtain ⟨⟨r, y⟩, present, rfl⟩ := member
    exact (atRest _ _ present).success
  -- No resource changed, so nothing is due.
  have silent := notified_noChange fun x member => (each x member).2
  refine ⟨?_, ?_, length, atRest, ?_⟩
  · refine (finalState_completed_iff l w).mpr fun aborted => ?_
    rcases (finalState_aborted_iff l w).mp aborted with ⟨x, final, ⟨⟨cause, category, failed⟩, -⟩⟩ | ⟨n, member, -⟩
    · have fine := (each x (List.mem_of_getLast? final)).1
      rw [failed] at fine
      cases fine
    · rw [silent] at member
      cases member
  · change (notified host opts l w).1 = []
    rw [silent]
  · have left : Kept host l.resources w (notified host opts l w).2 := by
      rw [silent]
      exact ⟨kept.targets, kept.env⟩
    exact ⟨left.targets, left.env⟩

end Converge

open Converge in
/-- If nothing failed in a real run, then a second run in the world and the context that it left
completes, changes no resource and announces nothing: each resource is found unchanged, or is an
ownership that its guard holds back, and all that is managed is kept, as is the environment. -/
theorem rerun_converges_nothing {l : RunList} {w₁ : World σ} {first : RunReport} (real : opts.dryRun = false)
    (repeatable : Repeatable l.resources) (apart : ∀ r ∈ l.resources, r.TargetsApart)
    (faithful : Faithful host l.resources w (w₁.run (converge host l opts).run).2)
    (ran : w.run (converge host l opts).run = (.ok first, w₁))
    (fine : ∀ x ∈ first.resources, x.outcome.isSuccess = true) :
    ∃ second w₂, w₁.run (converge host l opts).run = (.ok second, w₂) ∧ second.state = .completed ∧
      second.notifications = [] ∧ second.resources.length = l.resources.length ∧
      (∀ r x, (r, x) ∈ l.resources.zip second.resources → AtRest r x) ∧
      Kept host l.resources w₁ w₂ := by
  obtain ⟨valid, rfl, rfl⟩ := converge_eq_ok ran
  have again : (worldOf host opts l w).run (converge host l opts).run = _ := converge_of_valid valid _
  rw [again] at faithful
  have ends : (worldOf host opts l w).calls <+: (worldOf host opts l (worldOf host opts l w)).calls :=
    (walked_made host opts l (worldOf host opts l w)).grows.trans (notified_made host opts l _).grows
  obtain ⟨settled, passes⟩ := worldOf_settled real repeatable apart faithful ends fine
  have left : (enter opts w.context).Steady (worldOf host opts l w).context := worldOf_steady l w
  have steady : (worldOf host opts l w).context.Steady (enter opts (worldOf host opts l w).context) :=
    ⟨left.dryRun.symm, rfl, left.onConflict.symm, fun _ _ => id⟩
  exact ⟨_, _, again, runs_rest real repeatable faithful passes steady settled⟩

def shopList : RunList :=
  ⟨[.ofResource { name := "php", spec := .package { package := "php" } } [],
    .ofResource
      { name := "settings", spec := .renderedFile ⟨"/srv/shop/settings", "settings.j2", []⟩, notifies := ["reload"] } [],
    .ofResource
      { name := "exported"
        spec := .lineEdit { path := some "/etc/envvars", lineSyntax := .exported, bindings := [⟨"SHOP", "on"⟩] } } [],
    .ofResource
      { name := "plain", spec := .lineEdit { path := some "/etc/envvars", bindings := [⟨"CACHE", "off"⟩] } } [],
    .ofResource { name := "process", spec := .lineEdit { bindings := [⟨"SHOP", "on"⟩] } } [],
    .ofResource
      { name := "order"
        spec := .lineEdit { path := some "/etc/php.ini", replace := some ⟨"^order", "order = EGPCS"⟩ } } [],
    .ofResource
      { name := "code"
        spec := .workingCopy { destination := "/srv/shop", repository := "git://shop", revision := "main" } } [],
    .ofResource { name := "tick", spec := .scheduledJob { schedule := default, command := "tick" } } [],
    .ofResource { name := "shop", spec := .site { serverName := "shop.org", docroot := "/srv/shop" } } [],
    .ofResource { name := "owner", spec := .ownership { path := "/srv/shop/settings", owner := "shop" } } []]⟩

def shopWorld : World Machine where
  machine := { Machine.empty with
    files := [("/etc/php.ini", { content := "order = GPCS\n" }), ("/srv/shop/settings", { content := "" })]
    resolve := [("main", "4f2a")]
    renderer := fun template _ => .ok template }
  context := ⟨false, false, .empty, .object [], .warn, []⟩
  calls := []
  events := []

def shopBetween : World Machine := Converge.worldOf Machine.host {} shopList shopWorld

open Converge in
theorem rerun_converges_nothing_shop :
    ∃ first second : RunReport, ∃ last : World Machine,
      shopWorld.run (converge Machine.host shopList {}).run = (.ok first, shopBetween) ∧
        shopBetween.run (converge Machine.host shopList {}).run = (.ok second, last) ∧
        second.state = .completed ∧ ∀ r x, (r, x) ∈ shopList.resources.zip second.resources → AtRest r x := by
  have valid : shopList.validate .perKind = .ok () := by rfl
  have repeatable : Repeatable shopList.resources :=
    { noCommand := by decide +kernel
      noGuards := by decide +kernel
      lines := by decide +kernel
      replacements := by decide +kernel
      apart := by decide +kernel }
  have apart : ∀ r ∈ shopList.resources, r.TargetsApart := by decide +kernel
  have faithful : Faithful Machine.host shopList.resources shopWorld
      (shopBetween.run (converge Machine.host shopList {}).run).2 := by
    have again : shopBetween.run (converge Machine.host shopList {}).run = _ := converge_of_valid valid shopBetween
    rw [again]
    exact Machine.faithful_of_isFaithful (List.nil_append _).symm (by decide +kernel) (by decide +kernel)
  have ran : shopWorld.run (converge Machine.host shopList {}).run = _ := converge_of_valid valid shopWorld
  have fine : ∀ x ∈ (reportOf Machine.host {} shopList shopWorld).resources, x.outcome.isSuccess = true := by
    decide +kernel
  obtain ⟨second, last, again, completed, -, -, atRest, -⟩ :=
    rerun_converges_nothing rfl repeatable apart faithful ran fine
  exact ⟨_, second, last, ran, again, completed, atRest⟩

def loopList : RunList :=
  ⟨[.ofResource
    { name := "a"
      spec := .site { serverName := "a.org", docroot := "/srv", sitesAvailable := some "/s", sitesEnabled := some "/s" } }
    []]⟩

def loopWorld : World Machine where
  machine := { Machine.empty with
    files := [("/q", { content := "on" })], links := [("/s/a.conf", "/q")], renderer := fun _ _ => .ok "on" }
  context := ⟨false, false, .empty, .object [], .warn, []⟩
  calls := []
  events := []

def loopBetween : World Machine := Converge.worldOf Machine.host {} loopList loopWorld

open Converge in
/-- The first run finds the configuration behind the link and makes the link one to itself; the second
run finds no configuration and writes it again. -/
theorem rerun_converges_loop :
    Repeatable loopList.resources ∧ ∃ first second : RunReport, ∃ last : World Machine,
      loopWorld.run (converge Machine.host loopList {}).run = (.ok first, loopBetween) ∧
        loopBetween.run (converge Machine.host loopList {}).run = (.ok second, last) ∧
        Faithful Machine.host loopList.resources loopWorld last ∧ first.state = .completed ∧
        (∀ x ∈ first.resources, x.outcome.isSuccess = true) ∧ ∃ x ∈ second.resources, x.outcome.isChange = true := by
  have valid : loopList.validate .perKind = .ok () := by rfl
  have repeatable : Repeatable loopList.resources :=
    { noCommand := by decide +kernel
      noGuards := by decide +kernel
      lines := by decide +kernel
      replacements := by decide +kernel
      apart := by decide +kernel }
  refine ⟨repeatable, _, _, _, converge_of_valid valid loopWorld, converge_of_valid valid loopBetween, ?_,
    by decide +kernel, by decide +kernel, by decide +kernel⟩
  exact Machine.faithful_of_isFaithful (List.nil_append _).symm (by decide +kernel) (by decide +kernel)

end Provision

import Provision.Proofs.Consent
import Provision.Proofs.CrontabText
import Provision.Proofs.JsonFields
import Provision.Proofs.Progress

namespace Provision

variable {σ : Type} {host : Host σ} {opts : RunOptions}

theorem Guard.blockReason_not_drift (g : Guard) : Text.startsWith dryRunLead g.blockReason = false := by
  unfold blockReason
  cases g.polarity <;> simp [Text.startsWith, Text.dropLead?, dryRunLead]

theorem Guard.block_not_drift {policy : GuardErrorPolicy} {results : List (Guard × Except Error Bool)} {reason : String}
    (blocked : compose policy results = .ok (.block reason)) : Text.startsWith dryRunLead reason = false := by
  have decides := compose_decides policy results
  by_cases forbidden : ∃ x ∈ results, x.1.Forbids x.2
  · obtain ⟨_, g, _, _, -, -, -, verdict⟩ := decides.forbidden forbidden
    cases blocked.symm.trans verdict
    exact g.blockReason_not_drift
  · have fine : ∀ x ∈ results, ¬ x.1.Forbids x.2 := fun x member forbids => forbidden ⟨x, member, forbids⟩
    by_cases failed : ∃ x ∈ results, ∃ e, x.2 = .error e
    · obtain ⟨_, _, e, _, -, -, verdict⟩ := decides.failed fine failed
      cases policy with
      | skip =>
        cases blocked.symm.trans verdict
        simp [Text.startsWith, Text.dropLead?, dryRunLead]
      | fail => cases blocked.symm.trans verdict
    · cases blocked.symm.trans
        (decides.permitted fun x member => ⟨fine x member, fun e bad => failed ⟨x, member, e, bad⟩⟩)

namespace PendingChange

variable {x : ResourceReport}

theorem ofReport?_blocked {reason : String} (skipped : x.outcome = .skipped reason)
    (other : Text.startsWith dryRunLead reason = false) : ofReport? x = none := by
  simp only [ofReport?, skipped, Text.stripLead?_eq_none_iff.mpr other, Option.map_none]

theorem ofReport?_not_skipped (notSkipped : ∀ reason, x.outcome ≠ .skipped reason) : ofReport? x = none := by
  unfold ofReport?
  cases outcome : x.outcome with
  | skipped reason => exact absurd outcome (notSkipped reason)
  | unchanged | converged | failed => rfl

end PendingChange

namespace Converge

/-- The drift that the check of a resource finds in the world that the guards leave, if they permit the resource. -/
def drift? (host : Host σ) (opts : RunOptions) (r : Resource) (w : World σ) : Option String :=
  match (opened r w).run (verdictOf host opts r) with
  | (.ok .permit, next) =>
    match ((told r .guardChecked next).run (r.spec.check host r.name).run).1 with
    | .ok (.drifted change) => some change
    | _ => none
  | _ => none

theorem oneResource_denied (r : Resource) {w : World σ}
    (denied : ((opened r w).run (verdictOf host opts r)).1 ≠ .ok .permit) :
    PendingChange.ofReport? (w.run (oneResource host opts r)).1 = none := by
  have heeds : HeedsVerdict r ((opened r w).run (verdictOf host opts r)).1 w _ _ := oneResource_heeds r w
  rcases verdict : ((opened r w).run (verdictOf host opts r)).1 with e | _ | reason
  · refine PendingChange.ofReport?_not_skipped fun reason => ?_
    rw [heeds.failed e verdict]
    nofun
  · exact absurd verdict denied
  · exact PendingChange.ofReport?_blocked (heeds.blocked reason verdict) (Guard.block_not_drift verdict)

theorem oneResource_permitted {r : Resource} {w next : World σ}
    (permitted : (opened r w).run (verdictOf host opts r) = (.ok .permit, next)) :
    (w.run (oneResource host opts r)).1.outcome =
      if w.context.dryRun = true then ofCheck ((told r .guardChecked next).run (r.spec.check host r.name).run).1
      else ofApply ((told r .applying (told r .guardChecked next)).run (r.spec.apply host r.name).run).1 := by
  have guarded : ((opened r w).run (verdictOf host opts r)).2 = _ := run_verdictOf r (opened r w)
  have sameMode : next.context.dryRun = w.context.dryRun := by
    rw [permitted] at guarded
    rw [show next = _ from guarded]
    rfl
  rw [run_oneResource, run_resourceOutcome, permitted, concluded, sameMode]
  split <;> rfl

theorem oneResource_pending (r : Resource) {w : World σ} (dry : w.context.dryRun = true) :
    PendingChange.ofReport? (w.run (oneResource host opts r)).1 =
      (drift? host opts r w).map fun change => ⟨r.id, r.kind.tag, change⟩ := by
  by_cases permitted : ((opened r w).run (verdictOf host opts r)).1 = .ok .permit
  · obtain ⟨next, ran⟩ : ∃ next, (opened r w).run (verdictOf host opts r) = (.ok .permit, next) :=
      ⟨_, Prod.ext permitted rfl⟩
    have outcome := oneResource_permitted ran
    rw [if_pos dry] at outcome
    simp only [drift?, ran]
    rcases seen : ((told r .guardChecked next).run (r.spec.check host r.name).run).1 with e | _ | change
    · exact PendingChange.ofReport?_not_skipped fun reason => by rw [outcome, seen]; nofun
    · exact PendingChange.ofReport?_not_skipped fun reason => by rw [outcome, seen]; nofun
    · rw [seen] at outcome
      exact PendingChange.ofReport?_drifted outcome
  · rw [oneResource_denied r permitted]
    unfold drift?
    rcases ran : (opened r w).run (verdictOf host opts r) with ⟨e | _ | reason, next⟩
    · rfl
    · exact absurd (congrArg Prod.fst ran) permitted
    · rfl

theorem oneResource_real (r : Resource) {w : World σ} (real : w.context.dryRun = false) :
    PendingChange.ofReport? (w.run (oneResource host opts r)).1 = none := by
  by_cases permitted : ((opened r w).run (verdictOf host opts r)).1 = .ok .permit
  · refine PendingChange.ofReport?_not_skipped fun reason => ?_
    rw [oneResource_permitted (Prod.ext permitted rfl), if_neg (by simp [real])]
    exact ofApply_notSkipped _ reason
  · exact oneResource_denied r permitted

theorem Walk.reports_eq {rs : List Resource} {w last : World σ} {reports : List ResourceReport}
    (walk : Walk host opts rs w reports last) :
    reports = (rs.take reports.length).zipIdx.map fun (r, i) => reportAfter host opts w (rs.take i) r := by
  apply List.ext_getElem?
  intro i
  rw [List.getElem?_map, List.getElem?_zipIdx, List.getElem?_take]
  by_cases bound : i < reports.length
  · have present : i < rs.length := Nat.lt_of_lt_of_le bound walk.reached
    have here : rs[i]? = some rs[i] := List.getElem?_eq_getElem present
    rw [walk.each i _ bound here, if_pos bound, here]
    simp
  · rw [List.getElem?_eq_none (Nat.le_of_not_lt bound), if_neg bound]
    rfl

/-- The drift that a run finds in the resources that it reaches, each in the world that those before it left. -/
def driftOf (host : Host σ) (opts : RunOptions) (l : RunList) (w : World σ) (reached : Nat) : List PendingChange :=
  (l.resources.take reached).zipIdx.filterMap fun (r, i) =>
    (drift? host opts r (inTurn host opts (entered opts l w) (l.resources.take i))).map fun change =>
      ⟨r.id, r.kind.tag, change⟩

variable {l : RunList} {w last : World σ} {report : RunReport}

theorem pendingChanges_dry (dry : opts.dryRun = true) (ran : w.run (converge host l opts).run = (.ok report, last)) :
    report.pendingChanges = driftOf host opts l w report.resources.length := by
  obtain ⟨-, rfl, -⟩ := converge_eq_ok ran
  have reports : (walked host opts l w).1 = _ := (walked_walk l w).reports_eq
  have each (i : Nat) (r : Resource) : PendingChange.ofReport? (reportAfter host opts (entered opts l w)
      (l.resources.take i) r) = (drift? host opts r (inTurn host opts (entered opts l w) (l.resources.take i))).map
        fun change => ⟨r.id, r.kind.tag, change⟩ :=
    oneResource_pending r ((inTurn_steady _ _).dryRun.trans dry)
  calc (walked host opts l w).1.filterMap PendingChange.ofReport?
      = ((l.resources.take (walked host opts l w).1.length).zipIdx.map fun (r, i) =>
          reportAfter host opts (entered opts l w) (l.resources.take i) r).filterMap PendingChange.ofReport? :=
        congrArg _ reports
    _ = driftOf host opts l w (walked host opts l w).1.length := by
        simp only [List.filterMap_map, Function.comp_def, each, driftOf]

theorem pendingChanges_real (real : opts.dryRun = false)
    (ran : w.run (converge host l opts).run = (.ok report, last)) : report.pendingChanges = [] := by
  obtain ⟨-, rfl, -⟩ := converge_eq_ok ran
  refine List.filterMap_eq_nil_iff.mpr fun x member => ?_
  have reports : (walked host opts l w).1 = _ := (walked_walk l w).reports_eq
  have taken : x ∈ (walked host opts l w).1 := member
  rw [reports] at taken
  obtain ⟨⟨r, i⟩, -, rfl⟩ := List.mem_map.mp taken
  exact oneResource_real r ((inTurn_steady _ _).dryRun.trans real)

end Converge

namespace DiffSummary

def total (s : DiffSummary) : Nat := s.changes + s.blocked + s.inSync + s.failed

theorem add_total (s : DiffSummary) (o : Outcome) : (s.add o).total = s.total + 1 := by
  unfold add
  split
  · split <;> simp only [total] <;> omega
  all_goals simp only [total]; omega

theorem adds_total (xs : List ResourceReport) (s : DiffSummary) :
    (xs.foldl (fun s x => s.add x.outcome) s).total = s.total + xs.length := by
  induction xs generalizing s with
  | nil => rfl
  | cons x rest ih =>
    rw [List.foldl_cons, ih, add_total, List.length_cons]
    omega

end DiffSummary

theorem RunReport.diffSummary_total (report : RunReport) : report.diffSummary.total = report.resources.length :=
  (DiffSummary.adds_total report.resources .none).trans (Nat.zero_add _)

namespace SortedMap

variable {α : Type}

theorem get?_of_first {m : SortedMap α} {key : String} (first : ∀ k ∈ m.map Prod.fst, key < k) : m.get? key = none := by
  refine List.lookup_eq_none_iff.mpr fun entry member => ?_
  have later : key < entry.1 := first entry.1 (List.mem_map_of_mem member)
  simpa using String.ne_of_lt later

theorem insert_concat_perm {m : SortedMap (List α)} (increasing : m.Increasing) (key : String) (a : α) :
    ((m.insert key ((m.get? key).getD [] ++ [a])).flatMap Prod.snd).Perm (m.flatMap Prod.snd ++ [a]) := by
  induction m with
  | nil => exact .refl _
  | cons entry rest ih =>
    obtain ⟨k, group⟩ := entry
    obtain ⟨first, later⟩ := List.pairwise_cons.mp increasing
    unfold insert
    split
    · rename_i same
      subst same
      have here : get? ((key, group) :: rest) key = some group := by simp [get?]
      have behind : ([a] ++ rest.flatMap Prod.snd).Perm (rest.flatMap Prod.snd ++ [a]) := List.perm_append_comm
      rw [here]
      simpa using behind.append_left group
    · rename_i other
      split
      · rename_i before
        have none : get? ((k, group) :: rest) key = none := by
          refine get?_of_first fun l member => ?_
          rcases List.mem_cons.mp member with rfl | member
          · exact before
          · exact String.lt_trans before (first l member)
        have behind (groups : List α) : ([a] ++ groups).Perm (groups ++ [a]) := List.perm_append_comm
        rw [none]
        exact behind _
      · have further : get? ((k, group) :: rest) key = get? rest key := by
          have different : (key == k) = false := by simpa using other
          simp [get?, List.lookup_cons, different]
        rw [further]
        simpa using (ih later).append_left group

end SortedMap

/-- The groups hold the changes of each kind that occurs, in their order. -/
structure Grouped (changes : List PendingChange) (groups : SortedMap (List PendingChange)) : Prop where
  increasing : groups.Increasing
  each : ∀ kind group, groups.get? kind = some group ↔ changes.filter (·.kind == kind) = group ∧ group ≠ []
  whole : (groups.flatMap Prod.snd).Perm changes

namespace Grouped

theorem nil : Grouped [] [] := by
  refine ⟨.nil, fun kind group => ?_, .refl _⟩
  simp [SortedMap.get?]

theorem getD {changes : List PendingChange} {groups : SortedMap (List PendingChange)} (grouped : Grouped changes groups)
    (kind : String) : (groups.get? kind).getD [] = changes.filter (·.kind == kind) := by
  cases found : groups.get? kind with
  | none =>
    by_contra filled
    rw [(grouped.each kind _).mpr ⟨rfl, Ne.symm filled⟩] at found
    cases found
  | some group => exact ((grouped.each kind group).mp found).1.symm

theorem concat {changes : List PendingChange} {groups : SortedMap (List PendingChange)} (grouped : Grouped changes groups)
    (c : PendingChange) :
    Grouped (changes ++ [c]) (groups.insert c.kind ((groups.get? c.kind).getD [] ++ [c])) := by
  refine ⟨grouped.increasing.insert _ _, fun kind group => ?_, ?_⟩
  · by_cases same : kind = c.kind
    · subst same
      have kept : [c].filter (·.kind == c.kind) = [c] := by simp
      rw [SortedMap.get?_insert_self, grouped.getD, List.filter_append, kept, Option.some.injEq]
      exact ⟨fun same => ⟨same, same ▸ List.concat_ne_nil _ _⟩, And.left⟩
    · have other : (c.kind == kind) = false := by simpa using Ne.symm same
      rw [SortedMap.get?_insert_of_ne _ _ same, grouped.each, List.filter_append, List.filter_cons, other]
      simp
  · exact (SortedMap.insert_concat_perm grouped.increasing c.kind c).trans (grouped.whole.append_right [c])

end Grouped

theorem groupByKind_grouped (changes : List PendingChange) : Grouped changes (groupByKind changes) := by
  have folded : ∀ (later earlier : List PendingChange) (groups : SortedMap (List PendingChange)),
      Grouped earlier groups → Grouped (earlier ++ later)
        (later.foldl (fun groups c => groups.insert c.kind ((groups.get? c.kind).getD [] ++ [c])) groups) := by
    intro later
    induction later with
    | nil => simp
    | cons c rest ih =>
      intro earlier groups grouped
      simpa using ih _ _ (grouped.concat c)
  exact folded changes [] [] .nil

open Converge in
/-- The pending changes of a dry run are the drift that its checks found behind guards that permit, in run order, and
those of a real run are none. The summary counts each resource once, and groups by kind are a partition. -/
theorem pendingChanges_exact {l : RunList} {w last : World σ} {report : RunReport}
    (ran : w.run (converge host l opts).run = (.ok report, last)) :
    (opts.dryRun = true → report.pendingChanges = driftOf host opts l w report.resources.length) ∧
      (opts.dryRun = false → report.pendingChanges = []) ∧
      report.diffSummary.changes = report.pendingChanges.length ∧
      report.diffSummary.changes + report.diffSummary.blocked + report.diffSummary.inSync + report.diffSummary.failed =
        report.resources.length ∧
      Grouped report.pendingChanges (groupByKind report.pendingChanges) :=
  ⟨fun dry => pendingChanges_dry dry ran, fun real => pendingChanges_real real ran, report.diffSummary_changes,
    report.diffSummary_total, groupByKind_grouped _⟩

def gatedList : RunList :=
  ⟨[.ofResource { name := "conf", spec := .renderedFile ⟨"/etc/app.conf", "app.j2", []⟩ } [],
    .ofResource
      { name := "copy"
        spec := .renderedFile ⟨"/etc/copy.conf", "app.j2", []⟩
        guards := [⟨.onlyIf, .fileExists "dry run: /etc"⟩] } []]⟩

open Converge in
theorem pendingChanges_exact_gated :
    ∃ report last, Execution.driftedWorld.run (converge Machine.host gatedList { dryRun := true }).run =
        (.ok report, last) ∧
      report.pendingChanges.map PendingChange.resourceId = ["template[conf]"] ∧
      report.diffSummary.changes = 1 := by
  have valid : gatedList.validate .perKind = .ok () := by rfl
  have ran : Execution.driftedWorld.run (converge Machine.host gatedList { dryRun := true }).run = (.ok _, _) :=
    converge_of_valid valid _
  obtain ⟨dry, -, counted, -⟩ := pendingChanges_exact ran
  have shown : (reportOf Machine.host { dryRun := true } gatedList Execution.driftedWorld).pendingChanges.map
      PendingChange.resourceId = ["template[conf]"] := by
    rw [dry rfl]
    decide +kernel
  refine ⟨_, _, ran, shown, ?_⟩
  rw [counted]
  exact (List.length_map _).symm.trans (congrArg List.length shown)

end Provision

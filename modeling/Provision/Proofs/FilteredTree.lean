import Provision.RunList

namespace Provision

namespace RunNode

mutual

/-- The resources of a subtree with the labels of the nodes on the way to them, their own nodes included. -/
def located (above : List String) : RunNode → List (List String × Resource)
  | .node label r cs => r.toList.map (above ++ [label], ·) ++ locatedOf (above ++ [label]) cs

def locatedOf (above : List String) : List RunNode → List (List String × Resource)
  | [] => []
  | n :: ns => located above n ++ locatedOf above ns

end

mutual

def nodes : RunNode → List RunNode
  | .node label r cs => .node label r cs :: nodesOf cs

def nodesOf : List RunNode → List RunNode
  | [] => []
  | n :: ns => nodes n ++ nodesOf ns

end

mutual

theorem isEmpty_iff : ∀ n : RunNode, n.isEmpty = true ↔ n.resources = []
  | .node label r cs => by
    rw [isEmpty, resources, Bool.and_eq_true, List.append_eq_nil_iff, areEmpty_iff cs]
    cases r <;> simp

theorem areEmpty_iff : ∀ ns : List RunNode, areEmpty ns = true ↔ resourcesOf ns = []
  | [] => by simp [areEmpty, resourcesOf]
  | n :: ns => by rw [areEmpty, resourcesOf, Bool.and_eq_true, List.append_eq_nil_iff, isEmpty_iff n, areEmpty_iff ns]

end

mutual

theorem located_resources (above : List String) : ∀ n : RunNode, (n.located above).map Prod.snd = n.resources
  | .node label r cs => by
    rw [located, resources, List.map_append, List.map_map, locatedOf_resources _ cs]
    exact congrArg (· ++ resourcesOf cs) (List.map_id r.toList)

theorem locatedOf_resources (above : List String) :
    ∀ ns : List RunNode, (locatedOf above ns).map Prod.snd = resourcesOf ns
  | [] => rfl
  | n :: ns => by rw [locatedOf, resourcesOf, List.map_append, located_resources above n, locatedOf_resources above ns]

end

theorem located_of_isEmpty {n : RunNode} (empty : n.isEmpty = true) (above : List String) : n.located above = [] := by
  rw [← List.map_eq_nil_iff, located_resources]
  exact n.isEmpty_iff.mp empty

section

variable (keep also : Resource → Bool)

theorem filterAll_cons_of_isEmpty {n : RunNode} (empty : (n.filter keep).isEmpty = true) (ns : List RunNode) :
    filterAll keep (n :: ns) = filterAll keep ns := by
  rw [filterAll]
  exact if_pos empty

theorem filterAll_cons_of_filled {n : RunNode} (filled : ¬ (n.filter keep).isEmpty = true) (ns : List RunNode) :
    filterAll keep (n :: ns) = n.filter keep :: filterAll keep ns := by
  rw [filterAll]
  exact if_neg filled

mutual

theorem located_filter (above : List String) :
    ∀ n : RunNode, (n.filter keep).located above = (n.located above).filter (keep ·.2)
  | .node label r cs => by
    rw [filter, located, located, List.filter_append, locatedOf_filterAll _ cs]
    congr 1
    cases r with
    | none => rfl
    | some r => by_cases kept : keep r <;> simp [Option.filter, kept]

theorem locatedOf_filterAll (above : List String) :
    ∀ ns : List RunNode, locatedOf above (filterAll keep ns) = (locatedOf above ns).filter (keep ·.2)
  | [] => rfl
  | n :: ns => by
    have first := located_filter above n
    have later := locatedOf_filterAll above ns
    rw [locatedOf, List.filter_append, ← first, ← later]
    by_cases empty : (n.filter keep).isEmpty = true
    · rw [filterAll_cons_of_isEmpty keep empty, located_of_isEmpty empty]
      rfl
    · rw [filterAll_cons_of_filled keep empty, locatedOf]

end

mutual

theorem children_filled :
    ∀ n : RunNode, ∀ m ∈ nodesOf (n.filter keep).children, m.resources ≠ []
  | .node _ _ cs => filterAll_filled cs

theorem filterAll_filled : ∀ ns : List RunNode, ∀ m ∈ nodesOf (filterAll keep ns), m.resources ≠ []
  | [] => by simp [filterAll, nodesOf]
  | n :: ns => by
    by_cases empty : (n.filter keep).isEmpty = true
    · rw [filterAll_cons_of_isEmpty keep empty]
      exact filterAll_filled ns
    · rw [filterAll_cons_of_filled keep empty, nodesOf]
      intro m member
      rcases List.mem_append.mp member with here | later
      · have below := children_filled n
        cases whole : n.filter keep with
        | node label r cs =>
          rw [whole] at here below empty
          rcases List.mem_cons.mp here with rfl | inside
          · exact fun none => empty ((isEmpty_iff _).mpr none)
          · exact below m inside
      · exact filterAll_filled ns m later

end

mutual

theorem filter_filter : ∀ n : RunNode, (n.filter keep).filter also = n.filter fun r => keep r && also r
  | .node label r cs => by
    rw [filter, filter, filter, filterAll_filterAll cs]
    congr 1
    cases r with
    | none => rfl
    | some r => by_cases kept : keep r <;> simp [Option.filter, kept]

theorem filterAll_filterAll :
    ∀ ns : List RunNode, filterAll also (filterAll keep ns) = filterAll (fun r => keep r && also r) ns
  | [] => rfl
  | n :: ns => by
    have both := filter_filter n
    have later := filterAll_filterAll ns
    by_cases empty : (n.filter keep).isEmpty = true
    · -- A node without resources has none that the second predicate accepts.
      have gone : (n.filter fun r => keep r && also r).isEmpty = true := by
        rw [← both, isEmpty_iff, ← located_resources [], located_filter, located_of_isEmpty empty]
        rfl
      rw [filterAll_cons_of_isEmpty keep empty, filterAll_cons_of_isEmpty _ gone, later]
    · rw [filterAll_cons_of_filled keep empty]
      by_cases gone : ((n.filter keep).filter also).isEmpty = true
      · rw [filterAll_cons_of_isEmpty also gone, later, filterAll_cons_of_isEmpty _ (both ▸ gone)]
      · rw [filterAll_cons_of_filled also gone, later, filterAll_cons_of_filled _ (both ▸ gone), both]

end

end

mutual

theorem filter_all : ∀ n : RunNode, (∀ m ∈ n.nodes, m.resources ≠ []) → n.filter (fun _ => true) = n
  | .node label r cs, filled => by
    rw [filter, filterAll_all cs fun m member => filled m (List.mem_cons_of_mem _ member)]
    cases r <;> rfl

theorem filterAll_all :
    ∀ ns : List RunNode, (∀ m ∈ nodesOf ns, m.resources ≠ []) → filterAll (fun _ => true) ns = ns
  | [], _ => rfl
  | n :: ns, filled => by
    have same := filter_all n fun m member => filled m (List.mem_append_left _ member)
    have later := filterAll_all ns fun m member => filled m (List.mem_append_right _ member)
    have here : n ∈ nodesOf (n :: ns) := by cases n with | node => exact List.mem_cons_self
    have nonempty : ¬ (n.filter fun _ => true).isEmpty = true := by
      rw [same]
      exact fun empty => filled n here (n.isEmpty_iff.mp empty)
    rw [filterAll_cons_of_filled _ nonempty, same, later]

end

end RunNode

namespace RunList

def located (l : RunList) : List (List String × Resource) := RunNode.locatedOf [] l.nodes

def allNodes (l : RunList) : List RunNode := RunNode.nodesOf l.nodes

theorem resources_filter (l : RunList) (keep : Resource → Bool) :
    (l.filter keep).resources = l.resources.filter keep := by
  unfold resources
  rw [← RunNode.locatedOf_resources [] l.nodes, ← RunNode.locatedOf_resources [], filter,
    RunNode.locatedOf_filterAll, List.filter_map]
  rfl

theorem filter_filter (l : RunList) (keep also : Resource → Bool) :
    (l.filter keep).filter also = l.filter fun r => keep r && also r :=
  congrArg RunList.mk (RunNode.filterAll_filterAll keep also l.nodes)

theorem filter_idem (l : RunList) (keep : Resource → Bool) : (l.filter keep).filter keep = l.filter keep := by
  rw [filter_filter]
  simp only [Bool.and_self]

def Target.accepts (t : Target) (kind : Kind) (name : String) : Bool :=
  (t.kind.all fun k => Kind.ofAlias? k == some kind) && t.name.all (Text.containsText · name)

theorem filterByTarget_idem (l : RunList) (t : Option String) :
    (l.filterByTarget t).filterByTarget t = l.filterByTarget t := by
  cases t with
  | none => rfl
  | some t => exact l.filter_idem _

/-- Leaving a list as it is comes to a filter just if every node leads to a resource. -/
theorem filterByTarget_none_iff (l : RunList) :
    (∃ keep, l.filterByTarget none = l.filter keep) ↔ ∀ n ∈ l.allNodes, n.resources ≠ [] := by
  constructor
  · rintro ⟨keep, same⟩
    have whole : l = l.filter keep := same
    rw [whole]
    exact RunNode.filterAll_filled keep l.nodes
  · intro filled
    exact ⟨fun _ => true, congrArg RunList.mk (RunNode.filterAll_all l.nodes filled).symm⟩

/-- Filtering a run list is filtering its resources, with the nodes that lead to them. A target is a filter by kind and
name, no target leaves the list as it is, and either way a second time changes nothing. -/
theorem filterByTarget_filters (l : RunList) :
    (∀ keep : Resource → Bool,
      (l.filter keep).resources = l.resources.filter keep ∧
        (l.filter keep).located = l.located.filter (fun x => keep x.2) ∧
        (∀ n ∈ (l.filter keep).allNodes, n.resources ≠ []) ∧
        ∀ also, (l.filter keep).filter also = l.filter fun r => keep r && also r) ∧
      (l.isEmpty = true ↔ l.resources = []) ∧
      (∀ t, l.filterByTarget (some t) = l.filter fun r => (Target.parse t).accepts r.kind r.name) ∧
      l.filterByTarget none = l ∧
      ((∃ keep, l.filterByTarget none = l.filter keep) ↔ ∀ n ∈ l.allNodes, n.resources ≠ []) ∧
      ∀ t, (l.filterByTarget t).filterByTarget t = l.filterByTarget t := by
  refine ⟨fun keep => ?_, RunNode.areEmpty_iff l.nodes, fun t => rfl, rfl, l.filterByTarget_none_iff,
    l.filterByTarget_idem⟩
  exact ⟨l.resources_filter keep, RunNode.locatedOf_filterAll keep [] l.nodes, RunNode.filterAll_filled keep l.nodes,
    l.filter_filter keep⟩

def idleList : RunList := ⟨[.group "site" []]⟩

/-- The group stays without a target, and every filter drops it. -/
theorem filterByTarget_keeps_idle :
    idleList.filterByTarget none = idleList ∧ ∀ keep : Resource → Bool, idleList.filter keep = empty ∧
      idleList.filterByTarget none ≠ idleList.filter keep := by
  refine ⟨rfl, fun keep => ⟨rfl, fun same => ?_⟩⟩
  have nodes := congrArg RunList.nodes same
  cases nodes

end RunList

end Provision

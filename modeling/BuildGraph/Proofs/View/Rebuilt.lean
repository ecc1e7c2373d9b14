import BuildGraph.Proofs.Store.Built
import BuildGraph.Proofs.Target.Name
import BuildGraph.Verdict
import BuildGraph.View.Dot
import BuildGraph.View.Tree

/-! A graph can be built again from the names that the views show.

A shown name spells the usage that was inferred, which then comes back as a hint. What is shown
and reported looks at usages and not at hints, so nothing else is different in the new store.
-/

set_option autoImplicit false

namespace BuildGraph

/-- The target as it would be if its name had been written with its usage. -/
def Target.confirm (target : Target) : Target :=
  { target with hint := some target.usage }

namespace Store

variable {store next : Store} {owner : TargetId}

def confirm (store : Store) : Store :=
  ⟨store.targets.map Target.confirm⟩

/-! ## What does not look at hints -/

@[simp] theorem size_confirm (store : Store) : store.confirm.size = store.size := by
  simp [size, confirm]

@[simp] theorem ids_confirm (store : Store) : store.confirm.ids = store.ids := by
  rw [ids, size_confirm, ids]

@[simp] theorem get?_confirm (store : Store) (id : TargetId) :
    store.confirm.get? id = (store.get? id).map Target.confirm :=
  List.getElem?_map

@[simp] theorem edges_confirm (store : Store) : store.confirm.edges = store.edges := by
  funext id
  cases found : store.get? id <;> simp [edges, found, Target.confirm]

@[simp] theorem isExecutable_confirm (store : Store) :
    store.confirm.isExecutable = store.isExecutable := by
  funext id
  cases found : store.get? id <;> simp [isExecutable, found, Target.confirm]

theorem dot_confirm (store : Store) : store.confirm.dot = store.dot := by
  have nodes : store.confirm.dotNodes = store.dotNodes := by
    simp [dotNodes, confirm, Target.confirm, Target.shownName]
  have edges : store.confirm.dotEdges = store.dotEdges := by
    simp [dotEdges, confirm, Target.confirm, List.filter_map, Function.comp_def]
  rw [dot, dotStatements, nodes, edges, dot, dotStatements]

@[simp] theorem roots_confirm (store : Store) : store.confirm.roots = store.roots := by
  rw [roots, ids_confirm, roots, confirm]
  simp only [List.any_map]
  rfl

/-- The bound that a walk carries mentions the store, so the two walks are compared by parts. -/
theorem walk_confirm (store : Store) (path fresh ids : List TargetId) :
    (Tree.walk store.confirm path fresh ids).visits = (Tree.walk store path fresh ids).visits ∧
      (Tree.walk store.confirm path fresh ids).fresh = (Tree.walk store path fresh ids).fresh := by
  fun_induction Tree.walk store path fresh ids with
  | case1 path fresh => rw [Tree.walk]; exact ⟨rfl, rfl⟩
  | case2 path fresh id rest unknown ih =>
    rw [Tree.walk, size_confirm, if_pos unknown]
    exact ih
  | case3 path fresh id rest known around ih =>
    rw [Tree.walk, size_confirm, if_neg known, if_pos around]
    exact ⟨congrArg (List.cons _) ih.1, ih.2⟩
  | case4 path fresh id rest known outside unmet fewer below beside ihBelow ihBeside =>
    rw [Tree.walk, size_confirm, if_neg known, if_neg outside, dif_pos unmet]
    dsimp only
    rw [edges_confirm, ihBelow.1, ihBelow.2]
    exact ⟨by rw [ihBeside.1], ihBeside.2⟩
  | case5 path fresh id rest known outside met ih =>
    rw [Tree.walk, size_confirm, if_neg known, if_neg outside, dif_neg met, edges_confirm]
    exact ⟨congrArg (List.cons _) ih.1, ih.2⟩

theorem leftovers_confirm (fresh ids : List TargetId) :
    Tree.leftovers store.confirm fresh ids = Tree.leftovers store fresh ids := by
  induction ids generalizing fresh with
  | nil => rfl
  | cons id rest ih =>
    obtain ⟨visits, left⟩ := walk_confirm store [] fresh [id]
    simp only [Tree.leftovers, visits, left, ih]

theorem treeWalk_confirm (store : Store) : store.confirm.treeWalk = store.treeWalk := by
  obtain ⟨visits, left⟩ := walk_confirm store [] store.ids store.roots
  rw [treeWalk, ids_confirm, roots_confirm, visits, left, leftovers_confirm, treeWalk]

theorem tree_confirm (store : Store) : store.confirm.tree = store.tree := by
  have line : store.confirm.treeLine? = store.treeLine? := by
    funext visit
    cases found : store.get? visit.id <;>
      simp [treeLine?, found, Target.confirm, Target.shownName]
  rw [tree, treeVisits, treeWalk_confirm, line, tree, treeVisits]

theorem findsLeaf_confirm (root : TargetId) (unseen pending : List TargetId) :
    store.confirm.findsLeaf root unseen pending = store.findsLeaf root unseen pending := by
  fun_induction findsLeaf store root unseen pending with
  | case1 => rw [findsLeaf]
  | case2 unseen pending ih => rw [findsLeaf, if_pos rfl, ih]
  | case3 unseen id pending different fresh ih =>
    rw [findsLeaf, if_neg different, dif_pos fresh, edges_confirm, ih, isExecutableLeaf,
      isExecutable_confirm, edges_confirm, isExecutableLeaf]
  | case4 unseen id pending different met ih =>
    rw [findsLeaf, if_neg different, dif_neg met, ih]

theorem verdict?_confirm (store : Store) (id : TargetId) :
    store.confirm.verdict? id = store.verdict? id := by
  cases found : store.get? id with
  | none => simp [verdict?, found]
  | some target =>
    simp [verdict?, found, Target.confirm, linksManyExecutables, isAnchored, findsLeaf_confirm]

theorem searchCycle_confirm (path fresh ids : List TargetId) :
    store.confirm.searchCycle path fresh ids = store.searchCycle path fresh ids := by
  fun_induction searchCycle store path fresh ids with
  | case1 => rw [searchCycle]
  | case2 path fresh id rest around => rw [searchCycle, if_pos around]
  | case3 path fresh id rest outside unmet fewer found below ih =>
    rw [searchCycle, if_neg outside, dif_pos unmet, edges_confirm, ih, below]
  | case4 path fresh id rest outside unmet fewer middle fewerLeft below found beside ihBelow ih =>
    rw [searchCycle, if_neg outside, dif_pos unmet, edges_confirm, ihBelow, below]
    simp only [ih, beside]
  | case5 path fresh id rest outside unmet fewer middle fewerLeft below last bounded beside
      ihBelow ih =>
    rw [searchCycle, if_neg outside, dif_pos unmet, edges_confirm, ihBelow, below]
    simp only [ih, beside]
  | case6 path fresh id rest outside met ih =>
    rw [searchCycle, if_neg outside, dif_neg met, ih]

theorem cycle?_confirm (store : Store) : store.confirm.cycle? = store.cycle? := by
  ext cycle
  rw [cycle?_eq_some_iff, cycle?_eq_some_iff, ids_confirm, searchCycle_confirm]

theorem report_confirm (store : Store) : store.confirm.report = store.report := by
  have verdict : store.confirm.verdict? = store.verdict? := funext (verdict?_confirm store)
  rw [report, ids_confirm, verdict, cycle?_confirm, report]

/-! ## Building a store again -/

def rebuildCalls (store : Store) : List Call :=
  store.targets.flatMap (fun target => [.add target.shownName]) ++
    (store.targets.flatMap (fun target => target.dependencies.map (.link target.id)) ++
      store.targets.flatMap fun target => if target.declared then [.declare target.id] else [])

/-- Calls that are made for one target after the other lead from one state to the next. -/
theorem foldlM_each (targets : List Target) (state : List Target → List Target → Store)
    (calls : Target → List Call)
    (step : ∀ front target back, targets = front ++ target :: back →
      (calls target).foldlM attempt (state front (target :: back)) =
        some (state (front ++ [target]) back)) :
    (targets.flatMap calls).foldlM attempt (state [] targets) = some (state targets []) := by
  have each : ∀ back front, targets = front ++ back →
      (back.flatMap calls).foldlM attempt (state front back) = some (state targets []) := by
    intro back
    induction back with
    | nil =>
      rintro front rfl
      simp
    | cons target back ih =>
      intro front split
      rw [List.flatMap_cons, List.foldlM_append, step front target back split]
      exact ih (front ++ [target]) (by simpa using split)
  exact each targets [] rfl

theorem modify_length (front back : List Target) (target : Target) (change : Target → Target) :
    Store.modify ⟨front ++ target :: back⟩ front.length change =
      ⟨front ++ change target :: back⟩ := by
  refine congrArg Store.mk ?_
  induction front with
  | nil => rfl
  | cons first front ih => exact congrArg (List.cons first) ih

theorem modify_linkAsLibrary {id : TargetId} (hinted : none ∉ store.targets.map Target.hint) :
    store.modify id Target.linkAsLibrary = store := by
  have kept : ∀ target ∈ store.targets, target.linkAsLibrary = target := fun target member =>
    if_neg fun unmarked => hinted (List.mem_map.mpr ⟨target, member, unmarked.2⟩)
  refine congrArg Store.mk (List.ext_getElem? fun place => ?_)
  rw [List.getElem?_modify]
  split
  · cases found : store.targets[place]? with
    | none => rfl
    | some target => exact congrArg some (kept target (List.mem_of_getElem? found))
  · exact id_map _

theorem attempt_link_hinted {dependency : TargetId} (hinted : none ∉ store.targets.map Target.hint)
    (ownerHeld : owner < store.size) (held : dependency < store.size) :
    store.attempt (.link owner dependency) =
      some (store.modify owner (·.withDependency dependency)) := by
  have same : ∀ target : Target, (target.withDependency dependency).hint = target.hint :=
    fun _ => rfl
  rw [attempt_link ownerHeld held, attach, modify_linkAsLibrary]
  rwa [map_targets_modify Target.hint same]

theorem foldlM_link {front back : List Target} (target : Target) (dependencies : List TargetId)
    (hinted : none ∉ (front ++ target :: back).map Target.hint)
    (held : ∀ id ∈ dependencies, id < (front ++ target :: back).length) :
    (dependencies.map (.link front.length)).foldlM attempt ⟨front ++ target :: back⟩ =
      some ⟨front ++ { target with dependencies := target.dependencies ++ dependencies } ::
        back⟩ := by
  induction dependencies generalizing target with
  | nil => simp
  | cons dependency rest ih =>
    obtain ⟨first, others⟩ := List.forall_mem_cons.mp held
    have ownerHeld : front.length < (front ++ target :: back).length := by simp
    rw [List.map_cons, List.foldlM_cons, attempt_link_hinted hinted ownerHeld first, modify_length]
    have linked := ih (target.withDependency dependency)
      (by simpa [Target.withDependency] using hinted) (by simpa using others)
    simpa [Target.withDependency] using linked

/-! ## The steps of the rebuilding -/

section

variable (built : store.Built) {front back : List Target} {target : Target}

include built

theorem id_of_split (split : store.targets = front ++ target :: back) :
    target.id = front.length := by
  refine built.id_eq ?_
  rw [get?, split]
  simp

theorem Built.ofString_shownName (member : target ∈ store.targets) :
    TargetName.ofString target.shownName = .ok ⟨some target.usage, target.name⟩ := by
  obtain ⟨id, held⟩ := List.getElem?_of_mem member
  obtain ⟨raw, read⟩ := built.spelled ⟨target.hint, target.name⟩ (List.mem_map_of_mem member)
  refine TargetName.ofString_spell read fun library marked => ?_
  have executable := (built.coherent.usage held).mpr (.inl marked)
  rw [library] at executable
  cases executable

theorem Built.lt_of_listed (member : target ∈ store.targets) :
    ∀ dependency ∈ target.dependencies, dependency < store.size := by
  intro dependency listed
  obtain ⟨id, held⟩ := List.getElem?_of_mem member
  exact built.coherent.closed (dependsOn_iff.mpr ⟨target, held, listed⟩)

end

end Store

def Target.bare (target : Target) : Target :=
  { target.confirm with dependencies := [], declared := false }

def Target.linked (target : Target) : Target :=
  { target.confirm with declared := false }

namespace Store

variable {store : Store}

theorem Built.rebuild_targets (built : store.Built) :
    (store.targets.flatMap fun target => [.add target.shownName]).foldlM attempt .empty =
      some ⟨store.targets.map Target.bare⟩ := by
  refine foldlM_each store.targets (fun front _ => ⟨front.map Target.bare⟩) _ ?_
  intro front target back split
  have member : target ∈ store.targets := by simp [split]
  have placed := id_of_split built split
  simp [attempt_add (built.ofString_shownName member), Store.push, size, Target.ofName,
    Target.bare, Target.confirm, placed]

theorem Built.rebuild_dependencies (built : store.Built) :
    (store.targets.flatMap fun target => target.dependencies.map (.link target.id)).foldlM attempt
      ⟨store.targets.map Target.bare⟩ = some ⟨store.targets.map Target.linked⟩ := by
  have each := foldlM_each store.targets
    (fun front back => ⟨front.map Target.linked ++ back.map Target.bare⟩)
    (fun target => target.dependencies.map (.link target.id)) ?_
  · simpa using each
  intro front target back split
  have member : target ∈ store.targets := by simp [split]
  have placed : target.id = (front.map Target.linked).length := by
    rw [List.length_map, id_of_split built split]
  have hinted : none ∉ (front.map Target.linked ++ target.bare :: back.map Target.bare).map
      Target.hint := by
    simp [Target.linked, Target.bare, Target.confirm]
  have held : ∀ id ∈ target.dependencies,
      id < (front.map Target.linked ++ target.bare :: back.map Target.bare).length := by
    simpa [size, split] using built.lt_of_listed member
  rw [placed, List.map_cons, foldlM_link target.bare target.dependencies hinted held]
  simp [Target.bare, Target.linked, Target.confirm]

theorem Built.rebuild_declarations (built : store.Built) :
    (store.targets.flatMap fun target =>
      if target.declared then [.declare target.id] else []).foldlM attempt
        ⟨store.targets.map Target.linked⟩ = some store.confirm := by
  have each := foldlM_each store.targets
    (fun front back => ⟨front.map Target.confirm ++ back.map Target.linked⟩)
    (fun target => if target.declared then [.declare target.id] else []) ?_
  · simpa [confirm] using each
  intro front target back split
  have placed : target.id = (front.map Target.confirm).length := by
    rw [List.length_map, id_of_split built split]
  cases declared : target.declared with
  | true =>
    have held : target.id <
        Store.size ⟨front.map Target.confirm ++ (target :: back).map Target.linked⟩ := by
      simp [size, placed]
    simp only [if_true, List.foldlM_cons, List.foldlM_nil, attempt_declare held]
    rw [placed, List.map_cons, modify_length]
    simp [Target.linked, Target.declare, Target.confirm, declared]
  | false => simp [Target.linked, Target.confirm, declared]

/-- Whatever calls made a store, it can be built again from the names that are shown. No call
fails, and the new store differs only in that each hint is now the usage. It looks the same, and
its report is the same. -/
theorem built_rebuilt (built : store.Built) :
    store.rebuildCalls.foldlM attempt .empty = some store.confirm ∧
      store.confirm.dot = store.dot ∧ store.confirm.tree = store.tree ∧
      store.confirm.report = store.report := by
  refine ⟨?_, dot_confirm store, tree_confirm store, report_confirm store⟩
  rw [rebuildCalls, List.foldlM_append, built.rebuild_targets, Option.bind_eq_bind,
    Option.bind_some, List.foldlM_append, built.rebuild_dependencies, Option.bind_eq_bind,
    Option.bind_some, built.rebuild_declarations]

/-- Some cleaned names look like marks. The library is named like a prefix, the first executable
ends with a star, and the second one would be a library without its own. -/
theorem built_rebuilt_marks :
    let calls := [Call.add "lib", .add "liblib", .add "a**", .add "lib*", .link 0 1, .link 2 0,
      .link 2 2, .link 2 3, .declare 2, .add "*"]
    let store : Store := ⟨[⟨0, "lib", .library, none, [1], false⟩,
      ⟨1, "lib", .library, some .library, [], false⟩,
      ⟨2, "a*", .executable, some .executable, [0, 2, 3], true⟩,
      ⟨3, "lib", .executable, some .executable, [], false⟩]⟩
    let rebuilt : Store := ⟨[⟨0, "lib", .library, some .library, [1], false⟩,
      ⟨1, "lib", .library, some .library, [], false⟩,
      ⟨2, "a*", .executable, some .executable, [0, 2, 3], true⟩,
      ⟨3, "lib", .executable, some .executable, [], false⟩]⟩
    calls.foldl after .empty = store ∧
      [Call.add "liblib", .add "liblib", .add "a**", .add "lib*", .link 0 1, .link 2 0, .link 2 2,
        .link 2 3, .declare 2].foldlM attempt .empty = some rebuilt ∧
      rebuilt.tree = store.tree ∧ rebuilt.report = store.report := by
  intro calls store rebuilt
  have built : store.Built := Built.calls .empty calls
  obtain ⟨again, -, tree, report⟩ := built_rebuilt built
  exact ⟨rfl, again, tree, report⟩

end Store

end BuildGraph

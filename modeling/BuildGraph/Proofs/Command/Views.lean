import BuildGraph.Command.Views
import BuildGraph.Proofs.Command.Printing
import BuildGraph.Proofs.Store.Graph
import Mathlib.Data.List.TakeWhile

/-! The views are printed as they are defined.

What is printed line by line is the text that the view is as a whole. The tree view breaks off, in
both forms, at the first visit that cannot be indented.
-/

set_option autoImplicit false

namespace BuildGraph

namespace Tree

variable {α β : Type} {store : Store} {id : TargetId} {target : Target} {program : Printing α}
variable {first rest : List Visit} {value : α}

theorem takeWhile_append_of_broken (broken : ¬ first.all fun visit => canIndent visit.depth) :
    (first ++ rest).takeWhile (fun visit => canIndent visit.depth) =
      first.takeWhile fun visit => canIndent visit.depth := by
  induction first with
  | nil => exact absurd rfl broken
  | cons visit first ih =>
    rw [List.cons_append, List.takeWhile_cons, List.takeWhile_cons]
    cases narrow : canIndent visit.depth with
    | true =>
      rw [List.all_cons, narrow, Bool.true_and] at broken
      rw [ih broken]
    | false => rfl

def linesOf (store : Store) (visits : List Visit) : String :=
  String.join ((visits.takeWhile fun visit => canIndent visit.depth).filterMap store.treeLine?)

def endOf {α : Type} (visits : List Visit) (value : α) : Except PrintFault α :=
  if visits.all fun visit => canIndent visit.depth then .ok value else .error .tooWide

/-- The program writes these visits, and breaks off at one that cannot be indented. -/
def PrintsVisits {α : Type} (store : Store) (program : Printing α) (visits : List Visit)
    (value : α) : Prop :=
  Prints (· = .full) program (linesOf store visits) (endOf visits value)

/-- The line of a visit is printed in two parts: the name, and then the remark. -/
theorem treeLine?_of_get? {depth : Nat} {indentation : String}
    (held : store.get? id = some target) (indented : indentation? depth = some indentation)
    (mark : Mark) :
    store.treeLine? ⟨id, depth, mark⟩ =
      some (indentation ++ target.shownName ++ (mark.text ++ "\n")) := by
  rw [Store.treeLine?, indented, held, Option.map_some, Option.map_some, Option.getD_some,
    String.append_assoc]

namespace PrintsVisits

theorem pure (value : α) : PrintsVisits store (Pure.pure value) [] value := Prints.pure value

theorem bind {next : α → Printing β} {result : β} (here : PrintsVisits store program first value)
    (there : PrintsVisits store (next value) rest result) :
    PrintsVisits store (program >>= next) (first ++ rest) result := by
  unfold PrintsVisits linesOf endOf at *
  by_cases whole : first.all fun visit => canIndent visit.depth
  · have narrow := List.all_eq_true.mp whole
    rw [List.takeWhile_eq_self_iff.mpr narrow, if_pos whole] at here
    rw [List.takeWhile_append_of_pos narrow, List.filterMap_append, String.join_append,
      List.all_append, whole, Bool.true_and]
    exact here.bind there
  · rw [if_neg whole] at here
    rw [takeWhile_append_of_broken whole, List.all_append, eq_false_of_ne_true whole]
    exact here.bind_error

theorem map (prints : PrintsVisits store program first value) (change : α → β) :
    PrintsVisits store (program >>= fun value => Pure.pure (change value)) first (change value) := by
  rw [← List.append_nil first]
  exact prints.bind (.pure (change value))

theorem visit {next : Printing α} {remark : String} (held : store.get? id = some target)
    (depth : Nat) (mark : Mark) (spelled : mark.text ++ "\n" = remark)
    (prints : PrintsVisits store next rest value) :
    PrintsVisits store
      (do
        printName depth target
        print remark
        next)
      (⟨id, depth, mark⟩ :: rest) value := by
  unfold PrintsVisits linesOf endOf at *
  rw [printName, List.all_cons, List.takeWhile_cons]
  by_cases narrow : canIndent depth
  · obtain ⟨indentation, indented⟩ : ∃ indentation, indentation? depth = some indentation :=
      ⟨_, if_pos narrow⟩
    have line := treeLine?_of_get? held indented mark
    rw [spelled] at line
    rw [indented, narrow, Bool.true_and, if_pos rfl, List.filterMap_cons_some line,
      String.join_cons, String.append_assoc]
    exact (prints_print _).bind ((prints_print remark).bind prints)
  · have deep : indentation? depth = none := if_neg narrow
    rw [deep, eq_false_of_ne_true narrow]
    exact (Prints.throw PrintFault.tooWide).bind_error

end PrintsVisits

theorem prints_walk (path fresh ids : List TargetId) :
    PrintsVisits store (printWalk store path fresh ids) (walk store path fresh ids).visits
      ⟨(walk store path fresh ids).fresh, (walk store path fresh ids).bounded⟩ := by
  fun_induction walk store path fresh ids with
  | case1 path fresh =>
    rw [printWalk]
    exact .pure _
  | case2 path fresh id rest unknown ih =>
    rw [printWalk, Store.get?_eq_none_iff.mpr unknown]
    exact ih
  | case3 path fresh id rest known around ih =>
    obtain ⟨target, held⟩ := Store.exists_get?_of_lt (Nat.lt_of_not_le known)
    rw [printWalk, held]
    simp only [if_pos around]
    exact ih.visit held path.length .cycle rfl
  | case4 path fresh id rest known outside unmet fewer below beside ihBelow ihBeside =>
    obtain ⟨target, held⟩ := Store.exists_get?_of_lt (Nat.lt_of_not_le known)
    rw [printWalk, held]
    simp only [if_neg outside, dif_pos unmet, ← Store.edges_of_get? held]
    exact (ihBelow.bind (ihBeside.map _)).visit held path.length .expanded rfl
  | case5 path fresh id rest known outside met ih =>
    obtain ⟨target, held⟩ := Store.exists_get?_of_lt (Nat.lt_of_not_le known)
    rw [printWalk, held, Store.edges_of_get? held]
    simp only [if_neg outside, dif_neg met]
    refine ih.visit held path.length _ ?_
    cases target.dependencies <;> rfl

theorem prints_leftovers (fresh ids : List TargetId) :
    PrintsVisits store (printLeftovers store fresh ids) (leftovers store fresh ids) () := by
  induction ids generalizing fresh with
  | nil => exact .pure _
  | cons id rest ih =>
    rw [printLeftovers, leftovers]
    by_cases unexpanded : id ∈ fresh
    · simp only [if_pos unexpanded]
      exact (prints_walk [] fresh [id]).bind (ih _)
    · simp only [if_neg unexpanded]
      exact ih fresh

end Tree

namespace Store

theorem prints_tree (store : Store) :
    Prints (· = .full) store.printTree store.tree
      (if store.treeIsWhole then .ok () else .error .tooWide) :=
  (Tree.prints_walk [] store.ids store.roots).bind (Tree.prints_leftovers _ store.ids)

/-- A target without dependencies is passed over, and so writes nothing. -/
theorem join_edges (targets : List Target) :
    String.join (targets.map fun target =>
        if target.dependencies.isEmpty then ""
        else (Dot.Statement.edges target.id target.dependencies).text) =
      String.join (((targets.filter fun target => !target.dependencies.isEmpty).map fun target =>
        Dot.Statement.edges target.id target.dependencies).map Dot.Statement.text) := by
  induction targets with
  | nil => rfl
  | cons target rest ih =>
    rw [List.map_cons, String.join_cons, ih, List.filter_cons]
    cases target.dependencies.isEmpty <;> simp

theorem prints_dot (store : Store) :
    Prints (· = .full) store.printDot store.dot (.ok ()) := by
  have nodes : ∀ target ∈ store.targets, Prints (· = .full)
      (print (Dot.Statement.node target.id target.shownName target.usage).text) _ (.ok ()) :=
    fun _ _ => prints_print _
  have edges : ∀ target ∈ store.targets, Prints (· = .full)
      (do unless target.dependencies.isEmpty do
        print (Dot.Statement.edges target.id target.dependencies).text)
      (if target.dependencies.isEmpty then ""
        else (Dot.Statement.edges target.id target.dependencies).text) (.ok ()) := by
    intro target _
    cases target.dependencies.isEmpty
    · exact prints_print _
    · exact .pure _
  rw [printDot, dot, dotStatements]
  unfold Dot.render
  rw [List.map_append, String.join_append, dotNodes, List.map_map, dotEdges, ← join_edges]
  simp only [String.append_assoc]
  exact (prints_print _).bind ((Prints.forM nodes).bind
    ((Prints.forM edges).bind (prints_print _)))

end Store

end BuildGraph

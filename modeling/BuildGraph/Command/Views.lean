import BuildGraph.Command.Output
import BuildGraph.View.Dot
import BuildGraph.View.Tree

/-! Printing the tree view and the DOT view.

The views are not put together before they are printed: each line is printed when the walk
gets to it, and a walk ends where the sink is full or a line lies too deep.
-/

set_option autoImplicit false

namespace BuildGraph

namespace Tree

/-- Print the name of a target below the expansions around it. The spaces are asked for before
anything is written. -/
def printName (depth : Nat) (target : Target) : Printing Unit :=
  match indentation? depth with
  | none => throw .tooWide
  | some indentation => print (indentation ++ target.shownName)

/-- Print the visits of a walk, and return the targets that it leaves unexpanded. -/
def printWalk (store : Store) (path fresh : List TargetId) :
    List TargetId → Printing { left : List TargetId // left.length ≤ fresh.length }
  | [] => return ⟨fresh, Nat.le_refl _⟩
  | id :: rest =>
    match store.get? id with
    | none => printWalk store path fresh rest
    | some target => do
      printName path.length target
      if id ∈ path then
        print " (cycle)\n"
        printWalk store path fresh rest
      else if unexpanded : id ∈ fresh then
        have fewer : (fresh.erase id).length < fresh.length := by
          rw [List.length_erase_of_mem unexpanded]
          exact Nat.sub_one_lt_of_lt (List.length_pos_of_mem unexpanded)
        print "\n"
        let ⟨left, bounded⟩ ← printWalk store (id :: path) (fresh.erase id) target.dependencies
        let ⟨last, lastBounded⟩ ← printWalk store path left rest
        return ⟨last, Nat.le_trans lastBounded (Nat.le_trans bounded (Nat.le_of_lt fewer))⟩
      else
        print (if target.dependencies.isEmpty then "\n" else " (shown above)\n")
        printWalk store path fresh rest
termination_by ids => (fresh.length, ids.length)
decreasing_by
  · exact Prod.Lex.right _ (Nat.lt_succ_self _)
  · exact Prod.Lex.right _ (Nat.lt_succ_self _)
  · exact Prod.Lex.left _ _ fewer
  · exact Prod.Lex.left _ _ (Nat.lt_of_le_of_lt bounded fewer)
  · exact Prod.Lex.right _ (Nat.lt_succ_self _)

/-- Print a walk from every target that is not expanded yet when its turn comes. -/
def printLeftovers (store : Store) (fresh : List TargetId) : List TargetId → Printing Unit
  | [] => return
  | id :: rest => do
    if id ∈ fresh then
      let left ← printWalk store [] fresh [id]
      printLeftovers store left.val rest
    else printLeftovers store fresh rest

end Tree

namespace Store

def printTree (store : Store) : Printing Unit := do
  let left ← Tree.printWalk store [] store.ids store.roots
  Tree.printLeftovers store left.val store.ids

def printDot (store : Store) : Printing Unit := do
  print "digraph targets \x7b\n"
  store.targets.forM fun target =>
    print (Dot.Statement.node target.id target.shownName target.usage).text
  store.targets.forM fun target => do
    unless target.dependencies.isEmpty do
      print (Dot.Statement.edges target.id target.dependencies).text
  print "\x7d\n"

end Store

end BuildGraph

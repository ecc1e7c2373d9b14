import BuildGraph.Store

/-! The indented tree view.

Targets nothing depends on come first, then those that only a cycle reaches. Each
target is expanded where it is first visited; a later visit names it again and
says whether it lies on the current path or was shown above. A line is indented by
the depth of its visit, and the view breaks off at the first line that lies too deep.
-/

set_option autoImplicit false

namespace BuildGraph

namespace Tree

/-- What a visit shows. A repeated target without dependencies needs no remark. -/
inductive Mark where
  | expanded
  | repeatedLeaf
  | shownAbove
  | cycle
  deriving DecidableEq, Repr

def Mark.text : Mark → String
  | expanded => ""
  | repeatedLeaf => ""
  | shownAbove => " (shown above)"
  | cycle => " (cycle)"

structure Visit where
  id : TargetId
  depth : Nat
  mark : Mark
  deriving DecidableEq, Repr

/-- The greatest width that can be asked for. Widths are held in 16 bits. -/
def widest : Nat := 65535

def canIndent (depth : Nat) : Bool := 2 * depth ≤ widest

/-- The spaces in front of a name, unless they are more than can be asked for. -/
def indentation? (depth : Nat) : Option String :=
  if canIndent depth then some (String.ofList (List.replicate (2 * depth) ' ')) else none

/-- The visits of a walk, in order, and the targets that it leaves unexpanded: at most as many as
there were before it. -/
structure Walk (most : Nat) where
  visits : List Visit
  fresh : List TargetId
  bounded : fresh.length ≤ most

def Walk.after {most : Nat} (walk : Walk most) (visit : Visit) : Walk most :=
  { walk with visits := visit :: walk.visits }

/-- Visit targets one after the other below the expansions on `path`, the nearest first. The
targets not expanded so far are `fresh`. Every expansion takes one of them away, so the walk ends
on a graph of any shape. -/
def walk (store : Store) (path fresh : List TargetId) : List TargetId → Walk fresh.length
  | [] => ⟨[], fresh, Nat.le_refl _⟩
  | id :: rest =>
    if store.size ≤ id then walk store path fresh rest
    else if id ∈ path then (walk store path fresh rest).after ⟨id, path.length, .cycle⟩
    else if unexpanded : id ∈ fresh then
      have fewer : (fresh.erase id).length < fresh.length := by
        rw [List.length_erase_of_mem unexpanded]
        exact Nat.sub_one_lt_of_lt (List.length_pos_of_mem unexpanded)
      let below := walk store (id :: path) (fresh.erase id) (store.edges id)
      let beside := walk store path below.fresh rest
      ⟨⟨id, path.length, .expanded⟩ :: (below.visits ++ beside.visits), beside.fresh,
        Nat.le_trans beside.bounded (Nat.le_trans below.bounded (Nat.le_of_lt fewer))⟩
    else
      (walk store path fresh rest).after
        ⟨id, path.length, if store.edges id = [] then .repeatedLeaf else .shownAbove⟩
termination_by ids => (fresh.length, ids.length)
decreasing_by
  · exact Prod.Lex.right _ (Nat.lt_succ_self _)
  · exact Prod.Lex.right _ (Nat.lt_succ_self _)
  · exact Prod.Lex.left _ _ fewer
  · exact Prod.Lex.left _ _ (Nat.lt_of_le_of_lt (Walk.bounded _) fewer)
  · exact Prod.Lex.right _ (Nat.lt_succ_self _)

/-- Start at every target that is not expanded yet when its turn comes. -/
def leftovers (store : Store) (fresh : List TargetId) : List TargetId → List Visit
  | [] => []
  | id :: rest =>
    if id ∈ fresh then
      let walked := walk store [] fresh [id]
      walked.visits ++ leftovers store walked.fresh rest
    else leftovers store fresh rest

end Tree

namespace Store

/-- The targets nothing depends on. -/
def roots (store : Store) : List TargetId :=
  store.ids.filter fun id => !store.targets.any fun target => target.dependencies.contains id

/-- Every visit that the tree view asks for, in order. -/
def treeWalk (store : Store) : List Tree.Visit :=
  let rooted := Tree.walk store [] store.ids store.roots
  rooted.visits ++ Tree.leftovers store rooted.fresh store.ids

def treeLine? (store : Store) (visit : Tree.Visit) : Option String :=
  (Tree.indentation? visit.depth).map fun indentation =>
    indentation ++ ((store.get? visit.id).map Target.shownName).getD "" ++ visit.mark.text ++ "\n"

/-- The visits that are written. The first one that cannot be indented ends the view. -/
def treeVisits (store : Store) : List Tree.Visit :=
  store.treeWalk.takeWhile fun visit => Tree.canIndent visit.depth

def treeIsWhole (store : Store) : Bool :=
  store.treeWalk.all fun visit => Tree.canIndent visit.depth

/-- The text of the tree view, as far as it is written. -/
def tree (store : Store) : String :=
  String.join (store.treeVisits.filterMap store.treeLine?)

end Store

end BuildGraph

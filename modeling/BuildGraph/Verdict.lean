import BuildGraph.Cycle

/-! Consistency verdicts over a finished store.

Two different executables among the direct dependencies make a target
ambiguous. An undeclared executable with dependencies needs an executable
without dependencies somewhere below it. Validation never fails; a cycle is
reported beside the verdicts and changes none.
-/

set_option autoImplicit false

namespace BuildGraph

inductive Verdict where
  | valid
  | ambiguous
  | missingExecutable
  deriving DecidableEq, Repr

def Verdict.text : Verdict → String
  | valid => "valid"
  | ambiguous => "ambiguous"
  | missingExecutable => "missing executable"

/-- The verdict on a whole store names the first target that is not valid. -/
inductive ProjectVerdict where
  | valid
  | invalid (target : TargetId) (verdict : Verdict)
  deriving DecidableEq, Repr

def ProjectVerdict.isValid : ProjectVerdict → Bool
  | valid => true
  | invalid _ _ => false

/-- One verdict per target in order, the verdict on the whole, and a cycle. -/
structure Report where
  verdicts : List Verdict
  project : ProjectVerdict
  cycle : Option (List TargetId)
  deriving DecidableEq, Repr

def Report.verdict? (report : Report) (id : TargetId) : Option Verdict :=
  report.verdicts[id]?

namespace Store

/-- An executable without dependencies of its own. -/
def isExecutableLeaf (store : Store) (id : TargetId) : Bool :=
  store.isExecutable id && (store.edges id).isEmpty

/-- Look for an executable leaf among the targets on a stack and those below them. The ones
not met so far are `unseen`, and `root` is passed over. -/
def findsLeaf (store : Store) (root : TargetId) (unseen : List TargetId) :
    List TargetId → Bool
  | [] => false
  | id :: pending =>
    if id = root then store.findsLeaf root unseen pending
    else if _ : id ∈ unseen then
      store.isExecutableLeaf id ||
        store.findsLeaf root (unseen.erase id) ((store.edges id).reverse ++ pending)
    else store.findsLeaf root unseen pending
termination_by pending => (unseen.length, pending.length)
decreasing_by
  · exact Prod.Lex.right _ (Nat.lt_succ_self _)
  · next fresh =>
    have left := List.length_pos_of_mem fresh
    exact Prod.Lex.left _ _ (by rw [List.length_erase_of_mem fresh]; omega)
  · exact Prod.Lex.right _ (Nat.lt_succ_self _)

/-- Whether some other target below `id` is an executable leaf. -/
def isAnchored (store : Store) (id : TargetId) : Bool :=
  store.findsLeaf id store.ids (store.edges id).reverse

/-- Whether two different executables are among the direct dependencies. They are sorted, so
that an executable that is linked twice has its number side by side. -/
def linksManyExecutables (store : Store) (target : Target) : Bool :=
  2 ≤ (target.dependencies.filter store.isExecutable).mergeSort.eraseReps.length

def verdict? (store : Store) (id : TargetId) : Option Verdict :=
  (store.get? id).map fun target =>
    if target.dependencies = [] then .valid
    else if store.linksManyExecutables target then .ambiguous
    else if target.usage = .executable ∧ ¬ target.declared ∧ ¬ store.isAnchored id then
      .missingExecutable
    else .valid

def report (store : Store) : Report :=
  let verdicts := store.ids.map fun id => (store.verdict? id).getD .valid
  { verdicts
    project :=
      match (store.ids.zip verdicts).find? (·.2 ≠ .valid) with
      | none => .valid
      | some (target, verdict) => .invalid target verdict
    cycle := store.cycle? }

end Store

end BuildGraph

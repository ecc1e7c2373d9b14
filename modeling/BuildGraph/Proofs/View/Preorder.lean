import BuildGraph.View.Tree

/-! Reading a tree off a row of visits.

Depths tell where a visit belongs: it stands below the last one before it that is less deep, and
what stands below it follows it at once, as far as it is deeper. Nothing here knows how the row
was made.
-/

set_option autoImplicit false

namespace BuildGraph.Tree

variable {before visits after : List Visit} {visit : Visit} {depth : Nat}

/-- Through earlier visits, the last first: each one that is less deep than all that were kept. -/
def climb : List Visit → Nat → List Visit
  | [], _ => []
  | visit :: earlier, depth =>
    if visit.depth < depth then visit :: climb earlier visit.depth else climb earlier depth

/-- The visits around one at `depth` that comes next, the nearest first. -/
def enclosing (before : List Visit) (depth : Nat) : List Visit :=
  climb before.reverse depth

def nested (depth : Nat) (after : List Visit) : List Visit :=
  after.takeWhile (depth < ·.depth)

def atDepth (depth : Nat) (visits : List Visit) : List Visit :=
  visits.filter (·.depth = depth)

theorem atDepth_append (depth : Nat) (visits more : List Visit) :
    atDepth depth (visits ++ more) = atDepth depth visits ++ atDepth depth more :=
  List.filter_append ..

/-! ## Around a visit -/

theorem climb_of_deep {earlier : List Visit} (deep : ∀ visit ∈ visits, depth ≤ visit.depth) :
    climb (visits ++ earlier) depth = climb earlier depth := by
  induction visits with
  | nil => rfl
  | cons visit rest ih =>
    obtain ⟨first, rest⟩ := List.forall_mem_cons.mp deep
    rw [List.cons_append, climb, if_neg (Nat.not_lt.mpr first), ih rest]

/-- Visits that are not less deep do not come to stand around it. -/
theorem enclosing_append (deep : ∀ visit ∈ visits, depth ≤ visit.depth) :
    enclosing (before ++ visits) depth = enclosing before depth := by
  rw [enclosing, List.reverse_append, climb_of_deep, enclosing]
  simpa using deep

theorem enclosing_concat_succ :
    enclosing (before ++ [visit]) (visit.depth + 1) = visit :: enclosing before visit.depth := by
  rw [enclosing, List.reverse_append, List.reverse_singleton, List.singleton_append, climb,
    if_pos (Nat.lt_succ_self _), enclosing]

@[simp] theorem enclosing_zero : enclosing before 0 = [] :=
  calc enclosing before 0
    _ = enclosing ([] ++ before) 0 := rfl
    _ = enclosing [] 0 := enclosing_append fun visit _ => Nat.zero_le visit.depth
    _ = [] := rfl

theorem climb_sublist (earlier : List Visit) (depth : Nat) :
    (climb earlier depth).Sublist earlier := by
  fun_induction climb earlier depth with
  | case1 => exact .slnil
  | case2 visit earlier depth above ih => exact ih.cons_cons visit
  | case3 visit earlier depth beside ih => exact ih.cons visit

theorem mem_of_mem_enclosing (member : visit ∈ enclosing before depth) : visit ∈ before :=
  List.mem_reverse.mp ((climb_sublist _ _).subset member)

/-! ## Below a visit -/

def Closes (depth : Nat) (after : List Visit) : Prop :=
  ∀ visit ∈ after.head?, visit.depth ≤ depth

theorem Closes.nested (closes : Closes depth after) : nested depth after = [] := by
  cases after with
  | nil => rfl
  | cons visit rest =>
    have bound : visit.depth ≤ depth := closes visit rfl
    simp [Tree.nested, bound]

theorem nested_append (deeper : ∀ visit ∈ visits, depth < visit.depth)
    (closes : Closes depth after) : nested depth (visits ++ after) = visits := by
  have below : nested depth (visits ++ after) = visits ++ nested depth after :=
    List.takeWhile_append_of_pos fun visit member => decide_eq_true (deeper visit member)
  rw [below, closes.nested, List.append_nil]

/-! ## Every visit of a row -/

/-- What holds of each visit, seen among those before it and those after it. -/
def Throughout (holds : List Visit → Visit → List Visit → Prop)
    (before visits after : List Visit) : Prop :=
  ∀ front visit back, visits = front ++ visit :: back →
    holds (before ++ front) visit (back ++ after)

variable {holds : List Visit → Visit → List Visit → Prop}

theorem Throughout.nil : Throughout holds before [] after := by
  intro front visit back split
  simp at split

theorem Throughout.cons (first : holds before visit (visits ++ after))
    (rest : Throughout holds (before ++ [visit]) visits after) :
    Throughout holds before (visit :: visits) after := by
  intro front other back split
  cases front with
  | nil =>
    cases split
    simpa using first
  | cons _ front =>
    cases split
    simpa using rest front other back rfl

theorem Throughout.tail (all : Throughout holds before (visit :: visits) after) :
    Throughout holds (before ++ [visit]) visits after := by
  rintro front other back rfl
  simpa using all (visit :: front) other back rfl

theorem Throughout.append {next : List Visit}
    (first : Throughout holds before visits (next ++ after))
    (second : Throughout holds (before ++ visits) next after) :
    Throughout holds before (visits ++ next) after := by
  induction visits generalizing before with
  | nil => simpa using second
  | cons visit rest ih =>
    refine .cons ?_ (ih first.tail (by simpa using second))
    simpa using first [] visit rest rfl

/-- What each visit says of those before it holds of any two in their order. -/
theorem Throughout.pairwise {related : Visit → Visit → Prop}
    (all : Throughout holds before visits after)
    (each : ∀ before visit after, holds before visit after →
      ∀ earlier ∈ before, related earlier visit) :
    visits.Pairwise related := by
  induction visits generalizing before with
  | nil => exact .nil
  | cons visit rest ih =>
    refine .cons (fun later member => ?_) (ih all.tail)
    obtain ⟨front, back, rfl⟩ := List.append_of_mem member
    exact each _ later _ (all.tail front later back rfl) visit (by simp)

end BuildGraph.Tree

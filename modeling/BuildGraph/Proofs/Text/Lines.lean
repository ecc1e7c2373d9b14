import BuildGraph.Text.Blank

/-! Texts that are put together line by line.

Every line has a line feed behind it. A line that holds a line feed of its own is read as several,
so the number of lines tells whether there is such a line. Lines that hold none are read back, but
for a carriage return at their end.
-/

set_option autoImplicit false

namespace BuildGraph.Text

variable {line : List Char} {rows other : List (List Char)}

def joinLines (rows : List (List Char)) : List Char := rows.flatMap (· ++ ['\n'])

@[simp] theorem joinLines_nil : joinLines [] = [] := rfl

@[simp] theorem joinLines_cons (line : List Char) (rows : List (List Char)) :
    joinLines (line :: rows) = line ++ '\n' :: joinLines rows := by
  simp [joinLines]

def Unbroken (rows : List (List Char)) : Prop := ∀ line ∈ rows, '\n' ∉ line

theorem count_joinLines (rows : List (List Char)) :
    (joinLines rows).count '\n' = rows.flatten.count '\n' + rows.length := by
  induction rows with
  | nil => rfl
  | cons line rows ih =>
    simp only [joinLines_cons, List.count_append, List.count_cons_self, ih, List.flatten_cons,
      List.length_cons]
    omega

theorem unbroken_iff_count : Unbroken rows ↔ (joinLines rows).count '\n' = rows.length := by
  rw [count_joinLines, Nat.add_eq_right, List.count_eq_zero]
  simp [Unbroken, List.mem_flatten]

theorem Unbroken.of_length (unbroken : Unbroken rows) (same : joinLines rows = joinLines other)
    (length : rows.length = other.length) : Unbroken other := by
  rw [unbroken_iff_count] at unbroken ⊢
  rw [← same, unbroken, length]

/-! ## Reading the lines back -/

/-- A carriage return at the end of a line is part of the end. -/
def dropReturn : List Char → List Char
  | [] => []
  | ['\r'] => []
  | c :: rest => c :: dropReturn rest

theorem lines_append_line (unbroken : '\n' ∉ line) (tail : List Char) :
    lines (line ++ '\n' :: tail) = dropReturn line :: lines tail := by
  fun_induction dropReturn line with
  | case1 => simp [lines]
  | case2 => simp [lines]
  | case3 c rest longer ih =>
    have different : c ≠ '\n' := fun same => unbroken (same ▸ List.mem_cons_self)
    have later : '\n' ∉ rest := fun member => unbroken (List.mem_cons_of_mem _ member)
    rw [List.cons_append, lines.eq_4, ih later]
    · exact different
    · -- What comes next is a line feed only when the line is this one character.
      intro rest' return' same
      cases rest with
      | nil => exact longer return' rfl
      | cons d rest =>
        obtain ⟨rfl, -⟩ := List.cons.inj same
        exact later List.mem_cons_self

theorem lines_joinLines_append (unbroken : Unbroken rows) (tail : List Char) :
    lines (joinLines rows ++ tail) = rows.map dropReturn ++ lines tail := by
  induction rows with
  | nil => rfl
  | cons line rows ih =>
    obtain ⟨here, later⟩ := List.forall_mem_cons.mp unbroken
    rw [joinLines_cons, List.append_assoc, List.cons_append, lines_append_line here, ih later,
      List.map_cons, List.cons_append]

theorem lines_joinLines (unbroken : Unbroken rows) :
    lines (joinLines rows) = rows.map dropReturn := by
  simpa [lines] using lines_joinLines_append unbroken []

theorem mem_of_mem_dropReturn {c : Char} (member : c ∈ dropReturn line) : c ∈ line := by
  fun_induction dropReturn line with
  | case1 => exact member
  | case2 => cases member
  | case3 d rest longer ih =>
    rcases List.mem_cons.mp member with rfl | later
    · exact List.mem_cons_self
    · exact List.mem_cons_of_mem _ (ih later)

theorem dropReturn_cons {c : Char} (other : c ≠ '\r') (rest : List Char) :
    dropReturn (c :: rest) = c :: dropReturn rest :=
  dropReturn.eq_3 c rest fun same => absurd same other

theorem dropReturn_append {c : Char} (other : c ≠ '\r') (front rest : List Char) :
    dropReturn (front ++ c :: rest) = front ++ c :: dropReturn rest := by
  induction front with
  | nil => exact dropReturn_cons other rest
  | cons d front ih =>
    have longer : front ++ c :: rest ≠ [] := by simp
    rw [List.cons_append, dropReturn.eq_3 _ _ fun _ => longer, ih, List.cons_append]

end BuildGraph.Text

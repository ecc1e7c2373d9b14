import BuildGraph.Proofs.Store.Built
import BuildGraph.Proofs.Target.Name
import BuildGraph.View.Dot

/-! The DOT view can be read in one way only.

Each part of a statement tells where it ends: a number at what is no digit, a label at the first
quote that has no backslash of its own, a list at its brace. So no name, whatever it looks like,
makes one text out of two lists of statements, and from the statements the graph can be told.
-/

set_option autoImplicit false

namespace BuildGraph

namespace Dot

variable {rest after : List Char} {first second : TargetId}

/-! ## Numbers and labels -/

/-- Equal texts that both start with characters of a kind have the same ones, if the character
that comes next is of another kind. -/
theorem append_inj_of_all {p : Char → Bool} {left right : List Char} {stop stopToo : Char}
    (all : ∀ c ∈ left, p c = true) (allToo : ∀ c ∈ right, p c = true) (stops : p stop = false)
    (stopsToo : p stopToo = false) (same : left ++ stop :: rest = right ++ stopToo :: after) :
    left = right ∧ stop :: rest = stopToo :: after := by
  have taken := congrArg (List.takeWhile p) same
  rw [List.takeWhile_append_of_pos all, List.takeWhile_append_of_pos allToo] at taken
  simp only [List.takeWhile_cons, stops, stopsToo] at taken
  obtain rfl : left = right := by simpa using taken
  exact ⟨rfl, List.append_cancel_left same⟩

theorem toList_nodeName (id : TargetId) : (nodeName id).toList = 'n' :: Nat.toDigits 10 id := by
  rw [nodeName, String.toList_append]
  simp [toString, Nat.repr]

theorem nodeName_append_inj
    (same : (nodeName first).toList ++ ' ' :: rest = (nodeName second).toList ++ ' ' :: after) :
    first = second ∧ rest = after := by
  have digits : ∀ id : TargetId, ∀ c ∈ Nat.toDigits 10 id, c.isDigit = true :=
    fun id c member => Nat.isDigit_of_mem_toDigits (by decide) (by decide) member
  rw [toList_nodeName, toList_nodeName] at same
  obtain ⟨number, next⟩ := append_inj_of_all (digits first) (digits second) rfl rfl
    (List.cons.inj same).2
  have value := congrArg (Nat.ofDigitChars 10 · 0) number
  simp only [Nat.ofDigitChars_toDigits (b := 10) (by decide) (by decide)] at value
  exact ⟨value, (List.cons.inj next).2⟩

def replaceChar (old : Char) (new text : List Char) : List Char :=
  text.flatMap fun c => if c = old then new else [c]

/-- One pass over a label escapes it as two do. No backslash that the second one brings in is
replaced, as the backslashes come first. -/
theorem escapeChars_eq_replaceChar (label : List Char) :
    escapeChars label =
      replaceChar '"' ['\\', '"'] (replaceChar '\\' ['\\', '\\'] label) := by
  induction label with
  | nil => rfl
  | cons c rest ih =>
    rw [replaceChar] at ih ⊢
    rw [escapeChars, ih, replaceChar, replaceChar, List.flatMap_cons, List.flatMap_append]
    by_cases backslash : c = '\\'
    · subst backslash
      rfl
    · by_cases quote : c = '"'
      · subst quote
        rfl
      · simp [backslash, quote]

/-- A quote that is part of a label stands behind a backslash, and a backslash behind another
one, so the first quote without its own backslash ends the label. -/
theorem escapeChars_append_inj {left right : List Char}
    (same : escapeChars left ++ '"' :: rest = escapeChars right ++ '"' :: after) :
    left = right ∧ rest = after := by
  induction left generalizing right with
  | nil =>
    cases right with
    | nil => simpa [escapeChars] using same
    | cons d right =>
      rw [escapeChars, escapeChars] at same
      -- Here one label has ended, and the other one goes on with a backslash or with no quote.
      split at same
      · simp at same
      · next plain =>
        obtain ⟨quote, -⟩ := List.cons.inj same
        exact absurd (.inr quote.symm) plain
  | cons c left ih =>
    cases right with
    | nil =>
      rw [escapeChars, escapeChars] at same
      split at same
      · simp at same
      · next plain =>
        obtain ⟨quote, -⟩ := List.cons.inj same
        exact absurd (.inr quote) plain
    | cons d right =>
      rw [escapeChars, escapeChars] at same
      split at same <;> split at same
      · simp only [List.cons_append, List.cons.injEq, true_and] at same
        obtain ⟨rfl, next⟩ := ih same.2
        exact ⟨congrArg (· :: left) same.1, next⟩
      · next plain =>
        obtain ⟨backslash, -⟩ := List.cons.inj same
        exact absurd (.inl backslash.symm) plain
      · next plain _ =>
        obtain ⟨backslash, -⟩ := List.cons.inj same
        exact absurd (.inl backslash) plain
      · simp only [List.cons_append, List.cons.injEq] at same
        obtain ⟨rfl, next⟩ := ih same.2
        exact ⟨congrArg (· :: left) same.1, next⟩

theorem shape_append_inj {usage other : Usage}
    (same : (shape usage).toList ++ ']' :: rest = (shape other).toList ++ ']' :: after) :
    usage = other ∧ rest = after := by
  cases usage <;> cases other <;> simp [shape] at same ⊢
  all_goals exact same

/-! ## Lists of numbers -/

def numbers : List TargetId → List Char
  | [] => []
  | id :: rest => (nodeName id).toList ++ ' ' :: numbers rest

theorem numbers_append_inj {left right : List TargetId}
    (same : numbers left ++ '\x7d' :: rest = numbers right ++ '\x7d' :: after) :
    left = right ∧ rest = after := by
  induction left generalizing right with
  | nil =>
    cases right with
    | nil => simpa [numbers] using same
    | cons id right => simp [numbers, toList_nodeName] at same
  | cons id left ih =>
    cases right with
    | nil => simp [numbers, toList_nodeName] at same
    | cons other right =>
      simp only [numbers, List.append_assoc, List.cons_append] at same
      obtain ⟨rfl, others⟩ := nodeName_append_inj same
      obtain ⟨rfl, next⟩ := ih others
      exact ⟨rfl, next⟩

theorem intercalate_nodeName_append (id : TargetId) (dependencies : List TargetId) :
    [' '].intercalate ((id :: dependencies).map (nodeName · |>.toList)) ++ ' ' :: rest =
      numbers (id :: dependencies) ++ rest := by
  induction dependencies generalizing id with
  | nil => simp [numbers, List.intercalate]
  | cons next dependencies ih =>
    simp only [List.intercalate, List.map_cons, List.intersperse, List.flatten_cons] at ih ⊢
    simp [ih next, numbers]

/-- Between its braces, an empty list has two spaces and any other list a number. -/
theorem toList_intercalate_append (dependencies : List TargetId) :
    (" ".intercalate (dependencies.map nodeName)).toList ++ ' ' :: rest =
      if dependencies = [] then ' ' :: rest else numbers dependencies ++ rest := by
  rw [String.toList_intercalate, List.map_map]
  cases dependencies with
  | nil => rfl
  | cons id dependencies => exact intercalate_nodeName_append id dependencies

theorem intercalate_append_inj {left right : List TargetId}
    (same : (" ".intercalate (left.map nodeName)).toList ++ ' ' :: '\x7d' :: rest =
      (" ".intercalate (right.map nodeName)).toList ++ ' ' :: '\x7d' :: after) :
    left = right ∧ rest = after := by
  rw [toList_intercalate_append, toList_intercalate_append] at same
  split at same <;> split at same
  · next none noneToo => exact ⟨none.trans noneToo.symm, by simpa using same⟩
  · next some =>
    obtain ⟨id, others, rfl⟩ := List.exists_cons_of_ne_nil some
    simp [numbers, toList_nodeName] at same
  · next some none =>
    obtain ⟨id, others, rfl⟩ := List.exists_cons_of_ne_nil some
    simp [numbers, toList_nodeName] at same
  · exact numbers_append_inj same

/-! ## Statements -/

def Statement.node? : Statement → Option (TargetId × String × Usage)
  | node id label usage => some (id, label, usage)
  | edges _ _ => none

theorem toList_node_append (id : TargetId) (label : String) (usage : Usage) :
    (Statement.node id label usage).text.toList ++ rest =
      "  ".toList ++ ((nodeName id).toList ++ ' ' :: ("[label=\"".toList ++
        (escapeChars label.toList ++ '"' :: (", shape=".toList ++
          ((shape usage).toList ++ ']' :: (";\n".toList ++ rest)))))) := by
  simp [Statement.text, escape]

theorem toList_edges_append (id : TargetId) (dependencies : List TargetId) :
    (Statement.edges id dependencies).text.toList ++ rest =
      "  ".toList ++ ((nodeName id).toList ++ ' ' :: ("-> \x7b ".toList ++
        ((" ".intercalate (dependencies.map nodeName)).toList ++ ' ' :: '\x7d' ::
          (";\n".toList ++ rest)))) := by
  simp [Statement.text]

theorem text_append_inj {left right : Statement}
    (same : left.text.toList ++ rest = right.text.toList ++ after) :
    left = right ∧ rest = after := by
  cases left with
  | node id label usage =>
    cases right with
    | node other name role =>
      rw [toList_node_append, toList_node_append] at same
      obtain ⟨rfl, labelled⟩ := nodeName_append_inj (List.append_cancel_left same)
      obtain ⟨labels, shaped⟩ := escapeChars_append_inj (List.append_cancel_left labelled)
      obtain ⟨rfl, ended⟩ := shape_append_inj (List.append_cancel_left shaped)
      rw [String.toList_inj.mp labels]
      exact ⟨rfl, List.append_cancel_left ended⟩
    | edges other dependencies =>
      rw [toList_node_append, toList_edges_append] at same
      obtain ⟨-, next⟩ := nodeName_append_inj (List.append_cancel_left same)
      simp at next
  | edges id dependencies =>
    cases right with
    | node other label usage =>
      rw [toList_node_append, toList_edges_append] at same
      obtain ⟨-, next⟩ := nodeName_append_inj (List.append_cancel_left same)
      simp at next
    | edges other others =>
      rw [toList_edges_append, toList_edges_append] at same
      obtain ⟨rfl, listed⟩ := nodeName_append_inj (List.append_cancel_left same)
      obtain ⟨rfl, ended⟩ := intercalate_append_inj (List.append_cancel_left listed)
      exact ⟨rfl, List.append_cancel_left ended⟩

/-- A statement starts with a space, and the last line does not. -/
theorem join_append_inj {left right : List Statement}
    (same : left.flatMap (·.text.toList) ++ '\x7d' :: rest =
      right.flatMap (·.text.toList) ++ '\x7d' :: after) : left = right := by
  have indented : ∀ statement : Statement, ∃ chars, statement.text.toList = ' ' :: chars := by
    intro statement
    cases statement <;> simp [Statement.text]
  induction left generalizing right with
  | nil =>
    cases right with
    | nil => rfl
    | cons statement right =>
      obtain ⟨chars, text⟩ := indented statement
      simp [text] at same
  | cons statement left ih =>
    cases right with
    | nil =>
      obtain ⟨chars, text⟩ := indented statement
      simp [text] at same
    | cons other right =>
      simp only [List.flatMap_cons, List.append_assoc] at same
      obtain ⟨rfl, others⟩ := text_append_inj same
      rw [ih others]

theorem toList_render (statements : List Statement) :
    (render statements).toList = "digraph targets \x7b\n".toList ++
      (statements.flatMap (·.text.toList) ++ "\x7d\n".toList) := by
  unfold render
  rw [String.toList_append, String.toList_append, String.toList_join, List.flatMap_map,
    List.append_assoc]

theorem render_injective : Function.Injective render := by
  intro left right same
  have chars := congrArg String.toList same
  have footer : "\x7d\n".toList = ['\x7d', '\n'] := by simp
  rw [toList_render, toList_render, List.append_right_inj, footer] at chars
  exact join_append_inj chars

end Dot

def Target.drawn (target : Target) : String × Usage × List TargetId :=
  (target.name, target.usage, target.dependencies)

namespace Store

variable {store other : Store} {owner : TargetId} {dependencies : List TargetId}

theorem filterMap_node?_dotStatements (store : Store) :
    store.dotStatements.filterMap Dot.Statement.node? =
      store.targets.map fun target => (target.id, target.shownName, target.usage) := by
  simp [dotStatements, dotNodes, dotEdges, List.filterMap_map, Function.comp_def,
    Dot.Statement.node?]

theorem edges_mem_dotStatements (built : store.Built) :
    .edges owner dependencies ∈ store.dotStatements ↔
      dependencies ≠ [] ∧ store.edges owner = dependencies := by
  have drawn : .edges owner dependencies ∈ store.dotStatements ↔ ∃ target ∈ store.targets,
      target.dependencies ≠ [] ∧ target.id = owner ∧ target.dependencies = dependencies := by
    simp [dotStatements, dotNodes, dotEdges, and_assoc]
  rw [drawn]
  constructor
  · rintro ⟨target, member, some, rfl, rfl⟩
    obtain ⟨id, held⟩ := List.getElem?_of_mem member
    obtain rfl := built.id_eq held
    exact ⟨some, edges_of_get? held⟩
  · rintro ⟨some, rfl⟩
    obtain ⟨dependency, listed⟩ := List.exists_mem_of_ne_nil _ some
    obtain ⟨target, held, -⟩ := dependsOn_iff.mp listed
    rw [edges_of_get? held] at some ⊢
    exact ⟨target, List.mem_of_getElem? held, some, built.id_eq held, rfl⟩

/-- Every target has a node statement, and only the targets with dependencies have another one. -/
theorem drawn_of_dotStatements (built : store.Built) (builtToo : other.Built)
    (same : store.dotStatements = other.dotStatements) (id : TargetId) :
    (store.get? id).map Target.drawn = (other.get? id).map Target.drawn := by
  have edges : store.edges id = other.edges id := by
    -- A list without a statement is told apart by being empty.
    have drawn : ∀ dependencies, dependencies ≠ [] →
        (store.edges id = dependencies ↔ other.edges id = dependencies) := by
      intro dependencies some
      have member : .edges id dependencies ∈ store.dotStatements ↔ _ :=
        edges_mem_dotStatements built
      rw [same, edges_mem_dotStatements builtToo] at member
      simpa [some] using member.symm
    by_cases none : store.edges id = []
    · by_cases noneToo : other.edges id = []
      · rw [none, noneToo]
      · exact (drawn _ noneToo).mpr rfl
    · exact ((drawn _ none).mp rfl).symm
  have nodes := filterMap_node?_dotStatements store
  rw [same, filterMap_node?_dotStatements other] at nodes
  have node := congrArg (·[id]?) nodes
  simp only [List.getElem?_map] at node
  cases held : store.get? id with
  | none =>
    rw [get?] at held
    rw [held, Option.map_none, Option.map_eq_none_iff] at node
    rw [get?, node]
  | some target =>
    cases heldToo : other.get? id with
    | none =>
      rw [get?] at held heldToo
      simp [held, heldToo] at node
    | some copy =>
      rw [edges_of_get? held, edges_of_get? heldToo] at edges
      rw [get?] at held heldToo
      simp only [held, heldToo, Option.map_some, Option.some.injEq, Prod.mk.injEq] at node
      obtain ⟨-, shown, usage⟩ := node
      rw [Target.shownName, Target.shownName, usage] at shown
      have name := TargetName.spell_injective _ shown
      rw [Option.map_some, Option.map_some, Target.drawn, Target.drawn, name, usage, edges]

theorem count_node_dotStatements (built : store.Built) {id : TargetId} (held : id < store.size) :
    ((store.dotStatements.filterMap Dot.Statement.node?).map Prod.fst).count id = 1 := by
  have ids : (store.targets.map fun target => (target.id, target.shownName, target.usage)).map
      Prod.fst = store.ids := by
    rw [List.map_map]
    exact built.numbered
  rw [filterMap_node?_dotStatements, ids]
  exact List.nodup_range.count.trans (if_pos (List.mem_range.mpr held))

/-- Whatever calls made two stores, the same drawing means that they have as many targets, and
number by number the same names, usages and dependencies. Whatever statements a drawing is made
of, each number in an edge statement has one node statement. -/
theorem built_dot_determines_graph (built : store.Built) (builtToo : other.Built) :
    (store.dot = other.dot → store.size = other.size ∧
      ∀ id, (store.get? id).map Target.drawn = (other.get? id).map Target.drawn) ∧
      ∀ statements, Dot.render statements = store.dot →
        ∀ owner dependencies, .edges owner dependencies ∈ statements →
          ∀ id, id = owner ∨ id ∈ dependencies →
            ((statements.filterMap Dot.Statement.node?).map Prod.fst).count id = 1 := by
  constructor
  · intro same
    have statements := Dot.render_injective same
    have drawn := drawn_of_dotStatements built builtToo statements
    refine ⟨?_, drawn⟩
    have nodes := congrArg (fun all => (all.filterMap Dot.Statement.node?).length) statements
    simpa [filterMap_node?_dotStatements, size] using nodes
  · intro statements same owner dependencies member id used
    obtain rfl := Dot.render_injective same
    obtain ⟨some, rfl⟩ := (edges_mem_dotStatements built).mp member
    refine count_node_dotStatements built ?_
    obtain rfl | listed := used
    · obtain ⟨dependency, listed⟩ := List.exists_mem_of_ne_nil _ some
      exact lt_of_dependsOn listed
    · exact built.coherent.closed listed

/-- The first name closes its own label and goes on like a drawing. The second store spells out
the usages that the first one infers, and declares a target. -/
theorem built_dot_determines_graph_forged :
    let forged := "a\"];\n  n1 -> \x7b n0 \x7d;\n  n0 [label=\"\\"
    let calls := [Call.add forged, .add "b", .link 0 1, .link 0 1]
    let spelled := [Call.add (forged ++ "*"), .add "libb", .link 0 1, .link 0 1, .declare 0]
    let store : Store := ⟨[⟨0, forged, .executable, none, [1, 1], false⟩,
      ⟨1, "b", .library, none, [], false⟩]⟩
    let other : Store := ⟨[⟨0, forged, .executable, some .executable, [1, 1], true⟩,
      ⟨1, "b", .library, some .library, [], false⟩]⟩
    calls.foldl after .empty = store ∧ spelled.foldl after .empty = other ∧
      store.dot = other.dot ∧
      (∀ id, (store.get? id).map Target.drawn = (other.get? id).map Target.drawn) ∧
      ((store.dotStatements.filterMap Dot.Statement.node?).map Prod.fst).count 1 = 1 := by
  intro forged calls spelled store other
  have made : calls.foldl after .empty = store := by decide +kernel
  have madeToo : spelled.foldl after .empty = other := by decide +kernel
  have built : store.Built := made ▸ Built.calls .empty calls
  have builtToo : other.Built := madeToo ▸ Built.calls .empty spelled
  have same : store.dot = other.dot := congrArg Dot.render rfl
  obtain ⟨drawn, counted⟩ := built_dot_determines_graph built builtToo
  refine ⟨made, madeToo, same, (drawn same).2, ?_⟩
  have listed : .edges 0 [1, 1] ∈ store.dotStatements :=
    (edges_mem_dotStatements built).mpr ⟨List.cons_ne_nil 1 [1], rfl⟩
  exact counted store.dotStatements rfl 0 [1, 1] listed 1 (.inr List.mem_cons_self)

end Store

end BuildGraph

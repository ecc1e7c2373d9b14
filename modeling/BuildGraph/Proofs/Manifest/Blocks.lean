import BuildGraph.Manifest.ParseError
import BuildGraph.Proofs.Text.Lines

/-! The target that is named for a place.

A file of blocks is a preamble and, for each top-level target, a line with its key and the lines
below it. A place is blamed on the block that its line belongs to, and nothing behind the line
matters for that.
-/

set_option autoImplicit false

namespace BuildGraph.Manifest

/-! ## Files of blocks -/

def innerStarts : List Char := [' ', '\t', '#', '-']

def startsInner (line : List Char) : Bool := line.head?.any innerStarts.contains

/-- A line that starts no block: it is indented, a comment or a list item, or it has no colon. -/
def IsInner (line : List Char) : Prop := '\n' ∉ line ∧ (startsInner line ∨ ':' ∉ line)

instance : DecidablePred IsInner := fun line =>
  inferInstanceAs (Decidable ('\n' ∉ line ∧ (startsInner line ∨ ':' ∉ line)))

/-- A top-level target: the line `key:rest`, and the lines up to the next one. -/
structure Block where
  key : List Char
  rest : List Char
  body : List (List Char)
  key_ne_nil : key ≠ []
  key_trimmed : Text.trim key = key
  key_plain : ':' ∉ key ∧ '\n' ∉ key
  key_outer : startsInner key = false
  rest_unbroken : '\n' ∉ rest
  body_inner : ∀ line ∈ body, IsInner line

namespace Block

def keyLine (block : Block) : List Char := block.key ++ ':' :: block.rest

def lines (block : Block) : List (List Char) := block.keyLine :: block.body

end Block

structure BlockFile where
  preamble : List (List Char)
  blocks : List Block
  preamble_inner : ∀ line ∈ preamble, IsInner line

namespace BlockFile

def lines (file : BlockFile) : List (List Char) :=
  file.preamble ++ file.blocks.flatMap Block.lines

def text (file : BlockFile) : List Char := Text.joinLines file.lines

def owners (file : BlockFile) : List (Option (List Char)) :=
  file.preamble.map (fun _ => none) ++
    file.blocks.flatMap fun block => block.lines.map fun _ => some block.key

end BlockFile

/-! ## Keys of lines -/

def lineKey? (line : List Char) : Option (List Char) := blockKey? (Text.dropReturn line)

def lastKey? (rows : List (List Char)) : Option (List Char) := rows.reverse.findSome? lineKey?

section

variable {line key : List Char} {rows : List (List Char)}

theorem isInnerLine_eq (line : List Char) : isInnerLine line = startsInner line := by
  cases line with
  | nil => rfl
  | cons c rest =>
    simp only [isInnerLine, startsInner, innerStarts, List.head?_cons, Option.any_some,
      List.contains_cons, List.contains_nil, Bool.or_false, Bool.or_assoc]

theorem startsInner_dropReturn (line : List Char) :
    startsInner (Text.dropReturn line) = startsInner line := by
  fun_cases Text.dropReturn line with
  | case1 => rfl
  | case2 => rfl
  | case3 c rest longer => rfl

theorem lineKey?_of_inner (inner : IsInner line) : lineKey? line = none := by
  obtain ⟨-, starts | plain⟩ := inner
  · rw [lineKey?, blockKey?, isInnerLine_eq, startsInner_dropReturn, if_pos starts]
  · have plain : ':' ∉ Text.dropReturn line := fun member =>
      plain (Text.mem_of_mem_dropReturn member)
    simp [lineKey?, blockKey?, Text.before?, plain]

theorem Block.lineKey?_keyLine (block : Block) : lineKey? block.keyLine = some block.key := by
  have kept : Text.dropReturn block.keyLine = block.key ++ ':' :: Text.dropReturn block.rest :=
    Text.dropReturn_append (by decide) block.key block.rest
  -- The first character decides, and the key has one, so it is not that of the rest.
  have outer : isInnerLine (Text.dropReturn block.keyLine) = false := by
    obtain ⟨c, rest, same⟩ := List.exists_cons_of_ne_nil block.key_ne_nil
    have start := block.key_outer
    rw [same] at start
    rw [isInnerLine_eq, startsInner_dropReturn, keyLine, same]
    exact start
  have before : ∀ c ∈ block.key, decide (c ≠ ':') = true := fun c member =>
    decide_eq_true fun same => block.key_plain.1 (same ▸ member)
  have taken : (block.key ++ ':' :: Text.dropReturn block.rest).takeWhile (· ≠ ':') =
      block.key := by
    rw [List.takeWhile_append_of_pos before]
    simp
  rw [lineKey?, blockKey?, outer, if_neg Bool.false_ne_true, kept, Text.before?,
    if_pos (by simp), taken, Option.map_some, block.key_trimmed]

theorem lastKey?_append (front back : List (List Char)) :
    lastKey? (front ++ back) = (lastKey? back).or (lastKey? front) := by
  rw [lastKey?, List.reverse_append, List.findSome?_append]
  rfl

theorem lastKey?_of_inner (inner : ∀ line ∈ rows, IsInner line) : lastKey? rows = none :=
  List.findSome?_eq_none_iff.mpr fun line member =>
    lineKey?_of_inner (inner line (List.mem_reverse.mp member))

/-- A block is started by its first line, and none of the others starts another one. -/
theorem Block.lastKey?_take (block : Block) (front : List (List Char)) (n : Nat) :
    lastKey? (front ++ block.lines.take (n + 1)) = some block.key := by
  have below : lastKey? (block.body.take n) = none :=
    lastKey?_of_inner fun line member => block.body_inner line (List.mem_of_mem_take member)
  have first : lastKey? [block.keyLine] = some block.key := by
    simp [lastKey?, block.lineKey?_keyLine]
  have split : block.lines.take (n + 1) = [block.keyLine] ++ block.body.take n := rfl
  rw [lastKey?_append, split, lastKey?_append, below, first, Option.none_or, Option.some_or]

theorem lastKey?_take_blocks (front : List (List Char)) (blocks : List Block) {n : Nat}
    {owner : Option (List Char)}
    (owned : (blocks.flatMap fun block => block.lines.map fun _ => some block.key)[n]? =
      some owner) :
    lastKey? (front ++ (blocks.flatMap Block.lines).take (n + 1)) = owner := by
  induction blocks generalizing front n with
  | nil => simp at owned
  | cons block blocks ih =>
    -- The blocks that are passed are moved to what stands in front.
    rw [List.flatMap_cons] at owned ⊢
    rcases Nat.lt_or_ge n block.lines.length with inside | beyond
    · rw [List.getElem?_append_left (by simpa using inside), List.getElem?_map,
        List.getElem?_eq_getElem inside] at owned
      cases owned
      rw [List.take_append_of_le_length inside]
      exact block.lastKey?_take front n
    · rw [List.getElem?_append_right (by simpa using beyond), List.length_map] at owned
      rw [List.take_append, List.take_of_length_le (Nat.le_succ_of_le beyond), ← List.append_assoc,
        Nat.sub_add_comm beyond]
      exact ih _ owned

namespace BlockFile

theorem length_owners (file : BlockFile) : file.owners.length = file.lines.length := by
  simp [owners, lines, List.length_flatMap]

theorem lastKey?_take (file : BlockFile) {n : Nat} {owner : Option (List Char)}
    (owned : file.owners[n]? = some owner) : lastKey? (file.lines.take (n + 1)) = owner := by
  rw [owners] at owned
  rcases Nat.lt_or_ge n file.preamble.length with inside | beyond
  · rw [List.getElem?_append_left (by simpa using inside), List.getElem?_map,
      List.getElem?_eq_getElem inside] at owned
    cases owned
    rw [lines, List.take_append_of_le_length inside]
    exact lastKey?_of_inner fun line member =>
      file.preamble_inner line (List.mem_of_mem_take member)
  · rw [List.getElem?_append_right (by simpa using beyond), List.length_map] at owned
    rw [lines, List.take_append, List.take_of_length_le (Nat.le_succ_of_le beyond),
      Nat.sub_add_comm beyond]
    exact lastKey?_take_blocks file.preamble file.blocks owned

theorem lastKey?_lines (file : BlockFile) :
    lastKey? file.lines = file.blocks.getLast?.map Block.key := by
  rw [lines]
  rcases List.eq_nil_or_concat file.blocks with none | ⟨front, block, split⟩
  · simp [none, lastKey?_of_inner file.preamble_inner]
  · have last := block.lastKey?_take (file.preamble ++ front.flatMap Block.lines)
      block.body.length
    have whole : block.lines.take (block.body.length + 1) = block.lines :=
      List.take_length (l := block.lines)
    rw [whole, List.append_assoc] at last
    simpa [split, List.flatMap_append] using last

theorem mem_lines (file : BlockFile) : line ∈ file.lines ↔
    line ∈ file.preamble ∨ ∃ block ∈ file.blocks, line = block.keyLine ∨ line ∈ block.body := by
  simp [lines, Block.lines]

theorem unbroken_lines (file : BlockFile) : Text.Unbroken file.lines := by
  intro line member
  rcases file.mem_lines.mp member with inside | ⟨block, -, rfl | inside⟩
  · exact (file.preamble_inner line inside).1
  · simpa [Block.keyLine] using ⟨block.key_plain.2, block.rest_unbroken⟩
  · exact (block.body_inner line inside).1

theorem ne_nil_of_lineKey? (file : BlockFile) (member : line ∈ file.lines)
    (starts : lineKey? line = some key) : key ≠ [] := by
  rcases file.mem_lines.mp member with inside | ⟨block, -, rfl | inside⟩
  · cases (lineKey?_of_inner (file.preamble_inner line inside)).symm.trans starts
  · cases block.lineKey?_keyLine.symm.trans starts
    exact block.key_ne_nil
  · cases (lineKey?_of_inner (block.body_inner line inside)).symm.trans starts

/-- Only the lines up to the place are looked at, whatever the source is. -/
theorem blockKeyAt?_of_take (file : BlockFile) {source : List Char} {n : Nat}
    (read : (Text.lines source).take n = (file.lines.take n).map Text.dropReturn) :
    blockKeyAt? source n = lastKey? (file.lines.take n) := by
  have found : ((Text.lines source).take n).reverse.findSome? blockKey? =
      lastKey? (file.lines.take n) := by
    rw [read, ← List.map_reverse, List.findSome?_map]
    rfl
  rw [blockKeyAt?, found]
  cases last : lastKey? (file.lines.take n) with
  | none => rfl
  | some key =>
    obtain ⟨line, member, starts⟩ := List.exists_of_findSome?_eq_some last
    have inside : line ∈ file.lines := List.mem_of_mem_take (List.mem_reverse.mp member)
    exact Option.filter_eq_some_iff.mpr ⟨rfl, by simpa using file.ne_nil_of_lineKey? inside starts⟩

theorem blockKeyAt?_text_eq (file : BlockFile) (n : Nat) :
    blockKeyAt? file.text n = lastKey? (file.lines.take n) :=
  file.blockKeyAt?_of_take (by rw [text, Text.lines_joinLines file.unbroken_lines, List.map_take])

theorem blockKeyAt?_take_append (file : BlockFile) {n : Nat} (inside : n ≤ file.lines.length)
    (tail : List Char) : blockKeyAt? (Text.joinLines (file.lines.take n) ++ tail) n =
      lastKey? (file.lines.take n) := by
  have unbroken : Text.Unbroken (file.lines.take n) := fun line member =>
    file.unbroken_lines line (List.mem_of_mem_take member)
  have length : ((file.lines.take n).map Text.dropReturn).length = n := by
    rw [List.length_map, List.length_take, Nat.min_eq_left inside]
  exact file.blockKeyAt?_of_take
    (by rw [Text.lines_joinLines_append unbroken, List.take_left' length])

/-- A place in a file of blocks is blamed on the block that its line belongs to. That is the last
block for a place behind the last line, and no block for one in the preamble or in a file without
blocks. What follows the line makes no difference, whether it is of that form or not. -/
theorem blockKeyAt?_text (file : BlockFile) :
    (∀ n < file.lines.length, file.owners[n]? = some (blockKeyAt? file.text (n + 1))) ∧
    (∀ n, file.lines.length ≤ n →
      blockKeyAt? file.text n = file.blocks.getLast?.map Block.key) ∧
    (∀ n ≤ file.lines.length, ∀ tail,
      blockKeyAt? (Text.joinLines (file.lines.take n) ++ tail) n = blockKeyAt? file.text n) := by
  refine ⟨fun n inside => ?_, fun n behind => ?_, fun n inside tail => ?_⟩
  · have owned := List.getElem?_eq_getElem (file.length_owners ▸ inside)
    rw [blockKeyAt?_text_eq, file.lastKey?_take owned, owned]
  · rw [blockKeyAt?_text_eq, List.take_of_length_le behind, file.lastKey?_lines]
  · rw [blockKeyAt?_text_eq, file.blockKeyAt?_take_append inside]

/-- A comment in the preamble and one in the first block have a colon, as has a list item there and
a value on the first line of the second block. Some lines end with a carriage return. The key that
is put behind the fifth line starts no block before it. -/
theorem blockKeyAt?_text_returns :
    let app : Block := ⟨"app*".toList, "\r".toList,
      ["  libcore:\r".toList, "# x: y".toList, "- a: b".toList, "tail".toList],
      by decide, by decide, by decide, by decide, by decide, by decide⟩
    let tool : Block := ⟨"tool one".toList, " [a:b, c]".toList, ["\r".toList, "\ty:".toList],
      by decide, by decide, by decide, by decide, by decide, by decide⟩
    let file : BlockFile := ⟨["# app: z".toList, "".toList], [app, tool], by decide⟩
    let first := "# app: z\n\napp*:\r\n  libcore:\r\n# x: y\n".toList
    file.text = first ++ "- a: b\ntail\ntool one: [a:b, c]\n\r\n\ty:\n".toList ∧
      blockKeyAt? file.text 2 = none ∧
      blockKeyAt? file.text 7 = some "app*".toList ∧
      blockKeyAt? file.text 8 = some "tool one".toList ∧
      blockKeyAt? file.text 40 = some "tool one".toList ∧
      blockKeyAt? (first ++ "other: z".toList) 5 = blockKeyAt? file.text 5 := by
  intro app tool file first
  obtain ⟨inside, behind, alike⟩ := file.blockKeyAt?_text
  exact ⟨by decide, Option.some.inj (inside 1 (by decide)).symm,
    Option.some.inj (inside 6 (by decide)).symm, Option.some.inj (inside 7 (by decide)).symm,
    behind 40 (by decide), alike 5 (by decide) "other: z".toList⟩

end BlockFile

end

end BuildGraph.Manifest

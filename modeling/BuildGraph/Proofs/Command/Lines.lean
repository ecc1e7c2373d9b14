import BuildGraph.Proofs.Command.Listing
import BuildGraph.Proofs.Text.Lines
import BuildGraph.Proofs.Verdict.Project

/-! The lines of a listing.

A record is meant to be a line. But names are printed as they are, so it is one just when the name
in it holds no line feed. Otherwise the rest of the name stands at the start of a line, where it
may look like a record of its own, such as the verdict on the whole.
-/

set_option autoImplicit false

namespace BuildGraph

open Listing (Record)

namespace Listing.Record

variable {record : Record} {id : TargetId} {name front : String} {usage : Usage}
  {verdict : Verdict}

def line (record : Record) : List Char := record.text.toList.dropLast

theorem text_target : (target id name usage verdict).text =
    TargetId.text id ++ " " ++ name ++ " (" ++ usage.text ++ "): " ++ verdict.text ++ "\n" := rfl

theorem text_invalidProject : (invalidProject id name verdict).text =
    "project: invalid (" ++ TargetId.text id ++ " " ++ name ++ ": " ++ verdict.text ++ ")"
      ++ "\n" := by
  -- The record closes its bracket and its line in one piece.
  have close : ")\n" = ")" ++ "\n" := rfl
  exact (congrArg (_ ++ ·) close).trans String.append_assoc.symm

theorem exists_text_eq (record : Record) : ∃ front, record.text = front ++ "\n" := by
  cases record with
  | target => exact ⟨_, text_target⟩
  | validProject => exact ⟨"project: valid", rfl⟩
  | invalidProject => exact ⟨_, text_invalidProject⟩

theorem line_of_text (ends : record.text = front ++ "\n") : record.line = front.toList := by
  rw [line, ends, String.toList_append]
  exact List.dropLast_concat

theorem toList_text (record : Record) : record.text.toList = record.line ++ ['\n'] := by
  obtain ⟨front, ends⟩ := record.exists_text_eq
  rw [line_of_text ends, ends, String.toList_append]
  rfl

theorem newline_not_mem_id (id : TargetId) : '\n' ∉ (TargetId.text id).toList := by
  have digits : '\n' ∉ Nat.toDigits 10 id := fun member =>
    absurd (Nat.isDigit_of_mem_toDigits (by decide) (by decide) member) (by decide)
  simpa [TargetId.text, toString, Nat.repr] using digits

theorem newline_not_mem_usage (usage : Usage) : '\n' ∉ usage.text.toList := by
  cases usage <;> decide

theorem newline_not_mem_verdict (verdict : Verdict) : '\n' ∉ verdict.text.toList := by
  cases verdict <;> decide

theorem newline_mem_line_target :
    '\n' ∈ (target id name usage verdict).line ↔ '\n' ∈ name.toList := by
  rw [line_of_text text_target]
  simp [newline_not_mem_id, newline_not_mem_usage, newline_not_mem_verdict]

theorem newline_mem_line_invalidProject :
    '\n' ∈ (invalidProject id name verdict).line ↔ '\n' ∈ name.toList := by
  rw [line_of_text text_invalidProject]
  simp [newline_not_mem_id, newline_not_mem_verdict]

theorem number_prefix_line_target (id : TargetId) (name : String) (usage : Usage)
    (verdict : Verdict) :
    (TargetId.text id ++ " ").toList <+: (target id name usage verdict).line := by
  rw [line_of_text text_target]
  simp only [String.toList_append, List.append_assoc, List.prefix_append_right_inj,
    List.prefix_append]

theorem project_not_prefix_line_target :
    ¬ "project: ".toList <+: (target id name usage verdict).line := by
  rw [line_of_text text_target]
  simp [TargetId.text]

theorem project_prefix_line_invalidProject :
    "project: ".toList <+: (invalidProject id name verdict).line := by
  rw [line_of_text text_invalidProject]
  simp

theorem toList_join_text (records : List Record) :
    (String.join (records.map Record.text)).toList = Text.joinLines (records.map line) := by
  simp only [String.toList_join, Text.joinLines, List.flatMap_map, toList_text]

end Listing.Record

/-! ## The lines of one store -/

namespace Store

variable {store : Store}

/-- One line for each target, with its number in front, and one more. Only that one starts like a
verdict on the whole. -/
structure Lined (store : Store) (lines : List (List Char)) : Prop where
  length : lines.length = store.size + 1
  numbered : ∀ id < store.size, ∀ line, lines[id]? = some line →
    (TargetId.text id ++ " ").toList <+: line
  concluded : ∀ place line, lines[place]? = some line →
    ("project: ".toList <+: line ↔ place = store.size)

def NamesUnbroken (store : Store) : Prop := ∀ target ∈ store.targets, '\n' ∉ target.name.toList

theorem length_records (store : Store) : store.records.length = store.size + 1 := by
  simp [records, size]

theorem Concludes.newline_not_mem {record : Record} (concludes : store.Concludes record)
    (unbroken : store.NamesUnbroken) : '\n' ∉ record.line := by
  cases record with
  | target => exact concludes.elim
  | validProject => decide
  | invalidProject id name verdict =>
    obtain ⟨-, named⟩ := concludes
    obtain ⟨target, held, rfl⟩ := Option.map_eq_some_iff.mp named
    exact mt Record.newline_mem_line_invalidProject.mp
      (unbroken target (List.mem_of_getElem? held))

theorem Concludes.project_prefix {record : Record} (concludes : store.Concludes record) :
    "project: ".toList <+: record.line := by
  cases record with
  | target => exact concludes.elim
  | validProject => exact ⟨"valid".toList, rfl⟩
  | invalidProject => exact Record.project_prefix_line_invalidProject

theorem unbroken_records_iff :
    Text.Unbroken (store.records.map Record.line) ↔ store.NamesUnbroken := by
  have target : ∀ target, '\n' ∉ (store.targetRecord target).line ↔ '\n' ∉ target.name.toList :=
    fun _ => not_congr Record.newline_mem_line_target
  rw [Text.Unbroken, List.forall_mem_map, records, List.forall_mem_append, List.forall_mem_map,
    List.forall_mem_singleton, NamesUnbroken]
  simp only [target]
  exact and_iff_left_of_imp store.concludes_lastRecord.newline_not_mem

theorem getElem?_records_of_lt {id : TargetId} (held : id < store.size) :
    ∃ target, store.get? id = some target ∧
      store.records[id]? = some (store.targetRecord target) := by
  obtain ⟨target, found⟩ := exists_get?_of_lt held
  refine ⟨target, found, ?_⟩
  rw [records, List.getElem?_append_left (by simpa [size] using held), List.getElem?_map]
  exact congrArg (Option.map store.targetRecord) found

theorem getElem?_records_size (store : Store) :
    store.records[store.size]? = some store.lastRecord := by
  simp [records, size]

theorem Built.lined_records (built : store.Built) :
    store.Lined (store.records.map Record.line) where
  length := by rw [List.length_map, length_records]
  numbered id inside line found := by
    obtain ⟨target, held, record⟩ := getElem?_records_of_lt inside
    rw [List.getElem?_map, record, Option.map_some, Option.some.injEq] at found
    rw [← found, targetRecord, ← built.id_eq held]
    exact Record.number_prefix_line_target _ _ _ _
  concluded place line found := by
    rw [List.getElem?_map] at found
    -- The lines of the targets start with a number, the last one does not, and there are no more.
    rcases Nat.lt_trichotomy place store.size with inside | rfl | beyond
    · obtain ⟨target, -, record⟩ := getElem?_records_of_lt inside
      rw [record, Option.map_some, Option.some.injEq] at found
      rw [← found, targetRecord]
      exact iff_of_false Record.project_not_prefix_line_target inside.ne
    · rw [getElem?_records_size, Option.map_some, Option.some.injEq] at found
      rw [← found]
      exact iff_of_true store.concludes_lastRecord.project_prefix rfl
    · rw [List.getElem?_eq_none (length_records store ▸ beyond)] at found
      cases found

end Store

/-! ## The lines of a listing -/

namespace Listing

variable {events : List Event} {projects : List Project} {stores : List Store}

def LineByLine (projects : List Project) (text : String) : Prop :=
  ∃ blocks : List (List (List Char)),
    List.Forall₂ (fun project => project.targets.Lined) projects blocks ∧
    Text.Unbroken blocks.flatten ∧ text.toList = Text.joinLines blocks.flatten

theorem exists_stores_of_compile (compiled : compile events = .ok projects) :
    ∃ stores : List Store, projects = stores.map .ofStore ∧ ∀ store ∈ stores, store.Built := by
  have made : ∀ project ∈ projects,
      Project.ofStore project.targets = project ∧ project.targets.Built := by
    intro project member
    obtain ⟨draft, moves, rfl⟩ := exists_moves_of_compile compiled member
    exact ⟨rfl, moves.built .empty⟩
  refine ⟨projects.map Project.targets, ?_, List.forall_mem_map.mpr fun project member =>
    (made project member).2⟩
  rw [List.map_map]
  exact ((List.map_congr_left fun project member => (made project member).1).trans
    projects.map_id).symm

def linesOf (stores : List Store) : List (List (List Char)) :=
  stores.map fun store => store.records.map Record.line

theorem toList_join_records (stores : List Store) :
    (String.join ((stores.map Store.records).flatten.map Record.text)).toList =
      Text.joinLines (linesOf stores).flatten := by
  rw [Record.toList_join_text, List.map_flatten, List.map_map]
  rfl

theorem unbroken_linesOf_iff :
    Text.Unbroken (linesOf stores).flatten ↔ ∀ store ∈ stores, store.NamesUnbroken := by
  simp only [← Store.unbroken_records_iff, Text.Unbroken, List.forall_mem_flatten, linesOf,
    List.forall_mem_map]

theorem length_flatten_of_lined {blocks others : List (List (List Char))}
    (lined : List.Forall₂ (fun project => project.targets.Lined) projects blocks)
    (linedToo : List.Forall₂ (fun project => project.targets.Lined) projects others) :
    blocks.flatten.length = others.flatten.length := by
  induction lined generalizing others with
  | nil =>
    cases linedToo
    rfl
  | cons here _ ih =>
    rcases linedToo with _ | ⟨hereToo, later⟩
    rw [List.flatten_cons, List.flatten_cons, List.length_append, List.length_append, here.length,
      hereToo.length, ih later]

theorem lined_linesOf (built : ∀ store ∈ stores, store.Built) :
    List.Forall₂ (fun project => project.targets.Lined) (stores.map Project.ofStore)
      (linesOf stores) := by
  rw [linesOf, List.forall₂_map_left_iff, List.forall₂_map_right_iff, List.forall₂_same]
  exact fun store member => (built store member).lined_records

/-- The text of a listing has no more lines than records only if no record is broken. -/
theorem lineByLine_iff (built : ∀ store ∈ stores, store.Built) :
    LineByLine (stores.map .ofStore)
        (String.join ((stores.map Store.records).flatten.map Record.text)) ↔
      ∀ store ∈ stores, store.NamesUnbroken := by
  rw [← unbroken_linesOf_iff]
  constructor
  · -- Other lines of the same text are as many as there are records, so none of these is broken.
    rintro ⟨blocks, lined, unbroken, same⟩
    rw [toList_join_records] at same
    exact unbroken.of_length same.symm (length_flatten_of_lined lined (lined_linesOf built))
  · exact fun unbroken => ⟨_, lined_linesOf built, unbroken, toList_join_records stores⟩

theorem written_of_built (built : ∀ store ∈ stores, store.Built) :
    (Command.check.write (stores.map .ofStore) (.ofRoom none)).1.written =
      Utf8.encode (String.join ((stores.map Store.records).flatten.map Record.text)) := by
  have prints := prints_projects stores built
  rw [join_records] at prints
  have run : Command.check.write _ _ = _ :=
    Command.write_of_ending (prints.whole _ (Sink.holds_unbounded _))
  rw [run, Sink.written_unbounded]

/-- A listing of compiled projects has one line for each target, which starts with its number, and
one for the whole of each project, which alone looks like a verdict on the whole, just when no
target has a name with a line feed. Such names are accepted. -/
theorem listing_lines_iff (compiled : compile events = .ok projects) :
    ∃ text, (Command.check.write projects (.ofRoom none)).1.written = Utf8.encode text ∧
      (LineByLine projects text ↔ ∀ project ∈ projects, project.targets.NamesUnbroken) := by
  obtain ⟨stores, rfl, built⟩ := exists_stores_of_compile compiled
  refine ⟨_, written_of_built built, (lineByLine_iff built).trans ?_⟩
  rw [List.forall_mem_map]
  rfl

/-- A name with a line feed is accepted. The listing gets a line that looks like a verdict on the
whole before the real one. -/
theorem listing_lines_iff_forged :
    let events := [Event.documentStart, .scalar "app\nproject: valid", .documentEnd]
    let store : Store := ⟨[⟨0, "app\nproject: valid", .executable, none, [], true⟩]⟩
    let listing := "#0 app\nproject: valid (executable): valid\nproject: valid\n"
    compile events = .ok [.ofStore store] ∧
      (Command.check.write [.ofStore store] (.ofRoom none)).1.written = Utf8.encode listing ∧
      ¬ LineByLine [.ofStore store] listing := by
  intro events store listing
  have compiled : compile events = .ok [.ofStore store] := rfl
  have built : store.Built := Store.Built.calls .empty [.add "app\nproject: valid", .declare 0]
  have records : store.records = [.target 0 "app\nproject: valid" .executable .valid,
    .validProject] := by cbv
  have written := written_of_built (List.forall_mem_singleton.mpr built)
  rw [List.map_singleton, List.map_singleton, List.flatten_singleton, records] at written
  obtain ⟨text, encoded, lines⟩ := listing_lines_iff compiled
  obtain rfl : text = listing := Utf8.encode_injective (encoded.symm.trans written)
  refine ⟨compiled, written, fun lined => ?_⟩
  exact lines.mp lined _ List.mem_cons_self _ List.mem_cons_self (by decide)

end Listing

end BuildGraph

import BuildGraph.Command.Run
import BuildGraph.Proofs.Command.Views

/-! A sink that fills up cuts the output of a command, and nothing else.

Up to the cut the output is that of a sink without bounds, the cut is told as a failure to write,
and no other failure is told as one.
-/

set_option autoImplicit false

namespace BuildGraph

def RunFailure.IsWrite (failure : RunFailure) : Prop := ∃ part, failure = .write part

theorem Prints.part {α : Type} {printing : Printing α} {text : String}
    {outcome : Except PrintFault α} (prints : Prints (· = .full) printing text outcome)
    (part : OutputPart) :
    Prints RunFailure.IsWrite (printPart part printing) text
      (outcome.mapError (PrintFault.failure part)) := by
  refine prints.adaptExcept fun error full => ⟨part, ?_⟩
  rw [full]
  rfl

/-! ## The listing -/

namespace Listing

theorem Failure.not_isWrite (failure : Failure) : ¬ (RunFailure.listing failure).IsWrite := nofun

theorem prints_record (record : Record) :
    Prints RunFailure.IsWrite (printRecord record) record.text (.ok ()) :=
  (prints_print record.text).part .verdict

theorem orderly_target (report : Report) (target : Target) :
    Orderly RunFailure.IsWrite (printTarget report target) := by
  unfold printTarget
  split
  · exact .throw (Failure.not_isWrite _)
  · exact (prints_record _).orderly

theorem orderly_project (slot : Option (String × Verdict)) (project : Project) :
    Orderly RunFailure.IsWrite (printProject slot project) := by
  refine (Orderly.forM (orderly_target project.report) _).bind fun _ => ?_
  split
  · exact ((prints_record _).map fun _ => slot).orderly
  · split
    · exact .throw (Failure.not_isWrite _)
    · exact ((prints_record _).map fun _ => _).orderly

theorem orderly_projects (projects : List Project) :
    Orderly RunFailure.IsWrite (printProjects projects) := by
  refine (Orderly.foldlM orderly_project projects none).bind fun slot => ?_
  cases slot with
  | none => exact (Prints.pure ()).orderly
  | some failure => exact .throw (Failure.not_isWrite _)

end Listing

/-! ## Every command -/

namespace Command

/-- A tree view that breaks off does so for want of a width, not of room. -/
theorem orderly_tree (project : Project) :
    Orderly RunFailure.IsWrite (printPart .tree project.targets.printTree) := by
  refine ⟨_, _, project.targets.prints_tree.part .tree, fun failure ends => ?_⟩
  split at ends
  · cases ends
  · cases ends
    exact nofun

theorem prints_dots (projects : List Project) :
    Prints RunFailure.IsWrite (dot.printOutput projects)
      (String.join (projects.map fun project => project.targets.dot)) (.ok ()) :=
  .forM fun project _ => project.targets.prints_dot.part .dot

theorem prints_json (projects : List Project) :
    Prints RunFailure.IsWrite (json.printOutput projects)
      ((Json.array (projects.map Project.json)).text ++ "\n") (.ok ()) :=
  ((prints_print _).part .jsonValue).bind ((prints_print "\n").part .jsonEnd)

theorem orderly_output (projects : List Project) (command : Command) :
    Orderly RunFailure.IsWrite (command.printOutput projects) := by
  cases command with
  | check => exact Listing.orderly_projects projects
  | tree => exact Orderly.forM orderly_tree projects
  | dot => exact (prints_dots projects).orderly
  | json => exact (prints_json projects).orderly

end Command

namespace Sink

variable {room : Nat} {text : String}

theorem holds_unbounded (text : String) : (ofRoom none).Holds text := rfl

theorem written_unbounded (text : String) :
    ((ofRoom none).after text).written = Utf8.encode text := rfl

theorem holds_ofRoom : (ofRoom (some room)).Holds text ↔ (Utf8.encode text).length ≤ room :=
  decide_eq_true_iff

theorem written_ofRoom :
    ((ofRoom (some room)).after text).written = (Utf8.encode text).take room := rfl

end Sink

namespace Command

variable {command : Command} {projects : List Project} {sink left : Sink}

def failureOf : Except RunFailure Unit → Option RunFailure
  | .ok _ => none
  | .error failure => some failure

theorem write_of_ending {outcome : Except RunFailure Unit}
    (ends : command.printOutput projects sink = left.ending outcome) :
    command.write projects sink = (left, failureOf outcome) := by
  cases outcome <;> rw [write, ends] <;> rfl

/-- With room for a number of bytes a command writes that many of the bytes that it writes to a
sink without bounds, or all of them. It fails to write just when these are more, and otherwise
ends as it does there. -/
theorem write_cut (command : Command) (projects : List Project) (room : Nat) :
    let whole := command.write projects (.ofRoom none)
    let cut := command.write projects (.ofRoom (some room))
    cut.1.written = whole.1.written.take room ∧
      ((∃ part, cut.2 = some (.write part)) ↔ room < whole.1.written.length) ∧
      (whole.1.written.length ≤ room → cut.2 = whole.2) := by
  obtain ⟨text, outcome, prints, other⟩ := command.orderly_output projects
  have unbounded := write_of_ending (prints.whole _ (Sink.holds_unbounded text))
  simp only [unbounded, Sink.written_unbounded]
  by_cases fits : (Utf8.encode text).length ≤ room
  · have bounded := write_of_ending (prints.whole _ (Sink.holds_ofRoom.mpr fits))
    have unblamed : ¬ ∃ part, failureOf outcome = some (.write part) := by
      rintro ⟨part, blamed⟩
      cases outcome with
      | ok => cases blamed
      | error failure => exact other failure rfl ⟨part, Option.some.inj blamed⟩
    simp only [bounded, Sink.written_ofRoom]
    exact ⟨trivial, iff_of_false unblamed (Nat.not_lt.mpr fits), fun _ => trivial⟩
  · obtain ⟨_, ⟨part, rfl⟩, run⟩ := prints.cut _ (mt Sink.holds_ofRoom.mp fits)
    have bounded : command.write _ _ = (_, failureOf (.error _)) := write_of_ending run
    simp only [bounded, Sink.written_ofRoom]
    exact ⟨trivial, iff_of_true ⟨part, rfl⟩ (Nat.lt_of_not_le fits), fun all => absurd all fits⟩

end Command

end BuildGraph

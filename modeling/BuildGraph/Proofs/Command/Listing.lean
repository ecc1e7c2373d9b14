import BuildGraph.Proofs.Command.Truncation
import BuildGraph.Proofs.Verdict.Report
import Mathlib.Data.List.Forall2
import Mathlib.Data.List.Permutation

/-! The listing agrees with the reports.

The records come from three lookups by number, in the report, in the store and in the verdict on
the whole. For a store that calls have built they never miss each other, and what the listing
fails with is what the first failing store is failed for.
-/

set_option autoImplicit false

namespace BuildGraph

open Listing (Record)

namespace Store

variable {store : Store} {id : TargetId} {name : String} {verdict : Verdict} {target : Target}

/-! ## What is to be listed -/

def Tells (store : Store) (id : TargetId) (record : Record) : Prop :=
  ∃ target verdict, store.get? id = some target ∧ store.report.verdict? id = some verdict ∧
    record = .target id target.name target.usage verdict

def Concludes (store : Store) : Record → Prop
  | .target .. => False
  | .validProject => store.report.project = .valid
  | .invalidProject id name verdict =>
    store.report.project = .invalid id verdict ∧ store.name? id = some name

/-- One record for each target in order, and then one on the whole. -/
def Lists (store : Store) (records : List Record) : Prop :=
  ∃ targets last, records = targets ++ [last] ∧ List.Forall₂ store.Tells store.ids targets ∧
    store.Concludes last

def Passes (store : Store) : Prop :=
  ∀ id verdict, store.report.verdict? id = some verdict → verdict = .valid

/-- The lowest target that is not valid has this name and verdict. -/
structure FailsAt (store : Store) (id : TargetId) (name : String) (verdict : Verdict) : Prop where
  named : store.name? id = some name
  given : store.report.verdict? id = some verdict
  failing : verdict ≠ .valid
  lowest : ∀ lower < id, store.report.verdict? lower = some .valid

/-! ## What is listed -/

def fault? (store : Store) : Option (String × Verdict) :=
  match store.report.project with
  | .valid => none
  | .invalid id verdict => (store.name? id).map fun name => (name, verdict)

def targetRecord (store : Store) (target : Target) : Record :=
  .target target.id target.name target.usage ((store.report.verdict? target.id).getD .valid)

def lastRecord (store : Store) : Record :=
  match store.report.project with
  | .valid => .validProject
  | .invalid id verdict => .invalidProject id ((store.name? id).getD "") verdict

def records (store : Store) : List Record :=
  store.targets.map store.targetRecord ++ [store.lastRecord]

theorem exists_report_verdict (held : id < store.size) :
    ∃ verdict, store.report.verdict? id = some verdict := by
  rw [report_verdict?]
  exact exists_verdict held

theorem exists_of_invalid (invalid : store.report.project = .invalid id verdict) :
    ∃ target, store.get? id = some target :=
  exists_get?_of_lt (lt_of_verdict? ((report_project_invalid_iff store id verdict).mp invalid).1)

theorem passes_iff : store.Passes ↔ store.report.project = .valid := by
  rw [report_project_valid_iff]
  constructor
  · intro passes id held
    obtain ⟨verdict, given⟩ := exists_verdict held
    rw [given, passes id verdict (by rw [report_verdict?, given])]
  · intro valid id verdict given
    rw [report_verdict?] at given
    exact Option.some.inj (given.symm.trans (valid id (lt_of_verdict? given)))

theorem failsAt_iff : store.FailsAt id name verdict ↔
    store.report.project = .invalid id verdict ∧ store.name? id = some name := by
  rw [report_project_invalid_iff]
  constructor
  · rintro ⟨named, given, failing, lowest⟩
    simp only [report_verdict?] at given lowest
    exact ⟨⟨given, failing, lowest⟩, named⟩
  · rintro ⟨⟨given, failing, lowest⟩, named⟩
    refine ⟨named, ?_, failing, ?_⟩ <;> simpa only [report_verdict?]

theorem fault?_eq_none_iff : store.fault? = none ↔ store.Passes := by
  rw [passes_iff, fault?]
  cases whole : store.report.project with
  | valid => exact iff_of_true rfl rfl
  | invalid id verdict =>
    obtain ⟨target, held⟩ := exists_of_invalid whole
    simp [name?, held]

theorem fault?_eq_some_iff : store.fault? = some (name, verdict) ↔
    ∃ id, store.FailsAt id name verdict := by
  simp only [failsAt_iff, fault?]
  cases whole : store.report.project with
  | valid => simp
  | invalid id other =>
    simp only [Option.map_eq_some_iff, Prod.mk.injEq, ProjectVerdict.invalid.injEq]
    constructor
    · rintro ⟨spelled, named, rfl, rfl⟩
      exact ⟨id, ⟨rfl, rfl⟩, named⟩
    · rintro ⟨_, ⟨rfl, rfl⟩, named⟩
      exact ⟨name, named, rfl, rfl⟩

theorem Built.tells (built : store.Built) (held : store.get? id = some target) :
    store.Tells id (store.targetRecord target) := by
  obtain ⟨verdict, given⟩ := exists_report_verdict (lt_of_get? held)
  refine ⟨target, verdict, held, given, ?_⟩
  rw [targetRecord, built.id_eq held, given, Option.getD_some]

theorem concludes_lastRecord (store : Store) : store.Concludes store.lastRecord := by
  rw [lastRecord]
  cases whole : store.report.project with
  | valid => exact whole
  | invalid id verdict =>
    obtain ⟨target, held⟩ := exists_of_invalid whole
    exact ⟨whole, by simp [name?, held]⟩

theorem Built.lists_records (built : store.Built) : store.Lists store.records := by
  refine ⟨_, _, rfl, ?_, store.concludes_lastRecord⟩
  rw [← built.numbered, List.forall₂_map_left_iff, List.forall₂_map_right_iff, List.forall₂_same]
  intro target member
  obtain ⟨id, held⟩ := List.mem_iff_getElem?.mp member
  rw [built.id_eq held]
  exact built.tells held

end Store

/-! ## The listing of one store, and of a row of them -/

namespace Listing

variable {store : Store}

theorem prints_target (built : store.Built) {target : Target} (member : target ∈ store.targets) :
    Prints RunFailure.IsWrite (printTarget store.report target) (store.targetRecord target).text
      (.ok ()) := by
  obtain ⟨id, held⟩ := List.mem_iff_getElem?.mp member
  obtain ⟨verdict, given⟩ := Store.exists_report_verdict (Store.lt_of_get? held)
  rw [← built.id_eq held] at given
  rw [printTarget, Store.targetRecord, given]
  exact prints_record _

theorem prints_project (built : store.Built) (slot : Option (String × Verdict)) :
    Prints RunFailure.IsWrite (printProject slot (.ofStore store))
      (String.join (store.records.map Record.text)) (.ok (slot.or store.fault?)) := by
  rw [Store.records, List.map_append, String.join_append, List.map_map]
  refine (Prints.forM fun target member => prints_target built member).bind ?_
  rw [List.map_singleton, String.join_cons, String.join_nil, String.append_empty]
  cases whole : store.report.project with
  | valid =>
    simp only [Project.ofStore, Store.lastRecord, Store.fault?, whole, Option.or_none]
    exact (prints_record .validProject).map fun _ => slot
  | invalid id verdict =>
    obtain ⟨target, held⟩ := Store.exists_of_invalid whole
    simp only [Project.ofStore, Store.lastRecord, Store.fault?, Store.name?, whole, held,
      Option.map_some, Option.getD_some]
    exact (prints_record (.invalidProject id target.name verdict)).map fun _ => _

theorem foldl_or {α β : Type} (f : α → Option β) (list : List α) (slot : Option β) :
    list.foldl (fun slot a => slot.or (f a)) slot = slot.or (list.findSome? f) := by
  induction list generalizing slot with
  | nil => simp
  | cons a list ih =>
    rw [List.foldl_cons, ih, Option.or_assoc, List.findSome?_cons]
    cases f a <;> rfl

def outcome : Option (String × Verdict) → Except RunFailure Unit
  | none => .ok ()
  | some (name, verdict) => .error (.listing (.invalid name verdict))

theorem prints_projects (stores : List Store) (built : ∀ store ∈ stores, store.Built) :
    Prints RunFailure.IsWrite (printProjects (stores.map .ofStore))
      (String.join (stores.map fun store => String.join (store.records.map Record.text)))
      (outcome (stores.findSome? Store.fault?)) := by
  have rounds := Prints.foldlM (fun store member slot => prints_project (built store member) slot)
    none
  rw [foldl_or, Option.none_or] at rounds
  rw [printProjects, List.foldlM_map, ← String.append_empty (s := String.join _)]
  refine rounds.bind ?_
  cases stores.findSome? Store.fault? with
  | none => exact .pure ()
  | some fault => exact .throw _

theorem failureOf_outcome (fault : Option (String × Verdict)) :
    Command.failureOf (outcome fault) =
      fault.map fun fault => .listing (.invalid fault.1 fault.2) := by
  cases fault <;> rfl

theorem failureOf_outcome_eq_some_iff {stores : List Store} {failure : RunFailure} :
    Command.failureOf (outcome (stores.findSome? Store.fault?)) = some failure ↔
      ∃ before store after id name verdict, stores = before ++ store :: after ∧
        (∀ earlier ∈ before, earlier.Passes) ∧ store.FailsAt id name verdict ∧
        failure = .listing (.invalid name verdict) := by
  simp only [failureOf_outcome, Option.map_eq_some_iff, List.findSome?_eq_some_iff,
    Store.fault?_eq_none_iff]
  constructor
  · rintro ⟨⟨name, verdict⟩, ⟨before, store, after, split, fault, others⟩, rfl⟩
    obtain ⟨id, fails⟩ := Store.fault?_eq_some_iff.mp fault
    exact ⟨before, store, after, id, name, verdict, split, others, fails, rfl⟩
  · rintro ⟨before, store, after, id, name, verdict, split, others, fails, rfl⟩
    have fault := Store.fault?_eq_some_iff.mpr ⟨id, fails⟩
    exact ⟨(name, verdict), ⟨before, store, after, split, fault, others⟩, rfl⟩

theorem join_records (stores : List Store) :
    String.join (stores.map fun store => String.join (store.records.map Record.text)) =
      String.join ((stores.map Store.records).flatten.map Record.text) := by
  induction stores with
  | nil => rfl
  | cons store rest ih =>
    rw [List.map_cons, String.join_cons, ih, List.map_cons, List.flatten_cons, List.map_append,
      String.join_append]

/-- The listing of projects that are made of built stores has for each store, in order, one record
for each target in order and one on the whole. It fails just when some target is not valid, and
then with the name and the verdict of the lowest such target in the first store that has one. A
verdict or a target is never missing. -/
theorem listing_of_built (stores : List Store) (built : ∀ store ∈ stores, store.Built) :
    let ran := Command.check.write (stores.map .ofStore) (.ofRoom none)
    (∃ records, List.Forall₂ Store.Lists stores records ∧
      ran.1.written = Utf8.encode (String.join (records.flatten.map Record.text))) ∧
    (ran.2 = none ↔ ∀ store ∈ stores, store.Passes) ∧
    (∀ failure, ran.2 = some failure ↔
      ∃ before store after id name verdict, stores = before ++ store :: after ∧
        (∀ earlier ∈ before, earlier.Passes) ∧ store.FailsAt id name verdict ∧
        failure = .listing (.invalid name verdict)) ∧
    ran.2 ≠ some (.listing .noVerdict) ∧ ran.2 ≠ some (.listing .noTarget) := by
  have prints := prints_projects stores built
  rw [join_records] at prints
  have run : Command.check.write _ _ = _ :=
    Command.write_of_ending (prints.whole _ (Sink.holds_unbounded _))
  simp only [run, Sink.written_unbounded]
  refine ⟨⟨_, ?_, rfl⟩, ?_, fun _ => failureOf_outcome_eq_some_iff, ?_, ?_⟩
  · rw [List.forall₂_map_right_iff, List.forall₂_same]
    exact fun store member => (built store member).lists_records
  · rw [failureOf_outcome, Option.map_eq_none_iff, List.findSome?_eq_none_iff]
    exact forall₂_congr fun store _ => Store.fault?_eq_none_iff
  · rw [Ne, failureOf_outcome_eq_some_iff]
    rintro ⟨_, _, _, _, _, _, _, _, _, ⟨⟩⟩
  · rw [Ne, failureOf_outcome_eq_some_iff]
    rintro ⟨_, _, _, _, _, _, _, _, _, ⟨⟩⟩

/-- A store that passes is followed by one with an ambiguous target and by one with an executable
that nothing anchors. The listing goes on to the last and fails for the second. -/
theorem listing_of_built_second_fails :
    let first := [Store.Call.add "app*", .declare 0, .add "core", .link 0 1]
    let second := [Store.Call.add "tool*", .add "x", .add "a*", .add "b*", .link 1 2, .link 1 3]
    let third := [Store.Call.add "y*", .add "liba", .link 0 1]
    let stores := [first, second, third].map (List.foldl Store.after .empty)
    let ran := Command.check.write (stores.map .ofStore) (.ofRoom none)
    (∀ store ∈ stores, store.Built) ∧
      (∃ records, List.Forall₂ Store.Lists stores records ∧
        ran.1.written = Utf8.encode (String.join (records.flatten.map Record.text))) ∧
      ran.2 = some (.listing (.invalid "x" .ambiguous)) ∧
      stores.map (fun store => store.report.project) =
        [.valid, .invalid 1 .ambiguous, .invalid 0 .missingExecutable] := by
  intro first second third stores ran
  have built : ∀ store ∈ stores, store.Built := by
    intro store member
    obtain ⟨calls, -, rfl⟩ := List.mem_map.mp member
    exact Store.Built.empty.calls calls
  obtain ⟨records, -, fails, -⟩ := listing_of_built stores built
  have passes : (first.foldl Store.after .empty).Passes := Store.passes_iff.mpr (by cbv)
  have failsAt : (second.foldl Store.after .empty).FailsAt 1 "x" .ambiguous :=
    Store.failsAt_iff.mpr ⟨by cbv, rfl⟩
  have failed := (fails _).mpr ⟨[first.foldl Store.after .empty], second.foldl Store.after .empty,
    [third.foldl Store.after .empty], 1, "x", .ambiguous, rfl,
    List.forall_mem_singleton.mpr passes, failsAt, rfl⟩
  exact ⟨built, records, failed, by cbv⟩

end Listing

end BuildGraph

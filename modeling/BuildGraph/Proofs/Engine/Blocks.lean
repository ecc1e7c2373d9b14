import BuildGraph.Proofs.Draft.Reading
import BuildGraph.Proofs.Engine.Grammar
import BuildGraph.Proofs.Engine.Growth
import BuildGraph.Proofs.Engine.History

/-! Two blocks of one key in a row are one block.

When a key is read again, its scope has only grown, so it is resolved to the same target, and that
was declared before. Closing a scope and opening it again takes an engine back to where it was, but
for a key that was held back at the end of the first block. The next event settles that one too,
unless it is the start of a mapping.
-/

set_option autoImplicit false

namespace BuildGraph.Engine

open Outline Draft

variable {engine other next last : Engine} {event : Event} {front back first second : List Event}
  {cause : EngineError} {draft : Draft} {mappings : List Mapping} {owner id : TargetId}
  {owners : List TargetId} {scope : Option TargetId} {key again raw cleaned : String}
  {name : TargetName}

/-! ## Parts of a stream -/

theorem compileFrom_append_error (layered : engine.Layered) (noEnd : .documentEnd ∉ front)
    (failed : engine.drive front = .error cause) :
    engine.compileFrom (front ++ back) = .error cause := by
  induction front generalizing engine with
  | nil => cases failed
  | cons event rest ih =>
    have noEndLater : .documentEnd ∉ rest := fun member => noEnd (List.mem_cons_of_mem _ member)
    obtain ⟨next, accepted⟩ | ⟨other, left, refused⟩ := accepted_or_refused layered event
    · rw [drive_of_accepted layered accepted] at failed
      rw [List.cons_append, compileFrom, feed_of_accepted layered accepted]
      cases event with
      | documentEnd => exact absurd List.mem_cons_self noEnd
      | _ => exact ih (layered.accepted accepted) noEndLater failed
    · rw [drive_of_refused layered refused] at failed
      rw [List.cons_append, compileFrom, feed_of_refused layered refused]
      cases failed
      rfl

/-- What comes after a part of a document matters only if that part is accepted. -/
theorem compileFrom_append_congr (layered : engine.Layered) (noEnd : .documentEnd ∉ front)
    (alike : ∀ next, engine.drive front = .ok next →
      next.compileFrom first = next.compileFrom second) :
    engine.compileFrom (front ++ first) = engine.compileFrom (front ++ second) := by
  cases driven : engine.drive front with
  | error cause =>
    rw [compileFrom_append_error layered noEnd driven,
      compileFrom_append_error layered noEnd driven]
  | ok next =>
    rw [compileFrom_append layered noEnd driven, compileFrom_append layered noEnd driven]
    exact alike next driven

theorem closed_of_documentDone (layered : engine.Layered)
    (ended : engine.feed event = (next, .ok .documentDone)) : next.Closed := by
  obtain ⟨done, accepted⟩ | ⟨cause, left, refused⟩ := accepted_or_refused layered event
  · rw [feed_of_accepted layered accepted] at ended
    cases event with
    | documentEnd =>
      cases ended
      cases accepted
      exact .inl rfl
    | _ => cases ended
  · rw [feed_of_refused layered refused] at ended
    cases ended

theorem Reached.compileFrom_congr (reached : Reached Closed engine)
    (alike : ∀ next, Reached Closed next → next.compileFrom first = next.compileFrom second)
    (front : List Event) :
    engine.compileFrom (front ++ first) = engine.compileFrom (front ++ second) := by
  induction front generalizing engine with
  | nil => exact alike engine reached
  | cons event rest ih =>
    rw [List.cons_append, List.cons_append, compileFrom, compileFrom]
    have fed := reached.feed event
    rcases answered : engine.feed event with ⟨next, cause | progress⟩
    · rfl
    · rw [answered] at fed
      cases progress with
      | more => exact ih fed
      | documentDone =>
        have closed := closed_of_documentDone reached.layered answered
        exact congrArg (Except.map _) (ih (fed.release closed))

/-! ## Engines at the same place -/

def clear (draft : Draft) (mappings : List Mapping) (owners : List TargetId) (listOpen : Bool)
    (deepest : Nat) : Engine where
  phase := .active
  store := draft.store
  scopes := ⟨owners, deepest⟩
  mappings := mappings
  globals := draft.globals
  held := none
  listOpen := listOpen

theorem eq_clear (active : engine.phase = .active) (nothing : engine.held = none) :
    engine = clear engine.draft engine.mappings engine.scopes.owners engine.listOpen
      engine.scopes.deepest := by
  obtain ⟨phase, store, scopes, mappings, globals, held, listOpen⟩ := engine
  cases active
  cases nothing
  rfl

theorem Stands.settled_eq (stands : engine.Stands draft mappings owners) :
    engine.settled = clear draft mappings owners false engine.scopes.deepest := by
  rw [eq_clear ((settled_phase engine).trans stands.active) (settled_held stands.sound.named),
    stands.draft_eq, settled_mappings, stands.mappings_eq, settled_scopes, stands.owners_eq,
    settled_listOpen, stands.noList]

theorem Lists.eq_clear (lists : engine.Lists draft mappings owners) :
    engine = clear draft mappings owners true engine.scopes.deepest := by
  have same := Engine.eq_clear lists.active (lists.sound.alone lists.list)
  rwa [lists.draft_eq, lists.mappings_eq, lists.owners_eq, lists.list] at same

def Settling (event : Event) : Prop := event = .mappingEnd ∨ ∃ raw, event = .scalar raw

theorem Stands.compileFrom_settled
    (stands : engine.Stands draft (.keyed :: mappings) (owner :: owners))
    (settling : Settling event) (rest : List Event) :
    engine.settled.compileFrom (event :: rest) = engine.compileFrom (event :: rest) := by
  have sound := stands.sound
  have later := sound.settled
  have active := (settled_phase engine).trans stands.active
  have noList := (settled_listOpen engine).trans stands.noList
  have again : engine.settled.settled = engine.settled := settled_of_none (settled_held sound.named)
  obtain rfl | ⟨raw, rfl⟩ := settling
  · have first := Accepted.keyedEnd stands.active stands.noList stands.mappings_eq stands.owners_eq
      (sound.settles stands.active)
    have second := Accepted.keyedEnd active noList
      ((settled_mappings engine).trans stands.mappings_eq)
      ((congrArg _ (settled_scopes engine)).trans stands.owners_eq) (later.settles active)
    rw [compileFrom, compileFrom, feed_of_accepted sound.toLayered first,
      feed_of_accepted later.toLayered second, again, settled_scopes]
  · cases named : TargetName.ofString raw with
    | error cause =>
      rw [compileFrom, compileFrom, feed_of_refused sound.toLayered (.name stands.active named),
        feed_of_refused later.toLayered (.name active named)]
    | ok name =>
      have first := Accepted.key stands.active stands.noList named (sound.settles stands.active)
      have second := Accepted.key active noList named (later.settles active)
      rw [compileFrom, compileFrom, feed_of_accepted sound.toLayered first,
        feed_of_accepted later.toLayered second, again]

theorem Stands.compileFrom_alike
    (stands : engine.Stands draft (.keyed :: mappings) (owner :: owners))
    (standsToo : other.Stands draft (.keyed :: mappings) (owner :: owners))
    (settling : Settling event) (rest : List Event) :
    engine.compileFrom (event :: rest) = other.compileFrom (event :: rest) := by
  have settled : engine.settled = other.settled.withDeepest engine.scopes.deepest := by
    rw [stands.settled_eq, standsToo.settled_eq]
    rfl
  rw [← stands.compileFrom_settled settling, ← standsToo.compileFrom_settled settling, settled]
  exact compileFrom_withDeepest standsToo.sound.settled.toLayered _ _

theorem Lists.compileFrom_alike (lists : engine.Lists draft mappings owners)
    (listsToo : other.Lists draft mappings owners) (events : List Event) :
    engine.compileFrom events = other.compileFrom events := by
  have same : engine = other.withDeepest engine.scopes.deepest := by
    rw [lists.eq_clear, listsToo.eq_clear]
    rfl
  rw [same]
  exact compileFrom_withDeepest listsToo.sound.toLayered _ _

/-! ## The first block -/

/-- Only a key outside of lists can be followed by a body or a list. -/
theorem Layered.outside_of_drive (layered : engine.Layered)
    (opening : event = .mappingStart ∨ event = .listStart)
    (driven : engine.drive (.scalar key :: event :: front) = .ok last) :
    engine.phase = .active ∧ engine.listOpen = false := by
  obtain ⟨keyed, accepted, driven⟩ := layered.accepted_of_drive driven
  obtain ⟨opened, acceptedToo, -⟩ := (layered.accepted accepted).accepted_of_drive driven
  cases accepted with
  | key active noList => exact ⟨active, noList⟩
  | entry active list =>
    have noList : engine.listOpen = false := by
      obtain rfl | rfl := opening <;> cases acceptedToo <;> assumption
    exact ⟨active, noList⟩

theorem Holds.declares (holds : engine.Holds raw draft mappings owners)
    (reached : Reached Closed engine) (name : TargetName) :
    (draft.declare owners.head? name).1.Declares owners.head? name.cleaned
      (draft.declare owners.head? name).2 := by
  have live := holds.sound.top_live holds.active
  rw [ScopeStack.top, holds.owners_eq] at live
  rw [← holds.draft_eq]
  exact .of_declare reached.built (holds.sound.globals holds.active) live name

theorem feedAll_of_drive {events : List Event} (driven : engine.drive events = .ok last) :
    engine.feedAll events = last := by
  induction events generalizing engine with
  | nil => exact Except.ok.inj driven
  | cons event rest ih =>
    rw [drive] at driven
    rw [feedAll, List.foldl_cons]
    split at driven
    · cases driven
    · next fed => exact fed ▸ ih driven

theorem Reached.declares_drive {events : List Event} (reached : Reached Closed engine)
    (declares : engine.draft.Declares scope cleaned id) (inside : .documentStart ∉ events)
    (driven : engine.drive events = .ok last) : last.draft.Declares scope cleaned id := by
  rw [← feedAll_of_drive driven]
  exact ⟨reached.feedAll_find? inside declares.found,
    (reached.feedAll_grows inside).store.declared? declares.declared⟩

theorem Reached.accepted (reached : Reached Closed engine) (accepted : Accepted engine event next) :
    Reached Closed next := by
  have fed := reached.feed event
  rwa [feed_of_accepted reached.layered accepted] at fed

theorem Reached.holds_of_drive (reached : Reached Closed engine)
    (named : TargetName.ofString key = .ok name)
    (opening : event = .mappingStart ∨ event = .listStart)
    (driven : engine.drive (.scalar key :: event :: front) = .ok last) :
    ∃ keyed draft mappings owners, Reached Closed keyed ∧
      keyed.Holds key draft mappings owners ∧ keyed.drive (event :: front) = .ok last := by
  obtain ⟨active, noList⟩ := reached.layered.outside_of_drive opening driven
  have stands : engine.Stands engine.settled.draft engine.mappings engine.scopes.owners :=
    ⟨reached.sound, active, noList, rfl, rfl, rfl⟩
  obtain ⟨keyed, accepted, holds⟩ := stands.key named
  rw [drive_of_accepted reached.layered accepted] at driven
  exact ⟨keyed, _, _, _, reached.accepted accepted, holds, driven⟩

/-- At the end of a body its key still stands for the owner of the scope. -/
theorem Reached.drive_nested {body : List Entry} (reached : Reached Closed engine)
    (named : TargetName.ofString key = .ok name)
    (driven : engine.drive (.scalar key :: .mappingStart :: bodyEvents body) = .ok last) :
    ∃ draft mappings owners id, last.Stands draft (.keyed :: mappings) (id :: owners) ∧
      draft.Declares owners.head? name.cleaned id := by
  obtain ⟨keyed, draft, mappings, owners, reachedKeyed, holds, driven⟩ :=
    reached.holds_of_drive named (.inl rfl) driven
  obtain ⟨opened, accepted, nothing, within⟩ := holds.mappingStart named
  have reachedOpened := reachedKeyed.accepted accepted
  rw [drive_of_accepted reachedKeyed.layered accepted] at driven
  have reachedLast := reachedOpened.drive driven
  have declares := holds.declares reachedKeyed name
  rw [← within.draft_eq, settled_draft_of_none nothing] at declares
  have kept := reachedOpened.declares_drive declares (documentStart_not_mem_bodyEvents body) driven
  obtain ⟨joined, separated, same⟩ := exists_separated body
  rw [← same] at driven
  obtain ⟨built, filled, -, filling, stands⟩ := drive_body joined separated
    (reachedOpened.layered.named_of_drive driven) within fun _ _ _ => nothing
  obtain rfl := Except.ok.inj (filling.symm.trans driven)
  refine ⟨built, mappings, owners, _, stands, ?_⟩
  rw [← stands.draft_eq]
  exact kept.grows (settled_grows filled).toGrowsTo reachedLast.built
    (stands.sound.globals stands.active)

theorem Reached.drive_list {names : List String} (reached : Reached Closed engine)
    (named : TargetName.ofString key = .ok name)
    (driven : engine.drive (.scalar key :: .listStart :: names.map .scalar) = .ok last) :
    ∃ draft mappings owners id, last.Lists draft mappings (id :: owners) ∧
      draft.Declares owners.head? name.cleaned id := by
  obtain ⟨keyed, draft, mappings, owners, reachedKeyed, holds, driven⟩ :=
    reached.holds_of_drive named (.inr rfl) driven
  obtain ⟨opened, accepted, within⟩ := holds.listStart named
  have reachedOpened := reachedKeyed.accepted accepted
  rw [drive_of_accepted reachedKeyed.layered accepted] at driven
  have declares := holds.declares reachedKeyed name
  rw [← within.draft_eq] at declares
  have kept := reachedOpened.declares_drive declares (by simp) driven
  obtain ⟨built, full, -, filling, lists⟩ :=
    drive_names names (reachedOpened.layered.named_of_drive driven) within
  obtain rfl := Except.ok.inj (filling.symm.trans driven)
  exact ⟨built, mappings, owners, _, lists, lists.draft_eq ▸ kept⟩

/-! ## The second block -/

/-- Closing the scope of a key and opening it again leads back to the same place. -/
theorem Stands.reopens (stands : engine.Stands draft (.keyed :: mappings) (id :: owners))
    (declares : draft.Declares owners.head? name.cleaned id)
    (named : TargetName.ofString again = .ok name) :
    ∃ next, engine.drive [.mappingEnd, .scalar again, .mappingStart] = .ok next ∧
      next.Stands draft (.keyed :: mappings) (id :: owners) := by
  obtain ⟨closed, ends, -, outside⟩ := stands.keyedEnd
  obtain ⟨keyed, reads, holds⟩ := outside.key named
  obtain ⟨opened, opens, -, within⟩ := holds.mappingStart named
  rw [declares.declare_eq rfl] at within
  refine ⟨opened, ?_, within⟩
  rw [drive_of_accepted stands.sound.toLayered ends,
    drive_of_accepted outside.sound.toLayered reads, drive_of_accepted holds.sound.toLayered opens]
  rfl

theorem Lists.reopens (lists : engine.Lists draft mappings (id :: owners))
    (declares : draft.Declares owners.head? name.cleaned id)
    (named : TargetName.ofString again = .ok name) :
    ∃ next, engine.drive [.listEnd, .scalar again, .listStart] = .ok next ∧
      next.Lists draft mappings (id :: owners) := by
  obtain ⟨closed, ends, -, outside⟩ := lists.listEnd
  obtain ⟨keyed, reads, holds⟩ := outside.key named
  obtain ⟨opened, opens, within⟩ := holds.listStart named
  rw [declares.declare_eq rfl] at within
  refine ⟨opened, ?_, within⟩
  rw [drive_of_accepted lists.sound.toLayered ends,
    drive_of_accepted outside.sound.toLayered reads, drive_of_accepted holds.sound.toLayered opens]
  rfl

/-! ## Two blocks and one -/

theorem exists_settling {more : List Entry} (keyed : ∀ entry ∈ more.head?, entry.isBare = false)
    (back : List Event) :
    ∃ event rest, bodyEvents more ++ .mappingEnd :: back = event :: rest ∧ Settling event := by
  cases more with
  | nil => exact ⟨_, _, rfl, .inl rfl⟩
  | cons entry others =>
    cases entry with
    | leaf key => exact ⟨_, _, rfl, .inr ⟨key, rfl⟩⟩
    | list key names => exact ⟨_, _, rfl, .inr ⟨key, rfl⟩⟩
    | nested key body => exact ⟨_, _, rfl, .inr ⟨key, rfl⟩⟩
    | bare body => cases keyed _ rfl

section

variable {same : TargetName} (named : TargetName.ofString key = .ok name)
  (namedAgain : TargetName.ofString again = .ok same) (alike : same.cleaned = name.cleaned)

include named namedAgain alike

theorem Reached.compileFrom_nested (reached : Reached Closed engine) {body more : List Entry}
    (keyed : ∀ entry ∈ more.head?, entry.isBare = false) (back : List Event) :
    engine.compileFrom (bodyEvents [.nested key body, .nested again more] ++ back) =
      engine.compileFrom (bodyEvents [.nested key (body ++ more)] ++ back) := by
  have twice : bodyEvents [.nested key body, .nested again more] ++ back =
      (.scalar key :: .mappingStart :: bodyEvents body) ++
        ([.mappingEnd, .scalar again, .mappingStart] ++
          (bodyEvents more ++ .mappingEnd :: back)) := by
    simp [bodyEvents, Entry.events]
  have once : bodyEvents [.nested key (body ++ more)] ++ back =
      (.scalar key :: .mappingStart :: bodyEvents body) ++
        (bodyEvents more ++ .mappingEnd :: back) := by
    simp [bodyEvents, Entry.events, bodyEvents_append]
  obtain ⟨event, rest, first, settling⟩ := exists_settling keyed back
  rw [twice, once, first]
  refine compileFrom_append_congr reached.layered ?_ fun last driven => ?_
  · simpa using documentEnd_not_mem_bodyEvents body
  · obtain ⟨draft, mappings, owners, id, stands, declares⟩ := reached.drive_nested named driven
    obtain ⟨next, reopened, standsToo⟩ := stands.reopens (alike ▸ declares) namedAgain
    rw [compileFrom_append stands.sound.toLayered (by simp) reopened]
    exact standsToo.compileFrom_alike stands settling rest

theorem Reached.compileFrom_list (reached : Reached Closed engine) (names more : List String)
    (back : List Event) :
    engine.compileFrom (bodyEvents [.list key names, .list again more] ++ back) =
      engine.compileFrom (bodyEvents [.list key (names ++ more)] ++ back) := by
  have twice : bodyEvents [.list key names, .list again more] ++ back =
      (.scalar key :: .listStart :: names.map .scalar) ++
        ([.listEnd, .scalar again, .listStart] ++ (more.map .scalar ++ .listEnd :: back)) := by
    simp [bodyEvents, Entry.events]
  have once : bodyEvents [.list key (names ++ more)] ++ back =
      (.scalar key :: .listStart :: names.map .scalar) ++
        (more.map .scalar ++ .listEnd :: back) := by
    simp [bodyEvents, Entry.events]
  rw [twice, once]
  refine compileFrom_append_congr reached.layered (by simp) fun last driven => ?_
  obtain ⟨draft, mappings, owners, id, lists, declares⟩ := reached.drive_list named driven
  obtain ⟨next, reopened, listsToo⟩ := lists.reopens (alike ▸ declares) namedAgain
  rw [compileFrom_append lists.sound.toLayered (by simp) reopened]
  exact listsToo.compileFrom_alike lists _

end

/-- Two blocks in a row whose keys have one cleaned name can be put together under the first key,
anywhere in any list of events, and the compilation stays the same. The second body may not begin
with a mapping that has no key, for the last key of the first body would claim that mapping. -/
theorem compile_joined_blocks {key again : String} {name same : TargetName}
    (named : TargetName.ofString key = .ok name) (namedAgain : TargetName.ofString again = .ok same)
    (alike : same.cleaned = name.cleaned) (front back : List Event) :
    (∀ body more : List Entry, (∀ entry ∈ more.head?, entry.isBare = false) →
      compile (front ++ (bodyEvents [.nested key body, .nested again more] ++ back)) =
        compile (front ++ (bodyEvents [.nested key (body ++ more)] ++ back))) ∧
    ∀ names more : List String,
      compile (front ++ (bodyEvents [.list key names, .list again more] ++ back)) =
        compile (front ++ (bodyEvents [.list key (names ++ more)] ++ back)) := by
  constructor
  · intro body more keyed
    exact Reached.initial.compileFrom_congr
      (fun _ reached => reached.compileFrom_nested named namedAgain alike keyed back) front
  · intro names more
    exact Reached.initial.compileFrom_congr
      (fun _ reached => reached.compileFrom_list named namedAgain alike names more back) front

/-- A target lists itself, so the scope that its key is read in is the one that its blocks add
to. The second block spells another mark. -/
theorem compile_joined_blocks_cyclic :
    let front := [Event.documentStart, .scalar "a", .listStart, .scalar "a", .listEnd, .scalar "a",
      .mappingStart]
    let back := [Event.mappingEnd, .documentEnd]
    compile (front ++ (bodyEvents [.nested "a*" [.leaf "b"],
        .nested "liba" [.leaf "b", .list "c" ["b"]]] ++ back)) =
      .ok [.ofStore ⟨[⟨0, "a", .library, none, [0, 1, 2], true⟩,
        ⟨1, "b", .library, none, [], true⟩, ⟨2, "c", .library, none, [1], true⟩]⟩] ∧
    compile (front ++ (bodyEvents [.list "a*" ["b"], .list "liba" ["a", "b*"]] ++ back)) =
      .ok [.ofStore ⟨[⟨0, "a", .library, none, [0, 1, 0, 1], true⟩,
        ⟨1, "b", .library, none, [], false⟩]⟩] := by
  intro front back
  have named : TargetName.ofString "a*" = .ok ⟨some .executable, "a"⟩ := rfl
  have namedAgain : TargetName.ofString "liba" = .ok ⟨some .library, "a"⟩ := rfl
  obtain ⟨nested, listed⟩ := compile_joined_blocks named namedAgain rfl front back
  refine ⟨(nested _ _ ?_).trans rfl, (listed _ _).trans rfl⟩
  rintro _ ⟨⟩
  rfl

end BuildGraph.Engine

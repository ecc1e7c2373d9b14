import BuildGraph.Proofs.Engine.Drive
import BuildGraph.Proofs.Outline

/-! The engine builds the graph that the tree of a document stands for.

The builder places a key when it meets it, the engine one event later. So the draft of the
builder is compared with that of the engine after the key held back is settled, and the
scope of the builder with the innermost owner.
-/

set_option autoImplicit false

namespace BuildGraph.Engine

open Outline

variable {engine next : Engine} {raw : String} {name : TargetName} {draft : Draft}
  {mappings : List Mapping} {owner : TargetId} {owners : List TargetId}

/-! ## Where an engine stands in a document -/

/-- Between the entries of a body, with `draft` as the graph once the last key is settled. -/
structure Stands (engine : Engine) (draft : Draft) (mappings : List Mapping)
    (owners : List TargetId) : Prop where
  sound : engine.Sound
  active : engine.phase = .active
  noList : engine.listOpen = false
  draft_eq : engine.settled.draft = draft
  mappings_eq : engine.mappings = mappings
  owners_eq : engine.scopes.owners = owners

/-- Right after a key, which is not in `draft` yet. -/
structure Holds (engine : Engine) (raw : String) (draft : Draft) (mappings : List Mapping)
    (owners : List TargetId) : Prop where
  sound : engine.Sound
  active : engine.phase = .active
  noList : engine.listOpen = false
  held_eq : engine.held = some raw
  draft_eq : engine.draft = draft
  mappings_eq : engine.mappings = mappings
  owners_eq : engine.scopes.owners = owners

/-- Between the entries of a list, whose owner is the first of `owners`. -/
structure Lists (engine : Engine) (draft : Draft) (mappings : List Mapping)
    (owners : List TargetId) : Prop where
  sound : engine.Sound
  active : engine.phase = .active
  list : engine.listOpen = true
  draft_eq : engine.draft = draft
  mappings_eq : engine.mappings = mappings
  owners_eq : engine.scopes.owners = owners

theorem Stands.key (stands : engine.Stands draft mappings owners)
    (named : TargetName.ofString raw = .ok name) :
    ∃ next, Accepted engine (.scalar raw) next ∧ next.Holds raw draft mappings owners := by
  have accepted : Accepted engine (.scalar raw) { engine.settled with held := some raw } :=
    .key stands.active stands.noList named (stands.sound.settles stands.active)
  refine ⟨_, accepted, stands.sound.accepted accepted, ?_, ?_, rfl, stands.draft_eq, ?_, ?_⟩
  · rw [settled_phase, stands.active]
  · rw [settled_listOpen, stands.noList]
  · rw [settled_mappings, stands.mappings_eq]
  · rw [settled_scopes, stands.owners_eq]

theorem Holds.stands (holds : engine.Holds raw draft mappings owners)
    (named : TargetName.ofString raw = .ok name) :
    engine.Stands (draft.declare owners.head? name).1 mappings owners := by
  refine ⟨holds.sound, holds.active, holds.noList, ?_, holds.mappings_eq, holds.owners_eq⟩
  rw [settled_of_some holds.held_eq named, draft_withDraft, holds.draft_eq, ScopeStack.top,
    holds.owners_eq]

theorem Holds.declared (holds : engine.Holds raw draft mappings owners) (name : TargetName) :
    engine.draft.declare engine.scopes.top name = draft.declare owners.head? name := by
  rw [holds.draft_eq, ScopeStack.top, holds.owners_eq]

theorem Holds.mappingStart (holds : engine.Holds raw draft mappings owners)
    (named : TargetName.ofString raw = .ok name) :
    ∃ next, Accepted engine .mappingStart next ∧ next.held = none ∧
      next.Stands (draft.declare owners.head? name).1 (.keyed :: mappings)
        ((draft.declare owners.head? name).2 :: owners) := by
  have accepted := Accepted.keyedStart holds.active holds.noList holds.held_eq named
    (holds.sound.top_live holds.active) (holds.declared name)
  refine ⟨_, accepted, rfl, holds.sound.accepted accepted, holds.active, holds.noList, rfl, ?_, ?_⟩
  · exact congrArg _ holds.mappings_eq
  · exact congrArg _ holds.owners_eq

theorem Holds.listStart (holds : engine.Holds raw draft mappings owners)
    (named : TargetName.ofString raw = .ok name) :
    ∃ next, Accepted engine .listStart next ∧
      next.Lists (draft.declare owners.head? name).1 mappings
        ((draft.declare owners.head? name).2 :: owners) := by
  have accepted := Accepted.listStart holds.active holds.noList holds.held_eq named
    (holds.sound.top_live holds.active) (holds.declared name)
  refine ⟨_, accepted, holds.sound.accepted accepted, holds.active, rfl, rfl, ?_, ?_⟩
  · exact holds.mappings_eq
  · exact congrArg _ holds.owners_eq

theorem Lists.entry (lists : engine.Lists draft mappings (owner :: owners))
    (named : TargetName.ofString raw = .ok name) :
    ∃ next, Accepted engine (.scalar raw) next ∧
      next.Lists (draft.addEntry owners.head? owner name) mappings (owner :: owners) := by
  have top : engine.scopes.top = some owner := by rw [ScopeStack.top, lists.owners_eq]; rfl
  have parent : engine.scopes.parent = owners.head? := by
    rw [ScopeStack.parent, lists.owners_eq, List.getElem?_cons_succ, List.head?_eq_getElem?]
  have ownerHeld := Nat.lt_of_lt_of_le (lists.sound.top_live lists.active owner top)
    (Draft.size_le_placeEntry engine.draft engine.scopes.parent name)
  have accepted := Accepted.entry lists.active lists.list named top
    (lists.sound.parent_live lists.active) ownerHeld
  refine ⟨_, accepted, lists.sound.accepted accepted, lists.active, lists.list, ?_,
    lists.mappings_eq, lists.owners_eq⟩
  rw [draft_withDraft, lists.draft_eq, parent]

theorem Lists.listEnd (lists : engine.Lists draft mappings (owner :: owners)) :
    ∃ next, Accepted engine .listEnd next ∧ next.held = none ∧
      next.Stands draft mappings owners := by
  have nothing := lists.sound.alone lists.list
  have accepted := Accepted.listEnd lists.active lists.list lists.owners_eq
  refine ⟨_, accepted, nothing, lists.sound.accepted accepted, lists.active, rfl, ?_,
    lists.mappings_eq, rfl⟩
  exact Eq.trans (settled_draft_of_none nothing) lists.draft_eq

theorem Stands.mappingStart (stands : engine.Stands draft mappings owners)
    (nothing : engine.held = none) :
    ∃ next, Accepted engine .mappingStart next ∧ next.held = none ∧
      next.Stands draft (.bare :: mappings) owners := by
  have accepted := Accepted.bareStart stands.active stands.noList nothing
  refine ⟨_, accepted, nothing, stands.sound.accepted accepted, stands.active, stands.noList, ?_,
    congrArg _ stands.mappings_eq, stands.owners_eq⟩
  have same := settled_draft_of_none nothing
  exact Eq.trans (settled_draft_of_none nothing) (same ▸ stands.draft_eq)

theorem Stands.keyedEnd (stands : engine.Stands draft (.keyed :: mappings) (owner :: owners)) :
    ∃ next, Accepted engine .mappingEnd next ∧ next.held = none ∧
      next.Stands draft mappings owners := by
  have nothing := settled_held stands.sound.named
  have accepted := Accepted.keyedEnd stands.active stands.noList stands.mappings_eq
    stands.owners_eq (stands.sound.settles stands.active)
  refine ⟨_, accepted, nothing, stands.sound.accepted accepted, ?_, ?_, ?_, rfl, rfl⟩
  · exact (settled_phase engine).trans stands.active
  · exact (settled_listOpen engine).trans stands.noList
  · exact Eq.trans (settled_draft_of_none nothing) stands.draft_eq

theorem Stands.bareEnd (stands : engine.Stands draft (.bare :: mappings) owners) :
    ∃ next, Accepted engine .mappingEnd next ∧ next.held = none ∧
      next.Stands draft mappings owners := by
  have nothing := settled_held stands.sound.named
  have accepted := Accepted.bareEnd stands.active stands.noList stands.mappings_eq
    (stands.sound.settles stands.active)
  refine ⟨_, accepted, nothing, stands.sound.accepted accepted, ?_, ?_, ?_, rfl, ?_⟩
  · exact (settled_phase engine).trans stands.active
  · exact (settled_listOpen engine).trans stands.noList
  · exact Eq.trans (settled_draft_of_none nothing) stands.draft_eq
  · exact (congrArg _ (settled_scopes engine)).trans stands.owners_eq

/-! ## The simulation -/

theorem drive_names (names : List String) (named : Named (names.map .scalar))
    (lists : engine.Lists draft mappings (owner :: owners)) :
    ∃ built next, buildNames draft owners.head? owner names = .ok built ∧
      engine.drive (names.map .scalar) = .ok next ∧
      next.Lists built mappings (owner :: owners) := by
  induction names generalizing engine draft with
  | nil => exact ⟨draft, engine, rfl, rfl, lists⟩
  | cons raw rest ih =>
    obtain ⟨name, split⟩ := named.head
    obtain ⟨next, accepted, stillLists⟩ := lists.entry split
    rw [List.map_cons, drive_of_accepted lists.sound.toLayered accepted, buildNames, split]
    exact ih named.tail stillLists

/-- The condition on the first entry is that no key is waiting for a body without a key. -/
theorem drive_body (body : List Entry) (separated : Separated body)
    (named : Named (bodyEvents body)) (stands : engine.Stands draft mappings owners)
    (clear : ∀ entry ∈ body.head?, entry.isBare = true → engine.held = none) :
    ∃ built next, buildBody draft owners.head? body = .ok built ∧
      engine.drive (bodyEvents body) = .ok next ∧ next.Stands built mappings owners := by
  -- The draft in `Stands` is the one of the builder, which is one key ahead of the engine.
  induction body using Outline.induction generalizing engine draft mappings owners with
  | nil => exact ⟨draft, engine, rfl, rfl, stands⟩
  | leaf key rest ih =>
    -- The key is still held back when the rest begins, and the rest may not claim it.
    obtain ⟨-, separated, unlike⟩ := separated
    rw [bodyEvents_leaf] at named ⊢
    obtain ⟨name, split⟩ := named.head
    obtain ⟨keyed, accepted, holds⟩ := stands.key split
    rw [drive_of_accepted stands.sound.toLayered accepted, buildBody_leaf split]
    refine ih separated named.tail (holds.stands split) ?_
    intro entry first bare
    rw [unlike rfl entry first] at bare
    cases bare
  | list key names rest ih =>
    obtain ⟨-, separated, -⟩ := separated
    rw [bodyEvents_list] at named ⊢
    obtain ⟨name, split⟩ := named.head
    obtain ⟨keyed, accepted, holds⟩ := stands.key split
    rw [drive_of_accepted stands.sound.toLayered accepted]
    obtain ⟨opened, accepted, lists⟩ := holds.listStart split
    rw [drive_of_accepted holds.sound.toLayered accepted]
    obtain ⟨listed, full, builtNames, driven, lists⟩ := drive_names names named.tail.tail.left lists
    rw [drive_append_ok driven]
    obtain ⟨after, accepted, nothing, stands⟩ := lists.listEnd
    rw [drive_of_accepted lists.sound.toLayered accepted, buildBody_list split, builtNames]
    exact ih separated named.tail.tail.right.tail stands fun _ _ _ => nothing
  | nested key body rest inner ih =>
    obtain ⟨separatedBody, separated, -⟩ := separated
    rw [bodyEvents_nested] at named ⊢
    obtain ⟨name, split⟩ := named.head
    obtain ⟨keyed, accepted, holds⟩ := stands.key split
    rw [drive_of_accepted stands.sound.toLayered accepted]
    -- The scope of the key is the first owner from here to the end of its body.
    obtain ⟨opened, accepted, nothing, within⟩ := holds.mappingStart split
    rw [drive_of_accepted holds.sound.toLayered accepted]
    obtain ⟨builtBody, last, built, driven, within⟩ :=
      inner separatedBody named.tail.tail.left within fun _ _ _ => nothing
    rw [drive_append_ok driven]
    obtain ⟨after, accepted, nothing, stands⟩ := within.keyedEnd
    rw [List.head?_cons] at built
    rw [drive_of_accepted within.sound.toLayered accepted, buildBody_nested split, built]
    exact ih separated named.tail.tail.right.tail stands fun _ _ _ => nothing
  | bare body rest inner ih =>
    obtain ⟨separatedBody, separated, -⟩ := separated
    rw [bodyEvents_bare] at named ⊢
    obtain ⟨opened, accepted, nothing, within⟩ := stands.mappingStart (clear _ rfl rfl)
    rw [drive_of_accepted stands.sound.toLayered accepted]
    obtain ⟨builtBody, last, built, driven, within⟩ :=
      inner separatedBody named.tail.left within fun _ _ _ => nothing
    rw [drive_append_ok driven]
    obtain ⟨after, accepted, nothing, stands⟩ := within.bareEnd
    rw [drive_of_accepted within.sound.toLayered accepted, buildBody_bare, built]
    exact ih separated named.tail.right.tail stands fun _ _ _ => nothing

theorem stands_of_documentStart (engine : Engine) :
    Engine.Stands { initial with phase := .active, scopes := engine.scopes.clear } .empty [] [] :=
  ⟨⟨⟨rfl, nofun, nofun⟩, fun _ => nofun, fun _ => nofun⟩, rfl, rfl, rfl, rfl, rfl⟩

/-- At the end of a document an engine is like a fresh one, but for the graph and for how
deep it has been. -/
theorem Stands.documentEnd (stands : engine.Stands draft [] []) :
    ∃ deepest, Accepted engine .documentEnd
      { initial.withDraft draft with scopes := ⟨[], deepest⟩ } := by
  have accepted := Accepted.documentEnd stands.active stands.noList stands.mappings_eq
  have scopes : engine.scopes = ⟨[], engine.scopes.deepest⟩ := by
    rw [← stands.owners_eq]
  have last : ({ engine.settled with phase := .idle } : Engine) =
      { initial.withDraft draft with scopes := ⟨[], engine.scopes.deepest⟩ } := by
    simp only [← stands.draft_eq, settled_scopes, settled_mappings, settled_listOpen,
      settled_held stands.sound.named, stands.mappings_eq, stands.noList, ← scopes]
    rfl
  exact ⟨engine.scopes.deepest, last ▸ accepted⟩

/-- The three parts of a document, fed to an engine without one. -/
theorem drive_document {body : List Entry} (separated : Separated body)
    (named : Named (bodyEvents body)) (closed : engine.phase ≠ .active) :
    ∃ draft opened filled deepest, build body = .ok draft ∧
      Accepted engine .documentStart opened ∧ opened.Sound ∧
      opened.drive (bodyEvents body) = .ok filled ∧ filled.Sound ∧
      Accepted filled .documentEnd { initial.withDraft draft with scopes := ⟨[], deepest⟩ } := by
  have start := stands_of_documentStart engine
  obtain ⟨draft, filled, built, driven, stands⟩ :=
    drive_body body separated named start fun _ _ _ => rfl
  obtain ⟨deepest, accepted⟩ := stands.documentEnd
  exact ⟨draft, _, filled, deepest, built, .documentStart closed, start.sound, driven,
    stands.sound, accepted⟩

/-- Whatever came before, and whether the store was taken or not, the events of a body are
accepted as a document, and the graph is the one that the builder gives. -/
theorem document_refines_build {body : List Entry} (separated : Separated body)
    (named : Named (bodyEvents body)) :
    ∃ draft, build body = .ok draft ∧
      (∀ engine, Reached (fun _ => True) engine → engine.Closed →
        ∃ deepest, engine.drive (documentEvents body) =
          .ok { initial with
            store := draft.store, globals := draft.globals, scopes := ⟨[], deepest⟩ }) ∧
      compile (documentEvents body) = .ok [Project.ofStore draft.store] := by
  have fresh : initial.phase ≠ .active := nofun
  obtain ⟨draft, opened, filled, deepest, built, starts, openedSound, driven, filledSound, ends⟩ :=
    drive_document separated named fresh
  refine ⟨draft, built, ?_, ?_⟩
  · intro engine reached closed
    obtain ⟨other, opened, filled, deepest, same, starts, -, driven, filledSound, ends⟩ :=
      drive_document separated named closed.not_active
    rw [built] at same
    cases same
    refine ⟨deepest, ?_⟩
    rw [documentEvents, List.cons_append, drive_of_accepted reached.layered starts,
      drive_append_ok driven, drive_of_accepted filledSound.toLayered ends]
    rfl
  · rw [compile, documentEvents, List.cons_append, compileFrom,
      feed_of_accepted Layered.initial starts]
    simp only [Event.progress]
    rw [compileFrom_append openedSound.toLayered (documentEnd_not_mem_bodyEvents body) driven,
      compileFrom, feed_of_accepted filledSound.toLayered ends]
    rfl

/-- A list names a sibling of its owner, and a global name that is declared later on. -/
theorem document_refines_build_siblings :
    let body : List Entry :=
      [.nested "app" [.leaf "core", .list "gui*" ["core", "log"]], .bare [.leaf "log"]]
    compile (documentEvents body) =
      .ok [Project.ofStore
        ⟨[⟨0, "app", .executable, none, [1, 2], true⟩, ⟨1, "core", .library, none, [], true⟩,
          ⟨2, "gui", .executable, some .executable, [1, 3], true⟩,
          ⟨3, "log", .library, none, [], true⟩]⟩] := by
  intro body
  have separated : Separated body := by
    simp [body, Separated, Entry.Separated, Entry.isLeaf, Entry.isBare]
  have named : Named (bodyEvents body) := by
    intro raw member
    simp only [body, bodyEvents, Entry.events, List.map, List.cons_append, List.nil_append,
      List.append_nil, List.mem_cons, Event.scalar.injEq, List.not_mem_nil, reduceCtorEq,
      false_or, or_false] at member
    obtain rfl | rfl | rfl | rfl | rfl | rfl := member <;> exact ⟨_, rfl⟩
  obtain ⟨draft, built, -, compiled⟩ := document_refines_build separated named
  -- The builder runs on a tree, so its graph is found by computation.
  obtain rfl := Except.ok.inj (built.symm.trans (show build body = .ok _ from rfl))
  exact compiled

end BuildGraph.Engine

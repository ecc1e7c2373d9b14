import BuildGraph.Proofs.Draft.Moves
import BuildGraph.Proofs.Outline

/-! A body as a list of steps.

What a reader of a document does to its draft can be written down without the draft: it reads a
key, opens a scope with a key, closes a scope or reads a list entry. So bodies that are put
together differently are compared step by step.
-/

set_option autoImplicit false

namespace BuildGraph

open Outline

structure Reader where
  draft : Draft
  owners : List TargetId

namespace Reader

inductive Step where
  | key (name : TargetName)
  | enter (name : TargetName)
  | leave
  | entry (name : TargetName)
  deriving DecidableEq, Repr

def Step.name? : Step → Option TargetName
  | key name => some name
  | enter name => some name
  | leave => none
  | entry name => some name

def namesOf (steps : List Step) : List TargetName := steps.filterMap Step.name?

def read (reader : Reader) : Step → Reader
  | .key name => ⟨(reader.draft.declare reader.owners.head? name).1, reader.owners⟩
  | .enter name =>
    ⟨(reader.draft.declare reader.owners.head? name).1,
      (reader.draft.declare reader.owners.head? name).2 :: reader.owners⟩
  | .leave => ⟨reader.draft, reader.owners.tail⟩
  | .entry name =>
    match reader.owners with
    | [] => reader
    | owner :: outer => ⟨reader.draft.addEntry outer.head? owner name, reader.owners⟩

def readAll (reader : Reader) (steps : List Step) : Reader := steps.foldl read reader

variable {reader : Reader} {step : Step} {steps front back : List Step} {name : TargetName}

theorem readAll_cons (reader : Reader) (step : Step) (steps : List Step) :
    reader.readAll (step :: steps) = (reader.read step).readAll steps := rfl

@[simp] theorem readAll_append (reader : Reader) (front back : List Step) :
    reader.readAll (front ++ back) = (reader.readAll front).readAll back :=
  List.foldl_append

theorem forall_namesOf_cons {p : TargetName → Prop} :
    (∀ name ∈ namesOf (step :: steps), p name) ↔
      (∀ name, step.name? = some name → p name) ∧ ∀ name ∈ namesOf steps, p name := by
  simp only [namesOf, List.filterMap_cons]
  cases step.name? <;> simp

@[simp] theorem namesOf_append : namesOf (front ++ back) = namesOf front ++ namesOf back :=
  List.filterMap_append

theorem namesOf_concat_leave (steps : List Step) : namesOf (steps ++ [.leave]) = namesOf steps := by
  rw [namesOf_append]
  exact List.append_nil _

theorem namesOf_map_entry (entries : List TargetName) : namesOf (entries.map .entry) = entries := by
  rw [namesOf, List.filterMap_map]
  exact List.filterMap_some

/-! ## What every step keeps -/

def size (reader : Reader) : Nat := reader.draft.store.size

theorem size_le_read (reader : Reader) (step : Step) : reader.size ≤ (reader.read step).size := by
  obtain ⟨draft, owners⟩ := reader
  cases step with
  | key name => exact draft.size_le_declare owners.head? name
  | enter name => exact draft.size_le_declare owners.head? name
  | leave => exact Nat.le_refl _
  | entry name =>
    cases owners with
    | nil => exact Nat.le_refl _
    | cons owner outer => exact draft.size_le_addEntry outer.head? owner name

theorem size_le_readAll (reader : Reader) (steps : List Step) :
    reader.size ≤ (reader.readAll steps).size := by
  induction steps generalizing reader with
  | nil => exact Nat.le_refl _
  | cons step steps ih => exact Nat.le_trans (size_le_read reader step) (ih _)

structure Sound (reader : Reader) : Prop where
  built : reader.draft.store.Built
  grounded : reader.draft.Grounded
  live : ∀ owner ∈ reader.owners, owner < reader.size

theorem Sound.empty : Sound ⟨.empty, []⟩ := ⟨.empty, nofun, nofun⟩

theorem Sound.head_live (sound : reader.Sound) : reader.draft.Live reader.owners.head? :=
  fun owner first => sound.live owner (List.mem_of_head? first)

theorem Sound.declare (sound : reader.Sound)
    (spelled : ∃ raw, TargetName.ofString raw = .ok name) :
    Sound ⟨(reader.draft.declare reader.owners.head? name).1, reader.owners⟩ := by
  obtain ⟨raw, named⟩ := spelled
  refine ⟨Draft.declare_built sound.built named sound.head_live, sound.grounded.declare, ?_⟩
  intro owner member
  exact Nat.lt_of_lt_of_le (sound.live owner member) (Draft.size_le_declare _ _ _)

theorem Sound.read (sound : reader.Sound)
    (spelled : ∀ name, step.name? = some name → ∃ raw, TargetName.ofString raw = .ok name) :
    (reader.read step).Sound := by
  cases step with
  | key name => exact sound.declare (spelled name rfl)
  | enter name =>
    obtain ⟨built, grounded, live⟩ := sound.declare (spelled name rfl)
    exact ⟨built, grounded, List.forall_mem_cons.mpr ⟨Draft.declare_lt _ _ _, live⟩⟩
  | leave =>
    exact ⟨sound.built, sound.grounded,
      fun owner member => sound.live owner (List.mem_of_mem_tail member)⟩
  | entry name =>
    obtain ⟨raw, named⟩ := spelled name rfl
    obtain ⟨draft, owners⟩ := reader
    cases owners with
    | nil => exact sound
    | cons owner outer =>
      have placed : (draft.placeEntry outer.head? name).1.store.Built :=
        Draft.placeEntry_built sound.built named
      have held := Nat.lt_of_lt_of_le (sound.live owner List.mem_cons_self)
        (draft.size_le_placeEntry outer.head? name)
      refine ⟨placed.attach held (Draft.placeEntry_lt _ _ _), sound.grounded.addEntry, ?_⟩
      intro other member
      exact Nat.lt_of_lt_of_le (sound.live other member) (Draft.size_le_addEntry _ _ _ _)

theorem Sound.readAll (sound : reader.Sound)
    (spelled : ∀ name ∈ namesOf steps, ∃ raw, TargetName.ofString raw = .ok name) :
    (reader.readAll steps).Sound := by
  induction steps generalizing reader with
  | nil => exact sound
  | cons step steps ih =>
    obtain ⟨first, spelled⟩ := forall_namesOf_cons.mp spelled
    exact ih (sound.read first) spelled

end Reader

/-! ## The steps of a body -/

namespace Outline

open Reader

variable {body rest : List Entry} {steps more : List Step} {key : String} {name : TargetName}

theorem bodyEvents_eq_flatMap (body : List Entry) :
    bodyEvents body = body.flatMap Entry.events := by
  induction body with
  | nil => rfl
  | cons entry body ih => rw [bodyEvents, ih, List.flatMap_cons]

theorem bodyEvents_append (body rest : List Entry) :
    bodyEvents (body ++ rest) = bodyEvents body ++ bodyEvents rest := by
  simp only [bodyEvents_eq_flatMap, List.flatMap_append]

theorem buildBody_append (draft : Draft) (scope : Option TargetId) (body rest : List Entry) :
    buildBody draft scope (body ++ rest) =
      buildBody draft scope body >>= fun inner => buildBody inner scope rest := by
  induction body generalizing draft with
  | nil => rfl
  | cons entry body ih =>
    rw [List.cons_append, buildBody, buildBody]
    cases buildEntry draft scope entry with
    | error cause => rfl
    | ok inner => exact ih inner

/-- The steps build what the body stands for, and read only names of the body. -/
structure Reads (body : List Entry) (steps : List Step) : Prop where
  build : ∀ draft owners, ∃ built, buildBody draft owners.head? body = .ok built ∧
    readAll ⟨draft, owners⟩ steps = ⟨built, owners⟩
  mentions : ∀ name ∈ namesOf steps,
    ∃ raw, .scalar raw ∈ bodyEvents body ∧ TargetName.ofString raw = .ok name

namespace Reads

theorem owners (reads : Reads body steps) (reader : Reader) :
    (reader.readAll steps).owners = reader.owners := by
  obtain ⟨built, -, read⟩ := reads.build reader.draft reader.owners
  rw [show reader.readAll steps = ⟨built, reader.owners⟩ from read]

theorem spelled (reads : Reads body steps) :
    ∀ name ∈ namesOf steps, ∃ raw, TargetName.ofString raw = .ok name := by
  intro name member
  obtain ⟨raw, -, named⟩ := reads.mentions name member
  exact ⟨raw, named⟩

theorem nil : Reads [] [] := ⟨fun draft _ => ⟨draft, rfl, rfl⟩, nofun⟩

theorem append (first : Reads body steps) (second : Reads rest more) :
    Reads (body ++ rest) (steps ++ more) where
  build := by
    intro draft owners
    obtain ⟨middle, built, read⟩ := first.build draft owners
    obtain ⟨last, builtRest, readRest⟩ := second.build middle owners
    refine ⟨last, ?_, ?_⟩
    · rw [buildBody_append, built]
      exact builtRest
    · rw [readAll_append, read, readRest]
  mentions := by
    intro name member
    rw [bodyEvents_append]
    rw [namesOf_append] at member
    obtain member | member := List.mem_append.mp member
    · obtain ⟨raw, listed, named⟩ := first.mentions name member
      exact ⟨raw, List.mem_append_left _ listed, named⟩
    · obtain ⟨raw, listed, named⟩ := second.mentions name member
      exact ⟨raw, List.mem_append_right _ listed, named⟩

theorem leaf (split : TargetName.ofString key = .ok name) : Reads [.leaf key] [.key name] where
  build := fun _ _ => ⟨_, buildBody_leaf split, rfl⟩
  mentions := List.forall_mem_singleton.mpr ⟨key, List.mem_cons_self, split⟩

/-- Reading a body leaves the open scopes as they were, so it fits between the two steps that open
and close the scope of a key. -/
theorem nested (split : TargetName.ofString key = .ok name) (reads : Reads body steps) :
    Reads [.nested key body] (.enter name :: (steps ++ [.leave])) where
  build := by
    intro draft owners
    obtain ⟨built, within, read⟩ := reads.build (draft.declare owners.head? name).1
      ((draft.declare owners.head? name).2 :: owners)
    refine ⟨built, ?_, ?_⟩
    · rw [List.head?_cons] at within
      rw [buildBody_nested split, within]
      rfl
    · rw [readAll_cons, readAll_append, Reader.read, read]
      rfl
  mentions := by
    rw [bodyEvents_nested]
    refine List.forall_mem_cons.mpr ⟨⟨key, List.mem_cons_self, split⟩, fun other member => ?_⟩
    rw [← namesOf, namesOf_concat_leave] at member
    obtain ⟨raw, listed, named⟩ := reads.mentions other member
    exact ⟨raw, by simp [listed], named⟩

theorem bare (reads : Reads body steps) : Reads [.bare body] steps where
  build := by
    intro draft owners
    obtain ⟨built, within, read⟩ := reads.build draft owners
    refine ⟨built, ?_, read⟩
    rw [buildBody_bare, within]
    rfl
  mentions := by
    intro name member
    obtain ⟨raw, listed, named⟩ := reads.mentions name member
    rw [bodyEvents_bare]
    exact ⟨raw, by simp [listed], named⟩

end Reads

theorem exists_entries {raws : List String} (named : Named (raws.map .scalar)) :
    ∃ entries : List TargetName,
      (∀ draft owner outer, ∃ built, buildNames draft outer.head? owner raws = .ok built ∧
        readAll ⟨draft, owner :: outer⟩ (entries.map .entry) = ⟨built, owner :: outer⟩) ∧
      ∀ name ∈ entries, ∃ raw ∈ raws, TargetName.ofString raw = .ok name := by
  induction raws with
  | nil => exact ⟨[], fun draft owner outer => ⟨draft, rfl, rfl⟩, nofun⟩
  | cons raw rest ih =>
    obtain ⟨name, split⟩ := named.head
    obtain ⟨entries, build, mentions⟩ := ih named.tail
    refine ⟨name :: entries, ?_, ?_⟩
    · intro draft owner outer
      obtain ⟨built, buildRest, read⟩ := build (draft.addEntry outer.head? owner name) owner outer
      refine ⟨built, ?_, read⟩
      rw [buildNames, split]
      exact buildRest
    · refine List.forall_mem_cons.mpr ⟨⟨raw, List.mem_cons_self, split⟩, fun other member => ?_⟩
      obtain ⟨rawOther, listed, splitOther⟩ := mentions other member
      exact ⟨rawOther, List.mem_cons_of_mem _ listed, splitOther⟩

theorem Reads.list {raws : List String} (split : TargetName.ofString key = .ok name)
    (named : Named (raws.map .scalar)) : ∃ steps, Reads [.list key raws] steps := by
  obtain ⟨entries, build, mentions⟩ := exists_entries named
  refine ⟨.enter name :: (entries.map .entry ++ [.leave]), ?_, ?_⟩
  · intro draft owners
    obtain ⟨built, within, read⟩ := build (draft.declare owners.head? name).1
      (draft.declare owners.head? name).2 owners
    refine ⟨built, ?_, ?_⟩
    · rw [buildBody_list split, within]
      rfl
    · rw [readAll_cons, readAll_append, Reader.read, read]
      rfl
  · rw [bodyEvents_list]
    refine List.forall_mem_cons.mpr ⟨⟨key, List.mem_cons_self, split⟩, fun other member => ?_⟩
    rw [← namesOf, namesOf_concat_leave, namesOf_map_entry] at member
    obtain ⟨raw, listed, named⟩ := mentions other member
    exact ⟨raw, by simp [listed], named⟩

theorem exists_reads (body : List Entry) (named : Named (bodyEvents body)) :
    ∃ steps, Reads body steps := by
  induction body using Outline.induction with
  | nil => exact ⟨[], .nil⟩
  | leaf key rest ih =>
    rw [bodyEvents_leaf] at named
    obtain ⟨name, split⟩ := named.head
    obtain ⟨more, reads⟩ := ih named.tail
    exact ⟨_, (Reads.leaf split).append reads⟩
  | list key raws rest ih =>
    rw [bodyEvents_list] at named
    obtain ⟨name, split⟩ := named.head
    obtain ⟨steps, first⟩ := Reads.list split named.tail.tail.left
    obtain ⟨more, reads⟩ := ih named.tail.tail.right.tail
    exact ⟨_, first.append reads⟩
  | nested key body rest inner ih =>
    rw [bodyEvents_nested] at named
    obtain ⟨name, split⟩ := named.head
    obtain ⟨steps, within⟩ := inner named.tail.tail.left
    obtain ⟨more, reads⟩ := ih named.tail.tail.right.tail
    exact ⟨_, (Reads.nested split within).append reads⟩
  | bare body rest inner ih =>
    rw [bodyEvents_bare] at named
    obtain ⟨steps, within⟩ := inner named.tail.left
    obtain ⟨more, reads⟩ := ih named.tail.right.tail
    exact ⟨_, within.bare.append reads⟩

end Outline

end BuildGraph

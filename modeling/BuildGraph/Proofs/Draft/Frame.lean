import BuildGraph.Proofs.Draft.Mirror

/-! What reading does not touch.

A step changes the target that it reads, the owner of the innermost scope, and the global names.
All of this goes by names that have been read, so a draft goes on to say the same about the others.
-/

set_option autoImplicit false

namespace BuildGraph

namespace Draft

variable {draft other : Draft} {σ : Equiv.Perm TargetId} {names kept : String → Bool}
  {scope outer : Option TargetId} {name : TargetName} {id owner : TargetId} {cleaned : String}

/-! ## Names -/

theorem name?_orCreate (held : draft.store.name? id = some cleaned) (found : Option TargetId) :
    (draft.orCreate scope name found).1.store.name? id = some cleaned := by
  cases found with
  | some other => exact held
  | none =>
    obtain ⟨target, known, -⟩ := Option.map_eq_some_iff.mp held
    rw [orCreate, create_name?, Store.name?_push_of_lt (Store.lt_of_get? known), held]

theorem name?_orCreate_self {found : Option TargetId}
    (named : ∀ id, found = some id → draft.store.name? id = some name.cleaned) :
    (draft.orCreate scope name found).1.store.name? (draft.orCreate scope name found).2 =
      some name.cleaned := by
  cases found with
  | some id => exact named id rfl
  | none => rw [orCreate, create_name?, Store.name?_push_self]

theorem name?_of_resolve (found : draft.resolve outer name = some id) :
    draft.store.name? id = some name.cleaned := by
  obtain sibling | ⟨-, global⟩ := Option.or_eq_some_iff.mp found
  · exact (Store.name?_of_find? sibling).2
  · exact (Store.name?_of_find? global).2

theorem name?_place_self : (draft.place scope name).1.store.name? (draft.place scope name).2 =
    some name.cleaned := by
  rw [place_eq_orCreate]
  exact name?_orCreate_self fun id found => (Store.name?_of_find? found).2

theorem name?_placeEntry_self :
    (draft.placeEntry outer name).1.store.name? (draft.placeEntry outer name).2 =
      some name.cleaned := by
  rw [placeEntry_eq_orCreate]
  exact name?_orCreate_self fun id found => name?_of_resolve found

theorem name?_declare (held : draft.store.name? id = some cleaned) :
    (draft.declare scope name).1.store.name? id = some cleaned := by
  simp only [declare, Store.name?_declare, place_eq_orCreate]
  exact name?_orCreate held _

theorem name?_declare_self : (draft.declare scope name).1.store.name? (draft.declare scope name).2 =
    some name.cleaned := by
  simpa [declare] using name?_place_self

theorem name?_addEntry (held : draft.store.name? id = some cleaned) :
    (draft.addEntry outer owner name).store.name? id = some cleaned := by
  simp only [addEntry, enlist, Store.name?_attach, placeEntry_eq_orCreate]
  exact name?_orCreate held _

/-! ## One draft -/

abbrev Keeps (kept : String → Bool) (draft later : Draft) : Prop :=
  Mirrors (Equiv.refl TargetId) kept draft later

namespace Keeps

variable {later last : Draft}

theorem intro (targets : ∀ id, later.store.among kept id = draft.store.among kept id)
    (globals : ∀ cleaned, kept cleaned = true → later.store.find? later.globals cleaned =
      draft.store.find? draft.globals cleaned) : Keeps kept draft later where
  targets := by simpa using targets
  globals := by simpa using globals

theorem refl (draft : Draft) : Keeps kept draft draft := intro (fun _ => rfl) fun _ _ => rfl

theorem trans (first : Keeps kept draft later) (second : Keeps kept later last) :
    Keeps kept draft last :=
  Mirrors.trans first second

theorem symm (keeps : Keeps kept draft later) : Keeps kept later draft :=
  Mirrors.symm keeps

theorem before (keeps : Keeps kept draft later) (mirrors : Mirrors σ kept later last) :
    Mirrors σ kept draft last :=
  Mirrors.trans keeps mirrors

theorem after (keeps : Keeps kept later last) (mirrors : Mirrors σ kept draft later) :
    Mirrors σ kept draft last :=
  Mirrors.trans mirrors keeps

theorem among_eq (keeps : Keeps kept draft later) (id : TargetId) :
    later.store.among kept id = draft.store.among kept id := by
  simpa using keeps.targets id

theorem modify {change : Target → Target} (same : ∀ target, (change target).name = target.name)
    (unseen : draft.store.among kept id = none) :
    Keeps kept draft { draft with store := draft.store.modify id change } := by
  refine intro (fun other => ?_) fun cleaned _ => Store.find?_modify same
  rw [Store.among_modify same]
  split
  · next touched => rw [← touched, unseen, Option.map_none]
  · rfl

theorem push (grounded : draft.Grounded) (unlike : kept name.cleaned = false) :
    Keeps kept draft { draft with store := draft.store.push name } := by
  refine intro (fun other => ?_) fun cleaned _ => Store.find?_push grounded
  rw [Store.among_push]
  split
  · next new =>
    rw [new, Store.among_of_le (Nat.le_refl _), Option.filter_some]
    simp [Target.ofName, unlike]
  · rfl

theorem enlist (unseen : draft.store.among kept id = none)
    (within : ∀ owner, scope = some owner → draft.store.among kept owner = none) :
    Keeps kept draft (draft.enlist scope id) := by
  cases scope with
  | none =>
    refine intro (fun _ => rfl) fun cleaned named => ?_
    -- The new global name is found in no search for what is kept.
    have alone : draft.store.find? [id] cleaned = none := by
      rw [Store.find?, List.find?_singleton, ← Store.any_among named, unseen]
      rfl
    rw [Draft.enlist, Store.find?_append, alone, Option.or_none]
  | some owner =>
    have extended : Keeps kept draft
        { draft with store := draft.store.modify owner (·.withDependency id) } :=
      modify (fun _ => rfl) (within owner rfl)
    exact extended.trans (modify Store.name_linkAsLibrary (by rw [extended.among_eq, unseen]))

theorem create (grounded : draft.Grounded) (unlike : kept name.cleaned = false)
    (within : ∀ owner, scope = some owner → draft.store.among kept owner = none) :
    Keeps kept draft (draft.create scope name) := by
  have pushed : Keeps kept draft { draft with store := draft.store.push name } :=
    push grounded unlike
  have new : (draft.store.push name).among kept draft.store.size = none :=
    Store.among_eq_none Store.name?_push_self unlike
  refine pushed.trans (enlist new fun owner first => ?_)
  rw [pushed.among_eq, within owner first]

theorem orCreate (grounded : draft.Grounded) (unlike : kept name.cleaned = false)
    (scope found : Option TargetId)
    (within : ∀ owner, scope = some owner → draft.store.among kept owner = none) :
    Keeps kept draft (draft.orCreate scope name found).1 := by
  cases found with
  | some id => exact refl draft
  | none => exact create grounded unlike within

theorem declare (grounded : draft.Grounded) (unlike : kept name.cleaned = false)
    (within : ∀ owner, scope = some owner → draft.store.among kept owner = none) :
    Keeps kept draft (draft.declare scope name).1 := by
  have placed : Keeps kept draft (draft.place scope name).1 := by
    rw [place_eq_orCreate]
    exact orCreate grounded unlike scope _ within
  exact placed.trans (modify (fun _ => rfl) (Store.among_eq_none name?_place_self unlike))

theorem addEntry (grounded : draft.Grounded) (unlike : kept name.cleaned = false)
    (within : draft.store.among kept owner = none) :
    Keeps kept draft (draft.addEntry outer owner name) := by
  have placed : Keeps kept draft (draft.placeEntry outer name).1 := by
    rw [placeEntry_eq_orCreate]
    exact orCreate grounded unlike none _ nofun
  show Keeps kept draft
    ((draft.placeEntry outer name).1.enlist (some owner) (draft.placeEntry outer name).2)
  refine placed.trans (enlist (Store.among_eq_none name?_placeEntry_self unlike) ?_)
  rintro _ ⟨⟩
  rw [placed.among_eq, within]

end Keeps

end Draft

/-! ## Readers -/

namespace Reader

open Draft

variable {reader other : Reader} {σ : Equiv.Perm TargetId} {names kept : String → Bool}
  {step : Step} {steps : List Step}

def Within (names : String → Bool) (reader : Reader) : Prop :=
  ∀ owner ∈ reader.owners, reader.draft.store.NamedIn names owner

theorem Within.scope (within : reader.Within names) :
    Draft.Within names reader.draft reader.owners.head? :=
  fun owner first => within owner (List.mem_of_head? first)

theorem Within.unseen (within : reader.Within fun cleaned => !kept cleaned) :
    ∀ owner ∈ reader.owners, reader.draft.store.among kept owner = none := by
  intro owner member
  obtain ⟨cleaned, held, unlike⟩ := within owner member
  exact Store.among_eq_none held (by simpa using unlike)

theorem Within.read (within : reader.Within names)
    (named : ∀ name, step.name? = some name → names name.cleaned = true) :
    (reader.read step).Within names := by
  obtain ⟨draft, owners⟩ := reader
  have still : ∀ name, ∀ owner ∈ owners,
      (draft.declare owners.head? name).1.store.NamedIn names owner := by
    intro name owner member
    obtain ⟨cleaned, held, named⟩ := within owner member
    exact ⟨cleaned, name?_declare held, named⟩
  cases step with
  | key name => exact still name
  | enter name =>
    -- The new owner has the name that was just read.
    exact List.forall_mem_cons.mpr ⟨⟨_, name?_declare_self, named name rfl⟩, still name⟩
  | leave => exact fun owner member => within owner (List.mem_of_mem_tail member)
  | entry name =>
    cases owners with
    | nil => exact within
    | cons owner outer =>
      intro first member
      obtain ⟨cleaned, held, named⟩ := within first member
      exact ⟨cleaned, name?_addEntry held, named⟩

/-! ## One reader -/

theorem keeps_read (sound : reader.Sound) (within : reader.Within fun cleaned => !kept cleaned)
    (unlike : ∀ name, step.name? = some name → kept name.cleaned = false) :
    Keeps kept reader.draft (reader.read step).draft := by
  have unseen := within.unseen
  obtain ⟨draft, owners⟩ := reader
  have first : ∀ owner, owners.head? = some owner → draft.store.among kept owner = none :=
    fun owner head => unseen owner (List.mem_of_head? head)
  cases step with
  | key name => exact .declare sound.grounded (unlike name rfl) first
  | enter name => exact .declare sound.grounded (unlike name rfl) first
  | leave => exact .refl draft
  | entry name =>
    cases owners with
    | nil => exact .refl draft
    | cons owner outer =>
      exact .addEntry sound.grounded (unlike name rfl) (unseen owner List.mem_cons_self)

theorem keeps_readAll (sound : reader.Sound) (within : reader.Within fun cleaned => !kept cleaned)
    (spelled : ∀ name ∈ namesOf steps, ∃ raw, TargetName.ofString raw = .ok name)
    (unlike : ∀ name ∈ namesOf steps, kept name.cleaned = false) :
    Keeps kept reader.draft (reader.readAll steps).draft := by
  induction steps generalizing reader with
  | nil => exact .refl reader.draft
  | cons step steps ih =>
    obtain ⟨spelledFirst, spelled⟩ := forall_namesOf_cons.mp spelled
    obtain ⟨unlikeFirst, unlike⟩ := forall_namesOf_cons.mp unlike
    have inside := within.read fun name read => by simpa using unlikeFirst name read
    exact (keeps_read sound within unlikeFirst).trans
      (ih (sound.read spelledFirst) inside spelled unlike)

/-! ## Two readers -/

/-- Two readers that have open scopes in the same places and agree on the names of their owners
and on all that is still to be read. -/
structure Mirrors (σ : Equiv.Perm TargetId) (names : String → Bool) (reader other : Reader) :
    Prop where
  drafts : Draft.Mirrors σ names reader.draft other.draft
  owners : other.owners = reader.owners.map σ
  within : reader.Within names
  sound : reader.Sound
  soundToo : other.Sound

namespace Mirrors

theorem read (mirrors : Mirrors σ names reader other)
    (spelled : ∀ name, step.name? = some name → ∃ raw, TargetName.ofString raw = .ok name)
    (named : ∀ name, step.name? = some name → names name.cleaned = true)
    (fresh : reader.size < (reader.read step).size → σ reader.size = other.size) :
    Mirrors σ names (reader.read step) (other.read step) ∧
      (other.read step).size + reader.size = (reader.read step).size + other.size := by
  obtain ⟨drafts, owners, within, sound, soundToo⟩ := mirrors
  have scope : other.owners.head? = reader.owners.head?.map σ := by rw [owners, List.head?_map]
  have kept := within.read named
  have soundNext := sound.read spelled
  have soundTooNext := soundToo.read spelled
  cases step with
  | key name =>
    obtain ⟨next, -, grown⟩ := drafts.declare sound.grounded soundToo.grounded (named name rfl)
      within.scope fresh
    rw [← scope] at next grown
    exact ⟨⟨next, owners, kept, soundNext, soundTooNext⟩, grown⟩
  | enter name =>
    obtain ⟨next, number, grown⟩ := drafts.declare sound.grounded soundToo.grounded
      (named name rfl) within.scope fresh
    rw [← scope] at next number grown
    refine ⟨⟨next, ?_, kept, soundNext, soundTooNext⟩, grown⟩
    rw [Reader.read, Reader.read, owners, List.map_cons, ← number, owners]
  | leave =>
    refine ⟨⟨drafts, ?_, kept, soundNext, soundTooNext⟩, Nat.add_comm _ _⟩
    rw [Reader.read, Reader.read, owners, List.map_tail]
  | entry name =>
    obtain ⟨draft, ownersFirst⟩ := reader
    obtain ⟨draftToo, _⟩ := other
    subst owners
    cases ownersFirst with
    | nil => exact ⟨⟨drafts, rfl, kept, soundNext, soundTooNext⟩, Nat.add_comm _ _⟩
    | cons owner outer =>
      have around : Draft.Within names draft outer.head? := fun parent first =>
        within parent (List.mem_cons_of_mem _ (List.mem_of_head? first))
      obtain ⟨next, grown⟩ := drafts.addEntry sound.grounded soundToo.grounded (named name rfl)
        around owner fresh
      rw [← List.head?_map] at next grown
      exact ⟨⟨next, rfl, kept, soundNext, soundTooNext⟩, grown⟩

/-- Two readers go on to mirror each other if the new targets have the same place in the mirror
as in the second draft. -/
theorem readAll (mirrors : Mirrors σ names reader other)
    (spelled : ∀ name ∈ namesOf steps, ∃ raw, TargetName.ofString raw = .ok name)
    (named : ∀ name ∈ namesOf steps, names name.cleaned = true)
    (fresh : ∀ count, reader.size + count < (reader.readAll steps).size →
      σ (reader.size + count) = other.size + count) :
    Mirrors σ names (reader.readAll steps) (other.readAll steps) ∧
      (other.readAll steps).size + reader.size = (reader.readAll steps).size + other.size := by
  -- The numbers count on from where a step has left them, so both readers move on together.
  induction steps generalizing reader other with
  | nil => exact ⟨mirrors, Nat.add_comm _ _⟩
  | cons step steps ih =>
    obtain ⟨spelledFirst, spelled⟩ := forall_namesOf_cons.mp spelled
    obtain ⟨namedFirst, named⟩ := forall_namesOf_cons.mp named
    rw [readAll_cons] at fresh
    have least := size_le_read reader step
    have most := size_le_readAll (reader.read step) steps
    obtain ⟨next, grown⟩ := mirrors.read spelledFirst namedFirst fun new => fresh 0 (by omega)
    have freshLast : ∀ count, (reader.read step).size + count <
        ((reader.read step).readAll steps).size →
          σ ((reader.read step).size + count) = (other.read step).size + count := by
      intro count held
      -- Counted from the start, the new target comes after those of the first step.
      obtain ⟨made, size⟩ := Nat.exists_eq_add_of_le least
      have sizeToo : (other.read step).size = other.size + made := by omega
      rw [size, Nat.add_assoc, fresh (made + count) (by omega), sizeToo, Nat.add_assoc]
    obtain ⟨last, grownLast⟩ := ih next spelled named freshLast
    exact ⟨last, by rw [readAll_cons, readAll_cons]; omega⟩

end Mirrors

end Reader

end BuildGraph

import BuildGraph.Proofs.Draft
import BuildGraph.Proofs.Store.Graph

/-! Targets stay inside the scope that they were created in.

Beside the graph stands a record of where each target was created. A list entry can reach a
target of an enclosing scope, so a target may be listed deep below its creator, but the way
there always starts at the creator. That the scopes which are open lie in each other is what
keeps it so.
-/

set_option autoImplicit false

namespace BuildGraph

/-! ## Records of creators -/

/-- For each target, in the order of creation, the owner of the scope that it was created in. A
global target has none. -/
abbrev Creators := List (Option TargetId)

namespace Creators

variable {creators : Creators} {scope : Option TargetId} {id creator : TargetId}

def of (creators : Creators) (id : TargetId) : Option TargetId := creators[id]?.join

def record (creators : Creators) (before after : Store) (scope : Option TargetId) : Creators :=
  if before.size < after.size then creators ++ [scope] else creators

theorem record_self (store : Store) : creators.record store store scope = creators :=
  if_neg (Nat.lt_irrefl _)

theorem lt_of_of (created : creators.of id = some creator) : id < creators.length := by
  have listed : creators[id]? = some (some creator) := Option.join_eq_some_iff.mp created
  exact (List.getElem?_eq_some_iff.mp listed).1

theorem of_length : (creators ++ [scope]).of creators.length = scope := by
  simp [of]

theorem of_append_of_lt (held : id < creators.length) :
    (creators ++ [scope]).of id = creators.of id := by
  simp [of, List.getElem?_append_left held]

theorem of_append_eq_some :
    (creators ++ [scope]).of id = some creator ↔
      creators.of id = some creator ∨ id = creators.length ∧ scope = some creator := by
  obtain held | rfl | beyond := Nat.lt_trichotomy id creators.length
  · simp [of_append_of_lt held, Nat.ne_of_lt held]
  · have nothing : creators.of creators.length = none := by simp [of]
    simp [of_length, nothing]
  · have unknown : ∀ longer : Creators, longer.length ≤ id → longer.of id = none := by
      intro longer short
      simp [of, List.getElem?_eq_none short]
    rw [unknown _ (Nat.le_of_lt beyond), unknown _ (by simp; omega)]
    simp [Nat.ne_of_gt beyond]

end Creators

namespace Draft

variable {draft later : Draft} {creators : Creators} {scope outer : Option TargetId}
  {name : TargetName} {id other owner creator : TargetId}

/-! ## What a new target changes -/

theorem live_none : draft.Live none :=
  fun _ none => absurd none.symm (Option.some_ne_none _)

theorem create_globals :
    id ∈ (draft.create scope name).globals ↔
      id ∈ draft.globals ∨ scope = none ∧ id = draft.store.size := by
  cases scope <;> simp [create, enlist]

theorem create_dependsOn (live : draft.Live scope) :
    (draft.create scope name).store.DependsOn owner id ↔
      draft.store.DependsOn owner id ∨ scope = some owner ∧ id = draft.store.size := by
  cases scope with
  | none => simp [create, enlist, Store.DependsOn]
  | some parent =>
    have held : parent < (draft.store.push name).size := by
      rw [Store.size_push]
      exact Nat.lt_succ_of_lt (live parent rfl)
    rw [create, enlist, Store.dependsOn_attach held]
    simp [Store.DependsOn, eq_comm]

theorem create_name? :
    (draft.create scope name).store.name? = (draft.store.push name).name? := by
  cases scope <;> simp [create, enlist]

theorem declare_members (draft : Draft) (scope outer : Option TargetId) (name : TargetName) :
    (draft.declare scope name).1.members outer = (draft.place scope name).1.members outer := by
  cases outer <;> simp [declare, members]

/-! ## Growth -/

def Grows (draft later : Draft) : Prop :=
  ∀ scope id, id ∈ draft.members scope → id ∈ later.members scope

theorem Grows.leadsTo (grows : draft.Grows later) (below : draft.store.LeadsTo id other) :
    later.store.LeadsTo id other :=
  Relation.TransGen.mono (fun owner dependency => grows (some owner) dependency) _ _ below

theorem Grows.create (live : draft.Live scope) : draft.Grows (draft.create scope name) := by
  rintro (_ | owner) id listed
  · exact create_globals.mpr (.inl listed)
  · exact (create_dependsOn live).mpr (.inl listed)

theorem Grows.link (held : owner < draft.store.size) :
    draft.Grows (draft.enlist (some owner) id) := by
  rintro (_ | parent) dependency listed
  · exact listed
  · exact (Store.dependsOn_attach held).mpr (.inl listed)

theorem Grows.declare (live : draft.Live scope) : draft.Grows (draft.declare scope name).1 := by
  have placed : draft.Grows (draft.place scope name).1 := by
    unfold place
    split
    · exact fun _ _ listed => listed
    · exact .create live
  intro outer id listed
  rw [declare_members]
  exact placed outer id listed

theorem Grows.addEntry (held : owner < draft.store.size) :
    draft.Grows (draft.addEntry outer owner name) := by
  have heldThen := Nat.lt_of_lt_of_le held (size_le_placeEntry draft outer name)
  have placed : draft.Grows (draft.placeEntry outer name).1 := by
    unfold placeEntry
    split
    · exact fun _ _ listed => listed
    · exact .create live_none
  exact fun scope id listed => Grows.link heldThen scope id (placed scope id listed)

/-! ## Open scopes -/

/-- Each owner was declared in the scope around its own; the innermost one comes first. -/
def Nested (draft : Draft) : List TargetId → Prop
  | [] => True
  | owner :: outer => owner ∈ draft.members outer.head? ∧ draft.Nested outer

theorem Nested.grows {owners : List TargetId} (nested : draft.Nested owners)
    (grows : draft.Grows later) : later.Nested owners := by
  induction owners with
  | nil => trivial
  | cons owner outer ih => exact ⟨grows _ _ nested.1, ih nested.2⟩

theorem declare_mem (live : draft.Live scope) :
    (draft.declare scope name).2 ∈ (draft.declare scope name).1.members scope := by
  rw [declare_members]
  show (draft.place scope name).2 ∈ (draft.place scope name).1.members scope
  unfold place
  split
  · next found => exact (Store.name?_of_find? found).1
  · cases scope with
    | none => exact create_globals.mpr (.inr ⟨rfl, rfl⟩)
    | some owner => exact (create_dependsOn live).mpr (.inr ⟨rfl, rfl⟩)

/-! ## Confinement -/

/-- `recorded` to `distinct` say that the graph is well formed and its global names are in order,
the others what the creator of a target means: it is older, it lists the target, it tells the
target from others of the name, and every target that lists this one is found below it. -/
structure Confined (draft : Draft) (creators : Creators) : Prop where
  recorded : creators.length = draft.store.size
  closed : ∀ {owner id}, draft.store.DependsOn owner id → id < draft.store.size
  grounded : draft.Grounded
  ordered : draft.globals.Pairwise (· < ·)
  distinct : draft.globals.Pairwise fun first second =>
    draft.store.name? first ≠ draft.store.name? second
  global : ∀ {id}, id < draft.store.size → (id ∈ draft.globals ↔ creators.of id = none)
  older : ∀ {id creator}, creators.of id = some creator → creator < id
  listed : ∀ {id creator}, creators.of id = some creator → draft.store.DependsOn creator id
  named : ∀ {id other creator}, creators.of id = some creator → creators.of other = some creator →
    draft.store.name? id = draft.store.name? other → id = other
  inside : ∀ {id creator owner}, creators.of id = some creator → draft.store.DependsOn owner id →
    owner = creator ∨ draft.store.LeadsTo creator owner

theorem Confined.empty : Draft.empty.Confined [] where
  recorded := rfl
  closed := fun edge => absurd edge List.not_mem_nil
  grounded := nofun
  ordered := .nil
  distinct := .nil
  global := nofun
  older := nofun
  listed := nofun
  named := nofun
  inside := nofun

section Create

variable (confined : draft.Confined creators)

include confined

theorem Confined.held (created : creators.of id = some creator) : id < draft.store.size :=
  confined.recorded ▸ Creators.lt_of_of created

theorem Confined.of_create :
    (creators ++ [scope]).of id = some creator ↔
      creators.of id = some creator ∨ id = draft.store.size ∧ scope = some creator := by
  rw [← confined.recorded, Creators.of_append_eq_some]

theorem Confined.ordered_create : (draft.create scope name).globals.Pairwise (· < ·) := by
  cases scope with
  | some owner => exact confined.ordered
  | none =>
    refine List.pairwise_append.mpr ⟨confined.ordered, List.pairwise_singleton _ _, ?_⟩
    intro old member new isNew
    rw [List.mem_singleton.mp isNew]
    exact confined.grounded old member

theorem Confined.distinct_create
    (fresh : draft.store.find? (draft.members scope) name.cleaned = none) :
    (draft.create scope name).globals.Pairwise fun first second =>
      (draft.create scope name).store.name? first ≠
        (draft.create scope name).store.name? second := by
  have kept : draft.globals.Pairwise fun first second =>
      (draft.store.push name).name? first ≠ (draft.store.push name).name? second := by
    refine confined.distinct.imp_of_mem fun {first second} member memberToo different => ?_
    rwa [Store.name?_push_of_lt (confined.grounded first member),
      Store.name?_push_of_lt (confined.grounded second memberToo)]
  rw [create_name?]
  cases scope with
  | some owner => exact kept
  | none =>
    refine List.pairwise_append.mpr ⟨kept, List.pairwise_singleton _ _, ?_⟩
    intro old member new isNew
    rw [List.mem_singleton.mp isNew, Store.name?_push_self,
      Store.name?_push_of_lt (confined.grounded old member)]
    exact Store.find?_eq_none_iff.mp fresh old member

theorem Confined.global_create (held : id < (draft.create scope name).store.size) :
    id ∈ (draft.create scope name).globals ↔ (creators ++ [scope]).of id = none := by
  rw [create_size] at held
  rw [create_globals]
  obtain old | rfl := Nat.lt_or_eq_of_le (Nat.le_of_lt_succ held)
  · rw [Creators.of_append_of_lt (confined.recorded ▸ old), ← confined.global old]
    simp [Nat.ne_of_lt old]
  · rw [← confined.recorded, Creators.of_length, confined.recorded]
    have unlisted : draft.store.size ∉ draft.globals :=
      fun member => Nat.lt_irrefl _ (confined.grounded _ member)
    simp [unlisted]

theorem Confined.name?_ne_new
    (fresh : draft.store.find? (draft.members scope) name.cleaned = none)
    (created : creators.of id = some creator) (same : scope = some creator) :
    (draft.create scope name).store.name? id ≠
      (draft.create scope name).store.name? draft.store.size := by
  subst same
  rw [create_name?, Store.name?_push_self, Store.name?_push_of_lt (confined.held created)]
  exact Store.find?_eq_none_iff.mp fresh id (confined.listed created)

theorem Confined.named_create
    (fresh : draft.store.find? (draft.members scope) name.cleaned = none)
    (created : (creators ++ [scope]).of id = some creator)
    (createdToo : (creators ++ [scope]).of other = some creator)
    (same : (draft.create scope name).store.name? id =
      (draft.create scope name).store.name? other) : id = other := by
  -- Only one of two different targets can be the new one.
  obtain old | ⟨rfl, new⟩ := confined.of_create.mp created <;>
    obtain oldToo | ⟨rfl, newToo⟩ := confined.of_create.mp createdToo
  · rw [create_name?, Store.name?_push_of_lt (confined.held old),
      Store.name?_push_of_lt (confined.held oldToo)] at same
    exact confined.named old oldToo same
  · exact absurd same (confined.name?_ne_new fresh old newToo)
  · exact absurd same.symm (confined.name?_ne_new fresh oldToo new)
  · rfl

theorem Confined.inside_create (live : draft.Live scope)
    (created : (creators ++ [scope]).of id = some creator)
    (edge : (draft.create scope name).store.DependsOn owner id) :
    owner = creator ∨ (draft.create scope name).store.LeadsTo creator owner := by
  -- An old target gets no new edge, and no old edge leads to the new target.
  obtain old | ⟨rfl, new⟩ := confined.of_create.mp created
  · obtain edge | ⟨-, rfl⟩ := (create_dependsOn live).mp edge
    · exact (confined.inside old edge).imp_right (Grows.create live).leadsTo
    · exact absurd (confined.held old) (Nat.lt_irrefl _)
  · obtain edge | ⟨parent, -⟩ := (create_dependsOn live).mp edge
    · exact absurd (confined.closed edge) (Nat.lt_irrefl _)
    · rw [new] at parent
      exact .inl (Option.some.inj parent).symm

theorem Confined.create (live : draft.Live scope)
    (fresh : draft.store.find? (draft.members scope) name.cleaned = none) :
    (draft.create scope name).Confined (creators ++ [scope]) where
  recorded := by simp [create_size, confined.recorded]
  closed := by
    intro owner id edge
    rw [create_size]
    obtain edge | ⟨-, rfl⟩ := (create_dependsOn live).mp edge
    · exact Nat.lt_succ_of_lt (confined.closed edge)
    · exact Nat.lt_succ_self _
  grounded := confined.grounded.create
  ordered := confined.ordered_create
  distinct := confined.distinct_create fresh
  global := confined.global_create
  older := by
    intro id creator created
    obtain old | ⟨rfl, new⟩ := confined.of_create.mp created
    · exact confined.older old
    · exact live creator new
  listed := by
    intro id creator created
    refine (create_dependsOn live).mpr ?_
    obtain old | ⟨rfl, new⟩ := confined.of_create.mp created
    · exact .inl (confined.listed old)
    · exact .inr ⟨new, rfl⟩
  named := confined.named_create fresh
  inside := confined.inside_create live

end Create

/-! ## Keys and list entries -/

/-- Edges may be added below the creators of the targets that they lead to. -/
theorem Confined.add_edges (confined : draft.Confined creators)
    (globals : later.globals = draft.globals) (size : later.store.size = draft.store.size)
    (names : later.store.name? = draft.store.name?) (grows : draft.Grows later)
    (added : ∀ {parent child}, later.store.DependsOn parent child →
      draft.store.DependsOn parent child ∨ child < draft.store.size ∧
        ∀ creator, creators.of child = some creator → draft.store.LeadsTo creator parent) :
    later.Confined creators where
  recorded := by rw [size, confined.recorded]
  closed := by
    intro parent child edge
    rw [size]
    obtain edge | ⟨held, -⟩ := added edge
    · exact confined.closed edge
    · exact held
  grounded := by
    rw [Grounded, globals, size]
    exact confined.grounded
  ordered := by
    rw [globals]
    exact confined.ordered
  distinct := by
    rw [globals, names]
    exact confined.distinct
  global := by
    rw [globals, size]
    exact confined.global
  older := confined.older
  listed := fun created => grows (some _) _ (confined.listed created)
  named := by
    rw [names]
    exact confined.named
  inside := by
    intro child creator parent created edge
    obtain edge | ⟨-, below⟩ := added edge
    · exact (confined.inside created edge).imp_right grows.leadsTo
    · exact .inr (grows.leadsTo (below creator created))

theorem Confined.declare (confined : draft.Confined creators) (live : draft.Live scope)
    (name : TargetName) :
    (draft.declare scope name).1.Confined
      (creators.record draft.store (draft.declare scope name).1.store scope) := by
  have size : (draft.declare scope name).1.store.size = (draft.place scope name).1.store.size :=
    Store.size_modify _ _ _
  have placed : (draft.place scope name).1.Confined
      (creators.record draft.store (draft.place scope name).1.store scope) := by
    unfold place
    split
    · rw [Creators.record_self]
      exact confined
    · next fresh =>
      rw [Creators.record, if_pos (by simp [create_size])]
      exact confined.create live fresh
  rw [Creators.record, size, ← Creators.record]
  refine placed.add_edges rfl size (Store.name?_declare _ _) ?_ fun edge => .inl ?_
  · intro outer id listed
    rwa [declare_members]
  · rwa [← Store.dependsOn_declare]

theorem Confined.link (confined : draft.Confined creators) (ownerHeld : owner < draft.store.size)
    (held : id < draft.store.size)
    (below : ∀ creator, creators.of id = some creator → draft.store.LeadsTo creator owner) :
    (draft.enlist (some owner) id).Confined creators := by
  refine confined.add_edges rfl enlist_size (Store.name?_attach _ _ _) (.link ownerHeld)
    fun edge => ?_
  obtain edge | ⟨rfl, rfl⟩ := (Store.dependsOn_attach ownerHeld).mp edge
  · exact .inl edge
  · exact .inr ⟨held, below⟩

/-- What an entry of a list resolves to is global or listed by the owner of the scope in which
the list's owner was declared, so its creator leads to the list's owner. -/
theorem Confined.leadsTo_of_resolve (confined : draft.Confined creators)
    (declared : owner ∈ draft.members outer) (resolved : draft.resolve outer name = some id)
    (created : creators.of id = some creator) : draft.store.LeadsTo creator owner := by
  simp only [resolve, Option.or_eq_some_iff] at resolved
  obtain sibling | ⟨-, found⟩ := resolved
  · obtain ⟨listed, -⟩ := Store.name?_of_find? sibling
    cases outer with
    | none => cases listed
    | some parent =>
      -- The scope's owner lists both, so the way from the creator goes on to the list's owner.
      obtain rfl | above := confined.inside created listed
      · exact .single declared
      · exact above.tail declared
  · obtain ⟨listed, -⟩ := Store.name?_of_find? found
    have nobody := (confined.global (confined.grounded id listed)).mp listed
    rw [nobody] at created
    cases created

theorem Confined.addEntry (confined : draft.Confined creators) (held : owner < draft.store.size)
    (declared : owner ∈ draft.members outer) (name : TargetName) :
    (draft.addEntry outer owner name).Confined
      (creators.record draft.store (draft.addEntry outer owner name).store none) := by
  simp only [Draft.addEntry, Creators.record, enlist_size]
  unfold placeEntry
  split
  · next id resolved =>
    rw [if_neg (Nat.lt_irrefl _)]
    exact confined.link held (resolve_lt resolved)
      fun _ created => confined.leadsTo_of_resolve declared resolved created
  · next unresolved =>
    have fresh : draft.store.find? (draft.members none) name.cleaned = none :=
      (Option.or_eq_none_iff.mp unresolved).2
    have added : (draft.create none name).Confined (creators ++ [none]) :=
      confined.create live_none fresh
    have size : (draft.create none name).store.size = draft.store.size + 1 := create_size
    have ownerHeld : owner < (draft.create none name).store.size := size ▸ Nat.lt_succ_of_lt held
    have newHeld : draft.store.size < (draft.create none name).store.size :=
      size ▸ Nat.lt_succ_self _
    rw [if_pos newHeld]
    refine added.link ownerHeld newHeld fun creator created => ?_
    -- Nobody has created the new target.
    rw [← confined.recorded, Creators.of_length] at created
    cases created

end Draft

end BuildGraph

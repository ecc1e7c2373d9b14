import BuildGraph.Proofs.Draft.Frame

/-! Steps that have no name in common can change places.

Each of the two parts finds, after the other one, a draft that says the same about its names. So it
does the same in both places, but for the numbers of the new targets: the targets of the part that
comes first have the lower ones.
-/

set_option autoImplicit false

namespace BuildGraph

/-! ## Blocks of numbers -/

/-- From `start` on, the next `first` numbers and the `second` ones after them change places. -/
def exchange (start first second id : Nat) : Nat :=
  if id < start then id
  else if id < start + first then id + second
  else if id < start + first + second then id - first
  else id

theorem exchange_exchange (start first second id : Nat) :
    exchange start second first (exchange start first second id) = id := by
  unfold exchange
  split_ifs <;> omega

/-- The way back is the same with the two blocks in the other order. -/
def swapBlocks (start first second : Nat) : Equiv.Perm TargetId where
  toFun := exchange start first second
  invFun := exchange start second first
  left_inv := exchange_exchange start first second
  right_inv := exchange_exchange start second first

section

variable {start first second id : Nat}

theorem swapBlocks_of_lt (before : id < start) : swapBlocks start first second id = id :=
  if_pos before

theorem swapBlocks_add {count : Nat} (inside : count < first) :
    swapBlocks start first second (start + count) = start + second + count := by
  show exchange start first second (start + count) = start + second + count
  unfold exchange
  split_ifs <;> omega

theorem swapBlocks_of_le (after : start + first + second ≤ id) :
    swapBlocks start first second id = id := by
  show exchange start first second id = id
  unfold exchange
  split_ifs <;> omega

end

namespace Reader

open Draft

variable {reader later : Reader} {σ : Equiv.Perm TargetId} {steps first second back : List Step}

/-! ## Two parts in either order -/

def mentions (steps : List Step) (cleaned : String) : Bool :=
  (namesOf steps).any fun name => name.cleaned == cleaned

theorem mentions_of_mem : ∀ name ∈ namesOf steps, mentions steps name.cleaned = true := by
  intro name member
  exact List.any_eq_true.mpr ⟨name, member, beq_self_eq_true _⟩

/-- Steps that read split names, and close all scopes that they open and no others. -/
structure Balanced (steps : List Step) : Prop where
  spelled : ∀ name ∈ namesOf steps, ∃ raw, TargetName.ofString raw = .ok name
  owners : ∀ reader : Reader, (reader.readAll steps).owners = reader.owners

structure Level (reader : Reader) : Prop where
  sound : reader.Sound
  alone : reader.owners = []

theorem Level.within (level : reader.Level) (names : String → Bool) : reader.Within names := by
  intro owner member
  rw [level.alone] at member
  cases member

theorem Level.readAll (level : reader.Level) (balanced : Balanced steps) :
    (reader.readAll steps).Level :=
  ⟨level.sound.readAll balanced.spelled, (balanced.owners reader).trans level.alone⟩

theorem Level.keeps {kept : String → Bool} (level : reader.Level) (balanced : Balanced steps)
    (apart : ∀ cleaned, mentions steps cleaned = true → kept cleaned = false) :
    Keeps kept reader.draft (reader.readAll steps).draft :=
  keeps_readAll level.sound (level.within _) balanced.spelled
    fun name member => apart _ (mentions_of_mem name member)

theorem Level.mirrors (level : reader.Level) (levelLater : later.Level)
    (balanced : Balanced steps) (keeps : Keeps (mentions steps) reader.draft later.draft)
    (σ : Equiv.Perm TargetId) (same : ∀ id < reader.size, σ id = id)
    (fresh : ∀ count, reader.size + count < (reader.readAll steps).size →
      σ (reader.size + count) = later.size + count) :
    Draft.Mirrors σ (mentions steps) (reader.readAll steps).draft (later.readAll steps).draft ∧
      (later.readAll steps).size + reader.size = (reader.readAll steps).size + later.size := by
  have start : Mirrors σ (mentions steps) reader later := by
    refine ⟨Draft.Mirrors.congr keeps level.sound.built fun id held => (same id held).symm, ?_,
      level.within _, level.sound, levelLater.sound⟩
    rw [level.alone, levelLater.alone, List.map_nil]
  obtain ⟨last, grown⟩ := start.readAll balanced.spelled mentions_of_mem fresh
  exact ⟨last.drafts, grown⟩

/-- Two parts in either order make the same targets, and what comes after both has the same
numbers. -/
theorem Level.swap (level : reader.Level) (balanced : Balanced first)
    (balancedToo : Balanced second)
    (apart : ∀ cleaned, mentions first cleaned = true → mentions second cleaned = false) :
    ∃ σ, Draft.Mirrors σ (fun _ => true) (reader.readAll (first ++ second)).draft
        (reader.readAll (second ++ first)).draft ∧
      ∀ count, σ ((reader.readAll (first ++ second)).size + count) =
        (reader.readAll (second ++ first)).size + count := by
  have apartToo : ∀ cleaned, mentions second cleaned = true → mentions first cleaned = false := by
    intro cleaned mentioned
    by_contra both
    rw [apart cleaned (eq_true_of_ne_false both)] at mentioned
    cases mentioned
  have levelFirst := level.readAll balanced
  have levelSecond := level.readAll balancedToo
  obtain ⟨made, size⟩ := Nat.exists_eq_add_of_le (size_le_readAll reader first)
  obtain ⟨madeToo, sizeToo⟩ := Nat.exists_eq_add_of_le (size_le_readAll reader second)
  -- Seen from the start, each part is read once right away and once after the other part.
  obtain ⟨movedFirst, grown⟩ := level.mirrors levelSecond balanced
    (level.keeps balancedToo apartToo) (swapBlocks reader.size made madeToo)
    (fun _ => swapBlocks_of_lt) fun count held => by
      rw [swapBlocks_add (by omega), sizeToo]
  obtain ⟨movedSecond, grownToo⟩ := level.mirrors levelFirst balancedToo
    (level.keeps balanced apart) (swapBlocks reader.size madeToo made)
    (fun _ => swapBlocks_of_lt) fun count held => by
      rw [swapBlocks_add (by omega), size]
  rw [readAll_append, readAll_append]
  refine ⟨swapBlocks reader.size made madeToo, .of_each fun cleaned => ?_, fun count => ?_⟩
  · by_cases inFirst : mentions first cleaned = true
    · have kept := levelFirst.keeps balancedToo apartToo
      exact ⟨mentions first, inFirst, kept.symm.before movedFirst⟩
    by_cases inSecond : mentions second cleaned = true
    · have kept := levelSecond.keeps balanced apart
      exact ⟨mentions second, inSecond, kept.after movedSecond.symm⟩
    · -- All other names are kept from the start to the end, in both orders.
      let others := fun cleaned => !mentions first cleaned && !mentions second cleaned
      have notFirst : ∀ cleaned, mentions first cleaned = true → others cleaned = false := by
        simp +contextual [others]
      have notSecond : ∀ cleaned, mentions second cleaned = true → others cleaned = false := by
        simp +contextual [others]
      have back := (levelFirst.keeps balancedToo notSecond).symm.trans
        (level.keeps balanced notFirst).symm
      have forth : Draft.Mirrors (swapBlocks reader.size made madeToo) others reader.draft
          (reader.readAll second).draft :=
        Draft.Mirrors.congr (level.keeps balancedToo notSecond) level.sound.built
          fun id held => (swapBlocks_of_lt held).symm
      have kept := levelSecond.keeps balanced notFirst
      exact ⟨others, by simp [others, inFirst, inSecond], back.before (kept.after forth)⟩
  · have sameSize : ((reader.readAll first).readAll second).size =
        ((reader.readAll second).readAll first).size := by omega
    rw [swapBlocks_of_le (by omega), sameSize]

theorem Level.swap_readAll (level : reader.Level) (balanced : Balanced first)
    (balancedToo : Balanced second) (balancedBack : Balanced back)
    (apart : ∀ cleaned, mentions first cleaned = true → mentions second cleaned = false) :
    ∃ σ, Store.Renumbered σ (reader.readAll (first ++ (second ++ back))).draft.store
      (reader.readAll (second ++ (first ++ back))).draft.store := by
  obtain ⟨σ, swapped, fresh⟩ := level.swap balanced balancedToo apart
  rw [← List.append_assoc, ← List.append_assoc, readAll_append _ _ back, readAll_append _ _ back]
  have levelOne := (level.readAll balanced).readAll balancedToo
  have levelOther := (level.readAll balancedToo).readAll balanced
  rw [← readAll_append] at levelOne levelOther
  have start : Mirrors σ (fun _ => true) (reader.readAll (first ++ second))
      (reader.readAll (second ++ first)) := by
    refine ⟨swapped, ?_, levelOne.within _, levelOne.sound, levelOther.sound⟩
    rw [levelOne.alone, levelOther.alone, List.map_nil]
  obtain ⟨last, -⟩ := start.readAll balancedBack.spelled (fun _ _ => rfl) fun count _ => fresh count
  exact ⟨σ, last.drafts.renumbered⟩

end Reader

end BuildGraph

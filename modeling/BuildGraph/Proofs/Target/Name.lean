import BuildGraph.Target.Name

/-! Which raw names are accepted, and which spellings read back.

A name is never split into nothing, and what has no mark of an executable does not end with a
star. So the name of a target can be spelled with any usage that does not contradict its mark, and
it is known exactly which cleaned names read back from which spelling.
-/

set_option autoImplicit false

namespace BuildGraph.TargetName

theorem ofChars_star (stem : List Char) :
    ofChars (stem ++ ['*']) =
      if stem = [] then .error (.onlyMark "*") else .ok ⟨some .executable, String.ofList stem⟩ := by
  have nonempty : stem ++ ['*'] ≠ [] := by simp
  simp only [ofChars, if_neg nonempty, List.getLast?_concat, if_true, List.dropLast_concat]
  split
  · next none => subst none; rfl
  · rfl

theorem ofChars_without_star {stem : List Char} {last : Char} (plain : last ≠ '*') :
    ∃ split, ofChars (stem ++ [last]) = .ok split := by
  have nonempty : stem ++ [last] ≠ [] := by simp
  have unmarked : some last ≠ some '*' := by simpa using plain
  simp only [ofChars, if_neg nonempty, List.getLast?_concat, if_neg unmarked]
  split <;> exact ⟨_, rfl⟩

theorem ofChars_accepts_iff (name : List Char) :
    (∃ split, ofChars name = .ok split) ↔ name ≠ [] ∧ name ≠ ['*'] := by
  rcases List.eq_nil_or_concat name with rfl | ⟨stem, last, rfl⟩
  · simp [ofChars]
  · rw [List.concat_eq_append]
    by_cases star : last = '*'
    · subst star
      rw [ofChars_star]
      cases stem <;> simp
    · have different : stem ++ [last] ≠ ['*'] := by
        intro same
        have lasts := congrArg List.getLast? same
        simp only [List.getLast?_concat, List.getLast?_singleton, Option.some.injEq] at lasts
        exact star lasts
      exact iff_of_true (ofChars_without_star star) ⟨by simp, different⟩

theorem ofString_accepts_iff (name : String) :
    (∃ split, ofString name = .ok split) ↔ name ≠ "" ∧ name ≠ "*" := by
  have empty : name.toList = [] ↔ name = "" := by
    rw [← String.toList_inj]; rfl
  have mark : name.toList = ['*'] ↔ name = "*" := by
    rw [← String.toList_inj]; rfl
  rw [ofString, ofChars_accepts_iff, ne_eq, ne_eq, empty, mark]

/-! ## Spellings -/

section

variable {name : List Char} {raw : String} {split : TargetName}

/-- The three ways to read a name: with a star at the end, with a leading `lib`, or as it is. -/
theorem ofChars_eq_ok (read : ofChars name = .ok split) :
    (∃ stem, stem ≠ [] ∧ name = stem ++ ['*'] ∧ split = ⟨some .executable, String.ofList stem⟩) ∨
      name.getLast? ≠ some '*' ∧
        ((∃ c stem, name = 'l' :: 'i' :: 'b' :: c :: stem ∧
            split = ⟨some .library, String.ofList (c :: stem)⟩) ∨
          name ≠ [] ∧ split = ⟨none, String.ofList name⟩) := by
  unfold ofChars at read
  split at read
  · cases read
  · next nonempty =>
    split at read
    · next star =>
      obtain ⟨stem, rfl⟩ := List.getLast?_eq_some_iff.mp star
      rw [List.dropLast_concat] at read
      split at read
      · cases read
      · next some =>
        cases read
        exact .inl ⟨stem, some, rfl, rfl⟩
    · next plain =>
      refine .inr ⟨plain, ?_⟩
      split at read
      · cases read
        exact .inl ⟨_, _, rfl, rfl⟩
      · cases read
        exact .inr ⟨nonempty, rfl⟩

theorem ofList_ne_empty {stem : List Char} (nonempty : stem ≠ []) : String.ofList stem ≠ "" := by
  intro empty
  rw [← String.toList_inj, String.toList_ofList] at empty
  exact nonempty empty

theorem cleaned_ne_empty (read : ofString raw = .ok split) : split.cleaned ≠ "" := by
  obtain ⟨stem, nonempty, -, rfl⟩ | ⟨-, ⟨c, stem, -, rfl⟩ | ⟨nonempty, rfl⟩⟩ := ofChars_eq_ok read
  · exact ofList_ne_empty nonempty
  · exact ofList_ne_empty (List.cons_ne_nil c stem)
  · exact ofList_ne_empty nonempty

/-- Only an executable may keep a star at the end of its cleaned name. -/
theorem plain_of_not_executable (read : ofString raw = .ok split)
    (other : split.hint ≠ some .executable) : split.cleaned.toList.getLast? ≠ some '*' := by
  obtain ⟨stem, -, -, rfl⟩ | ⟨plain, ⟨c, stem, same, rfl⟩ | ⟨-, rfl⟩⟩ := ofChars_eq_ok read
  · exact absurd rfl other
  · rw [same] at plain
    simpa using plain
  · simpa using plain

theorem ofString_spell_executable {cleaned : String} (nonempty : cleaned ≠ "") :
    ofString (spell cleaned (some .executable)) = .ok ⟨some .executable, cleaned⟩ := by
  have stem : cleaned.toList ≠ [] := fun empty => nonempty (String.toList_inj.mp empty)
  have chars : (spell cleaned (some .executable)).toList = cleaned.toList ++ ['*'] :=
    String.toList_append
  rw [ofString, chars, ofChars_star, if_neg stem, String.ofList_toList]

theorem ofString_spell_library {cleaned : String} (nonempty : cleaned ≠ "")
    (plain : cleaned.toList.getLast? ≠ some '*') :
    ofString (spell cleaned (some .library)) = .ok ⟨some .library, cleaned⟩ := by
  have stem : cleaned.toList ≠ [] := fun empty => nonempty (String.toList_inj.mp empty)
  obtain ⟨c, rest, chars⟩ := List.exists_cons_of_ne_nil stem
  have spelled : (spell cleaned (some .library)).toList = 'l' :: 'i' :: 'b' :: c :: rest := by
    rw [← chars]
    exact String.toList_append
  have unmarked : ('l' :: 'i' :: 'b' :: c :: rest).getLast? ≠ some '*' := by
    rw [chars] at plain
    simpa using plain
  rw [ofString, spelled, ofChars, if_neg (List.cons_ne_nil _ _), if_neg unmarked]
  simp only [← chars, String.ofList_toList]

theorem spell_injective (hint : Option Usage) : Function.Injective (spell · hint) := by
  intro left right same
  have chars := congrArg String.toList same
  cases hint with
  | none => exact same
  | some usage =>
    cases usage with
    | executable =>
      simp only [spell, String.toList_append, List.append_left_inj] at chars
      exact String.toList_inj.mp chars
    | library =>
      simp only [spell, String.toList_append, List.append_right_inj] at chars
      exact String.toList_inj.mp chars

/-- A cleaned name is read back from its spelling with a usage, unless the usage takes the mark of
an executable away. -/
theorem ofString_spell (read : ofString raw = .ok split) {usage : Usage}
    (agrees : usage = .library → split.hint ≠ some .executable) :
    ofString (spell split.cleaned (some usage)) = .ok ⟨some usage, split.cleaned⟩ := by
  have nonempty := cleaned_ne_empty read
  cases usage with
  | executable => exact ofString_spell_executable nonempty
  | library =>
    exact ofString_spell_library nonempty (plain_of_not_executable read (agrees rfl))

theorem raw_of_ofString (read : ofString raw = .ok split) : split.raw = raw := by
  rw [← String.toList_inj]
  obtain ⟨stem, -, same, rfl⟩ | ⟨-, ⟨c, stem, same, rfl⟩ | ⟨-, rfl⟩⟩ := ofChars_eq_ok read
  · rw [same]
    simp [TargetName.raw, spell]
  · rw [same]
    simp [TargetName.raw, spell]
  · simp [TargetName.raw, spell]

theorem ofString_eq_error_iff {cause : NameError} : ofString raw = .error cause ↔
    raw = "" ∧ cause = .empty ∨ raw = "*" ∧ cause = .onlyMark "*" := by
  constructor
  · intro refused
    by_cases empty : raw = ""
    · subst empty
      exact .inl ⟨rfl, (Except.error.inj refused).symm⟩
    by_cases mark : raw = "*"
    · subst mark
      exact .inr ⟨rfl, (Except.error.inj refused).symm⟩
    obtain ⟨split, read⟩ := (ofString_accepts_iff raw).mpr ⟨empty, mark⟩
    rw [refused] at read
    cases read
  · rintro (⟨rfl, rfl⟩ | ⟨rfl, rfl⟩) <;> rfl

/-! ## Which spellings read back -/

theorem ofString_spell_library_iff {cleaned : String} (nonempty : cleaned ≠ "") :
    ofString (spell cleaned (some .library)) = .ok ⟨some .library, cleaned⟩ ↔
      cleaned.toList.getLast? ≠ some '*' :=
  ⟨fun read => plain_of_not_executable read nofun, ofString_spell_library nonempty⟩

/-- The prefix is a mark only in front of something. -/
theorem not_library_iff : (∀ c stem, name ≠ 'l' :: 'i' :: 'b' :: c :: stem) ↔
    ¬ "lib".toList <+: name ∨ name = "lib".toList := by
  constructor
  · intro other
    by_cases leading : "lib".toList <+: name
    · obtain ⟨_ | ⟨c, stem⟩, rfl⟩ := leading
      · exact .inr (List.append_nil _)
      · exact absurd rfl (other c stem)
    · exact .inl leading
  · rintro (plain | same) c stem rfl
    · exact plain ⟨c :: stem, rfl⟩
    · cases same

theorem ofChars_unmarked_iff : ofChars name = .ok ⟨none, String.ofList name⟩ ↔
    name ≠ [] ∧ name.getLast? ≠ some '*' ∧ ∀ c stem, name ≠ 'l' :: 'i' :: 'b' :: c :: stem := by
  unfold ofChars
  split
  · next empty => simp [empty]
  · next nonempty =>
    split
    · next star => split <;> simp [star]
    · next plain =>
      split
      · simp
      · next other => simpa [nonempty, plain] using other

theorem ofString_spell_none_iff {cleaned : String} (nonempty : cleaned ≠ "") :
    ofString (spell cleaned none) = .ok ⟨none, cleaned⟩ ↔
      cleaned.toList.getLast? ≠ some '*' ∧
        (¬ "lib".toList <+: cleaned.toList ∨ cleaned = "lib") := by
  have stem : cleaned.toList ≠ [] := fun empty => nonempty (String.toList_inj.mp empty)
  have unmarked : ofChars cleaned.toList = .ok ⟨none, String.ofList cleaned.toList⟩ ↔ _ :=
    ofChars_unmarked_iff
  rw [String.ofList_toList, not_library_iff, String.toList_inj] at unmarked
  exact unmarked.trans (and_iff_right stem)

/-- Only the empty name and a lone star are refused, and a name that is read is spelled again as it
was. A cleaned name is read back from its spelling as an executable. From that as a library it is
read back if it does not end with a star, and on its own if moreover it has no prefix before
something. -/
theorem ofString_spell_exact :
    (∀ raw cause, ofString raw = .error cause ↔
      raw = "" ∧ cause = .empty ∨ raw = "*" ∧ cause = .onlyMark "*") ∧
    (∀ raw split, ofString raw = .ok split →
      split.cleaned ≠ "" ∧ spell split.cleaned split.hint = raw) ∧
    ∀ cleaned, cleaned ≠ "" →
      ofString (spell cleaned (some .executable)) = .ok ⟨some .executable, cleaned⟩ ∧
      (ofString (spell cleaned (some .library)) = .ok ⟨some .library, cleaned⟩ ↔
        cleaned.toList.getLast? ≠ some '*') ∧
      (ofString (spell cleaned none) = .ok ⟨none, cleaned⟩ ↔
        cleaned.toList.getLast? ≠ some '*' ∧
          (¬ "lib".toList <+: cleaned.toList ∨ cleaned = "lib")) :=
  ⟨fun _ _ => ofString_eq_error_iff,
    fun _ _ read => ⟨cleaned_ne_empty read, raw_of_ofString read⟩,
    fun _ nonempty => ⟨ofString_spell_executable nonempty, ofString_spell_library_iff nonempty,
      ofString_spell_none_iff nonempty⟩⟩

/-- A name with both marks is an executable, and the prefix stays in its cleaned name. That name
reads back as an executable and as a library, but not on its own; the bare prefix reads back on its
own, and a name that ends with a star only as an executable. -/
theorem ofString_spell_exact_both_marks :
    ofString "libtool*" = .ok ⟨some .executable, "libtool"⟩ ∧
      spell "libtool" (some .executable) = "libtool*" ∧
      ofString (spell "libtool" (some .library)) = .ok ⟨some .library, "libtool"⟩ ∧
      ofString (spell "libtool" none) ≠ .ok ⟨none, "libtool"⟩ ∧
      ofString (spell "lib" none) = .ok ⟨none, "lib"⟩ ∧
      ofString (spell "a*" (some .executable)) = .ok ⟨some .executable, "a*"⟩ ∧
      ofString (spell "a*" (some .library)) ≠ .ok ⟨some .library, "a*"⟩ := by
  obtain ⟨-, reads, spells⟩ := ofString_spell_exact
  have read : ofString "libtool*" = .ok ⟨some .executable, "libtool"⟩ := rfl
  obtain ⟨nonempty, spelled⟩ := reads _ _ read
  obtain ⟨-, library, unmarked⟩ := spells "libtool" nonempty
  obtain ⟨-, -, bare⟩ := spells "lib" (by decide)
  obtain ⟨executable, starred, -⟩ := spells "a*" (by decide)
  refine ⟨read, spelled, library.mpr (by decide), fun same => ?_, bare.mpr ⟨by decide, .inr rfl⟩,
    executable, fun same => starred.mp same rfl⟩
  obtain ⟨-, plain | same⟩ := unmarked.mp same
  · exact plain ⟨"tool".toList, rfl⟩
  · exact absurd same (by decide)

end

end BuildGraph.TargetName

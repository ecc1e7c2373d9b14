import BuildGraph.Command.Output

/-! Programs that print piece by piece.

Such a program does to a sink of any size what one write of its whole text does. This is kept
when programs are put after each other, so that it need not be looked for where they are cut off.
-/

set_option autoImplicit false

namespace BuildGraph

namespace Utf8

theorem toList_loop (bytes : ByteArray) (i : Nat) (read : Bytes) :
    ByteArray.toList.loop bytes i read = read.reverse ++ bytes.data.toList.drop i := by
  fun_induction ByteArray.toList.loop bytes i read with
  | case1 i read inside ih =>
    have head : bytes.get! i = bytes.data.toList[i] := getElem!_pos bytes.data i inside
    rw [ih, List.drop_eq_getElem_cons (i := i) inside, head, List.reverse_cons, List.append_assoc,
      List.singleton_append]
  | case2 i read outside =>
    rw [List.drop_eq_nil_of_le (Nat.le_of_not_lt outside), List.append_nil]

theorem encode_eq (text : String) : encode text = text.toByteArray.data.toList := by
  rw [encode, String.toUTF8, ByteArray.toList, toList_loop, List.reverse_nil, List.nil_append,
    List.drop_zero]

theorem encode_append (first rest : String) :
    encode (first ++ rest) = encode first ++ encode rest := by
  simp only [encode_eq, String.toByteArray_append, ByteArray.data_append, Array.toList_append]

@[simp] theorem encode_empty : encode "" = [] := by
  rw [encode_eq, String.toByteArray_empty, ByteArray.data_empty, Array.toList_empty]

theorem encode_injective {first second : String} (same : encode first = encode second) :
    first = second := by
  rw [encode_eq, encode_eq, Array.toList_inj] at same
  exact String.toByteArray_inj.mp (ByteArray.ext same)

end Utf8

namespace Sink

variable {sink : Sink} {first rest text : String}

def Holds (sink : Sink) (text : String) : Prop := (sink.write (Utf8.encode text)).2 = true

def after (sink : Sink) (text : String) : Sink := (sink.write (Utf8.encode text)).1

theorem holds_empty : sink.Holds "" := by
  obtain ⟨written, none | room⟩ := sink <;> simp [Holds, write]

@[simp] theorem after_empty : sink.after "" = sink := by
  obtain ⟨written, none | room⟩ := sink <;> simp [after, write]

theorem holds_append :
    sink.Holds (first ++ rest) ↔ sink.Holds first ∧ (sink.after first).Holds rest := by
  obtain ⟨written, none | room⟩ := sink
  · simp [Holds, after, write]
  · simp only [Holds, after, write, Utf8.encode_append, List.length_append, decide_eq_true_eq]
    omega

theorem after_append (fits : sink.Holds first) :
    sink.after (first ++ rest) = (sink.after first).after rest := by
  obtain ⟨written, none | room⟩ := sink
  · simp [after, write, Utf8.encode_append]
  · have fits : (Utf8.encode first).length ≤ room := of_decide_eq_true fits
    simp [after, write, Utf8.encode_append, List.take_append, List.take_of_length_le fits,
      Nat.sub_add_eq]

/-- A text that has filled the sink leaves nothing for what comes next. -/
theorem after_append_of_full (cut : ¬ sink.Holds first) :
    sink.after (first ++ rest) = sink.after first := by
  obtain ⟨written, none | room⟩ := sink
  · exact absurd rfl cut
  · have cut : ¬ (Utf8.encode first).length ≤ room := fun fits => cut (decide_eq_true fits)
    have nothing : room - (Utf8.encode first).length = 0 := by omega
    have nothing' : room - ((Utf8.encode first).length + (Utf8.encode rest).length) = 0 := by omega
    simp [after, write, Utf8.encode_append, List.take_append, nothing, nothing']

def ending {ε α : Type} (sink : Sink) : Except ε α → EStateM.Result ε Sink α
  | .ok value => .ok value sink
  | .error error => .error error sink

end Sink

/-- A program writes `text`. Where there is room for it the program ends as `outcome`, and
otherwise with an error that a full sink causes. -/
structure Prints {ε α : Type} (full : ε → Prop) (program : EStateM ε Sink α) (text : String)
    (outcome : Except ε α) : Prop where
  whole : ∀ sink : Sink, sink.Holds text → program sink = (sink.after text).ending outcome
  cut : ∀ sink : Sink, ¬ sink.Holds text →
    ∃ error, full error ∧ program sink = .error error (sink.after text)

namespace Prints

variable {ε α β : Type} {full : ε → Prop} {program : EStateM ε Sink α} {first text : String}
variable {next : α → EStateM ε Sink β} {value : α}

theorem pure (value : α) : Prints full (pure value) "" (.ok value) where
  whole sink _ := by rw [Sink.after_empty]; rfl
  cut sink cut := absurd Sink.holds_empty cut

theorem throw (error : ε) :
    Prints full (throw error : EStateM ε Sink α) "" (.error error) where
  whole sink _ := by rw [Sink.after_empty]; rfl
  cut sink cut := absurd Sink.holds_empty cut

/-- What comes after a text that fits is written behind it. -/
theorem bind {outcome : Except ε β} (here : Prints full program first (.ok value))
    (there : Prints full (next value) text outcome) :
    Prints full (program >>= next) (first ++ text) outcome where
  whole sink fits := by
    obtain ⟨fitsHere, fitsThere⟩ := Sink.holds_append.mp fits
    have run : (program >>= next) sink = next value (sink.after first) := by
      simp only [Bind.bind, EStateM.bind, here.whole sink fitsHere, Sink.ending]
    rw [run, there.whole _ fitsThere, Sink.after_append fitsHere]
  cut sink cut := by
    by_cases fits : sink.Holds first
    · have cutThere := fun fitsThere => cut (Sink.holds_append.mpr ⟨fits, fitsThere⟩)
      obtain ⟨error, caused, run⟩ := there.cut _ cutThere
      refine ⟨error, caused, ?_⟩
      simp only [Bind.bind, EStateM.bind, here.whole sink fits, Sink.ending, run,
        Sink.after_append fits]
    · obtain ⟨error, caused, run⟩ := here.cut sink fits
      refine ⟨error, caused, ?_⟩
      simp only [Bind.bind, EStateM.bind, run, Sink.after_append_of_full fits]

theorem bind_error {error : ε} (here : Prints full program text (.error error)) :
    Prints full (program >>= next) text (.error error) where
  whole sink fits := by
    simp only [Bind.bind, EStateM.bind, here.whole sink fits, Sink.ending]
  cut sink cut := by
    obtain ⟨error, caused, run⟩ := here.cut sink cut
    exact ⟨error, caused, by simp only [Bind.bind, EStateM.bind, run]⟩

/-- What is done with the value writes nothing. -/
theorem map (prints : Prints full program text (.ok value)) (change : α → β) :
    Prints full (program >>= fun value => Pure.pure (change value)) text (.ok (change value)) := by
  rw [← String.append_empty (s := text)]
  exact prints.bind (.pure (change value))

theorem adaptExcept {ε' : Type} {caused : ε' → Prop} {adapt : ε → ε'} {outcome : Except ε α}
    (prints : Prints full program text outcome)
    (keeps : ∀ error, full error → caused (adapt error)) :
    Prints caused (program.adaptExcept adapt) text (outcome.mapError adapt) where
  whole sink fits := by
    rw [EStateM.adaptExcept, prints.whole sink fits]
    cases outcome <;> rfl
  cut sink cut := by
    obtain ⟨error, cause, run⟩ := prints.cut sink cut
    exact ⟨adapt error, keeps error cause, by simp only [EStateM.adaptExcept, run]⟩

theorem foldlM {ι σ : Type} {step : σ → ι → EStateM ε Sink σ} {texts : ι → String}
    {after : σ → ι → σ} {list : List ι}
    (each : ∀ i ∈ list, ∀ state, Prints full (step state i) (texts i) (.ok (after state i)))
    (state : σ) :
    Prints full (list.foldlM step state) (String.join (list.map texts))
      (.ok (list.foldl after state)) := by
  induction list generalizing state with
  | nil => exact .pure state
  | cons i list ih =>
    obtain ⟨here, later⟩ := List.forall_mem_cons.mp each
    rw [List.foldlM_cons, List.map_cons, String.join_cons, List.foldl_cons]
    exact (here state).bind (ih later _)

theorem forM {ι : Type} {body : ι → EStateM ε Sink PUnit} {texts : ι → String} {list : List ι}
    (each : ∀ i ∈ list, Prints full (body i) (texts i) (.ok ⟨⟩)) :
    Prints full (list.forM body) (String.join (list.map texts)) (.ok ⟨⟩) := by
  induction list with
  | nil => exact .pure _
  | cons i list ih =>
    obtain ⟨here, later⟩ := List.forall_mem_cons.mp each
    rw [List.forM, List.map_cons, String.join_cons]
    exact here.bind (ih later)

end Prints

theorem prints_print (text : String) : Prints (· = .full) (print text) text (.ok ()) where
  whole sink fits := by
    have fits : (sink.write (Utf8.encode text)).2 = true := fits
    rw [print, Sink.after, Sink.ending]
    split <;> simp_all
  cut sink cut := by
    have cut : ¬ (sink.write (Utf8.encode text)).2 = true := cut
    refine ⟨.full, rfl, ?_⟩
    rw [print, Sink.after]
    split <;> simp_all

/-- A program that writes some text, and blames a full sink only where the text does not fit. -/
def Orderly {ε α : Type} (full : ε → Prop) (program : EStateM ε Sink α) : Prop :=
  ∃ text outcome, Prints full program text outcome ∧ ∀ error, outcome = .error error → ¬ full error

theorem Prints.orderly {ε α : Type} {full : ε → Prop} {program : EStateM ε Sink α} {text : String}
    {value : α} (prints : Prints full program text (.ok value)) : Orderly full program :=
  ⟨text, .ok value, prints, nofun⟩

namespace Orderly

variable {ε α β ι σ : Type} {full : ε → Prop} {program : EStateM ε Sink α}

theorem throw {error : ε} (other : ¬ full error) :
    Orderly full (throw error : EStateM ε Sink α) :=
  ⟨"", .error error, .throw error, fun _ same => Except.error.inj same ▸ other⟩

theorem bind {next : α → EStateM ε Sink β} (here : Orderly full program)
    (there : ∀ value, Orderly full (next value)) : Orderly full (program >>= next) := by
  obtain ⟨first, outcome, prints, other⟩ := here
  cases outcome with
  | ok value =>
    obtain ⟨text, outcome, printsThere, otherThere⟩ := there value
    exact ⟨first ++ text, outcome, prints.bind printsThere, otherThere⟩
  | error error =>
    exact ⟨first, .error error, prints.bind_error,
      fun _ same => other _ (congrArg Except.error (Except.error.inj same))⟩

theorem foldlM {step : σ → ι → EStateM ε Sink σ} (each : ∀ state i, Orderly full (step state i))
    (list : List ι) (state : σ) : Orderly full (list.foldlM step state) := by
  induction list generalizing state with
  | nil => exact (Prints.pure state).orderly
  | cons i list ih =>
    rw [List.foldlM_cons]
    exact (each state i).bind fun next => ih next

theorem forM {body : ι → EStateM ε Sink PUnit} (each : ∀ i, Orderly full (body i))
    (list : List ι) : Orderly full (list.forM body) := by
  induction list with
  | nil => exact (Prints.pure _).orderly
  | cons i list ih =>
    rw [List.forM]
    exact (each i).bind fun _ => ih

end Orderly

end BuildGraph

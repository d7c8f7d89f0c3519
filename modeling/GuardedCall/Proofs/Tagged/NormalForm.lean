import GuardedCall.Proofs.Tagged.Accepted

/-!
# Texts that are read have a normal form

A text that is read as a value may differ from the one that is written of the value. The latter is
the normal form of the former: it is read as the same value, nests no more arrays and objects, and
is written again of what is read from it. Floating point numbers are the exception that the reader
of numbers makes, which gives the neighbour of some; a hypothesis excludes these.

Main definition: `HasNormalForm`. Main statement: `accepted_texts_have_normal_forms`.
-/

namespace GuardedCall

open Json Tagged

variable {α : Type} [Tagged α] [HasFloats α]

/-- Whatever text a value is read from, the text that is written of it nests no more arrays and
objects, and is read as the same value. So writing what has been read leads to a normal form. -/
def HasNormalForm (α : Type) [Tagged α] [HasFloats α] : Prop :=
  ∀ (text : String) (x : α), parse text = .ok x → AllFloats ReadsBack x →
    parse (render x) = .ok x ∧ nesting (render x).toList ≤ nesting text.toList ∧
      ∀ x' : α, parse (render x) = .ok x' → render x' = render x

/-- What is accepted is legible, and what is legible is read back. -/
theorem hasNormalForm
    (haccepts : Accepts 0 maxLevels (reader (α := α) maxLevels) (Legible encode))
    (hreads : ∀ x : α, ReadsWritten reader encode x) : HasNormalForm α := by
  intro text x hparse hback
  obtain ⟨hlevels, hnesting⟩ := haccepts.of_complete hparse
  have hrender : nesting (render x).toList = depth (encode x) := by
    rw [toList_render, nesting_print]
  have hround := (hreads x).roundTrips hback
  refine ⟨hround.reads hlevels.1 ?_, ?_, fun x' hx' => ?_⟩
  · rw [hrender]
    exact hlevels.2
  · rw [hrender]
    exact hnesting.2
  · rw [hround.never_other x' hx']

/-- **Texts that are read have a normal form**, of whatever tagged type they are read. -/
theorem accepted_texts_have_normal_forms :
    HasNormalForm Value ∧ HasNormalForm (List (Value × Value)) ∧ HasNormalForm Kind ∧
      HasNormalForm FailureKind ∧ HasNormalForm Param ∧ HasNormalForm Signature ∧
      HasNormalForm Arguments ∧ HasNormalForm Mismatch ∧ HasNormalForm Failure ∧
      HasNormalForm Policy := by
  refine ⟨?_, ?_, ?_, ?_, ?_, ?_, ?_, ?_, ?_, ?_⟩
  · exact hasNormalForm (Value.accepts_read _) Value.readsWritten
  · exact hasNormalForm (Value.accepts_readEntries _) readsWritten_dict
  · exact hasNormalForm (Kind.accepts_reader _) fun x => readsWritten_of_eq_nil x.readsData rfl
  · exact hasNormalForm (FailureKind.accepts_reader _) fun x =>
      readsWritten_of_eq_nil x.readsData rfl
  · exact hasNormalForm (Param.accepts_reader _) Param.readsWritten
  · exact hasNormalForm (Signature.accepts_reader _) Signature.readsWritten
  · exact hasNormalForm (Arguments.accepts_reader _) Arguments.readsWritten
  · exact hasNormalForm (Mismatch.accepts_reader _) fun x => readsWritten_of_eq_nil x.readsData rfl
  · exact hasNormalForm (Failure.accepts_reader _) fun x => readsWritten_of_eq_nil x.readsData rfl
  · exact hasNormalForm (Policy.accepts_reader _) fun x => readsWritten_of_eq_nil x.readsData rfl

/-- A parameter whose default is a whole number under an alias, behind an unknown field. -/
theorem accepted_texts_have_normal_forms_param :
    let text := "\x7b\"note\": [[]], \"default\": \x7b\"float\": 3\x7d, \"name\": \"x\"\x7d"
    let p : Param := ⟨"x", none, some (.float ⟨0x4008000000000000⟩)⟩
    parse text = .ok p ∧ AllFloats ReadsBack p ∧ parse (render p) = .ok p ∧
      nesting (render p).toList ≤ nesting text.toList := by
  intro text p
  have hparse : parse text = .ok p := by decide +kernel
  have hthree : ReadsBack ⟨0x4008000000000000⟩ := fun _ => by decide +kernel
  have hback : AllFloats ReadsBack p := List.forall_mem_singleton.2 hthree
  obtain ⟨-, -, -, -, hparam, -⟩ := accepted_texts_have_normal_forms
  have hnormal := hparam text p hparse hback
  exact ⟨hparse, hback, hnormal.1, hnormal.2.1⟩

end GuardedCall

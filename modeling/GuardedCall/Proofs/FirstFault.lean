/-!
# The first fault

What every statement about faults uses: a place in a list, seen together with what is before it;
classes of faults of which the first that applies counts; and steps one after another, of which
the first that fails decides.

Main definitions: `FirstIn`, `FirstFault`, `FirstOf`.
Main statements: `firstFault_cons`, `exists_firstFault_iff`, `except_bind_eq_ok_iff`,
`except_bind_eq_error_iff_firstOf`.
-/

namespace GuardedCall

/-- At some place of a list, `P` holds of what is before the place and of what is there. -/
def FirstIn {α : Type} (P : List α → α → Prop) (xs : List α) : Prop :=
  ∃ before x after, xs = before ++ x :: after ∧ P before x

section FirstIn

variable {α : Type} {P Q : List α → α → Prop} {xs : List α}

theorem not_firstIn_nil : ¬ FirstIn P [] := by
  rintro ⟨before, x, after, h, -⟩
  exact absurd h.symm (by simp)

/-- The place is at the head, or in the tail with the head before it. -/
theorem firstIn_cons {y : α} {ys : List α} :
    FirstIn P (y :: ys) ↔ P [] y ∨ FirstIn (fun before x => P (y :: before) x) ys := by
  constructor
  · rintro ⟨before, x, after, h, hP⟩
    cases before with
    | nil =>
      cases h
      exact Or.inl hP
    | cons z before =>
      cases h
      exact Or.inr ⟨before, x, after, rfl, hP⟩
  · rintro (hP | ⟨before, x, after, rfl, hP⟩)
    · exact ⟨[], y, ys, rfl, hP⟩
    · exact ⟨y :: before, x, after, rfl, hP⟩

theorem firstIn_congr (h : ∀ before x, P before x ↔ Q before x) :
    FirstIn P xs ↔ FirstIn Q xs := by
  have hPQ : P = Q := funext fun before => funext fun x => propext (h before x)
  rw [hPQ]

/-- What holds at a place of a list need only follow for the items of the list. -/
theorem FirstIn.imp (h : FirstIn P xs)
    (hPQ : ∀ before x, (∀ y ∈ before, y ∈ xs) → x ∈ xs → P before x → Q before x) :
    FirstIn Q xs := by
  obtain ⟨before, x, after, hxs, hP⟩ := h
  refine ⟨before, x, after, hxs, hPQ before x ?_ ?_ hP⟩
  · intro y hy
    rw [hxs]
    exact List.mem_append_left _ hy
  · rw [hxs]
    exact List.mem_append_right _ List.mem_cons_self

@[simp] theorem firstIn_false : FirstIn (fun _ _ => False) xs ↔ False := by
  constructor
  · rintro ⟨-, -, -, -, h⟩
    exact h
  · exact False.elim

/-- The place is that of an item of the list. -/
theorem FirstIn.exists_mem (h : FirstIn P xs) : ∃ before, ∃ x ∈ xs, P before x := by
  obtain ⟨before, x, after, rfl, hP⟩ := h
  exact ⟨before, x, List.mem_append_right _ List.mem_cons_self, hP⟩

/-- What does not depend on the place can be said before it. -/
theorem firstIn_and_left {c : Prop} :
    FirstIn (fun before x => c ∧ P before x) xs ↔ c ∧ FirstIn P xs := by
  constructor
  · rintro ⟨before, x, after, hxs, hc, hP⟩
    exact ⟨hc, before, x, after, hxs, hP⟩
  · rintro ⟨hc, before, x, after, hxs, hP⟩
    exact ⟨before, x, after, hxs, hc, hP⟩

end FirstIn

/-- `y` is a fault of some item of a list, and the items before that have no faults at all. -/
def FirstFault {α β : Type} (fault : α → β → Prop) (xs : List α) (y : β) : Prop :=
  FirstIn (fun before x => (∀ d ∈ before, ∀ z, ¬ fault d z) ∧ fault x y) xs

section FirstFault

variable {α β : Type} {fault fault' : α → β → Prop} {x : α} {xs : List α} {y : β}

theorem not_firstFault_nil : ¬ FirstFault fault [] y := not_firstIn_nil

/-- The fault is of the head, or the head has none and it is of the tail. -/
theorem firstFault_cons :
    FirstFault fault (x :: xs) y ↔
      fault x y ∨ (∀ z, ¬ fault x z) ∧ FirstFault fault xs y := by
  rw [FirstFault, firstIn_cons]
  simp only [List.forall_mem_cons, and_assoc, firstIn_and_left]
  exact or_congr_left (and_iff_right fun _ h => absurd h List.not_mem_nil)

/-- There is a first fault if any item has one. -/
theorem exists_firstFault_iff : (∃ y, FirstFault fault xs y) ↔ ∃ x ∈ xs, ∃ y, fault x y := by
  induction xs with
  | nil =>
    constructor
    · rintro ⟨y, h⟩
      exact absurd h not_firstFault_nil
    · rintro ⟨x, hx, -⟩
      cases hx
  | cons x xs ih =>
    simp only [firstFault_cons, List.mem_cons, exists_eq_or_imp, exists_or, exists_and_left, ih]
    by_cases hx : ∃ y, fault x y
    · exact ⟨fun _ => Or.inl hx, fun _ => Or.inl hx⟩
    · rw [and_iff_right (not_exists.1 hx)]

/-- Only the faults of the items matter. -/
theorem firstFault_congr (h : ∀ x ∈ xs, ∀ z, fault x z ↔ fault' x z) :
    FirstFault fault xs y ↔ FirstFault fault' xs y := by
  induction xs with
  | nil => exact iff_of_false not_firstFault_nil not_firstFault_nil
  | cons x xs ih =>
    rw [List.forall_mem_cons] at h
    rw [firstFault_cons, firstFault_cons, ih h.2]
    simp only [h.1]

end FirstFault

/-! ## Classes in order of precedence -/

/-- `x` belongs to one of the classes, and nothing at all belongs to a class before that. -/
def FirstOf {α : Type} (classes : List (α → Prop)) (x : α) : Prop :=
  FirstFault (fun c y => c y) classes x

section FirstOf

variable {α : Type} {c : α → Prop} {cs ds : List (α → Prop)} {x : α}

theorem not_firstOf_nil : ¬ FirstOf [] x := not_firstFault_nil

theorem firstOf_cons : FirstOf (c :: cs) x ↔ c x ∨ (∀ y, ¬ c y) ∧ FirstOf cs x :=
  firstFault_cons

theorem firstOf_singleton : FirstOf [c] x ↔ c x := by
  rw [firstOf_cons, or_iff_left]
  rintro ⟨-, h⟩
  exact not_firstOf_nil h

/-- Something comes first if anything belongs to any of the classes. -/
theorem exists_firstOf_iff : (∃ x, FirstOf cs x) ↔ ∃ c ∈ cs, ∃ x, c x := exists_firstFault_iff

/-- Classes that come later count only if none of the earlier ones applies. -/
theorem firstOf_append :
    FirstOf (cs ++ ds) x ↔ FirstOf cs x ∨ (∀ y, ¬ FirstOf cs y) ∧ FirstOf ds x := by
  induction cs with
  | nil =>
    rw [List.nil_append, or_iff_right not_firstOf_nil]
    exact (and_iff_right fun _ => not_firstOf_nil).symm
  | cons c cs ih =>
    rw [List.cons_append, firstOf_cons, firstOf_cons, ih]
    by_cases hc : ∀ y, ¬ c y
    · simp [firstOf_cons, hc]
    · -- something belongs to the first class, so nothing else counts
      obtain ⟨y, hy⟩ := Classical.not_forall_not.1 hc
      have hnone : ¬ ∀ y, ¬ FirstOf (c :: cs) y := fun h => h y (firstOf_cons.2 (Or.inl hy))
      simp [hc, hnone]

end FirstOf

/-! ## Steps that may fail -/

section Except

variable {ε α β : Type} {x : Except ε α} {f : α → Except ε β}

theorem except_error_bind (e : ε) : (Except.error e >>= f) = .error e := rfl

theorem except_ok_bind (a : α) : (Except.ok a >>= f : Except ε β) = f a := rfl

/-- Two steps succeed if the first does and then the second. -/
theorem except_bind_eq_ok_iff {b : β} :
    x >>= f = .ok b ↔ ∃ a, x = .ok a ∧ f a = .ok b := by
  cases x with
  | error e => simp [except_error_bind]
  | ok a => simp [except_ok_bind]

/-- Two steps fail if the first does, or if it succeeds and then the second fails. -/
theorem except_bind_eq_error_iff {e : ε} :
    x >>= f = .error e ↔ x = .error e ∨ ∃ a, x = .ok a ∧ f a = .error e := by
  cases x with
  | error e' => simp [except_error_bind]
  | ok a => simp [except_ok_bind]

/-- The classes of faults of a second step come after those of a first. -/
theorem except_bind_eq_error_iff_firstOf {cs ds : List (ε → Prop)} {e : ε}
    (hx : ∀ e, x = .error e ↔ FirstOf cs e)
    (hf : ∀ a, x = .ok a → (f a = .error e ↔ FirstOf ds e)) :
    x >>= f = .error e ↔ FirstOf (cs ++ ds) e := by
  rw [firstOf_append, ← hx]
  simp only [← hx]
  cases x with
  | error e' =>
    simp only [except_error_bind, Except.error.injEq]
    refine (or_iff_left ?_).symm
    rintro ⟨h, -⟩
    exact h e' rfl
  | ok a =>
    rw [except_ok_bind, hf a rfl]
    simp

end Except

end GuardedCall

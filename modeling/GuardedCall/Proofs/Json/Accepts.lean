import GuardedCall.Proofs.Json.Flat

/-!
# What an accepted text is nested like

If a reader accepts a text, then what it reads is no deeper than the levels that it may open, and
no deeper than the text is nested; and the rest of the text is nested no deeper than the text.
This is carried through the loops that read lists and objects, and holds of values that are
skipped, as far as it says something about them.

Main definition: `Accepts`. Main statements: `accepts_items`, `accepts_members`, `accepts_skip`.
-/

namespace GuardedCall.Json

variable {α β σ : Type} {n opened m : Nat} {text rest r t₁ t₂ t₃ : List Char}
  {ok : Nat → α → Prop} {ok' : Nat → β → Prop}

/-- The rest of a text is nested no deeper than the text, at whose start so many more arrays and
objects are open. -/
def Follows (opened : Nat) (text rest : List Char) : Prop :=
  ∀ level, peak .outside level rest ≤ peak .outside (level + opened) text

/-- What opens and closes nothing leaves the rest as deep as it was. -/
theorem Flat.follows (h : Flat text rest) : Follows 0 text rest :=
  fun level => (h level).symm.le

/-- The last piece that is taken may close what was opened before. -/
theorem Follows.trans (h : Follows 0 t₁ t₂) (h' : Follows opened t₂ t₃) : Follows opened t₁ t₃ :=
  fun level => (h' level).trans (h (level + opened))

/-- A number of levels that bounds the depth of what is read from a text: the levels that may be
opened, or as many as the text opens. -/
def Bounds (n opened : Nat) (text : List Char) (m : Nat) : Prop :=
  m = n ∨ ∃ level, peak .outside (level + opened) text ≤ level + opened + m

theorem Bounds.outside (h : Bounds n opened text m) : Bounds n 0 text m :=
  h.imp_right fun ⟨level, hpeak⟩ => ⟨level + opened, hpeak⟩

/-- A bound on a text bounds what follows in it. -/
theorem Bounds.follows (h : Bounds n opened t₁ m) (ht : Follows 0 t₁ t₂) :
    Bounds n opened t₂ m :=
  h.imp_right fun ⟨level, hpeak⟩ => ⟨level, (ht (level + opened)).trans hpeak⟩

/-- With so many levels, a reader accepts only what satisfies a condition on every number of levels
that bounds the text, and leaves a rest that is nested no deeper. -/
def Accepts (opened n : Nat) (reader : Reader α) (ok : Nat → α → Prop) : Prop :=
  ∀ ⦃text x rest⦄, reader text = .ok (x, rest) →
    Follows opened text rest ∧ ∀ m, Bounds n opened text m → ok m x

/-- A condition on what is read may be weakened. -/
theorem Accepts.imp {ok₁ : Nat → α → Prop} {reader : Reader α} (h : Accepts opened n reader ok)
    (himp : ∀ m x, ok m x → ok₁ m x) : Accepts opened n reader ok₁ := by
  intro text x rest hread
  have hx := h hread
  exact ⟨hx.1, fun m hm => himp m x (hx.2 m hm)⟩

/-- What is known of the first result may be used for the second. -/
theorem Accepts.bind {f : Reader α} {g : α → Reader β} (hf : Accepts 0 n f ok)
    (hg : ∀ x, Accepts opened n (g x) fun m y => ok m x → ok' m y) :
    Accepts opened n (fun text => do
      let (x, text) ← f text
      g x text) ok' := by
  intro text y rest hread
  obtain ⟨⟨x, mid⟩, hx, hy⟩ := except_bind_eq_ok_iff.1 hread
  have hx := hf hx
  have hy := hg x hy
  refine ⟨hx.1.trans hy.1, fun m hm => ?_⟩
  exact hy.2 m (hm.follows hx.1) (hx.2 m hm.outside)

/-- A reader that takes what opens and closes nothing. -/
theorem accepts_of_flat {reader : Reader α} {P : α → Prop}
    (h : ∀ ⦃text x rest⦄, reader text = .ok (x, rest) → Flat text rest ∧ P x) :
    Accepts 0 n reader fun _ x => P x :=
  fun _ _ _ hread => ⟨(h hread).1.follows, fun _ _ => (h hread).2⟩

/-- A condition on what is read holds of what a whole text stands for, with the levels that may be
opened and with those that the text opens. -/
theorem Accepts.of_complete {reader : Reader α} {x : α} (h : Accepts 0 n reader ok)
    (hx : complete reader text = .ok x) : ok n x ∧ ok (nesting text) x := by
  obtain ⟨⟨y, rest⟩, hread, hend⟩ := except_bind_eq_ok_iff.1 hx
  dsimp only at hend
  split at hend
  · cases hend
    have hy := (h hread).2
    exact ⟨hy _ (.inl rfl), hy _ (.inr ⟨0, by simp [nesting]⟩)⟩
  · cases hend

/-! ## Lists -/

theorem follows_closeList (h : closeList text = .ok ((), rest)) : Follows 1 text rest := by
  have hblank := flat_skipBlank text
  unfold closeList at h
  split at h
  · cases h
  · rename_i heq
    cases h
    rw [heq] at hblank
    intro level
    rw [hblank, peak_closeList]
    exact Nat.le_max_right _ _
  · split at h <;> cases h
  · cases h

section Items

variable {item : Reader α}

/-- Items are read one by one, and each keeps the bound for those after it. -/
theorem accepts_itemsFrom (hitem : Accepts 0 n item ok) (fuel : Nat) (first : Bool) :
    Accepts 0 n (itemsFrom item fuel first) fun m xs => ∀ x ∈ xs, ok m x := by
  induction fuel generalizing first with
  | zero =>
    intro text xs rest h
    cases h
  | succ fuel ih =>
    intro text xs rest h
    obtain ⟨⟨more, t₁⟩, hmore, h⟩ := except_bind_eq_ok_iff.1 h
    have hflat := flat_anotherItem hmore
    dsimp only at h
    split at h
    · obtain ⟨⟨x, t₂⟩, hx, h⟩ := except_bind_eq_ok_iff.1 h
      obtain ⟨⟨xs', t₃⟩, hxs, h⟩ := except_bind_eq_ok_iff.1 h
      cases h
      have hx := hitem hx
      have hxs := ih false hxs
      have hfirst := hflat.follows.trans hx.1
      refine ⟨hfirst.trans hxs.1, fun m hm => List.forall_mem_cons.2 ⟨?_, ?_⟩⟩
      · exact hx.2 m (hm.follows hflat.follows)
      · exact hxs.2 m (hm.follows hfirst)
    · cases h
      exact ⟨hflat.follows, fun m _ => List.forall_mem_nil _⟩

/-- The condition on a list is that on its items. -/
theorem accepts_items (hitem : Accepts 0 n item ok) :
    Accepts 1 n (items item) fun m xs => ∀ x ∈ xs, ok m x := by
  intro text xs rest h
  obtain ⟨⟨xs', mid⟩, hxs, h⟩ := except_bind_eq_ok_iff.1 h
  obtain ⟨⟨_, _⟩, hclose, h⟩ := except_bind_eq_ok_iff.1 h
  cases h
  have hxs := accepts_itemsFrom hitem _ _ hxs
  exact ⟨hxs.1.trans (follows_closeList hclose), fun m hm => hxs.2 m hm.outside⟩

end Items

/-! ## Objects -/

theorem follows_closeObject (h : closeObject text = .ok ((), rest)) : Follows 1 text rest := by
  have hblank := flat_skipBlank text
  unfold closeObject at h
  split at h
  · cases h
  · rename_i heq
    cases h
    rw [heq] at hblank
    intro level
    rw [hblank, peak_closeObject]
    exact Nat.le_max_right _ _
  · cases h
  · cases h

section Members

variable {member : String → σ → Reader σ} {good : Nat → σ → Prop}

/-- Members are read one by one, and each keeps the condition on what has been read so far. -/
theorem accepts_membersFrom
    (hmember : ∀ name s, Accepts 0 n (member name s) fun m s' => good m s → good m s')
    (fuel : Nat) (first : Bool) (s : σ) :
    Accepts 0 n (membersFrom member fuel first s) fun m s' => good m s → good m s' := by
  induction fuel generalizing first s with
  | zero =>
    intro text s' rest h
    cases h
  | succ fuel ih =>
    intro text s' rest h
    obtain ⟨⟨more, t₁⟩, hmore, h⟩ := except_bind_eq_ok_iff.1 h
    cases more with
    | false =>
      cases h
      exact ⟨(flat_noMember hmore).follows, fun m _ hs => hs⟩
    | true =>
      obtain ⟨⟨name, t₂⟩, hname, h⟩ := except_bind_eq_ok_iff.1 h
      obtain ⟨⟨s₁, t₃⟩, hs₁, h⟩ := except_bind_eq_ok_iff.1 h
      have hflat : Flat text t₂ := fun level =>
        (peak_anotherMember hmore level).trans (peak_string hname level)
      have hs₁ := hmember name s hs₁
      have hs' := ih false s₁ h
      have hfirst := hflat.follows.trans hs₁.1
      refine ⟨hfirst.trans hs'.1, fun m hm hs => ?_⟩
      exact hs'.2 m (hm.follows hfirst) (hs₁.2 m (hm.follows hflat.follows) hs)

/-- A condition that every member keeps holds of the last state. -/
theorem accepts_members
    (hmember : ∀ name s, Accepts 0 n (member name s) fun m s' => good m s → good m s') (s : σ) :
    Accepts 1 n (members member s) fun m s' => good m s → good m s' := by
  intro text s' rest h
  obtain ⟨⟨s₁, mid⟩, hs, h⟩ := except_bind_eq_ok_iff.1 h
  obtain ⟨⟨_, _⟩, hclose, h⟩ := except_bind_eq_ok_iff.1 h
  cases h
  have hs := accepts_membersFrom hmember _ _ _ hs
  exact ⟨hs.1.trans (follows_closeObject hclose), fun m hm => hs.2 m hm.outside⟩

end Members

/-! ## Values that are skipped -/

theorem takesNumerals_skipDigits (h : skipDigits text = .ok rest) : TakesNumerals text rest := by
  have hdigits := takesNumerals_digits text
  unfold skipDigits at h
  split at h
  · cases h
  · rename_i heq
    cases h
    rw [heq] at hdigits
    exact hdigits

theorem takesNumerals_skipExponent (h : skipExponent text = .ok rest) :
    TakesNumerals text rest := by
  unfold skipExponent at h
  split at h
  · cases h
    exact .refl _
  · split at h
    · rename_i c t hc
      have hnumeral : isNumeral c = true := by rcases hc with rfl | rfl <;> rfl
      exact ((takesNumerals_cons hnumeral t).trans (takesNumerals_exponentSign t)).trans
        (takesNumerals_skipDigits h)
    · cases h
      exact .refl _

theorem takesNumerals_skipFraction (h : skipFraction text = .ok rest) :
    TakesNumerals text rest := by
  unfold skipFraction at h
  split at h
  · obtain ⟨r, hdigits, h⟩ := except_bind_eq_ok_iff.1 h
    exact ((takesNumerals_cons rfl _).trans (takesNumerals_skipDigits hdigits)).trans
      (takesNumerals_skipExponent h)
  · exact takesNumerals_skipExponent h

/-- A number that is skipped takes characters of numbers, whatever they amount to. -/
theorem takesNumerals_skipUnsigned (h : skipUnsigned text = .ok rest) :
    TakesNumerals text rest := by
  unfold skipUnsigned at h
  split at h
  · cases h
  · rename_i c t
    dsimp only at h
    split at h
    · rename_i hc
      subst hc
      have hfraction : skipFraction t = .ok rest := by
        split at h
        · split at h
          · cases h
          · exact h
        · exact h
      exact (takesNumerals_cons rfl t).trans (takesNumerals_skipFraction hfraction)
    · obtain ⟨r, hdigits, h⟩ := except_bind_eq_ok_iff.1 h
      exact (takesNumerals_skipDigits hdigits).trans (takesNumerals_skipFraction h)

theorem flat_skipWord {letters : List Char} (hletters : ∀ c ∈ letters, isPlain c = true)
    (h : Prod.snd <$> word letters text = .ok rest) : Flat text rest := by
  cases hword : word letters text with
  | error f =>
    rw [hword] at h
    cases h
  | ok p =>
    rw [hword] at h
    cases h
    exact flat_word hletters hword

/-- A scalar that is skipped opens and closes nothing. -/
theorem flat_skipScalar (h : skipScalar text = .ok rest) : Flat text rest := by
  unfold skipScalar at h
  split at h
  · cases h
  · exact (flat_cons rfl _).trans (flat_skipWord (isPlain_of_all rfl) h)
  · exact (flat_cons rfl _).trans (flat_skipWord (isPlain_of_all rfl) h)
  · exact (flat_cons rfl _).trans (flat_skipWord (isPlain_of_all rfl) h)
  · exact peak_skipString h
  · exact (flat_cons rfl _).trans (takesNumerals_skipUnsigned h).flat
  · split at h
    · exact (takesNumerals_skipUnsigned h).flat
    · cases h

theorem flat_skipName (h : skipName text = .ok rest) : Flat text rest := by
  have hblank := flat_skipBlank text
  unfold skipName at h
  split at h
  · cases h
  · rename_i heq
    obtain ⟨t, hname, h⟩ := except_bind_eq_ok_iff.1 h
    obtain ⟨⟨_, _⟩, hcolon, h⟩ := except_bind_eq_ok_iff.1 h
    cases h
    rw [heq] at hblank
    have hstring : Flat ('"' :: _) t := peak_skipString hname
    exact (hblank.trans hstring).trans (flat_colon hcolon)
  · cases h

theorem flat_skipToValue {e : Enclosing} (h : skipToValue e text = .ok rest) : Flat text rest := by
  cases e with
  | list =>
    cases h
    exact .refl _
  | object => exact flat_skipName h

/-- Either closing character ends one level. -/
theorem peak_close (e : Enclosing) (level : Nat) (text : List Char) :
    peak .outside (level + 1) (e.close :: text) = max (level + 1) (peak .outside level text) := by
  cases e
  · exact peak_closeList
  · exact peak_closeObject

/-- Skipping on from inside some arrays and objects closes all of them. -/
theorem follows_skipFrom {fuel : Nat} {place : Place} {within : List Enclosing}
    (h : skipFrom fuel place within text = .ok rest) : Follows within.length text rest := by
  fun_induction skipFrom fuel place within text with
  | case1 => cases h
  | case2 fuel within text t heq ih =>
    intro level
    rw [flat_skipBlank text, heq, peak_openList]
    exact ih h level
  | case3 fuel within text t heq ih =>
    intro level
    rw [flat_skipBlank text, heq, peak_openObject]
    exact ih h level
  | case4 fuel within text _ _ ih =>
    obtain ⟨t, hscalar, h⟩ := except_bind_eq_ok_iff.1 h
    exact ((flat_skipBlank text).trans (flat_skipScalar hscalar)).follows.trans (ih t h)
  | case5 =>
    cases h
    exact (Flat.refl _).follows
  | case6 => cases h
  | case7 fuel place e within text _ t heq ih =>
    intro level
    rw [flat_skipBlank text, heq, List.length_cons, ← Nat.add_assoc, peak_close]
    exact (ih h level).trans (Nat.le_max_right _ _)
  | case8 fuel e within text c t heq _ _ ih =>
    obtain ⟨start, hstart, h⟩ := except_bind_eq_ok_iff.1 h
    have hblank := flat_skipBlank text
    rw [heq] at hblank
    exact (hblank.trans (flat_skipToValue hstart)).follows.trans (ih start h)
  | case9 fuel place e within text _ t _ heq _ ih =>
    obtain ⟨start, hstart, h⟩ := except_bind_eq_ok_iff.1 h
    have hblank := flat_skipBlank text
    rw [heq] at hblank
    have hcomma := hblank.trans (flat_cons rfl t)
    exact (hcomma.trans (flat_skipToValue hstart)).follows.trans (ih start h)
  | case10 => cases h

theorem accepts_skip : Accepts 0 n skip fun _ _ => True := by
  intro text x rest h
  obtain ⟨t, hskip, h⟩ := except_bind_eq_ok_iff.1 h
  cases h
  exact ⟨follows_skipFrom hskip, fun _ _ => trivial⟩

end GuardedCall.Json

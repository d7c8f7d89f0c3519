import GuardedCall.Entries

/-!
# Look-ups in entries

What a look-up finds in entries that need not have distinct names, and what changes if they do:
then an entry is found wherever it stands, so the order of the entries does not matter. Entries
that are put one after another get distinct names, and stay as they are if their names are distinct
already.

Main statements: `Entries.get?_append`, `Entries.get?_eq_some_iff`, `Entries.get?_perm`,
`Entries.nodup_keys_collect`, `Entries.collect_eq_self`.
-/

namespace GuardedCall.Entries

variable {α : Type} {es fs : Entries α} {name : String} {x : α}

theorem keys_append (es fs : Entries α) : keys (es ++ fs) = keys es ++ keys fs :=
  List.map_append

theorem mem_keys_of_mem (h : (name, x) ∈ es) : name ∈ keys es :=
  List.mem_map_of_mem h

@[simp] theorem get?_nil : get? ([] : Entries α) name = none := rfl

theorem get?_cons (e : String × α) (es : Entries α) (name : String) :
    get? (e :: es) name = if e.1 = name then some e.2 else get? es name := rfl

theorem get?_eq_none_iff : get? es name = none ↔ name ∉ keys es := by
  induction es with
  | nil => simp
  | cons e es ih =>
    rw [get?_cons, keys_cons, List.mem_cons, not_or]
    by_cases h : e.1 = name
    · simp [h]
    · rw [if_neg h, ih]
      exact ⟨fun hn => ⟨Ne.symm h, hn⟩, fun hn => hn.2⟩

theorem get?_isSome_iff : (get? es name).isSome = true ↔ name ∈ keys es := by
  rw [Option.isSome_iff_ne_none, ne_eq, get?_eq_none_iff, Decidable.not_not]

/-- The entries in front come first. -/
theorem get?_append (es fs : Entries α) (name : String) :
    get? (es ++ fs) name = (get? es name).or (get? fs name) := by
  induction es with
  | nil => rfl
  | cons e es ih =>
    rw [List.cons_append, get?_cons, get?_cons]
    by_cases h : e.1 = name
    · rw [if_pos h, if_pos h]
      rfl
    · rw [if_neg h, if_neg h, ih]

theorem mem_of_get?_eq_some (h : get? es name = some x) : (name, x) ∈ es := by
  induction es with
  | nil => cases h
  | cons e es ih =>
    rw [get?_cons] at h
    split at h
    · rename_i he
      cases h
      rw [← he]
      exact List.mem_cons_self
    · exact List.mem_cons_of_mem e (ih h)

/-- Where names are distinct, what is found is what is there. -/
theorem get?_eq_some_iff (h : (keys es).Nodup) : get? es name = some x ↔ (name, x) ∈ es := by
  refine ⟨mem_of_get?_eq_some, fun hx => ?_⟩
  induction es with
  | nil => cases hx
  | cons e es ih =>
    rw [keys_cons, List.nodup_cons] at h
    rw [get?_cons]
    rcases List.mem_cons.1 hx with rfl | hx
    · exact if_pos rfl
    · have hne : e.1 ≠ name := fun he => h.1 (he ▸ mem_keys_of_mem hx)
      rw [if_neg hne]
      exact ih h.2 hx

/-- Where names are distinct, the order of the entries does not matter. -/
theorem get?_perm (h : es.Perm fs) (hn : (keys es).Nodup) (name : String) :
    get? es name = get? fs name := by
  have hn' : (keys fs).Nodup := (h.map Prod.fst).nodup_iff.1 hn
  apply Option.ext
  intro x
  rw [get?_eq_some_iff hn, get?_eq_some_iff hn']
  exact h.mem_iff

/-- The names of names paired with values are those that have a value. -/
theorem keys_zip (names : List String) (xs : List α) :
    keys (names.zip xs) = names.take xs.length := by
  induction names generalizing xs with
  | nil => simp
  | cons n names ih =>
    cases xs with
    | nil => rfl
    | cons x xs => simp [ih]

/-! ## Entries put one after another -/

/-- A new name goes to the end. -/
theorem put_of_notMem (h : name ∉ keys es) : es.put name x = es ++ [(name, x)] := by
  induction es with
  | nil => rfl
  | cons e es ih =>
    obtain ⟨n, y⟩ := e
    rw [keys_cons, List.mem_cons, not_or] at h
    rw [put, if_neg (Ne.symm h.1), ih h.2]
    rfl

/-- What is there after a value has been put is this value, or was there before. -/
theorem mem_of_mem_put {e : String × α} (h : e ∈ es.put name x) : e = (name, x) ∨ e ∈ es := by
  induction es with
  | nil => exact Or.inl (List.mem_singleton.1 h)
  | cons d es ih =>
    obtain ⟨n, y⟩ := d
    rw [put] at h
    split at h
    · rename_i hn
      subst hn
      rcases List.mem_cons.1 h with he | he
      · exact Or.inl he
      · exact Or.inr (List.mem_cons_of_mem _ he)
    · rcases List.mem_cons.1 h with he | he
      · exact Or.inr (he ▸ List.mem_cons_self)
      · exact (ih he).imp_right (List.mem_cons_of_mem _)

theorem nodup_keys_put (h : (keys es).Nodup) (name : String) (x : α) :
    (keys (es.put name x)).Nodup := by
  rw [keys_put]
  split
  · exact h
  · rename_i hname
    rw [List.nodup_append]
    refine ⟨h, List.nodup_cons.2 ⟨List.not_mem_nil, List.nodup_nil⟩, ?_⟩
    rintro n hn m hm rfl
    exact hname (List.mem_singleton.1 hm ▸ hn)

/-- Names are distinct in what results from putting entries one after another. -/
theorem nodup_keys_collect (es : Entries α) : (keys (collect es)).Nodup := by
  have hfold (m : Entries α) (hm : (keys m).Nodup) :
      (keys (es.foldl (fun m e => put m e.1 e.2) m)).Nodup := by
    induction es generalizing m with
    | nil => exact hm
    | cons e es ih => exact ih _ (nodup_keys_put hm e.1 e.2)
  exact hfold [] List.nodup_nil

/-- Nothing is there but what has been put. -/
theorem mem_of_mem_collect {e : String × α} (h : e ∈ collect es) : e ∈ es := by
  have hfold (m es : Entries α) (h : e ∈ es.foldl (fun m e => put m e.1 e.2) m) :
      e ∈ m ∨ e ∈ es := by
    induction es generalizing m with
    | nil => exact Or.inl h
    | cons d es ih =>
      rcases ih _ h with hm | he
      · rcases mem_of_mem_put hm with rfl | hm
        · exact Or.inr List.mem_cons_self
        · exact Or.inl hm
      · exact Or.inr (List.mem_cons_of_mem d he)
  exact (hfold [] es h).resolve_left List.not_mem_nil

/-- Entries with distinct names stay as they are. -/
theorem collect_eq_self (h : (keys es).Nodup) : collect es = es := by
  have hfold (m : Entries α) (hm : (keys (m ++ es)).Nodup) :
      es.foldl (fun m e => put m e.1 e.2) m = m ++ es := by
    induction es generalizing m with
    | nil => exact (List.append_nil m).symm
    | cons e es ih =>
      have hnew : e.1 ∉ keys m := by
        rw [keys_append, List.nodup_append] at hm
        intro he
        exact hm.2.2 _ he _ List.mem_cons_self rfl
      have hsplit : m ++ e :: es = (m ++ [e]) ++ es := by simp
      rw [hsplit] at hm ⊢
      rw [keys_cons, List.nodup_cons] at h
      rw [List.foldl_cons, put_of_notMem hnew]
      exact ih h.2 (m ++ [e]) hm
  exact hfold [] h

end GuardedCall.Entries

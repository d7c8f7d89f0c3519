import GuardedCall.Proofs.Decimal.Finite
import GuardedCall.Proofs.Json.Parsed
import GuardedCall.Proofs.Natural.Plain
import GuardedCall.Proofs.Tagged.Floats

/-!
# Values and data that keep each other

What data stands for is plain, so that the plain values are exactly those that are given back by
their data. Well-formed data is kept by the value that it stands for, up to its whole numbers: one
that has no 64 bits with a sign becomes a floating point number, and nothing else changes. All whole
numbers in the data that is written of a value have 64 bits with a sign, so that data is kept; and
what is read from a text, written and read again is the same value.

Main statements: `Value.written_toJson`, `Value.toJson_ofJson_iff`, `Value.plain_ofJson`,
`Value.ofJson_toJson_iff`, `data_kept_iff_integers_fit`.
-/

namespace GuardedCall

open Json

namespace Value

variable {P : Binary64 → Prop} {j : Json} {v : Value}

/-! ## Data that is written of values -/

/-- A whole number that is a byte has 64 bits. -/
theorem everywhere_written_bytes (bs : List UInt8) :
    (Json.arr (bs.map fun b => .int b.toNat)).Everywhere (Written P) := by
  refine everywhere_arr.2 ⟨trivial, List.forall_mem_map.2 fun b _ => ?_⟩
  exact (Json.everywhere_leaf rfl).2 (Tagged.fitsSigned_byte b)

/-- An object with one member has no other member of that name. -/
theorem everywhere_written_marked {name : String} (h : j.Everywhere (Written P)) :
    (Json.obj [(name, j)]).Everywhere (Written P) :=
  everywhere_obj.2 ⟨List.nodup_cons.2 ⟨List.not_mem_nil, List.nodup_nil⟩,
    List.forall_mem_singleton.2 h⟩

/-- Whatever a value is, the data that is written of it has whole numbers of 64 bits with a sign,
finite floating point numbers of the value only, and members with distinct names. -/
theorem written_toJson (h : AllFloats P v) : (toJson v).Everywhere (Written P) := by
  induction v using Value.inductionOn with
  | null => exact (Json.everywhere_leaf rfl).2 trivial
  | bool b => exact (Json.everywhere_leaf rfl).2 trivial
  | int n => exact (Json.everywhere_leaf rfl).2 (Word64.fitsSigned_toInt n)
  | float x =>
    rw [toJson]
    split
    · rename_i hx
      exact (Json.everywhere_leaf rfl).2 ⟨hx, allFloats_float.1 h⟩
    · exact (Json.everywhere_leaf rfl).2 trivial
  | str s => exact (Json.everywhere_leaf rfl).2 trivial
  | bytes bs => exact everywhere_written_marked (everywhere_written_bytes bs)
  | list vs ih =>
    rw [allFloats_list, allFloats_iff_forall_mem] at h
    rw [toJson, toJsonItems_eq_map]
    exact everywhere_arr.2 ⟨trivial, List.forall_mem_map.2 fun v hv => ih v hv (h v hv)⟩
  | tuple vs ih =>
    rw [allFloats_tuple, allFloats_iff_forall_mem] at h
    rw [toJson, toJsonItems_eq_map]
    exact everywhere_written_marked
      (everywhere_arr.2 ⟨trivial, List.forall_mem_map.2 fun v hv => ih v hv (h v hv)⟩)
  | dict es ih =>
    rw [allFloats_dict, allFloats_iff_forall_mem] at h
    rw [toJson, everywhere_obj]
    -- entries whose keys have one name are merged, but what is left is made of entries
    refine ⟨Entries.nodup_keys_collect _, fun m hm => ?_⟩
    have hm := Entries.mem_of_mem_collect hm
    rw [toJsonMembers_eq_map] at hm
    obtain ⟨e, he, rfl⟩ := List.mem_map.1 hm
    exact (ih e he).2 (allFloats_pair.1 (h e he)).2

theorem allFloats_true (v : Value) : AllFloats (fun _ => True) v := fun _ _ => trivial

theorem wellFormed_toJson (v : Value) : (toJson v).WellFormed :=
  (written_toJson (allFloats_true v)).imp fun _ h => h.proper

theorem fitsSigned_toJson (v : Value) : (toJson v).Everywhere FitsSigned :=
  (written_toJson (allFloats_true v)).imp fun _ h => h.fitsSigned

/-! ## Values that data stands for -/

/-- The members of a value that an object stands for are those of the object. -/
theorem toJsonMembers_ofJsonMembers (es : List (String × Json)) :
    toJsonMembers (ofJsonMembers es) = es.map fun e => (e.1, toJson (ofJson e.2)) := by
  rw [ofJsonMembers_eq_map, toJsonMembers_eq_map, List.map_map]
  rfl

/-- If the members of an object have distinct names, none are merged. -/
theorem toJson_ofJson_obj {es : List (String × Json)} (h : (Entries.keys es).Nodup) :
    toJson (ofJson (.obj es)) = .obj (es.map fun e => (e.1, toJson (ofJson e.2))) := by
  have hkeys : Entries.keys (es.map fun e => (e.1, toJson (ofJson e.2))) = Entries.keys es := by
    rw [Entries.keys, List.map_map]
    rfl
  rw [ofJson, toJson, toJsonMembers_ofJsonMembers, Entries.collect_eq_self]
  rw [hkeys]
  exact h

theorem toJson_ofJson_arr (xs : List Json) :
    toJson (ofJson (.arr xs)) = .arr (xs.map fun x => toJson (ofJson x)) := by
  rw [ofJson, toJson, ofJsonItems_eq_map, toJsonItems_eq_map, List.map_map]
  rfl

/-- A whole number is kept exactly if it has 64 bits with its sign: else it becomes a floating
point number. -/
theorem toJson_ofWhole_iff (n : Int) :
    toJson (ofWhole n) = .int n ↔ Word64.fitsSigned n = true := by
  rw [ofWhole]
  split
  · rename_i h
    rw [toJson, Word64.toInt_ofInt h]
    exact iff_of_true rfl h
  · rename_i h
    -- what it becomes is written as a floating point number or as null
    refine iff_of_false (fun hint => ?_) h
    rw [toJson] at hint
    split at hint <;> cases hint

/-- Well-formed data is kept by the value that it stands for exactly if its whole numbers have 64
bits with a sign. -/
theorem toJson_ofJson_iff (h : j.WellFormed) :
    toJson (ofJson j) = j ↔ j.Everywhere FitsSigned := by
  induction j using Json.inductionOn with
  | null => exact iff_of_true rfl ((Json.everywhere_leaf rfl).2 trivial)
  | bool b => exact iff_of_true rfl ((Json.everywhere_leaf rfl).2 trivial)
  | str s => exact iff_of_true rfl ((Json.everywhere_leaf rfl).2 trivial)
  | int n =>
    have hint : (Json.int n).Everywhere FitsSigned ↔ Word64.fitsSigned n = true :=
      Json.everywhere_leaf rfl
    exact (toJson_ofWhole_iff n).trans hint.symm
  | float x =>
    have hx : x.isFinite = true := (Json.everywhere_leaf rfl).1 h
    refine iff_of_true ?_ ((Json.everywhere_leaf rfl).2 trivial)
    rw [ofJson, toJson, if_pos hx]
  | arr xs ih =>
    rw [wellFormed_arr] at h
    rw [toJson_ofJson_arr, everywhere_arr, Json.arr.injEq, map_eq_self_iff]
    refine Iff.trans ?_ (and_iff_right trivial).symm
    exact forall_congr' fun x => imp_congr_right fun hx => ih x hx (h x hx)
  | obj es ih =>
    rw [wellFormed_obj] at h
    rw [toJson_ofJson_obj h.1, everywhere_obj, Json.obj.injEq, map_eq_self_iff]
    refine Iff.trans ?_ (and_iff_right trivial).symm
    refine forall_congr' fun e => imp_congr_right fun he => ?_
    rw [Prod.ext_iff, and_iff_right rfl]
    exact ih e he (h.2 e he)

/-- What well-formed data stands for is plain: a whole number that is too wide is still finite. -/
theorem plain_ofJson (h : j.WellFormed) : (ofJson j).Plain := by
  induction j using Json.inductionOn with
  | null => exact (everywhere_leaf rfl).2 trivial
  | bool b => exact (everywhere_leaf rfl).2 trivial
  | str s => exact (everywhere_leaf rfl).2 trivial
  | float x =>
    have hx : x.isFinite = true := (Json.everywhere_leaf rfl).1 h
    exact (everywhere_leaf rfl).2 hx
  | int n =>
    have hn := Binary64.isFinite_ofInt ((Json.everywhere_leaf rfl).1 h)
    rw [ofJson, ofWhole]
    split
    · exact (everywhere_leaf rfl).2 trivial
    · exact (everywhere_leaf rfl).2 hn
  | arr xs ih =>
    rw [wellFormed_arr] at h
    rw [ofJson, plain_list, ofJsonItems_eq_map]
    exact List.forall_mem_map.2 fun x hx => ih x hx (h x hx)
  | obj es ih =>
    rw [wellFormed_obj] at h
    rw [ofJson, plain_dict]
    refine ⟨direct_dict_ofJsonMembers h.1, ?_⟩
    rw [ofJsonMembers_eq_map]
    exact List.forall_mem_map.2 fun e he => ih e he (h.2 e he)

/-- **Plain values are those that are given back by their data**, with all bits of their floating
point numbers and the order of their entries. What data stands for is always plain, so no other
value is given back. -/
theorem ofJson_toJson_iff (v : Value) : ofJson (toJson v) = v ↔ v.Plain := by
  refine ⟨fun h => ?_, ofJson_toJson_of_plain⟩
  rw [← h]
  exact plain_ofJson (wellFormed_toJson v)

/-- Data does not get deeper. -/
theorem depth_toJson_ofJson_le (h : j.WellFormed) : depth (toJson (ofJson j)) ≤ depth j := by
  induction j using Json.inductionOn with
  | null => exact Nat.le_refl 0
  | bool b => exact Nat.le_refl 0
  | str s => exact Nat.le_refl 0
  | float x =>
    rw [ofJson, toJson]
    split <;> exact Nat.le_refl 0
  | int n =>
    rw [ofJson, ofWhole]
    split
    · exact Nat.le_refl 0
    · rw [toJson]
      split <;> exact Nat.le_refl 0
  | arr xs ih =>
    rw [wellFormed_arr] at h
    have hxs := depthItems_le_iff.1 (Nat.le_refl (depthItems xs))
    rw [toJson_ofJson_arr, depth, depth, Nat.add_le_add_iff_right, depthItems_le_iff]
    exact List.forall_mem_map.2 fun x hx => (ih x hx (h x hx)).trans (hxs x hx)
  | obj es ih =>
    rw [wellFormed_obj] at h
    have hes := depthMembers_le_iff.1 (Nat.le_refl (depthMembers es))
    rw [toJson_ofJson_obj h.1, depth, depth, Nat.add_le_add_iff_right, depthMembers_le_iff]
    exact List.forall_mem_map.2 fun e he => (ih e he (h.2 e he)).trans (hes e he)

end Value

open Value

/-- **Data is kept exactly if its integers fit.**  Well-formed data is kept by the value that it
stands for if and only if all its whole numbers have 64 bits with a sign. So the data of any value
is kept, and the value that a text stands for is read again from what is written of it; its
floating point numbers are assumed to be read back. -/
theorem data_kept_iff_integers_fit :
    (∀ j : Json, j.WellFormed → (toJson (ofJson j) = j ↔ j.Everywhere FitsSigned)) ∧
      (∀ v : Value, toJson (ofJson (toJson v)) = toJson v) ∧
      ∀ (text : String) (j : Json), Json.parse text.toList = .ok j →
        AllFloats ReadsBack (ofJson j) →
          ∃ k, Json.parse (render (toJson (ofJson j))).toList = .ok k ∧ ofJson k = ofJson j := by
  refine ⟨fun j hj => toJson_ofJson_iff hj, fun v => ?_, fun text j hparse hback => ?_⟩
  · exact (toJson_ofJson_iff (wellFormed_toJson v)).2 (fitsSigned_toJson v)
  · obtain ⟨hj, hdepth⟩ := readable_of_parse hparse
    refine ⟨toJson (ofJson j), ?_, ofJson_toJson_of_plain (plain_ofJson hj)⟩
    rw [render, String.toList_ofList]
    exact parse_print (written_toJson hback) ((depth_toJson_ofJson_le hj).trans hdepth)

/-- An array with the first integer beyond the signed range and the last one in it: the former is
not kept, and what is written instead has the same value. -/
theorem data_kept_iff_integers_fit_wide :
    let text := "[9223372036854775808, -9223372036854775808]"
    let j : Json := .arr [.int 9223372036854775808, .int (-9223372036854775808)]
    (j.WellFormed ∧ toJson (ofJson j) ≠ j) ∧
      Json.parse text.toList = .ok j ∧ AllFloats ReadsBack (ofJson j) ∧
        ∃ k, Json.parse (render (toJson (ofJson j))).toList = .ok k ∧ ofJson k = ofJson j := by
  intro text j
  obtain ⟨hkept, -, hread⟩ := data_kept_iff_integers_fit
  have hparse : Json.parse text.toList = .ok j := by
    subst text j
    rfl
  have hj : j.WellFormed := (readable_of_parse hparse).1
  have hback : AllFloats ReadsBack (ofJson j) :=
    List.forall_mem_singleton.2 fun _ => by decide +kernel
  refine ⟨⟨hj, fun h => ?_⟩, hparse, hback, hread text j hparse hback⟩
  have hfits := everywhere_arr.1 ((hkept j hj).1 h)
  have hwide : Word64.fitsSigned 9223372036854775808 = true :=
    (Json.everywhere_leaf rfl).1 (hfits.2 _ List.mem_cons_self)
  cases hwide

end GuardedCall

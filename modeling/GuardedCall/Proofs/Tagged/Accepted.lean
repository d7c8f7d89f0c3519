import GuardedCall.Proofs.Tagged.Accepts
import GuardedCall.Proofs.Tagged.RoundTrip

/-!
# What is read is legible

For each tagged type: a value that has been read holds finite floating point numbers only, and
what is written of it is no deeper than the text that it was read from. A text may spell a value in
ways that are never written, with aliases, records as lists, whole numbers for floating point
numbers, and fields left out or unknown; what is written of the value is as deep as it must be.

Main statements: `Value.accepts_read`, and `accepts_reader` of every other type.
-/

namespace GuardedCall

open Json Tagged

variable {α : Type} {n : Nat}

/-! ## Options and lists -/

section Shared

variable [HasFloats α] {write : α → Json}

/-- Nothing is written as null, which is as legible as can be. -/
theorem legible_none {m : Nat} : Legible (writeOption write) m none :=
  ⟨allFloats_of_eq_nil rfl, Nat.zero_le m⟩

/-- A field that may be left out as well as be null is legible if what it holds is. -/
theorem legible_getD {m : Nat} {x?? : Option (Option α)}
    (h : ∀ x? ∈ x??, Legible (writeOption write) m x?) :
    Legible (writeOption write) m (x??.getD none) := by
  cases x?? with
  | none => exact legible_none
  | some x? => exact h x? rfl

/-- What may be null is legible if it is where it is there. -/
theorem accepts_optional {item : Reader α} (h : Accepts 0 n item (Legible write)) :
    Accepts 0 n (option item) (Legible (writeOption write)) := by
  refine (accepts_option h).imp fun m x? hx => ?_
  cases x? with
  | none => exact legible_none
  | some x => exact ⟨allFloats_option.2 fun y hy => (hx y hy).1, (hx x rfl).2⟩

/-- A list takes one level, so its items are read with one level less. -/
theorem accepts_several {item : Nat → Reader α}
    (h : ∀ m < n, Accepts 0 m (item m) (Legible write)) :
    Accepts 0 n (listOf n item) (Legible (writeList write)) := by
  refine (accepts_listOf h).imp fun m xs hxs => ?_
  have hdepth : depthItems (xs.map write) ≤ m - 1 := by
    rw [depthItems_le_iff, List.forall_mem_map]
    exact fun x hx => (hxs.2 x hx).2
  refine ⟨allFloats_iff_forall_mem.2 fun x hx => (hxs.2 x hx).1, ?_⟩
  rw [writeList, depth]
  omega

end Shared

/-- A field that must be there has been read where the record is complete. -/
theorem of_requiredField {name : String} {x? : Option α} {x : α}
    (h : requiredField name x? = .ok x) : x? = some x := by
  cases x? with
  | none => cases h
  | some y =>
    cases h
    rfl

/-! ## Values -/

namespace Value

/-- An entry of a dictionary is a pair, one level deeper than its key and its value. -/
theorem accepts_readEntry (h : ∀ m < n, Accepts 0 m (read m) (Legible encode)) :
    Accepts 0 n (readEntry n) (Legible encodeEntry) := by
  rw [readEntry_eq]
  refine accepts_sequence .pair fun m hm => ?_
  refine (accepts_twoElements .pair (h m hm) (h m hm)).imp fun k e he => ?_
  refine ⟨allFloats_pair.2 ⟨he.1.1, he.2.1⟩, ?_⟩
  have hdepth : depthItems [encode e.1, encode e.2] ≤ k := by
    rw [depthItems_le_iff]
    simp [he.1.2, he.2.2]
  rw [encodeEntry, depth]
  exact Nat.succ_le_succ hdepth

/-- The contents of a variant have one level less than it. -/
theorem depth_variant_le {name : String} {j : Json} {m : Nat} (h : depth j ≤ m) :
    depth (.obj [(name, j)]) ≤ m + 1 := by
  rw [depth, depthMembers, depthMembers, Nat.max_eq_left (Nat.zero_le _)]
  exact Nat.succ_le_succ h

/-- The contents of a variant are legible if the values inside are, which are read on fewer
levels. -/
theorem accepts_contents {level : Nat} {items : Reader (List Value)}
    {entries : Reader (List (Value × Value))}
    (hitems : Accepts 0 level items (Legible (writeList encode)))
    (hentries : Accepts 0 level entries (Legible (writeList encodeEntry))) (t : Tag) :
    Accepts 0 level (contents level items entries t) fun k v => Legible encode (k + 1) v := by
  cases t with
  | null => exact accepts_noContents fun m => ⟨allFloats_of_eq_nil rfl, Nat.zero_le _⟩
  | bool =>
    exact accepts_mapResult bool accepts_bool fun m b _ =>
      ⟨allFloats_of_eq_nil rfl, depth_variant_le (Nat.zero_le m)⟩
  | int =>
    exact accepts_mapResult int accepts_int64 fun m i _ =>
      ⟨allFloats_of_eq_nil rfl, depth_variant_le (Nat.zero_le m)⟩
  | float =>
    refine accepts_mapResult float accepts_float fun m y hy => ⟨allFloats_float.2 hy, ?_⟩
    rw [encode, if_pos hy]
    exact depth_variant_le (Nat.zero_le m)
  | str =>
    exact accepts_mapResult str accepts_str fun m s _ =>
      ⟨allFloats_of_eq_nil rfl, depth_variant_le (Nat.zero_le m)⟩
  | bytes =>
    have hbytes := accepts_listOf (n := level) fun m _ => accepts_byte (n := m)
    refine accepts_mapResult bytes hbytes fun m bs hbs => ⟨allFloats_of_eq_nil rfl, ?_⟩
    have hdepth : depthItems (bs.map fun b => .int b.toNat) ≤ 0 := by
      rw [depthItems_le_iff, List.forall_mem_map]
      exact fun b _ => Nat.le_refl 0
    rw [encode]
    refine depth_variant_le ?_
    rw [depth]
    omega
  | list =>
    refine accepts_mapResult list hitems fun m vs hvs => ⟨allFloats_list.2 hvs.1, ?_⟩
    rw [encode, encodeItems_eq]
    exact depth_variant_le hvs.2
  | tuple =>
    refine accepts_mapResult tuple hitems fun m vs hvs => ⟨allFloats_tuple.2 hvs.1, ?_⟩
    rw [encode, encodeItems_eq]
    exact depth_variant_le hvs.2
  | dict =>
    refine accepts_mapResult dict hentries fun m es hes => ⟨allFloats_dict.2 hes.1, ?_⟩
    rw [encode, encodeEntries_eq]
    exact depth_variant_le hes.2

/-- What is read as a value is legible. -/
theorem accepts_read (n : Nat) : Accepts 0 n (read n) (Legible encode) := by
  -- all values inside are read on fewer levels
  induction n using Nat.strong_induction_on with
  | _ n ih =>
    rw [read_eq]
    refine accepts_variant (fun t v hv m => ?_) fun m hm t => ?_
    · cases t with
      | null =>
        cases hv
        exact ⟨allFloats_of_eq_nil rfl, Nat.zero_le m⟩
      | _ => cases hv
    · have hlower (k : Nat) (hk : k < m) := ih k (hk.trans hm)
      refine accepts_contents ?_ ?_ t
      · rw [readItems_eq]
        exact accepts_several hlower
      · rw [readEntries_eq]
        exact accepts_several fun k hk => accepts_readEntry fun i hi => hlower i (hi.trans hk)

/-- Entries can be read without the dictionary around them. -/
theorem accepts_readEntries (n : Nat) :
    Accepts 0 n (readEntries n) (Legible fun es => .arr (encodeEntries es)) := by
  rw [readEntries_eq]
  refine (accepts_several fun m _ => accepts_readEntry fun k _ => accepts_read k).imp
    fun m es hes => ⟨hes.1, ?_⟩
  show depth (.arr (encodeEntries es)) ≤ m
  rw [encodeEntries_eq]
  exact hes.2

/-- A variant of another type that holds a value. -/
theorem accepts_inside [Tagged α] [HasFloats α] {f : Value → α} {name : String}
    (hfloats : ∀ v, HasFloats.floats (f v) = v.floats)
    (hencode : ∀ v, Tagged.encode (f v) = .obj [(name, encode v)]) (m : Nat) :
    Accepts 0 m (mapResult f (read m)) fun k x => Legible Tagged.encode (k + 1) x := by
  refine accepts_mapResult f (accepts_read m) fun k v hv => ⟨fun y hy => ?_, ?_⟩
  · rw [hfloats] at hy
    exact hv.1 y hy
  · rw [hencode]
    exact depth_variant_le hv.2

end Value

/-! ## Kinds, policies and failures -/

/-- A kind is written as its name, which no level limits. -/
theorem Kind.accepts_reader (n : Nat) : Accepts 0 n (reader (α := Kind) n) (Legible encode) :=
  accepts_enumeration.imp fun m _ _ => ⟨allFloats_of_eq_nil rfl, Nat.zero_le m⟩

theorem FailureKind.accepts_reader (n : Nat) :
    Accepts 0 n (reader (α := FailureKind) n) (Legible encode) :=
  accepts_enumeration.imp fun m _ _ => ⟨allFloats_of_eq_nil rfl, Nat.zero_le m⟩

namespace Policy

/-- A policy is an object of truth values. -/
theorem legible (p : Policy) (m : Nat) : Legible encode (m + 1) p :=
  ⟨allFloats_of_eq_nil rfl, Nat.succ_le_succ (Nat.zero_le m)⟩

theorem accepts_member (name : String) (fs : Fields) :
    Accepts 0 n (member name fs) fun _ _ => True → True := by
  unfold member
  split
  · exact accepts_field accepts_bool fun _ _ _ _ => trivial
  · exact accepts_field accepts_bool fun _ _ _ _ => trivial
  · exact accepts_unknownField fun _ _ => trivial

/-- The flags of a policy may be left out at the end of a list. -/
theorem accepts_readList : Accepts 1 n readList fun m p => Legible encode (m + 1) p := by
  intro text p rest hread
  refine ⟨?_, fun m _ => p.legible m⟩
  obtain ⟨⟨x?, t⟩, hx, hread⟩ := except_bind_eq_ok_iff.1 hread
  have hx := (accepts_element? (n := n) true accepts_bool hx).1
  dsimp only at hread
  split at hread
  · obtain ⟨⟨y?, t'⟩, hy, hread⟩ := except_bind_eq_ok_iff.1 hread
    obtain ⟨⟨_, _⟩, hclose, hread⟩ := except_bind_eq_ok_iff.1 hread
    cases hread
    have hy := (accepts_element? (n := n) false accepts_bool hy).1
    exact (hx.trans hy).trans (follows_closeList hclose)
  · obtain ⟨⟨y?, t'⟩, hy, hread⟩ := except_bind_eq_ok_iff.1 hread
    cases hy
    obtain ⟨⟨_, _⟩, hclose, hread⟩ := except_bind_eq_ok_iff.1 hread
    cases hread
    exact hx.trans (follows_closeList hclose)

theorem accepts_reader (n : Nat) : Accepts 0 n (reader (α := Policy) n) (Legible encode) := by
  refine accepts_record _ (fun m _ => ?_) fun m _ => accepts_readList
  exact accepts_fieldsThen accepts_member (fun _ => trivial) fun m fs p _ _ => p.legible m

end Policy

namespace Mismatch

/-- A mismatch is an object of names. -/
theorem legible (x : Mismatch) (m : Nat) : Legible encode (m + 1) x :=
  ⟨allFloats_of_eq_nil rfl, Nat.succ_le_succ (Nat.zero_le m)⟩

theorem accepts_member (name : String) (fs : Fields) :
    Accepts 0 n (member n name fs) fun _ _ => True → True := by
  unfold member
  split
  · exact accepts_field accepts_str fun _ _ _ _ => trivial
  · exact accepts_field (Kind.accepts_reader n) fun _ _ _ _ => trivial
  · exact accepts_field (Kind.accepts_reader n) fun _ _ _ _ => trivial
  · exact accepts_unknownField fun _ _ => trivial

theorem accepts_readList : Accepts 1 n (readList n) fun m x => Legible encode (m + 1) x :=
  (accepts_element _ 3 0 accepts_str).bind fun _ =>
    (accepts_element _ 3 1 (Kind.accepts_reader n)).bind fun _ =>
      (accepts_element _ 3 2 (Kind.accepts_reader n)).bind fun _ =>
        accepts_closeList fun m _ _ _ => legible _ m

theorem accepts_reader (n : Nat) : Accepts 0 n (reader (α := Mismatch) n) (Legible encode) := by
  refine accepts_record _ (fun m _ => ?_) fun m _ => accepts_readList
  exact accepts_fieldsThen accepts_member (fun _ => trivial) fun k fs x _ _ => x.legible k

end Mismatch

namespace Failure

/-- The mismatch so far is legible. -/
def LegibleFields (m : Nat) (fs : Fields) : Prop :=
  Legible (writeOption encode) m (fs.mismatch.getD none)

/-- A failure is one level deeper than its mismatch. -/
theorem legible_of_mismatch {f : Failure} {m : Nat}
    (h : Legible (writeOption encode) m f.mismatch) : Legible encode (m + 1) f := by
  refine ⟨allFloats_of_eq_nil rfl, ?_⟩
  have hmismatch : depth ((f.mismatch.map encode).getD .null) ≤ m := h.2
  simp only [encode, depth, depthMembers] at hmismatch ⊢
  omega

/-- A field that is read keeps the mismatch so far legible. -/
theorem accepts_member (name : String) (fs : Fields) :
    Accepts 0 n (member n name fs) fun m fs' => LegibleFields m fs → LegibleFields m fs' := by
  unfold member
  split
  · exact accepts_field (FailureKind.accepts_reader n) fun _ _ _ hfs => hfs
  · exact accepts_field accepts_str fun _ _ _ hfs => hfs
  · exact accepts_field (accepts_optional (Mismatch.accepts_reader n)) fun _ _ hx _ => hx
  · exact accepts_unknownField fun _ hfs => hfs

theorem accepts_readList : Accepts 1 n (readList n) fun m f => Legible encode (m + 1) f := by
  intro text f rest hread
  obtain ⟨⟨kind, t₁⟩, hkind, hread⟩ := except_bind_eq_ok_iff.1 hread
  obtain ⟨⟨message, t₂⟩, hmessage, hread⟩ := except_bind_eq_ok_iff.1 hread
  obtain ⟨⟨mismatch, t₃⟩, hmismatch, hread⟩ := except_bind_eq_ok_iff.1 hread
  obtain ⟨⟨_, _⟩, hclose, hread⟩ := except_bind_eq_ok_iff.1 hread
  cases hread
  have hkind := (accepts_element _ 3 0 (FailureKind.accepts_reader n) hkind).1
  have hmessage := (accepts_element (n := n) _ 3 1 accepts_str hmessage).1
  have hmismatch := accepts_element? false (accepts_optional (Mismatch.accepts_reader n)) hmismatch
  have hstart := hkind.trans hmessage
  refine ⟨(hstart.trans hmismatch.1).trans (follows_closeList hclose), fun m hm => ?_⟩
  exact legible_of_mismatch (legible_getD (hmismatch.2 m (hm.outside.follows hstart)))

/-- What is read as a failure is legible. -/
theorem accepts_reader (n : Nat) : Accepts 0 n (reader (α := Failure) n) (Legible encode) := by
  refine accepts_record _ (fun m _ => ?_) fun m _ => accepts_readList
  refine accepts_fieldsThen accepts_member (fun _ => legible_none) fun k fs f hfs hf => ?_
  obtain ⟨kind, _, hf⟩ := except_bind_eq_ok_iff.1 hf
  obtain ⟨message, _, hf⟩ := except_bind_eq_ok_iff.1 hf
  cases hf
  exact legible_of_mismatch hfs

end Failure

/-! ## Parameters -/

namespace Param

/-- The default so far is legible. -/
def LegibleFields (m : Nat) (fs : Fields) : Prop :=
  Legible (writeOption encode) m (fs.default?.getD none)

/-- A field that is read keeps the default so far legible. -/
theorem accepts_member (name : String) (fs : Fields) :
    Accepts 0 n (member n name fs) fun m fs' => LegibleFields m fs → LegibleFields m fs' := by
  unfold member
  split
  · exact accepts_field accepts_str fun _ _ _ hfs => hfs
  · exact accepts_field (accepts_option (Kind.accepts_reader n)) fun _ _ _ hfs => hfs
  · exact accepts_field (accepts_optional (Value.accepts_read n)) fun _ _ hx _ => hx
  · exact accepts_unknownField fun _ hfs => hfs

/-- A parameter is one level deeper than its default. -/
theorem legible_of_default {p : Param} {m : Nat} (h : Legible (writeOption encode) m p.default?) :
    Legible encode (m + 1) p := by
  refine ⟨h.1, ?_⟩
  have hkind : depth ((p.kind?.map encode).getD .null) = 0 := by cases p.kind? <;> rfl
  have hdefault : depth ((p.default?.map encode).getD .null) ≤ m := h.2
  simp only [encode, depth, depthMembers] at hkind hdefault ⊢
  omega

theorem accepts_readList : Accepts 1 n (readList n) fun m p => Legible encode (m + 1) p :=
  (accepts_element _ 3 0 accepts_str).bind fun _ =>
    (accepts_element _ 3 1 (accepts_option (Kind.accepts_reader n))).bind fun _ =>
      (accepts_element _ 3 2 (accepts_optional (Value.accepts_read n))).bind fun _ =>
        accepts_closeList fun _ hdefault _ _ => legible_of_default hdefault

/-- What is read as a parameter is legible. -/
theorem accepts_reader (n : Nat) : Accepts 0 n (reader (α := Param) n) (Legible encode) := by
  refine accepts_record _ (fun m _ => ?_) fun m _ => accepts_readList
  refine accepts_fieldsThen accepts_member (fun _ => legible_none) fun k fs p hfs hp => ?_
  obtain ⟨name, _, hp⟩ := except_bind_eq_ok_iff.1 hp
  cases hp
  exact legible_of_default hfs

end Param

/-! ## Signatures -/

namespace Declaration

/-- The parameters so far are legible. -/
def LegibleFields (m : Nat) (fs : Fields) : Prop :=
  ∀ ps ∈ fs.params, Legible (writeList encode) m ps

/-- Parameters are read one by one. -/
theorem accepts_params (n : Nat) :
    Accepts 0 n (listOf n (reader (α := Param))) (Legible (writeList encode)) :=
  accepts_several fun m _ => Param.accepts_reader m

/-- A field that is read keeps the parameters legible. -/
theorem accepts_member (name : String) (fs : Fields) :
    Accepts 0 n (member n name fs) fun m fs' => LegibleFields m fs → LegibleFields m fs' := by
  unfold member
  split
  · exact accepts_field accepts_str fun _ _ _ hfs => hfs
  · refine accepts_field (accepts_params n) fun m ps hps _ ps' hps' => ?_
    cases hps'
    exact hps
  · exact accepts_unknownField fun _ hfs => hfs

/-- A declaration is one level deeper than its parameters. -/
theorem legible_of_params {d : Declaration} {m : Nat}
    (h : Legible (writeList encode) m d.params) : Legible encode (m + 1) d := by
  refine ⟨h.1, ?_⟩
  have hdepth := h.2
  simp only [writeList, encode, depth, depthMembers] at hdepth ⊢
  omega

theorem accepts_readList : Accepts 1 n (readList n) fun m d => Legible encode (m + 1) d :=
  (accepts_element _ 2 0 accepts_str).bind fun _ =>
    (accepts_element _ 2 1 (accepts_params n)).bind fun _ =>
      accepts_closeList fun _ hps _ => legible_of_params hps

/-- What is read as a declaration is legible. -/
theorem accepts_reader (n : Nat) : Accepts 0 n (reader (α := Declaration) n) (Legible encode) := by
  refine accepts_record _ (fun m _ => ?_) fun m _ => accepts_readList
  refine accepts_fieldsThen accepts_member (fun _ ps hps => by cases hps)
    fun k fs d hfs hd => ?_
  obtain ⟨name, _, hd⟩ := except_bind_eq_ok_iff.1 hd
  obtain ⟨ps, hps, hd⟩ := except_bind_eq_ok_iff.1 hd
  cases hd
  exact legible_of_params (hfs ps (of_requiredField hps))

end Declaration

namespace Signature

/-- What is read as a signature is legible, like the declaration that it is built of. -/
theorem accepts_reader (n : Nat) : Accepts 0 n (reader (α := Signature) n) (Legible encode) := by
  intro text s rest hread
  obtain ⟨⟨d, t⟩, hd, hread⟩ := except_bind_eq_ok_iff.1 hread
  obtain ⟨s', hs, hread⟩ := except_bind_eq_ok_iff.1 hread
  cases hread
  obtain ⟨name, params⟩ := d
  obtain ⟨rfl, rfl⟩ := build_eq_ok_iff.1 (ofDeclaration_eq_ok_iff.1 hs)
  exact Declaration.accepts_reader n hd

end Signature

/-! ## Arguments -/

/-- A positional argument is a variant around a value. -/
theorem Positional.accepts_reader (n : Nat) :
    Accepts 0 n (reader (α := Positional) n) (Legible encode) := by
  refine accepts_variant (fun t x hx => by cases hx) fun m _ isSplat => ?_
  cases isSplat with
  | false => exact Value.accepts_inside (fun _ => rfl) (fun _ => rfl) m
  | true => exact Value.accepts_inside (fun _ => rfl) (fun _ => rfl) m

namespace Keyword

/-- A named argument is a variant around a pair of the name and the value. -/
theorem accepts_readNamed (n : Nat) :
    Accepts 0 n (readNamed n) fun m k => Legible encode (m + 1) k := by
  refine accepts_sequence _ fun m _ => ?_
  have hpair := accepts_twoElements (.tupleVariant (some "KwArg::Named")) accepts_str
    (Value.accepts_read m)
  refine accepts_mapResult _ hpair fun k e he => ⟨he.2.1, Value.depth_variant_le ?_⟩
  have hdepth := he.2.2
  simp only [encode, depth, depthItems] at hdepth ⊢
  omega

theorem accepts_reader (n : Nat) : Accepts 0 n (reader (α := Keyword) n) (Legible encode) := by
  refine accepts_variant (fun t x hx => by cases hx) fun m _ isSplat => ?_
  cases isSplat with
  | false => exact accepts_readNamed m
  | true => exact Value.accepts_inside (fun _ => rfl) (fun _ => rfl) m

end Keyword

namespace Arguments

/-- The arguments so far are legible. -/
def LegibleFields (m : Nat) (fs : Fields) : Prop :=
  (∀ ps ∈ fs.positional, Legible (writeList encode) m ps) ∧
    ∀ ks ∈ fs.keywords, Legible (writeList encode) m ks

/-- Before any field has been read there is nothing to be legible. -/
theorem legibleFields_empty (m : Nat) : LegibleFields m {} := by
  constructor <;> (intro _ h; cases h)

theorem accepts_positional (n : Nat) :
    Accepts 0 n (listOf n (reader (α := Positional))) (Legible (writeList encode)) :=
  accepts_several fun m _ => Positional.accepts_reader m

theorem accepts_keywords (n : Nat) :
    Accepts 0 n (listOf n (reader (α := Keyword))) (Legible (writeList encode)) :=
  accepts_several fun m _ => Keyword.accepts_reader m

/-- Arguments are one level deeper than the deeper one of their two lists. -/
theorem legible_of_parts {a : Arguments} {m : Nat}
    (hpositional : Legible (writeList encode) m a.positional)
    (hkeywords : Legible (writeList encode) m a.keywords) : Legible encode (m + 1) a := by
  refine ⟨allFloats_arguments.2 ⟨hpositional.1, hkeywords.1⟩, ?_⟩
  have hp := hpositional.2
  have hk := hkeywords.2
  simp only [writeList, encode, depth, depthMembers] at hp hk ⊢
  omega

/-- A field that is read keeps both lists so far legible. -/
theorem accepts_member (name : String) (fs : Fields) :
    Accepts 0 n (member n name fs) fun m fs' => LegibleFields m fs → LegibleFields m fs' := by
  unfold member
  split
  · refine accepts_field (accepts_positional n) fun m ps hps hfs => ⟨fun ps' hps' => ?_, hfs.2⟩
    cases hps'
    exact hps
  · refine accepts_field (accepts_keywords n) fun m ks hks hfs => ⟨hfs.1, fun ks' hks' => ?_⟩
    cases hks'
    exact hks
  · exact accepts_unknownField fun _ hfs => hfs

theorem accepts_readList : Accepts 1 n (readList n) fun m a => Legible encode (m + 1) a :=
  (accepts_element _ 2 0 (accepts_positional n)).bind fun _ =>
    (accepts_element _ 2 1 (accepts_keywords n)).bind fun _ =>
      accepts_closeList fun _ hks hps => legible_of_parts hps hks

/-- What is read as arguments is legible. -/
theorem accepts_reader (n : Nat) : Accepts 0 n (reader (α := Arguments) n) (Legible encode) := by
  refine accepts_record _ (fun m _ => ?_) fun m _ => accepts_readList
  refine accepts_fieldsThen accepts_member legibleFields_empty fun k fs a hfs ha => ?_
  obtain ⟨ps, hps, ha⟩ := except_bind_eq_ok_iff.1 ha
  obtain ⟨ks, hks, ha⟩ := except_bind_eq_ok_iff.1 ha
  cases ha
  exact legible_of_parts (hfs.1 ps (of_requiredField hps)) (hfs.2 ks (of_requiredField hks))

end Arguments

end GuardedCall

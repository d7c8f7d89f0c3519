import GuardedCall.Proofs.Json.Accepts
import GuardedCall.Tagged.Basic

/-!
# What the readers of tagged data accept

The readers that all tagged types share, on texts that need not have been written by this library:
a condition on what the parts of a text are read as gives one on the whole. A part that stands in
an array or object has one level less.

Main statements: `accepts_float`, `accepts_sequence`, `accepts_variant`, `accepts_record`,
`accepts_fieldsThen`.
-/

namespace GuardedCall.Tagged

open Json

variable {α β σ τ : Type} {n : Nat} {text rest t : List Char} {x : α}
  {ok : Nat → α → Prop} {ok' : Nat → β → Prop}

/-- What is made of a result satisfies what follows from the condition on it. -/
theorem accepts_mapResult {opened : Nat} {item : Reader α} (f : α → β)
    (h : Accepts opened n item ok) (himp : ∀ m x, ok m x → ok' m (f x)) :
    Accepts opened n (mapResult f item) ok' := by
  intro text y rest hread
  obtain ⟨⟨x, r⟩, hx, hread⟩ := except_bind_eq_ok_iff.1 hread
  cases hread
  have hx := h hx
  exact ⟨hx.1, fun m hm => himp m x (hx.2 m hm)⟩

/-- A level is taken by what opens an array or object, and given to what stands in it. -/
theorem accepted_nested {inside : Nat → Reader α}
    (h : ∀ m < n, Accepts 1 m (inside m) fun k x => ok (k + 1) x)
    (hopen : ∀ level, peak .outside level text = peak .outside (level + 1) t)
    (hread : nested n inside t = .ok (x, rest)) :
    Follows 0 text rest ∧ ∀ m, Bounds n 0 text m → ok m x := by
  cases n with
  | zero => cases hread
  | succ n =>
    have hx := h n (Nat.lt_succ_self n) hread
    refine ⟨fun level => (hx.1 level).trans (hopen level).ge, fun m hm => ?_⟩
    rcases hm with rfl | ⟨level, hpeak⟩
    · exact hx.2 n (.inl rfl)
    · have hlevel := le_peak .outside (level + 1) t
      rw [Nat.add_zero, hopen level] at hpeak
      obtain ⟨k, rfl⟩ : ∃ k, m = k + 1 := ⟨m - 1, by omega⟩
      exact hx.2 k (.inr ⟨level, by omega⟩)

/-! ## Scalars -/

/-- A condition on a scalar holds of all that is picked from scalars in the range. -/
theorem accepts_scalarOf {form : Form} {pick : Scalar → Except Fault α} {P : α → Prop}
    (hpick : ∀ s x, s.InRange → pick s = .ok x → P x) :
    Accepts 0 n (scalarOf form pick) fun _ x => P x := by
  refine accepts_of_flat fun text x rest hread => ?_
  have hblank := flat_skipBlank text
  unfold scalarOf at hread
  split at hread
  · cases hread
  · cases hread
  · obtain ⟨⟨s, r⟩, hs, hread⟩ := except_bind_eq_ok_iff.1 hread
    obtain ⟨y, hy, hread⟩ := except_bind_eq_ok_iff.1 hread
    cases hread
    have hs := flat_scalar hs
    exact ⟨hblank.trans hs.1, hpick s x hs.2 hy⟩

theorem accepts_unit : Accepts 0 n unit fun _ _ => True :=
  accepts_scalarOf fun _ _ _ _ => trivial

theorem accepts_bool : Accepts 0 n bool fun _ _ => True :=
  accepts_scalarOf fun _ _ _ _ => trivial

theorem accepts_int64 : Accepts 0 n int64 fun _ _ => True :=
  accepts_scalarOf fun _ _ _ _ => trivial

theorem accepts_byte : Accepts 0 n byte fun _ _ => True :=
  accepts_scalarOf fun _ _ _ _ => trivial

theorem accepts_str : Accepts 0 n str fun _ _ => True :=
  accepts_scalarOf fun _ _ _ _ => trivial

/-- What is read as a floating point number is finite: numbers are checked, and whole numbers of 64
bits do not round to infinity. -/
theorem accepts_float : Accepts 0 n float fun _ y => y.isFinite = true := by
  refine accepts_scalarOf fun s y hs hy => ?_
  split at hy
  · cases hy
    exact hs
  · cases hy
    exact Binary64.isFinite_ofInt hs
  · cases hy

theorem mismatch_ne_ok (form : Form) (text : List Char) (p : α × List Char) :
    mismatch form text ≠ .ok p := by
  intro h
  have hfalse : Accepts 0 0 (mismatch (α := α) form) fun _ _ => False :=
    accepts_scalarOf fun s x _ hx => by cases hx
  exact (hfalse h).2 0 (.inl rfl)

/-! ## Options and lists -/

/-- Null takes no level, and anything else is read as what it may be. -/
theorem accepts_option {item : Reader α} (h : Accepts 0 n item ok) :
    Accepts 0 n (option item) fun m x? => ∀ x ∈ x?, ok m x := by
  intro text x? rest hread
  have hblank := flat_skipBlank text
  unfold option at hread
  split at hread
  · rename_i heq
    obtain ⟨⟨_, r⟩, hword, hread⟩ := except_bind_eq_ok_iff.1 hread
    cases hread
    rw [heq] at hblank
    have hnull := hblank.trans ((flat_cons rfl _).trans (flat_word (isPlain_of_all rfl) hword))
    exact ⟨hnull.follows, fun m _ x hx => by cases hx⟩
  · obtain ⟨⟨x, r⟩, hx, hread⟩ := except_bind_eq_ok_iff.1 hread
    cases hread
    have hx := h hx
    refine ⟨hblank.follows.trans hx.1, fun m hm y hy => ?_⟩
    cases hy
    exact hx.2 m (hm.follows hblank.follows)

/-- A sequence opens one level for what is inside. -/
theorem accepts_sequence (form : Form) {inside : Nat → Reader α}
    (h : ∀ m < n, Accepts 1 m (inside m) fun k x => ok (k + 1) x) :
    Accepts 0 n (sequence form (nested n inside)) ok := by
  intro text x rest hread
  have hblank := flat_skipBlank text
  unfold sequence at hread
  split at hread
  · cases hread
  · rename_i heq
    rw [heq] at hblank
    exact accepted_nested h hblank hread
  · exact absurd hread (mismatch_ne_ok _ _ _)

/-- The items of a list have one level less. -/
theorem accepts_listOf {item : Nat → Reader α} (h : ∀ m < n, Accepts 0 m (item m) ok) :
    Accepts 0 n (listOf n item) fun m xs => 0 < m ∧ ∀ x ∈ xs, ok (m - 1) x := by
  refine accepts_sequence .sequence fun m hm => (accepts_items (h m hm)).imp fun k xs hxs => ?_
  exact ⟨Nat.succ_pos k, hxs⟩

theorem accepts_element? {item : Reader α} (first : Bool) (h : Accepts 0 n item ok) :
    Accepts 0 n (element? first item) fun m x? => ∀ x ∈ x?, ok m x := by
  intro text x? rest hread
  obtain ⟨⟨more, t⟩, hmore, hread⟩ := except_bind_eq_ok_iff.1 hread
  have hflat := (flat_anotherItem hmore).follows
  cases more with
  | false =>
    cases hread
    exact ⟨hflat, fun m _ x hx => by cases hx⟩
  | true =>
    obtain ⟨⟨x, r⟩, hx, hread⟩ := except_bind_eq_ok_iff.1 hread
    cases hread
    have hx := h hx
    refine ⟨hflat.trans hx.1, fun m hm y hy => ?_⟩
    cases hy
    exact hx.2 m (hm.follows hflat)

/-- An element of a list of fixed size is read like any other value. -/
theorem accepts_element {item : Reader α} (form : Form) (size index : Nat)
    (h : Accepts 0 n item ok) : Accepts 0 n (element form size index item) ok := by
  intro text x rest hread
  obtain ⟨⟨x?, t⟩, hx, hread⟩ := except_bind_eq_ok_iff.1 hread
  have hx := accepts_element? _ h hx
  cases x? with
  | none => cases hread
  | some y =>
    cases hread
    exact ⟨hx.1, fun m hm => hx.2 m hm x rfl⟩

/-- At the end of a list a value is made of what has been read. -/
theorem accepts_closeList (hx : ∀ m, ok m x) :
    Accepts 1 n (fun text => do
      let (_, text) ← closeList text
      .ok (x, text)) ok := by
  intro text y rest hread
  obtain ⟨⟨_, r⟩, hclose, hread⟩ := except_bind_eq_ok_iff.1 hread
  cases hread
  exact ⟨follows_closeList hclose, fun m _ => hx m⟩

/-- Two elements and the closing bracket behind them. -/
theorem accepts_twoElements {left : Reader α} {right : Reader β} (form : Form)
    (h : Accepts 0 n left ok) (h' : Accepts 0 n right ok') :
    Accepts 1 n (twoElements form left right) fun m p => ok m p.1 ∧ ok' m p.2 :=
  (accepts_element form 2 0 h).bind fun _ => (accepts_element form 2 1 h').bind fun _ =>
    accepts_closeList fun _ hy hx => ⟨hx, hy⟩

/-! ## Variants -/

theorem accepts_variantObject {known : String → Except Fault τ} {contents : τ → Reader α}
    (h : ∀ t, Accepts 0 n (contents t) ok) : Accepts 1 n (variantObject known contents) ok := by
  intro text x rest hread
  obtain ⟨⟨name, t₁⟩, hname, hread⟩ := except_bind_eq_ok_iff.1 hread
  obtain ⟨t, _, hread⟩ := except_bind_eq_ok_iff.1 hread
  obtain ⟨⟨_, t₂⟩, hcolon, hread⟩ := except_bind_eq_ok_iff.1 hread
  obtain ⟨⟨y, t₃⟩, hy, hread⟩ := except_bind_eq_ok_iff.1 hread
  have hflat : Flat text t₁ := by
    obtain ⟨⟨more, t₀⟩, hmore, hname⟩ := except_bind_eq_ok_iff.1 hname
    cases more with
    | false => cases hname
    | true => exact fun level => (peak_anotherMember hmore level).trans (peak_string hname level)
  have hstart := (hflat.trans (flat_colon hcolon)).follows
  have hy := h t hy
  have hblank := flat_skipBlank t₃
  dsimp only at hread
  split at hread
  · cases hread
  · rename_i heq
    cases hread
    refine ⟨(hstart.trans hy.1).trans fun level => ?_, fun m hm => ?_⟩
    · rw [hblank, heq, peak_closeObject]
      exact Nat.le_max_right _ _
    · exact hy.2 m (hm.outside.follows hstart)
  · cases hread

/-- A variant satisfies a condition if its bare forms do, and what is made of contents with one
level less. -/
theorem accepts_variant {known : String → Except Fault τ} {bare : τ → Except Fault α}
    {contents : Nat → τ → Reader α} (hbare : ∀ t x, bare t = .ok x → ∀ m, ok m x)
    (h : ∀ m < n, ∀ t, Accepts 0 m (contents m t) fun k x => ok (k + 1) x) :
    Accepts 0 n
      (variant (bareVariant known bare) (nested n fun m => variantObject known (contents m)))
      ok := by
  intro text x rest hread
  have hblank := flat_skipBlank text
  unfold variant at hread
  split at hread
  · cases hread
  · rename_i heq
    obtain ⟨⟨name, r⟩, hname, hread⟩ := except_bind_eq_ok_iff.1 hread
    obtain ⟨t, _, hread⟩ := except_bind_eq_ok_iff.1 hread
    obtain ⟨y, hy, hread⟩ := except_bind_eq_ok_iff.1 hread
    cases hread
    rw [heq] at hblank
    have hstring : Flat ('"' :: _) rest := peak_string hname
    exact ⟨(hblank.trans hstring).follows, fun m _ => hbare t x hy m⟩
  · rename_i heq
    rw [heq] at hblank
    exact accepted_nested (fun m hm => accepts_variantObject (h m hm)) hblank hread
  · cases hread

theorem accepts_noContents (hx : ∀ m, ok m x) : Accepts 0 n (noContents x) ok :=
  accepts_mapResult _ accepts_unit fun m _ _ => hx m

theorem accepts_enumeration {known : String → Except Fault α} :
    Accepts 0 n (enumeration known n) fun _ _ => True :=
  accepts_variant (fun _ _ _ _ => trivial) fun _ _ _ => accepts_noContents fun _ => trivial

/-! ## Records -/

/-- A record satisfies a condition if what is made of its fields does, in either form, with one
level less. -/
theorem accepts_record (name : String) {object list : Nat → Reader α}
    (hobject : ∀ m < n, Accepts 1 m (object m) fun k x => ok (k + 1) x)
    (hlist : ∀ m < n, Accepts 1 m (list m) fun k x => ok (k + 1) x) :
    Accepts 0 n (record name n object list) ok := by
  intro text x rest hread
  have hblank := flat_skipBlank text
  unfold record at hread
  split at hread
  · cases hread
  · rename_i heq
    rw [heq] at hblank
    exact accepted_nested hlist hblank hread
  · rename_i heq
    rw [heq] at hblank
    exact accepted_nested hobject hblank hread
  · exact absurd hread (mismatch_ne_ok _ _ _)

theorem accepts_field {name : String} {old : Option α} {item : Reader α} {set : α → σ}
    {good : Nat → σ → Prop} (h : Accepts 0 n item ok) (hset : ∀ m x, ok m x → good m (set x)) :
    Accepts 0 n (field name old item set) good := by
  intro text s rest hread
  unfold field at hread
  split at hread
  · cases hread
  · obtain ⟨⟨_, r⟩, hcolon, hread⟩ := except_bind_eq_ok_iff.1 hread
    have hcolon := (flat_colon hcolon).follows
    have hs := accepts_mapResult set h hset hread
    exact ⟨hcolon.trans hs.1, fun m hm => hs.2 m (hm.follows hcolon)⟩

theorem accepts_unknownField {s : σ} {good : Nat → σ → Prop} (hs : ∀ m, good m s) :
    Accepts 0 n (unknownField s) good := by
  intro text s' rest hread
  obtain ⟨⟨_, r⟩, hcolon, hread⟩ := except_bind_eq_ok_iff.1 hread
  have hcolon := (flat_colon hcolon).follows
  have hskip : Accepts 0 n (mapResult (fun _ => s) skip) good :=
    accepts_mapResult _ accepts_skip fun m _ _ => hs m
  have hs' := hskip hread
  exact ⟨hcolon.trans hs'.1, fun m hm => hs'.2 m (hm.follows hcolon)⟩

/-- A condition that every field keeps is known of the fields that a record is made of. -/
theorem accepts_fieldsThen {member : String → σ → Reader σ} {start : σ}
    {finish : σ → Except Fault α} {good : Nat → σ → Prop}
    (hmember : ∀ name s, Accepts 0 n (member name s) fun m s' => good m s → good m s')
    (hstart : ∀ m, good m start) (hfinish : ∀ m s x, good m s → finish s = .ok x → ok m x) :
    Accepts 1 n (fieldsThen member start finish) ok := by
  intro text x rest hread
  obtain ⟨⟨s, r⟩, hs, hread⟩ := except_bind_eq_ok_iff.1 hread
  obtain ⟨y, hy, hread⟩ := except_bind_eq_ok_iff.1 hread
  cases hread
  have hs := accepts_members hmember start hs
  exact ⟨hs.1, fun m hm => hfinish m s x (hs.2 m hm (hstart m)) hy⟩

end GuardedCall.Tagged

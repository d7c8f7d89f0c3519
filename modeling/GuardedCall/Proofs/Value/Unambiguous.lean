import GuardedCall.Proofs.Decimal.ReadBack
import GuardedCall.Proofs.Json.Numerals
import GuardedCall.Proofs.Natural.Plain
import GuardedCall.Proofs.Tagged.Floats
import GuardedCall.Proofs.Text.Literal
import GuardedCall.Proofs.Text.Parts

/-!
# Literals are unambiguous

The literal of a value determines the value, whatever may follow it inside another literal. The
first character tells what sort of value it is. A number ends before the first character that is in
no number; a quoted literal tells its own end; and items are read one after another, each up to a
separator or the closing bracket, which cannot begin a value. The texts of two NaNs may be alike,
so values with a NaN in them are left out.

Main definitions: `Value.MayFollow`, `Value.Lead`, `Value.NoNaN`, `Value.ReadBefore`,
`Value.ReadUniquely`.
Main statements: `commaSeparated_inj`, `readUniquely_reprChars`, `literals_are_unambiguous`.
-/

namespace GuardedCall

namespace Value

open Decimal Text Json

/-! ## Where a value begins and ends -/

/-- What may follow a value inside a literal: nothing, a separator or a closing bracket. -/
def MayFollow : List Char → Prop
  | [] => True
  | c :: _ => c ∈ [',', ':', ')', ']', '\x7d']

/-- The characters of the literals of numbers, infinities included. -/
def isNumberChar (c : Char) : Bool := isNumeral c || c = 'i' || c = 'n' || c = 'f'

/-- The sorts of values that the first character of a literal tells apart. -/
inductive Lead
  | null
  | truth
  | number
  | str
  | bytes
  | list
  | tuple
  | dict

/-- The sort of a value. -/
def lead : Value → Lead
  | null => .null
  | bool _ => .truth
  | int _ => .number
  | float _ => .number
  | str _ => .str
  | bytes _ => .bytes
  | list _ => .list
  | tuple _ => .tuple
  | dict _ => .dict

/-- The sort of value whose literal begins with a character. -/
def leadOf? (c : Char) : Option Lead :=
  if isNumberChar c then some .number
  else if c = 'N' then some .null
  else if c = 'T' ∨ c = 'F' then some .truth
  else if c = '\'' ∨ c = '"' then some .str
  else if c = 'b' then some .bytes
  else if c = '[' then some .list
  else if c = '(' then some .tuple
  else if c = '\x7b' then some .dict
  else none

/-- No floating point number in a value is a NaN. -/
def NoNaN {α : Type} [HasFloats α] (x : α) : Prop := AllFloats (fun y => y.isNaN = false) x

/-- The text of `x`, with something behind it that `Follow` admits, is the text of nothing else. -/
def ReadBefore {α : Type} (Follow : List Char → Prop) (text : α → List Char) (Q : α → Prop)
    (x : α) : Prop :=
  ∀ y, Q y → ∀ r s, Follow r → Follow s → text x ++ r = text y ++ s → x = y ∧ r = s

/-- The text of `x`, with something behind it that may follow, is the text of nothing else. -/
def ReadUniquely {α : Type} (text : α → List Char) (Q : α → Prop) (x : α) : Prop :=
  ReadBefore MayFollow text Q x

variable {v w : Value} {vs ws : List Value} {r s t u : List Char} {x y : Binary64} {c close : Char}

/-! ## Numbers -/

theorem isNumberChar_of_isNumeral (h : isNumeral c = true) : isNumberChar c = true := by
  simp [isNumberChar, h]

theorem isNumberChar_of_mem_write (hx : x.isNaN = false) (h : c ∈ Layout.literal.write x) :
    isNumberChar c = true := by
  by_cases hfinite : x.isFinite = true
  · exact isNumberChar_of_isNumeral (isNumeral_of_mem_write hfinite h)
  · rw [write_of_isInfinite _ (isInfinite_of_not_isFinite hfinite hx)] at h
    have hall : ((if x.negative then ['-'] else []) ++ Layout.literal.infinity).all isNumberChar =
        true := by
      cases x.negative <;> rfl
    exact List.all_eq_true.1 hall c h

/-- Numbers end where something follows that may follow. -/
theorem number_append_inj (ht : ∀ c ∈ t, isNumberChar c = true)
    (hu : ∀ c ∈ u, isNumberChar c = true) (hr : MayFollow r) (hs : MayFollow s)
    (h : t ++ r = u ++ s) : t = u ∧ r = s := by
  have hend (r : List Char) (hr : MayFollow r) : ∀ c ∈ r.head?, isNumberChar c = false := by
    cases r with
    | nil => simp
    | cons c r =>
      have hall : [',', ':', ')', ']', '\x7d'].all (fun c => !isNumberChar c) = true := rfl
      simpa using List.all_eq_true.1 hall c hr
  exact append_inj_of_all ht hu (hend r hr) (hend s hs) h

theorem intDigits_inj {m n : Int64} (h : intDigits m.toInt = intDigits n.toInt) : m = n := by
  have hm := number_intDigits (Word64.fitsSigned_toInt m)
  have hn := number_intDigits (Word64.fitsSigned_toInt n)
  rw [h, hn] at hm
  simp only [Except.ok.injEq, Prod.mk.injEq, Number.int.injEq, and_true] at hm
  exact (Int64.toInt_inj.1 hm).symm

/-- The literal of a floating point number has a character that no integer has. -/
theorem exists_mark_mem_write (hx : x.isNaN = false) :
    ∃ c ∈ ['.', 'e', 'i'], c ∈ Layout.literal.write x := by
  by_cases hfinite : x.isFinite = true
  · rcases mark_mem_write Layout.literal hfinite with h | h
    · exact ⟨'.', by decide, h⟩
    · exact ⟨'e', by decide, h⟩
  · exact ⟨'i', by decide, infinity_mem_write (isInfinite_of_not_isFinite hfinite hx)⟩

theorem write_ne_nil (hx : x.isNaN = false) : Layout.literal.write x ≠ [] := by
  obtain ⟨c, -, hc⟩ := exists_mark_mem_write hx
  exact List.ne_nil_of_mem hc

theorem intDigits_ne_write (n : Int) (hx : x.isNaN = false) :
    intDigits n ≠ Layout.literal.write x := by
  have hdigits : ∀ c ∈ intDigits n, c = '-' ∨ c.isDigit = true := by
    intro c hc
    cases n with
    | ofNat n => exact Or.inr (isDigit_of_mem_natDigits hc)
    | negSucc n =>
      rcases List.mem_cons.1 hc with rfl | hc
      · exact Or.inl rfl
      · exact Or.inr (isDigit_of_mem_natDigits hc)
  have hmarks : ['.', 'e', 'i'].all (fun c => !(c = '-' || c.isDigit)) = true := rfl
  obtain ⟨c, hmark, hc⟩ := exists_mark_mem_write hx
  intro h
  rw [← h] at hc
  have hnone : ¬ (c = '-' ∨ c.isDigit = true) := by
    simpa using List.all_eq_true.1 hmarks c hmark
  exact hnone (hdigits c hc)

/-! ## How literals begin -/

theorem reprItems_eq_map (vs : List Value) : reprItems vs = vs.map reprChars := by
  induction vs with
  | nil => rfl
  | cons v vs ih => rw [reprItems, ih, List.map_cons]

/-- The text of an entry of a dictionary. -/
def entryChars (e : Value × Value) : List Char := reprChars e.1 ++ ':' :: ' ' :: reprChars e.2

theorem reprEntries_eq_map (es : List (Value × Value)) : reprEntries es = es.map entryChars := by
  induction es with
  | nil => rfl
  | cons e es ih =>
    rw [reprEntries, ih, List.map_cons]
    rfl

/-- Every text but the first stands behind a comma and a space. -/
theorem commaSeparated_cons (t : List Char) (ts : List (List Char)) :
    commaSeparated (t :: ts) = t ++ ts.flatMap fun u => ',' :: ' ' :: u := by
  induction ts generalizing t with
  | nil => simp [commaSeparated]
  | cons u ts ih =>
    have hstep : commaSeparated (t :: u :: ts) = t ++ [',', ' '] ++ commaSeparated (u :: ts) :=
      List.intercalate_cons_cons
    rw [hstep, ih, List.flatMap_cons]
    simp

/-- What stands behind the first item of a tuple: a comma alone if there are no others. -/
def tupleTail (vs : List Value) : List Char :=
  if vs = [] then [','] else vs.flatMap fun v => ',' :: ' ' :: reprChars v

theorem reprChars_list (vs : List Value) :
    reprChars (list vs) = '[' :: (commaSeparated (vs.map reprChars) ++ [']']) := by
  rw [reprChars, reprItems_eq_map]

theorem reprChars_tuple_nil : reprChars (tuple []) = ['(', ')'] := by
  rw [reprChars, reprItems_eq_map]
  · rfl
  · simp

theorem reprChars_tuple_cons (v : Value) (vs : List Value) :
    reprChars (tuple (v :: vs)) = '(' :: (reprChars v ++ tupleTail vs ++ [')']) := by
  cases vs with
  | nil =>
    rw [reprChars, tupleTail, if_pos rfl]
    simp
  | cons w ws =>
    rw [reprChars, reprItems_eq_map, List.map_cons, commaSeparated_cons, tupleTail,
      if_neg (List.cons_ne_nil w ws), List.flatMap_map]
    simp

theorem reprChars_dict (es : List (Value × Value)) :
    reprChars (dict es) = '\x7b' :: (commaSeparated (es.map entryChars) ++ ['\x7d']) := by
  rw [reprChars, reprEntries_eq_map]

theorem isNumberChar_of_mem_intDigits {n : Int} (h : c ∈ intDigits n) : isNumberChar c = true :=
  isNumberChar_of_isNumeral (isNumeral_of_mem_intDigits h)

theorem intDigits_ne_nil (n : Int) : intDigits n ≠ [] := by
  cases n with
  | ofNat n => exact natDigits_ne_nil n
  | negSucc n => exact List.cons_ne_nil _ _

/-- The first character of a literal tells the sort of the value. -/
theorem exists_reprChars_eq_cons (hv : NoNaN v) :
    ∃ c t, v.reprChars = c :: t ∧ leadOf? c = some v.lead := by
  have hnumber (t : List Char) (ht : ∀ c ∈ t, isNumberChar c = true) (hne : t ≠ []) :
      ∃ c u, t = c :: u ∧ leadOf? c = some .number := by
    cases t with
    | nil => exact absurd rfl hne
    | cons c u => exact ⟨c, u, rfl, if_pos (ht c List.mem_cons_self)⟩
  cases v with
  | null => exact ⟨'N', _, rfl, rfl⟩
  | bool b =>
    cases b with
    | true => exact ⟨'T', _, rfl, rfl⟩
    | false => exact ⟨'F', _, rfl, rfl⟩
  | int n =>
    rw [reprChars]
    exact hnumber _ (fun c hc => isNumberChar_of_mem_intDigits hc) (intDigits_ne_nil _)
  | float x =>
    have hx : x.isNaN = false := allFloats_float.1 hv
    rw [reprChars]
    exact hnumber _ (fun c hc => isNumberChar_of_mem_write hx hc) (write_ne_nil hx)
  | str s =>
    rw [reprChars]
    rcases Literal.isQuote_quoteFor s.toList with hq | hq
    · exact ⟨_, _, rfl, by rw [hq]; rfl⟩
    · exact ⟨_, _, rfl, by rw [hq]; rfl⟩
  | bytes bs => exact ⟨'b', _, rfl, rfl⟩
  | list vs => exact ⟨'[', _, reprChars_list vs, rfl⟩
  | tuple vs =>
    cases vs with
    | nil => exact ⟨'(', _, reprChars_tuple_nil, rfl⟩
    | cons v vs => exact ⟨'(', _, reprChars_tuple_cons v vs, rfl⟩
  | dict es => exact ⟨'\x7b', _, reprChars_dict es, rfl⟩

/-- Literals that begin alike are of values of one sort. -/
theorem lead_eq (hv : NoNaN v) (hw : NoNaN w) (h : v.reprChars ++ r = w.reprChars ++ s) :
    v.lead = w.lead := by
  obtain ⟨c, t, ht, hc⟩ := exists_reprChars_eq_cons hv
  obtain ⟨d, u, hu, hd⟩ := exists_reprChars_eq_cons hw
  rw [ht, hu] at h
  have hcd : c = d := (List.cons.inj h).1
  rw [hcd, hd] at hc
  exact (Option.some.inj hc).symm

/-! ## Items -/

section Items

variable {α : Type} {Follow : List Char → Prop} {text : α → List Char} {Q : α → Prop}
  {xs ys : List α}

/-- Between items and behind the last of them stands what may follow an item, and the end is told
from a separator. -/
structure Separates (Follow : List Char → Prop) (close : Char) : Prop where
  comma : ∀ r, Follow (',' :: r)
  behind : ∀ r, Follow (close :: r)
  ne_comma : close ≠ ','

/-- A closing bracket. -/
def IsClose (c : Char) : Prop := c ∈ [']', ')', '\x7d']

theorem IsClose.mayFollow (h : IsClose close) (r : List Char) : MayFollow (close :: r) := by
  simp only [IsClose, List.mem_cons, List.not_mem_nil, or_false] at h
  rcases h with rfl | rfl | rfl <;> simp [MayFollow]

theorem IsClose.separates (h : IsClose close) : Separates MayFollow close where
  comma _ := List.mem_cons_self
  behind := h.mayFollow
  ne_comma := by
    rintro rfl
    simp [IsClose] at h

theorem IsClose.leadOf?_eq_none (h : IsClose close) : leadOf? close = none := by
  simp only [IsClose, List.mem_cons, List.not_mem_nil, or_false] at h
  rcases h with rfl | rfl | rfl <;> rfl

/-- What stands behind an item may follow it. -/
theorem follow_items (h : Separates Follow close) (xs : List α) (r : List Char) :
    Follow ((xs.flatMap fun x => ',' :: ' ' :: text x) ++ close :: r) := by
  cases xs with
  | nil => exact h.behind r
  | cons x xs => exact h.comma _

/-- Items behind the first one are read one after another, up to the closing bracket. -/
theorem items_inj (hclose : Separates Follow close) (hx : ∀ x ∈ xs, ReadBefore Follow text Q x)
    (hy : ∀ y ∈ ys, Q y)
    (h : (xs.flatMap fun x => ',' :: ' ' :: text x) ++ close :: r =
      (ys.flatMap fun y => ',' :: ' ' :: text y) ++ close :: s) : xs = ys ∧ r = s := by
  induction xs generalizing ys with
  | nil =>
    cases ys with
    | nil => exact ⟨rfl, (List.cons.inj h).2⟩
    | cons y ys => exact absurd (List.cons.inj h).1 hclose.ne_comma
  | cons x xs ih =>
    cases ys with
    | nil => exact absurd (List.cons.inj h).1.symm hclose.ne_comma
    | cons y ys =>
      rw [List.forall_mem_cons] at hx hy
      rw [List.flatMap_cons, List.flatMap_cons, List.append_assoc, List.append_assoc] at h
      have hrest : text x ++ ((xs.flatMap fun x => ',' :: ' ' :: text x) ++ close :: r) =
          text y ++ ((ys.flatMap fun y => ',' :: ' ' :: text y) ++ close :: s) :=
        (List.cons.inj (List.cons.inj h).2).2
      obtain ⟨hxy, htail⟩ :=
        hx.1 y hy.1 _ _ (follow_items hclose xs r) (follow_items hclose ys s) hrest
      obtain ⟨hxsys, hrs⟩ := ih hx.2 hy.2 htail
      exact ⟨by rw [hxy, hxsys], hrs⟩

/-- Items with commas between are read one after another, up to the closing bracket. -/
theorem commaSeparated_inj (hclose : Separates Follow close)
    (hhead : ∀ x, Q x → ∀ t u, text x ++ t ≠ close :: u)
    (hx : ∀ x ∈ xs, ReadBefore Follow text Q x) (hQ : ∀ x ∈ xs, Q x) (hy : ∀ y ∈ ys, Q y)
    (h : commaSeparated (xs.map text) ++ close :: r = commaSeparated (ys.map text) ++ close :: s) :
    xs = ys ∧ r = s := by
  cases xs with
  | nil =>
    cases ys with
    | nil => exact ⟨rfl, (List.cons.inj h).2⟩
    | cons y ys =>
      rw [List.map_cons, commaSeparated_cons, List.append_assoc] at h
      exact absurd h.symm (hhead y (hy y List.mem_cons_self) _ _)
  | cons x xs =>
    cases ys with
    | nil =>
      rw [List.map_cons, commaSeparated_cons, List.append_assoc] at h
      exact absurd h (hhead x (hQ x List.mem_cons_self) _ _)
    | cons y ys =>
      rw [List.forall_mem_cons] at hx hy
      rw [List.map_cons, List.map_cons, commaSeparated_cons, commaSeparated_cons, List.flatMap_map,
        List.flatMap_map, List.append_assoc, List.append_assoc] at h
      obtain ⟨hxy, htail⟩ :=
        hx.1 y hy.1 _ _ (follow_items hclose xs r) (follow_items hclose ys s) h
      obtain ⟨hxsys, hrs⟩ := items_inj hclose hx.2 hy.2 htail
      exact ⟨by rw [hxy, hxsys], hrs⟩

end Items

/-! ## Values -/

theorem noNaN_iff_forall_mem {α : Type} [HasFloats α] {xs : List α} :
    NoNaN xs ↔ ∀ x ∈ xs, NoNaN x :=
  allFloats_iff_forall_mem

/-- An item does not begin with a closing bracket. -/
theorem reprChars_append_ne_close (hclose : IsClose close) (hv : NoNaN v) (t u : List Char) :
    v.reprChars ++ t ≠ close :: u := by
  obtain ⟨c, t', ht', hc⟩ := exists_reprChars_eq_cons hv
  rw [ht']
  intro h
  rw [(List.cons.inj h).1, hclose.leadOf?_eq_none] at hc
  cases hc

theorem isClose_bracket : IsClose ']' := by simp [IsClose]

theorem isClose_paren : IsClose ')' := by simp [IsClose]

theorem isClose_brace : IsClose '\x7d' := by simp [IsClose]

theorem reprChars_tuple_nil_append (r : List Char) :
    reprChars (tuple []) ++ r = '(' :: ')' :: r := by
  rw [reprChars_tuple_nil]
  rfl

theorem reprChars_tuple_cons_append (v : Value) (vs : List Value) (r : List Char) :
    reprChars (tuple (v :: vs)) ++ r = '(' :: (reprChars v ++ (tupleTail vs ++ ')' :: r)) := by
  rw [reprChars_tuple_cons]
  simp

theorem mayFollow_tupleTail (vs : List Value) (r : List Char) :
    MayFollow (tupleTail vs ++ ')' :: r) := by
  rw [tupleTail]
  split
  · exact List.mem_cons_self
  · exact follow_items isClose_paren.separates vs r

/-- Behind the first item of a tuple there is a comma and the closing bracket, or a comma and a
space, or the closing bracket. -/
theorem tupleTail_inj (hv : ∀ v ∈ vs, ReadUniquely reprChars NoNaN v) (hw : ∀ w ∈ ws, NoNaN w)
    (h : tupleTail vs ++ ')' :: r = tupleTail ws ++ ')' :: s) : vs = ws ∧ r = s := by
  cases vs with
  | nil =>
    cases ws with
    | nil => exact ⟨rfl, (List.cons.inj (List.cons.inj h).2).2⟩
    | cons w ws => exact absurd (List.cons.inj (List.cons.inj h).2).1 (by decide)
  | cons v vs =>
    cases ws with
    | nil => exact absurd (List.cons.inj (List.cons.inj h).2).1 (by decide)
    | cons w ws =>
      rw [tupleTail, tupleTail, if_neg (List.cons_ne_nil _ _), if_neg (List.cons_ne_nil _ _)] at h
      exact items_inj isClose_paren.separates hv hw h

/-- The literal of a tuple, its items being read uniquely. -/
theorem reprChars_tuple_inj (hread : ∀ v ∈ vs, ReadUniquely reprChars NoNaN v)
    (hv : ∀ v ∈ vs, NoNaN v) (hw : ∀ w ∈ ws, NoNaN w)
    (h : reprChars (tuple vs) ++ r = reprChars (tuple ws) ++ s) : vs = ws ∧ r = s := by
  cases vs with
  | nil =>
    cases ws with
    | nil => exact ⟨rfl, List.append_cancel_left h⟩
    | cons w ws =>
      rw [reprChars_tuple_nil_append, reprChars_tuple_cons_append] at h
      exact absurd (List.cons.inj h).2.symm
        (reprChars_append_ne_close isClose_paren (hw w List.mem_cons_self) _ _)
  | cons v vs =>
    cases ws with
    | nil =>
      rw [reprChars_tuple_nil_append, reprChars_tuple_cons_append] at h
      exact absurd (List.cons.inj h).2
        (reprChars_append_ne_close isClose_paren (hv v List.mem_cons_self) _ _)
    | cons w ws =>
      rw [List.forall_mem_cons] at hread hw
      rw [reprChars_tuple_cons_append, reprChars_tuple_cons_append] at h
      obtain ⟨hvw, htail⟩ :=
        hread.1 w hw.1 _ _ (mayFollow_tupleTail vs r) (mayFollow_tupleTail ws s) (List.cons.inj h).2
      obtain ⟨hvsws, hrs⟩ := tupleTail_inj hread.2 hw.2 htail
      exact ⟨by rw [hvw, hvsws], hrs⟩

/-- The text of an entry, its key and value being read uniquely. -/
theorem readUniquely_entryChars {e : Value × Value} (hk : ReadUniquely reprChars NoNaN e.1)
    (hv : ReadUniquely reprChars NoNaN e.2) : ReadUniquely entryChars NoNaN e := by
  obtain ⟨k, v⟩ := e
  rintro ⟨k', v'⟩ hy r s hr hs h
  obtain ⟨hk', hv'⟩ := allFloats_pair.1 hy
  rw [entryChars, entryChars, List.append_assoc, List.append_assoc] at h
  have hcolon (t : List Char) : MayFollow (':' :: t) := List.mem_cons_of_mem _ List.mem_cons_self
  obtain ⟨rfl, hrest⟩ := hk k' hk' _ _ (hcolon _) (hcolon _) h
  obtain ⟨rfl, hrs⟩ := hv v' hv' r s hr hs (List.cons.inj (List.cons.inj hrest).2).2
  exact ⟨rfl, hrs⟩

theorem reprChars_list_inj (hread : ∀ v ∈ vs, ReadUniquely reprChars NoNaN v)
    (hv : ∀ v ∈ vs, NoNaN v) (hw : ∀ w ∈ ws, NoNaN w)
    (h : reprChars (list vs) ++ r = reprChars (list ws) ++ s) : vs = ws ∧ r = s := by
  rw [reprChars_list, reprChars_list, List.cons_append, List.cons_append, List.append_assoc,
    List.append_assoc] at h
  exact commaSeparated_inj isClose_bracket.separates
    (fun _ hx => reprChars_append_ne_close isClose_bracket hx) hread hv hw (List.cons.inj h).2

theorem reprChars_dict_inj {es fs : List (Value × Value)}
    (hread : ∀ e ∈ es, ReadUniquely entryChars NoNaN e) (he : ∀ e ∈ es, NoNaN e)
    (hf : ∀ f ∈ fs, NoNaN f) (h : reprChars (dict es) ++ r = reprChars (dict fs) ++ s) :
    es = fs ∧ r = s := by
  have hhead (e : Value × Value) (he : NoNaN e) (t u : List Char) :
      entryChars e ++ t ≠ '\x7d' :: u := by
    rw [entryChars, List.append_assoc]
    exact reprChars_append_ne_close isClose_brace (allFloats_pair.1 he).1 _ _
  rw [reprChars_dict, reprChars_dict, List.cons_append, List.cons_append, List.append_assoc,
    List.append_assoc] at h
  exact commaSeparated_inj isClose_brace.separates hhead hread he hf (List.cons.inj h).2

/-- The characters of the literal of a number are those of numbers. -/
theorem isNumberChar_of_mem_reprChars (hv : NoNaN v) (hlead : v.lead = .number)
    (h : c ∈ v.reprChars) : isNumberChar c = true := by
  cases v <;> cases hlead
  · rw [reprChars] at h
    exact isNumberChar_of_mem_intDigits h
  · rw [reprChars] at h
    exact isNumberChar_of_mem_write (allFloats_float.1 hv) h

/-- Numbers have different literals, be they integers or not. -/
theorem number_eq_of_reprChars_eq (hv : NoNaN v) (hw : NoNaN w) (hvlead : v.lead = .number)
    (hwlead : w.lead = .number) (h : v.reprChars = w.reprChars) : v = w := by
  cases v <;> cases hvlead <;> cases w <;> cases hwlead <;> rw [reprChars, reprChars] at h
  · rw [intDigits_inj h]
  · exact absurd h (intDigits_ne_write _ (allFloats_float.1 hw))
  · exact absurd h.symm (intDigits_ne_write _ (allFloats_float.1 hv))
  · rw [write_inj (allFloats_float.1 hv) (allFloats_float.1 hw) h]

theorem readUniquely_of_number (hv : NoNaN v) (hlead : v.lead = .number) :
    ReadUniquely reprChars NoNaN v := by
  intro w hw r s hr hs h
  have hwlead : w.lead = .number := (lead_eq hv hw h).symm.trans hlead
  obtain ⟨htext, hrs⟩ := number_append_inj (fun _ => isNumberChar_of_mem_reprChars hv hlead)
    (fun _ => isNumberChar_of_mem_reprChars hw hwlead) hr hs h
  exact ⟨number_eq_of_reprChars_eq hv hw hlead hwlead htext, hrs⟩

/-- The literal of a value without NaNs determines the value, whatever follows it. -/
theorem readUniquely_reprChars (v : Value) (hv : NoNaN v) : ReadUniquely reprChars NoNaN v := by
  induction v using Value.inductionOn with
  | int n => exact readUniquely_of_number hv rfl
  | float x => exact readUniquely_of_number hv rfl
  | null =>
    intro w hw r s hr hs h
    have hlead := lead_eq hv hw h
    cases w <;> cases hlead
    exact ⟨rfl, List.append_cancel_left h⟩
  | bool b =>
    intro w hw r s hr hs h
    have hlead := lead_eq hv hw h
    cases w <;> cases hlead
    rename_i c
    cases b <;> cases c
    · exact ⟨rfl, List.append_cancel_left h⟩
    · exact absurd (List.cons.inj h).1 (by decide)
    · exact absurd (List.cons.inj h).1 (by decide)
    · exact ⟨rfl, List.append_cancel_left h⟩
  | str t =>
    intro w hw r s hr hs h
    have hlead := lead_eq hv hw h
    cases w <;> cases hlead
    rw [reprChars, reprChars] at h
    obtain ⟨ht, hrs⟩ := Literal.ofString_append_inj h
    exact ⟨by rw [String.toList_inj.1 ht], hrs⟩
  | bytes bs =>
    intro w hw r s hr hs h
    have hlead := lead_eq hv hw h
    cases w <;> cases hlead
    rw [reprChars, reprChars] at h
    obtain ⟨rfl, hrs⟩ := Literal.ofBytes_append_inj h
    exact ⟨rfl, hrs⟩
  | list vs ih =>
    intro w hw r s hr hs h
    have hlead := lead_eq hv hw h
    cases w <;> cases hlead
    have hvs := noNaN_iff_forall_mem.1 (allFloats_list.1 hv)
    have hws := noNaN_iff_forall_mem.1 (allFloats_list.1 hw)
    obtain ⟨rfl, hrs⟩ := reprChars_list_inj (fun v hmem => ih v hmem (hvs v hmem)) hvs hws h
    exact ⟨rfl, hrs⟩
  | tuple vs ih =>
    intro w hw r s hr hs h
    have hlead := lead_eq hv hw h
    cases w <;> cases hlead
    have hvs := noNaN_iff_forall_mem.1 (allFloats_tuple.1 hv)
    have hws := noNaN_iff_forall_mem.1 (allFloats_tuple.1 hw)
    obtain ⟨rfl, hrs⟩ := reprChars_tuple_inj (fun v hmem => ih v hmem (hvs v hmem)) hvs hws h
    exact ⟨rfl, hrs⟩
  | dict es ih =>
    intro w hw r s hr hs h
    have hlead := lead_eq hv hw h
    cases w <;> cases hlead
    have hes := noNaN_iff_forall_mem.1 (allFloats_dict.1 hv)
    have hfs := noNaN_iff_forall_mem.1 (allFloats_dict.1 hw)
    have hread : ∀ e ∈ es, ReadUniquely entryChars NoNaN e := by
      intro e he
      obtain ⟨hk, hx⟩ := allFloats_pair.1 (hes e he)
      exact readUniquely_entryChars ((ih e he).1 hk) ((ih e he).2 hx)
    obtain ⟨rfl, hrs⟩ := reprChars_dict_inj hread hes hfs h
    exact ⟨rfl, hrs⟩

end Value

/-- **Literals are unambiguous.**  Values without NaNs have the same literal exactly if they are the
same tree, floating point numbers by all their bits. -/
theorem literals_are_unambiguous (a b : Value) (ha : Value.NoNaN a) (hb : Value.NoNaN b) :
    a.repr = b.repr ↔ a = b := by
  constructor
  · intro h
    have hchars : a.reprChars = b.reprChars := String.ofList_injective h
    exact (Value.readUniquely_reprChars a ha b hb [] [] trivial trivial (by rw [hchars])).1
  · intro h
    rw [h]

/-- A string with quotes and a comma in it, and the two strings that it looks like. -/
theorem literals_are_unambiguous_quotes :
    let a : Value := .list [.str "a', 'b", .float ⟨0⟩]
    let b : Value := .list [.str "a", .str "b", .float ⟨0⟩]
    Value.NoNaN a ∧ Value.NoNaN b ∧ a.repr ≠ b.repr := by
  intro a b
  have hzero : ∀ y ∈ [(⟨0⟩ : Binary64)], y.isNaN = false := List.forall_mem_singleton.2 rfl
  have ha : Value.NoNaN a := hzero
  have hb : Value.NoNaN b := hzero
  refine ⟨ha, hb, ?_⟩
  intro h
  exact absurd ((literals_are_unambiguous a b ha hb).1 h) (by decide)

end GuardedCall

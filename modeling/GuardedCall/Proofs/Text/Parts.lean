import Mathlib.Data.List.Basic

/-!
# Texts made of parts

What can be told of the parts of a text from the whole. A part of characters of one sort ends where
something else begins, and phrases of which none begins another are told apart whatever stands
behind them. Texts that are mentioned in a text one behind the other stay so when more is written
before and behind it.

Main definition: `Mentions`.
Main statements: `append_inj_of_all`, `eq_of_append_eq`, `Mentions.append`.
-/

namespace GuardedCall.Text

/-! ## Parts told apart -/

section Parts

variable {t u r s : List Char}

/-- Texts of characters of one sort end where something follows that begins with no such
character. -/
theorem append_inj_of_all {P : Char → Bool} (ht : ∀ c ∈ t, P c = true) (hu : ∀ c ∈ u, P c = true)
    (hr : ∀ c ∈ r.head?, P c = false) (hs : ∀ c ∈ s.head?, P c = false) (h : t ++ r = u ++ s) :
    t = u ∧ r = s := by
  have hend (r : List Char) (hr : ∀ c ∈ r.head?, P c = false) : r.takeWhile P = [] := by
    cases r with
    | nil => rfl
    | cons c r =>
      rw [List.takeWhile_cons_of_neg]
      simp [hr c rfl]
  have htake := congrArg (List.takeWhile P) h
  rw [List.takeWhile_append_of_pos ht, List.takeWhile_append_of_pos hu, hend r hr, hend s hs,
    List.append_nil, List.append_nil] at htake
  subst htake
  exact ⟨rfl, List.append_cancel_left h⟩

/-- Of phrases of which none begins another, a text begins with one at most. -/
theorem eq_of_append_eq {phrases : List String}
    (hfree : ∀ p ∈ phrases, ∀ q ∈ phrases, p.toList <+: q.toList → p = q) {p q x y : String}
    (hp : p ∈ phrases) (hq : q ∈ phrases) (h : p ++ x = q ++ y) : p = q := by
  have hpx : p.toList <+: (p ++ x).toList := by
    rw [String.toList_append]
    exact List.prefix_append _ _
  have hqy : q.toList <+: (p ++ x).toList := by
    rw [h, String.toList_append]
    exact List.prefix_append _ _
  rcases List.prefix_or_prefix_of_prefix hpx hqy with hpq | hqp
  · exact hfree p hp q hq hpq
  · exact (hfree q hq p hp hqp).symm

end Parts

/-! ## Parts mentioned -/

/-- The given texts occur in a text, each behind the one before it. -/
def Mentions : List String → String → Prop
  | [], _ => True
  | t :: ts, text => ∃ before after, text = before ++ (t ++ after) ∧ Mentions ts after

variable {t text text' : String} {ts us : List String}

/-- A text mentions itself. -/
theorem mentions_self (t : String) : Mentions [t] t := ⟨"", "", by simp, trivial⟩

/-- What a text mentions is still mentioned if something is written before it. -/
theorem Mentions.append_left (h : Mentions ts text) (before : String) :
    Mentions ts (before ++ text) := by
  cases ts with
  | nil => trivial
  | cons t ts =>
    obtain ⟨b, after, rfl, hrest⟩ := h
    exact ⟨before ++ b, after, by rw [String.append_assoc], hrest⟩

/-- What two texts mention is mentioned in this order by the one behind the other. -/
theorem Mentions.append (h : Mentions ts text) (h' : Mentions us text') :
    Mentions (ts ++ us) (text ++ text') := by
  induction ts generalizing text with
  | nil => exact h'.append_left text
  | cons t ts ih =>
    obtain ⟨before, after, rfl, hrest⟩ := h
    exact ⟨before, after ++ text', by simp only [String.append_assoc], ih hrest⟩

/-- What a text mentions is still mentioned if something is written behind it. -/
theorem Mentions.append_right (h : Mentions ts text) (after : String) :
    Mentions ts (text ++ after) := by
  have hnone : Mentions [] after := trivial
  have hboth := h.append hnone
  rwa [List.append_nil] at hboth

end GuardedCall.Text

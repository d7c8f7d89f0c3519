/-!
# Entries in order of insertion

A finite map as a list of entries. Putting a value under a name that is there keeps the place of
the entry; a new name goes to the end.

Main definitions: `Entries`, `Entries.put`, `Entries.collect`, `Entries.get?`.
Main statements: `keys_put`, `get?_put`.
-/

namespace GuardedCall

/-- Named values in order. -/
abbrev Entries (α : Type) := List (String × α)

namespace Entries

variable {α : Type}

/-- The names, in order. -/
def keys (es : Entries α) : List String := es.map Prod.fst

/-- The values, in order. -/
def values (es : Entries α) : List α := es.map Prod.snd

/-- The first value under a name. -/
def get? : Entries α → String → Option α
  | [], _ => none
  | (n, x) :: es, name => if n = name then some x else get? es name

/-- Put a value under a name, at the place that the name has or at the end. -/
def put : Entries α → String → α → Entries α
  | [], name, x => [(name, x)]
  | (n, y) :: es, name, x => if n = name then (n, x) :: es else (n, y) :: put es name x

/-- The map that results from putting entries one after another: a repeated name keeps its first
place and takes its last value. -/
def collect (es : Entries α) : Entries α := es.foldl (fun m e => put m e.1 e.2) []

/-- The same names with the same values, whatever the order. -/
def sameMap [DecidableEq α] (as bs : Entries α) : Bool :=
  as.length = bs.length && as.all fun e => get? bs e.1 = some e.2

@[simp] theorem keys_nil : keys ([] : Entries α) = [] := rfl

@[simp] theorem keys_cons (e : String × α) (es : Entries α) :
    keys (e :: es) = e.1 :: keys es := rfl

/-- A name is new at the end, or keeps its place. -/
theorem keys_put (es : Entries α) (name : String) (x : α) :
    (es.put name x).keys = if name ∈ es.keys then es.keys else es.keys ++ [name] := by
  induction es with
  | nil => simp [put]
  | cons e es ih =>
    obtain ⟨n, y⟩ := e
    by_cases h : n = name
    · simp [put, h]
    · by_cases hm : name ∈ keys es <;> simp [put, h, Ne.symm h, ih, hm]

/-- What is put is found, and nothing else changes. -/
theorem get?_put (es : Entries α) (name other : String) (x : α) :
    (es.put name x).get? other = if name = other then some x else es.get? other := by
  induction es with
  | nil => simp [put, get?]
  | cons e es ih =>
    obtain ⟨n, y⟩ := e
    by_cases h : n = name
    · subst h
      by_cases h' : n = other <;> simp [put, get?, h']
    · by_cases h' : n = other
      · subst h'; simp [put, get?, h, Ne.symm h]
      · simp [put, get?, h, h', ih]

end Entries

end GuardedCall

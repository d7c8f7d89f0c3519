import GuardedCall.Kind
import GuardedCall.Decimal.Binary64

/-!
# Values

The dynamic values that a guarded call passes. Integers have 64 bits, a dictionary is a list of
entries in order, in which a key may be of any kind and may occur again, and two values are equal
exactly if they are the same tree: `1` is not `True`, and `0.0` is not `-0.0`.

Main definitions: `Value`, `Value.kind`, `Value.beq`, `Value.asInt?`, `Value.asFloat?`,
`Value.asStr?`. Main statement: `Value.beq_iff`, the test for equality decides equality.
-/

namespace GuardedCall

/-- A dynamic value. -/
inductive Value where
  | null
  | bool (b : Bool)
  | int (n : Int64)
  | float (x : Binary64)
  | str (s : String)
  | bytes (bs : List UInt8)
  | list (items : List Value)
  | tuple (items : List Value)
  /-- The entries in order, keys first; a key may occur more than once. -/
  | dict (entries : List (Value × Value))
  deriving Inhabited

namespace Value

/-- The kind of a value, never `object`. -/
def kind : Value → Kind
  | null => .null
  | bool _ => .bool
  | int _ => .int
  | float _ => .float
  | str _ => .str
  | bytes _ => .bytes
  | list _ => .list
  | tuple _ => .tuple
  | dict _ => .dict

/-! ## Equality -/

mutual

/-- The test for equality: the same tree, floating point numbers by their bits. -/
def beq : Value → Value → Bool
  | null, null => true
  | bool a, bool b => a == b
  | int a, int b => a == b
  | float x, float y => decide (x = y)
  | str s, str t => s == t
  | bytes as, bytes bs => as == bs
  | list as, list bs => beqItems as bs
  | tuple as, tuple bs => beqItems as bs
  | dict as, dict bs => beqEntries as bs
  | _, _ => false

/-- Equal items in the same order and number. -/
def beqItems : List Value → List Value → Bool
  | [], [] => true
  | a :: as, b :: bs => beq a b && beqItems as bs
  | _, _ => false

/-- Equal entries in the same order and number. -/
def beqEntries : List (Value × Value) → List (Value × Value) → Bool
  | [], [] => true
  | (j, a) :: as, (k, b) :: bs => beq j k && (beq a b && beqEntries as bs)
  | _, _ => false

end

mutual

/-- The test for equality decides equality. -/
theorem beq_iff : ∀ a b : Value, beq a b = true ↔ a = b
  | null, b => by cases b <;> simp [beq]
  | bool _, b => by cases b <;> simp [beq]
  | int _, b => by cases b <;> simp [beq]
  | float _, b => by cases b <;> simp [beq]
  | str _, b => by cases b <;> simp [beq]
  | bytes _, b => by cases b <;> simp [beq]
  | list as, b => by cases b <;> simp [beq, beqItems_iff as]
  | tuple as, b => by cases b <;> simp [beq, beqItems_iff as]
  | dict as, b => by cases b <;> simp [beq, beqEntries_iff as]

theorem beqItems_iff : ∀ as bs : List Value, beqItems as bs = true ↔ as = bs
  | [], bs => by cases bs <;> simp [beqItems]
  | a :: as, bs => by
    cases bs <;> simp [beqItems, beq_iff a, beqItems_iff as]

theorem beqEntries_iff :
    ∀ as bs : List (Value × Value), beqEntries as bs = true ↔ as = bs
  | [], bs => by cases bs <;> simp [beqEntries]
  | (j, a) :: as, bs => by
    cases bs with
    | nil => simp [beqEntries]
    | cons e bs =>
      obtain ⟨k, b⟩ := e
      simp [beqEntries, beq_iff j, beq_iff a, beqEntries_iff as, and_assoc]

end

instance : DecidableEq Value := fun a b => decidable_of_iff _ (beq_iff a b)

/-! ## Views -/

/-- The integer that a value counts as: a truth value counts zero or one. -/
def asInt? : Value → Option Int64
  | int n => some n
  | bool b => some (if b then 1 else 0)
  | _ => none

/-- The floating point number that a value counts as, integers rounded to the nearest. -/
def asFloat? : Value → Option Binary64
  | float x => some x
  | int n => some (Binary64.ofInt n.toInt)
  | bool b => some (Binary64.ofInt (if b then 1 else 0))
  | _ => none

/-- The text of a string. -/
def asStr? : Value → Option String
  | str s => some s
  | _ => none

end Value

end GuardedCall

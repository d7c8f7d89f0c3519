import GuardedCall.Failure
import GuardedCall.Value.Repr

/-!
# Signatures

A signature names a function and its parameters, each with an optional kind and an optional
default. The names of the parameters are distinct, and no parameter without a default comes after
one that has a default; both hold of every signature by its type.

Main definitions: `Param`, `Signature`, `Signature.build`.
Main statements: `Signature.fault?_eq_none_iff`, when parameters make a signature, and
`Signature.build_eq_ok_iff`, which one they make.
-/

namespace GuardedCall

/-- A parameter. -/
structure Param where
  name : String
  kind? : Option Kind := none
  default? : Option Value := none
  deriving DecidableEq

namespace Param

def hasDefault (p : Param) : Bool := p.default?.isSome

/-- The text of a parameter: blanks stand around the equals sign only if there is a kind. -/
def display (p : Param) : String :=
  match p.kind?, p.default? with
  | none, none => p.name
  | none, some v => p.name ++ "=" ++ v.repr
  | some k, none => p.name ++ ": " ++ k.name
  | some k, some v => p.name ++ ": " ++ k.name ++ " = " ++ v.repr

end Param

/-- Why parameters do not make a signature. -/
inductive SignatureFault
  /-- A name occurs again. -/
  | repeatedName (param : String)
  /-- A parameter without default comes after one with a default. -/
  | defaultBefore (param : String)
  deriving DecidableEq

namespace SignatureFault

/-- The wording of a fault in the definition of `func`. -/
def message (func : String) : SignatureFault → String
  | repeatedName param =>
    "duplicate argument " ++ quotedName param ++ " in function definition of " ++ func ++ "()"
  | defaultBefore param =>
    "non-default argument " ++ quotedName param ++ " follows default argument in " ++ func ++ "()"

/-- A fault as a failure. -/
def failure (func : String) (f : SignatureFault) : Failure where
  kind := .signature
  message := f.message func

end SignatureFault

/-- The parameters after one with a default have defaults too. -/
def DefaultsLast (ps : List Param) : Prop :=
  ps.Pairwise fun p q => p.hasDefault = true → q.hasDefault = true

instance (ps : List Param) : Decidable (DefaultsLast ps) :=
  inferInstanceAs (Decidable (ps.Pairwise _))

/-- A function's name and its parameters. -/
structure Signature where
  name : String
  params : List Param
  names_nodup : (params.map Param.name).Nodup
  defaults_last : DefaultsLast params
  deriving DecidableEq

namespace Signature

/-- The first fault among parameters, given the names before them and whether one of those has a
default. A repeated name comes first if both faults are at the same parameter. -/
def fault? (earlier : List String) (defaulted : Bool) : List Param → Option SignatureFault
  | [] => none
  | p :: ps =>
    if p.name ∈ earlier then some (.repeatedName p.name)
    else if defaulted && !p.hasDefault then some (.defaultBefore p.name)
    else fault? (p.name :: earlier) (defaulted || p.hasDefault) ps

/-- There is no fault exactly if the names are distinct and new, and the defaults last. -/
theorem fault?_eq_none_iff (ps : List Param) (earlier : List String) (defaulted : Bool) :
    fault? earlier defaulted ps = none ↔
      (∀ p ∈ ps, p.name ∉ earlier) ∧ (ps.map Param.name).Nodup ∧
        (defaulted = true → ∀ p ∈ ps, p.hasDefault = true) ∧ DefaultsLast ps := by
  induction ps generalizing earlier defaulted with
  | nil => simp [fault?, DefaultsLast]
  | cons p ps ih =>
    simp only [DefaultsLast] at ih ⊢
    by_cases hn : p.name ∈ earlier
    · simp [fault?, hn]
    · cases hd : p.hasDefault <;> cases defaulted <;>
        simp [fault?, hn, hd, ih, List.pairwise_cons] <;> grind

/-- The signature with the given parameters, unless there is a fault. -/
def build (name : String) (params : List Param) : Except SignatureFault Signature :=
  match h : fault? [] false params with
  | some f => .error f
  | none =>
    have ok := (fault?_eq_none_iff params [] false).1 h
    .ok { name, params, names_nodup := ok.2.1, defaults_last := ok.2.2.2 }

/-- A signature is built of its own name and parameters. -/
theorem build_self (s : Signature) : build s.name s.params = .ok s := by
  have hnone : fault? [] false s.params = none := by
    rw [fault?_eq_none_iff]
    exact ⟨by simp, s.names_nodup, by simp, s.defaults_last⟩
  unfold build
  split
  · rename_i f hsome
    rw [hnone] at hsome
    cases hsome
  · rfl

/-- What is built has the name and the parameters that it is built of. -/
theorem build_eq_ok_iff {name : String} {ps : List Param} {s : Signature} :
    build name ps = .ok s ↔ s.name = name ∧ s.params = ps := by
  constructor
  · intro h
    unfold build at h
    split at h
    · cases h
    · cases h
      exact ⟨rfl, rfl⟩
  · rintro ⟨rfl, rfl⟩
    exact build_self s

/-- The parameter with a name. -/
def param? (s : Signature) (name : String) : Option Param := s.params.find? fun p => p.name = name

/-- The parameters that a call has to give a value. -/
def required (s : Signature) : List Param := s.params.filter fun p => !p.hasDefault

/-- The text of a signature. -/
def display (s : Signature) : String :=
  s.name ++ "(" ++ ", ".intercalate (s.params.map Param.display) ++ ")"

end Signature

end GuardedCall

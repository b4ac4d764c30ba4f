import Mathlib.Data.Finmap

/-! # Calls to the API server

Errors, labels and the retry loop that the controllers share. An attempt of the
loop is numbered so that the environment can answer each one differently.
-/

namespace ElCarro.K8s

/-- Errors of the API server, as far as the controllers tell them apart. -/
inductive ApiError where
  | notFound
  | alreadyExists
  | conflict
  | other (message : String)
  deriving DecidableEq, Repr

structure ObjectKey where
  ns : String
  name : String
  deriving DecidableEq, Repr

/-- A string map of the API; a field that may be nil is an `Option` of one. -/
abbrev StrMap := Finmap fun _ : String => String

/-- The selector `key=value` of `SelectorFromSet`. -/
def Selects (key value : String) (labels : StrMap) : Prop := labels.lookup key = some value

instance (key value : String) (labels : StrMap) : Decidable (Selects key value labels) :=
  inferInstanceAs (Decidable (_ = _))

/-- Number of attempts of `retry.DefaultBackoff`. -/
def defaultBackoffSteps : Nat := 4

/-- `RetryOnConflict`: repeat while the attempt conflicts and steps are left. -/
def retryOnConflict {α : Type*} (attempt : Nat → Except ApiError α) : Nat → Except ApiError α
  | 0 => .error .conflict
  | steps + 1 =>
    match attempt steps with
    | .error .conflict => retryOnConflict attempt steps
    | res => res

end ElCarro.K8s

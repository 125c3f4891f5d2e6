import SchemaModules.Module.Inspection

/-!
# Values computed at most once

A memo holds a computation until its outcome is asked for, and the outcome from then on. The
computation may have an effect, which is why it matters that it runs only once: it acts on a state
of any type that is handed through.
-/

namespace SchemaModules

/-- An outcome that is known, or the computation that will give it. -/
structure Memo (σ α : Type) where
  outcome : Option (Except ModuleError α)
  computation : Option (σ → Except ModuleError α × σ)

namespace Memo

variable {σ α : Type}

/-- The memo of a computation that has not run. -/
def suspend (computation : σ → Except ModuleError α × σ) : Memo σ α := ⟨none, some computation⟩

/-- The memo of a value that is known from the start. -/
def resolved (value : α) : Memo σ α := ⟨some (.ok value), none⟩

/-- The outcome of a memo, which is computed if it is not known. -/
def get (m : Memo σ α) (state : σ) : Except ModuleError α × Memo σ α × σ :=
  match m.outcome with
  | some outcome => (outcome, m, state)
  | none =>
      match m.computation with
      | some computation =>
          let (outcome, state) := computation state
          (outcome, ⟨some outcome, none⟩, state)
      | none =>
          let outcome := .error (.fault "memoized value has no initializer")
          (outcome, ⟨some outcome, none⟩, state)

/-- Whether the outcome of a memo is known. -/
def isResolved (m : Memo σ α) : Bool := m.outcome.isSome

/-- A memo as it stands in logs. -/
def inspect (showValue : α → String) (m : Memo σ α) : String :=
  match m.outcome with
  | none => "Memo(<unresolved>)"
  | some (.ok value) => Text.inspectTuple "Memo" (Text.inspectTuple "Ok" (showValue value))
  | some (.error error) => Text.inspectTuple "Memo" (Text.inspectTuple "Err" error.inspect)

end Memo

end SchemaModules

import SchemaModules.Publish.Upload

/-! # Outcomes of publishing

A course of calls from a state has an outcome: a result or an error, and the state after it. The
rules here follow a course from one call to the next.
-/

namespace SchemaModules

namespace PublishError

/-- Errors that show before a registry is asked anything. -/
def isRefusal : PublishError → Bool
  | .options _ | .unnamedModule _ | .unnamedDependencies _ | .multipleRegistries _ => true
  | _ => false

/-- Errors that keep an upload from being sent. -/
def isUnsent : PublishError → Bool
  | .divergentDefaultLabels _ | .federation .. | .impossible _ | .module _ => true
  | _ => false

/-- Errors that a registry gives, or that are found in its answer. -/
def isAnswered : PublishError → Bool
  | .registry _ | .commitCount .. | .invalidResponse _ => true
  | _ => false

theorem not_isRefusal_of_isUnsent {error : PublishError} (unsent : error.isUnsent = true) :
    error.isRefusal = false := by
  cases error <;> simp_all [isUnsent, isRefusal]

theorem not_isRefusal_of_isAnswered {error : PublishError} (answered : error.isAnswered = true) :
    error.isRefusal = false := by
  cases error <;> simp_all [isAnswered, isRefusal]

theorem not_isUnsent_of_isAnswered {error : PublishError} (answered : error.isAnswered = true) :
    error.isUnsent = false := by
  cases error <;> simp_all [isAnswered, isUnsent]

end PublishError

namespace Publishing

variable {σ α β : Type}

/-- The result of a course of calls from a state, and the state after it. -/
def outcome (p : Publishing σ α) (state : σ) : Except PublishError α × σ := p.run.run state

variable {p : Publishing σ α} {f : α → Publishing σ β} {s t : σ} {a : α} {e : PublishError}

@[simp]
theorem outcome_call (c : Call σ α) (s : σ) :
    outcome (call c) s = ((c s).1.mapError .registry, (c s).2) := rfl

@[simp]
theorem outcome_attempt (c : Call σ α) (s : σ) :
    outcome (attempt c) s = (.ok (c s).1, (c s).2) := rfl

@[simp]
theorem outcome_given (x : Except PublishError α) (s : σ) : outcome (given x) s = (x, s) := rfl

/-- A course goes on with the result of its first part. -/
theorem outcome_bind_of_ok (first : outcome p s = (.ok a, t)) :
    outcome (p >>= f) s = outcome (f a) t := by
  unfold outcome at first ⊢
  simp only [ExceptT.run_bind, StateT.run_bind, first]
  rfl

/-- A course ends with the error of its first part. -/
theorem outcome_bind_of_error (first : outcome p s = (.error e, t)) :
    outcome (p >>= f) s = (.error e, t) := by
  unfold outcome at first ⊢
  simp only [ExceptT.run_bind, StateT.run_bind, first]
  rfl

@[simp]
theorem outcome_ok_bind (a : α) (s : σ) : outcome (given (.ok a) >>= f) s = outcome (f a) s := rfl

@[simp]
theorem outcome_error_bind (e : PublishError) (s : σ) :
    outcome (given (.error e) >>= f) s = (.error e, s) := rfl

end Publishing

end SchemaModules

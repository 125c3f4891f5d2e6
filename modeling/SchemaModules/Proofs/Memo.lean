import Mathlib.Logic.Function.Basic
import SchemaModules.Memo

/-! # Questions to memos

Clones of a memo share it: they lead to one place, and whoever asks through one of them finds the
memo as the last question left it. However often and through whichever clones a memo is asked, its
computation runs once if its outcome was asked for at all, and every answer is about the outcome of
that one run (`Memo.runs_once`).
-/

namespace SchemaModules.Memo

variable {κ ι σ α : Type}

/-- What can be asked of a memo: its outcome, whether it is known, and how it stands in logs. -/
inductive Question where
  | outcome
  | isResolved
  | inspection
  deriving DecidableEq

/-- The answers to the questions. -/
inductive Answer (α : Type) where
  | outcome (outcome : Except ModuleError α)
  | isResolved (known : Bool)
  | inspection (text : String)

/-- A question put to a memo. -/
def ask (showValue : α → String) (m : Memo σ α) (state : σ) :
    Question → Answer α × Memo σ α × σ
  | .outcome =>
      let (outcome, m, state) := m.get state
      (.outcome outcome, m, state)
  | .isResolved => (.isResolved m.isResolved, m, state)
  | .inspection => (.inspection (m.inspect showValue), m, state)

/-- A question asked through a clone. -/
structure Call (κ : Type) where
  clone : κ
  question : Question

/-- Memos, each in its place, and the clones of them, each leading to a place. -/
structure Clones (κ ι σ α : Type) where
  memos : ι → Memo σ α
  place : κ → ι

/-- What came of calls: their answers in order, and what they left. -/
structure Run (κ ι σ α : Type) where
  answers : List (Answer α)
  clones : Clones κ ι σ α
  state : σ

namespace Clones

variable [DecidableEq ι]

/-- The clones after the memo in a place has become another one. -/
def put (c : Clones κ ι σ α) (i : ι) (m : Memo σ α) : Clones κ ι σ α :=
  ⟨Function.update c.memos i m, c.place⟩

/-- A call acts on the memo that its clone leads to. -/
def call (showValue : α → String) (c : Clones κ ι σ α) (state : σ) (call : Call κ) :
    Answer α × Clones κ ι σ α × σ :=
  let i := c.place call.clone
  let (answer, m, state) := (c.memos i).ask showValue state call.question
  (answer, c.put i m, state)

/-- Calls one after another. -/
def run (showValue : α → String) (c : Clones κ ι σ α) (state : σ) : List (Call κ) → Run κ ι σ α
  | [] => ⟨[], c, state⟩
  | first :: calls =>
      let (answer, c, state) := c.call showValue state first
      let later := c.run showValue state calls
      { later with answers := answer :: later.answers }

end Clones

/-- The outcome is asked for in some call. -/
def isAsked (calls : List (Call κ)) : Bool := calls.any fun call => call.question = .outcome

/-- A memo without an outcome and without the computation to get it from, which has to make up an
error when it is asked. -/
def IsLost (m : Memo σ α) : Prop := m.outcome = none ∧ m.computation = none

/-- How a known outcome stands in logs. -/
def shown (showValue : α → String) : Except ModuleError α → String
  | .ok value => "Memo(Ok(" ++ showValue value ++ "))"
  | .error error => "Memo(Err(" ++ error.inspect ++ "))"

/-- The answer about an outcome, which may be known already when the question is asked. -/
def answer (showValue : α → String) (outcome : Except ModuleError α) (known : Bool) :
    Question → Answer α
  | .outcome => .outcome outcome
  | .isResolved => .isResolved known
  | .inspection =>
      .inspection (if known then shown showValue outcome else "Memo(<unresolved>)")

/-- Answers to calls that are all about one outcome; `known` says after which calls it is known. -/
structure AreAbout (showValue : α → String) (outcome : Except ModuleError α)
    (known : List (Call κ) → Bool) (calls : List (Call κ)) (answers : List (Answer α)) : Prop where
  length_eq : answers.length = calls.length
  getElem?_eq : ∀ before call after, calls = before ++ call :: after →
    answers[before.length]? = some (answer showValue outcome (known before) call.question)

/-- A computation that counts its runs. -/
def counted (computation : σ → Except ModuleError α × σ) :
    σ × Nat → Except ModuleError α × σ × Nat := fun (state, runs) =>
  let (outcome, state) := computation state
  (outcome, state, runs + 1)

/-! ## Stages of a memo -/

/-- A memo before and after its outcome is known. -/
def stage (computation : σ → Except ModuleError α × σ) (state : σ) : (known : Bool) → Memo σ α
  | false => suspend computation
  | true => ⟨some (computation state).1, none⟩

/-- The state before and after a computation has run. -/
def stateAt (computation : σ → Except ModuleError α × σ) (state : σ) : (known : Bool) → σ
  | false => state
  | true => (computation state).2

variable {computation : σ → Except ModuleError α × σ} {state : σ} {showValue : α → String}
  {outcome : Except ModuleError α} {calls : List (Call κ)} {known : Bool}

theorem inspect_of_outcome {m : Memo σ α} (resolved : m.outcome = some outcome) :
    m.inspect showValue = shown showValue outcome := by
  rw [inspect, resolved]
  apply String.toList_injective
  cases outcome <;> simp [shown, Text.inspectTuple, String.toList_append]

/-- A known outcome does not stand in logs as an unknown one. -/
theorem shown_ne_unresolved (showValue : α → String) (outcome : Except ModuleError α) :
    shown showValue outcome ≠ "Memo(<unresolved>)" := by
  intro same
  -- The first character inside the brackets tells them apart.
  have chars := congrArg (fun s : String => s.toList[5]?) same
  cases outcome <;> simp [shown, String.toList_append] at chars

theorem not_isLost_stage : ¬ (stage computation state known).IsLost := by
  rintro ⟨outcome, computation⟩
  cases known with
  | false => cases computation
  | true => cases outcome

/-- A question is answered about the outcome, and to ask for the outcome makes it known. -/
theorem ask_stage (question : Question) :
    (stage computation state known).ask showValue (stateAt computation state known) question =
      (answer showValue (computation state).1 known question,
        stage computation state (known || question = .outcome),
        stateAt computation state (known || question = .outcome)) := by
  cases known with
  | false => cases question <;> rfl
  | true =>
      cases question with
      | outcome => rfl
      | isResolved => rfl
      | inspection =>
          have text : (stage computation state true).inspect showValue =
              shown showValue (computation state).1 := inspect_of_outcome rfl
          simp [ask, text, answer]

/-! ## Calls -/

theorem or_isAsked_nil : (known || isAsked ([] : List (Call κ))) = known := Bool.or_false known

theorem isAsked_cons (call : Call κ) (calls : List (Call κ)) :
    isAsked (call :: calls) = (decide (call.question = .outcome) || isAsked calls) :=
  List.any_cons

namespace Clones

variable [DecidableEq ι] {c : Clones κ ι σ α} {i : ι}

theorem memos_put (c : Clones κ ι σ α) (i : ι) (m : Memo σ α) : (c.put i m).memos i = m :=
  Function.update_self ..

/-- A call through a clone of a memo brings the memo to its next stage. -/
theorem call_stage (found : c.memos i = stage computation state known) {call : Call κ}
    (through : c.place call.clone = i) :
    c.call showValue (stateAt computation state known) call =
      (answer showValue (computation state).1 known call.question,
        c.put i (stage computation state (known || call.question = .outcome)),
        stateAt computation state (known || call.question = .outcome)) := by
  simp only [Clones.call, through, found, ask_stage]

/-- Calls through clones of one memo are answered about the outcome of its one run, which is known
once it was asked for. They leave other memos as they are. -/
theorem run_stage (showValue : α → String) (found : c.memos i = stage computation state known)
    (through : ∀ call ∈ calls, c.place call.clone = i) :
    let run := c.run showValue (stateAt computation state known) calls
    AreAbout showValue (computation state).1 (known || isAsked ·) calls run.answers ∧
      run.state = stateAt computation state (known || isAsked calls) ∧
      run.clones = c.put i (stage computation state (known || isAsked calls)) := by
  induction calls generalizing c known with
  | nil =>
      refine ⟨⟨rfl, fun before call after split => absurd split (by simp)⟩, ?_, ?_⟩
      · rw [or_isAsked_nil]
        rfl
      · rw [or_isAsked_nil, ← found, put, Function.update_eq_self]
        rfl
  | cons first calls ih =>
      obtain ⟨here, later⟩ := List.forall_mem_cons.mp through
      have next : (c.put i (stage computation state (known || first.question = .outcome))).memos i =
          stage computation state (known || first.question = .outcome) :=
        memos_put ..
      obtain ⟨about, left, clones⟩ := ih next later
      have asked : (known || isAsked (first :: calls)) =
          ((known || first.question = .outcome) || isAsked calls) := by
        rw [isAsked_cons, Bool.or_assoc]
      simp only [Clones.run, call_stage found here, asked]
      refine ⟨⟨congrArg (· + 1) about.length_eq, ?_⟩, left, ?_⟩
      · intro before call after split
        cases before with
        | nil =>
            obtain ⟨rfl, rfl⟩ := List.cons_eq_cons.mp split
            rw [or_isAsked_nil]
            rfl
        | cons _ before =>
            obtain ⟨rfl, rest⟩ := List.cons_eq_cons.mp split
            rw [isAsked_cons, ← Bool.or_assoc]
            exact about.getElem?_eq before call after rest
      · rw [clones]
        simp only [put, Function.update_idem]

theorem not_isLost_run (showValue : α → String)
    (found : c.memos i = stage computation state known)
    (through : ∀ call ∈ calls, c.place call.clone = i) :
    ¬ ((c.run showValue (stateAt computation state known) calls).clones.memos i).IsLost := by
  obtain ⟨-, -, clones⟩ := run_stage showValue found through
  rw [clones, memos_put]
  exact not_isLost_stage

end Clones

/-- A memo is asked any questions through any of its clones: its computation runs once if it was
asked for its outcome, and not at all otherwise. The outcome of this run, be it a value or an error,
is the answer each time, and it is known from the first time on. The memo never lacks both an
outcome and the computation to get it from. A memo of a known value answers with it and runs
nothing. -/
theorem runs_once [DecidableEq ι] (showValue : α → String) (c : Clones κ ι (σ × Nat) α) (i : ι)
    (computation : σ → Except ModuleError α × σ) (state : σ) (calls : List (Call κ))
    (through : ∀ call ∈ calls, c.place call.clone = i) :
    let run := c.run showValue (state, 0) calls
    (c.memos i = suspend (counted computation) →
      AreAbout showValue (computation state).1 isAsked calls run.answers ∧
        run.state = (if isAsked calls then ((computation state).2, 1) else (state, 0)) ∧
        ¬ (run.clones.memos i).IsLost) ∧
    (∀ value, c.memos i = resolved value →
      AreAbout showValue (.ok value) (fun _ => true) calls run.answers ∧
        run.state = (state, 0) ∧ ¬ (run.clones.memos i).IsLost) ∧
    ∀ outcome, shown showValue outcome ≠ "Memo(<unresolved>)" := by
  intro run
  refine ⟨?suspended, ?resolved, shown_ne_unresolved showValue⟩
  case suspended =>
    intro suspended
    have found : c.memos i = stage (counted computation) (state, 0) false := suspended
    obtain ⟨about, left, -⟩ := Clones.run_stage showValue found through
    refine ⟨about, left.trans ?_, Clones.not_isLost_run showValue found through⟩
    cases isAsked calls <;> rfl
  case resolved =>
    intro value known
    have found : c.memos i = stage (fun state => (.ok value, state)) (state, 0) true := known
    obtain ⟨about, left, -⟩ := Clones.run_stage showValue found through
    exact ⟨about, left, Clones.not_isLost_run showValue found through⟩

/-- A computation that fails runs once, although two clones ask for its outcome, and its error stays
the outcome. -/
theorem runs_once_of_failure :
    let computation : Nat → Except ModuleError Nat × Nat := fun reads =>
      (.error (.storage "a.proto" "boom"), reads + 5)
    let c : Clones Bool Unit (Nat × Nat) Nat :=
      ⟨fun _ => suspend (counted computation), fun _ => ()⟩
    let calls : List (Call Bool) := [⟨true, .isResolved⟩, ⟨false, .outcome⟩, ⟨true, .inspection⟩,
      ⟨true, .outcome⟩, ⟨false, .isResolved⟩]
    let run := c.run toString (0, 0) calls
    (∀ call ∈ calls, c.place call.clone = ()) ∧
      c.memos () = suspend (counted computation) ∧
      run.state = (5, 1) ∧ ¬ (run.clones.memos ()).IsLost ∧ run.answers.length = 5 ∧
      run.answers[0]? = some (.isResolved false) ∧
      run.answers[3]? = some (.outcome (.error (.storage "a.proto" "boom"))) ∧
      run.answers[4]? = some (.isResolved true) := by
  intro computation c calls run
  have through : ∀ call ∈ calls, c.place call.clone = () := fun _ _ => rfl
  obtain ⟨once, -, -⟩ := runs_once toString c () computation 0 calls through
  obtain ⟨about, left, found⟩ := once rfl
  refine ⟨through, rfl, left, found, about.length_eq, ?_, ?_, ?_⟩
  · exact about.getElem?_eq [] _ _ rfl
  · exact about.getElem?_eq [_, _, _] ⟨true, .outcome⟩ [_] rfl
  · exact about.getElem?_eq [_, _, _, _] ⟨false, .isResolved⟩ [] rfl

end SchemaModules.Memo

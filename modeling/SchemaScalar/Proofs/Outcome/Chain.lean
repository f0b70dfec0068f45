import Mathlib.Logic.Basic
import SchemaScalar.Outcome

/-!
# Chains of steps on an outcome

After a validation its outcome is passed on through steps: functions of the value, further checks,
the way into an error and back, and more messages. A step on a failure adds its message, if it has
one, and on a success it does what it does to the value (`Step.run_failure`, `Step.run_success`).
So a chain of steps that starts with a failure adds all its messages and runs none of its functions
(`Chain.run_failure`), and one that starts with a success composes its functions up to the first of
them that fails (`Chain.run_eq_success_iff`, `Chain.run_eq_failure_iff`).
-/

namespace SchemaScalar

/-! ## Views of messages -/

namespace Messages

def extend (messages : Messages) (more : List String) : Messages := more.foldl push messages

theorem extend_append (messages : Messages) (more others : List String) :
    messages.extend (more ++ others) = (messages.extend more).extend others := by
  simp [extend]

@[simp] theorem first_extend (messages : Messages) (more : List String) :
    (messages.extend more).first = messages.first := by
  induction more generalizing messages with
  | nil => rfl
  | cons message more ih => exact ih (messages.push message)

@[simp] theorem toList_extend (messages : Messages) (more : List String) :
    (messages.extend more).toList = messages.toList ++ more := by
  induction more generalizing messages with
  | nil => simp [extend]
  | cons message more ih =>
    have h : (messages.extend (message :: more)).toList = _ := ih (messages.push message)
    simp [h, toList_push]

theorem ofList?_eq_some_iff {list : List String} {messages : Messages} :
    ofList? list = some messages ↔ messages.toList = list := by
  cases list with
  | nil => simp [ofList?, toList]
  | cons first others =>
    obtain ⟨first', others'⟩ := messages
    simp [ofList?, toList, eq_comm]

def inLine : List String → String
  | [] => ""
  | first :: others => others.foldl (fun line text => line ++ "; " ++ text) first

/-- Whether all views of messages show the texts of a list, in the order of the list. -/
structure Presents (messages : Messages) (list : List String) : Prop where
  toList : messages.toList = list
  size : messages.size = list.length
  first : list.head? = some messages.first
  fold : ∀ {β : Type} (step : β → String → β) (start : β),
    messages.fold step start = list.foldl step start
  display : messages.display = inLine list

theorem intercalate_cons (separator first : String) (others : List String) :
    separator.intercalate (first :: others) =
      others.foldl (fun line text => line ++ separator ++ text) first := by
  induction others generalizing first with
  | nil => rfl
  | cons text others ih => exact ih (first ++ separator ++ text)

theorem presents_toList (messages : Messages) : messages.Presents messages.toList where
  toList := rfl
  size := rfl
  first := rfl
  fold _ _ := rfl
  display := intercalate_cons _ _ _

end Messages

/-! ## Outcomes -/

namespace Outcome

variable {α β γ δ : Type}

/-- Whether an outcome has a value or messages, not both, and can be told by either. -/
structure WellFormed (outcome : Outcome α) : Prop where
  value_or_errors : outcome.value? = none ↔ outcome.errors ≠ []
  isSuccess : outcome.isSuccess = outcome.value?.isSome
  isFailure : outcome.isFailure = !outcome.isSuccess

theorem wellFormed (outcome : Outcome α) : outcome.WellFormed := by
  cases outcome with
  | success value => exact ⟨by simp [value?, errors], rfl, rfl⟩
  | failure messages => exact ⟨by simp [value?, errors, Messages.toList], rfl, rfl⟩

/-- How a chain of steps can start. -/
inductive Start (α : Type) where
  | success (value : α)
  | failure (message : String)
  | failures (messages : List String)

namespace Start

/-- The outcome at the start, which there is not if it were a failure without messages. -/
def outcome? : Start α → Option (Outcome α)
  | success value => some (.success value)
  | failure message => some (.fail message)
  | failures messages => (Messages.ofList? messages).map .failure

def messages : Start α → List String
  | success _ => []
  | failure message => [message]
  | failures messages => messages

theorem outcome?_eq_none_iff {start : Start α} : start.outcome? = none ↔ start = failures [] := by
  cases start with
  | success value => simp [outcome?]
  | failure message => simp [outcome?]
  | failures messages => cases messages <;> simp [outcome?, Messages.ofList?]

theorem errors_outcome {start : Start α} {outcome : Outcome α} (h : start.outcome? = some outcome) :
    outcome.errors = start.messages := by
  cases start with
  | success value =>
    cases h
    rfl
  | failure message =>
    cases h
    rfl
  | failures messages =>
    obtain ⟨found, hfound, rfl⟩ := Option.map_eq_some_iff.1 h
    exact Messages.ofList?_eq_some_iff.1 hfound

end Start

/-! ## One step -/

/-- A step on an outcome, from values of one type to values of another. -/
inductive Step : Type → Type → Type 1 where
  | map {α β : Type} (f : α → β) : Step α β
  | andThen {α β : Type} (next : α → Outcome β) : Step α β
  | throughExcept {α : Type} : Step α α
  | push {α : Type} (message : String) : Step α α

namespace Step

def run : Step α β → Outcome α → Outcome β
  | map f, outcome => outcome.map f
  | andThen next, outcome => outcome.andThen next
  | throughExcept, outcome => .ofExcept outcome.toExcept
  | push message, outcome => outcome.push message

/-- What the function of a step, if it has one, makes of a value. -/
def apply : Step α β → α → Outcome β
  | map f, value => .success (f value)
  | andThen next, value => next value
  | throughExcept, value => .success value
  | push _, value => .success value

/-- The message that a step is there to add. -/
def message? : Step α β → Option String
  | push message => some message
  | _ => none

theorem run_success (step : Step α β) (value : α) : step.run (.success value) = step.apply value := by
  cases step <;> rfl

/-- **A step on a failure adds its message**, and does not run its function. -/
theorem run_failure (step : Step α β) (messages : Messages) :
    step.run (.failure messages) = .failure (messages.extend step.message?.toList) := by
  cases step <;> rfl

end Step

/-! ## Chains -/

/-- Steps one after another. -/
inductive Chain : Type → Type → Type 1 where
  | nil {α : Type} : Chain α α
  | cons {α β γ : Type} (step : Step α β) (rest : Chain β γ) : Chain α γ

namespace Chain

def run : {α β : Type} → Chain α β → Outcome α → Outcome β
  | _, _, nil, outcome => outcome
  | _, _, cons step rest, outcome => rest.run (step.run outcome)

def append : {α β γ : Type} → Chain α β → Chain β γ → Chain α γ
  | _, _, _, nil, chain => chain
  | _, _, _, cons step rest, chain => cons step (rest.append chain)

/-- The messages that a chain is there to add, in order. -/
def messages : {α β : Type} → Chain α β → List String
  | _, _, nil => []
  | _, _, cons step rest => step.message?.toList ++ rest.messages

/-- Whether the functions of a chain, one after another, lead from a value to a value. -/
def Leads : {α β : Type} → Chain α β → α → β → Prop
  | _, _, nil, value, result => result = value
  | _, _, cons step rest, value, result =>
    ∃ next, step.apply value = .success next ∧ rest.Leads next result

/-- Whether a function of a chain fails, where those before it lead from a value to one that it
fails for; the messages of the steps after it follow its own. -/
def Fails (chain : Chain α β) (value : α) (messages : Messages) : Prop :=
  ∃ (γ δ : Type) (front : Chain α γ) (step : Step γ δ) (rest : Chain δ β) (reached : γ)
    (first : Messages), chain = front.append (cons step rest) ∧ front.Leads value reached ∧
      step.apply reached = .failure first ∧ messages = first.extend rest.messages

theorem run_append (chain : Chain α β) (rest : Chain β γ) (outcome : Outcome α) :
    (chain.append rest).run outcome = rest.run (chain.run outcome) := by
  induction chain with
  | nil => rfl
  | cons step chain ih => exact ih rest (step.run outcome)

/-- **A chain that starts with a failure adds its messages**, and does nothing else. -/
theorem run_failure (chain : Chain α β) (messages : Messages) :
    chain.run (.failure messages) = .failure (messages.extend chain.messages) := by
  induction chain generalizing messages with
  | nil => rfl
  | cons step chain ih =>
    rw [run, Step.run_failure, ih, Chain.messages, Messages.extend_append]

/-- **A success at the end is what the functions lead to** from the success at the start. -/
theorem run_eq_success_iff {chain : Chain α β} {value : α} {result : β} :
    chain.run (.success value) = .success result ↔ chain.Leads value result := by
  induction chain with
  | nil => simp [run, Leads, eq_comm]
  | cons step chain ih =>
    rw [run, Step.run_success, Leads]
    cases happly : step.apply value with
    | success next => simp [ih]
    | failure messages => simp [run_failure]

/-- **A failure at the end is that of a function that fails**, and all messages that were added since
follow its own. -/
theorem run_eq_failure_iff {chain : Chain α β} {value : α} {messages : Messages} :
    chain.run (.success value) = .failure messages ↔ chain.Fails value messages := by
  constructor
  · intro h
    induction chain with
    | nil => cases h
    | cons step chain ih =>
      rw [run, Step.run_success] at h
      cases happly : step.apply value with
      | success next =>
        rw [happly] at h
        -- the function that fails comes later in the chain
        obtain ⟨γ, δ, front, failing, rest, reached, first, rfl, hfront, hfails, rfl⟩ := ih h
        exact ⟨γ, δ, cons step front, failing, rest, reached, first, rfl, ⟨next, happly, hfront⟩,
          hfails, rfl⟩
      | failure first =>
        rw [happly, run_failure] at h
        cases h
        exact ⟨_, _, nil, step, chain, value, first, rfl, rfl, happly, rfl⟩
  · rintro ⟨γ, δ, front, step, rest, reached, first, rfl, hfront, hfails, rfl⟩
    rw [run_append, run_eq_success_iff.2 hfront, run, Step.run_success, hfails, run_failure]

/-- **Outcomes stay well-formed, and failures are final.** There is an outcome at the start unless
it were a failure without messages, and it has the messages of the start. Whatever steps follow,
there is a value or there are messages, and the way into an error and back changes nothing. From a
success the steps lead to what their functions lead to one after another, or to the failure of the
first function that fails. From a failure they lead to a failure, whatever their functions are: its
messages are those of that failure and then those of the steps, in every view of them. -/
theorem failures_are_final (start : Start α) :
    (start.outcome? = none ↔ start = .failures []) ∧
    ∀ outcome, start.outcome? = some outcome → outcome.errors = start.messages ∧
      ∀ {β : Type} (front : Chain α β),
        (front.run outcome).WellFormed ∧
        (front.append (cons .throughExcept nil)).run outcome = front.run outcome ∧
        (∀ value, outcome = .success value →
          (∀ result, front.run outcome = .success result ↔ front.Leads value result) ∧
          ∀ messages, front.run outcome = .failure messages ↔ front.Fails value messages) ∧
        ∀ messages, front.run outcome = .failure messages →
          messages.Presents (front.run outcome).errors ∧
          ∀ {γ : Type} (rest : Chain β γ),
            (∃ last, (front.append rest).run outcome = .failure last ∧
              last.first = messages.first ∧
              last.Presents (messages.toList ++ rest.messages)) ∧
            ∀ other : Chain β γ, other.messages = rest.messages →
              (front.append other).run outcome = (front.append rest).run outcome := by
  refine ⟨Start.outcome?_eq_none_iff, fun outcome hstart => ⟨Start.errors_outcome hstart, ?_⟩⟩
  intro β front
  refine ⟨wellFormed _, ?_, ?_, ?_⟩
  · rw [run_append]
    exact ofExcept_toExcept _
  · rintro value rfl
    exact ⟨fun _ => run_eq_success_iff, fun _ => run_eq_failure_iff⟩
  · intro messages hfailure
    have hrest : ∀ {γ : Type} (rest : Chain β γ),
        (front.append rest).run outcome = .failure (messages.extend rest.messages) := by
      intro γ rest
      rw [run_append, hfailure, run_failure]
    refine ⟨?_, fun {γ} rest => ⟨⟨_, hrest rest, ?_, ?_⟩, ?_⟩⟩
    · rw [hfailure]
      exact messages.presents_toList
    · exact messages.first_extend _
    · rw [← Messages.toList_extend]
      exact Messages.presents_toList _
    · intro other hother
      rw [hrest, hrest, hother]

/-- A value that fails a check stays a failure: a later function is not run, a later message is
added. -/
theorem failures_are_final_check :
    let check : Step Int Int := .andThen fun n => if 0 < n then .success n else .fail "not positive"
    let front := cons (.map fun n : Int => n - 5) (cons check nil)
    let rest : Chain Int String := cons (.push "too small") (cons (.map fun n => toString n) nil)
    front.run (.success 3) = .failure (.one "not positive") ∧
    ∃ last, (front.append rest).run (.success 3) = .failure last ∧
      last.toList = ["not positive", "too small"] ∧
      last.display = "not positive; too small" := by
  intro check front rest
  have hfront := ((failures_are_final (.success (3 : Int))).2 _ rfl).2 front
  have hfailure : front.run (.success 3) = .failure (.one "not positive") := rfl
  obtain ⟨last, hlast, -, hpresents⟩ := ((hfront.2.2.2 _ hfailure).2 rest).1
  exact ⟨hfailure, last, hlast, hpresents.toList, hpresents.display.trans (by decide)⟩

end Chain

end Outcome

end SchemaScalar

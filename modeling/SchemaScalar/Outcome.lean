/-!
# Outcomes of a validation

A validation ends in success with a value or in failure with messages, of which there is at least
one. Failures are final: later steps are not run, and only more messages can be added.
-/

namespace SchemaScalar

/-- `ValidationErrors`: one or more messages, in order. -/
structure Messages where
  first : String
  others : List String
  deriving DecidableEq

namespace Messages

def one (message : String) : Messages := ⟨message, []⟩

/-- `from_messages`: the messages of a list, which must not be empty. -/
def ofList? : List String → Option Messages
  | [] => none
  | first :: others => some ⟨first, others⟩

def toList (messages : Messages) : List String := messages.first :: messages.others

/-- Goes through the messages in order. -/
def fold {β : Type} (step : β → String → β) (start : β) (messages : Messages) : β :=
  messages.others.foldl step (step start messages.first)

def size (messages : Messages) : Nat := messages.others.length + 1

def push (messages : Messages) (message : String) : Messages :=
  { messages with others := messages.others ++ [message] }

/-- All messages in one line. -/
def display (messages : Messages) : String := "; ".intercalate messages.toList

theorem toList_push (messages : Messages) (message : String) :
    (messages.push message).toList = messages.toList ++ [message] := rfl

end Messages

/-- `ValidationResult`: what a validation ends in. -/
inductive Outcome (α : Type) where
  | success (value : α)
  | failure (messages : Messages)
  deriving DecidableEq

namespace Outcome

variable {α β : Type}

/-- `failure`: a single message. -/
def fail (message : String) : Outcome α := .failure (.one message)

def value? : Outcome α → Option α
  | success value => some value
  | failure _ => none

/-- The messages of a failure; a success has none. -/
def errors : Outcome α → List String
  | success _ => []
  | failure messages => messages.toList

def isSuccess : Outcome α → Bool
  | success _ => true
  | failure _ => false

def isFailure : Outcome α → Bool
  | success _ => false
  | failure _ => true

def map (f : α → β) : Outcome α → Outcome β
  | success value => success (f value)
  | failure messages => failure messages

def andThen (outcome : Outcome α) (next : α → Outcome β) : Outcome β :=
  match outcome with
  | success value => next value
  | failure messages => failure messages

/-- Adds a message to a failure. -/
def push (outcome : Outcome α) (message : String) : Outcome α :=
  match outcome with
  | success value => success value
  | failure messages => failure (messages.push message)

/-- `into_result`: the outcome with its messages as an error. -/
def toExcept : Outcome α → Except Messages α
  | success value => .ok value
  | failure messages => .error messages

/-- The outcome whose messages are the error. -/
def ofExcept : Except Messages α → Outcome α
  | .ok value => success value
  | .error messages => failure messages

theorem ofExcept_toExcept (outcome : Outcome α) : ofExcept outcome.toExcept = outcome := by
  cases outcome <;> rfl

end Outcome

end SchemaScalar

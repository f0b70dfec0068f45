import SchemaScalar.Json.Fault

/-!
# Readers

A reader takes a value off the front of a text and says what is left. Readers are joined by `do`:
each goes on where the one before it stopped, and the first fault ends the reading.
-/

namespace SchemaScalar

namespace Json

/-- Reads off the front of a text: the value and the characters left, or a fault. -/
def Reader (α : Type) : Type := List Char → Except Fault (α × List Char)

namespace Reader

variable {α β : Type}

def done (value : α) : Reader α := fun text => .ok (value, text)

def andThen (first : Reader α) (next : α → Reader β) : Reader β := fun text =>
  match first text with
  | .ok (value, rest) => next value rest
  | .error fault => .error fault

instance : Monad Reader where
  pure := done
  bind := andThen

theorem pure_apply (value : α) (text : List Char) :
    (pure value : Reader α) text = .ok (value, text) := rfl

theorem bind_apply (first : Reader α) (next : α → Reader β) (text : List Char) :
    (first >>= next) text =
      match first text with
      | .ok (value, rest) => next value rest
      | .error fault => .error fault := rfl

/-- A fault at the text left. -/
def fail (cause : Cause) : Reader α := fun text => .error ⟨cause, text, 0⟩

/-- A fault at the first byte of the text left, which counts as read. -/
def failAhead (cause : Cause) : Reader α := fun text => .error ⟨cause, text, 1⟩

def malformed (what : Malformed) : Reader α := fail (.malformed what)

def malformedAhead (what : Malformed) : Reader α := failAhead (.malformed what)

/-- A complaint about what was read, reported where `closing` stops, whether that fails or not. -/
def complainAfter (closing : Reader Unit) (what : Complaint) : Reader α := fun text =>
  match closing text with
  | .ok (_, rest) => .error ⟨.complaint what, rest, 0⟩
  | .error fault => .error ⟨.complaint what, fault.rest, 0⟩

/-- Blanks between the parts of a document: spaces, tabs and line ends. -/
def isBlank (c : Char) : Bool := c == ' ' || c == '\t' || c == '\n' || c == '\r'

def blanks : Reader Unit := fun text => .ok ((), text.dropWhile isBlank)

/-- Passes over the remaining letters of one of the words of JSON. -/
def word : List Char → Reader Unit
  | [] => done ()
  | letter :: letters => fun text =>
    match text with
    | [] => malformed .endInValue []
    | c :: rest =>
      if c = letter then word letters rest else malformedAhead .identExpected (c :: rest)

/-- `from_str`: reads a whole text, a value and nothing but blanks after it. -/
def whole (value : Reader α) (text : List Char) : Except Fault α :=
  match (value >>= fun a => blanks >>= fun _ => pure a) text with
  | .ok (a, []) => .ok a
  | .ok (_, rest) => .error ⟨.malformed .trailingCharacters, rest, 1⟩
  | .error fault => .error fault

end Reader

end Json

end SchemaScalar

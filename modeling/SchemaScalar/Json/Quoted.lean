import SchemaScalar.Json.Reader

/-!
# Quoted strings

Strings are read from the character after the opening quote to the closing one. A character beyond
the first 65536 may be escaped as a pair of surrogates; a surrogate on its own denotes no character.
Passing over a string checks that each escape has its form, not that surrogates pair up.
-/

namespace SchemaScalar

namespace Json

/-- The value of a hexadecimal digit, of either case. -/
def hexValue? (c : Char) : Option Nat :=
  if '0' ≤ c && c ≤ '9' then some (c.toNat - '0'.toNat)
  else if 'a' ≤ c && c ≤ 'f' then some (c.toNat - 'a'.toNat + 10)
  else if 'A' ≤ c && c ≤ 'F' then some (c.toNat - 'A'.toNat + 10)
  else none

/-- The number written in hexadecimal digits, none if one of the characters is no such digit. -/
def hexNumber? (digits : List Char) : Option Nat :=
  digits.foldlM (fun n c => (hexValue? c).map (16 * n + ·)) 0

def byteLength (text : List Char) : Nat := (String.ofList text).utf8ByteSize

namespace Reader

/-- Four hexadecimal digits. Four bytes are read in any case, and with fewer left the text ends
here. -/
def hexUnit : Reader Nat := fun text =>
  match text with
  | a :: b :: c :: d :: rest =>
    match hexNumber? [a, b, c, d] with
    | some code => .ok (code, rest)
    | none => .error ⟨.malformed .invalidEscape, text, 4⟩
  | _ =>
    if byteLength text < 4 then malformed .endInString []
    else .error ⟨.malformed .invalidEscape, text, 4⟩

/-- A character that must come next in a pair of surrogates. -/
def pairMark (mark : Char) : Reader Unit := fun text =>
  match text with
  | [] => malformed .endInString []
  | c :: rest =>
    if c = mark then .ok ((), rest) else malformedAhead .unfinishedSurrogatePair (c :: rest)

/-- The character escaped by four hexadecimal digits, or by a pair of such escapes. -/
def hexEscape : Reader Char := do
  let first ← hexUnit
  if 0xDC00 ≤ first && first ≤ 0xDFFF then malformed .loneSurrogate
  else if 0xD800 ≤ first && first ≤ 0xDBFF then do
    pairMark '\\'
    pairMark 'u'
    let second ← hexUnit
    if 0xDC00 ≤ second && second ≤ 0xDFFF then
      return Char.ofNat (0x10000 + (first - 0xD800) * 0x400 + (second - 0xDC00))
    else malformed .loneSurrogate
  else return Char.ofNat first

/-- The character that a letter stands for after a backslash. -/
def letterEscape? (letter : Char) : Option Char :=
  if letter = '"' then some '"'
  else if letter = '\\' then some '\\'
  else if letter = '/' then some '/'
  else if letter = 'b' then some '\x08'
  else if letter = 'f' then some '\x0c'
  else if letter = 'n' then some '\n'
  else if letter = 'r' then some '\r'
  else if letter = 't' then some '\t'
  else none

/-- What stands after a backslash; codes are read by `coded`. -/
def escape {α : Type} (letter : Char → α) (coded : Reader α) : Reader α := fun text =>
  match text with
  | [] => malformed .endInString []
  | c :: rest =>
    match letterEscape? c with
    | some meant => .ok (letter meant, rest)
    | none => if c = 'u' then coded rest else malformedAhead .invalidEscape (c :: rest)

/-- The characters of a string up to its closing quote. The first argument bounds the count of
characters. -/
def charactersWithin : Nat → Reader (List Char)
  | 0 => malformed .endInString
  | bound + 1 => fun text =>
    match text with
    | [] => malformed .endInString []
    | '"' :: rest => .ok ([], rest)
    | '\\' :: rest =>
      (do let c ← escape id hexEscape
          let cs ← charactersWithin bound
          return c :: cs : Reader _) rest
    | c :: rest =>
      if c < ' ' then malformedAhead .controlCharacter (c :: rest)
      else (do let cs ← charactersWithin bound
               return c :: cs : Reader _) rest

/-- The rest of a string after its opening quote. -/
def quotedRest : Reader String := fun text =>
  (do let cs ← charactersWithin (text.length + 1)
      return String.ofList cs : Reader _) text

/-- Passes over the characters of a string up to its closing quote; a control character is not
passed. -/
def passCharactersWithin : Nat → Reader Unit
  | 0 => malformed .endInString
  | bound + 1 => fun text =>
    match text with
    | [] => malformed .endInString []
    | '"' :: rest => .ok ((), rest)
    | '\\' :: rest =>
      (do escape (fun _ => ()) (do let _ ← hexUnit; return ())
          passCharactersWithin bound : Reader _) rest
    | c :: rest =>
      if c < ' ' then malformed .controlCharacter (c :: rest) else passCharactersWithin bound rest

/-- Passes over the rest of a string after its opening quote. -/
def passQuotedRest : Reader Unit := fun text => passCharactersWithin (text.length + 1) text

end Reader

end Json

end SchemaScalar

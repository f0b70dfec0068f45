import SchemaScalar.Decimal.Shortest

/-!
# Texts of doubles

A style fixes what the shortest digits leave open: which of two equally short decimals is taken,
where positional writing ends, and whether a whole number keeps a fraction digit.
-/

namespace SchemaScalar

/-- How doubles are written. -/
structure FloatStyle where
  tie : Tie
  /-- The decimal exponents, from first to last, that are written positionally; without limits all
  are. -/
  positional : Option (Int × Int)
  /-- Whether a whole number written positionally ends in `.0`. -/
  pointed : Bool
  deriving DecidableEq

namespace FloatStyle

/-- Numbers of JSON texts: positional from `0.00001` up to sixteen digits before the point, always
with a point there, and a tie goes to the even digit. -/
def json : FloatStyle := ⟨.toEven, some (-5, 15), true⟩

/-- Numbers of messages: positional throughout, whole numbers without a point, and a tie goes up. -/
def plain : FloatStyle := ⟨.upward, none, false⟩

/-- Whether numbers with this decimal exponent are written positionally. -/
def isPositional (style : FloatStyle) (exponent : Int) : Bool :=
  match style.positional with
  | none => true
  | some (first, last) => first ≤ exponent && exponent ≤ last

end FloatStyle

namespace Scientific

/-- The digits before the point and after it in positional writing. -/
def split (d : Scientific) : List Char × List Char :=
  if d.exponent < 0 then
    (['0'], List.replicate (-d.exponent - 1).toNat '0' ++ d.digits)
  else
    let whole := d.exponent.toNat + 1
    (d.digits.take whole ++ List.replicate (whole - d.digits.length) '0', d.digits.drop whole)

def positionalText (d : Scientific) (pointed : Bool) : List Char :=
  match d.split with
  | (whole, []) => if pointed then whole ++ ['.', '0'] else whole
  | (whole, fraction) => whole ++ '.' :: fraction

/-- Writing with an exponent, which always has a sign. -/
def exponentText (d : Scientific) : List Char :=
  let mantissa := match d.digits with
    | [] => []
    | [first] => [first]
    | first :: rest => first :: '.' :: rest
  let sign := if d.exponent < 0 then '-' else '+'
  mantissa ++ 'e' :: sign :: Nat.toDigits 10 d.exponent.natAbs

end Scientific

namespace Binary64

def Finite.text (x : Finite) (style : FloatStyle) : List Char :=
  let d := x.shortest style.tie
  let magnitude :=
    if style.isPositional d.exponent then d.positionalText style.pointed else d.exponentText
  if x.negative then '-' :: magnitude else magnitude

def text (x : Binary64) (style : FloatStyle) : String :=
  match x with
  | nan => "NaN"
  | infinite true => "-inf"
  | infinite false => "inf"
  | finite x => String.ofList (x.text style)

/-- One tenth. -/
example : (⟨false, 4591870180066957722, by decide⟩ : Finite).text .json = "0.1".toList := by
  decide +kernel

/-- The smallest positive double is written with one digit and an exponent. -/
example : (⟨false, 1, by decide⟩ : Finite).text .json = "5e-324".toList := by decide +kernel

/-- A double half way between two shortest decimals: the styles take different ones. -/
example :
    (⟨false, 4832362400168542209, by decide⟩ : Finite).text .json = "1125899906842624.2".toList ∧
      (⟨false, 4832362400168542209, by decide⟩ : Finite).text .plain =
        "1125899906842624.3".toList := by
  decide +kernel

end Binary64

end SchemaScalar

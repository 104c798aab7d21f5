import HostFleet.Pattern.Support

/-!
# Conditions on fields

A directive may be about the events that have a certain field, perhaps with a certain value: a number, or a text that a
pattern describes.
-/

namespace HostFleet.Log

/-- A field that an event must have, perhaps with a certain value. -/
structure FieldCondition where
  name : String
  value : Option String
  deriving DecidableEq, Repr

/-- Whether characters are an exponent of ten, or nothing. -/
def isExponent : List Char → Bool
  | [] => true
  | c :: cs =>
    let digits := match cs with
      | '+' :: cs => cs
      | '-' :: cs => cs
      | cs => cs
    c.toLower = 'e' && !digits.isEmpty && digits.all Char.isDigit

/-- Whether characters are a decimal number without a sign: digits with at most one point among them, and perhaps an
exponent. -/
def isDecimal (cs : List Char) : Bool :=
  let whole := cs.takeWhile Char.isDigit
  let (fraction, rest) := match cs.dropWhile Char.isDigit with
    | '.' :: cs => (cs.takeWhile Char.isDigit, cs.dropWhile Char.isDigit)
    | cs => ([], cs)
  !(whole ++ fraction).isEmpty && isExponent rest

def isNumber (text : String) : Bool :=
  let unsigned := match text.toList with
    | '+' :: cs => cs
    | '-' :: cs => cs
    | cs => cs
  isDecimal unsigned || ["inf", "infinity", "nan"].contains (String.ofList (unsigned.map Char.toLower))

/-- Reads the name of a field, or a name with a value after an equals sign. A second equals sign ends the value. -/
def FieldCondition.ofText (text : String) : Except PatternFault FieldCondition :=
  match text.splitOn "=" with
  | name :: value :: _ =>
    match Pattern.fault? value with
    | some fault => if isNumber value then .ok ⟨name, some value⟩ else .error fault
    | none => .ok ⟨name, some value⟩
  | _ => .ok ⟨text, none⟩

end HostFleet.Log

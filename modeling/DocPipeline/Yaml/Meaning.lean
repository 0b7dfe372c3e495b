import DocPipeline.Number.Double
import DocPipeline.Text.Quoted
import DocPipeline.Yaml.Node

/-! What a scalar without quotes is taken for: nothing, a truth value, a number, or a text. The
same rule decides which texts need quotes when they are written.
-/

namespace DocPipeline.Yaml

/-- What the text of a plain scalar means. -/
inductive Meaning where
  | nothing
  | truth (value : Bool)
  | whole (value : Int)
  | real (text : String)
  | text
deriving DecidableEq, Repr

namespace Meaning

/-- The spellings of nothing, apart from the empty text. -/
def isNull (s : String) : Bool :=
  s == "null" || s == "Null" || s == "NULL" || s == "~"

/-- The spellings of the truth values. -/
def truth? (s : String) : Option Bool :=
  if s == "true" || s == "True" || s == "TRUE" then some true
  else if s == "false" || s == "False" || s == "FALSE" then some false
  else none

/-- Digits that begin with a zero, such as those of a telephone number, are no number. -/
def isDigitText (cs : List Char) : Bool :=
  let bare :=
    match cs with
    | '-' :: rest => rest
    | '+' :: rest => rest
    | _ => cs
  1 < bare.length && bare.head? == some '0' && bare.all Char.isDigit

/-- The digits behind the sign of a base, in that base. -/
def based? : List Char → Option Nat
  | '0' :: 'x' :: rest => Number.natural? 16 rest
  | '0' :: 'o' :: rest => Number.natural? 8 rest
  | '0' :: 'b' :: rest => Number.natural? 2 rest
  | _ => none

/-- A whole number that is not negative, with an optional plus sign. -/
def unsigned? (cs : List Char) : Option Nat :=
  let bare :=
    match cs with
    | '+' :: rest => rest
    | _ => cs
  match based? bare with
  | some n => some n
  | none => if isDigitText cs then none else Number.natural? 10 bare

/-- A number behind a minus sign. -/
def negated? : List Char → Option Nat
  | '-' :: rest =>
    match based? rest with
    | some n => some n
    | none => if isDigitText ('-' :: rest) then none else Number.natural? 10 rest
  | _ => none

/-- A whole number that a 128-bit word can hold, signed or not. -/
def whole? (cs : List Char) : Option Int :=
  match (unsigned? cs).filter (· < 2 ^ 128) with
  | some n => some n
  | none => ((negated? cs).filter (· ≤ 2 ^ 127)).map fun n => -(n : Int)

/-- The text of a real number: a finite decimal, or the name of an infinity or of no number. -/
def real? (cs : List Char) : Option String :=
  let s := String.ofList cs
  let bare :=
    match cs with
    | '+' :: '+' :: _ => none
    | '+' :: '-' :: _ => none
    | '+' :: rest => some rest
    | _ => some cs
  match bare with
  | none => none
  | some bare =>
    let t := String.ofList bare
    if t == ".inf" || t == ".Inf" || t == ".INF" then some "inf"
    else if s == "-.inf" || s == "-.Inf" || s == "-.INF" then some "-inf"
    else if s == ".nan" || s == ".NaN" || s == ".NAN" then some "NaN"
    else ((Number.decimal? bare).bind Number.Double.ofDecimal?).map (·.text)

/-- What the text of a plain scalar means. -/
def ofText (s : String) : Meaning :=
  let cs := s.toList
  if s.isEmpty || isNull s then nothing
  else
    match truth? s with
    | some value => truth value
    | none =>
      match whole? cs with
      | some value => whole value
      | none =>
        if isDigitText cs then text
        else
          match real? cs with
          | some spelling => real spelling
          | none => text

/-- A whole number with the name of its width, where that is more than a word. -/
def wholeText (value : Int) : String :=
  let plain := "integer `" ++ toString value ++ "`"
  if 2 ^ 64 ≤ value then plain ++ " as u128"
  else if value < -2 ^ 63 then plain ++ " as i128"
  else plain

/-- The scalar as a report of an unexpected value names it. -/
def described (s : String) : Meaning → String
  | nothing => "unit value"
  | truth value => "boolean `" ++ (if value then "true" else "false") ++ "`"
  | whole value => wholeText value
  | real spelling => "floating point `" ++ spelling ++ "`"
  | text => "string " ++ Text.quoted s

end Meaning
end DocPipeline.Yaml

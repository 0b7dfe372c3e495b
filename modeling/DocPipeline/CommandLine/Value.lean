import DocPipeline.CommandLine.Argument
import DocPipeline.Number.Power

/-! Reading the values of arguments, and everything that can be wrong with a command line. -/

namespace DocPipeline.CommandLine

/-- What is wrong with a command line. -/
inductive Fault where
  /-- There is no such argument. -/
  | unexpected (written : String)
  /-- A flag was given a value. -/
  | needless (argument : Argument) (value : String)
  | invalid (argument : Argument) (value : String) (reason : Option String)
  | missing (argument : Argument)
  | repeated (argument : Argument)
  | conflict (first second : Argument)
deriving DecidableEq, Repr

/-- The line in which a fault is reported. -/
def Fault.message : Fault → String
  | unexpected written => "error: unexpected argument '" ++ written ++ "' found"
  | needless argument value =>
    "error: unexpected value '" ++ value ++ "' for '" ++ argument.label
      ++ "' found; no more were expected"
  | invalid argument value reason =>
    "error: invalid value '" ++ value ++ "' for '" ++ argument.label ++ "'"
      ++ match reason with
        | some reason => ": " ++ reason
        | none => ""
  | missing argument =>
    "error: a value is required for '" ++ argument.label ++ "' but none was supplied"
  | repeated argument =>
    "error: the argument '" ++ argument.label ++ "' cannot be used multiple times"
  | conflict first second =>
    "error: the argument '" ++ first.label ++ "' cannot be used with '" ++ second.label ++ "'"

namespace Value

/-- No number reaches this limit. -/
def numberLimit : Nat := 2 ^ 64

/-- The number that the digits make behind the number read so far, or what is wrong with them. At
each digit it counts first whether it is one, and then whether the number is still small enough.
-/
def digits (n : Nat) : List Char → Except String Nat
  | [] => .ok n
  | c :: rest =>
    if !c.isDigit then .error "invalid digit found in string"
    else
      let next := n * 10 + (c.toNat - 48)
      if next < numberLimit then digits next rest
      else .error "number too large to fit in target type"

/-- The number that a text spells, with or without a plus sign, or what is wrong with it. -/
def numberOf : List Char → Except String Nat
  | [] => .error "cannot parse integer from empty string"
  | ['+'] => .error "invalid digit found in string"
  | '+' :: rest => digits 0 rest
  | cs => digits 0 cs

/-- The value that a text gives to an argument. -/
def ofText (argument : Argument) (s : String) : Except Fault Value :=
  match argument.shape with
  | .text => .ok (.text s)
  | .path => if s.isEmpty then .error (.missing argument) else .ok (.text s)
  | .number =>
    match numberOf s.toList with
    | .ok n => .ok (.number n)
    | .error reason => .error (.invalid argument s (some reason))
  | .flag =>
    match s with
    | "true" => .ok (.truth true)
    | "false" => .ok (.truth false)
    | "" => .error (.missing argument)
    | _ => .error (.invalid argument s none)

end Value
end DocPipeline.CommandLine

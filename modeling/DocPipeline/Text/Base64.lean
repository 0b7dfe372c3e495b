import DocPipeline.Number.Power
import DocPipeline.Text.Utf8

/-! Bytes written with sixty-four letters, four for every three bytes. -/

namespace DocPipeline.Text.Base64

/-- The letters, by their value. -/
def alphabet : List Char :=
  "ABCDEFGHIJKLMNOPQRSTUVWXYZabcdefghijklmnopqrstuvwxyz0123456789+/".toList

/-- The letter for the six lowest bits of a number. -/
def letter (n : Nat) : Char :=
  alphabet.getD (n % 64) '='

/-- The bytes in letters, filled up to fours with equal signs. -/
def encode : Bytes → List Char
  | a :: b :: c :: rest =>
    let n := (a.toNat * 256 + b.toNat) * 256 + c.toNat
    letter (n / 64 ^ 3) :: letter (n / 64 ^ 2) :: letter (n / 64) :: letter n :: encode rest
  | [a, b] =>
    let n := (a.toNat * 256 + b.toNat) * 4
    [letter (n / 64 ^ 2), letter (n / 64), letter n, '=']
  | [a] =>
    let n := a.toNat * 16
    [letter (n / 64), letter n, '=', '=']
  | [] => []

end DocPipeline.Text.Base64

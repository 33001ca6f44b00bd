import WebBindings.Number.Shortest
/-!
# Numbers as text

The text that scripts and attributes show for a number: its shortest digits, positional while the
decimal point falls between the sixth zero after it and the twenty-first digit, with an exponent
otherwise.
-/

namespace WebBindings

namespace Digits

private def zeros (n : Int) : List Char := List.replicate n.toNat '0'

/-- Digits without a sign, laid out positionally or with an exponent. -/
def layout (d : Digits) : String :=
  let count : Int := d.digits.length
  if count ≤ d.point ∧ d.point ≤ 21 then
    String.ofList (d.digits ++ zeros (d.point - count))
  else if 0 < d.point ∧ d.point ≤ 21 then
    String.ofList (d.digits.take d.point.toNat ++ '.' :: d.digits.drop d.point.toNat)
  else if -6 < d.point ∧ d.point ≤ 0 then
    String.ofList ('0' :: '.' :: zeros (-d.point) ++ d.digits)
  else
    let exponent := d.point - 1
    let sign := if exponent < 0 then "-" else "+"
    let tail := "e" ++ sign ++ toString exponent.natAbs
    match d.digits with
    | [] => tail
    | [first] => first.toString ++ tail
    | first :: rest => first.toString ++ "." ++ String.ofList rest ++ tail

/-- Digits without a sign, all of them positional. -/
def positional (d : Digits) : String :=
  let count : Int := d.digits.length
  if count ≤ d.point then String.ofList (d.digits ++ zeros (d.point - count))
  else if 0 < d.point then
    String.ofList (d.digits.take d.point.toNat ++ '.' :: d.digits.drop d.point.toNat)
  else String.ofList ('0' :: '.' :: zeros (-d.point) ++ d.digits)

end Digits

namespace Double

/-- The text of a number in log records: never with an exponent, and zeros show their sign. -/
def toLogText : Double → String
  | .nan => "NaN"
  | .infinite negative => if negative then "-inf" else "inf"
  | .finite negative m =>
    (if negative then "-" else "") ++
      (if m.significand = 0 then "0" else (Shortest.ofMagnitude m).positional)

/-- The text of a number. Zeros show no sign. -/
def toText : Double → String
  | .nan => "NaN"
  | .infinite negative => if negative then "-Infinity" else "Infinity"
  | .finite negative m =>
    if m.significand = 0 then "0"
    else (if negative then "-" else "") ++ (Shortest.ofMagnitude m).layout

end Double

end WebBindings

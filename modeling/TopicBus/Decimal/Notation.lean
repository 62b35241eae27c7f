import TopicBus.Decimal.Shortest

/-!
How a double is written: the shortest digits that read back, positional from 1e-5 up to below 1e16,
with an exponent and its sign outside.
-/

namespace TopicBus.Decimal

/-- The decimal digits of a natural number, most significant first. -/
def digitChars (n : Nat) : List Char := Nat.toDigits 10 n

/-- `digits · 10^exponent` with the point where it belongs: `point` digits stand before it. -/
def positional (digits : List Char) (exponent : Int) : List Char :=
  let point : Int := digits.length + exponent
  if 0 ≤ exponent then digits ++ List.replicate exponent.toNat '0' ++ ['.', '0']
  else if 0 < point then digits.take point.toNat ++ '.' :: digits.drop point.toNat
  else '0' :: '.' :: List.replicate (-point).toNat '0' ++ digits

/-- The same without a fraction where there is none. -/
def plain (digits : List Char) (exponent : Int) : List Char :=
  if 0 ≤ exponent then digits ++ List.replicate exponent.toNat '0' else positional digits exponent

/-- One digit before the point, and the exponent with its sign. -/
def scientific (digits : List Char) (exponent : Int) : List Char :=
  let power : Int := digits.length + exponent - 1
  let fraction := match digits with
    | [] => []
    | [d] => [d]
    | d :: more => d :: '.' :: more
  let sign := if power < 0 then '-' else '+'
  fraction ++ 'e' :: sign :: digitChars power.natAbs

def chars (x : Decimal) : List Char :=
  let digits := digitChars x.digits
  let point : Int := digits.length + x.exponent
  if -5 < point ∧ point ≤ 16 then positional digits x.exponent else scientific digits x.exponent

end TopicBus.Decimal

namespace TopicBus.Double

/-- The text of a finite double. -/
def chars (x : Double) : List Char :=
  let magnitude := if x.rank = 0 then ['0', '.', '0'] else (Decimal.shortest x.rank).chars
  if x.negative then '-' :: magnitude else magnitude

/-- The text of any double without an exponent. -/
def plainText (x : Double) : String :=
  if infinityRank < x.rank then "NaN"
  else
    let magnitude :=
      if x.rank = infinityRank then ['i', 'n', 'f']
      else if x.rank = 0 then ['0']
      else
        let d := Decimal.shortest x.rank
        Decimal.plain (Decimal.digitChars d.digits) d.exponent
    String.ofList (if x.negative then '-' :: magnitude else magnitude)

end TopicBus.Double

import LocaleCatalog.Decimal.Shortest

/-!
# Decimals as text

A number whose leading digit stands between the fifth place behind the point and the sixteenth
before it is written positionally, with `.0` behind a whole number; any other has one digit before
the point and an exponent with its sign.
-/

namespace LocaleCatalog.Decimal

/-- Which numbers are written positionally: those whose leading digit has an exponent from
    `plainFrom` to `plainTo`. -/
structure Layout where
  plainFrom : Int
  plainTo : Int

/-- The digits with a point behind the first of them, or none when there is only one. -/
def pointed (digits : List Char) : List Char :=
  match digits with
  | d :: e :: rest => d :: '.' :: e :: rest
  | short => short

/-- A positive decimal as text. -/
def Layout.render (style : Layout) (d : Scaled) : String :=
  let digits := (toString d.digits).toList
  let lead := d.exponent + digits.length - 1
  let zeros (n : Int) : List Char := List.replicate n.toNat '0'
  String.ofList <|
    if lead < style.plainFrom ∨ style.plainTo < lead then
      pointed digits ++ 'e' :: (if lead < 0 then '-' else '+') :: (toString lead.natAbs).toList
    else if 0 ≤ d.exponent then digits ++ zeros d.exponent ++ ['.', '0']
    else if 0 ≤ lead then
      digits.take (lead + 1).toNat ++ '.' :: digits.drop (lead + 1).toNat
    else '0' :: '.' :: (zeros (-lead - 1) ++ digits)

/-- A finite floating-point number as text; zero keeps its sign. -/
def Layout.renderFloat (style : Layout) (x : Float) : String :=
  let bits := x.toBits
  let sign := if bits.toNat / Nat.pow 2 63 = 1 then "-" else ""
  let magnitude := Binary.ofBits bits
  sign ++ if magnitude.m = 0 then "0.0" else style.render magnitude.shortest

end LocaleCatalog.Decimal

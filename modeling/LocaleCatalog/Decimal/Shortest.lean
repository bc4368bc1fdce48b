/-!
# The shortest decimal that reads back

A binary floating-point number is written with the fewest decimal digits that still identify it.

* `Binary` is a positive number m · 2^q with the width of the gap below it;
* `Binary.readsBack` says exactly which decimals round to it: those between the midpoints to its
  two neighbours, the midpoints themselves included when m is even;
* `Binary.shortest` tries one digit, then two, and so on: on each decimal grid only the two
  neighbours of the number can be in reach, and of two hits the nearer one wins, the even one
  when both are equally near.

All comparisons are between natural numbers.
-/

namespace LocaleCatalog.Decimal

/-! ## 1. Numbers -/

/-- A positive binary number m · 2^q. -/
structure Binary where
  m : Nat
  q : Int
  /-- The gap below is half as wide as the gap above. -/
  narrowBelow : Bool

/-- The number that the sixty-four bits of a finite value stand for, its sign left aside. -/
def Binary.ofBits (bits : UInt64) : Binary :=
  let exponent := bits.toNat / Nat.pow 2 52 % 2048
  let fraction := bits.toNat % Nat.pow 2 52
  if exponent = 0 then ⟨fraction, -1074, false⟩
  else ⟨Nat.pow 2 52 + fraction, Int.ofNat exponent - 1075, fraction = 0 ∧ 1 < exponent⟩

/-- A decimal number digits · 10^exponent. -/
structure Scaled where
  digits : Nat
  exponent : Int
  deriving Repr, DecidableEq

/-- Compares a · 10^i with n · 2^j. -/
def compareScaled (a : Nat) (i : Int) (n : Nat) (j : Int) : Ordering :=
  compare (a * Nat.pow 10 i.toNat * Nat.pow 2 (-j).toNat)
    (n * Nat.pow 2 j.toNat * Nat.pow 10 (-i).toNat)

/-! ## 2. Selection -/

/-- The decimal lies among the numbers that round to `x`. -/
def Binary.readsBack (x : Binary) (d : Scaled) : Bool :=
  let gap := if x.narrowBelow then 1 else 2
  let below := compareScaled d.digits d.exponent (4 * x.m - gap) (x.q - 2)
  let above := compareScaled d.digits d.exponent (4 * x.m + 2) (x.q - 2)
  if x.m % 2 = 0 then below != .lt && above != .gt else below == .gt && above == .lt

/-- The number of digits before the point, negative or zero when the number starts behind it: the
    least k with m · 2^q below 10^k. -/
def Binary.magnitude (x : Binary) : Int :=
  let guess := ((x.m.log2 : Int) + x.q) * 30103 / 100000
  (([guess - 1, guess, guess + 1].find? fun k => compareScaled 1 k x.m x.q == .gt)).getD (guess + 2)

/-- The multiple of 10^g just below the number, in units of 10^g. -/
def Binary.floorAt (x : Binary) (g : Int) : Nat :=
  x.m * Nat.pow 2 x.q.toNat * Nat.pow 10 (-g).toNat /
    (Nat.pow 2 (-x.q).toNat * Nat.pow 10 g.toNat)

/-- The decimal nearest to the number among those that are multiples of 10^g and read back. -/
def Binary.onGrid (x : Binary) (g : Int) : Option Scaled :=
  let low := x.floorAt g
  let down : Scaled := ⟨low, g⟩
  let up : Scaled := ⟨low + 1, g⟩
  match x.readsBack down, x.readsBack up with
  | false, false => none
  | true, false => some down
  | false, true => some up
  | true, true =>
    match compareScaled (2 * low + 1) g (2 * x.m) x.q with
    | .gt => some down
    | .lt => some up
    | .eq => some (if low % 2 = 0 then down else up)

/-- Moves the zeros at the end of the digits into the exponent. -/
def Scaled.strip (d : Scaled) : Nat → Scaled
  | 0 => d
  | n + 1 => if d.digits ≠ 0 ∧ d.digits % 10 = 0 then strip ⟨d.digits / 10, d.exponent + 1⟩ n else d

/-- The decimal with the fewest digits that reads back. Seventeen digits always suffice. -/
def Binary.shortest (x : Binary) : Scaled :=
  let k := x.magnitude
  let found := (List.range 17).findSome? fun (n : Nat) => x.onGrid (k - 1 - n)
  (found.getD ⟨x.floorAt (k - 17), k - 17⟩).strip 17

end LocaleCatalog.Decimal

/-!
# Bytes read as text, whatever they are

Source files come in any encoding. `decodeLossy` reads bytes as UTF-8 and puts one replacement
character wherever they are not:

* a lead byte says in which ranges the bytes after it must lie (`followers`);
* the bytes that still fit are read as one unit (`fitting`), so an ill-formed sequence is replaced
  once for each longest start of a well-formed one, and a byte that fits nothing is replaced alone;
* an ASCII byte fits no range of a follower: it always stands for itself, whatever precedes it.
-/

namespace LocaleCatalog.Text

/-! ## 1. Shape of a sequence -/

/-- The ranges in which the bytes after `lead` must lie, in order; empty for a byte that leads no
    sequence. The first range keeps out overlong forms, surrogates and numbers past U+10FFFF. -/
def followers (lead : UInt8) : List (UInt8 × UInt8) :=
  if 0xC2 ≤ lead ∧ lead ≤ 0xDF then [(0x80, 0xBF)]
  else if lead = 0xE0 then [(0xA0, 0xBF), (0x80, 0xBF)]
  else if lead = 0xED then [(0x80, 0x9F), (0x80, 0xBF)]
  else if 0xE1 ≤ lead ∧ lead ≤ 0xEF then [(0x80, 0xBF), (0x80, 0xBF)]
  else if lead = 0xF0 then [(0x90, 0xBF), (0x80, 0xBF), (0x80, 0xBF)]
  else if lead = 0xF4 then [(0x80, 0x8F), (0x80, 0xBF), (0x80, 0xBF)]
  else if 0xF1 ≤ lead ∧ lead ≤ 0xF3 then [(0x80, 0xBF), (0x80, 0xBF), (0x80, 0xBF)]
  else []

/-- The leading bytes of the input that lie in the ranges, one range each. -/
def fitting : List (UInt8 × UInt8) → List UInt8 → List UInt8
  | r :: ranges, b :: bytes => if r.1 ≤ b ∧ b ≤ r.2 then b :: fitting ranges bytes else []
  | _, _ => []

/-- What stands for bytes that are no character. -/
def replacement : Char := '\uFFFD'

/-- The character that `lead` and its complete list of followers encode. -/
def assemble (lead : UInt8) (taken : List UInt8) : Char :=
  let start := lead.toNat % Nat.pow 2 (6 - taken.length)
  Char.ofNat (taken.foldl (fun n b => n * 64 + b.toNat % 64) start)

/-! ## 2. Decoding -/

/-- The text of a byte sequence, with one replacement character for each ill-formed part. -/
def decodeLossy : List UInt8 → List Char
  | [] => []
  | b :: bytes =>
    if b < 0x80 then Char.ofNat b.toNat :: decodeLossy bytes
    else
      let taken := fitting (followers b) bytes
      let complete := followers b ≠ [] ∧ taken.length = (followers b).length
      (if complete then assemble b taken else replacement) :: decodeLossy (bytes.drop taken.length)
termination_by bytes => bytes.length
decreasing_by
  all_goals simp only [List.length_cons, List.length_drop]; omega

end LocaleCatalog.Text

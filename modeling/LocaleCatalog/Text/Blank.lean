/-!
# Blank characters and blank texts

* a Unicode property is carried as the closed ranges that make it up, ascending and apart
  (`inRanges`);
* `isBlank` is the Unicode property White_Space, 25 characters in 10 ranges: every place that
  skips blanks before a quote, or asks whether a text is still to be translated, uses it;
* a text is blank (`Blank`) when nothing is left of it once its outer blanks are cut off, which
  is the same as saying that every one of its characters is blank.
-/

namespace LocaleCatalog.Text

/-! ## 1. Characters -/

/-- `n` lies in one of the closed ranges. -/
def inRanges (ranges : List (Nat × Nat)) (n : Nat) : Bool :=
  ranges.any fun r => r.1 ≤ n && n ≤ r.2

/-- The ranges of White_Space. -/
def blankRanges : List (Nat × Nat) :=
  [(0x9, 0xD), (0x20, 0x20), (0x85, 0x85), (0xA0, 0xA0), (0x1680, 0x1680), (0x2000, 0x200A),
    (0x2028, 0x2029), (0x202F, 0x202F), (0x205F, 0x205F), (0x3000, 0x3000)]

/-- The character is white space, in the sense of Unicode. -/
def isBlank (c : Char) : Bool :=
  inRanges blankRanges c.toNat

/-! ## 2. Texts -/

/-- Nothing but blanks, or nothing at all. -/
def Blank (s : String) : Prop :=
  ∀ c ∈ s.toList, isBlank c = true

instance (s : String) : Decidable (Blank s) :=
  List.decidableBAll (fun c => isBlank c = true) s.toList

/-- The empty text is blank. -/
@[simp] theorem blank_empty : Blank "" := by
  intro c hc
  simp at hc

end LocaleCatalog.Text

import TypedId.Text.Search

/-!
# White space

White space is the Unicode property `White_Space`: 25 characters in ten ranges.
-/

namespace TypedId.Text

/-- Closed ranges of code points, ascending and apart. -/
def blankRanges : List (Nat × Nat) :=
  [(0x09, 0x0D), (0x20, 0x20), (0x85, 0x85), (0xA0, 0xA0), (0x1680, 0x1680), (0x2000, 0x200A),
   (0x2028, 0x2029), (0x202F, 0x202F), (0x205F, 0x205F), (0x3000, 0x3000)]

/-- Whether a code point lies in one of the ranges. -/
def inRanges (ranges : List (Nat × Nat)) (n : Nat) : Bool :=
  ranges.any fun r => r.1 ≤ n && n ≤ r.2

def isBlank (c : Char) : Bool := inRanges blankRanges c.toNat

/-- Drops the trailing run of characters that satisfy `p`. -/
def dropEndWhile (p : Char → Bool) (s : Text) : Text := (s.reverse.dropWhile p).reverse

/-- The text without white space at either end. -/
def trim (s : Text) : Text := dropEndWhile isBlank (s.dropWhile isBlank)

/-- The maximal runs of characters that are not white space. -/
def words (s : Text) : List Text := (s.splitOnP isBlank).filter (! ·.isEmpty)

end TypedId.Text

/-! Blank text: text made of white space alone.

White space is the Unicode property of that name (25 code points, unchanged since Unicode 6.3),
given as closed ranges of code points in ascending order. -/
namespace SqlSelect.Text

def whiteSpace : List (Nat × Nat) :=
  [(0x09, 0x0D), (0x20, 0x20), (0x85, 0x85), (0xA0, 0xA0), (0x1680, 0x1680), (0x2000, 0x200A),
    (0x2028, 0x2029), (0x202F, 0x202F), (0x205F, 0x205F), (0x3000, 0x3000)]

/-- Membership in a table of closed ranges. -/
def inRanges (ranges : List (Nat × Nat)) (code : Nat) : Bool :=
  ranges.any fun range => range.1 ≤ code && code ≤ range.2

def isWhiteSpace (c : Char) : Bool := inRanges whiteSpace c.toNat

/-- Text that adds nothing to a query. -/
def isBlank (s : String) : Bool := s.toList.all isWhiteSpace

end SqlSelect.Text

/-! Text cut to a number of bytes.

Lengths are counted in the UTF-8 encoding. A text that is too long is cut at the last character
boundary within the budget, found by walking back from the budget byte by byte; a position of the
text is a boundary by its type, so no cut goes through a character. `ellipsized` marks the cut with
three dots. -/
namespace SqlSelect.Text

/-- The last character boundary at or before an offset. -/
def boundaryBelow (s : String) : Nat → s.Pos
  | 0 => s.startPos
  | offset + 1 =>
    if valid : String.Pos.Raw.IsValid s ⟨offset + 1⟩ then s.pos ⟨offset + 1⟩ valid
    else boundaryBelow s offset

/-- The text itself when it fits, and otherwise its start up to the last boundary that fits. -/
def clip (budget : Nat) (s : String) : String :=
  if s.utf8ByteSize ≤ budget then s else (s.sliceTo (boundaryBelow s budget)).copy

/-- The text itself when it fits, and otherwise its clipped start followed by three dots. -/
def ellipsized (budget : Nat) (s : String) : String :=
  if s.utf8ByteSize ≤ budget then s else clip budget s ++ "..."

end SqlSelect.Text

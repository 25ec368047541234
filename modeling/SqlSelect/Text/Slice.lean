/-! Text between two byte offsets.

Offsets are counted in the UTF-8 encoding. A text can be cut only between two characters, so a slice
exists only from one character boundary to another that is not before it. -/
namespace SqlSelect.Text

/-- The text before and behind a byte offset, if the offset is not inside a character or behind the
end. -/
def cutAt? : Nat → List Char → Option (List Char × List Char)
  | 0, s => some ([], s)
  | _ + 1, [] => none
  | offset + 1, c :: s =>
    if c.utf8Size ≤ offset + 1 then
      (cutAt? (offset + 1 - c.utf8Size) s).map fun cut => (c :: cut.1, cut.2)
    else none

/-- The text from one byte offset to another. -/
def slice? (s : List Char) (start stop : Nat) : Option (List Char) := do
  let (before, _) ← cutAt? stop s
  let (_, part) ← cutAt? start before
  return part

theorem utf8ByteSize_ofList_cons (c : Char) (s : List Char) :
    (String.ofList (c :: s)).utf8ByteSize = c.utf8Size + (String.ofList s).utf8ByteSize := by
  rw [String.ofList_cons, String.utf8ByteSize_append, String.utf8ByteSize_singleton]

theorem utf8ByteSize_ofList_append (s t : List Char) :
    (String.ofList (s ++ t)).utf8ByteSize =
      (String.ofList s).utf8ByteSize + (String.ofList t).utf8ByteSize := by
  rw [String.ofList_append, String.utf8ByteSize_append]

/-- A text can be cut behind any of its starts. -/
theorem cutAt?_append (before behind : List Char) :
    cutAt? (String.ofList before).utf8ByteSize (before ++ behind) = some (before, behind) := by
  induction before with
  | nil =>
    show cutAt? 0 behind = _
    rw [cutAt?]
  | cons c before ih =>
    have positive := c.utf8Size_pos
    obtain ⟨offset, size⟩ : ∃ offset, (String.ofList (c :: before)).utf8ByteSize = offset + 1 :=
      Nat.exists_eq_succ_of_ne_zero (by rw [utf8ByteSize_ofList_cons]; omega)
    have rest : offset + 1 - c.utf8Size = (String.ofList before).utf8ByteSize := by
      rw [← size, utf8ByteSize_ofList_cons, Nat.add_sub_cancel_left]
    have fits : c.utf8Size ≤ offset + 1 := by
      rw [← size, utf8ByteSize_ofList_cons]
      exact Nat.le_add_right ..
    rw [size, List.cons_append, cutAt?, if_pos fits, rest, ih]
    rfl

/-- A part of a text is the slice from where it starts to where it ends. -/
theorem slice?_append (before part behind : List Char) :
    slice? (before ++ part ++ behind) (String.ofList before).utf8ByteSize
      (String.ofList (before ++ part)).utf8ByteSize = some part := by
  rw [slice?, cutAt?_append]
  simp only [Option.bind_eq_bind, Option.bind_some]
  rw [cutAt?_append]
  rfl

end SqlSelect.Text

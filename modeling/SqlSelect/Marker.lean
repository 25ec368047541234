import SqlSelect.Param
import SqlSelect.Text.Slice

/-! Placeholder markers in raw SQL.

A `?` outside quotes marks a place for a value. Single and double quotes open a quoted run,
and the same character closes it; a doubled quote closes the run and opens it again, so the
scan needs to remember no more than the quote it is inside of.

A fragment is cut at the byte offsets that a first pass found, slice by slice (`cut?`). Every cut
is between characters, and the parts are those that a single pass over the characters would keep
(`cut?_eq`). -/
namespace SqlSelect.Marker

/-- Where a scan stands: outside quotes, or inside a run that this character closes. -/
abbrev Quote := Option Char

def isQuote (c : Char) : Bool := c == '\'' || c == '"'

/-- The scan's place after one more character. -/
def next (quote : Quote) (c : Char) : Quote :=
  match quote with
  | some q => if c = q then none else some q
  | none => if isQuote c then some c else none

/-- The scan's place after a text. -/
def after (quote : Quote) (s : List Char) : Quote := s.foldl next quote

/-- Whether a character met at this place is a marker. -/
def isMarker (quote : Quote) (c : Char) : Bool := quote == none && c == '?'

/-- The byte offsets of the markers, for a text that starts at byte `start`. -/
def offsetsFrom (quote : Quote) (start : Nat) : List Char → List Nat
  | [] => []
  | c :: rest =>
    if isMarker quote c then
      start :: offsetsFrom quote (start + c.utf8Size) rest
    else
      offsetsFrom (next quote c) (start + c.utf8Size) rest

def offsets (sql : String) : List Nat := offsetsFrom none 0 sql.toList

def count (sql : String) : Nat := (offsets sql).length

/-- The stretches of text before, between and after the markers. -/
def stretchesFrom (quote : Quote) : List Char → List (List Char)
  | [] => [[]]
  | c :: rest =>
    if isMarker quote c then
      [] :: stretchesFrom quote rest
    else
      match stretchesFrom (next quote c) rest with
      | [] => [[c]]
      | stretch :: others => (c :: stretch) :: others

/-- A part of a raw fragment: text as it stands, or a marker with its value if it has one. -/
inductive Part where
  | stretch (s : List Char)
  | marker (value : Option Param)

/-- Puts a marker between neighbouring stretches, pairing the markers with the values from
left to right. Values that find no marker are left over. -/
def weave : List (List Char) → List Param → List Part
  | [], _ => []
  | [last], _ => [.stretch last]
  | s :: rest, [] => .stretch s :: .marker none :: weave rest []
  | s :: rest, p :: params => .stretch s :: .marker (some p) :: weave rest params

/-! ### Cutting a fragment -/

/-- The parts of a fragment from the byte offset `last` on, with markers at these offsets: the text
up to a marker, and the marker with the first value that is left. -/
def cutFrom? (s : List Char) (last : Nat) : List Nat → List Param → Option (List Part)
  | [], _ => do
    let stretch ← Text.slice? s last (String.ofList s).utf8ByteSize
    return [.stretch stretch]
  | offset :: rest, params => do
    let stretch ← Text.slice? s last offset
    let parts ← cutFrom? s (offset + 1) rest params.tail
    return .stretch stretch :: .marker params.head? :: parts

/-- The parts of a raw fragment with these values, cut at the offsets of its markers. -/
def cut? (sql : String) (params : List Param) : Option (List Part) :=
  cutFrom? sql.toList 0 (offsets sql) params

theorem stretchesFrom_ne_nil (quote : Quote) (s : List Char) : stretchesFrom quote s ≠ [] := by
  cases s with
  | nil => simp [stretchesFrom]
  | cons c rest =>
    simp only [stretchesFrom]
    split
    · simp
    · split <;> simp

/-- A character that is no marker goes to the front of the first stretch. -/
theorem stretchesFrom_plain {quote : Quote} {c : Char} (s : List Char)
    (h : isMarker quote c = false) :
    stretchesFrom quote (c :: s) = (stretchesFrom (next quote c) s).modifyHead (c :: ·) := by
  rw [stretchesFrom, h, if_neg (by simp)]
  cases found : stretchesFrom (next quote c) s with
  | nil => exact absurd found (stretchesFrom_ne_nil _ s)
  | cons stretch others => rfl

theorem weave_cons (s : List Char) {rest : List (List Char)} (more : rest ≠ [])
    (params : List Param) :
    weave (s :: rest) params =
      .stretch s :: .marker params.head? :: weave rest params.tail := by
  cases rest with
  | nil => exact absurd rfl more
  | cons t rest => cases params <;> rfl

theorem eq_mark_of_isMarker {quote : Quote} {c : Char} (h : isMarker quote c = true) : c = '?' := by
  simp only [isMarker, Bool.and_eq_true, beq_iff_eq] at h
  exact h.2

theorem modifyHead_nil_append (stretches : List (List Char)) :
    stretches.modifyHead ([] ++ ·) = stretches := by
  cases stretches <;> rfl

/-- The loop over the offsets. What is before `opened` has been cut, `opened` has been passed
without meeting a marker, and the offsets that are left are those of the markers in `s`. -/
theorem cutFrom?_eq (before opened s : List Char) (quote : Quote) (params : List Param) :
    cutFrom? (before ++ opened ++ s) (String.ofList before).utf8ByteSize
        (offsetsFrom quote (String.ofList (before ++ opened)).utf8ByteSize s) params =
      some (weave ((stretchesFrom quote s).modifyHead (opened ++ ·)) params) := by
  have slice := Text.slice?_append before opened s
  have size : ∀ (t : List Char) (c : Char), (String.ofList (t ++ [c])).utf8ByteSize =
      (String.ofList t).utf8ByteSize + c.utf8Size := by
    intro t c
    rw [Text.utf8ByteSize_ofList_append, Text.utf8ByteSize_ofList_cons]
    rfl
  induction s generalizing before opened quote params with
  | nil =>
    rw [List.append_nil] at slice ⊢
    rw [offsetsFrom, cutFrom?, slice]
    simp [stretchesFrom, weave]
  | cons c s ih =>
    cases marker : isMarker quote c with
    | true =>
      -- A marker is a single byte, so the next stretch is opened right behind it.
      have mark : c.utf8Size = 1 := by rw [eq_mark_of_isMarker marker]; rfl
      have rest := ih (before ++ opened ++ [c]) [] quote params.tail (Text.slice?_append ..)
      rw [List.append_nil, size, mark, modifyHead_nil_append, List.append_assoc _ [c] s] at rest
      rw [offsetsFrom, if_pos marker, cutFrom?, slice, mark, stretchesFrom, if_pos marker,
        List.modifyHead_cons, List.append_nil, weave_cons opened (stretchesFrom_ne_nil quote s)]
      simp only [Option.bind_eq_bind, Option.bind_some]
      rw [show c :: s = [c] ++ s from rfl, rest]
      rfl
    | false =>
      -- Nothing is cut here: the character joins the open stretch.
      have rest := ih before (opened ++ [c]) (next quote c) params (Text.slice?_append ..)
      rw [← List.append_assoc, size, List.append_assoc _ [c] s] at rest
      rw [offsetsFrom, marker, if_neg (by simp), stretchesFrom_plain s marker]
      rw [show c :: s = [c] ++ s from rfl, rest]
      cases stretchesFrom (next quote c) s <;> simp

/-- No slice is missing: the parts are the stretches between the markers, with the markers. -/
theorem cut?_eq (sql : String) (params : List Param) :
    cut? sql params = some (weave (stretchesFrom none sql.toList) params) := by
  have all := cutFrom?_eq [] [] sql.toList none params
  rw [modifyHead_nil_append] at all
  exact all

/-- The parts of a raw fragment with these values. -/
def split (sql : String) (params : List Param) : List Part :=
  (cut? sql params).get (by rw [cut?_eq]; rfl)

theorem split_eq (sql : String) (params : List Param) :
    split sql params = weave (stretchesFrom none sql.toList) params := by
  simp [split, cut?_eq]

end SqlSelect.Marker

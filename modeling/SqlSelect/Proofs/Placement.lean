import SqlSelect.Piece

/-! Where the placeholders of a written statement stand.

`Pieces.written` is the text character by character, each with the slot it stands for, if any;
the text and the slots are its two projections (`written_chars`, `written_slots`), and
`Pieces.placeholders` reads off the byte offset and the value of every slot. A raw fragment is
cut at its markers and put together again without loss: its characters are the fragment's, and
its markers take the fragment's values from left to right (`split_chars`, `split_slots`). -/
namespace SqlSelect

/-- A character of a statement, with the slot it was written for, if it was. -/
abbrev Written := Char × Option (Option Param)

/-- Characters that stand for themselves. -/
def plainly (s : List Char) : List Written := s.map fun c => (c, none)

def Marker.Part.written : Marker.Part → List Written
  | .stretch s => plainly s
  | .marker value => [('?', some value)]

def Piece.written : Piece → List Written
  | .slot value => [('?', some value)]
  | .raw parts => parts.flatMap Marker.Part.written
  | p => plainly p.chars

namespace Pieces

def written (ps : Pieces) : List Written := ps.flatMap Piece.written

theorem written_append (ps qs : Pieces) : (ps ++ qs).written = ps.written ++ qs.written :=
  List.flatMap_append

theorem written_singleton (p : Piece) : written [p] = p.written := List.append_nil _

end Pieces

/-- The byte offset and the value of each slot, for a text that starts at byte `start`. -/
def placeholdersFrom (start : Nat) : List Written → List (Nat × Option Param)
  | [] => []
  | (c, none) :: rest => placeholdersFrom (start + c.utf8Size) rest
  | (c, some value) :: rest => (start, value) :: placeholdersFrom (start + c.utf8Size) rest

/-- The placeholders of a statement: where each stands in the text, and its value if it has one. -/
def Pieces.placeholders (ps : Pieces) : List (Nat × Option Param) := placeholdersFrom 0 ps.written

/-! ### The text and the slots -/

@[simp] theorem plainly_chars (s : List Char) : (plainly s).map Prod.fst = s := by
  simp [plainly, Function.comp_def]

@[simp] theorem plainly_slots (s : List Char) : (plainly s).filterMap Prod.snd = [] := by
  simp [plainly]

theorem Marker.Part.written_chars (part : Marker.Part) :
    part.written.map Prod.fst = part.chars := by
  cases part with
  | stretch s => exact plainly_chars s
  | marker value => rfl

theorem Marker.Part.written_slots (part : Marker.Part) :
    part.written.filterMap Prod.snd = part.slot?.toList := by
  cases part with
  | stretch s => exact plainly_slots s
  | marker value => rfl

theorem Piece.written_chars (p : Piece) : p.written.map Prod.fst = p.chars := by
  cases p with
  | raw parts => simp only [written, chars, List.map_flatMap, Marker.Part.written_chars]
  | slot value => rfl
  | _ => simp only [written, plainly_chars]

theorem Piece.written_slots (p : Piece) : p.written.filterMap Prod.snd = p.slots := by
  cases p with
  | raw parts =>
    simp only [written, slots]
    induction parts with
    | nil => rfl
    | cons part parts ih =>
      rw [List.flatMap_cons, List.filterMap_append, ih, part.written_slots]
      cases part <;> rfl
  | slot value => rfl
  | _ => simp only [written, slots, plainly_slots]

theorem Pieces.written_chars (ps : Pieces) : ps.written.map Prod.fst = ps.chars := by
  simp only [written, chars, List.map_flatMap, Piece.written_chars]

theorem Pieces.written_slots (ps : Pieces) : ps.written.filterMap Prod.snd = ps.slots := by
  simp only [written, slots, List.filterMap_flatMap, Piece.written_slots]

/-- What stands for a slot is a `?`. -/
theorem Pieces.written_mark {ps : Pieces} {c : Char} {slot : Option Param}
    (h : (c, some slot) ∈ ps.written) : c = '?' := by
  have plain : ∀ s : List Char, (c, some slot) ∉ plainly s := by
    intro s hs
    simp [plainly] at hs
  simp only [written, List.mem_flatMap] at h
  obtain ⟨p, -, hp⟩ := h
  cases p with
  | slot value => exact congrArg Prod.fst (List.mem_singleton.mp hp)
  | raw parts =>
    obtain ⟨part, -, hpart⟩ := List.mem_flatMap.mp hp
    cases part with
    | stretch s => exact absurd hpart (plain s)
    | marker value => exact congrArg Prod.fst (List.mem_singleton.mp hpart)
  | _ => exact absurd hp (plain _)

theorem placeholdersFrom_values (start : Nat) (w : List Written) :
    (placeholdersFrom start w).map Prod.snd = w.filterMap Prod.snd := by
  induction w generalizing start with
  | nil => rfl
  | cons entry rest ih => rcases entry with ⟨c, _ | value⟩ <;> simp [placeholdersFrom, ih]

/-- The placeholders of a statement are its slots, in order. -/
theorem Pieces.placeholders_values (ps : Pieces) : ps.placeholders.map Prod.snd = ps.slots := by
  rw [placeholders, placeholdersFrom_values, written_slots]

/-! ### Raw fragments -/

namespace Marker

/-- What is written for a fragment that is scanned from this place on. -/
def writtenFrom (quote : Quote) (s : List Char) (params : List Param) : List Written :=
  (weave (stretchesFrom quote s) params).flatMap Part.written

/-- A marker takes the first of the values that are left. -/
theorem writtenFrom_marker {quote : Quote} {c : Char} (s : List Char) (params : List Param)
    (h : isMarker quote c = true) :
    writtenFrom quote (c :: s) params = (c, some params.head?) :: writtenFrom quote s params.tail := by
  have hs := stretchesFrom_ne_nil quote s
  simp only [writtenFrom, stretchesFrom, h, if_true]
  rw [eq_mark_of_isMarker h]
  cases hss : stretchesFrom quote s with
  | nil => exact absurd hss hs
  | cons stretch others => cases params <;> simp [weave, Part.written, plainly]

/-- Any other character stands for itself. -/
theorem writtenFrom_plain {quote : Quote} {c : Char} (s : List Char) (params : List Param)
    (h : isMarker quote c = false) :
    writtenFrom quote (c :: s) params = (c, none) :: writtenFrom (next quote c) s params := by
  have hs := stretchesFrom_ne_nil (next quote c) s
  simp only [writtenFrom, stretchesFrom, h, Bool.false_eq_true, if_false]
  cases hss : stretchesFrom (next quote c) s with
  | nil => exact absurd hss hs
  | cons stretch others =>
    cases others <;> cases params <;> simp [weave, Part.written, plainly]

theorem writtenFrom_chars (quote : Quote) (s : List Char) (params : List Param) :
    (writtenFrom quote s params).map Prod.fst = s := by
  induction s generalizing quote params with
  | nil => rfl
  | cons c s ih =>
    cases h : isMarker quote c
    · rw [writtenFrom_plain s params h, List.map_cons, ih]
    · rw [writtenFrom_marker s params h, List.map_cons, ih]

/-- The `i`-th marker has the `i`-th value, as far as the values reach. -/
theorem writtenFrom_slots (quote : Quote) (start : Nat) (s : List Char) (params : List Param) :
    (writtenFrom quote s params).filterMap Prod.snd =
      (List.range (offsetsFrom quote start s).length).map (params[·]?) := by
  induction s generalizing quote start params with
  | nil => rfl
  | cons c s ih =>
    cases h : isMarker quote c
    · rw [writtenFrom_plain s params h, List.filterMap_cons, ih (next quote c) (start + c.utf8Size)]
      simp [offsetsFrom, h]
    · rw [writtenFrom_marker s params h, List.filterMap_cons, ih quote (start + c.utf8Size)]
      simp only [offsetsFrom, h, if_true, List.length_cons, List.range_succ_eq_map, List.map_cons,
        List.map_map]
      cases params <;> simp [Function.comp_def]

theorem split_written (sql : String) (params : List Param) :
    (Piece.raw (split sql params)).written = writtenFrom none sql.toList params := by
  rw [split_eq]
  rfl

theorem split_chars (sql : String) (params : List Param) :
    (Piece.raw (split sql params)).chars = sql.toList := by
  rw [← Piece.written_chars, split_written, writtenFrom_chars]

theorem split_slots (sql : String) (params : List Param) :
    (Piece.raw (split sql params)).slots = (List.range (count sql)).map (params[·]?) := by
  rw [← Piece.written_slots, split_written, writtenFrom_slots none 0]
  rfl

/-- A fragment with a value for each of its markers holds exactly these values. -/
theorem split_slots_eq {sql : String} {params : List Param} (h : count sql = params.length) :
    (Piece.raw (split sql params)).slots = params.map some := by
  rw [split_slots, h]
  apply List.ext_getElem
  · simp
  · intro i hi _
    simp at hi
    simp [hi]

end Marker

end SqlSelect

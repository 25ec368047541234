import SqlSelect.Expr.Render
import SqlSelect.Proofs.Placement

/-! What a raw fragment adds to a statement.

The fragment is written slice by slice, each from one marker to the next, and no slice goes through
a character. Its characters, and its slots, are added to what was written before; the placeholders
of the whole are those from before and then the markers of the fragment, each at its offset in the
fragment counted on from the end of the text before (`placeholdersFrom_append`,
`placeholdersFrom_writtenFrom`, both by induction on the characters). The main statement is
`fragment_written_whole`. -/
namespace SqlSelect

theorem placeholdersFrom_append (start : Nat) (v w : List Written) :
    placeholdersFrom start (v ++ w) = placeholdersFrom start v ++
      placeholdersFrom (start + (String.ofList (v.map Prod.fst)).utf8ByteSize) w := by
  induction v generalizing start with
  | nil => rfl
  | cons entry v ih =>
    obtain ⟨c, slot⟩ := entry
    rw [List.map_cons, Text.utf8ByteSize_ofList_cons, ← Nat.add_assoc, List.cons_append]
    cases slot with
    | none => exact ih (start + c.utf8Size)
    | some value => exact congrArg (List.cons (start, value)) (ih (start + c.utf8Size))

namespace Marker

/-- Behind a text of `before` bytes, the `i`-th marker of a fragment stands `before` bytes further on
and has the `i`-th value, if there is one. -/
theorem placeholdersFrom_writtenFrom (quote : Quote) (before start : Nat) (s : List Char)
    (params : List Param) :
    placeholdersFrom (before + start) (writtenFrom quote s params) =
      (offsetsFrom quote start s).mapIdx fun i offset => (before + offset, params[i]?) := by
  induction s generalizing quote start params with
  | nil => rfl
  | cons c s ih =>
    rw [offsetsFrom]
    cases marker : isMarker quote c with
    | false =>
      rw [writtenFrom_plain s params marker, placeholdersFrom, Nat.add_assoc]
      exact ih (next quote c) (start + c.utf8Size) params
    | true =>
      rw [writtenFrom_marker s params marker, if_pos rfl, List.mapIdx_cons, placeholdersFrom,
        Nat.add_assoc, ih quote (start + c.utf8Size) params.tail]
      cases params <;> rfl

/-- At the offset of a marker stands a `?`. -/
theorem mark_of_mem_offsetsFrom {quote : Quote} {start : Nat} {s : List Char} {offset : Nat}
    (h : offset ∈ offsetsFrom quote start s) :
    ∃ before behind, s = before ++ '?' :: behind ∧
      offset = start + (String.ofList before).utf8ByteSize := by
  induction s generalizing quote start with
  | nil => cases h
  | cons c s ih =>
    have further : ∀ quote', offset ∈ offsetsFrom quote' (start + c.utf8Size) s →
        ∃ before behind, c :: s = before ++ '?' :: behind ∧
          offset = start + (String.ofList before).utf8ByteSize := by
      intro quote' later
      obtain ⟨before, behind, rfl, rfl⟩ := ih later
      exact ⟨c :: before, behind, rfl, by rw [Text.utf8ByteSize_ofList_cons, Nat.add_assoc]⟩
    rw [offsetsFrom] at h
    cases marker : isMarker quote c with
    | false => exact further _ (by simpa [marker] using h)
    | true =>
      rw [marker, if_pos rfl] at h
      rcases List.mem_cons.mp h with rfl | later
      · exact ⟨[], s, by rw [eq_mark_of_isMarker marker]; rfl, rfl⟩
      · exact further _ later

end Marker

/-- The placeholders of what is written behind other pieces come after theirs. -/
theorem Pieces.placeholders_append (ps qs : Pieces) :
    (ps ++ qs).placeholders =
      ps.placeholders ++ placeholdersFrom ps.sql.utf8ByteSize qs.written := by
  rw [placeholders, written_append, placeholdersFrom_append, written_chars, Nat.zero_add]
  rfl

/-- A raw fragment is written behind any other pieces as it is, slice by slice with none missing,
and it adds one slot for each of its markers, with the values in order as far as they reach. Each
marker is a `?` that stands at its offset past the text before. -/
theorem fragment_written_whole {κ : Type} (sub : κ → Pieces) (ps : Pieces) (sql : String)
    (params : List Param) :
    Marker.cut? sql params = some (Marker.split sql params) ∧
      (ps ++ (Expr.raw sql params).pieces sub).sql = ps.sql ++ sql ∧
      (ps ++ (Expr.raw sql params).pieces sub).slots =
        ps.slots ++ (List.range (Marker.offsets sql).length).map (params[·]?) ∧
      (ps ++ (Expr.raw sql params).pieces sub).placeholders =
        ps.placeholders ++ (Marker.offsets sql).mapIdx
          (fun i offset => (ps.sql.utf8ByteSize + offset, params[i]?)) ∧
      ∀ offset ∈ Marker.offsets sql, ∃ before behind,
        sql = before ++ "?" ++ behind ∧ before.utf8ByteSize = offset := by
  have written : ((Expr.raw sql params).pieces sub).written =
      Marker.writtenFrom none sql.toList params := by
    rw [Expr.pieces, Pieces.written_singleton, Marker.split_written]
  refine ⟨?_, ?_, ?_, ?_, fun offset found => ?_⟩
  · rw [Marker.split_eq, Marker.cut?_eq]
  · have text : ((Expr.raw sql params).pieces sub).sql = sql := by
      rw [Pieces.sql, ← Pieces.written_chars, written, Marker.writtenFrom_chars,
        String.ofList_toList]
    rw [Pieces.sql_append, text]
  · rw [Pieces.slots_append, ← Pieces.written_slots ((Expr.raw sql params).pieces sub), written,
      Marker.writtenFrom_slots none 0]
    rfl
  · rw [Pieces.placeholders_append, written]
    exact congrArg (ps.placeholders ++ ·) (Marker.placeholdersFrom_writtenFrom none _ 0 ..)
  · obtain ⟨before, behind, whole, size⟩ := Marker.mark_of_mem_offsetsFrom found
    refine ⟨String.ofList before, String.ofList behind, ?_, by rw [size, Nat.zero_add]⟩
    rw [← String.toList_inj, whole]
    simp

/-- The quoted mark is no marker, and the last one has no value. -/
theorem fragment_written_whole_quoted :
    let sql := "é ?, '?', ?"
    let fragment : Expr Empty := .raw sql [⟨"1"⟩]
    let pieces : Pieces := [.keyword "x = "] ++ fragment.pieces Empty.elim
    pieces.placeholders = [(7, some ⟨"1"⟩), (15, none)] ∧ 11 ∈ Marker.offsets sql ∧
      ∃ before behind, sql = before ++ "?" ++ behind ∧ before.utf8ByteSize = 11 := by
  intro sql fragment pieces
  have found : 11 ∈ Marker.offsets sql := by decide
  obtain ⟨-, -, -, placeholders, marks⟩ :=
    fragment_written_whole Empty.elim [.keyword "x = "] sql [⟨"1"⟩]
  exact ⟨placeholders.trans (by decide +kernel), found, marks 11 found⟩

end SqlSelect

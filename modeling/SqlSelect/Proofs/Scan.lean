import SqlSelect.Proofs.Arguments
import SqlSelect.Proofs.Numeral
import SqlSelect.Proofs.Phrase

/-! The markers of a written statement.

A scan of the whole text carries one quote state through everything that was written piece by
piece. `Faithful` says that along the scan a character is a marker exactly where it was written for
a slot, and a text is `Scanned` when this holds from outside quotes and the scan ends outside of
them; pieces that are scanned on their own are scanned in a row. Text literals are, whatever they
hold, and so are names that are closed without a marker and raw fragments that are closed. The main
statement, `scan_finds_slots`, is that such a query can be taken for a raw fragment. -/
namespace SqlSelect

namespace Marker

/-- The scan of the text ends outside quotes. -/
def Closed (s : List Char) : Prop := after none s = none

instance (s : List Char) : Decidable (Closed s) := inferInstanceAs (Decidable (after none s = none))

/-- Along the scan, the markers are just the characters that stand for a slot. -/
def Faithful (quote : Quote) : List Written → Prop
  | [] => True
  | (c, slot) :: rest => isMarker quote c = slot.isSome ∧ Faithful (next quote c) rest

/-- From outside quotes to outside quotes, with the markers where the slots are. -/
structure Scanned (w : List Written) : Prop where
  faithful : Faithful none w
  closed : Closed (w.map Prod.fst)

theorem after_append (quote : Quote) (s t : List Char) :
    after quote (s ++ t) = after (after quote s) t := List.foldl_append

/-- A marker leaves the scan where it is. -/
theorem next_of_isMarker {quote : Quote} {c : Char} (h : isMarker quote c = true) :
    next quote c = quote := by
  simp only [isMarker, Bool.and_eq_true, beq_iff_eq] at h
  obtain ⟨rfl, rfl⟩ := h
  rfl

theorem faithful_append (quote : Quote) (v w : List Written) :
    Faithful quote (v ++ w) ↔ Faithful quote v ∧ Faithful (after quote (v.map Prod.fst)) w := by
  induction v generalizing quote with
  | nil => simp [Faithful, after]
  | cons entry v ih =>
    obtain ⟨c, slot⟩ := entry
    rw [List.cons_append, Faithful, Faithful, ih, and_assoc]
    rfl

/-- A faithful scan finds the slots where they are. -/
theorem Faithful.offsets {quote : Quote} {w : List Written} (h : Faithful quote w) (start : Nat) :
    offsetsFrom quote start (w.map Prod.fst) = (placeholdersFrom start w).map Prod.fst := by
  induction w generalizing quote start with
  | nil => rfl
  | cons entry w ih =>
    obtain ⟨c, slot⟩ := entry
    obtain ⟨marker, rest⟩ := h
    cases slot with
    | none =>
      have plain : isMarker quote c = false := marker
      simp only [List.map_cons, offsetsFrom, plain, Bool.false_eq_true, if_false, placeholdersFrom]
      exact ih rest _
    | some value =>
      have found : isMarker quote c = true := marker
      rw [next_of_isMarker found] at rest
      simp only [List.map_cons, offsetsFrom, found, if_true, placeholdersFrom]
      rw [ih rest]

namespace Scanned

theorem nil : Scanned [] := ⟨trivial, rfl⟩

theorem append {v w : List Written} (hv : Scanned v) (hw : Scanned w) : Scanned (v ++ w) := by
  have closed : after none (v.map Prod.fst) = none := hv.closed
  refine ⟨(faithful_append none v w).mpr ⟨hv.faithful, ?_⟩, ?_⟩
  · rw [closed]
    exact hw.faithful
  · rw [Closed, List.map_append, after_append, closed]
    exact hw.closed

end Scanned

/-! ### Texts without slots -/

theorem offsetsFrom_eq_nil {quote : Quote} {start : Nat} {s : List Char} :
    offsetsFrom quote start s = [] ↔ Faithful quote (plainly s) := by
  induction s generalizing quote start with
  | nil => exact ⟨fun _ => trivial, fun _ => rfl⟩
  | cons c s ih =>
    rw [show plainly (c :: s) = (c, none) :: plainly s from rfl, Faithful, offsetsFrom]
    cases h : isMarker quote c with
    | true => simp
    | false => simp [ih]

/-- A closed text without markers. -/
theorem scanned_of_count {s : String} (closed : Closed s.toList) (unmarked : count s = 0) :
    Scanned (plainly s.toList) := by
  refine ⟨offsetsFrom_eq_nil.mp (List.eq_nil_of_length_eq_zero unmarked), ?_⟩
  rw [plainly_chars]
  exact closed

/-- Neither a marker nor a quote. -/
def isPlain (c : Char) : Bool := c != '?' && !isQuote c

theorem scanned_of_plain {s : List Char} (h : s.all isPlain = true) : Scanned (plainly s) := by
  induction s with
  | nil => exact .nil
  | cons c s ih =>
    rw [List.all_cons, Bool.and_eq_true] at h
    obtain ⟨plain, others⟩ := h
    have rest := ih others
    have first : Scanned (plainly [c]) := by
      simp only [isPlain, Bool.and_eq_true, bne_iff_ne, ne_eq, Bool.not_eq_true'] at plain
      refine ⟨⟨by simp [isMarker, plain.1], trivial⟩, ?_⟩
      simp [Closed, after, plainly, next, plain.2]
    exact first.append rest

/-- Between quotes nothing is a marker, and a doubled quote leads back inside. -/
theorem faithful_doubleQuotes (s : List Char) :
    Faithful (some '\'') (plainly (Text.doubleQuotes s)) ∧
      after (some '\'') (Text.doubleQuotes s) = some '\'' := by
  induction s with
  | nil => exact ⟨trivial, rfl⟩
  | cons c s ih =>
    by_cases quote : c = '\''
    · rw [Text.doubleQuotes, if_pos quote]
      exact ⟨⟨rfl, rfl, ih.1⟩, ih.2⟩
    · rw [Text.doubleQuotes, if_neg quote]
      have inside : next (some '\'') c = some '\'' := by simp [next, quote]
      refine ⟨⟨rfl, ?_⟩, ?_⟩
      · rw [inside]
        exact ih.1
      · rw [after, List.foldl_cons, inside]
        exact ih.2

theorem scanned_quoted (s : String) : Scanned (plainly (Text.quoted s)) := by
  obtain ⟨faithful, inside⟩ := faithful_doubleQuotes s.toList
  have opening : plainly (Text.quoted s) =
      ('\'', none) :: (plainly (Text.doubleQuotes s.toList) ++ [('\'', none)]) := by
    simp [plainly, Text.quoted]
  refine ⟨?_, ?_⟩
  · rw [opening]
    refine ⟨rfl, (faithful_append _ _ _).mpr ⟨faithful, ?_⟩⟩
    rw [plainly_chars]
    rw [show next none '\'' = some '\'' from rfl, inside]
    exact ⟨rfl, trivial⟩
  · rw [plainly_chars, Closed, Text.quoted, after, List.foldl_cons]
    rw [show next none '\'' = some '\'' from rfl]
    have ends := after_append (some '\'') (Text.doubleQuotes s.toList) ['\'']
    rw [inside] at ends
    exact ends

theorem isPlain_of_isDigit {c : Char} (h : c.isDigit = true) : isPlain c = true := by
  by_cases quote : isQuote c = true
  · simp only [isQuote, Bool.or_eq_true, beq_iff_eq] at quote
    rcases quote with rfl | rfl <;> exact absurd h (by decide)
  · by_cases mark : c = '?'
    · subst mark
      exact absurd h (by decide)
    · simp [isPlain, quote, mark]

theorem isPlain_of_signed {s : List Char} (h : Decimal.Signed s) : ∀ c ∈ s, isPlain c = true := by
  have numeral : ∀ t, Decimal.Numeral t → ∀ c ∈ t, isPlain c = true := by
    rintro t ⟨d, body, tail, rfl, digit, positional, exponent⟩ c hc
    rcases List.mem_cons.mp hc with rfl | hc
    · exact isPlain_of_isDigit digit
    · rcases List.mem_append.mp hc with hc | hc
      · rcases positional c hc with hc | rfl
        · exact isPlain_of_isDigit hc
        · decide
      · cases exponent with
        | none => cases hc
        | digits each =>
          rcases List.mem_cons.mp hc with rfl | hc
          · decide
          · exact isPlain_of_isDigit (each c hc)
        | signed sign _ each =>
          rcases List.mem_cons.mp hc with rfl | hc
          · decide
          · rcases List.mem_cons.mp hc with rfl | hc
            · rcases sign with rfl | rfl <;> decide
            · exact isPlain_of_isDigit (each c hc)
  rcases h with h | ⟨t, rfl, h⟩
  · exact numeral s h
  · intro c hc
    rcases List.mem_cons.mp hc with rfl | hc
    · decide
    · exact numeral t h c hc

theorem scanned_literal (v : Value) : Scanned (plainly v.chars) := by
  rcases v.chars_cases with ⟨s, rfl⟩ | null | signed
  · exact scanned_quoted s
  · rw [null]
    exact scanned_of_plain (by decide)
  · exact scanned_of_plain (List.all_eq_true.mpr (isPlain_of_signed signed))

/-! ### Raw fragments -/

/-- A fragment is cut where its scan finds markers. -/
theorem faithful_writtenFrom (quote : Quote) (s : List Char) (params : List Param) :
    Faithful quote (writtenFrom quote s params) := by
  induction s generalizing quote params with
  | nil => exact trivial
  | cons c s ih =>
    cases h : isMarker quote c with
    | false =>
      rw [writtenFrom_plain s params h]
      exact ⟨h, ih _ _⟩
    | true =>
      rw [writtenFrom_marker s params h]
      refine ⟨h, ?_⟩
      rw [next_of_isMarker h]
      exact ih _ _

theorem scanned_split {sql : String} (params : List Param) (closed : Closed sql.toList) :
    Scanned (Piece.raw (split sql params)).written := by
  refine ⟨?_, ?_⟩
  · rw [split_written]
    exact faithful_writtenFrom none sql.toList params
  · rw [Piece.written_chars, split_chars]
    exact closed

end Marker

/-! ### Phrases -/

/-- Names are closed without a marker, and raw fragments are closed. -/
abbrev Pieces.Closed (ps : Pieces) : Prop :=
  ps.Given (fun name => Marker.Closed name.toList ∧ Marker.count name = 0) Marker.Closed

namespace Phrase
open Marker

/-- No keyword holds a quote or a marker. -/
theorem isPlain_word {entry : Bool × String × Bool} (h : entry ∈ statementWords) :
    entry.2.1.toList.all isPlain = true := by
  have each : ∀ entry ∈ statementWords, entry.2.1.toList.all isPlain = true := by decide
  exact each entry h

theorem scanned_name {ps : Pieces} (h : ps.Closed) {p : Piece} {name : String} (mem : p ∈ ps)
    (named : name ∈ p.names) : Scanned (plainly name.toList) := by
  obtain ⟨closed, unmarked⟩ := h.name mem named
  exact scanned_of_count closed unmarked

/-- Every phrase is scanned, whatever literals and values it holds. -/
theorem scanned {fresh leaves : Bool} {ps : Pieces} (h : Phrase fresh ps leaves) (closed : ps.Closed) :
    Scanned ps.written := by
  induction h with
  | nil => exact .nil
  | append _ _ ihp ihq =>
    rw [Pieces.written_append]
    exact (ihp closed.append.1).append (ihq closed.append.2)
  | fresh _ ih => exact ih closed
  | leaves _ ih => exact ih closed
  | word mem =>
    rw [Pieces.written_singleton]
    exact scanned_of_plain (isPlain_word mem)
  | @atom p atom =>
    rw [Pieces.written_singleton]
    cases p with
    | identifier name => exact scanned_name closed List.mem_cons_self List.mem_cons_self
    | table name => exact scanned_name closed List.mem_cons_self List.mem_cons_self
    | column table name =>
      have own : Scanned (plainly name.toList) :=
        scanned_name closed List.mem_cons_self (by simp [Piece.names])
      cases table with
      | none => exact own
      | some table =>
        have qualifier : Scanned (plainly table.toList) :=
          scanned_name closed List.mem_cons_self (by simp [Piece.names])
        have dot : Scanned (plainly ['.']) := scanned_of_plain (by decide)
        have all := qualifier.append (dot.append own)
        simp only [plainly, ← List.map_append] at all
        exact all
    | literal v => exact scanned_literal v
    | slot value => exact ⟨⟨rfl, trivial⟩, rfl⟩
    | _ => cases atom
  | @raw sql params =>
    rw [Pieces.written_singleton]
    refine scanned_split params ?_
    rw [← split_chars sql params]
    exact closed.fragments _ List.mem_cons_self
  | @allOf table =>
    have name : Scanned (plainly table.toList) :=
      scanned_name closed List.mem_cons_self List.mem_cons_self
    have star : Scanned (Piece.keyword ".*").written := scanned_of_plain (by decide)
    rw [← Pieces.written_singleton] at star
    exact name.append star
  | @operator op =>
    rw [Pieces.written_singleton]
    exact scanned_of_plain (by cases op <;> decide)
  | negation =>
    rw [Pieces.written_singleton]
    exact scanned_of_plain (by decide)
  | @nullTest negated =>
    rw [Pieces.written_singleton]
    exact scanned_of_plain (by cases negated <;> decide)
  | @collation name =>
    rw [Pieces.written_singleton]
    have word : Scanned (plainly Piece.collationWord.toList) := scanned_of_plain (by decide)
    have own : Scanned (plainly name.toList) :=
      scanned_name closed List.mem_cons_self List.mem_cons_self
    have both := word.append own
    simp only [plainly, ← List.map_append] at both
    exact both
  | comma =>
    rw [Pieces.written_singleton]
    exact scanned_of_plain (by decide)
  | @parenthesized fresh ps leaves _ ih =>
    have parens : ps.parenthesized = [.leftParen] ++ (ps ++ [.rightParen]) := rfl
    rw [parens] at closed ⊢
    rw [Pieces.written_append, Pieces.written_append, Pieces.written_singleton,
      Pieces.written_singleton]
    have left : Scanned Piece.leftParen.written := scanned_of_plain (by decide)
    have right : Scanned Piece.rightParen.written := scanned_of_plain (by decide)
    exact left.append ((ih closed.append.2.append.1).append right)

end Phrase

/-! ### Built queries -/

/-- A scan of the whole text of a built query finds just the places of its slots. Its text with its
arguments is therefore a raw fragment that is accepted, and that is written as the query is. -/
theorem scan_finds_slots {calls : List Call} {b : Builder} {q : Query} (h : Grown calls b)
    (built : b.build = .ok q)
    (names : ∀ name ∈ q.names, Marker.Closed name.toList ∧ Marker.count name = 0)
    (fragments : ∀ s ∈ q.fragments, Marker.Closed s) :
    Marker.offsets q.statement.sql = q.pieces.placeholders.map Prod.fst ∧
      ∃ e : Expr Query, Expr.ofRaw q.statement.sql (q.statement.args.map Param.mk) = .ok e ∧
        (e.pieces Query.pieces).sql = q.statement.sql ∧
        (e.pieces Query.pieces).args.map Param.text = q.statement.args := by
  have scanned : Marker.Scanned q.pieces.written := q.phrase.scanned ⟨names, fragments⟩
  have text : q.statement.sql.toList = q.pieces.written.map Prod.fst := by
    rw [Pieces.written_chars]
    simp [Query.statement, Pieces.sql]
  have offsets : Marker.offsets q.statement.sql = q.pieces.placeholders.map Prod.fst := by
    rw [Marker.offsets, text, scanned.faithful.offsets]
    rfl
  obtain ⟨args, slots⟩ := h.args built
  have params : q.statement.args.map Param.mk = q.args := by
    simp [Query.statement, Query.args, Function.comp_def]
  have count : Marker.count q.statement.sql = q.args.length := by
    rw [Marker.count, offsets, List.length_map, ← List.length_map (f := Prod.snd),
      Pieces.placeholders_values, slots, List.length_map, args]
  refine ⟨offsets, .raw q.statement.sql q.args, ?_, ?_, ?_⟩
  · rw [params, Expr.ofRaw, if_pos count]
  · have written : Pieces.chars [.raw (Marker.split q.statement.sql q.args)] =
        q.statement.sql.toList := by
      rw [← Marker.split_chars q.statement.sql q.args]
      exact List.append_nil _
    rw [Expr.pieces, Pieces.sql, written, String.ofList_toList]
  · have taken : (Expr.raw q.statement.sql q.args).pieces Query.pieces =
        [.raw (Marker.split q.statement.sql q.args)] := rfl
    have kept : ((Expr.raw q.statement.sql q.args).pieces Query.pieces).slots = q.args.map some := by
      rw [taken, Pieces.slots_cons, Marker.split_slots_eq count]
      simp
    rw [Pieces.args_of_slots kept]
    rfl

/-- A literal full of quotes and markers, next to a fragment with a quoted marker of its own. -/
def markedCalls : List Call :=
  [.expr (.literal (.text "it's a \"?\"")), .readFrom (.table "t"),
    .filter (.text "a = ? AND b = 'it''s ?'") [⟨"1"⟩]]

theorem scan_finds_slots_marked :
    ∃ q, (Builder.run {} markedCalls).build = .ok q ∧ q.names = ["t"] ∧
      q.fragments = ["a = ? AND b = 'it''s ?'".toList] ∧ q.statement.args = ["1"] ∧
      Marker.offsets q.statement.sql = q.pieces.placeholders.map Prod.fst := by
  have grown : Grown markedCalls (Builder.run {} markedCalls) := by
    refine Grown.empty.run markedCalls ?_ ?_
    · simp [markedCalls, Call.queries, SourceArg.queries, Clause.queries, Expr.queries]
    · simp [markedCalls, Call.builders, SourceArg.builders]
  have built : (Builder.run {} markedCalls).build = .ok (.mk (Builder.run {} markedCalls).body) := rfl
  exact ⟨_, built, rfl, rfl, rfl, (scan_finds_slots grown built (by decide) (by decide)).1⟩

end SqlSelect

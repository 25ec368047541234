import SqlSelect.Proofs.Comments
import SqlSelect.Proofs.Shape

/-! No string breaks out of its literal.

The tokens of a statement are a template with places for the text literals, and the template is the
same for all queries of one shape: each literal is one quoted token that holds just its string, and
no other token depends on the strings. Bound values are not in the text at all. This is
`literals_stay_inside`, for queries whose names and raw fragments are clean; every phrase has such
a template (`Phrase.templated`), and the templates of phrases are put together as the phrases are. -/
namespace SqlSelect
open Lexer

/-! ### Templates -/

/-- The string of a text literal, for a piece that is one. -/
def Piece.text? : Piece → Option String
  | .literal (.text s) => some s
  | _ => none

def Pieces.texts (ps : Pieces) : List String := ps.filterMap Piece.text?

/-- The strings of the text literals of a query, in the order written. -/
def Query.texts (q : Query) : List String := q.pieces.texts

/-- Fills the places of a template with quoted strings, from left to right. -/
def fillTexts : List (Option Token) → List String → List Token
  | [], _ => []
  | some token :: rest, texts => token :: fillTexts rest texts
  | none :: rest, s :: texts => .quoted .single s.toList :: fillTexts rest texts
  | none :: rest, [] => fillTexts rest []

/-- How many places a template has. -/
def places (template : List (Option Token)) : Nat := template.countP Option.isNone

theorem fillTexts_append {template : List (Option Token)} {texts : List String}
    (h : places template = texts.length) (template' : List (Option Token)) (texts' : List String) :
    fillTexts (template ++ template') (texts ++ texts') =
      fillTexts template texts ++ fillTexts template' texts' := by
  induction template generalizing texts with
  | nil =>
    have empty : texts = [] := List.eq_nil_of_length_eq_zero h.symm
    simp [empty, fillTexts]
  | cons place template ih =>
    cases place with
    | some token =>
      have rest : places template = texts.length := by simpa [places] using h
      simp [fillTexts, ih rest]
    | none =>
      cases texts with
      | nil => simp [places] at h
      | cons s texts =>
        have rest : places template = texts.length := by simpa [places] using h
        simp [fillTexts, ih rest]

theorem fillTexts_constant (tokens : List Token) (texts : List String) :
    fillTexts (tokens.map some) texts = tokens := by
  induction tokens with
  | nil => rfl
  | cons token tokens ih => simp [fillTexts, ih]

theorem places_constant (tokens : List Token) : places (tokens.map some) = 0 := by
  simp [places]

/-! ### Pieces of one shape -/

theorem Piece.text?_blank (p : Piece) : p.blank.text? = p.text?.map fun _ => "" := by
  cases p with
  | literal v => cases v <;> rfl
  | _ => rfl

theorem Marker.Part.chars_blank (part : Marker.Part) : part.blank.chars = part.chars := by
  cases part <;> rfl

/-- A piece that is no text literal is written as its shape. -/
theorem Piece.chars_blank {p : Piece} (h : p.text? = none) : p.blank.chars = p.chars := by
  cases p with
  | literal v =>
    cases v with
    | text s => cases h
    | _ => rfl
  | raw parts => simp [blank, chars, List.flatMap_map, Marker.Part.chars_blank]
  | column t name => cases t <;> rfl
  | _ => rfl

/-- A piece is given back by its shape and its string. -/
theorem Piece.chars_eq {p p' : Piece} (shape : p'.blank = p.blank) (text : p'.text? = p.text?) :
    p'.chars = p.chars := by
  have string : ∀ p : Piece, ∀ s, p.text? = some s → p = .literal (.text s) := by
    intro p s h
    cases p with
    | literal v =>
      cases v with
      | text s' =>
        cases h
        rfl
      | _ => cases h
    | _ => cases h
  cases h : p.text? with
  | none => rw [← chars_blank h, ← shape, chars_blank (text.trans h)]
  | some s => rw [string p s h, string p' s (text.trans h)]

theorem Pieces.chars_eq {ps ps' : Pieces} (shape : ps'.blank = ps.blank) (texts : ps'.texts = ps.texts) :
    ps'.chars = ps.chars := by
  induction ps generalizing ps' with
  | nil =>
    have empty : ps' = [] := by simpa [blank] using shape
    rw [empty]
  | cons p ps ih =>
    obtain ⟨p', rest, rfl, first, others⟩ := List.map_eq_cons_iff.mp shape
    have kinds : p'.text?.map (fun _ => "") = p.text?.map fun _ => "" := by
      rw [← Piece.text?_blank, ← Piece.text?_blank, first]
    have heads : p'.text? = p.text? ∧ Pieces.texts rest = Pieces.texts ps := by
      unfold Pieces.texts at texts ⊢
      rw [List.filterMap_cons, List.filterMap_cons] at texts
      cases h : p.text? <;> cases h' : p'.text? <;> simp_all
    have tails : Pieces.chars rest = Pieces.chars ps := ih others heads.2
    show p'.chars ++ Pieces.chars rest = p.chars ++ Pieces.chars ps
    rw [Piece.chars_eq first heads.1, tails]

/-- A list of pieces is a template for all pieces of the same shape. -/
def Templated (fresh : Bool) (ps : Pieces) (leaves : Bool) : Prop :=
  ∃ template, places template = ps.texts.length ∧
    ∀ ps' : Pieces, ps'.blank = ps.blank →
      ps'.texts.length = ps.texts.length ∧
        Lexes fresh (glyphs ps'.chars) (fillTexts template ps'.texts) leaves

namespace Templated
variable {fresh between leaves : Bool} {ps qs : Pieces}

theorem nil : Templated fresh [] fresh := by
  refine ⟨[], rfl, fun ps' same => ?_⟩
  have empty : ps' = [] := by simpa [Pieces.blank] using same
  subst empty
  exact ⟨rfl, .nil⟩

theorem append (h : Templated fresh ps between) (h' : Templated between qs leaves) :
    Templated fresh (ps ++ qs) leaves := by
  obtain ⟨template, count, each⟩ := h
  obtain ⟨template', count', each'⟩ := h'
  refine ⟨template ++ template', ?_, fun rs same => ?_⟩
  · simp only [places, Pieces.texts, List.countP_append, List.filterMap_append,
      List.length_append] at count count' ⊢
    omega
  · rw [Pieces.blank_append] at same
    obtain ⟨ps', qs', rfl, samePs, sameQs⟩ := List.map_eq_append_iff.mp same
    obtain ⟨length, lexes⟩ := each ps' samePs
    obtain ⟨length', lexes'⟩ := each' qs' sameQs
    have texts : Pieces.texts (ps' ++ qs') = Pieces.texts ps' ++ Pieces.texts qs' :=
      List.filterMap_append
    have texts' : Pieces.texts (ps ++ qs) = ps.texts ++ qs.texts := List.filterMap_append
    refine ⟨?_, ?_⟩
    · rw [texts, texts', List.length_append, List.length_append, length, length']
    · rw [Pieces.chars_append, glyphs_append, texts, fillTexts_append (count.trans length.symm)]
      exact lexes.append lexes'

theorem weaken (h : Templated false ps leaves) : Templated true ps leaves := by
  obtain ⟨template, count, each⟩ := h
  exact ⟨template, count, fun ps' same => ⟨(each ps' same).1, (each ps' same).2.weaken⟩⟩

theorem unleave (h : Templated fresh ps true) : Templated fresh ps false := by
  obtain ⟨template, count, each⟩ := h
  exact ⟨template, count, fun ps' same => ⟨(each ps' same).1, (each ps' same).2.unleave⟩⟩

/-- Pieces without text literals have a template without places. -/
theorem constant (none : ∀ p ∈ ps, p.text? = none) {tokens : List Token}
    (lexes : Lexes fresh (glyphs ps.chars) tokens leaves) : Templated fresh ps leaves := by
  have noTexts : ∀ rs : Pieces, (∀ p ∈ rs, p.text? = Option.none) → rs.texts = [] :=
    fun rs h => List.filterMap_eq_nil_iff.mpr h
  have blankChars : ∀ rs : Pieces, (∀ p ∈ rs, p.text? = Option.none) → rs.blank.chars = rs.chars := by
    intro rs h
    simp only [Pieces.blank, Pieces.chars, List.flatMap_def, List.map_map]
    exact congrArg List.flatten (List.map_congr_left fun p hp => Piece.chars_blank (h p hp))
  refine ⟨tokens.map some, ?_, fun ps' same => ?_⟩
  · rw [places_constant, noTexts ps none]
    rfl
  · have none' : ∀ p ∈ ps', p.text? = Option.none := by
      intro p hp
      have mem : p.blank ∈ ps.blank := same ▸ List.mem_map.mpr ⟨p, hp, rfl⟩
      obtain ⟨p₀, hp₀, blank⟩ := List.mem_map.mp mem
      have blankText := p.text?_blank
      rw [← blank, Piece.text?_blank, none p₀ hp₀] at blankText
      simpa using blankText.symm
    refine ⟨by rw [noTexts ps' none', noTexts ps none], ?_⟩
    rw [← blankChars ps' none', same, blankChars ps none, fillTexts_constant]
    exact lexes

theorem piece {p : Piece} (none : p.text? = none) {tokens : List Token}
    (lexes : Lexes fresh (glyphs p.chars) tokens leaves) : Templated fresh [p] leaves := by
  have chars : Pieces.chars [p] = p.chars := List.append_nil _
  rw [← chars] at lexes
  exact constant (by simpa using none) lexes

/-- A text literal is a place. -/
theorem text (s : String) : Templated true [.literal (.text s)] false := by
  refine ⟨[none], rfl, fun ps' same => ?_⟩
  obtain ⟨p, rest, rfl, blank, empty⟩ := List.map_eq_cons_iff.mp same
  have single : rest = [] := by simpa using empty
  subst single
  obtain ⟨s', rfl⟩ : ∃ s', p = .literal (.text s') := by
    cases p with
    | literal v =>
      cases v with
      | text s' => exact ⟨s', rfl⟩
      | _ => cases blank
    | _ => cases blank
  have chars : Pieces.chars [.literal (.text s')] = Text.quoted s' := List.append_nil _
  refine ⟨rfl, ?_⟩
  rw [chars]
  exact lexes_quoted s'

end Templated

/-! ### Everything that is written -/

/-- Names and raw fragments are closed and hold no comments. -/
abbrev Pieces.Clean (ps : Pieces) : Prop := ps.Given (fun name => Lexer.Clean name.toList) Lexer.Clean

/-- Every phrase has a template, whatever its text literals and values are. -/
theorem Phrase.templated {fresh leaves : Bool} {ps : Pieces} (h : Phrase fresh ps leaves)
    (clean : ps.Clean) : Templated fresh ps leaves := by
  induction h with
  | nil => exact .nil
  | append _ _ ihp ihq => exact (ihp clean.append.1).append (ihq clean.append.2)
  | fresh _ ih => exact (ih clean).weaken
  | leaves _ ih => exact (ih clean).unleave
  | word mem => exact .piece rfl (lexes_word mem)
  | @atom p atom =>
    cases p with
    | identifier name =>
      exact .piece rfl (lexes_clean (clean.name List.mem_cons_self List.mem_cons_self))
    | table name =>
      exact .piece rfl (lexes_clean (clean.name List.mem_cons_self List.mem_cons_self))
    | column t name =>
      have own : Lexer.Clean name.toList := clean.name List.mem_cons_self (by simp [Piece.names])
      cases t with
      | none => exact .piece rfl (lexes_clean own)
      | some t =>
        have qualifier : Lexer.Clean t.toList := clean.name List.mem_cons_self (by simp [Piece.names])
        exact .piece rfl (.of_idle (after_clean_point qualifier own) (by simp))
    | literal v =>
      have all := lexes_literal v
      cases v with
      | text s => exact .text s
      | _ => exact .piece rfl all
    | slot value => exact .piece rfl (lexes_of_fits (s := ['?']) (by decide))
    | _ => cases atom
  | @raw sql params =>
    refine .piece rfl (lexes_clean ?_)
    exact clean.fragments _ List.mem_cons_self
  | @allOf table =>
    have name : Lexer.Clean table.toList := clean.name List.mem_cons_self List.mem_cons_self
    have star : Lexer.Clean ['*'] := by decide
    have chars : Pieces.chars [.identifier table, .keyword ".*"] = table.toList ++ ['.', '*'] := by
      simp [Pieces.chars, Piece.chars]
    have lexes : Lexes true (glyphs (table.toList ++ ['.', '*'])) _ false :=
      .of_idle (after_clean_point name star) (by simp)
    rw [← chars] at lexes
    exact .constant (by simp [Piece.text?]) lexes
  | @operator op => exact .piece rfl (lexes_operator op)
  | negation => exact .piece rfl (lexes_of_fits (by decide))
  | @nullTest negated => cases negated <;> exact .piece rfl (lexes_of_fits (by decide))
  | @collation name =>
    have own : Lexer.Clean name.toList := clean.name List.mem_cons_self List.mem_cons_self
    have word : Lexes false (glyphs Piece.collationWord.toList) _ true := lexes_of_fits (by decide)
    have both := word.append (lexes_clean own)
    rw [← glyphs_append] at both
    exact .piece rfl both
  | comma => exact .piece rfl (lexes_of_fits (by decide))
  | @parenthesized fresh ps leaves _ ih =>
    have left : Templated fresh [.leftParen] true := .piece rfl (lexes_paren _ _ (.inl rfl))
    have right : Templated leaves [.rightParen] false := .piece rfl (lexes_paren _ _ (.inr rfl))
    exact left.append ((ih clean.inside).append right)

/-- A string and a value, in a projection with an alias and in a filter with a collation. -/
def lookup (s : String) (p : Param) : Query :=
  .mk { current :=
    { projection := [.expr (.literal (.text s)) (some "label")]
      source := some ⟨.table "t", none⟩
      selection := [.binary .eq (.collate (.column none "a") "NOCASE") (.bound p)] } }

end SqlSelect

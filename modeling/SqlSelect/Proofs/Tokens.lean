import SqlSelect.Proofs.Lexing
import SqlSelect.Proofs.Reader

/-! The tokens of what is written.

Pieces are lexed one by one, each as if it stood alone (`Phrase.lexes`), when the names among them
are single identifiers; a raw fragment is one glyph, and so one token. Their parentheses are
balanced (`Phrase.balanced`), so that a query in parentheses ends where the first parenthesis closes
that was not opened inside of it. -/
namespace SqlSelect
open Lexer

/-! ### Identifiers -/

/-- The name is a single identifier. -/
def Identifier (name : String) : Prop :=
  ∃ token, lex (glyphs name.toList) = [token] ∧ token.isIdentifier = true

/-- The first token of a name. -/
def nameToken (name : String) : Token := (lex (glyphs name.toList)).headD (.word name.toList)

theorem identifier_iff {name : String} :
    Identifier name ↔ lex (glyphs name.toList) = [nameToken name] ∧
      (nameToken name).isIdentifier = true := by
  constructor
  · rintro ⟨token, tokens, isIdentifier⟩
    have first : nameToken name = token := by simp [nameToken, tokens]
    rw [first]
    exact ⟨tokens, isIdentifier⟩
  · exact fun h => ⟨_, h⟩

instance (name : String) : Decidable (Identifier name) := decidable_of_iff _ identifier_iff.symm

namespace Lexer

/-- The mode behind an identifier: a point ends it. -/
theorem after_identifier {name : String} (h : Identifier name) :
    (Mode.idle.after (glyphs name.toList)).isCalm = true ∧
      (Mode.idle.after (glyphs name.toList)).Ends '.' := by
  obtain ⟨token, tokens, isIdentifier⟩ := h
  rw [lex] at tokens
  generalize Mode.idle.after (glyphs name.toList) = m at tokens ⊢
  have last : m.flush = [] ∨ m.flush = [token] := by
    rcases List.append_eq_singleton_iff.mp tokens with ⟨-, flush⟩ | ⟨-, flush⟩
    · exact .inr flush
    · exact .inl flush
  cases m with
  | idle => exact ⟨rfl, Mode.ends_of_more? rfl rfl⟩
  | word s => exact ⟨rfl, Mode.ends_of_more? rfl rfl⟩
  | closing d s => exact ⟨rfl, Mode.ends_of_more? rfl (by cases d <;> rfl)⟩
  | signed s sign => simp [Mode.flush] at last
  | _ =>
    simp only [Mode.flush, List.cons_ne_nil, List.cons.injEq, and_true, false_or] at last
    subst last
    cases isIdentifier

theorem lexes_identifier {name : String} (h : Identifier name) :
    Lexes true (glyphs name.toList) [nameToken name] false := by
  rw [← (identifier_iff.mp h).1]
  exact .of_idle (after_identifier h).1 (by simp)

/-- A name with a point behind it, and what stands behind the point. -/
theorem lexes_point {name : String} {c : Char} {s : List Char} {tokens : List Token}
    (h : Identifier name) (behind : Lexes true (glyphs (c :: s)) tokens false) :
    Lexes true (glyphs (name.toList ++ '.' :: c :: s))
      (nameToken name :: .symbol ['.'] :: tokens) false := by
  intro m _ fresh
  rw [fresh rfl]
  have point : ['.', c] ∉ longSymbols := by
    intro mem
    have each : ∀ s ∈ longSymbols, s.head? ≠ some '.' := by decide
    exact each _ mem rfl
  have ends : (Mode.symbol ['.']).Ends c := Mode.ends_of_more? rfl (by simp [Mode.more?, point])
  obtain ⟨after, out⟩ := (after_identifier h).2.after (glyphs (c :: s))
  obtain ⟨after', out'⟩ := ends.after (glyphs s)
  obtain ⟨calm, -, all⟩ := behind .idle rfl fun _ => rfl
  have first : Mode.idle.out (glyphs name.toList) ++ (Mode.idle.after (glyphs name.toList)).flush =
      [nameToken name] := (identifier_iff.mp h).1
  have opening : Mode.idle.next '.' = .symbol ['.'] := rfl
  have nothing : Mode.idle.completed '.' = [] := rfl
  rw [glyphs_append, Mode.after_append, Mode.out_append, glyphs_cons, after, out, Mode.after,
    Mode.out, opening, nothing, glyphs_cons, after', out', ← List.append_assoc, first]
  refine ⟨calm, by simp, ?_⟩
  rw [glyphs_cons] at all
  simpa [Mode.flush] using all

end Lexer

namespace Lexer

theorem exists_cons_of_identifier {name : String} (h : Identifier name) :
    ∃ c s, name.toList = c :: s := by
  refine List.exists_cons_of_ne_nil fun empty => ?_
  obtain ⟨token, tokens, -⟩ := h
  rw [empty] at tokens
  cases tokens

theorem lexes_qualified {table name : String} (h : Identifier table) (h' : Identifier name) :
    Lexes true (glyphs (table.toList ++ '.' :: name.toList))
      [nameToken table, .symbol ['.'], nameToken name] false := by
  have behind := lexes_identifier h'
  obtain ⟨c, s, chars⟩ := exists_cons_of_identifier h'
  rw [chars] at behind ⊢
  exact lexes_point h behind

theorem lexes_collation {name : String} (h : Identifier name) :
    Lexes false (glyphs (Piece.collation name).chars) [.keyword .collate, nameToken name] false := by
  have word : Lexes false (glyphs Piece.collationWord.toList) [.keyword .collate] true :=
    lexes_of_fits (by decide)
  have both := word.append (lexes_identifier h)
  rw [← glyphs_append] at both
  exact both

end Lexer

/-! ### Pieces -/

/-- A raw fragment is not looked into. -/
def Piece.glyphs : Piece → List Glyph
  | .raw parts => [.fragment (Piece.raw parts).chars]
  | p => SqlSelect.glyphs p.chars

def Piece.tokens (p : Piece) : List Token := lex p.glyphs

namespace Pieces

def glyphs (ps : Pieces) : List Glyph := ps.flatMap Piece.glyphs

def tokens (ps : Pieces) : List Token := ps.flatMap Piece.tokens

@[simp] theorem glyphs_append (ps qs : Pieces) : (ps ++ qs).glyphs = ps.glyphs ++ qs.glyphs := by
  simp [glyphs]

@[simp] theorem tokens_nil : tokens [] = [] := rfl

@[simp] theorem tokens_cons (p : Piece) (ps : Pieces) : tokens (p :: ps) = p.tokens ++ tokens ps :=
  rfl

@[simp] theorem tokens_append (ps qs : Pieces) : (ps ++ qs).tokens = ps.tokens ++ qs.tokens := by
  simp [tokens]

@[simp] theorem tokens_parenthesized (ps : Pieces) :
    ps.parenthesized.tokens = .symbol ['('] :: (ps.tokens ++ [.symbol [')']]) := by
  have left : Piece.leftParen.tokens = [.symbol ['(']] := rfl
  have right : Piece.rightParen.tokens = [.symbol [')']] := rfl
  simp [parenthesized, left, right]

/-- Without raw fragments the glyphs are the characters of the text. -/
theorem glyphs_eq {ps : Pieces} (h : ps.filterMap Piece.fragment? = []) :
    ps.glyphs = SqlSelect.glyphs ps.chars := by
  induction ps with
  | nil => rfl
  | cons p ps ih =>
    rw [List.filterMap_cons] at h
    cases plain : p.fragment? with
    | some s => simp [plain] at h
    | none =>
      have rest : glyphs ps = SqlSelect.glyphs (chars ps) := ih (by simpa [plain] using h)
      have first : p.glyphs = SqlSelect.glyphs p.chars := by
        cases p with
        | raw parts => cases plain
        | _ => rfl
      show p.glyphs ++ glyphs ps = SqlSelect.glyphs (p.chars ++ chars ps)
      rw [first, rest, Lexer.glyphs_append]

/-- Every name is a single identifier. -/
abbrev Identified (ps : Pieces) : Prop := ps.Given Identifier fun _ => True

end Pieces

namespace Lexer

theorem Lexes.piece {fresh leaves : Bool} {p : Piece} {tokens : List Token}
    (h : Lexes fresh p.glyphs tokens leaves) :
    Lexes fresh (Pieces.glyphs [p]) (Pieces.tokens [p]) leaves := by
  simpa [Pieces.glyphs, Piece.tokens] using h.self

end Lexer

namespace Piece
variable {table name : String}

theorem tokens_identifier (h : Identifier name) : (identifier name).tokens = [nameToken name] :=
  (lexes_identifier h).lex_eq

theorem tokens_table (h : Identifier name) : (Piece.table name).tokens = [nameToken name] :=
  (lexes_identifier h).lex_eq

theorem tokens_column (h : Identifier name) : (column none name).tokens = [nameToken name] :=
  (lexes_identifier h).lex_eq

theorem tokens_qualified (h : Identifier table) (h' : Identifier name) :
    (column (some table) name).tokens = [nameToken table, .symbol ['.'], nameToken name] :=
  (lexes_qualified h h').lex_eq

theorem tokens_collation (h : Identifier name) :
    (collation name).tokens = [.keyword .collate, nameToken name] :=
  (lexes_collation h).lex_eq

end Piece

/-! ### Literals -/

/-- A literal as it is read: a real number that is not finite is written as `NULL`. -/
def Value.tree : Value → Tree
  | .null => .null
  | .integer n => .number (Decimal.integer n.toInt)
  | .real x =>
    match Decimal.binary64.read x.toBits.toNat with
    | .finite negative magnitude => .number (layout.finite negative magnitude)
    | _ => .null
  | .text s => .text s.toList

theorem Value.tree_cases (v : Value) :
    (∃ s, v.tree = .text s ∧ (Piece.literal v).tokens = [.quoted .single s]) ∨
      (v.tree = .null ∧ (Piece.literal v).tokens = [.keyword .null]) ∨
      (∃ s, v.tree = .number s ∧ (Piece.literal v).tokens = [.number s]) ∨
      ∃ s, v.tree = .number ('-' :: s) ∧ (Piece.literal v).tokens = [.symbol ['-'], .number s] := by
  have number : ∀ s, Decimal.Signed s → v.tree = .number s → v.chars = s →
      (∃ s, v.tree = .number s ∧ (Piece.literal v).tokens = [.number s]) ∨
        ∃ s, v.tree = .number ('-' :: s) ∧
          (Piece.literal v).tokens = [.symbol ['-'], .number s] := by
    intro s signed tree chars
    have tokens : (Piece.literal v).tokens = numberTokens s := by
      show lex (glyphs v.chars) = _
      rw [chars, (lexes_signed signed).lex_eq]
    rcases signed with numeral | ⟨t, rfl, -⟩
    · exact .inl ⟨s, tree, tokens.trans (numberTokens_numeral numeral)⟩
    · exact .inr ⟨t, tree, tokens⟩
  cases v with
  | null => exact .inr (.inl ⟨rfl, rfl⟩)
  | integer n => exact .inr (.inr (number _ (Decimal.integer_signed _) rfl rfl))
  | real x =>
    cases h : Decimal.binary64.read x.toBits.toNat with
    | finite negative magnitude =>
      exact .inr (.inr (number _ (layout.finite_signed negative magnitude) (by simp [tree, h])
        (by simp [chars, h])))
    | _ =>
      refine .inr (.inl ⟨by simp [tree, h], ?_⟩)
      have chars : (Value.real x).chars = "NULL".toList := by simp [chars, h]
      show lex (glyphs (Value.real x).chars) = _
      rw [chars]
      rfl
  | text s => exact .inl ⟨s.toList, rfl, (lexes_quoted s).lex_eq⟩

/-! ### Everything that is written -/

/-- Each piece is lexed as if it stood alone. -/
theorem Phrase.lexes {fresh leaves : Bool} {ps : Pieces} (h : Phrase fresh ps leaves)
    (identified : ps.Identified) : Lexes fresh ps.glyphs ps.tokens leaves := by
  induction h with
  | nil => exact .nil
  | append _ _ ihp ihq =>
    rw [Pieces.glyphs_append, Pieces.tokens_append]
    exact (ihp identified.append.1).append (ihq identified.append.2)
  | fresh _ ih => exact (ih identified).weaken
  | leaves _ ih => exact (ih identified).unleave
  | word mem => exact .piece (lexes_word mem)
  | @atom p atom =>
    cases p with
    | identifier name =>
      have own : Identifier name := identified.name List.mem_cons_self List.mem_cons_self
      exact .piece (lexes_identifier own)
    | table name =>
      have own : Identifier name := identified.name List.mem_cons_self List.mem_cons_self
      exact .piece (lexes_identifier own)
    | column t name =>
      have own : Identifier name := identified.name List.mem_cons_self (by simp [Piece.names])
      cases t with
      | none => exact .piece (lexes_identifier own)
      | some t =>
        have qualifier : Identifier t := identified.name List.mem_cons_self (by simp [Piece.names])
        exact .piece (lexes_qualified qualifier own)
    | literal v => exact .piece (lexes_literal v)
    | slot value => exact .piece (lexes_of_fits (s := ['?']) (by decide))
    | _ => cases atom
  | raw => exact .piece (Lexes.fragment _).unleave
  | @allOf table =>
    have own : Identifier table := identified.name List.mem_cons_self List.mem_cons_self
    have star : Lexes true (glyphs ['*']) [.symbol ['*']] false := lexes_of_fits (by decide)
    have all := lexes_point own star
    rw [glyphs_append] at all
    rw [Pieces.tokens_cons, Piece.tokens_identifier own]
    exact all
  | @operator op => exact .piece (lexes_operator op)
  | negation => exact .piece (lexes_of_fits (by decide))
  | @nullTest negated => cases negated <;> exact .piece (lexes_of_fits (by decide))
  | @collation name =>
    exact .piece (lexes_collation (identified.name List.mem_cons_self List.mem_cons_self))
  | comma => exact .piece (lexes_of_fits (by decide))
  | @parenthesized fresh ps leaves _ ih =>
    have left : Lexes fresh (glyphs ['(']) _ true := lexes_paren _ _ (.inl rfl)
    have right : Lexes leaves (glyphs [')']) _ false := lexes_paren _ _ (.inr rfl)
    have split : ps.parenthesized.glyphs = glyphs ['('] ++ (ps.glyphs ++ glyphs [')']) := by
      rw [← List.append_nil (glyphs [')'])]
      exact congrArg (glyphs ['('] ++ ·) (Pieces.glyphs_append ps [.rightParen])
    rw [split, Pieces.tokens_parenthesized]
    exact left.append ((ih identified.inside).append right)

/-! ### Parentheses -/

/-- Any token but a parenthesis. -/
def Token.isPlain (token : Token) : Bool := token != .symbol ['('] && token != .symbol [')']

namespace Reader

/-- Parentheses belong together: whoever looks for one that closes goes past all of them. -/
def Balanced (ts : List Token) : Prop :=
  ∀ depth rest, closing depth (ts ++ rest) =
    (closing depth rest).map fun found => (ts ++ found.1, found.2)

namespace Balanced
variable {ts us : List Token}

theorem nil : Balanced [] := by
  intro depth rest
  simp

theorem append (h : Balanced ts) (h' : Balanced us) : Balanced (ts ++ us) := by
  intro depth rest
  rw [List.append_assoc, h, h', Option.map_map]
  congr 1
  funext found
  simp

theorem of_plain (h : ∀ token ∈ ts, token.isPlain = true) : Balanced ts := by
  induction ts with
  | nil => exact nil
  | cons token ts ih =>
    have plain := h token List.mem_cons_self
    simp only [Token.isPlain, Bool.and_eq_true, bne_iff_ne] at plain
    intro depth rest
    rw [List.cons_append, closing, if_neg plain.2, if_neg plain.1,
      ih fun other hother => h other (List.mem_cons_of_mem token hother), Option.map_map]
    rfl

theorem parenthesized (h : Balanced ts) : Balanced (.symbol ['('] :: (ts ++ [.symbol [')']])) := by
  intro depth rest
  have opens : Token.symbol ['('] ≠ .symbol [')'] := by decide
  have closes : closing (depth + 1) (.symbol [')'] :: rest) =
      (closing depth rest).map fun found => (.symbol [')'] :: found.1, found.2) := by
    rw [closing, if_pos rfl, if_neg (by omega), Nat.add_sub_cancel]
  rw [List.cons_append, closing, if_neg opens, if_pos rfl, List.append_assoc, h,
    List.singleton_append, closes, Option.map_map, Option.map_map]
  congr 1
  funext found
  simp

end Balanced

end Reader

theorem Identifier.isPlain {name : String} (h : Identifier name) :
    (nameToken name).isPlain = true := by
  have isIdentifier := (identifier_iff.mp h).2
  cases token : nameToken name with
  | symbol s => simp [token, Token.isIdentifier] at isIdentifier
  | _ => rfl

theorem Piece.plain {p : Piece} (atom : p.isAtom = true) (identified : Pieces.Identified [p]) :
    ∀ token ∈ p.tokens, token.isPlain = true := by
  have named : ∀ name ∈ p.names, Identifier name := fun name mem =>
    identified.name List.mem_cons_self mem
  cases p with
  | identifier name =>
    have own := named name List.mem_cons_self
    simpa [tokens_identifier own] using own.isPlain
  | table name =>
    have own := named name List.mem_cons_self
    simpa [tokens_table own] using own.isPlain
  | column t name =>
    have own := named name (by simp [names])
    cases t with
    | none => simpa [tokens_column own] using own.isPlain
    | some t =>
      have qualifier := named t (by simp [names])
      have point : (Token.symbol ['.']).isPlain = true := rfl
      simp [tokens_qualified qualifier own, own.isPlain, qualifier.isPlain, point]
  | literal v =>
    obtain ⟨s, -, h⟩ | ⟨-, h⟩ | ⟨s, -, h⟩ | ⟨s, -, h⟩ := v.tree_cases <;> 
    simp [h, Token.isPlain]
  | slot value => exact (by decide : ∀ token ∈ lex (SqlSelect.glyphs ['?']), token.isPlain = true)
  | _ => cases atom

/-- No keyword holds a parenthesis. -/
theorem plain_word {fresh leaves : Bool} {text : String}
    (h : (fresh, text, leaves) ∈ statementWords) :
    ∀ token ∈ (Piece.keyword text).tokens, token.isPlain = true := by
  have each : ∀ entry ∈ statementWords,
      (lex (glyphs entry.2.1.toList)).all Token.isPlain = true := by decide
  have plain := each (fresh, text, leaves) h
  exact List.all_eq_true.mp plain

/-- Every parenthesis that a phrase opens is closed in it. -/
theorem Phrase.balanced {fresh leaves : Bool} {ps : Pieces} (h : Phrase fresh ps leaves)
    (identified : ps.Identified) : Reader.Balanced ps.tokens := by
  have piece : ∀ p : Piece, (∀ token ∈ p.tokens, token.isPlain = true) →
      Reader.Balanced (Pieces.tokens [p]) := by
    intro p plain
    rw [Pieces.tokens_cons, Pieces.tokens_nil, List.append_nil]
    exact .of_plain plain
  induction h with
  | nil => exact .nil
  | append _ _ ihp ihq =>
    rw [Pieces.tokens_append]
    exact (ihp identified.append.1).append (ihq identified.append.2)
  | fresh _ ih => exact ih identified
  | leaves _ ih => exact ih identified
  | word mem => exact piece _ (plain_word mem)
  | atom atom => exact piece _ (Piece.plain atom identified)
  | raw =>
    intro depth rest
    rfl
  | @allOf table =>
    have name : Identifier table := identified.name List.mem_cons_self List.mem_cons_self
    have first := piece (.identifier table) (by simpa [Piece.tokens_identifier name] using name.isPlain)
    have star := piece (.keyword ".*") (by decide)
    have both := first.append star
    rw [← Pieces.tokens_append] at both
    exact both
  | @operator op => exact piece _ (by cases op <;> decide)
  | negation => exact piece _ (by decide)
  | @nullTest negated => exact piece _ (by cases negated <;> decide)
  | @collation name =>
    have own : Identifier name := identified.name List.mem_cons_self List.mem_cons_self
    have word : (Token.keyword .collate).isPlain = true := rfl
    exact piece _ (by simp [Piece.tokens_collation own, own.isPlain, word])
  | comma => exact piece _ (by decide)
  | parenthesized _ ih =>
    rw [Pieces.tokens_parenthesized]
    exact (ih identified.inside).parenthesized

end SqlSelect

import SqlSelect.Proofs.Lexing
import SqlSelect.Proofs.Scan

/-! Texts without comments.

A comment opens where two characters that stand next to each other outside of quotes say so; this
is seen without lexing. A text is `Clean` when it holds no comment and is closed. The lexer ends a
clean text in a calm mode (`after_clean`), so that what follows it is not drawn into it. -/
namespace SqlSelect.Lexer

def opensComment (c d : Char) : Bool := (c == '-' && d == '-') || (c == '/' && d == '*')

/-- Whether no comment opens in a text that is met inside of these quotes, or outside of any. -/
def commentFree (quote : Marker.Quote) : List Char → Bool
  | c :: d :: rest =>
    !(quote.isNone && opensComment c d) && commentFree (Marker.next quote c) (d :: rest)
  | _ => true

/-- A closed text that holds no comment. -/
structure Clean (s : List Char) : Prop where
  closed : Marker.Closed s
  free : commentFree none s = true

instance (s : List Char) : Decidable (Clean s) :=
  decidable_of_iff (Marker.Closed s ∧ commentFree none s = true)
    ⟨fun h => ⟨h.1, h.2⟩, fun h => ⟨h.closed, h.free⟩⟩

namespace Mode

/-- The quotes that the mode is inside of. -/
def quote : Mode → Marker.Quote
  | inside d _ => some d.char
  | _ => none

/-- Outside of comments. -/
def isRegular : Mode → Bool
  | lineComment _ | blockComment _ | blockEnd _ => false
  | _ => true

/-- Whether the character makes a comment of what is being read. -/
def opensComment : Mode → Char → Bool
  | symbol [c], d => Lexer.opensComment c d
  | signed _ sign, d => Lexer.opensComment sign d
  | _, _ => false

theorem isCalm_of_regular {m : Mode} (regular : m.isRegular = true) (outside : m.quote = none) :
    m.isCalm = true := by
  cases m with
  | inside d s => simp [quote] at outside
  | _ => first | rfl | cases regular

/-- How the mode behind a character agrees with the scan for quotes and comments. -/
structure Agrees (quote : Marker.Quote) (c : Char) (m : Mode) : Prop where
  regular : m.isRegular = true
  place : m.quote = Marker.next quote c
  comment : ∀ d, m.opensComment d = true → quote = none ∧ Lexer.opensComment c d = true

variable {c : Char}

/-- A character that is no quote leaves the scan outside of quotes. -/
theorem agrees_of_plain {m : Mode} (notQuote : Marker.isQuote c = false) (regular : m.isRegular = true)
    (outside : m.quote = none)
    (comment : ∀ d, m.opensComment d = true → Lexer.opensComment c d = true) : Agrees none c m :=
  ⟨regular, by simp [outside, Marker.next, notQuote], fun d hd => ⟨rfl, comment d hd⟩⟩

theorem not_isQuote_of_word (h : isWordChar c = true) : Marker.isQuote c = false := by
  refine Bool.eq_false_iff.mpr fun quote => ?_
  simp only [Marker.isQuote, Bool.or_eq_true, beq_iff_eq] at quote
  rcases quote with rfl | rfl <;> exact absurd h (by decide)

theorem agrees_opened (c : Char) : Agrees none c (opened c) := by
  by_cases quote : Marker.isQuote c = true
  · simp only [Marker.isQuote, Bool.or_eq_true, beq_iff_eq] at quote
    rcases quote with rfl | rfl
    · refine ⟨rfl, rfl, fun d hd => ?_⟩
      cases hd
    · refine ⟨rfl, rfl, fun d hd => ?_⟩
      cases hd
  · have plain : Marker.isQuote c = false := Bool.eq_false_iff.mpr quote
    obtain ⟨single, double⟩ : c ≠ '\'' ∧ c ≠ '"' := by simpa [Marker.isQuote] using plain
    unfold opened
    rw [if_neg single, if_neg double]
    split
    · exact agrees_of_plain plain rfl rfl (by simp [opensComment])
    · split
      · exact agrees_of_plain plain rfl rfl (by simp [opensComment])
      · split
        · exact agrees_of_plain plain rfl rfl (by simp [opensComment])
        · exact agrees_of_plain plain rfl rfl fun d hd => hd

theorem agrees_symbol {s : List Char} (h : (symbol s).opensComment c = false) :
    Agrees none c ((symbol s).next c) := by
  have notLine : ¬ (s = ['-'] ∧ c = '-') := by
    rintro ⟨rfl, rfl⟩
    cases h
  have notBlock : ¬ (s = ['/'] ∧ c = '*') := by
    rintro ⟨rfl, rfl⟩
    cases h
  show Agrees none c (((symbol s).more? c).getD (opened c))
  rw [more?, if_neg notLine, if_neg notBlock]
  by_cases long : s ++ [c] ∈ longSymbols
  · rw [if_pos long]
    have each : ∀ s ∈ longSymbols, s.all (fun c => !Marker.isQuote c) = true ∧ 2 ≤ s.length := by
      decide
    obtain ⟨plain, length⟩ := each _ long
    have notQuote : Marker.isQuote c = false := by
      simpa using List.all_eq_true.mp plain c (by simp)
    refine agrees_of_plain notQuote rfl rfl fun d hd => ?_
    obtain ⟨first, s, rfl⟩ : ∃ first rest, s = first :: rest := by
      cases s with
      | nil => simp at length
      | cons first rest => exact ⟨first, rest, rfl⟩
    cases s <;> cases hd
  · rw [if_neg long]
    exact agrees_opened c

/-- One character outside of comments. -/
theorem agrees_next {m : Mode} (regular : m.isRegular = true) (h : m.opensComment c = false) :
    Agrees m.quote c (m.next c) := by
  cases m with
  | idle => exact agrees_opened c
  | word s =>
    unfold next
    by_cases word : isWordChar c = true
    · simp only [settle, more?, word, if_true]
      exact agrees_of_plain (not_isQuote_of_word word) rfl rfl (by simp [opensComment])
    · simp only [settle, more?, word]
      exact agrees_opened c
  | number s =>
    unfold next
    simp only [settle, more?]
    split
    · rename_i goes
      simp only [Bool.or_eq_true, beq_iff_eq] at goes
      refine agrees_of_plain ?_ rfl rfl (by simp [opensComment])
      rcases goes with word | rfl
      · exact not_isQuote_of_word word
      · decide
    · split
      · rename_i sign
        simp only [Bool.and_eq_true, Bool.or_eq_true, beq_iff_eq] at sign
        refine agrees_of_plain ?_ rfl rfl fun d hd => hd
        rcases sign.1 with rfl | rfl <;> decide
      · exact agrees_opened c
  | signed s sign =>
    by_cases digit : c.isDigit = true
    · have next : (signed s sign).next c = number (s ++ [sign, c]) := by
        simp [Mode.next, settle, more?, digit]
      rw [next]
      exact agrees_of_plain (not_isQuote_of_word (isWordChar_of_isDigit digit)) rfl rfl
        (by simp [opensComment])
    · have next : (signed s sign).next c = (symbol [sign]).next c := by
        simp [Mode.next, settle, digit]
      rw [next]
      exact agrees_symbol h
  | symbol s => exact agrees_symbol h
  | inside d s =>
    unfold next
    by_cases ends : c = d.char
    · simp only [settle, more?, ends, if_true]
      exact ⟨rfl, by simp [quote, Marker.next], by simp [opensComment]⟩
    · simp only [settle, more?, ends, if_false]
      exact ⟨rfl, by simp [quote, Marker.next, ends], by simp [opensComment]⟩
  | closing d s =>
    unfold next
    by_cases again : c = d.char
    · simp only [settle, more?, again, if_true]
      cases d <;> exact ⟨rfl, rfl, by simp [opensComment]⟩
    · simp only [settle, more?, again, if_false]
      exact agrees_opened c
  | _ => cases regular

/-- A text without comments, read where its first character opens none. -/
theorem after_commentFree {m : Mode} {s : List Char} (regular : m.isRegular = true)
    (free : commentFree m.quote s = true) (first : ∀ c, s.head? = some c → m.opensComment c = false) :
    (m.after (glyphs s)).isRegular = true ∧ (m.after (glyphs s)).quote = Marker.after m.quote s := by
  induction s generalizing m with
  | nil => exact ⟨regular, rfl⟩
  | cons c s ih =>
    have agrees := agrees_next regular (first c rfl)
    rw [glyphs_cons, Mode.after]
    have rest := ih agrees.regular (by
      cases s with
      | nil => rfl
      | cons d s =>
        simp only [commentFree, Bool.and_eq_true] at free
        rw [agrees.place]
        exact free.2) (by
      intro d hd
      cases s with
      | nil => cases hd
      | cons d' s =>
        cases hd
        refine Bool.eq_false_iff.mpr fun opens => ?_
        obtain ⟨outside, comment⟩ := agrees.comment d opens
        simp [commentFree, outside, comment] at free)
    rw [agrees.place] at rest
    exact rest

end Mode

theorem Mode.regular_of_calm {m : Mode} (calm : m.isCalm = true) :
    m.isRegular = true ∧ m.quote = none := by
  cases m <;> first | exact ⟨rfl, rfl⟩ | cases calm

/-- The lexer ends a clean text in a calm mode. -/
theorem after_clean {m : Mode} {s : List Char} (clean : Clean s) (calm : m.isCalm = true)
    (first : ∀ c, m.opensComment c = false) : (m.after (glyphs s)).isCalm = true := by
  obtain ⟨regular, outside⟩ := Mode.regular_of_calm calm
  have free : commentFree m.quote s = true := by
    rw [outside]
    exact clean.free
  obtain ⟨regular, place⟩ := Mode.after_commentFree regular free fun c _ => first c
  rw [outside] at place
  exact Mode.isCalm_of_regular regular (place.trans clean.closed)

theorem lexes_clean {s : List Char} (clean : Clean s) : Lexes true (glyphs s) (lex (glyphs s)) false :=
  .of_idle (after_clean clean rfl fun _ => rfl) (by simp)

/-- Behind a point nothing becomes a comment that is none on its own. -/
theorem after_clean_point {s t : List Char} (hs : Clean s) (ht : Clean t) :
    (Mode.idle.after (glyphs (s ++ '.' :: t))).isCalm = true := by
  have calm : (Mode.idle.after (glyphs s)).isCalm = true := after_clean hs rfl fun _ => rfl
  have split : Mode.idle.after (glyphs (s ++ '.' :: t)) =
      ((Mode.idle.after (glyphs s)).next '.').after (glyphs t) := by
    rw [glyphs_append, Mode.after_append]
    rfl
  rw [split]
  generalize Mode.idle.after (glyphs s) = m at calm ⊢
  obtain ⟨regular, outside⟩ := Mode.regular_of_calm calm
  have noComment : m.opensComment '.' = false := by
    unfold Mode.opensComment
    split <;> simp [opensComment]
  have agrees := Mode.agrees_next regular noComment
  rw [outside] at agrees
  refine after_clean ht (Mode.isCalm_of_regular agrees.regular agrees.place) fun d => ?_
  refine Bool.eq_false_iff.mpr fun opens => ?_
  obtain ⟨-, comment⟩ := agrees.comment d opens
  cases comment

end SqlSelect.Lexer

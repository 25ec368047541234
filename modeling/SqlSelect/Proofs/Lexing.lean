import SqlSelect.Proofs.Lexer
import SqlSelect.Proofs.Numeral
import SqlSelect.Proofs.Phrase

/-! How the parts of a statement are lexed.

The words of statements and the operators are told apart wherever they are written
(`lexes_word`, `lexes_operator`). A text literal is one quoted token that holds just its text
(`lexes_quoted`), and a numeral is one number (`lexes_signed`). -/
namespace SqlSelect.Lexer

theorem glyphs_append (s t : List Char) : glyphs (s ++ t) = glyphs s ++ glyphs t := List.map_append

theorem glyphs_cons (c : Char) (s : List Char) : glyphs (c :: s) = .char c :: glyphs s := rfl

/-! ### Words -/

/-- Whether a text that needs a fresh place, or not, is told from what stands before it, and whether
it leaves a fresh place if it should. -/
def fits (fresh : Bool) (s : List Char) (leaves : Bool) : Bool :=
  (fresh || s.head?.any isSeparator) && (Mode.idle.after (glyphs s)).isCalm &&
    (!leaves || Mode.idle.after (glyphs s) == .idle)

theorem lexes_of_fits {fresh leaves : Bool} {s : List Char} (h : fits fresh s leaves = true) :
    Lexes fresh (glyphs s) (lex (glyphs s)) leaves := by
  simp only [fits, Bool.and_eq_true, Bool.or_eq_true, Bool.not_eq_true', beq_iff_eq] at h
  obtain ⟨⟨place, calm⟩, idle⟩ := h
  have begun : Lexes true (glyphs s) (lex (glyphs s)) leaves := by
    refine .of_idle calm fun wanted => ?_
    rcases idle with unwanted | idle
    · rw [unwanted] at wanted
      cases wanted
    · exact idle
  cases fresh with
  | true => exact begun
  | false =>
    cases s with
    | nil => simp at place
    | cons c s =>
      have sep : isSeparator c = true := by simpa using place
      exact .of_separator sep begun

theorem lexes_word {fresh leaves : Bool} {text : String} (h : (fresh, text, leaves) ∈ statementWords) :
    Lexes fresh (glyphs text.toList) (lex (glyphs text.toList)) leaves := by
  have each : ∀ entry ∈ statementWords, fits entry.1 entry.2.1.toList entry.2.2 = true := by decide
  exact lexes_of_fits (each _ h)

theorem lexes_operator (op : BinaryOp) :
    Lexes false (glyphs (Piece.operator op).chars) (lex (glyphs (Piece.operator op).chars)) true := by
  cases op <;> exact lexes_of_fits (by decide)

/-! ### Text literals -/

theorem inside_doubleQuotes (before s : List Char) :
    (Mode.inside .single before).after (glyphs (Text.doubleQuotes s)) = .inside .single (before ++ s) ∧
      (Mode.inside .single before).out (glyphs (Text.doubleQuotes s)) = [] := by
  induction s generalizing before with
  | nil => simp [Text.doubleQuotes, glyphs, Mode.after, Mode.out]
  | cons c s ih =>
    obtain ⟨after, out⟩ := ih (before ++ [c])
    rw [List.append_assoc, List.singleton_append] at after
    by_cases quote : c = '\''
    · rw [Text.doubleQuotes, if_pos quote, quote]
      rw [quote] at after out
      exact ⟨after, out⟩
    · rw [Text.doubleQuotes, if_neg quote]
      have next : (Mode.inside .single before).next c = .inside .single (before ++ [c]) := by
        simp [Mode.next, Mode.settle, Mode.more?, Delimiter.char, quote]
      have completed : (Mode.inside .single before).completed c = [] := by
        simp [Mode.completed, Mode.settle, Mode.more?, Delimiter.char, quote]
      rw [glyphs_cons, Mode.after, Mode.out, next, completed, List.nil_append]
      exact ⟨after, out⟩

/-- A text literal is one token, which holds the text and nothing else. -/
theorem lexes_quoted (s : String) :
    Lexes true (glyphs (Text.quoted s)) [.quoted .single s.toList] false := by
  obtain ⟨inside, nothing⟩ := inside_doubleQuotes [] s.toList
  have text : glyphs (Text.quoted s) =
      .char '\'' :: (glyphs (Text.doubleQuotes s.toList) ++ [.char '\'']) := by
    simp [Text.quoted, glyphs]
  have opening : Mode.idle.next '\'' = .inside .single [] := rfl
  have after : Mode.idle.after (glyphs (Text.quoted s)) = .closing .single s.toList := by
    rw [text, Mode.after, Mode.after_append, opening, inside]
    rfl
  have out : Mode.idle.out (glyphs (Text.quoted s)) = [] := by
    rw [text, Mode.out, Mode.out_append, opening, inside, nothing]
    rfl
  have tokens : lex (glyphs (Text.quoted s)) = [.quoted .single s.toList] := by
    rw [lex, out, after]
    rfl
  rw [← tokens]
  refine .of_idle ?_ (by simp)
  rw [after]
  rfl

/-! ### Numbers -/

theorem isWordChar_of_isDigit {c : Char} (h : c.isDigit = true) : isWordChar c = true := by
  simp [isWordChar, h]

/-- Characters that go on with a number, whatever its digits so far. -/
theorem number_goes_on {s rest : List Char} (h : ∀ c ∈ rest, c.isDigit = true ∨ c = '.') :
    (Mode.number s).after (glyphs rest) = .number (s ++ rest) ∧
      (Mode.number s).out (glyphs rest) = [] := by
  induction rest generalizing s with
  | nil => simp [glyphs, Mode.after, Mode.out]
  | cons c rest ih =>
    have goes : (isWordChar c || c == '.') = true := by
      rcases h c List.mem_cons_self with digit | rfl
      · simp [isWordChar_of_isDigit digit]
      · decide
    have next : (Mode.number s).next c = .number (s ++ [c]) := by
      simp [Mode.next, Mode.settle, Mode.more?, goes]
    have completed : (Mode.number s).completed c = [] := by
      simp [Mode.completed, Mode.settle, Mode.more?, goes]
    obtain ⟨after, out⟩ := ih (s := s ++ [c]) fun d hd => h d (List.mem_cons_of_mem c hd)
    rw [glyphs_cons, Mode.after, Mode.out, next, completed, after, out]
    simp

theorem exponent_goes_on {s tail : List Char} (h : Decimal.Exponent tail)
    (decimal : isHex (s ++ ['e']) = false) :
    (Mode.number s).after (glyphs tail) = .number (s ++ tail) ∧
      (Mode.number s).out (glyphs tail) = [] := by
  have next : (Mode.number s).next 'e' = .number (s ++ ['e']) := rfl
  have completed : (Mode.number s).completed 'e' = [] := rfl
  cases h with
  | none => simp [glyphs, Mode.after, Mode.out]
  | digits each =>
    obtain ⟨after, out⟩ := number_goes_on (s := s ++ ['e']) fun c hc => .inl (each c hc)
    rw [glyphs_cons, Mode.after, Mode.out, next, completed, after, out]
    simp
  | @signed sign digits isSign nonempty each =>
    obtain ⟨d, digits, rfl⟩ := List.exists_cons_of_ne_nil nonempty
    have digit : d.isDigit = true := each d List.mem_cons_self
    have wants : wantsSign (s ++ ['e']) = true := by simp [wantsSign, decimal]
    have toSigned : (Mode.number (s ++ ['e'])).next sign = .signed (s ++ ['e']) sign ∧
        (Mode.number (s ++ ['e'])).completed sign = [] := by
      rcases isSign with rfl | rfl <;>
        simp [Mode.next, Mode.completed, Mode.settle, Mode.more?, wants, isWordChar, isWordStart]
    have toNumber : (Mode.signed (s ++ ['e']) sign).next d = .number (s ++ ['e'] ++ [sign, d]) ∧
        (Mode.signed (s ++ ['e']) sign).completed d = [] := by
      simp [Mode.next, Mode.completed, Mode.settle, Mode.more?, digit]
    obtain ⟨after, out⟩ := number_goes_on (s := s ++ ['e'] ++ [sign, d]) fun c hc =>
      .inl (each c (List.mem_cons_of_mem d hc))
    simp only [glyphs_cons, Mode.after, Mode.out, next, completed, toSigned.1, toSigned.2,
      toNumber.1, toNumber.2, after, out]
    simp

theorem opened_of_isDigit {c : Char} (h : c.isDigit = true) : Mode.opened c = .number [c] := by
  have notSeparator : isSeparator c = false := by
    refine Bool.eq_false_iff.mpr fun separator => ?_
    obtain ⟨-, notDigit, -⟩ := isSeparator_ends separator
    rw [h] at notDigit
    cases notDigit
  have notSingle : c ≠ '\'' := by
    rintro rfl
    exact absurd h (by decide)
  have notDouble : c ≠ '"' := by
    rintro rfl
    exact absurd h (by decide)
  have bounds : 48 ≤ c.toNat ∧ c.toNat ≤ 57 := by
    simpa [Char.isDigit, UInt32.le_iff_toNat_le] using h
  have notLetter : isWordStart c = false := by
    have notUnderscore : c ≠ '_' := by
      rintro rfl
      exact absurd h (by decide)
    have alpha : c.isAlpha = false := by
      delta Char.isAlpha Char.isUpper Char.isLower
      simp only [UInt32.le_iff_toNat_le, ge_iff_le, Bool.or_eq_false_iff, Bool.and_eq_false_iff,
        decide_eq_false_iff_not, Nat.not_le]
      simp
      omega
    simp [isWordStart, alpha, notUnderscore]
    omega
  unfold Mode.opened
  simp [notSeparator, notSingle, notDouble, notLetter, h]

/-- A numeral is one number. -/
theorem after_numeral {s : List Char} (h : Decimal.Numeral s) :
    Mode.idle.after (glyphs s) = .number s ∧ Mode.idle.out (glyphs s) = [] := by
  obtain ⟨d, body, tail, rfl, digit, plain, exponent⟩ := h
  have begun : Mode.idle.next d = .number [d] := opened_of_isDigit digit
  have nothing : Mode.idle.completed d = [] := by
    have notPunctuation : isPunctuation d = false := by
      refine Bool.eq_false_iff.mpr fun punctuation => ?_
      have separator : isSeparator d = true := by simp [isSeparator, punctuation]
      obtain ⟨-, notDigit, -⟩ := isSeparator_ends separator
      rw [digit] at notDigit
      cases notDigit
    simp [Mode.completed, Mode.settle, Mode.more?, Mode.flush, notPunctuation]
  have decimal : isHex ([d] ++ body ++ ['e']) = false := by
    have second : ∀ c ∈ body ++ ['e'], c ≠ 'x' ∧ c ≠ 'X' := by
      intro c hc
      rcases List.mem_append.mp hc with hc | hc
      · rcases plain c hc with digit | rfl
        · constructor <;> rintro rfl <;> exact absurd digit (by decide)
        · decide
      · rw [List.mem_singleton.mp hc]
        decide
    obtain ⟨c, rest, text⟩ : ∃ c rest, body ++ ['e'] = c :: rest :=
      List.exists_cons_of_ne_nil (by simp)
    have other := second c (by simp [text])
    rw [List.append_assoc, text]
    simp [isHex, other.1, other.2]
  obtain ⟨afterBody, outBody⟩ := number_goes_on (s := [d]) plain
  obtain ⟨afterTail, outTail⟩ := exponent_goes_on exponent decimal
  rw [glyphs_cons, Mode.after, Mode.out, begun, nothing, glyphs_append, Mode.after_append,
    Mode.out_append, afterBody, outBody, afterTail, outTail]
  simp

/-- The tokens of a number, whose sign is a symbol of its own. -/
def numberTokens : List Char → List Token
  | '-' :: s => [.symbol ['-'], .number s]
  | s => [.number s]

theorem numberTokens_numeral {s : List Char} (h : Decimal.Numeral s) : numberTokens s = [.number s] := by
  obtain ⟨d, body, tail, rfl, digit, -⟩ := h
  have unsigned : d ≠ '-' := by
    rintro rfl
    exact absurd digit (by decide)
  simp [numberTokens, unsigned]

theorem lexes_signed {s : List Char} (h : Decimal.Signed s) :
    Lexes true (glyphs s) (numberTokens s) false := by
  rcases h with numeral | ⟨t, rfl, numeral⟩
  · obtain ⟨after, out⟩ := after_numeral numeral
    have tokens : lex (glyphs s) = numberTokens s := by
      rw [lex, after, out, numberTokens_numeral numeral]
      rfl
    rw [← tokens]
    refine .of_idle ?_ (by simp)
    rw [after]
    rfl
  · obtain ⟨after, out⟩ := after_numeral numeral
    have minus : (Mode.symbol ['-']).after (glyphs t) = .number t ∧
        (Mode.symbol ['-']).out (glyphs t) = [.symbol ['-']] := by
      obtain ⟨d, body, tail, rfl, digit, -⟩ := numeral
      have unsigned : d ≠ '-' := by
        rintro rfl
        exact absurd digit (by decide)
      have short : ['-', d] ∉ longSymbols := by
        intro mem
        have long : ∀ s ∈ longSymbols, s.all (fun c => !c.isDigit) = true := by decide
        simpa [digit] using List.all_eq_true.mp (long _ mem) d (by simp)
      have ends : (Mode.symbol ['-']).Ends d :=
        Mode.ends_of_more? rfl (by simp [Mode.more?, unsigned, short])
      obtain ⟨same, more⟩ := ends.after (glyphs (body ++ tail))
      rw [glyphs_cons] at after out ⊢
      rw [same, more, after, out]
      exact ⟨rfl, rfl⟩
    have tokens : lex (glyphs ('-' :: t)) = numberTokens ('-' :: t) := by
      have opening : Mode.idle.next '-' = .symbol ['-'] := rfl
      rw [lex, glyphs_cons, Mode.after, Mode.out, opening, minus.1, minus.2]
      rfl
    rw [← tokens]
    refine .of_idle ?_ (by simp)
    have opening : Mode.idle.next '-' = .symbol ['-'] := rfl
    rw [glyphs_cons, Mode.after, opening, minus.1]
    rfl

/-- Every literal is read in full, and nothing behind it. -/
theorem lexes_literal (v : Value) : Lexes true (glyphs v.chars) (lex (glyphs v.chars)) false := by
  rcases v.chars_cases with ⟨s, rfl⟩ | null | signed
  · exact (lexes_quoted s).self
  · rw [null]
    exact lexes_of_fits (by decide)
  · exact (lexes_signed signed).self

/-! ### Parentheses -/

theorem lexes_paren (fresh leaves : Bool) {c : Char} (h : c = '(' ∨ c = ')') :
    Lexes fresh (glyphs [c]) [.symbol [c]] leaves := by
  have paren : lex (glyphs [c]) = [.symbol [c]] := by
    rcases h with rfl | rfl <;> decide
  rw [← paren]
  refine lexes_of_fits ?_
  rcases h with rfl | rfl <;> cases fresh <;> cases leaves <;> decide

end SqlSelect.Lexer

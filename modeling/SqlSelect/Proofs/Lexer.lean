import SqlSelect.Marker

/-! A lexer for SQL.

The lexer goes through a text character by character. Its `Mode` holds the token that is being
read; a character either goes on with it (`Mode.more?`) or ends it and begins the next. Text between
quotes is one token, in which a doubled quote stands for one quote. A fragment whose inside is of no
concern can stand in a text as a single glyph, and is a token of its own.

A mode is calm outside of quotes and comments. Separators end whatever is read in a calm mode, so
texts that follow each other without running into one another are read one by one: `Lexes` says so
of a text and its tokens, for every calm mode it may be met in, and `Lexes.append` puts texts
together. -/
namespace SqlSelect

/-- What a text is made of: characters, and fragments that are not looked into. -/
inductive Glyph where
  | char (c : Char)
  | fragment (s : List Char)
deriving DecidableEq, Repr

def glyphs (s : List Char) : List Glyph := s.map Glyph.char

/-- The words that are no identifiers: those of expressions, and those of the clauses around them. -/
inductive Keyword where
  | select
  | null
  | not
  | and
  | or
  | is
  | isIn
  | like
  | glob
  | collate
  | clause (word : String)
deriving DecidableEq, Repr

/-- The characters that quoted text stands between. -/
inductive Delimiter where
  | single
  | double
deriving DecidableEq, Repr

def Delimiter.char : Delimiter → Char
  | single => '\''
  | double => '"'

inductive Token where
  | word (s : List Char)
  | keyword (k : Keyword)
  | number (s : List Char)
  /-- The text between quotes, where a doubled quote has become one. -/
  | quoted (d : Delimiter) (s : List Char)
  /-- Quoted text that never ends. -/
  | unclosed (d : Delimiter) (s : List Char)
  | symbol (s : List Char)
  | comment (s : List Char)
  | fragment (s : List Char)
deriving DecidableEq, Repr

namespace Lexer

/-- The keywords by their capital letters. -/
def keywords : List (List Char × Keyword) :=
  [("SELECT", Keyword.select), ("NULL", .null), ("NOT", .not), ("AND", .and), ("OR", .or),
    ("IS", .is), ("IN", .isIn), ("LIKE", .like), ("GLOB", .glob), ("COLLATE", .collate)].map
      (fun entry => (entry.1.toList, entry.2)) ++
    ["DISTINCT", "AS", "FROM", "JOIN", "LEFT", "CROSS", "NATURAL", "ON", "USING", "WHERE", "GROUP",
      "BY", "HAVING", "UNION", "ALL", "INTERSECT", "EXCEPT", "ORDER", "ASC", "DESC", "LIMIT",
      "OFFSET"].map fun word => (word.toList, .clause word)

/-- A word is a keyword in letters of either case. -/
def wordToken (s : List Char) : Token :=
  match keywords.lookup (s.map Char.toUpper) with
  | some k => .keyword k
  | none => .word s

def isSpace (c : Char) : Bool := c == ' ' || c == '\t' || c == '\n' || c == '\r' || c == '\x0c'

/-- The characters that are tokens wherever they stand outside of quotes. -/
def isPunctuation (c : Char) : Bool := c == '(' || c == ')' || c == ','

def isSeparator (c : Char) : Bool := isSpace c || isPunctuation c

def isWordStart (c : Char) : Bool := c.isAlpha || c == '_' || 128 ≤ c.toNat

def isWordChar (c : Char) : Bool := isWordStart c || c.isDigit || c == '$'

/-- The symbols of more than one character. -/
def longSymbols : List (List Char) :=
  ["==", "!=", "<>", "<=", "<<", ">=", ">>", "||", "->", "->>"].map String.toList

def isHex (s : List Char) : Bool := s.take 2 == ['0', 'x'] || s.take 2 == ['0', 'X']

/-- Whether a sign may go on with a number, as it does in `1e-5`. -/
def wantsSign (s : List Char) : Bool := (s.getLast? == some 'e' || s.getLast? == some 'E') && !isHex s

/-! ### Modes -/

/-- The token that is being read. -/
inductive Mode where
  | idle
  | word (s : List Char)
  | number (s : List Char)
  /-- A number with an exponent that has a sign but no digit yet. -/
  | signed (s : List Char) (sign : Char)
  | symbol (s : List Char)
  | inside (d : Delimiter) (s : List Char)
  /-- Behind a quote, which ends the quoted text unless there is another one. -/
  | closing (d : Delimiter) (s : List Char)
  | lineComment (s : List Char)
  | blockComment (s : List Char)
  | blockEnd (s : List Char)
deriving DecidableEq, Repr

namespace Mode

/-- The tokens that are there when nothing more comes. -/
def flush : Mode → List Token
  | idle => []
  | word s => [wordToken s]
  | number s => [.number s]
  | signed s sign => [.number s, .symbol [sign]]
  | symbol s => [.symbol s]
  | inside d s => [.unclosed d s]
  | closing d s => [.quoted d s]
  | lineComment s => [.comment s]
  | blockComment s => [.comment s]
  | blockEnd s => [.comment s]

/-- A sign without a digit behind it does not belong to the number. -/
def settle : Mode → Char → List Token × Mode
  | signed s sign, c => if c.isDigit then ([], signed s sign) else ([.number s], symbol [sign])
  | m, _ => ([], m)

/-- The mode in which a character goes on with what is being read, if it does. -/
def more? : Mode → Char → Option Mode
  | idle, _ => none
  | word s, c => if isWordChar c then some (word (s ++ [c])) else none
  | number s, c =>
    if isWordChar c || c == '.' then some (number (s ++ [c]))
    else if (c == '+' || c == '-') && wantsSign s then some (signed s c)
    else none
  | signed s sign, c => if c.isDigit then some (number (s ++ [sign, c])) else none
  | symbol s, c =>
    if s = ['-'] ∧ c = '-' then some (lineComment [])
    else if s = ['/'] ∧ c = '*' then some (blockComment [])
    else if s ++ [c] ∈ longSymbols then some (symbol (s ++ [c]))
    else none
  | inside d s, c => if c = d.char then some (closing d s) else some (inside d (s ++ [c]))
  | closing d s, c => if c = d.char then some (inside d (s ++ [c])) else none
  | lineComment s, c => if c = '\n' then none else some (lineComment (s ++ [c]))
  | blockComment s, c =>
    if c = '/' ∧ s.getLast? = some '*' then some (blockEnd s.dropLast)
    else some (blockComment (s ++ [c]))
  | blockEnd _, _ => none

/-- The mode in which a character is read that begins a token. -/
def opened (c : Char) : Mode :=
  if isSeparator c then idle
  else if c = '\'' then inside .single []
  else if c = '"' then inside .double []
  else if isWordStart c then word [c]
  else if c.isDigit then number [c]
  else symbol [c]

/-- The mode behind a character. -/
def next (m : Mode) (c : Char) : Mode := ((m.settle c).2.more? c).getD (opened c)

/-- The tokens that a character completes. -/
def completed (m : Mode) (c : Char) : List Token :=
  (m.settle c).1 ++
    match (m.settle c).2.more? c with
    | some _ => []
    | none => (m.settle c).2.flush ++ if isPunctuation c then [.symbol [c]] else []

/-- The mode behind a text. -/
def after (m : Mode) : List Glyph → Mode
  | [] => m
  | .char c :: rest => (m.next c).after rest
  | .fragment _ :: rest => idle.after rest

/-- The tokens that a text completes. -/
def out (m : Mode) : List Glyph → List Token
  | [] => []
  | .char c :: rest => m.completed c ++ (m.next c).out rest
  | .fragment s :: rest => m.flush ++ .fragment s :: idle.out rest

theorem after_append (m : Mode) (g h : List Glyph) : m.after (g ++ h) = (m.after g).after h := by
  induction g generalizing m with
  | nil => rfl
  | cons glyph g ih => cases glyph <;> exact ih _

theorem out_append (m : Mode) (g h : List Glyph) : m.out (g ++ h) = m.out g ++ (m.after g).out h := by
  induction g generalizing m with
  | nil => rfl
  | cons glyph g ih => cases glyph <;> simp only [List.cons_append, out, after, ih, List.append_assoc]

/-- Outside of quotes and comments. -/
def isCalm : Mode → Bool
  | idle | word _ | number _ | signed .. | symbol _ | closing .. => true
  | _ => false

end Mode

/-- The tokens of a text. -/
def lex (text : List Glyph) : List Token := Mode.idle.out text ++ (Mode.idle.after text).flush

/-! ### Separators -/

theorem not_mem_longSymbols {s : List Char} {c : Char} (h : isSeparator c = true) :
    s ++ [c] ∉ longSymbols := by
  have each : ∀ s ∈ longSymbols, s.all (fun c => !isSeparator c) = true := by decide
  intro mem
  have separate := List.all_eq_true.mp (each _ mem) c (by simp)
  simp [h] at separate

theorem isSeparator_cases {c : Char} (h : isSeparator c = true) :
    c = ' ' ∨ c = '\t' ∨ c = '\n' ∨ c = '\r' ∨ c = '\x0c' ∨ c = '(' ∨ c = ')' ∨ c = ',' := by
  simpa [isSeparator, isSpace, isPunctuation, or_assoc] using h

/-- A separator is none of the characters that go on with a token. -/
theorem isSeparator_ends {c : Char} (h : isSeparator c = true) :
    isWordChar c = false ∧ c.isDigit = false ∧ c ≠ '.' ∧ c ≠ '+' ∧ c ≠ '-' ∧ c ≠ '*' ∧ c ≠ '\'' ∧
      c ≠ '"' := by
  rcases isSeparator_cases h with rfl | rfl | rfl | rfl | rfl | rfl | rfl | rfl <;> decide

namespace Mode
variable {m : Mode} {c : Char}

theorem more?_symbol_separator (s : List Char) (sep : isSeparator c = true) :
    (symbol s).more? c = none := by
  obtain ⟨-, -, -, -, dash, star, -, -⟩ := isSeparator_ends sep
  simp [more?, dash, star, not_mem_longSymbols sep]

/-- The character ends what is being read, and is read as if nothing stood before it. -/
def Ends (m : Mode) (c : Char) : Prop :=
  m.next c = idle.next c ∧ m.completed c = m.flush ++ idle.completed c

theorem ends_of_more? (settled : m.settle c = ([], m)) (h : m.more? c = none) : m.Ends c := by
  have begun : idle.completed c = if isPunctuation c then [.symbol [c]] else [] := by
    simp [completed, settle, more?, flush]
  have opens : idle.next c = opened c := rfl
  constructor
  · rw [opens, next, settled, h]
    rfl
  · rw [begun]
    simp [completed, settled, h]

theorem Ends.after (h : m.Ends c) (rest : List Glyph) :
    m.after (.char c :: rest) = idle.after (.char c :: rest) ∧
      m.out (.char c :: rest) = m.flush ++ idle.out (.char c :: rest) := by
  simp only [Mode.after, Mode.out, h.1, h.2, List.append_assoc, and_self]

/-- A separator ends whatever is read in a calm mode. -/
theorem ends_separator (calm : m.isCalm = true) (sep : isSeparator c = true) : m.Ends c := by
  obtain ⟨word, digit, point, plus, dash, -, single, double⟩ := isSeparator_ends sep
  cases m with
  | idle => exact ends_of_more? rfl rfl
  | word s => exact ends_of_more? rfl (by simp [more?, word])
  | number s => exact ends_of_more? rfl (by simp [more?, word, point, plus, dash])
  | signed s sign =>
    have symbols := more?_symbol_separator [sign] sep
    have begun : (symbol [sign]).Ends c := ends_of_more? rfl symbols
    refine ⟨?_, ?_⟩
    · rw [← begun.1]
      simp [next, settle, digit]
    · have completed : (signed s sign).completed c = .number s :: (symbol [sign]).completed c := by
        simp [Mode.completed, settle, digit]
      rw [completed, begun.2]
      rfl
  | symbol s => exact ends_of_more? rfl (more?_symbol_separator s sep)
  | closing d s =>
    refine ends_of_more? rfl ?_
    cases d <;> simp [more?, single, double, Delimiter.char]
  | _ => cases calm

end Mode

/-! ### Texts that do not run into one another -/

/-- The tokens of a text, wherever the text is met in a calm mode; `fresh` says that this must be
the idle mode, and `leaves` that the text ends in it. -/
def Lexes (fresh : Bool) (text : List Glyph) (tokens : List Token) (leaves : Bool) : Prop :=
  ∀ m : Mode, m.isCalm = true → (fresh = true → m = .idle) →
    (m.after text).isCalm = true ∧ (leaves = true → m.after text = .idle) ∧
      m.out text ++ (m.after text).flush = m.flush ++ tokens

namespace Lexes
variable {fresh between leaves : Bool} {text more : List Glyph} {tokens others : List Token}

theorem nil : Lexes fresh [] [] fresh :=
  fun m calm idle => ⟨calm, idle, by simp [Mode.out, Mode.after]⟩

theorem append (h : Lexes fresh text tokens between) (h' : Lexes between more others leaves) :
    Lexes fresh (text ++ more) (tokens ++ others) leaves := by
  intro m calm idle
  obtain ⟨calm, idle, first⟩ := h m calm idle
  obtain ⟨calm, idle, second⟩ := h' (m.after text) calm idle
  rw [Mode.after_append, Mode.out_append]
  refine ⟨calm, idle, ?_⟩
  rw [List.append_assoc, second, ← List.append_assoc, first, List.append_assoc]

theorem weaken (h : Lexes false text tokens leaves) : Lexes true text tokens leaves :=
  fun m calm _ => h m calm (by simp)

theorem unleave (h : Lexes fresh text tokens true) : Lexes fresh text tokens false := by
  intro m calm idle
  obtain ⟨calm, -, all⟩ := h m calm idle
  exact ⟨calm, by simp, all⟩

/-- What is read from the beginning is read at every fresh place. -/
theorem of_idle (calm : (Mode.idle.after text).isCalm = true)
    (idle : leaves = true → Mode.idle.after text = .idle) : Lexes true text (lex text) leaves := by
  intro m _ fresh
  rw [fresh rfl]
  exact ⟨calm, idle, rfl⟩

/-- A text that begins with a separator may stand behind anything. -/
theorem of_separator {c : Char} (sep : isSeparator c = true)
    (h : Lexes true (.char c :: text) tokens leaves) : Lexes false (.char c :: text) tokens leaves := by
  intro m calm _
  obtain ⟨after, out⟩ := Mode.Ends.after (Mode.ends_separator calm sep) text
  obtain ⟨calm, idle, all⟩ := h .idle rfl fun _ => rfl
  rw [after, out, List.append_assoc, all]
  exact ⟨calm, idle, rfl⟩

theorem fragment (s : List Char) : Lexes fresh [.fragment s] [.fragment s] true := by
  intro m _ _
  exact ⟨rfl, fun _ => rfl, by simp [Mode.out, Mode.after, Mode.flush]⟩

theorem lex_eq (h : Lexes fresh text tokens leaves) : lex text = tokens :=
  (h .idle rfl fun _ => rfl).2.2

theorem self (h : Lexes fresh text tokens leaves) : Lexes fresh text (lex text) leaves := by
  rw [h.lex_eq]
  exact h

end Lexes

end Lexer

end SqlSelect

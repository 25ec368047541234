import SqlSelect.Operator
import SqlSelect.Proofs.Lexer

/-! A reader for expressions.

Expressions are read from tokens by SQLite's operator grammar: operators between two operands group
to the left at the levels of `BinaryOp.level`, `NOT` stands before its operand and `COLLATE` behind
it. `expr min` reads an expression whose outermost operator binds at least as tightly as `min`: an
operand first, and then operators as long as they do (`operators`). A query in parentheses is not
looked into, and a fragment is an operand only in parentheses of its own; it may stand alone too, and
in an argument list (`item`).

What is read is a `Tree`. Trees that differ only in how a chain of one associative operator is grouped
are `Regrouped`, and have one value wherever such an operator is associative (`Regrouped.eval`). -/
namespace SqlSelect
open Lexer

/-- Whether a token names a column, a table, a function or a collation. -/
def Token.isIdentifier : Token → Bool
  | .word _ | .quoted .double _ => true
  | _ => false

/-! ### Trees -/

/-- An expression that was read. -/
inductive Tree where
  | column (table : Option Token) (name : Token)
  | null
  /-- A number as it is written, with its sign. -/
  | number (s : List Char)
  | text (s : List Char)
  | placeholder
  | fragment (s : List Char)
  | not (operand : Tree)
  | binary (op : BinaryOp) (left right : Tree)
  | call (name : Token) (args : List Tree)
  | collate (operand : Tree) (collation : Token)
  | subquery (tokens : List Token)

namespace Tree

/-- The same tree, up to the grouping of chains of one associative operator. -/
inductive Regrouped : Tree → Tree → Prop where
  | refl {t} : Regrouped t t
  | symm {t u} : Regrouped t u → Regrouped u t
  | trans {t u v} : Regrouped t u → Regrouped u v → Regrouped t v
  | regroup {op t u v} : op.isAssociative = true →
      Regrouped (.binary op (.binary op t u) v) (.binary op t (.binary op u v))
  | not {t u} : Regrouped t u → Regrouped (.not t) (.not u)
  | binary {op t u t' u'} : Regrouped t u → Regrouped t' u' →
      Regrouped (.binary op t t') (.binary op u u')
  | call {name before t u others} : Regrouped t u →
      Regrouped (.call name (before ++ t :: others)) (.call name (before ++ u :: others))
  | collate {t u collation} : Regrouped t u → Regrouped (.collate t collation) (.collate u collation)

/-- Values for trees, in which the associative operators are associative. -/
structure Meaning (V : Type) where
  column : Option Token → Token → V
  null : V
  number : List Char → V
  text : List Char → V
  placeholder : V
  fragment : List Char → V
  not : V → V
  binary : BinaryOp → V → V → V
  call : Token → List V → V
  collate : V → Token → V
  subquery : List Token → V
  regroup : ∀ op, op.isAssociative = true → ∀ x y z,
    binary op (binary op x y) z = binary op x (binary op y z)

section Eval
variable {V : Type} (m : Meaning V)

mutual

def eval : Tree → V
  | column table name => m.column table name
  | null => m.null
  | number s => m.number s
  | text s => m.text s
  | placeholder => m.placeholder
  | fragment s => m.fragment s
  | not operand => m.not operand.eval
  | binary op left right => m.binary op left.eval right.eval
  | call name args => m.call name (evalAll args)
  | collate operand collation => m.collate operand.eval collation
  | subquery tokens => m.subquery tokens

def evalAll : List Tree → List V
  | [] => []
  | t :: ts => t.eval :: evalAll ts

end

@[simp] theorem evalAll_eq (ts : List Tree) : evalAll m ts = ts.map (eval m) := by
  induction ts with
  | nil => rfl
  | cons t ts ih => simp [evalAll, ih]

/-- Trees that differ in their grouping only mean the same. -/
theorem Regrouped.eval {t u : Tree} (h : Regrouped t u) : t.eval m = u.eval m := by
  induction h with
  | refl => rfl
  | symm _ ih => exact ih.symm
  | trans _ _ ih ih' => exact ih.trans ih'
  | regroup assoc => exact m.regroup _ assoc _ _ _
  | not _ ih => simp [Tree.eval, ih]
  | binary _ _ ih ih' => simp [Tree.eval, ih, ih']
  | call _ ih => simp [Tree.eval, ih]
  | collate _ ih => simp [Tree.eval, ih]

end Eval

end Tree

/-! ### Reading -/

namespace Reader

/-- What an expression can go on with. -/
inductive Tail where
  | operator (op : BinaryOp)
  | collation (name : Token)

def Tail.level : Tail → Nat
  | operator op => op.level
  | collation _ => Level.collate

def symbols : List (List Char × BinaryOp) :=
  [("==", BinaryOp.eq), ("<>", .ne), ("<", .lt), (">", .gt), ("<=", .le), (">=", .ge),
    ("||", .concat), ("+", .add), ("-", .sub), ("*", .mul), ("/", .div)].map
      fun entry => (entry.1.toList, entry.2)

/-- The operator or the collation that the tokens begin with, and the tokens behind it. -/
def tail? : List Token → Option (Tail × List Token)
  | .keyword .is :: .keyword .not :: ts => some (.operator .isNot, ts)
  | .keyword .not :: .keyword .isIn :: ts => some (.operator .notIn, ts)
  | .keyword .collate :: name :: ts => if name.isIdentifier then some (.collation name, ts) else none
  | .keyword .is :: ts => some (.operator .is, ts)
  | .keyword .and :: ts => some (.operator .and, ts)
  | .keyword .or :: ts => some (.operator .or, ts)
  | .keyword .isIn :: ts => some (.operator .isIn, ts)
  | .keyword .like :: ts => some (.operator .like, ts)
  | .keyword .glob :: ts => some (.operator .glob, ts)
  | .symbol s :: ts => (symbols.lookup s).map fun op => (.operator op, ts)
  | _ => none

/-- The tokens up to the parenthesis that closes the last of those that are open, and the tokens
behind it; `depth` more of them are open inside. -/
def closing (depth : Nat) : List Token → Option (List Token × List Token)
  | [] => none
  | token :: ts =>
    if token = .symbol [')'] then
      if depth = 0 then some ([], ts)
      else (closing (depth - 1) ts).map fun (inside, rest) => (token :: inside, rest)
    else if token = .symbol ['('] then
      (closing (depth + 1) ts).map fun (inside, rest) => (token :: inside, rest)
    else
      (closing depth ts).map fun (inside, rest) => (token :: inside, rest)

/-- A number behind its sign. -/
def negative : List Token → Option (Tree × List Token)
  | .number s :: ts => some (.number ('-' :: s), ts)
  | _ => none

/-- A column behind its table and the point. -/
def qualified (table : Token) : List Token → Option (Tree × List Token)
  | name :: ts => if name.isIdentifier then some (.column (some table) name, ts) else none
  | [] => none

/-- What was read, if it took any of the tokens. -/
def shorter {α : Type} (ts : List Token) (r : Option (α × List Token)) :
    Option { p : α × List Token // p.2.length < ts.length } :=
  r.bind fun p => if h : p.2.length < ts.length then some ⟨p, h⟩ else none

mutual

def expr (min : Nat) (ts : List Token) : Option (Tree × List Token) := do
  let ⟨(left, rest), _⟩ ← shorter ts (operand min ts)
  operators min left rest
termination_by (ts.length, 1)

/-- Goes on with what binds at least as tightly as `min`. -/
def operators (min : Nat) (left : Tree) (ts : List Token) : Option (Tree × List Token) :=
  match shorter ts (tail? ts) with
  | none => some (left, ts)
  | some ⟨(tail, behind), _⟩ =>
    if tail.level < min then some (left, ts)
    else
      match tail with
      | .collation name => operators min (.collate left name) behind
      | .operator op => do
        let ⟨(right, rest), _⟩ ← shorter behind (expr (op.level + 1) behind)
        operators min (.binary op left right) rest
termination_by (ts.length, 0)
decreasing_by
  all_goals
    apply Prod.Lex.left
    simp only at *
    omega

/-- Reads what stands between operators. A `NOT` may stand only where nothing tighter is wanted. -/
def operand (min : Nat) : List Token → Option (Tree × List Token)
  | [] => none
  | token :: ts =>
    match token with
    | .keyword .not =>
      if Level.not < min then none
      else (expr Level.not ts).map fun (e, rest) => (.not e, rest)
    | .keyword .null => some (.null, ts)
    | .number s => some (.number s, ts)
    | .quoted .single s => some (.text s, ts)
    | .symbol s =>
      if s = ['?'] then some (.placeholder, ts)
      else if s = ['-'] then negative ts
      else if s = ['('] then enclosed ts
      else none
    | _ => if token.isIdentifier then named token ts else none
termination_by ts => (ts.length, 0)

/-- Reads what stands in parentheses, and the closing one. -/
def enclosed : List Token → Option (Tree × List Token)
  | .keyword .select :: ts =>
    (closing 0 (.keyword .select :: ts)).map fun (inside, rest) => (.subquery inside, rest)
  | ts => do
    let (e, rest) ← item ts
    if rest.head? = some (.symbol [')']) then some (e, rest.tail) else none
termination_by ts => (ts.length, 3)

/-- Reads what begins with a name. -/
def named (name : Token) : List Token → Option (Tree × List Token)
  | [] => some (.column none name, [])
  | token :: ts =>
    if token = .symbol ['('] then (arguments ts).map fun (args, rest) => (.call name args, rest)
    else if token = .symbol ['.'] then qualified name ts
    else some (.column none name, token :: ts)
termination_by ts => (ts.length, 0)

/-- Reads the arguments of a call, and the closing parenthesis. -/
def arguments (ts : List Token) : Option (List Tree × List Token) :=
  if ts.head? = some (.symbol [')']) then some ([], ts.tail) else list ts
termination_by (ts.length, 4)

/-- Reads arguments, of which there is at least one. -/
def list (ts : List Token) : Option (List Tree × List Token) := do
  let ⟨(e, rest), _⟩ ← shorter ts (item ts)
  if rest.head? = some (.symbol [')']) then some ([e], rest.tail)
  else if rest.head? = some (.symbol [',']) then
    (list rest.tail).map fun (es, rest) => (e :: es, rest)
  else none
termination_by (ts.length, 3)
decreasing_by
  · exact Prod.Lex.right _ (by decide)
  · refine Prod.Lex.left _ _ ?_
    simp only [List.length_tail] at *
    omega

/-- Reads an expression or a fragment on its own. -/
def item : List Token → Option (Tree × List Token)
  | .fragment s :: rest => some (.fragment s, rest)
  | ts => expr 0 ts
termination_by ts => (ts.length, 2)

end

/-- Reads all the tokens. -/
def read (ts : List Token) : Option Tree :=
  match item ts with
  | some (t, []) => some t
  | _ => none

/-! ### Its steps -/

theorem shorter_some {α : Type} {a : α} {ts rest : List Token} (h : rest.length < ts.length) :
    shorter ts (some (a, rest)) = some ⟨(a, rest), h⟩ := by
  simp [shorter, h]

theorem Tail.level_pos (tail : Tail) : 0 < tail.level := by
  cases tail with
  | operator op => cases op <;> decide
  | collation name => exact (by decide : 0 < Level.collate)

/-- No operator is as tight as `NOT`. -/
theorem Tail.level_ne (tail : Tail) : tail.level ≠ Level.not := by
  cases tail with
  | operator op => cases op <;> decide
  | collation name => simp [Tail.level, Level.collate, Level.not]

/-- What may stand behind an expression of this level: nothing it would go on with, and nothing that
makes a call or a table of a name. -/
structure Follows (level : Nat) (rest : List Token) : Prop where
  below : ∀ tail behind, tail? rest = some (tail, behind) → tail.level ≤ level
  apart : ∀ token ts, rest = token :: ts → token ≠ .symbol ['('] ∧ token ≠ .symbol ['.']

theorem Follows.mono {level level' : Nat} {rest : List Token} (h : Follows level rest)
    (le : level ≤ level') : Follows level' rest :=
  ⟨fun tail behind found => Nat.le_trans (h.below tail behind found) le, h.apart⟩

theorem operators_stop {min : Nat} {left : Tree} {rest : List Token}
    (h : ∀ tail behind, tail? rest = some (tail, behind) → tail.level < min) :
    operators min left rest = some (left, rest) := by
  rw [operators]
  cases found : tail? rest with
  | none => rfl
  | some p =>
    obtain ⟨tail, behind⟩ := p
    by_cases consumed : behind.length < rest.length
    · rw [shorter_some consumed]
      exact if_pos (h tail behind found)
    · simp [shorter, consumed]

theorem operators_operator {min : Nat} {op : BinaryOp} {left right : Tree}
    {ts behind rest : List Token} (found : tail? ts = some (.operator op, behind))
    (tight : min ≤ op.level) (read : expr (op.level + 1) behind = some (right, rest))
    (consumed : behind.length < ts.length) (consumed' : rest.length < behind.length) :
    operators min left ts = operators min (.binary op left right) rest := by
  have notLoose : ¬ (Tail.operator op).level < min := Nat.not_lt.mpr tight
  rw [operators, found, shorter_some consumed]
  simp only [notLoose, if_false, read, shorter_some consumed']
  rfl

theorem operators_collation {min : Nat} {left : Tree} {name : Token} {rest : List Token}
    (isIdentifier : name.isIdentifier = true) (tight : min ≤ Level.collate) :
    operators min left (.keyword .collate :: name :: rest) =
      operators min (.collate left name) rest := by
  have found : tail? (.keyword .collate :: name :: rest) = some (.collation name, rest) := by
    simp [tail?, isIdentifier]
  have notLoose : ¬ (Tail.collation name).level < min := Nat.not_lt.mpr tight
  have consumed : rest.length < (Token.keyword .collate :: name :: rest).length := by
    rw [List.length_cons, List.length_cons]
    omega
  rw [operators, found, shorter_some consumed]
  simp only [notLoose, if_false]

theorem expr_of_operand {min : Nat} {left : Tree} {ts rest : List Token}
    (read : operand min ts = some (left, rest)) (consumed : rest.length < ts.length) :
    expr min ts = operators min left rest := by
  rw [expr, read, shorter_some consumed]
  rfl

/-- Behind a name, an operator does not make a call or a table of it. -/
theorem Follows.of_tail {level : Nat} {rest behind : List Token} {tail : Tail}
    (found : tail? rest = some (tail, behind)) (le : tail.level ≤ level) : Follows level rest := by
  constructor
  · intro tail' behind' found'
    cases found.symm.trans found'
    exact le
  · rintro token ts rfl
    constructor <;> rintro rfl <;> cases found

theorem Follows.nil {level : Nat} : Follows level [] :=
  ⟨fun _ _ found => (nomatch found), fun _ _ same => (nomatch same)⟩

theorem Follows.symbol {level : Nat} {s : List Char} {ts : List Token} (h : s = [')'] ∨ s = [',']) :
    Follows level (.symbol s :: ts) := by
  constructor
  · intro tail behind found
    rcases h with rfl | rfl <;> cases found
  · intro token ts' same
    cases same
    rcases h with rfl | rfl <;> decide

end Reader

end SqlSelect

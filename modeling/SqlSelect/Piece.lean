import SqlSelect.Marker
import SqlSelect.Operator
import SqlSelect.Value

/-! The pieces a statement is written in.

Writing produces a list of pieces; the SQL text and the placeholder slots are two views of
that one list, so the n-th slot always belongs to the n-th `?` that was written. Both views
turn the concatenation of lists into concatenation. -/
namespace SqlSelect

inductive Piece where
  /-- Words and punctuation of the statement itself, with the blanks around them. -/
  | keyword (text : String)
  /-- An identifier, written as it was given. -/
  | identifier (text : String)
  /-- The name of a table where the statement reads from it. -/
  | table (name : String)
  | column (table : Option String) (name : String)
  | literal (v : Value)
  /-- A `?`, with its value once it has one. -/
  | slot (value : Option Param)
  /-- A raw fragment, cut at its markers. -/
  | raw (parts : List Marker.Part)
  | operator (op : BinaryOp)
  | negation
  | nullTest (negated : Bool)
  | collation (name : String)
  | leftParen
  | rightParen
  | comma

def Marker.Part.chars : Marker.Part → List Char
  | .stretch s => s
  | .marker _ => ['?']

def Marker.Part.slot? : Marker.Part → Option (Option Param)
  | .stretch _ => none
  | .marker value => some value

namespace Piece

/-- The word written before a negated operand. -/
def negationWord : String := "NOT "

/-- The words written behind an operand that is tested for null. -/
def nullTestWords (negated : Bool) : String := if negated then " IS NOT NULL" else " IS NULL"

/-- The word written before the name of a collation. -/
def collationWord : String := " COLLATE "

def chars : Piece → List Char
  | keyword text => text.toList
  | identifier text => text.toList
  | table name => name.toList
  | column none name => name.toList
  | column (some t) name => t.toList ++ '.' :: name.toList
  | literal v => v.chars
  | slot _ => ['?']
  | raw parts => parts.flatMap Marker.Part.chars
  | operator op => ' ' :: (op.keyword.toList ++ [' '])
  | negation => negationWord.toList
  | nullTest negated => (nullTestWords negated).toList
  | collation name => collationWord.toList ++ name.toList
  | leftParen => ['(']
  | rightParen => [')']
  | comma => [',', ' ']

def slots : Piece → List (Option Param)
  | slot value => [value]
  | raw parts => parts.filterMap Marker.Part.slot?
  | _ => []

/-- The table read from, for a piece that names one. -/
def source? : Piece → Option String
  | table name => some name
  | _ => none

end Piece

/-- What writing produces. -/
abbrev Pieces := List Piece

namespace Pieces

def chars (ps : Pieces) : List Char := ps.flatMap Piece.chars

def sql (ps : Pieces) : String := String.ofList ps.chars

def slots (ps : Pieces) : List (Option Param) := ps.flatMap Piece.slots

/-- The values of the slots that have one. -/
def args (ps : Pieces) : List Param := ps.slots.filterMap id

/-- The tables named where the statement reads from them, in the order written. -/
def sources (ps : Pieces) : List String := ps.filterMap Piece.source?

/-- Lists one after the other, with commas between them. -/
def commaSeparated (pss : List Pieces) : Pieces := [Piece.comma].intercalate pss

def parenthesized (ps : Pieces) : Pieces := .leftParen :: (ps ++ [.rightParen])

theorem commaSeparated_cons_cons (ps qs : Pieces) (pss : List Pieces) :
    commaSeparated (ps :: qs :: pss) = ps ++ .comma :: commaSeparated (qs :: pss) := by
  rw [commaSeparated, List.intercalate_cons_cons, List.append_assoc]
  rfl

@[simp] theorem chars_append (ps qs : Pieces) : (ps ++ qs).chars = ps.chars ++ qs.chars := by
  simp [chars]

@[simp] theorem slots_append (ps qs : Pieces) : (ps ++ qs).slots = ps.slots ++ qs.slots := by
  simp [slots]

@[simp] theorem args_append (ps qs : Pieces) : (ps ++ qs).args = ps.args ++ qs.args := by
  simp [args]

@[simp] theorem sources_append (ps qs : Pieces) :
    (ps ++ qs).sources = ps.sources ++ qs.sources := by
  simp [sources]

theorem chars_parenthesized (ps : Pieces) :
    ps.parenthesized.chars = '(' :: (ps.chars ++ [')']) := by
  rw [parenthesized, chars, List.flatMap_cons, List.flatMap_append]
  rfl

theorem sql_append (ps qs : Pieces) : (ps ++ qs).sql = ps.sql ++ qs.sql := by
  rw [sql, chars_append, String.ofList_append]
  rfl

theorem sql_parenthesized (ps : Pieces) : ps.parenthesized.sql = "(" ++ ps.sql ++ ")" := by
  rw [sql, chars_parenthesized, ← List.singleton_append, ← List.append_assoc,
    String.ofList_append, String.ofList_append]
  rfl

end Pieces

end SqlSelect

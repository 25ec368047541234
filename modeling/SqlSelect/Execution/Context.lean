import SqlSelect.Text.Escaped

/-! What is known of a statement while it runs.

Fields are kept in ascending order of their keys, one value to a key. -/
namespace SqlSelect.Execution

/-- Gives a key its value, in place of the one it may have had. -/
def insertField (key value : String) : List (String × String) → List (String × String)
  | [] => [(key, value)]
  | head :: rest =>
    if key < head.1 then (key, value) :: head :: rest
    else if head.1 < key then head :: insertField key value rest
    else (key, value) :: rest

structure Context where
  sql : String
  argCount : Nat
  tag : Option String := none
  fields : List (String × String) := []
deriving DecidableEq, Repr

namespace Context

def withTag (c : Context) (tag : String) : Context := { c with tag := some tag }

def withField (c : Context) (key value : String) : Context :=
  { c with fields := insertField key value c.fields }

/-- The tag, or a dash where there is none. -/
def tagText (c : Context) : String := c.tag.getD "-"

def fieldChars (field : String × String) : List Char :=
  Text.escaped field.1 ++ [':', ' '] ++ Text.escaped field.2

/-- The fields between braces, keys and values escaped. -/
def fieldsText (c : Context) : String :=
  String.ofList ('\x7b' :: ([',', ' '].intercalate (c.fields.map fieldChars) ++ ['\x7d']))

end Context

end SqlSelect.Execution

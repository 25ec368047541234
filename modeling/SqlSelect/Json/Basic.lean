import SqlSelect.Value

/-! JSON documents.

Integers and reals are told apart, as they are in the text of a document. An object keeps its
members in order. -/
namespace SqlSelect

inductive Json where
  | null
  | bool (b : Bool)
  | integer (n : Int)
  | real (x : Float)
  | string (s : String)
  | array (items : List Json)
  | object (members : List (String × Json))
deriving Inhabited

namespace Json

/-- The value of a member that occurs once. -/
def member? (members : List (String × Json)) (name : String) : Option Json :=
  match members.filter (·.1 == name) with
  | [(_, value)] => some value
  | _ => none

def string? : Json → Option String
  | .string s => some s
  | _ => none

end Json

end SqlSelect

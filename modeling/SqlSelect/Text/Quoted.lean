/-! Text between single quotes, where a quote inside is written twice. -/
namespace SqlSelect.Text

/-- Writes every quote twice and everything else once. -/
def doubleQuotes : List Char → List Char
  | [] => []
  | c :: rest => if c = '\'' then '\'' :: '\'' :: doubleQuotes rest else c :: doubleQuotes rest

def quoted (s : String) : List Char := '\'' :: (doubleQuotes s.toList ++ ['\''])

end SqlSelect.Text

import SqlSelect.Json.Basic

/-! The compact text of a JSON document.

No blanks are written. In strings, quotes, backslashes and control characters are escaped and
everything else stands as it is. -/
namespace SqlSelect.Json

/-- Reals keep a fraction and turn to exponent form from `10 ^ 16` on and below `10 ^ -5`; the
exponent always has a sign, and of two equally near decimals the even one is taken. -/
def layout : Decimal.Layout where
  positional := some (-5, 15)
  pointZero := true
  tie := .toEven
  signedExponent := true

/-- A control character by its code point, in four hexadecimal digits. -/
def controlEscape (c : Char) : List Char :=
  let digits := Nat.toDigits 16 c.toNat
  ['\\', 'u'] ++ List.replicate (4 - digits.length) '0' ++ digits

def escapedChar (c : Char) : List Char :=
  match c with
  | '"' => ['\\', '"']
  | '\\' => ['\\', '\\']
  | '\x08' => ['\\', 'b']
  | '\x0c' => ['\\', 'f']
  | '\n' => ['\\', 'n']
  | '\r' => ['\\', 'r']
  | '\t' => ['\\', 't']
  | c => if c.toNat < 0x20 then controlEscape c else [c]

def stringChars (s : String) : List Char := '"' :: (s.toList.flatMap escapedChar ++ ['"'])

/-- A real that is not finite has no number to stand for it. -/
def realChars (x : Float) : List Char :=
  match Decimal.binary64.read x.toBits.toNat with
  | .finite negative magnitude => layout.finite negative magnitude
  | _ => "null".toList

mutual

def chars : Json → List Char
  | .null => "null".toList
  | .bool true => "true".toList
  | .bool false => "false".toList
  | .integer n => Decimal.integer n
  | .real x => realChars x
  | .string s => stringChars s
  | .array items => '[' :: ([','].intercalate (charsOfItems items) ++ [']'])
  | .object members => '\x7b' :: ([','].intercalate (charsOfMembers members) ++ ['\x7d'])

def charsOfItems : List Json → List (List Char)
  | [] => []
  | item :: rest => item.chars :: charsOfItems rest

def charsOfMembers : List (String × Json) → List (List Char)
  | [] => []
  | (name, value) :: rest => (stringChars name ++ ':' :: value.chars) :: charsOfMembers rest

end

def text (j : Json) : String := String.ofList j.chars

end SqlSelect.Json

import PackageAlgebra.Json.Basic

/-!
# Writing JSON

The compact form has no blanks. The indented form puts every item and member on
a line of its own, two blanks deeper than the bracket around it.
-/

namespace PackageAlgebra.Json

def hexDigit (n : Nat) : Char :=
  Nat.digitChar n

/-- A character inside quotes: quotes, backslashes and control characters are escaped. -/
def escape (c : Char) : List Char :=
  match c with
  | '"' => ['\\', '"']
  | '\\' => ['\\', '\\']
  | '\x08' => ['\\', 'b']
  | '\x0c' => ['\\', 'f']
  | '\n' => ['\\', 'n']
  | '\r' => ['\\', 'r']
  | '\t' => ['\\', 't']
  | c =>
    if c.toNat < 0x20 then
      ['\\', 'u', '0', '0', hexDigit (c.toNat / 16), hexDigit (c.toNat % 16)]
    else [c]

def quote (s : String) : List Char :=
  '"' :: s.toList.flatMap escape ++ ['"']

def literal (s : Option String) : List Char :=
  quote (s.getD "")

mutual

def chars : Json → List Char
  | .null => "null".toList
  | .bool true => "true".toList
  | .bool false => "false".toList
  | .number n => n.toList
  | .string s => literal s
  | .array items => '[' :: itemsChars items ++ [']']
  | .object members => '\x7b' :: membersChars members ++ ['\x7d']

def itemsChars : List Json → List Char
  | [] => []
  | [item] => chars item
  | item :: items => chars item ++ ',' :: itemsChars items

def membersChars : List (Option String × Json) → List Char
  | [] => []
  | [(key, value)] => literal key ++ ':' :: chars value
  | (key, value) :: members => literal key ++ ':' :: chars value ++ ',' :: membersChars members

end

def lineBreak (depth : Nat) : List Char :=
  '\n' :: List.replicate (2 * depth) ' '

mutual

def indentedChars (depth : Nat) : Json → List Char
  | .array [] => ['[', ']']
  | .array items => '[' :: indentedItems (depth + 1) items ++ lineBreak depth ++ [']']
  | .object [] => ['\x7b', '\x7d']
  | .object members =>
    '\x7b' :: indentedMembers (depth + 1) members ++ lineBreak depth ++ ['\x7d']
  | j => chars j

def indentedItems (depth : Nat) : List Json → List Char
  | [] => []
  | [item] => lineBreak depth ++ indentedChars depth item
  | item :: items =>
    lineBreak depth ++ indentedChars depth item ++ ',' :: indentedItems depth items

def indentedMembers (depth : Nat) : List (Option String × Json) → List Char
  | [] => []
  | [(key, value)] =>
    lineBreak depth ++ literal key ++ ':' :: ' ' :: indentedChars depth value
  | (key, value) :: members =>
    lineBreak depth ++ literal key ++ ':' :: ' ' :: indentedChars depth value ++
      ',' :: indentedMembers depth members

end

def compact (j : Json) : String :=
  String.ofList j.chars

def indented (j : Json) : String :=
  String.ofList (j.indentedChars 0)

end PackageAlgebra.Json

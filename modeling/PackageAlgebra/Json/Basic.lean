/-!
# JSON values

Numbers keep their text, members keep their order and may repeat. The second
half reads values of one expected shape; each of these functions gives `none`
for a value of another shape.
-/

namespace PackageAlgebra

/-- A JSON value. A string literal that spells no text, such as half a surrogate pair, is
`none`: it may stand where nothing reads it. -/
inductive Json
  | null
  | bool (b : Bool)
  | number (text : String)
  | string (s : Option String)
  | array (items : List Json)
  | object (members : List (Option String × Json))
deriving Inhabited

namespace Json

def text (s : String) : Json :=
  .string (some s)

def int (n : Int) : Json :=
  .number (toString n)

def texts (ss : List String) : Json :=
  .array (ss.map text)

def ofOption (encode : α → Json) : Option α → Json
  | none => .null
  | some a => encode a

def record (members : List (String × Json)) : Json :=
  .object (members.map fun (key, value) => (some key, value))

def text? : Json → Option String
  | .string s => s
  | _ => none

def bool? : Json → Option Bool
  | .bool b => some b
  | _ => none

def array? : Json → Option (List Json)
  | .array items => some items
  | _ => none

def list? (decode : Json → Option α) (j : Json) : Option (List α) :=
  j.array?.bind fun items => items.mapM decode

def texts? : Json → Option (List String) :=
  list? text?

def option? (decode : Json → Option α) : Json → Option (Option α)
  | .null => some none
  | j => (decode j).map some

def members? : Json → Option (List (String × Json))
  | .object members => members.mapM fun (key, value) => key.map (·, value)
  | _ => none

/-- The fields of a record, looked up by name. An object may hold other members beside them
but no field twice; an array holds the fields in their order, where the last may be missing. -/
def fields? (names : List String) : Json → Option (String → Option Json)
  | .array items =>
    if items.length ≤ names.length then some fun name => (names.zip items).lookup name else none
  | j =>
    match j.members? with
    | none => none
    | some members =>
      if names.all fun name => (members.filter (·.1 == name)).length ≤ 1 then
        some fun name => members.lookup name
      else none

def required (decode : Json → Option α) (field : Option Json) : Option α :=
  field.bind decode

def defaulted (decode : Json → Option α) (default : α) : Option Json → Option α
  | none => some default
  | some j => decode j

end Json

end PackageAlgebra

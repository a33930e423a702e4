import EdgeBundle.Decimal.Double

/-!
# JSON values

The value type of reports, template contexts and embedded files. Members of an object keep the
order they are given in; `Json.canonical` sorts them by key.
-/

namespace EdgeBundle

/-- A JSON number: an integer of at most 64 bits, or a double-precision number. -/
inductive JsonNumber where
  /-- An integer. -/
  | integer (value : Int)
  /-- A number with a fraction or an exponent, or an integer beyond 64 bits. -/
  | double (value : Double)
  deriving DecidableEq, Repr

/-- A JSON value. -/
inductive Json where
  /-- The null value. -/
  | null
  /-- A truth value. -/
  | bool (value : Bool)
  /-- A number. -/
  | number (value : JsonNumber)
  /-- A string. -/
  | string (value : String)
  /-- A list of values. -/
  | array (items : List Json)
  /-- Members in order. -/
  | object (members : List (String × Json))
  deriving Repr, Inhabited

namespace JsonNumber

/-- Text of a number. -/
def toText : JsonNumber → String
  | integer n => toString n
  | double d => d.toText

end JsonNumber

namespace Json

/-- A natural number as a JSON value. -/
def nat (n : Nat) : Json :=
  .number (.integer n)

/-- Inserts a member in key order; a member with the same key is replaced. -/
def insertMember (key : String) (value : Json) : List (String × Json) → List (String × Json)
  | [] => [(key, value)]
  | (k, v) :: rest =>
    if key < k then (key, value) :: (k, v) :: rest
    else if k < key then (k, v) :: insertMember key value rest
    else (key, value) :: rest

/-- Members sorted by key, the last of equal keys winning. -/
def sortMembers (members : List (String × Json)) : List (String × Json) :=
  members.foldl (fun sorted m => insertMember m.1 m.2 sorted) []

mutual

/-- The value with the members of every object sorted by key. -/
def canonical : Json → Json
  | .array items => .array (canonicalItems items)
  | .object members => .object (sortMembers (canonicalMembers members))
  | value => value

/-- Every item in canonical form. -/
def canonicalItems : List Json → List Json
  | [] => []
  | item :: items => item.canonical :: canonicalItems items

/-- Every member value in canonical form. -/
def canonicalMembers : List (String × Json) → List (String × Json)
  | [] => []
  | (key, value) :: members => (key, value.canonical) :: canonicalMembers members

end

/-- The member of an object with the given key. -/
def get? (key : String) : Json → Option Json
  | .object members => (members.find? fun m => m.1 == key).map Prod.snd
  | _ => none

end Json

end EdgeBundle

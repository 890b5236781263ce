/-!
# Data values

The values that tasks produce and commands receive: JSON values in which integers and doubles are told
apart, and whose records are kept sorted by key.
-/

namespace TaskRunner

/-- A data value. -/
inductive Json where
  | null
  | bool (b : Bool)
  | int (n : Int)
  | float (x : Float)
  | text (s : String)
  | list (items : List Json)
  | record (fields : List (String × Json))
deriving Inhabited, Repr

namespace Json

/-- Puts a field into sorted fields, in place of one of the same key. -/
def insertField (key : String) (value : Json) : List (String × Json) → List (String × Json)
  | [] => [(key, value)]
  | (k, v) :: rest =>
    if key < k then (key, value) :: (k, v) :: rest
    else if key = k then (key, value) :: rest
    else (k, v) :: insertField key value rest

/-- The record of the given fields; of two fields of one key the later one counts. -/
def ofFields (fields : List (String × Json)) : Json :=
  .record (fields.foldl (fun sorted field => insertField field.1 field.2 sorted) [])

/-- The value of a field of a record. -/
def get? (key : String) : Json → Option Json
  | .record fields => (fields.find? (·.1 == key)).map (·.2)
  | _ => none

/-- The text of a text value. -/
def text? : Json → Option String
  | .text s => some s
  | _ => none

/-- The truth value of a Boolean. -/
def bool? : Json → Option Bool
  | .bool b => some b
  | _ => none

/-- The items of a list. -/
def items? : Json → Option (List Json)
  | .list items => some items
  | _ => none

/-- The fields of a record. -/
def fields? : Json → Option (List (String × Json))
  | .record fields => some fields
  | _ => none

/-- Whether the value is `null`. -/
def isNull : Json → Bool
  | .null => true
  | _ => false

/-- The record with a field added or replaced; other values are left alone. -/
def setField (key : String) (value : Json) : Json → Json
  | .record fields => .record (insertField key value fields)
  | other => other

end Json

end TaskRunner

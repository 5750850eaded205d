import Montage.Json

/-!
# Records in JSON

A record is read through `Json.record?`, which gives the values of its fields by name.  A record is
an object, of which other fields are ignored and the last of equal names counts, or an array of
exactly the values of its fields, in order.  `Json.required?` and `Json.omitted?` read one field:
the first fails without it, the second takes a missing field for `null`.
-/

namespace Montage.Json

/-- The last of the values under a name. -/
def lookupLast (name : String) (fields : List (String × Json String)) : Option (Json String) :=
  fields.reverse.lookup name

/-- The values of a record with the given field names. -/
def record? (names : List String) : Json String → Option (String → Option (Json String))
  | .object fields => some fun name => lookupLast name fields
  | .array items =>
    if items.length = names.length then some fun name => (names.zip items).lookup name else none
  | _ => none

/-- A field that must be present. -/
def required? {α : Type} (fields : String → Option (Json String)) (name : String)
    (item : Json String → Option α) : Option α :=
  (fields name).bind item

/-- A field that may be missing or `null`. -/
def omitted? {α : Type} (fields : String → Option (Json String)) (name : String)
    (item : Json String → Option α) : Option (Option α) :=
  match fields name with
  | none => some none
  | some j => optional? item j

/-- A list of strings. -/
def strings? (j : Json String) : Option (List String) := j.items?.bind fun js => js.mapM string?

/-- A list of strings as an array. -/
def strings (ss : List String) : Json String := .array (ss.map .string)

end Montage.Json

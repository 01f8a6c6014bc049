import ReproitCloud.Lib.Table

/-!
# JSON values on both sides of the database

An error's context is a JSON object.  The service reads it as a `serde_json`
value and the database as `jsonb`, and the two have their own accessors.  This
module has the value type and both sets of accessors, under the names the
source uses for them.

* Rust: `get`, `as_str` and `to_string` of a number.
* SQL: `jsonb_typeof`, `->`, `->>` and `::TEXT`.

An integer is written the same way by both.  How a float is written, and the
text of a `jsonb` array or object, belong to the JSON library and to the
database.  They are the fields of `Renderings`, a parameter of everything that
reads text out of a value.
-/

namespace ReproitCloud

open Lib

/-- A JSON number: an integer, or a double given by its bits. -/
inductive Number where
  | int (value : Int)
  | float (bits : UInt64)
deriving DecidableEq, Repr

/-- A JSON value. -/
inductive Json where
  | null
  | bool (value : Bool)
  | number (value : Number)
  | string (value : String)
  | array (items : List Json)
  | object (members : List (String × Json))
deriving Repr

/-- A JSON object with different keys, as `serde_json::Map` and `jsonb` keep it. -/
abbrev Context := Table String Json

/-- The texts that are chosen outside this repository. -/
structure Renderings where
  /-- `serde_json`'s `Number::to_string` of a double. -/
  serdeFloat : UInt64 → String
  /-- `jsonb::TEXT` of a number that was sent as that double. -/
  jsonbFloat : UInt64 → String
  /-- `jsonb::TEXT` of an array or an object. -/
  jsonbComposite : Json → String

namespace Json

/-! ## The Rust accessors -/

/-- `Value::get`: a member of an object, nothing of any other value. -/
def get : Json → String → Option Json
  | object members, key => members.lookup key
  | _, _ => none

/-- `Value::as_str`. -/
def asStr : Json → Option String
  | string s => some s
  | _ => none

/-- `Number::to_string`. -/
def serdeNumber (R : Renderings) : Number → String
  | .int i => toString i
  | .float bits => R.serdeFloat bits

/-- `bool::to_string`, which is also the `jsonb::TEXT` of a boolean. -/
def boolText (b : Bool) : String := if b then "true" else "false"

/-! ## The SQL accessors -/

/-- `jsonb_typeof`. -/
inductive JsonbType where
  | null
  | boolean
  | number
  | string
  | array
  | object
deriving DecidableEq, Repr

def jsonbTypeof : Json → JsonbType
  | null => .null
  | bool _ => .boolean
  | number _ => .number
  | string _ => .string
  | array _ => .array
  | object _ => .object

/-- The `jsonb` text of a number. -/
def jsonbNumber (R : Renderings) : Number → String
  | .int i => toString i
  | .float bits => R.jsonbFloat bits

/-- `value #>> '{}'`: the content of a string, the text of anything else, and no
text for JSON null. -/
def scalarText (R : Renderings) : Json → Option String
  | null => none
  | bool b => some (boolText b)
  | number n => some (jsonbNumber R n)
  | string s => some s
  | array items => some (R.jsonbComposite (array items))
  | object members => some (R.jsonbComposite (object members))

/-- `value->>'key'`: the text of a member.  A value that is not an object has
no members, and a JSON null member is an SQL NULL. -/
def arrowText (R : Renderings) (v : Json) (key : String) : Option String :=
  (v.get key).bind (scalarText R)

end Json

/-- `context->'key'->>'member'`. -/
def Context.arrowText (R : Renderings) (context : Context) (key member : String) : Option String :=
  (context.get? key).bind fun v => v.arrowText R member

end ReproitCloud

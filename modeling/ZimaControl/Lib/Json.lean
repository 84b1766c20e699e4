import ZimaControl.Lib.JsNumber
import ZimaControl.Lib.JsString

/-!
# JSON

`JSON.stringify` as encodings use it: the quoting of a string (a lone surrogate half is escaped) and
arrays and objects of encoded elements. `JsonValue` is what `JSON.parse` returns; the parser itself
is the runtime's.
-/

namespace ZimaControl

/-- The lower-case hexadecimal digit of a value below sixteen. -/
def hexDigit (n : ℕ) : CodeUnit := unit (Nat.digitChar n)

/-- The escape `\uXXXX` of a code unit. -/
def unicodeEscape (u : CodeUnit) : JsString :=
  let n := u.toNat
  js "\\u" ++ [hexDigit (n / 4096), hexDigit (n / 256 % 16), hexDigit (n / 16 % 16), hexDigit (n % 16)]

/-- A high surrogate half. -/
def isHighSurrogate (u : CodeUnit) : Bool := 0xD800 ≤ u.toNat && u.toNat ≤ 0xDBFF

/-- A low surrogate half. -/
def isLowSurrogate (u : CodeUnit) : Bool := 0xDC00 ≤ u.toNat && u.toNat ≤ 0xDFFF

/-- A code unit outside of a surrogate pair, inside a JSON string. -/
def jsonUnit (u : CodeUnit) : JsString :=
  if u = unit '\x08' then js "\\b"
  else if u = unit '\t' then js "\\t"
  else if u = unit '\n' then js "\\n"
  else if u = unit '\x0c' then js "\\f"
  else if u = unit '\x0d' then js "\\r"
  else if u = unit '"' then js "\\\""
  else if u = unit '\\' then js "\\\\"
  else if u.toNat < 0x20 || isHighSurrogate u || isLowSurrogate u then unicodeEscape u
  else [u]

/-- The inside of a JSON string: a surrogate pair is copied, any other code unit escaped alone. -/
def jsonBody : JsString → JsString
  | [] => []
  | [u] => jsonUnit u
  | u :: v :: rest =>
    if isHighSurrogate u && isLowSurrogate v then u :: v :: jsonBody rest
    else jsonUnit u ++ jsonBody (v :: rest)

/-- `JSON.stringify` of a string. -/
def jsonString (s : JsString) : JsString := unit '"' :: jsonBody s ++ [unit '"']

/-- `JSON.stringify` of a string or `null`. -/
def jsonNullable : Option JsString → JsString
  | none => js "null"
  | some s => jsonString s

/-- `JSON.stringify` of an array whose elements are already encoded. -/
def jsonArray (items : List JsString) : JsString :=
  unit '[' :: (items.intersperse [unit ',']).flatten ++ [unit ']']

/-- `JSON.stringify` of an object of encoded values, without those that are `undefined`. -/
def jsonObject (fields : List (JsString × Option JsString)) : JsString :=
  let present := fields.filterMap fun (key, value) => value.map (jsonString key ++ unit ':' :: ·)
  unit '\x7b' :: (present.intersperse [unit ',']).flatten ++ [unit '\x7d']

example : jsonArray [jsonString (js "a\"b"), jsonNullable none] = js "[\"a\\\"b\",null]" := by decide

/-- A value made by `JSON.parse`; an object lists its properties. -/
inductive JsonValue
  | null
  | bool (value : Bool)
  | number (value : JsNumber)
  | string (value : JsString)
  | array (items : List JsonValue)
  | object (fields : List (JsString × JsonValue))

namespace JsonValue

/-- The value as a string, if `typeof value === "string"`. -/
def asString : JsonValue → Option JsString
  | string value => some value
  | _ => none

/-- The value as a number, if `typeof value === "number"`. -/
def asNumber : JsonValue → Option JsNumber
  | number value => some value
  | _ => none

end JsonValue

/-- A property of an object, `none` when it has none of that name. -/
def jsonField (fields : List (JsString × JsonValue)) (name : String) : Option JsonValue :=
  (fields.find? (·.1 = js name)).map (·.2)

end ZimaControl

import KeyScan.Json.Reader
import KeyScan.Json.Writer
import KeyScan.Options.Basic
import KeyScan.Report

/-! Option records written as JSON. A record is an object with a member for each field that does
not take its default, or an array with the fields in order. Unknown members are passed over; a
known one may not be repeated. -/
namespace KeyScan

namespace Json

def intWithin? (low high : Int) : Json → Option Int
  | .number numeral => numeral.integer?.filter fun n => decide (low ≤ n ∧ n ≤ high)
  | _ => none

def count? (value : Json) : Option Nat := (value.intWithin? 0 (UInt64.size - 1 : Nat)).map Int.toNat

def signed? (value : Json) : Option Int :=
  value.intWithin? Int64.minValue.toInt Int64.maxValue.toInt

def flag? : Json → Option Bool
  | .bool value => some value
  | _ => none

def byte? (value : Json) : Option UInt8 := (value.intWithin? 0 255).map fun n => n.toNat.toUInt8

/-- A byte string: a string for its UTF-8 encoding, or an array of byte values. -/
def bytes? : Json → Option Bytes
  | .string units => (Text.ofUnits? units).map Bytes.ofString
  | .array items => items.mapM byte?
  | _ => none

/-- A byte string or null for none. -/
def bound? : Json → Option (Option Bytes)
  | .null => some none
  | value => value.bytes?.map some

/-- The members of a record with the given fields. The names of an object must be texts, and no
field may be named twice; the items of an array stand for the fields in order. -/
def members? (fields : List String) : Json → Option (List (String × Json))
  | .object members => do
    let named ← members.mapM fun member => (Text.ofUnits? member.1).map fun name => (name, member.2)
    if ((named.map Prod.fst).filter fun name => fields.contains name).Nodup then some named else none
  | .array items => if items.length ≤ fields.length then some (fields.zip items) else none
  | _ => none

/-- The value of a field, or its default where no member names it. -/
def field {α : Type} (members : List (String × Json)) (name : String) (read : Json → Option α)
    (default : α) : Option α :=
  match members.lookup name with
  | none => some default
  | some value => read value

end Json

def Bytes.read? (text : String) : Option Bytes := (Json.read? text).bind Json.bytes?

namespace ScanOptions

/-- The field names in the order of the array form. -/
def fieldNames : List String :=
  ["start", "end", "lt", "lte", "gt", "gte", "reverse", "keys", "values", "keyAsBuffer",
    "valueAsBuffer", "fillCache", "limit", "highWaterMark"]

/-- The record that members describe. -/
def ofMembers? (members : List (String × Json)) : Option ScanOptions := do
  let standard : ScanOptions := {}
  let start ← Json.field members "start" Json.bound? standard.start
  let stop ← Json.field members "end" Json.bound? standard.stop
  let lt ← Json.field members "lt" Json.bound? standard.lt
  let lte ← Json.field members "lte" Json.bound? standard.lte
  let gt ← Json.field members "gt" Json.bound? standard.gt
  let gte ← Json.field members "gte" Json.bound? standard.gte
  let reverse ← Json.field members "reverse" Json.flag? standard.reverse
  let keys ← Json.field members "keys" Json.flag? standard.keys
  let values ← Json.field members "values" Json.flag? standard.values
  let keyAsBuffer ← Json.field members "keyAsBuffer" Json.flag? standard.keyAsBuffer
  let valueAsBuffer ← Json.field members "valueAsBuffer" Json.flag? standard.valueAsBuffer
  let fillCache ← Json.field members "fillCache" Json.flag? standard.fillCache
  let limit ← Json.field members "limit" Json.signed? standard.limit
  let highWaterMark ← Json.field members "highWaterMark" Json.count? standard.highWaterMark
  some { start, stop, lt, lte, gt, gte, reverse, keys, values, keyAsBuffer, valueAsBuffer,
         fillCache, limit, highWaterMark }

/-- The record that a JSON value describes. -/
def ofJson? (value : Json) : Option ScanOptions := (value.members? fieldNames).bind ofMembers?

def read (text : String) : Except Failure ScanOptions :=
  match (Json.read? text).bind ofJson? with
  | some options => .ok options
  | none => .error .malformedOptions

end ScanOptions

namespace ServiceOptions

def fieldNames : List String := ["worker_threads"]

def read (text : String) : Except Failure ServiceOptions :=
  match (Json.read? text).bind fun value => do
    let members ← value.members? fieldNames
    let workers ← Json.field members "worker_threads" Json.count? ({} : ServiceOptions).workers
    some { workers } with
  | some options => .ok options
  | none => .error .malformedOptions

def toJson (options : ServiceOptions) : Json :=
  .object [(Text.units "worker_threads", .ofInt options.workers)]

def text (options : ServiceOptions) : String := options.toJson.text

end ServiceOptions
end KeyScan

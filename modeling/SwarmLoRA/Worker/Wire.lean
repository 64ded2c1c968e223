import Mathlib.Algebra.Order.Field.Rat
import SwarmLoRA.Data.Base64

/-! What a worker and the aggregator can say to each other: values, written as JSON. JSON has no
bytes, so they are sent as a dictionary with a marker for its only key. -/
namespace Worker.Wire

open Data

abbrev Bytes := List UInt8

/-- What a call raises. -/
inductive Failure where
  | type_error (text : String)
  | value_error (text : String)
  | connection_error (text : String)
  | struct_error (text : String)
  deriving DecidableEq

/-- The values that a message is built from. A float stands for the number it is. -/
inductive Value where
  | none
  | bool (b : Bool)
  | int (n : Int)
  | float (x : ℚ)
  | str (s : String)
  | bytes (b : Bytes)
  | list (items : List Value)
  | tuple (items : List Value)
  | dict (entries : List (String × Value))

/-- The documents of JSON. -/
inductive Json where
  | null
  | bool (b : Bool)
  | int (n : Int)
  | float (x : ℚ)
  | str (s : String)
  | array (items : List Json)
  | object (entries : List (String × Json))

def marker : String := "__b64__"

def b64encode (b : Bytes) : String := String.ofList (Base64.encode b)

namespace Value

def type_name : Value → String
  | .none => "NoneType"
  | .bool _ => "bool"
  | .int _ => "int"
  | .float _ => "float"
  | .str _ => "str"
  | .bytes _ => "bytes"
  | .list _ => "list"
  | .tuple _ => "tuple"
  | .dict _ => "dict"

mutual

/-- `_encode`, which looks into lists and dictionaries. -/
def encode : Value → Value
  | .bytes b => .dict [(marker, .str (b64encode b))]
  | .dict entries => .dict (encode_entries entries)
  | .list items => .list (encode_items items)
  | v => v

def encode_items : List Value → List Value
  | [] => []
  | v :: rest => v.encode :: encode_items rest

def encode_entries : List (String × Value) → List (String × Value)
  | [] => []
  | (key, v) :: rest => (key, v.encode) :: encode_entries rest

end

/-- The value under the marker, if that is the only key. -/
def marked : List (String × Value) → Option Value
  | [(key, v)] => if key = marker then some v else .none
  | _ => .none

def b64decode : Value → Except Failure Bytes
  | .str s =>
      if s.toList.all (·.toNat < 128) then (Base64.decode s.toList).mapError .value_error
      else .error (.value_error "string argument should contain only ASCII characters")
  | .bytes b => (Base64.decode (b.map fun byte => Char.ofNat byte.toNat)).mapError .value_error
  | v =>
      let name := v.type_name
      .error (.type_error
        s!"argument should be a bytes-like object or ASCII string, not '{name}'")

mutual

/-- `_decode`. -/
def decode : Value → Except Failure Value
  | .dict entries =>
      match marked entries with
      | some v => (b64decode v).map .bytes
      | .none => (decode_entries entries).map .dict
  | .list items => (decode_items items).map .list
  | v => .ok v

def decode_items : List Value → Except Failure (List Value)
  | [] => .ok []
  | v :: rest => do
      let v ← v.decode
      let rest ← decode_items rest
      return v :: rest

def decode_entries : List (String × Value) → Except Failure (List (String × Value))
  | [] => .ok []
  | (key, v) :: rest => do
      let v ← v.decode
      let rest ← decode_entries rest
      return (key, v) :: rest

end

mutual

/-- What `json.dumps` makes of a value. A tuple is written as a list. -/
def to_json : Value → Except Failure Json
  | .none => .ok .null
  | .bool b => .ok (.bool b)
  | .int n => .ok (.int n)
  | .float x => .ok (.float x)
  | .str s => .ok (.str s)
  | .bytes _ => .error (.type_error "Object of type bytes is not JSON serializable")
  | .list items | .tuple items => (to_json_items items).map .array
  | .dict entries => (to_json_entries entries).map .object

def to_json_items : List Value → Except Failure (List Json)
  | [] => .ok []
  | v :: rest => do
      let v ← v.to_json
      let rest ← to_json_items rest
      return v :: rest

def to_json_entries : List (String × Value) → Except Failure (List (String × Json))
  | [] => .ok []
  | (key, v) :: rest => do
      let v ← v.to_json
      let rest ← to_json_entries rest
      return (key, v) :: rest

end

end Value

mutual

/-- What `json.loads` makes of a document. -/
def Json.to_value : Json → Value
  | .null => .none
  | .bool b => .bool b
  | .int n => .int n
  | .float x => .float x
  | .str s => .str s
  | .array items => .list (to_value_items items)
  | .object entries => .dict (to_value_entries entries)

def Json.to_value_items : List Json → List Value
  | [] => []
  | j :: rest => j.to_value :: to_value_items rest

def Json.to_value_entries : List (String × Json) → List (String × Value)
  | [] => []
  | (key, j) :: rest => (key, j.to_value) :: to_value_entries rest

end

/-- The text of documents, in UTF-8, as the JSON library writes and reads it. What is assumed of the
two is said where it is used. -/
structure JsonText where
  dumps : Json → Bytes
  loads : Bytes → Except Failure Json

/-- What `send_msg` sends of a value, after its length. -/
def body (json : JsonText) (v : Value) : Except Failure Bytes := v.encode.to_json.map json.dumps

/-- What `recv_msg` makes of the bytes of a message. -/
def read (json : JsonText) (data : Bytes) : Except Failure Value := do
  let j ← json.loads data
  j.to_value.decode

end Worker.Wire

import HostFleet.Decimal.Shortest
import HostFleet.Json
import HostFleet.NameMap
import HostFleet.Text.Quoted
import HostFleet.Toml.Reader

/-!
# Decoding TOML documents

A `Decoder` turns a TOML value into a value of a type of ours, or says what is wrong with it. Records are decoded by a
`Shape`, the list of their fields. The fields of a table are visited in the order of the document and the first problem
is the one reported; a field that must be given is missed only after all that are given were read. A record may also be
written as an array of its fields in order.
-/

namespace HostFleet.Toml

/-- Why a document was not taken. -/
inductive Fault where
  /-- The text is no TOML document, as its reader reports. -/
  | malformed (report : String)
  | unknownField (name : String) (known : List String)
  | missingField (name : String)
  | wrongType (found : Value) (wanted : String)
  | tooShort (count : Nat) (wanted : String)

/-- A value as messages mention it. -/
def Value.mention : Value → String
  | .text s => "string " ++ Text.quoted s
  | .integer n => "integer `" ++ toString n ++ "`"
  | .float x => "floating point `" ++ Decimal.Layout.message.write x ++ "`"
  | .boolean b => "boolean `" ++ (if b then "true" else "false") ++ "`"
  | .dateTime _ => "map"
  | .array _ => "sequence"
  | .table _ => "map"

/-- Field names as messages offer them. -/
def offer (names : List String) : String :=
  let ticked := names.map fun n => "`" ++ n ++ "`"
  match ticked with
  | [] => "there are no fields"
  | [a] => "expected " ++ a
  | [a, b] => "expected " ++ a ++ " or " ++ b
  | _ => "expected one of " ++ ", ".intercalate ticked

def Fault.message : Fault → String
  | .malformed report => report
  | .unknownField name known => "unknown field `" ++ name ++ "`, " ++ offer known
  | .missingField name => "missing field `" ++ name ++ "`"
  | .wrongType found wanted => "invalid type: " ++ found.mention ++ ", expected " ++ wanted
  | .tooShort count wanted => "invalid length " ++ toString count ++ ", expected " ++ wanted

/-- Turns a TOML value into a value of a type. -/
abbrev Decoder (α : Type) := Value → Except Fault α

namespace Decoder

/-- A text, which messages call by the given words. -/
def textFor (wanted : String) : Decoder String
  | .text s => .ok s
  | v => .error (.wrongType v wanted)

def text : Decoder String := textFor "a string"

def path : Decoder String := textFor "path string"

def boolean : Decoder Bool
  | .boolean b => .ok b
  | v => .error (.wrongType v "a boolean")

def list (item : Decoder α) : Decoder (List α)
  | .array vs => vs.mapM item
  | v => .error (.wrongType v "a sequence")

/-- The one key of a point in time that is read as a table. -/
def dateTimeKey : String := "$__toml_private_datetime"

/-- The entries of a table; a point in time counts as a table with one text. -/
def entries? : Value → Option Table
  | .table es => some es
  | .dateTime t => some [(dateTimeKey, .text t.text)]
  | _ => none

def map (item : Decoder α) : Decoder (NameMap α) := fun v =>
  match entries? v with
  | none => .error (.wrongType v "a map")
  | some es => do
    let es ← es.mapM fun (name, v) => do .ok (name, ← item v)
    .ok (.ofList es)

end Decoder

/-- A field of a record: its name, whether it must be given, and how its value changes the record. -/
structure Field (σ : Type) where
  name : String
  needed : Bool := false
  read : Value → σ → Except Fault σ

/-- A field that is decoded and put into the record. -/
def Field.of (name : String) (decode : Decoder α) (put : α → σ → σ) : Field σ where
  name := name
  read v s := (decode v).map fun a => put a s

/-- The fields of a record, and the record before any of them is read. -/
structure Shape (σ : Type) where
  title : String
  start : σ
  fields : List (Field σ)

namespace Shape

variable {σ : Type}

def entry (shape : Shape σ) (s : σ) (e : String × Value) : Except Fault σ :=
  match shape.fields.find? (fun f => f.name = e.1) with
  | none => .error (.unknownField e.1 (shape.fields.map Field.name))
  | some f => f.read e.2 s

/-- Reads a record written as a table. -/
def ofTable (shape : Shape σ) (es : Table) : Except Fault σ := do
  let s ← es.foldlM shape.entry shape.start
  match shape.fields.find? (fun f => f.needed ∧ ¬ es.any (fun e => e.1 = f.name)) with
  | none => .ok s
  | some f => .error (.missingField f.name)

/-- Reads a record written as the list of its fields in order; items beyond the last field are not looked at. -/
def ofItems (shape : Shape σ) (vs : List Value) : Except Fault σ := do
  let s ← (shape.fields.zip vs).foldlM (fun s (f, v) => f.read v s) shape.start
  match (shape.fields.drop vs.length).findIdx? Field.needed with
  | none => .ok s
  | some i =>
    .error (.tooShort (vs.length + i)
      ("struct " ++ shape.title ++ " with " ++ toString shape.fields.length ++ " elements"))

def decode (shape : Shape σ) : Decoder σ := fun v =>
  match v with
  | .array vs => shape.ofItems vs
  | v =>
    match Decoder.entries? v with
    | some es => shape.ofTable es
    | none => .error (.wrongType v ("struct " ++ shape.title))

end Shape

/-- What stands for the report on a text that is no TOML document. Where such a text goes wrong, and in which words that is
said, is left open here. -/
def syntaxReport : String := "<toml syntax>"

def decodeText (decode : Table → Except Fault α) (text : String) : Except Fault α :=
  match parse? text with
  | none => .error (.malformed syntaxReport)
  | some es => decode es

mutual

/-- A TOML value as JSON: a point in time becomes an object, a number that is not finite null. -/
def Value.toJson : Value → Json
  | .text s => .text s
  | .integer n => .int n
  | .float x => if x.isFinite then .float x else .null
  | .boolean b => .bool b
  | .dateTime t => .record [(Decoder.dateTimeKey, .text t.text)]
  | .array vs => .list (itemsToJson vs)
  | .table es => .ofFields (entriesToJson es)

def itemsToJson : List Value → List Json
  | [] => []
  | v :: rest => v.toJson :: itemsToJson rest

def entriesToJson : List (String × Value) → List (String × Json)
  | [] => []
  | (name, v) :: rest => (name, v.toJson) :: entriesToJson rest

end

end HostFleet.Toml

import EventAtlas.Json.Parser
import EventAtlas.Json.Record
import EventAtlas.Module.Basic
import EventAtlas.Path

namespace EventAtlas.Module

open Json (Record)

namespace Opcode

def all : List Opcode :=
  [call, callVirt, callIndirect, newObj, loadLocal, storeLocal, loadField, loadStaticField, other]

/-- The name of an opcode in a dump. -/
def key : Opcode → String
  | call => "call"
  | callVirt => "call_virt"
  | callIndirect => "call_indirect"
  | newObj => "new_obj"
  | loadLocal => "load_local"
  | storeLocal => "store_local"
  | loadField => "load_field"
  | loadStaticField => "load_static_field"
  | other => "other"

def toJson (o : Opcode) : Json := .str o.key

def ofJson? (j : Json) : Option Opcode := do
  let key ← j.case?
  all.find? (·.key == key)

end Opcode

namespace MethodRef

def toJson (m : MethodRef) : Json :=
  .obj [("name", .str m.name), ("declaring_type", .str m.declaringType)]

def ofJson? (j : Json) : Option MethodRef := do
  let r ← j.record? ["name", "declaring_type"]
  return { name := ← r.field? "name" Json.str?, declaringType := ← r.field? "declaring_type" Json.str? }

end MethodRef

namespace FieldRef

def toJson (f : FieldRef) : Json :=
  .obj [("name", .str f.name), ("declaring_type", .str f.declaringType),
    ("field_type", .str f.fieldType)]

def ofJson? (j : Json) : Option FieldRef := do
  let r ← j.record? ["name", "declaring_type", "field_type"]
  return {
    name := ← r.field? "name" Json.str?
    declaringType := ← r.field? "declaring_type" Json.str?
    fieldType := ← r.field? "field_type" Json.str? }

end FieldRef

namespace Operand

def toJson : Operand → Json
  | none => .obj [("kind", .str "none")]
  | method target => .obj [("kind", .str "method"), ("value", target.toJson)]
  | field target => .obj [("kind", .str "field"), ("value", target.toJson)]
  | type name => .obj [("kind", .str "type"), ("value", .str name)]
  | slot number => .obj [("kind", .str "local"), ("value", .nat number.toNat)]

/-- The operand of a kind with a value, which may be missing for the kind without one. -/
def ofParts? (kind : String) (value : Option Json) : Option Operand :=
  match kind, value with
  | "none", Option.none => some none
  | "none", some .null => some none
  | "method", some j => (MethodRef.ofJson? j).map method
  | "field", some j => (FieldRef.ofJson? j).map field
  | "type", some j => j.str?.map type
  | "local", some j => j.uint16?.map slot
  | _, _ => Option.none

/-- How deeply a value may be nested that stands before its kind. -/
def heldNesting : Nat := 119

/-- A value that stands before its kind has to be held until the kind is known, so all of it has to be
readable and not too deep. -/
def holdable (j : Json) : Bool := j.readable && j.nesting ≤ heldNesting

def ofJson? : Json → Option Operand
  | .obj fields => do
    let r ← (Json.obj fields).record? ["kind", "value"]
    let kind ← r.field? "kind" Json.case?
    let value := r.get? "value"
    let valueFirst := (fields.find? fun (key, _) => key == "kind" || key == "value").any (·.1 == "value")
    if valueFirst && !value.all holdable then Option.none else ofParts? kind value
  | .arr [kind, value] => do ofParts? (← kind.case?) (some value)
  | _ => Option.none

end Operand

namespace Instruction

def toJson (i : Instruction) : Json :=
  .obj [("offset", .nat i.offset.toNat), ("opcode", i.opcode.toJson), ("operand", i.operand.toJson)]

def ofJson? (j : Json) : Option Instruction := do
  let r ← j.record? ["offset", "opcode", "operand"]
  return {
    offset := ← r.field? "offset" Json.uint32?
    opcode := ← r.field? "opcode" Opcode.ofJson?
    operand := ← r.fieldD? "operand" Operand.none Operand.ofJson? }

end Instruction

namespace SequencePoint

def toJson (p : SequencePoint) : Json :=
  .obj [("offset", .nat p.offset.toNat), ("line", .nat p.line.toNat)]

def ofJson? (j : Json) : Option SequencePoint := do
  let r ← j.record? ["offset", "line"]
  return { offset := ← r.field? "offset" Json.uint32?, line := ← r.field? "line" Json.uint64? }

end SequencePoint

namespace Method

def toJson (m : Method) : Json :=
  .obj [("name", .str m.name), ("attributes", .strings m.attributes),
    ("body", .ofOption (.ofList Instruction.toJson) m.body),
    ("sequence_points", .ofList SequencePoint.toJson m.sequencePoints)]

def ofJson? (j : Json) : Option Method := do
  let r ← j.record? ["name", "attributes", "body", "sequence_points"]
  return {
    name := ← r.field? "name" Json.str?
    attributes := ← r.fieldD? "attributes" [] Json.strings?
    body := ← r.fieldD? "body" none (Json.orNull? (Json.list? Instruction.ofJson?))
    sequencePoints := ← r.fieldD? "sequence_points" [] (Json.list? SequencePoint.ofJson?) }

end Method

namespace TypeDef

def toJson (t : TypeDef) : Json :=
  .obj [("full_name", .str t.fullName), ("is_interface", .bool t.isInterface),
    ("is_abstract", .bool t.isAbstract), ("base_type", .ofOption .str t.baseType),
    ("interfaces", .strings t.interfaces), ("attributes", .strings t.attributes),
    ("methods", .ofList Method.toJson t.methods)]

def ofJson? (j : Json) : Option TypeDef := do
  let r ← j.record?
    ["full_name", "is_interface", "is_abstract", "base_type", "interfaces", "attributes", "methods"]
  return {
    fullName := ← r.field? "full_name" Json.str?
    isInterface := ← r.fieldD? "is_interface" false Json.bool?
    isAbstract := ← r.fieldD? "is_abstract" false Json.bool?
    baseType := ← r.fieldD? "base_type" none (Json.orNull? Json.str?)
    interfaces := ← r.fieldD? "interfaces" [] Json.strings?
    attributes := ← r.fieldD? "attributes" [] Json.strings?
    methods := ← r.fieldD? "methods" [] (Json.list? Method.ofJson?) }

end TypeDef

def toJson (m : Module) : Json :=
  .obj [("name", .str m.name), ("types", .ofList TypeDef.toJson m.types)]

def ofJson? (j : Json) : Option Module := do
  let r ← j.record? ["name", "types"]
  return {
    name := ← r.field? "name" Json.str?
    types := ← r.fieldD? "types" [] (Json.list? TypeDef.ofJson?) }

/-- How the names of module dumps end. -/
def dumpEnding : String := ".module.json"

/-- The module that a dump's file name speaks of. -/
def nameOfFile (fileName : String) : String :=
  match Text.dropEnding? dumpEnding.toList fileName.toList with
  | some name => String.ofList name
  | none => fileName

/-- The module that the text of a dump describes. A module without a name gets that of its file. -/
def ofDump? (path : Path) (text : String) : Option Module := do
  let m ← ofJson? (← Json.parse? text.toList)
  return if m.name = "" then { m with name := nameOfFile path.fileName } else m

end EventAtlas.Module

import EventAtlas.Module.Name

namespace EventAtlas

namespace Module

/-- The kinds of instructions that tracing tells apart. -/
inductive Opcode where
  | call
  | callVirt
  | callIndirect
  | newObj
  | loadLocal
  | storeLocal
  | loadField
  | loadStaticField
  | other
  deriving DecidableEq, Repr

/-- A method by its name and the full name of the type that declares it. -/
structure MethodRef where
  name : String
  declaringType : String
  deriving DecidableEq, Repr

/-- A field by its name, the type that declares it and the type of its value. -/
structure FieldRef where
  name : String
  declaringType : String
  fieldType : String
  deriving DecidableEq, Repr

inductive Operand where
  | none
  | method (target : MethodRef)
  | field (target : FieldRef)
  | type (name : String)
  | slot (number : UInt16)
  deriving DecidableEq, Repr

structure Instruction where
  offset : UInt32
  opcode : Opcode
  operand : Operand := .none
  deriving DecidableEq, Repr

/-- The source line of the instructions from an offset on. -/
structure SequencePoint where
  offset : UInt32
  line : UInt64
  deriving DecidableEq, Repr

structure Method where
  name : String
  attributes : List String := []
  /-- An abstract or external method has none. -/
  body : Option (List Instruction) := none
  sequencePoints : List SequencePoint := []
  deriving DecidableEq, Repr

structure TypeDef where
  fullName : String
  isInterface : Bool := false
  isAbstract : Bool := false
  baseType : Option String := none
  interfaces : List String := []
  attributes : List String := []
  methods : List Method := []
  deriving DecidableEq, Repr

end Module

/-- A compiled module. -/
structure Module where
  name : String
  types : List Module.TypeDef := []
  deriving DecidableEq, Repr

namespace Module

namespace Opcode

def isCall : Opcode → Bool
  | call | callVirt | callIndirect => true
  | _ => false

def isFieldLoad : Opcode → Bool
  | loadField | loadStaticField => true
  | _ => false

/-- The mnemonic of an instruction. -/
def mnemonic : Opcode → String
  | call => "call"
  | callVirt => "callvirt"
  | callIndirect => "calli"
  | newObj => "newobj"
  | loadLocal => "ldloc"
  | storeLocal => "stloc"
  | loadField => "ldfld"
  | loadStaticField => "ldsfld"
  | other => "op"

end Opcode

namespace Instruction

def method? (i : Instruction) : Option MethodRef :=
  match i.operand with
  | .method target => some target
  | _ => none

def field? (i : Instruction) : Option FieldRef :=
  match i.operand with
  | .field target => some target
  | _ => none

def slot? (i : Instruction) : Option UInt16 :=
  match i.operand with
  | .slot number => some number
  | _ => none

/-- The type that an instruction constructs, which a constructor's declaring type tells. -/
def constructedType? (i : Instruction) : Option String :=
  if i.opcode = .newObj then
    match i.operand with
    | .method constructor => some constructor.declaringType
    | .type name => some name
    | _ => none
  else none

end Instruction

/-- Of two sequence points the one with the greater offset, the later one if they are equal. -/
def SequencePoint.later (p q : SequencePoint) : SequencePoint := if p.offset ≤ q.offset then q else p

/-- The source line of the instruction at an offset: that of the last sequence point up to it, or zero
without one. -/
def Method.lineFor (m : Method) (offset : UInt32) : Nat :=
  match m.sequencePoints.filter (·.offset ≤ offset) with
  | [] => 0
  | p :: rest => (rest.foldl SequencePoint.later p).line.toNat

namespace TypeDef

def simpleName (t : TypeDef) : String := Module.simpleName t.fullName

/-- Whether a compiler generated the type for another one. -/
def isGenerated (t : TypeDef) : Bool := sourceTypeName t.fullName.toList != t.fullName.toList

/-- The method as it was written in source: a generated method, or any method of a generated type,
stands for the member it was made for. -/
def sourceMethodName (t : TypeDef) (m : Method) : String :=
  match generatedMember? m.name.toList with
  | some member => String.ofList member
  | none =>
    match generatedMember? (lastSegment isNestingMark t.fullName.toList) with
    | some member => String.ofList member
    | none => m.name

end TypeDef

end Module

end EventAtlas

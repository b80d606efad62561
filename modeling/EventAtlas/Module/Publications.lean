import EventAtlas.Fact
import EventAtlas.Indicators
import EventAtlas.Lookback
import EventAtlas.Module.TypeGraph

namespace EventAtlas.Module

open Text

variable (s : Indicators) (g : TypeGraph)

/-- Whether an instruction calls a publisher method on a type that can publish. -/
def isPublishCall (i : Instruction) : Bool :=
  i.opcode.isCall && i.method?.any fun target =>
    s.isPublisherMethod target.name && g.reachesAny target.declaringType s.publisherTypes

/-- Whether a type is an event, by the end of its name or by what it derives from. -/
def isEventType (name : String) : Bool :=
  s.hasEventSuffix (simpleName name).toList || g.reachesAny name s.eventBaseTypes

/-- The event that an instruction constructs. -/
def constructedEvent? (i : Instruction) : Option String :=
  (i.constructedType?.filter (isEventType s g)).map simpleName

/-- The event in a field that an instruction loads. -/
def loadedEvent? (i : Instruction) : Option String :=
  if i.opcode.isFieldLoad then
    ((i.field?.map FieldRef.fieldType).filter (isEventType s g)).map simpleName
  else none

/-- The event in the local slot that is loaded nearest before a call, if the instruction right before
the last store to the slot constructs it. -/
def localEvent? (body : List Instruction) (call : Nat) : Option String := do
  let load ← nearest? body call (some traceWindow) fun i => i.opcode == .loadLocal && i.slot?.isSome
  let slot ← body[load]?.bind Instruction.slot?
  let store ← nearest? body load none fun i => i.opcode == .storeLocal && i.slot? == some slot
  match store with
  | 0 => none
  | producer + 1 => body[producer]?.bind (constructedEvent? s g)

/-- The event that a call publishes: one constructed shortly before it, else one in a local slot, else
one in a field. -/
def traceEvent? (body : List Instruction) (call : Nat) : Option String :=
  match nearestSome? body call (some traceWindow) fun _ i => constructedEvent? s g i with
  | some event => some event
  | none =>
    match localEvent? s g body call with
    | some event => some event
    | none => nearestSome? body call (some traceWindow) fun _ i => loadedEvent? s g i

/-- The characters around an attribute's name that do not belong to it. -/
def isDecoration (c : Char) : Bool := ['[', ']', '(', ')', '@'].contains c || isBlank c

/-- The name of an attribute without decoration, arguments and the usual ending. -/
def attributeName (written : List Char) : List Char :=
  let bare := trimEndWhile isDecoration (written.dropWhile isDecoration)
  let called := upTo (· == '(') bare
  (dropEnding? "Attribute".toList called).getD called

/-- Whether an attribute marks a background job. -/
def isJobAttribute (written : String) : Bool := s.mentionsJob (attributeName written.toList)

/-- Whether a type runs in a background job: by its attributes, by an interface, or by an attribute of
a method. -/
def isBackgroundJob (t : TypeDef) : Bool :=
  t.attributes.any (isJobAttribute s) ||
    (s.jobInterfaceToken ≠ "" && t.interfaces.any fun i =>
      occursIn s.jobInterfaceToken.toList (simpleName i).toList) ||
    t.methods.any fun m => m.attributes.any (isJobAttribute s)

/-- The type that a generated type was made for, if it is in the same module. -/
def owner? (m : Module) (t : TypeDef) : Option TypeDef :=
  if t.isGenerated then m.types.find? fun o => o.fullName.toList == sourceTypeName t.fullName.toList
  else none

/-- Whether a type or the type it was generated for runs in a background job. -/
def runsInJob (m : Module) (t : TypeDef) : Bool :=
  isBackgroundJob s t || (owner? m t).any (isBackgroundJob s)

/-- The text of an instruction in a report. -/
def Instruction.describe (i : Instruction) : String :=
  match i.method? with
  | some target => i.opcode.mnemonic ++ " " ++ target.declaringType ++ "::" ++ target.name
  | none => i.opcode.mnemonic

/-- The publication by an instruction of a method. -/
def publicationAt (origin : Origin) (inJob : Bool) (t : TypeDef) (method : Method) (i : Instruction)
    (event : String) : Publication :=
  let publication : Publication :=
    { event
      origin
      className := t.simpleName
      methodName := t.sourceMethodName method
      position := method.lineFor i.offset
      context := some i.describe }
  if inJob then publication.inJob t.simpleName else publication

/-- The publications in the body of a method. -/
def methodPublications (origin : Origin) (inJob : Bool) (t : TypeDef) (method : Method) :
    List Publication :=
  let body := method.body.getD []
  body.zipIdx.filterMap fun (i, place) =>
    if isPublishCall s g i then
      some (publicationAt origin inJob t method i ((traceEvent? s g body place).getD "Unknown"))
    else none

/-- The publications in the classes of a module. Interfaces and abstract types have none. -/
def publications (origin : Origin) (m : Module) : List Publication :=
  (m.types.filter fun t => !t.isInterface && !t.isAbstract).flatMap fun t =>
    t.methods.flatMap (methodPublications s g origin (runsInJob s m t) t)

end EventAtlas.Module

import EventAtlas.Analysis.Units
import EventAtlas.Proofs.Files.FileSystem
import EventAtlas.Proofs.Json.Record

namespace EventAtlas

namespace Module

open Json (Abridged Plain Reads Record)

/-- The fields that a dump may leave out, with the values that they then have. -/
def dumpDefaults : List (String × Json) :=
  [("types", .arr []), ("is_interface", .bool false), ("is_abstract", .bool false), ("base_type", .null),
    ("interfaces", .arr []), ("attributes", .arr []), ("methods", .arr []), ("body", .null),
    ("sequence_points", .arr []), ("operand", Operand.none.toJson)]

section Defaults

/-- A field that a dump leaves out has the value that the table gives for its key. -/
theorem eq_default_of_mem {key : String} {j default : Json} (h : (key, j) ∈ dumpDefaults)
    (hdefault : dumpDefaults.lookup key = some default) : j = default := by
  have hlookup : dumpDefaults.lookup key = some j := lookup_of_mem (by decide) h
  exact Option.some.inj (hlookup.symm.trans hdefault)

variable {α : Type} {write : α → Json}

/-- A list may be left out where it is empty. -/
theorem fieldD?_list {r : Record} {fields : List (String × Json)} {key : String} {items : List α}
    {read : Json → Option (List α)} (offers : r.Offers dumpDefaults fields)
    (hj : fields.lookup key = some (.ofList write items)) (hdefault : dumpDefaults.lookup key = some (.arr []))
    (hread : Reads dumpDefaults read (.ofList write items) items) : r.fieldD? key [] read = some items := by
  refine offers.fieldD? hj ?_ hread
  intro hmem
  exact List.map_eq_nil_iff.mp (Json.arr.inj (eq_default_of_mem hmem hdefault))

theorem eq_none_of_ofOption (hwrite : ∀ a, write a ≠ .null) {o : Option α} (h : Json.ofOption write o = .null) :
    o = none := by
  cases o with
  | none => rfl
  | some a => exact absurd h (hwrite a)

/-- Only the missing operand is written as one. -/
theorem Operand.eq_none_of_toJson {o : Operand} (h : o.toJson = Operand.none.toJson) : o = .none := by
  cases o <;> simp_all [toJson]

end Defaults

theorem Opcode.reads (o : Opcode) : Reads dumpDefaults ofJson? o.toJson o := by
  intro k h
  cases h
  cases o <;> rfl

theorem MethodRef.reads (m : MethodRef) : Reads dumpDefaults ofJson? m.toJson m := by
  intro k h
  obtain ⟨r, hr, offers⟩ := Record.exists_offers (by simp) h ["name", "declaring_type"]
  have hname : r.field? "name" Json.str? = some m.name := offers.field? rfl (by decide) (.str _)
  have htype : r.field? "declaring_type" Json.str? = some m.declaringType :=
    offers.field? rfl (by decide) (.str _)
  simp [ofJson?, hr, hname, htype]

theorem FieldRef.reads (f : FieldRef) : Reads dumpDefaults ofJson? f.toJson f := by
  intro k h
  obtain ⟨r, hr, offers⟩ := Record.exists_offers (by simp) h ["name", "declaring_type", "field_type"]
  have hname : r.field? "name" Json.str? = some f.name := offers.field? rfl (by decide) (.str _)
  have htype : r.field? "declaring_type" Json.str? = some f.declaringType :=
    offers.field? rfl (by decide) (.str _)
  have hfield : r.field? "field_type" Json.str? = some f.fieldType := offers.field? rfl (by decide) (.str _)
  simp [ofJson?, hr, hname, htype, hfield]

namespace Operand

private theorem ofJson?_kind_value (kind : String) (value : Json) :
    ofJson? (.obj [("kind", .str kind), ("value", value)]) = ofParts? kind (some value) := by
  have hr := @Json.record?_obj [("kind", .str kind), ("value", value)] (by simp) ["kind", "value"]
  dsimp only [ofJson?]
  rw [hr]
  rfl

/-- The kind comes first and both parts have to be there. -/
theorem reads_of_value {kind : String} {value : Json} {o : Operand}
    (h : Reads dumpDefaults (fun j => ofParts? kind (some j)) value o) :
    Reads dumpDefaults ofJson? (.obj [("kind", .str kind), ("value", value)]) o := by
  intro k hk
  obtain ⟨kept, rfl, hkept⟩ := hk.fields
  obtain ⟨kindLeft, more, rfl, hkind, hmore⟩ := hkept.of_required (by decide)
  obtain ⟨valueLeft, rest, rfl, hvalue, hrest⟩ := hmore.of_required (by decide)
  cases hkind
  cases hrest
  rw [ofJson?_kind_value]
  exact h valueLeft hvalue

theorem reads (o : Operand) : Reads dumpDefaults ofJson? o.toJson o := by
  cases o with
  | none =>
    intro k hk
    obtain ⟨kept, rfl, hkept⟩ := hk.fields
    obtain ⟨kindLeft, more, rfl, hkind, hmore⟩ := hkept.of_required (by decide)
    cases hkind
    cases hmore
    rfl
  | method target => exact reads_of_value (target.reads.map method)
  | field target => exact reads_of_value (target.reads.map field)
  | type name => exact reads_of_value ((Reads.str name).map type)
  | slot number => exact reads_of_value ((Reads.uint16 number).map slot)

end Operand

theorem Instruction.reads (i : Instruction) : Reads dumpDefaults ofJson? i.toJson i := by
  intro k h
  obtain ⟨r, hr, offers⟩ := Record.exists_offers (by simp) h ["offset", "opcode", "operand"]
  have hoffset : r.field? "offset" Json.uint32? = some i.offset := offers.field? rfl (by decide) (.uint32 _)
  have hopcode : r.field? "opcode" Opcode.ofJson? = some i.opcode :=
    offers.field? rfl (by decide) i.opcode.reads
  have hoperand : r.fieldD? "operand" Operand.none Operand.ofJson? = some i.operand :=
    offers.fieldD? rfl (fun hmem => Operand.eq_none_of_toJson (eq_default_of_mem hmem rfl)) i.operand.reads
  simp [ofJson?, hr, hoffset, hopcode, hoperand]

theorem SequencePoint.reads (p : SequencePoint) : Reads dumpDefaults ofJson? p.toJson p := by
  intro k h
  obtain ⟨r, hr, offers⟩ := Record.exists_offers (by simp) h ["offset", "line"]
  have hoffset : r.field? "offset" Json.uint32? = some p.offset := offers.field? rfl (by decide) (.uint32 _)
  have hline : r.field? "line" Json.uint64? = some p.line := offers.field? rfl (by decide) (.uint64 _)
  simp [ofJson?, hr, hoffset, hline]

theorem Method.reads (m : Method) : Reads dumpDefaults ofJson? m.toJson m := by
  intro k h
  obtain ⟨r, hr, offers⟩ := Record.exists_offers (by simp) h ["name", "attributes", "body", "sequence_points"]
  have hname : r.field? "name" Json.str? = some m.name := offers.field? rfl (by decide) (.str _)
  have hattributes : r.fieldD? "attributes" [] Json.strings? = some m.attributes :=
    fieldD?_list offers rfl rfl (.strings _)
  have hbody : r.fieldD? "body" none (Json.orNull? (Json.list? Instruction.ofJson?)) = some m.body :=
    offers.fieldD? rfl (fun hmem => eq_none_of_ofOption (by simp [Json.ofList]) (eq_default_of_mem hmem rfl))
      (.orNull rfl fun body _ => .list fun i _ => i.reads)
  have hpoints : r.fieldD? "sequence_points" [] (Json.list? SequencePoint.ofJson?) = some m.sequencePoints :=
    fieldD?_list offers rfl rfl (.list fun p _ => p.reads)
  simp [ofJson?, hr, hname, hattributes, hbody, hpoints]

theorem TypeDef.reads (t : TypeDef) : Reads dumpDefaults ofJson? t.toJson t := by
  intro k h
  obtain ⟨r, hr, offers⟩ := Record.exists_offers (by simp) h
    ["full_name", "is_interface", "is_abstract", "base_type", "interfaces", "attributes", "methods"]
  have hname : r.field? "full_name" Json.str? = some t.fullName := offers.field? rfl (by decide) (.str _)
  have hinterface : r.fieldD? "is_interface" false Json.bool? = some t.isInterface :=
    offers.fieldD? rfl (fun hmem => Json.bool.inj (eq_default_of_mem hmem rfl)) (.bool _)
  have habstract : r.fieldD? "is_abstract" false Json.bool? = some t.isAbstract :=
    offers.fieldD? rfl (fun hmem => Json.bool.inj (eq_default_of_mem hmem rfl)) (.bool _)
  have hbase : r.fieldD? "base_type" none (Json.orNull? Json.str?) = some t.baseType :=
    offers.fieldD? rfl (fun hmem => eq_none_of_ofOption (by simp) (eq_default_of_mem hmem rfl))
      (.orNull rfl fun name _ => .str name)
  have hinterfaces : r.fieldD? "interfaces" [] Json.strings? = some t.interfaces :=
    fieldD?_list offers rfl rfl (.strings _)
  have hattributes : r.fieldD? "attributes" [] Json.strings? = some t.attributes :=
    fieldD?_list offers rfl rfl (.strings _)
  have hmethods : r.fieldD? "methods" [] (Json.list? Method.ofJson?) = some t.methods :=
    fieldD?_list offers rfl rfl (.list fun m _ => m.reads)
  simp [ofJson?, hr, hname, hinterface, habstract, hbase, hinterfaces, hattributes, hmethods]

theorem reads (m : Module) : Reads dumpDefaults ofJson? m.toJson m := by
  intro k h
  obtain ⟨r, hr, offers⟩ := Record.exists_offers (by simp) h ["name", "types"]
  have hname : r.field? "name" Json.str? = some m.name := offers.field? rfl (by decide) (.str _)
  have htypes : r.fieldD? "types" [] (Json.list? TypeDef.ofJson?) = some m.types :=
    fieldD?_list offers rfl rfl (.list fun t _ => t.reads)
  simp [ofJson?, hr, hname, htypes]

section Plain

theorem MethodRef.plain (m : MethodRef) : Plain m.toJson :=
  .obj (by simp [Plain.str])

theorem FieldRef.plain (f : FieldRef) : Plain f.toJson :=
  .obj (by simp [Plain.str])

theorem Operand.plain (o : Operand) : Plain o.toJson := by
  cases o with
  | none => exact .obj (by simp [Plain.str])
  | method target => exact .obj (by simp [Plain.str, target.plain])
  | field target => exact .obj (by simp [Plain.str, target.plain])
  | type name => exact .obj (by simp [Plain.str])
  | slot number => exact .obj (by simp [Plain.str, Plain.nat])

theorem Instruction.plain (i : Instruction) : Plain i.toJson :=
  .obj (by simp [Plain.nat, Opcode.toJson, Plain.str, i.operand.plain])

theorem SequencePoint.plain (p : SequencePoint) : Plain p.toJson :=
  .obj (by simp [Plain.nat])

theorem Method.plain (m : Method) : Plain m.toJson := by
  have hbody : Plain (.ofOption (.ofList Instruction.toJson) m.body) :=
    .option fun body _ => .list fun i _ => i.plain
  have hpoints : Plain (.ofList SequencePoint.toJson m.sequencePoints) := .list fun p _ => p.plain
  exact .obj (by simp [Plain.str, Plain.strings, hbody, hpoints])

theorem TypeDef.plain (t : TypeDef) : Plain t.toJson := by
  have hmethods : Plain (.ofList Method.toJson t.methods) := .list fun m _ => m.plain
  exact .obj (by simp [Plain.str, Plain.bool, Plain.strings, Plain.text?, hmethods])

theorem plain (m : Module) : Plain m.toJson := by
  have htypes : Plain (.ofList TypeDef.toJson m.types) := .list fun t _ => t.plain
  exact .obj (by simp [Plain.str, htypes])

end Plain

/-- A module read from its own dump, in any layout and with any defaults left out, is the module that was
dumped. One without a name gets that of its file. -/
theorem read_dump (m : Module) (fs : FileSystem) (path : Path) (l : Json.Layout) {dumped : Json}
    (hdumped : Abridged dumpDefaults m.toJson dumped)
    (hfile : fs.find? path = some (.file (String.ofList (l.write 0 dumped)).toUTF8)) :
    read fs path = .ok (if m.name = "" then { m with name := nameOfFile path.fileName } else m) := by
  have htext : fs.readText path = .ok (String.ofList (l.write 0 dumped)) := FileSystem.readText_of_find? hfile
  have hparse : Json.parse? (l.write 0 dumped) = some dumped := l.parse?_write (hdumped.plain m.plain)
  have hread : ofJson? dumped = some m := m.reads dumped hdumped
  simp [read, htext, ofDump?, hparse, hread]

/-- A module without a name. One of its methods has a body, the other none. -/
def nameless : Module where
  name := ""
  types := [{
    fullName := "Orders.Checkout"
    isAbstract := true
    methods := [
      { name := "Place", body := some [⟨0, .newObj, .method ⟨".ctor", "Orders.Placed"⟩⟩, ⟨5, .other, .none⟩] },
      { name := "Cancel" }] }]

/-- The dump of that module without any of the defaults. -/
def namelessDump : Json :=
  .obj [("name", .str ""), ("types", .arr [
    .obj [("full_name", .str "Orders.Checkout"), ("is_abstract", .bool true), ("methods", .arr [
      .obj [("name", .str "Place"), ("body", .arr [
        .obj [("offset", .nat 0), ("opcode", .str "new_obj"),
          ("operand", .obj [("kind", .str "method"),
            ("value", .obj [("name", .str ".ctor"), ("declaring_type", .str "Orders.Placed")])])],
        .obj [("offset", .nat 5), ("opcode", .str "other")]])],
      .obj [("name", .str "Cancel")]])]])]

def namelessFiles : FileSystem where
  root := .directory [("bin", .directory [
    ("Orders.Api.module.json", .file (String.ofList namelessDump.pretty).toUTF8)])]

theorem namelessFiles_read :
    Abridged dumpDefaults nameless.toJson namelessDump ∧
      read namelessFiles ⟨"bin/Orders.Api.module.json"⟩ = .ok { nameless with name := "Orders.Api" } := by
  have hdump : Abridged dumpDefaults nameless.toJson namelessDump := by
    refine .obj (.keep _ (.same _) (.keep _ (.arr (.cons (.obj ?type) .nil)) .nil))
    refine .keep _ (.same _) (.leave ?_ (.keep _ (.same _) (.leave ?_ (.leave ?_ (.leave ?_
      (.keep _ (.arr (.cons (.obj ?place) (.cons (.obj ?cancel) .nil))) .nil))))))
    case place =>
      refine .keep _ (.same _) (.leave ?_ (.keep _ (.arr (.cons (.same _) (.cons (.obj ?other) .nil)))
        (.leave ?_ .nil)))
      case other => exact .keep _ (.same _) (.keep _ (.same _) (.leave (by simp [dumpDefaults]) .nil))
      all_goals simp [dumpDefaults, Json.strings, Json.ofList]
    case cancel =>
      refine .keep _ (.same _) (.leave ?_ (.leave ?_ (.leave ?_ .nil)))
      all_goals simp [dumpDefaults, Json.strings, Json.ofList, Json.ofOption]
    all_goals simp [dumpDefaults, Json.strings, Json.ofList, Json.ofOption]
  exact ⟨hdump, read_dump nameless namelessFiles ⟨"bin/Orders.Api.module.json"⟩ .indented hdump rfl⟩

end Module

end EventAtlas

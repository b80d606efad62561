import EventAtlas.Module.Publications
import EventAtlas.Proofs.Lookback

namespace EventAtlas.Module

/-- An instruction constructs a value of a type, which its constructor or its operand names. -/
inductive Constructs : Instruction → String → Prop where
  | byConstructor (offset : UInt32) (target : MethodRef) :
      Constructs ⟨offset, .newObj, .method target⟩ target.declaringType
  | byType (offset : UInt32) (name : String) : Constructs ⟨offset, .newObj, .type name⟩ name

/-- An instruction loads a field of an object or of a type. -/
inductive LoadsField : Instruction → FieldRef → Prop where
  | ofObject (offset : UInt32) (target : FieldRef) : LoadsField ⟨offset, .loadField, .field target⟩ target
  | ofType (offset : UInt32) (target : FieldRef) :
      LoadsField ⟨offset, .loadStaticField, .field target⟩ target

def LoadsSlot (i : Instruction) (number : UInt16) : Prop := i.opcode = .loadLocal ∧ i.operand = .slot number

def StoresSlot (i : Instruction) (number : UInt16) : Prop := i.opcode = .storeLocal ∧ i.operand = .slot number

/-- What an instruction constructs is read off its opcode and its operand. -/
theorem constructedType?_eq_some_iff {i : Instruction} {t : String} :
    i.constructedType? = some t ↔ Constructs i t := by
  constructor
  · intro h
    obtain ⟨offset, opcode, operand⟩ := i
    unfold Instruction.constructedType? at h
    split_ifs at h with hnew
    obtain rfl : opcode = .newObj := hnew
    cases operand with
    | method target =>
      obtain rfl := Option.some.inj h
      exact .byConstructor offset target
    | type name =>
      obtain rfl := Option.some.inj h
      exact .byType offset name
    | none => cases h
    | field target => cases h
    | slot number => cases h
  · intro h
    cases h with
    | byConstructor offset target => rfl
    | byType offset name => rfl

theorem slot?_eq_some_iff {i : Instruction} {number : UInt16} :
    i.slot? = some number ↔ i.operand = .slot number := by
  unfold Instruction.slot?
  cases i.operand <;> simp

theorem field?_eq_some_iff {i : Instruction} {target : FieldRef} :
    i.field? = some target ↔ i.operand = .field target := by
  unfold Instruction.field?
  cases i.operand <;> simp

theorem loadsField_iff {i : Instruction} {target : FieldRef} :
    i.opcode.isFieldLoad = true ∧ i.field? = some target ↔ LoadsField i target := by
  rw [field?_eq_some_iff]
  constructor
  · rintro ⟨hopcode, hoperand⟩
    obtain ⟨offset, opcode, operand⟩ := i
    obtain rfl : operand = .field target := hoperand
    cases opcode with
    | loadField => exact .ofObject offset target
    | loadStaticField => exact .ofType offset target
    | _ => cases hopcode
  · intro h
    cases h with
    | ofObject offset => exact ⟨rfl, rfl⟩
    | ofType offset => exact ⟨rfl, rfl⟩

variable (s : Indicators) (g : TypeGraph)

/-- An instruction constructs a value of an event type, which is called `event`. -/
def ConstructsEvent (i : Instruction) (event : String) : Prop :=
  ∃ t, Constructs i t ∧ isEventType s g t = true ∧ event = simpleName t

/-- An instruction loads a field of an event type, which is called `event`. -/
def LoadsEvent (i : Instruction) (event : String) : Prop :=
  ∃ target, LoadsField i target ∧ isEventType s g target.fieldType = true ∧ event = simpleName target.fieldType

/-- The event of an instruction that constructs one. -/
theorem constructedEvent?_eq_some_iff {i : Instruction} {event : String} :
    constructedEvent? s g i = some event ↔ ConstructsEvent s g i event := by
  unfold constructedEvent? ConstructsEvent
  simp only [Option.map_eq_some_iff, Option.filter_eq_some_iff, constructedType?_eq_some_iff, and_assoc,
    eq_comm (a := event)]

/-- The event of an instruction that loads a field of an event type. -/
theorem loadedEvent?_eq_some_iff {i : Instruction} {event : String} :
    loadedEvent? s g i = some event ↔ LoadsEvent s g i event := by
  unfold loadedEvent? LoadsEvent
  simp only [← loadsField_iff]
  by_cases hload : i.opcode.isFieldLoad = true
  · rw [if_pos hload]
    cases i.field? with
    | none => simp
    | some target => simp [hload, Option.filter_eq_some_iff, eq_comm (a := event)]
  · simp [hload]

/-- What is told by the last one of the twenty instructions before a call that tells something. -/
def ToldBefore (body : List Instruction) (call : Nat) (tells : Instruction → String → Prop) (event : String) :
    Prop :=
  ∃ place i, IsNearest body call (some 20) (fun _ i => ∃ e, tells i e) place i ∧ tells i event

/-- None of the twenty instructions before a call tells anything. -/
def UntoldBefore (body : List Instruction) (call : Nat) (tells : Instruction → String → Prop) : Prop :=
  ∀ place i, InWindow body.length call (some 20) place → body[place]? = some i → ∀ e, ¬tells i e

/-- The event that was constructed right before the last store to the slot that is loaded last among the
twenty instructions before a call. The store may be anywhere before the load. -/
def HeldBefore (body : List Instruction) (call : Nat) (event : String) : Prop :=
  ∃ place load number, IsNearest body call (some 20) (fun _ i => ∃ n, LoadsSlot i n) place load ∧
    LoadsSlot load number ∧
    ∃ producerPlace store producer,
      IsNearest body place none (fun _ i => StoresSlot i number) (producerPlace + 1) store ∧
      body[producerPlace]? = some producer ∧ ConstructsEvent s g producer event

/-- The nearest instruction before a call that tells an event, within the window. -/
theorem nearestSome?_told {body : List Instruction} {call : Nat} {f : Instruction → Option String}
    {tells : Instruction → String → Prop} (h : ∀ i e, f i = some e ↔ tells i e) (event : String) :
    (nearestSome? body call (some traceWindow) fun _ i => f i) = some event ↔
      ToldBefore body call tells event := by
  have hsome (i : Instruction) : (f i).isSome = true ↔ ∃ e, tells i e := by
    rw [Option.isSome_iff_exists]
    simp only [h]
  rw [nearestSome?_eq_some_iff]
  simp only [hsome, h]
  rfl

/-- Nothing is found exactly if no instruction in the window tells an event. -/
theorem nearestSome?_untold {body : List Instruction} {call : Nat} {f : Instruction → Option String}
    {tells : Instruction → String → Prop} (h : ∀ i e, f i = some e ↔ tells i e) :
    (nearestSome? body call (some traceWindow) fun _ i => f i) = none ↔ UntoldBefore body call tells := by
  have hnone (i : Instruction) : f i = none ↔ ∀ e, ¬tells i e := by
    rw [Option.eq_none_iff_forall_ne_some]
    simp only [ne_eq, h]
  rw [nearestSome?_eq_none_iff]
  simp only [hnone]
  rfl

theorem isLoad_iff (i : Instruction) :
    (i.opcode == .loadLocal && i.slot?.isSome) = true ↔ ∃ number, LoadsSlot i number := by
  simp [LoadsSlot, Option.isSome_iff_exists, slot?_eq_some_iff]

theorem isStore_iff (i : Instruction) (number : UInt16) :
    (i.opcode == .storeLocal && i.slot? == some number) = true ↔ StoresSlot i number := by
  simp [StoresSlot, slot?_eq_some_iff]

/-- The event of the local that is loaded last before a call is the one last stored there. -/
theorem localEvent?_eq_some_iff {body : List Instruction} {call : Nat} {event : String} :
    localEvent? s g body call = some event ↔ HeldBefore s g body call event := by
  unfold localEvent? HeldBefore
  simp only [Option.bind_eq_bind, Option.bind_eq_some_iff, nearest?_eq_some_iff, isLoad_iff, isStore_iff]
  constructor
  · rintro ⟨place, ⟨load, hload⟩, number, ⟨load', hload', hnumber⟩, store, ⟨storing, hstore⟩, hevent⟩
    obtain rfl : load = load' := Option.some.inj (hload.item.symm.trans hload')
    have hslot : LoadsSlot load number := by
      obtain ⟨_, hopcode, _⟩ := hload.holds
      exact ⟨hopcode, slot?_eq_some_iff.mp hnumber⟩
    cases store with
    | zero => cases hevent
    | succ producerPlace =>
      obtain ⟨producer, hproducer, hconstructs⟩ := Option.bind_eq_some_iff.mp hevent
      rw [constructedEvent?_eq_some_iff] at hconstructs
      exact ⟨place, load, number, hload, hslot, producerPlace, storing, producer, hstore, hproducer, hconstructs⟩
  · rintro ⟨place, load, number, hload, hslot, producerPlace, store, producer, hstore, hproducer, hconstructs⟩
    refine ⟨place, ⟨load, hload⟩, number, ⟨load, hload.item, slot?_eq_some_iff.mpr hslot.2⟩,
      producerPlace + 1, ⟨store, hstore⟩, ?_⟩
    exact Option.bind_eq_some_iff.mpr ⟨producer, hproducer, (constructedEvent?_eq_some_iff s g).mpr hconstructs⟩

private theorem localEvent?_eq_of_take {body other : List Instruction} {call : Nat}
    (h : other.take call = body.take call) : localEvent? s g other call = localEvent? s g body call := by
  unfold localEvent?
  rw [nearest?_eq_of_take h (Nat.le_refl call)]
  cases hload : nearest? body call (some traceWindow) fun i => i.opcode == .loadLocal && i.slot?.isSome with
  | none => rfl
  | some place =>
    obtain ⟨load, hnearest⟩ := nearest?_eq_some_iff.mp hload
    have hplace : place < call := by
      have := hnearest.inWindow.1
      omega
    simp only [Option.bind_eq_bind, Option.bind_some, getElem?_eq_of_take h hplace]
    cases hslot : body[place]?.bind Instruction.slot? with
    | none => rfl
    | some number =>
      simp only [Option.bind_some, nearest?_eq_of_take h (Nat.le_of_lt hplace)]
      cases hstore : nearest? body place none fun i => i.opcode == .storeLocal && i.slot? == some number with
      | none => rfl
      | some store =>
        obtain ⟨_, hnearest⟩ := nearest?_eq_some_iff.mp hstore
        have hbefore : store < place := by
          have := hnearest.inWindow.1
          omega
        cases store with
        | zero => rfl
        | succ producerPlace =>
          simp only [Option.bind_some, getElem?_eq_of_take h (show producerPlace < call by omega)]

/-- Constructions come first, then locals, then fields. -/
theorem traceEvent?_eq_or (body : List Instruction) (call : Nat) :
    traceEvent? s g body call =
      ((nearestSome? body call (some traceWindow) fun _ i => constructedEvent? s g i).or
        ((localEvent? s g body call).or
          (nearestSome? body call (some traceWindow) fun _ i => loadedEvent? s g i))) := by
  unfold traceEvent?
  cases nearestSome? body call (some traceWindow) fun _ i => constructedEvent? s g i with
  | some event => rfl
  | none => cases localEvent? s g body call <;> rfl

/-- A call publishes what was constructed last in the twenty instructions before it, otherwise what the
slot loaded last there holds, and otherwise what the event field loaded last there holds. What comes after
the call does not matter. -/
theorem traceEvent?_tells (body : List Instruction) (call : Nat) :
    (∀ event, traceEvent? s g body call = some event ↔
      ToldBefore body call (ConstructsEvent s g) event ∨
      UntoldBefore body call (ConstructsEvent s g) ∧ HeldBefore s g body call event ∨
      UntoldBefore body call (ConstructsEvent s g) ∧ (∀ e, ¬HeldBefore s g body call e) ∧
        ToldBefore body call (LoadsEvent s g) event) ∧
    (traceEvent? s g body call = none ↔
      UntoldBefore body call (ConstructsEvent s g) ∧ (∀ e, ¬HeldBefore s g body call e) ∧
        UntoldBefore body call (LoadsEvent s g)) ∧
    ∀ other, other.take call = body.take call → traceEvent? s g other call = traceEvent? s g body call := by
  have hconstructs (i : Instruction) (e : String) : constructedEvent? s g i = some e ↔ ConstructsEvent s g i e :=
    constructedEvent?_eq_some_iff s g
  have hloads (i : Instruction) (e : String) : loadedEvent? s g i = some e ↔ LoadsEvent s g i e :=
    loadedEvent?_eq_some_iff s g
  have hunheld : localEvent? s g body call = none ↔ ∀ e, ¬HeldBefore s g body call e := by
    rw [Option.eq_none_iff_forall_ne_some]
    simp only [ne_eq, localEvent?_eq_some_iff]
  refine ⟨?_, ?_, ?_⟩
  · intro event
    rw [traceEvent?_eq_or, Option.or_eq_some_iff, Option.or_eq_some_iff, nearestSome?_told hconstructs,
      nearestSome?_untold hconstructs, localEvent?_eq_some_iff, hunheld, nearestSome?_told hloads, and_or_left]
  · rw [traceEvent?_eq_or, Option.or_eq_none_iff, Option.or_eq_none_iff, nearestSome?_untold hconstructs, hunheld,
      nearestSome?_untold hloads]
  · intro other h
    rw [traceEvent?_eq_or, traceEvent?_eq_or, localEvent?_eq_of_take s g h,
      nearestSome?_eq_of_take h (Nat.le_refl call), nearestSome?_eq_of_take h (Nat.le_refl call)]

/-- An event is constructed and stored in a slot, which is loaded more than twenty instructions later. -/
def farStore : List Instruction :=
  [⟨0, .newObj, .method ⟨".ctor", "Orders.OrderPlacedEvent"⟩⟩, ⟨1, .storeLocal, .slot 3⟩] ++
    List.replicate 19 ⟨2, .other, .none⟩ ++ [⟨3, .loadLocal, .slot 3⟩]

/-- The same with another event behind the load. -/
def longerFarStore : List Instruction := farStore ++ [⟨4, .newObj, .type "CancelEvent"⟩]

theorem longerFarStore_traced :
    longerFarStore.take 22 = farStore.take 22 ∧
      traceEvent? {} (.ofShapes []) longerFarStore 22 = some "OrderPlacedEvent" := by
  have htraced : traceEvent? {} (.ofShapes []) farStore 22 = some "OrderPlacedEvent" := by decide +kernel
  have hsame : longerFarStore.take 22 = farStore.take 22 := rfl
  refine ⟨hsame, ?_⟩
  rw [(traceEvent?_tells {} (.ofShapes []) farStore 22).2.2 longerFarStore hsame, htraced]

end EventAtlas.Module

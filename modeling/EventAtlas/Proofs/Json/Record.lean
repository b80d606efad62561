import EventAtlas.Json.Record
import EventAtlas.Proofs.Json.RoundTrip
import Mathlib.Data.List.Forall2
import Mathlib.Data.List.Nodup

namespace EventAtlas.Json

/-- Fields of which some that may be left out are left out, with values that `R` relates. -/
inductive KeptFields (omissible : List (String × Json)) (R : Json → Json → Prop) :
    List (String × Json) → List (String × Json) → Prop where
  | nil : KeptFields omissible R [] []
  | keep (key : String) {j k : Json} {fields kept : List (String × Json)} (value : R j k)
      (more : KeptFields omissible R fields kept) : KeptFields omissible R ((key, j) :: fields) ((key, k) :: kept)
  | leave {field : String × Json} {fields kept : List (String × Json)} (may : field ∈ omissible)
      (more : KeptFields omissible R fields kept) : KeptFields omissible R (field :: fields) kept

/-- A value and what is left of it where fields that may be left out are left out, at any depth. -/
inductive Abridged (omissible : List (String × Json)) : Json → Json → Prop where
  | same (j : Json) : Abridged omissible j j
  | arr {items kept : List Json} (h : List.Forall₂ (Abridged omissible) items kept) :
      Abridged omissible (arr items) (arr kept)
  | obj {fields kept : List (String × Json)} (h : KeptFields omissible (Abridged omissible) fields kept) :
      Abridged omissible (obj fields) (obj kept)

variable {omissible : List (String × Json)}

namespace KeptFields

variable {R : Json → Json → Prop} {fields kept : List (String × Json)}

theorem keys_sublist (h : KeptFields omissible R fields kept) :
    (kept.map Prod.fst).Sublist (fields.map Prod.fst) := by
  induction h with
  | nil => exact .slnil
  | keep key _ _ ih => exact ih.cons_cons key
  | leave _ _ ih => exact ih.cons _

theorem refl (hR : ∀ j, R j j) (fields : List (String × Json)) : KeptFields omissible R fields fields := by
  induction fields with
  | nil => exact .nil
  | cons field fields ih => exact .keep field.1 (hR field.2) ih

private theorem exists_of_mem (h : KeptFields omissible R fields kept) {field : String × Json} (hmem : field ∈ kept) :
    ∃ whole ∈ fields, R whole.2 field.2 := by
  induction h with
  | nil => cases hmem
  | keep key value _ ih =>
    rcases List.mem_cons.mp hmem with rfl | hmem
    · exact ⟨_, List.mem_cons_self, value⟩
    · obtain ⟨whole, hwhole, hR⟩ := ih hmem
      exact ⟨whole, List.mem_cons_of_mem _ hwhole, hR⟩
  | leave _ _ ih =>
    obtain ⟨whole, hwhole, hR⟩ := ih hmem
    exact ⟨whole, List.mem_cons_of_mem _ hwhole, hR⟩

/-- A field that may not be left out is kept. -/
theorem of_required {key : String} {j : Json} (h : KeptFields omissible R ((key, j) :: fields) kept)
    (hkey : key ∉ omissible.map Prod.fst) :
    ∃ k more, kept = (key, k) :: more ∧ R j k ∧ KeptFields omissible R fields more := by
  cases h with
  | keep _ value more => exact ⟨_, _, rfl, value, more⟩
  | leave may => exact absurd (List.mem_map_of_mem (f := Prod.fst) may) hkey

private theorem lookup_eq_none_of_not_mem {key : String} (h : key ∉ fields.map Prod.fst) :
    fields.lookup key = none := by
  rw [List.lookup_eq_none_iff]
  intro field hfield
  rw [bne_iff_ne]
  rintro rfl
  exact h (List.mem_map_of_mem hfield)

/-- A field is found as before, or it is gone and was one that may be left out. -/
theorem lookup (h : KeptFields omissible R fields kept) (hnodup : (fields.map Prod.fst).Nodup) {key : String}
    {j : Json} (hj : fields.lookup key = some j) :
    (∃ k, kept.lookup key = some k ∧ R j k) ∨ (kept.lookup key = none ∧ (key, j) ∈ omissible) := by
  induction h with
  | nil => cases hj
  | keep other value _ ih =>
    rw [List.lookup_cons] at hj ⊢
    by_cases hkey : key = other
    · subst hkey
      simp only [beq_self_eq_true] at hj ⊢
      obtain rfl := Option.some.inj hj
      exact .inl ⟨_, rfl, value⟩
    · rw [beq_eq_false_iff_ne.mpr hkey] at hj ⊢
      exact ih (List.nodup_cons.mp hnodup).2 hj
  | @leave field fields kept may more ih =>
    obtain ⟨other, value⟩ := field
    obtain ⟨hfirst, hrest⟩ := List.nodup_cons.mp hnodup
    rw [List.lookup_cons] at hj
    by_cases hkey : key = other
    · subst hkey
      simp only [beq_self_eq_true] at hj
      obtain rfl := Option.some.inj hj
      exact .inr ⟨lookup_eq_none_of_not_mem fun hmem => hfirst (more.keys_sublist.mem hmem), may⟩
    · rw [beq_eq_false_iff_ne.mpr hkey] at hj
      exact ih hrest hj

end KeptFields

theorem Abridged.fields {fields : List (String × Json)} {k : Json} (h : Abridged omissible (Json.obj fields) k) :
    ∃ kept, k = Json.obj kept ∧ KeptFields omissible (Abridged omissible) fields kept := by
  cases h with
  | same => exact ⟨fields, rfl, .refl .same fields⟩
  | obj h => exact ⟨_, rfl, h⟩

theorem Abridged.items {items : List Json} {k : Json} (h : Abridged omissible (Json.arr items) k) :
    ∃ kept, k = Json.arr kept ∧ List.Forall₂ (Abridged omissible) items kept := by
  cases h with
  | same => exact ⟨items, rfl, List.forall₂_same.mpr fun j _ => .same j⟩
  | arr h => exact ⟨_, rfl, h⟩

/-- What is left out does not make a value less plain. -/
theorem Abridged.plain {j k : Json} (h : Abridged omissible j k) (hj : Plain j) : Plain k := by
  induction hj generalizing k with
  | @arr items items_plain ih =>
    obtain ⟨kept, rfl, hitems⟩ := h.items
    refine .arr ?_
    clear h items_plain
    induction hitems with
    | nil => simp
    | cons hfirst _ ihRest =>
      obtain ⟨ihFirst, ihMore⟩ := List.forall_mem_cons.mp ih
      exact List.forall_mem_cons.mpr ⟨ihFirst hfirst, ihRest ihMore⟩
  | obj _ ih =>
    obtain ⟨kept, rfl, hfields⟩ := h.fields
    refine .obj ?_
    intro field hfield
    obtain ⟨whole, hwhole, hR⟩ := hfields.exists_of_mem hfield
    exact ih whole hwhole hR
  | null => cases h; exact .null
  | bool b => cases h; exact .bool b
  | nat n => cases h; exact .nat n
  | str s => cases h; exact .str s

/-- A reader gets `a` from a value, and from what is left of it. -/
def Reads {α : Type} (omissible : List (String × Json)) (read : Json → Option α) (j : Json) (a : α) : Prop :=
  ∀ k, Abridged omissible j k → read k = some a

namespace Reads

variable {α : Type} {read : Json → Option α} {write : α → Json}

/-- A value with nothing left out is read. -/
theorem eq {j : Json} {a : α} (h : Reads omissible read j a) : read j = some a := h j (.same j)

theorem str (s : String) : Reads omissible str? (str s) s := by
  intro k h
  cases h
  rfl

theorem bool (b : Bool) : Reads omissible bool? (bool b) b := by
  intro k h
  cases h
  rfl

theorem natBelow {bound n : Nat} (hn : n < bound) : Reads omissible (natBelow? bound) (nat n) n := by
  intro k h
  cases h
  exact if_pos hn

theorem map {β : Type} {j : Json} {a : α} (f : α → β) (h : Reads omissible read j a) :
    Reads omissible (fun j => (read j).map f) j (f a) := by
  intro k hk
  exact congrArg (Option.map f) (h k hk)

theorem uint16 (n : UInt16) : Reads omissible uint16? (nat n.toNat) n := by
  have h : Reads omissible uint16? (nat n.toNat) (UInt16.ofNat n.toNat) := (natBelow n.toNat_lt_size).map _
  rwa [UInt16.ofNat_toNat] at h

theorem uint32 (n : UInt32) : Reads omissible uint32? (nat n.toNat) n := by
  have h : Reads omissible uint32? (nat n.toNat) (UInt32.ofNat n.toNat) := (natBelow n.toNat_lt_size).map _
  rwa [UInt32.ofNat_toNat] at h

theorem uint64 (n : UInt64) : Reads omissible uint64? (nat n.toNat) n := by
  have h : Reads omissible uint64? (nat n.toNat) (UInt64.ofNat n.toNat) := (natBelow n.toNat_lt_size).map _
  rwa [UInt64.ofNat_toNat] at h

/-- A list is read by its items. -/
theorem list {items : List α} (h : ∀ a ∈ items, Reads omissible read (write a) a) :
    Reads omissible (list? read) (ofList write items) items := by
  intro k hk
  obtain ⟨kept, rfl, hkept⟩ := hk.items
  change kept.mapM read = some items
  clear hk
  induction items generalizing kept with
  | nil =>
    cases hkept
    rfl
  | cons a items ih =>
    obtain ⟨ha, hitems⟩ := List.forall_mem_cons.mp h
    cases hkept with
    | cons hfirst hrest => simp [List.mapM_cons, ha _ hfirst, ih hitems _ hrest]

theorem listOf? {write? : α → Option Json} {items : List α} {j : Json} (hj : ofList? write? items = some j)
    (h : ∀ a ∈ items, ∀ k, write? a = some k → Reads omissible read k a) :
    Reads omissible (Json.list? read) j items := by
  obtain ⟨write, hwrite, rfl⟩ := exists_write_of_ofList? hj
  exact list fun a ha => h a ha _ (hwrite a ha)

theorem strings (texts : List String) : Reads omissible strings? (strings texts) texts :=
  list fun s _ => str s

/-- A value that may be missing is told from a missing one by null. -/
theorem orNull (hnull : read null = none) {o : Option α} (h : ∀ a ∈ o, Reads omissible read (write a) a) :
    Reads omissible (orNull? read) (ofOption write o) o := by
  intro k hk
  cases o with
  | none =>
    cases hk
    rfl
  | some a =>
    have hread : read k = some a := h a rfl k hk
    cases k with
    | null => simp [hnull] at hread
    | _ => exact congrArg (Option.map some) hread

end Reads

private theorem occurrences_eq_count (key : String) (fields : List (String × Json)) :
    occurrences key fields = (fields.map Prod.fst).count key := by
  rw [occurrences, ← List.countP_eq_length_filter, List.count, List.countP_map]
  rfl

/-- An object is a record if no key of the record comes twice. Other keys do not count. -/
theorem record?_obj_of_known {keys : List String} {fields : List (String × Json)}
    (h : ((fields.filter fun field => keys.contains field.1).map Prod.fst).Nodup) :
    record? keys (obj fields) = some ⟨fun key => fields.lookup key, false⟩ := by
  have hkeys : (keys.all (occurrences · fields ≤ 1)) = true := by
    rw [List.all_eq_true]
    intro key hkey
    have hknown : occurrences key fields = occurrences key (fields.filter fun field => keys.contains field.1) := by
      unfold occurrences
      rw [List.filter_filter]
      congr 1
      apply List.filter_congr
      intro field _
      by_cases hfield : field.1 = key
      · simp [hfield, hkey]
      · simp [hfield]
    rw [decide_eq_true_iff, hknown, occurrences_eq_count]
    exact List.nodup_iff_count_le_one.mp h key
  exact if_pos hkeys

theorem record?_obj {fields : List (String × Json)} (h : (fields.map Prod.fst).Nodup) (keys : List String) :
    record? keys (obj fields) = some ⟨fun key => fields.lookup key, false⟩ :=
  record?_obj_of_known (h.sublist (List.filter_sublist.map Prod.fst))

namespace Record

variable {α : Type} {read : Json → Option α} {r : Record} {fields : List (String × Json)} {key : String} {j : Json}
  {a : α}

/-- A record given by key, with what is left of some fields. -/
structure Offers (omissible : List (String × Json)) (r : Record) (fields : List (String × Json)) : Prop where
  byKey : r.positional = false
  get? : ∀ key j, fields.lookup key = some j →
    (∃ k, r.get? key = some k ∧ Abridged omissible j k) ∨ (r.get? key = none ∧ (key, j) ∈ omissible)

/-- A record with fields left out still offers all of them, those left out by their defaults. -/
theorem exists_offers {k : Json} (hnodup : (fields.map Prod.fst).Nodup) (h : Abridged omissible (obj fields) k)
    (keys : List String) : ∃ r : Record, record? keys k = some r ∧ r.Offers omissible fields := by
  obtain ⟨kept, rfl, hkept⟩ := h.fields
  have hkeys : (kept.map Prod.fst).Nodup := hkept.keys_sublist.nodup hnodup
  exact ⟨_, record?_obj hkeys keys, rfl, fun _ _ hj => hkept.lookup hnodup hj⟩

/-- A field that has to be there is not one that may be left out. -/
theorem Offers.field? (h : r.Offers omissible fields) (hj : fields.lookup key = some j)
    (hkey : key ∉ omissible.map Prod.fst) (hread : Reads omissible read j a) : r.field? key read = some a := by
  unfold Record.field?
  rcases h.get? key j hj with ⟨k, hk, habridged⟩ | ⟨-, hmem⟩
  · rw [hk]
    exact hread k habridged
  · exact absurd (List.mem_map_of_mem (f := Prod.fst) hmem) hkey

/-- A field may be left out where it has its default value. -/
theorem Offers.fieldD? (h : r.Offers omissible fields) (hj : fields.lookup key = some j) {default : α}
    (hdefault : (key, j) ∈ omissible → a = default) (hread : Reads omissible read j a) :
    r.fieldD? key default read = some a := by
  unfold Record.fieldD?
  rcases h.get? key j hj with ⟨k, hk, habridged⟩ | ⟨hnone, hmem⟩
  · rw [hk]
    exact hread k habridged
  · rw [hnone, hdefault hmem]

theorem Offers.nullable? {o : Option α} (h : r.Offers omissible fields) (hj : fields.lookup key = some j)
    (hkey : key ∉ omissible.map Prod.fst) (hread : Reads omissible (orNull? read) j o) :
    r.nullable? key read = some o := by
  unfold Record.nullable?
  rcases h.get? key j hj with ⟨k, hk, habridged⟩ | ⟨-, hmem⟩
  · rw [hk]
    exact hread k habridged
  · exact absurd (List.mem_map_of_mem (f := Prod.fst) hmem) hkey

end Record

end EventAtlas.Json

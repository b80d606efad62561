import EventAtlas.IndicatorFile
import EventAtlas.Proofs.Files.FileSystem
import EventAtlas.Proofs.Json.Record
import Mathlib.Data.List.Perm.Basic

namespace EventAtlas

open Text

section Lookup

variable {α : Type}

/-- Fields that are taken out by their keys are found no more, and the others as before. -/
theorem lookup_filter_key (keep : String → Bool) (key : String) (fields : List (String × α)) :
    (fields.filter fun field => keep field.1).lookup key = if keep key then fields.lookup key else none := by
  induction fields with
  | nil => simp
  | cons field fields ih =>
    obtain ⟨other, a⟩ := field
    rw [List.filter_cons, List.lookup_cons]
    by_cases hkey : key = other
    · subst hkey
      cases hkeep : keep key with
      | true => simp
      | false => simpa [hkeep] using ih
    · have hother : (key == other) = false := beq_eq_false_iff_ne.mpr hkey
      cases keep other with
      | true => simpa [List.lookup_cons, hother] using ih
      | false => simpa [hother] using ih

end Lookup

namespace Indicators

/-- A list with a token that is more than white space. -/
def HasToken (tokens : List String) : Prop := ∃ token ∈ tokens, ∃ c ∈ token.toList, isBlank c = false

theorem all_allBlank_iff {tokens : List String} :
    (tokens.all fun token => allBlank token.toList) = true ↔ ¬HasToken tokens := by
  simp [HasToken, allBlank]

theorem missing?_eq_none_iff {s : Indicators} : s.missing? = none ↔ ∀ entry ∈ s.required, HasToken entry.2 := by
  rw [missing?, Option.map_eq_none_iff, List.find?_eq_none]
  refine forall₂_congr fun entry _ => ?_
  change ¬(entry.2.all fun token => allBlank token.toList) = true ↔ _
  rw [all_allBlank_iff, not_not]

/-- The key that is reported is that of the first list without a token. -/
theorem missing?_eq_some_iff {s : Indicators} {key : String} :
    s.missing? = some key ↔ ∃ before tokens after, s.required = before ++ (key, tokens) :: after ∧
      (∀ entry ∈ before, HasToken entry.2) ∧ ¬HasToken tokens := by
  have hpresent {entry : String × List String} :
      (!entry.2.all fun token => allBlank token.toList) = true ↔ HasToken entry.2 := by
    rw [Bool.not_eq_true', ← Bool.not_eq_true, all_allBlank_iff, not_not]
  rw [missing?, Option.map_eq_some_iff]
  constructor
  · intro h
    obtain ⟨⟨found, tokens⟩, hfound, rfl⟩ := h
    obtain ⟨hmissing, before, after, hrequired, hbefore⟩ := List.find?_eq_some_iff_append.mp hfound
    exact ⟨before, tokens, after, hrequired, fun entry hentry => hpresent.mp (hbefore entry hentry),
      all_allBlank_iff.mp hmissing⟩
  · intro h
    obtain ⟨before, tokens, after, hrequired, hbefore, hmissing⟩ := h
    refine ⟨(key, tokens), List.find?_eq_some_iff_append.mpr ⟨all_allBlank_iff.mpr hmissing, before, after,
      hrequired, ?_⟩, rfl⟩
    intro entry hentry
    exact hpresent.mpr (hbefore entry hentry)

/-- The fields of the object that all indicators are written as. -/
def fields (s : Indicators) : List (String × Json) :=
  match s.toJson with
  | .obj fields => fields
  | _ => []

/-- The indicators of `s` under the chosen keys, and the default ones under the others. -/
def overlaid (s : Indicators) (chosen : List String) : Indicators :=
  let d : Indicators := {}
  { testProjectMarkers := if chosen.contains "test_project_markers" then s.testProjectMarkers
      else d.testProjectMarkers
    backgroundJobMarkers := if chosen.contains "background_job_markers" then s.backgroundJobMarkers
      else d.backgroundJobMarkers
    jobInterfaceToken := if chosen.contains "job_interface_token" then s.jobInterfaceToken
      else d.jobInterfaceToken
    publisherMethods := if chosen.contains "publisher_methods" then s.publisherMethods else d.publisherMethods
    publisherTypes := if chosen.contains "publisher_types" then s.publisherTypes else d.publisherTypes
    publisherFieldSuffixes := if chosen.contains "publisher_field_suffixes" then s.publisherFieldSuffixes
      else d.publisherFieldSuffixes
    eventSuffixes := if chosen.contains "event_suffixes" then s.eventSuffixes else d.eventSuffixes
    eventBaseTypes := if chosen.contains "event_base_types" then s.eventBaseTypes else d.eventBaseTypes
    handlerInterfaces := if chosen.contains "handler_interfaces" then s.handlerInterfaces
      else d.handlerInterfaces
    registrationKeywords := if chosen.contains "registration_keywords" then s.registrationKeywords
      else d.registrationKeywords
    entryUnitTokens := if chosen.contains "entry_unit_tokens" then s.entryUnitTokens else d.entryUnitTokens }

/-- The fields of an object that gives the chosen keys of `s`, in any order. It may have other fields, as long as
no indicators have their keys. -/
def GivenBy (s : Indicators) (chosen : List String) (given : List (String × Json)) : Prop :=
  (given.filter fun field => keys.contains field.1).Perm (s.fields.filter fun field => chosen.contains field.1)

section Given

variable {s : Indicators} {chosen : List String} {given : List (String × Json)} (h : s.GivenBy chosen given)

private theorem fields_nodup (s : Indicators) : (s.fields.map Prod.fst).Nodup := by
  change keys.Nodup
  decide

theorem chosen_nodup (s : Indicators) (chosen : List String) :
    ((s.fields.filter fun field => chosen.contains field.1).map Prod.fst).Nodup :=
  s.fields_nodup.sublist (List.filter_sublist.map Prod.fst)

include h

theorem GivenBy.record? : Json.record? keys (.obj given) = some ⟨fun key => given.lookup key, false⟩ :=
  Json.record?_obj_of_known ((h.map Prod.fst).nodup_iff.mpr (s.chosen_nodup chosen))

/-- A chosen key is found with its value, and another one is not found. -/
theorem GivenBy.lookup {key : String} (hkey : keys.contains key = true) :
    given.lookup key = if chosen.contains key then s.fields.lookup key else none := by
  have hknown := lookup_filter_key keys.contains key given
  rw [if_pos hkey] at hknown
  rw [← hknown, lookup_eq_of_perm (s.chosen_nodup chosen) h key, lookup_filter_key]

/-- A field that the file gives has its value from there, and every other one keeps its default. -/
theorem GivenBy.fieldD? {α : Type} {read : Json → Option α} (key : String) {j : Json} {a : α}
    (hkey : keys.contains key = true) (hj : s.fields.lookup key = some j) (hread : read j = some a) (default : α) :
    Json.Record.fieldD? ⟨fun key => given.lookup key, false⟩ key default read =
      some (if chosen.contains key then a else default) := by
  unfold Json.Record.fieldD?
  dsimp only
  rw [h.lookup hkey]
  split_ifs with hchosen
  · rw [hj]
    exact hread
  · rfl

theorem GivenBy.strings? (key : String) {texts : List String} (hkey : keys.contains key = true)
    (hj : s.fields.lookup key = some (.strings texts)) (default : List String) :
    Json.Record.fieldD? ⟨fun key => given.lookup key, false⟩ key default Json.strings? =
      some (if chosen.contains key then texts else default) := by
  have hread : Json.Reads [] Json.strings? (.strings texts) texts := .strings texts
  exact h.fieldD? key hkey hj hread.eq default

/-- What is read from a file are the defaults with what the file gives laid over them. -/
theorem GivenBy.ofJson? : ofJson? (.obj given) = some (s.overlaid chosen) := by
  have hjob := h.fieldD? "job_interface_token" rfl rfl (show Json.str? (.str s.jobInterfaceToken) = _ from rfl)
  unfold Indicators.ofJson?
  refine Option.bind_eq_some_iff.mpr ⟨_, h.record?, ?_⟩
  refine Option.bind_eq_some_iff.mpr ⟨_, h.strings? "test_project_markers" rfl rfl _, ?_⟩
  refine Option.bind_eq_some_iff.mpr ⟨_, h.strings? "background_job_markers" rfl rfl _, ?_⟩
  refine Option.bind_eq_some_iff.mpr ⟨_, hjob _, ?_⟩
  refine Option.bind_eq_some_iff.mpr ⟨_, h.strings? "publisher_methods" rfl rfl _, ?_⟩
  refine Option.bind_eq_some_iff.mpr ⟨_, h.strings? "publisher_types" rfl rfl _, ?_⟩
  refine Option.bind_eq_some_iff.mpr ⟨_, h.strings? "publisher_field_suffixes" rfl rfl _, ?_⟩
  refine Option.bind_eq_some_iff.mpr ⟨_, h.strings? "event_suffixes" rfl rfl _, ?_⟩
  refine Option.bind_eq_some_iff.mpr ⟨_, h.strings? "event_base_types" rfl rfl _, ?_⟩
  refine Option.bind_eq_some_iff.mpr ⟨_, h.strings? "handler_interfaces" rfl rfl _, ?_⟩
  refine Option.bind_eq_some_iff.mpr ⟨_, h.strings? "registration_keywords" rfl rfl _, ?_⟩
  refine Option.bind_eq_some_iff.mpr ⟨_, h.strings? "entry_unit_tokens" rfl rfl _, ?_⟩
  rfl

end Given

end Indicators

/-- The file at a path holds a text of the value. -/
def FileSystem.HoldsJson (fs : FileSystem) (path : Path) (j : Json) : Prop :=
  ∃ text : String, fs.find? path = some (.file text.toUTF8) ∧ Json.ElementText j text.toList

namespace Indicators

private theorem load_of_holdsJson {fs : FileSystem} {path : Path} {j : Json} (h : fs.HoldsJson path j) {s : Indicators}
    (hs : ofJson? j = some s) : load fs path = s.validate := by
  obtain ⟨text, hfile, htext⟩ := h
  unfold load ofText
  rw [FileSystem.readText_of_find? hfile]
  dsimp only
  rw [Json.parse?_of_text htext, Option.bind_some, hs]

theorem validate_eq_ok_iff {s loaded : Indicators} : s.validate = .ok loaded ↔ s.missing? = none ∧ loaded = s := by
  unfold validate
  cases s.missing? with
  | none => simp [eq_comm]
  | some key => simp

theorem validate_eq_error_iff {s : Indicators} {e : IndicatorError} :
    s.validate = .error e ↔ ∃ key, s.missing? = some key ∧ e = .noToken key := by
  unfold validate
  cases s.missing? with
  | none => simp
  | some key => simp [eq_comm]

/-- A file that gives some of the keys loads as the default indicators with the given ones over them, if every
required list then has a token. Otherwise the error names the first required list that has none. -/
theorem load_overlaid {fs : FileSystem} {path : Path} {s : Indicators} {chosen : List String}
    {given : List (String × Json)} (hgiven : s.GivenBy chosen given) (hfile : fs.HoldsJson path (.obj given)) :
    (∀ loaded, load fs path = .ok loaded ↔
      (∀ entry ∈ (s.overlaid chosen).required, HasToken entry.2) ∧ loaded = s.overlaid chosen) ∧
    (∀ e, load fs path = .error e ↔
      ∃ before key tokens after, (s.overlaid chosen).required = before ++ (key, tokens) :: after ∧
        (∀ entry ∈ before, HasToken entry.2) ∧ ¬HasToken tokens ∧ e = .noToken key) := by
  have hload := load_of_holdsJson hfile hgiven.ofJson?
  constructor
  · intro loaded
    rw [hload, validate_eq_ok_iff, missing?_eq_none_iff]
  · intro e
    rw [hload, validate_eq_error_iff]
    constructor
    · intro h
      obtain ⟨key, hkey, rfl⟩ := h
      obtain ⟨before, tokens, after, hrequired, hbefore, hmissing⟩ := missing?_eq_some_iff.mp hkey
      exact ⟨before, key, tokens, after, hrequired, hbefore, hmissing, rfl⟩
    · intro h
      obtain ⟨before, key, tokens, after, hrequired, hbefore, hmissing, rfl⟩ := h
      exact ⟨key, missing?_eq_some_iff.mpr ⟨before, tokens, after, hrequired, hbefore, hmissing⟩, rfl⟩

/-- Indicators of which a file gives two lists, one of them without a token. -/
def sparse : Indicators := { publisherMethods := ["Emit"], eventSuffixes := ["", "\t"] }

def sparseFields : List (String × Json) :=
  [("event_suffixes", .strings sparse.eventSuffixes), ("comment", .null),
    ("publisher_methods", .strings sparse.publisherMethods)]

def sparseFiles : FileSystem where
  root := .directory [("indicators.json", .file (String.ofList (Json.obj sparseFields).pretty).toUTF8)]

theorem sparseFiles_load :
    sparse.GivenBy ["publisher_methods", "event_suffixes"] sparseFields ∧
      sparseFiles.HoldsJson ⟨"indicators.json"⟩ (.obj sparseFields) ∧
      load sparseFiles ⟨"indicators.json"⟩ = .error (.noToken "event_suffixes") := by
  have hgiven : sparse.GivenBy ["publisher_methods", "event_suffixes"] sparseFields := by
    exact List.Perm.swap _ _ _
  have hplain : Json.Plain (.obj sparseFields) := by
    refine .obj ?_
    intro field hfield
    simp only [sparseFields, List.mem_cons, List.not_mem_nil, or_false] at hfield
    obtain rfl | rfl | rfl := hfield
    · exact .strings _
    · exact .null
    · exact .strings _
  have hfile : sparseFiles.HoldsJson ⟨"indicators.json"⟩ (.obj sparseFields) := by
    refine ⟨_, rfl, ?_⟩
    rw [String.toList_ofList]
    exact Json.Layout.indented.elementText_write hplain
  have hmethods : HasToken ["Emit"] := ⟨"Emit", by simp, 'E', by decide⟩
  have hsuffixes : ¬HasToken ["", "\t"] := by
    rw [← all_allBlank_iff]
    decide
  refine ⟨hgiven, hfile, ?_⟩
  apply ((load_overlaid hgiven hfile).2 _).mpr
  refine ⟨[("publisher_methods", ["Emit"])], "event_suffixes", ["", "\t"], _, rfl, ?_, hsuffixes, rfl⟩
  intro entry hentry
  obtain rfl := List.mem_singleton.mp hentry
  exact hmethods

end Indicators

end EventAtlas

import EventAtlas.Proofs.Report.Facts

namespace EventAtlas

namespace Facts

/-- Each list of the whole is the lists of the parts in a row. -/
theorem concat_eq (parts : List Facts) :
    concat parts = ⟨parts.flatMap events, parts.flatMap publications, parts.flatMap consumptions,
      parts.flatMap subscriptions⟩ := by
  rw [← concat_events, ← concat_publications, ← concat_consumptions, ← concat_subscriptions]

theorem concat_cons (f : Facts) (parts : List Facts) : concat (f :: parts) = f ++ concat parts := by
  rw [concat_eq, concat_eq]
  simp only [List.flatMap_cons]
  rfl

/-- Which facts of each sort to keep. -/
structure Selection where
  event : EventDefinition → Bool := fun _ => true
  publication : Publication → Bool := fun _ => true
  consumption : Consumption → Bool := fun _ => true
  subscription : Subscription → Bool := fun _ => true

namespace Selection

/-- Publications and consumptions outside background jobs are left out. -/
def inJobs : Selection where
  publication := (·.inBackgroundJob)
  consumption := (·.inBackgroundJob)

/-- Publications are left out. -/
def notPublications : Selection where
  publication _ := false

/-- What was found at some of the origins. -/
def ofOrigin (keep : Origin → Bool) : Selection where
  event e := keep e.origin
  publication p := keep p.origin
  consumption c := keep c.origin
  subscription s := keep s.origin

end Selection

/-- The facts that a selection keeps, in their places. -/
def select (sel : Selection) (f : Facts) : Facts where
  events := f.events.filter sel.event
  publications := f.publications.filter sel.publication
  consumptions := f.consumptions.filter sel.consumption
  subscriptions := f.subscriptions.filter sel.subscription

theorem select_all (f : Facts) : f.select {} = f := by
  simp only [select, List.filter_true]

@[simp] theorem select_notPublications_events (f : Facts) : (f.select .notPublications).events = f.events :=
  List.filter_true f.events

@[simp] theorem select_notPublications_consumptions (f : Facts) :
    (f.select .notPublications).consumptions = f.consumptions :=
  List.filter_true f.consumptions

@[simp] theorem select_notPublications_subscriptions (f : Facts) :
    (f.select .notPublications).subscriptions = f.subscriptions :=
  List.filter_true f.subscriptions

/-- Keeping background jobs only is a selection. -/
theorem inBackgroundJobs_eq_select (f : Facts) : f.inBackgroundJobs = f.select .inJobs := by
  simp only [inBackgroundJobs, select, Selection.inJobs, List.filter_true]

theorem select_append (sel : Selection) (f g : Facts) : (f ++ g).select sel = f.select sel ++ g.select sel := by
  change (append f g).select sel = append (f.select sel) (g.select sel)
  simp only [select, append, List.filter_append]

/-- What is selected from the whole is what is selected from the parts. -/
theorem select_concat (sel : Selection) (parts : List Facts) :
    (concat parts).select sel = concat (parts.map (select sel)) := by
  induction parts with
  | nil => rfl
  | cons f parts ih => rw [List.map_cons, concat_cons, concat_cons, select_append, ih]

/-- Selections can be made in either order. -/
theorem select_comm (sel sel' : Selection) (f : Facts) :
    (f.select sel).select sel' = (f.select sel').select sel := by
  simp only [select, List.filter_filter, Bool.and_comm]

/-- Selecting keeps the order of what stays. -/
theorem select_sorted (sel : Selection) (f : Facts) : f.sorted.select sel = (f.select sel).sorted := by
  simp only [select, sorted, filter_sortBy]

end Facts

def Consumption.withoutSnippet (c : Consumption) : Consumption := { c with snippet := none }

namespace Facts

/-- The facts without the bodies of handlers. -/
def withoutSnippets (f : Facts) : Facts := { f with consumptions := f.consumptions.map (·.withoutSnippet) }

theorem withoutSnippets_concat (parts : List Facts) :
    (concat parts).withoutSnippets = concat (parts.map withoutSnippets) := by
  rw [concat_eq, concat_eq]
  simp only [withoutSnippets, List.flatMap_map, List.map_flatMap]

/-- The order of a report does not look at the bodies of handlers. -/
theorem withoutSnippets_sorted (f : Facts) : f.sorted.withoutSnippets = f.withoutSnippets.sorted := by
  have hconsumptions : (sortBy Consumption.order f.consumptions).map (·.withoutSnippet) =
      sortBy Consumption.order (f.consumptions.map (·.withoutSnippet)) :=
    (sortBy_map Consumption.withoutSnippet Consumption.order f.consumptions).symm
  simp only [withoutSnippets, sorted, hconsumptions]

/-- Snippets do not bear on background jobs. -/
theorem withoutSnippets_select_inJobs (f : Facts) :
    (f.select .inJobs).withoutSnippets = f.withoutSnippets.select .inJobs := by
  simp only [withoutSnippets, select, List.filter_map]
  rfl

end Facts

end EventAtlas

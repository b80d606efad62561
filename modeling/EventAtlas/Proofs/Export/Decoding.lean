import EventAtlas.Proofs.Export.Cypher

namespace EventAtlas.Cypher

open FlowGraph

/-- The name of a node and the values of its properties. -/
def nodeValues (n : Node) : List String := n.name :: n.properties.map Prod.snd

def graphValues (g : FlowGraph) : List String := g.nodes.flatMap nodeValues

/-- A value as it is read back. -/
def decoded (value : String) : List Char := withoutReturns value.toList

/-- The value of a property is read back from its text. -/
theorem quotedValues_property {p : String × String} (h : IsWord p.1.toList) (rest : List Char) :
    quotedValues (property p ++ rest) = decoded p.2 :: quotedValues rest := by
  have hkey : '\'' ∉ p.1.toList ++ [':', ' '] := List.not_mem_append (h.not_mem (by decide)) (by decide)
  have hsplit : property p ++ rest = (p.1.toList ++ [':', ' ']) ++ (literal p.2 ++ rest) := by
    rw [property_append]
    simp
  rw [hsplit, quotedValues_append hkey, quotedValues_literal]
  rfl

private theorem quotedValues_moreProperties {more : List (String × String)} (h : ∀ p ∈ more, IsWord p.1.toList)
    (rest : List Char) :
    quotedValues (moreProperties more ++ rest) = more.map (fun p => decoded p.2) ++ quotedValues rest := by
  induction more with
  | nil => rfl
  | cons p more ih =>
    have hcomma : '\'' ∉ ", ".toList := by decide
    unfold moreProperties at ih ⊢
    rw [List.flatMap_cons, List.append_assoc, List.append_assoc, quotedValues_append hcomma,
      quotedValues_property (h p List.mem_cons_self), ih fun q hq => h q (List.mem_cons_of_mem _ hq)]
    rfl

private theorem quotedValues_nodeStatement {n : Node} (h : HasWordKeys n) (i : Nat) (rest : List Char) :
    quotedValues (nodeStatement n i ++ rest) = (nodeValues n).map decoded ++ quotedValues rest := by
  have hopening := (nodeOpening_framed n i).not_mem (c := '\'') (by decide)
  have hend : '\'' ∉ ['}', ')'] := by decide
  rw [nodeStatement_eq, List.append_assoc, List.append_assoc, List.append_assoc, quotedValues_append hopening,
    quotedValues_property name_isWord, quotedValues_moreProperties h,
    quotedValues_append hend]
  simp [nodeValues]

private theorem quotedValues_nodes {nodes : List Node} (h : ∀ n ∈ nodes, HasWordKeys n) (start : Nat)
    (rest : List Char) :
    quotedValues (((nodes.zipIdx start).map fun (n, i) => nodeStatement n i).flatMap (· ++ ['\n']) ++ rest) =
      (nodes.flatMap nodeValues).map decoded ++ quotedValues rest := by
  induction nodes generalizing start with
  | nil => rfl
  | cons n nodes ih =>
    have hnewline : '\'' ∉ ['\n'] := by decide
    rw [List.zipIdx_cons, List.map_cons, List.flatMap_cons, List.append_assoc, List.append_assoc,
      quotedValues_nodeStatement (h n List.mem_cons_self), quotedValues_append hnewline,
      ih fun m hm => h m (List.mem_cons_of_mem _ hm)]
    simp

/-- The literals of a script are the values of its nodes, and nothing else is quoted. -/
theorem quotedValues_script (generatedAt : Timestamp) {g : FlowGraph} (h : ∀ n ∈ g.nodes, HasWordKeys n) :
    quotedValues (script generatedAt g) = (graphValues g).map decoded := by
  have hhead : '\'' ∉ headLine generatedAt ++ ['\n'] := by
    have htime := Timestamp.not_mem_textWith (c := '\'') (by decide) (by decide)
      (show '\'' ∉ "+00:00".toList by decide) generatedAt
    exact List.not_mem_append (List.not_mem_append (by decide) htime) (by decide)
  have hrest : '\'' ∉ (g.edges.map (edgeStatement g.nodes) ++ [[';']]).flatMap (· ++ ['\n']) := by
    intro hmem
    obtain ⟨line, hline, hmem⟩ := List.mem_flatMap.mp hmem
    refine List.not_mem_append ?_ (by decide) hmem
    rcases List.mem_append.mp hline with hline | hline
    · obtain ⟨e, -, rfl⟩ := List.mem_map.mp hline
      exact (edgeStatement_framed g.nodes e).not_mem (by decide)
    · obtain rfl := List.mem_singleton.mp hline
      decide
  have hend := quotedValues_append hrest []
  rw [List.append_nil] at hend
  rw [script_eq_lines, scriptLines, List.flatMap_cons, quotedValues_append hhead, statements, List.append_assoc,
    List.flatMap_append, quotedValues_nodes h, hend]
  simp [graphValues, quotedValues]

/-- No string and no path of a report has a carriage return. -/
def NoReturns (f : Facts) : Prop := ∀ text ∈ f.strings, '\r' ∉ text.toList

theorem hasWordKeys_ofFacts {f : Facts} {n : Node} (hn : n ∈ (ofFacts f).nodes) : HasWordKeys n := by
  have hkeys : propertyKeys.all (fun key => key.toList.all Char.isAlphanum) = true := by decide
  intro p hp
  exact isWord_of_all (List.all_eq_true.mp hkeys p.1 (ofFacts_keys hn p hp))

private theorem return_not_mem_intercalate {items : List String} (h : ∀ item ∈ items, '\r' ∉ item.toList) :
    '\r' ∉ (", ".intercalate items).toList := by
  rw [String.toList_intercalate]
  induction items with
  | nil => simp
  | cons item items ih =>
    have hitem := h item List.mem_cons_self
    have hrest := ih fun other hother => h other (List.mem_cons_of_mem _ hother)
    cases items with
    | nil => simpa using hitem
    | cons next items =>
      rw [List.map_cons, List.map_cons, List.intercalate_cons_cons]
      exact List.not_mem_append (List.not_mem_append hitem (by decide)) hrest

theorem return_not_mem_place {o : Origin} (hpath : '\r' ∉ o.path.shown.toList) (position : Nat) :
    ∀ p ∈ place o position, '\r' ∉ p.2.toList := by
  have hdigits : '\r' ∉ Nat.toDigits 10 position := fun h => absurd (isDigit_of_mem_toDigits h) (by decide)
  simp [place, hpath, hdigits]

theorem return_not_mem_jobProperty (inJob : Bool) : '\r' ∉ (jobProperty inJob).2.toList := by
  cases inJob <;> decide

private theorem factsShowGood_of_noReturns {f : Facts} (h : NoReturns f) :
    FactsShowGood (fun text => '\r' ∉ text.toList) f := by
  simp only [NoReturns, Facts.strings, List.mem_append, List.mem_flatMap, or_imp, forall_and, forall_exists_index,
    and_imp] at h
  obtain ⟨⟨⟨hevents, hpublications⟩, hconsumptions⟩, hsubscriptions⟩ := h
  have hkeys := factsShowGood_true f
  constructor
  · intro e he
    have htext := fun text => hevents text e he
    simp only [EventDefinition.strings, Origin.strings, List.mem_append, List.mem_cons] at htext
    refine ⟨⟨htext _ (by simp), htext _ (by simp)⟩, htext _ (by simp), htext _ (by simp), ?_⟩
    exact return_not_mem_intercalate fun item hitem => htext item (by simp [hitem])
  · intro p hp
    have htext := fun text => hpublications text p hp
    simp only [Publication.strings, Origin.strings, List.mem_append, List.mem_cons] at htext
    have hclass : '\r' ∉ p.className.toList := htext _ (by simp)
    have hmethod : '\r' ∉ p.methodName.toList := htext _ (by simp)
    refine ⟨⟨htext _ (by simp), htext _ (by simp)⟩, ⟨?_, (hkeys.publications p hp).2.1.keys, ?_⟩,
      htext _ (by simp)⟩
    · simp [publicationNode, hclass, hmethod]
    · refine List.forall_mem_append.mpr ⟨return_not_mem_place (htext _ (by simp)) p.position, ?_⟩
      simpa using return_not_mem_jobProperty p.inBackgroundJob
  · intro c hc
    have htext := fun text => hconsumptions text c hc
    simp only [Consumption.strings, Origin.strings, List.mem_append, List.mem_cons] at htext
    refine ⟨⟨htext _ (by simp), htext _ (by simp)⟩,
      ⟨htext c.handlerClass (by simp), (hkeys.consumptions c hc).2.1.keys, ?_⟩, htext _ (by simp)⟩
    refine List.forall_mem_append.mpr ⟨return_not_mem_place (htext _ (by simp)) c.position, ?_⟩
    simpa using return_not_mem_jobProperty c.inBackgroundJob
  · intro s hs
    have htext := fun text => hsubscriptions text s hs
    simp only [Subscription.strings, Origin.strings, List.mem_append, List.mem_cons] at htext
    refine ⟨⟨htext _ (by simp), htext _ (by simp)⟩,
      ⟨?_, (hkeys.subscriptions s hs).2.1.keys, return_not_mem_place (htext _ (by simp)) s.position⟩,
      htext _ (by simp)⟩
    show '\r' ∉ s.kind.label.toList
    cases s.kind <;> decide

/-- A report without carriage returns has a graph that can be read back. -/
theorem readableGraph_ofFacts {f : Facts} (h : NoReturns f) : ReadableGraph (ofFacts f) := by
  obtain ⟨hnodes, hedges⟩ := ofFacts_sound (factsShowGood_of_noReturns h)
  refine ⟨fun n hn => ⟨(hnodes n hn).name, fun p hp => ⟨hasWordKeys_ofFacts hn p hp, ?_⟩⟩, hedges⟩
  exact (hnodes n hn).values p hp

/-- A report on an event whose name tries to end its literal, with the class of its payload. -/
def quotedReport (payload : Option String) : Report where
  events := [{
    name := "Order\\'\x7d) //\nPlaced\\"
    qualifiedName := "Shop.Order"
    origin := ⟨"it's", "Shop", ⟨"shop/Order.cs"⟩⟩
    payloadClass := payload }]
  generatedAt := .ofEpoch 5
  repositoryCount := 1
  projectCount := 1

end EventAtlas.Cypher

import EventAtlas.Proofs.Export.Quoting
import EventAtlas.Proofs.Report.Facts
import EventAtlas.Proofs.Report.FlowGraph
import EventAtlas.Proofs.Timestamp

namespace EventAtlas.Cypher

open FlowGraph

def IsWord (s : List Char) : Prop := ∀ c ∈ s, c.isAlphanum = true

theorem isWord_of_all {s : List Char} (h : s.all Char.isAlphanum = true) : IsWord s := List.all_eq_true.mp h

theorem IsWord.not_mem {s : List Char} (h : IsWord s) {c : Char} (hc : c.isAlphanum = false) : c ∉ s := by
  intro hmem
  rw [h c hmem] at hc
  exact Bool.noConfusion hc

/-- A word ends where the first character that is none of its kind comes. -/
theorem IsWord.append_inj {s s' : List Char} (h : IsWord s) (h' : IsWord s') {c c' : Char}
    (hc : c.isAlphanum = false) (hc' : c'.isAlphanum = false) {rest rest' : List Char}
    (heq : s ++ c :: rest = s' ++ c' :: rest') : s = s' ∧ c = c' ∧ rest = rest' :=
  Text.run_append_inj h h' hc hc' heq

theorem kindLabel_isWord (kind : NodeKind) : IsWord (kindLabel kind).toList := by
  apply isWord_of_all
  cases kind <;> decide

private theorem kindLabel_inj {kind kind' : NodeKind} (h : (kindLabel kind).toList = (kindLabel kind').toList) :
    kind = kind' := by
  revert h
  cases kind <;> cases kind' <;> decide

theorem relationship_isWord (kind : EdgeKind) : IsWord (relationship kind).toList := by
  apply isWord_of_all
  cases kind <;> decide

private theorem relationship_inj {kind kind' : EdgeKind}
    (h : (relationship kind).toList = (relationship kind').toList) : kind = kind' := by
  revert h
  cases kind <;> cases kind' <;> decide

theorem isDigit_of_mem_toDigits {i : Nat} {c : Char} (h : c ∈ Nat.toDigits 10 i) : c.isDigit = true :=
  Nat.isDigit_of_mem_toDigits (by decide) (by decide) h

theorem variableName_isWord (kind : NodeKind) (i : Nat) : IsWord (variableName kind i) := by
  have hstem : IsWord (variableStem kind).toList := by
    apply isWord_of_all
    cases kind <;> decide
  intro c hc
  rcases List.mem_append.mp hc with hc | hc
  · exact hstem c hc
  · simp [Char.isAlphanum, isDigit_of_mem_toDigits hc]

/-- The number of a node can be read off its variable. -/
theorem variableName_inj {kind kind' : NodeKind} {i i' : Nat}
    (h : variableName kind i = variableName kind' i') : i = i' := by
  have hstem (kind : NodeKind) : (variableStem kind).toList.filter Char.isDigit = [] := by
    cases kind <;> decide
  have hdigits (kind : NodeKind) (i : Nat) :
      (variableName kind i).filter Char.isDigit = Nat.toDigits 10 i := by
    rw [variableName, List.filter_append, hstem, List.nil_append, List.filter_eq_self]
    exact fun c hc => isDigit_of_mem_toDigits hc
  have hsame : Nat.toDigits 10 i = Nat.toDigits 10 i' := by rw [← hdigits kind i, h, hdigits]
  have hvalue := congrArg (fun digits => Nat.ofDigitChars 10 digits 0) hsame
  simpa [Nat.ofDigitChars_toDigits] using hvalue

/-- What comes behind the first property. -/
def moreProperties (rest : List (String × String)) : List Char := rest.flatMap fun p => ", ".toList ++ property p

private theorem propertyList_cons (p : String × String) (rest : List (String × String)) :
    propertyList (p :: rest) = property p ++ moreProperties rest := by
  induction rest generalizing p with
  | nil => simp [propertyList, moreProperties]
  | cons q rest ih =>
    rw [propertyList, ih]
    · simp [moreProperties]
    · simp

/-- The name of a node is written as a property with this key. -/
theorem name_isWord : IsWord "name".toList := isWord_of_all (by decide)

theorem property_append (p : String × String) (rest : List Char) :
    property p ++ rest = p.1.toList ++ ':' :: ' ' :: (literal p.2 ++ rest) := by
  simp [property]

/-- A property whose key is a word and whose value has no carriage return. -/
def Readable (p : String × String) : Prop := IsWord p.1.toList ∧ '\r' ∉ p.2.toList

/-- A property can be told from its text, whatever follows. -/
theorem property_append_inj {p p' : String × String} (h : Readable p) (h' : Readable p')
    {rest rest' : List Char} (heq : property p ++ rest = property p' ++ rest') : p = p' ∧ rest = rest' := by
  rw [property_append, property_append] at heq
  obtain ⟨hkey, -, hvalue⟩ := h.1.append_inj h'.1 (by decide) (by decide) heq
  obtain ⟨hvalue, hrest⟩ := literal_append_inj h.2 h'.2 (List.cons.inj hvalue).2
  exact ⟨Prod.ext (String.toList_inj.mp hkey) hvalue, hrest⟩

/-- Each property ends at a comma or at the closing brace, so that the list can be read back. -/
theorem moreProperties_append_inj {more more' : List (String × String)} (h : ∀ p ∈ more, Readable p)
    (h' : ∀ p ∈ more', Readable p) {rest rest' : List Char}
    (heq : moreProperties more ++ '}' :: rest = moreProperties more' ++ '}' :: rest') :
    more = more' ∧ rest = rest' := by
  induction more generalizing more' with
  | nil =>
    cases more' with
    | nil => exact ⟨rfl, (List.cons.inj heq).2⟩
    | cons p' more' => exact absurd (List.cons.inj heq).1 (by decide)
  | cons p more ih =>
    cases more' with
    | nil => exact absurd (List.cons.inj heq).1 (by decide)
    | cons p' more' =>
      simp only [moreProperties, List.flatMap_cons, List.append_assoc] at heq
      obtain ⟨rfl, htail⟩ := property_append_inj (h p List.mem_cons_self) (h' p' List.mem_cons_self)
        (List.append_cancel_left heq)
      obtain ⟨rfl, hrest⟩ := ih (fun q hq => h q (List.mem_cons_of_mem _ hq))
        (fun q hq => h' q (List.mem_cons_of_mem _ hq)) htail
      exact ⟨rfl, hrest⟩

def nodeStatement (n : Node) (i : Nat) : List Char :=
  "CREATE (".toList ++ (variableName n.kind i ++ ':' :: ((kindLabel n.kind).toList ++
    ' ' :: '{' :: (property ("name", n.name) ++ (moreProperties n.properties ++ ['}', ')']))))

private theorem nodeLine_eq (n : Node) (i : Nat) : nodeLine n i = nodeStatement n i ++ ['\n'] := by
  unfold nodeLine nodeStatement
  rw [propertyList_cons]
  simp

def edgeStatement (nodes : List Node) (e : Edge) : List Char :=
  "CREATE (".toList ++ (variableAt nodes e.source ++ ')' :: ("-[:".toList ++ ((relationship e.kind).toList ++
    ']' :: ("->(".toList ++ (variableAt nodes e.target ++ [')'])))))

private theorem edgeLine_eq (nodes : List Node) (e : Edge) : edgeLine nodes e = edgeStatement nodes e ++ ['\n'] := by
  unfold edgeLine edgeStatement
  simp

theorem variableAt_isWord (nodes : List Node) (i : Nat) : IsWord (variableAt nodes i) := by
  unfold variableAt
  split
  · exact variableName_isWord _ _
  · simp [IsWord]

/-- Nodes of different numbers have different variables. -/
theorem variableAt_inj {nodes : List Node} {i i' : Nat} (hi : i < nodes.length) (hi' : i' < nodes.length)
    (h : variableAt nodes i = variableAt nodes i') : i = i' := by
  simp only [variableAt, List.getElem?_eq_getElem hi, List.getElem?_eq_getElem hi'] at h
  exact variableName_inj h

/-- A node without carriage returns whose keys are words. -/
def ReadableNode (n : Node) : Prop := '\r' ∉ n.name.toList ∧ ∀ p ∈ n.properties, Readable p

private theorem nodeStatement_inj {n n' : Node} {i i' : Nat} (h : ReadableNode n) (h' : ReadableNode n')
    (heq : nodeStatement n i = nodeStatement n' i') : n = n' := by
  have hvariable := List.append_cancel_left heq
  obtain ⟨-, -, hlabel⟩ := (variableName_isWord n.kind i).append_inj (variableName_isWord n'.kind i')
    (by decide) (by decide) hvariable
  obtain ⟨hkind, -, hbrace⟩ := (kindLabel_isWord n.kind).append_inj (kindLabel_isWord n'.kind)
    (by decide) (by decide) hlabel
  obtain ⟨hfirst, hmore⟩ := property_append_inj (p := ("name", n.name)) ⟨name_isWord, h.1⟩
    ⟨name_isWord, h'.1⟩ (List.cons.inj hbrace).2
  obtain ⟨hproperties, -⟩ := moreProperties_append_inj h.2 h'.2 hmore
  obtain ⟨kind, name, properties⟩ := n
  obtain ⟨kind', name', properties'⟩ := n'
  obtain rfl := kindLabel_inj hkind
  obtain rfl : name = name' := (Prod.mk.inj hfirst).2
  obtain rfl : properties = properties' := hproperties
  rfl

/-- Behind the variable a node has a colon and an edge a parenthesis. -/
theorem edgeStatement_ne_nodeStatement (nodes : List Node) (e : Edge) (n : Node) (i : Nat) :
    edgeStatement nodes e ≠ nodeStatement n i := by
  intro heq
  obtain ⟨-, hmark, -⟩ := (variableAt_isWord nodes e.source).append_inj (variableName_isWord n.kind i)
    (by decide) (by decide) (List.append_cancel_left heq)
  exact absurd hmark (by decide)

def JoinsNodes (nodes : List Node) (e : Edge) : Prop := e.source < nodes.length ∧ e.target < nodes.length

private theorem edgeStatement_inj {nodes : List Node} {e e' : Edge} (h : JoinsNodes nodes e) (h' : JoinsNodes nodes e')
    (heq : edgeStatement nodes e = edgeStatement nodes e') : e = e' := by
  obtain ⟨hsource, -, hkind⟩ := (variableAt_isWord nodes e.source).append_inj
    (variableAt_isWord nodes e'.source) (by decide) (by decide) (List.append_cancel_left heq)
  obtain ⟨hkind, -, htarget⟩ := (relationship_isWord e.kind).append_inj (relationship_isWord e'.kind)
    (by decide) (by decide) (List.append_cancel_left hkind)
  have htarget := List.append_cancel_right (List.append_cancel_left htarget)
  obtain ⟨source, kind, target⟩ := e
  obtain ⟨source', kind', target'⟩ := e'
  obtain rfl := variableAt_inj h.1 h'.1 hsource
  obtain rfl := relationship_inj hkind
  obtain rfl := variableAt_inj h.2 h'.2 htarget
  rfl

def headLine (generatedAt : Timestamp) : List Char :=
  "// msgflow graph generated ".toList ++ generatedAt.textWith "+00:00".toList

def statements (g : FlowGraph) : List (List Char) :=
  g.nodes.zipIdx.map (fun (n, i) => nodeStatement n i) ++ g.edges.map (edgeStatement g.nodes) ++ [[';']]

def scriptLines (generatedAt : Timestamp) (g : FlowGraph) : List (List Char) :=
  headLine generatedAt :: statements g

theorem length_scriptLines (generatedAt : Timestamp) (g : FlowGraph) :
    (scriptLines generatedAt g).length = 2 + g.nodes.length + g.edges.length := by
  simp only [scriptLines, statements, List.length_cons, List.length_append, List.length_map,
    List.length_zipIdx, List.length_nil]
  omega

/-- A script is its lines, each with a line break behind it. -/
theorem script_eq_lines (generatedAt : Timestamp) (g : FlowGraph) :
    script generatedAt g = (scriptLines generatedAt g).flatMap (· ++ ['\n']) := by
  have hnodes : g.nodes.zipIdx.flatMap (fun (n, i) => nodeLine n i) =
      (g.nodes.zipIdx.map fun (n, i) => nodeStatement n i).flatMap (· ++ ['\n']) := by
    rw [List.flatMap_map]
    exact List.flatMap_congr fun e _ => nodeLine_eq e.1 e.2
  have hedges : g.edges.flatMap (edgeLine g.nodes) =
      (g.edges.map (edgeStatement g.nodes)).flatMap (· ++ ['\n']) := by
    rw [List.flatMap_map]
    exact List.flatMap_congr fun e _ => edgeLine_eq g.nodes e
  unfold script scriptLines statements headLine
  rw [hnodes, hedges]
  simp

/-- Lines without line ends can be read back from a text. -/
theorem lines_inj {lines lines' : List (List Char)} (h : ∀ line ∈ lines, '\n' ∉ line)
    (h' : ∀ line ∈ lines', '\n' ∉ line)
    (heq : lines.flatMap (· ++ ['\n']) = lines'.flatMap (· ++ ['\n'])) : lines = lines' := by
  induction lines generalizing lines' with
  | nil =>
    cases lines' with
    | nil => rfl
    | cons line' lines' => simp at heq
  | cons line lines ih =>
    cases lines' with
    | nil => simp at heq
    | cons line' lines' =>
      have hclass {line : List Char} (h : '\n' ∉ line) : ∀ c ∈ line, (c != '\n') = true := by
        intro c hc
        rw [bne_iff_ne]
        rintro rfl
        exact h hc
      simp only [List.flatMap_cons, List.append_assoc, List.singleton_append] at heq
      obtain ⟨rfl, -, hrest⟩ := Text.run_append_inj (hclass (h line List.mem_cons_self))
        (hclass (h' line' List.mem_cons_self)) (by decide) (by decide) heq
      rw [ih (fun l hl => h l (List.mem_cons_of_mem _ hl)) (fun l hl => h' l (List.mem_cons_of_mem _ hl)) hrest]

/-- The characters of statements outside of values. -/
def isFrame (c : Char) : Bool := c.isAlphanum || ['(', ')', '[', ']', '{', '}', ':', ',', '-', '>', ' '].contains c

def Framed (s : List Char) : Prop := ∀ c ∈ s, isFrame c = true

theorem framed_of_all {s : List Char} (h : s.all isFrame = true) : Framed s := List.all_eq_true.mp h

theorem IsWord.framed {s : List Char} (h : IsWord s) : Framed s := by
  intro c hc
  simp [isFrame, h c hc]

theorem Framed.append {s t : List Char} (h : Framed s) (h' : Framed t) : Framed (s ++ t) :=
  List.forall_mem_append.mpr ⟨h, h'⟩

theorem Framed.not_mem {s : List Char} (h : Framed s) {c : Char} (hc : isFrame c = false) : c ∉ s := by
  intro hmem
  rw [h c hmem] at hc
  exact Bool.noConfusion hc

theorem edgeStatement_framed (nodes : List Node) (e : Edge) : Framed (edgeStatement nodes e) := by
  have hcreate : Framed "CREATE (".toList := framed_of_all (by decide)
  have hopen : Framed ")-[:".toList := framed_of_all (by decide)
  have hclose : Framed "]->(".toList := framed_of_all (by decide)
  have hend : Framed [')'] := framed_of_all (by decide)
  have hsource := (variableAt_isWord nodes e.source).framed
  have htarget := (variableAt_isWord nodes e.target).framed
  have hkind := (relationship_isWord e.kind).framed
  exact hcreate.append (hsource.append (hopen.append (hkind.append (hclose.append (htarget.append hend)))))

/-- What comes before the first value of a node. -/
def nodeOpening (n : Node) (i : Nat) : List Char :=
  "CREATE (".toList ++ (variableName n.kind i ++ ':' :: ((kindLabel n.kind).toList ++ [' ', '{']))

theorem nodeStatement_eq (n : Node) (i : Nat) : nodeStatement n i =
    nodeOpening n i ++ (property ("name", n.name) ++ (moreProperties n.properties ++ ['}', ')'])) := by
  unfold nodeStatement nodeOpening
  simp

theorem nodeOpening_framed (n : Node) (i : Nat) : Framed (nodeOpening n i) := by
  have hcreate : Framed "CREATE (".toList := framed_of_all (by decide)
  have hcolon : Framed [':'] := framed_of_all (by decide)
  have hbrace : Framed [' ', '{'] := framed_of_all (by decide)
  have hvariable := (variableName_isWord n.kind i).framed
  have hlabel := (kindLabel_isWord n.kind).framed
  exact hcreate.append (hvariable.append (hcolon.append (hlabel.append hbrace)))

/-- Nodes whose keys are words. -/
def HasWordKeys (n : Node) : Prop := ∀ p ∈ n.properties, IsWord p.1.toList

theorem newline_not_mem_property {p : String × String} (h : IsWord p.1.toList) : '\n' ∉ property p := by
  have hkey := h.not_mem (c := '\n') (by decide)
  unfold property
  simp [hkey, newline_not_mem_literal]

private theorem newline_not_mem_nodeStatement {n : Node} (h : HasWordKeys n) (i : Nat) : '\n' ∉ nodeStatement n i := by
  have hopening := (nodeOpening_framed n i).not_mem (c := '\n') (by decide)
  have hname : '\n' ∉ property ("name", n.name) :=
    newline_not_mem_property name_isWord
  have hmore : '\n' ∉ moreProperties n.properties := by
    intro hmem
    obtain ⟨p, hp, hmem⟩ := List.mem_flatMap.mp hmem
    rcases List.mem_append.mp hmem with hmem | hmem
    · exact absurd hmem (by decide)
    · exact newline_not_mem_property (h p hp) hmem
  rw [nodeStatement_eq]
  simp [hopening, hname, hmore]

/-- No line of a script holds a line break, whatever the values are. -/
theorem newline_not_mem_scriptLines (generatedAt : Timestamp) {g : FlowGraph}
    (h : ∀ n ∈ g.nodes, HasWordKeys n) : ∀ line ∈ scriptLines generatedAt g, '\n' ∉ line := by
  intro line hline
  rcases List.mem_cons.mp hline with rfl | hline
  · have htime := Timestamp.not_mem_textWith (c := '\n') (by decide) (by decide)
      (show '\n' ∉ "+00:00".toList by decide) generatedAt
    exact List.not_mem_append (by decide) htime
  · rcases List.mem_append.mp hline with hline | hline
    · rcases List.mem_append.mp hline with hline | hline
      · obtain ⟨⟨n, i⟩, hn, rfl⟩ := List.mem_map.mp hline
        exact newline_not_mem_nodeStatement (h n (List.fst_mem_of_mem_zipIdx hn)) i
      · obtain ⟨e, -, rfl⟩ := List.mem_map.mp hline
        exact (edgeStatement_framed g.nodes e).not_mem (by decide)
    · obtain rfl := List.mem_singleton.mp hline
      decide

/-- The nodes come before whatever is no statement of a node. -/
theorem nodeStatements_append_inj {nodes nodes' : List Node} (h : ∀ n ∈ nodes, ReadableNode n)
    (h' : ∀ n ∈ nodes', ReadableNode n) {more more' : List (List Char)}
    (hmore : ∀ line ∈ more, ∀ n i, line ≠ nodeStatement n i)
    (hmore' : ∀ line ∈ more', ∀ n i, line ≠ nodeStatement n i) (start : Nat)
    (heq : (nodes.zipIdx start).map (fun (n, i) => nodeStatement n i) ++ more =
      (nodes'.zipIdx start).map (fun (n, i) => nodeStatement n i) ++ more') :
    nodes = nodes' ∧ more = more' := by
  induction nodes generalizing nodes' start with
  | nil =>
    cases nodes' with
    | nil => exact ⟨rfl, heq⟩
    | cons n' nodes' =>
      refine absurd rfl (hmore (nodeStatement n' start) ?_ n' start)
      rw [List.zipIdx_nil, List.map_nil, List.nil_append] at heq
      rw [heq]
      exact List.mem_cons_self
  | cons n nodes ih =>
    cases nodes' with
    | nil =>
      refine absurd rfl (hmore' (nodeStatement n start) ?_ n start)
      rw [List.zipIdx_nil, List.map_nil, List.nil_append] at heq
      rw [← heq]
      exact List.mem_cons_self
    | cons n' nodes' =>
      obtain ⟨hstatement, hrest⟩ := List.cons.inj heq
      obtain rfl := nodeStatement_inj (h n List.mem_cons_self) (h' n' List.mem_cons_self) hstatement
      obtain ⟨rfl, hmore⟩ := ih (fun m hm => h m (List.mem_cons_of_mem _ hm))
        (fun m hm => h' m (List.mem_cons_of_mem _ hm)) (start + 1) hrest
      exact ⟨rfl, hmore⟩

private theorem edgeStatements_inj {nodes : List Node} {edges edges' : List Edge}
    (h : ∀ e ∈ edges, JoinsNodes nodes e) (h' : ∀ e ∈ edges', JoinsNodes nodes e)
    (heq : edges.map (edgeStatement nodes) = edges'.map (edgeStatement nodes)) : edges = edges' := by
  induction edges generalizing edges' with
  | nil => exact (List.map_eq_nil_iff.mp heq.symm).symm
  | cons e edges ih =>
    cases edges' with
    | nil => simp at heq
    | cons e' edges' =>
      obtain ⟨hstatement, hrest⟩ := List.cons.inj heq
      obtain rfl := edgeStatement_inj (h e List.mem_cons_self) (h' e' List.mem_cons_self) hstatement
      rw [ih (fun f hf => h f (List.mem_cons_of_mem _ hf)) (fun f hf => h' f (List.mem_cons_of_mem _ hf)) hrest]

/-- A graph whose script can be read back. -/
structure ReadableGraph (g : FlowGraph) : Prop where
  nodes : ∀ n ∈ g.nodes, ReadableNode n
  edges : ∀ e ∈ g.edges, JoinsNodes g.nodes e

private theorem statements_inj {g g' : FlowGraph} (h : ReadableGraph g) (h' : ReadableGraph g')
    (heq : statements g = statements g') : g = g' := by
  have hother (g : FlowGraph) : ∀ line ∈ g.edges.map (edgeStatement g.nodes) ++ [[';']],
      ∀ n i, line ≠ nodeStatement n i := by
    intro line hline n i
    rcases List.mem_append.mp hline with hline | hline
    · obtain ⟨e, -, rfl⟩ := List.mem_map.mp hline
      exact edgeStatement_ne_nodeStatement g.nodes e n i
    · obtain rfl := List.mem_singleton.mp hline
      intro hsame
      exact absurd (List.cons.inj hsame).1 (by decide)
  unfold statements at heq
  rw [List.append_assoc, List.append_assoc] at heq
  obtain ⟨hnodes, hedges⟩ := nodeStatements_append_inj h.nodes h'.nodes (hother g) (hother g') 0 heq
  obtain ⟨nodes, edges⟩ := g
  obtain ⟨nodes', edges'⟩ := g'
  obtain rfl : nodes = nodes' := hnodes
  obtain rfl := edgeStatements_inj h.edges h'.edges (List.append_cancel_right hedges)
  rfl

/-- A script tells the time that it shows and the graph. -/
theorem script_inj {generatedAt generatedAt' : Timestamp} {g g' : FlowGraph} (h : ReadableGraph g)
    (h' : ReadableGraph g') (heq : script generatedAt g = script generatedAt' g') :
    generatedAt.shown = generatedAt'.shown ∧ g = g' := by
  have hkeys {g : FlowGraph} (h : ReadableGraph g) : ∀ n ∈ g.nodes, HasWordKeys n :=
    fun n hn p hp => ((h.nodes n hn).2 p hp).1
  rw [script_eq_lines, script_eq_lines] at heq
  obtain ⟨hhead, hstatements⟩ := List.cons.inj (lines_inj
    (newline_not_mem_scriptLines generatedAt (hkeys h)) (newline_not_mem_scriptLines generatedAt' (hkeys h')) heq)
  exact ⟨Timestamp.shown_eq_of_textWith_eq (List.append_cancel_left hhead), statements_inj h h' hstatements⟩

end EventAtlas.Cypher

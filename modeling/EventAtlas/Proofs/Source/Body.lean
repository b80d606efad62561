import EventAtlas.Proofs.Source.Handlers

namespace EventAtlas.Source

open Text

theorem braceBalance_nil : braceBalance [] = 0 := rfl

/-- Braces are counted piece by piece. -/
theorem braceBalance_append (s t : Line) : braceBalance (s ++ t) = braceBalance s + braceBalance t := by
  unfold braceBalance
  rw [List.count_append, List.count_append]
  omega

theorem not_mem_of_allBlank {line : Line} (h : allBlank line = true) {c : Char} (hc : isBlank c = false) :
    c ∉ line := by
  intro hmem
  rw [List.all_eq_true.mp h c hmem] at hc
  cases hc

private theorem braceBalance_of_allBlank {line : Line} (h : allBlank line = true) : braceBalance line = 0 := by
  have hopening : '{' ∉ line := not_mem_of_allBlank h (by decide)
  have hclosing : '}' ∉ line := not_mem_of_allBlank h (by decide)
  unfold braceBalance
  rw [List.count_eq_zero.mpr hopening, List.count_eq_zero.mpr hclosing]
  rfl

/-- A block is opened and closed again on a line: there is an opening brace, there are as many closing ones,
and up to no place are there more of them. -/
structure OpensAndCloses (line : Line) : Prop where
  opens : '{' ∈ line
  balanced : braceBalance line = 0
  nested : ∀ front, front <+: line → 0 ≤ braceBalance front

instance (line : Line) : Decidable (OpensAndCloses line) :=
  decidable_of_iff ('{' ∈ line ∧ braceBalance line = 0 ∧ ∀ front ∈ line.inits, 0 ≤ braceBalance front) <| by
    simp only [List.mem_inits]
    exact ⟨fun h => ⟨h.1, h.2.1, h.2.2⟩, fun h => ⟨h.opens, h.balanced, h.nested⟩⟩

/-- A line without the white space at its end. -/
structure IsTrimmed (line kept : Line) : Prop where
  cut : ∃ blanks, allBlank blanks = true ∧ line = kept ++ blanks
  bare : ∀ c ∈ kept.getLast?, isBlank c = false

theorem isTrimmed_trimEnd (line : Line) : IsTrimmed line (trimEnd line) := by
  refine ⟨⟨(line.reverse.takeWhile isBlank).reverse, ?_, ?_⟩, ?_⟩
  · rw [allBlank, List.all_reverse]
    exact List.all_takeWhile
  · rw [trimEnd, trimEndWhile, ← List.reverse_append, List.takeWhile_append_dropWhile, List.reverse_reverse]
  · intro c hc
    rw [trimEnd, trimEndWhile, List.getLast?_reverse] at hc
    have hhead := List.head?_dropWhile_not isBlank line.reverse
    rw [hc] at hhead
    simpa using hhead

/-- The lines that a snippet keeps of those it goes through. -/
def keptOf (lines : List Line) : List Line := (lines.filter fun line => !allBlank line).map trimEnd

/-- Copying stops after `n` of the lines, whatever comes next: the body is closed, the snippet is full, or there
are no more lines. -/
inductive StopsAfter (depth : Int) (opened : Bool) (limit : Nat) (rest : List Line) (n : Nat) : Prop where
  | closed : 0 < n → depth + braceBalance (rest.take n).flatten = 0 →
      (opened = true ∨ '{' ∈ (rest.take n).flatten) → StopsAfter depth opened limit rest n
  | full : (keptOf (rest.take n)).length = limit → StopsAfter depth opened limit rest n
  | ended : rest.length ≤ n → StopsAfter depth opened limit rest n

/-- Copying can end after `n` of the lines: it stops there, or the next line closes more than is open. -/
inductive EndsAfter (depth : Int) (opened : Bool) (limit : Nat) (rest : List Line) (n : Nat) : Prop where
  | overclosed : depth + braceBalance (rest.take (n + 1)).flatten < 0 → EndsAfter depth opened limit rest n
  | stopped : StopsAfter depth opened limit rest n → EndsAfter depth opened limit rest n

private theorem keptOf_append (lines others : List Line) :
    keptOf (lines ++ others) = keptOf lines ++ keptOf others := by
  unfold keptOf
  rw [List.filter_append, List.map_append]

theorem keptOf_cons (line : Line) (rest : List Line) : keptOf (line :: rest) = keptOf [line] ++ keptOf rest :=
  keptOf_append [line] rest

/-- How many more lines a snippet keeps after a line. -/
def roomAfter (line : Line) (limit : Nat) : Nat := if allBlank line then limit + 1 else limit

section Copying

variable {depth : Int} {opened : Bool} {limit n : Nat} {line : Line} {rest : List Line}

theorem copyBody_zero (depth : Int) (opened : Bool) (rest : List Line) : copyBody depth opened 0 rest = [] := by
  rw [copyBody]

theorem copyBody_nil (depth : Int) (opened : Bool) (limit : Nat) : copyBody depth opened limit [] = [] := by
  cases limit with
  | zero => rfl
  | succ limit => rfl

/-- What becomes of one line: it is kept unless it is blank, and copying goes on if it does not end here. -/
theorem copyBody_cons (depth : Int) (opened : Bool) (limit : Nat) (line : Line) (rest : List Line) :
    copyBody depth opened (limit + 1) (line :: rest) =
      if depth + braceBalance line < 0 then []
      else keptOf [line] ++
        if (opened || line.contains '{') && depth + braceBalance line == 0 then []
        else copyBody (depth + braceBalance line) (opened || line.contains '{') (roomAfter line limit) rest := by
  rw [copyBody]
  cases hblank : allBlank line with
  | true => simp [keptOf, roomAfter, hblank]
  | false => simp [keptOf, roomAfter, hblank]

theorem balance_take_cons (depth : Int) (line : Line) (rest : List Line) (m : Nat) :
    depth + braceBalance ((line :: rest).take (m + 1)).flatten =
      depth + braceBalance line + braceBalance (rest.take m).flatten := by
  rw [List.take_succ_cons, List.flatten_cons, braceBalance_append, Int.add_assoc]

theorem balance_take_zero (depth : Int) (rest : List Line) :
    depth + braceBalance (rest.take 0).flatten = depth := by
  rw [List.take_zero, List.flatten_nil, braceBalance_nil, Int.add_zero]

/-- A line takes the place of those that can no longer be kept after it. -/
theorem length_keptOf_add_roomAfter (line : Line) (limit : Nat) :
    (keptOf [line]).length + roomAfter line limit = limit + 1 := by
  unfold roomAfter
  cases hblank : allBlank line with
  | true => simp [keptOf, hblank]
  | false => simp [keptOf, hblank, Nat.add_comm]

theorem length_keptOf_cons :
    (keptOf (line :: rest)).length = limit + 1 ↔ (keptOf rest).length = roomAfter line limit := by
  have hroom := length_keptOf_add_roomAfter line limit
  rw [keptOf_cons, List.length_append]
  omega

theorem not_stopsAfter_zero : ¬StopsAfter depth opened (limit + 1) (line :: rest) 0 := by
  intro h
  cases h with
  | closed hpos _ _ => omega
  | full hkept => cases hkept
  | ended hlength => cases hlength

theorem endsAfter_zero :
    EndsAfter depth opened (limit + 1) (line :: rest) 0 ↔ depth + braceBalance line < 0 := by
  have hfirst := balance_take_cons depth line rest 0
  rw [balance_take_zero] at hfirst
  constructor
  · intro h
    cases h with
    | overclosed hdepth => rwa [hfirst] at hdepth
    | stopped hstops => exact absurd hstops not_stopsAfter_zero
  · intro h
    exact .overclosed (by rwa [hfirst])

/-- Past a line, copying stops where it stops for the lines below, or at the line itself if that closes the body. -/
theorem stopsAfter_succ :
    StopsAfter depth opened (limit + 1) (line :: rest) (n + 1) ↔
      n = 0 ∧ depth + braceBalance line = 0 ∧ (opened || line.contains '{') = true ∨
      StopsAfter (depth + braceBalance line) (opened || line.contains '{') (roomAfter line limit) rest n := by
  have hopened : opened = true ∨ '{' ∈ ((line :: rest).take (n + 1)).flatten ↔
      (opened || line.contains '{') = true ∨ '{' ∈ (rest.take n).flatten := by
    rw [List.take_succ_cons, List.flatten_cons, List.mem_append, Bool.or_eq_true, List.contains_iff_mem, or_assoc]
  constructor
  · intro h
    cases h with
    | closed _ hlevel hopen =>
      rw [balance_take_cons] at hlevel
      rw [hopened] at hopen
      cases n with
      | zero =>
        rw [balance_take_zero] at hlevel
        exact .inl ⟨rfl, hlevel, by simpa using hopen⟩
      | succ n => exact .inr (.closed (Nat.succ_pos n) hlevel hopen)
    | full hkept => exact .inr (.full (length_keptOf_cons.mp hkept))
    | ended hlength => exact .inr (.ended (Nat.le_of_succ_le_succ hlength))
  · intro h
    rcases h with ⟨rfl, hlevel, hopen⟩ | h
    · refine .closed Nat.one_pos ?_ (hopened.mpr (.inl hopen))
      rwa [balance_take_cons, balance_take_zero]
    · cases h with
      | closed _ hlevel hopen =>
        exact .closed (Nat.succ_pos n) (by rwa [balance_take_cons]) (hopened.mpr hopen)
      | full hkept => exact .full (length_keptOf_cons.mpr hkept)
      | ended hlength => exact .ended (Nat.succ_le_succ hlength)

/-- A body ends below its first line where that line closes it, or where what is below ends. -/
theorem endsAfter_succ :
    EndsAfter depth opened (limit + 1) (line :: rest) (n + 1) ↔
      n = 0 ∧ depth + braceBalance line = 0 ∧ (opened || line.contains '{') = true ∨
      EndsAfter (depth + braceBalance line) (opened || line.contains '{') (roomAfter line limit) rest n := by
  constructor
  · intro h
    cases h with
    | overclosed hdepth =>
      rw [balance_take_cons] at hdepth
      exact .inr (.overclosed hdepth)
    | stopped hstops => exact (stopsAfter_succ.mp hstops).imp_right .stopped
  · intro h
    rcases h with hcloses | h
    · exact .stopped (stopsAfter_succ.mpr (.inl hcloses))
    · cases h with
      | overclosed hdepth => exact .overclosed (by rwa [balance_take_cons])
      | stopped hstops => exact .stopped (stopsAfter_succ.mpr (.inr hstops))

end Copying

/-- No more lines are copied than are asked for. -/
theorem length_copyBody_le (depth : Int) (opened : Bool) (limit : Nat) (rest : List Line) :
    (copyBody depth opened limit rest).length ≤ limit := by
  induction rest generalizing depth opened limit with
  | nil =>
    rw [copyBody_nil]
    exact Nat.zero_le limit
  | cons line rest ih =>
    cases limit with
    | zero => rw [copyBody_zero, List.length_nil]
    | succ limit =>
      have hroom := length_keptOf_add_roomAfter line limit
      rw [copyBody_cons]
      split_ifs
      · exact Nat.zero_le _
      · rw [List.append_nil]
        omega
      · have hrest := ih (depth + braceBalance line) (opened || line.contains '{') (roomAfter line limit)
        rw [List.length_append]
        omega

/-- Opening braces minus closing braces on the lines from place `i` to place `j`. -/
def depthAt (lines : List Line) (i j : Nat) : Int := braceBalance (slice lines i (j + 1)).flatten

/-- The line at place `j` closes the body below a signature: no brace is open after it, and the body's own
brace was left open by the signature or has come since. -/
structure ClosesBody (lines : List Line) (signature j : Nat) : Prop where
  below : signature < j
  level : depthAt lines signature j = 0
  opened : 0 < depthAt lines signature signature ∨
    ∃ k line, signature < k ∧ k ≤ j ∧ lines[k]? = some line ∧ '{' ∈ line

/-- The body below a signature stops before the place `stop`, whatever is there: the line above it closes the body
or is the last one that is kept, or there are no more lines. -/
inductive StopsBody (lines : List Line) (signature limit stop : Nat) : Prop where
  | closed (j : Nat) : stop = j + 1 → ClosesBody lines signature j → StopsBody lines signature limit stop
  | full : (keptOf (slice lines (signature + 1) stop)).length = limit → StopsBody lines signature limit stop
  | ended : lines.length ≤ stop → StopsBody lines signature limit stop

/-- The body below a signature can end before the place `stop`: it stops there, or the line there closes more than
is open. -/
inductive EndsBody (lines : List Line) (signature limit stop : Nat) : Prop where
  | overclosed : depthAt lines signature stop < 0 → EndsBody lines signature limit stop
  | stopped : StopsBody lines signature limit stop → EndsBody lines signature limit stop

theorem depthAt_add (lines : List Line) (i n : Nat) :
    depthAt lines i (i + n) =
      braceBalance (lines[i]?.getD []) + braceBalance ((lines.drop (i + 1)).take n).flatten := by
  unfold depthAt
  rw [Nat.add_assoc, slice_eq_take_drop]
  by_cases hi : i < lines.length
  · rw [List.drop_eq_getElem_cons hi, List.take_succ_cons, List.flatten_cons, braceBalance_append,
      List.getElem?_eq_getElem hi, Option.getD_some]
  · rw [List.drop_eq_nil_of_le (by omega), List.drop_eq_nil_of_le (by omega),
      List.getElem?_eq_none (by omega), List.take_nil, List.take_nil]
    rfl

theorem depthAt_self (lines : List Line) (i : Nat) : depthAt lines i i = braceBalance (lines[i]?.getD []) := by
  have h := depthAt_add lines i 0
  rwa [balance_take_zero] at h

/-- The depth below a signature is that behind the signature and of the lines between. -/
theorem depthAt_below (lines : List Line) (i n : Nat) :
    depthAt lines i (i + n) = depthAt lines i i + braceBalance ((lines.drop (i + 1)).take n).flatten := by
  rw [depthAt_add, depthAt_self]

theorem closesBody_iff {lines : List Line} {signature n : Nat} :
    ClosesBody lines signature (signature + n) ↔ 0 < n ∧ depthAt lines signature (signature + n) = 0 ∧
      (0 < depthAt lines signature signature ∨ '{' ∈ ((lines.drop (signature + 1)).take n).flatten) := by
  have hbrace : '{' ∈ ((lines.drop (signature + 1)).take n).flatten ↔
      ∃ k line, signature < k ∧ k ≤ signature + n ∧ lines[k]? = some line ∧ '{' ∈ line := by
    rw [← slice_eq_take_drop]
    simp only [List.mem_flatten, mem_slice_iff]
    constructor
    · intro h
      obtain ⟨line, ⟨k, hstart, hstop, hline⟩, hmem⟩ := h
      exact ⟨k, line, by omega, by omega, hline, hmem⟩
    · intro h
      obtain ⟨k, line, hstart, hstop, hline, hmem⟩ := h
      exact ⟨line, ⟨k, by omega, by omega, hline⟩, hmem⟩
  rw [hbrace]
  constructor
  · intro h
    have hbelow := h.below
    exact ⟨by omega, h.level, h.opened⟩
  · intro h
    exact ⟨by omega, h.2.1, h.2.2⟩

/-- Stops by places are stops by numbers of lines. -/
theorem stopsBody_iff {lines : List Line} {signature limit n : Nat} :
    StopsBody lines signature limit (signature + 1 + n) ↔
      StopsAfter (depthAt lines signature signature) (0 < depthAt lines signature signature) limit
        (lines.drop (signature + 1)) n := by
  constructor
  · intro h
    cases h with
    | closed j hstop hcloses =>
      obtain rfl : j = signature + n := by omega
      obtain ⟨hpos, hzero, hopened⟩ := closesBody_iff.mp hcloses
      exact .closed hpos (by rwa [← depthAt_below]) (by rwa [decide_eq_true_iff])
    | full hkept => exact .full (by rwa [← slice_eq_take_drop])
    | ended hlength =>
      refine .ended ?_
      rw [List.length_drop]
      omega
  · intro h
    cases h with
    | closed hpos hzero hopened =>
      rw [decide_eq_true_iff] at hopened
      exact .closed (signature + n) (by omega) (closesBody_iff.mpr ⟨hpos, by rwa [depthAt_below], hopened⟩)
    | full hkept => exact .full (by rwa [slice_eq_take_drop])
    | ended hlength =>
      rw [List.length_drop] at hlength
      exact .ended (by omega)

theorem endsBody_iff {lines : List Line} {signature limit n : Nat} :
    EndsBody lines signature limit (signature + 1 + n) ↔
      EndsAfter (depthAt lines signature signature) (0 < depthAt lines signature signature) limit
        (lines.drop (signature + 1)) n := by
  have hnext : depthAt lines signature (signature + 1 + n) = depthAt lines signature signature +
      braceBalance ((lines.drop (signature + 1)).take (n + 1)).flatten := by
    rw [show signature + 1 + n = signature + (n + 1) by omega, depthAt_below]
  constructor
  · intro h
    cases h with
    | overclosed hdepth => exact .overclosed (by rwa [← hnext])
    | stopped hstops => exact .stopped (stopsBody_iff.mp hstops)
  · intro h
    cases h with
    | overclosed hdepth => exact .overclosed (by rwa [hnext])
    | stopped hstops => exact .stopped (stopsBody_iff.mpr hstops)

/-- A body is copied from the line below its signature on, at the depth that the signature leaves. -/
theorem bodyAfter_eq_copyBody (lines : List Line) (signature limit : Nat) :
    bodyAfter lines signature limit = copyBody (depthAt lines signature signature)
      (0 < depthAt lines signature signature) limit (lines.drop (signature + 1)) := by
  rw [depthAt_self]
  rfl

/-- The first line below a place that is not blank. -/
def firstBelow? (lines : List Line) (place : Nat) : Option Line :=
  (lines.drop (place + 1)).find? fun line => !allBlank line

/-- Before a body is opened nothing is copied only where the first line that is not blank closes more than it
opens. -/
theorem copyBody_unopened_eq_nil_iff (limit : Nat) (rest : List Line) :
    copyBody 0 false limit rest = [] ↔
      limit = 0 ∨ ∀ line ∈ rest.find? fun line => !allBlank line, braceBalance line < 0 := by
  cases limit with
  | zero => simp [copyBody_zero]
  | succ limit =>
    induction rest with
    | nil => simp [copyBody_nil]
    | cons line rest ih =>
      rw [copyBody_cons, Int.zero_add, Bool.false_or]
      cases hblank : allBlank line with
      | true =>
        have hbrace : '{' ∉ line := not_mem_of_allBlank hblank (by decide)
        have hroom : roomAfter line limit = limit + 1 := by rw [roomAfter, if_pos hblank]
        have hopens : line.contains '{' = false := by simpa using hbrace
        rw [braceBalance_of_allBlank hblank, hopens, hroom, List.find?_cons_of_neg (by simp [hblank]), ← ih]
        simp [keptOf, hblank]
      | false =>
        rw [List.find?_cons_of_pos (by simp [hblank])]
        split_ifs with hover
        · simp [hover]
        all_goals simp [keptOf, hblank, hover]

/-- A body that opens and closes on the line of its signature leaves the snippet empty only where the first
line below that is not blank closes more than it opens. Elsewhere the snippet goes on into what follows, since
the signature does not count as having opened a body. -/
theorem oneLineBody_eq_nil_iff {lines : List Line} {signature : Nat} {line : Line}
    (hline : lines[signature]? = some line) (hone : OpensAndCloses line) :
    (∀ limit, bodyAfter lines signature limit = [] ↔
      limit = 0 ∨ ∀ next ∈ firstBelow? lines signature, braceBalance next < 0) ∧
    ∀ place, IsFirstFrom lines place 50 IsHandleSignature signature line →
      (handlerBody? lines place = some [] ↔ ∀ next ∈ firstBelow? lines signature, braceBalance next < 0) := by
  have hbody (limit : Nat) : bodyAfter lines signature limit = [] ↔
      limit = 0 ∨ ∀ next ∈ firstBelow? lines signature, braceBalance next < 0 := by
    have hdepth : depthAt lines signature signature = 0 := by
      rw [depthAt_self, hline, Option.getD_some, hone.balanced]
    rw [bodyAfter_eq_copyBody, hdepth]
    exact copyBody_unopened_eq_nil_iff limit _
  refine ⟨hbody, ?_⟩
  intro place hfirst
  have hplace : (firstPlace? lines place 50 fun line => (handleSignature.atStart? line).isSome) =
      some signature := firstSignature_eq_some_iff.mpr ⟨line, hfirst⟩
  have hlimit := hbody 15
  unfold handlerBody?
  rw [hplace, Option.map_some, Option.some_inj, List.map_eq_nil_iff, hlimit]
  simp

/-- A handling method on one line, and another method below it. -/
def siblingLines : List Line := ["void Handle(Paid e) \x7b \x7d".toList, "void Ship() \x7b \x7d".toList]

theorem not_oneLineBody_eq_nil :
    ¬∀ (lines : List Line) (signature : Nat) (line : Line) (limit : Nat),
      lines[signature]? = some line → OpensAndCloses line → bodyAfter lines signature limit = [] := by
  intro h
  have hcopied : bodyAfter siblingLines 0 15 = ["void Ship() \x7b \x7d".toList] := by decide +kernel
  have hnothing := h siblingLines 0 _ 15 rfl (by decide +kernel)
  rw [hcopied] at hnothing
  cases hnothing

/-- A handling method on one line at the end of its class, and a class below it. -/
def lastMethodLines : List Line :=
  ["void Handle(Paid e) \x7b \x7d".toList, " ".toList, "\x7d".toList, "class Cart \x7b \x7d".toList]

theorem lastMethodLines_body :
    OpensAndCloses "void Handle(Paid e) \x7b \x7d".toList ∧ bodyAfter lastMethodLines 0 15 = [] ∧
      handlerBody? lastMethodLines 0 = some [] := by
  have hone : OpensAndCloses "void Handle(Paid e) \x7b \x7d".toList := by decide +kernel
  have hnext : ∀ next ∈ firstBelow? lastMethodLines 0, braceBalance next < 0 := by decide +kernel
  have hsignature : IsHandleSignature "void Handle(Paid e) \x7b \x7d".toList := by decide +kernel
  have hfirst : IsFirstFrom lastMethodLines 0 50 IsHandleSignature 0 "void Handle(Paid e) \x7b \x7d".toList :=
    ⟨Nat.le_refl 0, by decide, rfl, hsignature, fun k _ _ _ _ => Nat.zero_le k⟩
  have hline : lastMethodLines[0]? = some "void Handle(Paid e) \x7b \x7d".toList := rfl
  obtain ⟨hbody, hsnippet⟩ := oneLineBody_eq_nil_iff hline hone
  exact ⟨hone, (hbody 15).mpr (.inr hnext), (hsnippet 0 hfirst).mpr hnext⟩

end EventAtlas.Source

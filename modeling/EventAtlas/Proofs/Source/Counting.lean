import EventAtlas.Proofs.Source.Body
import EventAtlas.Source.LineView
import Mathlib.Data.List.Flatten

namespace EventAtlas.Source

open Text

namespace LineView

/-- A computation that gives `value` if its counts fit their words, and else stops. -/
structure Gives {α : Type} (fits : Prop) (value : α) (result : Except Overflow α) : Prop where
  ok : fits → result = .ok value
  overflow : ¬fits → result = .error .depth

namespace Gives

variable {α β : Type} {p q : Prop} {a : α} {b : β} {result : Except Overflow α}

theorem pure (hp : p) : Gives p a (.ok a) := ⟨fun _ => rfl, fun h => absurd hp h⟩

theorem congr (h : Gives p a result) (hpq : p ↔ q) : Gives q a result :=
  ⟨fun hq => h.ok (hpq.mpr hq), fun hq => h.overflow (mt hpq.mp hq)⟩

/-- A computation stops where its first part stops, or where the rest does. -/
theorem bind {rest : α → Except Overflow β} (h : Gives p a result) (hrest : p → Gives q b (rest a)) :
    Gives (p ∧ q) b (result >>= rest) := by
  by_cases hp : p
  · rw [h.ok hp]
    exact (hrest hp).congr (and_iff_right hp).symm
  · rw [h.overflow hp]
    exact ⟨fun hpq => absurd hpq.1 hp, fun _ => rfl⟩

theorem map (f : α → β) (h : Gives p a result) : Gives p (f a) (f <$> result) := by
  refine ⟨fun hp => ?_, fun hp => ?_⟩
  · rw [h.ok hp]
    rfl
  · rw [h.overflow hp]
    rfl

end Gives

theorem counted_gives (count : Int) : Gives (Fits count) count (counted count) :=
  ⟨fun h => if_pos h, fun h => if_neg h⟩

/-- Every count that is made on a line, from `count` on, fits. -/
def LineFits (count : Int) (line : Line) : Prop := ∀ front, front <+: line → Fits (count + braceBalance front)

private theorem lineFits_nil {count : Int} : LineFits count [] ↔ Fits count := by
  simp [LineFits, braceBalance_nil]

private theorem lineFits_cons {count : Int} {c : Char} {rest : Line} :
    LineFits count (c :: rest) ↔ Fits count ∧ LineFits (count + braceBalance [c]) rest := by
  have hfront (front : Line) : count + braceBalance (c :: front) = count + braceBalance [c] + braceBalance front := by
    rw [← List.singleton_append, braceBalance_append, Int.add_assoc]
  unfold LineFits
  simp only [List.prefix_cons_iff]
  constructor
  · intro h
    refine ⟨by simpa [braceBalance_nil] using h [] (.inl rfl), fun front hrest => ?_⟩
    rw [← hfront]
    exact h _ (.inr ⟨front, rfl, hrest⟩)
  · intro h front hline
    rcases hline with rfl | ⟨front, rfl, hrest⟩
    · simpa [braceBalance_nil] using h.1
    · rw [hfront]
      exact h.2 front hrest

private theorem countBrace_gives (c : Char) {count : Int} (hcount : Fits count) :
    Gives (Fits (count + braceBalance [c])) (count + braceBalance [c]) (countBrace count c) := by
  unfold countBrace
  by_cases hopening : c = '{'
  · subst hopening
    exact counted_gives (count + 1)
  · by_cases hclosing : c = '}'
    · subst hclosing
      exact counted_gives (count - 1)
    · have hzero : braceBalance [c] = 0 := by simp [braceBalance, hopening, hclosing]
      rw [hzero, Int.add_zero, if_neg (by simpa using hopening), if_neg (by simpa using hclosing)]
      exact .pure hcount

private theorem foldlM_countBrace_gives (line : Line) {count : Int} (hcount : Fits count) :
    Gives (LineFits count line) (count + braceBalance line) (line.foldlM countBrace count) := by
  induction line generalizing count with
  | nil =>
    rw [braceBalance_nil, Int.add_zero]
    exact .pure (lineFits_nil.mpr hcount)
  | cons c rest ih =>
    rw [List.foldlM_cons, ← List.singleton_append, braceBalance_append, ← Int.add_assoc, List.singleton_append]
    refine ((countBrace_gives c hcount).bind fun hnext => ih hnext).congr ?_
    rw [lineFits_cons, and_iff_right hcount, and_iff_right_iff_imp]
    intro hrest
    simpa [braceBalance_nil] using hrest [] List.nil_prefix

/-- The braces of a line are counted exactly where each step of the count fits its word. -/
theorem tally_gives (line : Line) : Gives (LineFits 0 line) (braceBalance line) (tally line) := by
  have hzero : Fits 0 := by decide
  have h := foldlM_countBrace_gives line hzero
  rwa [Int.zero_add] at h

/-- Every count that is made on the first `read` of the lines fits: those on a line, and those from line to line. -/
def CountsFit (depth : Int) (rest : List Line) (read : Nat) : Prop :=
  ∀ k line, k < read → rest[k]? = some line →
    LineFits 0 line ∧ Fits (depth + braceBalance (rest.take (k + 1)).flatten)

theorem countsFit_zero (depth : Int) (rest : List Line) : CountsFit depth rest 0 := by
  intro k line hk
  cases hk

private theorem countsFit_cons {depth : Int} {line : Line} {rest : List Line} {read : Nat} :
    CountsFit depth (line :: rest) (read + 1) ↔
      (LineFits 0 line ∧ Fits (depth + braceBalance line)) ∧ CountsFit (depth + braceBalance line) rest read := by
  constructor
  · intro h
    refine ⟨?_, ?_⟩
    · have hfirst := h 0 line (Nat.succ_pos read) rfl
      rwa [balance_take_cons, balance_take_zero] at hfirst
    · intro k other hk hother
      have hbelow := h (k + 1) other (Nat.succ_lt_succ hk) hother
      rwa [balance_take_cons] at hbelow
  · intro h k other hk hother
    cases k with
    | zero =>
      obtain rfl : line = other := Option.some.inj hother
      rw [balance_take_cons, balance_take_zero]
      exact h.1
    | succ k =>
      rw [balance_take_cons]
      exact h.2 k other (Nat.lt_of_succ_lt_succ hk) hother

section Copying

variable {depth : Int} {opened : Bool} {limit n : Nat} {line : Line} {rest : List Line}

/-- What becomes of one line, where its braces are counted in a word. -/
theorem copyBody_cons (depth : Int) (opened : Bool) (limit : Nat) (line : Line) (rest : List Line) :
    copyBody depth opened (limit + 1) (line :: rest) = (do
      let change ← tally line
      let depth' ← counted (depth + change)
      if depth' < 0 then .ok []
      else if (opened || line.contains '{') && depth' == 0 then .ok (keptOf [line])
      else (keptOf [line] ++ ·) <$> copyBody depth' (opened || line.contains '{') (roomAfter line limit) rest) := by
  rw [copyBody]
  congr 1
  funext change
  congr 1
  funext depth'
  by_cases hover : depth' < 0
  · rw [if_pos hover, if_pos hover]
  · rw [if_neg hover, if_neg hover]
    dsimp only
    generalize ((opened || line.contains '{') && depth' == 0) = ends
    cases hblank : allBlank line with
    | true =>
      cases ends with
      | true => simp [keptOf, hblank]
      | false => simp [keptOf, roomAfter, hblank]
    | false =>
      cases ends with
      | true => simp [keptOf, hblank]
      | false => simp [keptOf, roomAfter, hblank]

/-- The number of lines that copying reads: those it goes through, and the next one unless it stops before that. -/
def ReadsTo (depth : Int) (opened : Bool) (limit : Nat) (rest : List Line) (n read : Nat) : Prop :=
  read = n ∧ StopsAfter depth opened limit rest n ∨ read = n + 1 ∧ ¬StopsAfter depth opened limit rest n

/-- Copying goes through the first `n` lines and keeps those that are not blank, and it stops with an overflow if a
count on one of the `read` lines that it reads does not fit. -/
structure Copies (depth : Int) (opened : Bool) (limit : Nat) (rest : List Line) (n read : Nat) : Prop where
  least : IsLeast {n | EndsAfter depth opened limit rest n} n
  reads : ReadsTo depth opened limit rest n read
  kept : Source.copyBody depth opened limit rest = keptOf (rest.take n)
  gives : Gives (CountsFit depth rest read) (Source.copyBody depth opened limit rest)
    (copyBody depth opened limit rest)

theorem copies_of_stopsAfter (hstops : StopsAfter depth opened limit rest 0)
    (hcopy : Source.copyBody depth opened limit rest = []) (hchecked : copyBody depth opened limit rest = .ok []) :
    Copies depth opened limit rest 0 0 := by
  refine ⟨⟨.stopped hstops, fun m _ => Nat.zero_le m⟩, .inl ⟨rfl, hstops⟩, hcopy, ?_⟩
  rw [hcopy, hchecked]
  exact .pure (countsFit_zero depth rest)

/-- The counts of one line come before those of the lines below. -/
theorem copyBody_cons_gives {read : Nat} {body : List Line}
    (h : Gives (CountsFit (depth + braceBalance line) rest read) body
      (if depth + braceBalance line < 0 then .ok []
        else if (opened || line.contains '{') && depth + braceBalance line == 0 then .ok (keptOf [line])
        else (keptOf [line] ++ ·) <$>
          copyBody (depth + braceBalance line) (opened || line.contains '{') (roomAfter line limit) rest)) :
    Gives (CountsFit depth (line :: rest) (read + 1)) body (copyBody depth opened (limit + 1) (line :: rest)) := by
  rw [copyBody_cons]
  refine ((tally_gives line).bind fun _ => (counted_gives _).bind fun _ => h).congr ?_
  rw [countsFit_cons, and_assoc]

private theorem copies_overclosed (hover : depth + braceBalance line < 0) :
    Copies depth opened (limit + 1) (line :: rest) 0 1 := by
  have hcopy : Source.copyBody depth opened (limit + 1) (line :: rest) = [] := by
    rw [Source.copyBody_cons, if_pos hover]
  refine ⟨⟨endsAfter_zero.mpr hover, fun m _ => Nat.zero_le m⟩, .inr ⟨rfl, not_stopsAfter_zero⟩, hcopy,
    copyBody_cons_gives ?_⟩
  rw [hcopy, if_pos hover]
  exact .pure (countsFit_zero _ rest)

private theorem copies_closed (hover : ¬depth + braceBalance line < 0)
    (hends : ((opened || line.contains '{') && depth + braceBalance line == 0) = true) :
    Copies depth opened (limit + 1) (line :: rest) 1 1 := by
  obtain ⟨hopen, hlevel⟩ := Bool.and_eq_true_iff.mp hends
  have hstops : StopsAfter depth opened (limit + 1) (line :: rest) 1 :=
    stopsAfter_succ.mpr (.inl ⟨rfl, beq_iff_eq.mp hlevel, hopen⟩)
  have hcopy : Source.copyBody depth opened (limit + 1) (line :: rest) = keptOf [line] := by
    rw [Source.copyBody_cons, if_neg hover, if_pos hends, List.append_nil]
  refine ⟨⟨.stopped hstops, fun m hm => Nat.pos_of_ne_zero ?_⟩, .inl ⟨rfl, hstops⟩, hcopy, copyBody_cons_gives ?_⟩
  · rintro rfl
    exact hover (endsAfter_zero.mp hm)
  · rw [hcopy, if_neg hover, if_pos hends]
    exact .pure (countsFit_zero _ rest)

theorem Copies.cons {read : Nat} (hover : ¬depth + braceBalance line < 0)
    (hends : ¬((opened || line.contains '{') && depth + braceBalance line == 0) = true)
    (h : Copies (depth + braceBalance line) (opened || line.contains '{') (roomAfter line limit) rest n read) :
    Copies depth opened (limit + 1) (line :: rest) (n + 1) (read + 1) := by
  have hcloses {m : Nat} : ¬(m = 0 ∧ depth + braceBalance line = 0 ∧ (opened || line.contains '{') = true) := by
    intro hcloses
    exact hends (by rw [hcloses.2.2, hcloses.2.1]; rfl)
  have hbody : Source.copyBody depth opened (limit + 1) (line :: rest) = keptOf [line] ++
      Source.copyBody (depth + braceBalance line) (opened || line.contains '{') (roomAfter line limit) rest := by
    rw [Source.copyBody_cons, if_neg hover, if_neg hends]
  refine ⟨isLeast_succ (mt endsAfter_zero.mp hover) (fun m => ?_) h.least, ?_, ?_, copyBody_cons_gives ?_⟩
  · rw [endsAfter_succ, or_iff_right hcloses]
  · have hreads := h.reads
    unfold ReadsTo at hreads ⊢
    rwa [stopsAfter_succ, or_iff_right hcloses, Nat.add_right_cancel_iff, Nat.add_right_cancel_iff]
  · rw [hbody, h.kept, List.take_succ_cons, keptOf_cons line (rest.take n)]
  · rw [hbody, if_neg hover, if_neg hends]
    exact h.gives.map _

private theorem exists_copies (depth : Int) (opened : Bool) (limit : Nat) (rest : List Line) :
    ∃ n read, Copies depth opened limit rest n read := by
  -- The induction is on the lines below; the depth, the flag and the room left change with each of them.
  induction rest generalizing depth opened limit with
  | nil =>
    refine ⟨0, 0, copies_of_stopsAfter (.ended (Nat.le_refl 0)) (copyBody_nil depth opened limit) ?_⟩
    cases limit with
    | zero => rfl
    | succ limit => rfl
  | cons line rest ih =>
    cases limit with
    | zero => exact ⟨0, 0, copies_of_stopsAfter (.full rfl) (copyBody_zero depth opened _) rfl⟩
    | succ limit =>
      by_cases hover : depth + braceBalance line < 0
      · exact ⟨0, 1, copies_overclosed hover⟩
      · by_cases hends : ((opened || line.contains '{') && depth + braceBalance line == 0) = true
        · exact ⟨1, 1, copies_closed hover hends⟩
        · obtain ⟨n, read, hcopies⟩ := ih (depth + braceBalance line) (opened || line.contains '{')
            (roomAfter line limit)
          exact ⟨n + 1, read + 1, hcopies.cons hover hends⟩

end Copying

/-- Every count of braces that is made on the lines from a signature to before the place `read` fits: those along
each line, and those of all braces from the signature to the line's end. -/
def BodyFits (lines : List Line) (signature read : Nat) : Prop :=
  ∀ j line, signature ≤ j → j < read → lines[j]? = some line → LineFits 0 line ∧ Fits (depthAt lines signature j)

/-- The body below a signature is read to before the place `read`: to where it ends, and one line more unless it stops
before that. -/
def ReadsBody (lines : List Line) (signature limit stop read : Nat) : Prop :=
  read = stop ∧ StopsBody lines signature limit stop ∨ read = stop + 1 ∧ ¬StopsBody lines signature limit stop

theorem readsBody_iff {lines : List Line} {signature limit n read : Nat} :
    ReadsBody lines signature limit (signature + 1 + n) (signature + 1 + read) ↔
      ReadsTo (depthAt lines signature signature) (0 < depthAt lines signature signature) limit
        (lines.drop (signature + 1)) n read := by
  unfold ReadsBody ReadsTo
  rw [stopsBody_iff, Nat.add_assoc _ n 1, Nat.add_left_cancel_iff, Nat.add_left_cancel_iff]

theorem bodyFits_iff {lines : List Line} {signature read : Nat} {line : Line} (hline : lines[signature]? = some line) :
    BodyFits lines signature (signature + 1 + read) ↔
      LineFits 0 line ∧ CountsFit (depthAt lines signature signature) (lines.drop (signature + 1)) read := by
  have hdepth (k : Nat) : depthAt lines signature (signature + 1 + k) = depthAt lines signature signature +
      braceBalance ((lines.drop (signature + 1)).take (k + 1)).flatten := by
    rw [Nat.add_assoc, Nat.add_comm 1 k, depthAt_below]
  constructor
  · intro h
    refine ⟨(h signature line (Nat.le_refl _) (by omega) hline).1, ?_⟩
    intro k other hk hother
    rw [List.getElem?_drop] at hother
    rw [← hdepth]
    exact h (signature + 1 + k) other (by omega) (by omega) hother
  · intro h j other hstart hread hother
    obtain ⟨hfirst, hbelow⟩ := h
    rcases Nat.eq_or_lt_of_le hstart with rfl | hlater
    · obtain rfl : line = other := Option.some.inj (hline.symm.trans hother)
      have hwhole := hfirst line (List.prefix_refl line)
      rw [Int.zero_add] at hwhole
      refine ⟨hfirst, ?_⟩
      rwa [depthAt_self, hline]
    · obtain ⟨k, rfl⟩ := Nat.exists_eq_add_of_le (Nat.succ_le_of_lt hlater)
      rw [hdepth]
      exact hbelow k other (by omega) (by rwa [List.getElem?_drop])

/-- No more can be open than there are braces. -/
theorem natAbs_braceBalance_le (s : Line) : (braceBalance s).natAbs ≤ s.countP fun c => c == '{' || c == '}' := by
  induction s with
  | nil => exact Nat.le_refl 0
  | cons c rest ih =>
    rw [← List.singleton_append, braceBalance_append, List.countP_append]
    have hone : (braceBalance [c]).natAbs ≤ [c].countP fun c => c == '{' || c == '}' := by
      by_cases hopening : c = '{'
      · subst hopening
        decide
      · by_cases hclosing : c = '}'
        · subst hclosing
          decide
        · simp [braceBalance, hopening, hclosing]
    omega

theorem fits_of_sublist {s t : Line} (h : s.Sublist t)
    (hfew : (t.countP fun c => c == '{' || c == '}') < 2147483648) : Fits (braceBalance s) := by
  have hle := natAbs_braceBalance_le s
  have hcount := h.countP_le (p := fun c => c == '{' || c == '}')
  have hmin : Int32.minValue.toInt = -2147483648 := rfl
  have hmax : Int32.maxValue.toInt = 2147483647 := rfl
  unfold Fits
  omega

/-- Lines with fewer braces than a count can reach are counted without an overflow. -/
theorem bodyFits_of_few {lines : List Line}
    (hfew : (lines.flatten.countP fun c => c == '{' || c == '}') < 2147483648) (signature read : Nat) :
    BodyFits lines signature read := by
  intro j line _ _ hline
  have hmem : line.Sublist lines.flatten := List.sublist_flatten_of_mem (List.mem_of_getElem? hline)
  refine ⟨?_, ?_⟩
  · intro front hfront
    rw [Int.zero_add]
    exact fits_of_sublist (hfront.sublist.trans hmem) hfew
  · exact fits_of_sublist ((List.drop_sublist _ _).trans (List.take_sublist _ _)).flatten hfew

theorem position_eq_ok {sum : Nat} (h : sum < UInt64.size) : position sum = .ok sum := if_pos h

/-- A body is copied as without bounds exactly where all counts fit, and else the count stops. -/
theorem bodyAfter_gives (v : LineView) {i : UInt64} {line : Line} (hline : v.lines[i.toNat]? = some line)
    (limit : UInt64) :
    ∃ n read, Copies (depthAt v.lines i.toNat i.toNat) (0 < depthAt v.lines i.toNat i.toNat) limit.toNat
        (v.lines.drop (i.toNat + 1)) n read ∧
      Gives (BodyFits v.lines i.toNat (i.toNat + 1 + read)) (Source.bodyAfter v.lines i.toNat limit.toNat)
        (v.bodyAfter i limit) := by
  obtain ⟨n, read, hcopies⟩ := exists_copies (depthAt v.lines i.toNat i.toNat)
    (0 < depthAt v.lines i.toNat i.toNat) limit.toNat (v.lines.drop (i.toNat + 1))
  have hin : i.toNat < v.lines.length := (List.getElem?_eq_some_iff.mp hline).1
  have hnext : position (i.toNat + 1) = .ok (i.toNat + 1) :=
    position_eq_ok (Nat.lt_of_le_of_lt (Nat.succ_le_of_lt hin) v.length_lt)
  have hdepth : depthAt v.lines i.toNat i.toNat = braceBalance line := by
    rw [depthAt_self, hline, Option.getD_some]
  refine ⟨n, read, hcopies, ?_⟩
  have hgives := hcopies.gives
  rw [← bodyAfter_eq_copyBody, hdepth] at hgives
  unfold LineView.bodyAfter LineView.line?
  rw [hline, Option.getD_some, hnext]
  refine ((tally_gives line).bind fun _ => hgives).congr ?_
  rw [bodyFits_iff hline, hdepth]

/-- The snippet of a body holds what is not blank of the lines below the signature, without the white space at their
ends, down to the first place where the body can end. No line that it goes through closes more than is open, and
none comes after a line that closes the body. It is given wherever every count of braces fits its word, so wherever
there are fewer than 2147483648 braces, and it is the snippet of unbounded counts. -/
theorem bodyAfter_copies (v : LineView) {i : UInt64} (hi : i.toNat < v.lines.length) (limit : UInt64) :
    ∃ stop read body,
      IsLeast {stop | i.toNat < stop ∧ EndsBody v.lines i.toNat limit.toNat stop} stop ∧
      List.Forall₂ IsTrimmed ((slice v.lines (i.toNat + 1) stop).filter fun line => !allBlank line) body ∧
      body.length ≤ limit.toNat ∧
      (∀ j, i.toNat < j → j < stop → 0 ≤ depthAt v.lines i.toNat j) ∧
      (∀ j, ClosesBody v.lines i.toNat j → stop ≤ j + 1) ∧
      ReadsBody v.lines i.toNat limit.toNat stop read ∧
      (BodyFits v.lines i.toNat read → v.bodyAfter i limit = .ok body) ∧
      (¬BodyFits v.lines i.toNat read → v.bodyAfter i limit = .error .depth) ∧
      ((v.lines.flatten.countP fun c => c == '{' || c == '}') < 2147483648 → BodyFits v.lines i.toNat read) ∧
      body = Source.bodyAfter v.lines i.toNat limit.toNat := by
  obtain ⟨n, read, hcopies, hgives⟩ := v.bodyAfter_gives (List.getElem?_eq_getElem hi) limit
  have hleast : IsLeast {stop | i.toNat < stop ∧ EndsBody v.lines i.toNat limit.toNat stop} (i.toNat + 1 + n) :=
    isLeast_below (fun _ => endsBody_iff) hcopies.least
  have hkept : Source.bodyAfter v.lines i.toNat limit.toNat =
      keptOf (slice v.lines (i.toNat + 1) (i.toNat + 1 + n)) := by
    rw [bodyAfter_eq_copyBody, hcopies.kept, slice_eq_take_drop]
  refine ⟨i.toNat + 1 + n, i.toNat + 1 + read, Source.bodyAfter v.lines i.toNat limit.toNat, hleast, ?_, ?_, ?_, ?_,
    readsBody_iff.mpr hcopies.reads, hgives.ok, hgives.overflow, fun hfew => bodyFits_of_few hfew _ _, rfl⟩
  · rw [hkept, keptOf, List.forall₂_map_right_iff, List.forall₂_same]
    exact fun line _ => isTrimmed_trimEnd line
  · rw [bodyAfter_eq_copyBody]
    exact length_copyBody_le _ _ _ _
  · intro j hbelow hstop
    by_contra hdepth
    have hle := hleast.2 ⟨hbelow, .overclosed (by omega)⟩
    omega
  · intro j hcloses
    have hbelow := hcloses.below
    exact hleast.2 ⟨by omega, .stopped (.closed j rfl hcloses)⟩

/-- A handling method with a blank line and with white space behind a statement, and the end of its class. -/
def payLines : LineView where
  lines := ["void Handle(Paid e)".toList, "\x7b".toList, "  Pay(e); \t".toList, " ".toList, "\x7d".toList, "\x7d".toList]
  length_lt := by decide

theorem payLines_body :
    (0 : UInt64).toNat < payLines.lines.length ∧
      payLines.bodyAfter 0 15 = .ok ["\x7b".toList, "  Pay(e);".toList, "\x7d".toList] := by
  have hin : (0 : UInt64).toNat < payLines.lines.length := by decide
  obtain ⟨stop, read, body, -, -, -, -, -, -, hok, -, hfew, hbody⟩ := payLines.bodyAfter_copies hin 15
  have hcopied : Source.bodyAfter payLines.lines (0 : UInt64).toNat (15 : UInt64).toNat =
      ["\x7b".toList, "  Pay(e);".toList, "\x7d".toList] := by decide +kernel
  refine ⟨hin, ?_⟩
  rw [hok (hfew (by decide +kernel)), hbody, hcopied]

/-- A signature that closes more than it opens, and a line below it. -/
def closingSignature : LineView := ⟨["\x7d".toList, "\x7b\x7b".toList], by decide⟩

/-- A signature with `n` braces. -/
def bracedSignature (n : Nat) : LineView := ⟨[List.replicate n '{'], (by decide : 1 < UInt64.size)⟩

private theorem bracedSignature_overflows {n : Nat} (hn : 2147483648 ≤ n) (limit : UInt64) :
    (bracedSignature n).bodyAfter 0 limit = .error .depth := by
  have hline : (bracedSignature n).lines[(0 : UInt64).toNat]? = some (List.replicate n '{') := rfl
  obtain ⟨m, read, -, hgives⟩ := (bracedSignature n).bodyAfter_gives hline limit
  apply hgives.overflow
  intro hfits
  have hdepth := (hfits _ _ (Nat.le_refl _) (by omega) hline).2.2
  have hcount : braceBalance (List.replicate n '{') = n := by
    unfold braceBalance
    rw [List.count_replicate_self, List.count_eq_zero.mpr (by simp)]
    omega
  have hmax : Int32.maxValue.toInt = 2147483647 := rfl
  rw [depthAt_self, hline, Option.getD_some, hcount, hmax] at hdepth
  omega

/-- A signature that closes more than it opens does not keep the lines below it from being copied, and a count of
braces can leave its word. -/
theorem not_bodyAfter_copies_everywhere :
    (¬∀ (v : LineView) (i limit : UInt64) (j : Nat) (body : List Line), i.toNat < v.lines.length → i.toNat ≤ j →
      depthAt v.lines i.toNat j < 0 → v.bodyAfter i limit = .ok body →
      body.Sublist (keptOf (slice v.lines (i.toNat + 1) j))) ∧
    ¬∀ (v : LineView) (i limit : UInt64), i.toNat < v.lines.length → ∃ body, v.bodyAfter i limit = .ok body := by
  constructor
  · intro h
    have hbody : closingSignature.bodyAfter 0 15 = .ok ["\x7b\x7b".toList] := by decide +kernel
    have hnothing := h closingSignature 0 15 0 _ (by decide) (Nat.le_refl 0) (by decide +kernel) hbody
    exact absurd hnothing.length_le (by decide +kernel)
  · intro h
    obtain ⟨body, hbody⟩ := h (bracedSignature 2147483648) 0 1 Nat.one_pos
    rw [bracedSignature_overflows (Nat.le_refl _)] at hbody
    cases hbody

end LineView

end EventAtlas.Source

import EventAtlas.Proofs.Source.Counting

namespace EventAtlas.Source

open Text

/-- The lines at the places that have a property, in order. -/
def linesAt (lines : List Line) (p : Nat → Bool) : List Line :=
  (lines.zipIdx.filter fun x => p x.2).map Prod.fst

private theorem map_filter_zipIdx (lines : List Line) (k start stop : Nat) :
    ((lines.zipIdx k).filter fun x => start ≤ x.2 && x.2 < stop).map Prod.fst =
      slice lines (start - k) (stop - k) := by
  induction lines generalizing k with
  | nil => simp [slice]
  | cons line rest ih =>
    rw [List.zipIdx_cons]
    by_cases hstop : k < stop
    · have hlater : stop - k = stop - (k + 1) + 1 := by omega
      by_cases hstart : start ≤ k
      · have hzero : start - k = 0 := by omega
        have hnext : start - (k + 1) = 0 := by omega
        rw [List.filter_cons_of_pos (by simp [hstart, hstop]), List.map_cons, ih, hzero, hnext, hlater]
        rfl
      · have hnext : start - k = start - (k + 1) + 1 := by omega
        rw [List.filter_cons_of_neg (by simp [hstart]), ih, hnext, hlater]
        rfl
    · have hzero : stop - k = 0 := by omega
      have hnext : stop - (k + 1) = 0 := by omega
      rw [List.filter_cons_of_neg (by simp [hstop]), ih, hzero, hnext]
      simp [slice]

/-- A slice holds the lines at its places. -/
theorem linesAt_eq_slice {lines : List Line} {p : Nat → Bool} {start stop : Nat}
    (h : ∀ k, k < lines.length → p k = (decide (start ≤ k) && decide (k < stop))) :
    linesAt lines p = slice lines start stop := by
  refine Eq.trans ?_ (map_filter_zipIdx lines 0 start stop)
  unfold linesAt
  congr 1
  apply List.filter_congr
  intro x hx
  have hplace := (List.getElem?_eq_some_iff.mp (List.mem_zipIdx_iff_getElem?.mp hx)).1
  exact h x.2 hplace

private theorem linesAt_above (lines : List Line) (i : Nat) :
    linesAt lines (fun k => i < k) = lines.drop (i + 1) := by
  have hslice : linesAt lines (fun k => i < k) = slice lines (i + 1) lines.length := by
    apply linesAt_eq_slice
    intro k hk
    rw [decide_eq_true hk, Bool.and_true]
    rfl
  rw [hslice, slice, List.take_length]

namespace LineView

variable (v : LineView) (i : UInt64)

theorem position_eq_error {sum : Nat} (h : UInt64.size ≤ sum) : position sum = .error .position :=
  if_neg (Nat.not_lt.mpr h)

/-- The context of a position is what unbounded sums tell wherever the sum of its end is a position or there are no
lines, and elsewhere it is not given. -/
theorem context_eq (before after : UInt64) :
    v.context i before after =
      if v.lines = [] ∨ i.toNat + after.toNat + 1 < UInt64.size then
        .ok (linesAt v.lines fun k =>
          (i.toNat : Int) - before.toNat ≤ k && (k : Int) ≤ i.toNat + after.toNat)
      else .error .position := by
  unfold context
  by_cases hnone : v.lines = []
  · rw [if_pos (List.isEmpty_iff.mpr hnone), if_pos (.inl hnone), hnone]
    rfl
  · rw [if_neg (mt List.isEmpty_iff.mp hnone)]
    by_cases hfits : i.toNat + after.toNat + 1 < UInt64.size
    · have hexact : (linesAt v.lines fun k =>
          (i.toNat : Int) - before.toNat ≤ k && (k : Int) ≤ i.toNat + after.toNat) =
            slice v.lines (i.toNat - before.toNat) (i.toNat + after.toNat + 1) := by
        apply linesAt_eq_slice
        intro k _
        rw [Bool.eq_iff_iff]
        simp only [Bool.and_eq_true, decide_eq_true_eq]
        omega
      rw [if_pos (.inr hfits), hexact, position_eq_ok (by omega)]
      change (position (i.toNat + after.toNat + 1) >>= _) = _
      rw [position_eq_ok hfits]
      rfl
    · rw [if_neg (not_or.mpr ⟨hnone, hfits⟩)]
      by_cases hlast : i.toNat + after.toNat < UInt64.size
      · rw [position_eq_ok hlast]
        change (position (i.toNat + after.toNat + 1) >>= _) = _
        rw [position_eq_error (by omega)]
        rfl
      · rw [position_eq_error (by omega)]
        rfl

section Search

variable {α : Type} {f : Line → Option α} {d more : Nat}

private theorem getElem?_past {n : Nat} (h : UInt64.size ≤ n) : v.lines[n]? = none :=
  List.getElem?_eq_none (by have := v.length_lt; omega)

/-- Nothing lies at a place that is no position, so a search that gets past the upper line at a distance is stopped
there only if it has found nothing. -/
theorem atDistance_eq (f : Line → Option α) (d : Nat) :
    v.atDistance i f d =
      if i.toNat + d < UInt64.size ∨ Source.atDistance v.lines i.toNat f d ≠ none then
        .ok (Source.atDistance v.lines i.toNat f d)
      else .error .position := by
  unfold LineView.atDistance Source.atDistance
  dsimp only
  cases habove : (if d ≤ i.toNat then v.lines[i.toNat - d]?.bind f else none) with
  | some a => simp
  | none =>
    by_cases hzero : d = 0
    · subst hzero
      have hi := i.toNat_lt_size
      simp [hi]
    · by_cases hfits : i.toNat + d < UInt64.size
      · simp [hzero, hfits, position_eq_ok hfits]
      · simp [hzero, hfits, position_eq_error (Nat.le_of_not_lt hfits), v.getElem?_past (Nat.le_of_not_lt hfits)]

private theorem outward_eq_ok
    (h : i.toNat + (d + more) < UInt64.size ∨ ∃ e, d ≤ e ∧ e ≤ d + more ∧ i.toNat + e ≤ UInt64.size ∧
      Source.atDistance v.lines i.toNat f e ≠ none) :
    v.outward i f d more = .ok (Source.outward v.lines i.toNat f d more) := by
  induction more generalizing d with
  | zero =>
    rw [LineView.outward, Source.outward, atDistance_eq, if_pos]
    rcases h with hfits | ⟨e, hd, he, -, hsome⟩
    · exact .inl hfits
    · obtain rfl : d = e := by omega
      exact .inr hsome
  | succ more ih =>
    rw [LineView.outward, Source.outward, atDistance_eq]
    cases hfound : Source.atDistance v.lines i.toNat f d with
    | some a =>
      rw [if_pos (.inr (Option.some_ne_none a))]
      rfl
    | none =>
      have hlater : i.toNat + d < UInt64.size ∧ (i.toNat + (d + 1 + more) < UInt64.size ∨
          ∃ e, d + 1 ≤ e ∧ e ≤ d + 1 + more ∧ i.toNat + e ≤ UInt64.size ∧
            Source.atDistance v.lines i.toNat f e ≠ none) := by
        rcases h with hfits | ⟨e, hd, he, hreach, hsome⟩
        · exact ⟨by omega, .inl (by omega)⟩
        · have hne : d ≠ e := by
            rintro rfl
            exact hsome hfound
          exact ⟨by omega, .inr ⟨e, by omega, by omega, hreach, hsome⟩⟩
      rw [if_pos (.inl hlater.1)]
      exact ih hlater.2

private theorem outward_eq_error (hleaves : UInt64.size ≤ i.toNat + (d + more)) (hd : i.toNat + d ≤ UInt64.size)
    (hnone : ∀ e, d ≤ e → i.toNat + e ≤ UInt64.size → Source.atDistance v.lines i.toNat f e = none) :
    v.outward i f d more = .error .position := by
  have hfound := hnone d (Nat.le_refl d) hd
  induction more generalizing d with
  | zero =>
    rw [LineView.outward, atDistance_eq, if_neg]
    rw [hfound, Nat.add_zero] at *
    simp [hleaves]
  | succ more ih =>
    rw [LineView.outward, atDistance_eq, hfound]
    by_cases hfits : i.toNat + d < UInt64.size
    · rw [if_pos (.inl hfits)]
      exact ih (by omega) hfits (fun e he => hnone e (by omega)) (hnone (d + 1) (by omega) hfits)
    · rw [if_neg (by simp [hfits])]
      rfl

/-- A line that the search comes to gives a value. -/
def Finds (v : LineView) (i : UInt64) (f : Line → Option α) : Prop :=
  ∃ j line, Nat.dist i.toNat j ≤ UInt64.size - i.toNat ∧ v.lines[j]? = some line ∧ f line ≠ none

private theorem around?_eq_ok {radius : UInt64} (h : i.toNat + radius.toNat < UInt64.size ∨ v.Finds i f) :
    v.around? i radius f = .ok (nearestAround? v.lines i.toNat radius.toNat f) := by
  apply v.outward_eq_ok
  by_cases hfits : i.toNat + radius.toNat < UInt64.size
  · exact .inl (by omega)
  · obtain ⟨j, line, hnear, hline, hsome⟩ := h.resolve_left hfits
    have hi := i.toNat_lt_size
    refine .inr ⟨Nat.dist i.toNat j, Nat.zero_le _, by omega, by omega, ?_⟩
    intro hnone
    have hvalue := atDistance_eq_none_iff.mp hnone j rfl
    rw [hline] at hvalue
    exact hsome hvalue

private theorem around?_eq_error {radius : UInt64} (hleaves : UInt64.size ≤ i.toNat + radius.toNat) (h : ¬v.Finds i f) :
    v.around? i radius f = .error .position := by
  have hi := i.toNat_lt_size
  refine v.outward_eq_error i (by omega) (by omega) fun e _ hreach => ?_
  rw [atDistance_eq_none_iff]
  intro j hj
  rw [Option.bind_eq_none_iff]
  intro line hline
  by_contra hsome
  exact h ⟨j, line, by omega, hline, hsome⟩

/-- A search applies `f` to lines within its radius only. -/
theorem around?_congr {radius : UInt64} {g : Line → Option α}
    (h : ∀ j line, Nat.dist i.toNat j ≤ radius.toNat → v.lines[j]? = some line → f line = g line) :
    v.around? i radius f = v.around? i radius g := by
  have hvalue (j : Nat) (hj : Nat.dist i.toNat j ≤ radius.toNat) : v.lines[j]?.bind f = v.lines[j]?.bind g := by
    cases hline : v.lines[j]? with
    | none => rfl
    | some line => exact h j line hj hline
  have hdistance (d : Nat) (hd : d ≤ radius.toNat) : v.atDistance i f d = v.atDistance i g d := by
    have hsame : Source.atDistance v.lines i.toNat f d = Source.atDistance v.lines i.toNat g d := by
      rw [atDistance_eq_or, atDistance_eq_or, hvalue (i.toNat + d) (by unfold Nat.dist; omega)]
      by_cases habove : d ≤ i.toNat
      · rw [if_pos habove, if_pos habove, hvalue (i.toNat - d) (by unfold Nat.dist; omega)]
      · rw [if_neg habove, if_neg habove]
    rw [atDistance_eq, atDistance_eq, hsame]
  have houtward (more d : Nat) (hd : d + more ≤ radius.toNat) : v.outward i f d more = v.outward i g d more := by
    induction more generalizing d with
    | zero =>
      rw [LineView.outward, LineView.outward]
      exact hdistance d hd
    | succ more ih => rw [LineView.outward, LineView.outward, hdistance d (by omega), ih (d + 1) (by omega)]
  exact houtward radius.toNat 0 (Nat.le_of_eq (Nat.zero_add _))

end Search

theorem bodyAfter_past {v : LineView} {i : UInt64} (hout : v.lines.length ≤ i.toNat) (limit : UInt64) :
    v.bodyAfter i limit = if i.toNat + 1 < UInt64.size then .ok [] else .error .position := by
  unfold LineView.bodyAfter line?
  rw [List.getElem?_eq_none hout]
  change (position (i.toNat + 1) >>= _) = _
  by_cases hnext : i.toNat + 1 < UInt64.size
  · rw [position_eq_ok hnext, if_pos hnext]
    change LineView.copyBody 0 _ limit.toNat (v.lines.drop (i.toNat + 1)) = _
    rw [List.drop_eq_nil_of_le (by omega)]
    cases limit.toNat with
    | zero => rfl
    | succ limit => rfl
  · rw [position_eq_error (by omega), if_neg hnext]
    rfl

theorem bodyAfter_eq_error_position_iff {limit : UInt64} :
    v.bodyAfter i limit = .error .position ↔ i.toNat + 1 = UInt64.size := by
  have hi := i.toNat_lt_size
  by_cases hin : i.toNat < v.lines.length
  · have hlength := v.length_lt
    obtain ⟨n, read, -, hgives⟩ := v.bodyAfter_gives (List.getElem?_eq_getElem hin) limit
    refine iff_of_false ?_ (by omega)
    by_cases hfits : BodyFits v.lines i.toNat (i.toNat + 1 + read)
    · rw [hgives.ok hfits]
      nofun
    · rw [hgives.overflow hfits]
      nofun
  · rw [bodyAfter_past (Nat.le_of_not_lt hin)]
    by_cases hnext : i.toNat + 1 < UInt64.size
    · rw [if_pos hnext]
      exact iff_of_false nofun (by omega)
    · rw [if_neg hnext]
      exact iff_of_true rfl (by omega)

/-- A body holds lines below its position only. -/
theorem bodyAfter_sublist {limit : UInt64} {body : List Line} (h : v.bodyAfter i limit = .ok body) :
    body.Sublist ((linesAt v.lines fun k => i.toNat < k).map trimEnd) := by
  rw [linesAt_above]
  by_cases hin : i.toNat < v.lines.length
  · obtain ⟨n, read, hcopies, hgives⟩ := v.bodyAfter_gives (List.getElem?_eq_getElem hin) limit
    have hfits : BodyFits v.lines i.toNat (i.toNat + 1 + read) := by
      by_contra hfits
      rw [hgives.overflow hfits] at h
      cases h
    rw [hgives.ok hfits, bodyAfter_eq_copyBody, hcopies.kept] at h
    rw [← Except.ok.inj h, keptOf]
    exact (List.filter_sublist.trans (List.take_sublist _ _)).map trimEnd
  · rw [bodyAfter_past (Nat.le_of_not_lt hin)] at h
    split_ifs at h
    rw [← Except.ok.inj h]
    exact List.nil_sublist _

/-- What is read around a 64-bit position, against unbounded sums. A context is exact if there are no lines or if the
place after its last one is a position, and else it is not given. A search applies `f` to lines within its radius only;
it gives what unbounded sums give if its last place is a position or if a line that it comes to before the positions
end has a value, and else it gives nothing. A body holds lines below its position only, and the last position has
none. -/
theorem positions_exact :
    (∀ before after, v.context i before after =
      if v.lines = [] ∨ i.toNat + after.toNat + 1 < UInt64.size then
        .ok (linesAt v.lines fun k =>
          (i.toNat : Int) - before.toNat ≤ k && (k : Int) ≤ i.toNat + after.toNat)
      else .error .position) ∧
    (∀ (radius : UInt64) (α : Type) (f : Line → Option α),
      (∀ g, (∀ j line, Nat.dist i.toNat j ≤ radius.toNat → v.lines[j]? = some line → f line = g line) →
        v.around? i radius f = v.around? i radius g) ∧
      (i.toNat + radius.toNat < UInt64.size ∨ v.Finds i f →
        v.around? i radius f = .ok (nearestAround? v.lines i.toNat radius.toNat f)) ∧
      (UInt64.size ≤ i.toNat + radius.toNat → ¬v.Finds i f → v.around? i radius f = .error .position)) ∧
    ∀ limit,
      (∀ body, v.bodyAfter i limit = .ok body →
        body.Sublist ((linesAt v.lines fun k => i.toNat < k).map trimEnd)) ∧
      (v.bodyAfter i limit = .error .position ↔ i.toNat + 1 = UInt64.size) := by
  refine ⟨v.context_eq i, fun radius α f => ⟨fun g => v.around?_congr i, v.around?_eq_ok i, v.around?_eq_error i⟩, ?_⟩
  intro limit
  exact ⟨fun body => v.bodyAfter_sublist i, v.bodyAfter_eq_error_position_iff i⟩

/-- A unit of two lines. -/
def cart : LineView := ⟨["class Cart".toList, "int sum".toList], by decide⟩

/-- The last position of all. -/
def lastPosition : UInt64 := 18446744073709551615

/-- Near the last position none of the three is given: neither a context without end, nor a search around that
position, nor the body below it. -/
theorem not_positions_exact_everywhere :
    (¬∀ (v : LineView) (i before after : UInt64), v.context i before after = .ok (linesAt v.lines fun k =>
      (i.toNat : Int) - before.toNat ≤ k && (k : Int) ≤ i.toNat + after.toNat)) ∧
    (¬∀ (v : LineView) (i radius : UInt64), v.around? i radius CSharp.declaredType =
      .ok (nearestAround? v.lines i.toNat radius.toNat CSharp.declaredType)) ∧
    ¬∀ (v : LineView) (i limit : UInt64), ∃ body, v.bodyAfter i limit = .ok body := by
  refine ⟨?_, ?_, ?_⟩
  · intro h
    exact absurd (h cart 0 0 lastPosition) (by decide +kernel)
  · intro h
    exact absurd (h cart lastPosition 1) (by decide +kernel)
  · intro h
    obtain ⟨body, hbody⟩ := h cart lastPosition 15
    rw [(cart.bodyAfter_eq_error_position_iff lastPosition).mpr (by decide)] at hbody
    cases hbody

end LineView

end EventAtlas.Source

import EventAtlas.Text.Lowercase
import Mathlib.Data.List.Infix
import Mathlib.Data.List.TakeWhile

namespace EventAtlas.Text

/-- Whether the first character of a text that is not ignorable is cased, if there is such a character. -/
def firstCased? (s : List Char) : Option Bool := (s.find? (!isCaseIgnorable ·)).map isCased

theorem firstCased?_append (s t : List Char) : firstCased? (s ++ t) = (firstCased? s).or (firstCased? t) := by
  simp [firstCased?, List.find?_append, Option.map_or]

theorem continuesCased_iff (s : List Char) : continuesCased s = true ↔ firstCased? s = some true := by
  unfold continuesCased firstCased?
  rw [List.find?_not_eq_head?_dropWhile]
  cases s.dropWhile isCaseIgnorable with
  | nil => simp
  | cons c rest => simp

theorem lowerSigma_eq (before after : List Char) :
    lowerSigma before after =
      if firstCased? before = some true ∧ firstCased? after ≠ some true then 'ς' else 'σ' := by
  simp only [lowerSigma, Bool.and_eq_true, Bool.not_eq_true', ← Bool.not_eq_true, continuesCased_iff, ne_eq]

/-- What stands around a capital sigma, the text before it in reverse, tells its form whatever lies beyond:
a character that is not cased comes before it, a cased one behind it, or both sides are known to call for the
final form. -/
def SigmaSettled (before after : List Char) : Prop :=
  firstCased? before = some false ∨ firstCased? after = some true ∨
    (firstCased? before = some true ∧ firstCased? after = some false)

instance (before after : List Char) : Decidable (SigmaSettled before after) := by
  unfold SigmaSettled
  infer_instance

theorem SigmaSettled.lowerSigma_eq {before after : List Char} (h : SigmaSettled before after)
    (p s : List Char) : lowerSigma (before ++ p) (after ++ s) = lowerSigma before after := by
  rw [Text.lowerSigma_eq, Text.lowerSigma_eq, firstCased?_append, firstCased?_append]
  rcases h with hbefore | hafter | ⟨hbefore, hafter⟩
  · simp [hbefore]
  · simp [hafter]
  · simp [hbefore, hafter]

/-- Where the form of a sigma is open, a cased letter on one side changes it. -/
theorem lowerSigma_ne_of_open {before after : List Char} (h : ¬SigmaSettled before after) {letter : Char}
    (hletter : firstCased? [letter] = some true) :
    lowerSigma (before ++ [letter]) after ≠ lowerSigma before after ∨
      lowerSigma before (after ++ [letter]) ≠ lowerSigma before after := by
  simp only [lowerSigma_eq, firstCased?_append, hletter]
  unfold SigmaSettled at h
  cases hbefore : firstCased? before with
  | none =>
    left
    have hafter : firstCased? after ≠ some true := fun hcased => h (.inr (.inl hcased))
    simp [hafter]
  | some cased =>
    cases cased with
    | false => exact absurd (.inl hbefore) h
    | true =>
      right
      have hafter : firstCased? after = none := by
        cases hnext : firstCased? after with
        | none => rfl
        | some next =>
          cases next with
          | false => exact absurd (.inr (.inr ⟨hbefore, hnext⟩)) h
          | true => exact absurd (.inr (.inl hnext)) h
      simp [hafter]

/-- All sigmas of a text are settled within it. -/
def SigmasSettled (s : List Char) : Prop :=
  ∀ before after, s = before ++ 'Σ' :: after → SigmaSettled before.reverse after

instance (s : List Char) : Decidable (SigmasSettled s) :=
  decidable_of_iff
    (∀ i < s.length, s[i]? = some 'Σ' → SigmaSettled (s.take i).reverse (s.drop (i + 1))) (by
    constructor
    · intro h before after hs
      have hplace : before.length < s.length := by simp [hs]
      simpa [hs] using h before.length hplace (by simp [hs])
    · intro h i hi hsigma
      obtain ⟨_, hget⟩ := List.getElem?_eq_some_iff.mp hsigma
      apply h
      rw [← hget, List.cons_getElem_drop_succ, List.take_append_drop])

/-- Lower case of a character between two texts, the one before it in reverse. -/
def lowerAt (before after : List Char) (c : Char) : List Char :=
  if c = 'Σ' then [lowerSigma before after] else lowerChar c

/-- Lower case of a text between two others, the one before it in reverse. -/
def lowerBetween (before after : List Char) : List Char → List Char
  | [] => []
  | c :: rest => lowerAt before (rest ++ after) c ++ lowerBetween (c :: before) after rest

theorem lowerAfter_append (before s t : List Char) :
    lowerAfter before (s ++ t) = lowerBetween before t s ++ lowerAfter (s.reverse ++ before) t := by
  induction s generalizing before with
  | nil => rfl
  | cons c s ih =>
    rw [List.cons_append, lowerAfter, ih, lowerBetween, List.append_assoc, List.reverse_cons,
      List.append_assoc]
    rfl

theorem lower_append_append (p d s : List Char) :
    lower (p ++ d ++ s) =
      lowerBetween [] (d ++ s) p ++ lowerBetween p.reverse s d ++ lowerAfter (d.reverse ++ p.reverse) s := by
  unfold lower
  rw [List.append_assoc, lowerAfter_append, lowerAfter_append, List.append_nil, List.append_assoc]

theorem lower_eq_lowerBetween (d : List Char) : lower d = lowerBetween [] [] d := by
  have h := lowerAfter_append [] d []
  simpa [lower, lowerAfter] using h

theorem length_lowerAt (before after before' after' : List Char) (c : Char) :
    (lowerAt before after c).length = (lowerAt before' after' c).length := by
  unfold lowerAt
  split_ifs
  · rfl
  · rfl

private theorem length_lowerBetween (before after before' after' d : List Char) :
    (lowerBetween before after d).length = (lowerBetween before' after' d).length := by
  induction d generalizing before before' with
  | nil => rfl
  | cons c d ih =>
    have hhead := length_lowerAt before (d ++ after) before' (d ++ after') c
    have htail := ih (c :: before) (c :: before')
    simp only [lowerBetween, List.length_append]
    omega

/-- A text has the same lower case in two surroundings if and only if each of its sigmas has the same form. -/
theorem lowerBetween_eq_iff (before after before' after' d : List Char) :
    lowerBetween before after d = lowerBetween before' after' d ↔
      ∀ p s, d = p ++ 'Σ' :: s →
        lowerSigma (p.reverse ++ before) (s ++ after) = lowerSigma (p.reverse ++ before') (s ++ after') := by
  induction d generalizing before before' with
  | nil => simp [lowerBetween]
  | cons c d ih =>
    have hlength := length_lowerAt before (d ++ after) before' (d ++ after') c
    have hsplit : lowerBetween before after (c :: d) = lowerBetween before' after' (c :: d) ↔
        lowerAt before (d ++ after) c = lowerAt before' (d ++ after') c ∧
          lowerBetween (c :: before) after d = lowerBetween (c :: before') after' d := by
      constructor
      · intro h
        exact List.append_inj h hlength
      · intro h
        rw [lowerBetween, lowerBetween, h.1, h.2]
    rw [hsplit, ih]
    constructor
    · intro h p s hd
      cases p with
      | nil =>
        obtain ⟨rfl, rfl⟩ := List.cons.inj hd
        have hhead := h.1
        simpa [lowerAt] using hhead
      | cons x p =>
        obtain ⟨rfl, hrest⟩ := List.cons.inj hd
        simpa using h.2 p s hrest
    · intro h
      constructor
      · by_cases hc : c = 'Σ'
        · subst hc
          simpa [lowerAt] using h [] d rfl
        · simp [lowerAt, hc]
      · intro p s hd
        simpa using h (c :: p) s (by rw [hd, List.cons_append])

/-- A text whose sigmas are settled keeps its lower case wherever it stands. -/
theorem SigmasSettled.lower_within {d : List Char} (h : SigmasSettled d) (p s : List Char) :
    lower d <:+: lower (p ++ d ++ s) := by
  have hsame : lowerBetween p.reverse s d = lower d := by
    rw [lower_eq_lowerBetween, lowerBetween_eq_iff]
    intro before after hd
    have hsettled := (h before after hd).lowerSigma_eq
    rw [hsettled, List.append_nil, List.append_nil]
  rw [lower_append_append, hsame]
  exact List.infix_append _ _ _

private theorem lower_ne_nil {d : List Char} (hd : d ≠ []) : lower d ≠ [] := by
  obtain ⟨c, rest, rfl⟩ := List.exists_cons_of_ne_nil hd
  have hchar : lowerAt [] rest c ≠ [] := by
    unfold lowerAt lowerChar
    split_ifs <;> simp
  rw [lower_eq_lowerBetween, lowerBetween, List.append_nil]
  exact List.append_ne_nil_of_left_ne_nil hchar _

/-- There is a cased letter of lower case other than two given characters. -/
theorem exists_letter_ne (c c' : Char) :
    ∃ letter, letter ≠ c ∧ letter ≠ c' ∧ firstCased? [letter] = some true ∧
      ∀ before after, lowerAt before after letter = [letter] := by
  have hcased : firstCased? ['x'] = some true ∧ firstCased? ['y'] = some true ∧ firstCased? ['z'] = some true := by
    decide +kernel
  by_cases hx : 'x' ≠ c ∧ 'x' ≠ c'
  · exact ⟨'x', hx.1, hx.2, hcased.1, fun _ _ => rfl⟩
  by_cases hy : 'y' ≠ c ∧ 'y' ≠ c'
  · exact ⟨'y', hy.1, hy.2, hcased.2.1, fun _ _ => rfl⟩
  have hz : 'z' ≠ c ∧ 'z' ≠ c' := by
    grind
  exact ⟨'z', hz.1, hz.2, hcased.2.2, fun _ _ => rfl⟩

/-- A sigma that is open within a text has another form next to a letter on one of its sides. The text is
then not found there: its own place has another lower case, and the letter is chosen to fit no other place. -/
theorem exists_surroundings_of_open {d : List Char} (h : ¬SigmasSettled d) :
    ∃ p s, p ++ s ≠ [] ∧ ¬lower d <:+: lower (p ++ d ++ s) := by
  unfold SigmasSettled at h
  push Not at h
  obtain ⟨before, after, hd, hopen⟩ := h
  have hne : lower d ≠ [] := lower_ne_nil (by simp [hd])
  obtain ⟨letter, hfirst, hlast, hcased, hletter⟩ :=
    exists_letter_ne ((lower d).head hne) ((lower d).getLast hne)
  have hchanged {p s : List Char} (hform : lowerSigma (before.reverse ++ p) (after ++ s) ≠
      lowerSigma before.reverse after) : lower d ≠ lowerBetween p s d := by
    rw [lower_eq_lowerBetween, ne_eq, lowerBetween_eq_iff]
    intro hforms
    apply hform
    simpa using (hforms before after hd).symm
  have hlength (p s : List Char) : (lower d).length = (lowerBetween p s d).length := by
    rw [lower_eq_lowerBetween]
    exact length_lowerBetween [] [] p s d
  rcases lowerSigma_ne_of_open hopen hcased with hform | hform
  · refine ⟨[letter], [], by simp, ?_⟩
    have hplace : lower ([letter] ++ d ++ []) = letter :: lowerBetween [letter] [] d := by
      rw [lower_append_append]
      simp [lowerBetween, lowerAfter, hletter]
    have hother : lower d ≠ lowerBetween [letter] [] d := hchanged (by simpa using hform)
    rw [hplace, List.infix_cons_iff]
    intro hpart
    rcases hpart with hfront | hpart
    · exact hfirst (by simpa using (hfront.head hne).symm)
    · exact hother (hpart.eq_of_length (hlength _ _))
  · refine ⟨[], [letter], by simp, ?_⟩
    have hplace : lower ([] ++ d ++ [letter]) = lowerBetween [] [letter] d ++ [letter] := by
      have hafter : lowerAfter d.reverse [letter] = [letter] := by
        have hat := hletter d.reverse []
        simpa [lowerAfter, lowerAt] using hat
      rw [lower_append_append]
      simp [lowerBetween, hafter]
    have hother : lower d ≠ lowerBetween [] [letter] d := hchanged (by simpa using hform)
    rw [hplace, List.infix_concat_iff]
    intro hpart
    rcases hpart with hback | hpart
    · exact hlast (by simpa using (hback.getLast hne).symm)
    · exact hother (hpart.eq_of_length (hlength _ _))

end EventAtlas.Text

import EventAtlas.Proofs.Text.Letters
import EventAtlas.Text.Lowercase
import EventAtlas.Text.Search

namespace EventAtlas.Text

/-- Only capitals of ASCII have a lower case there. -/
theorem toLower_of_not_ascii {c : Char} (h : ¬c.toNat < 128) : c.toLower = c := by
  have hlast : 'Z'.val.toNat < 128 := by decide
  have hcapital : ¬(c.val ≥ 'A'.val ∧ c.val ≤ 'Z'.val) := by
    rintro ⟨-, hle⟩
    have hc : c.val.toNat ≤ 'Z'.val.toNat := UInt32.le_iff_toNat_le.mp hle
    exact h (Nat.lt_of_le_of_lt hc hlast)
  unfold Char.toLower
  exact dif_neg hcapital

/-- What does not tell the two cases of a letter of ASCII apart does not change with the case. -/
theorem toLower_congr {α : Type} (f : Char → α)
    (h : ∀ n < 128, f (Char.ofNat n).toLower = f (Char.ofNat n)) (c : Char) : f c.toLower = f c := by
  by_cases hc : c.toNat < 128
  · exact of_ascii (P := fun d => f d.toLower = f d) h hc
  · rw [toLower_of_not_ascii hc]

/-- No case of a letter of ASCII matters to what the lower case of a text is made from. -/
theorem toLower_ascii : ∀ n < 128,
    isCased (Char.ofNat n).toLower = isCased (Char.ofNat n) ∧
      isCaseIgnorable (Char.ofNat n).toLower = isCaseIgnorable (Char.ofNat n) ∧
      lowerChar (Char.ofNat n).toLower = lowerChar (Char.ofNat n) ∧
      decide ((Char.ofNat n).toLower = 'Σ') = decide (Char.ofNat n = 'Σ') := by
  decide +kernel

private theorem isCased_toLower (c : Char) : isCased c.toLower = isCased c :=
  toLower_congr isCased (fun n hn => (toLower_ascii n hn).1) c

private theorem isCaseIgnorable_toLower (c : Char) : isCaseIgnorable c.toLower = isCaseIgnorable c :=
  toLower_congr isCaseIgnorable (fun n hn => (toLower_ascii n hn).2.1) c

private theorem lowerChar_toLower (c : Char) : lowerChar c.toLower = lowerChar c :=
  toLower_congr lowerChar (fun n hn => (toLower_ascii n hn).2.2.1) c

theorem toLower_eq_sigma_iff (c : Char) : c.toLower = 'Σ' ↔ c = 'Σ' := by
  have h := toLower_congr (fun d => decide (d = 'Σ')) (fun n hn => (toLower_ascii n hn).2.2.2) c
  exact decide_eq_decide.mp h

theorem continuesCased_map_toLower (s : List Char) :
    continuesCased (s.map Char.toLower) = continuesCased s := by
  have hskip : (s.map Char.toLower).dropWhile isCaseIgnorable =
      (s.dropWhile isCaseIgnorable).map Char.toLower := by
    have hsame : isCaseIgnorable ∘ Char.toLower = isCaseIgnorable := funext isCaseIgnorable_toLower
    rw [List.dropWhile_map, hsame]
  unfold continuesCased
  rw [hskip]
  cases s.dropWhile isCaseIgnorable with
  | nil => rfl
  | cons c rest => exact isCased_toLower c

theorem lowerAfter_map_toLower (before s : List Char) :
    lowerAfter (before.map Char.toLower) (s.map Char.toLower) = lowerAfter before s := by
  induction s generalizing before with
  | nil => rfl
  | cons c rest ih =>
    have hrest := ih (c :: before)
    have hsigma : lowerSigma (before.map Char.toLower) (rest.map Char.toLower) = lowerSigma before rest := by
      unfold lowerSigma
      rw [continuesCased_map_toLower, continuesCased_map_toLower]
    rw [List.map_cons] at hrest ⊢
    unfold lowerAfter
    rw [hrest, hsigma, lowerChar_toLower]
    simp only [toLower_eq_sigma_iff]

/-- Texts that are equal up to the case of ASCII letters have one lower case. The form of a sigma at the
end of a word does not change, since a letter is cased in either case. -/
theorem lower_eq_of_sameAscii {s t : List Char} (h : sameAscii s t = true) : lower s = lower t := by
  have hmap : s.map Char.toLower = t.map Char.toLower := beq_iff_eq.mp h
  calc
    lower s = lowerAfter ([].map Char.toLower) (s.map Char.toLower) := (lowerAfter_map_toLower [] s).symm
    _ = lowerAfter ([].map Char.toLower) (t.map Char.toLower) := by rw [hmap]
    _ = lower t := lowerAfter_map_toLower [] t

end EventAtlas.Text

/-
# The form of results

A result is written as a whole number without superfluous zeros in front and, unless it is
whole, a point and places the last of which is not a zero. Zero has no sign. There are never
more places than the display has, although they are not those of the rounded value but those
of the shortest decimal that reads back as the same double.
-/
import PostfixCalc.Proofs.Rendering
import PostfixCalc.Proofs.Shortest

namespace PostfixCalc

open Binary64

/-! ## Digits of whole numbers -/

theorem getLast?_toDigits (n : Nat) :
    (Nat.toDigits 10 n).getLast? = some (n % 10).digitChar := by
  rw [Nat.toDigits_eq_if (by decide)]
  split_ifs with hlt
  · rw [Nat.mod_eq_of_lt hlt]
    rfl
  · exact List.getLast?_concat

/-- Only zero is written with a zero in front. -/
theorem head?_toDigits_eq_zero_iff {n : Nat} : (Nat.toDigits 10 n).head? = some '0' ↔ n = 0 := by
  induction n using Nat.strongRecOn with
  | ind n ih =>
    rw [Nat.toDigits_eq_if (by decide)]
    split_ifs with hlt
    · simp
    · have hdigits : Nat.toDigits 10 (n / 10) ≠ [] := Nat.toDigits_ne_nil
      rw [List.head?_append_of_ne_nil _ hdigits, ih (n / 10) (by omega)]
      omega

/-! ## Written numbers -/

/-- The parts of a number as it is written: the sign, the digits before the point and those
after it. Without digits after it there is no point. -/
structure WrittenNumber where
  negative : Bool
  whole : List Char
  fraction : List Char
  deriving DecidableEq, Repr

namespace WrittenNumber

/-- The text of a written number. -/
def text (w : WrittenNumber) : String :=
  String.ofList ((if w.negative then ['-'] else []) ++ w.whole ++
    if w.fraction = [] then [] else '.' :: w.fraction)

/-- A number is written in canonical form if it has digits before the point, no superfluous
zero at either end, and no sign if it is zero. -/
structure IsCanonical (w : WrittenNumber) : Prop where
  isDigit_whole : ∀ c ∈ w.whole, c.isDigit
  isDigit_fraction : ∀ c ∈ w.fraction, c.isDigit
  whole_ne_nil : w.whole ≠ []
  head_whole : w.whole.head? = some '0' → w.whole = ['0']
  last_fraction : w.fraction.getLast? ≠ some '0'
  zero_unsigned : w.negative → w.whole = ['0'] → w.fraction ≠ []

/-- A number in canonical form is not written as a negative zero. -/
theorem IsCanonical.text_ne_negative_zero {w : WrittenNumber} (hw : w.IsCanonical) :
    w.text ≠ "-0" := by
  intro h
  have hchars := congrArg String.toList h
  unfold text at hchars
  rw [String.toList_ofList] at hchars
  obtain ⟨c, cs, hwhole⟩ := List.exists_cons_of_ne_nil hw.whole_ne_nil
  have hdigit : c.isDigit := hw.isDigit_whole c (hwhole ▸ List.mem_cons_self)
  cases hsign : w.negative with
  | false =>
    rw [hsign, hwhole] at hchars
    obtain rfl : c = '-' := (List.cons.inj hchars).1
    cases hdigit
  | true =>
    rw [hsign, hwhole] at hchars
    obtain ⟨rfl, hrest⟩ := List.cons.inj (List.cons.inj hchars).2
    obtain ⟨rfl, hfraction⟩ := List.append_eq_nil_iff.1 hrest
    refine hw.zero_unsigned hsign hwhole ?_
    by_contra hne
    rw [if_neg hne] at hfraction
    cases hfraction

/-- The decimal `d` with a sign in front, as it is written. -/
def ofDecimal (negative : Bool) (d : Decimal) : WrittenNumber where
  negative := negative
  whole := Nat.toDigits 10 (d.coefficient / d.denominator)
  fraction := if d.places = 0 then [] else Decimal.padded d.places (d.coefficient % d.denominator)

section

variable (negative : Bool) (d : Decimal)

theorem whole_ofDecimal :
    (ofDecimal negative d).whole = Nat.toDigits 10 (d.coefficient / d.denominator) := rfl

theorem fraction_ofDecimal :
    (ofDecimal negative d).fraction =
      if d.places = 0 then [] else Decimal.padded d.places (d.coefficient % d.denominator) := rfl

theorem length_fraction_ofDecimal : (ofDecimal negative d).fraction.length = d.places := by
  rw [fraction_ofDecimal]
  split_ifs with hplaces
  · exact hplaces.symm
  · exact Decimal.length_padded (Nat.pos_of_ne_zero hplaces) (Nat.mod_lt _ d.denominator_pos)

theorem text_ofDecimal :
    (ofDecimal negative d).text =
      String.ofList (bif negative then '-' :: d.chars else d.chars) := by
  have hnil : (ofDecimal negative d).fraction = [] ↔ d.places = 0 := by
    rw [← List.length_eq_zero_iff, length_fraction_ofDecimal]
  have hchars : d.chars = (ofDecimal negative d).whole ++
      if (ofDecimal negative d).fraction = [] then []
      else '.' :: (ofDecimal negative d).fraction := by
    unfold Decimal.chars
    by_cases hplaces : d.places = 0
    · rw [if_pos hplaces, if_pos (hnil.2 hplaces), List.append_nil, whole_ofDecimal,
        Decimal.denominator_eq, hplaces, pow_zero, Nat.div_one]
    · rw [if_neg hplaces, if_neg (mt hnil.1 hplaces), whole_ofDecimal, fraction_ofDecimal,
        if_neg hplaces]
  unfold text
  rw [List.append_assoc, ← hchars]
  cases negative <;> rfl

end

/-- A decimal is written in canonical form if its last place is not a zero and if only a
decimal that is not zero has a sign. -/
theorem isCanonical_ofDecimal {negative : Bool} {d : Decimal}
    (hlast : d.places ≠ 0 → d.coefficient % 10 ≠ 0) (hsign : negative → d.coefficient ≠ 0) :
    (ofDecimal negative d).IsCanonical where
  isDigit_whole := Decimal.isDigit_of_mem_toDigits
  isDigit_fraction := by
    rw [fraction_ofDecimal]
    split_ifs
    · simp
    · exact Decimal.isDigit_of_mem_padded
  whole_ne_nil := Nat.toDigits_ne_nil
  head_whole := by
    rw [whole_ofDecimal]
    intro h
    rw [head?_toDigits_eq_zero_iff.1 h, Nat.toDigits_zero]
  last_fraction := by
    rw [fraction_ofDecimal]
    split_ifs with hplaces
    · simp
    · -- the last digit of the places is the last one of the coefficient
      obtain ⟨k, hk⟩ := Nat.exists_eq_succ_of_ne_zero hplaces
      have hten : d.coefficient % d.denominator % 10 = d.coefficient % 10 := by
        rw [Decimal.denominator_eq, hk]
        exact Nat.mod_mod_of_dvd _ (dvd_pow_self 10 (Nat.succ_ne_zero k))
      rw [Decimal.padded, List.getLast?_append_of_ne_nil _ Nat.toDigits_ne_nil, getLast?_toDigits,
        hten, ne_eq, Option.some_inj, Nat.digitChar_eq_zero]
      exact hlast hplaces
  zero_unsigned := by
    intro hnegative hwhole hfraction
    have hplaces := length_fraction_ofDecimal negative d
    rw [hfraction, List.length_nil] at hplaces
    have hzero : d.coefficient / d.denominator = 0 := by
      apply head?_toDigits_eq_zero_iff.1
      rw [← whole_ofDecimal negative, hwhole]
      rfl
    rw [Decimal.denominator_eq, ← hplaces, pow_zero, Nat.div_one] at hzero
    exact hsign hnegative hzero

end WrittenNumber

/-! ## The text of a double -/

/-- The shortest decimal of a double that is not zero is not zero. -/
theorem Decimal.coefficient_shortest_ne_zero {r : Nat} (hr : r < infinityRank) (hne : r ≠ 0) :
    (shortest r).coefficient ≠ 0 := by
  intro hzero
  have hback := nearestRank_shortest hr
  have hnearest := (nearestRank_eq_iff (shortest r).denominator_pos hr).1 hback
  have hself := IsNearest.self (r := 0) (shortest r).denominator_pos
  have hunits : units 0 = 0 := rfl
  rw [hzero, Nat.zero_mul] at hnearest
  rw [hunits, Nat.zero_mul] at hself
  exact hne (hnearest.unique hself (shortest r).denominator_pos)

/-- The text of a sign and a finite rank is in canonical form. -/
theorem exists_isCanonical_signedText (negative : Bool) {r : Nat} (hr : r < infinityRank) :
    ∃ w : WrittenNumber, w.IsCanonical ∧ signedText negative r = w.text ∧
      w.fraction.length = (Decimal.shortest r).places := by
  refine ⟨.ofDecimal (negative && r != 0) (Decimal.shortest r), ?_, ?_, ?_⟩
  · refine WrittenNumber.isCanonical_ofDecimal (Decimal.coefficient_shortest_mod_ten hr) ?_
    intro hsign
    rw [Bool.and_eq_true, bne_iff_ne] at hsign
    exact Decimal.coefficient_shortest_ne_zero hr hsign.2
  · rw [signedText_eq, WrittenNumber.text_ofDecimal]
  · exact WrittenNumber.length_fraction_ofDecimal _ _

/-- What is displayed has no more places than the display. -/
theorem places_shortest_displayRank_le {r : Nat} (hr : r < infinityRank) (p : Precision) :
    (Decimal.shortest (displayRank r p)).places ≤ p.places := by
  have hfinite := displayRank_lt hr p
  have hplaces : p.places ≤ 1074 := p.places_le.trans (by decide)
  unfold displayRank at hfinite ⊢
  split_ifs at hfinite ⊢ with hwhole
  · rw [Decimal.places_shortest_of_isWhole hr hwhole]
    exact Nat.zero_le _
  · exact Decimal.places_shortest_le hfinite hplaces

/-- **Results are written in canonical form**: as a whole number without superfluous zeros in
front and, after a point, places the last of which is not a zero; never as a negative zero,
without places if the result is whole, and with no more places than the display has. So a
result is written in allowed characters, and in at least one. -/
theorem resultText_isCanonical {x : Float} (hx : x.isFinite = true) (d : Nat) :
    (∃ w : WrittenNumber, w.IsCanonical ∧ resultText x (.clamp d) = w.text ∧
      w.fraction.length ≤ min d maxPlaces ∧ (isWhole (rank x) → w.fraction = [])) ∧
    resultText x (.clamp d) ≠ "-0" ∧ resultText x (.clamp d) ≠ "" ∧
    checkAllowed (resultText x (.clamp d)) = .ok () := by
  have hr := (isFinite_iff x).1 hx
  have hshown := displayRank_lt hr (.clamp d)
  rw [resultText_of_isFinite hx]
  obtain ⟨w, hw, htext, hlength⟩ := exists_isCanonical_signedText (isNegative x) hshown
  have hallowed := isResultText_signedText (isNegative x) (displayRank (rank x) (.clamp d))
  refine ⟨⟨w, hw, htext, ?_, fun hwhole => ?_⟩, ?_, ?_, ?_⟩
  · rw [hlength]
    exact places_shortest_displayRank_le hr (.clamp d)
  · unfold displayRank at hlength hshown
    rw [if_pos hwhole, Decimal.places_shortest_of_isWhole hr hwhole] at hlength
    exact List.length_eq_zero_iff.1 hlength
  · rw [htext]
    exact hw.text_ne_negative_zero
  · intro hempty
    exact hallowed.toList_ne_nil (by rw [hempty]; rfl)
  · exact hallowed.checkAllowed_eq

/-- A negative quotient that is shown with two places. -/
theorem resultText_isCanonical_of_quotient :
    (Float.ofBits 0xBFE5555555555555).isFinite = true ∧
    (∃ w : WrittenNumber, w.IsCanonical ∧
      resultText (Float.ofBits 0xBFE5555555555555) (.clamp 2) = w.text ∧
      w.fraction.length ≤ 2) ∧
    checkAllowed (resultText (Float.ofBits 0xBFE5555555555555) (.clamp 2)) = .ok () := by
  have hfinite : (Float.ofBits 0xBFE5555555555555).isFinite = true := by decide +kernel
  obtain ⟨⟨w, hw, htext, hlength, -⟩, -, -, hallowed⟩ := resultText_isCanonical hfinite 2
  exact ⟨hfinite, ⟨w, hw, htext, hlength⟩, hallowed⟩

end PostfixCalc

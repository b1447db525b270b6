/-
# The displayed rank

A result is shown by the double nearest to its rounding to decimal places. Where the
doubles are closer together than the decimals, rounding that double to as many places or
more gives the same decimal again; where they are further apart, it gives a decimal that
has the same nearest double. So what is shown is shown unchanged when it is rounded again.
-/
import PostfixCalc.Proofs.Digits
import PostfixCalc.Proofs.Rank
import PostfixCalc.ResultText

namespace PostfixCalc

namespace Binary64

/-! ## Gaps -/

/-- The gap after a rank is at least the gap before it. -/
theorem units_convex (r : Nat) : 2 * units r ≤ units (r - 1) + units (r + 1) := by
  cases r with
  | zero => exact Nat.zero_le _
  | succ r =>
    have hscale : scale r ≤ scale (r + 1) :=
      Nat.sub_le_sub_right (Nat.div_le_div_right (Nat.le_succ r)) 1
    have hgap : 2 ^ scale r ≤ 2 ^ scale (r + 1) := Nat.pow_le_pow_right two_pos hscale
    rw [Nat.add_sub_cancel, units_succ (r + 1), units_succ r]
    omega

/-- The gaps before and after a rank are equal, unless the value is a power of two; then
the rank is even. -/
theorem gap_cases {r : Nat} (hr : 0 < r) :
    units (r - 1) + units (r + 1) = 2 * units r ∨
      r % 2 = 0 ∧ units r = 2 ^ 52 * 2 ^ scale r := by
  have hplace := scale_mul_binade_add_significand r
  have hlt := significand_lt r
  by_cases hinner : scale r = 0 ∨ binade < significand r
  · have hpred : units (r - 1) + 2 ^ scale r = units r := by
      obtain ⟨k, hk⟩ : ∃ k, significand r = k + 1 := by
        refine Nat.exists_eq_succ_of_ne_zero fun hzero => ?_
        rw [hzero] at hplace hinner
        rcases hinner with h | h
        · rw [h] at hplace
          omega
        · exact Nat.not_lt_zero _ h
      have hprev : r - 1 = scale r * binade + k := by omega
      have hfull : scale r = 0 ∨ binade ≤ k := by omega
      rw [hprev, units_place (by omega) hfull, units_eq r, hk, Nat.succ_mul]
    rw [units_succ]
    omega
  · rw [not_or] at hinner
    have hfirst : significand r = binade := by
      have := (scale_eq_zero_or_le_significand r).resolve_left hinner.1
      omega
    refine Or.inr ⟨?_, ?_⟩
    · rw [hfirst, binade_eq] at hplace
      omega
    · rw [units_eq, hfirst, binade_eq]

/-! ## Rounding a displayed rank again -/

/-- Where the gap after a power of two is not below a decimal place, the power of two is
a multiple of the place. -/
theorem dvd_of_place_le_gap {e places : Nat} (hplaces : places ≤ maxPlaces)
    (hgap : unitsPerOne ≤ 2 ^ e * 10 ^ places) :
    unitsPerOne ∣ 2 ^ 52 * 2 ^ e * 10 ^ places := by
  have hten : 10 ^ places ≤ 2 ^ (4 * places) := by
    rw [pow_mul]
    exact Nat.pow_le_pow_left (by decide) places
  have hmax : places ≤ 17 := hplaces
  have hfactor : 2 ^ 52 * 2 ^ e * 10 ^ places = 2 ^ (52 + e + places) * 5 ^ places := by
    rw [show 10 = 2 * 5 from rfl, mul_pow]
    ring
  have hexp : 1074 ≤ e + 4 * places := by
    rw [unitsPerOne_eq] at hgap
    generalize 1074 = n at hgap ⊢
    rw [← Nat.pow_le_pow_iff_right one_lt_two, pow_add]
    exact hgap.trans (Nat.mul_le_mul_left _ hten)
  rw [hfactor]
  exact Dvd.dvd.mul_right (unitsPerOne_dvd_pow (by omega)) _

/-- **A rounded rank is rounded again to itself**: if a decimal has the nearest rank `r`,
and `m` of the same or finer decimal places are nearest to the value of `r`, then `r` is
the rank nearest to them. -/
theorem IsNearest.round_again {c m places r : Nat} (hplaces : places ≤ maxPlaces)
    (hr : IsNearest (c * unitsPerOne) (10 ^ places) r)
    (hm : IsRounded (units r * 10 ^ places) unitsPerOne m) :
    IsNearest (m * unitsPerOne) (10 ^ places) r := by
  have hone := unitsPerOne_pos
  have hlower := hm.lower
  have hupper := hm.upper
  have hconvex := Nat.mul_le_mul_right (10 ^ places) (units_convex r)
  rw [Nat.mul_assoc, Nat.add_mul] at hconvex
  obtain ⟨hleft, hright, hodd⟩ := isNearest_iff.1 hr
  rcases Nat.lt_trichotomy m c with hlt | rfl | hgt
  · have hstep := Nat.mul_le_mul_right unitsPerOne (Nat.succ_le_of_lt hlt)
    rw [Nat.succ_mul] at hstep
    rcases Nat.eq_zero_or_pos r with rfl | hpos
    · have hzero : units 0 * 10 ^ places = 0 := Nat.zero_mul _
      rw [isNearest_iff, Nat.zero_sub]
      exact ⟨by omega, by omega, fun h => by cases h⟩
    rcases gap_cases hpos with hgaps | ⟨heven, hvalue⟩
    · have hgaps' := congrArg (· * 10 ^ places) hgaps
      simp only [Nat.add_mul, Nat.mul_assoc] at hgaps'
      rw [isNearest_iff]
      refine ⟨by omega, by omega, fun h => ?_⟩
      have := hodd h
      omega
    · -- the gap before the rank is too small, but then the value is itself a decimal
      have hgap : unitsPerOne ≤ 2 ^ scale r * 10 ^ places := by
        rw [units_succ, Nat.add_mul] at hright
        omega
      obtain ⟨k, hk⟩ := dvd_of_place_le_gap hplaces hgap
      rw [← hvalue, Nat.mul_comm unitsPerOne] at hk
      rw [hk] at hm
      rw [hm.eq_of_mul hone, ← hk]
      exact IsNearest.self (Nat.pow_pos (by decide))
  · exact hr
  · -- the decimal lies before the value, where the gap is the smaller one
    have hstep := Nat.mul_le_mul_right unitsPerOne (Nat.succ_le_of_lt hgt)
    rw [Nat.succ_mul] at hstep
    rw [isNearest_iff]
    refine ⟨by omega, by omega, fun h => ?_⟩
    have := hodd h
    omega

/-- A rank whose double is no whole number has gaps below one. -/
theorem scale_lt_of_isWhole {r : Nat} (hr : isWhole r = false) : scale r < 1074 := by
  by_contra hge
  have hdvd : unitsPerOne ∣ units r := by
    rw [units_eq]
    exact Dvd.dvd.mul_left (unitsPerOne_dvd_pow (Nat.le_of_not_lt hge)) _
  rw [isWhole, Nat.mod_eq_zero_of_dvd hdvd] at hr
  cases hr

/-- Where the gaps are below one, the value is far from that of the last finite rank. -/
theorem units_add_unitsPerOne_lt {r : Nat} (hr : scale r < 1074) :
    units r + unitsPerOne < units (infinityRank - 1) := by
  have hplace : units (1074 * binade + 2 * binade) = 2 * binade * 2 ^ 1074 :=
    units_place le_rfl (Or.inr (Nat.le_mul_of_pos_left binade two_pos))
  have hlast : units (1074 * binade + 2 * binade) ≤ units (infinityRank - 1) :=
    units_strictMono.monotone (by rw [infinityRank_eq, binade_eq]; omega)
  have hvalue : 2 * units r ≤ 2 * binade * unitsPerOne := by
    rw [units_eq, Nat.mul_left_comm]
    exact Nat.mul_le_mul (Nat.le_of_lt (significand_lt r)) (two_mul_pow_le_unitsPerOne hr)
  have hone := unitsPerOne_pos
  rw [hplace, ← unitsPerOne_eq, binade_eq] at hlast
  rw [binade_eq] at hvalue
  omega

end Binary64

open Binary64

/-! ## Rounding to the places of the display -/

theorem nearestRank_rounded (r places : Nat) :
    (Decimal.rounded r places).nearestRank =
      nearestRank (roundHalfEven (units r * 10 ^ places) unitsPerOne) (10 ^ places) := rfl

/-- What is displayed for a finite rank is finite. -/
theorem displayRank_lt {r : Nat} (hr : r < infinityRank) (p : Precision) :
    displayRank r p < infinityRank := by
  rw [displayRank]
  split_ifs with hwhole
  · exact hr
  · have hpos : 0 < 10 ^ p.places := Nat.pow_pos (by decide)
    have hlower := (isRounded_roundHalfEven (units r * 10 ^ p.places) unitsPerOne_pos).lower
    have hsmall := units_add_unitsPerOne_lt (scale_lt_of_isWhole (Bool.eq_false_iff.2 hwhole))
    have hone : unitsPerOne ≤ unitsPerOne * 10 ^ p.places := Nat.le_mul_of_pos_right _ hpos
    have hbound := Nat.mul_lt_mul_of_pos_right hsmall hpos
    rw [Nat.add_mul] at hbound
    rw [nearestRank_rounded]
    exact nearestRank_lt hpos (by omega)

/-- **What is displayed is displayed unchanged** at the same precision and at any greater one. -/
theorem displayRank_displayRank {r : Nat} (hr : r < infinityRank) {p q : Precision}
    (hpq : p.places ≤ q.places) : displayRank (displayRank r p) q = displayRank r p := by
  have hfinite := displayRank_lt hr p
  rw [displayRank.eq_1 (displayRank r p) q]
  split_ifs with hshown
  · rfl
  -- what is shown is no whole number, so it comes from rounding
  have hwhole : isWhole r ≠ true := by
    intro hwhole
    rw [displayRank, if_pos hwhole] at hshown
    exact hshown hwhole
  have hpos : 0 < 10 ^ p.places := Nat.pow_pos (by decide)
  have hpow : 10 ^ p.places * 10 ^ (q.places - p.places) = 10 ^ q.places := by
    rw [← pow_add, Nat.add_sub_cancel' hpq]
  obtain ⟨s, hs⟩ : ∃ s, displayRank r p = s := ⟨_, rfl⟩
  rw [hs] at hfinite ⊢
  rw [displayRank, if_neg hwhole, nearestRank_rounded, nearestRank_eq_iff hpos hfinite] at hs
  have hfine := hs.mul_right (Nat.pow_pos (n := q.places - p.places) (by decide : 0 < 10))
  rw [hpow, Nat.mul_right_comm] at hfine
  rw [nearestRank_rounded, nearestRank_eq_iff (Nat.pow_pos (by decide)) hfinite]
  exact hfine.round_again q.places_le (isRounded_roundHalfEven _ unitsPerOne_pos)

/-! ## Shortest decimals -/

/-- A point that a grid offers for a rank reads back as that rank. -/
theorem Grid.nearestRank_of_shortest? {g : Grid} {r : Nat} {d : Decimal}
    (h : g.shortest? r = some d) : d.nearestRank = r := by
  rw [Grid.shortest?] at h
  split_ifs at h with hbelow hboth habove
  · exact Option.some_inj.1 h ▸ hboth.2
  · exact Option.some_inj.1 h ▸ hbelow
  · exact Option.some_inj.1 h ▸ habove

/-- All digits of a finite rank read back as that rank. -/
theorem Decimal.nearestRank_exact {r : Nat} (hr : r < infinityRank) :
    (Decimal.exact r).nearestRank = r := by
  have hvalue : (Decimal.exact r).coefficient * unitsPerOne =
      units r * (Decimal.exact r).denominator := by
    rw [Decimal.exact, Decimal.denominator_eq, unitsPerOne_eq]
    dsimp only
    generalize 1074 = n
    show units r * 5 ^ n * 2 ^ n = units r * (5 * 2) ^ n
    rw [Nat.mul_assoc, ← mul_pow]
  have hpos := (Decimal.exact r).denominator_pos
  rw [Decimal.nearestRank, nearestRank_eq_iff hpos hr, hvalue]
  exact IsNearest.self hpos

/-- **Shortest decimals read back**: the shortest decimal of a finite rank is nearest to it. -/
theorem Decimal.nearestRank_shortest {r : Nat} (hr : r < infinityRank) :
    (Decimal.shortest r).nearestRank = r := by
  rw [Decimal.shortest]
  cases h : Grid.all.findSome? (·.shortest? r) with
  | none => exact Decimal.nearestRank_exact hr
  | some d =>
    obtain ⟨g, -, hg⟩ := List.exists_of_findSome?_eq_some h
    exact Grid.nearestRank_of_shortest? hg

end PostfixCalc

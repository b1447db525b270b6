/-
# Ranks and their values

Along the ranks the exact values grow, by gaps that double from one binade to the next.
A fraction has one nearest rank: the one between whose midpoints it lies, where a midpoint
belongs to the even neighbour. The rounding of doubles finds that rank.
-/
import Mathlib
import PostfixCalc.Binary64

namespace PostfixCalc

namespace Binary64

theorem binade_eq : binade = 2 ^ 52 := rfl

theorem signWeight_eq : signWeight = 2 ^ 63 := rfl

theorem infinityRank_eq : infinityRank = 2047 * 2 ^ 52 := rfl

theorem unitsPerOne_eq : unitsPerOne = 2 ^ 1074 := by
  delta unitsPerOne
  generalize 1074 = n
  exact Nat.one_shiftLeft n

theorem unitsPerOne_pos : 0 < unitsPerOne := by
  rw [unitsPerOne_eq]
  positivity

theorem unitsPerOne_dvd_pow {e : Nat} (he : 1074 ≤ e) : unitsPerOne ∣ 2 ^ e := by
  rw [unitsPerOne_eq]
  generalize 1074 = n at he ⊢
  exact Nat.pow_dvd_pow 2 he

theorem two_mul_pow_le_unitsPerOne {e : Nat} (he : e < 1074) : 2 * 2 ^ e ≤ unitsPerOne := by
  rw [unitsPerOne_eq, ← pow_succ']
  generalize 1074 = n at he ⊢
  exact Nat.pow_le_pow_right two_pos he

/-! ## Values -/

theorem significand_lt (r : Nat) : significand r < 2 * binade := by
  rw [significand, binade_eq]
  split_ifs <;> omega

/-- The gaps at a rank have the exponent zero unless its significand is a full one. -/
theorem scale_eq_zero_or_le_significand (r : Nat) : scale r = 0 ∨ binade ≤ significand r := by
  rw [scale, significand, binade_eq]
  split_ifs <;> omega

/-- A rank is counted by its binade and its place there. -/
theorem scale_mul_binade_add_significand (r : Nat) : scale r * binade + significand r = r := by
  rw [scale, significand, binade_eq]
  split_ifs <;> omega

/-- The value of a rank that is counted by its binade and its place there; the first
place of the next binade may be counted with this one. -/
theorem units_place {e m : Nat} (hm : m ≤ 2 * binade) (he : e = 0 ∨ binade ≤ m) :
    units (e * binade + m) = m * 2 ^ e := by
  rw [units, Nat.shiftLeft_eq]
  rcases Nat.lt_or_eq_of_le hm with hlt | rfl
  -- the first place of the next binade has the double gap and half the significand
  case inr =>
    have hscale : scale (e * binade + 2 * binade) = e + 1 := by
      rw [scale, binade_eq]
      omega
    have hsignificand : significand (e * binade + 2 * binade) = binade := by
      rw [significand, binade_eq]
      split_ifs <;> omega
    rw [hscale, hsignificand, pow_succ]
    ring
  · have hscale : scale (e * binade + m) = e := by
      rw [scale]
      rw [binade_eq] at *
      omega
    have hsignificand : significand (e * binade + m) = m := by
      rw [significand]
      rw [binade_eq] at *
      split_ifs <;> omega
    rw [hscale, hsignificand]

theorem units_eq (r : Nat) : units r = significand r * 2 ^ scale r := Nat.shiftLeft_eq _ _

/-- From one rank to the next the value grows by the gap there. -/
theorem units_succ (r : Nat) : units (r + 1) = units r + 2 ^ scale r := by
  have hplace : r + 1 = scale r * binade + (significand r + 1) := by
    rw [← Nat.add_assoc, scale_mul_binade_add_significand]
  have hfull : scale r = 0 ∨ binade ≤ significand r + 1 :=
    (scale_eq_zero_or_le_significand r).imp_right Nat.le_succ_of_le
  rw [units_eq r, hplace, units_place (significand_lt r) hfull, Nat.succ_mul]

theorem units_strictMono : StrictMono units :=
  strictMono_nat_of_lt_succ fun r => by
    rw [units_succ]
    exact Nat.lt_add_of_pos_right (Nat.two_pow_pos _)

/-! ## Whole numbers nearest to a fraction -/

/-- The whole number `m` is nearest to `num / den`, and even if another one is as near. -/
structure IsRounded (num den m : Nat) : Prop where
  lower : 2 * (m * den) ≤ 2 * num + den
  upper : 2 * num ≤ 2 * (m * den) + den
  strict : m % 2 = 1 → 2 * (m * den) < 2 * num + den ∧ 2 * num < 2 * (m * den) + den

theorem isRounded_roundHalfEven (num : Nat) {den : Nat} (hden : 0 < den) :
    IsRounded num den (roundHalfEven num den) := by
  have hlt := Nat.mod_lt num hden
  have hnum := Nat.div_add_mod' num den
  have hnext : (num / den + 1) * den = num / den * den + den := Nat.succ_mul _ _
  rw [roundHalfEven]
  split_ifs with h
  · exact ⟨by omega, by omega, by omega⟩
  · exact ⟨by omega, by omega, by omega⟩

/-- A whole number is nearest to itself only. -/
theorem IsRounded.eq_of_mul {k den m : Nat} (hden : 0 < den) (h : IsRounded (k * den) den m) :
    m = k := by
  have hlower := h.lower
  have hupper := h.upper
  rcases Nat.lt_trichotomy m k with hlt | rfl | hgt
  · have hstep := Nat.mul_le_mul_right den (Nat.succ_le_of_lt hlt)
    rw [Nat.succ_mul] at hstep
    omega
  · rfl
  · have hstep := Nat.mul_le_mul_right den (Nat.succ_le_of_lt hgt)
    rw [Nat.succ_mul] at hstep
    omega

/-! ## The rank nearest to a fraction -/

/-- The rank `r` is nearest to `num / den` units, and even if another one is as near. -/
structure IsNearest (num den r : Nat) : Prop where
  lower : (units (r - 1) + units r) * den ≤ 2 * num
  upper : 2 * num ≤ (units r + units (r + 1)) * den
  strict : r % 2 = 1 →
    (units (r - 1) + units r) * den < 2 * num ∧ 2 * num < (units r + units (r + 1)) * den

/-- The bounds of the nearest rank, with the products multiplied out. -/
theorem isNearest_iff {num den r : Nat} :
    IsNearest num den r ↔
      units (r - 1) * den + units r * den ≤ 2 * num ∧
        2 * num ≤ units r * den + units (r + 1) * den ∧
        (r % 2 = 1 → units (r - 1) * den + units r * den < 2 * num ∧
          2 * num < units r * den + units (r + 1) * den) := by
  rw [← Nat.add_mul, ← Nat.add_mul]
  constructor
  · rintro ⟨hlower, hupper, hstrict⟩
    exact ⟨hlower, hupper, hstrict⟩
  · rintro ⟨hlower, hupper, hstrict⟩
    exact ⟨hlower, hupper, hstrict⟩

namespace IsNearest

variable {num num' den r s : Nat}

/-- A smaller fraction has no greater nearest rank. -/
theorem mono (hs : IsNearest num' den s) (hr : IsNearest num den r) (hle : num' ≤ num)
    (hden : 0 < den) : s ≤ r := by
  by_contra hlt
  have hleft : units r ≤ units (s - 1) := units_strictMono.monotone (by omega)
  have hright : units (r + 1) ≤ units s := units_strictMono.monotone (by omega)
  have hmid : (units r + units (r + 1)) * den ≤ (units (s - 1) + units s) * den :=
    Nat.mul_le_mul_right den (Nat.add_le_add hleft hright)
  have hupper := hr.upper
  have hlower := hs.lower
  by_cases hodd : r % 2 = 1
  · have := (hr.strict hodd).2
    omega
  by_cases hodd' : s % 2 = 1
  · have := (hs.strict hodd').1
    omega
  -- two even ranks have another one between them
  have hgap : units r < units (s - 1) := units_strictMono (by omega)
  have hmid' : (units r + units (r + 1)) * den < (units (s - 1) + units s) * den :=
    Nat.mul_lt_mul_of_pos_right (by omega) hden
  omega

/-- A fraction has only one nearest rank. -/
theorem unique (hr : IsNearest num den r) (hs : IsNearest num den s) (hden : 0 < den) : r = s :=
  Nat.le_antisymm (hr.mono hs le_rfl hden) (hs.mono hr le_rfl hden)

theorem mul_right (h : IsNearest num den r) {k : Nat} (hk : 0 < k) :
    IsNearest (num * k) (den * k) r := by
  have hlower := Nat.mul_le_mul_right k h.lower
  have hupper := Nat.mul_le_mul_right k h.upper
  refine ⟨by simpa only [Nat.mul_assoc] using hlower, by simpa only [Nat.mul_assoc] using hupper,
    fun hodd => ⟨?_, ?_⟩⟩
  · simpa only [Nat.mul_assoc] using Nat.mul_lt_mul_of_pos_right (h.strict hodd).1 hk
  · simpa only [Nat.mul_assoc] using Nat.mul_lt_mul_of_pos_right (h.strict hodd).2 hk

/-- A rank is nearest to its own value. -/
theorem self (hden : 0 < den) : IsNearest (units r * den) den r := by
  have hleft : units (r - 1) ≤ units r := units_strictMono.monotone (Nat.sub_le r 1)
  have hright : units r < units (r + 1) := units_strictMono (Nat.lt_succ_self r)
  have htwice : 2 * (units r * den) = (units r + units r) * den := by ring
  refine ⟨?_, ?_, fun hodd => ⟨?_, ?_⟩⟩
  · rw [htwice]
    exact Nat.mul_le_mul_right den (by omega)
  · rw [htwice]
    exact Nat.mul_le_mul_right den (by omega)
  · have hleft' : units (r - 1) < units r := units_strictMono (by omega)
    rw [htwice]
    exact Nat.mul_lt_mul_of_pos_right (by omega) hden
  · rw [htwice]
    exact Nat.mul_lt_mul_of_pos_right (by omega) hden

/-- What lies between a fraction and the value of its nearest rank has that nearest rank. -/
theorem of_between (h : IsNearest num den r) (hden : 0 < den)
    (hle : num ≤ num' ∧ num' ≤ units r * den ∨ units r * den ≤ num' ∧ num' ≤ num) :
    IsNearest num' den r := by
  have hself := self (r := r) hden
  have hlower := h.lower
  have hupper := h.upper
  have hlower' := hself.lower
  have hupper' := hself.upper
  refine ⟨by omega, by omega, fun hodd => ?_⟩
  have := h.strict hodd
  have := hself.strict hodd
  omega

end IsNearest

/-! ## Rounding finds the nearest rank -/

/-- The rank nearest to `num / den` units, as if the ranks went on past infinity. -/
def roundedRank (num den : Nat) : Nat :=
  ((num / den).log2 - 52) * binade + roundHalfEven num (den <<< ((num / den).log2 - 52))

theorem nearestRank_eq_min (num den : Nat) :
    nearestRank num den = min infinityRank (roundedRank (num * unitsPerOne) den) := rfl

/-- At a place that may be counted with a binade, the gap is at least the one there. -/
theorem le_units_place_succ {e m : Nat} (hm : m ≤ 2 * binade) (he : e = 0 ∨ binade ≤ m) :
    (m + 1) * 2 ^ e ≤ units (e * binade + m + 1) := by
  have hscale : e ≤ scale (e * binade + m) := by
    rw [scale]
    rw [binade_eq] at *
    omega
  rw [units_succ, units_place hm he, Nat.succ_mul]
  exact Nat.add_le_add_left (Nat.pow_le_pow_right two_pos hscale) _

/-- The whole number nearest to a fraction in the gaps of its binade counts a place of
that binade, and the fraction does not lie before the binade. -/
theorem roundHalfEven_place (num : Nat) {den e : Nat} (hden : 0 < den)
    (he : (num / den).log2 - 52 = e) :
    roundHalfEven num (den <<< e) ≤ 2 * binade ∧
      (e = 0 ∨ binade ≤ roundHalfEven num (den <<< e) ∧ binade * (den <<< e) ≤ num) := by
  have hgap : 0 < den <<< e := by
    rw [Nat.shiftLeft_eq]
    exact Nat.mul_pos hden (Nat.two_pow_pos e)
  have hround := isRounded_roundHalfEven num hgap
  have hlower := hround.lower
  have hupper := hround.upper
  constructor
  · have hlog : num / den < 2 ^ (e + 53) :=
      Nat.lt_of_lt_of_le Nat.lt_log2_self (Nat.pow_le_pow_right two_pos (by omega))
    have hnum : num < 2 * binade * (den <<< e) := by
      rw [Nat.div_lt_iff_lt_mul hden, pow_add] at hlog
      rw [Nat.shiftLeft_eq, binade_eq]
      calc num < 2 ^ e * 2 ^ 53 * den := hlog
        _ = 2 * 2 ^ 52 * (den * 2 ^ e) := by ring
    by_contra hlt
    have := Nat.mul_le_mul_right (den <<< e) (Nat.lt_of_not_le hlt)
    rw [Nat.succ_mul] at this
    omega
  · by_cases hlog : (num / den).log2 ≤ 52
    · exact Or.inl (by omega)
    · have hquot : num / den ≠ 0 := by
        intro hzero
        rw [hzero, Nat.log2_zero] at hlog
        omega
      have hpow : 2 ^ (e + 52) ≤ num / den := by
        have hexp : e + 52 = (num / den).log2 := by omega
        rw [hexp]
        exact Nat.log2_self_le hquot
      have hnum : binade * (den <<< e) ≤ num := by
        rw [Nat.le_div_iff_mul_le hden, pow_add] at hpow
        rw [Nat.shiftLeft_eq, binade_eq]
        calc 2 ^ 52 * (den * 2 ^ e) = 2 ^ e * 2 ^ 52 * den := by ring
          _ ≤ num := hpow
      refine Or.inr ⟨?_, hnum⟩
      by_contra hlt
      have := Nat.mul_le_mul_right (den <<< e) (Nat.lt_of_not_le hlt)
      rw [Nat.succ_mul] at this
      omega

/-- A place is the nearest rank if it is nearest when counted in the gaps of its binade,
and if the fraction does not lie before the binade. -/
theorem isNearest_place {num den e m : Nat} (hm : m ≤ 2 * binade)
    (hplace : e = 0 ∨ binade ≤ m ∧ binade * (den <<< e) ≤ num)
    (hround : IsRounded num (den <<< e) m) : IsNearest num den (e * binade + m) := by
  have hfull : e = 0 ∨ binade ≤ m := hplace.imp_right And.left
  have hparity : (e * binade + m) % 2 = m % 2 := by
    rw [binade_eq]
    omega
  have hunits : units (e * binade + m) * den = m * (den <<< e) := by
    rw [units_place hm hfull, Nat.shiftLeft_eq]
    ring
  have hright : m * (den <<< e) + den <<< e ≤ units (e * binade + m + 1) * den := by
    have := Nat.mul_le_mul_right den (le_units_place_succ hm hfull)
    rw [Nat.shiftLeft_eq]
    calc m * (den * 2 ^ e) + den * 2 ^ e = (m + 1) * 2 ^ e * den := by ring
      _ ≤ _ := this
  have hlower := hround.lower
  have hupper := hround.upper
  rw [isNearest_iff, hunits]
  by_cases hfirst : m = 0 ∨ e ≠ 0 ∧ m = binade
  · -- nothing lies before the first place of all, or the fraction is not before the binade
    have hleft : units (e * binade + m - 1) * den ≤ units (e * binade + m) * den :=
      Nat.mul_le_mul_right den (units_strictMono.monotone (Nat.sub_le _ 1))
    have hnum : m * (den <<< e) ≤ num := by
      rcases hfirst with rfl | ⟨hne, rfl⟩
      · rw [Nat.zero_mul]
        exact Nat.zero_le num
      · exact (hplace.resolve_left hne).2
    have heven : m % 2 = 0 := by
      rcases hfirst with rfl | ⟨-, rfl⟩ <;> rfl
    exact ⟨by omega, by omega, fun hodd => by omega⟩
  · rw [not_or, not_and_or, not_not] at hfirst
    have hpred : units (e * binade + m - 1) * den + den <<< e = m * (den <<< e) := by
      obtain ⟨k, rfl⟩ := Nat.exists_eq_succ_of_ne_zero hfirst.1
      have hk : e = 0 ∨ binade ≤ k := by omega
      rw [Nat.succ_eq_add_one, ← Nat.add_assoc, Nat.add_sub_cancel,
        units_place (by omega) hk, Nat.shiftLeft_eq]
      ring
    refine ⟨by omega, by omega, fun hodd => ?_⟩
    have := hround.strict (hparity ▸ hodd)
    omega

/-- **Rounding to doubles is correct**: it finds the rank nearest to the fraction. -/
theorem isNearest_roundedRank (num : Nat) {den : Nat} (hden : 0 < den) :
    IsNearest num den (roundedRank num den) := by
  obtain ⟨e, he⟩ : ∃ e, (num / den).log2 - 52 = e := ⟨_, rfl⟩
  have hgap : 0 < den <<< e := by
    rw [Nat.shiftLeft_eq]
    exact Nat.mul_pos hden (Nat.two_pow_pos e)
  obtain ⟨hm, hplace⟩ := roundHalfEven_place num hden he
  rw [roundedRank, he]
  exact isNearest_place hm hplace (isRounded_roundHalfEven num hgap)

/-- A fraction that is not in lowest terms has the nearest rank of the reduced one. -/
theorem IsNearest.of_mul_right {num den r k : Nat} (hden : 0 < den) (hk : 0 < k)
    (h : IsNearest (num * k) (den * k) r) : IsNearest num den r := by
  have hreduced := isNearest_roundedRank num hden
  rw [h.unique (hreduced.mul_right hk) (Nat.mul_pos hden hk)]
  exact hreduced

/-- A finite rank is the outcome of rounding exactly when it is nearest. -/
theorem nearestRank_eq_iff {num den r : Nat} (hden : 0 < den) (hr : r < infinityRank) :
    nearestRank num den = r ↔ IsNearest (num * unitsPerOne) den r := by
  have hnearest := isNearest_roundedRank (num * unitsPerOne) hden
  rw [nearestRank_eq_min]
  constructor
  · intro h
    have hrank : roundedRank (num * unitsPerOne) den = r := by omega
    exact hrank ▸ hnearest
  · intro h
    rw [hnearest.unique h hden]
    exact Nat.min_eq_right (Nat.le_of_lt hr)

/-- A fraction below the value of the last finite rank is rounded to a finite rank. -/
theorem nearestRank_lt {num den : Nat} (hden : 0 < den)
    (h : num * unitsPerOne < units (infinityRank - 1) * den) :
    nearestRank num den < infinityRank := by
  have hnearest := isNearest_roundedRank (num * unitsPerOne) hden
  rw [nearestRank_eq_min]
  by_contra hge
  have hrank : infinityRank ≤ roundedRank (num * unitsPerOne) den := by omega
  have hleft := Nat.mul_le_mul_right den
    (units_strictMono.monotone (Nat.sub_le_sub_right hrank 1))
  have hright := Nat.mul_le_mul_right den
    (units_strictMono.monotone (Nat.le_trans (Nat.sub_le infinityRank 1) hrank))
  have hlower := hnearest.lower
  rw [Nat.add_mul] at hlower
  omega

end Binary64

end PostfixCalc

/-
# The order of results

What is displayed keeps the order and the sign of the results. Doubles are ordered as their exact
values. Whole numbers are displayed as they are and all others rounded, but a whole number is also
what it would be rounded to, so the display is one chain of roundings, none of which reverses an
order. The last step, the shortest decimal of a double, does not reverse it either, since the
decimal reads back as the double: of two decimals the greater one has no smaller nearest double.
-/
import Mathlib
import PostfixCalc.Proofs.Canonical
import PostfixCalc.Proofs.Group
import PostfixCalc.Proofs.WholeNumbers

namespace PostfixCalc

open Float.Model (UnpackedFloat)

namespace Binary64

/-! ## The order of doubles -/

theorem scale_mono {r s : Nat} (h : r ≤ s) : scale r ≤ scale s :=
  Nat.sub_le_sub_right (Nat.div_le_div_right h) 1

/-- A smaller rank has the smaller exponent, or the same exponent and the smaller significand. -/
theorem exponent_lt_or {r s : Nat} (h : r < s) :
    exponent r < exponent s ∨ exponent r = exponent s ∧ significand r < significand s := by
  have hr := scale_mul_binade_add_significand r
  have hs := scale_mul_binade_add_significand s
  unfold exponent
  rcases Nat.lt_or_eq_of_le (scale_mono (Nat.le_of_lt h)) with hlt | heq
  · exact Or.inl (by omega)
  · rw [heq] at hr
    exact Or.inr ⟨by rw [heq], by omega⟩

/-- Exponents, and significands of the same exponent, are ordered as the ranks. -/
theorem compare_exponent_then (r s : Nat) :
    (compare (exponent r) (exponent s)).then (compare (significand r) (significand s)) =
      compare r s := by
  rcases Nat.lt_trichotomy r s with hlt | rfl | hgt
  · rw [compare_lt_iff_lt.2 hlt]
    rcases exponent_lt_or hlt with h | ⟨heq, h⟩
    · rw [compare_lt_iff_lt.2 h, Ordering.lt_then]
    · rw [compare_eq_iff_eq.2 heq, compare_lt_iff_lt.2 h, Ordering.eq_then]
  · rw [compare_eq_iff_eq.2 rfl, compare_eq_iff_eq.2 rfl, compare_eq_iff_eq.2 rfl]
    rfl
  · rw [compare_gt_iff_gt.2 hgt]
    rcases exponent_lt_or hgt with h | ⟨heq, h⟩
    · rw [compare_gt_iff_gt.2 h, Ordering.gt_then]
    · rw [compare_eq_iff_eq.2 heq.symm, compare_gt_iff_gt.2 h, Ordering.eq_then]

/-- Values of one sign are ordered as their ranks, or the other way round. -/
theorem compare_signedUnits (negative : Bool) (r s : Nat) :
    compare (signedUnits negative r) (signedUnits negative s) =
      if negative then (compare r s).swap else compare r s := by
  unfold signedUnits
  rcases Nat.lt_trichotomy r s with hlt | rfl | hgt
  · have hunits : (units r : Int) < units s := by exact_mod_cast units_strictMono hlt
    rw [compare_lt_iff_lt.2 hlt]
    split_ifs
    · exact compare_gt_iff_gt.2 (Int.neg_lt_neg hunits)
    · exact compare_lt_iff_lt.2 hunits
  · rw [compare_eq_iff_eq.2 rfl, compare_eq_iff_eq.2 rfl]
    split_ifs <;> rfl
  · have hunits : (units s : Int) < units r := by exact_mod_cast units_strictMono hgt
    rw [compare_gt_iff_gt.2 hgt]
    split_ifs
    · exact compare_lt_iff_lt.2 (Int.neg_lt_neg hunits)
    · exact compare_gt_iff_gt.2 hunits

/-- Doubles of finite rank are compared by their exact values. -/
theorem compare_unpack_ofRank (n m : Bool) {r s : Nat} (hr : r < infinityRank)
    (hs : s < infinityRank) :
    UnpackedFloat.compare (UnpackedFloat.unpack .binary64 (Word.ofRank n r))
      (UnpackedFloat.unpack .binary64 (Word.ofRank m s)) =
        some (compare (signedUnits n r) (signedUnits m s)) := by
  have hpositive : ∀ {t}, 0 < t → 0 < signedUnits false t := fun ht =>
    Int.natCast_pos.2 (units_zero ▸ units_strictMono ht)
  have hnegative : ∀ {t}, 0 < t → signedUnits true t < 0 := fun ht =>
    signedUnits_neg_iff.2 ⟨rfl, Nat.ne_of_gt ht⟩
  rcases Nat.eq_zero_or_pos r with rfl | hrpos
  · rw [unpack_zero, signedUnits_zero]
    rcases Nat.eq_zero_or_pos s with rfl | hspos
    · rw [unpack_zero, signedUnits_zero]
      rfl
    · rw [unpack_of_pos m hspos hs]
      cases m with
      | false => rw [compare_lt_iff_lt.2 (hpositive hspos)]; rfl
      | true => rw [compare_gt_iff_gt.2 (hnegative hspos)]; rfl
  rcases Nat.eq_zero_or_pos s with rfl | hspos
  · rw [unpack_zero, signedUnits_zero, unpack_of_pos n hrpos hr]
    cases n with
    | false => rw [compare_gt_iff_gt.2 (hpositive hrpos)]; rfl
    | true => rw [compare_lt_iff_lt.2 (hnegative hrpos)]; rfl
  rw [unpack_of_pos n hrpos hr, unpack_of_pos m hspos hs]
  cases n with
  | false =>
    cases m with
    | false =>
      rw [compare_signedUnits, if_neg Bool.false_ne_true, ← compare_exponent_then]
      rfl
    | true =>
      rw [compare_gt_iff_gt.2 ((hnegative hspos).trans (hpositive hrpos))]
      rfl
  | true =>
    cases m with
    | false =>
      rw [compare_lt_iff_lt.2 ((hnegative hrpos).trans (hpositive hspos))]
      rfl
    | true =>
      rw [compare_signedUnits, if_pos rfl, ← compare_exponent_then]
      rfl

section

variable (n m : Bool) {r s : Nat}

theorem ofRank_le_ofRank_iff (hr : r < infinityRank) (hs : s < infinityRank) :
    ofRank n r ≤ ofRank m s ↔ signedUnits n r ≤ signedUnits m s := by
  have hle : ofRank n r ≤ ofRank m s ↔ Option.any (·.isLE)
      (UnpackedFloat.compare (ofRank n r).toModel.unpack (ofRank m s).toModel.unpack) = true :=
    decide_eq_true_iff
  rw [hle, unpack_ofRank n hr, unpack_ofRank m hs, compare_unpack_ofRank n m hr hs,
    Option.any_some, Ordering.isLE_iff_ne_gt]
  exact compare_le_iff_le

theorem ofRank_lt_ofRank_iff (hr : r < infinityRank) (hs : s < infinityRank) :
    ofRank n r < ofRank m s ↔ signedUnits n r < signedUnits m s := by
  have hlt : ofRank n r < ofRank m s ↔
      (UnpackedFloat.compare (ofRank n r).toModel.unpack (ofRank m s).toModel.unpack ==
        some .lt) = true :=
    decide_eq_true_iff
  rw [hlt, unpack_ofRank n hr, unpack_ofRank m hs, compare_unpack_ofRank n m hr hs,
    beq_iff_eq, Option.some_inj]
  exact compare_lt_iff_lt

end

/-- A finite double has the sign and the rank that it is made of. -/
theorem eq_ofRank_of_isFinite {x : Float} (hx : x.isFinite = true) :
    x = ofRank (isNegative x) (rank x) := by
  have hr := (isFinite_iff x).1 hx
  apply Float.eq_of_toBits_eq
  rw [← UInt64.toNat_inj, toBits_ofRank _ hr]
  have hbits := x.toBits.toNat_lt
  unfold isNegative rank
  rw [signWeight_eq]
  by_cases hsign : 2 ^ 63 ≤ x.toBits.toNat
  · rw [decide_eq_true hsign, if_pos rfl]
    omega
  · rw [decide_eq_false hsign, if_neg Bool.false_ne_true]
    omega

/-! ## Roundings -/

/-- A smaller fraction has no greater nearest whole number. -/
theorem IsRounded.mono {num num' den m m' : Nat} (h : IsRounded num den m)
    (h' : IsRounded num' den m') (hden : 0 < den) (hle : num ≤ num') : m ≤ m' := by
  by_contra hlt
  have hstep := Nat.mul_le_mul_right den (Nat.lt_of_not_le hlt)
  rw [Nat.succ_mul] at hstep
  have hlower := h.lower
  have hupper := h'.upper
  by_cases hodd : m % 2 = 1
  · have := (h.strict hodd).1
    omega
  by_cases hodd' : m' % 2 = 1
  · have := (h'.strict hodd').2
    omega
  -- two even numbers have another one between them
  have hstep' := Nat.mul_le_mul_right den (show m' + 2 ≤ m by omega)
  rw [Nat.add_mul] at hstep'
  omega

/-- A smaller fraction has no greater nearest rank. -/
theorem nearestRank_mono {num num' den den' : Nat} (hden : 0 < den) (hden' : 0 < den')
    (hle : num * den' ≤ num' * den) : nearestRank num den ≤ nearestRank num' den' := by
  have hnearest := (isNearest_roundedRank (num * unitsPerOne) hden).mul_right hden'
  have hnearest' := (isNearest_roundedRank (num' * unitsPerOne) hden').mul_right hden
  rw [Nat.mul_comm den' den] at hnearest'
  have hunits : num * unitsPerOne * den' ≤ num' * unitsPerOne * den := by
    rw [Nat.mul_right_comm, Nat.mul_right_comm num']
    exact Nat.mul_le_mul_right unitsPerOne hle
  rw [nearestRank_eq_min, nearestRank_eq_min]
  exact min_le_min_left _ (hnearest.mono hnearest' hunits (Nat.mul_pos hden hden'))

end Binary64

open Binary64

namespace Decimal

/-! ## The order of decimals -/

/-- The exact value of a decimal. -/
def value (d : Decimal) : ℚ := d.coefficient / d.denominator

theorem value_nonneg (d : Decimal) : 0 ≤ d.value :=
  div_nonneg (Nat.cast_nonneg _) (Nat.cast_nonneg _)

/-- A smaller decimal has no greater nearest rank. -/
theorem nearestRank_mono {d e : Decimal} (h : d.value ≤ e.value) :
    d.nearestRank ≤ e.nearestRank := by
  have hd : (0 : ℚ) < d.denominator := Nat.cast_pos.2 d.denominator_pos
  have he : (0 : ℚ) < e.denominator := Nat.cast_pos.2 e.denominator_pos
  unfold value at h
  rw [div_le_div_iff₀ hd he] at h
  exact Binary64.nearestRank_mono d.denominator_pos e.denominator_pos (by exact_mod_cast h)

/-- The shortest decimals of finite ranks are ordered as the ranks, since they read back. -/
theorem value_shortest_mono {r s : Nat} (hs : s < infinityRank) (h : r ≤ s) :
    (shortest r).value ≤ (shortest s).value := by
  by_contra hlt
  have hback := nearestRank_mono (le_of_not_ge hlt)
  rw [nearestRank_shortest hs, nearestRank_shortest (h.trans_lt hs)] at hback
  obtain rfl := Nat.le_antisymm h hback
  exact hlt le_rfl

theorem shortest_zero : shortest 0 = ⟨0, 0⟩ := by
  have hzero : units 0 = 0 * unitsPerOne := by rw [units_zero, Nat.zero_mul]
  exact shortest_eq_of_whole (by decide) hzero (Nat.zero_le _)

/-- Only the shortest decimal of zero is zero. -/
theorem value_shortest_eq_zero_iff {r : Nat} (hr : r < infinityRank) :
    (shortest r).value = 0 ↔ r = 0 := by
  have hdenominator : ((shortest r).denominator : ℚ) ≠ 0 :=
    Nat.cast_ne_zero.2 (Nat.ne_of_gt (shortest r).denominator_pos)
  unfold value
  rw [div_eq_zero_iff, or_iff_left hdenominator, Nat.cast_eq_zero]
  constructor
  · intro hzero
    by_contra hne
    exact coefficient_shortest_ne_zero hr hne hzero
  · rintro rfl
    rw [shortest_zero]

end Decimal

/-! ## The order of displayed ranks -/

/-- A whole number is what it would be rounded to. So the display of every finite rank is the
rank nearest to its rounding. -/
theorem displayRank_eq_nearestRank {r : Nat} (hr : r < infinityRank) (p : Precision) :
    displayRank r p = (Decimal.rounded r p.places).nearestRank := by
  unfold displayRank
  split_ifs with hwhole
  · have hpos : 0 < 10 ^ p.places := Nat.pow_pos (by decide)
    unfold isWhole at hwhole
    obtain ⟨n, hn⟩ := Nat.dvd_of_mod_eq_zero (beq_iff_eq.1 hwhole)
    have hexact : units r * 10 ^ p.places = n * 10 ^ p.places * unitsPerOne := by
      rw [hn]
      ring
    have hround := isRounded_roundHalfEven (units r * 10 ^ p.places) unitsPerOne_pos
    rw [hexact] at hround
    rw [nearestRank_rounded, hexact, hround.eq_of_mul unitsPerOne_pos]
    symm
    rw [nearestRank_eq_iff hpos hr, ← hexact]
    exact IsNearest.self hpos
  · rfl

/-- A smaller rank is not displayed by a greater one. -/
theorem displayRank_mono {r s : Nat} (hs : s < infinityRank) (h : r ≤ s) (p : Precision) :
    displayRank r p ≤ displayRank s p := by
  have hpos : 0 < 10 ^ p.places := Nat.pow_pos (by decide)
  have hunits := Nat.mul_le_mul_right (10 ^ p.places) (units_strictMono.monotone h)
  have hround := (isRounded_roundHalfEven _ unitsPerOne_pos).mono
    (isRounded_roundHalfEven _ unitsPerOne_pos) unitsPerOne_pos hunits
  rw [displayRank_eq_nearestRank (h.trans_lt hs), displayRank_eq_nearestRank hs,
    nearestRank_rounded, nearestRank_rounded]
  exact nearestRank_mono hpos hpos (Nat.mul_le_mul_right _ hround)

theorem displayRank_zero (p : Precision) : displayRank 0 p = 0 := rfl

/-! ## The order of written numbers -/

/-- The exact value of a numeral, without rounding. -/
def Numeral.exactValue (n : Numeral) : ℚ := n.coefficient * 10 ^ n.exponent

/-- The exact number that a text writes with digits, behind a sign or not. -/
def writtenValue? (text : String) : Option ℚ :=
  let (negative, cs) := Numeral.splitSign text.toList
  (Numeral.read? cs).map fun n => if negative then -n.exactValue else n.exactValue

/-- The value of a decimal with a sign in front. -/
def Decimal.signedValue (negative : Bool) (d : Decimal) : ℚ :=
  if negative then -d.value else d.value

/-- The text of a decimal writes the decimal, and with a minus in front its opposite. -/
theorem writtenValue?_chars (negative : Bool) (d : Decimal) :
    writtenValue? (String.ofList (bif negative then '-' :: d.chars else d.chars)) =
      some (d.signedValue negative) := by
  have hexact : Numeral.exactValue ⟨d.coefficient, 0 - d.places⟩ = d.value := by
    unfold Numeral.exactValue Decimal.value
    rw [zero_sub, zpow_neg, zpow_natCast, ← div_eq_mul_inv, Decimal.denominator_eq]
    push_cast
    rfl
  obtain ⟨c, cs, hcs, hc⟩ := d.exists_chars_eq_cons
  unfold writtenValue? Decimal.signedValue
  rw [String.toList_ofList]
  cases negative with
  | true =>
    rw [cond_true, Numeral.splitSign]
    dsimp only
    rw [d.read?_chars, Option.map_some, hexact]
  | false =>
    rw [cond_false, hcs, Numeral.splitSign_of_head (Or.inl hc), ← hcs]
    dsimp only
    rw [d.read?_chars, Option.map_some, hexact]

/-- The text of a sign and a finite rank writes the shortest decimal of the rank; the sign of a
zero is not written, but it has no effect on the value. -/
theorem writtenValue?_signedText (negative : Bool) {r : Nat} (hr : r < infinityRank) :
    writtenValue? (signedText negative r) =
      some ((Decimal.shortest r).signedValue negative) := by
  rw [signedText_eq, writtenValue?_chars, Option.some_inj]
  by_cases hzero : r = 0
  · have hvalue := (Decimal.value_shortest_eq_zero_iff hr).2 hzero
    unfold Decimal.signedValue
    rw [hvalue, neg_zero, ite_self, ite_self]
  · have hsign : (negative && r != 0) = negative := by simp [hzero]
    rw [hsign]

theorem signedText_zero (negative : Bool) : signedText negative 0 = "0" := by
  rw [signedText_eq, Decimal.shortest_zero, bne_self_eq_false, Bool.and_false, cond_false]
  rfl

/-- Only the rank zero has the text of zero. -/
theorem signedText_eq_zero_iff {negative : Bool} {r : Nat} (hr : r < infinityRank) :
    signedText negative r = "0" ↔ r = 0 := by
  constructor
  · intro h
    have hvalue := writtenValue?_signedText negative hr
    have hzero : (Decimal.shortest 0).value = 0 :=
      (Decimal.value_shortest_eq_zero_iff (by decide)).2 rfl
    rw [h, ← signedText_zero false, writtenValue?_signedText false (by decide),
      Option.some_inj] at hvalue
    unfold Decimal.signedValue at hvalue
    rw [hzero, if_neg Bool.false_ne_true] at hvalue
    rw [← Decimal.value_shortest_eq_zero_iff hr]
    split_ifs at hvalue
    · exact neg_eq_zero.1 hvalue.symm
    · exact hvalue.symm
  · rintro rfl
    exact signedText_zero negative

/-- What is displayed for a smaller value is no greater. -/
theorem signedValue_display_mono {n m : Bool} {r s : Nat} (hr : r < infinityRank)
    (hs : s < infinityRank) (h : signedUnits n r ≤ signedUnits m s) (p : Precision) :
    (Decimal.shortest (displayRank r p)).signedValue n ≤
      (Decimal.shortest (displayRank s p)).signedValue m := by
  have hmono : ∀ {a b}, b < infinityRank → units a ≤ units b →
      (Decimal.shortest (displayRank a p)).value ≤ (Decimal.shortest (displayRank b p)).value := by
    intro a b hb hab
    exact Decimal.value_shortest_mono (displayRank_lt hb p)
      (displayRank_mono hb (units_strictMono.le_iff_le.1 hab) p)
  have hr' := (Decimal.shortest (displayRank r p)).value_nonneg
  have hs' := (Decimal.shortest (displayRank s p)).value_nonneg
  unfold signedUnits at h
  unfold Decimal.signedValue
  cases n with
  | false =>
    cases m with
    | false => exact hmono hs (by simpa using h)
    | true =>
      -- a value that is not negative lies below one that is not positive only if both are zero
      rw [if_neg Bool.false_ne_true, if_pos rfl] at h
      have hrzero : r = 0 := units_eq_zero_iff.1 (by omega)
      have hszero : s = 0 := units_eq_zero_iff.1 (by omega)
      subst hrzero hszero
      have hvalue := (Decimal.value_shortest_eq_zero_iff hr).2 rfl
      rw [displayRank_zero, hvalue, if_neg Bool.false_ne_true, if_pos rfl, neg_zero]
  | true =>
    cases m with
    | false => exact (neg_nonpos.2 hr').trans hs'
    | true => exact neg_le_neg (hmono hr (by simpa using h))

/-! ## Results -/

/-- **The display keeps order and sign**: the number that is displayed for a smaller result is no
greater, whichever of them are whole; a positive result has a minus in front when its sign is
changed, unless it is displayed as zero, and what is displayed as zero stays zero. -/
theorem resultText_order_and_sign {x y : Float} (hx : x.isFinite = true) (hy : y.isFinite = true)
    (d : Nat) :
    (x ≤ y → ∃ u v, writtenValue? (resultText x (.clamp d)) = some u ∧
      writtenValue? (resultText y (.clamp d)) = some v ∧ u ≤ v) ∧
    (0 < x → resultText x (.clamp d) ≠ "0" →
      resultText (-x) (.clamp d) = "-" ++ resultText x (.clamp d)) ∧
    (resultText x (.clamp d) = "0" → resultText (-x) (.clamp d) = "0") := by
  obtain ⟨n, r, hr, rfl⟩ : ∃ n r, r < infinityRank ∧ x = ofRank n r :=
    ⟨_, _, (isFinite_iff x).1 hx, eq_ofRank_of_isFinite hx⟩
  obtain ⟨m, s, hs, rfl⟩ : ∃ m s, s < infinityRank ∧ y = ofRank m s :=
    ⟨_, _, (isFinite_iff y).1 hy, eq_ofRank_of_isFinite hy⟩
  have hshown := displayRank_lt hr (.clamp d)
  rw [neg_ofRank n hr, resultText_ofRank n hr, resultText_ofRank (!n) hr, resultText_ofRank m hs,
    ne_eq, signedText_eq_zero_iff hshown, signedText_eq_zero_iff hshown,
    ofRank_le_ofRank_iff n m hr hs]
  refine ⟨fun hle => ?_, fun hpos hne => ?_, id⟩
  · exact ⟨_, _, writtenValue?_signedText n hshown,
      writtenValue?_signedText m (displayRank_lt hs (.clamp d)),
      signedValue_display_mono hr hs hle (.clamp d)⟩
  · have hzero : (0 : Float) = ofRank false 0 := rfl
    rw [hzero, ofRank_lt_ofRank_iff false n (by decide) hr, signedUnits_zero] at hpos
    have hsign : n = false := by
      cases n with
      | false => rfl
      | true =>
        unfold signedUnits at hpos
        rw [if_pos rfl] at hpos
        omega
    rw [hsign]
    unfold signedText
    simp [hne]

/-- An eighth, which lies halfway between two decimals with two places, and the next double; and
a thousandth, which is displayed as zero. -/
theorem resultText_order_and_sign_of_halfway :
    let x := ofRank false 0x3FC0000000000000
    let y := ofRank false 0x3FC0000000000001
    let z := ofRank false 0x3F50624DD2F1A9FC
    (x.isFinite = true ∧ y.isFinite = true ∧ x ≤ y ∧
      ∃ u v, writtenValue? (resultText x (.clamp 2)) = some u ∧
        writtenValue? (resultText y (.clamp 2)) = some v ∧ u ≤ v) ∧
    (0 < x ∧ resultText x (.clamp 2) ≠ "0" ∧
      resultText (-x) (.clamp 2) = "-" ++ resultText x (.clamp 2)) ∧
    (z.isFinite = true ∧ resultText z (.clamp 2) = "0" ∧ resultText (-z) (.clamp 2) = "0") := by
  intro x y z
  have hx : x.isFinite = true := by decide +kernel
  have hy : y.isFinite = true := by decide +kernel
  have hz : z.isFinite = true := by decide +kernel
  have hle : x ≤ y := by decide +kernel
  have hpos : 0 < x := by decide +kernel
  have hne : resultText x (.clamp 2) ≠ "0" := by
    rw [resultText_ofRank false (by decide +kernel), ne_eq,
      signedText_eq_zero_iff (displayRank_lt (by decide +kernel) _)]
    decide +kernel
  have hzero : resultText z (.clamp 2) = "0" := by
    rw [resultText_ofRank false (by decide +kernel),
      signedText_eq_zero_iff (displayRank_lt (by decide +kernel) _)]
    decide +kernel
  obtain ⟨horder, hsign, -⟩ := resultText_order_and_sign hx hy 2
  obtain ⟨-, -, hstays⟩ := resultText_order_and_sign hz hx 2
  exact ⟨⟨hx, hy, hle, horder hle⟩, ⟨hpos, hne, hsign hpos hne⟩, hz, hzero, hstays hzero⟩

end PostfixCalc

/-
# Arithmetic that needs no rounding

A finite double is its sign and the value of its rank, a whole number of units. The exact
sum, difference, product or remainder of two finite doubles is brought to the gaps of its own
binade. If it is the value of a finite rank, then no digit of it is dropped, and the outcome
has exactly this value; only the sign of a zero is left open.
-/
import PostfixCalc.Proofs.Word

namespace PostfixCalc

open Float.Model (Format UnpackedFloat totalExponent)
open Float.Model.UnpackedFloat

namespace Word

theorem sub_eq_add_neg (u v : UnpackedFloat) :
    UnpackedFloat.sub .binary64 u v = UnpackedFloat.add .binary64 u v.neg := by
  have happly : ∀ (s : Sign) (k : Int), (-s).apply k = -s.apply k := by
    intro s k
    cases s
    · exact (Int.neg_neg k).symm
    · rfl
  cases u <;> cases v <;> try rfl
  unfold UnpackedFloat.sub UnpackedFloat.neg UnpackedFloat.add
  dsimp only
  rw [happly, Int.sub_eq_add_neg]

end Word

namespace Binary64

/-! ## Significands and exponents -/

theorem significand_pos {r : Nat} (hr : 0 < r) : 0 < significand r := by
  have hplace := scale_mul_binade_add_significand r
  by_contra hzero
  have hfull := scale_eq_zero_or_le_significand r
  rw [binade_eq] at *
  omega

/-- A significand has 53 bits, or fewer in the first binade. -/
theorem log2_significand {r : Nat} (hr : 0 < r) :
    (significand r).log2 ≤ 52 ∧ (scale r = 0 ∨ (significand r).log2 = 52) := by
  have hne : significand r ≠ 0 := Nat.ne_of_gt (significand_pos hr)
  have hlt : (significand r).log2 < 53 := (Nat.log2_lt hne).2 (significand_lt r)
  refine ⟨by omega, (scale_eq_zero_or_le_significand r).imp_right fun hfull => ?_⟩
  have hle : 52 ≤ (significand r).log2 := (Nat.le_log2 hne).2 hfull
  omega

theorem log2_mul_two_pow {m : Nat} (hm : 0 < m) (k : Nat) : (m * 2 ^ k).log2 = m.log2 + k := by
  induction k with
  | zero => rw [pow_zero, Nat.mul_one, Nat.add_zero]
  | succ k ih =>
    have hne : m * 2 ^ k ≠ 0 := Nat.ne_of_gt (Nat.mul_pos hm (Nat.two_pow_pos k))
    rw [pow_succ, ← Nat.mul_assoc, Nat.mul_comm, Nat.log2_two_mul hne, ih, Nat.add_assoc]

/-- The exponent of the gaps at a rank, where one has the exponent zero. -/
def exponent (r : Nat) : Int := (scale r : Int) - 1074

/-- The value of a rank is brought to the gaps at that rank, however finely it is counted. -/
theorem targetExponent_significand {r : Nat} (hr : 0 < r) (k : Nat) :
    Format.binary64.targetExponent (totalExponent (significand r * 2 ^ k) (exponent r - k)) =
      exponent r := by
  have hbits : ((Format.binary64.mantissaBits : Nat) : Int) = 53 := rfl
  have hleast : Format.binary64.minExponent = -1074 := rfl
  obtain ⟨hle, hfull⟩ := log2_significand hr
  unfold Format.targetExponent totalExponent exponent
  rw [hbits, hleast, log2_mul_two_pow (significand_pos hr)]
  omega

/-! ## Rounding drops nothing -/

/-- Zeros at the end of a significand are dropped without a trace. -/
theorem shiftRight_mul_two_pow (m k : Nat) :
    (⟨m * 2 ^ k, false, false⟩ : ExtendedMantissa) >>> k = ⟨m, false, false⟩ := by
  show Nat.repeat ExtendedMantissa.shiftRightOne k _ = _
  induction k generalizing m with
  | zero =>
    rw [pow_zero, Nat.mul_one]
    rfl
  | succ k ih =>
    have hpow : m * 2 ^ (k + 1) = m * 2 * 2 ^ k := by ring
    rw [Nat.repeat, hpow, ih, ExtendedMantissa.shiftRightOne]
    simp

theorem shiftToTargetExponent_significand {r : Nat} (hr : 0 < r) (k : Nat) :
    shiftToTargetExponent .binary64 (significand r * 2 ^ k) (exponent r - k) .exact =
      (⟨significand r, false, false⟩, exponent r) := by
  have hshift : (exponent r - (exponent r - k)).toNat = k := by omega
  unfold shiftToTargetExponent
  rw [targetExponent_significand hr k]
  unfold shiftToExponent
  dsimp only
  rw [hshift, Int.sub_add_cancel]
  exact congrArg (·, exponent r) (shiftRight_mul_two_pow _ k)

/-- The value of a rank, counted at least as finely as there, is rounded to itself. -/
theorem roundWithAccuracy_significand (s : Sign) {r : Nat} (hr : 0 < r) (k : Nat) :
    roundWithAccuracy .binary64 s (significand r * 2 ^ k) (exponent r - k) .exact =
      .finite s (significand r) (exponent r) (significand_pos hr) := by
  have hagain := shiftToTargetExponent_significand hr 0
  rw [pow_zero, Nat.mul_one, Int.natCast_zero, Int.sub_zero] at hagain
  have hrounded : (⟨significand r, false, false⟩ : ExtendedMantissa).roundedMantissa =
      significand r := rfl
  simp only [roundWithAccuracy, shiftToTargetExponent_significand hr k, hrounded, hagain]
  exact dif_neg (Nat.ne_of_gt (significand_pos hr))

/-- A value counted in gaps of the exponent `j` is counted at least as finely as at its rank
once the surplus of `j` is multiplied in. -/
theorem exists_finer {r m j : Nat} (h : m * 2 ^ j = units r) :
    ∃ k : Nat, m * 2 ^ (j - scale r) = significand r * 2 ^ k ∧
      (j : Int) - 1074 - (j - scale r : Nat) = exponent r - k := by
  rw [units_eq] at h
  unfold exponent
  rcases Nat.le_total (scale r) j with hle | hle
  · refine ⟨0, ?_, by omega⟩
    apply Nat.eq_of_mul_eq_mul_right (Nat.two_pow_pos (scale r))
    rw [Nat.mul_assoc, ← pow_add, Nat.sub_add_cancel hle, h, pow_zero, Nat.mul_one]
  · refine ⟨scale r - j, ?_, by omega⟩
    apply Nat.eq_of_mul_eq_mul_right (Nat.two_pow_pos j)
    rw [Nat.sub_eq_zero_of_le hle, pow_zero, Nat.mul_one, h, Nat.mul_assoc, ← pow_add,
      Nat.sub_add_cancel hle]

/-- The value of a rank, counted in gaps of any exponent, is rounded to itself. -/
theorem round_eq (s : Sign) {r m j : Nat} (hr : 0 < r) (h : m * 2 ^ j = units r) :
    UnpackedFloat.round .binary64 s m (j - 1074) =
      .finite s (significand r) (exponent r) (significand_pos hr) := by
  have hpos : 0 < m * 2 ^ j := by
    rw [h, units_eq]
    exact Nat.mul_pos (significand_pos hr) (Nat.two_pow_pos _)
  obtain ⟨k, hk, hfine⟩ := exists_finer h
  have htotal : totalExponent m (j - 1074) =
      totalExponent (significand r * 2 ^ k) (exponent r - k) := by
    unfold totalExponent
    rw [← hk, log2_mul_two_pow (Nat.pos_of_mul_pos_right hpos)]
    omega
  have hshift : ((j : Int) - 1074 - exponent r).toNat = j - scale r := by
    unfold exponent
    omega
  unfold UnpackedFloat.round decreaseExponent
  rw [htotal, targetExponent_significand hr]
  dsimp only
  rw [hshift, Nat.shiftLeft_eq, hk, hfine]
  exact roundWithAccuracy_significand s hr k

/-! ## Exact values -/

/-- The exact value of a sign and a rank, in units. -/
def signedUnits (negative : Bool) (r : Nat) : Int := if negative then -units r else units r

/-- A count of at most 53 bits, in gaps of any exponent, is the value of a rank. -/
theorem exists_units_eq (j : Nat) {m : Nat} (hm : m ≤ 2 * binade) :
    ∃ r ≤ j * binade + 2 * binade, units r = m * 2 ^ j := by
  induction j generalizing m with
  | zero =>
    refine ⟨0 * binade + m, by omega, units_place hm (Or.inl rfl)⟩
  | succ j ih =>
    by_cases hfull : binade ≤ m
    · exact ⟨(j + 1) * binade + m, by omega, units_place hm (Or.inr hfull)⟩
    · obtain ⟨r, hr, hunits⟩ := ih (m := 2 * m) (by omega)
      refine ⟨r, ?_, ?_⟩
      · rw [Nat.succ_mul]
        omega
      · rw [hunits, pow_succ]
        ring

/-- The double is finite, and its exact value is `z` units. -/
def HasValue (x : Float) (z : Int) : Prop :=
  ∃ negative r, r < infinityRank ∧ x = ofRank negative r ∧ signedUnits negative r = z

/-- Some finite double has the exact value of `z` units. -/
def IsValue (z : Int) : Prop := ∃ r < infinityRank, units r = z.natAbs

theorem units_zero : units 0 = 0 := Nat.zero_shiftLeft _

theorem units_eq_zero_iff {r : Nat} : units r = 0 ↔ r = 0 := by
  constructor
  · intro h
    exact units_strictMono.injective (h.trans units_zero.symm)
  · rintro rfl
    exact units_zero

theorem hasValue_ofRank (negative : Bool) {r : Nat} (hr : r < infinityRank) :
    HasValue (ofRank negative r) (signedUnits negative r) := ⟨negative, r, hr, rfl, rfl⟩

theorem signedUnits_zero (negative : Bool) : signedUnits negative 0 = 0 := by
  unfold signedUnits
  rw [units_zero]
  exact ite_self _

theorem natAbs_signedUnits (negative : Bool) (r : Nat) :
    (signedUnits negative r).natAbs = units r := by
  unfold signedUnits
  split_ifs <;> omega

theorem signedUnits_neg_iff {negative : Bool} {r : Nat} :
    signedUnits negative r < 0 ↔ negative = true ∧ r ≠ 0 := by
  unfold signedUnits
  rw [ne_eq, ← units_eq_zero_iff]
  split_ifs with h
  · simp [h, Nat.pos_iff_ne_zero]
  · simp [h]

theorem signedUnits_not (negative : Bool) (r : Nat) :
    signedUnits (!negative) r = -signedUnits negative r := by
  unfold signedUnits
  cases negative <;> simp

/-- The sign that a value has, or any sign if the value is zero, makes the value from its
magnitude. -/
theorem signedUnits_eq {z : Int} {r : Nat} (hr : units r = z.natAbs) :
    signedUnits (decide (z < 0)) r = z := by
  unfold signedUnits
  rw [hr]
  by_cases hz : z < 0
  · rw [decide_eq_true hz, if_pos rfl]
    omega
  · rw [decide_eq_false hz, if_neg Bool.false_ne_true]
    omega

/-! ## Unpacked words -/

/-- A double of finite rank is unpacked to what its word is unpacked to. -/
theorem unpack_ofRank (negative : Bool) {r : Nat} (hr : r < infinityRank) :
    (ofRank negative r).toModel.unpack =
      UnpackedFloat.unpack .binary64 (Word.ofRank negative r) := by
  rw [ofRank_eq negative hr]
  show UnpackedFloat.unpack .binary64
    (UnpackedFloat.pack .binary64 (UnpackedFloat.unpack .binary64 (Word.ofRank negative r))) = _
  rw [Word.pack_unpack_ofRank negative hr]

theorem unpack_zero (negative : Bool) :
    UnpackedFloat.unpack .binary64 (Word.ofRank negative 0) = .zero (Word.signOf negative) := by
  cases negative <;> rfl

theorem unpack_of_pos (negative : Bool) {r : Nat} (hpos : 0 < r) (hr : r < infinityRank) :
    UnpackedFloat.unpack .binary64 (Word.ofRank negative r) =
      .finite (Word.signOf negative) (significand r) (exponent r) (significand_pos hpos) := by
  have hsign := Word.ofBitVec_unpackSign (Word.signOf negative) (BitVec.ofNat 11 (r / 2 ^ 52))
    (BitVec.ofNat 52 (r % 2 ^ 52))
  have hmax := Word.exponent_ne hr
  rw [Word.ofRank, UnpackedFloat.unpack]
  simp only [unpackMantissa_packComponents, unpackExponent_packComponents, hsign]
  rw [if_neg hmax]
  rw [infinityRank_eq] at hr
  have hexponent : (BitVec.ofNat 11 (r / 2 ^ 52)).toNat = r / 2 ^ 52 :=
    Nat.mod_eq_of_lt (by omega)
  have hmantissa : (BitVec.ofNat 52 (r % 2 ^ 52)).toNat = r % 2 ^ 52 :=
    Nat.mod_eq_of_lt (Nat.mod_lt r (Nat.two_pow_pos 52))
  have hbias : ((Format.binary64.exponentBias : Nat) : Int) = 1023 := rfl
  have hbits : ((Format.binary64.mantissaBitsWithoutImplicit : Nat) : Int) = 52 := rfl
  have hfirst : BitVec.ofNat 11 (r / 2 ^ 52) = 0#11 ↔ r / 2 ^ 52 = 0 := by
    rw [← BitVec.toNat_inj, hexponent, BitVec.toNat_zero]
  have hempty : BitVec.ofNat 52 (r % 2 ^ 52) = 0#52 ↔ r % 2 ^ 52 = 0 := by
    rw [← BitVec.toNat_inj, hmantissa, BitVec.toNat_zero]
  split_ifs with hzero hm
  · rw [hfirst] at hzero
    rw [hempty] at hm
    omega
  · -- the first binade, where the significand has no implicit bit
    rw [hfirst] at hzero
    congr 1
    · rw [hmantissa, significand, binade_eq]
      split_ifs <;> omega
    · rw [hexponent, hbias, hbits, exponent, scale, binade_eq]
      omega
  · rw [hfirst] at hzero
    congr 1
    · rw [BitVec.toNat_append, ← Nat.shiftLeft_add_eq_or_of_lt (BitVec.isLt _), hmantissa,
        significand, binade_eq, if_neg (by omega)]
      rfl
    · rw [hexponent, hbias, hbits, exponent, scale, binade_eq]
      omega

/-! ## Outcomes that are values -/

theorem hasValue_pack_zero (s : Sign) : HasValue (.ofModel (.pack (.zero s))) 0 := by
  obtain ⟨negative, rfl⟩ : ∃ negative, Word.signOf negative = s := by
    cases s
    · exact ⟨true, rfl⟩
    · exact ⟨false, rfl⟩
  have hr : 0 < infinityRank := by decide
  rw [← unpack_zero negative]
  exact ⟨negative, 0, hr, (ofRank_eq negative hr).symm, signedUnits_zero negative⟩

section

variable (negative : Bool)

theorem hasValue_pack_finite {r : Nat} (hpos : 0 < r) (hr : r < infinityRank) :
    HasValue (.ofModel (.pack (.finite (Word.signOf negative) (significand r) (exponent r)
      (significand_pos hpos)))) (signedUnits negative r) := by
  rw [← unpack_of_pos negative hpos hr, ← ofRank_eq negative hr]
  exact hasValue_ofRank negative hr

/-- The value of a finite rank is rounded to it. -/
theorem hasValue_pack_round {r m j : Nat} (hm : 0 < m) (h : m * 2 ^ j = units r)
    (hr : r < infinityRank) :
    HasValue (.ofModel (.pack (UnpackedFloat.round .binary64 (Word.signOf negative) m (j - 1074))))
      (signedUnits negative r) := by
  have hpos : 0 < r := by
    by_contra hzero
    have hunits : 0 < units r := h ▸ Nat.mul_pos hm (Nat.two_pow_pos j)
    rw [Nat.eq_zero_of_not_pos hzero, units_zero] at hunits
    exact Nat.lt_irrefl 0 hunits
  rw [round_eq _ hpos h]
  exact hasValue_pack_finite negative hpos hr

end

/-- A sum that is a value is normalised to it. -/
theorem hasValue_pack_normalize {m z : Int} {j : Nat} (hz : IsValue z) (h : m * 2 ^ j = z) :
    HasValue (.ofModel (.pack (UnpackedFloat.normalize .binary64 m (j - 1074) .positive))) z := by
  obtain ⟨r, hr, hunits⟩ := hz
  have hpow : (0 : Int) < 2 ^ j := by positivity
  have habs : m.natAbs * 2 ^ j = units r := by
    rw [hunits, ← h, Int.natAbs_mul, Int.natAbs_pow]
    rfl
  have hvalue := signedUnits_eq hunits
  unfold UnpackedFloat.normalize
  rcases lt_trichotomy m 0 with hneg | rfl | hpos
  · have hz : z < 0 := h ▸ Int.mul_neg_of_neg_of_pos hneg hpow
    have hm : (-m).toNat = m.natAbs := by omega
    rw [compare_lt_iff_lt.2 hneg]
    dsimp only
    rw [decide_eq_true hz] at hvalue
    rw [hm, ← hvalue]
    exact hasValue_pack_round true (by omega) habs hr
  · rw [Int.zero_mul] at h
    rw [← h]
    exact hasValue_pack_zero .positive
  · have hz : ¬ z < 0 := not_lt.2 (le_of_lt (h ▸ Int.mul_pos hpos hpow))
    have hm : m.toNat = m.natAbs := by omega
    rw [compare_gt_iff_gt.2 hpos]
    dsimp only
    rw [decide_eq_false hz] at hvalue
    rw [hm, ← hvalue]
    exact hasValue_pack_round false (by omega) habs hr

/-! ## Sums and differences -/

/-- Brought to smaller gaps, a significand still counts the value. -/
theorem apply_decreaseExponent (negative : Bool) {r j : Nat} (hj : j ≤ scale r) :
    (Word.signOf negative).apply (decreaseExponent (significand r) (exponent r) (j - 1074)).1 *
      2 ^ j = signedUnits negative r := by
  have hshift : (exponent r - ((j : Int) - 1074)).toNat = scale r - j := by
    unfold exponent
    omega
  have hunits : significand r <<< (scale r - j) * 2 ^ j = units r := by
    rw [Nat.shiftLeft_eq, Nat.mul_assoc, ← pow_add, Nat.sub_add_cancel hj, units_eq]
  unfold decreaseExponent signedUnits
  dsimp only
  rw [hshift, ← hunits]
  cases negative with
  | false => exact (Nat.cast_mul _ _).symm
  | true => simp [Word.signOf, Sign.apply]

/-! ## Products -/

/-- A product of values that is a value has the product of the significands, which counts it
at least as finely as at its rank. -/
theorem exists_finer_of_mul {r s t p : Nat} (hr : 0 < r) (hs : 0 < s)
    (h : units r * units s = units t * 2 ^ p) :
    ∃ k, significand r * significand s = significand t * 2 ^ k ∧
      scale r + scale s + k = scale t + p := by
  have hproduct : significand r * significand s * 2 ^ (scale r + scale s) =
      significand t * 2 ^ (scale t + p) := by
    rw [units_eq, units_eq, units_eq] at h
    rw [pow_add, pow_add]
    calc significand r * significand s * (2 ^ scale r * 2 ^ scale s)
        = significand r * 2 ^ scale r * (significand s * 2 ^ scale s) := by ring
      _ = significand t * (2 ^ scale t * 2 ^ p) := by rw [h, Nat.mul_assoc]
  have hle : scale r + scale s ≤ scale t + p := by
    by_contra hlt
    obtain ⟨k, hk⟩ : ∃ k, scale r + scale s = k + 1 + (scale t + p) :=
      ⟨scale r + scale s - (scale t + p) - 1, by omega⟩
    -- the product would have a significand of more than 53 bits
    have hlarge : binade ≤ significand r * significand s := by
      have hrpos := significand_pos hr
      have hspos := significand_pos hs
      rcases scale_eq_zero_or_le_significand r with hzero | hfull
      · have hfull := (scale_eq_zero_or_le_significand s).resolve_left (by omega)
        exact hfull.trans (Nat.le_mul_of_pos_left _ hrpos)
      · exact hfull.trans (Nat.le_mul_of_pos_right _ hspos)
    rw [hk, pow_add, ← Nat.mul_assoc] at hproduct
    have hsignificand := Nat.eq_of_mul_eq_mul_right (Nat.two_pow_pos _) hproduct
    have htwice : significand r * significand s * 2 ≤ significand t := by
      rw [← hsignificand, pow_succ']
      exact Nat.mul_le_mul_left _ (Nat.le_mul_of_pos_right 2 (Nat.two_pow_pos k))
    have hlt := significand_lt t
    omega
  refine ⟨scale t + p - (scale r + scale s), ?_, by omega⟩
  apply Nat.eq_of_mul_eq_mul_right (Nat.two_pow_pos (scale r + scale s))
  rw [hproduct, Nat.mul_assoc, ← pow_add, Nat.sub_add_cancel hle]

theorem signOf_mul (n m : Bool) : Word.signOf n * Word.signOf m = Word.signOf (n ^^ m) := by
  cases n <;> cases m <;> rfl

theorem signedUnits_mul (n m : Bool) {r s t k : Nat} (h : units r * units s = units t * k) :
    signedUnits n r * signedUnits m s = signedUnits (n ^^ m) t * k := by
  have hproduct : (units r : Int) * units s = units t * k := by exact_mod_cast h
  unfold signedUnits
  cases n <;> cases m <;> simp [hproduct]

/-- A product with a zero is a zero. -/
theorem exists_mul_eq_zero (n m : Bool) {r s : Nat} (hr : r < infinityRank)
    (hs : s < infinityRank) (hzero : r = 0 ∨ s = 0) :
    ∃ sign, UnpackedFloat.mul .binary64 (UnpackedFloat.unpack .binary64 (Word.ofRank n r))
      (UnpackedFloat.unpack .binary64 (Word.ofRank m s)) = .zero sign := by
  rcases Nat.eq_zero_or_pos r with rfl | hrpos
  · rw [unpack_zero]
    rcases Nat.eq_zero_or_pos s with rfl | hspos
    · rw [unpack_zero]
      exact ⟨_, rfl⟩
    · rw [unpack_of_pos m hspos hs]
      exact ⟨_, rfl⟩
  · obtain rfl : s = 0 := hzero.resolve_left (Nat.ne_of_gt hrpos)
    rw [unpack_zero, unpack_of_pos n hrpos hr]
    exact ⟨_, rfl⟩

namespace HasValue

variable {x y : Float} {a b c : Int}

theorem neg (hx : HasValue x a) : HasValue (-x) (-a) := by
  obtain ⟨negative, r, hr, rfl, rfl⟩ := hx
  rw [neg_ofRank negative hr, ← signedUnits_not]
  exact hasValue_ofRank _ hr

/-- **A sum that is a value is exact.** -/
theorem add (hx : HasValue x a) (hy : HasValue y b) (hz : IsValue (a + b)) :
    HasValue (x + y) (a + b) := by
  obtain ⟨n, r, hr, rfl, rfl⟩ := hx
  obtain ⟨m, s, hs, rfl, rfl⟩ := hy
  show HasValue (.ofModel (.pack (UnpackedFloat.add .binary64 (ofRank n r).toModel.unpack
    (ofRank m s).toModel.unpack))) _
  rw [unpack_ofRank n hr, unpack_ofRank m hs]
  rcases Nat.eq_zero_or_pos r with rfl | hrpos
  · rw [signedUnits_zero, Int.zero_add, unpack_zero]
    rcases Nat.eq_zero_or_pos s with rfl | hspos
    · rw [signedUnits_zero, unpack_zero]
      unfold UnpackedFloat.add
      dsimp only
      split_ifs
      · exact hasValue_pack_zero _
      · exact hasValue_pack_zero _
    · rw [unpack_of_pos m hspos hs]
      unfold UnpackedFloat.add
      exact hasValue_pack_finite m hspos hs
  rcases Nat.eq_zero_or_pos s with rfl | hspos
  · rw [signedUnits_zero, Int.add_zero, unpack_zero, unpack_of_pos n hrpos hr]
    unfold UnpackedFloat.add
    exact hasValue_pack_finite n hrpos hr
  have hmin : min (exponent r) (exponent s) = ((min (scale r) (scale s) : Nat) : Int) - 1074 := by
    unfold exponent
    omega
  rw [unpack_of_pos n hrpos hr, unpack_of_pos m hspos hs]
  unfold UnpackedFloat.add
  dsimp only
  rw [hmin]
  apply hasValue_pack_normalize hz
  rw [Int.add_mul, apply_decreaseExponent n (Nat.min_le_left _ _),
    apply_decreaseExponent m (Nat.min_le_right _ _)]

/-- A difference is the sum with the opposite. -/
theorem ofRank_sub (n m : Bool) {r s : Nat} (hr : r < infinityRank) (hs : s < infinityRank) :
    ofRank n r - ofRank m s = ofRank n r + ofRank (!m) s := by
  show Float.ofModel (.pack (UnpackedFloat.sub .binary64 (ofRank n r).toModel.unpack
    (ofRank m s).toModel.unpack)) = .ofModel (.pack (UnpackedFloat.add .binary64
      (ofRank n r).toModel.unpack (ofRank (!m) s).toModel.unpack))
  rw [unpack_ofRank n hr, unpack_ofRank m hs, unpack_ofRank (!m) hs, ← Word.neg_unpack_ofRank,
    Word.sub_eq_add_neg]

/-- **A difference that is a value is exact.** -/
theorem sub (hx : HasValue x a) (hy : HasValue y b) (hz : IsValue (a - b)) :
    HasValue (x - y) (a - b) := by
  have hopposite := hy.neg
  obtain ⟨n, r, hr, rfl, rfl⟩ := hx
  obtain ⟨m, s, hs, rfl, rfl⟩ := hy
  rw [neg_ofRank m hs] at hopposite
  rw [Int.sub_eq_add_neg] at hz ⊢
  rw [ofRank_sub n m hr hs]
  exact (hasValue_ofRank n hr).add hopposite hz

/-- **A product that is a value is exact**; two units are multiplied to a fraction of one. -/
theorem mul (hx : HasValue x a) (hy : HasValue y b) (hz : IsValue c)
    (h : a * b = c * unitsPerOne) : HasValue (x * y) c := by
  obtain ⟨n, r, hr, rfl, rfl⟩ := hx
  obtain ⟨m, s, hs, rfl, rfl⟩ := hy
  obtain ⟨t, ht, hunits⟩ := hz
  show HasValue (.ofModel (.pack (UnpackedFloat.mul .binary64 (ofRank n r).toModel.unpack
    (ofRank m s).toModel.unpack))) _
  rw [unpack_ofRank n hr, unpack_ofRank m hs]
  have hproduct : units r * units s = units t * unitsPerOne := by
    have habs := congrArg Int.natAbs h
    rw [Int.natAbs_mul, Int.natAbs_mul, natAbs_signedUnits, natAbs_signedUnits,
      Int.natAbs_natCast, ← hunits] at habs
    exact habs
  have hvalue : signedUnits (n ^^ m) t = c := by
    rw [signedUnits_mul n m hproduct] at h
    exact Int.eq_of_mul_eq_mul_right (Int.natCast_ne_zero.2 (Nat.ne_of_gt unitsPerOne_pos)) h
  rw [← hvalue]
  have hzero : t = 0 ↔ r = 0 ∨ s = 0 := by
    rw [← units_eq_zero_iff, ← units_eq_zero_iff (r := r), ← units_eq_zero_iff (r := s),
      ← Nat.mul_eq_zero, hproduct, Nat.mul_eq_zero, or_iff_left (Nat.ne_of_gt unitsPerOne_pos)]
  rcases Nat.eq_zero_or_pos t with rfl | htpos
  · obtain ⟨sign, hsign⟩ := exists_mul_eq_zero n m hr hs (hzero.1 rfl)
    rw [signedUnits_zero, hsign]
    exact hasValue_pack_zero sign
  have hpos := mt hzero.2 (Nat.ne_of_gt htpos)
  rw [not_or, ← ne_eq, ← ne_eq, ← Nat.pos_iff_ne_zero, ← Nat.pos_iff_ne_zero] at hpos
  obtain ⟨hrpos, hspos⟩ := hpos
  rw [unitsPerOne_eq] at hproduct
  obtain ⟨k, hk, hscale⟩ := exists_finer_of_mul hrpos hspos hproduct
  have hexponent : exponent r + exponent s = exponent t - k := by
    unfold exponent
    omega
  rw [unpack_of_pos n hrpos hr, unpack_of_pos m hspos hs]
  unfold UnpackedFloat.mul
  dsimp only
  rw [hk, hexponent, signOf_mul, roundWithAccuracy_significand _ htpos]
  exact hasValue_pack_finite _ htpos ht

/-! ## Remainders -/

/-- The remainder of two values is a value: it counts the finer one of their gaps, and it is
below the divisor. -/
theorem exists_units_eq_mod {r s : Nat} (hs : 0 < s) : ∃ t < s, units t = units r % units s := by
  rcases Nat.lt_or_ge (scale r) (scale s) with hlt | hle
  · have hrs : units r < units s := by
      apply units_strictMono
      rw [scale, scale] at hlt
      by_contra hge
      exact absurd (Nat.div_le_div_right (c := binade) (Nat.le_of_not_lt hge)) (by omega)
    rw [Nat.mod_eq_of_lt hrs]
    exact ⟨r, units_strictMono.lt_iff_lt.1 hrs, rfl⟩
  · obtain ⟨j, hj⟩ := Nat.exists_eq_add_of_le hle
    have hmod : units r % units s = significand r * 2 ^ j % significand s * 2 ^ scale s := by
      rw [units_eq, units_eq s, hj, pow_add, Nat.mul_comm (2 ^ scale s), ← Nat.mul_assoc,
        Nat.mul_mod_mul_right]
    have hlt : significand r * 2 ^ j % significand s < significand s :=
      Nat.mod_lt _ (significand_pos hs)
    obtain ⟨t, -, ht⟩ := exists_units_eq (scale s) (hlt.le.trans (significand_lt s).le)
    rw [hmod]
    refine ⟨t, ?_, ht⟩
    rw [← units_strictMono.lt_iff_lt, ht, units_eq]
    exact Nat.mul_lt_mul_of_pos_right hlt (Nat.two_pow_pos _)

/-- **A remainder is exact**, and it has the sign of the dividend. -/
theorem rem (hx : HasValue x a) (hy : HasValue y b) (hb : b ≠ 0) :
    HasValue (remainder x y) (a.tmod b) := by
  obtain ⟨n, r, hr, rfl, rfl⟩ := hx
  obtain ⟨m, s, hs, rfl, rfl⟩ := hy
  have hspos : 0 < s := by
    by_contra hzero
    rw [Nat.eq_zero_of_not_pos hzero, signedUnits_zero] at hb
    exact hb rfl
  obtain ⟨t, hlt, ht⟩ := exists_units_eq_mod (r := r) hspos
  have ht' : t < infinityRank := hlt.trans hs
  have hnearest : nearestRank (units r % units s) unitsPerOne = t := by
    rw [nearestRank_eq_iff unitsPerOne_pos ht', ← ht]
    exact IsNearest.self unitsPerOne_pos
  have hvalue : (signedUnits n r).tmod (signedUnits m s) = signedUnits n t := by
    unfold signedUnits
    rw [ht, Int.ofNat_tmod]
    cases n <;> cases m <;> simp
  unfold remainder
  dsimp only
  rw [rank_ofRank n hr, rank_ofRank m hs, isNegative_ofRank n hr, hnearest, hvalue,
    if_neg (by omega), if_neg (by omega)]
  exact hasValue_ofRank n ht'

end HasValue

end Binary64

end PostfixCalc

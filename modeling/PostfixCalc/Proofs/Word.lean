/-
# Words of doubles

The word of a double holds a sign, an exponent and a significand. Unless the exponent is
the greatest one, the double is finite and it can be read back from its word. So a finite
rank and a sign make a double that has them, and a change of sign changes nothing else.
-/
import Mathlib
import PostfixCalc.Proofs.Rank

namespace PostfixCalc

open Float.Model (Format UnpackedFloat)
open Float.Model.UnpackedFloat

namespace Word

/-- The word of the given fields. -/
abbrev ofFields (s : Sign) (e : BitVec 11) (m : BitVec 52) : BitVec Format.binary64.numBits :=
  packComponents .binary64 s e m

variable (s : Sign) (e : BitVec 11) (m : BitVec 52)

/-! ## Fields -/

theorem toNat_ofFields :
    (ofFields s e m).toNat = s.toBitVec.toNat * 2 ^ 63 + e.toNat * 2 ^ 52 + m.toNat := by
  have hm := m.isLt
  have he := e.isLt
  have hse : (s.toBitVec ++ e).toNat = s.toBitVec.toNat * 2 ^ 11 + e.toNat := by
    rw [BitVec.toNat_append, ← Nat.shiftLeft_add_eq_or_of_lt he, Nat.shiftLeft_eq]
  have hsem : (ofFields s e m).toNat = (s.toBitVec ++ e).toNat * 2 ^ 52 + m.toNat := by
    rw [ofFields, packComponents, BitVec.toNat_append, ← Nat.shiftLeft_add_eq_or_of_lt hm,
      Nat.shiftLeft_eq]
  rw [hsem, hse]
  omega

theorem ofBitVec_unpackSign : Sign.ofBitVec (unpackSign (ofFields s e m)) = s := by
  have hbits : unpackSign (ofFields s e m) = s.toBitVec := by
    apply BitVec.eq_of_toNat_eq
    have hm := m.isLt
    have he := e.isLt
    have hs := s.toBitVec.isLt
    simp only [unpackSign, BitVec.toNat_cast, BitVec.extractLsb_toNat, Nat.shiftRight_eq_div_pow]
    rw [toNat_ofFields]
    omega
  rw [hbits]
  cases s <;> rfl

/-- The exponent of a word, as a number. -/
theorem toNat_unpackExponent (b : BitVec Format.binary64.numBits) :
    (unpackExponent b).toNat = b.toNat / 2 ^ 52 % 2 ^ 11 := by
  simp only [unpackExponent, BitVec.toNat_cast, BitVec.extractLsb_toNat,
    Nat.shiftRight_eq_div_pow]

/-! ## Reading a word -/

/-- A double is finite unless its exponent is the greatest one. -/
theorem isFinite_unpack (b : BitVec Format.binary64.numBits) :
    (UnpackedFloat.unpack .binary64 b).isFinite = true ↔ unpackExponent b ≠ -1#11 := by
  rw [UnpackedFloat.unpack]
  split_ifs <;> simp_all [UnpackedFloat.isFinite]

/-- A significand with the implicit bit has 53 bits. -/
theorem log2_implicit : (1#1 ++ m).toNat.log2 + 1 = Format.binary64.mantissaBits := by
  have hm := m.isLt
  have happend : (1#1 ++ m).toNat = 2 ^ 52 + m.toNat := by
    rw [BitVec.toNat_append, ← Nat.shiftLeft_add_eq_or_of_lt hm, Nat.shiftLeft_eq]
    rfl
  have hlog : (1#1 ++ m).toNat.log2 = 52 := by
    rw [happend, Nat.log2_eq_iff (by omega)]
    omega
  rw [hlog]
  rfl

/-- Unless the exponent is the greatest one, a word is packed again from what is unpacked. -/
theorem pack_unpack (he : e ≠ -1#11) :
    UnpackedFloat.pack .binary64 (UnpackedFloat.unpack .binary64 (ofFields s e m)) =
      ofFields s e m := by
  have hbound : e.toNat < 2047 := by
    have hne : e.toNat ≠ 2047 := fun h => he (BitVec.eq_of_toNat_eq h)
    have := e.isLt
    omega
  have hbias : ((Format.binary64.exponentBias : Nat) : Int) = 1023 := rfl
  have hbits : ((Format.binary64.mantissaBitsWithoutImplicit : Nat) : Int) = 52 := rfl
  have hsign := ofBitVec_unpackSign s e m
  rw [UnpackedFloat.unpack]
  simp only [unpackMantissa_packComponents, unpackExponent_packComponents, hsign]
  rw [if_neg he]
  split_ifs with hzero hm
  · -- zero
    rw [hzero, hm]
    rfl
  · -- the first binade, where the significand has no implicit bit
    have hexp : ((e.toNat : Int) - (1023 + 52) + 1 + 1023 + 52).toNat = 1 := by
      rw [hzero]
      rfl
    have hlog : m.toNat.log2 + 1 ≠ Format.binary64.mantissaBits := by
      have hpos : m.toNat ≠ 0 := fun h => hm (BitVec.eq_of_toNat_eq h)
      have hlt := (Nat.log2_lt hpos).2 m.isLt
      have hfull : Format.binary64.mantissaBits = 53 := rfl
      omega
    rw [UnpackedFloat.pack]
    simp only [hbias, hbits, hexp]
    rw [if_neg (by decide), if_neg hlog, BitVec.ofNat_toNat, BitVec.setWidth_eq, hzero]
  · -- the implicit bit is put in front, and cut off again
    have hexp : ((e.toNat : Int) - (1023 + 52) + 1023 + 52).toNat = e.toNat := by omega
    rw [UnpackedFloat.pack]
    simp only [hbias, hbits, hexp]
    have hsmall : ¬ 2 ^ 11 ≤ e.toNat + 1 := by omega
    rw [if_neg hsmall, if_pos (log2_implicit m)]
    have hm : BitVec.ofNat 52 (1#1 ++ m).toNat = m := by
      apply BitVec.eq_of_toNat_eq
      rw [BitVec.toNat_ofNat, BitVec.toNat_append, ← Nat.shiftLeft_add_eq_or_of_lt m.isLt,
        Nat.shiftLeft_eq]
      have := m.isLt
      omega
    rw [hm, BitVec.ofNat_toNat, BitVec.setWidth_eq]

/-- A change of sign changes the sign of the word. -/
theorem neg_unpack :
    (UnpackedFloat.unpack .binary64 (ofFields s e m)).neg =
      UnpackedFloat.unpack .binary64 (ofFields (-s) e m) := by
  have hsign := ofBitVec_unpackSign s e m
  have hsign' := ofBitVec_unpackSign (-s) e m
  rw [UnpackedFloat.unpack, UnpackedFloat.unpack]
  simp only [unpackMantissa_packComponents, unpackExponent_packComponents, hsign, hsign']
  split_ifs <;> rfl

/-! ## Signs and ranks -/

/-- The sign that a flag stands for. -/
def signOf (negative : Bool) : Sign := if negative then .negative else .positive

/-- The word of a sign and a finite rank. -/
def ofRank (negative : Bool) (r : Nat) : BitVec Format.binary64.numBits :=
  ofFields (signOf negative) (BitVec.ofNat 11 (r / 2 ^ 52)) (BitVec.ofNat 52 (r % 2 ^ 52))

theorem exponent_ne {r : Nat} (hr : r < Binary64.infinityRank) :
    BitVec.ofNat 11 (r / 2 ^ 52) ≠ -1#11 := by
  intro h
  have hexp : r / 2 ^ 52 % 2 ^ 11 = 2047 := congrArg BitVec.toNat h
  rw [Binary64.infinityRank_eq] at hr
  omega

theorem toNat_ofRank (negative : Bool) {r : Nat} (hr : r < Binary64.infinityRank) :
    (ofRank negative r).toNat = if negative then Binary64.signWeight + r else r := by
  rw [Binary64.infinityRank_eq] at hr
  rw [ofRank, toNat_ofFields, BitVec.toNat_ofNat, BitVec.toNat_ofNat, Binary64.signWeight_eq]
  cases negative with
  | false =>
    show 0 * 2 ^ 63 + _ + _ = r
    omega
  | true =>
    show 1 * 2 ^ 63 + _ + _ = 2 ^ 63 + r
    omega

/-- The word of a sign and a finite rank is packed again from what is unpacked. -/
theorem pack_unpack_ofRank (negative : Bool) {r : Nat} (hr : r < Binary64.infinityRank) :
    UnpackedFloat.pack .binary64 (UnpackedFloat.unpack .binary64 (ofRank negative r)) =
      ofRank negative r :=
  pack_unpack _ _ _ (exponent_ne hr)

theorem neg_unpack_ofRank (negative : Bool) (r : Nat) :
    (UnpackedFloat.unpack .binary64 (ofRank negative r)).neg =
      UnpackedFloat.unpack .binary64 (ofRank (!negative) r) := by
  rw [ofRank, neg_unpack]
  cases negative <;> rfl

end Word

namespace Binary64

/-- The double of a sign and a finite rank has the word of that sign and rank. -/
theorem ofRank_eq (negative : Bool) {r : Nat} (hr : r < infinityRank) :
    ofRank negative r =
      .ofModel (.pack (UnpackedFloat.unpack .binary64 (Word.ofRank negative r))) := by
  have hword : (UInt64.ofNat (if negative then signWeight + r else r)).toBitVec =
      Word.ofRank negative r := by
    apply BitVec.eq_of_toNat_eq
    rw [Word.toNat_ofRank negative hr, UInt64.toNat_toBitVec, UInt64.toNat_ofNat']
    rw [infinityRank_eq] at hr
    rw [signWeight_eq]
    split_ifs <;> omega
  rw [ofRank, ← hword]
  rfl

theorem toBits_ofRank (negative : Bool) {r : Nat} (hr : r < infinityRank) :
    (ofRank negative r).toBits.toNat = if negative then signWeight + r else r := by
  rw [ofRank_eq negative hr, ← Word.toNat_ofRank negative hr]
  exact congrArg BitVec.toNat (Word.pack_unpack_ofRank negative hr)

theorem rank_ofRank (negative : Bool) {r : Nat} (hr : r < infinityRank) :
    rank (ofRank negative r) = r := by
  rw [rank, toBits_ofRank negative hr, signWeight_eq]
  rw [infinityRank_eq] at hr
  split_ifs <;> omega

theorem isNegative_ofRank (negative : Bool) {r : Nat} (hr : r < infinityRank) :
    isNegative (ofRank negative r) = negative := by
  rw [isNegative, toBits_ofRank negative hr, signWeight_eq]
  rw [infinityRank_eq] at hr
  cases negative
  · exact decide_eq_false (by simp only [Bool.false_eq_true, if_false]; omega)
  · exact decide_eq_true (by simp only [if_true]; omega)

/-- A change of sign keeps the rank. -/
theorem neg_ofRank (negative : Bool) {r : Nat} (hr : r < infinityRank) :
    -ofRank negative r = ofRank (!negative) r := by
  rw [ofRank_eq negative hr, ofRank_eq (!negative) hr, ← Word.neg_unpack_ofRank]
  show Float.ofModel (.pack (UnpackedFloat.neg (UnpackedFloat.unpack .binary64
    (UnpackedFloat.pack .binary64 (UnpackedFloat.unpack .binary64 (Word.ofRank negative r)))))) = _
  rw [Word.pack_unpack_ofRank negative hr]

/-- A double is finite exactly when its rank is. -/
theorem isFinite_iff (x : Float) : x.isFinite = true ↔ rank x < infinityRank := by
  have hexp := Word.toNat_unpackExponent x.toBits.toBitVec
  have hvalid : x.toBits.toNat / 2 ^ 52 % 2 ^ 11 ≠ 2047 ↔ rank x < infinityRank := by
    rw [rank, infinityRank_eq, signWeight_eq]
    omega
  rw [← hvalid]
  refine (Word.isFinite_unpack x.toBits.toBitVec).trans (not_congr ?_)
  constructor
  · intro h
    rw [h] at hexp
    exact hexp.symm
  · intro h
    exact BitVec.eq_of_toNat_eq (hexp.trans h)

end Binary64

end PostfixCalc

/-
# Decimal texts read back

A row of digits and points is a numeral if it has a digit and no second point. The text of
a decimal is such a row, and as a numeral it stands for the double nearest to the decimal.
-/
import Mathlib
import PostfixCalc.Decimal
import PostfixCalc.Decimal.Numeral

namespace PostfixCalc

/-! ## Digits -/

theorem isAlpha_eq_false_of_isDigit {c : Char} (hc : c.isDigit) : c.isAlpha = false := by
  rw [Char.isDigit_iff_toNat] at hc
  -- the code of '9', below those of 'A' and 'a'
  have hlow : c.toNat ≤ 57 := hc.2
  have hupper : c.isUpper = false := decide_eq_false fun h => by
    have : 65 ≤ c.toNat := h.1
    omega
  have hlower : c.isLower = false := by
    rw [Char.isLower, Bool.and_eq_false_iff]
    refine Or.inl (decide_eq_false fun h => ?_)
    have : 97 ≤ c.toNat := h
    omega
  rw [Char.isAlpha, hupper, hlower]
  rfl

namespace Numeral

theorem digitsValue_eq (ds : List Char) : digitsValue ds = Nat.ofDigitChars 10 ds 0 := rfl

theorem digitsValue_append (ds es : List Char) :
    digitsValue (ds ++ es) = 10 ^ es.length * digitsValue ds + digitsValue es := by
  rw [digitsValue_eq, digitsValue_eq, digitsValue_eq, Nat.ofDigitChars_append,
    Nat.ofDigitChars_eq_ofDigitChars_zero]

theorem digitsValue_toDigits (n : Nat) : digitsValue (Nat.toDigits 10 n) = n :=
  Nat.ofDigitChars_ten_toDigits

/-! ## Reading a row of digits with a point -/

variable {whole fraction rest : List Char}

/-- The digits before the first point of a row are read up to that point. -/
theorem span_isDigit_point (hw : ∀ c ∈ whole, c.isDigit) (rest : List Char) :
    (whole ++ '.' :: rest).takeWhile Char.isDigit = whole ∧
      (whole ++ '.' :: rest).dropWhile Char.isDigit = '.' :: rest := by
  constructor
  · rw [List.takeWhile_append_of_pos hw, List.takeWhile_cons_of_neg (by decide), List.append_nil]
  · rw [List.dropWhile_append_of_pos hw, List.dropWhile_cons_of_neg (by decide)]

/-- A row of digits, a point and more digits are read as one numeral. -/
theorem read?_point (hne : whole ≠ [] ∨ fraction ≠ []) (hw : ∀ c ∈ whole, c.isDigit)
    (hf : ∀ c ∈ fraction, c.isDigit) :
    read? (whole ++ '.' :: fraction) =
      some ⟨digitsValue (whole ++ fraction), 0 - fraction.length⟩ := by
  obtain ⟨htake, hdrop⟩ := span_isDigit_point hw fraction
  rw [read?, htake, hdrop]
  simp only [splitFraction, List.takeWhile_eq_self_iff.2 hf, List.dropWhile_eq_nil_iff.2 hf]
  rw [if_neg fun h => hne.elim (· h.1) (· h.2)]
  rfl

/-- A row with a second point is no numeral. -/
theorem read?_two_points (hw : ∀ c ∈ whole, c.isDigit) (hf : ∀ c ∈ fraction, c.isDigit)
    (rest : List Char) : read? (whole ++ '.' :: (fraction ++ '.' :: rest)) = none := by
  have hexponent : readExponent? ('.' :: rest) = none := by
    have hletter : ('.' : Char).toLower ≠ 'e' := by decide
    rw [readExponent?]
    exact if_neg fun h => hletter h.1
  obtain ⟨htake, hdrop⟩ := span_isDigit_point hw (fraction ++ '.' :: rest)
  obtain ⟨htake', hdrop'⟩ := span_isDigit_point hf rest
  rw [read?, htake, hdrop]
  simp only [splitFraction, htake', hdrop', hexponent, Option.map_none, ite_self]

/-- A row of digits is read as a whole number. -/
theorem read?_digits (hne : whole ≠ []) (hw : ∀ c ∈ whole, c.isDigit) :
    read? whole = some ⟨digitsValue whole, 0⟩ := by
  rw [read?, List.takeWhile_eq_self_iff.2 hw, List.dropWhile_eq_nil_iff.2 hw]
  simp only [splitFraction, List.append_nil]
  rw [if_neg fun h => hne h.1]
  rfl

/-- A row that begins with a digit or a point has no sign. -/
theorem splitSign_of_head {c : Char} {cs : List Char} (hc : c.isDigit ∨ c = '.') :
    splitSign (c :: cs) = (false, c :: cs) := by
  rw [splitSign]
  · rintro _ ⟨rfl, -⟩
    exact absurd hc (by decide)
  · rintro _ ⟨rfl, -⟩
    exact absurd hc (by decide)

/-- A text that begins with a digit or a point has no sign and is no word. -/
theorem value?_of_head {c : Char} {cs : List Char} (hc : c.isDigit ∨ c = '.') :
    value? (String.ofList (c :: cs)) =
      (read? (c :: cs)).map fun n => Binary64.ofRank false n.nearestRank := by
  have hletter : c.isAlpha = false := by
    rcases hc with hc | rfl
    · exact isAlpha_eq_false_of_isDigit hc
    · rfl
  have hword : ∀ w ws, w.isAlpha = true → (c :: cs).map Char.toLower ≠ w :: ws := by
    intro w ws hw h
    have hhead : c.toLower = w := (List.cons.inj h).1
    rw [← hhead, Char.isAlpha_toLower_eq_isAlpha, hletter] at hw
    cases hw
  have hnan : (c :: cs).map Char.toLower ≠ "nan".toList := hword 'n' ['a', 'n'] rfl
  have hinf : ¬ ((c :: cs).map Char.toLower = "inf".toList ∨
      (c :: cs).map Char.toLower = "infinity".toList) :=
    not_or_intro (hword 'i' ['n', 'f'] rfl) (hword 'i' ['n', 'f', 'i', 'n', 'i', 't', 'y'] rfl)
  rw [value?, String.toList_ofList, splitSign_of_head hc]
  simp only [if_neg hnan, readRank?, if_neg hinf, Option.map_map]
  rfl

/-! ## Rows of digits and points -/

/-- A row of digits and points consists of digits only, or a point follows some digits. -/
theorem digits_or_point {cs : List Char} (hcs : ∀ c ∈ cs, c.isDigit ∨ c = '.') :
    (∀ c ∈ cs, c.isDigit) ∨ ∃ ds rest, cs = ds ++ '.' :: rest ∧ ∀ c ∈ ds, c.isDigit := by
  induction cs with
  | nil => exact Or.inl (by simp)
  | cons c cs ih =>
    rw [List.forall_mem_cons] at hcs
    rcases hcs.1 with hc | rfl
    · rcases ih hcs.2 with hdigits | ⟨ds, rest, rfl, hds⟩
      · exact Or.inl (List.forall_mem_cons.2 ⟨hc, hdigits⟩)
      · exact Or.inr ⟨c :: ds, rest, rfl, List.forall_mem_cons.2 ⟨hc, hds⟩⟩
    · exact Or.inr ⟨[], cs, rfl, by simp⟩

theorem count_point_eq_zero {cs : List Char} (hcs : ∀ c ∈ cs, c.isDigit) : cs.count '.' = 0 := by
  rw [List.count_eq_zero]
  intro hmem
  cases hcs '.' hmem

/-- A row of digits and points is read if it has a digit and no second point. -/
theorem isSome_read?_iff {cs : List Char} (hcs : ∀ c ∈ cs, c.isDigit ∨ c = '.') :
    (read? cs).isSome ↔ (∃ c ∈ cs, c.isDigit) ∧ cs.count '.' ≤ 1 := by
  rcases digits_or_point hcs with hdigits | ⟨ds, rest, rfl, hds⟩
  · rcases cs with _ | ⟨c, cs⟩
    · simp [read?, splitFraction]
    · have hc : c.isDigit := hdigits c List.mem_cons_self
      rw [read?_digits (List.cons_ne_nil c cs) hdigits, count_point_eq_zero hdigits]
      simp [hc]
  have hrest : ∀ c ∈ rest, c.isDigit ∨ c = '.' := fun c hc => hcs c (by simp [hc])
  rcases digits_or_point hrest with hfraction | ⟨es, rest', rfl, hes⟩
  · have hcount : (ds ++ '.' :: rest).count '.' = 1 := by
      simp [count_point_eq_zero hds, count_point_eq_zero hfraction]
    rw [hcount]
    by_cases hne : ds ≠ [] ∨ rest ≠ []
    · rw [read?_point hne hds hfraction]
      simp only [Option.isSome_some, le_refl, and_true, true_iff]
      rcases hne with hne | hne
      · obtain ⟨c, hc⟩ := List.exists_mem_of_ne_nil ds hne
        exact ⟨c, by simp [hc], hds c hc⟩
      · obtain ⟨c, hc⟩ := List.exists_mem_of_ne_nil rest hne
        exact ⟨c, by simp [hc], hfraction c hc⟩
    · -- a point alone
      rw [not_or, not_not, not_not] at hne
      obtain ⟨rfl, rfl⟩ := hne
      simp [read?, splitFraction]
  · have hcount : 1 < (ds ++ '.' :: (es ++ '.' :: rest')).count '.' := by
      simp only [List.count_append, List.count_cons_self]
      omega
    rw [read?_two_points hds hes]
    simp only [Option.isSome_none, Bool.false_eq_true, false_iff, not_and, not_le]
    exact fun _ => hcount

/-- **Which rows of digits and points are numerals**: those with a digit and no second
point. -/
theorem isSome_value?_iff {cs : List Char} (hcs : ∀ c ∈ cs, c.isDigit ∨ c = '.') :
    (value? (String.ofList cs)).isSome ↔ (∃ c ∈ cs, c.isDigit) ∧ cs.count '.' ≤ 1 := by
  rcases cs with _ | ⟨c, cs⟩
  · simp [value?, splitSign, readRank?, read?, splitFraction]
  · rw [value?_of_head (hcs c List.mem_cons_self), Option.isSome_map, isSome_read?_iff hcs]

end Numeral

namespace Decimal

/-! ## The text of a decimal -/

theorem denominator_eq (d : Decimal) : d.denominator = 10 ^ d.places := rfl

theorem denominator_pos (d : Decimal) : 0 < d.denominator := Nat.pow_pos (by decide)

theorem isDigit_of_mem_toDigits {n : Nat} : ∀ c ∈ Nat.toDigits 10 n, c.isDigit :=
  fun _ => Nat.isDigit_of_mem_toDigits (by decide) (by decide)

theorem isDigit_of_mem_padded {width n : Nat} : ∀ c ∈ padded width n, c.isDigit := by
  intro c hc
  rw [padded, List.mem_append] at hc
  rcases hc with hc | hc
  · rw [(List.mem_replicate.1 hc).2]
    rfl
  · exact isDigit_of_mem_toDigits c hc

theorem digitsValue_padded (width n : Nat) : Numeral.digitsValue (padded width n) = n := by
  rw [padded, Numeral.digitsValue_append, Numeral.digitsValue_toDigits]
  have hzeros : Numeral.digitsValue
      (List.replicate (width - (Nat.toDigits 10 n).length) '0') = 0 := by
    rw [Numeral.digitsValue_eq, Nat.ofDigitChars_replicate_zero, Nat.mul_zero]
  rw [hzeros, Nat.mul_zero, Nat.zero_add]

theorem length_padded {width n : Nat} (hwidth : 0 < width) (hn : n < 10 ^ width) :
    (padded width n).length = width := by
  have hle : (Nat.toDigits 10 n).length ≤ width :=
    (Nat.length_toDigits_le_iff (by decide) hwidth).2 hn
  rw [padded, List.length_append, List.length_replicate]
  omega

/-- The text of a decimal as a numeral. -/
theorem read?_chars (d : Decimal) :
    Numeral.read? d.chars = some ⟨d.coefficient, 0 - d.places⟩ := by
  rw [chars]
  split_ifs with hplaces
  · rw [Numeral.read?_digits Nat.toDigits_ne_nil isDigit_of_mem_toDigits,
      Numeral.digitsValue_toDigits, hplaces]
    rfl
  · have hlength : (padded d.places (d.coefficient % d.denominator)).length = d.places :=
      length_padded (Nat.pos_of_ne_zero hplaces) (Nat.mod_lt _ d.denominator_pos)
    rw [Numeral.read?_point (Or.inl Nat.toDigits_ne_nil) isDigit_of_mem_toDigits
      isDigit_of_mem_padded, Numeral.digitsValue_append, hlength, Numeral.digitsValue_toDigits, digitsValue_padded,
      ← denominator_eq, Nat.div_add_mod]

/-- The text of a decimal begins with a digit. -/
theorem exists_chars_eq_cons (d : Decimal) : ∃ c cs, d.chars = c :: cs ∧ c.isDigit := by
  have hhead : ∀ n rest, ∃ c cs, Nat.toDigits 10 n ++ rest = c :: cs ∧ c.isDigit := by
    intro n rest
    obtain ⟨c, cs, hcs⟩ := List.exists_cons_of_ne_nil (Nat.toDigits_ne_nil (n := n) (b := 10))
    have hc : c.isDigit := isDigit_of_mem_toDigits c (hcs ▸ List.mem_cons_self)
    exact ⟨c, cs ++ rest, by rw [hcs, List.cons_append], hc⟩
  rw [chars]
  split_ifs
  · simpa using hhead d.coefficient []
  · exact hhead _ _

/-- The text of a decimal holds digits and points only. -/
theorem isDigit_or_eq_of_mem_chars {d : Decimal} {c : Char} (hc : c ∈ d.chars) :
    c.isDigit ∨ c = '.' := by
  rw [chars] at hc
  split_ifs at hc
  · exact Or.inl (isDigit_of_mem_toDigits c hc)
  · rw [List.mem_append, List.mem_cons] at hc
    rcases hc with hc | rfl | hc
    · exact Or.inl (isDigit_of_mem_toDigits c hc)
    · exact Or.inr rfl
    · exact Or.inl (isDigit_of_mem_padded c hc)

/-- **Decimal texts read back**: the text of a decimal stands for the double nearest to it. -/
theorem value?_text (d : Decimal) :
    Numeral.value? d.text = some (Binary64.ofRank false d.nearestRank) := by
  obtain ⟨c, cs, hcs, hc⟩ := d.exists_chars_eq_cons
  have hplaces : (-(0 - (d.places : Int))).toNat = d.places := by omega
  have hscale : (0 - (d.places : Int)).toNat = 0 := by omega
  rw [text, hcs, Numeral.value?_of_head (Or.inl hc), ← hcs, read?_chars, Option.map_some,
    Numeral.nearestRank, hplaces, hscale, nearestRank, denominator]
  exact congrArg (fun n => some (Binary64.ofRank false (Binary64.nearestRank n _)))
    (Nat.mul_one d.coefficient)

end Decimal

end PostfixCalc

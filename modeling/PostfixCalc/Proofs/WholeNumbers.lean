/-
# Whole numbers are calculated exactly

Every whole number up to `2 ^ 53` is the value of a double, so sums, differences, products and
remainders that stay within this limit need no rounding, and the text of a whole number within
the limit is its decimal writing. An expression of such operations is therefore evaluated as
one of whole numbers. Where a zero of the other sign comes out, its sign is not shown.
-/
import PostfixCalc.Proofs.Exact
import PostfixCalc.Proofs.Grammar
import PostfixCalc.Proofs.Rendering
import PostfixCalc.Proofs.Shortest

namespace PostfixCalc

open Binary64

/-! ## Calculating with whole numbers -/

/-- The limit up to which every whole number is the value of a double. -/
def wholeLimit : Nat := 2 ^ 53

/-- A whole number, unless it passes the limit. -/
def withinLimit? (z : Int) : Option Int := if z.natAbs ≤ wholeLimit then some z else none

theorem withinLimit?_eq_some_iff {y z : Int} :
    withinLimit? y = some z ↔ y = z ∧ z.natAbs ≤ wholeLimit := by
  unfold withinLimit?
  split_ifs with h
  · rw [Option.some_inj]
    constructor
    · rintro rfl
      exact ⟨rfl, h⟩
    · exact And.left
  · constructor
    · intro hnone
      cases hnone
    · rintro ⟨rfl, hle⟩
      exact absurd hle h

/-- The sum, difference, product or truncated remainder of whole numbers, unless it passes the
limit or there is no remainder. -/
def BinaryOp.whole? : BinaryOp → Int → Int → Option Int
  | .add, a, b => withinLimit? (a + b)
  | .sub, a, b => withinLimit? (a - b)
  | .mul, a, b => withinLimit? (a * b)
  | .rem, a, b => if b = 0 then none else withinLimit? (a.tmod b)
  | _, _, _ => none

/-- The whole number that an expression of decimal digits, changes of sign, sums, differences,
products and remainders stands for, unless one of its parts passes the limit. -/
def Expr.wholeValue? : Expr → Option Int
  | number text =>
    if text.toList ≠ [] ∧ text.toList.all Char.isDigit then
      withinLimit? (Nat.ofDigitChars 10 text.toList 0)
    else none
  | neg x => x.wholeValue?.map (- ·)
  | binary op x y => do op.whole? (← x.wholeValue?) (← y.wholeValue?)
  | _ => none

/-- A double with the value of a whole number. -/
def IsWholeNumber (x : Float) (z : Int) : Prop :=
  z.natAbs ≤ wholeLimit ∧ HasValue x (z * unitsPerOne)

/-! ## Whole numbers among the doubles -/

/-- Up to the limit every whole number is the value of a finite rank. -/
theorem exists_units_eq_whole {n : Nat} (hn : n ≤ wholeLimit) :
    ∃ r < infinityRank, units r = n * unitsPerOne := by
  obtain ⟨r, hr, hunits⟩ := exists_units_eq 1074 (m := n) (hn.trans (by decide))
  refine ⟨r, ?_, ?_⟩
  · rw [infinityRank_eq]
    rw [binade_eq] at hr
    omega
  · rw [hunits, unitsPerOne_eq]

theorem isValue_whole {z : Int} (hz : z.natAbs ≤ wholeLimit) : IsValue (z * unitsPerOne) := by
  obtain ⟨r, hr, hunits⟩ := exists_units_eq_whole hz
  refine ⟨r, hr, ?_⟩
  rw [hunits, Int.natAbs_mul, Int.natAbs_natCast]

namespace IsWholeNumber

variable {x y : Float} {a b c : Int}

theorem neg (hx : IsWholeNumber x a) : IsWholeNumber (-x) (-a) := by
  refine ⟨?_, ?_⟩
  · rw [Int.natAbs_neg]
    exact hx.1
  · rw [Int.neg_mul]
    exact hx.2.neg

/-- **One operation is exact**, as long as its outcome keeps within the limit. -/
theorem meaning {op : BinaryOp} (hx : IsWholeNumber x a) (hy : IsWholeNumber y b)
    (h : op.whole? a b = some c) : IsWholeNumber (op.meaning x y) c := by
  cases op with
  | add =>
    obtain ⟨rfl, hle⟩ := withinLimit?_eq_some_iff.1 h
    have hz := isValue_whole hle
    rw [Int.add_mul] at hz
    refine ⟨hle, ?_⟩
    rw [Int.add_mul]
    exact hx.2.add hy.2 hz
  | sub =>
    obtain ⟨rfl, hle⟩ := withinLimit?_eq_some_iff.1 h
    have hz := isValue_whole hle
    rw [Int.sub_mul] at hz
    refine ⟨hle, ?_⟩
    rw [Int.sub_mul]
    exact hx.2.sub hy.2 hz
  | mul =>
    obtain ⟨rfl, hle⟩ := withinLimit?_eq_some_iff.1 h
    refine ⟨hle, hx.2.mul hy.2 (isValue_whole hle) ?_⟩
    ring
  | rem =>
    unfold BinaryOp.whole? at h
    dsimp only at h
    split_ifs at h with hb
    obtain ⟨rfl, hle⟩ := withinLimit?_eq_some_iff.1 h
    have hone : (0 : Int) < unitsPerOne := Int.natCast_pos.2 unitsPerOne_pos
    have hrem := hx.2.rem hy.2 (Int.mul_ne_zero hb (Int.ne_of_gt hone))
    rw [Int.mul_comm a, Int.mul_comm b, Int.mul_tmod_mul_of_pos _ _ hone, Int.mul_comm] at hrem
    exact ⟨hle, hrem⟩
  | div => cases h
  | pow => cases h

end IsWholeNumber

/-! ## Literals -/

/-- A row of digits is read as the whole number that it writes. -/
theorem exists_value?_digits {text : String} (hne : text.toList ≠ [])
    (hdigits : ∀ c ∈ text.toList, c.isDigit)
    (hle : Nat.ofDigitChars 10 text.toList 0 ≤ wholeLimit) :
    ∃ x, Numeral.value? text = some x ∧
      IsWholeNumber x (Nat.ofDigitChars 10 text.toList 0) := by
  obtain ⟨n, hn⟩ : ∃ n, Nat.ofDigitChars 10 text.toList 0 = n := ⟨_, rfl⟩
  rw [hn] at hle ⊢
  obtain ⟨r, hr, hunits⟩ := exists_units_eq_whole hle
  have hvalue : Numeral.value? text = some (ofRank false r) := by
    obtain ⟨c, cs, hcs⟩ := List.exists_cons_of_ne_nil hne
    have hread := Numeral.read?_digits hne hdigits
    have hhead := @Numeral.value?_of_head c cs (Or.inl (hdigits c (hcs ▸ List.mem_cons_self)))
    rw [← hcs, hread, String.ofList_toList, Numeral.digitsValue_eq, hn] at hhead
    rw [hhead, Option.map_some, Option.some_inj]
    have hnearest : (⟨n, 0⟩ : Decimal).nearestRank = r := Decimal.nearestRank_whole hr hunits
    rw [← hnearest]
    show ofRank false (Binary64.nearestRank (n * 1) 1) = ofRank false (Binary64.nearestRank n 1)
    rw [Nat.mul_one]
  refine ⟨_, hvalue, hle, ?_⟩
  have hsigned : signedUnits false r = (n : Int) * unitsPerOne := by
    unfold signedUnits
    rw [hunits]
    exact Nat.cast_mul n unitsPerOne
  rw [← hsigned]
  exact hasValue_ofRank false hr

/-- **An expression of whole numbers has the value of one.** -/
theorem Expr.exists_value_of_wholeValue? {e : Expr} {z : Int} (h : e.wholeValue? = some z) :
    ∃ x, e.value = .ok x ∧ IsWholeNumber x z := by
  induction e generalizing z with
  | number text =>
    unfold wholeValue? at h
    split_ifs at h with hdigits
    obtain ⟨rfl, hle⟩ := withinLimit?_eq_some_iff.1 h
    obtain ⟨x, hx, hwhole⟩ := exists_value?_digits hdigits.1 (List.all_eq_true.1 hdigits.2) hle
    refine ⟨x, ?_, hwhole⟩
    unfold value
    rw [hx]
  | neg x ih =>
    unfold wholeValue? at h
    obtain ⟨a, ha, rfl⟩ := Option.map_eq_some_iff.1 h
    obtain ⟨v, hv, hwhole⟩ := ih ha
    refine ⟨-v, ?_, hwhole.neg⟩
    unfold value
    rw [hv]
    rfl
  | binary op x y ihx ihy =>
    unfold wholeValue? at h
    obtain ⟨a, ha, h⟩ := Option.bind_eq_some_iff.1 h
    obtain ⟨b, hb, h⟩ := Option.bind_eq_some_iff.1 h
    obtain ⟨v, hv, hwhole⟩ := ihx ha
    obtain ⟨w, hw, hwhole'⟩ := ihy hb
    refine ⟨op.meaning v w, ?_, hwhole.meaning hwhole' h⟩
    unfold value
    rw [hv, hw]
    rfl
  | constant c => cases h
  | call f x ih => cases h
  | callPow x y ihx ihy => cases h

/-! ## The text of a whole number -/

theorem isWhole_of_units_eq {n r : Nat} (h : units r = n * unitsPerOne) : isWhole r := by
  unfold isWhole
  rw [h, Nat.mul_mod_left]
  rfl

/-- Of even whole numbers only the value itself reads back, up to the limit: an even number
above the limit is not nearest to a rank below it. -/
theorem eq_of_nearestRank_even {n c r : Nat} (hr : r < infinityRank)
    (hn : units r = n * unitsPerOne) (hle : n ≤ wholeLimit) (heven : c % 2 = 0)
    (hc : (⟨c, 0⟩ : Decimal).nearestRank = r) : c = n := by
  have hnearest : IsNearest (c * unitsPerOne) 1 r := (nearestRank_eq_iff Nat.one_pos hr).1 hc
  by_cases hlimit : c ≤ wholeLimit
  · obtain ⟨s, hs, hunits⟩ := exists_units_eq_whole hlimit
    have hback := Decimal.nearestRank_whole hs hunits
    rw [hc] at hback
    rw [← hback, hn] at hunits
    exact (Nat.eq_of_mul_eq_mul_right unitsPerOne_pos hunits).symm
  · -- the next even number is the value of a rank above the one of `n`
    have hcount : ∀ k, (2 ^ 52 + 1) * 2 ^ (k + 1) = (wholeLimit + 2) * 2 ^ k := by
      intro k
      rw [pow_succ]
      unfold wholeLimit
      ring
    obtain ⟨s, -, hs⟩ := exists_units_eq (1074 + 1) (m := 2 ^ 52 + 1) (by decide)
    rw [hcount, ← unitsPerOne_eq] at hs
    have hself : IsNearest (units s * 1) 1 s := IsNearest.self Nat.one_pos
    rw [hs, Nat.mul_one] at hself
    have hnext : wholeLimit + 2 ≤ c := by
      unfold wholeLimit at hlimit ⊢
      omega
    have hsr : s ≤ r := hself.mono hnearest (Nat.mul_le_mul_right _ hnext) Nat.one_pos
    have hunits := units_strictMono.monotone hsr
    rw [hs, hn] at hunits
    have := Nat.le_of_mul_le_mul_right hunits unitsPerOne_pos
    omega

/-- The shortest decimal of a whole number within the limit is the number itself. -/
theorem shortest_eq_of_whole {n r : Nat} (hr : r < infinityRank)
    (hn : units r = n * unitsPerOne) (hle : n ≤ wholeLimit) : Decimal.shortest r = ⟨n, 0⟩ := by
  have hplaces := Decimal.places_shortest_of_isWhole hr (isWhole_of_units_eq hn)
  have hback := Decimal.nearestRank_shortest hr
  obtain ⟨before, g, after, hall, hg, -⟩ := Decimal.exists_grid_of_shortest hr
  obtain ⟨⟨c, places⟩, hd⟩ : ∃ d, Decimal.shortest r = d := ⟨_, rfl⟩
  rw [hd] at hplaces hback hg ⊢
  obtain rfl : places = 0 := hplaces
  have hmem : g ∈ Grid.all := by
    rw [hall]
    exact List.mem_append_right before List.mem_cons_self
  obtain ⟨m, hm⟩ := Grid.exists_point_of_shortest? hg
  obtain ⟨k, rfl⟩ := Grid.exists_step_of_places_eq_zero hmem (congrArg Decimal.places hm).symm
  cases k with
  | zero =>
    have hexact : (⟨1, 0⟩ : Grid).shortest? r = some ⟨n * 1, 0⟩ := by
      apply Grid.shortest?_of_exact hr Nat.one_pos
      rw [pow_zero, Nat.mul_one, Nat.mul_one, hn]
    rw [Nat.mul_one] at hexact
    exact Option.some_inj.1 (hg.symm.trans hexact)
  | succ k =>
    -- every point of a coarser grid is even
    have heven : c % 2 = 0 := by
      have hc : c = m * 10 ^ (k + 1) := congrArg Decimal.coefficient hm
      rw [hc, pow_succ, ← Nat.mul_assoc]
      omega
    rw [eq_of_nearestRank_even hr hn hle heven hback]

/-- The decimal writing of an integer: its digits, behind a minus if it is negative. -/
theorem toString_int (z : Int) :
    toString z = String.ofList (bif decide (z < 0) then '-' :: Nat.toDigits 10 z.natAbs
      else Nat.toDigits 10 z.natAbs) := by
  rw [Int.toString_eq_repr]
  cases z with
  | ofNat n =>
    rw [decide_eq_false (by simp), cond_false]
    exact Nat.toString_eq_ofList_toDigits
  | negSucc n =>
    have hneg : Int.negSucc n < 0 := Int.negSucc_lt_zero n
    rw [decide_eq_true hneg, cond_true]
    show "-" ++ Nat.repr (n + 1) = String.ofList ('-' :: Nat.toDigits 10 (n + 1))
    rw [← String.toList_inj]
    simp [Nat.toList_repr]

/-- **A whole number is written with its decimal digits**, behind a minus if it is negative;
zero has no sign. -/
theorem resultText_of_isWholeNumber {x : Float} {z : Int} (hx : IsWholeNumber x z)
    (p : Precision) : resultText x p = toString z := by
  obtain ⟨hle, negative, r, hr, rfl, hvalue⟩ := hx
  have hunits : units r = z.natAbs * unitsPerOne := by
    have habs := congrArg Int.natAbs hvalue
    rw [natAbs_signedUnits, Int.natAbs_mul, Int.natAbs_natCast] at habs
    exact habs
  have hshown : displayRank r p = r := by
    unfold displayRank
    rw [if_pos (isWhole_of_units_eq hunits)]
  have hsign : (negative && r != 0) = decide (z < 0) := by
    have hone := unitsPerOne_pos
    rw [Bool.eq_iff_iff, decide_eq_true_iff, Bool.and_eq_true, bne_iff_ne,
      ← signedUnits_neg_iff, hvalue, Int.mul_neg_iff]
    omega
  have hchars : (⟨z.natAbs, 0⟩ : Decimal).chars = Nat.toDigits 10 z.natAbs := rfl
  rw [resultText_ofRank negative hr, hshown, signedText_eq, shortest_eq_of_whole hr hunits hle,
    hsign, hchars, toString_int]

/-- **Expressions of whole numbers are evaluated exactly**: if every part of an expression of
decimal literals, signs, sums, differences, products, remainders and parentheses is a whole
number within the limit, then its text is accepted, and the result is written as the decimal
writing of the exact value. -/
theorem evaluate_exactly {s : String} {ts : List Token} {e : Expr} {z : Int}
    (hs : checkAllowed (plainText s) = .ok ()) (hts : Token.scan (plainText s) = ts)
    (he : Derives .sum ts e) (hz : e.wholeValue? = some z) (d : Nat) :
    ∃ out, evaluate s (.clamp d) = .ok out ∧ out.text = toString z := by
  obtain ⟨x, hx, hwhole⟩ := Expr.exists_value_of_wholeValue? hz
  have hvalue : postfixValue (toPostfix (Token.scan (plainText s))) = .ok x := by
    rw [hts, he.postfixValue_eq, ← he.firstInvalid?_postorder, ← e.value_eq_outcome, hx]
  have hfinite : x.isFinite = true := by
    obtain ⟨-, negative, r, hr, rfl, -⟩ := hwhole
    rw [isFinite_iff, rank_ofRank negative hr]
    exact hr
  exact ⟨_, evaluate_eq_ok_iff.2 ⟨hs, x, hvalue, hfinite, rfl⟩,
    resultText_of_isWholeNumber hwhole _⟩

/-- A remainder that is a negative zero, and a product with it. -/
theorem evaluate_exactly_negative_zero :
    ∃ e out, Derives .sum (Token.scan (plainText "(1-3)%2*5")) e ∧ e.wholeValue? = some 0 ∧
      evaluate "(1-3)%2*5" (.clamp 12) = .ok out ∧ out.text = "0" := by
  have hdifference : Derives .sum _ _ :=
    .sum (Or.inr rfl) (.product (.signed (.power (.atom (.number "1")))))
      (.signed (.power (.atom (.number "3"))))
  have hremainder : Derives .product _ _ :=
    .factor (Or.inr (Or.inr rfl)) (.signed (.power (.atom (.group hdifference))))
      (.power (.atom (.number "2")))
  have hproduct : Derives .sum _ _ :=
    .product (.factor (Or.inl rfl) hremainder (.power (.atom (.number "5"))))
  have hts : Token.scan (plainText "(1-3)%2*5") =
      [.lparen, .number "1", .operator (.binary .sub), .number "3", .rparen,
        .operator (.binary .rem), .number "2", .operator (.binary .mul), .number "5"] := by cbv
  have hallowed : checkAllowed (plainText "(1-3)%2*5") = .ok () := by cbv
  have hvalue : Expr.wholeValue? (.binary .mul (.binary .rem (.binary .sub (.number "1")
      (.number "3")) (.number "2")) (.number "5")) = some 0 := by decide +kernel
  obtain ⟨out, hout, htext⟩ := evaluate_exactly hallowed hts hproduct hvalue 12
  refine ⟨_, out, ?_, hvalue, hout, htext⟩
  rw [hts]
  exact hproduct

end PostfixCalc

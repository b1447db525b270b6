/-
# Rendered results evaluate to themselves

The text of a result is itself an expression: a numeral, with a minus in front if the
result is negative. Its value is the displayed double, so it is accepted at any precision,
and at the precision of the result and any greater one its text does not change.
-/
import PostfixCalc.Proofs.Display
import PostfixCalc.Proofs.Evaluation
import PostfixCalc.Proofs.Machine
import PostfixCalc.Proofs.Scanning
import PostfixCalc.Proofs.Word

namespace PostfixCalc

open Binary64

/-! ## Texts of digits, points and minuses -/

/-- Whether a character can stand in the text of a result. -/
def isResultChar (c : Char) : Bool := Token.isNumeral c || c == '-'

theorem plainChar_of_isResultChar {c : Char} (hc : isResultChar c) : plainChar c = c := by
  rw [plainChar]
  all_goals
    rintro rfl
    exact absurd hc (by decide)

theorem isAllowed_of_isResultChar {c : Char} (hc : isResultChar c) : isAllowed c := by
  rw [isResultChar, Token.isNumeral, Bool.or_eq_true, Bool.or_eq_true, beq_iff_eq,
    beq_iff_eq] at hc
  rcases hc with (hc | rfl) | rfl
  · rw [isAllowed, Char.isAlphanum, hc, Bool.or_true, Bool.true_or]
  · decide
  · decide

variable {cs : List Char}

theorem plainText_ofList (hcs : ∀ c ∈ cs, isResultChar c) :
    plainText (String.ofList cs) = String.ofList cs := by
  refine plainText_eq_self fun c hc => plainChar_of_isResultChar (hcs c ?_)
  rwa [String.toList_ofList] at hc

theorem checkAllowed_ofList (hne : cs ≠ []) (hcs : ∀ c ∈ cs, isResultChar c) :
    checkAllowed (String.ofList cs) = .ok () := by
  rw [checkAllowed_eq_ok_iff, String.toList_ofList]
  exact ⟨hne, fun c hc => isAllowed_of_isResultChar (hcs c hc)⟩

/-! ## The text of a rank -/

/-- The text of a sign and a rank: a minus if the rank is a negative one, and the digits. -/
theorem signedText_eq (negative : Bool) (r : Nat) :
    signedText negative r =
      String.ofList (bif negative && r != 0 then '-' :: (Decimal.shortest r).chars
        else (Decimal.shortest r).chars) := by
  rw [signedText, Decimal.text]
  cases negative && r != 0 with
  | false => rw [if_neg Bool.false_ne_true, cond_false]
  | true =>
    rw [← String.toList_inj]
    simp

/-- A number with a value is a postfix word with that value, and with a minus in front it
is one with the opposite value. -/
theorem postfixValue_number {text : String} {x : Float} (hx : Numeral.value? text = some x) :
    postfixValue (toPostfix [.number text]) = .ok x ∧
      postfixValue (toPostfix [.operator (.binary .sub), .number text]) = .ok (-x) := by
  have hnumber : toPostfix [.number text] = [.number text] := rfl
  have hminus : toPostfix [.operator (.binary .sub), .number text] =
      [.number text, .operator .neg] := rfl
  have hstep : Stack.step [] (.number text) = .ok [x] := by rw [Stack.step, hx]
  rw [hnumber, hminus, postfixValue_eq_ok_iff, postfixValue_eq_ok_iff, Stack.run_cons,
    Stack.run_cons, hstep]
  exact ⟨rfl, rfl⟩

/-- The text of a decimal consists of digits and points, at least one. -/
theorem isNumeral_chars (d : Decimal) :
    d.chars ≠ [] ∧ ∀ c ∈ d.chars, Token.isNumeral c := by
  constructor
  · obtain ⟨c, cs, hcs, -⟩ := d.exists_chars_eq_cons
    exact hcs ▸ List.cons_ne_nil c cs
  · intro c hc
    rw [Token.isNumeral, Bool.or_eq_true, beq_iff_eq]
    exact Decimal.isDigit_or_eq_of_mem_chars hc

/-- The text of a sign and a finite rank is allowed, and it has the value of both. -/
theorem postfixValue_signedText (negative : Bool) {r : Nat} (hr : r < infinityRank) :
    checkAllowed (plainText (signedText negative r)) = .ok () ∧
      postfixValue (toPostfix (Token.scan (plainText (signedText negative r)))) =
        .ok (ofRank (negative && r != 0) r) := by
  obtain ⟨hne, hnumeral⟩ := isNumeral_chars (Decimal.shortest r)
  have hchars : ∀ c ∈ (Decimal.shortest r).chars, isResultChar c := by
    intro c hc
    rw [isResultChar, hnumeral c hc, Bool.true_or]
  have hvalue := (Decimal.shortest r).value?_text
  rw [Decimal.nearestRank_shortest hr, Decimal.text] at hvalue
  obtain ⟨hplus, hminus⟩ := postfixValue_number hvalue
  rw [signedText_eq]
  cases negative && r != 0 with
  | false =>
    rw [cond_false, plainText_ofList hchars, Token.scan_numeral hne hnumeral]
    exact ⟨checkAllowed_ofList hne hchars, hplus⟩
  | true =>
    have hsigned : ∀ c ∈ '-' :: (Decimal.shortest r).chars, isResultChar c := by
      intro c hc
      rcases List.mem_cons.1 hc with rfl | hc
      · rfl
      · exact hchars c hc
    rw [cond_true, plainText_ofList hsigned, Token.scan_minus_numeral hne hnumeral, hminus,
      neg_ofRank false hr]
    exact ⟨checkAllowed_ofList (List.cons_ne_nil _ _) hsigned, rfl⟩

/-- The text of a double of finite rank. -/
theorem resultText_ofRank (negative : Bool) {r : Nat} (hr : r < infinityRank) (p : Precision) :
    resultText (ofRank negative r) p = signedText negative (displayRank r p) := by
  rw [resultText, rank_ofRank negative hr, isNegative_ofRank negative hr]
  rw [if_neg (by omega), if_neg (by omega)]

/-! ## Results -/

/-- Evaluating the text of a sign and a finite rank displays them, as precisely as asked. -/
theorem evaluate_signedText (negative : Bool) {r : Nat} (hr : r < infinityRank) (p : Precision) :
    ∃ out, evaluate (signedText negative r) p = .ok out ∧
      out.text = signedText negative (displayRank r p) := by
  obtain ⟨hallowed, hvalue⟩ := postfixValue_signedText negative hr
  have hfinite : (ofRank (negative && r != 0) r).isFinite = true := by
    rw [isFinite_iff, rank_ofRank _ hr]
    exact hr
  refine ⟨_, evaluate_eq_ok_iff.2 ⟨hallowed, _, hvalue, hfinite, rfl⟩, ?_⟩
  rw [Evaluation.ofTokens, resultText_ofRank _ hr]
  by_cases hzero : r = 0
  · -- zero has no sign, and it is shown as it is
    subst hzero
    have hshown : displayRank 0 p = 0 := rfl
    rw [hshown, signedText_eq, signedText_eq]
    simp
  · have hsign : (negative && r != 0) = negative := by simp [hzero]
    rw [hsign]

/-- The text of a finite double. -/
theorem resultText_of_isFinite {x : Float} (hx : x.isFinite = true) (p : Precision) :
    resultText x p = signedText (isNegative x) (displayRank (rank x) p) := by
  rw [isFinite_iff] at hx
  rw [resultText]
  rw [if_neg (by omega), if_neg (by omega)]

/-! ## The form of results -/

/-- A text of digits and points, at least one, with or without a minus in front. -/
def IsResultText (text : String) : Prop :=
  ∃ digits : List Char, digits ≠ [] ∧ (∀ c ∈ digits, Token.isNumeral c) ∧
    (text = String.ofList digits ∨ text = String.ofList ('-' :: digits))

theorem isResultText_ofList {digits : List Char} (hne : digits ≠ [])
    (hnumeral : ∀ c ∈ digits, Token.isNumeral c) (negative : Bool) :
    IsResultText (String.ofList (bif negative then '-' :: digits else digits)) := by
  refine ⟨digits, hne, hnumeral, ?_⟩
  cases negative with
  | false => exact Or.inl rfl
  | true => exact Or.inr rfl

theorem isResultText_signedText (negative : Bool) (r : Nat) :
    IsResultText (signedText negative r) := by
  obtain ⟨hne, hnumeral⟩ := isNumeral_chars (Decimal.shortest r)
  rw [signedText_eq]
  exact isResultText_ofList hne hnumeral _

/-- Every result is written in this form. -/
theorem isResultText_of_evaluate {s : String} {p : Precision} {out : Evaluation}
    (h : evaluate s p = .ok out) : IsResultText out.text := by
  obtain ⟨-, x, -, hfinite, rfl⟩ := evaluate_eq_ok_iff.1 h
  rw [Evaluation.ofTokens, resultText_of_isFinite hfinite]
  exact isResultText_signedText _ _

/-- It holds no other characters. -/
theorem isResultChar_of_mem {text : String} (h : IsResultText text) {c : Char}
    (hc : c ∈ text.toList) : isResultChar c := by
  obtain ⟨digits, -, hnumeral, rfl | rfl⟩ := h
  · rw [String.toList_ofList] at hc
    rw [isResultChar, hnumeral c hc, Bool.true_or]
  · rw [String.toList_ofList, List.mem_cons] at hc
    rcases hc with rfl | hc
    · rfl
    · rw [isResultChar, hnumeral c hc, Bool.true_or]

theorem IsResultText.toList_ne_nil {text : String} (h : IsResultText text) :
    text.toList ≠ [] := by
  obtain ⟨digits, hne, -, rfl | rfl⟩ := h <;> simp [hne]

theorem IsResultText.plainText_eq {text : String} (h : IsResultText text) :
    plainText text = text := by
  have hcs : ∀ c ∈ text.toList, isResultChar c := fun c hc => isResultChar_of_mem h hc
  have := plainText_ofList hcs
  rwa [String.ofList_toList] at this

theorem IsResultText.checkAllowed_eq {text : String} (h : IsResultText text) :
    checkAllowed text = .ok () :=
  checkAllowed_eq_ok_iff.2 ⟨h.toList_ne_nil, fun _ hc =>
    isAllowed_of_isResultChar (isResultChar_of_mem h hc)⟩

/-- Behind a minus stand digits and points only. -/
theorem IsResultText.exists_of_minus {rest : String} (h : IsResultText ("-" ++ rest)) :
    ∃ digits : List Char, digits ≠ [] ∧ (∀ c ∈ digits, Token.isNumeral c) ∧
      rest = String.ofList digits := by
  obtain ⟨digits, hne, hnumeral, htext | htext⟩ := h
  · have hchars : '-' :: rest.toList = digits := by
      simpa using congrArg String.toList htext
    have hminus : Token.isNumeral '-' := hnumeral '-' (hchars ▸ List.mem_cons_self)
    cases hminus
  · have hchars : rest.toList = digits := by
      simpa using congrArg String.toList htext
    refine ⟨digits, hne, hnumeral, ?_⟩
    rw [← hchars, String.ofList_toList]

/-! ## Results evaluated again -/

/-- **A rendered result evaluates to itself**: the text of a result is accepted at any
precision, and at no smaller precision than that of the result its text is the same. -/
theorem evaluate_text {s : String} {d : Nat} {out : Evaluation}
    (h : evaluate s (.clamp d) = .ok out) (d' : Nat) :
    ∃ out', evaluate out.text (.clamp d') = .ok out' ∧
      (min d maxPlaces ≤ min d' maxPlaces → out'.text = out.text) := by
  obtain ⟨-, x, -, hfinite, rfl⟩ := evaluate_eq_ok_iff.1 h
  have hrank := (isFinite_iff x).1 hfinite
  have htext : (Evaluation.ofTokens (Token.scan (plainText s)) (.clamp d) x).text =
      signedText (isNegative x) (displayRank (rank x) (.clamp d)) :=
    resultText_of_isFinite hfinite _
  rw [htext]
  obtain ⟨out', hout, htext'⟩ :=
    evaluate_signedText (isNegative x) (displayRank_lt hrank (.clamp d)) (.clamp d')
  refine ⟨out', hout, fun hprecision => ?_⟩
  rw [htext', displayRank_displayRank hrank hprecision]

/-- A negative quotient shown with two places, and its text evaluated with all places. -/
theorem evaluate_text_of_quotient :
    ∃ out out', evaluate "-2/3" (.clamp 2) = .ok out ∧
      evaluate out.text (.clamp 17) = .ok out' ∧ out'.text = out.text := by
  have hvalue : postfixValue (toPostfix (Token.scan (plainText "-2/3"))) =
      .ok (Float.ofBits 0xBFE5555555555555) := by decide +kernel
  have hout : evaluate "-2/3" (.clamp 2) = .ok _ :=
    evaluate_eq_ok_iff.2 ⟨by cbv, _, hvalue, by decide +kernel, rfl⟩
  obtain ⟨out', hout', htext⟩ := evaluate_text hout 17
  exact ⟨_, out', hout, hout', htext (by decide)⟩

end PostfixCalc

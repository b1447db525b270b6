/-
# Accepted texts

A text is evaluated by evaluating its tokens, and it is accepted exactly when its
characters are allowed and its postfix word has a finite value; everything that the
outcome holds is then settled.
-/
import Mathlib
import PostfixCalc.Evaluation
import PostfixCalc.Proofs.Machine

namespace PostfixCalc

/-- The outcome for a row of tokens whose value is known. -/
def Evaluation.ofTokens (tokens : List Token) (p : Precision) (x : Float) : Evaluation :=
  ⟨x, resultText x p, Token.trace tokens, Token.trace (toPostfix tokens)⟩

/-- A row of tokens with a value is accepted exactly when the value is finite. -/
theorem evaluateTokens_of_postfixValue {tokens : List Token} {x : Float}
    (hx : postfixValue (toPostfix tokens) = .ok x) (p : Precision) :
    evaluateTokens tokens p =
      if x.isFinite then .ok (.ofTokens tokens p x) else .error .notFinite := by
  rw [evaluateTokens, hx]
  rfl

/-- A row of tokens without a value is refused for the same cause. -/
theorem evaluateTokens_of_error {tokens : List Token} {cause : EvalError}
    (hx : postfixValue (toPostfix tokens) = .error cause) (p : Precision) :
    evaluateTokens tokens p = .error cause := by
  rw [evaluateTokens, hx]
  rfl

/-- A row of tokens is refused because it has no value, or because the value is not finite. -/
theorem postfixValue_of_evaluateTokens {tokens : List Token} {p : Precision} {cause : EvalError}
    (h : evaluateTokens tokens p = .error cause) :
    postfixValue (toPostfix tokens) = .error cause ∨ cause = .notFinite := by
  cases hx : postfixValue (toPostfix tokens) with
  | error cause' =>
    rw [evaluateTokens_of_error hx] at h
    obtain rfl := Except.error.inj h
    exact Or.inl rfl
  | ok x =>
    rw [evaluateTokens_of_postfixValue hx] at h
    split_ifs at h
    exact Or.inr (Except.error.inj h).symm

/-- A row of tokens is refused for a cause in the tokens. -/
theorem isOfTokens_of_evaluateTokens {tokens : List Token} {p : Precision} {cause : EvalError}
    (h : evaluateTokens tokens p = .error cause) : cause.isOfTokens := by
  rcases postfixValue_of_evaluateTokens h with hx | rfl
  · exact isOfTokens_of_postfixValue hx
  · rfl

/-- A text is evaluated by evaluating its tokens, once its characters are allowed. -/
theorem evaluate_eq_evaluateTokens {s : String} (hs : checkAllowed (plainText s) = .ok ())
    (p : Precision) : evaluate s p = evaluateTokens (Token.scan (plainText s)) p := by
  rw [evaluate, readTokens, hs]
  rfl

/-- A text is accepted exactly when its characters are allowed and its postfix word has a
finite value. -/
theorem evaluate_eq_ok_iff {s : String} {p : Precision} {out : Evaluation} :
    evaluate s p = .ok out ↔
      checkAllowed (plainText s) = .ok () ∧
      ∃ x : Float, postfixValue (toPostfix (Token.scan (plainText s))) = .ok x ∧
        x.isFinite = true ∧ out = .ofTokens (Token.scan (plainText s)) p x := by
  cases hs : checkAllowed (plainText s) with
  | error cause =>
    have hrefused : evaluate s p = .error cause := by
      rw [evaluate, readTokens, hs]
      rfl
    simp [hrefused]
  | ok u =>
    rw [evaluate_eq_evaluateTokens hs]
    cases hx : postfixValue (toPostfix (Token.scan (plainText s))) with
    | error cause => simp [evaluateTokens_of_error hx]
    | ok x =>
      rw [evaluateTokens_of_postfixValue hx]
      constructor
      · intro h
        split_ifs at h with hfinite
        exact ⟨rfl, x, rfl, hfinite, (Except.ok.inj h).symm⟩
      · rintro ⟨-, y, hy, hfinite, rfl⟩
        obtain rfl := Except.ok.inj hy
        rw [if_pos hfinite]

end PostfixCalc

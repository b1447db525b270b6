/-
# Grammatical texts evaluate to the values of their trees

A tree has a value unless one of its numbers is no numeral, and then the first such
number in reading order is the cause of the refusal. Conversion and evaluation keep
the reading order of the numbers, so a text whose tokens are derived from the grammar
is evaluated to the value of its tree, or refused for its first bad number, or for a
value that is not finite; nothing else can happen to it.
-/
import Mathlib
import PostfixCalc.Proofs.Conversion
import PostfixCalc.Proofs.Evaluation

namespace PostfixCalc

/-! ## Numbers that are no numerals -/

/-- The text of a number that is no numeral. -/
def Token.invalidNumeral? : Token → Option String
  | .number text => if (Numeral.value? text).isNone then some text else none
  | _ => none

/-- The text of the first number of a row that is no numeral. -/
def Token.firstInvalid? (tokens : List Token) : Option String :=
  tokens.findSome? Token.invalidNumeral?

@[simp] theorem Token.firstInvalid?_nil : firstInvalid? [] = none := rfl

/-- The first bad number of a row is its first token, or else lies in the rest. -/
@[simp] theorem Token.firstInvalid?_cons (t : Token) (ts : List Token) :
    firstInvalid? (t :: ts) = t.invalidNumeral?.or (firstInvalid? ts) := by
  rw [firstInvalid?, List.findSome?_cons]
  cases t.invalidNumeral? <;> rfl

/-- The first bad number of two rows is that of the first row, or else of the second. -/
@[simp] theorem Token.firstInvalid?_append (ts us : List Token) :
    firstInvalid? (ts ++ us) = (firstInvalid? ts).or (firstInvalid? us) :=
  List.findSome?_append

/-- A row of good numbers holds no bad one. -/
theorem Token.firstInvalid?_eq_none {ts : List Token}
    (h : ∀ text, .number text ∈ ts → (Numeral.value? text).isSome) : firstInvalid? ts = none := by
  rw [firstInvalid?, List.findSome?_eq_none_iff]
  intro t ht
  cases t with
  | number text =>
    obtain ⟨x, hx⟩ := Option.isSome_iff_exists.1 (h text ht)
    rw [invalidNumeral?, hx]
    rfl
  | _ => rfl

/-! ## The value of a tree -/

namespace Expr

/-- The value of a tree by recursion on its shape; a number that is no numeral has no
value of its own and counts as `nan`. -/
def valueOrNan : Expr → Float
  | number text => (Numeral.value? text).getD Binary64.nan
  | constant c => c.meaning
  | neg x => -x.valueOrNan
  | binary op x y => op.meaning x.valueOrNan y.valueOrNan
  | call f x => f.meaning x.valueOrNan
  | callPow x y => x.valueOrNan.pow y.valueOrNan

/-- The outcome for a tree whose first bad number is known. -/
def outcome (e : Expr) : Option String → Except EvalError Float
  | some text => .error (.invalidNumber text)
  | none => .ok e.valueOrNan

/-- A tree has its value unless it holds a bad number, and then the first is reported. -/
theorem value_eq_outcome (e : Expr) :
    e.value = e.outcome (Token.firstInvalid? e.postorder) := by
  induction e with
  | number text =>
    cases h : Numeral.value? text <;>
      simp [value, postorder, Token.firstInvalid?, Token.invalidNumeral?, outcome, valueOrNan, h]
  | constant c => rfl
  | neg x ih =>
    rw [value, ih, postorder, Token.firstInvalid?_append]
    cases Token.firstInvalid? x.postorder <;> rfl
  | binary op x y ihx ihy =>
    rw [value, ihx, ihy, postorder, Token.firstInvalid?_append, Token.firstInvalid?_append]
    cases Token.firstInvalid? x.postorder <;> cases Token.firstInvalid? y.postorder <;> rfl
  | call f x ih =>
    rw [value, ih, postorder, Token.firstInvalid?_append]
    cases Token.firstInvalid? x.postorder <;> rfl
  | callPow x y ihx ihy =>
    rw [value, ihx, ihy, postorder, Token.firstInvalid?_append, Token.firstInvalid?_append]
    cases Token.firstInvalid? x.postorder <;> cases Token.firstInvalid? y.postorder <;> rfl

end Expr

/-! ## Reading order -/

/-- A derived row and the postfix word of its tree have the same first bad number. -/
theorem Derives.firstInvalid?_postorder {k : Category} {ts : List Token} {e : Expr}
    (h : Derives k ts e) : Token.firstInvalid? e.postorder = Token.firstInvalid? ts := by
  induction h with
  | product _ ih => exact ih
  | signed _ ih => exact ih
  | power _ ih => exact ih
  | atom _ ih => exact ih
  | number text => rfl
  | constant _ => rfl
  -- operators, names and parentheses move or go, but no number passes another one
  | sum _ _ _ ihx ihy => simp [Expr.postorder, Token.invalidNumeral?, ihx, ihy]
  | factor _ _ _ ihx ihy => simp [Expr.postorder, Token.invalidNumeral?, ihx, ihy]
  | exponent _ _ ihx ihy => simp [Expr.postorder, Token.invalidNumeral?, ihx, ihy]
  | minus _ ih => simp [Expr.postorder, Token.invalidNumeral?, ih]
  | plus _ ih => simp [Token.invalidNumeral?, ih]
  | call _ _ ih => simp [Expr.postorder, Token.invalidNumeral?, ih]
  | callPow _ _ _ ihx ihy => simp [Expr.postorder, Token.invalidNumeral?, ihx, ihy]
  | group _ ih => simp [Token.invalidNumeral?, ih]

/-! ## Evaluation -/

/-- The value of a derived row of tokens in postfix order is that of its tree. -/
theorem Derives.postfixValue_eq {ts : List Token} {e : Expr} (h : Derives .sum ts e) :
    postfixValue (toPostfix ts) = e.outcome (Token.firstInvalid? ts) := by
  have hpost : toPostfix ts = e.postorder := h.toPostfix_eq
  rw [hpost, postfixValue, Expr.run_postorder, e.value_eq_outcome, h.firstInvalid?_postorder]
  cases Token.firstInvalid? ts <;> rfl

/-- **Grammatical texts have the meaning of their trees.** A row of tokens derived from
the grammar is converted to the postfix word of its tree; the word has the value of the
tree unless a number is no numeral, and then the first one in reading order is reported;
and a text with these tokens evaluates to that value exactly when it is finite. -/
theorem evaluate_of_derives {ts : List Token} {e : Expr} (h : Derives .sum ts e) :
    toPostfix ts = e.postorder ∧
    postfixValue (toPostfix ts) = e.outcome (Token.firstInvalid? ts) ∧
    ∀ s p, checkAllowed (plainText s) = .ok () → Token.scan (plainText s) = ts →
      evaluate s p =
        match Token.firstInvalid? ts with
        | some text => .error (.invalidNumber text)
        | none =>
          if e.valueOrNan.isFinite then
            .ok ⟨e.valueOrNan, resultText e.valueOrNan p, Token.trace ts,
              Token.trace e.postorder⟩
          else .error .notFinite := by
  refine ⟨h.toPostfix_eq, h.postfixValue_eq, fun s p hs hts => ?_⟩
  rw [evaluate_eq_evaluateTokens hs, hts]
  have hvalue := h.postfixValue_eq
  cases hfirst : Token.firstInvalid? ts with
  | some text =>
    rw [hfirst] at hvalue
    exact evaluateTokens_of_error hvalue p
  | none =>
    rw [hfirst] at hvalue
    rw [evaluateTokens_of_postfixValue hvalue, Evaluation.ofTokens, h.toPostfix_eq]

/-- A power with a signed exponent inside an argument, with the name in mixed case. -/
theorem evaluate_signed_exponent_in_call :
    ∃ e, Derives .sum (Token.scan (plainText "Pow(2^-3^2*4,1)")) e ∧
      Token.trace (toPostfix (Token.scan (plainText "Pow(2^-3^2*4,1)"))) =
        "2 3 2 ^ neg ^ 4 * 1 pow" ∧
      evaluate "Pow(2^-3^2*4,1)" default =
        if e.valueOrNan.isFinite then
          .ok ⟨e.valueOrNan, resultText e.valueOrNan default, "Pow ( 2 ^ - 3 ^ 2 * 4 , 1 )",
            "2 3 2 ^ neg ^ 4 * 1 pow"⟩
        else .error .notFinite := by
  have hpower : Derives .power _ _ :=
    .exponent (.number "2") (.minus (.power (.exponent (.number "3") (.power (.atom (.number "2"))))))
  have hbase : Derives .sum _ _ :=
    .product (.factor (Or.inl rfl) (.signed (.power hpower)) (.power (.atom (.number "4"))))
  have hexponent : Derives .sum _ _ := .product (.signed (.power (.atom (.number "1"))))
  have hname : Func.ofName? "Pow" = some .pow := by cbv
  have hcall : Derives .sum _ _ :=
    .product (.signed (.power (.atom (.callPow hname hbase hexponent))))
  have hts : Token.scan (plainText "Pow(2^-3^2*4,1)") =
      [.name "Pow", .lparen, .number "2", .operator (.binary .pow), .operator (.binary .sub),
        .number "3", .operator (.binary .pow), .number "2", .operator (.binary .mul),
        .number "4", .comma, .number "1", .rparen] := by cbv
  have hallowed : checkAllowed (plainText "Pow(2^-3^2*4,1)") = .ok () := by cbv
  rw [hts]
  obtain ⟨hpost, -, heval⟩ := evaluate_of_derives hcall
  refine ⟨_, hcall, ?_, ?_⟩
  · exact (congrArg Token.trace hpost).trans (by cbv)
  · exact (heval _ default hallowed hts).trans (by rfl)

end PostfixCalc

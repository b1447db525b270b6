/-
# The last answer in a longer text

A session lends the text of its last answer to longer texts, where it stands without
parentheses. Between other operands it still is one operand, with two exceptions. The
minus of a negative answer binds looser than a power that follows it. And a function whose
name stands right before the answer, or before plus signs in front of it, is applied to
more than the answer when an operator follows, while it is applied to a group at once.
-/
import Mathlib
import PostfixCalc.Proofs.Group
import PostfixCalc.Proofs.Scanning
import PostfixCalc.Proofs.Sessions
import PostfixCalc.Proofs.Vocabulary

namespace PostfixCalc

namespace Token

/-! ## Places for an operand -/

/-- Whether a row ends with the name of a function, apart from plus signs after it. -/
def endsInFunction (ts : List Token) : Bool :=
  (ts.rdropWhile (· == operator (.binary .add))).getLast?.any fun
    | name text => (Func.ofName? text).isSome
    | _ => false

theorem endsInFunction_concat_add (ts : List Token) :
    endsInFunction (ts ++ [operator (.binary .add)]) = endsInFunction ts := by
  rw [endsInFunction, List.rdropWhile_concat_pos _ _ _ rfl, endsInFunction]

theorem endsInFunction_concat_sub (ts : List Token) :
    endsInFunction (ts ++ [operator (.binary .sub)]) = false := by
  rw [endsInFunction, List.rdropWhile_concat_neg _ _ _ (by simp), List.getLast?_concat]
  rfl

theorem endsInFunction_concat_name {text : String} (ht : (Func.ofName? text).isSome)
    (ts : List Token) : endsInFunction (ts ++ [name text]) = true := by
  rw [endsInFunction, List.rdropWhile_concat_neg _ _ _ (by simp), List.getLast?_concat]
  exact ht

end Token

open Token

namespace Yard

/-! ## A function name on top -/

/-- An operand should begin after a row that does not end with one. -/
theorem expectsOperand_passAll_of_getLast? {p : List Token}
    (hp : ∀ t ∈ p.getLast?, t.endsOperand = false) :
    (start.passAll p).expectsOperand = true := by
  rw [expectsOperand_passAll_start, expectsOperandAfter, Option.all_eq_true]
  intro t ht
  rw [hp t ht]
  rfl

/-- Where an operand should begin, a function name waits on top only if the row ends with
it, apart from plus signs. -/
theorem endsInFunction_of_pending {ts : List Token} {f : String} {below : List Token}
    (hx : (start.passAll ts).expectsOperand = true)
    (hpending : (start.passAll ts).pending = .name f :: below)
    (hf : (Func.ofName? f).isSome) : endsInFunction ts = true := by
  -- by the last token: plus signs leave the yard as it is, and all else but a name puts
  -- something other than a name on top
  induction ts using List.reverseRecOn with
  | nil => cases hpending
  | append_singleton ts t ih =>
    rw [passAll_append, passAll_cons, passAll_nil] at hx hpending
    cases t with
    | number text => cases hx
    | name text =>
      simp only [pass, passName] at hx hpending
      cases hc : Constant.ofName? text with
      | some c =>
        rw [hc] at hx
        cases hx
      | none =>
        rw [hc] at hpending
        have htext : text.toLower = f := Token.name.inj (List.cons.inj hpending).1
        rw [← htext, Func.ofName?_toLower] at hf
        exact endsInFunction_concat_name hf ts
    | operator op =>
      rw [pass] at hx hpending
      rcases sign_cases (start.passAll ts).expectsOperand op with
        ⟨hy, rfl⟩ | ⟨hy, rfl⟩ | hop
      · rw [passOperator_sub hy] at hpending
        cases hpending
      · rw [passOperator_add hy] at hpending
        rw [endsInFunction_concat_add]
        exact ih hy hpending
      · rw [passOperator_eq_passInfix hop] at hpending
        cases hpending
    | lparen => cases hpending
    | rparen => cases hx
    | comma =>
      have htop := head?_release (start.passAll ts) isInside (.name f)
      have hhead : ((start.passAll ts).release isInside).pending.head? = some (.name f) :=
        congrArg List.head? hpending
      cases htop hhead

/-! ## An operand with and without parentheses -/

/-- After a group that is one operand the function name in front of it leaves at once; if
no operator follows it would leave next anyway. -/
theorem finish_passAll_applyFunction {p q : List Token}
    (hp : ∀ t ∈ p.getLast?, t.endsOperand = false)
    (hname : endsInFunction p → ∀ u ∈ q.head?, u = .rparen ∨ u = .comma) (out : List Token) :
    ((⟨out, (start.passAll p).pending, false⟩ : Yard).applyFunction.passAll q).finish =
      ((⟨out, (start.passAll p).pending, false⟩ : Yard).passAll q).finish := by
  rcases (⟨out, (start.passAll p).pending, false⟩ : Yard).applyFunction_cases with
    h | ⟨f, below, hpending, h, hf⟩
  · rw [h]
  · have hends := endsInFunction_of_pending (expectsOperand_passAll_of_getLast? hp) hpending hf
    have hsent : ∀ u ∈ q.head?, u.sendsOut (.name f) := by
      intro u hu
      rcases hname hends u hu with rfl | rfl <;> rfl
    rw [h, ← finish_passAll_of_sendsOut hsent, ← hpending]

/-- A number in parentheses may as well stand without. -/
theorem toPostfix_grouped_number {p q : List Token}
    (hp : ∀ t ∈ p.getLast?, t.endsOperand = false)
    (hname : endsInFunction p → ∀ u ∈ q.head?, u = .rparen ∨ u = .comma) (text : String) :
    toPostfix (grouped p [.number text] q) = toPostfix (p ++ [.number text] ++ q) := by
  have hword : (toPostfix [.number text]).reverse = [.number text] := rfl
  rw [toPostfix_grouped_eq_finish p q (balanced_number text), hword,
    finish_passAll_applyFunction hp hname, toPostfix, passAll_append, passAll_append]
  rfl

/-- A number with a minus in parentheses may as well stand without, unless a power
follows. -/
theorem toPostfix_grouped_minus_number {p q : List Token}
    (hp : ∀ t ∈ p.getLast?, t.endsOperand = false)
    (hq : ∀ u ∈ q.head?, u.followsOperand ∧ u ≠ .operator (.binary .pow))
    (hname : endsInFunction p → ∀ u ∈ q.head?, u = .rparen ∨ u = .comma) (text : String) :
    toPostfix (grouped p [.operator (.binary .sub), .number text] q) =
      toPostfix (p ++ [.operator (.binary .sub), .number text] ++ q) := by
  have hword : (toPostfix [.operator (.binary .sub), .number text]).reverse =
      [.operator .neg, .number text] := rfl
  have hbalanced : Balanced [.operator (.binary .sub), .number text] :=
    balanced_of_not_mem (by simp) (by simp)
  -- all that can follow sends a change of sign out, the power excepted
  have hsent : ∀ u ∈ q.head?, u.sendsOut (.operator .neg) := by
    intro u hu
    obtain ⟨hfollows, hpow⟩ := hq u hu
    cases u with
    | operator op =>
      cases op with
      | neg => cases hfollows
      | binary op => cases op <;> first | rfl | exact absurd rfl hpow
    | rparen => rfl
    | comma => rfl
    | number text => cases hfollows
    | name text => cases hfollows
    | lparen => cases hfollows
  have hminus : (start.passAll p).pass (.operator (.binary .sub)) =
      (start.passAll p).hold (.operator .neg) :=
    passOperator_sub (expectsOperand_passAll_of_getLast? hp)
  rw [toPostfix_grouped_eq_finish p q hbalanced, hword, finish_passAll_applyFunction hp hname,
    toPostfix, passAll_append, passAll_append, passAll_cons, hminus, List.cons_append,
    ← finish_passAll_of_sendsOut hsent]
  rfl

end Yard

open Yard

/-- A minus in front of a power applies to the power, and in parentheses to the base. -/
theorem postfixValue_minus_power {a b : String} {x y : Float} (ha : Numeral.value? a = some x)
    (hb : Numeral.value? b = some y) :
    postfixValue (toPostfix
        [operator (.binary .sub), number a, operator (.binary .pow), number b]) =
      .ok (-x.pow y) ∧
    postfixValue (toPostfix (grouped [] [operator (.binary .sub), number a]
        [operator (.binary .pow), number b])) = .ok ((-x).pow y) := by
  have hbase : ∀ stack : Stack, stack.step (number a) = .ok (x :: stack) := by
    intro stack
    rw [Stack.step, ha]
  have hexponent : ∀ stack : Stack, stack.step (number b) = .ok (y :: stack) := by
    intro stack
    rw [Stack.step, hb]
  have hbare : toPostfix
      [operator (.binary .sub), number a, operator (.binary .pow), number b] =
        [number a, number b, operator (.binary .pow), operator .neg] := rfl
  have hgroup : toPostfix (grouped [] [operator (.binary .sub), number a]
      [operator (.binary .pow), number b]) =
        [number a, operator .neg, number b, operator (.binary .pow)] := rfl
  rw [hbare, hgroup, postfixValue_eq_ok_iff, postfixValue_eq_ok_iff]
  constructor
  · exact Stack.run_cons_eq_ok.2 ⟨_, hbase _, Stack.run_cons_eq_ok.2 ⟨_, hexponent _, rfl⟩⟩
  · refine Stack.run_cons_eq_ok.2 ⟨_, hbase _, Stack.run_cons_eq_ok.2 ⟨[-x], rfl, ?_⟩⟩
    exact Stack.run_cons_eq_ok.2 ⟨_, hexponent _, rfl⟩

/-! ## Texts with a place for an operand -/

/-- A text is cut at a character that stands alone, before it or behind it. -/
theorem scan_plainText_append {s t : String}
    (h : (∀ a ∈ s.toList.getLast?, standsAlone (plainChar a)) ∨
      ∀ b ∈ t.toList.head?, standsAlone (plainChar b)) :
    scan (plainText (s ++ t)) = scan (plainText s) ++ scan (plainText t) := by
  apply scan_plainText_cut
  intro a ha b hb
  exact sameRun_of_standsAlone (h.imp (fun h => h a ha) fun h => h b hb)

/-- The characters after which an operand can begin stand alone, and their tokens end no
operand. -/
theorem place_before {c : Char} (hc : c ∈ "+-*/%^(,".toList) :
    standsAlone (plainChar c) ∧ ∃ t ∈ ofRun? [plainChar c], t.endsOperand = false := by
  fin_cases hc
  all_goals exact ⟨by decide, _, rfl, rfl⟩

/-- The characters that can follow an operand stand alone, and so can their tokens; they
write the power only with `^`, and operators only with their characters. -/
theorem place_after {c : Char} (hc : c ∈ "+-*/%^),".toList) :
    standsAlone (plainChar c) ∧ ∃ t ∈ ofRun? [plainChar c], t.followsOperand ∧
      (c ≠ '^' → t ≠ .operator (.binary .pow)) ∧
      (c ∉ "+-*/%^".toList → t = .rparen ∨ t = .comma) := by
  fin_cases hc
  all_goals exact ⟨by decide, _, rfl, by decide⟩

theorem scan_plainText_of_isEmpty {s : String} (hs : s.toList = []) : scan (plainText s) = [] := by
  rw [scan, toList_plainText, hs]
  rfl

/-- A text that ends where an operand can begin ends with a token that ends none. -/
theorem endsOperand_of_place {left : String}
    (hleft : ∀ c ∈ left.toList.getLast?, c ∈ "+-*/%^(,".toList) :
    ∀ t ∈ (scan (plainText left)).getLast?, t.endsOperand = false := by
  intro t ht
  cases hc : left.toList.getLast? with
  | none =>
    rw [scan_plainText_of_isEmpty (List.getLast?_eq_none_iff.1 hc)] at ht
    cases ht
  | some c =>
    obtain ⟨halone, u, hu, hends⟩ := place_before (hleft c hc)
    have hlast : (plainText left).toList.getLast? = some (plainChar c) := by
      rw [toList_plainText, List.getLast?_map, hc]
      rfl
    rw [getLast?_scan hlast halone hu] at ht
    cases ht
    exact hends

/-- A text that begins where an operand can end begins with a token that can follow one. -/
theorem followsOperand_of_place {right : String}
    (hright : ∀ c ∈ right.toList.head?, c ∈ "+-*/%^),".toList) :
    ∀ u ∈ (scan (plainText right)).head?, u.followsOperand ∧
      (right.toList.head? ≠ some '^' → u ≠ .operator (.binary .pow)) ∧
      ((∀ c ∈ right.toList.head?, c ∉ "+-*/%^".toList) → u = .rparen ∨ u = .comma) := by
  intro u hu
  cases hc : right.toList.head? with
  | none =>
    rw [scan_plainText_of_isEmpty (List.head?_eq_none_iff.1 hc)] at hu
    cases hu
  | some c =>
    obtain ⟨halone, t, ht, hfollows, hpow, hparen⟩ := place_after (hright c hc)
    have hhead : (plainText right).toList.head? = some (plainChar c) := by
      rw [toList_plainText, List.head?_map, hc]
      rfl
    rw [head?_scan hhead halone ht] at hu
    cases hu
    exact ⟨hfollows, fun h => hpow fun heq => h (heq ▸ rfl), fun h => hparen (h c rfl)⟩

/-- The tokens of a text between two others, without parentheses and with them. -/
theorem scan_between {left right : String}
    (hleft : ∀ c ∈ left.toList.getLast?, c ∈ "+-*/%^(,".toList)
    (hright : ∀ c ∈ right.toList.head?, c ∈ "+-*/%^),".toList) (mid : String) :
    scan (plainText (left ++ mid ++ right)) =
        scan (plainText left) ++ scan (plainText mid) ++ scan (plainText right) ∧
      scan (plainText (left ++ "(" ++ mid ++ ")" ++ right)) =
        grouped (scan (plainText left)) (scan (plainText mid)) (scan (plainText right)) := by
  have hbefore : ∀ a ∈ left.toList.getLast?, standsAlone (plainChar a) := fun a ha =>
    (place_before (hleft a ha)).1
  have hafter : ∀ b ∈ right.toList.head?, standsAlone (plainChar b) := fun b hb =>
    (place_after (hright b hb)).1
  have hopen : ∀ a ∈ (left ++ "(").toList.getLast?, standsAlone (plainChar a) := by
    intro a ha
    obtain rfl : '(' = a := by simpa using ha
    decide
  have hclose : ∀ b ∈ ")".toList.head?, standsAlone (plainChar b) := by
    intro b hb
    obtain rfl : ')' = b := by simpa using hb
    decide
  have hlparen : scan (plainText "(") = [.lparen] := by decide +kernel
  have hrparen : scan (plainText ")") = [.rparen] := by decide +kernel
  constructor
  · rw [scan_plainText_append (Or.inr hafter), scan_plainText_append (Or.inl hbefore)]
  · rw [scan_plainText_append (Or.inr hafter), scan_plainText_append (Or.inr hclose),
      scan_plainText_append (Or.inl hopen), scan_plainText_append (Or.inl hbefore), hlparen,
      hrparen, grouped]

/-- A text between two others is allowed, without parentheses and with them, if the two
others are. -/
theorem checkAllowed_between (left right : String) {mid : String} (hmid : IsResultText mid) :
    (checkAllowed (plainText (left ++ mid ++ right)) = .ok () ↔
        (∀ c ∈ (plainText left).toList, isAllowed c) ∧
          ∀ c ∈ (plainText right).toList, isAllowed c) ∧
      (checkAllowed (plainText (left ++ "(" ++ mid ++ ")" ++ right)) = .ok () ↔
        (∀ c ∈ (plainText left).toList, isAllowed c) ∧
          ∀ c ∈ (plainText right).toList, isAllowed c) := by
  have hne : mid.toList ≠ [] := hmid.toList_ne_nil
  have hchars : ∀ c ∈ (plainText mid).toList, isAllowed c := by
    intro c hc
    rw [hmid.plainText_eq] at hc
    exact isAllowed_of_isResultChar (isResultChar_of_mem hmid hc)
  have hopen : ∀ c ∈ (plainText "(").toList, isAllowed c := by
    simp [toList_plainText, plainChar, isAllowed]
  have hclose : ∀ c ∈ (plainText ")").toList, isAllowed c := by
    simp [toList_plainText, plainChar, isAllowed]
  rw [checkAllowed_eq_ok_iff, checkAllowed_eq_ok_iff]
  simp only [plainText_append, String.toList_append, List.forall_mem_append]
  constructor
  · constructor
    · rintro ⟨-, ⟨hl, -⟩, hr⟩
      exact ⟨hl, hr⟩
    · rintro ⟨hl, hr⟩
      exact ⟨by simp [toList_plainText, hne], ⟨hl, hchars⟩, hr⟩
  · constructor
    · rintro ⟨-, ⟨⟨⟨hl, -⟩, -⟩, -⟩, hr⟩
      exact ⟨hl, hr⟩
    · rintro ⟨hl, hr⟩
      exact ⟨by simp [toList_plainText], ⟨⟨⟨hl, hopen⟩, hchars⟩, hclose⟩, hr⟩

namespace Session

/-- A reply depends on the postfix word of the text, and on whether the text is allowed. -/
theorem reply_congr (s : Session) {t u : String}
    (hallowed : checkAllowed (plainText t) = .ok () ↔ checkAllowed (plainText u) = .ok ())
    (hword : toPostfix (scan (plainText t)) = toPostfix (scan (plainText u))) :
    s.reply t = s.reply u := by
  have hsome : ∀ {v r : String},
      (Answer.outcome (PostfixCalc.evaluate v s.precision)).result? = some r ↔
        checkAllowed (plainText v) = .ok () ∧
        ∃ x : Float, postfixValue (toPostfix (scan (plainText v))) = .ok x ∧
          x.isFinite = true ∧ resultText x s.precision = r := by
    intro v r
    rw [Answer.result?_outcome_eq_some_iff]
    constructor
    · rintro ⟨out, hout, rfl⟩
      obtain ⟨hv, x, hx, hfinite, rfl⟩ := evaluate_eq_ok_iff.1 hout
      exact ⟨hv, x, hx, hfinite, rfl⟩
    · rintro ⟨hv, x, hx, hfinite, rfl⟩
      exact ⟨_, evaluate_eq_ok_iff.2 ⟨hv, x, hx, hfinite, rfl⟩, rfl⟩
  have hresult : (Answer.outcome (PostfixCalc.evaluate t s.precision)).result? =
      (Answer.outcome (PostfixCalc.evaluate u s.precision)).result? := by
    refine Option.ext fun r => ?_
    rw [hsome, hsome, hallowed, hword]
  rw [reply_eq, reply_eq, hresult]

/-! ## The answer among other operands -/

variable {left right : String}

/-- A result may stand without parentheses where that does not change the postfix word. -/
theorem reply_in_parentheses (s : Session) {mid : String} (hmid : IsResultText mid)
    (hleft : ∀ c ∈ left.toList.getLast?, c ∈ "+-*/%^(,".toList)
    (hright : ∀ c ∈ right.toList.head?, c ∈ "+-*/%^),".toList)
    (hword : toPostfix (grouped (scan (plainText left)) (scan mid) (scan (plainText right))) =
      toPostfix (scan (plainText left) ++ scan mid ++ scan (plainText right))) :
    s.reply (left ++ mid ++ right) = s.reply (left ++ "(" ++ mid ++ ")" ++ right) := by
  obtain ⟨hwithout, hwith⟩ := scan_between hleft hright mid
  obtain ⟨hallowed, hallowed'⟩ := checkAllowed_between left right hmid
  apply reply_congr
  · rw [hallowed, hallowed']
  · rw [hwithout, hwith, hmid.plainText_eq, hword]

/-- Digits may stand without parentheses, unless a function name comes before them and an
operator after them. -/
theorem reply_digits_in_parentheses (s : Session) {digits : List Char}
    (hne : digits ≠ []) (hnumeral : ∀ c ∈ digits, isNumeral c)
    (hleft : ∀ c ∈ left.toList.getLast?, c ∈ "+-*/%^(,".toList)
    (hright : ∀ c ∈ right.toList.head?, c ∈ "+-*/%^),".toList)
    (hname : endsInFunction (scan (plainText left)) →
      ∀ c ∈ right.toList.head?, c ∉ "+-*/%^".toList) :
    s.reply (left ++ String.ofList digits ++ right) =
      s.reply (left ++ "(" ++ String.ofList digits ++ ")" ++ right) := by
  apply s.reply_in_parentheses ⟨digits, hne, hnumeral, Or.inl rfl⟩ hleft hright
  rw [scan_numeral hne hnumeral]
  apply toPostfix_grouped_number (endsOperand_of_place hleft)
  exact fun hends u hu => (followsOperand_of_place hright u hu).2.2 (hname hends)

/-- Digits with a minus may stand without parentheses, unless a power follows, or a
function name comes before them and an operator after them. -/
theorem reply_minus_digits_in_parentheses (s : Session) {digits : List Char}
    (hne : digits ≠ []) (hnumeral : ∀ c ∈ digits, isNumeral c)
    (hleft : ∀ c ∈ left.toList.getLast?, c ∈ "+-*/%^(,".toList)
    (hright : ∀ c ∈ right.toList.head?, c ∈ "+-*/%^),".toList)
    (hpow : right.toList.head? ≠ some '^')
    (hname : endsInFunction (scan (plainText left)) →
      ∀ c ∈ right.toList.head?, c ∉ "+-*/%^".toList) :
    s.reply (left ++ String.ofList ('-' :: digits) ++ right) =
      s.reply (left ++ "(" ++ String.ofList ('-' :: digits) ++ ")" ++ right) := by
  have hfollows := followsOperand_of_place hright
  apply s.reply_in_parentheses ⟨digits, hne, hnumeral, Or.inr rfl⟩ hleft hright
  rw [scan_minus_numeral hne hnumeral]
  apply toPostfix_grouped_minus_number (endsOperand_of_place hleft)
  · exact fun u hu => ⟨(hfollows u hu).1, (hfollows u hu).2.1 hpow⟩
  · exact fun hends u hu => (hfollows u hu).2.2 (hname hends)

/-- Digits behind a minus may stand without parentheses, whatever follows. -/
theorem reply_minus_then_digits (s : Session) {digits : List Char}
    (hne : digits ≠ []) (hnumeral : ∀ c ∈ digits, isNumeral c)
    (hright : ∀ c ∈ right.toList.head?, c ∈ "+-*/%^),".toList) :
    s.reply (left ++ "-" ++ String.ofList digits ++ right) =
      s.reply (left ++ "-" ++ "(" ++ String.ofList digits ++ ")" ++ right) := by
  have hleft : ∀ c ∈ (left ++ "-").toList.getLast?, c ∈ "+-*/%^(,".toList := by
    intro c hc
    obtain rfl : '-' = c := by simpa using hc
    decide
  have hname : endsInFunction (scan (plainText (left ++ "-"))) = false := by
    have hminus : scan (plainText "-") = [operator (.binary .sub)] := by decide +kernel
    rw [scan_plainText_append, hminus, endsInFunction_concat_sub]
    right
    intro b hb
    obtain rfl : '-' = b := by simpa using hb
    decide
  refine s.reply_digits_in_parentheses hne hnumeral hleft hright fun hends => ?_
  rw [hname] at hends
  cases hends

/-- **The last answer without parentheses**: among other operands it may stand as it is,
unless it is negative and a power follows, or the name of a function comes before it and an
operator after it. Parentheses around its digits alone never make a difference if it is
negative, since its minus is the operator in front of them. -/
theorem reply_answer_in_parentheses {s : Session} (hs : s.IsReachable) (left right : String)
    (hleft : ∀ c ∈ left.toList.getLast?, c ∈ "+-*/%^(,".toList)
    (hright : ∀ c ∈ right.toList.head?, c ∈ "+-*/%^),".toList) :
    (¬ (s.answer.toList.head? = some '-' ∧ right.toList.head? = some '^') →
      ¬ (endsInFunction (scan (plainText left)) ∧
        ∃ c ∈ right.toList.head?, c ∈ "+-*/%^".toList) →
      s.reply (left ++ s.answer ++ right) =
        s.reply (left ++ "(" ++ s.answer ++ ")" ++ right)) ∧
    ∀ digits, s.answer = "-" ++ digits →
      s.reply (left ++ s.answer ++ right) =
        s.reply (left ++ "-(" ++ digits ++ ")" ++ right) := by
  constructor
  · intro hsign hfunction
    have hname : endsInFunction (scan (plainText left)) →
        ∀ c ∈ right.toList.head?, c ∉ "+-*/%^".toList :=
      fun hends c hc hop => hfunction ⟨hends, c, hc, hop⟩
    obtain ⟨digits, hne, hnumeral, hform | hform⟩ := hs.isResultText_answer
    · rw [hform]
      exact s.reply_digits_in_parentheses hne hnumeral hleft hright hname
    · have hminus : s.answer.toList.head? = some '-' := by simp [hform]
      rw [hform]
      exact s.reply_minus_digits_in_parentheses hne hnumeral hleft hright
        (fun hpow => hsign ⟨hminus, hpow⟩) hname
  · intro rest hrest
    -- the minus belongs to what stands before the digits
    obtain ⟨digits, hne, hnumeral, rfl⟩ := (hrest ▸ hs.isResultText_answer).exists_of_minus
    have hopen : "-(" = "-" ++ "(" := rfl
    rw [hrest, hopen, ← String.append_assoc, ← String.append_assoc]
    exact s.reply_minus_then_digits hne hnumeral hright

/-- In the first session, where the answer is `0`, the text `sqrt+0-1` is refused, but not
`sqrt+(0)-1`. And `-2^2` is the opposite of a square, but `(-2)^2` is a square. -/
theorem reply_differs_in_parentheses :
    (withPlaces 12).IsReachable ∧
    (∀ c ∈ "sqrt+".toList, isAllowed c) ∧ (∀ c ∈ "-1".toList, isAllowed c) ∧
    (∀ c ∈ "sqrt+".toList.getLast?, c ∈ "+-*/%^(,".toList) ∧
    (∀ c ∈ "-1".toList.head?, c ∈ "+-*/%^),".toList) ∧
    ((withPlaces 12).reply ("sqrt+" ++ (withPlaces 12).answer ++ "-1")).1 = errorMarker ∧
    ((withPlaces 12).reply ("sqrt+" ++ "(" ++ (withPlaces 12).answer ++ ")" ++ "-1")).1 ≠
      errorMarker ∧
    postfixValue (toPostfix (scan (plainText "-2^2"))) = .ok (-Float.pow 2 2) ∧
    postfixValue (toPostfix (scan (plainText "(-2)^2"))) = .ok (Float.pow (-2) 2) := by
  have hbare : (PostfixCalc.evaluate "sqrt+0-1" (.clamp 12)).isOk = false := by decide +kernel
  have hgroup : (PostfixCalc.evaluate "sqrt+(0)-1" (.clamp 12)).isOk = true := by decide +kernel
  have hmarker : ∀ t, ((withPlaces 12).reply t).1 = errorMarker ↔
      (PostfixCalc.evaluate t (.clamp 12)).isOk = false := by
    intro t
    refine text_eq_errorMarker_iff.trans ?_
    have hprecision : (withPlaces 12).precision = .clamp 12 := rfl
    rw [hprecision]
    cases PostfixCalc.evaluate t (.clamp 12) <;> simp [Except.isOk, Except.toBool]
  have htwo : Numeral.value? "2" = some 2 := by decide +kernel
  obtain ⟨hpower, hsquare⟩ := postfixValue_minus_power htwo htwo
  refine ⟨⟨12, [], rfl⟩, by simp [isAllowed], by simp [isAllowed], by simp, by simp,
    (hmarker _).2 hbare, fun h => ?_, ?_, ?_⟩
  · have hrefused := (hmarker "sqrt+(0)-1").1 h
    rw [hgroup] at hrefused
    cases hrefused
  · have hscan : scan (plainText "-2^2") = [operator (.binary .sub), number "2",
        operator (.binary .pow), number "2"] := by decide +kernel
    rw [hscan, hpower]
  · have hscan : scan (plainText "(-2)^2") = grouped [] [operator (.binary .sub), number "2"]
        [operator (.binary .pow), number "2"] := by decide +kernel
    rw [hscan, hsquare]

/-- A negative answer as a factor, and before a power. -/
theorem reply_negative_answer_in_parentheses :
    ∃ s : Session, s.IsReachable ∧ s.answer = "-2" ∧
      s.reply "3*-2+1" = s.reply "3*(-2)+1" ∧ s.reply "3^-2^2" = s.reply "3^-(2)^2" := by
  have hs : ((withPlaces 0).after [.reply "0-2"]).IsReachable := ⟨0, _, rfl⟩
  have hanswer : ((withPlaces 0).after [.reply "0-2"]).answer = "-2" := by decide +kernel
  obtain ⟨hfactor, -⟩ := reply_answer_in_parentheses hs "3*" "+1" (by simp) (by simp)
  obtain ⟨-, hpower⟩ := reply_answer_in_parentheses hs "3^" "^2" (by simp) (by simp)
  have hfactor' := hfactor (by simp) (by decide +kernel)
  have hpower' := hpower "2" hanswer
  rw [hanswer] at hfactor' hpower'
  exact ⟨_, hs, hanswer, hfactor', hpower'⟩

end Session

end PostfixCalc

/-
# Runs of the postfix machine

A word that runs through on a stack touches nothing below that stack, and the number
of values that it leaves is settled by the word alone: every token takes a fixed number
of values and leaves one. A word that does not run through is refused for a cause in its
tokens. The tables of the machine hold what the nodes of trees mean, so that the postfix
word of a tree pushes the value of the tree (`Expr.run_postorder`).
-/
import Mathlib
import PostfixCalc.Expr
import PostfixCalc.Postfix.Machine

namespace PostfixCalc

/-! ## The tables of the machine -/

/-- The machine pushes for a constant what the constant means. -/
theorem Constant.value_eq_meaning (c : Constant) : c.value = c.meaning := by
  cases c <;> rfl

/-- The machine computes for a function what the function means. -/
theorem UnaryFunc.apply_eq_meaning (f : UnaryFunc) (x : Float) : f.apply x = f.meaning x := by
  cases f <;> rfl

/-- The machine computes for an operator what the operator means, with the operands in the
order of writing. -/
theorem BinaryOp.apply_eq_meaning (op : BinaryOp) (x y : Float) :
    op.apply x y = op.meaning x y := by
  cases op <;> rfl

/-! ## How many values a token adds -/

/-- By how much a token lengthens the stack when it can be read. Tokens that cannot be
read add nothing. -/
def Token.gain : Token → Int
  | .number _ => 1
  | .operator (.binary _) => -1
  | .name text =>
    match Constant.ofName? text, Func.ofName? text with
    | some _, _ => 1
    | none, some f => 1 - f.arity
    | none, none => 0
  | _ => 0

namespace Stack

/-! ## Functions -/

theorem call_unary (f : UnaryFunc) (x : Float) (s : Stack) :
    call (x :: s) (.unary f) = .ok (f.apply x :: s) := rfl

theorem call_pow (x y : Float) (s : Stack) :
    call (y :: x :: s) .pow = .ok (x.pow y :: s) := rfl

/-- A call that succeeds does the same above any values, and takes as many as the
function has arguments. -/
theorem call_eq_ok {s t : Stack} {f : Func} (h : s.call f = .ok t) :
    (∀ below : Stack, call (s ++ below) f = .ok (t ++ below)) ∧
      (t.length : Int) = s.length + (1 - f.arity) := by
  cases f with
  | unary f =>
    rcases s with _ | ⟨x, s⟩
    · cases h
    · obtain rfl := Except.ok.inj h
      exact ⟨fun below => call_unary f x (s ++ below), by simp [Func.arity]⟩
  | pow =>
    rcases s with _ | ⟨y, _ | ⟨x, s⟩⟩
    · cases h
    · cases h
    · obtain rfl := Except.ok.inj h
      refine ⟨fun below => call_pow x y (s ++ below), ?_⟩
      simp only [List.length_cons, Func.arity]
      omega

/-! ## Operators -/

/-- An operator that finds its operands does the same above any values, and leaves one
value for them. -/
theorem operate_eq_ok {s t : Stack} {op : Operator} (h : s.operate op = .ok t) :
    (∀ below : Stack, operate (s ++ below) op = .ok (t ++ below)) ∧
      (t.length : Int) = s.length + (Token.operator op).gain := by
  cases op with
  | neg =>
    rcases s with _ | ⟨x, s⟩
    · cases h
    · obtain rfl := Except.ok.inj h
      exact ⟨fun _ => rfl, by simp [Token.gain]⟩
  | binary op =>
    rcases s with _ | ⟨y, _ | ⟨x, s⟩⟩
    · cases h
    · cases h
    · obtain rfl := Except.ok.inj h
      refine ⟨fun _ => rfl, ?_⟩
      simp only [List.length_cons, Token.gain]
      omega

/-! ## Single tokens -/

/-- A token that can be read does the same above any values, and adds its gain. -/
theorem step_eq_ok {s t : Stack} {token : Token} (h : s.step token = .ok t) :
    (∀ below : Stack, step (s ++ below) token = .ok (t ++ below)) ∧
      (t.length : Int) = s.length + token.gain := by
  cases token with
  | number text =>
    simp only [step] at h ⊢
    cases hx : Numeral.value? text with
    | none => simp [hx] at h
    | some x =>
      simp only [hx] at h
      obtain rfl := Except.ok.inj h
      exact ⟨fun _ => rfl, by simp [Token.gain]⟩
  | operator op => exact operate_eq_ok h
  | name name =>
    simp only [step, Token.gain] at h ⊢
    cases hc : Constant.ofName? name with
    | some c =>
      simp only [hc] at h
      obtain rfl := Except.ok.inj h
      exact ⟨fun _ => rfl, by simp⟩
    | none =>
      cases hf : Func.ofName? name with
      | none => simp [hc, hf] at h
      | some f =>
        simp only [hc, hf] at h
        exact call_eq_ok h
  | lparen => cases h
  | rparen => cases h
  | comma => cases h

/-! ## Words -/

theorem run_cons (s : Stack) (token : Token) (word : List Token) :
    s.run (token :: word) = s.step token >>= (·.run word) :=
  List.foldlM_cons

/-- A word runs through when its first token can be read and then the rest runs through. -/
theorem run_cons_eq_ok {s t : Stack} {token : Token} {word : List Token} :
    s.run (token :: word) = .ok t ↔ ∃ s', s.step token = .ok s' ∧ s'.run word = .ok t := by
  rw [run_cons]
  cases hstep : s.step token with
  | error e =>
    constructor
    · intro h
      cases h
    · rintro ⟨s', h, -⟩
      cases h
  | ok s' =>
    constructor
    · intro h
      exact ⟨s', rfl, h⟩
    · rintro ⟨_, h, hrun⟩
      obtain rfl := Except.ok.inj h
      exact hrun

/-- A word that runs through runs through above any values, which it leaves in place. -/
theorem run_append_below {s t : Stack} {word : List Token} (h : s.run word = .ok t)
    (below : Stack) : run (s ++ below) word = .ok (t ++ below) := by
  induction word generalizing s with
  | nil =>
    obtain rfl := Except.ok.inj h
    rfl
  | cons token word ih =>
    obtain ⟨s', hstep, hrun⟩ := run_cons_eq_ok.1 h
    exact run_cons_eq_ok.2 ⟨s' ++ below, (step_eq_ok hstep).1 below, ih hrun⟩

/-- A word that runs through adds the gains of its tokens. -/
theorem length_of_run {s t : Stack} {word : List Token} (h : s.run word = .ok t) :
    (t.length : Int) = s.length + (word.map Token.gain).sum := by
  induction word generalizing s with
  | nil =>
    obtain rfl := Except.ok.inj h
    simp
  | cons token word ih =>
    obtain ⟨s', hstep, hrun⟩ := run_cons_eq_ok.1 h
    have hrest := ih hrun
    have hfirst := (step_eq_ok hstep).2
    rw [List.map_cons, List.sum_cons]
    omega

end Stack

/-! ## Values -/

/-- A word has a value if it leaves just that value on the empty stack. -/
theorem postfixValue_eq_ok_iff {word : List Token} {x : Float} :
    postfixValue word = .ok x ↔ Stack.run [] word = .ok [x] := by
  rw [postfixValue]
  cases hrun : Stack.run [] word with
  | error e =>
    show Except.error e = .ok x ↔ _
    simp
  | ok s =>
    show s.result = .ok x ↔ _
    -- no value, one value, or more than one
    rcases s with _ | ⟨y, _ | ⟨z, s⟩⟩ <;> simp [Stack.result]

/-! ## Words of trees -/

namespace Stack

theorem run_singleton (s : Stack) (token : Token) : s.run [token] = s.step token := by
  rw [run, List.foldlM_cons]
  cases s.step token <;> rfl

/-- The last token of a word is read on what the tokens before it leave. -/
theorem run_concat (s : Stack) (word : List Token) (token : Token) :
    s.run (word ++ [token]) = s.run word >>= (·.step token) := by
  simp only [run_append, run_singleton]

/-- The name of a function calls it. -/
theorem step_funcName (f : Func) (s : Stack) : s.step (.name f.name) = s.call f := by
  rw [step, Constant.ofName?_funcName, Func.ofName?_name]

theorem step_constant (c : Constant) (s : Stack) :
    s.step (.name c.name) = .ok (c.meaning :: s) := by
  rw [step, Constant.ofName?_name, ← c.value_eq_meaning]

theorem step_binary (op : BinaryOp) (x y : Float) (s : Stack) :
    step (y :: x :: s) (.operator (.binary op)) = .ok (op.meaning x y :: s) := by
  rw [← op.apply_eq_meaning]
  rfl

theorem step_unary (f : UnaryFunc) (x : Float) (s : Stack) :
    step (x :: s) (.name (Func.unary f).name) = .ok (f.meaning x :: s) := by
  rw [step_funcName, ← f.apply_eq_meaning]
  exact call_unary f x s

theorem step_pow (x y : Float) (s : Stack) :
    step (y :: x :: s) (.name Func.pow.name) = .ok (x.pow y :: s) := by
  rw [step_funcName]
  exact call_pow x y s

end Stack

/-- Whatever lies on the stack, the postfix word of a tree pushes the value of the
tree, and is refused for the cause for which the tree has no value. -/
theorem Expr.run_postorder (e : Expr) (s : Stack) :
    s.run e.postorder = e.value.map (· :: s) := by
  induction e generalizing s with
  | number text =>
    rw [postorder, Stack.run_singleton, Stack.step, value]
    cases Numeral.value? text <;> rfl
  | constant c =>
    rw [postorder, Stack.run_singleton, Stack.step_constant]
    rfl
  | neg x ih =>
    rw [postorder, Stack.run_concat, ih, value]
    cases x.value <;> rfl
  | binary op x y ihx ihy =>
    rw [postorder, Stack.run_concat, Stack.run_append, ihx, value]
    cases x.value with
    | error e => rfl
    | ok a =>
      change (Stack.run (a :: s) y.postorder >>= _) = _
      rw [ihy]
      cases y.value with
      | error e => rfl
      | ok b => exact Stack.step_binary op a b s
  | call f x ih =>
    rw [postorder, Stack.run_concat, ih, value]
    cases x.value with
    | error e => rfl
    | ok a => exact Stack.step_unary f a s
  | callPow x y ihx ihy =>
    rw [postorder, Stack.run_concat, Stack.run_append, ihx, value]
    cases x.value with
    | error e => rfl
    | ok a =>
      change (Stack.run (a :: s) y.postorder >>= _) = _
      rw [ihy]
      cases y.value with
      | error e => rfl
      | ok b => exact Stack.step_pow a b s

/-! ## Causes of refusal -/

/-- Whether a cause lies in the tokens of a text, rather than in its characters. -/
def EvalError.isOfTokens : EvalError → Bool
  | .emptyInput | .forbiddenChar _ => false
  | _ => true

/-- The causes for which a token can be refused: a number and a name for their text, operators and
functions for want of operands, parentheses and commas wherever they stand. -/
inductive Token.RefusedFor : Token → EvalError → Prop where
  | number {text} : Numeral.value? text = none →
      RefusedFor (.number text) (.invalidNumber text)
  | name {name} : Constant.ofName? name = none → Func.ofName? name = none →
      RefusedFor (.name name) (.unknownFunction name)
  | function {name f} : Func.ofName? name = some f →
      RefusedFor (.name name) (.malformed .missingOperand)
  | operator (op) : RefusedFor (.operator op) (.malformed .missingOperand)
  | lparen : RefusedFor .lparen (.malformed .unmatchedParenthesis)
  | rparen : RefusedFor .rparen (.malformed .unmatchedParenthesis)
  | comma : RefusedFor .comma (.malformed .strayComma)

namespace Stack

/-- A call fails for want of operands, if at all. -/
theorem call_eq_error {s : Stack} {f : Func} {cause : EvalError} (h : s.call f = .error cause) :
    cause = .malformed .missingOperand := by
  cases f with
  | unary f =>
    rcases s with _ | ⟨x, s⟩
    · exact (Except.error.inj h).symm
    · rw [call_unary] at h
      cases h
  | pow =>
    rcases s with _ | ⟨y, _ | ⟨x, s⟩⟩
    · exact (Except.error.inj h).symm
    · exact (Except.error.inj h).symm
    · rw [call_pow] at h
      cases h

/-- An operator fails for want of operands, if at all. -/
theorem operate_eq_error {s : Stack} {op : Operator} {cause : EvalError}
    (h : s.operate op = .error cause) : cause = .malformed .missingOperand := by
  cases op with
  | neg =>
    rcases s with _ | ⟨x, s⟩
    · exact (Except.error.inj h).symm
    · cases h
  | binary op =>
    rcases s with _ | ⟨y, _ | ⟨x, s⟩⟩
    · exact (Except.error.inj h).symm
    · exact (Except.error.inj h).symm
    · cases h

/-- What a token is refused for, if at all. -/
theorem refusedFor_of_step {s : Stack} {token : Token} {cause : EvalError}
    (h : s.step token = .error cause) : token.RefusedFor cause := by
  cases token with
  | number text =>
    rw [step] at h
    cases hx : Numeral.value? text with
    | some x => simp [hx] at h
    | none =>
      rw [hx] at h
      obtain rfl := Except.error.inj h
      exact .number hx
  | operator op =>
    obtain rfl := operate_eq_error h
    exact .operator op
  | name name =>
    rw [step] at h
    cases hc : Constant.ofName? name with
    | some c => simp [hc] at h
    | none =>
      cases hf : Func.ofName? name with
      | none =>
        rw [hc, hf] at h
        obtain rfl := Except.error.inj h
        exact .name hc hf
      | some f =>
        rw [hc, hf] at h
        obtain rfl := call_eq_error h
        exact .function hf
  | lparen =>
    obtain rfl := Except.error.inj h
    exact .lparen
  | rparen =>
    obtain rfl := Except.error.inj h
    exact .rparen
  | comma =>
    obtain rfl := Except.error.inj h
    exact .comma

/-- A word does not run through because of one of its tokens. -/
theorem exists_refusedFor_of_run {s : Stack} {word : List Token} {cause : EvalError}
    (h : s.run word = .error cause) : ∃ token ∈ word, token.RefusedFor cause := by
  induction word generalizing s with
  | nil => cases h
  | cons token word ih =>
    rw [run_cons] at h
    cases hstep : s.step token with
    | error cause' =>
      rw [hstep] at h
      obtain rfl := Except.error.inj h
      exact ⟨token, List.mem_cons_self, refusedFor_of_step hstep⟩
    | ok s' =>
      rw [hstep] at h
      obtain ⟨token', hmem, hrefused⟩ := ih h
      exact ⟨token', List.mem_cons_of_mem token hmem, hrefused⟩

end Stack

/-- A word is refused because of one of its tokens, or for the number of values that it
leaves. -/
theorem refusedFor_of_postfixValue {word : List Token} {cause : EvalError}
    (h : postfixValue word = .error cause) :
    (∃ token ∈ word, token.RefusedFor cause) ∨ cause = .malformed .noValue ∨
      cause = .malformed .extraOperands := by
  rw [postfixValue] at h
  cases hrun : Stack.run [] word with
  | error cause' =>
    rw [hrun] at h
    obtain rfl := Except.error.inj h
    exact Or.inl (Stack.exists_refusedFor_of_run hrun)
  | ok s =>
    rw [hrun] at h
    change s.result = .error cause at h
    -- no value, one value, or more than one
    rcases s with _ | ⟨y, _ | ⟨z, s⟩⟩
    · exact Or.inr (Or.inl (Except.error.inj h).symm)
    · cases h
    · exact Or.inr (Or.inr (Except.error.inj h).symm)

/-- A word is refused for a cause in its tokens. -/
theorem isOfTokens_of_postfixValue {word : List Token} {cause : EvalError}
    (h : postfixValue word = .error cause) : cause.isOfTokens := by
  rcases refusedFor_of_postfixValue h with ⟨token, -, hrefused⟩ | rfl | rfl
  · cases hrefused <;> rfl
  · rfl
  · rfl

end PostfixCalc

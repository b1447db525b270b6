/-
# The words that the machine accepts

The machine accepts exactly the postfix words of trees, with names in any case of letters,
and what it computes is the value of the tree. The argument runs a second machine beside
the first one, with trees on its stack instead of values: what it has read is at every
moment the row of postfix words of its trees, and it follows the first machine as long as
that one runs. Read on the postfix word of a tree it gives the tree back, so no word is
that of two trees.
-/
import Mathlib
import PostfixCalc.Expr
import PostfixCalc.Proofs.Machine
import PostfixCalc.Proofs.Vocabulary

namespace PostfixCalc

/-! ## Names in lower case -/

/-- A token with its name, if it is one, in lower case. -/
def Token.lowered : Token → Token
  | .name text => .name text.toLower
  | t => t

/-- The machine reads a name as it reads the name in lower case; only the cause that it
reports for an unknown name differs. -/
theorem Stack.step_lowered_eq_ok_iff {s t : Stack} {token : Token} :
    s.step token.lowered = .ok t ↔ s.step token = .ok t := by
  cases token with
  | name text =>
    rw [Token.lowered, step, step, Constant.ofName?_toLower, Func.ofName?_toLower]
    cases Constant.ofName? text <;> cases Func.ofName? text <;> simp
  | _ => rfl

/-- A word runs through exactly when it does so with its names in lower case. -/
theorem Stack.run_map_lowered_eq_ok_iff {s t : Stack} {word : List Token} :
    s.run (word.map Token.lowered) = .ok t ↔ s.run word = .ok t := by
  induction word generalizing s with
  | nil => rfl
  | cons token word ih =>
    rw [List.map_cons, run_cons_eq_ok, run_cons_eq_ok]
    simp only [step_lowered_eq_ok_iff, ih]

/-! ## A stack of trees -/

/-- The trees that have been built so far, the latest first. -/
abbrev Forest := List Expr

namespace Forest

/-- The postfix words of all trees, that of the latest tree last. -/
def word : Forest → List Token
  | [] => []
  | e :: es => word es ++ e.postorder

/-- Makes one tree of the operands of an operator. -/
def operate (es : Forest) : Operator → Option Forest
  | .neg =>
    match es with
    | x :: rest => some (.neg x :: rest)
    | [] => none
  | .binary op =>
    match es with
    | y :: x :: rest => some (.binary op x y :: rest)
    | _ => none

/-- Makes one tree of the arguments of a function. -/
def call (es : Forest) : Func → Option Forest
  | .unary f =>
    match es with
    | x :: rest => some (.call f x :: rest)
    | [] => none
  | .pow =>
    match es with
    | y :: x :: rest => some (.callPow x y :: rest)
    | _ => none

/-- Reads one token, whose number may be no numeral. -/
def step (es : Forest) : Token → Option Forest
  | .number text => some (.number text :: es)
  | .operator op => es.operate op
  | .name name =>
    match Constant.ofName? name, Func.ofName? name with
    | some c, _ => some (.constant c :: es)
    | none, some f => es.call f
    | none, none => none
  | .lparen | .rparen | .comma => none

/-- Reads a word, token by token. -/
def run (es : Forest) (word : List Token) : Option Forest := word.foldlM step es

theorem run_cons (es : Forest) (t : Token) (word : List Token) :
    es.run (t :: word) = (es.step t).bind (·.run word) := rfl

theorem run_append (es : Forest) (u v : List Token) :
    es.run (u ++ v) = (es.run u).bind (·.run v) :=
  List.foldlM_append

/-! ### The word of a stack -/

theorem word_operate {es es' : Forest} {op : Operator} (h : es.operate op = some es') :
    es'.word = es.word ++ [.operator op] := by
  cases op with
  | neg =>
    rcases es with _ | ⟨x, es⟩
    · cases h
    · obtain rfl := Option.some.inj h
      simp [word, Expr.postorder]
  | binary op =>
    rcases es with _ | ⟨y, _ | ⟨x, es⟩⟩
    · cases h
    · cases h
    · obtain rfl := Option.some.inj h
      simp [word, Expr.postorder]

theorem word_call {es es' : Forest} {f : Func} (h : es.call f = some es') :
    es'.word = es.word ++ [.name f.name] := by
  cases f with
  | unary f =>
    rcases es with _ | ⟨x, es⟩
    · cases h
    · obtain rfl := Option.some.inj h
      simp [word, Expr.postorder]
  | pow =>
    rcases es with _ | ⟨y, _ | ⟨x, es⟩⟩
    · cases h
    · cases h
    · obtain rfl := Option.some.inj h
      simp [word, Expr.postorder]

/-- A token that is read joins the word of the stack, with its name in lower case. -/
theorem word_step {es es' : Forest} {t : Token} (h : es.step t = some es') :
    es'.word = es.word ++ [t.lowered] := by
  cases t with
  | number text =>
    obtain rfl := Option.some.inj h
    rfl
  | operator op => exact word_operate h
  | name name =>
    rw [step] at h
    cases hc : Constant.ofName? name with
    | some c =>
      rw [hc] at h
      obtain rfl := Option.some.inj h
      rw [Token.lowered, Constant.ofName?_eq_some_iff.1 hc]
      rfl
    | none =>
      cases hf : Func.ofName? name with
      | none => simp [hc, hf] at h
      | some f =>
        rw [hc, hf] at h
        rw [word_call h, Token.lowered, Func.ofName?_eq_some_iff.1 hf]
  | lparen => cases h
  | rparen => cases h
  | comma => cases h

/-- A word that is read joins the word of the stack. -/
theorem word_run {es es' : Forest} {r : List Token} (h : es.run r = some es') :
    es'.word = es.word ++ r.map Token.lowered := by
  induction r generalizing es with
  | nil =>
    obtain rfl := Option.some.inj h
    simp
  | cons t r ih =>
    rw [run_cons, Option.bind_eq_some_iff] at h
    obtain ⟨mid, hstep, hrun⟩ := h
    rw [ih hrun, word_step hstep]
    simp

/-! ### The postfix word of a tree -/

/-- Whatever lies on the stack, the postfix word of a tree is read as that tree. -/
theorem run_postorder (e : Expr) (es : Forest) : es.run e.postorder = some (e :: es) := by
  induction e generalizing es with
  | number text => rfl
  | constant c => simp [Expr.postorder, run, step]
  | neg x ih =>
    rw [Expr.postorder, run_append, ih]
    rfl
  | binary op x y ihx ihy =>
    rw [Expr.postorder, run_append, run_append, ihx, Option.bind_some, ihy]
    rfl
  | call f x ih =>
    rw [Expr.postorder, run_append, ih, Option.bind_some]
    simp [run, step, call]
  | callPow x y ihx ihy =>
    rw [Expr.postorder, run_append, run_append, ihx, Option.bind_some, ihy, Option.bind_some]
    simp [run, step, call]

/-- No word is the postfix word of two trees. -/
theorem postorder_injective : Function.Injective Expr.postorder := by
  intro e e' h
  have hrun := run_postorder e []
  rw [h, run_postorder e' []] at hrun
  exact (List.cons.inj (Option.some.inj hrun)).1.symm

/-! ### Trees of the values -/

/-- The trees of `es` have the values of `s`, one by one. -/
abbrev HasValues (es : Forest) (s : Stack) : Prop :=
  List.Forall₂ (fun (e : Expr) x => e.value = .ok x) es s

theorem operate_of_hasValues {es : Forest} {s s' : Stack} {op : Operator}
    (h : es.HasValues s) (hs : s.operate op = .ok s') :
    ∃ es', es.operate op = some es' ∧ HasValues es' s' := by
  cases op with
  | neg =>
    rcases h with _ | ⟨hx, hrest⟩
    · cases hs
    · obtain rfl := Except.ok.inj hs
      refine ⟨_, rfl, .cons ?_ hrest⟩
      rw [Expr.value, hx]
      rfl
  | binary op =>
    rcases h with _ | ⟨hy, _ | ⟨hx, hrest⟩⟩
    · cases hs
    · cases hs
    · obtain rfl := Except.ok.inj hs
      refine ⟨_, rfl, .cons ?_ hrest⟩
      rw [Expr.value, hx, hy, op.apply_eq_meaning]
      rfl

theorem call_of_hasValues {es : Forest} {s s' : Stack} {f : Func}
    (h : es.HasValues s) (hs : s.call f = .ok s') :
    ∃ es', es.call f = some es' ∧ HasValues es' s' := by
  cases f with
  | unary f =>
    rcases h with _ | ⟨hx, hrest⟩
    · cases hs
    · obtain rfl := Except.ok.inj hs
      refine ⟨_, rfl, .cons ?_ hrest⟩
      rw [Expr.value, hx, f.apply_eq_meaning]
      rfl
  | pow =>
    rcases h with _ | ⟨hy, _ | ⟨hx, hrest⟩⟩
    · cases hs
    · cases hs
    · obtain rfl := Except.ok.inj hs
      refine ⟨_, rfl, .cons ?_ hrest⟩
      rw [Expr.value, hx, hy]
      rfl

/-- A token that can be read on the values can be read on their trees. -/
theorem step_of_hasValues {es : Forest} {s s' : Stack} {t : Token}
    (h : es.HasValues s) (hs : s.step t = .ok s') :
    ∃ es', es.step t = some es' ∧ HasValues es' s' := by
  cases t with
  | number text =>
    rw [Stack.step] at hs
    cases hx : Numeral.value? text with
    | none => simp [hx] at hs
    | some x =>
      rw [hx] at hs
      obtain rfl := Except.ok.inj hs
      refine ⟨_, rfl, .cons ?_ h⟩
      rw [Expr.value, hx]
  | operator op => exact operate_of_hasValues h hs
  | name name =>
    rw [Stack.step] at hs
    rw [step]
    cases hc : Constant.ofName? name with
    | some c =>
      rw [hc] at hs
      obtain rfl := Except.ok.inj hs
      refine ⟨_, rfl, .cons ?_ h⟩
      rw [Expr.value, c.value_eq_meaning]
    | none =>
      cases hf : Func.ofName? name with
      | none => simp [hc, hf] at hs
      | some f =>
        rw [hc, hf] at hs
        exact call_of_hasValues h hs
  | lparen => cases hs
  | rparen => cases hs
  | comma => cases hs

/-- A word that runs through on the values is read on their trees. -/
theorem run_of_hasValues {es : Forest} {s s' : Stack} {r : List Token}
    (h : es.HasValues s) (hs : s.run r = .ok s') :
    ∃ es', es.run r = some es' ∧ HasValues es' s' := by
  -- both machines read the same token, and the trees go on having the values
  induction r generalizing es s with
  | nil =>
    obtain rfl := Except.ok.inj hs
    exact ⟨es, rfl, h⟩
  | cons t r ih =>
    obtain ⟨mid, hstep, hrun⟩ := Stack.run_cons_eq_ok.1 hs
    obtain ⟨es₁, hes₁, h₁⟩ := step_of_hasValues h hstep
    obtain ⟨es₂, hes₂, h₂⟩ := ih h₁ hrun
    refine ⟨es₂, ?_, h₂⟩
    rw [run_cons, hes₁]
    exact hes₂

end Forest

/-! ## Accepted words -/

/-- A word with a value is the postfix word of a tree with that value. -/
theorem exists_postorder_of_postfixValue {r : List Token} {x : Float}
    (h : postfixValue r = .ok x) :
    ∃ e : Expr, e.postorder = r.map Token.lowered ∧ e.value = .ok x := by
  have hrun := postfixValue_eq_ok_iff.1 h
  obtain ⟨es, hes, hvalues⟩ := Forest.run_of_hasValues List.Forall₂.nil hrun
  rcases hvalues with _ | ⟨hvalue, _ | _⟩
  rename_i e
  have hword := Forest.word_run hes
  exact ⟨e, by simpa [Forest.word] using hword, hvalue⟩

/-- The postfix word of a tree with a value has that value, in whatever case its names
are written. -/
theorem postfixValue_of_postorder {r : List Token} {e : Expr} {x : Float}
    (hr : e.postorder = r.map Token.lowered) (hx : e.value = .ok x) :
    postfixValue r = .ok x := by
  rw [postfixValue_eq_ok_iff, ← Stack.run_map_lowered_eq_ok_iff, ← hr, Expr.run_postorder, hx]
  rfl

/-- **The machine accepts exactly the postfix words of trees**: a row of tokens has a value
if and only if, with its names in lower case, it is the postfix word of a tree with that
value; and it is the postfix word of at most one tree. -/
theorem postfixValue_eq_ok_iff_postorder (r : List Token) (x : Float) :
    (postfixValue r = .ok x ↔
      ∃ e : Expr, e.postorder = r.map Token.lowered ∧ e.value = .ok x) ∧
    {e : Expr | e.postorder = r.map Token.lowered}.Subsingleton := by
  refine ⟨⟨exists_postorder_of_postfixValue, ?_⟩, ?_⟩
  · rintro ⟨e, hr, hx⟩
    exact postfixValue_of_postorder hr hx
  · intro e he e' he'
    exact Forest.postorder_injective (Eq.trans he he'.symm)

end PostfixCalc

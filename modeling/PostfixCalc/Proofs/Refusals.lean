/-
# Refusals for the structure of a row

Of the causes that concern the structure of a row, some belong to postfix words only and some to no
word at all. No comma reaches a postfix word, and a parenthesis reaches it only without a partner.
Whatever the word, a function takes as many arguments as it has, and every token that is read leaves
a value, so the machine ends without one only if there was nothing to read.
-/
import PostfixCalc.Proofs.Acceptance
import PostfixCalc.Proofs.Brackets

namespace PostfixCalc

/-! ## Parentheses without a partner -/

/-- A row has a parenthesis without a partner: an open one that is not closed behind it, or a
closing one that is not opened before it. -/
def HasUnmatched (ts : List Token) : Prop :=
  ∃ before t after, ts = before ++ t :: after ∧
    (t = .lparen ∧ ¬ IsClosedIn after ∨ t = .rparen ∧ ¬ IsOpenedIn before)

/-- A token is left of a row if it is left of a token in its place. -/
theorem mem_leftOfAll_iff {before ts : List Token} {u : Token} :
    u ∈ leftOfAll before ts ↔
      ∃ us t vs, ts = us ++ t :: vs ∧ u ∈ leftOf (before ++ us) vs t := by
  induction ts generalizing before with
  | nil => simp [leftOfAll]
  | cons t ts ih =>
    rw [leftOfAll, List.mem_append, ih]
    constructor
    · rintro (hu | ⟨us, v, vs, rfl, hu⟩)
      · exact ⟨[], t, ts, rfl, by rwa [List.append_nil]⟩
      · exact ⟨t :: us, v, vs, rfl, by rwa [List.append_cons]⟩
    · rintro ⟨us, v, vs, heq, hu⟩
      rcases List.cons_eq_append_iff.1 heq with ⟨rfl, hcons⟩ | ⟨us', rfl, rfl⟩
      · obtain ⟨rfl, rfl⟩ := List.cons.inj hcons
        rw [List.append_nil] at hu
        exact Or.inl hu
      · rw [List.append_cons] at hu
        exact Or.inr ⟨us', v, vs, rfl, hu⟩

theorem comma_not_mem_leftOf (before after : List Token) (t : Token) :
    .comma ∉ leftOf before after t := by
  intro h
  cases t with
  | operator op =>
    simp only [leftOf, Token.kept] at h
    split_ifs at h <;> simp at h
  | lparen | rparen =>
    rw [leftOf] at h
    split_ifs at h <;> simp at h
  | _ => simp [leftOf, Token.kept] at h

/-- What is left of a token is a parenthesis exactly if the token is one without a partner. -/
theorem mem_leftOf_iff_of_paren {before after : List Token} {t u : Token}
    (hu : u.isContent = false) :
    u ∈ leftOf before after t ↔
      u = t ∧ (t = .lparen ∧ ¬ IsClosedIn after ∨ t = .rparen ∧ ¬ IsOpenedIn before) := by
  by_cases ht : t.isContent
  · rw [leftOf_of_isContent before after ht]
    constructor
    · intro hmem
      rw [Token.isContent_kept _ hmem] at hu
      cases hu
    · rintro ⟨-, ⟨rfl, -⟩ | ⟨rfl, -⟩⟩ <;> cases ht
  · cases t with
    | lparen =>
      rw [leftOf]
      split_ifs with hclosed <;> simp [hclosed]
    | rparen =>
      rw [leftOf]
      split_ifs with hopened <;> simp [hopened]
    | _ => exact absurd rfl ht

theorem mem_toPostfix_iff {ts : List Token} {u : Token} :
    u ∈ toPostfix ts ↔ u ∈ leftOfAll [] ts := by
  have h := Yard.finish_passAll [] ts
  have hstart : Yard.start.openCount = 0 := rfl
  have hempty : Yard.start.finish = [] := rfl
  rw [Yard.passAll_nil, hstart, hempty, Nat.zero_min, List.append_nil] at h
  exact h.mem_iff

theorem comma_not_mem_toPostfix (ts : List Token) : .comma ∉ toPostfix ts := by
  rw [mem_toPostfix_iff, mem_leftOfAll_iff]
  rintro ⟨us, t, vs, -, hmem⟩
  exact comma_not_mem_leftOf _ _ t hmem

/-- A parenthesis is in the postfix word of a row exactly if one in the row has no partner. -/
theorem hasUnmatched_iff {ts : List Token} :
    HasUnmatched ts ↔ .lparen ∈ toPostfix ts ∨ .rparen ∈ toPostfix ts := by
  rw [mem_toPostfix_iff, mem_toPostfix_iff, mem_leftOfAll_iff, mem_leftOfAll_iff]
  simp only [mem_leftOf_iff_of_paren (u := .lparen) rfl, mem_leftOf_iff_of_paren (u := .rparen) rfl,
    List.nil_append]
  constructor
  · rintro ⟨before, t, after, hts, ⟨rfl, hopen⟩ | ⟨rfl, hclosed⟩⟩
    · exact Or.inl ⟨before, .lparen, after, hts, rfl, Or.inl ⟨rfl, hopen⟩⟩
    · exact Or.inr ⟨before, .rparen, after, hts, rfl, Or.inr ⟨rfl, hclosed⟩⟩
  · rintro (⟨before, t, after, hts, -, halone⟩ | ⟨before, t, after, hts, -, halone⟩)
    · exact ⟨before, t, after, hts, halone⟩
    · exact ⟨before, t, after, hts, halone⟩

/-! ## The stack after a token -/

namespace Stack

/-- A value that is pushed is left. -/
theorem ne_nil_of_push {x : Float} {s t : Stack}
    (h : (.ok (x :: s) : Except EvalError Stack) = .ok t) : t ≠ [] := by
  obtain rfl := Except.ok.inj h
  exact List.cons_ne_nil x s

theorem ne_nil_of_call {s t : Stack} {f : Func} (h : s.call f = .ok t) : t ≠ [] := by
  cases f with
  | unary f =>
    rcases s with _ | ⟨x, s⟩
    · cases h
    · rw [call_unary] at h
      exact ne_nil_of_push h
  | pow =>
    rcases s with _ | ⟨y, _ | ⟨x, s⟩⟩
    · cases h
    · cases h
    · rw [call_pow] at h
      exact ne_nil_of_push h

theorem ne_nil_of_operate {s t : Stack} {op : Operator} (h : s.operate op = .ok t) : t ≠ [] := by
  cases op with
  | neg =>
    rcases s with _ | ⟨x, s⟩
    · cases h
    · exact ne_nil_of_push h
  | binary op =>
    rcases s with _ | ⟨y, _ | ⟨x, s⟩⟩
    · cases h
    · cases h
    · exact ne_nil_of_push h

/-- A token that is read leaves a value. -/
theorem ne_nil_of_step {s t : Stack} {token : Token} (h : s.step token = .ok t) : t ≠ [] := by
  cases token with
  | number text =>
    rw [step] at h
    cases hx : Numeral.value? text with
    | none => simp [hx] at h
    | some x =>
      rw [hx] at h
      exact ne_nil_of_push h
  | operator op => exact ne_nil_of_operate h
  | name name =>
    rw [step] at h
    cases hc : Constant.ofName? name with
    | some c =>
      rw [hc] at h
      exact ne_nil_of_push h
    | none =>
      cases hf : Func.ofName? name with
      | none => simp [hc, hf] at h
      | some f =>
        rw [hc, hf] at h
        exact ne_nil_of_call h
  | lparen | rparen | comma => cases h

/-- A word that runs through leaves a value, unless it is empty. -/
theorem ne_nil_of_run {s t : Stack} {word : List Token} (hword : word ≠ [])
    (h : s.run word = .ok t) : t ≠ [] := by
  rcases List.eq_nil_or_concat word with rfl | ⟨first, token, rfl⟩
  · exact absurd rfl hword
  · rw [List.concat_eq_append, run_append] at h
    cases hfirst : s.run first with
    | error cause =>
      rw [hfirst] at h
      cases h
    | ok s' =>
      rw [hfirst] at h
      obtain ⟨t', hstep, hrest⟩ := run_cons_eq_ok.1 h
      obtain rfl := Except.ok.inj hrest
      exact ne_nil_of_step hstep

end Stack

/-- A word ends without a value only if it is empty. -/
theorem postfixValue_eq_noValue_iff {word : List Token} :
    postfixValue word = .error (.malformed .noValue) ↔ word = [] := by
  constructor
  · intro h
    by_contra hword
    rw [postfixValue] at h
    cases hrun : Stack.run [] word with
    | error cause =>
      rw [hrun] at h
      obtain rfl := Except.error.inj h
      -- no token is refused for that cause
      obtain ⟨token, -, hrefused⟩ := Stack.exists_refusedFor_of_run hrun
      cases hrefused
    | ok s =>
      rw [hrun] at h
      rcases s with _ | ⟨y, _ | ⟨z, s⟩⟩
      · exact Stack.ne_nil_of_run hword hrun rfl
      · cases h
      · cases h
  · rintro rfl
    rfl

/-! ## Causes -/

/-- **Refusals for the structure of a row**: no row is refused for a comma, and one is refused for
a parenthesis only if it has a parenthesis without a partner, which in turn no row with a value
has. No postfix word at all is refused for the number of arguments of a function, and only the
empty one for having no value. -/
theorem refusals_of_structure :
    (∀ ts : List Token,
      postfixValue (toPostfix ts) ≠ .error (.malformed .strayComma) ∧
      (postfixValue (toPostfix ts) = .error (.malformed .unmatchedParenthesis) →
        HasUnmatched ts) ∧
      (HasUnmatched ts → ∀ x, postfixValue (toPostfix ts) ≠ .ok x)) ∧
    ∀ word : List Token,
      postfixValue word ≠ .error (.malformed .wrongArgumentCount) ∧
      (postfixValue word = .error (.malformed .noValue) ↔ word = []) := by
  refine ⟨fun ts => ⟨fun h => ?_, fun h => ?_, fun hunmatched x hx => ?_⟩,
    fun word => ⟨fun h => ?_, postfixValue_eq_noValue_iff⟩⟩
  · rcases refusedFor_of_postfixValue h with ⟨token, hmem, hrefused⟩ | hcause | hcause
    · cases hrefused
      exact comma_not_mem_toPostfix ts hmem
    · cases hcause
    · cases hcause
  · rw [hasUnmatched_iff]
    rcases refusedFor_of_postfixValue h with ⟨token, hmem, hrefused⟩ | hcause | hcause
    · cases hrefused with
      | lparen => exact Or.inl hmem
      | rparen => exact Or.inr hmem
    · cases hcause
    · cases hcause
  · rcases hasUnmatched_iff.1 hunmatched with hmem | hmem
    · cases isReadable_of_postfixValue hx _ hmem
    · cases isReadable_of_postfixValue hx _ hmem
  · rcases refusedFor_of_postfixValue h with ⟨token, -, hrefused⟩ | hcause | hcause
    · cases hrefused
    · cases hcause
    · cases hcause

/-- A comma alone is a word that is refused for it, although no row has this postfix word. -/
example : postfixValue [.comma] = .error (.malformed .strayComma) := rfl

/-- The row `(1,2+3))` is refused for its last parenthesis, and the row `(2` has no value. -/
theorem refusals_of_unmatched_parentheses :
    let closing : List Token := [.lparen, .number "1", .comma, .number "2",
      .operator (.binary .add), .number "3", .rparen, .rparen]
    let opening : List Token := [.lparen, .number "2"]
    (postfixValue (toPostfix closing) = .error (.malformed .unmatchedParenthesis) ∧
      HasUnmatched closing) ∧
    (HasUnmatched opening ∧ ∀ x, postfixValue (toPostfix opening) ≠ .ok x) := by
  intro closing opening
  have hclosing : postfixValue (toPostfix closing) =
      .error (.malformed .unmatchedParenthesis) := by rfl
  have hopening : HasUnmatched opening := ⟨[], .lparen, [.number "2"], rfl, Or.inl ⟨rfl, by decide⟩⟩
  exact ⟨⟨hclosing, (refusals_of_structure.1 closing).2.1 hclosing⟩,
    hopening, (refusals_of_structure.1 opening).2.2 hopening⟩

end PostfixCalc

/-
# The yard on top of other tokens

A yard can be run on top of tokens that were sent out before and tokens that wait
below its own. As long as no parenthesis is closed that was opened below, the run
neither reads nor moves what lies under it, so it does the same as it would alone.
The open parentheses on the pending track are exactly the ones still to be closed.
-/
import Mathlib
import PostfixCalc.Postfix.ShuntingYard

namespace PostfixCalc

namespace Yard

/-! ## Single tokens -/

@[simp] theorem passAll_nil (y : Yard) : y.passAll [] = y := rfl

@[simp] theorem passAll_cons (y : Yard) (t : Token) (ts : List Token) :
    y.passAll (t :: ts) = (y.pass t).passAll ts := rfl

/-- An open parenthesis waits, and an operand should follow. -/
theorem pass_lparen (out below : List Token) (x : Bool) :
    (⟨out, below, x⟩ : Yard).pass .lparen = ⟨out, .lparen :: below, true⟩ := rfl

/-- Where no operand should begin, every operator stands between two operands. -/
theorem pass_operator (out below : List Token) (op : Operator) :
    (⟨out, below, false⟩ : Yard).pass (.operator op) =
      (⟨out, below, false⟩ : Yard).passInfix op := rfl

/-! ## Operators -/

/-- A minus where an operand should begin is a change of sign. -/
theorem passOperator_sub {y : Yard} (hx : y.expectsOperand = true) :
    y.passOperator (.binary .sub) = y.hold (.operator .neg) := by
  simp [passOperator, hx]

/-- A plus where an operand should begin is left out. -/
theorem passOperator_add {y : Yard} (hx : y.expectsOperand = true) :
    y.passOperator (.binary .add) = y := by
  simp [passOperator, hx]

/-- Any other operator passes as one between two operands. -/
theorem passOperator_eq_passInfix {y : Yard} {op : Operator}
    (h : y.expectsOperand = true → op ≠ .binary .sub ∧ op ≠ .binary .add) :
    y.passOperator op = y.passInfix op := by
  unfold passOperator
  split
  · next hx => exact absurd rfl (h hx).1
  · next hx => exact absurd rfl (h hx).2
  · rfl

/-- An operator is a sign, or passes as one between two operands. -/
theorem sign_cases (x : Bool) (op : Operator) :
    (x = true ∧ op = .binary .sub) ∨ (x = true ∧ op = .binary .add) ∨
      (x = true → op ≠ .binary .sub ∧ op ≠ .binary .add) := by
  by_cases hsub : op = .binary .sub <;> by_cases hadd : op = .binary .add <;>
    cases x <;> simp [hsub, hadd]

/-! ## Releasing -/

/-- A release that stops right below the waiting tokens `held` sends all of them out. -/
theorem release_append (out : List Token) (x : Bool) {held below : List Token}
    {p : Token → Bool} (hheld : ∀ t ∈ held, p t = true) (hbelow : ∀ t ∈ below.head?, p t = false) :
    release ⟨out, held ++ below, x⟩ p = ⟨held.reverse ++ out, below, x⟩ := by
  have htake : below.takeWhile p = [] := by
    cases below with
    | nil => rfl
    | cons t ts => simp [hbelow t rfl]
  have hdrop : below.dropWhile p = below := by
    cases below with
    | nil => rfl
    | cons t ts => simp [hbelow t rfl]
  simp [release, List.takeWhile_append_of_pos hheld, List.dropWhile_append_of_pos hheld,
    htake, hdrop]

/-- After a release the uppermost waiting token is one that stays. -/
theorem head?_release (y : Yard) (p : Token → Bool) :
    ∀ t ∈ (y.release p).pending.head?, p t = false := by
  intro t ht
  have hne : y.pending.dropWhile p ≠ [] := by
    intro hnil
    simp [release, hnil] at ht
  have hfalse := List.head_dropWhile_not p hne
  rw [release, List.head?_eq_some_head hne, Option.mem_some_iff] at ht
  rwa [ht] at hfalse

/-- Only an open parenthesis ends the inside of a group. -/
theorem isInside_eq_false_iff {t : Token} : isInside t = false ↔ t = .lparen := by
  simp [isInside]

/-- After a group either the uppermost waiting token is the name of a function and is sent
out, or nothing happens. -/
theorem applyFunction_cases (y : Yard) :
    y.applyFunction = y ∨ ∃ f below, y.pending = .name f :: below ∧
      y.applyFunction = ⟨.name f :: y.output, below, y.expectsOperand⟩ ∧
      (Func.ofName? f).isSome := by
  obtain ⟨out, pending, x⟩ := y
  cases pending with
  | nil => exact Or.inl rfl
  | cons t ts =>
    cases t with
    | name f =>
      simp only [applyFunction]
      split
      · next hf => exact Or.inr ⟨f, ts, rfl, rfl, hf⟩
      · exact Or.inl rfl
    | _ => exact Or.inl rfl

/-- A function name leaves from the top of the track, so the order in which all tokens
leave stays the same. -/
@[simp] theorem finish_applyFunction (y : Yard) : y.applyFunction.finish = y.finish := by
  rcases y.applyFunction_cases with h | ⟨f, below, hpending, h, -⟩
  · rw [h]
  · rw [h, finish, finish, hpending]
    simp

/-- Nothing but the name of a function is sent out after a group. -/
theorem applyFunction_eq_self {y : Yard}
    (htop : ∀ t ∈ y.pending.head?, ∀ name, t = .name name → Func.ofName? name = none) :
    y.applyFunction = y := by
  rcases y.applyFunction_cases with h | ⟨f, below, hpending, -, hf⟩
  · exact h
  · rw [hpending] at htop
    rw [htop (.name f) rfl f rfl] at hf
    cases hf

/-- What is sent out after a group does not depend on the flag. -/
theorem applyFunction_expecting (y : Yard) (x : Bool) :
    (y.expecting x).applyFunction = y.applyFunction.expecting x := by
  obtain ⟨out, pending, z⟩ := y
  cases pending with
  | nil => rfl
  | cons t ts =>
    cases t with
    | name f =>
      simp only [expecting, applyFunction]
      split <;> rfl
    | _ => rfl

end Yard

namespace Token

/-! ## A waiting token that leaves next -/

/-- Whether a token can follow an operand: an operator, a closing parenthesis, a comma. -/
def followsOperand : Token → Bool
  | operator (.binary _) | rparen | comma => true
  | _ => false

/-- Whether a token that follows an operand sends out `t` if that waits on top. -/
def sendsOut (u t : Token) : Bool :=
  match u with
  | operator op => Yard.goesBefore op t
  | rparen | comma => Yard.isInside t
  | number _ | name _ | lparen => false

end Token

namespace Yard

/-- If the uppermost waiting token is sent out next, it may as well have left before. -/
theorem finish_passAll_of_sendsOut {t : Token} {q : List Token}
    (hq : ∀ u ∈ q.head?, u.sendsOut t) (out below : List Token) :
    ((⟨out, t :: below, false⟩ : Yard).passAll q).finish =
      ((⟨t :: out, below, false⟩ : Yard).passAll q).finish := by
  have hrelease : ∀ p : Token → Bool, p t →
      (⟨out, t :: below, false⟩ : Yard).release p =
        (⟨t :: out, below, false⟩ : Yard).release p := by
    intro p hp
    simp [release, hp]
  -- only the first token of the row meets the difference
  rcases q with _ | ⟨u, q⟩
  · simp [finish]
  · have hu := hq u rfl
    have hpass : (⟨out, t :: below, false⟩ : Yard).pass u =
        (⟨t :: out, below, false⟩ : Yard).pass u := by
      cases u with
      | operator op =>
        rw [pass_operator, pass_operator, passInfix, passInfix, hrelease (goesBefore op) hu]
      | rparen => rw [pass, pass, hrelease isInside hu]
      | comma => rw [pass, pass, hrelease isInside hu]
      | number text => cases hu
      | name text => cases hu
      | lparen => cases hu
    rw [passAll_cons, passAll_cons, hpass]

/-- If all waiting tokens are sent out next, they may as well have left before. -/
theorem finish_passAll_of_sendsOut_all {waiting q : List Token}
    (hq : ∀ t ∈ waiting, ∀ u ∈ q.head?, u.sendsOut t) (out below : List Token) :
    ((⟨out, waiting ++ below, false⟩ : Yard).passAll q).finish =
      ((⟨waiting.reverse ++ out, below, false⟩ : Yard).passAll q).finish := by
  induction waiting generalizing out with
  | nil => rfl
  | cons t waiting ih =>
    rw [List.cons_append, finish_passAll_of_sendsOut (hq t List.mem_cons_self),
      ih fun u hu => hq u (List.mem_cons_of_mem t hu)]
    simp

/-! ## Running above other tokens -/

/-- The yard `y` above tokens that left before and tokens that wait below its own. -/
def above (y : Yard) (out below : List Token) : Yard :=
  { y with output := y.output ++ out, pending := y.pending ++ below }

/-- A release that cannot take the uppermost token below leaves all below in place. -/
theorem release_above (y : Yard) {out below : List Token} {p : Token → Bool}
    (hbelow : ∀ t ∈ below.head?, p t = false) :
    (y.above out below).release p = (y.release p).above out below := by
  have hsplit := List.takeWhile_append_dropWhile (p := p) (l := y.pending)
  have htaken : ∀ t ∈ y.pending.takeWhile p, p t = true := fun t => List.mem_takeWhile_imp
  -- the token that stops the release is one of `y`, or else the uppermost one below
  have hkept : ∀ t ∈ (y.pending.dropWhile p ++ below).head?, p t = false := by
    have hhead := head?_release y p
    simp only [release] at hhead
    cases hrest : y.pending.dropWhile p with
    | nil => exact hbelow
    | cons u us =>
      rw [hrest] at hhead
      exact hhead
  have h := release_append (y.output ++ out) y.expectsOperand htaken hkept
  rw [← List.append_assoc, hsplit] at h
  simpa [above, release] using h

/-- An operator passes above an open parenthesis, or above nothing, as it does alone. -/
theorem passOperator_above (y : Yard) {out below : List Token} (op : Operator)
    (hbelow : ∀ t ∈ below.head?, t = .lparen) :
    (y.above out below).passOperator op = (y.passOperator op).above out below := by
  have hinfix : (y.above out below).passInfix op = (y.passInfix op).above out below := by
    have hstop : ∀ t ∈ below.head?, goesBefore op t = false := by
      intro t ht
      rw [hbelow t ht]
      rfl
    rw [passInfix, release_above y hstop]
    rfl
  rcases sign_cases y.expectsOperand op with ⟨hx, rfl⟩ | ⟨hx, rfl⟩ | hop
  · rw [passOperator_sub hx, passOperator_sub (y := y.above out below) hx]
    rfl
  · rw [passOperator_add hx, passOperator_add (y := y.above out below) hx]
  · rw [passOperator_eq_passInfix hop, passOperator_eq_passInfix (y := y.above out below) hop,
      hinfix]

/-- A name passes above any tokens as it does alone. -/
theorem passName_above (y : Yard) (out below : List Token) (name : String) :
    (y.above out below).passName name = (y.passName name).above out below := by
  unfold passName
  cases Constant.ofName? name <;> rfl

/-- The partner of a closing parenthesis is looked for above, unless nothing is there. -/
theorem matchParen_above (y : Yard) {out below : List Token}
    (h : below = [] ∨ y.pending ≠ []) :
    (y.above out below).matchParen = y.matchParen.above out below := by
  obtain ⟨output, pending, x⟩ := y
  rcases h with rfl | h
  · simp only [above, List.append_nil, matchParen]
    split <;> simp [emit]
  · cases pending with
    | nil => exact absurd rfl h
    | cons t ts => cases t <;> rfl

/-- No function name is taken from below an open parenthesis. -/
theorem applyFunction_above (y : Yard) {out below : List Token}
    (hbelow : ∀ t ∈ below.head?, t = .lparen) :
    (y.above out below).applyFunction = y.applyFunction.above out below := by
  obtain ⟨output, pending, x⟩ := y
  cases pending with
  | nil =>
    cases below with
    | nil => rfl
    | cons t ts =>
      obtain rfl := hbelow t rfl
      rfl
  | cons t ts =>
    cases t with
    | name f =>
      simp only [above, List.cons_append, applyFunction]
      split <;> rfl
    | _ => rfl

/-- A token passes above an open parenthesis as it does alone, provided that a closing
parenthesis finds its partner above. -/
theorem pass_above (y : Yard) {out below : List Token} (t : Token)
    (hbelow : ∀ t ∈ below.head?, t = .lparen)
    (hopen : t = .rparen → below = [] ∨ .lparen ∈ y.pending) :
    (y.above out below).pass t = (y.pass t).above out below := by
  have hstop : ∀ t ∈ below.head?, isInside t = false := fun t ht =>
    isInside_eq_false_iff.2 (hbelow t ht)
  cases t with
  | number text => rfl
  | name name => exact passName_above y out below name
  | operator op => exact passOperator_above y op hbelow
  | lparen => rfl
  | comma =>
    simp only [pass, release_above y hstop]
    rfl
  | rparen =>
    have hpartner : below = [] ∨ (y.release isInside).pending ≠ [] := by
      refine (hopen rfl).imp_right fun h hnil => ?_
      have := List.dropWhile_eq_nil_iff.1 hnil .lparen h
      exact absurd this (by decide)
    simp only [pass, release_above y hstop]
    rw [matchParen_above _ hpartner, applyFunction_above _ hbelow]
    rfl

/-! ## Open parentheses -/

/-- The number of parentheses that wait to be closed. -/
def openCount (y : Yard) : Nat := y.pending.count .lparen

/-- A release that stops at open parentheses keeps all of them. -/
theorem openCount_release (y : Yard) {p : Token → Bool} (hp : p .lparen = false) :
    (y.release p).openCount = y.openCount := by
  have htaken : (y.pending.takeWhile p).count .lparen = 0 := by
    rw [List.count_eq_zero]
    intro hmem
    have := List.mem_takeWhile_imp hmem
    simp [hp] at this
  have hcount := congrArg (List.count .lparen)
    (List.takeWhile_append_dropWhile (p := p) (l := y.pending))
  rw [List.count_append, htaken, Nat.zero_add] at hcount
  exact hcount

/-- Closing a parenthesis takes one open parenthesis off, if there is one. -/
theorem openCount_matchParen (y : Yard) (htop : ∀ t ∈ y.pending.head?, t = .lparen) :
    y.matchParen.openCount = y.openCount - 1 := by
  obtain ⟨output, pending, x⟩ := y
  cases pending with
  | nil => rfl
  | cons t ts =>
    obtain rfl := htop t rfl
    simp [matchParen, openCount]

/-- Sending out a function name closes nothing. -/
theorem openCount_applyFunction (y : Yard) : y.applyFunction.openCount = y.openCount := by
  rcases y.applyFunction_cases with h | ⟨f, below, hpending, h, -⟩
  · rw [h]
  · rw [h, openCount, openCount, hpending]
    simp

/-- An operator leaves all parentheses as they are. -/
theorem openCount_passOperator (y : Yard) (op : Operator) :
    (y.passOperator op).openCount = y.openCount := by
  rcases sign_cases y.expectsOperand op with ⟨hx, rfl⟩ | ⟨hx, rfl⟩ | hop
  · rw [passOperator_sub hx]
    simp [hold, openCount]
  · rw [passOperator_add hx]
  · have hrelease := openCount_release y (p := goesBefore op) rfl
    rw [passOperator_eq_passInfix hop]
    simpa [passInfix, hold, expecting, openCount] using hrelease

/-- A token opens a parenthesis, closes one if there is one, or leaves all as they are. -/
theorem openCount_pass (y : Yard) (t : Token) :
    (y.pass t).openCount =
      if t = .lparen then y.openCount + 1
      else if t = .rparen then y.openCount - 1
      else y.openCount := by
  cases t with
  | number text => rfl
  | name name =>
    simp only [pass, passName]
    split <;> simp [hold, emit, expecting, openCount]
  | operator op => exact openCount_passOperator y op
  | lparen => simp [pass, hold, expecting, openCount]
  | comma => exact openCount_release y rfl
  | rparen =>
    have htop : ∀ t ∈ (y.release isInside).pending.head?, t = .lparen := fun t ht =>
      isInside_eq_false_iff.1 (head?_release y isInside t ht)
    calc
      (y.pass .rparen).openCount
          = ((y.release isInside).matchParen.applyFunction).openCount := rfl
      _ = (y.release isInside).openCount - 1 := by
        rw [openCount_applyFunction, openCount_matchParen _ htop]
      _ = y.openCount - 1 := by rw [openCount_release y rfl]

end Yard

end PostfixCalc

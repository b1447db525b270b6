/-
# What becomes of every token

The postfix word of a row of tokens holds what is left of each of them. A parenthesis is left
if it has no partner: an open one finds its partner behind a balanced row that follows, a
closing one in front of a balanced row that precedes it. Commas and plus signs in front of
operands are not left, and a minus there is left as a change of sign. Numbers and constants
never wait, so they keep their order.
-/
import PostfixCalc.Proofs.Conversion
import PostfixCalc.Proofs.Group
import PostfixCalc.Proofs.Postorder

open scoped List

namespace PostfixCalc

/-! ## Parentheses closed in a row -/

/-- The number of parentheses that a row closes without having opened them. -/
def unopened : List Token → Nat
  | [] => 0
  | t :: ts =>
    if t = .lparen then unopened ts - 1
    else if t = .rparen then unopened ts + 1
    else unopened ts

/-- A row closes no more than it and `n` others open if no more than `n` of them are others. -/
theorem closesWithin_iff {n : Nat} {ts : List Token} : ClosesWithin n ts ↔ unopened ts ≤ n := by
  induction ts generalizing n with
  | nil =>
    constructor
    · intro _
      exact Nat.zero_le n
    · intro _ us hus
      obtain rfl : us = [] := by simpa using hus
      exact Nat.zero_le _
  | cons t ts ih =>
    rw [closesWithin_cons_iff, ih, unopened]
    by_cases hl : t = .lparen
    · subst hl
      simp only [if_true, reduceCtorEq, false_implies, true_and]
      omega
    by_cases hr : t = .rparen
    · subst hr
      simp only [reduceCtorEq, if_true, if_false, true_implies]
      omega
    · rw [if_neg hl, if_neg hl, if_neg hr, if_neg hr]
      exact and_iff_right fun h => absurd h hr

/-- Where a row closes more than `n` others, there is a first place at which it does. -/
theorem exists_of_lt_unopened {n : Nat} {ts : List Token} (h : n < unopened ts) :
    ∃ inside rest, ts = inside ++ .rparen :: rest ∧ ClosesWithin n inside ∧
      inside.count .rparen = inside.count .lparen + n := by
  induction ts generalizing n with
  | nil => exact absurd h (Nat.not_lt_zero n)
  | cons t ts ih =>
    unfold unopened at h
    split_ifs at h with hl hr
    · subst hl
      obtain ⟨inside, rest, rfl, hcloses, hcount⟩ := ih (n := n + 1) (by omega)
      refine ⟨.lparen :: inside, rest, rfl, ?_, ?_⟩
      · rw [closesWithin_cons_iff]
        exact ⟨by simp, hcloses⟩
      · simp only [List.count_cons, beq_iff_eq, reduceCtorEq, if_true, if_false]
        omega
    · subst hr
      cases n with
      | zero => exact ⟨[], ts, rfl, balanced_nil.1, rfl⟩
      | succ n =>
        obtain ⟨inside, rest, rfl, hcloses, hcount⟩ := ih (n := n) (by omega)
        refine ⟨.rparen :: inside, rest, rfl, ?_, ?_⟩
        · rw [closesWithin_cons_iff]
          exact ⟨fun _ => Nat.succ_ne_zero n, hcloses⟩
        · simp only [List.count_cons, beq_iff_eq, reduceCtorEq, if_true, if_false]
          omega
    · obtain ⟨inside, rest, rfl, hcloses, hcount⟩ := ih h
      refine ⟨t :: inside, rest, rfl, ?_, ?_⟩
      · rw [closesWithin_cons_iff, if_neg hl, if_neg hr]
        exact ⟨fun h => absurd h hr, hcloses⟩
      · rw [List.count_cons_of_ne hl, List.count_cons_of_ne hr]
        exact hcount

/-! ## Partners -/

/-- Whether an open parenthesis in front of a row has its partner in the row: behind a balanced
beginning of it. -/
def IsClosedIn (after : List Token) : Prop :=
  ∃ inside ∈ after.inits, Balanced inside ∧ inside ++ [.rparen] <+: after

/-- Whether a closing parenthesis behind a row has its partner in the row: in front of a
balanced end of it. -/
def IsOpenedIn (before : List Token) : Prop :=
  ∃ inside ∈ before.tails, Balanced inside ∧ .lparen :: inside <:+ before

instance (after : List Token) : Decidable (IsClosedIn after) :=
  inferInstanceAs (Decidable (∃ inside ∈ after.inits, _))

instance (before : List Token) : Decidable (IsOpenedIn before) :=
  inferInstanceAs (Decidable (∃ inside ∈ before.tails, _))

/-- An open parenthesis is closed in a row that closes more than it opens. -/
theorem isClosedIn_iff {after : List Token} : IsClosedIn after ↔ 0 < unopened after := by
  constructor
  · rintro ⟨inside, -, hbalanced, hprefix⟩
    by_contra hzero
    have hcloses := closesWithin_iff.2 (Nat.le_of_not_lt hzero) _ ((List.mem_inits _ _).2 hprefix)
    have hcount := hbalanced.2
    simp only [List.count_append, List.count_singleton, beq_iff_eq, reduceCtorEq, if_true,
      if_false] at hcloses
    omega
  · intro hpos
    obtain ⟨inside, rest, rfl, hcloses, hcount⟩ := exists_of_lt_unopened hpos
    refine ⟨inside, (List.mem_inits _ _).2 (List.prefix_append _ _), ⟨hcloses, hcount⟩, rest, ?_⟩
    simp

namespace Yard

/-- If more parentheses are open after a row than it has left open of those before, then the
last one that the row opened is followed by a balanced row. -/
theorem exists_of_open {y : Yard} {ts : List Token}
    (h : y.openCount - unopened ts < (y.passAll ts).openCount) :
    ∃ rest inside, ts = rest ++ .lparen :: inside ∧ Balanced inside := by
  induction ts generalizing y with
  | nil => exact absurd h (Nat.lt_irrefl _)
  | cons t ts ih =>
    by_cases hlater : (y.pass t).openCount - unopened ts < ((y.pass t).passAll ts).openCount
    · obtain ⟨rest, inside, rfl, hbalanced⟩ := ih hlater
      exact ⟨t :: rest, inside, rfl, hbalanced⟩
    · -- then the row itself begins with the parenthesis
      rw [passAll_cons, unopened] at h
      have hopen := openCount_pass y t
      have hl : t = .lparen := by
        by_contra hl
        rw [if_neg hl] at h hopen
        split_ifs at h hopen <;> omega
      subst hl
      rw [if_pos rfl] at h hopen
      have hclosed : unopened ts = 0 := by omega
      have hcloses : ClosesWithin 0 ts := closesWithin_iff.2 (Nat.le_of_eq hclosed)
      have hcloses' : ClosesWithin (y.pass .lparen).openCount ts := closesWithin_iff.2 (by omega)
      have hcount := openCount_passAll _ hcloses'
      exact ⟨[], ts, rfl, hcloses, by omega⟩

end Yard

/-- A closing parenthesis finds its partner in a row exactly when one is open after it. -/
theorem isOpenedIn_iff {before : List Token} :
    IsOpenedIn before ↔ 0 < (Yard.start.passAll before).openCount := by
  constructor
  · rintro ⟨inside, -, hbalanced, rest, rfl⟩
    have hcloses := closesWithin_iff.1 hbalanced.1
    have hopen := Yard.openCount_pass (Yard.start.passAll rest) .lparen
    rw [if_pos rfl] at hopen
    have hcloses' : ClosesWithin ((Yard.start.passAll rest).pass .lparen).openCount inside :=
      closesWithin_iff.2 (by omega)
    have hcount := Yard.openCount_passAll _ hcloses'
    have hbalance := hbalanced.2
    rw [Yard.passAll_append, Yard.passAll_cons]
    omega
  · intro hpos
    have hstart : Yard.start.openCount = 0 := rfl
    have hmore : Yard.start.openCount - unopened before <
        (Yard.start.passAll before).openCount := by omega
    obtain ⟨rest, inside, rfl, hbalanced⟩ := Yard.exists_of_open hmore
    refine ⟨inside, (List.mem_tails _ _).2 ?_, hbalanced, List.suffix_append _ _⟩
    exact ⟨rest ++ [.lparen], by simp⟩

/-! ## What is left of a row -/

/-- What is left of a token between two rows. -/
def leftOf (before after : List Token) : Token → List Token
  | .lparen => if IsClosedIn after then [] else [.lparen]
  | .rparen => if IsOpenedIn before then [] else [.rparen]
  | t => t.kept (Token.expectsOperandAfter before)

/-- What is left of the tokens of a row, which follows the row `before`. -/
def leftOfAll (before : List Token) : List Token → List Token
  | [] => []
  | t :: ts => leftOf before ts t ++ leftOfAll (before ++ [t]) ts

theorem leftOf_of_isContent (before after : List Token) {t : Token} (ht : t.isContent) :
    leftOf before after t = t.kept (Token.expectsOperandAfter before) := by
  cases t with
  | lparen => cases ht
  | rparen => cases ht
  | _ => rfl

namespace Yard

/-- **What is in the yard after a row** is what is left of the row and what was there before,
apart from the open parentheses that the row has closed. -/
theorem finish_passAll (before ts : List Token) :
    List.replicate (min (start.passAll before).openCount (unopened ts)) .lparen ++
        (start.passAll (before ++ ts)).finish ~
      leftOfAll before ts ++ (start.passAll before).finish := by
  induction ts generalizing before with
  | nil =>
    rw [List.append_nil, unopened, Nat.min_zero]
    exact List.Perm.refl _
  | cons t ts ih =>
    have hrest := ih (before ++ [t])
    obtain ⟨y, hy⟩ : ∃ y, start.passAll before = y := ⟨_, rfl⟩
    have hnext : start.passAll (before ++ [t]) = y.pass t := by
      rw [passAll_append, hy]
      rfl
    have hexpects := expectsOperand_passAll_start before
    rw [List.append_assoc, List.singleton_append, hnext, openCount_pass] at hrest
    rw [hy] at hexpects
    rw [hy, leftOfAll, unopened, List.append_assoc]
    generalize (start.passAll (before ++ t :: ts)).finish = out at hrest ⊢
    by_cases hl : t = .lparen
    · subst hl
      have hpass : (y.pass .lparen).finish ~ .lparen :: y.finish := finish_hold y .lparen
      have hrow := hrest.trans ((hpass.append_left _).trans List.perm_middle)
      rw [if_pos rfl] at hrow ⊢
      unfold leftOf
      by_cases hclosed : IsClosedIn ts
      · obtain ⟨k, hk⟩ := Nat.exists_eq_add_of_lt (isClosedIn_iff.1 hclosed)
        rw [Nat.zero_add] at hk
        rw [hk, Nat.add_min_add_right, List.replicate_succ] at hrow
        rw [if_pos hclosed, hk, Nat.add_sub_cancel, List.nil_append]
        exact hrow.cons_inv
      · have hk : unopened ts = 0 := Nat.eq_zero_of_not_pos (mt isClosedIn_iff.2 hclosed)
        rw [hk, Nat.min_zero] at hrow
        rw [if_neg hclosed, hk, Nat.zero_sub, Nat.min_zero]
        exact hrow
    by_cases hr : t = .rparen
    · subst hr
      rw [if_neg hl, if_pos rfl] at hrest ⊢
      unfold leftOf
      by_cases hopen : y.openCount = 0
      · have hclosed : ¬ IsOpenedIn before := by
          rw [isOpenedIn_iff, hy, hopen]
          exact Nat.lt_irrefl 0
        have hpass := finish_pass_rparen_of_closed hopen
        rw [hopen, Nat.zero_sub, Nat.zero_min] at hrest
        rw [if_neg hclosed, hopen, Nat.zero_min]
        exact hrest.trans ((hpass.append_left _).trans List.perm_middle)
      · have hopened : IsOpenedIn before := by
          rw [isOpenedIn_iff, hy]
          exact Nat.pos_of_ne_zero hopen
        have hpass := finish_pass_rparen_of_open hopen
        obtain ⟨k, hk⟩ := Nat.exists_eq_succ_of_ne_zero hopen
        rw [hk, Nat.succ_sub_one] at hrest
        rw [if_pos hopened, hk, Nat.succ_eq_add_one, Nat.add_min_add_right, List.replicate_succ,
          List.nil_append]
        exact (hrest.cons _).trans (List.perm_middle.symm.trans (hpass.symm.append_left _))
    · have hcontent : t.isContent := by
        cases t with
        | lparen => exact absurd rfl hl
        | rparen => exact absurd rfl hr
        | _ => rfl
      have hpass := finish_pass_content y hcontent
      rw [hexpects, ← leftOf_of_isContent before ts hcontent] at hpass
      rw [if_neg hl, if_neg hr] at hrest ⊢
      exact hrest.trans ((hpass.append_left _).trans (List.perm_append_comm_assoc _ _ _))

end Yard

/-! ## Operands keep their order -/

namespace Token

/-- Whether a token is a number or a constant. -/
def isOperand : Token → Bool
  | number _ => true
  | name text => (Constant.ofName? text).isSome
  | _ => false

/-- Whether a token can wait: an operator, an open parenthesis, or a name that is not the one
of a constant. -/
def canWait : Token → Bool
  | operator _ | lparen => true
  | name text => (Constant.ofName? text).isNone
  | _ => false

theorem isOperand_eq_false_of_canWait {t : Token} (ht : t.canWait) : t.isOperand = false := by
  cases t with
  | name text =>
    rw [canWait, Option.isNone_iff_eq_none] at ht
    rw [isOperand, ht]
    rfl
  | number text => cases ht
  | _ => rfl

end Token

namespace Yard

theorem pending_matchParen_suffix (y : Yard) : y.matchParen.pending <:+ y.pending := by
  unfold matchParen
  split
  · next rest hrest =>
    rw [hrest]
    exact List.suffix_cons _ _
  · exact List.suffix_refl _

theorem pending_applyFunction_suffix (y : Yard) : y.applyFunction.pending <:+ y.pending := by
  rcases y.applyFunction_cases with h | ⟨f, below, hpending, h, -⟩
  · rw [h]
  · rw [h, hpending]
    exact List.suffix_cons _ _

/-- What a token does to the pending track: the latest tokens may leave it, and then one that can
wait may join it, but an operator only above a token that it does not send out. -/
theorem pending_pass_cases (y : Yard) (t : Token) :
    (y.pass t).pending <:+ y.pending ∨
      ∃ u below, (y.pass t).pending = u :: below ∧ below <:+ y.pending ∧ u.canWait ∧
        ∀ lower ∈ below.head?, u.sendsOut lower = false := by
  have hrelease : ∀ p, (y.release p).pending <:+ y.pending := fun p => List.dropWhile_suffix p
  cases t with
  | number text => exact Or.inl (List.suffix_refl _)
  | name text =>
    simp only [pass, passName]
    cases hname : Constant.ofName? text with
    | some c => exact Or.inl (List.suffix_refl _)
    | none =>
      refine Or.inr ⟨.name text.toLower, y.pending, rfl, List.suffix_refl _, ?_, fun _ _ => rfl⟩
      rw [Token.canWait, Constant.ofName?_toLower, hname]
      rfl
  | operator op =>
    rw [pass]
    rcases sign_cases y.expectsOperand op with ⟨hx, rfl⟩ | ⟨hx, rfl⟩ | hop
    · -- a change of sign is held without a release, since it sends out nothing
      rw [passOperator_sub hx]
      refine Or.inr ⟨.operator .neg, y.pending, rfl, List.suffix_refl _, rfl, fun lower _ => ?_⟩
      have hstays : ∀ earlier : Operator, earlier.goesBefore .neg = false := fun _ =>
        Operator.goesBefore_of_tight (by decide)
      cases lower with
      | operator earlier => exact hstays earlier
      | _ => rfl
    · rw [passOperator_add hx]
      exact Or.inl (List.suffix_refl _)
    · rw [passOperator_eq_passInfix hop]
      exact Or.inr ⟨.operator op, _, rfl, hrelease _, rfl, head?_release y (goesBefore op)⟩
  | lparen => exact Or.inr ⟨.lparen, y.pending, rfl, List.suffix_refl _, rfl, fun _ _ => rfl⟩
  | comma => exact Or.inl (hrelease isInside)
  | rparen =>
    have happly := pending_applyFunction_suffix (y.release isInside).matchParen
    have hmatch := pending_matchParen_suffix (y.release isInside)
    exact Or.inl (happly.trans (hmatch.trans (hrelease isInside)))

/-- Whatever waits after a token has waited before, or it is a token that can wait. -/
theorem canWait_of_mem_pending_pass {y : Yard} {t u : Token} (hu : u ∈ (y.pass t).pending) :
    u ∈ y.pending ∨ u.canWait := by
  rcases y.pending_pass_cases t with hsuffix | ⟨v, below, hpending, hsuffix, hv, -⟩
  · exact Or.inl (hsuffix.subset hu)
  · rw [hpending] at hu
    rcases List.mem_cons.1 hu with rfl | hu
    · exact Or.inr hv
    · exact Or.inl (hsuffix.subset hu)

/-- No operand waits after a row. -/
theorem canWait_of_mem_pending (ts : List Token) :
    ∀ u ∈ (start.passAll ts).pending, u.canWait := by
  induction ts using List.reverseRecOn with
  | nil =>
    intro u hu
    cases hu
  | append_singleton ts t ih =>
    intro u hu
    rw [passAll_append] at hu
    rcases canWait_of_mem_pending_pass hu with h | h
    · exact ih u h
    · exact h

/-- The operands in the yard, in the order in which they leave. -/
def operands (y : Yard) : List Token := y.finish.filter Token.isOperand

theorem operands_hold (y : Yard) {t : Token} (ht : t.isOperand = false) :
    (y.hold t).operands = y.operands := by
  unfold operands finish hold
  rw [List.filter_append, List.filter_append, List.filter_cons_of_neg (by rw [ht]; simp)]

/-- An operand sent out is the last one, since none waits. -/
theorem operands_emit {y : Yard} (hy : ∀ u ∈ y.pending, u.canWait) {t : Token}
    (ht : t.isOperand) : (y.emit t).operands = y.operands ++ [t] := by
  have hnone : y.pending.filter Token.isOperand = [] := by
    rw [List.filter_eq_nil_iff]
    intro u hu
    rw [Token.isOperand_eq_false_of_canWait (hy u hu)]
    exact Bool.false_ne_true
  unfold operands finish emit
  rw [List.filter_append, List.filter_append, hnone, List.append_nil, List.append_nil,
    List.reverse_cons, List.filter_append, List.filter_cons_of_pos ht]
  rfl

theorem operands_release (y : Yard) (p : Token → Bool) : (y.release p).operands = y.operands := by
  unfold operands
  rw [finish_release]

theorem operands_matchParen (y : Yard) : y.matchParen.operands = y.operands := by
  unfold matchParen
  split
  · next rest hrest =>
    unfold operands finish
    rw [hrest, List.filter_append, List.filter_append, List.filter_cons_of_neg (by decide)]
  · simp [operands, finish, emit, Token.isOperand]

/-- An operand leaves behind the ones before it, with a name in lower case. -/
theorem operands_pass {y : Yard} (hy : ∀ u ∈ y.pending, u.canWait) (t : Token) :
    (y.pass t).operands = y.operands ++ if t.isOperand then [t.lowered] else [] := by
  have hother : ∀ {z : Yard}, t.isOperand = false → z.operands = y.operands →
      z.operands = y.operands ++ if t.isOperand then [t.lowered] else [] := by
    intro z ht hz
    rw [ht, hz, if_neg Bool.false_ne_true, List.append_nil]
  cases t with
  | number text => exact operands_emit hy rfl
  | name text =>
    have hlower : (Token.name text.toLower).isOperand = (Token.name text).isOperand := by
      rw [Token.isOperand, Token.isOperand, Constant.ofName?_toLower]
    simp only [pass, passName]
    cases hname : Constant.ofName? text with
    | some c =>
      have hoperand : (Token.name text).isOperand := by
        rw [Token.isOperand, hname]
        rfl
      rw [if_pos hoperand]
      exact operands_emit hy (hlower.trans hoperand)
    | none =>
      have hoperand : (Token.name text).isOperand = false := by
        rw [Token.isOperand, hname]
        rfl
      exact hother hoperand (operands_hold y (hlower.trans hoperand))
  | operator op =>
    refine hother rfl ?_
    rw [pass]
    rcases sign_cases y.expectsOperand op with ⟨hx, rfl⟩ | ⟨hx, rfl⟩ | hop
    · rw [passOperator_sub hx]
      exact operands_hold y rfl
    · rw [passOperator_add hx]
    · rw [passOperator_eq_passInfix hop]
      exact (operands_hold _ rfl).trans (operands_release y _)
  | lparen => exact hother rfl (operands_hold y rfl)
  | comma => exact hother rfl (operands_release y isInside)
  | rparen =>
    refine hother rfl ?_
    have hmatch := operands_matchParen (y.release isInside)
    rw [operands_release] at hmatch
    unfold operands at hmatch ⊢
    rw [finish_pass_rparen, hmatch]

theorem operands_passAll (ts : List Token) :
    (start.passAll ts).operands = (ts.filter Token.isOperand).map Token.lowered := by
  induction ts using List.reverseRecOn with
  | nil => rfl
  | append_singleton ts t ih =>
    rw [passAll_append, passAll_cons, passAll_nil, operands_pass (canWait_of_mem_pending ts), ih,
      List.filter_append, List.map_append]
    by_cases ht : t.isOperand
    · rw [if_pos ht, List.filter_cons_of_pos ht]
      rfl
    · rw [if_neg ht, List.filter_cons_of_neg ht]
      rfl

end Yard

/-! ## The conversion -/

/-- **The conversion loses, invents and doubles nothing**: the postfix word of a row holds what
is left of its tokens, and the numbers and constants stand in it in the order of the row. -/
theorem toPostfix_perm_leftOfAll (ts : List Token) :
    toPostfix ts ~ leftOfAll [] ts ∧
    (toPostfix ts).filter Token.isOperand = (ts.filter Token.isOperand).map Token.lowered := by
  refine ⟨?_, Yard.operands_passAll ts⟩
  have h := Yard.finish_passAll [] ts
  have hstart : Yard.start.openCount = 0 := rfl
  have hempty : Yard.start.finish = [] := rfl
  rw [Yard.passAll_nil, hstart, hempty, Nat.zero_min, List.append_nil] at h
  exact h

/-- Parentheses without partners, a comma, and a sign in front of a call. -/
example : leftOfAll [] [.rparen, .lparen, .operator (.binary .sub), .name "Sin", .lparen,
      .number "1", .comma, .rparen] =
    [.rparen, .lparen, .operator .neg, .name "sin", .number "1"] := by decide +kernel

end PostfixCalc

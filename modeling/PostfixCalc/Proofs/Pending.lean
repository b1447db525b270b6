/-
# The pending track

Every token first lets the latest waiting tokens leave and then waits itself, if it waits at all.
So no waiting token is one that would send out the token right below it, and of two operators that
wait one above the other the upper one binds tighter, or as tightly and associates to the right.
An open parenthesis waits until its partner comes: those on the track are the ones that the row has
not closed so far.
-/
import PostfixCalc.Proofs.Brackets

namespace PostfixCalc

/-! ## Open parentheses without a partner -/

/-- The number of open parentheses of a row that have no partner in it. -/
def unclosed : List Token → Nat
  | [] => 0
  | t :: ts => if t = .lparen ∧ ¬ IsClosedIn ts then unclosed ts + 1 else unclosed ts

namespace Yard

/-- A row closes parentheses that were open before it, and leaves open those of its own that have
no partner. -/
theorem openCount_passAll_eq (y : Yard) (ts : List Token) :
    (y.passAll ts).openCount = y.openCount - unopened ts + unclosed ts := by
  induction ts generalizing y with
  | nil => rfl
  | cons t ts ih =>
    rw [passAll_cons, ih, openCount_pass, unopened, unclosed]
    by_cases hl : t = .lparen
    · simp only [hl, if_true, true_and]
      split_ifs with hclosed
      · have hpos : 0 < unopened ts := isClosedIn_iff.1 hclosed
        omega
      · have hzero : ¬ 0 < unopened ts := fun hpos => hclosed (isClosedIn_iff.2 hpos)
        omega
    · simp only [hl, if_false, false_and]
      split_ifs <;> omega

/-! ## Neighbours on the track -/

/-- Whether no waiting token would send out the one right below it. -/
def IsSettled (y : Yard) : Prop := y.pending.IsChain fun upper lower => upper.sendsOut lower = false

/-- A settled track stays settled: what is left of it when tokens have left is settled, and a token
that joins it would not send out the one below. -/
theorem IsSettled.pass {y : Yard} (h : y.IsSettled) (t : Token) : (y.pass t).IsSettled := by
  unfold IsSettled at h ⊢
  rcases y.pending_pass_cases t with hsuffix | ⟨u, below, hpending, hsuffix, -, hlower⟩
  · exact h.suffix hsuffix
  · rw [hpending, List.isChain_cons]
    exact ⟨hlower, h.suffix hsuffix⟩

theorem IsSettled.passAll {y : Yard} (h : y.IsSettled) (ts : List Token) :
    (y.passAll ts).IsSettled := by
  induction ts generalizing y with
  | nil => exact h
  | cons t ts ih => exact ih (h.pass t)

theorem isSettled_start : start.IsSettled := List.isChain_nil

/-- An operator of a settled track binds tighter than an operator right below it, or as tightly and
associates to the right. -/
theorem IsSettled.precedence_lt_or {y : Yard} (h : y.IsSettled) {upper lower : Operator}
    (hneighbours : [.operator upper, .operator lower] <:+: y.pending) :
    lower.precedence < upper.precedence ∨
      lower.precedence = upper.precedence ∧ upper.associativity = .right := by
  have hchain := List.IsChain.infix h hneighbours
  have hpair := List.isChain_pair.1 hchain
  exact Operator.goesBefore_eq_false_iff.1 hpair

/-- **The pending track after any row of tokens**: of two operators that wait one right above the
other, the upper one binds tighter, or as tightly and associates to the right; closing parentheses,
commas, numbers and constants never wait; and as many open parentheses wait as the row has left
without a partner. -/
theorem pending_after_row (before : List Token) :
    let track := (start.passAll before).pending
    (∀ upper lower : Operator, [.operator upper, .operator lower] <:+: track →
      lower.precedence < upper.precedence ∨
        lower.precedence = upper.precedence ∧ upper.associativity = .right) ∧
    (.rparen ∉ track ∧ .comma ∉ track ∧ (∀ text, .number text ∉ track) ∧
      ∀ text c, Constant.ofName? text = some c → .name text ∉ track) ∧
    track.count .lparen = unclosed before := by
  intro track
  have hwait : ∀ u ∈ track, u.canWait := canWait_of_mem_pending before
  refine ⟨fun upper lower => (isSettled_start.passAll before).precedence_lt_or, ?_, ?_⟩
  · refine ⟨fun hmem => ?_, fun hmem => ?_, fun text hmem => ?_, fun text c hc hmem => ?_⟩
    · cases hwait _ hmem
    · cases hwait _ hmem
    · cases hwait _ hmem
    · have hnone := hwait _ hmem
      rw [Token.canWait, hc] at hnone
      cases hnone
  · have hcount := openCount_passAll_eq start before
    have hstart : start.openCount = 0 := rfl
    rw [hstart, Nat.zero_sub, Nat.zero_add] at hcount
    exact hcount

/-- In the row `1+(2)*(3%-4^sin(` a power waits above a change of sign, which binds as tightly, and
of three open parentheses two have no partner. -/
theorem pending_of_signed_power :
    let before : List Token := [.number "1", .operator (.binary .add), .lparen, .number "2", .rparen,
      .operator (.binary .mul), .lparen, .number "3", .operator (.binary .rem),
      .operator (.binary .sub), .number "4", .operator (.binary .pow), .name "sin", .lparen]
    let track := (start.passAll before).pending
    track = [.lparen, .name "sin", .operator (.binary .pow), .operator .neg,
      .operator (.binary .rem), .lparen, .operator (.binary .mul), .operator (.binary .add)] ∧
    ([.operator (.binary .pow), .operator .neg] <:+: track ∧
      (Operator.neg.precedence < (Operator.binary .pow).precedence ∨
        Operator.neg.precedence = (Operator.binary .pow).precedence ∧
          (Operator.binary .pow).associativity = .right)) ∧
    (Constant.ofName? "PI" = some .pi ∧ .name "PI" ∉ track) ∧
    track.count .lparen = 2 := by
  intro before track
  have hneighbours : [.operator (.binary .pow), .operator .neg] <:+: track := by decide +kernel
  have hconstant : Constant.ofName? "PI" = some .pi := by decide +kernel
  obtain ⟨hprecedence, ⟨-, -, -, hnoConstant⟩, hcount⟩ := pending_after_row before
  refine ⟨by decide +kernel, ⟨hneighbours, hprecedence _ _ hneighbours⟩,
    ⟨hconstant, hnoConstant _ _ hconstant⟩, hcount.trans ?_⟩
  decide +kernel

end Yard

end PostfixCalc

/-
# Conversion keeps what it is given

Apart from parentheses, the tokens in the yard are, at every moment, those that have
been read: signs as changes of sign, names in lower case, and without commas and
without plus signs in front of operands. Tokens change their places, but none is lost,
added or doubled on the way to the postfix word.
-/
import Mathlib
import PostfixCalc.Proofs.Yard

open scoped List

namespace PostfixCalc

namespace Token

/-! ## What is kept of a token -/

/-- Whether a token is neither of the parentheses. -/
def isContent : Token → Bool
  | lparen | rparen => false
  | _ => true

/-- Whether an operand can end with a token: a number, a constant, or a group. -/
def endsOperand : Token → Bool
  | number _ | rparen => true
  | name text => (Constant.ofName? text).isSome
  | operator _ | lparen | comma => false

/-- What is kept of a token, where the flag says whether an operand should begin. -/
def kept (expected : Bool) : Token → List Token
  | number text => [number text]
  | name text => [name text.toLower]
  | operator op =>
    if expected = true ∧ op = .binary .sub then [operator .neg]
    else if expected = true ∧ op = .binary .add then []
    else [operator op]
  | lparen | rparen | comma => []

/-- What is kept of a row of tokens. An operand should begin after every token that
does not end one. -/
def keptAll (expected : Bool) : List Token → List Token
  | [] => []
  | t :: ts => t.kept expected ++ keptAll (!t.endsOperand) ts

/-- No parenthesis is kept. -/
theorem isContent_kept (expected : Bool) {t u : Token} (h : u ∈ t.kept expected) :
    u.isContent := by
  cases t with
  | operator op =>
    simp only [kept] at h
    split_ifs at h
    · obtain rfl := List.mem_singleton.1 h
      rfl
    · cases h
    · obtain rfl := List.mem_singleton.1 h
      rfl
  | number text =>
    obtain rfl := List.mem_singleton.1 h
    rfl
  | name text =>
    obtain rfl := List.mem_singleton.1 h
    rfl
  | _ => cases h

/-- Whether an operand should begin behind a row: at the start, and behind a token that does
not end one. -/
def expectsOperandAfter (before : List Token) : Bool :=
  before.getLast?.all fun t => !t.endsOperand

end Token

namespace Yard

/-! ## What is in the yard -/

/-- A token sent out joins those in the yard. -/
theorem finish_emit (y : Yard) (t : Token) : (y.emit t).finish ~ t :: y.finish := by
  unfold finish emit
  rw [List.reverse_cons, List.append_assoc]
  exact List.perm_middle

/-- A token that waits joins those in the yard. -/
theorem finish_hold (y : Yard) (t : Token) : (y.hold t).finish ~ t :: y.finish := by
  unfold finish hold
  exact List.perm_middle

theorem finish_expecting (y : Yard) (x : Bool) : (y.expecting x).finish = y.finish := rfl

/-- A closing parenthesis passes like the search for its partner, as far as it matters what
is in the yard. -/
theorem finish_pass_rparen (y : Yard) :
    (y.pass .rparen).finish = (y.release isInside).matchParen.finish := by
  rw [pass, finish_expecting, finish_applyFunction]

/-- What is kept of a token other than a parenthesis joins those in the yard. -/
theorem finish_pass_content (y : Yard) {t : Token} (ht : t.isContent) :
    (y.pass t).finish ~ t.kept y.expectsOperand ++ y.finish := by
  cases t with
  | number text => exact finish_emit y (.number text)
  | name text =>
    simp only [pass, passName]
    cases Constant.ofName? text with
    | some c => exact finish_emit y (.name text.toLower)
    | none => exact finish_hold y (.name text.toLower)
  | operator op =>
    rw [pass]
    rcases sign_cases y.expectsOperand op with ⟨hx, rfl⟩ | ⟨hx, rfl⟩ | hop
    · rw [passOperator_sub hx, hx]
      exact finish_hold y (.operator .neg)
    · rw [passOperator_add hx, hx]
      exact List.Perm.refl _
    · have hkept : (Token.operator op).kept y.expectsOperand = [.operator op] := by
        rw [Token.kept, if_neg fun h => (hop h.1).1 h.2, if_neg fun h => (hop h.1).2 h.2]
      have h := finish_hold (y.release (goesBefore op)) (.operator op)
      rw [finish_release] at h
      rw [passOperator_eq_passInfix hop, hkept]
      exact h
  | comma =>
    rw [pass, finish_expecting, finish_release]
    exact List.Perm.refl _
  | lparen => cases ht
  | rparen => cases ht

/-- A closing parenthesis with no partner in the yard joins those in it. -/
theorem finish_pass_rparen_of_closed {y : Yard} (hy : y.openCount = 0) :
    (y.pass .rparen).finish ~ .rparen :: y.finish := by
  have hnone : (y.release isInside).pending = [] := by
    refine List.dropWhile_eq_nil_iff.2 fun t ht => ?_
    rw [← Bool.not_eq_false, isInside_eq_false_iff]
    rintro rfl
    exact List.count_eq_zero.1 hy ht
  have hmatch : (y.release isInside).matchParen = (y.release isInside).emit .rparen := by
    unfold matchParen
    rw [hnone]
  have h := finish_emit (y.release isInside) .rparen
  rw [finish_release] at h
  rw [finish_pass_rparen, hmatch]
  exact h

/-- Any other closing parenthesis takes its partner out of the yard. -/
theorem finish_pass_rparen_of_open {y : Yard} (hy : y.openCount ≠ 0) :
    y.finish ~ .lparen :: (y.pass .rparen).finish := by
  have hcount : (y.release isInside).openCount ≠ 0 := by
    rwa [openCount_release y rfl]
  obtain ⟨rest, hrest⟩ : ∃ rest, (y.release isInside).pending = .lparen :: rest := by
    have htop := head?_release y isInside
    cases hpending : (y.release isInside).pending with
    | nil =>
      rw [openCount, hpending] at hcount
      exact absurd rfl hcount
    | cons t rest =>
      rw [hpending] at htop
      obtain rfl := isInside_eq_false_iff.1 (htop t rfl)
      exact ⟨rest, rfl⟩
  have hmatch : (y.release isInside).matchParen = { y.release isInside with pending := rest } := by
    unfold matchParen
    rw [hrest]
  rw [finish_pass_rparen, hmatch, ← finish_release y isInside]
  unfold finish
  rw [hrest]
  exact List.perm_middle

/-- The tokens in the yard, apart from parentheses, in the order in which they leave. -/
def contents (y : Yard) : List Token := y.finish.filter Token.isContent

/-! ## The step and the run -/

/-- What is kept of a token joins the contents. -/
theorem contents_pass (y : Yard) (t : Token) :
    (y.pass t).contents.Perm (t.kept y.expectsOperand ++ y.contents) := by
  unfold contents
  by_cases ht : t.isContent
  · have h := (finish_pass_content y ht).filter Token.isContent
    rw [List.filter_append, List.filter_eq_self.2 fun u => Token.isContent_kept _] at h
    exact h
  · cases t with
    | lparen => exact (finish_hold y .lparen).filter Token.isContent
    | rparen =>
      by_cases hy : y.openCount = 0
      · exact (finish_pass_rparen_of_closed hy).filter Token.isContent
      · exact ((finish_pass_rparen_of_open hy).filter Token.isContent).symm
    | _ => exact absurd rfl ht

/-- Whether an operand should begin is settled by the token before. -/
theorem expectsOperand_pass (y : Yard) (t : Token) :
    (y.pass t).expectsOperand = !t.endsOperand := by
  cases t with
  | name text =>
    simp only [pass, passName, Token.endsOperand]
    cases Constant.ofName? text <;> rfl
  | operator op =>
    rw [pass]
    rcases sign_cases y.expectsOperand op with ⟨hx, rfl⟩ | ⟨hx, rfl⟩ | hop
    · rw [passOperator_sub hx]
      exact hx
    · rw [passOperator_add hx]
      exact hx
    · rw [passOperator_eq_passInfix hop]
      rfl
  | _ => rfl

theorem expectsOperand_passAll_start (before : List Token) :
    (start.passAll before).expectsOperand = Token.expectsOperandAfter before := by
  unfold Token.expectsOperandAfter
  rcases List.eq_nil_or_concat before with rfl | ⟨us, t, rfl⟩
  · rfl
  · rw [List.concat_eq_append, passAll_append, passAll_cons, passAll_nil, expectsOperand_pass,
      List.getLast?_concat]
    rfl

/-- What is kept of a row of tokens joins the contents. -/
theorem contents_passAll (y : Yard) (ts : List Token) :
    (y.passAll ts).contents.Perm (Token.keptAll y.expectsOperand ts ++ y.contents) := by
  induction ts generalizing y with
  | nil => exact List.Perm.refl _
  | cons t ts ih =>
    rw [passAll_cons, Token.keptAll]
    have hrest := ih (y.pass t)
    rw [expectsOperand_pass] at hrest
    calc
      ((y.pass t).passAll ts).contents
        ~ Token.keptAll (!t.endsOperand) ts ++ (y.pass t).contents := hrest
      _ ~ Token.keptAll (!t.endsOperand) ts ++ (t.kept y.expectsOperand ++ y.contents) :=
        (contents_pass y t).append_left _
      _ ~ t.kept y.expectsOperand ++ Token.keptAll (!t.endsOperand) ts ++ y.contents := by
        rw [← List.append_assoc]
        exact List.perm_append_comm.append_right _

end Yard

/-! ## The conversion -/

/-- Apart from parentheses, the postfix word of a row of tokens consists of what is kept
of the row. -/
theorem toPostfix_perm_keptAll (ts : List Token) :
    ((toPostfix ts).filter Token.isContent).Perm (Token.keptAll true ts) := by
  have h := Yard.contents_passAll Yard.start ts
  rwa [show Yard.start.contents = [] from rfl, List.append_nil] at h

/-- A number that is kept was there. -/
theorem Token.number_mem_keptAll {text : String} {expected : Bool} {ts : List Token}
    (h : number text ∈ keptAll expected ts) : number text ∈ ts := by
  induction ts generalizing expected with
  | nil => cases h
  | cons t ts ih =>
    rw [keptAll, List.mem_append] at h
    rcases h with h | h
    · cases t with
      | operator op =>
        simp only [kept] at h
        split_ifs at h <;> simp at h
      | _ => simp_all [kept]
    · exact List.mem_cons_of_mem t (ih h)

/-- The numbers of a postfix word are numbers of the row that it comes from. -/
theorem number_mem_of_mem_toPostfix {text : String} {ts : List Token}
    (h : .number text ∈ toPostfix ts) : .number text ∈ ts :=
  Token.number_mem_keptAll
    ((toPostfix_perm_keptAll ts).mem_iff.1 (List.mem_filter.2 ⟨h, rfl⟩))

end PostfixCalc

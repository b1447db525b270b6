/-
# Grammatical rows convert to the postfix words of their trees

The main statement is that a row of tokens derived from the grammar leaves the yard
as the postfix word of its tree. The induction follows the derivation and speaks of
every place that an expression can have in a longer row: whatever has been sent out
and whatever waits, an expression sends out the first part of its postfix word and
leaves the rest, a few operators, waiting on top. How tightly these operators bind is
bounded by the category of the expression, and this is what makes the next operator
send out all of them or none.
-/
import Mathlib
import PostfixCalc.Expr.Grammar
import PostfixCalc.Proofs.Vocabulary
import PostfixCalc.Proofs.Yard

namespace PostfixCalc

/-! ## Which operators send out which -/

namespace Operator

/-- No operator binds tighter than powers and changes of sign. -/
theorem precedence_le (op : Operator) : op.precedence ≤ 3 := by
  rcases op with (_ | _ | _ | _ | _ | _) | _ <;> decide

/-- The operators that bind tightest associate to the right. -/
theorem associativity_of_le {op : Operator} (h : 3 ≤ op.precedence) :
    op.associativity = .right := by
  rcases op with (_ | _ | _ | _ | _ | _) | _ <;> first | rfl | simp [precedence] at h

/-- An operator that associates to the left sends out all that binds as tightly. -/
theorem goesBefore_of_le {earlier later : Operator} (hleft : later.associativity = .left)
    (hle : later.precedence ≤ earlier.precedence) : earlier.goesBefore later = true := by
  simp [goesBefore, hleft, hle]

/-- An operator stays for all that binds tighter than itself. -/
theorem goesBefore_of_lt {earlier later : Operator}
    (hlt : earlier.precedence < later.precedence) : earlier.goesBefore later = false :=
  goesBefore_eq_false_iff.2 (Or.inl hlt)

/-- Powers and changes of sign send out nothing. -/
theorem goesBefore_of_tight {earlier later : Operator} (h : 3 ≤ later.precedence) :
    earlier.goesBefore later = false := by
  rw [goesBefore_eq_false_iff]
  have := earlier.precedence_le
  rcases Nat.lt_or_ge earlier.precedence later.precedence with hlt | hge
  · exact Or.inl hlt
  · exact Or.inr ⟨by omega, associativity_of_le h⟩

end Operator

namespace Category

/-! ## Levels of precedence -/

/-- The least precedence of the operators that can still wait at the end of an
expression of a category; those of an atom have all left. -/
def level : Category → Nat
  | .sum => 1
  | .product => 2
  | .signed | .power => 3
  | .atom => 4

/-- Whether an expression of a category can begin above the waiting tokens: no operator
that it holds outside of parentheses sends out the uppermost one, and neither does a
closing parenthesis. -/
def RestsOn (k : Category) (below : List Token) : Prop :=
  ∀ t ∈ below.head?, (∀ name, t = .name name → Func.ofName? name = none) ∧
    ∀ later : Operator, k.level ≤ later.precedence → Yard.goesBefore later t = false

/-- Every expression can begin when nothing waits. -/
theorem restsOn_nil (k : Category) : k.RestsOn [] := by
  intro t ht
  cases ht

/-- Every expression can begin after an open parenthesis. -/
theorem restsOn_lparen (k : Category) (below : List Token) : k.RestsOn (.lparen :: below) := by
  intro t ht
  obtain rfl := Option.mem_some_iff.1 ht
  exact ⟨by simp, fun _ _ => rfl⟩

/-- An expression can begin after an operator that does not go before those of its own. -/
theorem restsOn_operator {k : Category} {op : Operator}
    (h : ∀ later : Operator, k.level ≤ later.precedence → op.goesBefore later = false)
    (below : List Token) : k.RestsOn (.operator op :: below) := by
  intro t ht
  obtain rfl := Option.mem_some_iff.1 ht
  exact ⟨by simp, h⟩

/-- A tighter category can begin wherever a looser one can. -/
theorem RestsOn.mono {k k' : Category} {below : List Token} (h : k.RestsOn below)
    (hle : k.level ≤ k'.level) : k'.RestsOn below := fun t ht =>
  ⟨(h t ht).1, fun later hlater => (h t ht).2 later (hle.trans hlater)⟩

end Category

open Category

/-! ## What a part of an expression does to the yard -/

/-- `Passes k ts word` says that the tokens `ts` do to a yard that expects an operand
what an expression of category `k` with the postfix word `word` should do. -/
def Passes (k : Category) (ts word : List Token) : Prop :=
  ∀ out below, k.RestsOn below → ∃ sent waiting,
    (⟨out, below, true⟩ : Yard).passAll ts = ⟨sent.reverse ++ out, waiting ++ below, false⟩ ∧
      sent ++ waiting = word ∧
      ∀ t ∈ waiting, ∃ op : Operator, t = .operator op ∧ k.level ≤ op.precedence

namespace Passes

/-- An expression of a tighter category is one of a looser category. -/
theorem mono {k k' : Category} {ts word : List Token} (h : Passes k' ts word)
    (hle : k.level ≤ k'.level) : Passes k ts word := by
  intro out below hbelow
  obtain ⟨sent, waiting, hpass, hword, hwait⟩ := h out below (hbelow.mono hle)
  refine ⟨sent, waiting, hpass, hword, fun t ht => ?_⟩
  obtain ⟨op, rfl, hop⟩ := hwait t ht
  exact ⟨op, rfl, hle.trans hop⟩

/-- A token that is sent out at once is an atom. -/
theorem sent {t u : Token} (h : ∀ out below,
    (⟨out, below, true⟩ : Yard).pass t = ⟨u :: out, below, false⟩) : Passes .atom [t] [u] := by
  intro out below _
  exact ⟨[u], [], h out below, rfl, by simp⟩

/-- A sign waits below all operators of its operand. -/
theorem minus {ts word : List Token} (h : Passes .signed ts word) :
    Passes .signed (.operator (.binary .sub) :: ts) (word ++ [.operator .neg]) := by
  intro out below hbelow
  -- the sign is held without a release, so its operand has to rest on the sign
  have hneg : Category.signed.RestsOn (.operator .neg :: below) :=
    restsOn_operator (k := .signed) (fun _ h => Operator.goesBefore_of_tight h) below
  obtain ⟨sent, waiting, hpass, hword, hwait⟩ := h out _ hneg
  refine ⟨sent, waiting ++ [.operator .neg], ?_, by simp [← hword], ?_⟩
  · rw [List.append_assoc]
    exact hpass
  · intro t ht
    rcases List.mem_append.1 ht with ht | ht
    · exact hwait t ht
    · exact ⟨.neg, List.mem_singleton.1 ht, le_rfl⟩

/-- A plus in front is left out. -/
theorem plus {ts word : List Token} (h : Passes .signed ts word) :
    Passes .signed (.operator (.binary .add) :: ts) word := h

/-- An operator between two expressions sends out all operators of the left one that
still wait, and waits below all operators of the right one. -/
theorem binary {k kl kr : Category} {op : BinaryOp} {ts us u v : List Token}
    (hl : Passes kl ts u) (hr : Passes kr us v)
    (hkl : k.level ≤ kl.level) (hkr : k.level ≤ kr.level)
    (hop : k.level ≤ (Operator.binary op).precedence)
    (hbefore : ∀ earlier : Operator, kl.level ≤ earlier.precedence →
      earlier.goesBefore (.binary op) = true)
    (hafter : ∀ later : Operator, kr.level ≤ later.precedence →
      (Operator.binary op).goesBefore later = false) :
    Passes k (ts ++ .operator (.binary op) :: us) (u ++ v ++ [.operator (.binary op)]) := by
  intro out below hbelow
  obtain ⟨sent, waiting, hpass, rfl, hwait⟩ := hl out below (hbelow.mono hkl)
  have hgo : ∀ t ∈ waiting, Yard.goesBefore (.binary op) t = true := by
    intro t ht
    obtain ⟨earlier, rfl, hearlier⟩ := hwait t ht
    exact hbefore earlier hearlier
  have hstay : ∀ t ∈ below.head?, Yard.goesBefore (.binary op) t = false := fun t ht =>
    (hbelow t ht).2 (.binary op) hop
  -- the release takes what the left expression has left waiting, and stops right there
  have hmid : (⟨sent.reverse ++ out, waiting ++ below, false⟩ : Yard).pass
      (.operator (.binary op)) =
        ⟨(sent ++ waiting).reverse ++ out, .operator (.binary op) :: below, true⟩ := by
    rw [Yard.pass_operator, Yard.passInfix, Yard.release_append _ _ hgo hstay]
    simp [Yard.hold, Yard.expecting]
  obtain ⟨sent', waiting', hpass', rfl, hwait'⟩ :=
    hr ((sent ++ waiting).reverse ++ out) _ (restsOn_operator hafter below)
  refine ⟨sent ++ waiting ++ sent', waiting' ++ [.operator (.binary op)], ?_, by simp, ?_⟩
  · rw [Yard.passAll_append, hpass, Yard.passAll_cons, hmid, hpass']
    simp
  · intro t ht
    rcases List.mem_append.1 ht with ht | ht
    · obtain ⟨later, rfl, hlater⟩ := hwait' t ht
      exact ⟨later, rfl, hkr.trans hlater⟩
    · exact ⟨_, List.mem_singleton.1 ht, hop⟩

/-! ### Groups and calls -/

/-- At the end of a group or of an argument, all that the expression inside has left
waiting above the open parenthesis leaves. -/
theorem release_isInside {ts word : List Token} (h : Passes .sum ts word)
    (out below : List Token) :
    ((⟨out, .lparen :: below, true⟩ : Yard).passAll ts).release Yard.isInside =
      ⟨word.reverse ++ out, .lparen :: below, false⟩ := by
  obtain ⟨sent, waiting, hpass, rfl, hwait⟩ := h out _ (restsOn_lparen .sum below)
  have hinside : ∀ t ∈ waiting, Yard.isInside t = true := by
    intro t ht
    obtain ⟨op, rfl, -⟩ := hwait t ht
    rfl
  have hstop : ∀ t ∈ (Token.lparen :: below).head?, Yard.isInside t = false := fun t ht =>
    Yard.isInside_eq_false_iff.2 (Option.mem_some_iff.1 ht).symm
  rw [hpass, Yard.release_append _ _ hinside hstop]
  simp

/-- A closed group has sent out the word of the expression inside; a function name that
waits right before the group is next. -/
theorem pass_rparen {ts word : List Token} (h : Passes .sum ts word) (out below : List Token) :
    (⟨out, .lparen :: below, true⟩ : Yard).passAll (ts ++ [.rparen]) =
      (⟨word.reverse ++ out, below, false⟩ : Yard).applyFunction.expecting false := by
  rw [Yard.passAll_append, Yard.passAll_cons, Yard.passAll_nil, Yard.pass, h.release_isInside]
  rfl

/-- A comma has sent out the word of the argument before it. -/
theorem pass_comma {ts word : List Token} (h : Passes .sum ts word) (out below us : List Token) :
    (⟨out, .lparen :: below, true⟩ : Yard).passAll (ts ++ .comma :: us) =
      (⟨word.reverse ++ out, .lparen :: below, true⟩ : Yard).passAll us := by
  rw [Yard.passAll_append, Yard.passAll_cons, Yard.pass, h.release_isInside]
  rfl

/-- An expression in parentheses is an atom with the same word. -/
theorem group {ts word : List Token} (h : Passes .sum ts word) :
    Passes .atom (.lparen :: (ts ++ [.rparen])) word := by
  intro out below hbelow
  refine ⟨word, [], ?_, by simp, by simp⟩
  rw [Yard.passAll_cons, Yard.pass_lparen, h.pass_rparen,
    Yard.applyFunction_eq_self fun t ht => (hbelow t ht).1]
  rfl

/-- The name of a function waits until the group that follows it is closed. -/
theorem pass_funcName {name : String} {f : Func} (hf : Func.ofName? name = some f)
    (out below : List Token) :
    (⟨out, below, true⟩ : Yard).pass (.name name) = ⟨out, .name f.name :: below, true⟩ := by
  have hlower : name.toLower = f.name := Func.ofName?_eq_some_iff.1 hf
  simp [Yard.pass, Yard.passName, Constant.ofName?_eq_none hf, hlower, Yard.hold, Yard.expecting]

/-- A function name that waits right before a closed group leaves. -/
theorem applyFunction_name (f : Func) (out below : List Token) (x : Bool) :
    (⟨out, .name f.name :: below, x⟩ : Yard).applyFunction =
      ⟨.name f.name :: out, below, x⟩ := by
  simp [Yard.applyFunction, Yard.emit]

/-- A function name and its argument in parentheses are an atom. -/
theorem call {name : String} {f : Func} {ts word : List Token}
    (hf : Func.ofName? name = some f) (h : Passes .sum ts word) :
    Passes .atom (.name name :: .lparen :: (ts ++ [.rparen])) (word ++ [.name f.name]) := by
  intro out below _
  refine ⟨word ++ [.name f.name], [], ?_, by simp, by simp⟩
  rw [Yard.passAll_cons, pass_funcName hf, Yard.passAll_cons, Yard.pass_lparen, h.pass_rparen,
    applyFunction_name]
  simp [Yard.expecting]

/-- A function name and its two arguments in parentheses are an atom. -/
theorem callPow {name : String} {f : Func} {ts us u v : List Token}
    (hf : Func.ofName? name = some f) (hx : Passes .sum ts u) (hy : Passes .sum us v) :
    Passes .atom (.name name :: .lparen :: (ts ++ .comma :: (us ++ [.rparen])))
      (u ++ v ++ [.name f.name]) := by
  intro out below _
  refine ⟨u ++ v ++ [.name f.name], [], ?_, by simp, by simp⟩
  rw [Yard.passAll_cons, pass_funcName hf, Yard.passAll_cons, Yard.pass_lparen, hx.pass_comma,
    hy.pass_rparen, applyFunction_name]
  simp [Yard.expecting]

end Passes

/-! ## Derived rows of tokens -/

/-- A row of tokens derived from the grammar passes like its tree, wherever it stands. -/
theorem Derives.passes {k : Category} {ts : List Token} {e : Expr} (h : Derives k ts e) :
    Passes k ts e.postorder := by
  induction h with
  | product _ ih => exact ih.mono (by decide)
  | signed _ ih => exact ih.mono (by decide)
  | power _ ih => exact ih.mono (by decide)
  | atom _ ih => exact ih.mono (by decide)
  | sum hop _ _ ihx ihy =>
    rcases hop with rfl | rfl
    all_goals
      exact ihx.binary ihy (by decide) (by decide) (by decide)
        (fun _ h => Operator.goesBefore_of_le rfl h) (fun _ h => Operator.goesBefore_of_lt h)
  | factor hop _ _ ihx ihy =>
    rcases hop with rfl | rfl | rfl
    all_goals
      exact ihx.binary ihy (by decide) (by decide) (by decide)
        (fun _ h => Operator.goesBefore_of_le rfl h) (fun _ h => Operator.goesBefore_of_lt h)
  | minus _ ih => exact ih.minus
  | plus _ ih => exact ih.plus
  | exponent _ _ ihx ihy =>
    refine ihx.binary ihy (by decide) (by decide) (by decide) (fun earlier h => ?_)
      (fun _ h => Operator.goesBefore_of_tight h)
    -- nothing waits at the end of an atom
    have hle := earlier.precedence_le
    have hge : 4 ≤ earlier.precedence := h
    omega
  | number text => exact Passes.sent fun _ _ => rfl
  | constant hc =>
    refine Passes.sent fun out below => ?_
    simp [Yard.pass, Yard.passName, hc, Constant.ofName?_eq_some_iff.1 hc, Yard.emit,
      Yard.expecting]
  | call hf _ ih => exact ih.call hf
  | callPow hf _ _ ihx ihy => exact ihx.callPow hf ihy
  | group _ ih => exact ih.group

/-- The postfix word of a derived row of tokens is that of its tree. -/
theorem Derives.toPostfix_eq {ts : List Token} {e : Expr} (h : Derives .sum ts e) :
    toPostfix ts = e.postorder := by
  obtain ⟨sent, waiting, hpass, hword, -⟩ := h.passes [] [] (restsOn_nil .sum)
  rw [toPostfix, Yard.start, hpass, ← hword]
  simp [Yard.finish]

end PostfixCalc

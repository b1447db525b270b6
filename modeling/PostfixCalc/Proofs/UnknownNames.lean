/-
# Rows with unknown names

A name that is neither one of a function nor one of a constant waits like the name of a
function. The grammar of expressions is extended here by such names, as operands and as
functions of any number of arguments. The machine refuses an unknown name as soon as it reads
it, but what waits above the name leaves before. So an operator right after the first operand
that a row should have is applied before the name is read, and it lacks an operand if the row
has none in front of the name.
-/
import Mathlib
import PostfixCalc.Proofs.Brackets
import PostfixCalc.Proofs.Grammar

namespace PostfixCalc

open Category

/-! ## Unknown names -/

/-- Whether a name is neither one of a constant nor one of a function. -/
def IsUnknown (name : String) : Prop :=
  Constant.ofName? name = none ∧ Func.ofName? name = none

instance (name : String) : Decidable (IsUnknown name) := inferInstanceAs (Decidable (_ ∧ _))

/-- Whether a name is unknown and stands in a row. -/
def HoldsUnknown (ts : List Token) (name : String) : Prop := IsUnknown name ∧ .name name ∈ ts

@[simp] theorem not_holdsUnknown_nil (name : String) : ¬ HoldsUnknown [] name := by
  simp [HoldsUnknown]

@[simp] theorem holdsUnknown_cons {t : Token} {ts : List Token} {name : String} :
    HoldsUnknown (t :: ts) name ↔ (t = .name name ∧ IsUnknown name) ∨ HoldsUnknown ts name := by
  unfold HoldsUnknown
  rw [List.mem_cons, and_or_left, eq_comm, And.comm]

@[simp] theorem holdsUnknown_append {ts us : List Token} {name : String} :
    HoldsUnknown (ts ++ us) name ↔ HoldsUnknown ts name ∨ HoldsUnknown us name := by
  unfold HoldsUnknown
  rw [List.mem_append, and_or_left]

theorem HoldsUnknown.mono {ts us : List Token} {name : String} (h : HoldsUnknown ts name)
    (hsub : ts ⊆ us) : HoldsUnknown us name := ⟨h.1, hsub h.2⟩

theorem canWait_of_isUnknown {name : String} (h : IsUnknown name) : (Token.name name).canWait := by
  rw [Token.canWait, h.1]
  rfl

/-- `Writes k ts` says that the tokens `ts` write an expression of category `k` in which an
unknown name may stand as an operand or be called with one or more arguments. All other rules
are those of `Derives`, where no tree is read off. -/
inductive Writes : Category → List Token → Prop where
  | product {ts} : Writes .product ts → Writes .sum ts
  | sum {ts us op} : op = .add ∨ op = .sub → Writes .sum ts → Writes .product us →
      Writes .sum (ts ++ .operator (.binary op) :: us)
  | signed {ts} : Writes .signed ts → Writes .product ts
  | factor {ts us op} : op = .mul ∨ op = .div ∨ op = .rem →
      Writes .product ts → Writes .signed us →
      Writes .product (ts ++ .operator (.binary op) :: us)
  | minus {ts} : Writes .signed ts → Writes .signed (.operator (.binary .sub) :: ts)
  | plus {ts} : Writes .signed ts → Writes .signed (.operator (.binary .add) :: ts)
  | power {ts} : Writes .power ts → Writes .signed ts
  | atom {ts} : Writes .atom ts → Writes .power ts
  | exponent {ts us} : Writes .atom ts → Writes .signed us →
      Writes .power (ts ++ .operator (.binary .pow) :: us)
  | number (text) : Writes .atom [.number text]
  | constant {name c} : Constant.ofName? name = some c → Writes .atom [.name name]
  /-- An unknown name may stand alone. -/
  | unknown {name} : IsUnknown name → Writes .atom [.name name]
  /-- A name that is not one of a constant may be called, the name of a function with as many
  arguments as the function has. -/
  | call {name} {args : List (List Token)} : Constant.ofName? name = none → args ≠ [] →
      (∀ f, Func.ofName? name = some f → args.length = f.arity) →
      (∀ ts ∈ args, Writes .sum ts) →
      Writes .atom (.name name :: .lparen :: ([Token.comma].intercalate args ++ [.rparen]))
  | group {ts} : Writes .sum ts → Writes .atom (.lparen :: (ts ++ [.rparen]))

/-- The arguments of a call are parts of the row between its parentheses. -/
theorem subset_intercalate {ts : List Token} {args : List (List Token)} (hts : ts ∈ args) :
    ts ⊆ [Token.comma].intercalate args := by
  induction args with
  | nil => cases hts
  | cons us args ih =>
    by_cases hargs : args = []
    · subst hargs
      obtain rfl := List.mem_singleton.1 hts
      rw [List.intercalate_singleton]
      exact List.Subset.refl ts
    · rw [List.intercalate_cons_of_ne_nil hargs]
      rcases List.mem_cons.1 hts with rfl | hts
      · intro t ht
        simp [ht]
      · intro t ht
        simp [ih hts ht]

/-- Without unknown names these are the rows of the grammar. -/
theorem Writes.exists_derives {k : Category} {ts : List Token} (h : Writes k ts)
    (hknown : ∀ name, ¬ HoldsUnknown ts name) : ∃ e, Derives k ts e := by
  have hpart : ∀ {us vs : List Token}, us ⊆ vs → (∀ name, ¬ HoldsUnknown vs name) →
      ∀ name, ¬ HoldsUnknown us name := fun hsub hvs name hus =>
    hvs name ⟨hus.1, hsub hus.2⟩
  induction h with
  | product _ ih =>
    obtain ⟨e, he⟩ := ih hknown
    exact ⟨e, .product he⟩
  | signed _ ih =>
    obtain ⟨e, he⟩ := ih hknown
    exact ⟨e, .signed he⟩
  | power _ ih =>
    obtain ⟨e, he⟩ := ih hknown
    exact ⟨e, .power he⟩
  | atom _ ih =>
    obtain ⟨e, he⟩ := ih hknown
    exact ⟨e, .atom he⟩
  | minus _ ih =>
    obtain ⟨e, he⟩ := ih (hpart (by simp) hknown)
    exact ⟨_, .minus he⟩
  | plus _ ih =>
    obtain ⟨e, he⟩ := ih (hpart (by simp) hknown)
    exact ⟨_, .plus he⟩
  | sum hop _ _ ihx ihy =>
    obtain ⟨x, hx⟩ := ihx (hpart (by simp) hknown)
    obtain ⟨y, hy⟩ := ihy (hpart (by simp) hknown)
    exact ⟨_, .sum hop hx hy⟩
  | factor hop _ _ ihx ihy =>
    obtain ⟨x, hx⟩ := ihx (hpart (by simp) hknown)
    obtain ⟨y, hy⟩ := ihy (hpart (by simp) hknown)
    exact ⟨_, .factor hop hx hy⟩
  | exponent _ _ ihx ihy =>
    obtain ⟨x, hx⟩ := ihx (hpart (by simp) hknown)
    obtain ⟨y, hy⟩ := ihy (hpart (by simp) hknown)
    exact ⟨_, .exponent hx hy⟩
  | number text => exact ⟨_, .number text⟩
  | constant hc => exact ⟨_, .constant hc⟩
  | unknown hname => exact absurd ⟨hname, List.mem_singleton_self _⟩ (hknown _)
  | group _ ih =>
    obtain ⟨e, he⟩ := ih (hpart (by simp) hknown)
    exact ⟨e, .group he⟩
  | @call name args hc hne harity _ ih =>
    have hargs : ∀ us ∈ args, ∃ e, Derives .sum us e := by
      intro us hus
      apply ih us hus
      apply hpart _ hknown
      intro t ht
      simp [subset_intercalate hus ht]
    cases hf : Func.ofName? name with
    | none => exact absurd ⟨⟨hc, hf⟩, List.mem_cons_self⟩ (hknown name)
    | some f =>
      have hlength := harity f hf
      cases f with
      | unary f =>
        obtain ⟨us, rfl⟩ := List.length_eq_one_iff.1 hlength
        obtain ⟨x, hx⟩ := hargs us List.mem_cons_self
        rw [List.intercalate_singleton]
        exact ⟨_, .call hf hx⟩
      | pow =>
        obtain ⟨us, vs, rfl⟩ := List.length_eq_two.1 hlength
        obtain ⟨x, hx⟩ := hargs us (by simp)
        obtain ⟨y, hy⟩ := hargs vs (by simp)
        have hrow := Derives.callPow hf hx hy
        rw [List.intercalate_cons_cons, List.intercalate_singleton]
        simp only [List.append_assoc, List.singleton_append]
        exact ⟨_, hrow⟩

/-! ## What has been computed so far -/

/-- The stack that the tokens sent out so far leave; the latest of them comes first. -/
def computed (out : List Token) : Except EvalError Stack := Stack.run [] out.reverse

section

variable {out out' : List Token} {s : Stack} {cause : EvalError}

/-- What is sent out next is read on the stack computed so far. -/
theorem computed_append (h : computed out = .ok s) (sent : List Token) :
    computed (sent.reverse ++ out) = s.run sent := by
  unfold computed at h ⊢
  rw [List.reverse_append, List.reverse_reverse, Stack.run_append, h]
  rfl

/-- An unknown name is refused, in lower case. -/
theorem computed_unknown {held : List Token} {s' : Stack} {name : String}
    (h : computed out = .ok s) (hrun : s.run held = .ok s') (hname : IsUnknown name) :
    computed (.name name.toLower :: (held.reverse ++ out)) =
      .error (.unknownFunction name.toLower) := by
  have hstep : s'.step (.name name.toLower) = .error (.unknownFunction name.toLower) := by
    rw [Stack.step, Constant.ofName?_toLower, Func.ofName?_toLower, hname.1, hname.2]
  have hall := computed_append ((computed_append h held).trans hrun) [.name name.toLower]
  rw [Stack.run_cons, hstep] at hall
  exact hall

/-- Once a token has been refused, nothing that follows changes the cause. -/
theorem computed_of_suffix (h : computed out = .error cause) (hout : out <:+ out') :
    computed out' = .error cause := by
  obtain ⟨sent, rfl⟩ := hout
  unfold computed at h ⊢
  rw [List.reverse_append, Stack.run_append, h]
  rfl

end

namespace Yard

theorem suffix_output_release (y : Yard) (p : Token → Bool) :
    y.output <:+ (y.release p).output := List.suffix_append _ _

/-- The parenthesis that closes a group takes back nothing. -/
theorem suffix_output_close (y : Yard) :
    y.output <:+ (y.matchParen.applyFunction.expecting false).output := by
  have hmatch : y.output <:+ y.matchParen.output := by
    unfold matchParen
    split
    · exact List.suffix_rfl
    · exact List.suffix_cons _ _
  rcases y.matchParen.applyFunction_cases with h | ⟨f, below, -, h, -⟩
  · rw [h]
    exact hmatch
  · rw [h]
    exact hmatch.trans (List.suffix_cons _ _)

/-- What has been sent out stays so. -/
theorem suffix_output_pass (y : Yard) (t : Token) : y.output <:+ (y.pass t).output := by
  cases t with
  | number text => exact List.suffix_cons _ _
  | name text =>
    simp only [pass, passName]
    cases Constant.ofName? text with
    | some c => exact List.suffix_cons _ _
    | none => exact List.suffix_rfl
  | operator op =>
    rw [pass]
    rcases sign_cases y.expectsOperand op with ⟨hx, rfl⟩ | ⟨hx, rfl⟩ | hop
    · rw [passOperator_sub hx]
      exact List.suffix_rfl
    · rw [passOperator_add hx]
    · rw [passOperator_eq_passInfix hop]
      exact suffix_output_release y _
  | lparen => exact List.suffix_rfl
  | comma => exact suffix_output_release y _
  | rparen => exact (suffix_output_release y _).trans (suffix_output_close _)

theorem suffix_output_passAll (y : Yard) (ts : List Token) :
    y.output <:+ (y.passAll ts).output := by
  induction ts generalizing y with
  | nil => exact List.suffix_rfl
  | cons t ts ih => exact (suffix_output_pass y t).trans (ih (y.pass t))

/-- If the machine has failed, then the word of the whole row is refused for the same cause. -/
theorem postfixValue_finish {y : Yard} {cause : EvalError} (h : computed y.output = .error cause)
    (ts : List Token) : postfixValue (y.passAll ts).finish = .error cause := by
  have hrun := computed_of_suffix h (suffix_output_passAll y ts)
  unfold computed at hrun
  unfold postfixValue finish
  rw [Stack.run_append, hrun]
  rfl

end Yard

/-! ## Names that wait -/

/-- Every row can begin after an unknown name. -/
theorem restsOn_unknown {name : String} (h : IsUnknown name) (k : Category)
    (below : List Token) : k.RestsOn (.name name.toLower :: below) := by
  intro t ht
  obtain rfl := Option.mem_some_iff.1 ht
  refine ⟨fun name' hname' => ?_, fun _ _ => rfl⟩
  rw [← Token.name.inj hname', Func.ofName?_toLower]
  exact h.2

namespace Yard

/-- An unknown name waits, and an operand should follow. -/
theorem pass_unknown {name : String} (h : IsUnknown name) (out below : List Token) :
    (⟨out, below, true⟩ : Yard).pass (.name name) = ⟨out, .name name.toLower :: below, true⟩ := by
  rw [pass, passName, h.1]
  rfl

/-- An operator that is no sign waits above a name. -/
theorem pass_afterName {op : BinaryOp} (hadd : op ≠ .add) (hsub : op ≠ .sub) (name : String)
    (out below : List Token) :
    (⟨out, .name name :: below, true⟩ : Yard).pass (.operator (.binary op)) =
      ⟨out, .operator (.binary op) :: .name name :: below, true⟩ := by
  rw [pass, passOperator_eq_passInfix fun _ => by simp [hadd, hsub]]
  rfl

end Yard

/-! ## Hidden names -/

/-- An unknown name is hidden if no operand stands before it and it is followed by an operator
other than a sign, and that by an operand without unknown names, which has to be complete: no
power goes on with it. -/
def Hides (ts : List Token) : Prop :=
  ∃ before name op us after,
    ts = before ++ .name name :: .operator (.binary op) :: (us ++ after) ∧
      IsUnknown name ∧ (∀ t ∈ before, t.canWait) ∧ (op ≠ .add ∧ op ≠ .sub) ∧
      (∃ e, Derives .signed us e) ∧
      ∀ t ∈ after.head?, t.followsOperand ∧ t ≠ .operator (.binary .pow)

theorem Hides.append_left {ts : List Token} (h : Hides ts) {us : List Token}
    (hus : ∀ t ∈ us, t.canWait) : Hides (us ++ ts) := by
  obtain ⟨before, name, op, vs, after, rfl, hname, hbefore, hrest⟩ := h
  exact ⟨us ++ before, name, op, vs, after, by simp, hname,
    List.forall_mem_append.2 ⟨hus, hbefore⟩, hrest⟩

/-! ## Before the first operand -/

namespace Yard

/-- Whether a yard can have passed no operand yet: one is expected, and nothing has been sent
out, unless it is an operator that has found no operand. -/
def BeforeOperands (y : Yard) : Prop :=
  y.expectsOperand = true ∧
    (y.output = [] ∨ computed y.output = .error (.malformed .missingOperand))

/-- An operator that leaves before the first operand finds none. -/
theorem BeforeOperands.passInfix {y : Yard} (h : y.BeforeOperands) (op : Operator) :
    (y.passInfix op).BeforeOperands := by
  refine ⟨rfl, ?_⟩
  rcases h.2 with hy | hy
  · cases htaken : y.pending.takeWhile (goesBefore op) with
    | nil =>
      left
      simp [Yard.passInfix, release, hold, expecting, htaken, hy]
    | cons u us =>
      have hu : goesBefore op u = true := by
        apply List.mem_takeWhile_imp
        rw [htaken]
        exact List.mem_cons_self
      have hfirst : computed [u] = .error (.malformed .missingOperand) := by
        cases u with
        | operator earlier => cases earlier <;> rfl
        | _ => cases hu
      right
      apply computed_of_suffix hfirst
      refine ⟨us.reverse, ?_⟩
      simp [Yard.passInfix, release, hold, expecting, htaken, hy]
  · exact Or.inr (computed_of_suffix hy (suffix_output_release y _))

theorem BeforeOperands.pass {y : Yard} (h : y.BeforeOperands) {t : Token} (ht : t.canWait) :
    (y.pass t).BeforeOperands := by
  cases t with
  | operator op =>
    rw [Yard.pass]
    rcases sign_cases y.expectsOperand op with ⟨hx, rfl⟩ | ⟨hx, rfl⟩ | hop
    · rw [passOperator_sub hx]
      exact h
    · rw [passOperator_add hx]
      exact h
    · rw [passOperator_eq_passInfix hop]
      exact h.passInfix op
  | name text =>
    rw [Token.canWait, Option.isNone_iff_eq_none] at ht
    rw [Yard.pass, passName, ht]
    exact ⟨rfl, h.2⟩
  | lparen => exact ⟨rfl, h.2⟩
  | number text => cases ht
  | rparen => cases ht
  | comma => cases ht

theorem BeforeOperands.passAll {y : Yard} (h : y.BeforeOperands) {ts : List Token}
    (hts : ∀ t ∈ ts, t.canWait) : (y.passAll ts).BeforeOperands := by
  induction ts generalizing y with
  | nil => exact h
  | cons t ts ih =>
    rw [List.forall_mem_cons] at hts
    exact ih (h.pass hts.1) hts.2

end Yard

/-! ## Rows that hide a name -/

/-- After an operand, all but a power send out an operator that is no sum or difference. -/
theorem sendsOut_of_followsOperand {u : Token} {op : Operator} (hu : u.followsOperand)
    (hpow : u ≠ .operator (.binary .pow)) (hop : 2 ≤ op.precedence) :
    u.sendsOut (.operator op) := by
  cases u with
  | rparen => rfl
  | comma => rfl
  | operator later =>
    cases later with
    | neg => cases hu
    | binary later =>
      have hleft : (Operator.binary later).associativity = .left ∧
          (Operator.binary later).precedence ≤ 2 := by
        cases later with
        | pow => exact absurd rfl hpow
        | _ => decide
      exact Operator.goesBefore_of_le hleft.1 (hleft.2.trans hop)
  | _ => cases hu

/-- Where a row hides a name, the operator after it finds the operand on its right alone. -/
theorem postfixValue_of_hides {ts : List Token} (h : Hides ts)
    (hnumbers : ∀ text, .number text ∈ ts → (Numeral.value? text).isSome) :
    postfixValue (toPostfix ts) = .error (.malformed .missingOperand) := by
  obtain ⟨before, name, op, us, after, rfl, hname, hbefore, ⟨hadd, hsub⟩, ⟨e, he⟩, hafter⟩ := h
  have hstart : Yard.start.BeforeOperands := ⟨rfl, Or.inl rfl⟩
  have hfirst := hstart.passAll hbefore
  rw [toPostfix, Yard.passAll_append, Yard.passAll_cons, Yard.passAll_cons]
  generalize Yard.start.passAll before = y at hfirst ⊢
  obtain ⟨out, below, x⟩ := y
  obtain ⟨rfl, hout⟩ : x = true ∧ (out = [] ∨ _) := hfirst
  rw [Yard.pass_unknown hname, Yard.pass_afterName hadd hsub]
  rcases hout with rfl | hout
  · -- nothing has been computed yet, and the operator leaves right after its right operand
    have hrests : Category.signed.RestsOn
        (.operator (.binary op) :: .name name.toLower :: below) :=
      restsOn_operator (k := .signed) (fun _ h => Operator.goesBefore_of_tight h) _
    obtain ⟨sent, waiting, hus, hword, hwaiting⟩ := he.passes [] _ hrests
    have hsends : ∀ t ∈ waiting ++ [.operator (.binary op)], ∀ u ∈ after.head?, u.sendsOut t := by
      intro t ht u hu
      obtain ⟨earlier, rfl, hearlier⟩ : ∃ earlier : Operator, t = .operator earlier ∧
          2 ≤ earlier.precedence := by
        rcases List.mem_append.1 ht with ht | ht
        · obtain ⟨earlier, rfl, hlevel⟩ := hwaiting t ht
          exact ⟨earlier, rfl, le_trans (by decide) hlevel⟩
        · refine ⟨.binary op, List.mem_singleton.1 ht, ?_⟩
          cases op <;> first | decide | contradiction
      exact sendsOut_of_followsOperand (hafter u hu).1 (hafter u hu).2 hearlier
    rw [Yard.passAll_append, hus, List.append_cons, Yard.finish_passAll_of_sendsOut_all hsends]
    have hlacks : Stack.run [] (e.postorder ++ [.operator (.binary op)]) =
        .error (.malformed .missingOperand) := by
      rw [Stack.run_append, Expr.run_postorder, e.value_eq_outcome, he.firstInvalid?_postorder,
        Token.firstInvalid?_eq_none fun text htext => hnumbers text (by simp [htext])]
      rfl
    apply Yard.postfixValue_finish
    unfold computed
    rw [← hword] at hlacks
    simpa using hlacks
  · have hwaits : computed (⟨out, .operator (.binary op) :: .name name.toLower :: below, true⟩ :
        Yard).output = .error (.malformed .missingOperand) := hout
    exact Yard.postfixValue_finish hwaits _

end PostfixCalc

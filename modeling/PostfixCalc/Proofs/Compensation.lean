/-
# Accepted texts and their defects

The conversion refuses nothing, and the machine only counts operands, so a row of
tokens that is no expression can still have a value, provided that its defects
compensate. The main statement says how: the places where one operand follows another
and the commas are together as many as the powers written as calls and the places where
an operand is missing. So defects of one kind alone are never accepted.
-/
import Mathlib
import PostfixCalc.Proofs.Evaluation
import PostfixCalc.Proofs.Group
import PostfixCalc.Proofs.Vocabulary

namespace PostfixCalc

namespace Token

/-! ## Places in a row of tokens -/

/-- Whether a token begins an operand: a number, a name, an open parenthesis, or a change
of sign that is already marked as one. -/
def startsOperand : Token → Bool
  | number _ | name _ | lparen | operator .neg => true
  | _ => false

/-- Whether a token is an operator. -/
def isOperator : Token → Bool
  | operator _ => true
  | _ => false

/-- Whether a token is an operator that stands between two operands only: it is no sign. -/
def isInfixOnly : Token → Bool
  | operator (.binary op) => op ≠ .add && op ≠ .sub
  | _ => false

/-- Whether an operand is missing before a token that stands where one should begin. -/
def leavesVacant : Token → Bool
  | rparen | comma => true
  | t => t.isInfixOnly

/-- Whether a token is the name of the function for powers. -/
def isPower : Token → Bool
  | name text => Func.ofName? text = some .pow
  | _ => false

/-- At how many places of a row the token satisfies `p`, which also gets to know whether
an operand should begin there. -/
def places (p : Bool → Token → Bool) (expected : Bool) : List Token → Nat
  | [] => 0
  | t :: ts => (p expected t).toNat + places p (!t.endsOperand) ts

/-- Whether an operand should begin after a row of tokens. -/
def expectedAfter (expected : Bool) : List Token → Bool
  | [] => expected
  | t :: ts => expectedAfter (!t.endsOperand) ts

/-- Where one operand follows another. -/
def isJuxtaposed (expected : Bool) (t : Token) : Bool := !expected && t.startsOperand

/-- Where an operand is missing before a token. -/
def isVacant (expected : Bool) (t : Token) : Bool := expected && t.leavesVacant

/-- The number of places where one operand follows another. -/
def juxtapositions (ts : List Token) : Nat := places isJuxtaposed true ts

/-- The number of places where an operand is missing, the end of the row included. -/
def vacancies (ts : List Token) : Nat :=
  places isVacant true ts + (expectedAfter true ts).toNat

/-- The number of powers written as calls. -/
def powers (ts : List Token) : Nat := ts.countP isPower

/-- There is no such place exactly when neither the first token nor any other one, after
the token before it, makes one. -/
theorem places_eq_zero_iff (p : Bool → Token → Bool) (expected : Bool) (ts : List Token) :
    places p expected ts = 0 ↔
      (∀ t ∈ ts.head?, p expected t = false) ∧
        ts.IsChain (fun t u => p (!t.endsOperand) u = false) := by
  induction ts generalizing expected with
  | nil => simp [places]
  | cons t ts ih =>
    rw [places, Nat.add_eq_zero_iff, ih, List.isChain_cons]
    by_cases h : p expected t <;> simp [h]

/-! ## The balance of a row -/

/-- Names are looked up without regard to case, so folding does not change the gain. -/
theorem gain_toLower (text : String) : (name text.toLower).gain = (name text).gain := by
  rw [gain, gain, Constant.ofName?_toLower, Func.ofName?_toLower]

/-- A name gains one value if it is a constant, and loses one if it is the function for
powers. -/
theorem gain_name (text : String) :
    (name text).gain =
      ((name text).endsOperand.toNat : Int) - ((name text).isPower.toNat : Int) := by
  simp only [gain, endsOperand, isPower]
  cases hf : Func.ofName? text with
  | none => cases Constant.ofName? text <;> simp
  | some f =>
    rw [Constant.ofName?_eq_none hf]
    cases f <;> simp [Func.arity]

/-- What one token adds to the balance of a row. -/
theorem sum_gain_kept (expected : Bool) (t : Token) :
    ((t.kept expected).map gain).sum + t.isPower.toNat + (isVacant expected t).toNat +
        (!t.endsOperand).toNat =
      expected.toNat + (isJuxtaposed expected t).toNat +
        ((if t == comma then 1 else 0 : Nat) : Int) := by
  cases t with
  | name text =>
    have h := gain_name text
    simp only [kept, List.map_cons, List.map_nil, List.sum_cons, List.sum_nil, gain_toLower, h]
    cases expected <;> cases (name text).endsOperand <;> cases (name text).isPower <;>
      simp [isVacant, isJuxtaposed, leavesVacant, isInfixOnly, startsOperand]
  | operator op =>
    -- the six operators with two operands, and a change of sign
    rcases op with (_ | _ | _ | _ | _ | _) | _ <;> cases expected <;> decide
  | number text => cases expected <;> rfl
  | lparen => cases expected <;> rfl
  | rparen => cases expected <;> rfl
  | comma => cases expected <;> rfl

/-- **The balance of a row of tokens**: what is kept of it gains one value if an operand
should begin at first, and one for every juxtaposition and every comma, and loses one for
every power written as a call and every missing operand. -/
theorem sum_gain_keptAll (expected : Bool) (ts : List Token) :
    ((keptAll expected ts).map gain).sum + powers ts +
        (places isVacant expected ts + (expectedAfter expected ts).toNat) =
      expected.toNat + places isJuxtaposed expected ts + ts.count .comma := by
  induction ts generalizing expected with
  | nil => simp [keptAll, powers, places, expectedAfter]
  | cons t ts ih =>
    have hfirst := sum_gain_kept expected t
    have hrest := ih (!t.endsOperand)
    have hpower : (if t.isPower = true then 1 else 0) = t.isPower.toNat := by
      cases t.isPower <;> rfl
    rw [powers] at hrest
    rw [keptAll, List.map_append, List.sum_append, powers, List.countP_cons, places, places,
      expectedAfter, List.count_cons, hpower]
    simp only [Nat.cast_add]
    omega

/-! ## Infix form -/

/-- No token that ends an operand is directly followed by one that begins an operand. -/
def NoJuxtaposition (ts : List Token) : Prop :=
  ts.IsChain fun t u => t.endsOperand → ¬ u.startsOperand

/-- No operator is the last token, or stands directly before a closing parenthesis or a
comma. -/
def NoDangling (ts : List Token) : Prop :=
  (∀ t ∈ ts.getLast?, ¬ t.isOperator) ∧
    ts.IsChain fun t u => t.isOperator → u ≠ rparen ∧ u ≠ comma

/-- No operator but a sign stands where an operand should begin: at the start, or after a
token that does not end one. -/
def NoMisplaced (ts : List Token) : Prop :=
  (∀ t ∈ ts.head?, ¬ t.isInfixOnly) ∧
    ts.IsChain fun t u => ¬ t.endsOperand → ¬ u.isInfixOnly

/-- Every comma lies inside the parentheses of a power written as a call. -/
def CommasInPowers (ts : List Token) : Prop :=
  ∀ us vs, ts = us ++ comma :: vs → ∃ before text inside,
    us = before ++ name text :: lparen :: inside ∧ (name text).isPower ∧ ClosesWithin 0 inside

/-- There are no juxtapositions exactly when no two neighbours make one. -/
theorem juxtapositions_eq_zero_iff {ts : List Token} :
    juxtapositions ts = 0 ↔ NoJuxtaposition ts := by
  have hstep : (fun t u : Token => isJuxtaposed (!t.endsOperand) u = false) =
      fun t u => t.endsOperand → ¬ u.startsOperand := by
    funext t u
    simp [isJuxtaposed]
  rw [juxtapositions, places_eq_zero_iff, hstep, NoJuxtaposition]
  exact and_iff_right fun t _ => rfl

/-- After a row of tokens an operand should begin unless the last token ends one. -/
theorem expectedAfter_of_mem_getLast? (expected : Bool) {ts : List Token} {t : Token}
    (ht : t ∈ ts.getLast?) : expectedAfter expected ts = !t.endsOperand := by
  induction ts generalizing expected with
  | nil => cases ht
  | cons u ts ih =>
    rcases ts with _ | ⟨v, ts⟩
    · obtain rfl := Option.mem_some_iff.1 ht
      rfl
    · rw [List.getLast?_cons_cons] at ht
      exact ih (!u.endsOperand) ht

/-- An operator never ends an operand. -/
theorem endsOperand_of_isOperator {t : Token} (ht : t.isOperator) : t.endsOperand = false := by
  cases t <;> simp_all [isOperator, endsOperand]

/-- Where no operand is missing, operators stand only between operands or as signs. -/
theorem noDangling_noMisplaced {ts : List Token} (h : vacancies ts = 0) :
    NoDangling ts ∧ NoMisplaced ts := by
  rw [vacancies, Nat.add_eq_zero_iff, places_eq_zero_iff] at h
  obtain ⟨⟨hhead, hchain⟩, hend⟩ := h
  refine ⟨⟨fun t ht hop => ?_, hchain.imp fun t u hvacant hop => ?_⟩,
    fun t ht hop => ?_, hchain.imp fun t u hvacant ht hop => ?_⟩
  · rw [expectedAfter_of_mem_getLast? true ht, endsOperand_of_isOperator hop] at hend
    cases hend
  · rw [isVacant, endsOperand_of_isOperator hop] at hvacant
    constructor <;> rintro rfl <;> cases hvacant
  · have := hhead t ht
    cases t <;> simp_all [isVacant, leavesVacant, isInfixOnly]
  · cases u <;> simp_all [isVacant, leavesVacant, isInfixOnly]

end Token

open Token

/-! ## Rows with a value -/

/-- Parentheses add no value. -/
theorem sum_gain_filter_isContent (word : List Token) :
    ((word.filter isContent).map gain).sum = (word.map gain).sum := by
  induction word with
  | nil => rfl
  | cons t word ih =>
    cases t <;> simp [List.filter_cons, isContent, ih, gain]

/-- In a row of tokens whose postfix word has a value, juxtapositions and commas are
together as many as powers written as calls and missing operands. -/
theorem balance_of_postfixValue {ts : List Token} {x : Float}
    (hx : postfixValue (toPostfix ts) = .ok x) :
    juxtapositions ts + ts.count .comma = powers ts + vacancies ts := by
  have hlength := Stack.length_of_run (postfixValue_eq_ok_iff.1 hx)
  have hkept := ((toPostfix_perm_keptAll ts).map gain).sum_eq
  have hbalance := sum_gain_keptAll true ts
  rw [sum_gain_filter_isContent] at hkept
  simp only [List.length_cons, List.length_nil, Bool.toNat_true] at hlength hbalance
  rw [juxtapositions, vacancies]
  omega

/-- **Defects of an accepted text compensate.** In the tokens of an accepted text the
juxtapositions and the commas are together as many as the powers written as calls and the
missing operands. So without juxtapositions, and with no more commas than powers, no
operand is missing; and where no operand is missing, and there are no fewer commas than
powers, there are no juxtapositions. -/
theorem juxtapositions_add_commas {s : String} {p : Precision} {out : Evaluation}
    {ts : List Token} (hts : Token.scan (plainText s) = ts) (h : evaluate s p = .ok out) :
    juxtapositions ts + ts.count .comma = powers ts + vacancies ts ∧
    (NoJuxtaposition ts → ts.count .comma ≤ powers ts →
      vacancies ts = 0 ∧ NoDangling ts ∧ NoMisplaced ts ∧ ts.count .comma = powers ts) ∧
    (vacancies ts = 0 → powers ts ≤ ts.count .comma →
      NoJuxtaposition ts ∧ ts.count .comma = powers ts) := by
  obtain ⟨-, x, hx, -, -⟩ := evaluate_eq_ok_iff.1 h
  rw [hts] at hx
  have hbalance := balance_of_postfixValue hx
  refine ⟨hbalance, fun hchain hcommas => ?_, fun hvacant hpowers => ?_⟩
  · have hnone := juxtapositions_eq_zero_iff.2 hchain
    have hvacant : vacancies ts = 0 := by omega
    obtain ⟨hdangling, hmisplaced⟩ := noDangling_noMisplaced hvacant
    exact ⟨hvacant, hdangling, hmisplaced, by omega⟩
  · exact ⟨juxtapositions_eq_zero_iff.1 (by omega), by omega⟩

/-- A text with a juxtaposition, a comma outside of a power, an operator before the end, and
one where an operand should begin, that has a value. -/
theorem malformed_text_with_value :
    (∃ out, evaluate "1,2 3+*" default = .ok out) ∧
      ¬ NoJuxtaposition (Token.scan (plainText "1,2 3+*")) ∧
      ¬ NoDangling (Token.scan (plainText "1,2 3+*")) ∧
      ¬ NoMisplaced (Token.scan (plainText "1,2 3+*")) ∧
      ¬ CommasInPowers (Token.scan (plainText "1,2 3+*")) := by
  have hts : Token.scan (plainText "1,2 3+*") =
      [.number "1", .comma, .number "2", .number "3", .operator (.binary .add),
        .operator (.binary .mul)] := by cbv
  have hvalue : postfixValue (toPostfix (Token.scan (plainText "1,2 3+*"))) =
      .ok (Float.ofBits 0x401C000000000000) := by decide +kernel
  refine ⟨⟨_, evaluate_eq_ok_iff.2 ⟨by cbv, _, hvalue, by decide +kernel, rfl⟩⟩, ?_⟩
  rw [hts]
  refine ⟨?_, ?_, ?_, fun h => ?_⟩
  · rw [NoJuxtaposition]
    decide
  · rw [NoDangling]
    decide
  · rw [NoMisplaced]
    decide
  · -- only a number stands before the comma, and no call fits there
    obtain ⟨before, text, inside, hbefore, -, -⟩ := h [.number "1"] _ rfl
    have hlength := congrArg List.length hbefore
    simp only [List.length_append, List.length_cons, List.length_nil] at hlength
    omega

/-- A juxtaposition and a comma make up for two missing operands, and where there is neither,
no operand is missing. -/
theorem juxtapositions_add_commas_in_texts :
    juxtapositions (Token.scan (plainText "1,2 3+*")) +
        (Token.scan (plainText "1,2 3+*")).count .comma =
      powers (Token.scan (plainText "1,2 3+*")) + vacancies (Token.scan (plainText "1,2 3+*")) ∧
    juxtapositions (Token.scan (plainText "1,2 3+*")) = 1 ∧
    vacancies (Token.scan (plainText "1,2 3+*")) = 2 ∧
    vacancies (Token.scan (plainText "-(1+2)*3")) = 0 ∧
    NoJuxtaposition (Token.scan (plainText "-(1+2)*3")) := by
  have hseven : postfixValue (toPostfix (Token.scan (plainText "1,2 3+*"))) =
      .ok (Float.ofBits 0x401C000000000000) := by decide +kernel
  have hnine : postfixValue (toPostfix (Token.scan (plainText "-(1+2)*3"))) =
      .ok (Float.ofBits 0xC022000000000000) := by decide +kernel
  have hts : Token.scan (plainText "-(1+2)*3") =
      [.operator (.binary .sub), .lparen, .number "1", .operator (.binary .add), .number "2",
        .rparen, .operator (.binary .mul), .number "3"] := by cbv
  have hchain : NoJuxtaposition (Token.scan (plainText "-(1+2)*3")) := by
    rw [hts, NoJuxtaposition]
    decide
  obtain ⟨hbalance, -, -⟩ := juxtapositions_add_commas (p := default) rfl
    (evaluate_eq_ok_iff.2 ⟨by cbv, _, hseven, by decide +kernel, rfl⟩)
  obtain ⟨-, hnone, -⟩ := juxtapositions_add_commas (p := default) rfl
    (evaluate_eq_ok_iff.2 ⟨by cbv, _, hnine, by decide +kernel, rfl⟩)
  refine ⟨hbalance, by decide +kernel, by decide +kernel, ?_, hchain⟩
  exact (hnone hchain (by decide +kernel)).1

end PostfixCalc

/-
# A group is one operand

Whatever stands around a parenthesised row of tokens, the postfix word of the whole
holds the postfix word of the row as one block, and the rest of it does not depend on
the row. So a group can be replaced by any other with the same value, and further
parentheses around a group change nothing. The reason is that a row whose parentheses
are balanced never closes the parenthesis in front of it, and so runs on top of all
that waits there without touching it.
-/
import Mathlib
import PostfixCalc.Proofs.Conservation
import PostfixCalc.Proofs.Machine

namespace PostfixCalc

/-! ## Balanced parentheses -/

/-- The row `ts` in parentheses, between the rows `p` and `q`. -/
def grouped (p ts q : List Token) : List Token :=
  p ++ [Token.lparen] ++ ts ++ [Token.rparen] ++ q

/-- The row `ts` in `n` pairs of parentheses. -/
def nested (n : Nat) (ts : List Token) : List Token :=
  List.replicate n Token.lparen ++ ts ++ List.replicate n Token.rparen

/-- No beginning of a row closes more parentheses than it opens and `n` others. -/
def ClosesWithin (n : Nat) (ts : List Token) : Prop :=
  ∀ us ∈ ts.inits, us.count .rparen ≤ us.count .lparen + n

/-- The parentheses of a row are balanced: no beginning of the row closes more than it
opens, and the whole row closes all. -/
def Balanced (ts : List Token) : Prop :=
  ClosesWithin 0 ts ∧ ts.count .rparen = ts.count .lparen

instance (n : Nat) (ts : List Token) : Decidable (ClosesWithin n ts) :=
  inferInstanceAs (Decidable (∀ us ∈ ts.inits, _))

instance (ts : List Token) : Decidable (Balanced ts) :=
  inferInstanceAs (Decidable (_ ∧ _))

/-- A row without parentheses is balanced. -/
theorem balanced_of_not_mem {ts : List Token} (hl : .lparen ∉ ts) (hr : .rparen ∉ ts) :
    Balanced ts := by
  refine ⟨fun us hus => ?_, by rw [List.count_eq_zero.2 hl, List.count_eq_zero.2 hr]⟩
  rw [List.mem_inits] at hus
  rw [List.count_eq_zero.2 fun h => hr (hus.mem h)]
  exact Nat.zero_le _

theorem balanced_nil : Balanced [] := by decide

theorem balanced_number (text : String) : Balanced [.number text] :=
  balanced_of_not_mem (by simp) (by simp)

/-- Parentheses around a balanced row leave it balanced. -/
theorem Balanced.group {ts : List Token} (h : Balanced ts) :
    Balanced (.lparen :: (ts ++ [.rparen])) := by
  obtain ⟨hle, heq⟩ := h
  refine ⟨fun us hus => ?_, by simp [heq]⟩
  rcases us with _ | ⟨t, us⟩
  · simp
  · rw [List.mem_inits, List.cons_prefix_cons] at hus
    obtain ⟨rfl, hus⟩ := hus
    rcases List.prefix_concat_iff.1 hus with rfl | hus
    · simp [heq]
    · have := hle us ((List.mem_inits us ts).2 hus)
      simp only [List.count_cons, beq_iff_eq, reduceCtorEq, if_true, if_false]
      omega

/-- A row closes what it and `n` others open if its first token can be passed and the rest
closes what is open then. -/
theorem closesWithin_cons_iff {n : Nat} {t : Token} {ts : List Token} :
    ClosesWithin n (t :: ts) ↔
      (t = .rparen → n ≠ 0) ∧
        ClosesWithin (if t = .lparen then n + 1 else if t = .rparen then n - 1 else n) ts := by
  constructor
  · intro h
    refine ⟨?_, fun us hus => ?_⟩
    · rintro rfl rfl
      have hfirst := h [.rparen] (by simp)
      exact absurd hfirst (by decide)
    · have hcount := h (t :: us) (by simpa using hus)
      cases t <;>
        simp only [List.count_cons, beq_iff_eq, reduceCtorEq, if_true, if_false] at hcount ⊢ <;>
        omega
  · rintro ⟨hopen, h⟩ us hus
    rcases us with _ | ⟨u, us⟩
    · simp
    · rw [List.mem_inits, List.cons_prefix_cons] at hus
      obtain ⟨rfl, hus⟩ := hus
      have hcount := h us ((List.mem_inits us ts).2 hus)
      cases u <;>
        simp only [List.count_cons, beq_iff_eq, reduceCtorEq, if_true, if_false, true_implies]
          at hcount hopen ⊢ <;> omega

namespace Yard

/-! ## Balanced rows above other tokens -/

/-- A row that can close what the yard has open begins with a token that can. -/
theorem lparen_mem_of_closesWithin {y : Yard} {ts : List Token}
    (h : ClosesWithin y.openCount (.rparen :: ts)) : .lparen ∈ y.pending := by
  have hopen : y.openCount ≠ 0 := (closesWithin_cons_iff.1 h).1 rfl
  exact List.count_pos_iff.1 (Nat.pos_of_ne_zero hopen)

/-- The rest of such a row can close what is open after the first token. -/
theorem closesWithin_tail {y : Yard} {t : Token} {ts : List Token}
    (h : ClosesWithin y.openCount (t :: ts)) : ClosesWithin (y.pass t).openCount ts := by
  rw [openCount_pass]
  exact (closesWithin_cons_iff.1 h).2

/-- A row of tokens passes above an open parenthesis as it does alone, provided that it
closes only what it and the yard have opened. -/
theorem passAll_above (y : Yard) {out below ts : List Token}
    (hbelow : ∀ t ∈ below.head?, t = .lparen)
    (hopen : below = [] ∨ ClosesWithin y.openCount ts) :
    (y.above out below).passAll ts = (y.passAll ts).above out below := by
  induction ts generalizing y with
  | nil => rfl
  | cons t ts ih =>
    have hfirst : t = .rparen → below = [] ∨ .lparen ∈ y.pending := by
      rintro rfl
      exact hopen.imp_right lparen_mem_of_closesWithin
    rw [passAll_cons, passAll_cons, pass_above y t hbelow hfirst]
    exact ih (y.pass t) (hopen.imp_right closesWithin_tail)

/-- Afterwards those parentheses are open that were opened and not closed. -/
theorem openCount_passAll (y : Yard) {ts : List Token} (hts : ClosesWithin y.openCount ts) :
    (y.passAll ts).openCount + ts.count .rparen = y.openCount + ts.count .lparen := by
  induction ts generalizing y with
  | nil => simp
  | cons t ts ih =>
    have hrest := ih (y.pass t) (closesWithin_tail hts)
    rw [openCount_pass] at hrest
    rw [passAll_cons]
    cases t with
    | rparen =>
      have hpos : 0 < y.openCount := List.count_pos_iff.2 (lparen_mem_of_closesWithin hts)
      simp only [List.count_cons, beq_iff_eq, reduceCtorEq, if_true, if_false] at hrest ⊢
      omega
    | _ =>
      simp only [List.count_cons, beq_iff_eq, reduceCtorEq, if_true, if_false] at hrest ⊢
      omega

/-! ## A group -/

/-- A group sends out the postfix word of what is inside, and then the function name
that waits right before it, if there is one. -/
theorem passAll_group (y : Yard) {ts : List Token} (hts : Balanced ts) :
    y.passAll (.lparen :: (ts ++ [.rparen])) =
      (⟨(toPostfix ts).reverse ++ y.output, y.pending, false⟩ : Yard).applyFunction := by
  obtain ⟨out, below, x⟩ := y
  have hbelow : ∀ t ∈ (Token.lparen :: below).head?, t = .lparen := by simp
  have hrun : (start.above out (.lparen :: below)).passAll ts =
      (start.passAll ts).above out (.lparen :: below) :=
    passAll_above start hbelow (Or.inr hts.1)
  have hclosed : (start.passAll ts).openCount = 0 := by
    have := openCount_passAll start hts.1
    have hzero : start.openCount = 0 := rfl
    have := hts.2
    omega
  have hinside : ∀ t ∈ (start.passAll ts).pending, isInside t = true := by
    intro t ht
    rw [← Bool.not_eq_false, isInside_eq_false_iff]
    rintro rfl
    exact List.count_eq_zero.1 hclosed ht
  have hstop : ∀ t ∈ (Token.lparen :: below).head?, isInside t = false := fun t ht =>
    isInside_eq_false_iff.2 (hbelow t ht)
  rw [passAll_cons, pass_lparen, passAll_append]
  have hstart : (⟨out, .lparen :: below, true⟩ : Yard) = start.above out (.lparen :: below) := rfl
  rw [hstart, hrun, passAll_cons, passAll_nil, pass, ← applyFunction_expecting, above,
    release_append _ _ hinside hstop]
  simp [matchParen, expecting, toPostfix, finish]

/-- The postfix word of a group among other tokens, by the yard before the group. -/
theorem toPostfix_grouped_eq_finish (p q : List Token) {ts : List Token} (hts : Balanced ts) :
    toPostfix (grouped p ts q) =
      ((⟨(toPostfix ts).reverse ++ (start.passAll p).output, (start.passAll p).pending,
        false⟩ : Yard).applyFunction.passAll q).finish := by
  have hrow : grouped p ts q = p ++ (Token.lparen :: (ts ++ [Token.rparen]) ++ q) := by
    simp [grouped]
  rw [hrow, toPostfix, passAll_append, passAll_append, passAll_group _ hts]

/-- What leaves before a group that follows the row `ts`. -/
def sentBefore (ts : List Token) : List Token := (start.passAll ts).output.reverse

/-- What leaves after a group between the rows `ts` and `us`. -/
def sentAfter (ts us : List Token) : List Token :=
  ((⟨[], (start.passAll ts).pending, false⟩ : Yard).applyFunction.passAll us).finish

end Yard

open Yard

/-- The postfix word of a group among other tokens holds that of the row inside as one
block, and what is around the block does not depend on the row. -/
theorem toPostfix_around_group (p q : List Token) {ts : List Token} (hts : Balanced ts) :
    toPostfix (grouped p ts q) =
      sentBefore p ++ toPostfix ts ++ sentAfter p q := by
  -- after the group the run no longer depends on what has been sent out
  have hblock : ∀ out below : List Token, (⟨out, below, false⟩ : Yard).applyFunction =
      (⟨[], below, false⟩ : Yard).applyFunction.above out [] := by
    intro out below
    rw [← applyFunction_above _ (by simp)]
    simp [above]
  rw [toPostfix_grouped_eq_finish p q hts, hblock, passAll_above _ (by simp) (Or.inl rfl)]
  simp [finish, above, sentBefore, sentAfter]

/-! ## Consequences -/

/-- A number that occurs around a group in the postfix word occurs around it in the row. -/
theorem number_mem_around {text : String} {p q : List Token}
    (h : .number text ∈ sentBefore p ∨ .number text ∈ sentAfter p q) :
    .number text ∈ p ∨ .number text ∈ q := by
  have hempty := toPostfix_around_group p q balanced_nil
  have hmem : .number text ∈ toPostfix (grouped p [] q) := by
    rw [hempty]
    simpa [toPostfix, start, finish] using h
  simpa [grouped] using number_mem_of_mem_toPostfix hmem

/-- Any number of parentheses around a balanced row may be left out. -/
theorem toPostfix_nested {ts : List Token} (hts : Balanced ts) (n : Nat) :
    toPostfix (nested n ts) = toPostfix ts := by
  induction n generalizing ts with
  | zero => simp [nested]
  | succ n ih =>
    -- the innermost pair is taken off first, so the induction hypothesis is for the group
    have hrow : nested (n + 1) ts = nested n (.lparen :: (ts ++ [.rparen])) := by
      rw [nested, nested, List.replicate_succ', List.replicate_succ]
      simp
    have hone : toPostfix (.lparen :: (ts ++ [.rparen])) = toPostfix ts := by
      have h := toPostfix_around_group [] [] hts
      simpa [grouped, sentBefore, sentAfter, start, finish, applyFunction] using h
    rw [hrow, ih hts.group, hone]

/-- A word that has a value can be replaced by any other word of that value. -/
theorem postfixValue_congr {u v : List Token} {x : Float} (hu : postfixValue u = .ok x)
    (hv : postfixValue v = .ok x) (before after : List Token) :
    postfixValue (before ++ u ++ after) = postfixValue (before ++ v ++ after) := by
  rw [postfixValue_eq_ok_iff] at hu hv
  have hblock : ∀ s : Stack, s.run u = s.run v := fun s =>
    (Stack.run_append_below hu s).trans (Stack.run_append_below hv s).symm
  have hrun : Stack.run [] (before ++ u ++ after) = Stack.run [] (before ++ v ++ after) := by
    simp only [Stack.run_append, hblock]
  rw [postfixValue, postfixValue, hrun]

/-- Two doubles with the same word are the same. -/
theorem Float.eq_of_toBits_eq {x y : Float} (h : x.toBits = y.toBits) : x = y := by
  obtain ⟨⟨a, ha⟩⟩ := x
  obtain ⟨⟨b, hb⟩⟩ := y
  obtain rfl : a = b := h
  rfl

/-- **A group is one operand, whatever surrounds it.** With a number `m` that occurs
nowhere else in place of the row `ts`, the postfix word of the whole holds `m` once, and
replacing it by the postfix word of `ts` gives the postfix word of the row with `ts`. Two
groups with the same value can stand for each other, and parentheses around a row that
is the whole expression change nothing. -/
theorem toPostfix_group {p q ts : List Token} {m : String} (hts : Balanced ts)
    (hp : .number m ∉ p) (hq : .number m ∉ q) :
    (toPostfix (grouped p [.number m] q)).count (.number m) = 1 ∧
    toPostfix (grouped p ts q) =
      (toPostfix (grouped p [.number m] q)).flatMap
        (fun t => if t = .number m then toPostfix ts else [t]) ∧
    (∀ us x y, Balanced us → postfixValue (toPostfix ts) = .ok x →
      postfixValue (toPostfix us) = .ok y → x.toBits = y.toBits →
      postfixValue (toPostfix (grouped p ts q)) =
        postfixValue (toPostfix (grouped p us q))) ∧
    ∀ n, toPostfix (nested n ts) = toPostfix ts := by
  have habsent : .number m ∉ sentBefore p ∧ .number m ∉ sentAfter p q := by
    constructor <;> intro h
    · exact (number_mem_around (q := q) (Or.inl h)).elim hp hq
    · exact (number_mem_around (Or.inr h)).elim hp hq
  have hmark : toPostfix (grouped p [.number m] q) =
      sentBefore p ++ [.number m] ++ sentAfter p q := by
    have hword : toPostfix [.number m] = [.number m] := rfl
    rw [toPostfix_around_group p q (balanced_number m), hword]
  have hkeep : ∀ l : List Token, .number m ∉ l →
      l.flatMap (fun t => if t = .number m then toPostfix ts else [t]) = l := by
    intro l hl
    induction l with
    | nil => rfl
    | cons t l ih =>
      rw [List.mem_cons, not_or] at hl
      rw [List.flatMap_cons, if_neg fun h => hl.1 h.symm, ih hl.2]
      rfl
  refine ⟨?_, ?_, fun us x y hus hx hy hxy => ?_, toPostfix_nested hts⟩
  · rw [hmark]
    simp [List.count_eq_zero_of_not_mem habsent.1, List.count_eq_zero_of_not_mem habsent.2]
  · rw [hmark, toPostfix_around_group p q hts]
    simp [hkeep _ habsent.1, hkeep _ habsent.2]
  · rw [toPostfix_around_group p q hts, toPostfix_around_group p q hus]
    obtain rfl := Float.eq_of_toBits_eq hxy
    exact postfixValue_congr hx hy _ _

/-- A sum and a quotient of one value, as arguments in a row that is no expression. -/
theorem toPostfix_group_in_malformed_row :
    Balanced [.number "1", .operator (.binary .add), .number "2"] ∧
    Balanced [.number "6", .operator (.binary .div), .number "2"] ∧
    toPostfix (grouped [.rparen, .name "sin"]
        [.number "1", .operator (.binary .add), .number "2"]
        [.operator (.binary .pow), .lparen]) =
      [.rparen, .number "1", .number "2", .operator (.binary .add), .name "sin", .lparen,
        .operator (.binary .pow)] ∧
    postfixValue (toPostfix (grouped [.rparen, .name "sin"]
        [.number "1", .operator (.binary .add), .number "2"]
        [.operator (.binary .pow), .lparen])) =
      postfixValue (toPostfix (grouped [.rparen, .name "sin"]
        [.number "6", .operator (.binary .div), .number "2"]
        [.operator (.binary .pow), .lparen])) := by
  have hsum : Balanced [.number "1", .operator (.binary .add), .number "2"] := by decide
  have hquotient : Balanced [.number "6", .operator (.binary .div), .number "2"] := by decide
  obtain ⟨-, hblock, hvalue, -⟩ := toPostfix_group hsum
    (p := [.rparen, .name "sin"]) (q := [.operator (.binary .pow), .lparen]) (m := "0")
    (by decide) (by decide)
  refine ⟨hsum, hquotient, hblock.trans (by decide +kernel), ?_⟩
  exact hvalue _ (Float.ofBits 0x4008000000000000) _ hquotient (by decide +kernel)
    (by decide +kernel) rfl

end PostfixCalc

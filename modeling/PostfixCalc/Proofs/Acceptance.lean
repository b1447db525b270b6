/-
# What an accepted text looks like

Conversion loses only commas, plus signs and parentheses with a partner, and the machine
has to read all that is left. So whatever else is in an accepted text, its parentheses are
balanced, every name in it is known and every number is a numeral.
-/
import Mathlib
import PostfixCalc.Proofs.Evaluation
import PostfixCalc.Proofs.Group
import PostfixCalc.Proofs.Scanning
import PostfixCalc.Proofs.Vocabulary

namespace PostfixCalc

/-! ## Readable tokens -/

/-- Whether the machine can read a token, given enough operands. -/
def Token.isReadable : Token → Bool
  | .number text => (Numeral.value? text).isSome
  | .name text => (Constant.ofName? text).isSome || (Func.ofName? text).isSome
  | .operator _ => true
  | .lparen | .rparen | .comma => false

namespace Stack

theorem isReadable_of_step {s t : Stack} {token : Token} (h : s.step token = .ok t) :
    token.isReadable := by
  cases token with
  | number text =>
    rw [step] at h
    rw [Token.isReadable]
    cases hx : Numeral.value? text with
    | none => simp [hx] at h
    | some x => rfl
  | operator op => rfl
  | name name =>
    rw [step] at h
    rw [Token.isReadable]
    cases hc : Constant.ofName? name with
    | some c => rfl
    | none =>
      cases hf : Func.ofName? name with
      | none => simp [hc, hf] at h
      | some f => rfl
  | lparen => cases h
  | rparen => cases h
  | comma => cases h

/-- A word that runs through is read to its end. -/
theorem isReadable_of_run {s t : Stack} {word : List Token} (h : s.run word = .ok t) :
    ∀ token ∈ word, token.isReadable := by
  induction word generalizing s with
  | nil => simp
  | cons token word ih =>
    obtain ⟨s', hstep, hrun⟩ := run_cons_eq_ok.1 h
    exact List.forall_mem_cons.2 ⟨isReadable_of_step hstep, ih hrun⟩

end Stack

theorem isReadable_of_postfixValue {word : List Token} {x : Float}
    (h : postfixValue word = .ok x) : ∀ token ∈ word, token.isReadable :=
  Stack.isReadable_of_run (postfixValue_eq_ok_iff.1 h)

/-! ## Names and numbers -/

/-- What is kept of a token wherever it stands is kept of the row. -/
theorem Token.mem_keptAll {t u : Token} {ts : List Token} (ht : t ∈ ts)
    (hu : ∀ expected, u ∈ t.kept expected) (expected : Bool) : u ∈ keptAll expected ts := by
  induction ts generalizing expected with
  | nil => cases ht
  | cons v ts ih =>
    rw [keptAll, List.mem_append]
    rcases List.mem_cons.1 ht with rfl | ht
    · exact Or.inl (hu expected)
    · exact Or.inr (ih ht _)

/-- What is kept of a token wherever it stands is in the postfix word. -/
theorem mem_toPostfix_of_kept {t u : Token} {ts : List Token} (ht : t ∈ ts)
    (hu : ∀ expected, u ∈ t.kept expected) : u ∈ toPostfix ts :=
  List.mem_of_mem_filter ((toPostfix_perm_keptAll ts).mem_iff.2 (Token.mem_keptAll ht hu true))

/-- All numbers of a row with a value are numerals. -/
theorem isSome_value?_of_postfixValue {ts : List Token} {x : Float} {text : String}
    (h : postfixValue (toPostfix ts) = .ok x) (htext : .number text ∈ ts) :
    (Numeral.value? text).isSome := by
  have hkept : .number text ∈ toPostfix ts := mem_toPostfix_of_kept htext (by simp [Token.kept])
  exact isReadable_of_postfixValue h _ hkept

/-- The names of all functions and constants, in lower case. -/
def knownNames : List String := ["sin", "cos", "tan", "sqrt", "ln", "log", "pow", "pi", "e"]

/-- A readable name is one of a function or of a constant. -/
theorem mem_knownNames {text : String} (h : (Token.name text).isReadable) :
    text.toLower ∈ knownNames := by
  rw [Token.isReadable, Bool.or_eq_true, Option.isSome_iff_exists, Option.isSome_iff_exists] at h
  rcases h with ⟨c, hc⟩ | ⟨f, hf⟩
  · rw [Constant.ofName?_eq_some_iff.1 hc]
    cases c <;> decide
  · rw [Func.ofName?_eq_some_iff.1 hf]
    rcases f with f | _
    · cases f <;> decide
    · decide

/-- All names of a row with a value are known. -/
theorem mem_knownNames_of_postfixValue {ts : List Token} {x : Float} {text : String}
    (h : postfixValue (toPostfix ts) = .ok x) (htext : .name text ∈ ts) :
    text.toLower ∈ knownNames := by
  have hkept : .name text.toLower ∈ toPostfix ts :=
    mem_toPostfix_of_kept htext (by simp [Token.kept])
  rw [← toLower_toLower]
  exact mem_knownNames (isReadable_of_postfixValue h _ hkept)

/-! ## Parentheses -/

namespace Yard

/-- Only an open parenthesis is ever taken out of the yard again. -/
theorem mem_finish_pass {y : Yard} {u : Token} (hu : u ≠ .lparen) (h : u ∈ y.finish)
    (t : Token) : u ∈ (y.pass t).finish := by
  by_cases ht : t.isContent
  · exact (finish_pass_content y ht).mem_iff.2 (List.mem_append_right _ h)
  · cases t with
    | lparen => exact (finish_hold y .lparen).mem_iff.2 (List.mem_cons_of_mem _ h)
    | rparen =>
      by_cases hy : y.openCount = 0
      · exact (finish_pass_rparen_of_closed hy).mem_iff.2 (List.mem_cons_of_mem _ h)
      · have hmem := (finish_pass_rparen_of_open hy).mem_iff.1 h
        exact (List.mem_cons.1 hmem).resolve_left hu
    | _ => exact absurd rfl ht

theorem mem_finish_passAll {y : Yard} {u : Token} (hu : u ≠ .lparen) (h : u ∈ y.finish)
    (ts : List Token) : u ∈ (y.passAll ts).finish := by
  induction ts generalizing y with
  | nil => exact h
  | cons t ts ih => exact ih (mem_finish_pass hu h t)

/-- A row closes only what it and the yard have opened, unless a closing parenthesis comes
out. -/
theorem closesWithin_of_not_mem {y : Yard} {ts : List Token}
    (h : .rparen ∉ (y.passAll ts).finish) : ClosesWithin y.openCount ts := by
  induction ts generalizing y with
  | nil =>
    intro us hus
    obtain rfl : us = [] := by simpa using hus
    simp
  | cons t ts ih =>
    have hopen : t = .rparen → y.openCount ≠ 0 := by
      rintro rfl hzero
      have hmem := (finish_pass_rparen_of_closed hzero).mem_iff.2 List.mem_cons_self
      exact h (mem_finish_passAll (by simp) hmem ts)
    rw [closesWithin_cons_iff, ← openCount_pass]
    exact ⟨hopen, ih h⟩

end Yard

/-- If no parenthesis comes out, then the row is balanced. -/
theorem balanced_of_not_mem_toPostfix {ts : List Token} (hl : .lparen ∉ toPostfix ts)
    (hr : .rparen ∉ toPostfix ts) : Balanced ts := by
  have hcloses : ClosesWithin Yard.start.openCount ts := Yard.closesWithin_of_not_mem hr
  have hcount := Yard.openCount_passAll Yard.start hcloses
  have hzero : (Yard.start.passAll ts).openCount = 0 := by
    rw [Yard.openCount, List.count_eq_zero]
    intro hmem
    exact hl (List.mem_append_right _ hmem)
  have hstart : Yard.start.openCount = 0 := rfl
  exact ⟨hcloses, by omega⟩

theorem balanced_of_postfixValue {ts : List Token} {x : Float}
    (h : postfixValue (toPostfix ts) = .ok x) : Balanced ts := by
  apply balanced_of_not_mem_toPostfix
  · intro hmem
    cases isReadable_of_postfixValue h _ hmem
  · intro hmem
    cases isReadable_of_postfixValue h _ hmem

/-! ## Parentheses of a text -/

namespace Token

/-- The token of a parenthesis, and of no other character. -/
def ofParen? : Char → Option Token
  | '(' => some lparen
  | ')' => some rparen
  | _ => none

theorem ofParen?_eq_none {c : Char} (hc : standsAlone c = false) : ofParen? c = none := by
  unfold ofParen?
  split
  · cases hc
  · cases hc
  · rfl

/-- Only a parenthesis writes one. -/
theorem filter_ofSymbol? (c : Char) :
    (ofSymbol? c).toList.filter (fun t => !t.isContent) = (ofParen? c).toList := by
  unfold ofSymbol? ofParen?
  split
  · rfl
  · rfl
  · rfl
  · cases BinaryOp.ofChar? c <;> simp_all [isContent]

/-- Characters that belong to one token write a parenthesis only if they are one. -/
theorem filter_ofRun? {run : List Char} (hrun : run.IsChain fun a b => sameRun a b) :
    (ofRun? run).toList.filter (fun t => !t.isContent) = run.filterMap ofParen? := by
  rcases eq_or_ne run [] with rfl | hne
  · rfl
  -- a run of digits and points or of letters holds no parenthesis
  have hnone : ∀ {p : Char → Bool}, (∀ c ∈ run, p c) → (∀ c, p c → standsAlone c = false) →
      run.filterMap ofParen? = [] := by
    intro p hp halone
    exact List.filterMap_eq_nil_iff.2 fun c hc => ofParen?_eq_none (halone c (hp c hc))
  rcases run_cases hne hrun with hnumeral | hletter | ⟨c, halone, rfl⟩
  · rw [ofRun?_numeral hne hnumeral, hnone hnumeral fun c hc => by simp [standsAlone, hc]]
    rfl
  · rw [ofRun?_letters hne hletter, hnone hletter fun c hc => by simp [standsAlone, hc]]
    rfl
  · rw [ofRun?_of_standsAlone halone, filter_ofSymbol?]
    cases h : ofParen? c <;> simp [h]

/-- The parentheses of a text are those of its tokens, in the same order. -/
theorem filter_scan (s : String) :
    (scan s).filter (fun t => !t.isContent) = s.toList.filterMap ofParen? := by
  rw [← List.filterMap_eq_filter, List.filterMap_eq_flatMap_toList,
    List.filterMap_eq_flatMap_toList]
  refine flatMap_scan (fun run hrun => ?_) s
  rw [← List.filterMap_eq_flatMap_toList, ← List.filterMap_eq_flatMap_toList,
    List.filterMap_eq_filter, filter_ofRun? hrun]

theorem count_filterMap_ofParen? (cs : List Char) :
    (cs.filterMap ofParen?).count lparen = cs.count '(' ∧
      (cs.filterMap ofParen?).count rparen = cs.count ')' := by
  rw [List.count_filterMap, List.count_filterMap]
  constructor
  all_goals
    refine List.countP_congr fun c _ => ?_
    unfold ofParen?
    split <;> simp_all

end Token

/-- The parentheses of a text are balanced: no beginning of the text closes more than it
opens, and the whole text closes all. -/
def BalancedText (s : String) : Prop :=
  (∀ us, us <+: s.toList → us.count ')' ≤ us.count '(') ∧
    s.toList.count ')' = s.toList.count '('

/-- A text is balanced if its tokens are. -/
theorem balancedText_of_balanced {s : String} (h : Balanced (Token.scan s)) : BalancedText s := by
  have hcount : ∀ us : List Char, ∀ vs : List Token,
      vs.filter (fun t => !t.isContent) = us.filterMap Token.ofParen? →
        vs.count .lparen = us.count '(' ∧ vs.count .rparen = us.count ')' := by
    intro us vs heq
    obtain ⟨hl, hr⟩ := Token.count_filterMap_ofParen? us
    rw [← hl, ← hr, ← heq, List.count_filter rfl, List.count_filter rfl]
    exact ⟨rfl, rfl⟩
  constructor
  · intro us hus
    have hprefix := hus.filterMap Token.ofParen?
    rw [← Token.filter_scan, List.prefix_filter_iff] at hprefix
    obtain ⟨vs, hvs, heq⟩ := hprefix
    obtain ⟨hl, hr⟩ := hcount us vs heq.symm
    rw [← hl, ← hr]
    exact h.1 vs ((List.mem_inits vs _).2 hvs)
  · obtain ⟨hl, hr⟩ := hcount s.toList _ (Token.filter_scan s)
    rw [← hl, ← hr]
    exact h.2

/-! ## Accepted texts -/

/-- **What an accepted text looks like**: it is not empty and holds allowed characters only,
its parentheses are balanced, every maximal run of letters is a known name in some case,
every maximal run of digits and points has a digit and no second point; and its value is
finite. -/
theorem shape_of_evaluate_eq_ok {s : String} {p : Precision} {out : Evaluation}
    (h : evaluate s p = .ok out) :
    (plainText s).toList ≠ [] ∧ (∀ c ∈ (plainText s).toList, isAllowed c) ∧
    BalancedText (plainText s) ∧
    (∀ run, Token.IsMaximalRun Char.isAlpha run (plainText s).toList →
      (String.ofList run).toLower ∈ knownNames) ∧
    (∀ run, Token.IsMaximalRun Token.isNumeral run (plainText s).toList →
      (∃ c ∈ run, c.isDigit) ∧ run.count '.' ≤ 1) ∧
    out.value.isFinite := by
  obtain ⟨hallowed, x, hx, hfinite, rfl⟩ := evaluate_eq_ok_iff.1 h
  obtain ⟨hne, hchars⟩ := checkAllowed_eq_ok_iff.1 hallowed
  refine ⟨hne, hchars, balancedText_of_balanced (balanced_of_postfixValue hx), ?_, ?_, hfinite⟩
  · intro run hrun
    exact mem_knownNames_of_postfixValue hx (Token.name_mem_scan hrun)
  · intro run hrun
    have hnumeral : ∀ c ∈ run, c.isDigit ∨ c = '.' := by
      intro c hc
      simpa [Token.isNumeral] using hrun.2.1 c hc
    rw [← Numeral.isSome_value?_iff hnumeral]
    exact isSome_value?_of_postfixValue hx (Token.number_mem_scan hrun)

/-- A text with other glyphs, a name in upper case and a number that begins with a point. -/
theorem shape_of_text_with_glyphs :
    ∃ out, evaluate "sqrt(2.25×PI)−.5" default = .ok out ∧
      BalancedText (plainText "sqrt(2.25×PI)−.5") ∧ "PI".toLower ∈ knownNames ∧
      (∃ c ∈ ['.', '5'], c.isDigit) ∧ ['.', '5'].count '.' ≤ 1 ∧ out.value.isFinite := by
  have hplain : (plainText "sqrt(2.25×PI)−.5").toList = "sqrt(2.25*PI)-.5".toList := by cbv
  have hok : (evaluate "sqrt(2.25×PI)−.5" default).isOk = true := by decide +kernel
  cases hout : evaluate "sqrt(2.25×PI)−.5" default with
  | error cause => simp [hout, Except.isOk, Except.toBool] at hok
  | ok out =>
    obtain ⟨-, -, hbalanced, hnames, hnumbers, hfinite⟩ := shape_of_evaluate_eq_ok hout
    rw [hplain] at hnames hnumbers
    have hname := hnames ['P', 'I']
      ⟨by simp, by simp, "sqrt(2.25*".toList, ")-.5".toList, rfl, by simp, by simp⟩
    have hnumber := hnumbers ['.', '5']
      ⟨by simp, by simp [Token.isNumeral], "sqrt(2.25*PI)-".toList, [], rfl,
        by simp [Token.isNumeral], by simp⟩
    exact ⟨out, rfl, hbalanced, hname, hnumber.1, hnumber.2, hfinite⟩

end PostfixCalc

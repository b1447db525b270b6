/-
# Texts that differ in spelling

A text can be spelled in several ways: letters in either case, operators by one of their
glyphs, and spaces between characters that do not belong to one token. None of this shows
in the outcome. The reason is that one reading is left of all spellings: folding the glyphs
and then the case of letters gives the same tokens with names in lower case, and the
conversion folds names in the same way.
-/
import Mathlib
import PostfixCalc.Proofs.Evaluation
import PostfixCalc.Proofs.Postorder
import PostfixCalc.Proofs.Scanning

namespace PostfixCalc

/-! ## The case of characters -/

theorem toLower_of_isAlpha_eq_false {c : Char} (hc : c.isAlpha = false) : c.toLower = c := by
  rw [Char.isAlpha, Bool.or_eq_false_iff] at hc
  exact Char.toLower_eq_of_not_isUpper (Bool.eq_false_iff.1 hc.1)

/-- A letter stays a letter in lower case, and all other characters stay as they are. -/
theorem toLower_cases (c : Char) :
    (c.isAlpha = true ∧ c.toLower.isAlpha = true) ∨ (c.isAlpha = false ∧ c.toLower = c) := by
  cases hc : c.isAlpha with
  | true => exact Or.inl ⟨rfl, by rw [Char.isAlpha_toLower_eq_isAlpha, hc]⟩
  | false => exact Or.inr ⟨rfl, toLower_of_isAlpha_eq_false hc⟩

theorem isNumeral_toLower (c : Char) : Token.isNumeral c.toLower = Token.isNumeral c := by
  rcases toLower_cases c with ⟨hc, hlower⟩ | ⟨-, hlower⟩
  · rw [Token.isNumeral_eq_false_of_isAlpha hc, Token.isNumeral_eq_false_of_isAlpha hlower]
  · rw [hlower]

theorem sameRun_toLower (a b : Char) :
    Token.sameRun a.toLower b.toLower = Token.sameRun a b := by
  simp only [Token.sameRun, isNumeral_toLower, Char.isAlpha_toLower_eq_isAlpha]

theorem isAllowed_toLower (c : Char) : isAllowed c.toLower = isAllowed c := by
  rcases toLower_cases c with ⟨hc, hlower⟩ | ⟨-, hlower⟩
  · rw [isAllowed, isAllowed, Char.isAlphanum, Char.isAlphanum, hc, hlower]
    rfl
  · rw [hlower]

/-- A letter other than the one for a product is no glyph. -/
theorem plainChar_of_isAlpha {c : Char} (hc : c.isAlpha = true) (hx : c ≠ 'x') (hX : c ≠ 'X') :
    plainChar c = c := by
  have hglyph : ∀ {d : Char}, d.isAlpha = false → c ≠ d := by
    rintro d hd rfl
    rw [hc] at hd
    cases hd
  rw [plainChar]
  · exact hglyph (by decide)
  · exact hx
  · exact hX
  · exact hglyph (by decide)
  · exact hglyph (by decide)

/-- The case of a letter does not matter for the glyph that it may be. -/
theorem toLower_plainChar (c : Char) : (plainChar c.toLower).toLower = (plainChar c).toLower := by
  by_cases hupper : c.isUpper = true
  · by_cases hX : c = 'X'
    · subst hX
      decide
    · have hback : c.toLower.toUpper = c := by
        rw [Char.toUpper_toLower_eq_toUpper]
        exact Char.toUpper_eq_of_not_isLower (Char.not_isLower_of_isUpper hupper)
      have hletter : c.isAlpha = true := by rw [Char.isAlpha, hupper, Bool.true_or]
      have hplain : plainChar c = c := by
        refine plainChar_of_isAlpha hletter ?_ hX
        rintro rfl
        cases hupper
      have hplain' : plainChar c.toLower = c.toLower := by
        refine plainChar_of_isAlpha (by rw [Char.isAlpha_toLower_eq_isAlpha, hletter]) ?_ ?_
        · intro hx
          rw [hx] at hback
          exact hX hback.symm
        · intro hx
          have hfalse := Char.isUpper_toLower_eq_false c
          rw [hx] at hfalse
          cases hfalse
      rw [hplain, hplain', Char.toLower_toLower_eq_toLower]
  · rw [Char.toLower_eq_of_not_isUpper hupper]

/-! ## The case of tokens -/

/-- Cutting a mapped list into runs maps the runs. -/
theorem splitBy_map {α β : Type} (f : α → β) {r : α → α → Bool} {r' : β → β → Bool}
    (hr : ∀ a b, r' (f a) (f b) = r a b) (l : List α) :
    (l.map f).splitBy r' = (l.splitBy r).map (List.map f) := by
  rw [List.splitBy_eq_iff]
  refine ⟨?_, ?_, ?_, ?_⟩
  · rw [← List.map_flatten, List.flatten_splitBy]
  · simp
  · intro run hrun
    obtain ⟨run', hrun', rfl⟩ := List.mem_map.1 hrun
    rw [List.isChain_map]
    simpa only [hr] using List.isChain_of_mem_splitBy hrun'
  · rw [List.isChain_map]
    refine (List.isChain_getLast_head_splitBy r l).imp ?_
    rintro a b ⟨ha, hb, hab⟩
    refine ⟨by simpa using ha, by simpa using hb, ?_⟩
    rw [List.getLast_map, List.head_map, hr, hab]

namespace Token

/-- A symbol is the same token in lower case. -/
theorem lowered_of_ofSymbol? {c : Char} {t : Token} (ht : ofSymbol? c = some t) :
    t.lowered = t := by
  unfold ofSymbol? at ht
  split at ht
  · cases ht
    rfl
  · cases ht
    rfl
  · cases ht
    rfl
  · obtain ⟨op, -, rfl⟩ := Option.map_eq_some_iff.1 ht
    rfl

/-- A run of characters in lower case writes the token in lower case. -/
theorem ofRun?_map_toLower {run : List Char} (hrun : run.IsChain fun a b => sameRun a b) :
    ofRun? (run.map Char.toLower) = (ofRun? run).map lowered := by
  rcases run with _ | ⟨c, cs⟩
  · rfl
  rw [List.map_cons, ofRun?, ofRun?, isNumeral_toLower, Char.isAlpha_toLower_eq_isAlpha]
  split_ifs with hnumeral hletter
  · have hall := forall_mem_of_isChain (fun a b hab => (eq_of_sameRun hab).1) hrun hnumeral
    have hself : (c :: cs).map Char.toLower = c :: cs := by
      refine (List.map_congr_left fun d hd => ?_).trans (List.map_id _)
      exact toLower_of_isAlpha_eq_false (isAlpha_eq_false_of_isNumeral (hall d hd))
    rw [← List.map_cons, hself]
    rfl
  · rw [← List.map_cons, Option.map_some, lowered, Option.some.injEq, name.injEq,
      ← String.toList_inj, toList_toLower, String.toList_ofList, String.toList_ofList]
  · rw [toLower_of_isAlpha_eq_false (Bool.eq_false_iff.2 hletter)]
    cases ht : ofSymbol? c with
    | none => rfl
    | some t => rw [Option.map_some, lowered_of_ofSymbol? ht]

/-- The tokens of a text in lower case are its tokens with names in lower case. -/
theorem scan_toLower (s : String) : scan s.toLower = (scan s).map lowered := by
  rw [scan, toList_toLower, splitBy_map Char.toLower sameRun_toLower, List.filterMap_map, scan,
    List.map_filterMap]
  exact List.filterMap_congr fun run hrun => ofRun?_map_toLower (List.isChain_of_mem_splitBy hrun)

/-- A trace in lower case does not tell in which case the names were. -/
theorem toLower_trace_lowered (ts : List Token) :
    (trace (ts.map lowered)).toLower = (trace ts).toLower := by
  have happend : ∀ a b : String, (a ++ b).toLower = a.toLower ++ b.toLower := by
    intro a b
    rw [← String.toList_inj]
    simp only [toList_toLower, String.toList_append, List.map_append]
  have htext : ∀ t : Token, t.lowered.text.toLower = t.text.toLower := by
    intro t
    cases t with
    | name name => exact toLower_toLower name
    | _ => rfl
  induction ts with
  | nil => rfl
  | cons t ts ih =>
    rcases ts with _ | ⟨u, us⟩
    · exact htext t
    · simp only [List.map_cons] at ih ⊢
      rw [trace_cons_cons, trace_cons_cons, happend, happend, happend, happend, htext, ih]

end Token

/-- The yard folds names to lower case by itself. -/
theorem Yard.pass_lowered (y : Yard) (t : Token) : y.pass t.lowered = y.pass t := by
  cases t with
  | name name =>
    rw [Token.lowered, pass, pass, passName, passName, Constant.ofName?_toLower, toLower_toLower]
  | _ => rfl

theorem toPostfix_map_lowered (ts : List Token) :
    toPostfix (ts.map Token.lowered) = toPostfix ts := by
  have hpass : ∀ y : Yard, y.passAll (ts.map Token.lowered) = y.passAll ts := by
    intro y
    rw [Yard.passAll, List.foldl_map]
    simp only [Yard.pass_lowered]
    rfl
  rw [toPostfix, hpass, toPostfix]

/-! ## Spellings of a text -/

/-- The glyphs of one operator each. -/
def glyphs : List (List Char) := [['*', '×', 'x', 'X'], ['/', '÷'], ['-', '−']]

/-- A single change of spelling. -/
inductive Respelled : String → String → Prop where
  /-- A letter may be in either case. -/
  | letter (u v : String) {a b : Char} (h : a.toLower = b.toLower) :
      Respelled (u ++ String.singleton a ++ v) (u ++ String.singleton b ++ v)
  /-- An operator may be written by any of its glyphs. -/
  | glyph (u v : String) {a b : Char} {gs : List Char} (hgs : gs ∈ glyphs) (ha : a ∈ gs)
      (hb : b ∈ gs) : Respelled (u ++ String.singleton a ++ v) (u ++ String.singleton b ++ v)
  /-- A space may come in between two characters that, glyphs apart, do not belong to one
  token. -/
  | space (u v : String)
      (h : ∀ a ∈ u.toList.getLast?, ∀ b ∈ v.toList.head?,
        Token.sameRun (plainChar a) (plainChar b) = false) :
      Respelled (u ++ v) (u ++ " " ++ v)

/-- Texts that any number of changes of spelling, in either direction, lead between. -/
def SameSpelling : String → String → Prop := Relation.EqvGen Respelled

/-- Outcomes that differ at most in the case of the letters in the trace of the tokens. -/
def SameOutcome : Except EvalError Evaluation → Except EvalError Evaluation → Prop
  | .ok e, .ok e' => e.value = e'.value ∧ e.text = e'.text ∧ e.postfixTrace = e'.postfixTrace ∧
      e.tokenTrace.toLower = e'.tokenTrace.toLower
  | .error cause, .error cause' => cause = cause'
  | _, _ => False

/-! ## The reading of a text -/

/-- A text with plain operators, in lower case. -/
def foldedText (s : String) : String := (plainText s).toLower

theorem toList_foldedText (s : String) :
    (foldedText s).toList = s.toList.map fun c => (plainChar c).toLower := by
  rw [foldedText, toList_toLower, toList_plainText, List.map_map]
  rfl

/-- The first character of a text that is not allowed. -/
def firstForbidden? (s : String) : Option Char := s.toList.find? fun c => !isAllowed c

/-- Folding takes a forbidden character for itself. -/
theorem firstForbidden?_foldedText (s : String) :
    firstForbidden? (foldedText s) = firstForbidden? (plainText s) := by
  rw [firstForbidden?, foldedText, toList_toLower, List.find?_map]
  have hsame : ((fun c => !isAllowed c) ∘ Char.toLower) = fun c => !isAllowed c := by
    funext c
    rw [Function.comp_apply, isAllowed_toLower]
  rw [hsame]
  cases hfind : (plainText s).toList.find? fun c => !isAllowed c with
  | none => rw [firstForbidden?, hfind]; rfl
  | some c =>
    have hc : isAllowed c = false := by simpa using List.find?_some hfind
    have hletter : c.isAlpha = false := by
      rw [isAllowed, Char.isAlphanum, Bool.or_eq_false_iff, Bool.or_eq_false_iff] at hc
      exact hc.1.1
    rw [firstForbidden?, hfind, Option.map_some, toLower_of_isAlpha_eq_false hletter]

/-- What the outcome of a text depends on: its folded tokens, and whether and where a
character is forbidden. -/
def SameReading (s s' : String) : Prop :=
  (Token.scan (plainText s)).map Token.lowered = (Token.scan (plainText s')).map Token.lowered ∧
    firstForbidden? (plainText s) = firstForbidden? (plainText s')

/-- Texts that are the same when folded have the same reading. -/
theorem sameReading_of_foldedText {s s' : String} (h : foldedText s = foldedText s') :
    SameReading s s' := by
  constructor
  · rw [← Token.scan_toLower, ← Token.scan_toLower]
    exact congrArg Token.scan h
  · rw [← firstForbidden?_foldedText, h, firstForbidden?_foldedText]

/-- A text with one character folded alike. -/
theorem foldedText_replace {u v : String} {a b : Char}
    (h : (plainChar a).toLower = (plainChar b).toLower) :
    foldedText (u ++ String.singleton a ++ v) = foldedText (u ++ String.singleton b ++ v) := by
  rw [← String.toList_inj]
  simp only [toList_foldedText, String.toList_append, String.toList_singleton, List.map_append,
    List.map_cons, h]

theorem plainChar_of_mem_glyphs {a b : Char} {gs : List Char} (hgs : gs ∈ glyphs) (ha : a ∈ gs)
    (hb : b ∈ gs) : plainChar a = plainChar b := by
  fin_cases hgs <;> fin_cases ha <;> fin_cases hb <;> rfl

/-- A single change of spelling keeps the reading. -/
theorem Respelled.sameReading {s s' : String} (h : Respelled s s') : SameReading s s' := by
  cases h with
  | letter u v h =>
    apply sameReading_of_foldedText
    apply foldedText_replace
    rw [← toLower_plainChar, h, toLower_plainChar]
  | glyph u v hgs ha hb =>
    apply sameReading_of_foldedText
    apply foldedText_replace
    rw [plainChar_of_mem_glyphs hgs ha hb]
  | space u v h =>
    have hspace : plainText " " = " " := plainText_eq_self (by simp [plainChar])
    constructor
    · rw [Token.scan_plainText_cut h, plainText_append, plainText_append, hspace,
        Token.scan_append_space]
    · rw [plainText_append, plainText_append, plainText_append, hspace]
      simp only [firstForbidden?, String.toList_append, List.find?_append]
      have hallowed : " ".toList.find? (fun c => !isAllowed c) = none := by decide
      rw [hallowed, Option.or_none]

/-- So does any number of changes. -/
theorem SameSpelling.sameReading {s s' : String} (h : SameSpelling s s') : SameReading s s' := by
  induction h with
  | rel s s' h => exact h.sameReading
  | refl s => exact ⟨rfl, rfl⟩
  | symm s s' _ ih => exact ⟨ih.1.symm, ih.2.symm⟩
  | trans s t u _ _ ihs iht => exact ⟨ihs.1.trans iht.1, ihs.2.trans iht.2⟩

/-! ## Outcomes -/

/-- A text is refused for its first forbidden character, or else its tokens are evaluated. -/
theorem evaluate_of_ne_empty {s : String} (hs : s ≠ "") (p : Precision) :
    evaluate s p =
      match firstForbidden? (plainText s) with
      | some c => .error (.forbiddenChar c)
      | none => evaluateTokens (Token.scan (plainText s)) p := by
  have hne : (plainText s).isEmpty ≠ true := by
    rw [Ne, String.isEmpty_iff, ← String.toList_eq_nil_iff, toList_plainText, List.map_eq_nil_iff,
      String.toList_eq_nil_iff]
    exact hs
  rw [evaluate, readTokens, checkAllowed, if_neg hne]
  unfold firstForbidden?
  cases (plainText s).toList.find? fun c => !isAllowed c with
  | some c => rfl
  | none => rfl

/-- Rows of tokens that are the same with names in lower case have the same outcome. -/
theorem sameOutcome_evaluateTokens {ts ts' : List Token}
    (h : ts.map Token.lowered = ts'.map Token.lowered) (p : Precision) :
    SameOutcome (evaluateTokens ts p) (evaluateTokens ts' p) := by
  have hword : toPostfix ts = toPostfix ts' := by
    rw [← toPostfix_map_lowered, h, toPostfix_map_lowered]
  cases hx : postfixValue (toPostfix ts) with
  | error cause =>
    rw [evaluateTokens_of_error hx, evaluateTokens_of_error (hword ▸ hx)]
    rfl
  | ok x =>
    rw [evaluateTokens_of_postfixValue hx, evaluateTokens_of_postfixValue (hword ▸ hx)]
    split_ifs
    · refine ⟨rfl, rfl, congrArg Token.trace hword, ?_⟩
      show (Token.trace ts).toLower = (Token.trace ts').toLower
      rw [← Token.toLower_trace_lowered, h, Token.toLower_trace_lowered]
    · rfl

/-- **The outcome does not depend on the spelling**: texts that are not empty and differ in
the case of letters, in the glyphs of operators and in spaces between tokens are refused for
the same cause, or have the same value, the same text and the same postfix trace, and traces
of the tokens that differ in the case of letters only. -/
theorem evaluate_of_sameSpelling {s s' : String} (h : SameSpelling s s') (hs : s ≠ "")
    (hs' : s' ≠ "") (p : Precision) : SameOutcome (evaluate s p) (evaluate s' p) := by
  obtain ⟨htokens, hforbidden⟩ := h.sameReading
  rw [evaluate_of_ne_empty hs, evaluate_of_ne_empty hs', hforbidden]
  cases firstForbidden? (plainText s') with
  | some c => rfl
  | none => exact sameOutcome_evaluateTokens htokens p

/-- A product with a letter for its operator, and with a glyph and a name in lower case; the
space is on the other side of the operator. -/
theorem evaluate_of_product_with_glyph :
    SameSpelling "2 xPi" "2× pi" ∧
      ∀ p, SameOutcome (evaluate "2 xPi" p) (evaluate "2× pi" p) := by
  have hbefore : Respelled "2xPi" "2 xPi" := by
    refine Respelled.space "2" "xPi" ?_
    intro a ha b hb
    obtain rfl : '2' = a := by simpa using ha
    obtain rfl : 'x' = b := by simpa using hb
    decide
  have hletter : Respelled "2xPi" "2xpi" := by
    exact Respelled.letter "2x" "i" (a := 'P') (b := 'p') (by decide)
  have hglyph : Respelled "2xpi" "2×pi" := by
    exact Respelled.glyph "2" "pi" (a := 'x') (b := '×') List.mem_cons_self (by decide)
      (by decide)
  have hafter : Respelled "2×pi" "2× pi" := by
    refine Respelled.space "2×" "pi" ?_
    intro a ha b hb
    obtain rfl : '×' = a := by simpa using ha
    obtain rfl : 'p' = b := by simpa using hb
    decide
  have hsame : SameSpelling "2 xPi" "2× pi" :=
    .trans _ "2xPi" _ (.symm _ _ (.rel _ _ hbefore))
      (.trans _ "2xpi" _ (.rel _ _ hletter)
        (.trans _ "2×pi" _ (.rel _ _ hglyph) (.rel _ _ hafter)))
  exact ⟨hsame, evaluate_of_sameSpelling hsame (by decide) (by decide)⟩

end PostfixCalc

/-
# Traces read back

The traces of an accepted text are faithful. The trace of its tokens is again a text with
these tokens, since a space stands between any two of them. The postfix trace, cut at its
spaces, names the tokens of the postfix word: a name could be taken for the change of sign,
but that name is unknown, and no unknown name is in the word of an accepted text.
-/
import Mathlib
import PostfixCalc.Proofs.Acceptance

namespace PostfixCalc

namespace Token

/-! ## The tokens of a text -/

/-- Whether a text can be scanned into a token: numbers consist of digits and points, names
of letters, and the change of sign is no token of a text. -/
def IsScanned : Token → Prop
  | number text => text.toList ≠ [] ∧ ∀ c ∈ text.toList, isNumeral c
  | name text => text.toList ≠ [] ∧ ∀ c ∈ text.toList, c.isAlpha
  | operator op => op ≠ .neg
  | lparen | rparen | comma => True

/-- The token of a symbol is written by that symbol. -/
theorem text_of_ofSymbol? {c : Char} {t : Token} (ht : ofSymbol? c = some t) :
    t.text = String.singleton c ∧ t.IsScanned := by
  unfold ofSymbol? at ht
  split at ht
  · cases ht
    exact ⟨rfl, trivial⟩
  · cases ht
    exact ⟨rfl, trivial⟩
  · cases ht
    exact ⟨rfl, trivial⟩
  · obtain ⟨op, hop, rfl⟩ := Option.map_eq_some_iff.1 ht
    rw [BinaryOp.ofChar?_eq_some_iff.1 hop]
    exact ⟨rfl, by simp [IsScanned]⟩

/-- A run of characters writes a token of a text, and it is the text of the token. -/
theorem isScanned_of_ofRun? {run : List Char} {t : Token}
    (hrun : run.IsChain fun a b => sameRun a b) (ht : ofRun? run = some t) :
    t.IsScanned ∧ t.text.toList = run := by
  have hne : run ≠ [] := by
    rintro rfl
    cases ht
  rcases run_cases hne hrun with hnumeral | hletter | ⟨c, halone, rfl⟩
  · rw [ofRun?_numeral hne hnumeral] at ht
    obtain rfl := Option.some.inj ht
    rw [IsScanned, text, String.toList_ofList]
    exact ⟨⟨hne, hnumeral⟩, rfl⟩
  · rw [ofRun?_letters hne hletter] at ht
    obtain rfl := Option.some.inj ht
    rw [IsScanned, text, String.toList_ofList]
    exact ⟨⟨hne, hletter⟩, rfl⟩
  · rw [ofRun?_of_standsAlone halone] at ht
    obtain ⟨htext, hscanned⟩ := text_of_ofSymbol? ht
    rw [htext]
    exact ⟨hscanned, String.toList_singleton c⟩

/-- The tokens of a text are written by parts of it. -/
theorem isScanned_of_mem_scan {s : String} {t : Token} (ht : t ∈ scan s) :
    t.IsScanned ∧ t.text.toList <:+: s.toList := by
  obtain ⟨run, hmem, hrun⟩ := List.mem_filterMap.1 ht
  obtain ⟨hscanned, htext⟩ := isScanned_of_ofRun? (List.isChain_of_mem_splitBy hmem) hrun
  rw [htext, ← List.flatten_splitBy sameRun s.toList]
  exact ⟨hscanned, List.infix_of_mem_flatten hmem⟩

/-! ## The trace as a text -/

/-- The text of a token of a text is scanned into that token. -/
theorem scan_text {t : Token} (ht : t.IsScanned) : scan t.text = [t] := by
  cases t with
  | number text =>
    have h := scan_numeral ht.1 ht.2
    rwa [String.ofList_toList] at h
  | name text =>
    have h := scan_letters ht.1 ht.2
    rwa [String.ofList_toList] at h
  | operator op =>
    cases op with
    | neg => exact absurd rfl ht
    | binary op =>
      have hrun : ofRun? [op.symbol] = some (operator (.binary op)) := by cases op <;> decide
      have h := scan_singleton hrun
      exact h
  | lparen | rparen | comma => decide +kernel

/-- The trace of tokens of a text is scanned into these tokens. -/
theorem scan_trace {ts : List Token} (hts : ∀ t ∈ ts, t.IsScanned) : scan (trace ts) = ts := by
  induction ts with
  | nil => decide +kernel
  | cons t ts ih =>
    rw [List.forall_mem_cons] at hts
    rcases ts with _ | ⟨u, us⟩
    · exact scan_text hts.1
    · rw [trace_cons_cons, scan_append_space, scan_text hts.1, ih hts.2]
      rfl

/-- **Scanning undoes the trace** of exactly those rows of tokens that a text can hold; since the
tokens of a text are such a row, tracing and scanning them changes nothing. -/
theorem scan_trace_eq_self_iff (ts : List Token) (s : String) :
    (scan (trace ts) = ts ↔ ∀ t ∈ ts, t.IsScanned) ∧
      (∀ t ∈ scan s, t.IsScanned) ∧ scan (trace (scan s)) = scan s := by
  have hscanned : ∀ text : String, ∀ t ∈ scan text, t.IsScanned := fun text t ht =>
    (isScanned_of_mem_scan ht).1
  refine ⟨⟨fun h => ?_, scan_trace⟩, hscanned s, scan_trace (hscanned s)⟩
  rw [← h]
  exact hscanned _

/-- Numbers and names side by side stay apart, and the change of sign is not read back. -/
theorem scan_trace_eq_self_of_neighbours :
    (∀ t ∈ [number "1.", number ".5", name "Pi", name "e", operator (.binary .sub)],
      t.IsScanned) ∧
    scan "1. .5 Pi e -" = [number "1.", number ".5", name "Pi", name "e",
      operator (.binary .sub)] ∧
    scan (trace [operator .neg]) ≠ [operator .neg] := by
  have hscanned : ∀ t ∈ [number "1.", number ".5", name "Pi", name "e",
      operator (.binary .sub)], t.IsScanned := by
    simp [IsScanned, isNumeral]
  refine ⟨hscanned, (scan_trace_eq_self_iff _ "").1.2 hscanned, fun hneg => ?_⟩
  have hsign := (scan_trace_eq_self_iff _ "").1.1 hneg _ List.mem_cons_self
  exact hsign rfl

/-- A trace holds the characters of its tokens, and spaces. -/
theorem mem_trace {ts : List Token} {c : Char} (hc : c ∈ (trace ts).toList) :
    c = ' ' ∨ ∃ t ∈ ts, c ∈ t.text.toList := by
  induction ts with
  | nil => cases hc
  | cons t ts ih =>
    rcases ts with _ | ⟨u, us⟩
    · exact Or.inr ⟨t, List.mem_cons_self, hc⟩
    · rw [trace_cons_cons, String.toList_append, String.toList_append, List.mem_append,
        List.mem_append] at hc
      rcases hc with (hc | hc) | hc
      · exact Or.inr ⟨t, List.mem_cons_self, hc⟩
      · exact Or.inl (List.mem_singleton.1 hc)
      · refine (ih hc).imp_right ?_
        rintro ⟨v, hv, hcv⟩
        exact ⟨v, List.mem_cons_of_mem t hv, hcv⟩

/-! ## The words of a trace -/

/-- The words of a text, between single spaces. -/
def words (s : String) : List String := (s.split ' ').toList.map (·.copy)

/-- The token that a word stands for in a postfix trace: the change of sign has a word of its
own, digits and points are a number, letters a name, and an operator is its symbol. -/
def ofWord? (word : String) : Option Token :=
  if word = "neg" then some (operator .neg)
  else if word.isEmpty then none
  else if word.toList.all isNumeral then some (number word)
  else if word.toList.all Char.isAlpha then some (name word)
  else (BinaryOp.all.find? fun op => String.singleton op.symbol = word).map
    fun op => operator (.binary op)

/-- The tokens of a postfix trace, word by word. -/
def readTrace? (s : String) : Option (List Token) := (words s).mapM ofWord?

/-- Whether a token can be told by its text in a postfix trace. -/
def IsWord : Token → Prop
  | number text => text.toList ≠ [] ∧ ∀ c ∈ text.toList, isNumeral c
  | name text => text.toList ≠ [] ∧ (∀ c ∈ text.toList, c.isAlpha) ∧ text ≠ "neg"
  | operator _ => True
  | lparen | rparen | comma => False

theorem isEmpty_eq_false {word : String} (hne : word.toList ≠ []) : ¬ word.isEmpty = true := by
  rw [String.isEmpty_iff, ← String.toList_eq_nil_iff]
  exact hne

/-- Such a token is read back from its text, which holds no space. -/
theorem ofWord?_text {t : Token} (ht : t.IsWord) :
    ofWord? t.text = some t ∧ ' ' ∉ t.text.toList := by
  cases t with
  | number text =>
    obtain ⟨hne, hnumeral⟩ := ht
    have hneg : text ≠ "neg" := by
      rintro rfl
      have hletter : isNumeral 'n' := hnumeral 'n' (by decide)
      cases hletter
    constructor
    · rw [Token.text, ofWord?, if_neg hneg, if_neg (isEmpty_eq_false hne),
        if_pos (List.all_eq_true.2 hnumeral)]
    · intro hmem
      have hspace : isNumeral ' ' := hnumeral ' ' hmem
      cases hspace
  | name text =>
    obtain ⟨hne, hletter, hneg⟩ := ht
    have hnumeral : ¬ text.toList.all isNumeral = true := by
      intro hall
      obtain ⟨c, cs, hcs⟩ := List.exists_cons_of_ne_nil hne
      have hc : c ∈ text.toList := hcs ▸ List.mem_cons_self
      have hfalse := isNumeral_eq_false_of_isAlpha (hletter c hc)
      rw [List.all_eq_true.1 hall c hc] at hfalse
      cases hfalse
    constructor
    · rw [Token.text, ofWord?, if_neg hneg, if_neg (isEmpty_eq_false hne), if_neg hnumeral,
        if_pos (List.all_eq_true.2 hletter)]
    · intro hmem
      have hspace : ' '.isAlpha := hletter ' ' hmem
      cases hspace
  | operator op =>
    cases op with
    | neg => exact ⟨rfl, by decide⟩
    | binary op => cases op <;> exact ⟨by decide, by decide⟩
  | lparen | rparen | comma => cases ht

/-- A trace of such tokens, at least one, is read back word by word. -/
theorem readTrace?_trace {ts : List Token} (hne : ts ≠ []) (hts : ∀ t ∈ ts, t.IsWord) :
    readTrace? (trace ts) = some ts := by
  have hwords : words (trace ts) = ts.map text := by
    have hspace : ∀ w ∈ ts.map text, ' ' ∉ w.toList := by
      intro w hw
      obtain ⟨t, ht, rfl⟩ := List.mem_map.1 hw
      exact (ofWord?_text (hts t ht)).2
    have hsplit := String.toList_split_intercalate hspace
    rw [if_neg (by simpa using hne)] at hsplit
    exact hsplit
  rw [readTrace?, hwords]
  clear hwords hne
  induction ts with
  | nil => rfl
  | cons t ts ih =>
    rw [List.forall_mem_cons] at hts
    rw [List.map_cons, List.mapM_cons, (ofWord?_text hts.1).1, ih hts.2]
    rfl

end Token

/-! ## The words of an accepted text -/

/-- A known name consists of letters, and it is not the word for the change of sign. -/
theorem isWord_of_mem_knownNames {text : String} (h : text.toLower ∈ knownNames) :
    (Token.name text).IsWord := by
  have hknown : ∀ name ∈ knownNames,
      name.toList ≠ [] ∧ name.toList.all Char.isAlpha ∧ name ≠ "neg" := by decide
  obtain ⟨hne, hletters, hneg⟩ := hknown _ h
  rw [toList_toLower] at hne hletters
  refine ⟨fun hnil => hne (by rw [hnil]; rfl), fun c hc => ?_, ?_⟩
  · rw [← Char.isAlpha_toLower_eq_isAlpha]
    exact List.all_eq_true.1 hletters _ (List.mem_map_of_mem hc)
  · rintro rfl
    exact hneg (by decide +kernel)

/-- The postfix word of an accepted text consists of tokens that can be told by their
texts. -/
theorem isWord_of_mem_toPostfix {ts : List Token} {x : Float} (hts : ∀ t ∈ ts, t.IsScanned)
    (hx : postfixValue (toPostfix ts) = .ok x) : ∀ t ∈ toPostfix ts, t.IsWord := by
  intro t ht
  have hreadable := isReadable_of_postfixValue hx t ht
  cases t with
  | number text => exact hts _ (number_mem_of_mem_toPostfix ht)
  | name text => exact isWord_of_mem_knownNames (mem_knownNames hreadable)
  | operator op => trivial
  | lparen | rparen | comma => cases hreadable

/-- A row of tokens with a value is not empty, and neither is its postfix word. -/
theorem ne_nil_of_postfixValue {ts : List Token} {x : Float}
    (hx : postfixValue (toPostfix ts) = .ok x) : ts ≠ [] ∧ toPostfix ts ≠ [] := by
  have hempty : toPostfix ts ≠ [] := by
    intro hnil
    rw [hnil] at hx
    cases hx
  refine ⟨?_, hempty⟩
  rintro rfl
  exact hempty rfl

/-- The plain form of a character is plain. -/
theorem plainChar_plainChar (c : Char) : plainChar (plainChar c) = plainChar c := by
  have hcases : plainChar c = c ∨ plainChar c ∈ ['*', '/', '-'] := by
    unfold plainChar
    split <;> simp
  rcases hcases with hself | hplain
  · rw [hself, hself]
  · generalize plainChar c = d at hplain
    fin_cases hplain <;> rfl

/-- The trace of the tokens of an allowed text is an allowed text in plain form. -/
theorem checkAllowed_trace {s : String} (hallowed : checkAllowed (plainText s) = .ok ())
    (hne : Token.scan (plainText s) ≠ []) :
    plainText (Token.trace (Token.scan (plainText s))) = Token.trace (Token.scan (plainText s)) ∧
      checkAllowed (Token.trace (Token.scan (plainText s))) = .ok () := by
  obtain ⟨-, hchars⟩ := checkAllowed_eq_ok_iff.1 hallowed
  -- the characters of the trace are spaces and characters of the text
  have hmem : ∀ c ∈ (Token.trace (Token.scan (plainText s))).toList,
      c = ' ' ∨ c ∈ (plainText s).toList := by
    intro c hc
    refine (Token.mem_trace hc).imp_right ?_
    rintro ⟨t, ht, hct⟩
    exact (Token.isScanned_of_mem_scan ht).2.subset hct
  constructor
  · refine plainText_eq_self fun c hc => ?_
    rcases hmem c hc with rfl | hc
    · decide
    · rw [toList_plainText] at hc
      obtain ⟨d, -, rfl⟩ := List.mem_map.1 hc
      exact plainChar_plainChar d
  · refine checkAllowed_eq_ok_iff.2 ⟨fun hnil => hne ?_, fun c hc => ?_⟩
    · rw [← Token.scan_trace fun t ht => (Token.isScanned_of_mem_scan ht).1, Token.scan, hnil]
      rfl
    · rcases hmem c hc with rfl | hc
      · decide
      · exact hchars c hc

/-- **The traces are faithful**: the trace of the tokens of an accepted text is accepted with
the same value, text and traces, and the postfix trace names, word by word, tokens that have
this value in postfix order. -/
theorem traces_of_evaluate {s : String} {p : Precision} {out : Evaluation}
    (h : evaluate s p = .ok out) :
    evaluate out.tokenTrace p = .ok out ∧
      ∃ word, Token.readTrace? out.postfixTrace = some word ∧
        postfixValue word = .ok out.value := by
  obtain ⟨hallowed, x, hx, hfinite, rfl⟩ := evaluate_eq_ok_iff.1 h
  have hscanned : ∀ t ∈ Token.scan (plainText s), t.IsScanned := fun t ht =>
    (Token.isScanned_of_mem_scan ht).1
  obtain ⟨hne, hne'⟩ := ne_nil_of_postfixValue hx
  constructor
  · obtain ⟨hplain, hallowed'⟩ := checkAllowed_trace hallowed hne
    have htokens : Token.scan (plainText (Token.trace (Token.scan (plainText s)))) =
        Token.scan (plainText s) := by
      rw [hplain, Token.scan_trace hscanned]
    rw [Evaluation.ofTokens, evaluate_eq_ok_iff, htokens, hplain]
    exact ⟨hallowed', x, hx, hfinite, rfl⟩
  · exact ⟨_, Token.readTrace?_trace hne' (isWord_of_mem_toPostfix hscanned hx), hx⟩

/-- A text with glyphs, a sign and names in upper case: the trace of its tokens keeps the
case, the postfix trace holds the word for the change of sign. -/
theorem traces_of_signed_call :
    ∃ out, evaluate "−SQRT(4)×2" default = .ok out ∧ out.tokenTrace = "- SQRT ( 4 ) * 2" ∧
      out.postfixTrace = "4 sqrt neg 2 *" ∧
      evaluate "- SQRT ( 4 ) * 2" default = .ok out ∧
      ∃ word, Token.readTrace? "4 sqrt neg 2 *" = some word ∧ postfixValue word = .ok out.value := by
  have hok : (evaluate "−SQRT(4)×2" default).isOk = true := by decide +kernel
  cases hout : evaluate "−SQRT(4)×2" default with
  | error cause => simp [hout, Except.isOk, Except.toBool] at hok
  | ok out =>
    obtain ⟨-, x, -, -, rfl⟩ := evaluate_eq_ok_iff.1 hout
    have htokens : Token.trace (Token.scan (plainText "−SQRT(4)×2")) = "- SQRT ( 4 ) * 2" := by
      decide +kernel
    have hpostfix : Token.trace (toPostfix (Token.scan (plainText "−SQRT(4)×2"))) =
        "4 sqrt neg 2 *" := by
      decide +kernel
    obtain ⟨htrace, hword⟩ := traces_of_evaluate hout
    refine ⟨_, rfl, htokens, hpostfix, ?_, ?_⟩
    · exact htokens ▸ htrace
    · exact hpostfix ▸ hword

end PostfixCalc

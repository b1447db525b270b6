/-
# Decimal points in the entry line

The guard of the point key looks at the end of the entry line only, but with it the whole line
keeps the property that no number in it has two points. Deleting leaves a part of the line, a
result has one point at most, and any other text that a key adds has none, or comes after a number
without one. Only the last answer has to be kept apart from a number at the end of the line. So a
number that cannot be read is a point alone.
-/
import Mathlib
import PostfixCalc.Proofs.Actions
import PostfixCalc.Proofs.Traces

namespace PostfixCalc

/-! ## The number at the end of a line -/

namespace Entry

variable {line : String}

/-- A row of digits and points at the end of a line belongs to the current number. -/
theorem mem_currentNumber {run : List Char} (hrun : run <:+ line.toList)
    (hnumeral : ∀ c ∈ run, Token.isNumeral c) : ∀ c ∈ run, c ∈ currentNumber line := by
  intro c hc
  obtain ⟨us, hline⟩ := hrun
  have hreverse : ∀ d ∈ run.reverse, Token.isNumeral d := fun d hd =>
    hnumeral d (List.mem_reverse.1 hd)
  unfold currentNumber
  rw [← hline, List.reverse_append, List.takeWhile_append_of_pos hreverse]
  exact List.mem_append_left _ (List.mem_reverse.2 hc)

/-- A line that ends otherwise has no current number. -/
theorem currentNumber_eq_nil (h : line.toList.getLast?.any Token.isNumeral = false) :
    currentNumber line = [] := by
  rw [← List.head?_reverse] at h
  unfold currentNumber
  cases hreverse : line.toList.reverse with
  | nil => rfl
  | cons c cs =>
    rw [hreverse, List.head?_cons, Option.any_some] at h
    exact List.takeWhile_cons_of_neg (Bool.eq_false_iff.1 h)

end Entry

/-! ## Texts with single points -/

/-- No two points of a text stand in one row of digits and points. -/
def HasSinglePoints (text : String) : Prop :=
  ∀ run, run <:+: text.toList → (∀ c ∈ run, Token.isNumeral c) → run.count '.' ≤ 1

instance (text : String) : Decidable (HasSinglePoints text) :=
  decidable_of_iff (∀ us ∈ text.toList.tails, ∀ run ∈ us.inits,
      run.all Token.isNumeral = true → run.count '.' ≤ 1) (by
    simp only [HasSinglePoints, List.infix_iff_prefix_suffix, List.mem_tails, List.mem_inits,
      List.all_eq_true]
    exact ⟨fun h run ⟨us, hrun, hus⟩ => h us hus run hrun, fun h us hus run hrun =>
      h run ⟨us, hrun, hus⟩⟩)

/-- It is enough to look at the longest rows of digits and points. -/
theorem hasSinglePoints_iff {text : String} :
    HasSinglePoints text ↔
      ∀ run, Token.IsMaximalRun Token.isNumeral run text.toList → run.count '.' ≤ 1 := by
  constructor
  · rintro h run ⟨-, hnumeral, us, vs, htext, -, -⟩
    exact h run ⟨us, vs, htext.symm⟩ hnumeral
  · intro h run hrun hnumeral
    rcases eq_or_ne run [] with rfl | hne
    · exact Nat.zero_le 1
    · obtain ⟨longest, hlongest, hpart⟩ :=
        Token.exists_isMaximalRun_of_infix hne hnumeral hrun
      exact (hpart.sublist.count_le '.').trans (h longest hlongest)

namespace HasSinglePoints

variable {line text : String}

theorem of_infix (h : HasSinglePoints text) (hline : line.toList <:+: text.toList) :
    HasSinglePoints line :=
  fun run hrun hnumeral => h run (hrun.trans hline) hnumeral

theorem of_count (h : text.toList.count '.' ≤ 1) : HasSinglePoints text :=
  fun _ hrun _ => (hrun.sublist.count_le '.').trans h

theorem empty : HasSinglePoints "" := of_count (by decide)

/-- A text may be added to a line if the text has no point or the current number has none: then
no row of digits and points that goes on from the line to the text has two. -/
theorem append (hline : HasSinglePoints line) (htext : HasSinglePoints text)
    (h : '.' ∉ Entry.currentNumber line ∨ '.' ∉ text.toList) : HasSinglePoints (line ++ text) := by
  intro run hrun hnumeral
  rw [String.toList_append, List.infix_append_iff] at hrun
  rcases hrun with hrun | hrun | ⟨us, vs, rfl, hus, hvs⟩
  · exact hline run hrun hnumeral
  · exact htext run hrun hnumeral
  -- the row goes on from the line to the text, and one of its two parts has no point
  rw [List.forall_mem_append] at hnumeral
  rw [List.count_append]
  rcases h with hpoint | hpoint
  · have hzero : us.count '.' = 0 :=
      List.count_eq_zero.2 fun hmem => hpoint (Entry.mem_currentNumber hus hnumeral.1 '.' hmem)
    have hone := htext vs hvs.isInfix hnumeral.2
    omega
  · have hzero : vs.count '.' = 0 := List.count_eq_zero.2 fun hmem => hpoint (hvs.subset hmem)
    have hone := hline us hus.isInfix hnumeral.1
    omega

theorem delete (h : HasSinglePoints line) : HasSinglePoints (Entry.delete line) := by
  apply h.of_infix
  unfold Entry.delete
  rw [String.toList_ofList]
  exact (List.dropLast_prefix _).isInfix

theorem addPoint (h : HasSinglePoints line) : HasSinglePoints (Entry.addPoint line) := by
  unfold Entry.addPoint
  by_cases hpoint : (Entry.currentNumber line).contains '.'
  · rw [if_pos hpoint]
    exact h
  · have hfree : '.' ∉ Entry.currentNumber line := fun hmem =>
      hpoint (List.contains_iff_mem.2 hmem)
    rw [if_neg hpoint]
    split_ifs
    · exact h.append (of_count (by decide)) (Or.inl hfree)
    · exact h.append (of_count (by decide)) (Or.inl hfree)

/-- A point goes through the guard; another text that is added has no point. -/
theorem insert (h : HasSinglePoints line) (htext : text = "." ∨ '.' ∉ text.toList) :
    HasSinglePoints (Entry.insert line text) := by
  unfold Entry.insert
  split_ifs with hpoint
  · exact h.addPoint
  · have hmem := htext.resolve_left hpoint
    have hcount : text.toList.count '.' ≤ 1 := by rw [List.count_eq_zero.2 hmem]; omega
    exact h.append (of_count hcount) (Or.inr hmem)

end HasSinglePoints

/-! ## Results -/

theorem Decimal.count_point_chars_le (d : Decimal) : d.chars.count '.' ≤ 1 := by
  rw [chars]
  split_ifs
  · rw [Numeral.count_point_eq_zero isDigit_of_mem_toDigits]
    omega
  · rw [List.count_append, List.count_cons_self,
      Numeral.count_point_eq_zero isDigit_of_mem_toDigits,
      Numeral.count_point_eq_zero isDigit_of_mem_padded]

/-- A sign adds no point to the digits. -/
theorem count_point_signedText_le (negative : Bool) (r : Nat) :
    (signedText negative r).toList.count '.' ≤ 1 := by
  have hcount := (Decimal.shortest r).count_point_chars_le
  rw [signedText_eq, String.toList_ofList]
  cases negative && r != 0 with
  | false => rwa [cond_false]
  | true => rwa [cond_true, List.count_cons_of_ne (by decide)]

/-- A result has one point at most. -/
theorem hasSinglePoints_of_evaluate {s : String} {p : Precision} {out : Evaluation}
    (h : evaluate s p = .ok out) : HasSinglePoints out.text := by
  obtain ⟨-, x, -, hfinite, rfl⟩ := evaluate_eq_ok_iff.1 h
  rw [Evaluation.ofTokens, resultText_of_isFinite hfinite]
  exact HasSinglePoints.of_count (count_point_signedText_le _ _)

/-! ## Unreadable numbers -/

/-- A number that cannot be read is one of the numbers of the text. -/
theorem number_mem_of_evaluateTokens {text : String} {tokens : List Token} {p : Precision}
    (h : evaluateTokens tokens p = .error (.invalidNumber text)) :
    .number text ∈ tokens ∧ Numeral.value? text = none := by
  have hx : postfixValue (toPostfix tokens) = .error (.invalidNumber text) :=
    (postfixValue_of_evaluateTokens h).resolve_right EvalError.noConfusion
  rcases refusedFor_of_postfixValue hx with ⟨token, htoken, hrefused⟩ | hcause | hcause
  · cases hrefused with
    | number hnone => exact ⟨number_mem_of_mem_toPostfix htoken, hnone⟩
  · cases hcause
  · cases hcause

/-- Where no two points are in one number, the point alone is the only number that cannot be
read. -/
theorem HasSinglePoints.eq_point {line text : String} (h : HasSinglePoints line)
    (hmem : .number text ∈ Token.scan line) (hnone : Numeral.value? text = none) :
    text = "." := by
  obtain ⟨⟨hne, hnumeral⟩, hinfix⟩ := Token.isScanned_of_mem_scan hmem
  have hdigit : ∀ c ∈ text.toList, c.isDigit ∨ c = '.' := by
    intro c hc
    simpa [Token.isNumeral] using hnumeral c hc
  have hcount : text.toList.count '.' ≤ 1 := h _ hinfix hnumeral
  have hread := Numeral.isSome_value?_iff hdigit
  rw [String.ofList_toList, hnone] at hread
  -- a digit would make the text readable, so it is a row of points
  have hpoints : ∀ c ∈ text.toList, c = '.' := by
    intro c hc
    refine (hdigit c hc).resolve_left fun hisDigit => ?_
    cases hread.2 ⟨⟨c, hc, hisDigit⟩, hcount⟩
  obtain ⟨n, hn⟩ : ∃ n, text.toList = List.replicate n '.' :=
    ⟨_, List.eq_replicate_of_mem hpoints⟩
  rw [hn, List.count_replicate_self] at hcount
  rw [hn, Ne, List.replicate_eq_nil_iff] at hne
  obtain rfl : n = 1 := by omega
  exact String.toList_inj.1 hn

/-! ## Keys -/

/-- A key that adds at most one point, and that one alone. -/
def Key.AddsPointAlone : Key → Prop
  | insert text => text = "." ∨ '.' ∉ text.toList
  | _ => True

instance : DecidablePred Key.AddsPointAlone
  | .insert text => inferInstanceAs (Decidable (text = "." ∨ '.' ∉ text.toList))
  | .clear | .delete | .answer | .equals => isTrue trivial

theorem addsPointAlone_of_mem_keypadRows {b : Button} (hb : b ∈ keypadRows.flatten) :
    b.key.AddsPointAlone := by
  have hall : ∀ b ∈ keypadRows.flatten, b.key.AddsPointAlone := by decide
  exact hall b hb

/-- A typed character stands for such a key, and never for the last answer. -/
theorem addsPointAlone_of_ofChar? {ch : Char} {key : Key} (h : Key.ofChar? ch = some key) :
    key.AddsPointAlone ∧ key ≠ .answer := by
  unfold Key.ofChar? at h
  split_ifs at h
  · obtain rfl := Option.some.inj h
    refine ⟨?_, Key.noConfusion⟩
    rw [Key.AddsPointAlone, String.toList_singleton, List.mem_singleton]
    by_cases hch : '.' = ch
    · exact Or.inl (hch ▸ rfl)
    · exact Or.inr hch
  · split at h <;> cases h <;> decide

namespace Calculator

/-! ## The last answer apart from numbers -/

/-- Whether the last answer would be added to a number: the entry line, not the marker of a
refusal, ends in a digit or a point. -/
def EndsInNumber (c : Calculator) : Prop :=
  c.hasFailed = false ∧ c.entry.toList.getLast?.any Token.isNumeral

instance (c : Calculator) : Decidable c.EndsInNumber := inferInstanceAs (Decidable (_ ∧ _))

/-- A row of actions that never adds the last answer to a number. -/
def KeepsAnswerApart (c : Calculator) : List Action → Prop
  | [] => True
  | a :: as => (a = .press .answer → ¬ c.EndsInNumber) ∧ (c.perform a).KeepsAnswerApart as

instance decidableKeepsAnswerApart (c : Calculator) :
    (actions : List Action) → Decidable (c.KeepsAnswerApart actions)
  | [] => isTrue trivial
  | a :: as =>
    have := decidableKeepsAnswerApart (c.perform a) as
    inferInstanceAs (Decidable (_ ∧ _))

/-- What precedes in such a row is such a row too. -/
theorem KeepsAnswerApart.of_append {c : Calculator} {before rest : List Action}
    (h : c.KeepsAnswerApart (before ++ rest)) : c.KeepsAnswerApart before := by
  induction before generalizing c with
  | nil => trivial
  | cons a as ih => exact ⟨h.1, ih h.2⟩

/-- If the last answer is not added to a number, no number is at the end of the line that it is
added to: the line after a refusal is empty. -/
theorem currentNumber_leaveFailure {c : Calculator} (h : ¬ c.EndsInNumber) :
    Entry.currentNumber c.leaveFailure.entry = [] := by
  unfold leaveFailure
  split_ifs with hfailed
  · rfl
  · refine Entry.currentNumber_eq_nil (Bool.eq_false_iff.2 fun hlast => ?_)
    exact h ⟨Bool.eq_false_iff.2 hfailed, hlast⟩

/-! ## The invariant -/

/-- Neither the entry line nor the last answer has two points in one number. -/
structure SinglePoints (c : Calculator) : Prop where
  entry : HasSinglePoints c.entry
  answer : HasSinglePoints c.session.answer

theorem singlePoints_withSettings (s : Settings) : (withSettings s).SinglePoints where
  entry := .empty
  answer := by
    show HasSinglePoints "0"
    exact .of_count (by decide)

namespace SinglePoints

variable {c : Calculator}

theorem clear (h : c.SinglePoints) : c.clear.SinglePoints where
  entry := .empty
  answer := h.answer

theorem leaveFailure (h : c.SinglePoints) : c.leaveFailure.SinglePoints := by
  unfold Calculator.leaveFailure
  split_ifs
  · exact h.clear
  · exact h

theorem delete (h : c.SinglePoints) : c.delete.SinglePoints := by
  unfold Calculator.delete
  split_ifs
  · exact h.clear
  · exact ⟨h.entry.delete, h.answer⟩

theorem insert (h : c.SinglePoints) {text : String} (htext : text = "." ∨ '.' ∉ text.toList) :
    (c.insert text).SinglePoints :=
  ⟨h.leaveFailure.entry.insert htext, h.leaveFailure.answer⟩

theorem insertAnswer (h : c.SinglePoints) (happart : ¬ c.EndsInNumber) :
    c.insertAnswer.SinglePoints := by
  refine ⟨h.leaveFailure.entry.append h.leaveFailure.answer (Or.inl ?_), h.leaveFailure.answer⟩
  rw [currentNumber_leaveFailure happart]
  exact List.not_mem_nil

theorem equals (h : c.SinglePoints) : c.equals.SinglePoints := by
  rcases c.equals_cases with ⟨-, heq⟩ | ⟨e, hout, heq⟩ | ⟨cause, -, heq⟩
  · rw [heq]
    exact h
  · obtain ⟨-, -, hevaluate⟩ := evaluation?_eq_some_iff.1 hout
    have hresult : HasSinglePoints e.text :=
      hasSinglePoints_of_evaluate (congrArg Prod.fst hevaluate)
    rw [heq]
    exact ⟨hresult, hresult⟩
  · have hmarker : HasSinglePoints errorMarker := .of_count (by decide)
    rw [heq]
    exact ⟨hmarker, h.answer⟩

theorem press (h : c.SinglePoints) {key : Key} (hkey : key.AddsPointAlone)
    (hanswer : key = .answer → ¬ c.EndsInNumber) : (c.press key).SinglePoints := by
  cases key with
  | insert text => exact h.insert hkey
  | clear => exact h.clear
  | delete => exact h.delete
  | answer => exact h.insertAnswer (hanswer rfl)
  | equals => exact h.equals

theorem typeChar (h : c.SinglePoints) (ch : Char) : (c.typeChar ch).SinglePoints := by
  unfold Calculator.typeChar
  cases hkey : Key.ofChar? ch with
  | none => exact h
  | some key =>
    obtain ⟨hpoint, hne⟩ := addsPointAlone_of_ofChar? hkey
    exact h.press hpoint fun hanswer => absurd hanswer hne

/-- An action keeps the points apart, unless it adds the last answer to a number. -/
theorem perform (h : c.SinglePoints) {a : Action} (ha : a.IsOffered)
    (hanswer : a = .press .answer → ¬ c.EndsInNumber) : (c.perform a).SinglePoints := by
  cases a with
  | press key =>
    obtain ⟨b, hb, rfl⟩ := ha
    exact h.press (addsPointAlone_of_mem_keypadRows hb) fun hkey => hanswer (congrArg _ hkey)
  | typeChar ch => exact h.typeChar ch
  | setPlaces n => exact ⟨h.entry, h.answer⟩
  | toggleTrace => exact ⟨h.entry, h.answer⟩

/-- So does a row of such actions. -/
theorem after (h : c.SinglePoints) {actions : List Action}
    (hactions : ∀ a ∈ actions, a.IsOffered) (hanswer : c.KeepsAnswerApart actions) :
    (c.after actions).SinglePoints := by
  induction actions generalizing c with
  | nil => exact h
  | cons a as ih =>
    rw [List.forall_mem_cons] at hactions
    exact ih (h.perform hactions.1 hanswer.1) hactions.2 hanswer.2

end SinglePoints

/-! ## Reachable states -/

/-- **The guard of the decimal point**: as long as the last answer is never added to a number, at
every moment no number in the entry line has two points, and the only number for which the key
`=` refuses the line is the point alone. -/
theorem single_points_at_every_moment (s : Settings) {actions : List Action}
    (hactions : ∀ a ∈ actions, a.IsOffered)
    (hanswer : (withSettings s).KeepsAnswerApart actions)
    {before : List Action} (hbefore : before <+: actions) :
    (∀ run, Token.IsMaximalRun Token.isNumeral run ((withSettings s).after before).entry.toList →
      run.count '.' ≤ 1) ∧
    ∀ text session, ((withSettings s).after before).evaluation? =
        some (.error (.invalidNumber text), session) → text = "." := by
  obtain ⟨rest, rfl⟩ := hbefore
  rw [List.forall_mem_append] at hactions
  have hpoints : ((withSettings s).after before).SinglePoints :=
    (singlePoints_withSettings s).after hactions.1 hanswer.of_append
  have hconsistent : ((withSettings s).after before).IsConsistent :=
    (isConsistent_withSettings s).after hactions.1
  constructor
  · rintro run ⟨-, hnumeral, us, vs, hentry, -, -⟩
    exact hpoints.entry run ⟨us, vs, hentry.symm⟩ hnumeral
  · intro text session hout
    obtain ⟨hne, hfailed, hevaluate⟩ := evaluation?_eq_some_iff.1 hout
    have hrefused := congrArg Prod.fst hevaluate
    have htyped := hconsistent.typed hfailed
    rw [Session.evaluate, evaluate_eq_evaluateTokens (htyped.checkAllowed_eq hne),
      htyped.plainText_eq] at hrefused
    obtain ⟨hmem, hnone⟩ := number_mem_of_evaluateTokens hrefused
    exact hpoints.entry.eq_point hmem hnone

/-- A point after a name is refused as a number; the last answer then comes on an empty line,
where one more point is added and a second one is not, and again after an operator. -/
theorem single_points_after_refused_point :
    let start := withSettings ⟨6, false⟩
    let refused : List Action := [.press (.insert "pi"), .typeChar '.']
    let actions : List Action := refused ++ [.typeChar '=', .press .answer, .typeChar '.',
      .typeChar '.', .press (.insert "5"), .typeChar '*', .press .answer]
    ((∀ a ∈ actions, a.IsOffered) ∧ start.KeepsAnswerApart actions ∧ refused <+: actions) ∧
      (∃ text session, (start.after refused).evaluation? =
        some (.error (.invalidNumber text), session) ∧ text = ".") ∧
      (start.after actions).entry = "0.5*0" ∧
      ∀ run, Token.IsMaximalRun Token.isNumeral run (start.after actions).entry.toList →
        run.count '.' ≤ 1 := by
  intro start refused actions
  have hactions : ∀ a ∈ actions, a.IsOffered := by decide
  have hanswer : start.KeepsAnswerApart actions := by decide +kernel
  have hrefused : refused <+: actions := List.prefix_append _ _
  have hcause : ((start.after refused).evaluation?.bind fun out =>
      match out.1 with
      | .error cause => some cause
      | .ok _ => none) = some (.invalidNumber ".") := by decide +kernel
  refine ⟨⟨hactions, hanswer, hrefused⟩, ?_, by decide +kernel, ?_⟩
  · obtain ⟨⟨outcome, session⟩, hout, heq⟩ := Option.bind_eq_some_iff.1 hcause
    cases outcome with
    | ok e => cases heq
    | error cause =>
      obtain rfl := Option.some.inj heq
      exact ⟨_, session, hout,
        (single_points_at_every_moment _ hactions hanswer hrefused).2 _ session hout⟩
  · exact (single_points_at_every_moment _ hactions hanswer List.prefix_rfl).1

end Calculator

end PostfixCalc

/-
# Runs of a session

A session is called any number of times, to change the precision or to evaluate a text,
and an evaluation tells its outcome in full, as an optional text, or as a text that may be
the error marker. What a caller can see of the answers settles the session: it remembers
the last text that was given back as a result, and the precision last asked for. The three
ways of telling an outcome agree, since no result is written like the error marker.
-/
import Mathlib
import PostfixCalc.Proofs.Rendering
import PostfixCalc.Session

namespace PostfixCalc

/-- No result is written like the error marker. -/
theorem IsResultText.ne_errorMarker {text : String} (h : IsResultText text) :
    text ≠ errorMarker := by
  rintro rfl
  have hletter : isResultChar 'E' := isResultChar_of_mem h (by decide)
  cases hletter

namespace Session

/-! ## Calls and answers -/

/-- A call to a session. -/
inductive Call where
  | setPlaces (n : Nat)
  /-- Evaluates a text and tells the outcome in full. -/
  | evaluate (text : String)
  /-- Evaluates a text and tells the text of the result, if there is one. -/
  | evaluateText (text : String)
  /-- Evaluates a text and tells the text of the result, or the error marker. -/
  | reply (text : String)
  deriving Repr

/-- What a call gives back. -/
inductive Answer where
  | done
  | outcome (outcome : Except EvalError Evaluation)
  | text? (text : Option String)
  | text (text : String)

/-- The number of places that a call asks for. -/
def Call.places? : Call → Option Nat
  | setPlaces n => some n
  | _ => none

/-- The text of the result that an answer gives back, as its receiver can tell. -/
def Answer.result? : Answer → Option String
  | done => none
  | outcome (.ok e) => some e.text
  | outcome (.error _) => none
  | text? t => t
  | text t => if t = errorMarker then none else some t

/-- Whether an answer says that an evaluation failed. -/
def Answer.isFailure : Answer → Bool
  | done => false
  | a => a.result?.isNone

/-- A single call. -/
def perform (s : Session) : Call → Answer × Session
  | .setPlaces n => (.done, s.setPlaces n)
  | .evaluate t => let (a, s') := s.evaluate t; (.outcome a, s')
  | .evaluateText t => let (a, s') := s.evaluateText? t; (.text? a, s')
  | .reply t => let (a, s') := s.reply t; (.text a, s')

/-- The session after a row of calls. -/
def after (s : Session) (calls : List Call) : Session :=
  calls.foldl (fun s c => (s.perform c).2) s

/-- The answers to a row of calls. -/
def answers (s : Session) : List Call → List Answer
  | [] => []
  | c :: cs => (s.perform c).1 :: answers (s.perform c).2 cs

@[simp] theorem after_cons (s : Session) (c : Call) (cs : List Call) :
    s.after (c :: cs) = (s.perform c).2.after cs := rfl

/-! ## Single calls -/

/-- What a session remembers of an outcome is the result that its text gives back. -/
theorem remember_eq (s : Session) (o : Except EvalError Evaluation) :
    s.remember o = { s with lastText := (Answer.outcome o).result?.or s.lastText } := by
  cases o with
  | error cause => rfl
  | ok e => rfl

/-- An outcome gives back the text of an evaluation. -/
theorem Answer.result?_outcome_eq_some_iff {o : Except EvalError Evaluation} {text : String} :
    (outcome o).result? = some text ↔ ∃ e, o = .ok e ∧ e.text = text := by
  cases o <;> simp [result?]

/-- The reply to a text, and the session afterwards, by the result that is given back. -/
theorem reply_eq (s : Session) (t : String) :
    s.reply t =
      ((Answer.outcome (PostfixCalc.evaluate t s.precision)).result?.getD errorMarker,
        { s with lastText :=
          (Answer.outcome (PostfixCalc.evaluate t s.precision)).result?.or s.lastText }) := by
  rw [← remember_eq]
  simp only [reply, evaluateText?, evaluate]
  cases PostfixCalc.evaluate t s.precision <;> rfl

/-- The text that tells an outcome is the error marker only for a refusal. -/
theorem text_eq_errorMarker_iff {t : String} {p : Precision} :
    ((PostfixCalc.evaluate t p).toOption.map (·.text)).getD errorMarker = errorMarker ↔
      ∃ cause, PostfixCalc.evaluate t p = .error cause := by
  cases h : PostfixCalc.evaluate t p with
  | error cause => simp [Except.toOption]
  | ok e => simpa [Except.toOption] using (isResultText_of_evaluate h).ne_errorMarker

/-- However the outcome is told, the same result is given back. -/
theorem result?_perform (s : Session) (t : String) :
    (s.perform (.evaluateText t)).1.result? = (s.perform (.evaluate t)).1.result? ∧
      (s.perform (.reply t)).1.result? = (s.perform (.evaluate t)).1.result? := by
  have hmarker := text_eq_errorMarker_iff (t := t) (p := s.precision)
  simp only [perform, evaluateText?, reply, evaluate, Answer.result?]
  cases h : PostfixCalc.evaluate t s.precision with
  | error cause => exact ⟨rfl, rfl⟩
  | ok e =>
    -- the text of a result is never taken for the marker
    rw [h] at hmarker
    refine ⟨rfl, if_neg fun hmark => ?_⟩
    obtain ⟨cause, hcause⟩ := hmarker.1 hmark
    cases hcause

/-- A session remembers the result that a call gives back. -/
theorem lastText_perform (s : Session) (c : Call) :
    (s.perform c).2.lastText = (s.perform c).1.result?.or s.lastText := by
  have hfull : ∀ t, (s.perform (.evaluate t)).2.lastText =
      (s.perform (.evaluate t)).1.result?.or s.lastText := by
    intro t
    show (s.remember _).lastText = _
    rw [remember_eq]
    rfl
  cases c with
  | setPlaces n => rfl
  | evaluate t => exact hfull t
  | evaluateText t =>
    rw [(s.result?_perform t).1]
    exact hfull t
  | reply t =>
    rw [(s.result?_perform t).2]
    exact hfull t

/-- Only a request for another precision changes it. -/
theorem precision_perform (s : Session) (c : Call) :
    (s.perform c).2.precision = (c.places?.map Precision.clamp).getD s.precision := by
  have hremember : ∀ o, (s.remember o).precision = s.precision := by
    intro o
    rw [remember_eq]
  cases c with
  | setPlaces n => rfl
  | evaluate t => exact hremember _
  | evaluateText t => exact hremember _
  | reply t => exact hremember _

/-- A session is what it remembers. -/
theorem eq_of_fields {s s' : Session} (htext : s.lastText = s'.lastText)
    (hprecision : s.precision = s'.precision) : s = s' := by
  cases s
  cases s'
  cases htext
  cases hprecision
  rfl

/-- A failing call leaves the whole session as it was. -/
theorem perform_of_isFailure {s : Session} {c : Call} (h : (s.perform c).1.isFailure) :
    (s.perform c).2 = s := by
  cases c with
  | setPlaces n => cases h
  | _ =>
    refine eq_of_fields ?_ (precision_perform s _)
    have hnone : (s.perform _).1.result? = none := Option.isNone_iff_eq_none.1 h
    rw [lastText_perform, hnone, Option.none_or]

/-! ## Rows of calls -/

/-- Of a row of values the last one is left. -/
theorem getLast?_filterMap_cons {α β : Type} (f : α → Option β) (a : α) (as : List α) :
    ((a :: as).filterMap f).getLast? = (as.filterMap f).getLast?.or (f a) := by
  rw [List.filterMap_cons]
  cases f a with
  | none => simp
  | some b =>
    rw [List.getLast?_cons]
    cases (as.filterMap f).getLast? <;> rfl

/-- After a row of calls a session remembers the last result that was given back. -/
theorem lastText_after (s : Session) (calls : List Call) :
    (s.after calls).lastText =
      ((s.answers calls).filterMap Answer.result?).getLast?.or s.lastText := by
  induction calls generalizing s with
  | nil => rfl
  | cons c cs ih =>
    rw [after_cons, ih, answers, getLast?_filterMap_cons, lastText_perform, Option.or_assoc]

/-- After a row of calls a session has the precision that was last asked for. -/
theorem precision_after (s : Session) (calls : List Call) :
    (s.after calls).precision =
      ((calls.filterMap Call.places?).getLast?.map Precision.clamp).getD s.precision := by
  induction calls generalizing s with
  | nil => rfl
  | cons c cs ih =>
    rw [after_cons, ih, getLast?_filterMap_cons, precision_perform]
    cases (cs.filterMap Call.places?).getLast? <;> rfl

/-- **What a session holds after any row of calls**: the last result that was given back,
and the places last asked for, within bounds. On any session a call that fails changes
nothing, the three ways of telling an outcome agree on the result and on the session
afterwards, and the reply is the error marker exactly when the evaluation is refused. -/
theorem after_calls (n : Nat) (calls : List Call) :
    (((withPlaces n).after calls).lastText =
        (((withPlaces n).answers calls).filterMap Answer.result?).getLast? ∧
      ((withPlaces n).after calls).answer =
        (((withPlaces n).answers calls).filterMap Answer.result?).getLast?.getD "0" ∧
      ((withPlaces n).after calls).precision.places =
        min ((calls.filterMap Call.places?).getLast?.getD n) maxPlaces) ∧
    (∀ (s : Session) (c : Call), (s.perform c).1.isFailure → (s.perform c).2 = s) ∧
    ∀ (s : Session) (t : String),
      ((s.perform (.evaluateText t)).1.result? = (s.perform (.evaluate t)).1.result? ∧
        (s.perform (.reply t)).1.result? = (s.perform (.evaluate t)).1.result?) ∧
      ((s.perform (.evaluateText t)).2 = (s.perform (.evaluate t)).2 ∧
        (s.perform (.reply t)).2 = (s.perform (.evaluate t)).2) ∧
      ((s.reply t).1 = errorMarker ↔ ∃ cause, (s.evaluate t).1 = .error cause) ∧
      ∀ e, (s.evaluate t).1 = .ok e → e.text ≠ errorMarker := by
  have htext : ((withPlaces n).after calls).lastText =
      (((withPlaces n).answers calls).filterMap Answer.result?).getLast? := by
    have hnone : (withPlaces n).lastText = none := rfl
    rw [lastText_after, hnone, Option.or_none]
  refine ⟨⟨htext, ?_, ?_⟩, fun s c => perform_of_isFailure, fun s t => ⟨s.result?_perform t,
    ⟨rfl, rfl⟩, text_eq_errorMarker_iff, fun e he => ?_⟩⟩
  · rw [answer, htext]
  · rw [precision_after]
    cases (calls.filterMap Call.places?).getLast? <;> rfl
  · exact (isResultText_of_evaluate he).ne_errorMarker

/-- A result, a refusal and a precision past the greatest one. -/
theorem after_mixed_calls :
    ((withPlaces 5).after [.setPlaces 3, .reply "2-2", .evaluate "1/0", .setPlaces 40]).lastText =
      some "0" ∧
    ((withPlaces 5).after
      [.setPlaces 3, .reply "2-2", .evaluate "1/0", .setPlaces 40]).precision.places = 17 ∧
    ((withPlaces 5).perform (.reply "2+")).1.isFailure ∧
    ((withPlaces 5).perform (.reply "2+")).2 = withPlaces 5 := by
  obtain ⟨⟨htext, -, hplaces⟩, hfailure, -⟩ :=
    after_calls 5 [.setPlaces 3, .reply "2-2", .evaluate "1/0", .setPlaces 40]
  have hfails : ((withPlaces 5).perform (.reply "2+")).1.isFailure = true := by decide +kernel
  rw [htext, hplaces]
  exact ⟨by decide +kernel, by decide, hfails, hfailure _ _ hfails⟩

/-- A session starts with twelve places unless asked otherwise. -/
example : ({} : Session) = withPlaces 12 := rfl

/-! ## Reachable sessions -/

/-- A session that some row of calls leads to. -/
def IsReachable (s : Session) : Prop :=
  ∃ (n : Nat) (calls : List Call), (withPlaces n).after calls = s

/-- The results that calls give back are written as results. -/
theorem isResultText_of_result? {s : Session} {c : Call} {text : String}
    (h : (s.perform c).1.result? = some text) : IsResultText text := by
  have hfull : ∀ t, (s.perform (.evaluate t)).1.result? = some text → IsResultText text := by
    intro t ht
    obtain ⟨out, hout, rfl⟩ := Answer.result?_outcome_eq_some_iff.1 ht
    exact isResultText_of_evaluate hout
  cases c with
  | setPlaces n => cases h
  | evaluate t => exact hfull t h
  | evaluateText t => exact hfull t ((s.result?_perform t).1 ▸ h)
  | reply t => exact hfull t ((s.result?_perform t).2 ▸ h)

/-- A call keeps the answer written as a result. -/
theorem isResultText_answer_perform {s : Session} (hs : IsResultText s.answer) (c : Call) :
    IsResultText (s.perform c).2.answer := by
  rw [answer, lastText_perform]
  cases hresult : (s.perform c).1.result? with
  | none => exact hs
  | some text => exact isResultText_of_result? hresult

/-- The answer of a reachable session is written as a result. -/
theorem IsReachable.isResultText_answer {s : Session} (hs : s.IsReachable) :
    IsResultText s.answer := by
  obtain ⟨n, calls, rfl⟩ := hs
  have hrun : ∀ s : Session, IsResultText s.answer → IsResultText (s.after calls).answer := by
    induction calls with
    | nil => exact fun s hs => hs
    | cons c cs ih => exact fun s hs => ih _ (isResultText_answer_perform hs c)
  exact hrun _ ⟨['0'], by simp, by simp [Token.isNumeral], Or.inl rfl⟩

end Session

end PostfixCalc

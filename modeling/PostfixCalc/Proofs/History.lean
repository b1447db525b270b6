/-
# What a calculator tells of its past

Of all actions only the key `=` on an entry that can be evaluated reaches the session, and
it shows what the session replies. So at every moment the last answer is the text of the
last evaluation that succeeded, and the account is that of the last evaluation, whatever
was typed, deleted or set in between.
-/
import Mathlib
import PostfixCalc.Proofs.Actions

namespace PostfixCalc

/-- Every refusal has a message. -/
theorem EvalError.message_ne_empty (cause : EvalError) : cause.message ≠ "" := by
  have happend : ∀ {s t : String}, s ≠ "" → s ++ t ≠ "" := by
    intro s t hs h
    exact hs (String.append_eq_empty_iff.1 h).1
  -- a message begins with the announcement of its cause
  cases cause with
  | emptyInput | notFinite => decide
  | forbiddenChar c => exact happend (happend (by decide))
  | unknownFunction name => exact happend (by decide)
  | malformed cause => exact happend (by decide)
  | invalidNumber text => exact happend (by decide)

/-- Whether an account tells the last outcome: both traces of a success and no error, only
the message of a refusal, and nothing if there was no outcome yet. -/
def Account.Tells (a : Account) : Option (Except EvalError Evaluation) → Prop
  | none => a.tokenTrace = "" ∧ a.postfixTrace = "" ∧ a.error = ""
  | some (.ok e) =>
    a.tokenTrace = e.tokenTrace ∧ a.postfixTrace = e.postfixTrace ∧ a.error = ""
  | some (.error cause) =>
    a.tokenTrace = "" ∧ a.postfixTrace = "" ∧ a.error = cause.message ∧ a.error ≠ ""

/-- The account of an outcome tells it. -/
theorem Account.tells_ofOutcome (o : Except EvalError Evaluation) :
    (Account.ofOutcome o).Tells (some o) := by
  cases o with
  | ok e => exact ⟨rfl, rfl, rfl⟩
  | error cause => exact ⟨rfl, rfl, rfl, cause.message_ne_empty⟩

namespace Calculator

/-! ## Effective actions -/

/-- Whether an action is the key `=`, pressed or typed. -/
def Action.isEquals : Action → Bool
  | press key => key == .equals
  | typeChar ch => ch == '='
  | _ => false

/-- An action is effective if it is the key `=` while there is an entry to evaluate. -/
def IsEffective (c : Calculator) (a : Action) : Prop :=
  a.isEquals = true ∧ c.entry ≠ "" ∧ c.hasFailed = false

instance (c : Calculator) (a : Action) : Decidable (c.IsEffective a) :=
  inferInstanceAs (Decidable (_ ∧ _ ∧ _))

/-- The outcome of an action, if it is effective. -/
def outcome? (c : Calculator) (a : Action) : Option (Except EvalError Evaluation) :=
  if c.IsEffective a then some (c.session.evaluate c.entry).1 else none

/-- The states of a run, each with the action that comes next. -/
def moments (c : Calculator) : List Action → List (Calculator × Action)
  | [] => []
  | a :: as => (c, a) :: moments (c.perform a) as

/-- The outcomes of the effective actions of a run, in order. -/
def outcomes (c : Calculator) (actions : List Action) : List (Except EvalError Evaluation) :=
  (c.moments actions).filterMap fun m => m.1.outcome? m.2

variable {c : Calculator} {a : Action}

/-- An action that is the key `=` has the effect of that key. -/
theorem perform_of_isEquals (ha : a.isEquals = true) : c.perform a = c.equals := by
  cases a with
  | press key =>
    obtain rfl : key = .equals := beq_iff_eq.1 ha
    rfl
  | typeChar ch =>
    obtain rfl : ch = '=' := beq_iff_eq.1 ha
    rfl
  | setPlaces n => cases ha
  | toggleTrace => cases ha

/-- No other character stands for the key `=`. -/
theorem Key.ofChar?_ne_equals {ch : Char} (hch : ch ≠ '=') : Key.ofChar? ch ≠ some .equals := by
  unfold Key.ofChar?
  split_ifs
  · simp
  · split
    · exact absurd rfl hch
    all_goals simp

/-- A key other than `=` changes nothing but the entry line. -/
theorem press_of_ne_equals {key : Key} (hkey : key ≠ .equals) :
    (c.press key).session = c.session ∧ (c.press key).account = c.account := by
  cases key with
  | insert text =>
    simp only [press, insert, leaveFailure]
    split_ifs <;> exact ⟨rfl, rfl⟩
  | clear => exact ⟨rfl, rfl⟩
  | delete =>
    simp only [press, delete]
    split_ifs <;> exact ⟨rfl, rfl⟩
  | answer =>
    simp only [press, insertAnswer, leaveFailure]
    split_ifs <;> exact ⟨rfl, rfl⟩
  | equals => exact absurd rfl hkey

/-- An action that is not the key `=` leaves the last answer and the account. -/
theorem perform_of_not_isEquals (ha : a.isEquals = false) :
    (c.perform a).session.lastText = c.session.lastText ∧ (c.perform a).account = c.account := by
  have hpress : ∀ key : Key, key ≠ .equals →
      (c.press key).session.lastText = c.session.lastText ∧
        (c.press key).account = c.account := by
    intro key hkey
    obtain ⟨hsession, haccount⟩ := press_of_ne_equals (c := c) hkey
    exact ⟨congrArg Session.lastText hsession, haccount⟩
  cases a with
  | press key => exact hpress key (beq_eq_false_iff_ne.1 ha)
  | typeChar ch =>
    rw [perform, typeChar]
    cases hkey : Key.ofChar? ch with
    | none => exact ⟨rfl, rfl⟩
    | some key =>
      apply hpress
      rintro rfl
      exact Key.ofChar?_ne_equals (beq_eq_false_iff_ne.1 ha) hkey
  | setPlaces n => exact ⟨rfl, rfl⟩
  | toggleTrace => exact ⟨rfl, rfl⟩

/-- So does any action that is not effective. -/
theorem perform_of_not_isEffective (h : ¬ c.IsEffective a) :
    (c.perform a).session.lastText = c.session.lastText ∧ (c.perform a).account = c.account := by
  by_cases ha : a.isEquals = true
  · have hnone : c.evaluation? = none := by
      rw [Option.eq_none_iff_forall_ne_some]
      intro out hout
      obtain ⟨hne, hfailed, -⟩ := evaluation?_eq_some_iff.1 hout
      exact h ⟨ha, hne, hfailed⟩
    rw [perform_of_isEquals ha, equals, hnone]
    exact ⟨rfl, rfl⟩
  · exact perform_of_not_isEquals (Bool.eq_false_iff.2 ha)

/-- An effective action shows the result or the error marker, and gives the account of the
outcome. -/
theorem perform_of_isEffective (h : c.IsEffective a) :
    (∃ e, c.session.evaluate c.entry = (.ok e, { c.session with lastText := some e.text }) ∧
      c.perform a = { c with
        entry := e.text, session := { c.session with lastText := some e.text },
        account := .ofOutcome (.ok e) }) ∨
    ∃ cause, c.session.evaluate c.entry = (.error cause, c.session) ∧
      c.perform a = { c with
        entry := errorMarker, hasFailed := true, account := .ofOutcome (.error cause) } := by
  obtain ⟨ha, hne, hfailed⟩ := h
  rw [perform_of_isEquals ha]
  have hout : c.evaluation? = some (c.session.evaluate c.entry) :=
    evaluation?_eq_some_iff.2 ⟨hne, hfailed, rfl⟩
  rcases c.equals_cases with ⟨hnone, -⟩ | ⟨e, hsome, heq⟩ | ⟨cause, hsome, heq⟩
  · rw [hnone] at hout
    cases hout
  · rw [hsome] at hout
    exact Or.inl ⟨e, (Option.some.inj hout).symm, heq⟩
  · rw [hsome] at hout
    exact Or.inr ⟨cause, (Option.some.inj hout).symm, heq⟩

/-- An effective action shows the reply of the session, which then is as after that reply,
and a refusal is noted. -/
theorem reply_of_isEffective (h : c.IsEffective a) :
    (c.perform a).display = (c.session.reply c.entry).1 ∧
      (c.perform a).session = (c.session.reply c.entry).2 ∧
      ((c.perform a).hasFailed = true ↔
        ∃ cause, (c.session.evaluate c.entry).1 = .error cause) := by
  rcases perform_of_isEffective h with ⟨e, hout, heq⟩ | ⟨cause, hout, heq⟩
  · have hresult : IsResultText e.text := isResultText_of_evaluate (congrArg Prod.fst hout)
    have hreply : c.session.reply c.entry =
        (e.text, { c.session with lastText := some e.text }) := by
      rw [Session.reply, Session.evaluateText?, hout]
      rfl
    rw [hreply, hout, heq]
    refine ⟨if_neg ?_, rfl, ?_⟩
    · rw [String.isEmpty_iff, ← String.toList_eq_nil_iff]
      exact hresult.toList_ne_nil
    · simp [h.2.2]
  · have hreply : c.session.reply c.entry = (errorMarker, c.session) := by
      rw [Session.reply, Session.evaluateText?, hout]
      rfl
    rw [hreply, hout, heq]
    exact ⟨rfl, rfl, by simp⟩

/-! ## Single actions, by their outcome -/

/-- The text of a result, if the outcome is a success. -/
def resultText? (o : Except EvalError Evaluation) : Option String := o.toOption.map (·.text)

/-- The last answer changes with the text of a success only. -/
theorem lastText_perform (c : Calculator) (a : Action) :
    (c.perform a).session.lastText =
      ((c.outcome? a).bind resultText?).or c.session.lastText := by
  rw [outcome?]
  split_ifs with h
  · rcases perform_of_isEffective h with ⟨e, hout, heq⟩ | ⟨cause, hout, heq⟩
    all_goals
      rw [hout, heq]
      rfl
  · exact (perform_of_not_isEffective h).1

/-- The account changes with every outcome. -/
theorem account_perform (c : Calculator) (a : Action) :
    (c.perform a).account = ((c.outcome? a).map Account.ofOutcome).getD c.account := by
  rw [outcome?]
  split_ifs with h
  · rcases perform_of_isEffective h with ⟨e, hout, heq⟩ | ⟨cause, hout, heq⟩
    all_goals
      rw [hout, heq]
      rfl
  · exact (perform_of_not_isEffective h).2

/-! ## Runs -/

/-- After a run the last answer is the text of the last success. -/
theorem lastText_after (c : Calculator) (actions : List Action) :
    (c.after actions).session.lastText =
      ((c.outcomes actions).filterMap resultText?).getLast?.or c.session.lastText := by
  induction actions generalizing c with
  | nil => rfl
  | cons a as ih =>
    have hhead : (c.outcomes (a :: as)).filterMap resultText? =
        ((c, a) :: (c.perform a).moments as).filterMap
          fun m => (m.1.outcome? m.2).bind resultText? :=
      List.filterMap_filterMap
    rw [after_cons, ih, hhead, Session.getLast?_filterMap_cons, lastText_perform, Option.or_assoc,
      outcomes, List.filterMap_filterMap]

/-- After a run the account is that of the last outcome. -/
theorem account_after (c : Calculator) (actions : List Action) :
    (c.after actions).account =
      ((c.outcomes actions).getLast?.map Account.ofOutcome).getD c.account := by
  induction actions generalizing c with
  | nil => rfl
  | cons a as ih =>
    have hlast : (c.outcomes (a :: as)).getLast? =
        ((c.perform a).outcomes as).getLast?.or (c.outcome? a) :=
      Session.getLast?_filterMap_cons _ _ _
    rw [after_cons, ih, hlast, account_perform]
    cases ((c.perform a).outcomes as).getLast? <;> rfl

/-- **What a calculator tells of its past**, after any run from a new one: the last answer
is the text of the last effective action that succeeded, and the account tells the outcome
of the last effective action. The next action, if it is effective, shows the reply of the
session to the entry and leaves the session as that reply does, with the error marker
exactly for a refusal; and if it is not, then it leaves last answer and account. -/
theorem history_after (s : Settings) (actions : List Action) :
    let c := (withSettings s).after actions
    let outcomes := (withSettings s).outcomes actions
    c.session.lastText = (outcomes.filterMap resultText?).getLast? ∧
    c.account.Tells outcomes.getLast? ∧
    (∀ a, c.IsEffective a →
      (c.perform a).display = (c.session.reply c.entry).1 ∧
      (c.perform a).session = (c.session.reply c.entry).2 ∧
      ((c.perform a).hasFailed = true ↔
        ∃ cause, (c.session.evaluate c.entry).1 = .error cause)) ∧
    ∀ a, ¬ c.IsEffective a →
      (c.perform a).session.lastText = c.session.lastText ∧
        (c.perform a).account = c.account := by
  intro c outcomes
  refine ⟨?_, ?_, fun a => reply_of_isEffective, fun a => perform_of_not_isEffective⟩
  · have hnone : (withSettings s).session.lastText = none := rfl
    rw [lastText_after, hnone, Option.or_none]
  · rw [account_after]
    cases outcomes.getLast? with
    | none => exact ⟨rfl, rfl, rfl⟩
    | some o => exact Account.tells_ofOutcome o

/-- A success, a refusal and a typed point: the account is that of the refusal, the last
answer that of the success, and the next `=` shows the reply to the new entry. -/
theorem history_after_refusal :
    let actions : List Action := [.press (.insert "2-2"), .typeChar '=', .typeChar '+',
      .press .equals, .typeChar '.']
    let c := (withSettings {}).after actions
    let outcomes := (withSettings {}).outcomes actions
    (c.session.lastText = (outcomes.filterMap resultText?).getLast? ∧
      c.session.lastText = some "0") ∧
    (c.account.Tells outcomes.getLast? ∧
      c.account.error = "expression mal formée: opérande manquant") ∧
    (c.IsEffective (.typeChar '=') ∧
      (c.perform (.typeChar '=')).display = (c.session.reply c.entry).1) ∧
    ¬ c.IsEffective (.typeChar '7') ∧ (c.perform (.typeChar '7')).account = c.account := by
  intro actions c outcomes
  have heffective : c.IsEffective (.typeChar '=') := by decide +kernel
  have hother : ¬ c.IsEffective (.typeChar '7') := by decide
  obtain ⟨hlast, htells, hreply, hkeep⟩ := history_after {} actions
  exact ⟨⟨hlast, by decide +kernel⟩, ⟨htells, by decide +kernel⟩,
    ⟨heffective, (hreply _ heffective).1⟩, hother, (hkeep _ hother).2⟩

end Calculator

end PostfixCalc

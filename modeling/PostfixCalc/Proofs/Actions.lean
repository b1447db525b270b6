/-
# Actions on a calculator

A user presses keys, types characters, sets the number of places and shows or hides the
traces. Whatever the row of actions, the settings and the session agree on the number of
places, the entry line shows the error marker exactly after a refusal, and otherwise it
holds only characters that pass the allow-list as they are.
-/
import Mathlib
import PostfixCalc.Calculator
import PostfixCalc.Proofs.Sessions

namespace PostfixCalc

/-! ## Characters of the entry line -/

/-- Whether a character can stand in the entry line: it is allowed, in lower case, and no
glyph for an operator. -/
def isEntryChar (ch : Char) : Bool := isAllowed ch && !ch.isUpper && ch != 'x'

theorem isEntryChar_iff {ch : Char} :
    isEntryChar ch ↔ isAllowed ch ∧ ch.isUpper = false ∧ ch ≠ 'x' := by
  simp [isEntryChar, and_assoc]

theorem isEntryChar_of_isResultChar {ch : Char} (h : isResultChar ch) : isEntryChar ch := by
  rw [isEntryChar_iff]
  refine ⟨isAllowed_of_isResultChar h, ?_, ?_⟩
  · rw [isResultChar, Token.isNumeral, Bool.or_eq_true, Bool.or_eq_true, beq_iff_eq,
      beq_iff_eq] at h
    rcases h with (h | rfl) | rfl
    · have hletter := isAlpha_eq_false_of_isDigit h
      rw [Char.isAlpha, Bool.or_eq_false_iff] at hletter
      exact hletter.1
    · decide
    · decide
  · rintro rfl
    exact absurd h (by decide)

theorem plainChar_of_isEntryChar {ch : Char} (h : isEntryChar ch) : plainChar ch = ch := by
  rw [plainChar]
  all_goals
    rintro rfl
    exact absurd h (by decide)

/-- A text of characters that can stand in the entry line. -/
def IsEntryText (text : String) : Prop := ∀ ch ∈ text.toList, isEntryChar ch

instance (text : String) : Decidable (IsEntryText text) :=
  decidable_of_iff (text.toList.all isEntryChar = true) List.all_eq_true

namespace IsEntryText

variable {line text : String}

theorem empty : IsEntryText "" := by
  intro ch hch
  cases hch

theorem singleton {ch : Char} (h : isEntryChar ch) : IsEntryText (String.singleton ch) := by
  intro ch' hch'
  rw [String.toList_singleton, List.mem_singleton] at hch'
  exact hch' ▸ h

theorem append (hline : IsEntryText line) (htext : IsEntryText text) :
    IsEntryText (line ++ text) := by
  intro ch hch
  rw [String.toList_append, List.mem_append] at hch
  rcases hch with hch | hch
  · exact hline ch hch
  · exact htext ch hch

theorem delete (h : IsEntryText line) : IsEntryText (Entry.delete line) := by
  intro ch hch
  rw [Entry.delete, String.toList_ofList] at hch
  exact h ch (List.mem_of_mem_dropLast hch)

theorem addPoint (h : IsEntryText line) : IsEntryText (Entry.addPoint line) := by
  unfold Entry.addPoint
  split_ifs
  · exact h
  · exact h.append (by decide)
  · exact h.append (by decide)

theorem insert (hline : IsEntryText line) (htext : IsEntryText text) :
    IsEntryText (Entry.insert line text) := by
  unfold Entry.insert
  split_ifs
  · exact hline.addPoint
  · exact hline.append htext

/-- The error marker is no such text. -/
theorem ne_errorMarker (h : IsEntryText line) : line ≠ errorMarker := by
  rintro rfl
  have hletter : isEntryChar 'E' := h 'E' (by decide)
  cases hletter

/-- Such a text is evaluated as it is written. -/
theorem plainText_eq (h : IsEntryText line) : plainText line = line :=
  plainText_eq_self fun ch hch => plainChar_of_isEntryChar (h ch hch)

/-- Such a text passes the allow-list, unless it is empty. -/
theorem checkAllowed_eq (h : IsEntryText line) (hne : line ≠ "") :
    checkAllowed (plainText line) = .ok () := by
  rw [h.plainText_eq, checkAllowed_eq_ok_iff]
  exact ⟨fun hnil => hne (String.toList_eq_nil_iff.1 hnil),
    fun ch hch => (isEntryChar_iff.1 (h ch hch)).1⟩

end IsEntryText

theorem IsResultText.isEntryText {text : String} (h : IsResultText text) : IsEntryText text :=
  fun _ hch => isEntryChar_of_isResultChar (isResultChar_of_mem h hch)

/-! ## Keys -/

/-- A key that inserts nothing but what can stand in the entry line. -/
def Key.IsPlain : Key → Prop
  | insert text => IsEntryText text
  | _ => True

instance : DecidablePred Key.IsPlain
  | .insert text => inferInstanceAs (Decidable (IsEntryText text))
  | .clear | .delete | .answer | .equals => isTrue trivial

/-- All keys of the keypad are plain. -/
theorem isPlain_of_mem_keypadRows {b : Button} (hb : b ∈ keypadRows.flatten) :
    b.key.IsPlain := by
  have hall : ∀ b ∈ keypadRows.flatten, b.key.IsPlain := by decide
  exact hall b hb

/-- All keys that typed characters stand for are plain. -/
theorem isPlain_of_ofChar? {ch : Char} {key : Key} (h : Key.ofChar? ch = some key) :
    key.IsPlain := by
  have hplain : Key.plainChars.all isEntryChar := by decide
  unfold Key.ofChar? at h
  split_ifs at h with hch
  · obtain rfl := Option.some.inj h
    have hentry := List.all_eq_true.1 hplain ch (List.contains_iff_mem.1 hch)
    exact IsEntryText.singleton hentry
  · split at h <;> cases h <;> decide

namespace Calculator

/-! ## Actions -/

/-- What a user does with a calculator. -/
inductive Action where
  | press (key : Key)
  | typeChar (ch : Char)
  | setPlaces (n : Nat)
  | toggleTrace
  deriving DecidableEq, Repr

/-- An action that only presses keys of the keypad. -/
def Action.IsOffered : Action → Prop
  | press key => ∃ b ∈ keypadRows.flatten, b.key = key
  | _ => True

instance : DecidablePred Action.IsOffered
  | .press key => inferInstanceAs (Decidable (∃ b ∈ keypadRows.flatten, b.key = key))
  | .typeChar _ | .setPlaces _ | .toggleTrace => isTrue trivial

/-- A single action. -/
def perform (c : Calculator) : Action → Calculator
  | .press key => c.press key
  | .typeChar ch => c.typeChar ch
  | .setPlaces n => c.setPlaces n
  | .toggleTrace => c.toggleTrace

/-- The calculator after a row of actions. -/
def after (c : Calculator) (actions : List Action) : Calculator := actions.foldl perform c

@[simp] theorem after_cons (c : Calculator) (a : Action) (as : List Action) :
    c.after (a :: as) = (c.perform a).after as := rfl

/-! ## Evaluating the entry -/

/-- The entry is evaluated unless it is empty or the error marker. -/
theorem evaluation?_eq_some_iff {c : Calculator} {out : Except EvalError Evaluation × Session} :
    c.evaluation? = some out ↔
      c.entry ≠ "" ∧ c.hasFailed = false ∧ c.session.evaluate c.entry = out := by
  rw [evaluation?]
  split_ifs with h
  · simp only [false_iff]
    rintro ⟨hne, hfailed, -⟩
    rw [hfailed, Bool.or_false, String.isEmpty_iff] at h
    exact hne h
  · rw [Bool.or_eq_true, not_or, String.isEmpty_iff, Bool.not_eq_true] at h
    rw [Option.some.injEq]
    exact ⟨fun hout => ⟨h.1, h.2, hout⟩, fun hout => hout.2.2⟩

/-- What the key `=` can do: nothing, show a result, or show the error marker. -/
theorem equals_cases (c : Calculator) :
    (c.evaluation? = none ∧ c.equals = c) ∨
    (∃ e, c.evaluation? = some (.ok e, { c.session with lastText := some e.text }) ∧
      c.equals = { c with
        entry := e.text, session := { c.session with lastText := some e.text },
        account := ⟨e.tokenTrace, e.postfixTrace, ""⟩ }) ∨
    ∃ cause, c.evaluation? = some (.error cause, c.session) ∧
      c.equals = { c with
        entry := errorMarker, hasFailed := true, account := ⟨"", "", cause.message⟩ } := by
  cases h : c.evaluation? with
  | none =>
    left
    rw [equals, h]
    exact ⟨rfl, rfl⟩
  | some out =>
    right
    obtain ⟨-, -, rfl⟩ := evaluation?_eq_some_iff.1 h
    rw [equals, h]
    unfold Session.evaluate
    cases PostfixCalc.evaluate c.entry c.session.precision with
    | ok e => exact Or.inl ⟨e, rfl, rfl⟩
    | error cause => exact Or.inr ⟨cause, rfl, rfl⟩

/-! ## Consistent states -/

/-- The two numbers of places agree, the last answer is written as a result, and the entry
line shows either the marker of a refusal or a text that can be typed. -/
structure IsConsistent (c : Calculator) : Prop where
  places : c.settings.places = c.session.precision.places
  answer : IsResultText c.session.answer
  failed : c.hasFailed = true → c.entry = errorMarker
  typed : c.hasFailed = false → IsEntryText c.entry

theorem isConsistent_withSettings (s : Settings) : (withSettings s).IsConsistent where
  places := by
    show min s.places maxPlaces = min (min s.places maxPlaces) maxPlaces
    omega
  answer := ⟨['0'], by simp, by simp [Token.isNumeral], Or.inl rfl⟩
  failed := by
    intro h
    cases h
  typed := fun _ => IsEntryText.empty

namespace IsConsistent

variable {c : Calculator}

theorem clear (h : c.IsConsistent) : c.clear.IsConsistent where
  places := h.places
  answer := h.answer
  failed := by
    intro hfailed
    cases hfailed
  typed := fun _ => IsEntryText.empty

/-- After leaving a refusal there is a text to edit. -/
theorem leaveFailure (h : c.IsConsistent) :
    c.leaveFailure.IsConsistent ∧ c.leaveFailure.hasFailed = false := by
  unfold Calculator.leaveFailure
  split_ifs with hfailed
  · exact ⟨h.clear, rfl⟩
  · exact ⟨h, Bool.eq_false_iff.2 hfailed⟩

/-- The entry line may be edited as long as only such characters come in. -/
theorem edit (h : c.IsConsistent) (hfailed : c.hasFailed = false) {line : String}
    (hline : IsEntryText line) : IsConsistent { c with entry := line } where
  places := h.places
  answer := h.answer
  failed := by
    intro htrue
    rw [hfailed] at htrue
    cases htrue
  typed := fun _ => hline

theorem delete (h : c.IsConsistent) : c.delete.IsConsistent := by
  unfold Calculator.delete
  split_ifs with hfailed
  · exact h.clear
  · have hfalse := Bool.eq_false_iff.2 hfailed
    exact h.edit hfalse (h.typed hfalse).delete

theorem insert (h : c.IsConsistent) {text : String} (htext : IsEntryText text) :
    (c.insert text).IsConsistent := by
  obtain ⟨hleft, hfalse⟩ := h.leaveFailure
  exact hleft.edit hfalse ((hleft.typed hfalse).insert htext)

theorem insertAnswer (h : c.IsConsistent) : c.insertAnswer.IsConsistent := by
  obtain ⟨hleft, hfalse⟩ := h.leaveFailure
  exact hleft.edit hfalse ((hleft.typed hfalse).append hleft.answer.isEntryText)

theorem equals (h : c.IsConsistent) : c.equals.IsConsistent := by
  rcases c.equals_cases with ⟨-, heq⟩ | ⟨e, hout, heq⟩ | ⟨cause, -, heq⟩
  · rw [heq]
    exact h
  · obtain ⟨-, hfailed, hevaluate⟩ := evaluation?_eq_some_iff.1 hout
    have hresult : IsResultText e.text :=
      isResultText_of_evaluate (congrArg Prod.fst hevaluate)
    have hremembers : IsConsistent { c with
        session := { c.session with lastText := some e.text },
        account := ⟨e.tokenTrace, e.postfixTrace, ""⟩ } :=
      ⟨h.places, hresult, h.failed, h.typed⟩
    rw [heq]
    exact hremembers.edit hfailed hresult.isEntryText
  · rw [heq]
    refine ⟨h.places, h.answer, fun _ => rfl, ?_⟩
    intro hfalse
    cases hfalse

theorem press (h : c.IsConsistent) {key : Key} (hkey : key.IsPlain) :
    (c.press key).IsConsistent := by
  cases key with
  | insert text => exact h.insert hkey
  | clear => exact h.clear
  | delete => exact h.delete
  | answer => exact h.insertAnswer
  | equals => exact h.equals

theorem typeChar (h : c.IsConsistent) (ch : Char) : (c.typeChar ch).IsConsistent := by
  unfold Calculator.typeChar
  cases hkey : Key.ofChar? ch with
  | none => exact h
  | some key => exact h.press (isPlain_of_ofChar? hkey)

theorem setPlaces (h : c.IsConsistent) (n : Nat) : (c.setPlaces n).IsConsistent :=
  ⟨rfl, h.answer, h.failed, h.typed⟩

theorem toggleTrace (h : c.IsConsistent) : c.toggleTrace.IsConsistent :=
  ⟨h.places, h.answer, h.failed, h.typed⟩

/-- An action that the calculator offers keeps it consistent. -/
theorem perform (h : c.IsConsistent) {a : Action} (ha : a.IsOffered) :
    (c.perform a).IsConsistent := by
  cases a with
  | press key =>
    obtain ⟨b, hb, rfl⟩ := ha
    exact h.press (isPlain_of_mem_keypadRows hb)
  | typeChar ch => exact h.typeChar ch
  | setPlaces n => exact h.setPlaces n
  | toggleTrace => exact h.toggleTrace

/-- So does a row of such actions. -/
theorem after (h : c.IsConsistent) {actions : List Action} (hactions : ∀ a ∈ actions, a.IsOffered) :
    (c.after actions).IsConsistent := by
  induction actions generalizing c with
  | nil => exact h
  | cons a as ih =>
    rw [List.forall_mem_cons] at hactions
    exact ih (h.perform hactions.1) hactions.2

/-- The error marker is on the entry line exactly after a refusal. -/
theorem hasFailed_iff (h : c.IsConsistent) : c.hasFailed = true ↔ c.entry = errorMarker := by
  refine ⟨h.failed, fun hentry => ?_⟩
  by_contra hfailed
  exact (h.typed (Bool.eq_false_iff.2 hfailed)).ne_errorMarker hentry

/-- The entry is never refused for its characters. -/
theorem isOfTokens_of_evaluation? (h : c.IsConsistent) {cause : EvalError} {session : Session}
    (hout : c.evaluation? = some (.error cause, session)) : cause.isOfTokens := by
  obtain ⟨hne, hfailed, hevaluate⟩ := evaluation?_eq_some_iff.1 hout
  have hrefused : PostfixCalc.evaluate c.entry c.session.precision = .error cause :=
    congrArg Prod.fst hevaluate
  rw [evaluate_eq_evaluateTokens ((h.typed hfailed).checkAllowed_eq hne)] at hrefused
  exact isOfTokens_of_evaluateTokens hrefused

/-- The field for the places shows the whole number, and a calculator that is made with
the settings has the same ones. -/
theorem settings_stable (h : c.IsConsistent) :
    c.settings.places ≤ maxPlaces ∧ (withSettings c.settings).settings = c.settings ∧
      (Screen.placesField c).toNat = c.settings.places := by
  have hle : c.settings.places ≤ maxPlaces := h.places ▸ c.session.precision.places_le
  refine ⟨hle, ?_, ?_⟩
  · show { c.settings with places := min c.settings.places maxPlaces } = c.settings
    rw [min_eq_left hle]
  · rw [Screen.placesField, UInt32.toNat_ofNat']
    have hmax : maxPlaces = 17 := rfl
    omega

end IsConsistent

/-! ## Reachable states -/

/-- A state that the actions offered to a user lead to. -/
def IsReachable (c : Calculator) : Prop :=
  ∃ (s : Settings) (actions : List Action),
    (∀ a ∈ actions, a.IsOffered) ∧ (withSettings s).after actions = c

/-- **What holds of every reachable state**: settings and session have the same number of
places, within bounds, so that a new calculator with these settings has them unchanged and
the field for the places shows them; the entry line is the error marker exactly after a
refusal; and otherwise it is plain, so that the key `=` never refuses it for want of a text
or for one of its characters. -/
theorem entry_and_settings_of_isReachable {c : Calculator} (h : c.IsReachable) :
    (c.settings.places = c.session.precision.places ∧ c.settings.places ≤ maxPlaces ∧
      (withSettings c.settings).settings = c.settings ∧
      (Screen.placesField c).toNat = c.settings.places) ∧
    (c.hasFailed = true ↔ c.entry = errorMarker) ∧
    (c.hasFailed = false →
      (∀ ch ∈ c.entry.toList, isAllowed ch ∧ ch ≠ 'x' ∧ ch ≠ 'X') ∧
        plainText c.entry = c.entry) ∧
    ∀ cause session, c.evaluation? = some (.error cause, session) →
      cause ≠ .emptyInput ∧ ∀ ch, cause ≠ .forbiddenChar ch := by
  obtain ⟨s, actions, hactions, rfl⟩ := h
  have hc := (isConsistent_withSettings s).after hactions
  refine ⟨⟨hc.places, hc.settings_stable⟩, hc.hasFailed_iff, fun hfailed => ?_, ?_⟩
  · refine ⟨fun ch hch => ?_, (hc.typed hfailed).plainText_eq⟩
    obtain ⟨hallowed, hupper, hx⟩ := isEntryChar_iff.1 (hc.typed hfailed ch hch)
    refine ⟨hallowed, hx, ?_⟩
    rintro rfl
    cases hupper
  · intro cause session hout
    have htokens := hc.isOfTokens_of_evaluation? hout
    constructor
    · rintro rfl
      cases htokens
    · rintro ch rfl
      cases htokens

/-- Stored settings with too many places, a refused entry that is deleted, and a name
typed by its letter, with an operator that lacks an operand. -/
theorem entry_and_settings_of_refused_entry :
    let c := (withSettings ⟨40, true⟩).after [.press (.insert "sin("), .typeChar '2',
      .typeChar '=', .setPlaces 99, .press .delete, .typeChar 'p', .typeChar '+']
    c.IsReachable ∧
      (c.settings.places ≤ maxPlaces ∧ (withSettings c.settings).settings = c.settings) ∧
      (c.hasFailed = true ↔ c.entry = errorMarker) ∧
      (c.hasFailed = false ∧ plainText c.entry = c.entry) ∧
      ∃ cause session, c.evaluation? = some (.error cause, session) ∧ cause ≠ .emptyInput := by
  intro c
  have hreachable : c.IsReachable := ⟨_, _, by decide, rfl⟩
  have hfailed : c.hasFailed = false := by decide +kernel
  have hrefused : (c.evaluation?.map fun out => out.1.isOk) = some false := by decide +kernel
  obtain ⟨⟨-, hplaces, hsame, -⟩, hmarker, hplain, hcause⟩ :=
    entry_and_settings_of_isReachable hreachable
  refine ⟨hreachable, ⟨hplaces, hsame⟩, hmarker, ⟨hfailed, (hplain hfailed).2⟩, ?_⟩
  obtain ⟨⟨outcome, session⟩, hout, hok⟩ := Option.map_eq_some_iff.1 hrefused
  cases outcome with
  | ok e => cases hok
  | error cause => exact ⟨cause, session, hout, (hcause cause session hout).1⟩

end Calculator

end PostfixCalc

/-
# Typed texts

A typed character adds a fixed text to the entry line, and only the guard of the point key looks at
the line before. The guard does nothing as long as every point comes right after a digit, in a
number that has no other point; so a text with such points is entered as it is meant, and then
evaluated as a whole. And whatever points are typed among digits, operators and parentheses, the
guard leaves a line with such points.
-/
import PostfixCalc.Proofs.DecimalPoints
import PostfixCalc.Proofs.History

namespace PostfixCalc

/-! ## What typed characters write -/

namespace Key

/-- The text that a typed character is meant to add to the entry line: five letters stand for
names, with the parenthesis that follows the name of a function, and all other characters that the
keyboard knows for themselves. -/
def writing : Char → String
  | 'p' => "pi"
  | 's' => "sin("
  | 'c' => "cos("
  | 't' => "tan("
  | 'l' => "ln("
  | ch => if ch ∈ plainChars then String.singleton ch else ""

theorem writing_of_mem_plainChars {ch : Char} (hch : ch ∈ plainChars) :
    writing ch = String.singleton ch := by
  unfold writing
  split
  · exact absurd hch (by decide)
  · exact absurd hch (by decide)
  · exact absurd hch (by decide)
  · exact absurd hch (by decide)
  · exact absurd hch (by decide)
  · exact if_pos hch

/-- A typed character other than `=` is a key that adds its text, or no key for want of a text. -/
theorem ofChar?_eq {ch : Char} (hch : ch ≠ '=') :
    ofChar? ch = some (.insert (writing ch)) ∨ ofChar? ch = none ∧ writing ch = "" := by
  unfold ofChar?
  by_cases hplain : ch ∈ plainChars
  · rw [if_pos (List.contains_iff_mem.2 hplain), writing_of_mem_plainChars hplain]
    exact Or.inl rfl
  · rw [if_neg (mt List.contains_iff_mem.1 hplain)]
    split
    · exact absurd rfl hch
    · exact Or.inl rfl
    · exact Or.inl rfl
    · exact Or.inl rfl
    · exact Or.inl rfl
    · exact Or.inl rfl
    · refine Or.inr ⟨rfl, ?_⟩
      rw [writing, if_neg hplain]
      all_goals assumption

end Key

/-- The text that a typed text is meant to enter. -/
def writtenText (text : String) : String := String.join (text.toList.map Key.writing)

/-! ## Well-placed points -/

/-- Whether every point of a text comes right after a digit. -/
def PointsFollowDigits (text : String) : Prop :=
  ∀ us, us ++ ['.'] <+: text.toList → us.getLast?.any Char.isDigit

instance (text : String) : Decidable (PointsFollowDigits text) :=
  decidable_of_iff (∀ us ∈ text.toList.inits,
      us ++ ['.'] <+: text.toList → us.getLast?.any Char.isDigit)
    ⟨fun h us hus =>
      h us ((List.mem_inits _ _).2 ((List.prefix_append us ['.']).trans hus)) hus,
      fun h us _ => h us⟩

/-- A character may be added, a point only to a digit. -/
theorem PointsFollowDigits.push {line : String} (h : PointsFollowDigits line) {ch : Char}
    (hch : ch = '.' → line.toList.getLast?.any Char.isDigit) :
    PointsFollowDigits (line.push ch) := by
  intro us hus
  rw [String.toList_push, List.prefix_concat_iff] at hus
  rcases hus with heq | hus
  · obtain ⟨rfl, hpoint⟩ := List.append_inj' heq rfl
    exact hch (List.cons.inj hpoint).1.symm
  · exact h us hus

/-- A text has its points well placed: each comes right after a digit, and no maximal run of digits
and points has two. -/
structure IsWellPointed (text : String) : Prop where
  followDigits : PointsFollowDigits text
  single : ∀ run, Token.IsMaximalRun Token.isNumeral run text.toList → run.count '.' ≤ 1

theorem isWellPointed_iff {text : String} :
    IsWellPointed text ↔ PointsFollowDigits text ∧ HasSinglePoints text := by
  rw [hasSinglePoints_iff]
  exact ⟨fun h => ⟨h.followDigits, h.single⟩, fun h => ⟨h.1, h.2⟩⟩

instance (text : String) : Decidable (IsWellPointed text) :=
  decidable_of_iff _ isWellPointed_iff.symm

theorem isWellPointed_empty : IsWellPointed "" :=
  isWellPointed_iff.2 ⟨by decide, .empty⟩

/-! ## The guard of the point key -/

namespace Entry

variable {line : String}

theorem reverse_currentNumber_suffix (line : String) :
    (currentNumber line).reverse <:+ line.toList := by
  have hprefix : currentNumber line <+: line.toList.reverse := List.takeWhile_prefix _
  have hsuffix := List.reverse_suffix.2 hprefix
  rwa [List.reverse_reverse] at hsuffix

/-- A digit at the end of the line needs no zero after it. -/
theorem needsZero_eq_false (h : line.toList.getLast?.any Char.isDigit) : needsZero line = false := by
  unfold needsZero
  cases hlast : line.toList.getLast? with
  | none =>
    rw [hlast] at h
    cases h
  | some d =>
    rw [hlast, Option.any_some] at h
    have hother : ['+', '-', '*', '/', '%', '^', '(', ')'].all fun c => !c.isDigit := by decide
    refine Bool.eq_false_iff.2 fun hmem => ?_
    have hno := List.all_eq_true.1 hother d (List.contains_iff_mem.1 hmem)
    rw [h] at hno
    cases hno

/-- The guard lets a well-placed point pass, whatever comes after it. -/
theorem addPoint_eq {rest : String} (h : IsWellPointed (line ++ "." ++ rest)) :
    addPoint line = line ++ "." := by
  obtain ⟨hdigits, hsingle⟩ := isWellPointed_iff.1 h
  have htext : (line ++ "." ++ rest).toList = line.toList ++ ['.'] ++ rest.toList := by simp
  have hfree : ¬ (currentNumber line).contains '.' := by
    intro hmem
    -- otherwise that point and the new one are in one row of digits and points
    obtain ⟨us, hline⟩ := reverse_currentNumber_suffix line
    have hrun : (currentNumber line).reverse ++ ['.'] <:+: (line ++ "." ++ rest).toList :=
      ⟨us, rest.toList, by rw [htext, ← hline, ← List.append_assoc us]⟩
    have hcount := hsingle _ hrun fun c hc => by
      rcases List.mem_append.1 hc with hc | hc
      · exact List.mem_takeWhile_imp (List.mem_reverse.1 hc)
      · obtain rfl := List.mem_singleton.1 hc
        rfl
    have hpos : 0 < (currentNumber line).count '.' :=
      List.count_pos_iff.2 (List.contains_iff_mem.1 hmem)
    rw [List.count_append, List.count_reverse, List.count_singleton_self] at hcount
    omega
  have hdigit := hdigits line.toList ⟨rest.toList, htext.symm⟩
  rw [addPoint, if_neg hfree, needsZero_eq_false hdigit]
  rfl

/-- The line after a typed character other than `=`. -/
def typeChar (line : String) (ch : Char) : String := insert line (Key.writing ch)

/-- A row of characters is entered as it is meant, if all points are well placed then. -/
theorem foldl_typeChar_eq {chs : List Char}
    (h : IsWellPointed (line ++ String.join (chs.map Key.writing))) :
    chs.foldl typeChar line = line ++ String.join (chs.map Key.writing) := by
  induction chs generalizing line with
  | nil => exact String.append_empty.symm
  | cons ch chs ih =>
    rw [List.map_cons, String.join_cons, ← String.append_assoc] at h ⊢
    have hfirst : typeChar line ch = line ++ Key.writing ch := by
      unfold typeChar insert
      split_ifs with hpoint
      · rw [hpoint] at h ⊢
        exact addPoint_eq h
      · rfl
    rw [List.foldl_cons, hfirst, ih h]

/-! ## Plain lines -/

/-- A line of digits, points, operators and parentheses with its points well placed. -/
structure IsPlain (line : String) : Prop where
  chars : ∀ c ∈ line.toList, c ∈ Key.plainChars
  points : IsWellPointed line

/-- At the end of a plain line stands a digit, unless the guard is at work there: the line needs a
zero, or the number at its end has a point. -/
theorem IsPlain.endsInDigit (h : IsPlain line) (hzero : needsZero line = false)
    (hfree : '.' ∉ currentNumber line) : line.toList.getLast?.any Char.isDigit := by
  have hkinds : Key.plainChars.all fun c =>
      c.isDigit || c == '.' || ['+', '-', '*', '/', '%', '^', '(', ')'].contains c := by decide
  unfold needsZero at hzero
  cases hlast : line.toList.getLast? with
  | none =>
    rw [hlast] at hzero
    cases hzero
  | some d =>
    rw [hlast] at hzero
    change ['+', '-', '*', '/', '%', '^', '(', ')'].contains d = false at hzero
    have hkind := List.all_eq_true.1 hkinds d (h.chars d (List.mem_of_getLast? hlast))
    rw [hzero, Bool.or_false, Bool.or_eq_true, beq_iff_eq] at hkind
    refine hkind.resolve_right ?_
    rintro rfl
    obtain ⟨us, hus⟩ := List.getLast?_eq_some_iff.1 hlast
    have hsuffix : ['.'] <:+ line.toList := ⟨us, hus.symm⟩
    exact hfree (mem_currentNumber hsuffix (by simp [Token.isNumeral]) '.' List.mem_cons_self)

theorem IsPlain.empty : IsPlain "" := ⟨by simp, isWellPointed_empty⟩

/-- A character may be added to a plain line, a point only to a digit at the end of a number
without a point. -/
theorem IsPlain.push (h : IsPlain line) {ch : Char} (hch : ch ∈ Key.plainChars)
    (hpoint : ch = '.' → line.toList.getLast?.any Char.isDigit ∧ '.' ∉ currentNumber line) :
    IsPlain (line ++ String.singleton ch) := by
  obtain ⟨hdigits, hsingle⟩ := isWellPointed_iff.1 h.points
  refine ⟨fun c hc => ?_, isWellPointed_iff.2 ⟨?_, hsingle.append (.of_count ?_) ?_⟩⟩
  · rw [String.toList_append, String.toList_singleton, List.mem_append, List.mem_singleton] at hc
    rcases hc with hc | rfl
    · exact h.chars c hc
    · exact hch
  · rw [String.append_singleton]
    exact hdigits.push fun heq => (hpoint heq).1
  · rw [String.toList_singleton]
    exact List.count_le_length
  · by_cases heq : ch = '.'
    · exact Or.inl (hpoint heq).2
    · exact Or.inr (by simpa using Ne.symm heq)

/-- The guard leaves a plain line plain. -/
theorem IsPlain.addPoint (h : IsPlain line) : IsPlain (Entry.addPoint line) := by
  unfold Entry.addPoint
  by_cases hpoint : (currentNumber line).contains '.'
  · rw [if_pos hpoint]
    exact h
  · have hfree : '.' ∉ currentNumber line := fun hmem => hpoint (List.contains_iff_mem.2 hmem)
    have hpush : '.' ∈ Key.plainChars := by decide
    rw [if_neg hpoint]
    split_ifs with hzero
    · -- the zero goes on with the number at the end, which has no point, or begins a new one
      have hzeroed : IsPlain (line ++ String.singleton '0') := h.push (by decide) (by simp)
      have hfree' : '.' ∉ currentNumber (line ++ String.singleton '0') := by
        simpa [currentNumber, Token.isNumeral] using hfree
      have htext : line ++ "0." = line ++ String.singleton '0' ++ String.singleton '.' := by
        rw [String.append_assoc]
        rfl
      rw [htext]
      exact hzeroed.push hpush fun _ => ⟨by simp, hfree'⟩
    · exact h.push hpush fun _ => ⟨h.endsInDigit (Bool.eq_false_iff.2 hzero) hfree, hfree⟩

/-- A typed digit, point, operator or parenthesis leaves the line plain. -/
theorem IsPlain.typeChar (h : IsPlain line) {ch : Char} (hch : ch ∈ Key.plainChars) :
    IsPlain (Entry.typeChar line ch) := by
  unfold Entry.typeChar insert
  rw [Key.writing_of_mem_plainChars hch]
  split_ifs with hpoint
  · exact h.addPoint
  · refine h.push hch fun heq => absurd ?_ hpoint
    rw [heq]
    rfl

/-- So does a row of such characters. -/
theorem IsPlain.foldl_typeChar (h : IsPlain line) {chs : List Char}
    (hchs : ∀ ch ∈ chs, ch ∈ Key.plainChars) : IsPlain (chs.foldl Entry.typeChar line) := by
  induction chs generalizing line with
  | nil => exact h
  | cons ch chs ih =>
    rw [List.forall_mem_cons] at hchs
    exact ih (h.typeChar hchs.1) hchs.2

end Entry

/-! ## Typing on a calculator -/

namespace Calculator

variable {c : Calculator}

/-- Unless the entry line shows a refusal, a typed character other than `=` changes the line only. -/
theorem typeChar_eq (hfailed : c.hasFailed = false) {ch : Char} (hch : ch ≠ '=') :
    c.typeChar ch = { c with entry := Entry.typeChar c.entry ch } := by
  have hleave : c.leaveFailure = c := by
    rw [leaveFailure, hfailed]
    rfl
  unfold typeChar
  rcases Key.ofChar?_eq hch with hkey | ⟨hkey, hnothing⟩
  · rw [hkey]
    show c.insert (Key.writing ch) = _
    rw [insert, hleave]
    rfl
  · have hline : Entry.typeChar c.entry ch = c.entry := by
      rw [Entry.typeChar, hnothing]
      exact String.append_empty
    rw [hkey, hline]

/-- So does a row of such characters. -/
theorem foldl_typeChar_eq (hfailed : c.hasFailed = false) {chs : List Char} (hchs : '=' ∉ chs) :
    chs.foldl typeChar c = { c with entry := chs.foldl Entry.typeChar c.entry } := by
  induction chs generalizing c with
  | nil => rfl
  | cons ch chs ih =>
    rw [List.mem_cons, not_or] at hchs
    have hrest := ih (c := { c with entry := Entry.typeChar c.entry ch }) hfailed hchs.2
    rw [List.foldl_cons, typeChar_eq hfailed (Ne.symm hchs.1)]
    exact hrest

/-- **Typing a text without `=`** on a cleared calculator, whatever it showed before: if the points
of the text that is meant are well placed, then just this text is entered, and the key `=` shows the
reply of the session to it and leaves the session as that reply does. And if only digits, points,
operators and parentheses are typed, then the points of the entry line are well placed, wherever
they were typed. -/
theorem typing_after_clear (c : Calculator) {text : String} (htext : '=' ∉ text.toList) :
    let typed := (c.press .clear).typeText text
    (IsWellPointed (writtenText text) →
      typed.entry = writtenText text ∧
      (writtenText text ≠ "" →
        (typed.press .equals).display = (c.session.reply (writtenText text)).1 ∧
        (typed.press .equals).session = (c.session.reply (writtenText text)).2)) ∧
    ((∀ ch ∈ text.toList, ch ∈ Key.plainChars) → IsWellPointed typed.entry) := by
  intro typed
  have htyped : typed =
      { c with entry := text.toList.foldl Entry.typeChar "", hasFailed := false } :=
    foldl_typeChar_eq (c := c.clear) rfl htext
  rw [htyped]
  constructor
  · intro hpoints
    have hentry : text.toList.foldl Entry.typeChar "" = writtenText text := by
      have hline : "" ++ writtenText text = writtenText text := String.empty_append
      rw [← hline] at hpoints
      exact (Entry.foldl_typeChar_eq hpoints).trans hline
    rw [hentry]
    refine ⟨rfl, fun hne => ?_⟩
    have heffective :
        IsEffective { c with entry := writtenText text, hasFailed := false } (.press .equals) :=
      ⟨rfl, hne, rfl⟩
    obtain ⟨hdisplay, hsession, -⟩ := reply_of_isEffective heffective
    exact ⟨hdisplay, hsession⟩
  · intro hplain
    exact (Entry.IsPlain.empty.foldl_typeChar hplain).points

/-- After a refusal: a text with two short names and a character that the keyboard does not know,
and a text whose points are misplaced. -/
theorem typing_after_refusal :
    let c := ({} : Calculator).typeText "2+="
    let meant := "1.5*s0.25)#+p"
    let misplaced := ".5..+(.7"
    c.hasFailed = true ∧
    ('=' ∉ meant.toList ∧ IsWellPointed (writtenText meant) ∧
      ((c.press .clear).typeText meant).entry = "1.5*sin(0.25)+pi" ∧
      (((c.press .clear).typeText meant).press .equals).display =
        (c.session.reply "1.5*sin(0.25)+pi").1) ∧
    '=' ∉ misplaced.toList ∧ (∀ ch ∈ misplaced.toList, ch ∈ Key.plainChars) ∧
      ((c.press .clear).typeText misplaced).entry = "0.5+(0.7" ∧
      IsWellPointed ((c.press .clear).typeText misplaced).entry := by
  intro c meant misplaced
  have hmeant : '=' ∉ meant.toList := by decide
  have hmisplaced : '=' ∉ misplaced.toList := by decide
  have hall : misplaced.toList.all Key.plainChars.contains := by decide
  have hplain : ∀ ch ∈ misplaced.toList, ch ∈ Key.plainChars := fun ch hch =>
    List.contains_iff_mem.1 (List.all_eq_true.1 hall ch hch)
  have hwritten : writtenText meant = "1.5*sin(0.25)+pi" := by decide +kernel
  have hpoints : IsWellPointed (writtenText meant) := by decide +kernel
  obtain ⟨hentry, hreply⟩ := (typing_after_clear c hmeant).1 hpoints
  have hdisplay := (hreply (by rw [hwritten]; decide)).1
  rw [hwritten] at hentry hdisplay
  refine ⟨by decide +kernel, ⟨hmeant, hpoints, hentry, hdisplay⟩, hmisplaced, hplain, ?_,
    (typing_after_clear c hmisplaced).2 hplain⟩
  decide +kernel

end Calculator

end PostfixCalc

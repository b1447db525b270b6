/-
# Texts put together

A text may be cut at any place. Unless a run of digits and points, or one of letters, goes on
across the cut, the tokens of the text are those of the two parts. Where a run goes on, the last
token before the cut and the first one after it become one, and all others stay as they are. No
character is lost on the way but those that write no token.
-/
import Mathlib
import PostfixCalc.Proofs.Traces

namespace PostfixCalc

namespace Token

/-! ## Runs that go on -/

/-- A run of characters that satisfy `p` goes on from the text `s` to the text `t`. -/
def GoesOn (p : Char → Bool) (s t : String) : Prop :=
  ∃ a ∈ s.toList.getLast?, ∃ b ∈ t.toList.head?, p a ∧ p b

/-- The row `ws` is the row `us` and after it the row `vs`, where the last token of `us` and the
first one of `vs`, both of the same kind, have become one with both their texts. -/
def Joined (kind : String → Token) (us vs ws : List Token) : Prop :=
  ∃ ls x y rs, us = ls ++ [kind x] ∧ vs = kind y :: rs ∧ ws = ls ++ kind (x ++ y) :: rs

/-- A row ends with a longest run of elements that satisfy `p`. -/
theorem exists_run_at_end (p : Char → Bool) {cs : List Char} {a : Char}
    (ha : a ∈ cs.getLast?) (hpa : p a) :
    ∃ us run, cs = us ++ run ∧ run ≠ [] ∧ (∀ c ∈ run, p c) ∧ ∀ c ∈ us.getLast?, ¬ p c := by
  refine ⟨cs.rdropWhile p, cs.rtakeWhile p, List.rdropWhile_append_rtakeWhile.symm, ?_,
    fun c hc => List.mem_rtakeWhile_imp hc, fun c hc => ?_⟩
  · obtain ⟨us, rfl⟩ := List.getLast?_eq_some_iff.1 ha
    rw [List.rtakeWhile_concat_pos p us a hpa]
    exact List.append_ne_nil_of_right_ne_nil _ (List.cons_ne_nil a [])
  · obtain ⟨hne, rfl⟩ := List.mem_getLast?_eq_getLast hc
    exact List.rdropWhile_last_not p cs hne

/-- A row begins with a longest run of elements that satisfy `p`. -/
theorem exists_run_at_beginning (p : Char → Bool) {cs : List Char} {b : Char}
    (hb : b ∈ cs.head?) (hpb : p b) :
    ∃ run vs, cs = run ++ vs ∧ run ≠ [] ∧ (∀ c ∈ run, p c) ∧ ∀ c ∈ vs.head?, ¬ p c := by
  refine ⟨cs.takeWhile p, cs.dropWhile p, List.takeWhile_append_dropWhile.symm, ?_,
    fun c hc => List.mem_takeWhile_imp hc, fun c hc => ?_⟩
  · obtain ⟨vs, rfl⟩ := List.head?_eq_some_iff.1 hb
    rw [List.takeWhile_cons_of_pos hpb]
    exact List.cons_ne_nil b _
  · have hnot := List.head?_dropWhile_not p cs
    rw [Option.mem_def.1 hc] at hnot
    simpa using hnot

/-- Where a run goes on, the tokens beside the cut are joined. The run is cut off on both sides,
so that the texts before and after it are scanned apart from it. -/
theorem joined_of_goesOn {p : Char → Bool} {kind : String → Token} {s t : String}
    (hsame : ∀ a b, sameRun a b → p a = p b)
    (hscan : ∀ run, run ≠ [] → (∀ c ∈ run, p c) →
      scan (String.ofList run) = [kind (String.ofList run)])
    (h : GoesOn p s t) : Joined kind (scan s) (scan t) (scan (s ++ t)) := by
  obtain ⟨a, ha, b, hb, hpa, hpb⟩ := h
  obtain ⟨us, x, hs, hx, hpx, hus⟩ := exists_run_at_end p ha hpa
  obtain ⟨y, vs, ht, hy, hpy, hvs⟩ := exists_run_at_beginning p hb hpb
  -- a run is scanned apart from what stands before it and from what stands after it
  have hbefore : ∀ run, run ≠ [] → (∀ c ∈ run, p c) →
      scan (String.ofList (us ++ run)) = scan (String.ofList us) ++ [kind (String.ofList run)] := by
    intro run hrun hp
    rw [String.ofList_append, scan_append_of_ne hsame, hscan run hrun hp]
    intro c hc d hd heq
    rw [String.toList_ofList] at hc hd
    exact hus c hc (heq.trans (hp d (List.mem_of_mem_head? hd)))
  have hafter : ∀ row, (∀ c ∈ row.getLast?, p c) →
      scan (String.ofList (row ++ vs)) = scan (String.ofList row) ++ scan (String.ofList vs) := by
    intro row hrow
    rw [String.ofList_append, scan_append_of_ne hsame]
    intro c hc d hd heq
    rw [String.toList_ofList] at hc hd
    exact hvs d hd (heq.symm.trans (hrow c hc))
  have hlast : ∀ row : List Char, ∀ c ∈ (row ++ y).getLast?, p c := by
    intro row c hc
    rw [List.getLast?_append_of_ne_nil _ hy] at hc
    exact hpy c (List.mem_of_mem_getLast? hc)
  refine ⟨scan (String.ofList us), String.ofList x, String.ofList y, scan (String.ofList vs),
    ?_, ?_, ?_⟩
  · rw [← String.ofList_toList (s := s), hs, hbefore x hx hpx]
  · have hrow := hafter y (hlast [])
    rw [← String.ofList_toList (s := t), ht, hrow, hscan y hy hpy]
    rfl
  · have hxy : ∀ c ∈ x ++ y, p c := by
      intro c hc
      exact (List.mem_append.1 hc).elim (hpx c) (hpy c)
    have hwhole : s ++ t = String.ofList (us ++ x ++ y ++ vs) := by
      rw [← String.toList_inj]
      simp [hs, ht]
    rw [hwhole, hafter _ (hlast _), List.append_assoc,
      hbefore _ (List.append_ne_nil_of_right_ne_nil _ hy) hxy, String.ofList_append]
    exact List.append_assoc _ _ _

/-! ## Characters that are kept -/

/-- The characters that write a token of their own. -/
def symbols : List Char := ['+', '-', '*', '/', '%', '^', '(', ')', ',']

/-- Whether a character writes a token or a part of one. -/
def isWritten (c : Char) : Bool := isNumeral c || c.isAlpha || symbols.contains c

theorem isSome_ofSymbol? (c : Char) : (ofSymbol? c).isSome = symbols.contains c := by
  unfold ofSymbol?
  split
  · rfl
  · rfl
  · rfl
  · unfold BinaryOp.ofChar?
    split
    case h_7 => simp_all [symbols]
    all_goals rfl

/-- The characters of a run that write a token are the text of its token. -/
theorem flatMap_ofRun? {run : List Char} (hrun : run.IsChain fun a b => sameRun a b) :
    (ofRun? run).toList.flatMap (fun t => t.text.toList) = run.filter isWritten := by
  rcases eq_or_ne run [] with rfl | hne
  · rfl
  rcases run_cases hne hrun with hnumeral | hletter | ⟨c, halone, rfl⟩
  · rw [ofRun?_numeral hne hnumeral,
      List.filter_eq_self.2 fun c hc => by simp [isWritten, hnumeral c hc]]
    simp [text]
  · rw [ofRun?_letters hne hletter,
      List.filter_eq_self.2 fun c hc => by simp [isWritten, hletter c hc]]
    simp [text]
  · have hwritten : isWritten c = (ofSymbol? c).isSome := by
      simp only [standsAlone, Bool.and_eq_true, Bool.not_eq_true'] at halone
      simp [isWritten, halone, isSome_ofSymbol?]
    rw [ofRun?_of_standsAlone halone, List.filter_singleton, hwritten]
    cases ht : ofSymbol? c with
    | none => rfl
    | some t => simp [(text_of_ofSymbol? ht).1]

/-- The texts of the tokens, one after the other, are the text without the characters that write
no token. -/
theorem join_text_scan (s : String) :
    String.join ((scan s).map text) = String.ofList (s.toList.filter isWritten) := by
  rw [← String.toList_inj, String.toList_join, String.toList_ofList, List.flatMap_map,
    ← List.filterMap_eq_filter, List.filterMap_eq_flatMap_toList]
  refine flatMap_scan (fun run hrun => ?_) s
  rw [← List.filterMap_eq_flatMap_toList, List.filterMap_eq_filter, flatMap_ofRun? hrun]

/-! ## The tokens of a whole -/

/-- **The tokens of two texts put together** are the tokens of both, unless digits and points or
letters meet where they are put together: then the last token of the first text and the first one
of the second, both of them numbers or both of them names, become one with both their texts, and
all others stay. And in every text the tokens keep, in order, exactly the characters that write
one. -/
theorem scan_append_cases (s t : String) :
    (¬ GoesOn isNumeral s t → ¬ GoesOn Char.isAlpha s t → scan (s ++ t) = scan s ++ scan t) ∧
    (GoesOn isNumeral s t → Joined number (scan s) (scan t) (scan (s ++ t))) ∧
    (GoesOn Char.isAlpha s t → Joined name (scan s) (scan t) (scan (s ++ t))) ∧
    String.join ((scan s).map text) = String.ofList (s.toList.filter isWritten) := by
  refine ⟨fun hnumeral hletter => ?_, ?_, ?_, join_text_scan s⟩
  · refine scan_append fun a ha b hb => Bool.eq_false_iff.2 fun hsame => ?_
    rw [sameRun, Bool.or_eq_true, Bool.and_eq_true, Bool.and_eq_true] at hsame
    rcases hsame with hboth | hboth
    · exact hnumeral ⟨a, ha, b, hb, hboth⟩
    · exact hletter ⟨a, ha, b, hb, hboth⟩
  · exact joined_of_goesOn (fun a b hab => (eq_of_sameRun hab).1) fun run => scan_numeral
  · exact joined_of_goesOn (fun a b hab => (eq_of_sameRun hab).2) fun run => scan_letters

/-- A cut within a number, one within a name, and one between a letter and a digit. -/
theorem scan_append_cases_of_cuts :
    (GoesOn isNumeral "(1.5" ".2 é" ∧
      Joined number (scan "(1.5") (scan ".2 é") (scan "(1.5.2 é")) ∧
    (GoesOn Char.isAlpha "2*sq" "Rt(" ∧
      Joined name (scan "2*sq") (scan "Rt(") (scan "2*sqRt(")) ∧
    ¬ GoesOn isNumeral "2 pi" "3" ∧ ¬ GoesOn Char.isAlpha "2 pi" "3" ∧
      scan "2 pi3" = scan "2 pi" ++ scan "3" := by
  have hnumber : GoesOn isNumeral "(1.5" ".2 é" := ⟨'5', rfl, '.', rfl, rfl, rfl⟩
  have hname : GoesOn Char.isAlpha "2*sq" "Rt(" := ⟨'q', rfl, 'R', rfl, rfl, rfl⟩
  have hnumeral : ¬ GoesOn isNumeral "2 pi" "3" := by
    rintro ⟨a, ha, b, -, hpa, -⟩
    obtain rfl : 'i' = a := by simpa using ha
    cases hpa
  have hletter : ¬ GoesOn Char.isAlpha "2 pi" "3" := by
    rintro ⟨a, -, b, hb, -, hpb⟩
    obtain rfl : '3' = b := by simpa using hb
    cases hpb
  obtain ⟨-, hjoined, -, -⟩ := scan_append_cases "(1.5" ".2 é"
  obtain ⟨-, -, hjoined', -⟩ := scan_append_cases "2*sq" "Rt("
  obtain ⟨hapart, -, -, -⟩ := scan_append_cases "2 pi" "3"
  exact ⟨⟨hnumber, hjoined hnumber⟩, ⟨hname, hjoined' hname⟩, hnumeral, hletter,
    hapart hnumeral hletter⟩

end Token

end PostfixCalc

/-
# Scanning a text in parts

A text may be cut between two characters that do not belong to one token: the tokens of
the text are then those of the parts. So a character that writes a token of its own is
found again at the end of the row or at its beginning, and a maximal run of digits and
points is one number, a maximal run of letters one name.
-/
import Mathlib
import PostfixCalc.Evaluation
import PostfixCalc.Proofs.Digits

namespace PostfixCalc

/-! ## Characters of a text -/

/-- A text passes the allow-list if it is not empty and all its characters are allowed. -/
theorem checkAllowed_eq_ok_iff {s : String} :
    checkAllowed s = .ok () ↔ s.toList ≠ [] ∧ ∀ c ∈ s.toList, isAllowed c := by
  have hempty : s.isEmpty = true ↔ s.toList = [] := by
    rw [String.isEmpty_iff, ← String.toList_inj]
    rfl
  rw [checkAllowed]
  split_ifs with hs
  · simp [hempty.1 hs]
  · have hne : s.toList ≠ [] := fun h => hs (hempty.2 h)
    cases hfind : s.toList.find? fun c => !isAllowed c with
    | some c =>
      have hc : isAllowed c = false := by simpa using List.find?_some hfind
      have hmem := List.mem_of_find?_eq_some hfind
      simp only [reduceCtorEq, false_iff, not_and, not_forall]
      exact fun _ => ⟨c, hmem, by simp [hc]⟩
    | none =>
      rw [List.find?_eq_none] at hfind
      simp only [true_iff]
      exact ⟨hne, fun c hc => by simpa using hfind c hc⟩

theorem toList_plainText (s : String) : (plainText s).toList = s.toList.map plainChar :=
  String.toList_map

/-- A text without glyphs is plain already. -/
theorem plainText_eq_self {s : String} (h : ∀ c ∈ s.toList, plainChar c = c) :
    plainText s = s := by
  rw [← String.toList_inj, toList_plainText]
  exact (List.map_congr_left h).trans (List.map_id _)

theorem plainText_append (s t : String) : plainText (s ++ t) = plainText s ++ plainText t := by
  rw [← String.toList_inj]
  simp [toList_plainText]

namespace Token

/-! ## Cutting a text -/

/-- A text may be cut between two characters that do not belong to one token. -/
theorem scan_append {s t : String}
    (h : ∀ a ∈ s.toList.getLast?, ∀ b ∈ t.toList.head?, sameRun a b = false) :
    scan (s ++ t) = scan s ++ scan t := by
  rw [scan, String.toList_append, List.splitBy_append h, List.filterMap_append]
  rfl

/-- So it may be cut between two characters that differ in a property which does not change
within a token. -/
theorem scan_append_of_ne {p : Char → Bool} (hsame : ∀ a b, sameRun a b → p a = p b)
    {s t : String} (h : ∀ a ∈ s.toList.getLast?, ∀ b ∈ t.toList.head?, p a ≠ p b) :
    scan (s ++ t) = scan s ++ scan t := by
  refine scan_append fun a ha b hb => ?_
  rw [Bool.eq_false_iff]
  exact fun hab => h a ha b hb (hsame a b hab)

/-- Its plain form may be cut there, too. -/
theorem scan_plainText_cut {s t : String}
    (h : ∀ a ∈ s.toList.getLast?, ∀ b ∈ t.toList.head?,
      sameRun (plainChar a) (plainChar b) = false) :
    scan (plainText (s ++ t)) = scan (plainText s) ++ scan (plainText t) := by
  rw [plainText_append, scan_append]
  intro a ha b hb
  rw [toList_plainText, List.getLast?_map, Option.mem_map] at ha
  rw [toList_plainText, List.head?_map, Option.mem_map] at hb
  obtain ⟨a, ha, rfl⟩ := ha
  obtain ⟨b, hb, rfl⟩ := hb
  exact h a ha b hb

/-- Whether a character belongs to no longer run: it is neither a letter, nor can it
belong to a number. -/
def standsAlone (c : Char) : Bool := !isNumeral c && !c.isAlpha

theorem sameRun_of_standsAlone {a b : Char} (h : standsAlone a ∨ standsAlone b) :
    sameRun a b = false := by
  simp only [standsAlone, Bool.and_eq_true, Bool.not_eq_true'] at h
  rcases h with ⟨hnumeral, hletter⟩ | ⟨hnumeral, hletter⟩
  all_goals simp [sameRun, hnumeral, hletter]

/-- A row of characters that belong to one token is that token. -/
theorem scan_of_isChain {run : List Char} {t : Token}
    (hrun : run.IsChain fun a b => sameRun a b) (ht : ofRun? run = some t) :
    scan (String.ofList run) = [t] := by
  have hne : run ≠ [] := by
    rintro rfl
    cases ht
  rw [scan, String.toList_ofList, List.splitBy_of_isChain hne hrun, List.filterMap_cons, ht]
  rfl

theorem scan_singleton {c : Char} {t : Token} (hc : ofRun? [c] = some t) :
    scan (String.ofList [c]) = [t] :=
  scan_of_isChain (List.isChain_singleton c) hc

/-- A space writes no token, but it separates those beside it. -/
theorem scan_append_space (s t : String) : scan (s ++ " " ++ t) = scan s ++ scan t := by
  have hspace : scan " " = [] := by decide +kernel
  rw [scan_append, scan_append, hspace, List.append_nil]
  · intro a _ b hb
    obtain rfl : ' ' = b := by simpa using hb
    exact sameRun_of_standsAlone (Or.inr (by decide))
  · intro a ha b _
    obtain rfl : ' ' = a := by simpa using ha
    exact sameRun_of_standsAlone (Or.inl (by decide))

/-- The token of a character that stands alone at the end is the last one. -/
theorem getLast?_scan {s : String} {c : Char} {t : Token} (hs : s.toList.getLast? = some c)
    (halone : standsAlone c) (hc : ofRun? [c] = some t) : (scan s).getLast? = some t := by
  obtain ⟨us, hus⟩ := List.getLast?_eq_some_iff.1 hs
  have hcut : s = String.ofList us ++ String.ofList [c] := by
    rw [← String.toList_inj]
    simp [hus]
  rw [hcut, scan_append, scan_singleton hc, List.getLast?_concat]
  intro a _ b hb
  obtain rfl : c = b := by simpa using hb
  exact sameRun_of_standsAlone (Or.inr halone)

/-- The token of a character that stands alone at the beginning is the first one. -/
theorem head?_scan {s : String} {c : Char} {t : Token} (hs : s.toList.head? = some c)
    (halone : standsAlone c) (hc : ofRun? [c] = some t) : (scan s).head? = some t := by
  obtain ⟨us, hus⟩ := List.head?_eq_some_iff.1 hs
  have hcut : s = String.ofList [c] ++ String.ofList us := by
    rw [← String.toList_inj]
    simp [hus]
  rw [hcut, scan_append, scan_singleton hc]
  · rfl
  · intro a ha b _
    obtain rfl : c = a := by simpa using ha
    exact sameRun_of_standsAlone (Or.inl halone)

/-! ## Numerals -/

variable {cs : List Char}

theorem ofRun?_numeral (hne : cs ≠ []) (hcs : ∀ c ∈ cs, isNumeral c) :
    ofRun? cs = some (number (String.ofList cs)) := by
  cases cs with
  | nil => exact absurd rfl hne
  | cons c cs => rw [ofRun?, if_pos (hcs c List.mem_cons_self)]

/-- A text of digits and points is one number. -/
theorem scan_numeral (hne : cs ≠ []) (hcs : ∀ c ∈ cs, isNumeral c) :
    scan (String.ofList cs) = [number (String.ofList cs)] := by
  refine scan_of_isChain (List.Pairwise.isChain ?_) (ofRun?_numeral hne hcs)
  refine List.pairwise_of_forall_mem_list fun a ha b hb => ?_
  rw [sameRun, hcs a ha, hcs b hb]
  rfl

/-- A minus and a text of digits and points are an operator and one number. -/
theorem scan_minus_numeral (hne : cs ≠ []) (hcs : ∀ c ∈ cs, isNumeral c) :
    scan (String.ofList ('-' :: cs)) =
      [operator (.binary .sub), number (String.ofList cs)] := by
  have hcut : String.ofList ('-' :: cs) = String.ofList ['-'] ++ String.ofList cs := by
    rw [← String.toList_inj]
    simp
  have hminus : ofRun? ['-'] = some (operator (.binary .sub)) := by decide
  rw [hcut, scan_append, scan_singleton hminus, scan_numeral hne hcs]
  · rfl
  · intro a ha b _
    obtain rfl : '-' = a := by simpa using ha
    exact sameRun_of_standsAlone (Or.inl (by decide))

/-! ## Maximal runs -/

/-- The characters `run` are a longest run of characters satisfying `p` in the row `cs`. -/
def IsMaximalRun (p : Char → Bool) (run cs : List Char) : Prop :=
  run ≠ [] ∧ (∀ c ∈ run, p c) ∧
    ∃ us vs, cs = us ++ run ++ vs ∧ (∀ c ∈ us.getLast?, ¬ p c) ∧ ∀ c ∈ vs.head?, ¬ p c

/-- Every row of neighbouring characters satisfying `p` is part of a longest one. -/
theorem exists_isMaximalRun_of_infix {p : Char → Bool} {run cs : List Char} (hne : run ≠ [])
    (hp : ∀ c ∈ run, p c) (h : run <:+: cs) :
    ∃ longest, IsMaximalRun p longest cs ∧ run <:+: longest := by
  obtain ⟨us, vs, rfl⟩ := h
  refine ⟨us.rtakeWhile p ++ run ++ vs.takeWhile p, ⟨by simp [hne], ?_, us.rdropWhile p,
    vs.dropWhile p, ?_, ?_, ?_⟩, List.infix_append _ _ _⟩
  · intro c hc
    rcases List.mem_append.1 hc with hc | hc
    · rcases List.mem_append.1 hc with hc | hc
      · exact List.mem_rtakeWhile_imp hc
      · exact hp c hc
    · exact List.mem_takeWhile_imp hc
  · calc
      us ++ run ++ vs
          = us.rdropWhile p ++ us.rtakeWhile p ++ run ++ (vs.takeWhile p ++ vs.dropWhile p) := by
        rw [List.rdropWhile_append_rtakeWhile, List.takeWhile_append_dropWhile]
      _ = us.rdropWhile p ++ (us.rtakeWhile p ++ run ++ vs.takeWhile p) ++ vs.dropWhile p := by
        simp only [List.append_assoc]
  · intro c hc
    obtain ⟨hlast, rfl⟩ := List.mem_getLast?_eq_getLast hc
    exact List.rdropWhile_last_not p us hlast
  · intro c hc
    have hrest := List.ne_nil_of_mem (List.mem_of_mem_head? hc)
    have hfirst := List.head_dropWhile_not p hrest
    rw [(List.head_eq_iff_head?_eq_some hrest).2 hc] at hfirst
    exact Bool.eq_false_iff.1 hfirst

/-- A maximal run of characters that belong to one token, and to no token with any other
character, writes a token of the text. -/
theorem mem_scan_of_isMaximalRun {p : Char → Bool} {run : List Char} {s : String} {t : Token}
    (hsame : ∀ a b, sameRun a b → p a = p b) (hrun : ∀ a b, p a → p b → sameRun a b)
    (h : IsMaximalRun p run s.toList) (ht : ofRun? run = some t) : t ∈ scan s := by
  obtain ⟨hne, hp, us, vs, hs, hus, hvs⟩ := h
  have hcut : s = String.ofList us ++ String.ofList run ++ String.ofList vs := by
    rw [← String.toList_inj]
    simp [hs]
  have hwhole : scan (String.ofList run) = [t] := by
    have hchain : run.IsChain fun a b => sameRun a b :=
      (List.pairwise_of_forall_mem_list fun a ha b hb =>
        hrun a b (hp a ha) (hp b hb)).isChain
    exact scan_of_isChain hchain ht
  have hleft : scan (String.ofList us ++ String.ofList run) =
      scan (String.ofList us) ++ scan (String.ofList run) := by
    refine scan_append_of_ne hsame fun a ha b hb heq => ?_
    rw [String.toList_ofList] at ha hb
    exact hus a ha (heq.trans (hp b (List.mem_of_mem_head? hb)))
  have hright : scan (String.ofList us ++ String.ofList run ++ String.ofList vs) =
      scan (String.ofList us ++ String.ofList run) ++ scan (String.ofList vs) := by
    refine scan_append_of_ne hsame fun a ha b hb heq => ?_
    rw [String.toList_append, String.toList_ofList, String.toList_ofList,
      List.getLast?_append_of_ne_nil _ hne] at ha
    rw [String.toList_ofList] at hb
    exact hvs b hb (heq.symm.trans (hp a (List.mem_of_mem_getLast? ha)))
  rw [hcut, hright, hleft, hwhole]
  simp

theorem isAlpha_eq_false_of_isNumeral {c : Char} (hc : isNumeral c) : c.isAlpha = false := by
  rw [isNumeral, Bool.or_eq_true, beq_iff_eq] at hc
  rcases hc with hc | rfl
  · exact isAlpha_eq_false_of_isDigit hc
  · rfl

theorem isNumeral_eq_false_of_isAlpha {c : Char} (hc : c.isAlpha) : isNumeral c = false := by
  rw [Bool.eq_false_iff]
  intro hnumeral
  rw [isAlpha_eq_false_of_isNumeral hnumeral] at hc
  cases hc

theorem ofRun?_letters (hne : cs ≠ []) (hcs : ∀ c ∈ cs, c.isAlpha) :
    ofRun? cs = some (name (String.ofList cs)) := by
  obtain ⟨c, cs, rfl⟩ := List.exists_cons_of_ne_nil hne
  have hletter := hcs c List.mem_cons_self
  have hnumeral := isNumeral_eq_false_of_isAlpha hletter
  rw [ofRun?, if_neg (Bool.eq_false_iff.1 hnumeral), if_pos hletter]

/-- A text of letters is one name. -/
theorem scan_letters (hne : cs ≠ []) (hcs : ∀ c ∈ cs, c.isAlpha) :
    scan (String.ofList cs) = [name (String.ofList cs)] := by
  refine scan_of_isChain (List.Pairwise.isChain ?_) (ofRun?_letters hne hcs)
  refine List.pairwise_of_forall_mem_list fun a ha b hb => ?_
  rw [sameRun, hcs a ha, hcs b hb, Bool.and_true, Bool.or_true]

/-- Digits and points belong to one token with digits and points only, and letters with
letters only. -/
theorem eq_of_sameRun {a b : Char} (h : sameRun a b) :
    isNumeral a = isNumeral b ∧ a.isAlpha = b.isAlpha := by
  rw [sameRun, Bool.or_eq_true, Bool.and_eq_true, Bool.and_eq_true] at h
  rcases h with ⟨ha, hb⟩ | ⟨ha, hb⟩
  · rw [ha, hb, isAlpha_eq_false_of_isNumeral ha, isAlpha_eq_false_of_isNumeral hb]
    exact ⟨rfl, rfl⟩
  · rw [ha, hb, isNumeral_eq_false_of_isAlpha ha, isNumeral_eq_false_of_isAlpha hb]
    exact ⟨rfl, rfl⟩

/-- If the first character of a run has a property that does not change within a token,
then so have all. -/
theorem forall_mem_of_isChain {p : Char → Bool} (hp : ∀ a b, sameRun a b → p a = p b)
    {c : Char} {cs : List Char} (hrun : (c :: cs).IsChain fun a b => sameRun a b)
    (hc : p c) : ∀ d ∈ c :: cs, p d := by
  refine hrun.induction (fun d => p d = true) _ ?_ fun _ => hc
  intro a b hab ha
  rw [← hp a b hab, ha]

/-- A run consists of digits and points, of letters, or of one character that stands alone. -/
theorem run_cases {run : List Char} (hne : run ≠ [])
    (hrun : run.IsChain fun a b => sameRun a b) :
    (∀ c ∈ run, isNumeral c) ∨ (∀ c ∈ run, c.isAlpha) ∨ ∃ c, standsAlone c ∧ run = [c] := by
  obtain ⟨c, cs, rfl⟩ := List.exists_cons_of_ne_nil hne
  by_cases hnumeral : isNumeral c
  · exact Or.inl (forall_mem_of_isChain (fun a b hab => (eq_of_sameRun hab).1) hrun hnumeral)
  by_cases hletter : c.isAlpha
  · exact Or.inr (Or.inl
      (forall_mem_of_isChain (fun a b hab => (eq_of_sameRun hab).2) hrun hletter))
  have halone : standsAlone c := by simp [standsAlone, hnumeral, hletter]
  rcases cs with _ | ⟨d, ds⟩
  · exact Or.inr (Or.inr ⟨c, halone, rfl⟩)
  · have hsame := (List.isChain_cons_cons.1 hrun).1
    rw [sameRun_of_standsAlone (Or.inl halone)] at hsame
    cases hsame

/-- A character that stands alone writes the token of its symbol, if there is one. -/
theorem ofRun?_of_standsAlone {c : Char} (hc : standsAlone c) : ofRun? [c] = ofSymbol? c := by
  simp only [standsAlone, Bool.and_eq_true, Bool.not_eq_true'] at hc
  simp [ofRun?, hc]

/-- What is read off the tokens of a text is read off its characters, if this is so for the
characters of one run. -/
theorem flatMap_scan {β : Type*} {f : Token → List β} {g : Char → List β}
    (hfg : ∀ run, (run.IsChain fun a b => sameRun a b) →
      (ofRun? run).toList.flatMap f = run.flatMap g) (s : String) :
    (scan s).flatMap f = s.toList.flatMap g := by
  calc (scan s).flatMap f
      = (s.toList.splitBy sameRun).flatMap fun run => (ofRun? run).toList.flatMap f := by
        rw [scan, List.filterMap_eq_flatMap_toList, List.flatMap_assoc]
    _ = (s.toList.splitBy sameRun).flatMap fun run => (id run).flatMap g :=
        List.flatMap_congr fun run hrun => hfg run (List.isChain_of_mem_splitBy hrun)
    _ = ((s.toList.splitBy sameRun).flatMap id).flatMap g := List.flatMap_assoc.symm
    _ = s.toList.flatMap g := by rw [List.flatMap_id, List.flatten_splitBy]

/-- A maximal run of digits and points is one number. -/
theorem number_mem_scan {run : List Char} {s : String}
    (h : IsMaximalRun isNumeral run s.toList) : number (String.ofList run) ∈ scan s := by
  refine mem_scan_of_isMaximalRun (fun a b hab => (eq_of_sameRun hab).1) ?_ h ?_
  · intro a b ha hb
    simp [sameRun, ha, hb]
  · exact ofRun?_numeral h.1 h.2.1

/-- A maximal run of letters is one name. -/
theorem name_mem_scan {run : List Char} {s : String}
    (h : IsMaximalRun Char.isAlpha run s.toList) : name (String.ofList run) ∈ scan s := by
  refine mem_scan_of_isMaximalRun (fun a b hab => (eq_of_sameRun hab).2) ?_ h ?_
  · intro a b ha hb
    simp [sameRun, ha, hb]
  · exact ofRun?_letters h.1 h.2.1

end Token

end PostfixCalc

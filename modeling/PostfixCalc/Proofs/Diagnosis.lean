/-
# Which cause is reported for rows with unknown names

The main statement is that a row that holds an unknown name is refused for one of its
unknown names, unless it hides a name, and then an operator is said to lack an operand. The
induction follows the extended grammar and speaks of every place that an expression can have
in a longer row: whatever waits below, and whatever the machine has computed. It keeps track
of what the part of the row passed so far can still become, and an operator or a closing
parenthesis that follows turns each of these outcomes into another one.
-/
import Mathlib
import PostfixCalc.Proofs.UnknownNames

namespace PostfixCalc

open Category

/-! ## What can come next -/

/-- Whether a row can follow an expression of a category: only an atom is raised to a power. -/
def CanFollow (k : Category) (vs : List Token) : Prop :=
  ∀ t ∈ vs.head?, t.followsOperand ∧ (t = .operator (.binary .pow) → k = .atom)

theorem CanFollow.mono {k k' : Category} {vs : List Token} (h : CanFollow k vs)
    (hk : k = .atom → k' = .atom) : CanFollow k' vs := fun t ht =>
  ⟨(h t ht).1, fun hpow => hk ((h t ht).2 hpow)⟩

/-! ## What a row can lead to -/

/-- Whether waiting tokens are operators that bind at least as tightly as a category. -/
def HeldBy (k : Category) (held : List Token) : Prop :=
  ∀ t ∈ held, ∃ op : Operator, t = .operator op ∧ k.level ≤ op.precedence

theorem HeldBy.mono {k k' : Category} {held : List Token} (h : HeldBy k' held)
    (hlevel : k.level ≤ k'.level) : HeldBy k held := by
  intro t ht
  obtain ⟨op, rfl, hop⟩ := h t ht
  exact ⟨op, rfl, hlevel.trans hop⟩

theorem heldBy_nil (k : Category) : HeldBy k [] := by
  intro t ht
  cases ht

theorem HeldBy.concat {k : Category} {held : List Token} (h : HeldBy k held) {op : Operator}
    (hop : k.level ≤ op.precedence) : HeldBy k (held ++ [.operator op]) :=
  List.forall_mem_append.2 ⟨h, List.forall_mem_singleton.2 ⟨op, rfl, hop⟩⟩

/-- What can become of a yard that expects an operand, above the tokens `below` and with the
stack `s` computed, while it passes a row of category `k`. -/
inductive Outcome (k : Category) (ts : List Token) (s : Stack) (below : List Token) :
    Yard → Prop where
  /-- Without unknown names the row leaves one value, once all of it has been sent out. -/
  | whole {out held s' x} : (∀ name, ¬ HoldsUnknown ts name) → HeldBy k held →
      computed out = .ok s' → s'.run held = .ok (x :: s) →
      Outcome k ts s below ⟨out, held ++ below, false⟩
  /-- An unknown name waits, and the operators above it find their operands. -/
  | blocked {out held name rest s' s''} : HoldsUnknown ts name → HeldBy k held →
      computed out = .ok s' → s'.run held = .ok s'' → s'' ≠ [] →
      Outcome k ts s below ⟨out, held ++ .name name.toLower :: rest, false⟩
  /-- The row ends with an unknown name. -/
  | ended {out before name rest s'} : ts = before ++ [.name name] → IsUnknown name →
      computed out = .ok s' → (s' = [] → s = [] ∧ ∀ t ∈ before, t.canWait) →
      Outcome k ts s below ⟨out, .name name.toLower :: rest, true⟩
  /-- An unknown name has been sent out. -/
  | failed {y name} : HoldsUnknown ts name →
      computed y.output = .error (.unknownFunction name.toLower) → Outcome k ts s below y
  /-- An unknown name is hidden. -/
  | hidden {y} : s = [] → (∀ vs, CanFollow k vs → Hides (ts ++ vs)) → Outcome k ts s below y

/-- Whatever the yard holds and the machine has computed, a row has one of these outcomes. -/
def Leads (k : Category) (ts : List Token) : Prop :=
  ∀ out below s, computed out = .ok s → k.RestsOn below →
    Outcome k ts s below ((⟨out, below, true⟩ : Yard).passAll ts)

/-- The outcome of a row with more tokens in front of it, once it is known what becomes of it
if the row leaves a value. -/
theorem Outcome.embed {k k' : Category} {ts : List Token} {s s₁ : Stack}
    {below base : List Token} {y : Yard} (h : Outcome k' ts s₁ base y) (before : List Token)
    (hk : k = .atom → k' = .atom) (hlevel : k.level ≤ k'.level)
    (hempty : s₁ = [] → s = [] ∧ ∀ t ∈ before, t.canWait)
    (hwhole : ∀ {out held s' x}, (∀ name, ¬ HoldsUnknown ts name) → HeldBy k' held →
      computed out = .ok s' → s'.run held = .ok (x :: s₁) →
      Outcome k (before ++ ts) s below ⟨out, held ++ base, false⟩) :
    Outcome k (before ++ ts) s below y := by
  have hsub : ts ⊆ before ++ ts := List.subset_append_right before ts
  cases h with
  | whole hknown hheld hout hrun => exact hwhole hknown hheld hout hrun
  | blocked hname hheld hout hrun hne =>
    exact .blocked (hname.mono hsub) (hheld.mono hlevel) hout hrun hne
  | @ended out us name rest s' hts hname hout hs =>
    have hrow : before ++ ts = before ++ us ++ [.name name] := by rw [hts, List.append_assoc]
    refine .ended hrow hname hout fun hs' => ?_
    obtain ⟨hs₁, hus⟩ := hs hs'
    obtain ⟨hs, hbefore⟩ := hempty hs₁
    exact ⟨hs, List.forall_mem_append.2 ⟨hbefore, hus⟩⟩
  | failed hname hout => exact .failed (hname.mono hsub) hout
  | hidden hs hhides =>
    obtain ⟨hs, hbefore⟩ := hempty hs
    refine .hidden hs fun vs hvs => ?_
    rw [List.append_assoc]
    exact (hhides vs (hvs.mono hk)).append_left hbefore

theorem run_concat_binary {s s' : Stack} {held : List Token} {x y : Float}
    (h : s.run held = .ok (y :: x :: s')) (op : BinaryOp) :
    s.run (held ++ [.operator (.binary op)]) = .ok (op.meaning x y :: s') := by
  rw [Stack.run_concat, h]
  exact Stack.step_binary op x y s'

namespace Leads

variable {k k' kl kr : Category} {op : BinaryOp} {ts us : List Token}

theorem mono (h : Leads k' ts) (hk : k = .atom → k' = .atom) (hlevel : k.level ≤ k'.level) :
    Leads k ts := by
  intro out below s hout hbelow
  have hrow := h out below s hout (hbelow.mono hlevel)
  exact hrow.embed [] hk hlevel (fun hs => ⟨hs, by simp⟩)
    fun hknown hheld hout hrun => .whole hknown (hheld.mono hlevel) hout hrun

/-- A token that is sent out at once, and pushes a value. -/
theorem sent {t u : Token} (hpass : ∀ out below,
      (⟨out, below, true⟩ : Yard).pass t = ⟨u :: out, below, false⟩)
    (hstep : ∀ s : Stack, ∃ x, s.step u = .ok (x :: s)) (hknown : ∀ name, ¬ HoldsUnknown [t] name) :
    Leads .atom [t] := by
  intro out below s hout _
  obtain ⟨x, hx⟩ := hstep s
  have hcomputed : computed (u :: out) = .ok (x :: s) := by
    refine (computed_append hout [u]).trans ?_
    rw [Stack.run_cons, hx]
    rfl
  rw [Yard.passAll_cons, Yard.passAll_nil, hpass, ← List.nil_append below]
  exact .whole hknown (heldBy_nil _) hcomputed rfl

/-- An unknown name alone. -/
theorem unknown {name : String} (h : IsUnknown name) : Leads .atom [.name name] := by
  intro out below s hout _
  rw [Yard.passAll_cons, Yard.passAll_nil, Yard.pass_unknown h]
  exact .ended (List.nil_append _).symm h hout fun hs => ⟨hs, by simp⟩

/-- A sign waits below all operators of its operand, and applies to the value that it leaves. -/
theorem minus (h : Leads .signed ts) : Leads .signed (.operator (.binary .sub) :: ts) := by
  intro out below s hout _
  have hneg : Category.signed.RestsOn (.operator .neg :: below) :=
    restsOn_operator (k := .signed) (fun _ h => Operator.goesBefore_of_tight h) below
  have hrow := h out _ s hout hneg
  refine hrow.embed [.operator (.binary .sub)] id le_rfl
    (fun hs => ⟨hs, by simp [Token.canWait]⟩) ?_
  intro out' held s' x hknown hheld hout' hrun
  have hall : s'.run (held ++ [.operator .neg]) = .ok (-x :: s) := by
    rw [Stack.run_append, hrun]
    rfl
  rw [List.append_cons]
  refine .whole (fun name => by simpa using hknown name) ?_ hout' hall
  exact hheld.concat le_rfl

theorem plus (h : Leads .signed ts) : Leads .signed (.operator (.binary .add) :: ts) := by
  intro out below s hout hbelow
  have hrow := h out below s hout hbelow
  refine hrow.embed [.operator (.binary .add)] id le_rfl
    (fun hs => ⟨hs, by simp [Token.canWait]⟩) ?_
  intro out' held s' x hknown hheld hout' hrun
  refine .whole (fun name => by simpa using hknown name) hheld hout' hrun

/-- The outcome of the right side of an operator is one of the whole row. -/
theorem operate {out base : List Token} {s s'' : Stack} {below : List Token} (hr : Leads kr us)
    (hkr : k.level ≤ kr.level) (hk : k ≠ .atom)
    (hafter : ∀ later : Operator, kr.level ≤ later.precedence →
      (Operator.binary op).goesBefore later = false)
    (hout : computed out = .ok s'') (hempty : s'' = [] → s = [] ∧ ∀ t ∈ ts, t.canWait)
    (hwhole : ∀ {out' held s' x}, (∀ name, ¬ HoldsUnknown us name) → HeldBy kr held →
      computed out' = .ok s' → s'.run held = .ok (x :: s'') →
      Outcome k (ts ++ .operator (.binary op) :: us) s below
        ⟨out', held ++ .operator (.binary op) :: base, false⟩) :
    Outcome k (ts ++ .operator (.binary op) :: us) s below
      ((⟨out, .operator (.binary op) :: base, true⟩ : Yard).passAll us) := by
  have hright := hr out _ s'' hout (restsOn_operator hafter base)
  have hrow : ts ++ .operator (.binary op) :: us = ts ++ [.operator (.binary op)] ++ us := by simp
  rw [hrow] at hwhole ⊢
  refine hright.embed _ (fun h => absurd h hk) hkr (fun hs => ?_) hwhole
  obtain ⟨hs, hts⟩ := hempty hs
  exact ⟨hs, List.forall_mem_append.2 ⟨hts, List.forall_mem_singleton.2 rfl⟩⟩

/-- A row that goes on after an unknown name. A plus or a minus there is a sign of the right
side; any other operator is going to lack an operand if nothing has been computed. -/
theorem after_unknown {out before rest below : List Token} {name : String} {s s' : Stack}
    (hr : Leads kr us) (hk : k ≠ .atom) (hkr : k.level ≤ kr.level)
    (hop : k.level ≤ (Operator.binary op).precedence)
    (hafter : ∀ later : Operator, kr.level ≤ later.precedence →
      (Operator.binary op).goesBefore later = false)
    (hminus : op = .sub → Leads kr (.operator (.binary .sub) :: us))
    (hderives : op ≠ .add ∧ op ≠ .sub → (∀ name, ¬ HoldsUnknown us name) →
      ∃ e, Derives .signed us e)
    (hname : IsUnknown name) (hout : computed out = .ok s')
    (hempty : s' = [] → s = [] ∧ ∀ t ∈ before, t.canWait) :
    Outcome k (before ++ [.name name] ++ .operator (.binary op) :: us) s below
      ((⟨out, .name name.toLower :: rest, true⟩ : Yard).passAll
        (.operator (.binary op) :: us)) := by
  have hbase := restsOn_unknown hname kr rest
  have hblocked : ∀ vs, HoldsUnknown (before ++ [.name name] ++ vs) name := fun vs =>
    ⟨hname, by simp⟩
  have hwait : s' = [] → s = [] ∧ ∀ t ∈ before ++ [.name name], t.canWait := by
    intro hs'
    obtain ⟨hs, hbefore⟩ := hempty hs'
    have hlast : ∀ t ∈ [Token.name name], t.canWait :=
      List.forall_mem_singleton.2 (canWait_of_isUnknown hname)
    exact ⟨hs, List.forall_mem_append.2 ⟨hbefore, hlast⟩⟩
  by_cases hadd : op = .add
  · subst hadd
    rw [Yard.passAll_cons, Yard.pass, Yard.passOperator_add rfl, List.append_cons _ _ us]
    refine (hr out _ s' hout hbase).embed _ (fun h => absurd h hk) hkr (fun hs' => ?_) ?_
    · obtain ⟨hs, hbefore⟩ := hwait hs'
      exact ⟨hs, List.forall_mem_append.2 ⟨hbefore, List.forall_mem_singleton.2 rfl⟩⟩
    · intro out' held s'' x _ hheld hout' hrun
      exact .blocked ⟨hname, by simp⟩ (hheld.mono hkr) hout' hrun (by simp)
  by_cases hsub : op = .sub
  · subst hsub
    refine (hminus rfl out _ s' hout hbase).embed _ (fun h => absurd h hk) hkr hwait ?_
    intro out' held s'' x _ hheld hout' hrun
    exact .blocked (hblocked _) (hheld.mono hkr) hout' hrun (by simp)
  · -- the operator leaves before the name, with what has been computed as its left operand
    rw [Yard.passAll_cons, Yard.pass_afterName hadd hsub]
    refine operate hr hkr hk hafter hout hwait ?_
    intro out' held s'' x hknown hheld hout' hrun
    cases s' with
    | nil =>
      obtain ⟨hs, hbefore⟩ := hempty rfl
      refine .hidden hs fun vs hvs => ⟨before, name, op, us, vs, by simp, hname, hbefore,
        ⟨hadd, hsub⟩, hderives ⟨hadd, hsub⟩ hknown, fun t ht => ⟨(hvs t ht).1, fun h => ?_⟩⟩
      exact hk ((hvs t ht).2 h)
    | cons v s' =>
      rw [List.append_cons held]
      exact .blocked (hblocked _) ((hheld.mono hkr).concat hop) hout'
        (run_concat_binary hrun op) (by simp)

/-- An operator between two rows sends out all that the left one has left waiting above an
unknown name, and then waits below the right one. -/
theorem binary (hl : Leads kl ts) (hr : Leads kr us) (hk : k ≠ .atom)
    (hkl : k.level ≤ kl.level) (hkr : k.level ≤ kr.level)
    (hop : k.level ≤ (Operator.binary op).precedence)
    (hbefore : ∀ earlier : Operator, kl.level ≤ earlier.precedence →
      earlier.goesBefore (.binary op) = true)
    (hafter : ∀ later : Operator, kr.level ≤ later.precedence →
      (Operator.binary op).goesBefore later = false)
    (hpow : op = .pow → kl = .atom)
    (hminus : op = .sub → Leads kr (.operator (.binary .sub) :: us))
    (hderives : op ≠ .add ∧ op ≠ .sub → (∀ name, ¬ HoldsUnknown us name) →
      ∃ e, Derives .signed us e) :
    Leads k (ts ++ .operator (.binary op) :: us) := by
  intro out below s hout hbelow
  have hleft := hl out below s hout (hbelow.mono hkl)
  rw [Yard.passAll_append]
  have hstay : ∀ t ∈ below.head?, Yard.goesBefore (.binary op) t = false := fun t ht =>
    (hbelow t ht).2 (.binary op) hop
  -- the release takes what the left row has left waiting, and stops at a name or at `below`
  have hrelease : ∀ {out' held base}, HeldBy kl held →
      (∀ t ∈ base.head?, Yard.goesBefore (.binary op) t = false) →
      (⟨out', held ++ base, false⟩ : Yard).pass (.operator (.binary op)) =
        ⟨held.reverse ++ out', .operator (.binary op) :: base, true⟩ := by
    intro out' held base hheld hbase
    have hgo : ∀ t ∈ held, Yard.goesBefore (.binary op) t = true := by
      intro t ht
      obtain ⟨earlier, rfl, hearlier⟩ := hheld t ht
      exact hbefore earlier hearlier
    rw [Yard.pass_operator, Yard.passInfix, Yard.release_append _ _ hgo hbase]
    rfl
  have hrow : ∀ vs, ts ++ .operator (.binary op) :: us ++ vs =
      ts ++ .operator (.binary op) :: (us ++ vs) := by simp
  have hleftsub : ts ⊆ ts ++ .operator (.binary op) :: us := List.subset_append_left _ _
  generalize (⟨out, below, true⟩ : Yard).passAll ts = y at hleft ⊢
  cases hleft with
  | @whole out' held s' x hknown hheld hout' hrun =>
    rw [Yard.passAll_cons, hrelease hheld hstay]
    refine operate hr hkr hk hafter ((computed_append hout' held).trans hrun) (by simp) ?_
    intro out'' held' s'' y hknown' hheld' hout'' hrun'
    have hnone : ∀ name, ¬ HoldsUnknown (ts ++ .operator (.binary op) :: us) name := fun name => by
      simp [hknown name, hknown' name]
    rw [List.append_cons held']
    exact .whole hnone ((hheld'.mono hkr).concat hop) hout'' (run_concat_binary hrun' op)
  | @blocked out' held name rest s' s'' hname hheld hout' hrun hne =>
    have hbase : ∀ t ∈ (Token.name name.toLower :: rest).head?,
        Yard.goesBefore (.binary op) t = false := by
      intro t ht
      obtain rfl := Option.mem_some_iff.1 ht
      rfl
    rw [Yard.passAll_cons, hrelease hheld hbase]
    obtain ⟨v, tail, rfl⟩ := List.exists_cons_of_ne_nil hne
    refine operate hr hkr hk hafter ((computed_append hout' held).trans hrun) (by simp) ?_
    intro out'' held' s'' y _ hheld' hout'' hrun'
    rw [List.append_cons held']
    exact .blocked (hname.mono hleftsub) ((hheld'.mono hkr).concat hop) hout''
      (run_concat_binary hrun' op) (by simp)
  | @ended out' before name rest s' hts hname hout' hs =>
    subst hts
    exact after_unknown hr hk hkr hop hafter hminus hderives hname hout' hs
  | failed hname hout' =>
    exact .failed (hname.mono hleftsub)
      (computed_of_suffix hout' (Yard.suffix_output_passAll y _))
  | hidden hs hhides =>
    refine .hidden hs fun vs hvs => ?_
    rw [hrow]
    apply hhides
    intro t ht
    obtain rfl := Option.mem_some_iff.1 ht
    refine ⟨rfl, fun h => hpow ?_⟩
    simpa using h

end Leads

/-! ## Groups and calls -/

/-- What can become of a yard that passes arguments above the tokens `below`, once all that
the last argument has left waiting has been sent out. -/
inductive Closing (ts : List Token) (s : Stack) (below : List Token) (n : Nat) : Yard → Prop where
  /-- Without unknown names every argument leaves a value. -/
  | whole {out xs} : (∀ name, ¬ HoldsUnknown ts name) → xs.length = n →
      computed out = .ok (xs ++ s) → Closing ts s below n ⟨out, below, false⟩
  /-- An unknown name has been sent out. -/
  | failed {y name} : HoldsUnknown ts name →
      computed y.output = .error (.unknownFunction name.toLower) → Closing ts s below n y
  /-- An unknown name is hidden. -/
  | hidden {y} : s = [] → (∀ vs, (∀ t ∈ vs.head?, t = .comma ∨ t = .rparen) → Hides (ts ++ vs)) →
      Closing ts s below n y

/-- At the end of an argument an unknown name that waits is sent out. -/
theorem Outcome.release {ts below : List Token} {s : Stack} {y : Yard}
    (h : Outcome .sum ts s below y) (hbelow : ∀ t ∈ below.head?, t = .lparen) :
    Closing ts s below 1 (y.release Yard.isInside) := by
  have hinside : ∀ {held : List Token}, HeldBy .sum held → ∀ t ∈ held, Yard.isInside t = true := by
    intro held hheld t ht
    obtain ⟨op, rfl, -⟩ := hheld t ht
    rfl
  -- the release takes all that waits above the name, and then the name
  have hfails : ∀ {out held rest : List Token} {name : String} {s' s'' : Stack} (x : Bool),
      IsUnknown name → HeldBy .sum held → computed out = .ok s' → s'.run held = .ok s'' →
      computed ((⟨out, held ++ .name name.toLower :: rest, x⟩ : Yard).release
        Yard.isInside).output = .error (.unknownFunction name.toLower) := by
    intro out held rest name s' s'' x hname hheld hout hrun
    apply computed_of_suffix (computed_unknown hout hrun hname)
    refine ⟨(rest.takeWhile Yard.isInside).reverse, ?_⟩
    rw [Yard.release, List.takeWhile_append_of_pos (hinside hheld),
      List.takeWhile_cons_of_pos rfl]
    simp
  cases h with
  | @whole out held s' x hknown hheld hout hrun =>
    have hstop : ∀ t ∈ below.head?, Yard.isInside t = false := fun t ht =>
      Yard.isInside_eq_false_iff.2 (hbelow t ht)
    rw [Yard.release_append _ _ (hinside hheld) hstop]
    have hlength : [x].length = 1 := rfl
    exact .whole hknown hlength ((computed_append hout held).trans hrun)
  | blocked hname hheld hout hrun _ => exact .failed hname (hfails false hname.1 hheld hout hrun)
  | @ended out before name rest s' hts hname hout _ =>
    have hheld : HoldsUnknown ts name := ⟨hname, by simp [hts]⟩
    exact .failed hheld (hfails true hname (heldBy_nil _) hout rfl)
  | failed hname hout =>
    exact .failed hname (computed_of_suffix hout (Yard.suffix_output_release _ _))
  | hidden hs hhides =>
    refine .hidden hs fun vs hvs => hhides vs fun t ht => ?_
    rcases hvs t ht with rfl | rfl
    · exact ⟨rfl, by simp⟩
    · exact ⟨rfl, by simp⟩

/-- Arguments, one after the other. Only the first of them can hide a name: when a later one
begins, a value lies on the stack. -/
theorem closing_arguments {args : List (List Token)} (hargs : ∀ ts ∈ args, Leads .sum ts)
    (hne : args ≠ []) {out below : List Token} {s : Stack} (hout : computed out = .ok s)
    (hbelow : ∀ t ∈ below.head?, t = .lparen) (hrests : Category.sum.RestsOn below) :
    Closing ([Token.comma].intercalate args) s below args.length
      (((⟨out, below, true⟩ : Yard).passAll ([Token.comma].intercalate args)).release
        Yard.isInside) := by
  induction args generalizing out s with
  | nil => exact absurd rfl hne
  | cons ts args ih =>
    have hfirst := (hargs ts List.mem_cons_self out below s hout hrests).release hbelow
    by_cases hlast : args = []
    · subst hlast
      rw [List.intercalate_singleton]
      exact hfirst
    have hrow : [Token.comma].intercalate (ts :: args) =
        ts ++ .comma :: [Token.comma].intercalate args := by
      rw [List.intercalate_cons_of_ne_nil hlast, List.append_assoc]
      rfl
    have hleft : ts ⊆ [Token.comma].intercalate (ts :: args) :=
      subset_intercalate List.mem_cons_self
    rw [hrow] at hleft ⊢
    rw [Yard.passAll_append, Yard.passAll_cons, Yard.pass]
    generalize ((⟨out, below, true⟩ : Yard).passAll ts).release Yard.isInside = y at hfirst ⊢
    cases hfirst with
    | @whole out' xs hknown hlength hout' =>
      have hrest := ih (fun us hus => hargs us (List.mem_cons_of_mem ts hus)) hlast hout'
      change Closing _ s below _
        (((⟨out', below, true⟩ : Yard).passAll ([Token.comma].intercalate args)).release
          Yard.isInside)
      generalize ((⟨out', below, true⟩ : Yard).passAll _).release Yard.isInside = z at hrest ⊢
      cases hrest with
      | @whole out'' ys hknown' hlength' hout'' =>
        rw [← List.append_assoc] at hout''
        refine .whole (fun name => by simp [hknown name, hknown' name]) ?_ hout''
        rw [List.length_append, hlength, hlength', List.length_cons]
      | failed hname hout'' =>
        refine .failed (hname.mono ?_) hout''
        intro t ht
        simp [ht]
      | hidden hs hhides =>
        have hxs : xs = [] := (List.append_eq_nil_iff.1 hs).1
        rw [hxs] at hlength
        cases hlength
    | failed hname hout' =>
      refine .failed (hname.mono hleft) (computed_of_suffix hout' ?_)
      exact (Yard.suffix_output_passAll (y.expecting true) _).trans
        (Yard.suffix_output_release _ _)
    | hidden hs hhides =>
      refine .hidden hs fun vs hvs => ?_
      rw [List.append_assoc]
      exact hhides _ (by simp)

/-- A function that finds as many values as it takes arguments leaves one in their place. -/
theorem Stack.exists_step_name {f : Func} {xs : List Float} (h : xs.length = f.arity)
    (s : Stack) : ∃ x, Stack.step (xs ++ s) (.name f.name) = .ok (x :: s) := by
  rw [Stack.step_funcName]
  cases f with
  | unary f =>
    obtain ⟨x, rfl⟩ := List.length_eq_one_iff.1 h
    exact ⟨f.apply x, Stack.call_unary f x s⟩
  | pow =>
    obtain ⟨y, x, rfl⟩ := List.length_eq_two.1 h
    exact ⟨x.pow y, Stack.call_pow x y s⟩

namespace Leads

variable {args : List (List Token)}

/-- The outcome of arguments in parentheses, once it is known what becomes of their values. -/
theorem enclosed (hargs : ∀ ts ∈ args, Leads .sum ts) (hne : args ≠ [])
    {out base below front : List Token} {s : Stack} (hout : computed out = .ok s)
    (hfront : ∀ t ∈ front, t.canWait)
    (hwhole : ∀ {out' xs}, (∀ name, ¬ HoldsUnknown ([Token.comma].intercalate args) name) →
      xs.length = args.length → computed out' = .ok (xs ++ s) →
      Outcome .atom (front ++ ([Token.comma].intercalate args ++ [.rparen])) s below
        ((⟨out', base, false⟩ : Yard).applyFunction.expecting false)) :
    Outcome .atom (front ++ ([Token.comma].intercalate args ++ [.rparen])) s below
      ((⟨out, .lparen :: base, true⟩ : Yard).passAll
        ([Token.comma].intercalate args ++ [.rparen])) := by
  have hlparen : ∀ t ∈ (Token.lparen :: base).head?, t = .lparen := fun t ht =>
    (Option.mem_some_iff.1 ht).symm
  have hclosing := closing_arguments hargs hne hout hlparen (restsOn_lparen .sum base)
  rw [Yard.passAll_append, Yard.passAll_cons, Yard.passAll_nil, Yard.pass]
  generalize ((⟨out, .lparen :: base, true⟩ : Yard).passAll _).release Yard.isInside = y
    at hclosing ⊢
  cases hclosing with
  | whole hknown hlength hout' => exact hwhole hknown hlength hout'
  | failed hname hout' =>
    refine .failed (hname.mono ?_) (computed_of_suffix hout' (Yard.suffix_output_close _))
    intro t ht
    simp [ht]
  | hidden hs hhides =>
    refine .hidden hs fun vs _ => ?_
    have hrow := (hhides (.rparen :: vs) (by simp)).append_left hfront
    simpa using hrow

theorem group {ts : List Token} (h : Leads .sum ts) :
    Leads .atom (.lparen :: (ts ++ [.rparen])) := by
  intro out below s hout hbelow
  have hargs : ∀ us ∈ [ts], Leads .sum us := List.forall_mem_singleton.2 h
  have hfront : ∀ t ∈ [Token.lparen], t.canWait := List.forall_mem_singleton.2 rfl
  have hrow : [Token.comma].intercalate [ts] = ts := List.intercalate_singleton
  rw [Yard.passAll_cons, Yard.pass_lparen, ← hrow]
  refine enclosed hargs (by simp) hout hfront ?_
  intro out' xs hknown hlength hout'
  obtain ⟨x, rfl⟩ := List.length_eq_one_iff.1 hlength
  rw [Yard.applyFunction_eq_self fun t ht => (hbelow t ht).1]
  exact .whole (fun name => by simpa using hknown name) (heldBy_nil _) hout' rfl

/-- The name of a function is applied to as many values as it takes arguments. -/
theorem call {name : String} {f : Func} (hf : Func.ofName? name = some f)
    (hargs : ∀ ts ∈ args, Leads .sum ts) (hlength : args.length = f.arity) :
    Leads .atom (.name name :: .lparen :: ([Token.comma].intercalate args ++ [.rparen])) := by
  intro out below s hout _
  have hc := Constant.ofName?_eq_none hf
  have hfront : ∀ t ∈ [Token.name name, .lparen], t.canWait := by simp [Token.canWait, hc]
  have hne : args ≠ [] := by
    rintro rfl
    cases f <;> cases hlength
  rw [Yard.passAll_cons, Passes.pass_funcName hf, Yard.passAll_cons, Yard.pass_lparen]
  refine enclosed hargs hne hout hfront ?_
  intro out' xs hknown hxs hout'
  obtain ⟨x, hx⟩ := Stack.exists_step_name (hxs.trans hlength) s
  have hsent : computed (.name f.name :: out') = .ok (x :: s) := by
    refine (computed_append hout' [.name f.name]).trans ?_
    rw [Stack.run_cons, hx]
    rfl
  rw [Passes.applyFunction_name, ← List.nil_append below]
  have hname : ¬ IsUnknown name := by simp [IsUnknown, hf]
  refine .whole (fun other hother => hname ?_) (heldBy_nil _) hsent rfl
  obtain ⟨rfl, hunknown⟩ : name = other ∧ IsUnknown other := by simpa [hknown other] using hother
  exact hunknown

/-- The call of an unknown name leaves the name waiting above its values. -/
theorem callUnknown {name : String} (h : IsUnknown name)
    (hargs : ∀ ts ∈ args, Leads .sum ts) (hne : args ≠ []) :
    Leads .atom (.name name :: .lparen :: ([Token.comma].intercalate args ++ [.rparen])) := by
  intro out below s hout _
  have hfront : ∀ t ∈ [Token.name name, .lparen], t.canWait := by simp [Token.canWait, h.1]
  rw [Yard.passAll_cons, Yard.pass_unknown h, Yard.passAll_cons, Yard.pass_lparen]
  refine enclosed hargs hne hout hfront ?_
  intro out' xs hknown hxs hout'
  rw [Yard.applyFunction_eq_self fun t ht => (restsOn_unknown h .atom below t ht).1,
    ← List.nil_append (Token.name name.toLower :: below)]
  refine .blocked ⟨h, List.mem_cons_self⟩ (heldBy_nil _) hout' rfl ?_
  intro hnil
  rw [List.append_eq_nil_iff.1 hnil |>.1] at hxs
  exact hne (List.length_eq_zero_iff.1 hxs.symm)

end Leads

/-! ## Rows of the grammar -/

/-- Every row in which unknown names stand as operands or are called has one of the outcomes.
A minus in front of a product belongs to its first factor. -/
theorem Writes.leads {k : Category} {ts : List Token} (h : Writes k ts)
    (hnumbers : ∀ text, .number text ∈ ts → (Numeral.value? text).isSome) :
    Leads k ts ∧ (k = .product → Leads .product (.operator (.binary .sub) :: ts)) := by
  have hpart : ∀ {us vs : List Token}, us ⊆ vs →
      (∀ text, .number text ∈ vs → (Numeral.value? text).isSome) →
      ∀ text, .number text ∈ us → (Numeral.value? text).isSome := fun hsub hvs text hus =>
    hvs text (hsub hus)
  induction h with
  | product _ ih => exact ⟨(ih hnumbers).1.mono (by simp) (by decide), by simp⟩
  | signed _ ih =>
    have hts := (ih hnumbers).1
    exact ⟨hts.mono (by simp) (by decide), fun _ => hts.minus.mono (by simp) (by decide)⟩
  | power _ ih => exact ⟨(ih hnumbers).1.mono (by simp) (by decide), by simp⟩
  | atom _ ih => exact ⟨(ih hnumbers).1.mono (by simp) (by decide), by simp⟩
  | minus _ ih => exact ⟨(ih (hpart (by simp) hnumbers)).1.minus, by simp⟩
  | plus _ ih => exact ⟨(ih (hpart (by simp) hnumbers)).1.plus, by simp⟩
  | @sum ts us op hop _ _ ihx ihy =>
    have hx := (ihx (hpart (by simp) hnumbers)).1
    have hy := ihy (hpart (by simp) hnumbers)
    refine ⟨?_, by simp⟩
    rcases hop with rfl | rfl
    all_goals
      exact hx.binary hy.1 (by simp) (by decide) (by decide) (by decide)
        (fun _ h => Operator.goesBefore_of_le rfl h) (fun _ h => Operator.goesBefore_of_lt h)
        (by simp) (fun _ => hy.2 rfl) (by simp)
  | @factor ts us op hop _ hus ihx ihy =>
    have hx := ihx (hpart (by simp) hnumbers)
    have hy := (ihy (hpart (by simp) hnumbers)).1
    have hfactor : ∀ vs, Leads .product vs →
        Leads .product (vs ++ .operator (.binary op) :: us) := by
      intro vs hvs
      rcases hop with rfl | rfl | rfl
      all_goals
        exact hvs.binary hy (by simp) (by decide) (by decide) (by decide)
          (fun _ h => Operator.goesBefore_of_le rfl h) (fun _ h => Operator.goesBefore_of_lt h)
          (by simp) (by simp) (fun _ => hus.exists_derives)
    exact ⟨hfactor _ hx.1, fun _ => hfactor _ (hx.2 rfl)⟩
  | exponent _ hus ihx ihy =>
    have hx := (ihx (hpart (by simp) hnumbers)).1
    have hy := (ihy (hpart (by simp) hnumbers)).1
    refine ⟨hx.binary hy (by simp) (by decide) (by decide) (by decide) (fun earlier h => ?_)
      (fun _ h => Operator.goesBefore_of_tight h) (fun _ => rfl) (by simp)
      (fun _ => hus.exists_derives), by simp⟩
    -- nothing is held at the end of an atom
    have hle := earlier.precedence_le
    have hge : 4 ≤ earlier.precedence := h
    omega
  | number text =>
    refine ⟨Leads.sent (fun _ _ => rfl) (fun s => ?_) ?_, by simp⟩
    · obtain ⟨x, hx⟩ := Option.isSome_iff_exists.1 (hnumbers text (List.mem_singleton_self _))
      exact ⟨x, by rw [Stack.step, hx]⟩
    · simp
  | @constant name c hc =>
    have hlower : name.toLower = c.name := Constant.ofName?_eq_some_iff.1 hc
    refine ⟨Leads.sent (u := .name c.name) (fun out below => ?_) (fun s => ⟨c.meaning, ?_⟩) ?_,
      by simp⟩
    · rw [Yard.pass, Yard.passName, hc, hlower]
      rfl
    · exact Stack.step_constant c s
    · simp [IsUnknown, hc]
  | unknown hname => exact ⟨.unknown hname, by simp⟩
  | group _ ih => exact ⟨(ih (hpart (by simp) hnumbers)).1.group, by simp⟩
  | @call name args hc hne harity _ ih =>
    have hargs : ∀ us ∈ args, Leads .sum us := by
      intro us hus
      refine (ih us hus (hpart ?_ hnumbers)).1
      intro t ht
      simp [subset_intercalate hus ht]
    cases hf : Func.ofName? name with
    | none => exact ⟨.callUnknown ⟨hc, hf⟩ hargs hne, by simp⟩
    | some f => exact ⟨.call hf hargs (harity f hf), by simp⟩

/-! ## The cause that is reported -/

/-- **An unknown name is reported unless one is hidden**: a row of the extended grammar that
holds an unknown name and no bad number is refused for one of its unknown names, in lower case,
or for a missing operand if it hides a name. -/
theorem postfixValue_of_holdsUnknown {ts : List Token} {name₀ : String} (hts : Writes .sum ts)
    (hname₀ : HoldsUnknown ts name₀)
    (hnumbers : ∀ text, .number text ∈ ts → (Numeral.value? text).isSome) :
    (¬ Hides ts → ∃ name, HoldsUnknown ts name ∧
      postfixValue (toPostfix ts) = .error (.unknownFunction name.toLower)) ∧
    (Hides ts → postfixValue (toPostfix ts) = .error (.malformed .missingOperand)) := by
  refine ⟨fun hhides => ?_, fun hhides => postfixValue_of_hides hhides hnumbers⟩
  have hrow := (hts.leads hnumbers).1 [] [] [] rfl (restsOn_nil .sum)
  have hclosing := hrow.release (by simp)
  have hfinish : toPostfix ts = ((Yard.start.passAll ts).release Yard.isInside).finish :=
    (Yard.finish_release _ _).symm
  rw [hfinish]
  change Closing ts [] [] 1 ((Yard.start.passAll ts).release Yard.isInside) at hclosing
  generalize (Yard.start.passAll ts).release Yard.isInside = y at hclosing ⊢
  cases hclosing with
  | whole hknown _ _ => exact absurd hname₀ (hknown name₀)
  | failed hname hout => exact ⟨_, hname, Yard.postfixValue_finish hout []⟩
  | hidden _ hrow =>
    have := hrow [] (by simp)
    rw [List.append_nil] at this
    exact absurd this hhides

/-- A call of an unknown name, in any case of letters, with a product behind it. -/
theorem postfixValue_of_unknown_call :
    Writes .sum (Token.scan "Foo(2)*3") ∧ HoldsUnknown (Token.scan "Foo(2)*3") "Foo" ∧
      ∃ name, HoldsUnknown (Token.scan "Foo(2)*3") name ∧
        postfixValue (toPostfix (Token.scan "Foo(2)*3")) =
          .error (.unknownFunction name.toLower) := by
  have hscan : Token.scan "Foo(2)*3" = [.name "Foo", .lparen, .number "2", .rparen,
      .operator (.binary .mul), .number "3"] := by cbv
  have hunknown : IsUnknown "Foo" := by decide +kernel
  have hargs : ∀ ts ∈ [[Token.number "2"]], Writes .sum ts :=
    List.forall_mem_singleton.2 (.product (.signed (.power (.atom (.number "2")))))
  have hcall : Writes .atom _ := .call hunknown.1 (by simp) (by simp [hunknown.2]) hargs
  have hproduct : Writes .sum _ :=
    .product (.factor (Or.inl rfl) (.signed (.power (.atom hcall))) (.power (.atom (.number "3"))))
  have hrow : Writes .sum (Token.scan "Foo(2)*3") := by
    rw [hscan]
    exact hproduct
  have hname : HoldsUnknown (Token.scan "Foo(2)*3") "Foo" := ⟨hunknown, by simp [hscan]⟩
  refine ⟨hrow, hname, (postfixValue_of_holdsUnknown hrow hname ?_).1 ?_⟩
  · intro text htext
    obtain rfl | rfl : text = "2" ∨ text = "3" := by simpa [hscan] using htext
    · decide +kernel
    · decide +kernel
  · -- only the first three tokens can stand before an operand, and none is followed by `*`
    rintro ⟨before, name, op, us, after, hts, -, hbefore, -⟩
    rw [hscan] at hts
    rcases before with _ | ⟨t, _ | ⟨u, _ | ⟨v, before⟩⟩⟩
    · simp at hts
    · simp at hts
    · simp at hts
    · have hv : v = .number "2" := by simp_all
      have hwait := hbefore v (by simp)
      rw [hv] at hwait
      cases hwait

/-- A product with an unknown name on its left is said to lack an operand. -/
theorem postfixValue_of_unknown_factor :
    Writes .sum (Token.scan "foo*2") ∧ HoldsUnknown (Token.scan "foo*2") "foo" ∧
      (∀ text, .number text ∈ Token.scan "foo*2" → (Numeral.value? text).isSome) ∧
      postfixValue (toPostfix (Token.scan "foo*2")) = .error (.malformed .missingOperand) := by
  have hscan : Token.scan "foo*2" =
      [.name "foo", .operator (.binary .mul), .number "2"] := by cbv
  rw [hscan]
  have hunknown : IsUnknown "foo" := by decide +kernel
  have htwo : Derives .signed [.number "2"] _ := .power (.atom (.number "2"))
  have hrow : Writes .sum _ := .product (.factor (Or.inl rfl)
    (.signed (.power (.atom (.unknown hunknown)))) (.power (.atom (.number "2"))))
  have hnumbers : ∀ text, Token.number text ∈ [.name "foo", .operator (.binary .mul),
      .number "2"] → (Numeral.value? text).isSome := by
    intro text htext
    obtain rfl : text = "2" := by simpa using htext
    decide +kernel
  refine ⟨hrow, ⟨hunknown, List.mem_cons_self⟩, hnumbers, postfixValue_of_hides ?_ hnumbers⟩
  exact ⟨[], "foo", .mul, [.number "2"], [], rfl, hunknown, by simp, by simp, ⟨_, htwo⟩, by simp⟩

end PostfixCalc

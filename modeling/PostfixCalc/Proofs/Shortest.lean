/-
# Shortest decimals are the coarsest ones

The decimals that read back as one double lie between two midpoints around its value. So if
any point of a decimal grid reads back as the double, then one of its two neighbours on that
grid does, and the search through the grids cannot miss it. Hence the shortest decimal of a
double has no more places than any other decimal that reads back, and the last of its places
is not a zero.
-/
import PostfixCalc.Proofs.Display

namespace PostfixCalc

open Binary64

namespace Grid

/-! ## The points of a grid -/

/-- A point of a grid reads back as a finite rank if the rank is nearest to it. -/
theorem nearestRank_point_iff {g : Grid} {r n : Nat} (hr : r < infinityRank) :
    (g.point n).nearestRank = r ↔ IsNearest (n * g.step * unitsPerOne) (10 ^ g.places) r :=
  nearestRank_eq_iff (Nat.pow_pos (by decide)) hr

/-- What a grid offers for a rank is one of its points. -/
theorem exists_point_of_shortest? {g : Grid} {r : Nat} {d : Decimal}
    (h : g.shortest? r = some d) : ∃ n, d = g.point n := by
  rw [shortest?] at h
  split_ifs at h
  all_goals exact ⟨_, (Option.some_inj.1 h).symm⟩

/-- **A grid offers a point if any of its points reads back**: a point below the value leaves
room for the neighbour below, a point above it for the neighbour above. -/
theorem isSome_shortest? {g : Grid} {r n : Nat} (hr : r < infinityRank) (hstep : 0 < g.step)
    (h : (g.point n).nearestRank = r) : (g.shortest? r).isSome := by
  have hpow : 0 < 10 ^ g.places := Nat.pow_pos (by decide)
  have hden : 0 < unitsPerOne * g.step := Nat.mul_pos unitsPerOne_pos hstep
  have hpoint : ∀ m, m * g.step * unitsPerOne = m * (unitsPerOne * g.step) := fun m => by ring
  obtain ⟨q, hq⟩ : ∃ q, units r * 10 ^ g.places / (unitsPerOne * g.step) = q := ⟨_, rfl⟩
  have hbelow : q * (unitsPerOne * g.step) ≤ units r * 10 ^ g.places := by
    rw [← hq]
    exact Nat.div_mul_le_self _ _
  have habove : units r * 10 ^ g.places < (q + 1) * (unitsPerOne * g.step) := by
    rw [← hq]
    exact Nat.lt_mul_of_div_lt (Nat.lt_succ_self _) hden
  rw [nearestRank_point_iff hr, hpoint] at h
  have hone : (g.point q).nearestRank = r ∨ (g.point (q + 1)).nearestRank = r := by
    rw [nearestRank_point_iff hr, nearestRank_point_iff hr, hpoint, hpoint]
    rcases Nat.lt_or_ge q n with hlt | hle
    · have := Nat.mul_le_mul_right (unitsPerOne * g.step) (Nat.succ_le_of_lt hlt)
      exact Or.inr (h.of_between hpow (Or.inr ⟨Nat.le_of_lt habove, this⟩))
    · have := Nat.mul_le_mul_right (unitsPerOne * g.step) hle
      exact Or.inl (h.of_between hpow (Or.inl ⟨this, hbelow⟩))
  have hdef : g.shortest? r =
      if (g.point q).nearestRank = r then
        if unitsPerOne * g.step ≤ 2 * (units r * 10 ^ g.places % (unitsPerOne * g.step)) ∧
            (g.point (q + 1)).nearestRank = r then some (g.point (q + 1))
        else some (g.point q)
      else if (g.point (q + 1)).nearestRank = r then some (g.point (q + 1)) else none := by
    rw [← hq]
    rfl
  rw [hdef]
  split_ifs with h1 h2 h3
  · rfl
  · rfl
  · rfl
  · exact absurd hone (not_or_intro h1 h3)

/-- If the value itself is a point of a grid, then the grid offers this point. -/
theorem shortest?_of_exact {g : Grid} {r n : Nat} (hr : r < infinityRank) (hstep : 0 < g.step)
    (h : units r * 10 ^ g.places = n * (unitsPerOne * g.step)) :
    g.shortest? r = some (g.point n) := by
  have hden : 0 < unitsPerOne * g.step := Nat.mul_pos unitsPerOne_pos hstep
  have hdiv : units r * Nat.pow 10 g.places / (unitsPerOne * g.step) = n :=
    Nat.div_eq_of_eq_mul_left hden h
  have hmod : units r * Nat.pow 10 g.places % (unitsPerOne * g.step) = 0 :=
    Nat.mod_eq_zero_of_dvd ⟨n, by rw [Nat.mul_comm _ n]; exact h⟩
  have hback : (g.point n).nearestRank = r := by
    have hpoint : n * g.step * unitsPerOne = units r * 10 ^ g.places := by
      rw [h]
      ring
    rw [nearestRank_point_iff hr, hpoint]
    exact IsNearest.self (Nat.pow_pos (by decide))
  rw [shortest?]
  rw [hdiv, hmod, if_pos hback, if_neg (by omega)]

/-! ## The row of grids -/

/-- The grids of whole numbers are those of the powers of ten. -/
theorem exists_step_of_places_eq_zero {g : Grid} (hg : g ∈ all) (hplaces : g.places = 0) :
    ∃ k, g = ⟨10 ^ k, 0⟩ := by
  unfold all at hg
  rw [List.mem_append, List.mem_map, List.mem_map] at hg
  rcases hg with ⟨k, -, rfl⟩ | ⟨k, -, rfl⟩
  · exact ⟨k, rfl⟩
  · exact absurd hplaces (Nat.succ_ne_zero k)

/-- The decimals of any number of places up to the finest are one of the grids. -/
theorem mem_all_of_places_le {k : Nat} (hk : k ≤ 1074) : (⟨1, k⟩ : Grid) ∈ all := by
  unfold all
  rw [List.mem_append, List.mem_map, List.mem_map]
  cases k with
  | zero => exact Or.inl ⟨0, by simp, rfl⟩
  | succ k => exact Or.inr ⟨k, by simpa using hk, rfl⟩

/-- From one grid to the next the places do not become fewer. -/
theorem pairwise_places : all.Pairwise fun g h => g.places ≤ h.places := by
  unfold all
  rw [List.pairwise_append, List.pairwise_map, List.pairwise_map]
  refine ⟨List.pairwise_of_forall fun _ _ => le_rfl, ?_, ?_⟩
  · exact List.pairwise_lt_range.imp fun hlt => Nat.succ_le_succ (Nat.le_of_lt hlt)
  · intro g hg h _
    obtain ⟨k, -, rfl⟩ := List.mem_map.1 hg
    exact Nat.zero_le _

end Grid

namespace Decimal

/-! ## Fewest places -/

/-- The shortest decimal of a finite rank is the offer of some grid, and no grid before
that one makes an offer. -/
theorem exists_grid_of_shortest {r : Nat} (hr : r < infinityRank) :
    ∃ before g after, Grid.all = before ++ g :: after ∧ g.shortest? r = some (shortest r) ∧
      ∀ h ∈ before, h.shortest? r = none := by
  have hexact : ((⟨1, 1074⟩ : Grid).point (units r * Nat.pow 5 1074)).nearestRank = r := by
    unfold Grid.point
    rw [Nat.mul_one]
    exact nearestRank_exact hr
  have hfinest := Grid.isSome_shortest? hr Nat.one_pos hexact
  obtain ⟨d, hd⟩ : ∃ d, Grid.all.findSome? (·.shortest? r) = some d := by
    rw [← Option.isSome_iff_exists, List.findSome?_isSome_iff]
    exact ⟨_, Grid.mem_all_of_places_le le_rfl, hfinest⟩
  have hshortest : shortest r = d := by
    unfold shortest
    rw [hd]
    rfl
  obtain ⟨before, g, after, hall, hg, hbefore⟩ := List.findSome?_eq_some_iff.1 hd
  exact ⟨before, g, after, hall, hshortest ▸ hg, hbefore⟩

/-- **The shortest decimal has the fewest places**: no decimal that reads back as the same
finite rank has fewer. -/
theorem places_shortest_le {d : Decimal} (hr : d.nearestRank < infinityRank)
    (hplaces : d.places ≤ 1074) : (shortest d.nearestRank).places ≤ d.places := by
  obtain ⟨before, g, after, hall, hg, hbefore⟩ := exists_grid_of_shortest hr
  obtain ⟨n, hn⟩ := Grid.exists_point_of_shortest? hg
  have hmem : (⟨1, d.places⟩ : Grid) ∈ before ++ g :: after :=
    hall ▸ Grid.mem_all_of_places_le hplaces
  have hoffer : ((⟨1, d.places⟩ : Grid).shortest? d.nearestRank).isSome := by
    apply Grid.isSome_shortest? hr Nat.one_pos (n := d.coefficient)
    unfold Grid.point
    rw [Nat.mul_one]
  have hsorted := Grid.pairwise_places
  rw [hall, List.pairwise_append, List.pairwise_cons] at hsorted
  rw [List.mem_append, List.mem_cons] at hmem
  have hle : g.places ≤ d.places := by
    rcases hmem with hmem | heq | hmem
    · rw [hbefore _ hmem] at hoffer
      cases hoffer
    · rw [← heq]
    · exact hsorted.2.1.1 _ hmem
  rw [hn]
  exact hle

theorem places_shortest_le_finest {r : Nat} (hr : r < infinityRank) :
    (shortest r).places ≤ 1074 := by
  have hfinite : (exact r).nearestRank < infinityRank := by
    rw [nearestRank_exact hr]
    exact hr
  have hplaces : (exact r).places = 1074 := by rw [exact]
  have h := places_shortest_le hfinite (Nat.le_of_eq hplaces)
  rw [nearestRank_exact hr, hplaces] at h
  exact h

/-- A zero at the end changes nothing. -/
theorem nearestRank_append_zero {c k : Nat}
    (hr : (⟨10 * c, k + 1⟩ : Decimal).nearestRank < infinityRank) :
    (⟨c, k⟩ : Decimal).nearestRank = (⟨10 * c, k + 1⟩ : Decimal).nearestRank := by
  obtain ⟨r, hr'⟩ : ∃ r, (⟨10 * c, k + 1⟩ : Decimal).nearestRank = r := ⟨_, rfl⟩
  rw [hr'] at hr ⊢
  have hpow : 0 < 10 ^ k := Nat.pow_pos (by decide)
  have hnearest : IsNearest (10 * c * unitsPerOne) (10 ^ (k + 1)) r :=
    (nearestRank_eq_iff (Nat.pow_pos (by decide)) hr).1 hr'
  have hscaled : 10 * c * unitsPerOne = c * unitsPerOne * 10 := by ring
  rw [hscaled, pow_succ] at hnearest
  exact (nearestRank_eq_iff hpow hr).2 (hnearest.of_mul_right hpow (by decide))

/-- **The last place of a shortest decimal is not a zero**: without it the decimal would read
back as well. -/
theorem coefficient_shortest_mod_ten {r : Nat} (hr : r < infinityRank)
    (hplaces : (shortest r).places ≠ 0) : (shortest r).coefficient % 10 ≠ 0 := by
  have hback := nearestRank_shortest hr
  have hfinest := places_shortest_le_finest hr
  obtain ⟨⟨n, places⟩, hd⟩ : ∃ d, shortest r = d := ⟨_, rfl⟩
  rw [hd] at hback hfinest hplaces ⊢
  intro hzero
  obtain ⟨k, rfl⟩ := Nat.exists_eq_succ_of_ne_zero hplaces
  obtain ⟨c, rfl⟩ := Nat.dvd_of_mod_eq_zero hzero
  have hshorter : (⟨c, k⟩ : Decimal).nearestRank = r := by
    rw [nearestRank_append_zero (by rw [hback]; exact hr), hback]
  have hle := places_shortest_le (d := ⟨c, k⟩) (by rw [hshorter]; exact hr)
    (Nat.le_of_succ_le hfinest)
  rw [hshorter, hd] at hle
  exact absurd hle (Nat.not_succ_le_self k)

/-! ## Whole numbers -/

/-- A whole number that is the value of a finite rank reads back as that rank. -/
theorem nearestRank_whole {n r : Nat} (hr : r < infinityRank) (hn : units r = n * unitsPerOne) :
    (⟨n, 0⟩ : Decimal).nearestRank = r := by
  have hself : IsNearest (units r * 10 ^ 0) (10 ^ 0) r := IsNearest.self Nat.one_pos
  rw [pow_zero, Nat.mul_one, hn] at hself
  exact (nearestRank_eq_iff Nat.one_pos hr).2 hself

/-- The shortest decimal of a whole number has no places. -/
theorem places_shortest_of_isWhole {r : Nat} (hr : r < infinityRank) (hwhole : isWhole r) :
    (shortest r).places = 0 := by
  unfold isWhole at hwhole
  obtain ⟨n, hn⟩ := Nat.dvd_of_mod_eq_zero (beq_iff_eq.1 hwhole)
  rw [Nat.mul_comm] at hn
  have hback := nearestRank_whole hr hn
  have hle := places_shortest_le (d := ⟨n, 0⟩) (by rw [hback]; exact hr) (Nat.zero_le _)
  rw [hback] at hle
  exact Nat.le_zero.1 hle

end Decimal

end PostfixCalc

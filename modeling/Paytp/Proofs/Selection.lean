import Paytp.Wallet.Execute

/-!
# Selecting a path

The wallet selects the path that costs the payer least, of those that the operator does not
exclude, unless the operator authorized a costlier one. What a path earns the wallet has no say in
it.
-/

namespace Paytp

namespace Wallet

namespace PathCandidate

variable {a b c : PathCandidate} {cs : List PathCandidate}

theorem before_iff : a.before b = true ↔ a.cost < b.cost ∨ a.cost = b.cost ∧ a.id < b.id := by
  simp [before]

theorem before_eq_false : a.before b = false ↔
    b.cost < a.cost ∨ b.cost = a.cost ∧ b.id ≤ a.id := by
  rw [← Bool.not_eq_true, before_iff]
  omega

theorem before_trans_false (hab : a.before b = false) (hbc : b.before c = false) :
    a.before c = false := by
  rw [before_eq_false] at *
  omega

theorem cheapest_eq_none : cheapest cs = none ↔ cs = [] := by
  cases cs with
  | nil => simp [cheapest]
  | cons c cs =>
    unfold cheapest
    split <;> simp

/-- The cheapest is one of the candidates, and none of them comes before it. -/
theorem cheapest_least (h : cheapest cs = some c) : c ∈ cs ∧ ∀ d ∈ cs, d.before c = false := by
  induction cs generalizing c with
  | nil => cases h
  | cons a cs ih =>
    have hself : a.before a = false := before_eq_false.2 (.inr ⟨rfl, le_rfl⟩)
    unfold cheapest at h
    split at h
    case h_1 d hd =>
      obtain ⟨hmem, hleast⟩ := ih hd
      cases h
      by_cases hlt : d.before a = true
      · have ha : a.before d = false := by
          rw [before_eq_false]
          rw [before_iff] at hlt
          omega
        rw [if_pos hlt]
        exact ⟨List.mem_cons_of_mem _ hmem, List.forall_mem_cons.2 ⟨ha, hleast⟩⟩
      · rw [if_neg hlt]
        have ha := Bool.eq_false_iff.2 hlt
        exact ⟨List.mem_cons_self, List.forall_mem_cons.2
          ⟨hself, fun e he => before_trans_false (hleast e he) ha⟩⟩
    case h_2 hnone =>
      rw [cheapest_eq_none] at hnone
      cases h
      subst hnone
      exact ⟨List.mem_singleton_self _, List.forall_mem_singleton.2 hself⟩

/-- What a path earns the wallet does not bear on which one is the cheapest. -/
theorem cheapest_map {f : PathCandidate → PathCandidate} (hcost : ∀ c, (f c).cost = c.cost)
    (hid : ∀ c, (f c).id = c.id) : cheapest (cs.map f) = (cheapest cs).map f := by
  induction cs with
  | nil => rfl
  | cons c cs ih =>
    have hbefore (d : PathCandidate) : (f d).before (f c) = d.before c := by
      simp only [before, hcost, hid]
    simp only [List.map_cons, cheapest, ih]
    cases cheapest cs with
    | none => rfl
    | some d =>
      simp only [Option.map_some, hbefore]
      split_ifs <;> rfl

end PathCandidate

variable {cs : List PathCandidate} {excluded : List ℕ} {authorized : Option ℕ}
  {s : PathSelection}

/-- Nothing is selected just if every path is excluded. -/
theorem selectCostMinimal_eq_none :
    selectCostMinimal cs excluded authorized = none ↔ ∀ c ∈ cs, c.id ∈ excluded := by
  unfold selectCostMinimal
  rw [Option.map_eq_none_iff, PathCandidate.cheapest_eq_none, List.filter_eq_nil_iff]
  simp

/-- What a selection among candidates says: which one, and what it costs above the least. -/
structure PathSelection.Sound (s : PathSelection) (cs : List PathCandidate) (excluded : List ℕ)
    (authorized : Option ℕ) : Prop where
  offered : ∃ c ∈ cs, c.id ∉ excluded ∧ s.chosen = c.id ∧ s.cost = c.cost ∧
    s.meedShareBp = c.meedShareBp
  least_offered : ∃ c ∈ cs, c.id ∉ excluded ∧ c.cost = s.costMinimal
  least : ∀ c ∈ cs, c.id ∉ excluded → s.costMinimal ≤ c.cost
  delta : s.cost = s.costMinimal + s.costDelta
  costlier : s.reason = .operatorAuthorizedCostlier →
    authorized = some s.chosen ∧ s.costMinimal < s.cost
  payerFirst : s.reason = .costMinimal →
    s.cost = s.costMinimal ∧ ∀ c ∈ cs, c.id ∉ excluded → c.cost = s.cost → s.chosen ≤ c.id

/-- The path that is chosen is the cheapest, or the costlier one that the operator authorized. -/
theorem chosen_cases {cheapest chosen : PathCandidate}
    (h : (authorized.bind fun id => cs.find? fun c => c.id == id && !excluded.contains c.id &&
      decide (c.cost > cheapest.cost)).getD cheapest = chosen) :
    chosen = cheapest ∨ authorized = some chosen.id ∧ chosen ∈ cs ∧ chosen.id ∉ excluded ∧
      cheapest.cost < chosen.cost := by
  rcases hauthorized : authorized.bind fun id => cs.find? fun c =>
      c.id == id && !excluded.contains c.id && decide (c.cost > cheapest.cost) with _ | costlier
  · rw [hauthorized] at h
    exact .inl h.symm
  · rw [hauthorized] at h
    obtain ⟨id, rfl, hfind⟩ := Option.bind_eq_some_iff.1 hauthorized
    have hmatch := List.find?_some hfind
    simp only [gt_iff_lt, Bool.and_eq_true, beq_iff_eq, Bool.not_eq_true', List.contains_eq_mem,
      decide_eq_true_eq, decide_eq_false_iff_not] at hmatch
    obtain ⟨⟨rfl, hallowed⟩, hcost⟩ := hmatch
    cases h
    exact .inr ⟨rfl, List.mem_of_find?_eq_some hfind, hallowed, hcost⟩

theorem selectCostMinimal_sound (h : selectCostMinimal cs excluded authorized = some s) :
    s.Sound cs excluded authorized := by
  unfold selectCostMinimal at h
  obtain ⟨cheapest, hcheapest, hs⟩ := Option.map_eq_some_iff.1 h
  obtain ⟨hmem, hfirst⟩ := PathCandidate.cheapest_least hcheapest
  obtain ⟨hmem, hid⟩ := List.mem_filter.1 hmem
  have hid : cheapest.id ∉ excluded := by simpa using hid
  have hleast : ∀ c ∈ cs, c.id ∉ excluded →
      cheapest.cost < c.cost ∨ cheapest.cost = c.cost ∧ cheapest.id ≤ c.id := fun c hc hid =>
    PathCandidate.before_eq_false.1 (hfirst c (List.mem_filter.2 ⟨hc, by simpa using hid⟩))
  have hle : ∀ c ∈ cs, c.id ∉ excluded → cheapest.cost ≤ c.cost := fun c hc hid =>
    (hleast c hc hid).elim le_of_lt fun h => h.1.le
  dsimp only at hs
  generalize hchosen : (authorized.bind fun id => cs.find? fun c => c.id == id &&
    !excluded.contains c.id && decide (c.cost > cheapest.cost)).getD cheapest = chosen at hs
  rcases chosen_cases hchosen with rfl | ⟨hauthorized, hoffered, hallowed, hcost⟩
  · simp only [Nat.sub_self, gt_iff_lt, lt_irrefl, if_false] at hs
    subst hs
    refine ⟨⟨chosen, hmem, hid, rfl, rfl, rfl⟩, ⟨chosen, hmem, hid, rfl⟩, hle, rfl, nofun,
      fun _ => ⟨rfl, fun c hc hid hcost => ?_⟩⟩
    rcases hleast c hc hid with hlt | ⟨-, hlow⟩
    · exact absurd hcost hlt.ne'
    · exact hlow
  · simp only [gt_iff_lt, Nat.sub_pos_of_lt hcost, if_true] at hs
    subst hs
    refine ⟨⟨chosen, hoffered, hallowed, rfl, rfl, rfl⟩, ⟨cheapest, hmem, hid, rfl⟩, hle,
      (Nat.add_sub_of_le hcost.le).symm, fun _ => ⟨hauthorized, hcost⟩, nofun⟩

/-- A path is excluded just as if it had not been offered. -/
theorem selectPath_withExcludedPaths (p : StaticPolicy) (ids : List ℕ) :
    (p.withExcludedPaths ids).policy.selectPath cs =
      (p.withExcludedPaths []).policy.selectPath (cs.filter fun c => !ids.contains c.id) := by
  have hfind (id n : ℕ) :
      (cs.find? fun c => c.id == id && !ids.contains c.id && decide (c.cost > n)) =
        (cs.filter fun c => !ids.contains c.id).find? fun c =>
          c.id == id && !([] : List ℕ).contains c.id && decide (c.cost > n) := by
    rw [List.find?_filter]
    congr 1
    funext c
    rw [Bool.eq_iff_iff]
    by_cases hc : c.id ∈ ids <;> simp [hc]
  simp only [StaticPolicy.policy, StaticPolicy.withExcludedPaths, selectCostMinimal, hfind]
  rw [List.filter_filter]
  simp

/-- Whatever the paths earn the wallet, the same one is selected at the same cost. -/
theorem selectCostMinimal_shares (share : PathCandidate → ℕ) :
    (selectCostMinimal (cs.map fun c => { c with meedShareBp := share c }) excluded
      authorized).map (fun s => (s.chosen, s.cost, s.costMinimal, s.reason)) =
      (selectCostMinimal cs excluded authorized).map
        fun s => (s.chosen, s.cost, s.costMinimal, s.reason) := by
  set f := fun c : PathCandidate => { c with meedShareBp := share c }
  have hcheapest : PathCandidate.cheapest ((cs.map f).filter fun c => !excluded.contains c.id) =
      (PathCandidate.cheapest (cs.filter fun c => !excluded.contains c.id)).map f := by
    rw [List.filter_map]
    exact PathCandidate.cheapest_map (fun _ => rfl) fun _ => rfl
  unfold selectCostMinimal
  rw [hcheapest, Option.map_map, Option.map_map, Option.map_map]
  congr 1
  funext cheapest
  have hchosen : (authorized.bind fun id => (cs.map f).find? fun c => c.id == id &&
      !excluded.contains c.id && decide (c.cost > cheapest.cost)).getD (f cheapest) =
        f ((authorized.bind fun id => cs.find? fun c => c.id == id &&
          !excluded.contains c.id && decide (c.cost > cheapest.cost)).getD cheapest) := by
    rw [← Option.getD_map f, Option.map_bind]
    congr 2
    funext id
    exact List.find?_map ..
  have hcost (c : PathCandidate) : (f c).cost = c.cost := rfl
  have hid (c : PathCandidate) : (f c).id = c.id := rfl
  simp only [Function.comp_apply, hcost, hchosen, hid]

/-- The wallet selects a path that the operator did not exclude. Unless it is the one that the
operator authorized, no other costs the payer less. -/
theorem selectPath_payerFirst {w : Wallet} {p : StaticPolicy} {id : ℕ}
    (hpolicy : w.policy = (p.withAuthorizedCostlier id).policy) {paths : List OfferPath}
    {pathCost : ℕ → ℕ} (h : w.selectPath paths pathCost = some s) :
    ∃ path ∈ paths, s.chosen = path.id ∧ path.id ∉ p.excludedPaths ∧
      s.cost = satAddU128 path.price (pathCost path.id) ∧
      (path.id = id ∨ ∀ other ∈ paths, other.id ∉ p.excludedPaths →
        s.cost ≤ satAddU128 other.price (pathCost other.id)) := by
  unfold selectPath at h
  rw [hpolicy] at h
  obtain ⟨⟨c, hc, hid, hchosen, hcost, -⟩, -, hleast, -, hcostlier, hfirst⟩ :=
    selectCostMinimal_sound h
  obtain ⟨path, hpath, rfl⟩ := List.mem_map.1 hc
  refine ⟨path, hpath, hchosen, hid, hcost, ?_⟩
  rcases hreason : s.reason with _ | _
  · obtain ⟨hmin, -⟩ := hfirst hreason
    refine .inr fun other hother hallowed => ?_
    rw [hmin]
    exact hleast _ (List.mem_map_of_mem hother) hallowed
  · obtain ⟨hauthorized, -⟩ := hcostlier hreason
    have hid' : id = s.chosen := Option.some.inj hauthorized
    exact .inl (by rw [hid', hchosen])

end Wallet

end Paytp

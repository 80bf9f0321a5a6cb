import DualPi2.ProbabilityBounds

namespace DualPi2

variable {α : Type} [LinearOrderedField α]

/-- Successive calls `Recur (count, p)`, one per likelihood of the list, from `count`: how
many returned true, and the counter they leave. -/
def recurRun (count : α) : List α → Nat × α
  | [] => (0, count)
  | p :: ps =>
    let r := recur count p
    ((recurRun r.2 ps).1 + if r.1 then 1 else 0, (recurRun r.2 ps).2)

section Bounds

variable {count p : α}

/-- One call moves the counter by the likelihood, less one when it fires. -/
theorem recur_count (count p : α) :
    (recur count p).2 = count + p - if (recur count p).1 then 1 else 0 := by
  unfold recur
  split <;> simp

theorem recur_bounded (count0 : 0 ≤ count) (count1 : count ≤ 1) (p0 : 0 ≤ p) (p1 : p ≤ 1) :
    0 ≤ (recur count p).2 ∧ (recur count p).2 ≤ 1 := by
  unfold recur
  split <;> constructor <;> simp only <;> linarith

/-- A counter that fired, or was positive, stays positive. -/
theorem recur_pos (p0 : 0 ≤ p)
    (positive : (recur count p).1 = true ∨ 0 < count) : 0 < (recur count p).2 := by
  by_cases fires : count + p > 1
  · simp only [recur, fires, ↓reduceIte]
    linarith
  · simp only [recur, fires, ↓reduceIte, Bool.false_eq_true, false_or] at positive ⊢
    linarith

theorem recur_zero (count1 : count ≤ 1) : recur count 0 = (false, count) := by
  simp [recur, not_lt.mpr count1]

end Bounds

/-- The run of `Recur` calls from a counter in `[0, 1]` with likelihoods in `[0, 1]`: the
counter ends at `count + Σ p - T` in `[0, 1]` after `T` firings, and is positive once one of
them fired. -/
theorem recurRun_spec : ∀ {count : α} {ps : List α}, 0 ≤ count → count ≤ 1 →
    (∀ p ∈ ps, 0 ≤ p ∧ p ≤ 1) →
    (recurRun count ps).2 = count + ps.sum - (recurRun count ps).1 ∧
      0 ≤ (recurRun count ps).2 ∧ (recurRun count ps).2 ≤ 1 ∧
      (0 < (recurRun count ps).1 → 0 < (recurRun count ps).2)
  | count, [], count0, count1, _ => by simp [recurRun, count0, count1]
  | count, p :: ps, count0, count1, likelihoods => by
    obtain ⟨p0, p1⟩ := likelihoods p (List.mem_cons_self p ps)
    have rest : ∀ q ∈ ps, 0 ≤ q ∧ q ≤ 1 := fun q member =>
      likelihoods q (List.mem_cons_of_mem p member)
    obtain ⟨next0, next1⟩ := recur_bounded count0 count1 p0 p1
    obtain ⟨ends, ends0, ends1, positive⟩ := recurRun_spec next0 next1 rest
    have sum0 : 0 ≤ ps.sum := List.sum_nonneg fun q member => (rest q member).1
    have stepped := recur_count count p
    simp only [recurRun, List.sum_cons]
    refine ⟨?_, ends0, ends1, fun fired => ?_⟩
    · rw [ends, stepped]
      split <;> push_cast <;> ring
    · by_cases earlier : 0 < (recurRun (recur count p).2 ps).1
      · exact positive earlier
      · have fires : (recur count p).1 = true := by
          by_contra never
          simp only [never, Bool.false_eq_true, ↓reduceIte, add_zero] at fired
          exact earlier fired
        have none : ((recurRun (recur count p).2 ps).1 : α) = 0 := by
          exact_mod_cast Nat.eq_zero_of_not_pos earlier
        have := recur_pos p0 (.inl fires)
        rw [ends, none]
        linarith

/-- The number of firings of a run of `Recur` calls from a counter in `[0, 1]` with
likelihoods in `[0, 1]`: none when `count + Σ p = 0`, else `⌈count + Σ p⌉ - 1`. -/
theorem recurRun_triggers [FloorRing α] {count : α} {ps : List α} (count0 : 0 ≤ count)
    (count1 : count ≤ 1) (likelihoods : ∀ p ∈ ps, 0 ≤ p ∧ p ≤ 1) :
    ((recurRun count ps).1 : ℤ) =
      if count + ps.sum = 0 then 0 else ⌈count + ps.sum⌉ - 1 := by
  obtain ⟨ends, ends0, ends1, positive⟩ := recurRun_spec count0 count1 likelihoods
  set T := (recurRun count ps).1
  split_ifs with zero
  · by_contra fired
    have := positive (Nat.pos_of_ne_zero (by exact_mod_cast fired))
    linarith
  · have ceiling : ⌈count + ps.sum⌉ = T + 1 := by
      rw [Int.ceil_eq_iff]
      push_cast
      refine ⟨?_, by linarith⟩
      rcases Nat.eq_zero_or_pos T with none | fired
      · have total : count + ps.sum = (recurRun count ps).2 := by rw [ends, none]; simp
        rw [none, Nat.cast_zero, zero_add, sub_self]
        exact lt_of_le_of_ne (total ▸ ends0) (Ne.symm zero)
      · linarith [positive fired]
    rw [ceiling]
    ring

/-- Both `Recur` counters in `[0, 1]`. -/
def CountsBounded (s : DualPi2QueueDisc α) : Prop :=
  (0 ≤ s.l4sCount ∧ s.l4sCount ≤ 1) ∧ (0 ≤ s.classicCount ∧ s.classicCount ≤ 1)

theorem CountsBounded.of_aqm {t t' : DualPi2QueueDisc α} (bounded : CountsBounded t)
    (frame : t'.aqm = t.aqm) : CountsBounded t' := by
  simp only [DualPi2QueueDisc.aqm, Prod.mk.injEq] at frame
  rw [CountsBounded, frame.2.2.2.2.1, frame.2.2.2.2.2]
  exact bounded

/-- The L4S AQM keeps `m_l4sCount` in `[0, 1]`, overload branch included, while `p_C` and
`p_CL` lie in `[0, 1]`; it leaves `m_classicCount` alone. -/
theorem dequeueFromL4sLoop_counts {cfg : Config α} {now : Int} :
    ∀ {queue : List QueueDiscItem} {s s' : DualPi2QueueDisc α} {r : Option QueueDiscItem}
      {marked : Bool}, dequeueFromL4sLoop cfg now queue s = .ok (r, marked, s') →
      (0 ≤ s.pC ∧ s.pC ≤ 1) → (0 ≤ s.pCL ∧ s.pCL ≤ 1) → CountsBounded s →
        CountsBounded s'
  | [], s, s', r, marked, run, _, _, bounded => by
    simp only [dequeueFromL4sLoop, Except.ok.injEq, Prod.mk.injEq] at run
    obtain ⟨-, -, rfl⟩ := run
    exact bounded
  | qdItem :: rest, s, s', r, marked, run, pC, pCL, ⟨l4s, classic⟩ => by
    simp only [dequeueFromL4sLoop] at run
    split at run
    · obtain ⟨rfl, -, -⟩ := markL4s_spec run
      have pPrimeL : 0 ≤ (if rest.length > cfg.thLen then laqm cfg (now - qdItem.timeStamp)
          else 0) := by split <;> simp [laqm_nonneg]
      exact ⟨recur_bounded l4s.1 l4s.2 (le_min (le_max_of_le_left pPrimeL) zero_le_one)
        (min_le_right _ _), classic⟩
    · split at run
      · exact dequeueFromL4sLoop_counts run pC pCL
          ⟨recur_bounded l4s.1 l4s.2 pC.1 pC.2, classic⟩
      · obtain ⟨rfl, -, -⟩ := markL4s_spec run
        have first := recur_bounded l4s.1 l4s.2 pC.1 pC.2
        exact ⟨recur_bounded first.1 first.2 pCL.1 pCL.2, classic⟩

/-- The Classic AQM keeps `m_classicCount` in `[0, 1]` while `p_C` lies in `[0, 1]`, and
leaves `m_l4sCount` alone. -/
theorem dequeueFromClassicLoop_counts {cfg : Config α} :
    ∀ {queue : List QueueDiscItem} {dropped : Bool} {s s' : DualPi2QueueDisc α}
      {r : Option QueueDiscItem} {dropped' : Bool},
      dequeueFromClassicLoop cfg queue dropped s = (r, dropped', s') →
      (0 ≤ s.pC ∧ s.pC ≤ 1) → CountsBounded s → CountsBounded s'
  | [], dropped, s, s', r, dropped', run, _, bounded => by
    simp only [dequeueFromClassicLoop, Prod.mk.injEq] at run
    obtain ⟨-, -, rfl⟩ := run
    exact bounded
  | qdItem :: rest, dropped, s, s', r, dropped', run, pC, ⟨l4s, classic⟩ => by
    simp only [dequeueFromClassicLoop] at run
    split at run
    · exact dequeueFromClassicLoop_counts run pC
        ⟨l4s, recur_bounded classic.1 classic.2 pC.1 pC.2⟩
    · simp only [Prod.mk.injEq] at run
      obtain ⟨-, -, rfl⟩ := run
      exact ⟨l4s, recur_bounded classic.1 classic.2 pC.1 pC.2⟩

theorem dequeueFromClassicQueue_counts {cfg : Config α} {s s' : DualPi2QueueDisc α}
    {r : Option QueueDiscItem} {dropped : Bool} (pC : 0 ≤ s.pC ∧ s.pC ≤ 1)
    (run : dequeueFromClassicQueue cfg s = (r, dropped, s')) (bounded : CountsBounded s) :
    CountsBounded s' := by
  unfold dequeueFromClassicQueue at run
  split at run
  · simp only [Prod.mk.injEq] at run
    obtain ⟨-, -, rfl⟩ := run
    exact bounded
  · split at run
    · simp only [Prod.mk.injEq] at run
      obtain ⟨-, -, rfl⟩ := run
      exact bounded
    · exact dequeueFromClassicLoop_counts run pC bounded

/-- With `k ≥ 0`, every primitive call keeps both counters in `[0, 1]`. -/
theorem microStep_countsBounded {cfg : Config α} (k_nonneg : 0 ≤ cfg.k)
    {sys sys' : DualPi2QueueDisc α × History} {a : Action}
    (step : microStep cfg sys a = some sys') (inv : ProbabilityInvariant cfg sys.1)
    (bounded : CountsBounded sys.1) : CountsBounded sys'.1 := by
  rcases microStep_aqm step with frame | ⟨now, updated⟩ | ⟨now, r, marked, s', deq, frame⟩ |
    ⟨r, dropped, s', deq, frame⟩
  · exact bounded.of_aqm frame
  · obtain ⟨_, _, written⟩ := dualPi2Update_spec updated
    rw [written]
    exact bounded
  · exact (dequeueFromL4sLoop_counts deq inv.pC_bounds (inv.pCL_bounds k_nonneg) bounded).of_aqm
      frame
  · exact (dequeueFromClassicQueue_counts inv.pC_bounds deq bounded).of_aqm frame

/-- With `k ≥ 0`, both counters lie in `[0, 1]` in every reachable state. -/
theorem Reachable.countsBounded {cfg : Config α} (k_nonneg : 0 ≤ cfg.k)
    {s : DualPi2QueueDisc α} {h : History} (reach : Reachable cfg s h) : CountsBounded s := by
  obtain ⟨acts, exec⟩ := reach.micro
  exact (microExec_invariant (fun sys => ProbabilityInvariant cfg sys.1 ∧ CountsBounded sys.1)
    (fun _ _ _ step ⟨inv, bounded⟩ => ⟨microStep_probabilityInvariant step inv,
      microStep_countsBounded k_nonneg step inv bounded⟩) exec
    ⟨ProbabilityInvariant.initial cfg, ⟨le_rfl, zero_le_one⟩, ⟨le_rfl, zero_le_one⟩⟩).2

/-- From a counter `count` in `[0, 1]`, successive `Recur` calls with likelihoods in `[0, 1]`
fire `T` times, `T = 0` when `count + Σ p = 0` and `T = ⌈count + Σ p⌉ - 1` otherwise, and
leave the counter at `count + Σ p - T`, in `[0, 1]`; `Recur (count, 0)` does not fire and
leaves the counter. With `k ≥ 0`, `m_l4sCount` and `m_classicCount` lie in `[0, 1]` in every
reachable state. -/
theorem recur_triggers [FloorRing α] {count : α} (count0 : 0 ≤ count) (count1 : count ≤ 1)
    {ps : List α} (likelihoods : ∀ p ∈ ps, 0 ≤ p ∧ p ≤ 1) :
    ((recurRun count ps).1 : ℤ) =
        (if count + ps.sum = 0 then 0 else ⌈count + ps.sum⌉ - 1) ∧
      (recurRun count ps).2 = count + ps.sum - (recurRun count ps).1 ∧
      (0 ≤ (recurRun count ps).2 ∧ (recurRun count ps).2 ≤ 1) ∧
      recur count 0 = (false, count) ∧
      ∀ (cfg : Config α), 0 ≤ cfg.k → ∀ s h, Reachable cfg s h →
        (0 ≤ s.l4sCount ∧ s.l4sCount ≤ 1) ∧ (0 ≤ s.classicCount ∧ s.classicCount ≤ 1) := by
  obtain ⟨ends, ends0, ends1, -⟩ := recurRun_spec count0 count1 likelihoods
  exact ⟨recurRun_triggers count0 count1 likelihoods, ends, ⟨ends0, ends1⟩, recur_zero count1,
    fun _ k_nonneg _ _ reach => reach.countsBounded k_nonneg⟩

/-- From a counter of `1/2`, likelihoods `1/2`, `1` and `1/4` sum to `9/4`, and the calls fire
`⌈9/4⌉ - 1` times. -/
theorem recur_triggers_three_calls :
    ((recurRun (1 / 2 : ℚ) [1 / 2, 1, 1 / 4]).1 : ℤ) =
      if (1 / 2 : ℚ) + [1 / 2, 1, 1 / 4].sum = 0 then 0
      else ⌈(1 / 2 : ℚ) + [1 / 2, 1, 1 / 4].sum⌉ - 1 :=
  (recur_triggers (by norm_num) (by norm_num) (by norm_num)).1

end DualPi2

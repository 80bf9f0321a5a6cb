import DualPi2.Capacity

namespace DualPi2

variable {α : Type} [LinearOrderedField α]

/-- The probabilities as `DualPi2Update` leaves them, with `p_L` in `[0, 1]`. -/
structure ProbabilityInvariant (cfg : Config α) (s : DualPi2QueueDisc α) : Prop where
  baseProb_nonneg : 0 ≤ s.baseProb
  baseProb_le_one : s.baseProb ≤ 1
  pCL_eq : s.pCL = min (cfg.k * s.baseProb) 1
  pC_eq : s.pC = s.baseProb ^ 2
  pL_nonneg : 0 ≤ s.pL
  pL_le_one : s.pL ≤ 1

theorem ProbabilityInvariant.initial (cfg : Config α) :
    ProbabilityInvariant cfg (initialState : DualPi2QueueDisc α) :=
  ⟨le_rfl, zero_le_one, by simp [initialState], by simp [initialState], le_rfl, zero_le_one⟩

/-- A state whose `p_L` is in `[0, 1]` and whose other probabilities are those of an invariant
state. -/
theorem ProbabilityInvariant.of_pL {cfg : Config α} {s s' : DualPi2QueueDisc α}
    (inv : ProbabilityInvariant cfg s) (baseProb : s'.baseProb = s.baseProb)
    (pCL : s'.pCL = s.pCL) (pC : s'.pC = s.pC) (nonneg : 0 ≤ s'.pL) (le_one : s'.pL ≤ 1) :
    ProbabilityInvariant cfg s' :=
  ⟨baseProb ▸ inv.baseProb_nonneg, baseProb ▸ inv.baseProb_le_one,
    by rw [pCL, baseProb, inv.pCL_eq], by rw [pC, baseProb, inv.pC_eq], nonneg, le_one⟩

theorem ProbabilityInvariant.frame {cfg : Config α} {s s' : DualPi2QueueDisc α}
    (inv : ProbabilityInvariant cfg s) (baseProb : s'.baseProb = s.baseProb)
    (pCL : s'.pCL = s.pCL) (pC : s'.pC = s.pC) (pL : s'.pL = s.pL) :
    ProbabilityInvariant cfg s' :=
  inv.of_pL baseProb pCL pC (pL ▸ inv.pL_nonneg) (pL ▸ inv.pL_le_one)

theorem ProbabilityInvariant.pCL_nonneg {cfg : Config α} {s : DualPi2QueueDisc α}
    (inv : ProbabilityInvariant cfg s) (k_nonneg : 0 ≤ cfg.k) : 0 ≤ s.pCL := by
  rw [inv.pCL_eq]
  exact le_min (mul_nonneg k_nonneg inv.baseProb_nonneg) zero_le_one

theorem ProbabilityInvariant.pCL_bounds {cfg : Config α} {s : DualPi2QueueDisc α}
    (inv : ProbabilityInvariant cfg s) (k_nonneg : 0 ≤ cfg.k) : 0 ≤ s.pCL ∧ s.pCL ≤ 1 :=
  ⟨inv.pCL_nonneg k_nonneg, inv.pCL_eq ▸ min_le_right _ _⟩

theorem ProbabilityInvariant.pC_bounds {cfg : Config α} {s : DualPi2QueueDisc α}
    (inv : ProbabilityInvariant cfg s) : 0 ≤ s.pC ∧ s.pC ≤ 1 := by
  rw [inv.pC_eq]
  exact ⟨sq_nonneg _, pow_le_one₀ inv.baseProb_nonneg inv.baseProb_le_one⟩

/-- An update writes the clamped `base_prob` and the probabilities derived from it. -/
theorem ProbabilityInvariant.update {cfg : Config α} {now : Int} {s s' : DualPi2QueueDisc α}
    (inv : ProbabilityInvariant cfg s) (run : dualPi2Update cfg now s = .ok s') :
    ProbabilityInvariant cfg s' := by
  obtain ⟨raw, curQ, rfl⟩ := dualPi2Update_spec run
  exact ⟨le_min (le_max_right _ _) zero_le_one, min_le_right _ _, by rw [mul_comm], by rw [sq],
    inv.pL_nonneg, inv.pL_le_one⟩

/-- `DequeueFromL4sQueue` writes `p_L = min (max (p'_L, p_CL), 1)` with `p'_L` in `[0, 1]`. -/
theorem ProbabilityInvariant.dequeueFromL4sQueue {cfg : Config α} {now : Int}
    {s s' : DualPi2QueueDisc α} {r : Option QueueDiscItem} {marked : Bool}
    (inv : ProbabilityInvariant cfg s)
    (run : dequeueFromL4sQueue cfg now s = .ok (r, marked, s')) : ProbabilityInvariant cfg s' := by
  obtain ⟨ds, rest, taken, count, pL, rfl, -, -, -, written⟩ := dequeueFromL4sLoop_spec run
  refine inv.of_pL rfl rfl rfl ?_ ?_
  · rcases written with rfl | ⟨p, nonneg, -, rfl⟩
    · exact inv.pL_nonneg
    · exact le_min (le_max_of_le_left nonneg) zero_le_one
  · rcases written with rfl | ⟨p, -, -, rfl⟩
    · exact inv.pL_le_one
    · exact min_le_right _ _

/-- The AQM state: the probabilities and the two `Recur` counters. -/
def DualPi2QueueDisc.aqm (s : DualPi2QueueDisc α) : α × α × α × α × α × α :=
  (s.baseProb, s.pCL, s.pC, s.pL, s.classicCount, s.l4sCount)

/-- Only an update and the two AQM dequeues write the AQM state. -/
theorem microStep_aqm {cfg : Config α} {sys sys' : DualPi2QueueDisc α × History} {a : Action}
    (step : microStep cfg sys a = some sys') :
    sys'.1.aqm = sys.1.aqm ∨ (∃ now, dualPi2Update cfg now sys.1 = .ok sys'.1) ∨
      (∃ now r marked s', dequeueFromL4sQueue cfg now sys.1 = .ok (r, marked, s') ∧
        sys'.1.aqm = s'.aqm) ∨
      (∃ r dropped s', dequeueFromClassicQueue cfg sys.1 = (r, dropped, s') ∧
        sys'.1.aqm = s'.aqm) := by
  obtain ⟨s, h⟩ := sys
  cases a with
  | enqueue item =>
    cases step
    generalize run : doEnqueue cfg s item = result
    obtain ⟨accepted, s'⟩ := result
    rcases doEnqueue_cases run with ⟨-, _, rfl, -⟩ | ⟨-, -, rfl⟩ | ⟨-, -, rfl⟩ <;>
      exact .inl rfl
  | update now =>
    simp only [microStep] at step
    split at step
    · cases step; exact .inr (.inl ⟨now, ‹_›⟩)
    · cases step
  | schedule eligible =>
    simp only [microStep] at step
    split at step
    · rename_i r s1 sched
      cases step
      rw [(scheduler_spec sched).1]
      exact .inl rfl
    · cases step
  | dequeueL4s now staged =>
    simp only [microStep] at step
    split at step <;> rename_i deq
    · cases step; exact .inr (.inr (.inl ⟨now, _, _, _, deq, rfl⟩))
    · split at step
      · cases step; exact .inr (.inr (.inl ⟨now, _, _, _, deq, rfl⟩))
      · split at step <;> cases step
        exact .inr (.inr (.inl ⟨now, _, _, _, deq, rfl⟩))
    · cases step
  | dequeueClassic staged =>
    simp only [microStep] at step
    split at step <;> rename_i deq
    · cases step; exact .inr (.inr (.inr ⟨_, _, _, deq, rfl⟩))
    · split at step
      · cases step; exact .inr (.inr (.inr ⟨_, _, _, deq, rfl⟩))
      · split at step <;> cases step
        exact .inr (.inr (.inr ⟨_, _, _, deq, rfl⟩))
  | popL4sStaging =>
    simp only [microStep] at step
    split at step <;> cases step
    rename_i staged
    unfold dequeueFromL4sStagingQueue at staged
    split at staged <;> cases staged
    exact .inl rfl
  | popClassicStaging =>
    simp only [microStep] at step
    split at step <;> cases step
    rename_i staged
    unfold dequeueFromClassicStagingQueue at staged
    split at staged <;> cases staged
    exact .inl rfl
  | refreshSamples now => cases step; exact .inl rfl
  | topUp pendingMarks => cases step; exact .inl rfl

theorem ProbabilityInvariant.of_aqm {cfg : Config α} {s s' : DualPi2QueueDisc α}
    (inv : ProbabilityInvariant cfg s) (frame : s'.aqm = s.aqm) : ProbabilityInvariant cfg s' := by
  simp only [DualPi2QueueDisc.aqm, Prod.mk.injEq] at frame
  exact inv.frame frame.1 frame.2.1 frame.2.2.1 frame.2.2.2.1

theorem microStep_probabilityInvariant {cfg : Config α} {sys sys' : DualPi2QueueDisc α × History}
    {a : Action} (step : microStep cfg sys a = some sys')
    (inv : ProbabilityInvariant cfg sys.1) : ProbabilityInvariant cfg sys'.1 := by
  rcases microStep_aqm step with frame | ⟨now, updated⟩ | ⟨now, r, marked, s', deq, frame⟩ |
    ⟨r, dropped, s', deq, frame⟩
  · exact inv.of_aqm frame
  · exact inv.update updated
  · exact (inv.dequeueFromL4sQueue deq).of_aqm frame
  · obtain ⟨_, _, _, rfl, _⟩ := dequeueFromClassicQueue_spec deq
    refine ProbabilityInvariant.of_aqm ?_ frame
    exact inv.frame rfl rfl rfl rfl

theorem Reachable.probabilityInvariant {cfg : Config α} {s : DualPi2QueueDisc α} {h : History}
    (reach : Reachable cfg s h) : ProbabilityInvariant cfg s := by
  obtain ⟨acts, exec⟩ := reach.micro
  exact microExec_invariant (fun sys => ProbabilityInvariant cfg sys.1)
    (fun _ _ _ step inv => microStep_probabilityInvariant step inv) exec
    (ProbabilityInvariant.initial cfg)

/-- With a non-negative coupling factor, every reachable state has `base_prob` in `[0, 1]`,
`p_CL = min (k · base_prob, 1)` and `p_C = base_prob²`, both in `[0, 1]`, and `p_L` in
`[0, 1]`; and `Laqm` returns a value in `[0, 1]` for every configuration and delay. -/
theorem reachable_probabilities_bounded {cfg : Config α} (k_nonneg : 0 ≤ cfg.k)
    {s : DualPi2QueueDisc α} {h : History} (reach : Reachable cfg s h) :
    (0 ≤ s.baseProb ∧ s.baseProb ≤ 1) ∧ s.pCL = min (cfg.k * s.baseProb) 1 ∧
      (0 ≤ s.pCL ∧ s.pCL ≤ 1) ∧ s.pC = s.baseProb ^ 2 ∧ (0 ≤ s.pC ∧ s.pC ≤ 1) ∧
      (0 ≤ s.pL ∧ s.pL ≤ 1) ∧
      ∀ (cfg' : Config α) (qDelay : Int), 0 ≤ laqm cfg' qDelay ∧ laqm cfg' qDelay ≤ 1 := by
  have inv := reach.probabilityInvariant
  exact ⟨⟨inv.baseProb_nonneg, inv.baseProb_le_one⟩, inv.pCL_eq, inv.pCL_bounds k_nonneg,
    inv.pC_eq, inv.pC_bounds, ⟨inv.pL_nonneg, inv.pL_le_one⟩,
    fun cfg' qDelay => ⟨laqm_nonneg cfg' qDelay, laqm_le_one cfg' qDelay⟩⟩

/-- With the default `k = 2`, after `l4sPacket` is enqueued `p_CL` is `min (k · base_prob, 1)`
and `p_L` lies in `[0, 1]`. -/
theorem reachable_probabilities_bounded_one_packet :
    0 ≤ defaultConfig.k ∧
      ({ initialState with l4sQueue := [l4sPacket] } : DualPi2QueueDisc ℚ).pCL =
        min (defaultConfig.k * ({ initialState with l4sQueue := [l4sPacket] } :
          DualPi2QueueDisc ℚ).baseProb) 1 ∧
      0 ≤ ({ initialState with l4sQueue := [l4sPacket] } : DualPi2QueueDisc ℚ).pL ∧
      ({ initialState with l4sQueue := [l4sPacket] } : DualPi2QueueDisc ℚ).pL ≤ 1 := by
  have k_nonneg : 0 ≤ defaultConfig.k := by norm_num [defaultConfig]
  obtain ⟨-, pCL, -, -, -, pL, -⟩ :=
    reachable_probabilities_bounded k_nonneg l4sPacket_reachable
  exact ⟨k_nonneg, pCL, pL⟩

end DualPi2

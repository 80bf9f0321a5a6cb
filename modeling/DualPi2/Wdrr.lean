import DualPi2.Fairness

namespace DualPi2

variable {α : Type} [LinearOrderedField α]

/-- In every reachable state, whatever budgets the pending dequeues reported, the WDRR
deficits stay within one round of quanta and one item: with every item of the run at most
`S` bytes, `0 ≤ llDeficit < q · w + S`, `0 ≤ classicDeficit < q + S`, and a queue out of the
current round holds a deficit below `S`. -/
theorem reachable_deficits_bounded {cfg : Config α} {S : Nat} (sized : 0 < S)
    {s : DualPi2QueueDisc α} {h : History} (reach : Reachable cfg s h)
    (sizes : ∀ x ∈ h.enqueued, x.size ≤ S) :
    (0 ≤ s.llDeficit ∧ s.llDeficit < cfg.drrQuantum * cfg.schedulingWeight + S) ∧
      (0 ≤ s.classicDeficit ∧ s.classicDeficit < cfg.drrQuantum + S) ∧
      (s.drrQueues.l4s = false → s.llDeficit < S) ∧
      (s.drrQueues.classic = false → s.classicDeficit < S) := by
  have bounded := reach.deficitsBounded sized sizes
  exact ⟨⟨bounded.ll_nonneg, bounded.ll_lt⟩, ⟨bounded.classic_nonneg, bounded.classic_lt⟩,
    bounded.l4s_out_lt sized, bounded.classic_out_lt sized⟩

theorem twoPacketState_reachable : Reachable defaultConfig twoPacketState twoPacketHistory := by
  have enqueued : run defaultConfig (initialState, History.empty)
      [.enqueue l4sPacket, .enqueue smallClassicPacket] =
      .ok (twoPacketState, twoPacketHistory) := by
    simp [run, step, doEnqueue, internalEnqueue, getQueueSize, getNBytes, initialState,
      l4sPacket, smallClassicPacket, isL4s, Ecn.bits, defaultConfig, uint32Size, twoPacketState,
      twoPacketHistory]
  exact run_reachable .start enqueued

/-- A run that queues a 1000-byte L4S item and a 100-byte Classic item meets the hypotheses
with `S = 1000`. -/
theorem reachable_deficits_bounded_two_packets :
    (∀ x ∈ twoPacketHistory.enqueued, x.size ≤ 1000) ∧
      (0 ≤ twoPacketState.llDeficit ∧
        twoPacketState.llDeficit < defaultConfig.drrQuantum * defaultConfig.schedulingWeight +
          (1000 : Nat)) ∧
      (0 ≤ twoPacketState.classicDeficit ∧
        twoPacketState.classicDeficit < defaultConfig.drrQuantum + (1000 : Nat)) ∧
      (twoPacketState.drrQueues.l4s = false → twoPacketState.llDeficit < (1000 : Nat)) ∧
      (twoPacketState.drrQueues.classic = false →
        twoPacketState.classicDeficit < (1000 : Nat)) := by
  have sizes : ∀ x ∈ twoPacketHistory.enqueued, x.size ≤ 1000 := by
    simp [twoPacketHistory, History.recordEnqueue, History.empty, l4sPacket, smallClassicPacket]
  exact ⟨sizes, reachable_deficits_bounded (by decide) twoPacketState_reachable sizes⟩

/-- WDRR fairness for every run: over any stretch of primitive calls from a reachable state,
ordinary dequeues and pending batches alike, at whose `Scheduler` calls both internal queues
are non-empty, with the items of the run of sizes in `(0, S]`, the head bytes charged to L4S
and to Classic satisfy `|B_L - w · B_C| ≤ 2 · w · q + (w + 1) · S`, whatever eligibility each
call had. -/
theorem reachable_runs_wdrr_fair {cfg : Config α} {S : Nat} (sized : 0 < S)
    {s : DualPi2QueueDisc α} {h : History} (reach : Reachable cfg s h) {stretch : List Action}
    {sys' : DualPi2QueueDisc α × History} (exec : microExec cfg (s, h) stretch = some sys')
    (sizes : ∀ x ∈ sys'.2.enqueued, 0 < x.size ∧ x.size ≤ S)
    (backlogged : backloggedAtCalls cfg (s, h) stretch = true) :
    |((microCharges cfg (s, h) stretch).1 : α) -
        cfg.schedulingWeight * (microCharges cfg (s, h) stretch).2| ≤
      2 * cfg.schedulingWeight * cfg.drrQuantum + (cfg.schedulingWeight + 1) * S := by
  obtain ⟨acts, run⟩ := reach.micro
  have before := microExec_deficitsBounded (.inr sized) (.inl sized) run
    fun x member => (sizes x (microExec_enqueued exec x member)).2
  have after := microExec_deficitsBounded (.inr sized) (.inl sized)
    (by rw [microExec_append _ run, exec]) fun x member => (sizes x member).2
  have moved := microExec_moves_balance exec backlogged reach.conserved
    fun x member => (sizes x member).1
  exact before.charges_within after moved

/-- With `l4sPacket` and `smallClassicPacket` queued, one `Scheduler` call of a pending batch
whose budget leaves only L4S eligible charges the 1000-byte L4S head, within the bound. -/
theorem reachable_runs_wdrr_fair_pending_call :
    ∃ sys', microExec defaultConfig (twoPacketState, twoPacketHistory)
        [.schedule (false, true)] = some sys' ∧
      (∀ x ∈ sys'.2.enqueued, 0 < x.size ∧ x.size ≤ 1000) ∧
      backloggedAtCalls defaultConfig (twoPacketState, twoPacketHistory)
        [.schedule (false, true)] = true ∧
      |((microCharges defaultConfig (twoPacketState, twoPacketHistory)
          [.schedule (false, true)]).1 : ℚ) - defaultConfig.schedulingWeight *
          (microCharges defaultConfig (twoPacketState, twoPacketHistory)
            [.schedule (false, true)]).2| ≤
        2 * defaultConfig.schedulingWeight * defaultConfig.drrQuantum +
          (defaultConfig.schedulingWeight + 1) * (1000 : Nat) := by
  have sched : scheduler defaultConfig twoPacketState (false, true) = .ok (.l4s,
      { twoPacketState with
        drrQueues := ⟨true, true⟩
        llDeficit := 12500
        classicDeficit := 1500 }) := by
    refine scheduler_of_first_pass ?_ (by decide) rfl
    simp [schedulerPass, startRound, twoPacketState, initialState, RoundMask.none,
      defaultConfig, l4sPacket]
    norm_num
  have exec : microExec defaultConfig (twoPacketState, twoPacketHistory)
      [.schedule (false, true)] = some ({ twoPacketState with
        drrQueues := ⟨true, true⟩
        llDeficit := 12500
        classicDeficit := 1500 }, twoPacketHistory) := by
    simp only [microExec, microStep, sched]
  have sizes : ∀ x ∈ twoPacketHistory.enqueued, 0 < x.size ∧ x.size ≤ 1000 := by
    simp [twoPacketHistory, History.recordEnqueue, History.empty, l4sPacket, smallClassicPacket]
  have backlogged : backloggedAtCalls defaultConfig (twoPacketState, twoPacketHistory)
      [.schedule (false, true)] = true := by
    simp only [backloggedAtCalls, microStep, sched]
    decide
  exact ⟨_, exec, sizes, backlogged,
    reachable_runs_wdrr_fair (by decide) twoPacketState_reachable exec sizes backlogged⟩

end DualPi2

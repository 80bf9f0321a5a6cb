import DualPi2.Batch
import DualPi2.Recur

namespace DualPi2

variable {α : Type} [LinearOrderedField α]

/-- Past its checks, a pending dequeue whose batch loop returns marks while the coupled
probability is zero fails its assertion. -/
theorem pendingDequeueCallback_of_loop_uncoupled {cfg : Config α} {now : Int}
    {pendingBytes m : Nat} {s mid : DualPi2QueueDisc α}
    (queued : ¬pendingBytes > (getQueueSize (refreshSamples now s) +
      38 * getNPackets (refreshSamples now s)) % uint32Size)
    (loop : pendingDequeueLoop cfg now 1000 pendingBytes 0 (refreshSamples now s) = .ok (m, mid))
    (marks : m ≠ 0) (uncoupled : ¬0 < mid.pCL) :
    pendingDequeueCallback cfg now true pendingBytes s =
      .error "There should not be any marks if coupling probability is zero" := by
  simp only [pendingDequeueCallback, Bool.not_true, Bool.false_eq_true, ↓reduceIte, queued, loop,
    gt_iff_lt, marks, uncoupled, not_false_eq_true, and_self, ne_eq]

/-- With LAQM disabled and `m_l4sCount ≤ 1`, the L4S AQM marks only with a positive coupled
probability: below the overload point `p_L = min (max (0, p_CL), 1)` is then 0, and
`Recur (count, 0)` does not fire. -/
theorem dequeueFromL4sLoop_marks_coupled {cfg : Config α} {now : Int}
    (laqmOff : cfg.disableLaqm = true) {queue : List QueueDiscItem}
    {s s' : DualPi2QueueDisc α} {r : Option QueueDiscItem}
    (run : dequeueFromL4sLoop cfg now queue s = .ok (r, true, s')) (count1 : s.l4sCount ≤ 1) :
    0 < s.pCL := by
  cases queue with
  | nil => simp [dequeueFromL4sLoop] at run
  | cons qdItem rest =>
    simp only [dequeueFromL4sLoop] at run
    split at run
    · by_contra uncoupled
      have pPrimeL : (if rest.length > cfg.thLen then laqm cfg (now - qdItem.timeStamp)
          else 0) = 0 := by simp [laqm, laqmOff]
      simp [pPrimeL, max_eq_left (not_lt.mp uncoupled), recur_zero count1, markL4s] at run
    · rename_i overload
      exact lt_of_lt_of_le zero_lt_one (not_lt.mp overload)

/-- With LAQM disabled, a batch loop from a state with both counters in `[0, 1]` and `p_C`,
`p_CL` in `[0, 1]` keeps `p_CL`, and counts a mark only when `p_CL > 0`. -/
theorem pendingDequeueLoop_coupled {cfg : Config α} {now : Int}
    (laqmOff : cfg.disableLaqm = true) :
    ∀ {n left marked m : Nat} {s s' : DualPi2QueueDisc α},
      pendingDequeueLoop cfg now n left marked s = .ok (m, s') →
      (0 ≤ s.pC ∧ s.pC ≤ 1) → (0 ≤ s.pCL ∧ s.pCL ≤ 1) → CountsBounded s →
      s'.pCL = s.pCL ∧ (m ≠ marked → 0 < s.pCL)
  | 0, _, _, _, _, _, run, _, _, _ => by cases run
  | n + 1, left, marked, m, s, s', run, pC, pCL, bounded => by
    simp only [pendingDequeueLoop] at run
    split_ifs at run
    · cases run
      exact ⟨rfl, fun moved => absurd rfl moved⟩
    rcases sched : scheduler cfg s (canSchedule s left) with message | ⟨r, s1⟩
    · rw [sched] at run
      cases run
    have frame := (scheduler_spec sched).1
    have bounded1 : CountsBounded s1 := bounded.of_aqm (by rw [frame]; rfl)
    have pCL1 : s1.pCL = s.pCL := by rw [frame]
    have pC1 : s1.pC = s.pC := by rw [frame]
    have next : ∀ {left' marked' : Nat} {t : DualPi2QueueDisc α},
        pendingDequeueLoop cfg now n left' marked' t = .ok (m, s') → CountsBounded t →
          t.pCL = s1.pCL → t.pC = s1.pC → s'.pCL = s.pCL ∧ (m ≠ marked' → 0 < s.pCL) := by
      intro _ _ t rest counted pCLt pCt
      obtain ⟨kept, marks⟩ := pendingDequeueLoop_coupled laqmOff rest
        ((pCt.trans pC1).symm ▸ pC) ((pCLt.trans pCL1).symm ▸ pCL) counted
      exact ⟨kept.trans (pCLt.trans pCL1), fun moved => pCLt.trans pCL1 ▸ marks moved⟩
    cases r with
    | l4s =>
      simp only [sched] at run
      split at run
      · cases run
      · rename_i s2 deq
        have counted := dequeueFromL4sLoop_counts deq (pC1 ▸ pC) (pCL1 ▸ pCL) bounded1
        obtain ⟨_, _, _, _, _, rfl, -⟩ := dequeueFromL4sLoop_spec deq
        exact next run counted rfl rfl
      · rename_i x marked' s2 deq
        have counted := dequeueFromL4sLoop_counts deq (pC1 ▸ pC) (pCL1 ▸ pCL) bounded1
        have coupled : marked' = true → 0 < s1.pCL := by
          rintro rfl
          exact dequeueFromL4sLoop_marks_coupled laqmOff deq bounded1.1.2
        obtain ⟨_, _, _, _, _, rfl, -⟩ := dequeueFromL4sLoop_spec deq
        split_ifs at run with fits fired
        · exact ⟨(next run counted rfl rfl).1, fun _ => pCL1 ▸ coupled fired⟩
        · exact next run counted rfl rfl
    | classic =>
      simp only [sched] at run
      split at run <;> rename_i x _ s2 deq
      all_goals
        have counted := dequeueFromClassicQueue_counts (pC1 ▸ pC) deq bounded1
        obtain ⟨_, _, _, rfl, -⟩ := dequeueFromClassicQueue_spec deq
      · exact next run counted rfl rfl
      · split_ifs at run
        exact next run counted rfl rfl
    | none =>
      simp only [sched, Except.ok.injEq, Prod.mk.injEq] at run
      obtain ⟨rfl, rfl⟩ := run
      exact ⟨pCL1, fun moved => absurd rfl moved⟩

/-- With LAQM disabled and `k ≥ 0`, a pending dequeue of a reachable state passes its
assertion: when its batch loop returns, a mark comes with a positive coupled probability. -/
theorem reachable_pendingDequeue_coupled {cfg : Config α} (laqmOff : cfg.disableLaqm = true)
    (k_nonneg : 0 ≤ cfg.k) {s mid : DualPi2QueueDisc α} {h : History}
    (reach : Reachable cfg s h) {now : Int} {pendingBytes m : Nat}
    (loop : pendingDequeueLoop cfg now 1000 pendingBytes 0 (refreshSamples now s) =
      .ok (m, mid)) :
    m = 0 ∨ 0 < mid.pCL := by
  have inv := reach.probabilityInvariant
  obtain ⟨kept, marks⟩ := pendingDequeueLoop_coupled laqmOff loop inv.pC_bounds
    (inv.pCL_bounds k_nonneg) (reach.countsBounded k_nonneg)
  rw [kept]
  exact (em (m = 0)).imp_right marks

/-- The default configuration with LAQM disabled, as the `l4s-wifi` scenario sets it. -/
def laqmOffConfig : Config ℚ := { defaultConfig with disableLaqm := true }

/-- `l4sPacket` queued and an update at 250 ms: `base_prob = 0.78525`, so `p_CL = 1`
(overload) and `p_C = 0.6166...`. -/
def coupledState : DualPi2QueueDisc ℚ :=
  { initialState with
    l4sQueue := [l4sPacket]
    baseProb := 3141 / 4000
    prevQ := 250000000
    pCL := 1
    pC := 9865881 / 16000000 }

theorem coupledState_reachable : ∃ h, Reachable laqmOffConfig coupledState h := by
  have enqueued : step laqmOffConfig (initialState, History.empty) (.enqueue l4sPacket) =
      .ok ({ initialState with l4sQueue := [l4sPacket] },
        History.empty.recordEnqueue l4sPacket true) := by
    simp [step, doEnqueue, internalEnqueue, getQueueSize, getNBytes, initialState, l4sPacket,
      isL4s, Ecn.bits, laqmOffConfig, defaultConfig, uint32Size]
  have updated : dualPi2Update laqmOffConfig 250000000
      { initialState with l4sQueue := [l4sPacket] } = .ok coupledState := by
    have raw : max ((0 : ℚ) + 0.15 * getSeconds (max 0 (250000000 - 0) - 15000000) +
        3 * getSeconds (max 0 (250000000 - 0) - 0)) 0 = 3141 / 4000 := by
      norm_num [getSeconds]
    simp only [dualPi2Update, classicQueueDelay, l4sQueueDelay, laqmOffConfig, defaultConfig,
      initialState, l4sPacket, coupledState, Bool.false_eq_true, ↓reduceIte, bind, Except.bind,
      pure, Except.pure]
    rw [raw]
    norm_num
  have stepped : ∀ h, step laqmOffConfig
      ({ initialState with l4sQueue := [l4sPacket] }, h) (.update 250000000) =
      .ok (coupledState, h) := fun h => by simp only [step, updated]
  exact ⟨_, .next (.next .start enqueued) (stepped _)⟩

/-- With LAQM disabled, `l4sPacket` queued and `p_CL = 1`, a pending dequeue of 1038 bytes at
250 ms marks the packet: the mark comes with a positive coupled probability. -/
theorem reachable_pendingDequeue_coupled_one_mark :
    ∃ h mid, Reachable laqmOffConfig coupledState h ∧
      pendingDequeueLoop laqmOffConfig 250000000 1000 1038 0
        (refreshSamples 250000000 coupledState) = .ok (1, mid) ∧
      (1 = 0 ∨ 0 < mid.pCL) := by
  obtain ⟨h, reach⟩ := coupledState_reachable
  have pass : schedulerPass laqmOffConfig (false, true) 1000 0
      (refreshSamples 250000000 coupledState) =
      .inl (.l4s, { refreshSamples 250000000 coupledState with
        drrQueues := ⟨true, true⟩
        llDeficit := 12500
        classicDeficit := 1500 }) := by
    simp [schedulerPass, startRound, refreshSamples, coupledState, initialState, RoundMask.none,
      laqmOffConfig, defaultConfig]
    norm_num
  have sched : scheduler laqmOffConfig (refreshSamples 250000000 coupledState) (false, true) =
      _ := scheduler_of_first_pass pass (by decide) rfl
  have pC : (9865881 / 16000000 : ℚ) < 1 := by norm_num
  obtain ⟨s2, deq⟩ : ∃ s2, dequeueFromL4sQueue laqmOffConfig 250000000
      { refreshSamples 250000000 coupledState with
        drrQueues := ⟨true, true⟩
        llDeficit := 12500
        classicDeficit := 1500 } = .ok (some l4sPacket.withCe, true, s2) :=
    ⟨_, dequeueFromL4sLoop_overload_mark (by simp [refreshSamples, coupledState, Config.pLmax])
      (by simp [recur, refreshSamples, coupledState, initialState, pC.not_lt])
      (by norm_num [recur, refreshSamples, coupledState, initialState])
      (show isL4s l4sPacket = true from rfl)⟩
  have loop : pendingDequeueLoop laqmOffConfig 250000000 1000 1038 0
      (refreshSamples 250000000 coupledState) =
      .ok (1, addToL4sStagingQueue s2 l4sPacket.withCe) :=
    (@pendingDequeueLoop_l4s_stage _ _ _ _ 999 1038 0 _ _ _ _ _ _ sched deq (by decide) rfl
      (by decide)).trans (pendingDequeueLoop_idle (canSchedule_zero _))
  exact ⟨h, _, reach, loop, reachable_pendingDequeue_coupled rfl (by norm_num [laqmOffConfig,
    defaultConfig]) reach loop⟩

/-- Four 100-byte ECT(1) items queued at time 0 from the initial state, before any update. -/
def fourItemState : DualPi2QueueDisc ℚ :=
  { initialState with l4sQueue := [batchA, batchB, batchC, batchD] }

/-- `fourItemState` after the samples a pending dequeue at 2 ms takes. -/
def laqmState : DualPi2QueueDisc ℚ := refreshSamples 2000000 fourItemState

theorem fourItemState_reachable : ∃ h, Reachable defaultConfig fourItemState h := by
  have enqueued : run defaultConfig (initialState, History.empty)
      [.enqueue batchA, .enqueue batchB, .enqueue batchC, .enqueue batchD] =
      .ok (fourItemState, (((History.empty.recordEnqueue batchA true).recordEnqueue batchB
        true).recordEnqueue batchC true).recordEnqueue batchD true) := by
    simp [run, step, doEnqueue, internalEnqueue, getQueueSize, getNBytes, initialState, batchA,
      batchB, batchC, batchD, isL4s, Ecn.bits, defaultConfig, uint32Size, fourItemState]
  exact ⟨_, run_reachable .start enqueued⟩

/-- With the default configuration, four ECT(1) items queued at time 0 and no update before
a pending dequeue of 276 bytes at 2 ms: the coupled probability is still 0, but the items
have waited past `minTh + range = 1.2 ms`, so `Laqm` gives `p_L = 1` while more than one item
stays queued. `Recur` fires on the second item, which the batch stages as CE, and the
callback fails its assertion that no marks come with a zero coupled probability. -/
theorem pendingDequeue_marks_without_coupling :
    (∃ h, Reachable defaultConfig fourItemState h) ∧ fourItemState.pCL = 0 ∧
      ¬276 > (getQueueSize laqmState + 38 * getNPackets laqmState) % uint32Size ∧
      (∃ mid, pendingDequeueLoop defaultConfig 2000000 1000 276 0 laqmState = .ok (1, mid) ∧
        mid.pCL = 0) ∧
      pendingDequeueCallback defaultConfig 2000000 true 276 fourItemState =
        .error "There should not be any marks if coupling probability is zero" := by
  have queued : ¬276 > (getQueueSize laqmState + 38 * getNPackets laqmState) % uint32Size := by
    decide
  have quantum : defaultConfig.drrQuantum = 1500 := rfl
  have weight : defaultConfig.schedulingWeight = 9 := rfl
  have pass : schedulerPass defaultConfig (false, true) 100 0 laqmState =
      .inl (.l4s, { laqmState with
        drrQueues := ⟨true, true⟩
        llDeficit := 13400
        classicDeficit := 1500 }) := by
    simp [schedulerPass, startRound, laqmState, refreshSamples, fourItemState, initialState,
      RoundMask.none, quantum, weight]
    norm_num
  have sched : scheduler defaultConfig laqmState (false, true) = _ :=
    scheduler_of_first_pass pass (by decide) rfl
  have saturated : laqm defaultConfig 2000000 = (1 : ℚ) := by
    simp [laqm, defaultConfig]
  have queuedAtZero : batchA.timeStamp = 0 ∧ batchB.timeStamp = 0 := ⟨rfl, rfl⟩
  have below : (0 : ℚ) < 1 := zero_lt_one
  have deq : dequeueFromL4sQueue defaultConfig 2000000 { laqmState with
        drrQueues := ⟨true, true⟩
        llDeficit := 13400
        classicDeficit := 1500 } =
      .ok (some batchA, false, { laqmState with
        l4sQueue := [batchB, batchC, batchD]
        drrQueues := ⟨true, true⟩
        llDeficit := 13400
        classicDeficit := 1500
        pL := 1
        l4sCount := 1 }) := by
    simp only [dequeueFromL4sQueue, laqmState, refreshSamples, fourItemState, dequeueFromL4sLoop,
      initialState, Config.pLmax, below, ↓reduceIte, Config.thLen, List.length_cons,
      List.length_nil, Nat.reduceAdd, Nat.reduceLT, queuedAtZero.1, sub_zero, saturated,
      max_eq_left zero_le_one, min_self, recur, zero_add, gt_iff_lt, lt_self_iff_false, markL4s,
      Bool.false_eq_true]
  have staged := @pendingDequeueLoop_l4s_stage _ _ _ _ 999 276 0 _ _ _ _ _ _ sched deq
    (by decide) rfl (by decide)
  have sched' : scheduler defaultConfig (addToL4sStagingQueue
      { laqmState with
        l4sQueue := [batchB, batchC, batchD]
        drrQueues := ⟨true, true⟩
        llDeficit := 13400
        classicDeficit := 1500
        pL := 1
        l4sCount := 1 } batchA) (false, true) = _ :=
    @scheduler_of_l4s_fits _ _ _ _ _ 13300 rfl rfl (by decide)
      (by norm_num [addToL4sStagingQueue, headSize, batchB])
      (by norm_num [addToL4sStagingQueue, headSize, batchB])
  have twice : (1 : ℚ) < 1 + 1 := by norm_num
  have deq' : dequeueFromL4sQueue defaultConfig 2000000 (addToL4sStagingQueue
      { laqmState with
        l4sQueue := [batchB, batchC, batchD]
        drrQueues := ⟨true, true⟩
        llDeficit := 13300
        classicDeficit := 1500
        pL := 1
        l4sCount := 1 } batchA) =
      .ok (some batchB.withCe, true, addToL4sStagingQueue
      { laqmState with
        l4sQueue := [batchC, batchD]
        drrQueues := ⟨true, true⟩
        llDeficit := 13300
        classicDeficit := 1500
        pL := 1
        l4sCount := 1 } batchA) := by
    simp only [dequeueFromL4sQueue, addToL4sStagingQueue, laqmState, refreshSamples, fourItemState,
      dequeueFromL4sLoop, initialState, Config.pLmax, below, ↓reduceIte, Config.thLen,
      List.length_cons, List.length_nil, Nat.reduceAdd, Nat.reduceLT, queuedAtZero.2, sub_zero,
      saturated, max_eq_left zero_le_one, min_self, recur, gt_iff_lt, twice, add_sub_cancel_right,
      markL4s, mark_of_isL4s (show isL4s batchB = true from rfl)]
  have staged' := @pendingDequeueLoop_l4s_stage _ _ _ _ 998 138 0 _ _ _ _ _ _ sched' deq'
    (by decide) rfl (by decide)
  have loop := staged.trans (staged'.trans (pendingDequeueLoop_idle (by decide)))
  exact ⟨fourItemState_reachable, rfl, queued, ⟨_, loop, rfl⟩,
    pendingDequeueCallback_of_loop_uncoupled queued loop one_ne_zero (lt_irrefl 0)⟩

end DualPi2

import DualPi2.Separation

namespace DualPi2

variable {α : Type} [LinearOrderedField α]

/-- The outcomes of successive `Recur` calls on the likelihoods `ps`, from the counter
`count`. -/
def recurFlags (count : α) : List α → List Bool
  | [] => []
  | p :: ps => (recur count p).1 :: recurFlags (recur count p).2 ps

theorem recurFlags_count_true : ∀ (count : α) (ps : List α),
    (recurFlags count ps).count true = (recurRun count ps).1
  | _, [] => rfl
  | count, p :: ps => by
    simp only [recurFlags, recurRun, List.count_cons, recurFlags_count_true _ ps, beq_iff_eq]

omit [LinearOrderedField α] in
theorem markL4s_of_isL4s {fire : Bool} {qdItem : QueueDiscItem} (l4s : isL4s qdItem = true)
    (s : DualPi2QueueDisc α) :
    markL4s fire qdItem s = .ok (some (qdItem.markedIf fire), fire, s) := by
  cases fire <;> simp [markL4s, mark_of_isL4s l4s]

section Alone

variable {cfg : Config α} {now : Int}

/-- Below the overload point, with `Laqm` zero for every queued item, `DequeueFromL4sQueue`
called until the L4S queue is empty drops nothing and hands out every item, CE-marked exactly
when `Recur` on `p_CL` fires, and leaves the counter where those `Recur` calls leave it. -/
theorem dequeueAllL4s_below_overload :
    ∀ (queue : List QueueDiscItem) {s : DualPi2QueueDisc α} {calls : Nat},
      s.l4sQueue = queue → s.pCL < cfg.pLmax → 0 ≤ s.pCL →
      (∀ x ∈ queue, laqm cfg (now - x.timeStamp) = 0) → (∀ x ∈ queue, isL4s x = true) →
      queue.length < calls →
      ∃ t, dequeueAllL4s cfg now calls s = .ok (List.zipWith QueueDiscItem.markedIf
          (recurFlags s.l4sCount (List.replicate queue.length s.pCL)) queue, t) ∧
        t.l4sCount = (recurRun s.l4sCount (List.replicate queue.length s.pCL)).2 ∧
        t.droppedWith .unforcedL4sDrop = s.droppedWith .unforcedL4sDrop
  | [], s, calls, queued, _, _, _, _, more => by
    obtain ⟨c, rfl⟩ : ∃ c, calls = c + 1 := ⟨calls - 1, by omega⟩
    refine ⟨{ s with l4sQueue := [] }, ?_, rfl, rfl⟩
    simp only [dequeueAllL4s, dequeueFromL4sQueue, queued, dequeueFromL4sLoop]
    rfl
  | x :: rest, s, calls, queued, below, nonneg, native, l4s, more => by
    obtain ⟨c, rfl⟩ : ∃ c, calls = c + 1 := ⟨calls - 1, by omega⟩
    have pL : min (max (if rest.length > cfg.thLen then laqm cfg (now - x.timeStamp) else 0)
        s.pCL) 1 = s.pCL := by
      have one : s.pCL ≤ 1 := below.le
      rw [native x (List.mem_cons_self x rest), ite_self, max_eq_right nonneg, min_eq_left one]
    obtain ⟨t, run, count, drops⟩ := dequeueAllL4s_below_overload rest
      (s := { s with l4sQueue := rest, pL := s.pCL, l4sCount := (recur s.l4sCount s.pCL).2 })
      rfl below nonneg (fun y member => native y (List.mem_cons_of_mem x member))
      (fun y member => l4s y (List.mem_cons_of_mem x member))
      (by simp only [List.length_cons] at more; omega : rest.length < c)
    refine ⟨t, ?_, count, drops⟩
    simp only [dequeueAllL4s, dequeueFromL4sQueue, queued, dequeueFromL4sLoop, below,
      ↓reduceIte, pL, markL4s_of_isL4s (l4s x (List.mem_cons_self x rest)), run,
      List.length_cons, List.replicate_succ, recurFlags, List.zipWith_cons_cons]

end Alone

/-- In every reachable state of a run whose items have a positive size too small for
`DoEnqueue`'s `uint32_t` sum to wrap, with nothing staged, a non-negative coupling factor,
`p_CL` below the overload point `p_Lmax` and the native ramp `Laqm` zero for the queued L4S
items, successive `DoDequeue` calls at the same time hand out every queued L4S item, in order,
and drop none: the `i`-th is CE-marked exactly when the `i`-th of successive `Recur` calls on
`p_CL` from `m_l4sCount` fires, which happens `⌈c₀ + n · p_CL⌉ - 1` times for `n` items
(none when `c₀ + n · p_CL = 0`). -/
theorem reachable_l4s_marks_follow_recur [FloorRing α] {cfg : Config α}
    (quantum : 0 < cfg.drrQuantum) (k_nonneg : 0 ≤ cfg.k) {s : DualPi2QueueDisc α} {h : History}
    (reach : Reachable cfg s h)
    (sizes : ∀ x ∈ h.enqueued, 0 < x.size ∧ x.size + cfg.queueLimit < uint32Size)
    (now : Int) (below : s.pCL < cfg.pLmax)
    (native : ∀ x ∈ s.l4sQueue, laqm cfg (now - x.timeStamp) = 0) :
    ∃ xs t, (∀ calls, getNPackets s < calls →
        dequeueAll cfg now calls (s.restage [] []) = .ok (xs, t)) ∧
      xs.filter isL4s = List.zipWith QueueDiscItem.markedIf
        (recurFlags s.l4sCount (List.replicate s.l4sQueue.length s.pCL)) s.l4sQueue ∧
      ((recurFlags s.l4sCount (List.replicate s.l4sQueue.length s.pCL)).count true : ℤ) =
        (if s.l4sCount + s.l4sQueue.length * s.pCL = 0 then 0
          else ⌈s.l4sCount + s.l4sQueue.length * s.pCL⌉ - 1) ∧
      t.droppedWith .unforcedL4sDrop = s.droppedWith .unforcedL4sDrop := by
  have nonneg := reach.probabilityInvariant.pCL_nonneg k_nonneg
  have counted := (reach.countsBounded k_nonneg).1
  have l4s : ∀ x ∈ s.l4sQueue, isL4s x = true :=
    fun _ member => (reach.conserved.2 true).isL4s_queue member
  obtain ⟨xs, t, aL, bC, merged, runL, -, endL, -⟩ :=
    (reach.drainable sizes).separate quantum now _ (a := s) (b := s) (Nat.lt_succ_self _) rfl rfl
  obtain ⟨t', alone, -, drops⟩ := dequeueAllL4s_below_overload s.l4sQueue rfl below nonneg
    native l4s (Nat.lt_succ_self _)
  rw [runL _ (Nat.lt_succ_self _), Except.ok.injEq, Prod.mk.injEq] at alone
  obtain ⟨marks, rfl⟩ := alone
  have likelihoods : ∀ p ∈ List.replicate s.l4sQueue.length s.pCL, 0 ≤ p ∧ p ≤ 1 :=
    fun p member => (List.eq_of_mem_replicate member).symm ▸ ⟨nonneg, below.le⟩
  have triggers := recurRun_triggers counted.1 counted.2 likelihoods
  rw [List.sum_replicate, nsmul_eq_mul] at triggers
  refine ⟨xs, t, merged, marks, by rw [recurFlags_count_true]; exact triggers, ?_⟩
  exact (congrArg (fun side => side.2.2.2.2.2) endL).trans drops

/-- `batchA` and `batchB` queued with LAQM off and an update at 100 ms: `base_prob = 0.31275`,
so `p_CL = 0.6255` and `p_C = 0.0978...`. -/
def markingState : DualPi2QueueDisc ℚ :=
  { initialState with
    l4sQueue := [batchA, batchB]
    baseProb := 1251 / 4000
    prevQ := 100000000
    pCL := 1251 / 2000
    pC := 1565001 / 16000000 }

/-- The history of queueing `batchA`, then `batchB`. -/
def markingHistory : History :=
  (History.empty.recordEnqueue batchA true).recordEnqueue batchB true

theorem markingState_reachable : Reachable laqmOffConfig markingState markingHistory := by
  have enqueued : run laqmOffConfig (initialState, History.empty)
      [.enqueue batchA, .enqueue batchB] =
      .ok ({ initialState with l4sQueue := [batchA, batchB] }, markingHistory) := by
    simp [run, step, doEnqueue, internalEnqueue, getQueueSize, getNBytes, initialState, batchA,
      batchB, isL4s, Ecn.bits, laqmOffConfig, defaultConfig, uint32Size, markingHistory]
  have updated : dualPi2Update laqmOffConfig 100000000
      { initialState with l4sQueue := [batchA, batchB] } = .ok markingState := by
    have raw : max ((0 : ℚ) + 0.15 * getSeconds (max 0 (100000000 - 0) - 15000000) +
        3 * getSeconds (max 0 (100000000 - 0) - 0)) 0 = 1251 / 4000 := by
      norm_num [getSeconds]
    simp only [dualPi2Update, classicQueueDelay, l4sQueueDelay, laqmOffConfig, defaultConfig,
      initialState, batchA, markingState, Bool.false_eq_true, ↓reduceIte, bind, Except.bind,
      pure, Except.pure]
    rw [raw]
    norm_num
  have stepped : step laqmOffConfig ({ initialState with l4sQueue := [batchA, batchB] },
      markingHistory) (.update 100000000) = .ok (markingState, markingHistory) := by
    simp only [step, updated]
  exact .next (run_reachable .start enqueued) stepped

/-- With LAQM off, `batchA` and `batchB` queued and `p_CL = 0.6255` after the update at 100 ms,
`Recur` on `p_CL` from `0` fires on the second call only: the `DoDequeue` calls at 100 ms hand
out `batchA` unmarked and `batchB` CE-marked. -/
theorem reachable_l4s_marks_follow_recur_two_packets :
    0 < laqmOffConfig.drrQuantum ∧ 0 ≤ laqmOffConfig.k ∧
      (∀ x ∈ markingHistory.enqueued,
        0 < x.size ∧ x.size + laqmOffConfig.queueLimit < uint32Size) ∧
      markingState.pCL < laqmOffConfig.pLmax ∧
      (∀ x ∈ markingState.l4sQueue, laqm laqmOffConfig (100000000 - x.timeStamp) = 0) ∧
      recurFlags markingState.l4sCount
        (List.replicate markingState.l4sQueue.length markingState.pCL) = [false, true] ∧
      ∃ xs t, (∀ calls, getNPackets markingState < calls →
          dequeueAll laqmOffConfig 100000000 calls (markingState.restage [] []) =
            .ok (xs, t)) ∧
        xs.filter isL4s = List.zipWith QueueDiscItem.markedIf
          (recurFlags markingState.l4sCount
            (List.replicate markingState.l4sQueue.length markingState.pCL))
          markingState.l4sQueue ∧
        ((recurFlags markingState.l4sCount
            (List.replicate markingState.l4sQueue.length markingState.pCL)).count true : ℤ) =
          (if markingState.l4sCount + markingState.l4sQueue.length * markingState.pCL = 0
            then 0
            else ⌈markingState.l4sCount +
              markingState.l4sQueue.length * markingState.pCL⌉ - 1) ∧
        t.droppedWith .unforcedL4sDrop = markingState.droppedWith .unforcedL4sDrop := by
  have k_nonneg : (0 : ℚ) ≤ laqmOffConfig.k := by norm_num [laqmOffConfig, defaultConfig]
  have sizes : ∀ x ∈ markingHistory.enqueued,
      0 < x.size ∧ x.size + laqmOffConfig.queueLimit < uint32Size := by
    simp [markingHistory, History.recordEnqueue, History.empty, batchA, batchB, laqmOffConfig,
      defaultConfig, uint32Size]
  have below : markingState.pCL < laqmOffConfig.pLmax := by
    norm_num [markingState, Config.pLmax]
  have native : ∀ x ∈ markingState.l4sQueue, laqm laqmOffConfig (100000000 - x.timeStamp) = 0 :=
    fun _ _ => by simp [laqm, laqmOffConfig]
  have flags : recurFlags markingState.l4sCount
      (List.replicate markingState.l4sQueue.length markingState.pCL) = [false, true] := by
    norm_num [recurFlags, recur, markingState, initialState]
  exact ⟨by decide, k_nonneg, sizes, below, native, flags,
    reachable_l4s_marks_follow_recur (by decide) k_nonneg markingState_reachable sizes 100000000
      below native⟩

end DualPi2

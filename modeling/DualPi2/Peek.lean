import DualPi2.Coupling
import DualPi2.Fairness

namespace DualPi2

variable {α : Type} [LinearOrderedField α]

omit [LinearOrderedField α] in
/-- `DoPeek` returns null exactly when both internal queues are empty, whatever the staging
queues hold. -/
theorem doPeek_eq_none_iff (s : DualPi2QueueDisc α) : doPeek s = none ↔ getNPackets s = 0 := by
  unfold doPeek getNPackets
  cases s.classicQueue <;> cases s.l4sQueue <;> simp

omit [LinearOrderedField α] in
/-- `DoPeek` returns the Classic head whenever there is one, ahead of any L4S item. -/
theorem doPeek_of_classic {s : DualPi2QueueDisc α} {qdItem : QueueDiscItem}
    {rest : List QueueDiscItem} (classic : s.classicQueue = qdItem :: rest) :
    doPeek s = some qdItem := by
  simp [doPeek, classic]

/-- With both internal queues empty, the scheduling loop returns no item. -/
theorem doDequeueLoop_of_empty {cfg : Config α} {now : Int} {s : DualPi2QueueDisc α}
    (l4s : s.l4sQueue = []) (classic : s.classicQueue = []) :
    ∀ fuel, doDequeueLoop cfg now fuel s = .ok (none, s)
  | 0 => rfl
  | _ + 1 => by simp [doDequeueLoop, getQueueSize, getNBytes, l4s, classic]

/-- With nothing staged and one internal queue empty, a `DoDequeue` that returns an item and
drops nothing returns the item `DoPeek` returns, set to CE when the L4S AQM marks it. -/
theorem doDequeue_agrees_with_doPeek {cfg : Config α} {now : Int} {s s' : DualPi2QueueDisc α}
    {x : QueueDiscItem} (stagedL : s.l4sStagingQueue = []) (stagedC : s.classicStagingQueue = [])
    (single : s.l4sQueue = [] ∨ s.classicQueue = [])
    (run : doDequeue cfg now s = .ok (some x, s')) (kept : s'.dropped = s.dropped) :
    ∃ y marked, doPeek s = some y ∧ x = y.markedIf marked := by
  rw [doDequeue_of_unstaged stagedL stagedC, doDequeueLoop] at run
  split_ifs at run
  case neg => cases run
  split at run
  · cases run
  · rename_i s1 sched
    obtain ⟨frame, l4s, -, -⟩ := scheduler_spec sched
    have classic : s.classicQueue = [] := single.resolve_left (l4s rfl).1
    have same : s1.l4sQueue = s.l4sQueue ∧ s1.classicQueue = s.classicQueue ∧
        s1.dropped = s.dropped := by rw [frame]; exact ⟨rfl, rfl, rfl⟩
    split at run
    · cases run
    · rename_i y marked s2 deq
      obtain ⟨ds, rest, taken, _, _, rfl, takes, returned, -⟩ := dequeueFromL4sLoop_spec deq
      simp only [Except.ok.injEq, Prod.mk.injEq, Option.some.injEq] at run
      obtain ⟨rfl, rfl⟩ := run
      have none : ds = [] := by simpa [same.2.2] using kept
      cases taken with
      | none => cases returned
      | some z =>
        have queue : s.l4sQueue = z :: rest := by simpa [same.1, none] using takes
        exact ⟨z, marked, by simp [doPeek, classic, queue], by simpa using returned⟩
    · rename_i marked s2 deq
      obtain ⟨_, _, taken, _, _, rfl, takes, returned, -⟩ := dequeueFromL4sLoop_spec deq
      cases taken with
      | some z => cases returned
      | none =>
        rw [doDequeueLoop_of_empty] at run
        · cases run
        · exact takes.2
        · exact same.2.1.trans classic
  · rename_i s1 sched
    obtain ⟨frame, -, classicSelected, -⟩ := scheduler_spec sched
    have l4s : s.l4sQueue = [] := single.resolve_right (classicSelected rfl).1
    have same : s1.l4sQueue = s.l4sQueue ∧ s1.classicQueue = s.classicQueue ∧
        s1.dropped = s.dropped := by rw [frame]; exact ⟨rfl, rfl, rfl⟩
    split at run
    · rename_i y _ s2 deq
      obtain ⟨ds, rest, _, rfl, takes⟩ := dequeueFromClassicQueue_spec deq
      simp only [Except.ok.injEq, Prod.mk.injEq, Option.some.injEq] at run
      obtain ⟨rfl, rfl⟩ := run
      have none : ds = [] := by simpa [same.2.2] using kept
      have queue : s.classicQueue = y :: rest := by simpa [same.2.1, none] using takes
      exact ⟨y, false, by simp [doPeek, queue], rfl⟩
    · rename_i _ s2 deq
      obtain ⟨_, _, _, rfl, takes⟩ := dequeueFromClassicQueue_spec deq
      rw [doDequeueLoop_of_empty] at run
      · cases run
      · exact same.1.trans l4s
      · exact takes.2
  · cases run

/-- With `l4sPacket` alone queued, a `Scheduler` call to which L4S is eligible starts a round
and serves L4S out of its nine quanta. -/
theorem l4sPacket_scheduled {eligible : Bool × Bool} (l4sEligible : eligible.2 = true) :
    scheduler defaultConfig
      ({ initialState with l4sQueue := [l4sPacket] } : DualPi2QueueDisc ℚ) eligible =
    .ok (.l4s, { initialState with
      l4sQueue := [l4sPacket]
      drrQueues := ⟨true, true⟩
      llDeficit := 12500
      classicDeficit := 1500 }) := by
  refine scheduler_of_first_pass ?_ (by decide) (by simp [l4sEligible])
  simp [schedulerPass, startRound, initialState, RoundMask.none, defaultConfig, l4sEligible,
    l4sPacket]
  norm_num

/-- With `p_CL = 0` and nothing else queued, the L4S AQM returns `l4sPacket` unmarked. -/
theorem l4sPacket_dequeued : dequeueFromL4sQueue defaultConfig 0
    { initialState with
      l4sQueue := [l4sPacket]
      drrQueues := ⟨true, true⟩
      llDeficit := 12500
      classicDeficit := 1500 } =
    .ok (some l4sPacket, false, { initialState with
      drrQueues := ⟨true, true⟩
      llDeficit := 12500
      classicDeficit := 1500 }) := by
  have below : (0 : ℚ) < 1 := zero_lt_one
  simp only [dequeueFromL4sQueue, dequeueFromL4sLoop, initialState, Config.pLmax, below,
    ↓reduceIte, Config.thLen, List.length_nil, gt_iff_lt, Nat.not_lt_zero, max_self, zero_le_one,
    min_eq_left, recur, zero_add, not_lt.mpr zero_le_one, markL4s, Bool.false_eq_true]

/-- `l4sPacket` alone in the L4S queue: `DoDequeue` at time 0 returns it, drops nothing, and
`DoPeek` returns it too. -/
theorem doDequeue_agrees_with_doPeek_one_packet :
    ∃ s', doDequeue defaultConfig 0
        ({ initialState with l4sQueue := [l4sPacket] } : DualPi2QueueDisc ℚ) =
        .ok (some l4sPacket, s') ∧ s'.dropped = [] ∧
      ∃ y marked, doPeek ({ initialState with l4sQueue := [l4sPacket] } : DualPi2QueueDisc ℚ) =
        some y ∧ l4sPacket = y.markedIf marked := by
  have busy : getQueueSize ({ initialState with l4sQueue := [l4sPacket] } :
      DualPi2QueueDisc ℚ) > 0 := by decide
  have dequeued : doDequeue defaultConfig 0 { initialState with l4sQueue := [l4sPacket] } =
      .ok (some l4sPacket, { initialState with
        drrQueues := ⟨true, true⟩
        llDeficit := 12500
        classicDeficit := 1500 }) := by
    rw [doDequeue_of_unstaged rfl rfl, doDequeueLoop, if_pos busy, l4sPacket_scheduled rfl]
    simp only [l4sPacket_dequeued]
  exact ⟨_, dequeued, rfl,
    doDequeue_agrees_with_doPeek rfl rfl (.inr rfl) dequeued rfl⟩

/-- `l4sPacket` queued, then staged alone by a pending dequeue of 1038 bytes at time 0. -/
def peekStagedState : DualPi2QueueDisc ℚ :=
  { initialState with
    l4sStagingQueue := [l4sPacket]
    drrQueues := ⟨true, true⟩
    llDeficit := 12500
    classicDeficit := 1500 }

theorem peekStagedState_reachable : ∃ h, Reachable defaultConfig peekStagedState h := by
  have loop : pendingDequeueLoop defaultConfig 0 1000 1038 0
      (refreshSamples 0 { initialState with l4sQueue := [l4sPacket] }) =
      .ok (0, peekStagedState) :=
    (@pendingDequeueLoop_l4s_stage _ _ _ _ 999 1038 0 _ _ _ _ _ _
      (@l4sPacket_scheduled (false, true) rfl) l4sPacket_dequeued (by decide) rfl (by decide)).trans
      (pendingDequeueLoop_idle (canSchedule_zero _))
  have pending : step defaultConfig ({ initialState with l4sQueue := [l4sPacket] },
      History.empty.recordEnqueue l4sPacket true) (.pendingDequeue 0 true 1038) =
      .ok (peekStagedState, History.empty.recordEnqueue l4sPacket true) := by
    simp only [step, pendingDequeueCallback_of_loop (by decide) loop (.inl rfl)]
    rfl
  exact ⟨_, .next l4sPacket_reachable pending⟩

/-- `DoPeek` does not return the item `DoDequeue` would. With `l4sPacket` and
`smallClassicPacket` queued, `DoDequeue` at time 0 serves L4S, whose deficit holds nine
quanta, and returns `l4sPacket` with no AQM drop, while `DoPeek` returns the Classic head.
Once a pending dequeue has staged `l4sPacket` alone, both internal queues are empty, so `DoPeek`
returns null while `DoDequeue` returns the staged item. -/
theorem doPeek_disagrees_with_doDequeue :
    Reachable defaultConfig twoPacketState twoPacketHistory ∧
      (∃ s', doDequeue defaultConfig 0 twoPacketState = .ok (some l4sPacket, s') ∧
        s'.dropped = twoPacketState.dropped) ∧
      doPeek twoPacketState = some smallClassicPacket ∧
      (∃ h, Reachable defaultConfig peekStagedState h) ∧
      (∃ s', doDequeue defaultConfig 0 peekStagedState = .ok (some l4sPacket, s') ∧
        s'.dropped = peekStagedState.dropped) ∧
      doPeek peekStagedState = none := by
  have enqueued : run defaultConfig (initialState, History.empty)
      [.enqueue l4sPacket, .enqueue smallClassicPacket] =
      .ok (twoPacketState, twoPacketHistory) := by
    simp [run, step, doEnqueue, internalEnqueue, getQueueSize, getNBytes, initialState,
      l4sPacket, smallClassicPacket, isL4s, Ecn.bits, defaultConfig, uint32Size, twoPacketState,
      twoPacketHistory]
  have below : (0 : ℚ) < 1 := zero_lt_one
  have deq : dequeueFromL4sQueue defaultConfig 0 { twoPacketState with
        drrQueues := ⟨true, true⟩
        llDeficit := 12500
        classicDeficit := 1500 } =
      .ok (some l4sPacket, false, { twoPacketState with
        l4sQueue := []
        drrQueues := ⟨true, true⟩
        llDeficit := 12500
        classicDeficit := 1500 }) := by
    simp only [dequeueFromL4sQueue, twoPacketState, dequeueFromL4sLoop, initialState,
      Config.pLmax, below, ↓reduceIte, Config.thLen, List.length_nil, gt_iff_lt,
      Nat.not_lt_zero, max_self, zero_le_one, min_eq_left, recur, zero_add,
      not_lt.mpr zero_le_one, markL4s, Bool.false_eq_true]
  have dequeued : doDequeue defaultConfig 0 twoPacketState = .ok (some l4sPacket,
      { twoPacketState with
        l4sQueue := []
        drrQueues := ⟨true, true⟩
        llDeficit := 12500
        classicDeficit := 1500 }) := by
    have busy : getQueueSize twoPacketState > 0 := by decide
    rw [doDequeue_of_unstaged rfl rfl, doDequeueLoop, if_pos busy, twoPacketState_scheduled]
    simp only [deq]
  exact ⟨run_reachable .start enqueued, ⟨_, dequeued, rfl⟩, rfl, peekStagedState_reachable,
    ⟨_, rfl, rfl⟩, rfl⟩

end DualPi2

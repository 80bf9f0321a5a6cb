import DualPi2.Drr
import DualPi2.Marking

namespace DualPi2

/-- A CE item. -/
def isCe (item : QueueDiscItem) : Bool := item.dsField == some .ce

@[simp] theorem isCe_withCe (item : QueueDiscItem) : isCe item.withCe = true := rfl

@[simp] theorem isEct1_withCe (item : QueueDiscItem) : isEct1 item.withCe = false := rfl

theorem isCe_of_isEct1 {item : QueueDiscItem} (ect1 : isEct1 item = true) : isCe item = false := by
  unfold isEct1 at ect1
  unfold isCe
  split at ect1
  · rename_i ecn dsField
    cases ecn <;> simp_all [Ecn.bits]
  · cases ect1

theorem mark_of_isEct1 {item : QueueDiscItem} (ect1 : isEct1 item = true) :
    item.mark.2 = item.withCe := by
  rw [mark_of_isL4s (isL4s_of_isEct1 ect1)]

/-- The top-up keeps the length of the staging queue. -/
@[simp] theorem markPending_length : ∀ (pendingMarks : Nat) (items : List QueueDiscItem),
    (markPending pendingMarks items).length = items.length
  | 0, items => by rw [markPending]
  | _ + 1, [] => rfl
  | pendingMarks + 1, item :: rest => by
    unfold markPending
    split <;> simp [markPending_length]

/-- The top-up sets to CE exactly the ECT(1) items that have fewer than `pendingMarks`
ECT(1) items before them, and leaves every other item as it is. -/
theorem markPending_getElem? : ∀ (pendingMarks : Nat) (items : List QueueDiscItem) (i : Nat),
    (markPending pendingMarks items)[i]? = items[i]?.map fun x =>
      if isEct1 x = true ∧ (items.take i).countP isEct1 < pendingMarks then x.withCe else x
  | 0, items, i => by simp [markPending]
  | _ + 1, [], i => by simp [markPending]
  | pendingMarks + 1, item :: rest, 0 => by
    by_cases ect1 : isEct1 item <;> simp [markPending, ect1, mark_of_isEct1]
  | pendingMarks + 1, item :: rest, i + 1 => by
    by_cases ect1 : isEct1 item
    · simp [markPending, ect1, markPending_getElem? pendingMarks rest i]
    · simp [markPending, ect1, markPending_getElem? (pendingMarks + 1) rest i]

/-- The top-up sets `min pendingMarks e` items to CE, of the `e` ECT(1) items. -/
theorem countP_isCe_markPending : ∀ (pendingMarks : Nat) (items : List QueueDiscItem),
    (markPending pendingMarks items).countP isCe =
      items.countP isCe + min pendingMarks (items.countP isEct1)
  | 0, items => by simp [markPending]
  | _ + 1, [] => rfl
  | pendingMarks + 1, item :: rest => by
    have ih := countP_isCe_markPending pendingMarks rest
    have ih' := countP_isCe_markPending (pendingMarks + 1) rest
    unfold markPending
    cases ect1 : isEct1 item with
    | true =>
      simp only [ect1, ↓reduceIte, mark_of_isEct1 ect1, List.countP_cons, isCe_withCe,
        isCe_of_isEct1 ect1, Bool.false_eq_true, ih]
      omega
    | false =>
      simp only [ect1, List.countP_cons, ih', Bool.false_eq_true, ↓reduceIte]
      omega

/-- The `e` ECT(1) items lose `min pendingMarks e` of their number to the top-up. -/
theorem countP_isEct1_markPending : ∀ (pendingMarks : Nat) (items : List QueueDiscItem),
    (markPending pendingMarks items).countP isEct1 + min pendingMarks (items.countP isEct1) =
      items.countP isEct1
  | 0, items => by simp [markPending]
  | _ + 1, [] => rfl
  | pendingMarks + 1, item :: rest => by
    have ih := countP_isEct1_markPending pendingMarks rest
    have ih' := countP_isEct1_markPending (pendingMarks + 1) rest
    unfold markPending
    cases ect1 : isEct1 item with
    | true =>
      simp only [ect1, ↓reduceIte, mark_of_isEct1 ect1, List.countP_cons, isEct1_withCe,
        Bool.false_eq_true]
      omega
    | false =>
      simp only [ect1, List.countP_cons, Bool.false_eq_true, ↓reduceIte]
      omega

/-- In a list of L4S items, every item is ECT(1) or CE. -/
theorem length_eq_countP_isEct1_add_isCe {items : List QueueDiscItem}
    (l4s : ∀ x ∈ items, isL4s x = true) :
    items.length = items.countP isEct1 + items.countP isCe := by
  induction items with
  | nil => rfl
  | cons item rest ih =>
    have codepoint := (isL4s_iff item).mp (l4s item (List.mem_cons_self _ _))
    rw [List.length_cons, List.countP_cons, List.countP_cons,
      ih fun x member => l4s x (List.mem_cons_of_mem _ member)]
    rcases codepoint with ect1 | ce
    · simp [isEct1, isCe, ect1, Ecn.bits]; omega
    · simp [isEct1, isCe, ce, Ecn.bits]; omega

variable {α : Type} [LinearOrderedField α]

/-- In overload (`p_CL ≥ p_Lmax`), `Recur` firing on `p_C` drops the head and the loop goes on
with the next item. -/
theorem dequeueFromL4sLoop_overload_drop {cfg : Config α} {now : Int} {qdItem : QueueDiscItem}
    {rest : List QueueDiscItem} {s : DualPi2QueueDisc α} (overload : ¬s.pCL < cfg.pLmax)
    (fires : (recur s.l4sCount s.pC).1 = true) :
    dequeueFromL4sLoop cfg now (qdItem :: rest) s = dequeueFromL4sLoop cfg now rest
      ({ s with l4sQueue := rest, l4sCount := (recur s.l4sCount s.pC).2 }.drop
        .unforcedL4sDrop qdItem) := by
  simp only [dequeueFromL4sLoop, overload, fires, ↓reduceIte]

/-- In overload, when `Recur` on `p_C` does not fire and `Recur` on `p_CL` does, the head is
marked and returned. -/
theorem dequeueFromL4sLoop_overload_mark {cfg : Config α} {now : Int} {qdItem : QueueDiscItem}
    {rest : List QueueDiscItem} {s : DualPi2QueueDisc α} (overload : ¬s.pCL < cfg.pLmax)
    (kept : (recur s.l4sCount s.pC).1 = false)
    (marks : (recur (recur s.l4sCount s.pC).2 s.pCL).1 = true) (l4s : isL4s qdItem = true) :
    dequeueFromL4sLoop cfg now (qdItem :: rest) s = .ok (some qdItem.withCe, true,
      { s with l4sQueue := rest, l4sCount := (recur (recur s.l4sCount s.pC).2 s.pCL).2 }) := by
  simp only [dequeueFromL4sLoop, overload, kept, marks, markL4s, mark_of_isL4s l4s,
    Bool.false_eq_true, ↓reduceIte]

/-- When `Scheduler` picks L4S for a batch and the AQM step returns an item whose framed size
exceeds the budget left, the batch loop fails its "insufficient pending bytes" assertion. -/
theorem pendingDequeueLoop_l4s_over_budget {cfg : Config α} {now : Int} {n left marked : Nat}
    {s s1 s2 : DualPi2QueueDisc α} {eligible : Bool × Bool} {qdItem : QueueDiscItem} {m : Bool}
    (sched : scheduler cfg s eligible = .ok (.l4s, s1))
    (deq : dequeueFromL4sQueue cfg now s1 = .ok (some qdItem, m, s2))
    (schedulable : canSchedule s left = eligible) (busy : (!eligible.1 && !eligible.2) = false)
    (over : left < wifiSize qdItem) :
    pendingDequeueLoop cfg now (n + 1) left marked s =
      .error "Error, insufficient pending bytes" := by
  simp only [pendingDequeueLoop, schedulable, busy, sched, deq, Bool.false_eq_true, ↓reduceIte,
    not_le.mpr over]

/-- Past its checks, a pending dequeue fails as its batch loop does. -/
theorem pendingDequeueCallback_of_loop_error {cfg : Config α} {now : Int} {pendingBytes : Nat}
    {s : DualPi2QueueDisc α} {message : String}
    (queued : ¬pendingBytes > (getQueueSize (refreshSamples now s) +
      38 * getNPackets (refreshSamples now s)) % uint32Size)
    (loop : pendingDequeueLoop cfg now 1000 pendingBytes 0 (refreshSamples now s) =
      .error message) :
    pendingDequeueCallback cfg now true pendingBytes s = .error message := by
  simp only [pendingDequeueCallback, Bool.not_true, Bool.false_eq_true, ↓reduceIte, queued, loop]

omit [LinearOrderedField α] in
/-- With no budget, neither head is eligible. -/
theorem canSchedule_zero (s : DualPi2QueueDisc α) : canSchedule s 0 = (false, false) := by
  unfold canSchedule
  split <;> simp

/-- A batch loop whose budget admits neither head ends with the marks it has. -/
theorem pendingDequeueLoop_idle {cfg : Config α} {now : Int} {n left marked : Nat}
    {s : DualPi2QueueDisc α} (idle : canSchedule s left = (false, false)) :
    pendingDequeueLoop cfg now (n + 1) left marked s = .ok (marked, s) := by
  simp only [pendingDequeueLoop, idle, Bool.not_false, Bool.and_self, ↓reduceIte]

/-- When `Scheduler` picks L4S for a batch and the AQM step returns an item that fits the
budget left, the batch loop stages it and goes on with the budget less its framed size. -/
theorem pendingDequeueLoop_l4s_stage {cfg : Config α} {now : Int} {n left marked : Nat}
    {s s1 s2 : DualPi2QueueDisc α} {eligible : Bool × Bool} {qdItem : QueueDiscItem} {m : Bool}
    (sched : scheduler cfg s eligible = .ok (.l4s, s1))
    (deq : dequeueFromL4sQueue cfg now s1 = .ok (some qdItem, m, s2))
    (schedulable : canSchedule s left = eligible) (busy : (!eligible.1 && !eligible.2) = false)
    (fits : wifiSize qdItem ≤ left) :
    pendingDequeueLoop cfg now (n + 1) left marked s =
      pendingDequeueLoop cfg now n (left - wifiSize qdItem)
        (if m then marked + 1 else marked) (addToL4sStagingQueue s2 qdItem) := by
  simp only [pendingDequeueLoop, schedulable, busy, sched, deq, Bool.false_eq_true, ↓reduceIte,
    fits]

/-- Past its checks, a pending dequeue whose batch loop returns, with no marks or a positive
coupled probability, tops the L4S staging queue up to the L4S queue's length. -/
theorem pendingDequeueCallback_of_loop {cfg : Config α} {now : Int} {pendingBytes m : Nat}
    {s mid : DualPi2QueueDisc α}
    (queued : ¬pendingBytes > (getQueueSize (refreshSamples now s) +
      38 * getNPackets (refreshSamples now s)) % uint32Size)
    (loop : pendingDequeueLoop cfg now 1000 pendingBytes 0 (refreshSamples now s) = .ok (m, mid))
    (coupled : m = 0 ∨ 0 < mid.pCL) :
    pendingDequeueCallback cfg now true pendingBytes s =
      .ok { mid with
        l4sStagingQueue := markPending (mid.l4sQueue.length - m) mid.l4sStagingQueue } := by
  simp only [pendingDequeueCallback, Bool.not_true, Bool.false_eq_true, ↓reduceIte, queued, loop]
  split_ifs with violated longer
  · exact absurd coupled (by simpa [not_or] using violated)
  · rfl
  · rw [Nat.sub_eq_zero_of_le (not_lt.mp longer), markPending]

/-- A pending dequeue with no budget stages nothing and makes no marks: it takes the three
samples and, when the transmission queue is stopped, still runs the top-up, which sets to CE
the ECT(1) items of the L4S staging queue that have fewer than `|Q_L|` ECT(1) items before
them. Everything else is left as it was. -/
theorem pendingDequeueCallback_zero (cfg : Config α) (now : Int) (stopped : Bool)
    (s : DualPi2QueueDisc α) :
    pendingDequeueCallback cfg now stopped 0 s = .ok { s with
        cLatencySample := headSojourn now s.classicQueue
        lLatencySample := headSojourn now s.l4sQueue
        cBytesSample := getNBytes s.classicQueue
        l4sStagingQueue := markPending (if stopped then s.l4sQueue.length else 0)
          s.l4sStagingQueue } ∧
      ∀ i, (markPending (if stopped then s.l4sQueue.length else 0) s.l4sStagingQueue)[i]? =
        s.l4sStagingQueue[i]?.map fun x =>
          if stopped = true ∧ isEct1 x = true ∧
              (s.l4sStagingQueue.take i).countP isEct1 < s.l4sQueue.length
          then x.withCe else x := by
  cases stopped with
  | false =>
    refine ⟨?_, fun i => by simp [markPending]⟩
    simp only [pendingDequeueCallback, Bool.not_false, ↓reduceIte, Bool.false_eq_true,
      markPending, refreshSamples]
  | true =>
    have loop := @pendingDequeueLoop_idle _ _ cfg now 999 0 0 _
      (canSchedule_zero (refreshSamples now s))
    refine ⟨?_, fun i => by simpa using markPending_getElem? s.l4sQueue.length _ i⟩
    rw [pendingDequeueCallback_of_loop (Nat.not_lt_zero _) loop (.inl rfl)]
    rfl

/-- Past its checks, a pending dequeue that returns is its batch loop followed by the
top-up. -/
theorem pendingDequeueCallback_top_up {cfg : Config α} {now : Int} {pendingBytes : Nat}
    {s s' : DualPi2QueueDisc α}
    (queued : ¬pendingBytes > (getQueueSize (refreshSamples now s) +
      38 * getNPackets (refreshSamples now s)) % uint32Size)
    (run : pendingDequeueCallback cfg now true pendingBytes s = .ok s') :
    ∃ m mid, pendingDequeueLoop cfg now 1000 pendingBytes 0 (refreshSamples now s) =
        .ok (m, mid) ∧
      s' = { mid with
        l4sStagingQueue := markPending (mid.l4sQueue.length - m) mid.l4sStagingQueue } := by
  have callback := run
  simp only [pendingDequeueCallback, Bool.not_true, Bool.false_eq_true, ↓reduceIte,
    queued] at callback
  split at callback
  · cases callback
  · rename_i m mid loop
    have coupled : m = 0 ∨ 0 < mid.pCL := by
      by_contra violated
      simp only [not_or] at violated
      simp [violated.1, violated.2] at callback
    rw [pendingDequeueCallback_of_loop queued loop coupled] at run
    exact ⟨m, mid, loop, (Except.ok.inj run).symm⟩

/-- A batch loop only appends to the L4S staging queue, and every item it counts as marked
is a CE item among those it appends. -/
theorem pendingDequeueLoop_marks {cfg : Config α} {now : Int} :
    ∀ {n left marked m : Nat} {s s' : DualPi2QueueDisc α},
      pendingDequeueLoop cfg now n left marked s = .ok (m, s') →
      ∃ added, s'.l4sStagingQueue = s.l4sStagingQueue ++ added ∧
        m ≤ marked + added.countP isCe
  | 0, _, _, _, _, _, run => by cases run
  | n + 1, left, marked, m, s, s', run => by
    simp only [pendingDequeueLoop] at run
    split_ifs at run
    · cases run
      exact ⟨[], by simp⟩
    split at run
    · cases run
    · rename_i s1 sched
      have staged := ((scheduler_spec sched).1.staging).1
      split at run
      · cases run
      · rename_i s2 deq
        obtain ⟨added, grown, counted⟩ := pendingDequeueLoop_marks run
        refine ⟨added, ?_, counted⟩
        rw [grown, (dequeueFromL4sQueue_staging deq).1, staged]
      · rename_i x marked' s2 deq
        obtain ⟨_, _, taken, _, _, -, -, returned, -⟩ := dequeueFromL4sLoop_spec deq
        have ce : marked' = true → isCe x = true := by
          rintro rfl
          cases taken <;> cases returned
          rfl
        split_ifs at run with fits marks
        all_goals
          obtain ⟨added, grown, counted⟩ := pendingDequeueLoop_marks run
          refine ⟨x :: added, by
            simp [grown, addToL4sStagingQueue, (dequeueFromL4sQueue_staging deq).1, staged], ?_⟩
        · simp only [List.countP_cons, ce marks, ↓reduceIte]
          omega
        · simp only [List.countP_cons]
          omega
    · rename_i s1 sched
      have staged := ((scheduler_spec sched).1.staging).1
      split at run
      · rename_i _ s2 deq
        obtain ⟨added, grown, counted⟩ := pendingDequeueLoop_marks run
        refine ⟨added, ?_, counted⟩
        rw [grown, (dequeueFromClassicQueue_staging deq).1, staged]
      · rename_i x _ s2 deq
        split_ifs at run
        obtain ⟨added, grown, counted⟩ := pendingDequeueLoop_marks run
        refine ⟨added, ?_, counted⟩
        rw [grown]
        simp [addToClassicStagingQueue, (dequeueFromClassicQueue_staging deq).1, staged]
    · rename_i s1 sched
      cases run
      exact ⟨[], by simp [((scheduler_spec sched).2.2.2 rfl).2]⟩

/-- A pending dequeue of a reachable state keeps the L4S staging queue of its batch loop's
state made of L4S items. -/
theorem Reachable.pendingDequeueLoop_l4sStaging {cfg : Config α} {s mid : DualPi2QueueDisc α}
    {h : History} (reach : Reachable cfg s h) {now : Int} {n left marked m : Nat}
    (loop : pendingDequeueLoop cfg now n left marked (refreshSamples now s) = .ok (m, mid)) :
    ∀ x ∈ mid.l4sStagingQueue, isL4s x = true := by
  obtain ⟨acts, exec⟩ := reach.micro
  obtain ⟨more, batch⟩ := pendingDequeueLoop_micro h loop
  have conserved : Conserved mid h :=
    microExec_invariant (fun sys => Conserved sys.1 sys.2)
      (fun _ _ _ step conserved => microStep_conserved step conserved)
      (show microExec cfg (initialState, History.empty)
          (acts ++ .refreshSamples now :: more) = some (mid, h) by
        rw [microExec_append _ exec, microExec_cons (show microStep cfg (s, h)
          (.refreshSamples now) = some (refreshSamples now s, h) from rfl), batch])
      Conserved.initial
  exact fun x member => (conserved.2 true).isL4s_staging member

/-- A 100-byte ECT(1) item. -/
def batchA : QueueDiscItem := ⟨1, 100, 0, some .ect1, by decide⟩
/-- A second 100-byte ECT(1) item. -/
def batchB : QueueDiscItem := ⟨2, 100, 0, some .ect1, by decide⟩
/-- A 1000-byte ECT(1) item. -/
def batchBig : QueueDiscItem := ⟨3, 1000, 0, some .ect1, by decide⟩
/-- A third 100-byte ECT(1) item. -/
def batchC : QueueDiscItem := ⟨4, 100, 0, some .ect1, by decide⟩
/-- A fourth 100-byte ECT(1) item. -/
def batchD : QueueDiscItem := ⟨5, 100, 0, some .ect1, by decide⟩

/-- The three items queued and an update at 250 ms: `base_prob = 0.78525`, so `p_CL = 1`
(overload) and `p_C = 0.6166...`. -/
def updatedState : DualPi2QueueDisc ℚ :=
  { initialState with
    l4sQueue := [batchA, batchB, batchBig]
    baseProb := 3141 / 4000
    prevQ := 250000000
    pCL := 1
    pC := 9865881 / 16000000 }

/-- `updatedState` after one `DoDequeue`, which marked and returned `batchA`. -/
def overloadedState : DualPi2QueueDisc ℚ :=
  { updatedState with
    l4sQueue := [batchB, batchBig]
    l4sCount := 9865881 / 16000000
    drrQueues := ⟨true, true⟩
    llDeficit := 13400
    classicDeficit := 1500 }

/-- Three enqueues, an update at 250 ms and a dequeue at 250 ms reach `overloadedState`. -/
theorem overloadedState_reachable : ∃ h, Reachable defaultConfig overloadedState h := by
  have enqueued : run defaultConfig (initialState, History.empty)
      [.enqueue batchA, .enqueue batchB, .enqueue batchBig] =
      .ok ({ initialState with l4sQueue := [batchA, batchB, batchBig] },
        ((History.empty.recordEnqueue batchA true).recordEnqueue batchB
        true).recordEnqueue batchBig true) := by
    simp [run, step, doEnqueue, internalEnqueue, getQueueSize, getNBytes, initialState, batchA,
      batchB, batchBig, isL4s, Ecn.bits, defaultConfig, uint32Size]
  have updated : dualPi2Update defaultConfig 250000000
      { initialState with l4sQueue := [batchA, batchB, batchBig] } = .ok updatedState := by
    have raw : max ((0 : ℚ) + 0.15 * getSeconds (max 0 (250000000 - 0) - 15000000) +
        3 * getSeconds (max 0 (250000000 - 0) - 0)) 0 = 3141 / 4000 := by
      norm_num [getSeconds]
    simp only [dualPi2Update, classicQueueDelay, l4sQueueDelay, defaultConfig, initialState, batchA,
      updatedState, Bool.false_eq_true, ↓reduceIte, bind, Except.bind, pure, Except.pure]
    rw [raw]
    norm_num
  have pass : schedulerPass defaultConfig (true, true) 100 0 updatedState =
      .inl (.l4s, { updatedState with
        drrQueues := ⟨true, true⟩
        llDeficit := 13400
        classicDeficit := 1500 }) := by
    have quantum : defaultConfig.drrQuantum = 1500 := rfl
    have weight : defaultConfig.schedulingWeight = 9 := rfl
    simp [schedulerPass, startRound, updatedState, initialState, RoundMask.none, quantum, weight]
    norm_num
  have sched : scheduler defaultConfig updatedState (true, true) = _ :=
    scheduler_of_first_pass pass (by decide) rfl
  have deq : dequeueFromL4sQueue defaultConfig 250000000 { updatedState with
        drrQueues := ⟨true, true⟩
        llDeficit := 13400
        classicDeficit := 1500 } = .ok (some batchA.withCe, true, overloadedState) := by
    have pC : (9865881 / 16000000 : ℚ) < 1 := by norm_num
    rw [dequeueFromL4sQueue]
    refine (dequeueFromL4sLoop_overload_mark (by simp [updatedState, Config.pLmax])
      (by simp [recur, updatedState, initialState, pC.not_lt])
      (by norm_num [recur, updatedState, initialState])
      (show isL4s batchA = true from rfl)).trans ?_
    simp [overloadedState, updatedState, recur, initialState, pC.not_lt]
  have dequeued : doDequeue defaultConfig 250000000 updatedState =
      .ok (some batchA.withCe, overloadedState) := by
    have busy : getQueueSize updatedState > 0 := by decide
    rw [doDequeue_of_unstaged rfl rfl, doDequeueLoop, if_pos busy, sched]
    simp only [deq]
  have stepped : ∀ h, step defaultConfig
      ({ initialState with l4sQueue := [batchA, batchB, batchBig] }, h) (.update 250000000) =
      .ok (updatedState, h) := fun h => by simp only [step, updated]
  have served : ∀ h, step defaultConfig (updatedState, h) (.dequeue 250000000) =
      .ok (overloadedState, h.recordReturn (some batchA.withCe)) := fun h => by
    simp only [step, dequeued]
  exact ⟨_, .next (.next (run_reachable .start enqueued) (stepped _)) (served _)⟩

/-- `overloadedState` after the samples a pending dequeue at 250 ms takes. -/
def pendingState : DualPi2QueueDisc ℚ := refreshSamples 250000000 overloadedState

/-- From a reachable overloaded state, a pending dequeue with a 200-byte budget gets past its
checks and finds the 100-byte L4S head eligible (138 framed bytes). `DequeueFromL4sQueue` then
drops that head and returns the 1000-byte item behind it (1038 framed bytes), and the batch
loop fails its "insufficient pending bytes" assertion. -/
theorem pendingDequeue_overruns_budget :
    (∃ h, Reachable defaultConfig overloadedState h) ∧
      ¬200 > (getQueueSize pendingState + 38 * getNPackets pendingState) % uint32Size ∧
      canSchedule pendingState 200 = (false, true) ∧
      pendingDequeueCallback defaultConfig 250000000 true 200 overloadedState =
        .error "Error, insufficient pending bytes" := by
  have queued : ¬200 > (getQueueSize pendingState + 38 * getNPackets pendingState) %
      uint32Size := by decide
  refine ⟨overloadedState_reachable, queued, by decide, ?_⟩
  have pass : schedulerPass defaultConfig (false, true) 100 0 pendingState =
      .inl (.l4s, { pendingState with llDeficit := 13300 }) := by
    simp [schedulerPass, startRound, pendingState, refreshSamples, overloadedState, updatedState,
      RoundMask.none]
    norm_num
  have sched : scheduler defaultConfig pendingState (false, true) = _ :=
    scheduler_of_first_pass pass (by decide) rfl
  have pC : (9865881 / 16000000 : ℚ) < 1 := by norm_num
  obtain ⟨s2, deq⟩ : ∃ s2, dequeueFromL4sQueue defaultConfig 250000000
      { pendingState with llDeficit := 13300 } = .ok (some batchBig.withCe, true, s2) :=
    ⟨_, (dequeueFromL4sLoop_overload_drop (by simp [pendingState, refreshSamples,
      overloadedState, updatedState, Config.pLmax]) (by norm_num [recur, pendingState,
      refreshSamples, overloadedState, updatedState])).trans
      (dequeueFromL4sLoop_overload_mark (by simp [Config.pLmax, DualPi2QueueDisc.drop, pendingState,
      refreshSamples, overloadedState, updatedState]) (by norm_num [recur, DualPi2QueueDisc.drop,
      pendingState, refreshSamples, overloadedState, updatedState]) (by norm_num [recur,
      DualPi2QueueDisc.drop, pendingState, refreshSamples, overloadedState, updatedState])
      (show isL4s batchBig = true from rfl))⟩
  have loop : pendingDequeueLoop defaultConfig 250000000 1000 200 0 pendingState =
      .error "Error, insufficient pending bytes" :=
    pendingDequeueLoop_l4s_over_budget sched deq (by decide) rfl (by decide)
  exact pendingDequeueCallback_of_loop_error queued loop


/-- `batchA` and `batchB` queued from the initial state. -/
def twoItemState : DualPi2QueueDisc ℚ := { initialState with l4sQueue := [batchA, batchB] }

/-- Past its stopped-queue and `queueDiscPending` checks, a pending dequeue of a reachable
state that returns tops up the L4S staging queue `S_L` of its batch loop's state. With `m`
marks made by the batch loop and `r` items left in the L4S queue, it sets to CE the ECT(1)
items of `S_L` that have fewer than `r - m` ECT(1) items before them, `min (r - m) e` of
its `e` ECT(1) items, and changes nothing else. Afterwards at least `min |S_L| r` items of
`S_L` are CE. -/
theorem reachable_pendingDequeue_top_up {cfg : Config α} {s s' : DualPi2QueueDisc α}
    {h : History} (reach : Reachable cfg s h) {now : Int} {pendingBytes : Nat}
    (queued : ¬pendingBytes > (getQueueSize (refreshSamples now s) +
      38 * getNPackets (refreshSamples now s)) % uint32Size)
    (run : pendingDequeueCallback cfg now true pendingBytes s = .ok s') :
    ∃ m mid, pendingDequeueLoop cfg now 1000 pendingBytes 0 (refreshSamples now s) =
        .ok (m, mid) ∧
      s' = { mid with
        l4sStagingQueue := markPending (mid.l4sQueue.length - m) mid.l4sStagingQueue } ∧
      (∀ i, s'.l4sStagingQueue[i]? = mid.l4sStagingQueue[i]?.map fun x =>
        if isEct1 x = true ∧
            (mid.l4sStagingQueue.take i).countP isEct1 < mid.l4sQueue.length - m
        then x.withCe else x) ∧
      s'.l4sStagingQueue.countP isCe = mid.l4sStagingQueue.countP isCe +
        min (mid.l4sQueue.length - m) (mid.l4sStagingQueue.countP isEct1) ∧
      s'.l4sStagingQueue.countP isEct1 +
          min (mid.l4sQueue.length - m) (mid.l4sStagingQueue.countP isEct1) =
        mid.l4sStagingQueue.countP isEct1 ∧
      min s'.l4sStagingQueue.length s'.l4sQueue.length ≤ s'.l4sStagingQueue.countP isCe := by
  obtain ⟨m, mid, loop, rfl⟩ := pendingDequeueCallback_top_up queued run
  refine ⟨m, mid, loop, rfl, markPending_getElem? _ _, countP_isCe_markPending _ _,
    countP_isEct1_markPending _ _, ?_⟩
  obtain ⟨added, grown, counted⟩ := pendingDequeueLoop_marks loop
  have prior : m ≤ mid.l4sStagingQueue.countP isCe := by
    rw [grown, List.countP_append]
    omega
  have codepoints := length_eq_countP_isEct1_add_isCe (reach.pendingDequeueLoop_l4sStaging loop)
  have topped := countP_isCe_markPending (mid.l4sQueue.length - m) mid.l4sStagingQueue
  simp only [markPending_length]
  omega

/-- A pending dequeue of 138 bytes from `twoItemState` stages `batchA` unmarked, and the
top-up then sets it to CE for the item left in the L4S queue. -/
theorem reachable_pendingDequeue_top_up_two_items :
    ∃ h s', Reachable defaultConfig twoItemState h ∧
      ¬138 > (getQueueSize (refreshSamples 0 twoItemState) +
        38 * getNPackets (refreshSamples 0 twoItemState)) % uint32Size ∧
      pendingDequeueCallback defaultConfig 0 true 138 twoItemState = .ok s' ∧
      min s'.l4sStagingQueue.length s'.l4sQueue.length ≤ s'.l4sStagingQueue.countP isCe := by
  have enqueued : run defaultConfig (initialState, History.empty)
      [.enqueue batchA, .enqueue batchB] =
      .ok (twoItemState,
        (History.empty.recordEnqueue batchA true).recordEnqueue batchB true) := by
    simp [run, step, doEnqueue, internalEnqueue, getQueueSize, getNBytes, initialState, batchA,
      batchB, isL4s, Ecn.bits, defaultConfig, uint32Size, twoItemState]
  have reach := run_reachable .start enqueued
  have queued : ¬138 > (getQueueSize (refreshSamples 0 twoItemState) +
      38 * getNPackets (refreshSamples 0 twoItemState)) % uint32Size := by decide
  have refreshed : refreshSamples 0 twoItemState = twoItemState := rfl
  have pass : schedulerPass defaultConfig (false, true) 100 0 twoItemState =
      .inl (.l4s, { twoItemState with
        drrQueues := ⟨true, true⟩
        llDeficit := 13400
        classicDeficit := 1500 }) := by
    have quantum : defaultConfig.drrQuantum = 1500 := rfl
    have weight : defaultConfig.schedulingWeight = 9 := rfl
    simp [schedulerPass, startRound, twoItemState, initialState, RoundMask.none, quantum, weight]
    norm_num
  have sched : scheduler defaultConfig twoItemState (false, true) = _ :=
    scheduler_of_first_pass pass (by decide) rfl
  have deq : dequeueFromL4sQueue defaultConfig 0 { twoItemState with
        drrQueues := ⟨true, true⟩
        llDeficit := 13400
        classicDeficit := 1500 } =
      .ok (some batchA, false, { twoItemState with
        l4sQueue := [batchB]
        drrQueues := ⟨true, true⟩
        llDeficit := 13400
        classicDeficit := 1500 }) := by
    have below : (0 : ℚ) < 1 := zero_lt_one
    simp only [dequeueFromL4sQueue, twoItemState, dequeueFromL4sLoop, initialState, Config.pLmax,
      below, ↓reduceIte, Config.thLen, List.length_singleton, gt_iff_lt, lt_self_iff_false,
      max_self, zero_le_one, min_eq_left, recur, zero_add, not_lt.mpr zero_le_one, markL4s,
      Bool.false_eq_true]
  have schedulable : canSchedule twoItemState 138 = (false, true) := by decide
  have fits : wifiSize batchA ≤ 138 := by decide
  have staged := @pendingDequeueLoop_l4s_stage _ _ _ _ 999 _ 0 _ _ _ _ _ _ sched deq
    schedulable rfl fits
  have loop : pendingDequeueLoop defaultConfig 0 1000 138 0 (refreshSamples 0 twoItemState) =
      .ok (0, addToL4sStagingQueue { twoItemState with
        l4sQueue := [batchB]
        drrQueues := ⟨true, true⟩
        llDeficit := 13400
        classicDeficit := 1500 } batchA) := by
    rw [refreshed, staged]
    exact pendingDequeueLoop_idle (by decide)
  have run := pendingDequeueCallback_of_loop queued loop (.inl rfl)
  obtain ⟨-, -, -, -, -, -, -, bound⟩ := reachable_pendingDequeue_top_up reach queued run
  exact ⟨_, _, reach, queued, run, bound⟩

/-- `batchA`, `batchB` and `batchC` queued from the initial state. -/
def threeItemState : DualPi2QueueDisc ℚ :=
  { initialState with l4sQueue := [batchA, batchB, batchC] }

/-- `threeItemState` after a pending dequeue of 276 bytes at time 0: the batch staged `batchA`
and `batchB` unmarked, and the top-up set `batchA` to CE for the item left queued. -/
def stagedState : DualPi2QueueDisc ℚ :=
  { initialState with
    l4sQueue := [batchC]
    l4sStagingQueue := [batchA.withCe, batchB]
    drrQueues := ⟨true, true⟩
    llDeficit := 13300
    classicDeficit := 1500 }

theorem stagedState_reachable : ∃ h, Reachable defaultConfig stagedState h := by
  have enqueued : run defaultConfig (initialState, History.empty)
      [.enqueue batchA, .enqueue batchB, .enqueue batchC] =
      .ok (threeItemState, ((History.empty.recordEnqueue batchA true).recordEnqueue batchB
        true).recordEnqueue batchC true) := by
    simp [run, step, doEnqueue, internalEnqueue, getQueueSize, getNBytes, initialState, batchA,
      batchB, batchC, isL4s, Ecn.bits, defaultConfig, uint32Size, threeItemState]
  have quantum : defaultConfig.drrQuantum = 1500 := rfl
  have weight : defaultConfig.schedulingWeight = 9 := rfl
  have pass : schedulerPass defaultConfig (false, true) 100 0 threeItemState =
      .inl (.l4s, { threeItemState with
        drrQueues := ⟨true, true⟩
        llDeficit := 13400
        classicDeficit := 1500 }) := by
    simp [schedulerPass, startRound, threeItemState, initialState, RoundMask.none, quantum, weight]
    norm_num
  have sched : scheduler defaultConfig threeItemState (false, true) = _ :=
    scheduler_of_first_pass pass (by decide) rfl
  have quiet : laqm defaultConfig 0 = (0 : ℚ) := by simp [laqm, defaultConfig]
  have below : (0 : ℚ) < 1 := zero_lt_one
  have deq : dequeueFromL4sQueue defaultConfig 0 { threeItemState with
        drrQueues := ⟨true, true⟩
        llDeficit := 13400
        classicDeficit := 1500 } =
      .ok (some batchA, false, { threeItemState with
        l4sQueue := [batchB, batchC]
        drrQueues := ⟨true, true⟩
        llDeficit := 13400
        classicDeficit := 1500 }) := by
    simp only [dequeueFromL4sQueue, threeItemState, dequeueFromL4sLoop, initialState,
      Config.pLmax, below, ↓reduceIte, Config.thLen, List.length_cons, List.length_nil,
      show batchA.timeStamp = 0 from rfl, sub_self, quiet, ite_self, max_self, zero_le_one,
      min_eq_left, recur, zero_add, gt_iff_lt, not_lt.mpr zero_le_one, markL4s,
      Bool.false_eq_true]
  have staged := @pendingDequeueLoop_l4s_stage _ _ _ _ 999 276 0 _ _ _ _ _ _ sched deq
    (by decide) rfl (by decide)
  have sched' : scheduler defaultConfig (addToL4sStagingQueue
      { threeItemState with
        l4sQueue := [batchB, batchC]
        drrQueues := ⟨true, true⟩
        llDeficit := 13400
        classicDeficit := 1500 } batchA) (false, true) = _ :=
    @scheduler_of_l4s_fits _ _ _ _ _ 13300 rfl rfl (by decide)
      (by norm_num [addToL4sStagingQueue, headSize, batchB])
      (by norm_num [addToL4sStagingQueue, headSize, batchB])
  have deq' : dequeueFromL4sQueue defaultConfig 0 (addToL4sStagingQueue
      { threeItemState with
        l4sQueue := [batchB, batchC]
        drrQueues := ⟨true, true⟩
        llDeficit := 13300
        classicDeficit := 1500 } batchA) =
      .ok (some batchB, false, addToL4sStagingQueue { threeItemState with
        l4sQueue := [batchC]
        drrQueues := ⟨true, true⟩
        llDeficit := 13300
        classicDeficit := 1500 } batchA) := by
    simp only [dequeueFromL4sQueue, addToL4sStagingQueue, threeItemState, dequeueFromL4sLoop,
      initialState, Config.pLmax, below, ↓reduceIte, Config.thLen, List.length_singleton,
      gt_iff_lt, lt_self_iff_false, max_self, zero_le_one, min_eq_left, recur, zero_add,
      not_lt.mpr zero_le_one, markL4s, Bool.false_eq_true]
  have staged' := @pendingDequeueLoop_l4s_stage _ _ _ _ 998 138 0 _ _ _ _ _ _ sched' deq'
    (by decide) rfl (by decide)
  have loop : pendingDequeueLoop defaultConfig 0 1000 276 0 (refreshSamples 0 threeItemState) =
      _ := staged.trans (staged'.trans (pendingDequeueLoop_idle (canSchedule_zero _)))
  have pending : ∀ h, step defaultConfig (threeItemState, h) (.pendingDequeue 0 true 276) =
      .ok (stagedState, h) := fun h => by
    simp only [step, pendingDequeueCallback_of_loop (by decide) loop (.inl rfl)]
    rfl
  exact ⟨_, .next (run_reachable .start enqueued) (pending _)⟩

/-- `stagedState` is reachable with `batchB` still ECT(1) in the L4S staging queue and one
item queued. A pending dequeue of 0 bytes into a stopped queue then sets `batchB` to CE. -/
theorem pendingDequeue_zero_marks_staged :
    (∃ h, Reachable defaultConfig stagedState h) ∧
      stagedState.l4sStagingQueue = [batchA.withCe, batchB] ∧
      pendingDequeueCallback defaultConfig 0 true 0 stagedState =
        .ok { stagedState with l4sStagingQueue := [batchA.withCe, batchB.withCe] } := by
  have loop := @pendingDequeueLoop_idle _ _ defaultConfig 0 999 0 0 _
    (canSchedule_zero (refreshSamples 0 stagedState))
  refine ⟨stagedState_reachable, rfl, ?_⟩
  rw [pendingDequeueCallback_of_loop (Nat.not_lt_zero _) loop (.inl rfl)]
  rfl

end DualPi2

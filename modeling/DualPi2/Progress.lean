import DualPi2.Drr
import DualPi2.Marking
import DualPi2.Capacity

namespace DualPi2

theorem headSize_le_bytes : ∀ queue : List QueueDiscItem, headSize queue ≤ bytes queue
  | [] => le_rfl
  | x :: rest => by simp

theorem TakesAfter.suffix {queue ds rest : List QueueDiscItem} {taken : Option QueueDiscItem}
    (takes : TakesAfter queue ds rest taken) : rest <:+ queue := by
  cases taken with
  | none => obtain ⟨-, rfl⟩ := takes; exact List.nil_suffix
  | some x =>
    rw [show queue = _ from takes]
    exact (List.suffix_cons x rest).trans (List.suffix_append _ _)

theorem bytes_le_of_suffix {xs ys : List QueueDiscItem} (suffix : xs <:+ ys) :
    bytes xs ≤ bytes ys := by
  obtain ⟨pre, rfl⟩ := suffix
  simp

variable {α : Type} [LinearOrderedField α]

/-- What `DoDequeue`'s loop needs of a state to make progress: non-negative deficits, only L4S
items in the L4S queue, at most `m_queueLimit` bytes queued, and queued items of positive
size none of which is large enough for `DoEnqueue`'s `uint32_t` sum to wrap. -/
structure Serviceable (cfg : Config α) (s : DualPi2QueueDisc α) : Prop where
  nonneg : s.DeficitsNonneg
  l4sOnly : L4sOnly s
  within : bytes s.classicQueue + bytes s.l4sQueue ≤ cfg.queueLimit
  sizes : ∀ x ∈ s.l4sQueue ++ s.classicQueue,
    0 < x.size ∧ x.size + cfg.queueLimit < uint32Size

theorem Serviceable.getQueueSize {cfg : Config α} {s : DualPi2QueueDisc α}
    (ok : Serviceable cfg s) : getQueueSize s = bytes s.classicQueue + bytes s.l4sQueue :=
  getQueueSize_eq_bytes (lt_of_le_of_lt ok.within cfg.queueLimit_lt)

/-- A queued head is below `2^31` bytes, well within the iterations `Scheduler`'s guard
admits. -/
theorem Serviceable.heads_small {cfg : Config α} {s : DualPi2QueueDisc α}
    (ok : Serviceable cfg s) :
    headSize s.l4sQueue < schedulerIterations ∧
      headSize s.classicQueue < schedulerIterations := by
  have small : ∀ queue : List QueueDiscItem,
      (∀ x ∈ queue, x.size + cfg.queueLimit < uint32Size) →
      bytes queue ≤ cfg.queueLimit → headSize queue < schedulerIterations := by
    intro queue sizes within
    have head : headSize queue + cfg.queueLimit < uint32Size := by
      cases queue with
      | nil => simpa using cfg.queueLimit_lt
      | cons x rest => simpa using sizes x (List.mem_cons_self x rest)
    have := headSize_le_bytes queue
    unfold schedulerIterations
    unfold uint32Size at head ⊢
    omega
  have within := ok.within
  exact ⟨small _ (fun x member => (ok.sizes x (by simp [member])).2) (by omega),
    small _ (fun x member => (ok.sizes x (by simp [member])).2) (by omega)⟩

/-- Serviceability survives any change that only shortens the internal queues from their heads
and keeps the deficits non-negative. -/
theorem Serviceable.descend {cfg : Config α} {s s' : DualPi2QueueDisc α} (ok : Serviceable cfg s)
    (l4s : s'.l4sQueue <:+ s.l4sQueue) (classic : s'.classicQueue <:+ s.classicQueue)
    (nonneg : s'.DeficitsNonneg) : Serviceable cfg s' where
  nonneg := nonneg
  l4sOnly := fun x member => ok.l4sOnly x (l4s.subset member)
  within := by
    have := bytes_le_of_suffix l4s
    have := bytes_le_of_suffix classic
    have := ok.within
    omega
  sizes := fun x member => ok.sizes x (by
    rcases List.mem_append.mp member with queue | queue
    · exact List.mem_append_left _ (l4s.subset queue)
    · exact List.mem_append_right _ (classic.subset queue))

/-- `s'` is `s` after `Scheduler` calls and AQM dequeues: each internal queue a suffix of what it
was, the staging queues unchanged, and only AQM drops recorded. -/
def AqmDescends (s s' : DualPi2QueueDisc α) : Prop :=
  s'.l4sQueue <:+ s.l4sQueue ∧ s'.classicQueue <:+ s.classicQueue ∧
    s'.l4sStagingQueue = s.l4sStagingQueue ∧ s'.classicStagingQueue = s.classicStagingQueue ∧
    ∃ drops : List (DropReason × QueueDiscItem), s'.dropped = s.dropped ++ drops ∧
      ∀ d ∈ drops, d.1 = .unforcedL4sDrop ∨ d.1 = .unforcedClassicDrop

omit [LinearOrderedField α] in
theorem AqmDescends.refl (s : DualPi2QueueDisc α) : AqmDescends s s :=
  ⟨List.suffix_refl _, List.suffix_refl _, rfl, rfl, [], by simp, by simp⟩

omit [LinearOrderedField α] in
theorem AqmDescends.trans {s t u : DualPi2QueueDisc α} (first : AqmDescends s t)
    (second : AqmDescends t u) : AqmDescends s u := by
  obtain ⟨l1, c1, sl1, sc1, drops1, dropped1, aqm1⟩ := first
  obtain ⟨l2, c2, sl2, sc2, drops2, dropped2, aqm2⟩ := second
  refine ⟨l2.trans l1, c2.trans c1, sl2.trans sl1, sc2.trans sc1, drops1 ++ drops2,
    by rw [dropped2, dropped1, List.append_assoc], fun d member => ?_⟩
  rcases List.mem_append.mp member with early | late
  exacts [aqm1 d early, aqm2 d late]

/-- One service of the L4S queue from a serviceable state: the queue only loses items from its
head, and an empty result means the AQM emptied it. -/
theorem Serviceable.serveL4s {cfg : Config α} {now : Int} {s s' : DualPi2QueueDisc α}
    {r : Option QueueDiscItem} {marked : Bool} (ok : Serviceable cfg s)
    (run : dequeueFromL4sQueue cfg now s = .ok (r, marked, s')) :
    Serviceable cfg s' ∧ AqmDescends s s' ∧ (r = none → s'.l4sQueue = []) ∧
      s'.classicQueue = s.classicQueue ∧
      ∀ y, r = some y → ∃ x ∈ s.l4sQueue, Evolved x y := by
  obtain ⟨ds, rest, taken, _, _, rfl, takes, rfl, -⟩ := dequeueFromL4sLoop_spec run
  refine ⟨ok.descend takes.suffix (List.suffix_refl _) ok.nonneg,
    ⟨takes.suffix, List.suffix_refl _, rfl, rfl, ds.map (.unforcedL4sDrop, ·), rfl, by simp⟩,
    fun none => ?_, rfl, fun y some => ?_⟩
  · cases taken with
    | none => exact takes.2
    | some x => cases none
  · cases taken with
    | none => cases some
    | some x =>
      cases some
      have member : x ∈ s.l4sQueue := by rw [show s.l4sQueue = _ from takes]; simp
      cases marked
      · exact ⟨x, member, .refl x⟩
      · exact ⟨x, member, .inr ⟨ok.l4sOnly x member, rfl⟩⟩

/-- One service of the Classic queue, as `Serviceable.serveL4s`. -/
theorem Serviceable.serveClassic {cfg : Config α} {s s' : DualPi2QueueDisc α}
    {r : Option QueueDiscItem} {dropped : Bool} (ok : Serviceable cfg s)
    (run : dequeueFromClassicQueue cfg s = (r, dropped, s')) :
    Serviceable cfg s' ∧ AqmDescends s s' ∧ (r = none → s'.classicQueue = []) ∧
      s'.l4sQueue = s.l4sQueue ∧ ∀ y, r = some y → ∃ x ∈ s.classicQueue, Evolved x y := by
  obtain ⟨ds, rest, _, rfl, takes⟩ := dequeueFromClassicQueue_spec run
  refine ⟨ok.descend (List.suffix_refl _) takes.suffix ok.nonneg,
    ⟨List.suffix_refl _, takes.suffix, rfl, rfl, ds.map (.unforcedClassicDrop, ·), rfl,
      by simp⟩,
    fun none => ?_, rfl, fun y some => ?_⟩
  · cases r with
    | none => exact takes.2
    | some x => cases none
  · subst some
    exact ⟨y, by rw [show s.classicQueue = _ from takes]; simp, .refl y⟩

/-- With a positive quantum, `DoDequeue`'s loop started from a serviceable state with more
iterations than packets queued returns: an item of an internal queue, unchanged or set to CE,
or no item with both internal queues empty, after AQM drops only. -/
theorem doDequeueLoop_enough_fuel {cfg : Config α} (quantum : 0 < cfg.drrQuantum) (now : Int) :
    ∀ {n : Nat} {s : DualPi2QueueDisc α}, Serviceable cfg s → getNPackets s < n →
      ∃ r s', doDequeueLoop cfg now n s = .ok (r, s') ∧ AqmDescends s s' ∧
        (r = none → s'.l4sQueue = [] ∧ s'.classicQueue = []) ∧
        ∀ y, r = some y → ∃ x ∈ s.l4sQueue ++ s.classicQueue, Evolved x y
  | 0, _, _, fuel => absurd fuel (Nat.not_lt_zero _)
  | n + 1, s, ok, fuel => by
    have positive : ∀ x ∈ s.l4sQueue ++ s.classicQueue, 0 < x.size :=
      fun x member => (ok.sizes x member).1
    by_cases busy : getQueueSize s > 0
    · have waiting : getNPackets s ≠ 0 := by
        intro none
        simp only [getNPackets, Nat.add_eq_zero, List.length_eq_zero] at none
        simp [ok.getQueueSize, none.1, none.2] at busy
      obtain ⟨⟨r, s1⟩, sched⟩ :=
        scheduler_selects cfg quantum ok.nonneg positive waiting ok.heads_small
      obtain ⟨frame, l4s, classic, idle⟩ := scheduler_spec sched
      have ok1 : Serviceable cfg s1 := ok.descend (by rw [frame.queues.1])
        (by rw [frame.queues.2])
        (scheduler_preserves _ (schedulerPass_deficitsNonneg cfg _ _ _) sched ok.nonneg)
      have descends1 : AqmDescends s s1 := ⟨by rw [frame.queues.1], by rw [frame.queues.2],
        frame.staging.1, frame.staging.2, [], by rw [frame]; simp, by simp⟩
      have lift : ∀ y, (∃ x ∈ s1.l4sQueue ++ s1.classicQueue, Evolved x y) →
          ∃ x ∈ s.l4sQueue ++ s.classicQueue, Evolved x y := by
        rw [frame.queues.1, frame.queues.2]; exact fun _ found => found
      cases r with
      | none => exact absurd (idle rfl).1 waiting
      | l4s =>
        cases deq : dequeueFromL4sQueue cfg now s1 with
        | error message => exact absurd deq ok1.l4sOnly.l4sDequeue_ok
        | ok result =>
          obtain ⟨taken, marked, s2⟩ := result
          obtain ⟨ok2, descends2, emptied, same, evolved⟩ := ok1.serveL4s deq
          cases taken with
          | some y =>
            refine ⟨some y, s2, by simp [doDequeueLoop, busy, sched, deq],
              descends1.trans descends2, by simp, fun y' found => lift y' ?_⟩
            obtain ⟨x, member, related⟩ := evolved y' found
            exact ⟨x, List.mem_append_left _ member, related⟩
          | none =>
            have fewer : getNPackets s2 < n := by
              have nonempty := List.length_pos.mpr (l4s rfl).1
              simp only [getNPackets, emptied rfl, same, frame.queues.2,
                List.length_nil] at fuel ⊢
              omega
            obtain ⟨r, s', run, descends', empty, evolved'⟩ :=
              doDequeueLoop_enough_fuel quantum now ok2 fewer
            refine ⟨r, s', by simp [doDequeueLoop, busy, sched, deq, run],
              descends1.trans (descends2.trans descends'), empty, fun y found => lift y ?_⟩
            obtain ⟨x, member, related⟩ := evolved' y found
            exact ⟨x, List.mem_append.mpr ((List.mem_append.mp member).imp
              (fun m => descends2.1.subset m) (fun m => descends2.2.1.subset m)), related⟩
      | classic =>
        cases deq : dequeueFromClassicQueue cfg s1 with
        | mk taken rest =>
          obtain ⟨dropped, s2⟩ := rest
          obtain ⟨ok2, descends2, emptied, same, evolved⟩ := ok1.serveClassic deq
          cases taken with
          | some y =>
            refine ⟨some y, s2, by simp [doDequeueLoop, busy, sched, deq],
              descends1.trans descends2, by simp, fun y' found => lift y' ?_⟩
            obtain ⟨x, member, related⟩ := evolved y' found
            exact ⟨x, List.mem_append_right _ member, related⟩
          | none =>
            have fewer : getNPackets s2 < n := by
              have nonempty := List.length_pos.mpr (classic rfl).1
              simp only [getNPackets, emptied rfl, same, frame.queues.1,
                List.length_nil] at fuel ⊢
              omega
            obtain ⟨r, s', run, descends', empty, evolved'⟩ :=
              doDequeueLoop_enough_fuel quantum now ok2 fewer
            refine ⟨r, s', by simp [doDequeueLoop, busy, sched, deq, run],
              descends1.trans (descends2.trans descends'), empty, fun y found => lift y ?_⟩
            obtain ⟨x, member, related⟩ := evolved' y found
            exact ⟨x, List.mem_append.mpr ((List.mem_append.mp member).imp
              (fun m => descends2.1.subset m) (fun m => descends2.2.1.subset m)), related⟩
    · have empty : bytes s.classicQueue + bytes s.l4sQueue = 0 := by
        rw [← ok.getQueueSize]; omega
      refine ⟨none, s, by simp [doDequeueLoop, busy], .refl s, fun _ => ⟨?_, ?_⟩, by simp⟩
      · exact (bytes_eq_zero fun x member => positive x (by simp [member])).mp (by omega)
      · exact (bytes_eq_zero fun x member => positive x (by simp [member])).mp (by omega)

omit [LinearOrderedField α] in
theorem Conserved.mem_enqueued {s : DualPi2QueueDisc α} {h : History} (conserved : Conserved s h)
    {x : QueueDiscItem} (member : x ∈ s.l4sQueue ++ s.classicQueue) : x ∈ h.enqueued := by
  have accepted : x ∈ h.accepted := by
    rcases List.mem_append.mp member with queue | queue
    · obtain ⟨pre, split, -⟩ := conserved.2 true
      exact List.mem_of_mem_filter
        (split ▸ (List.mem_append_right pre queue : x ∈ pre ++ s.internalQueue true))
    · obtain ⟨pre, split, -⟩ := conserved.2 false
      exact List.mem_of_mem_filter
        (split ▸ (List.mem_append_right pre queue : x ∈ pre ++ s.internalQueue false))
  obtain ⟨y, inEnqueued, rfl⟩ := conserved.1.mem_kept accepted
  exact inEnqueued

/-- A reachable state of a run whose items have a positive size too small for `DoEnqueue`'s
sum to wrap is serviceable. -/
theorem Reachable.serviceable {cfg : Config α} {s : DualPi2QueueDisc α} {h : History}
    (reach : Reachable cfg s h)
    (sizes : ∀ x ∈ h.enqueued, 0 < x.size ∧ x.size + cfg.queueLimit < uint32Size) :
    Serviceable cfg s where
  nonneg := reach.deficitsNonneg
  l4sOnly := fun _ member => (reach.conserved.2 true).isL4s_queue member
  within := reach.withinLimit fun x member => (sizes x member).2
  sizes := fun x member => sizes x (reach.conserved.mem_enqueued member)

/-- With a positive quantum, in a run whose enqueued items all have a positive size too small
for `DoEnqueue`'s `uint32_t` sum to wrap, `DoDequeue` returns from every reachable state. It
hands out the L4S staging head if there is one, else the Classic staging head, and otherwise
an item of an internal queue, unchanged or set to CE, after AQM drops only; it returns no item
only when all four queues are then empty. -/
theorem reachable_doDequeue_serves {cfg : Config α} (quantum : 0 < cfg.drrQuantum)
    {s : DualPi2QueueDisc α} {h : History} (reach : Reachable cfg s h)
    (sizes : ∀ x ∈ h.enqueued, 0 < x.size ∧ x.size + cfg.queueLimit < uint32Size)
    (now : Int) :
    ∃ r s', doDequeue cfg now s = .ok (r, s') ∧
      (r = none → s'.l4sStagingQueue = [] ∧ s'.classicStagingQueue = [] ∧
        s'.l4sQueue = [] ∧ s'.classicQueue = []) ∧
      (∀ y rest, s.l4sStagingQueue = y :: rest →
        r = some y ∧ s' = { s with l4sStagingQueue := rest }) ∧
      (∀ y rest, s.l4sStagingQueue = [] → s.classicStagingQueue = y :: rest →
        r = some y ∧ s' = { s with classicStagingQueue := rest }) ∧
      (s.l4sStagingQueue = [] → s.classicStagingQueue = [] → AqmDescends s s' ∧
        ∀ y, r = some y → ∃ x ∈ s.l4sQueue ++ s.classicQueue, Evolved x y) := by
  cases stagedL : s.l4sStagingQueue with
  | cons y rest =>
    refine ⟨some y, { s with l4sStagingQueue := rest },
      by simp [doDequeue, dequeueFromL4sStagingQueue, stagedL], by simp, ?_, by simp, by simp⟩
    intro y' rest' same
    cases same
    exact ⟨rfl, rfl⟩
  | nil =>
    cases stagedC : s.classicStagingQueue with
    | cons y rest =>
      refine ⟨some y, { s with classicStagingQueue := rest }, by
        simp [doDequeue, dequeueFromL4sStagingQueue, dequeueFromClassicStagingQueue, stagedL,
          stagedC], by simp, by simp, ?_, by simp⟩
      intro y' rest' _ same
      cases same
      exact ⟨rfl, by rw [← stagedL]⟩
    | nil =>
      obtain ⟨r, s', run, descends, empty, evolved⟩ :=
        doDequeueLoop_enough_fuel quantum now (reach.serviceable sizes) (Nat.lt_succ_self _)
      refine ⟨r, s', by simp [doDequeue, dequeueFromL4sStagingQueue,
        dequeueFromClassicStagingQueue, stagedL, stagedC, run], fun none => ?_, by simp,
        by simp, fun _ _ => ⟨descends, evolved⟩⟩
      exact ⟨descends.2.2.1.trans stagedL, descends.2.2.2.1.trans stagedC, empty none⟩


/-- A run that queues one 1000-byte L4S item under the defaults meets the hypotheses, and
`DoDequeue` returns there. -/
theorem reachable_doDequeue_serves_one_packet :
    (0 < defaultConfig.drrQuantum ∧
      ∀ x ∈ (History.empty.recordEnqueue l4sPacket true).enqueued,
        0 < x.size ∧ x.size + defaultConfig.queueLimit < uint32Size) ∧
      ∃ r s', doDequeue defaultConfig 0
        ({ initialState with l4sQueue := [l4sPacket] } : DualPi2QueueDisc ℚ) = .ok (r, s') := by
  have quantum : 0 < defaultConfig.drrQuantum := by decide
  have sizes : ∀ x ∈ (History.empty.recordEnqueue l4sPacket true).enqueued,
      0 < x.size ∧ x.size + defaultConfig.queueLimit < uint32Size := by
    simp [History.recordEnqueue, History.empty, l4sPacket, defaultConfig, uint32Size]
  obtain ⟨r, s', run, -⟩ := reachable_doDequeue_serves quantum l4sPacket_reachable sizes 0
  exact ⟨⟨quantum, sizes⟩, r, s', run⟩

/-- With nothing staged and bytes queued, `DoDequeue` fails exactly as `Scheduler` does. -/
theorem doDequeue_of_scheduler_error {cfg : Config α} {now : Int} {s : DualPi2QueueDisc α}
    {message : String} (stagedL : s.l4sStagingQueue = []) (stagedC : s.classicStagingQueue = [])
    (busy : getQueueSize s > 0) (sched : scheduler cfg s (true, true) = .error message) :
    doDequeue cfg now s = .error message := by
  rw [doDequeue_of_unstaged stagedL stagedC, doDequeueLoop, if_pos busy, sched]

/-- With nothing staged and `GetQueueSize ()` at 0, `DoDequeue` returns no item and changes
nothing. -/
theorem doDequeue_of_idle {cfg : Config α} {now : Int} {s : DualPi2QueueDisc α}
    (stagedL : s.l4sStagingQueue = []) (stagedC : s.classicStagingQueue = [])
    (idle : getQueueSize s = 0) : doDequeue cfg now s = .ok (none, s) := by
  rw [doDequeue_of_unstaged stagedL stagedC, doDequeueLoop, if_neg (by omega)]

/-- `m_queueLimit` at its largest, with a one-byte quantum and weight 1. -/
def unitQuantumConfig : Config ℚ :=
  { defaultConfig with
    queueLimit := 4294967295
    schedulingWeight := 1
    drrQuantum := 1
    queueLimit_lt := by decide
    schedulingWeight_ge := le_rfl
    drrQuantum_lt := by decide }

/-- A Not-ECT item of `2^32 - 1` bytes. -/
def maxClassicPacket : QueueDiscItem := ⟨1, 4294967295, 0, some .notEct, by decide⟩

/-- A Not-ECT item of `2^32 - 1000` bytes: behind `l4sPacket` the `uint32_t` byte counters
sum to 0. -/
def wrappingClassicPacket : QueueDiscItem := ⟨2, 4294966296, 0, some .notEct, by decide⟩

/-- `DoDequeue` does not always return an item while packets are queued, even with positive
sizes and quantum. A Classic head longer than all the quanta `Scheduler`'s guard admits ends in
`NS_FATAL_ERROR`; and once `DoEnqueue`'s `uint32_t` sum has wrapped, `GetQueueSize ()` is 0 with
both internal queues non-empty, and `DoDequeue` returns no item. -/
theorem doDequeue_not_work_conserving :
    (∃ s h, Reachable unitQuantumConfig s h ∧ s.classicQueue = [maxClassicPacket] ∧
      doDequeue unitQuantumConfig 0 s = .error "Error in DRR logic (should be unreachable)") ∧
    (∃ s h, Reachable wideLimitConfig s h ∧ s.l4sQueue = [l4sPacket] ∧
      s.classicQueue = [wrappingClassicPacket] ∧
      doDequeue wideLimitConfig 0 s = .ok (none, s)) := by
  constructor
  · have stepped :
        step unitQuantumConfig (initialState, History.empty) (.enqueue maxClassicPacket) =
        .ok ({ initialState with classicQueue := [maxClassicPacket] },
          History.empty.recordEnqueue maxClassicPacket true) := by
      simp [step, doEnqueue, internalEnqueue, getQueueSize, getNBytes, initialState,
        maxClassicPacket, isL4s, Ecn.bits, unitQuantumConfig, uint32Size]
    have starves := schedulerLoop_classic_starves unitQuantumConfig
      (show maxClassicPacket.size ≠ 0 by decide) schedulerIterations
      (show ({ initialState with classicQueue := [maxClassicPacket] } :
        DualPi2QueueDisc ℚ).drrQueues.none = true by decide)
      (by norm_num [initialState, unitQuantumConfig, schedulerIterations, uint32Size,
        maxClassicPacket])
    refine ⟨_, _, .next .start stepped, rfl,
      doDequeue_of_scheduler_error rfl rfl (by decide) ?_⟩
    simp only [scheduler, Bool.or_true, Bool.not_true]
    simpa [getNPackets, initialState] using starves
  · have first : step wideLimitConfig (initialState, History.empty) (.enqueue l4sPacket) =
        .ok ({ initialState with l4sQueue := [l4sPacket] },
          History.empty.recordEnqueue l4sPacket true) := by
      simp [step, doEnqueue, internalEnqueue, getQueueSize, getNBytes, initialState, l4sPacket,
        isL4s, Ecn.bits, wideLimitConfig, uint32Size]
    have second : step wideLimitConfig
        ({ initialState with l4sQueue := [l4sPacket] }, History.empty.recordEnqueue l4sPacket true)
        (.enqueue wrappingClassicPacket) =
        .ok ({ initialState with l4sQueue := [l4sPacket], classicQueue := [wrappingClassicPacket] },
          (History.empty.recordEnqueue l4sPacket true).recordEnqueue
            wrappingClassicPacket true) := by
      simp [step, doEnqueue, internalEnqueue, getQueueSize, getNBytes, initialState, l4sPacket,
        wrappingClassicPacket, isL4s, Ecn.bits, wideLimitConfig, uint32Size]
    exact ⟨_, _, .next (.next .start first) second, rfl, rfl,
      doDequeue_of_idle rfl rfl (by decide)⟩

end DualPi2

import DualPi2.Conservation

namespace DualPi2

theorem isL4s_iff (item : QueueDiscItem) :
    isL4s item = true ↔ item.dsField = some .ect1 ∨ item.dsField = some .ce := by
  unfold isL4s
  split <;> rename_i dsField <;> simp only [dsField]
  · rename_i ecn
    cases ecn <;> simp [Ecn.bits]
  · simp

theorem isL4s_eq_false_iff (item : QueueDiscItem) :
    isL4s item = false ↔
      item.dsField = none ∨ item.dsField = some .notEct ∨ item.dsField = some .ect0 := by
  have := isL4s_iff item
  cases dsField : item.dsField with
  | none => simp_all
  | some ecn => cases ecn <;> simp_all

/-- A failed `Mark` assertion names an item that is not L4S. -/
theorem markL4s_error {α : Type} {fire : Bool} {qdItem : QueueDiscItem} {s : DualPi2QueueDisc α}
    {message : String} (run : markL4s fire qdItem s = .error message) : isL4s qdItem = false := by
  unfold markL4s at run
  split at run
  · split at run
    · cases run
    · rename_i item fails
      obtain ⟨success, -⟩ | ⟨-, -, notEct | none⟩ := mark_spec qdItem
      · simp [fails] at success
      · simp [isL4s, notEct, Ecn.bits]
      · simp [isL4s, none]
  · cases run

variable {α : Type} [LinearOrderedField α]

theorem dequeueFromL4sLoop_error {cfg : Config α} {now : Int} :
    ∀ {queue : List QueueDiscItem} {s : DualPi2QueueDisc α} {message : String},
      dequeueFromL4sLoop cfg now queue s = .error message → ∃ x ∈ queue, isL4s x = false
  | [], _, _, run => by cases run
  | qdItem :: rest, s, message, run => by
    simp only [dequeueFromL4sLoop] at run
    split at run
    · exact ⟨qdItem, List.mem_cons_self _ _, markL4s_error run⟩
    · split at run
      · obtain ⟨x, member, classic⟩ := dequeueFromL4sLoop_error run
        exact ⟨x, List.mem_cons_of_mem _ member, classic⟩
      · exact ⟨qdItem, List.mem_cons_self _ _, markL4s_error run⟩

/-- The mark assertion of `DequeueFromL4sQueue`. -/
def markAssertion : String := "Make sure we can mark in L4S queue"

theorem schedulerLoop_error {cfg : Config α} {eligible : Bool × Bool} {l c : Nat} :
    ∀ {n : Nat} {s : DualPi2QueueDisc α} {message : String},
      schedulerLoop cfg eligible l c n s = .error message → message ≠ markAssertion
  | 0, _, _, run => by cases run; simp [markAssertion]
  | n + 1, s, message, run => by
    simp only [schedulerLoop] at run
    split at run
    · cases run
    · exact schedulerLoop_error run

theorem scheduler_error {cfg : Config α} {s : DualPi2QueueDisc α} {eligible : Bool × Bool}
    {message : String} (run : scheduler cfg s eligible = .error message) :
    message ≠ markAssertion := by
  unfold scheduler at run
  split_ifs at run
  · cases run; simp [markAssertion]
  · exact schedulerLoop_error run

/-- All of the L4S queue is L4S. -/
def L4sOnly (s : DualPi2QueueDisc α) : Prop := ∀ x ∈ s.l4sQueue, isL4s x = true

theorem L4sOnly.l4sDequeue_ok {cfg : Config α} {now : Int} {s : DualPi2QueueDisc α}
    (only : L4sOnly s) {message : String} :
    dequeueFromL4sQueue cfg now s ≠ .error message := by
  intro run
  obtain ⟨x, member, classic⟩ := dequeueFromL4sLoop_error run
  simp [only x member] at classic

theorem L4sOnly.l4sDequeue {cfg : Config α} {now : Int} {s s' : DualPi2QueueDisc α}
    {r : Option QueueDiscItem} {marked : Bool} (only : L4sOnly s)
    (run : dequeueFromL4sQueue cfg now s = .ok (r, marked, s')) : L4sOnly s' := by
  obtain ⟨ds, rest, taken, _, _, rfl, takes, _⟩ := dequeueFromL4sLoop_spec run
  intro x member
  cases taken with
  | none => simp_all [TakesAfter]
  | some y => exact only x (by rw [show s.l4sQueue = _ from takes]; simp [member])

omit [LinearOrderedField α] in
theorem L4sOnly.of_l4sQueue {s s' : DualPi2QueueDisc α} (only : L4sOnly s)
    (same : s'.l4sQueue = s.l4sQueue) : L4sOnly s' := by
  intro x member
  exact only x (same ▸ member)

theorem doDequeueLoop_no_markAssertion {cfg : Config α} {now : Int} :
    ∀ {n : Nat} {s : DualPi2QueueDisc α}, L4sOnly s →
      doDequeueLoop cfg now n s ≠ .error markAssertion
  | 0, _, _ => by simp [doDequeueLoop]
  | n + 1, s, only => by
    intro run
    simp only [doDequeueLoop] at run
    split_ifs at run
    split at run
    · rename_i message sched
      cases run
      exact scheduler_error sched rfl
    · rename_i s1 sched
      have only1 := only.of_l4sQueue (scheduler_spec sched).1.queues.1
      split at run
      · cases run
        exact only1.l4sDequeue_ok ‹_›
      · cases run
      · rename_i m s2 deq
        exact doDequeueLoop_no_markAssertion (only1.l4sDequeue deq) run
    · rename_i s1 sched
      have only1 := only.of_l4sQueue (scheduler_spec sched).1.queues.1
      split at run
      · cases run
      · rename_i m s2 deq
        obtain ⟨_, _, _, rfl, _⟩ := dequeueFromClassicQueue_spec deq
        refine doDequeueLoop_no_markAssertion ?_ run
        exact only1.of_l4sQueue rfl
    · cases run

theorem pendingDequeueLoop_no_markAssertion {cfg : Config α} {now : Int} :
    ∀ {n left marked : Nat} {s : DualPi2QueueDisc α}, L4sOnly s →
      pendingDequeueLoop cfg now n left marked s ≠ .error markAssertion
  | 0, _, _, _, _ => by simp [pendingDequeueLoop, markAssertion]
  | n + 1, left, marked, s, only => by
    intro run
    simp only [pendingDequeueLoop] at run
    split_ifs at run
    split at run
    · rename_i message sched
      cases run
      exact scheduler_error sched rfl
    · rename_i s1 sched
      have only1 := only.of_l4sQueue (scheduler_spec sched).1.queues.1
      split at run
      · cases run
        exact only1.l4sDequeue_ok ‹_›
      · rename_i m s2 deq
        exact pendingDequeueLoop_no_markAssertion (only1.l4sDequeue deq) run
      · rename_i x m s2 deq
        split_ifs at run
        · refine pendingDequeueLoop_no_markAssertion ?_ run
          exact (only1.l4sDequeue deq).of_l4sQueue rfl
        · refine pendingDequeueLoop_no_markAssertion ?_ run
          exact (only1.l4sDequeue deq).of_l4sQueue rfl
        · simp [markAssertion] at run
    · rename_i s1 sched
      have only1 := only.of_l4sQueue (scheduler_spec sched).1.queues.1
      split at run
      · rename_i m s2 deq
        obtain ⟨_, _, _, rfl, _⟩ := dequeueFromClassicQueue_spec deq
        refine pendingDequeueLoop_no_markAssertion ?_ run
        exact only1.of_l4sQueue rfl
      · rename_i x m s2 deq
        obtain ⟨_, _, _, rfl, _⟩ := dequeueFromClassicQueue_spec deq
        split_ifs at run
        · refine pendingDequeueLoop_no_markAssertion ?_ run
          exact only1.of_l4sQueue rfl
        · simp [markAssertion] at run
    · cases run

theorem pendingDequeueCallback_no_markAssertion {cfg : Config α} {now : Int} {stopped : Bool}
    {pendingBytes : Nat} {s : DualPi2QueueDisc α} (only : L4sOnly s) :
    pendingDequeueCallback cfg now stopped pendingBytes s ≠ .error markAssertion := by
  intro run
  unfold pendingDequeueCallback at run
  dsimp only at run
  split at run
  · cases run
  split at run
  · cases run
  split at run
  · rename_i message batch
    cases run
    refine pendingDequeueLoop_no_markAssertion ?_ batch
    exact only.of_l4sQueue rfl
  · split_ifs at run
    simp [markAssertion] at run

theorem doDequeue_no_markAssertion {cfg : Config α} {now : Int} {s : DualPi2QueueDisc α}
    (only : L4sOnly s) : doDequeue cfg now s ≠ .error markAssertion := by
  unfold doDequeue
  cases stagedL : s.l4sStagingQueue with
  | cons x rest => simp [dequeueFromL4sStagingQueue, stagedL]
  | nil =>
    cases stagedC : s.classicStagingQueue with
    | cons x rest =>
      simp [dequeueFromL4sStagingQueue, dequeueFromClassicStagingQueue, stagedL, stagedC]
    | nil =>
      simp only [dequeueFromL4sStagingQueue, dequeueFromClassicStagingQueue, stagedL, stagedC]
      exact doDequeueLoop_no_markAssertion only

theorem dualPi2Update_no_markAssertion {cfg : Config α} {now : Int} {s : DualPi2QueueDisc α} :
    dualPi2Update cfg now s ≠ .error markAssertion := by
  unfold dualPi2Update
  cases delay : classicQueueDelay cfg now s with
  | error message =>
    rw [classicQueueDelay_error delay]
    intro failed
    exact absurd (Except.error.inj failed) (by decide)
  | ok cQ => intro failed; cases failed

/-- From a state whose L4S queue is all L4S, no call fails the mark assertion. -/
theorem step_no_markAssertion {cfg : Config α} {s : DualPi2QueueDisc α} {h : History} {op : Op}
    (only : L4sOnly s) : step cfg (s, h) op ≠ .error markAssertion := by
  cases op with
  | enqueue item => simp [step]
  | dequeue now =>
    simp only [step]
    split <;> rename_i deq
    · simp
    · rename_i message
      rintro ⟨⟩
      exact doDequeue_no_markAssertion only deq
  | pendingDequeue now stopped pendingBytes =>
    simp only [step]
    split <;> rename_i pending
    · simp
    · rintro ⟨⟩
      exact pendingDequeueCallback_no_markAssertion only pending
  | update now =>
    simp only [step]
    split <;> rename_i updated
    · simp
    · rintro ⟨⟩
      exact dualPi2Update_no_markAssertion updated

/-- In every reachable state the L4S queues hold only ECT(1) and CE items, and the Classic
queues hold accepted items, unchanged, that are Not-ECT or ECT(0) or have no DS field. Every
item held, returned or dropped is an enqueued item, unchanged or, for an L4S item, set to CE;
and no call fails the mark assertion of `DequeueFromL4sQueue`. -/
theorem reachable_ecn_marks {cfg : Config α} {s : DualPi2QueueDisc α} {h : History}
    (reach : Reachable cfg s h) :
    (∀ x ∈ s.l4sQueue ++ s.l4sStagingQueue, x.dsField = some .ect1 ∨ x.dsField = some .ce) ∧
      (∀ x ∈ s.classicQueue ++ s.classicStagingQueue, x ∈ h.accepted ∧
        (x.dsField = none ∨ x.dsField = some .notEct ∨ x.dsField = some .ect0)) ∧
      (∀ y ∈ s.l4sQueue ++ s.classicQueue ++ s.l4sStagingQueue ++ s.classicStagingQueue ++
          h.returned ++ s.dropped.map (·.2), ∃ x ∈ h.enqueued, Evolved x y) ∧
      ∀ op, step cfg (s, h) op ≠ .error "Make sure we can mark in L4S queue" := by
  obtain ⟨enqueued, ordered⟩ := reach.conserved
  have sent : ∀ x ∈ h.accepted, x ∈ h.enqueued := fun x member => by
    obtain ⟨y, inEnqueued, rfl⟩ := enqueued.mem_kept member
    exact inEnqueued
  have earlier : ∀ l4s, ∀ x, (∃ pre, ofClass l4s h.accepted = pre ++ s.internalQueue l4s ∧
      x ∈ pre) → x ∈ h.enqueued := fun l4s x ⟨pre, split, member⟩ =>
    sent x (List.mem_of_mem_filter (split ▸ List.mem_append_left _ member))
  have kept : ∀ l4s, ∀ y ∈ ofClass l4s h.returned ++ s.stagingQueue l4s,
      ∃ x ∈ h.enqueued, Evolved x y := fun l4s y member => by
    obtain ⟨pre, split, merged⟩ := ordered l4s
    obtain ⟨x, inPre, related⟩ := merged.mem_kept member
    exact ⟨x, earlier l4s x ⟨pre, split, inPre⟩, related⟩
  have queued : ∀ l4s, ∀ y ∈ s.internalQueue l4s, ∃ x ∈ h.enqueued, Evolved x y :=
    fun l4s y member => by
      obtain ⟨pre, split, -⟩ := ordered l4s
      exact ⟨y, sent y (List.mem_of_mem_filter (split ▸ List.mem_append_right _ member)),
        .refl y⟩
  refine ⟨fun x member => ?_, fun x member => ?_, fun y member => ?_,
    fun op => step_no_markAssertion fun x member => (ordered true).isL4s_queue member⟩
  · rw [← isL4s_iff]
    rcases List.mem_append.mp member with queue | staging
    · exact (ordered true).isL4s_queue queue
    · exact (ordered true).isL4s_staging staging
  · obtain ⟨pre, split, merged⟩ := ordered false
    have original : ∃ x' ∈ ofClass false h.accepted, x = x' := by
      rcases List.mem_append.mp member with queue | staging
      · exact ⟨x, split ▸ List.mem_append_right _ queue, rfl⟩
      · obtain ⟨x', inPre, related⟩ := merged.mem_kept (List.mem_append_right _ staging)
        have inClass := split ▸ List.mem_append_left _ inPre
        exact ⟨x', inClass, related.eq_of_classic (isL4s_of_mem_ofClass inClass)⟩
    obtain ⟨x', inClass, rfl⟩ := original
    exact ⟨List.mem_of_mem_filter inClass,
      (isL4s_eq_false_iff _).mp (isL4s_of_mem_ofClass inClass)⟩
  · simp only [List.mem_append, List.mem_map] at member
    rcases member with ((((queueL | queueC) | stagingL) | stagingC) | returned) |
      ⟨⟨reason, y'⟩, inDropped, rfl⟩
    · exact queued true y queueL
    · exact queued false y queueC
    · exact kept true y (List.mem_append_right _ stagingL)
    · exact kept false y (List.mem_append_right _ stagingC)
    · exact kept (isL4s y) y (List.mem_append_left _ (List.mem_filter.mpr ⟨returned, by simp⟩))
    · have recorded : ∀ r, reason = r → y' ∈ s.droppedWith r := fun r same =>
        List.mem_map.mpr
          ⟨(reason, y'), List.mem_filter.mpr ⟨inDropped, by simp [same]⟩, rfl⟩
      have aqm : ∀ l4s, reason = aqmDropReason l4s → ∃ x ∈ h.enqueued, Evolved x y' :=
        fun l4s same => by
          obtain ⟨pre, split, merged⟩ := ordered l4s
          exact ⟨y', earlier l4s y' ⟨pre, split, merged.mem_dropped (recorded _ same)⟩,
            .refl y'⟩
      have refused : reason.rejects = true → ∃ x ∈ h.enqueued, Evolved x y' := fun rejects =>
        ⟨y', enqueued.mem_dropped (List.mem_map.mpr
          ⟨(reason, y'), List.mem_filter.mpr ⟨inDropped, rejects⟩, rfl⟩), .refl y'⟩
      cases reason with
      | forcedDrop => exact refused rfl
      | internalQueueDrop => exact refused rfl
      | unforcedL4sDrop => exact aqm true rfl
      | unforcedClassicDrop => exact aqm false rfl

/-- After `l4sPacket` is enqueued, the item in the L4S queue carries ECT(1) or CE. -/
theorem reachable_ecn_marks_one_packet :
    l4sPacket.dsField = some .ect1 ∨ l4sPacket.dsField = some .ce :=
  (reachable_ecn_marks l4sPacket_reachable).1 l4sPacket (by simp)

end DualPi2

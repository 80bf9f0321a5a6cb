import DualPi2.Run

namespace DualPi2

/-- The primitive calls the operations are made of: one `DoEnqueue` or `DualPi2Update`,
one `Scheduler` call, one AQM dequeue whose item is returned to the caller or staged, one
pop of a staging queue, the sample refresh and the mark top-up of a pending dequeue. -/
inductive Action
  | enqueue (item : QueueDiscItem)
  | update (now : Int)
  | schedule (eligible : Bool × Bool)
  | dequeueL4s (now : Int) (staged : Bool)
  | dequeueClassic (staged : Bool)
  | popL4sStaging
  | popClassicStaging
  | refreshSamples (now : Int)
  | topUp (pendingMarks : Nat)
  deriving DecidableEq, Repr

/-- The actions of ordinary dequeues: no pending-dequeue report, and `Scheduler` always
called with `(true, true)`. -/
def Action.ordinary : Action → Bool
  | .schedule eligible => eligible == (true, true)
  | .dequeueL4s _ staged => !staged
  | .dequeueClassic staged => !staged
  | .refreshSamples _ => false
  | .topUp _ => false
  | _ => true

variable {α : Type} [LinearOrderedField α]

/-- `DoDequeue` reaches the internal queues only with both staging queues empty. -/
def DualPi2QueueDisc.stagingEmpty (s : DualPi2QueueDisc α) : Bool :=
  s.l4sStagingQueue.isEmpty && s.classicStagingQueue.isEmpty

/-- One primitive call on a state and its history; `none` when the call fails or is not
one the operations make there. -/
def microStep (cfg : Config α) :
    DualPi2QueueDisc α × History → Action → Option (DualPi2QueueDisc α × History)
  | (s, h), .enqueue item => some ((doEnqueue cfg s item).2,
      h.recordEnqueue item (doEnqueue cfg s item).1)
  | (s, h), .update now =>
    match dualPi2Update cfg now s with
    | .ok s => some (s, h)
    | .error _ => none
  | (s, h), .schedule eligible =>
    match scheduler cfg s eligible with
    | .ok (_, s) => some (s, h)
    | .error _ => none
  | (s, h), .dequeueL4s now staged =>
    match dequeueFromL4sQueue cfg now s with
    | .ok (none, _, s') => some (s', h)
    | .ok (some qdItem, _, s') =>
      if staged then some (addToL4sStagingQueue s' qdItem, h)
      else if s.stagingEmpty then some (s', h.recordReturn (some qdItem)) else none
    | .error _ => none
  | (s, h), .dequeueClassic staged =>
    match dequeueFromClassicQueue cfg s with
    | (none, _, s') => some (s', h)
    | (some qdItem, _, s') =>
      if staged then some (addToClassicStagingQueue s' qdItem, h)
      else if s.stagingEmpty then some (s', h.recordReturn (some qdItem)) else none
  | (s, h), .popL4sStaging =>
    match dequeueFromL4sStagingQueue s with
    | (some qdItem, s) => some (s, h.recordReturn (some qdItem))
    | (none, _) => none
  | (s, h), .popClassicStaging =>
    match dequeueFromClassicStagingQueue s with
    | (some qdItem, s) => some (s, h.recordReturn (some qdItem))
    | (none, _) => none
  | (s, h), .refreshSamples now => some (refreshSamples now s, h)
  | (s, h), .topUp pendingMarks =>
    some ({ s with l4sStagingQueue := markPending pendingMarks s.l4sStagingQueue }, h)

/-- A sequence of primitive calls. -/
def microExec (cfg : Config α) :
    DualPi2QueueDisc α × History → List Action → Option (DualPi2QueueDisc α × History)
  | sys, [] => some sys
  | sys, a :: acts =>
    match microStep cfg sys a with
    | some sys => microExec cfg sys acts
    | none => none

@[simp] theorem recordReturn_none (h : History) : h.recordReturn none = h := by
  simp [History.recordReturn]

theorem microExec_append {cfg : Config α} :
    ∀ {sys mid : DualPi2QueueDisc α × History} {xs : List Action} (ys : List Action),
      microExec cfg sys xs = some mid → microExec cfg sys (xs ++ ys) = microExec cfg mid ys
  | _, _, [], _, first => by cases first; rfl
  | sys, mid, a :: xs, ys, first => by
    simp only [microExec] at first ⊢
    split at first
    · exact microExec_append ys first
    · cases first

theorem microExec_cons {cfg : Config α} {sys mid : DualPi2QueueDisc α × History} {a : Action}
    {acts : List Action} (first : microStep cfg sys a = some mid) :
    microExec cfg sys (a :: acts) = microExec cfg mid acts := by
  simp only [microExec, first]

/-- Every invariant of the primitive calls holds along a sequence of them. -/
theorem microExec_invariant {cfg : Config α} (Inv : DualPi2QueueDisc α × History → Prop)
    (preserved : ∀ sys sys' a, microStep cfg sys a = some sys' → Inv sys → Inv sys') :
    ∀ {acts : List Action} {sys sys' : DualPi2QueueDisc α × History},
      microExec cfg sys acts = some sys' → Inv sys → Inv sys'
  | [], _, _, done, holds => by cases done; exact holds
  | a :: acts, sys, sys', done, holds => by
    simp only [microExec] at done
    split at done
    · rename_i mid first
      exact microExec_invariant Inv preserved done (preserved _ _ _ first holds)
    · cases done

theorem dequeueFromL4sQueue_staging {cfg : Config α} {now : Int} {s s' : DualPi2QueueDisc α}
    {r : Option QueueDiscItem} {marked : Bool}
    (run : dequeueFromL4sQueue cfg now s = .ok (r, marked, s')) :
    s'.l4sStagingQueue = s.l4sStagingQueue ∧ s'.classicStagingQueue = s.classicStagingQueue := by
  obtain ⟨_, _, _, _, _, rfl, _⟩ := dequeueFromL4sLoop_spec run
  exact ⟨rfl, rfl⟩

theorem dequeueFromClassicQueue_staging {cfg : Config α} {s s' : DualPi2QueueDisc α}
    {r : Option QueueDiscItem} {dropped : Bool}
    (run : dequeueFromClassicQueue cfg s = (r, dropped, s')) :
    s'.l4sStagingQueue = s.l4sStagingQueue ∧ s'.classicStagingQueue = s.classicStagingQueue := by
  obtain ⟨_, _, _, rfl, _⟩ := dequeueFromClassicQueue_spec run
  exact ⟨rfl, rfl⟩

omit [LinearOrderedField α] in
theorem DualPi2QueueDisc.stagingEmpty_eq {s s' : DualPi2QueueDisc α}
    (same : s'.l4sStagingQueue = s.l4sStagingQueue ∧
      s'.classicStagingQueue = s.classicStagingQueue) : s'.stagingEmpty = s.stagingEmpty := by
  simp only [DualPi2QueueDisc.stagingEmpty, same.1, same.2]

/-- The scheduling loop of `DoDequeue` is a sequence of ordinary primitive calls. -/
theorem doDequeueLoop_micro {cfg : Config α} {now : Int} :
    ∀ {n : Nat} {s s' : DualPi2QueueDisc α} {r : Option QueueDiscItem} (h : History),
      doDequeueLoop cfg now n s = .ok (r, s') → s.stagingEmpty = true →
      ∃ acts : List Action, microExec cfg (s, h) acts = some (s', h.recordReturn r) ∧
        ∀ a ∈ acts, a.ordinary = true
  | 0, s, s', r, h, run, _ => by
    simp only [doDequeueLoop, Except.ok.injEq, Prod.mk.injEq] at run
    obtain ⟨rfl, rfl⟩ := run
    exact ⟨[], by simp [microExec], by simp⟩
  | n + 1, s, s', r, h, run, empty => by
    simp only [doDequeueLoop] at run
    split_ifs at run
    · split at run
      · cases run
      · rename_i s1 sched
        have empty1 : s1.stagingEmpty = true := by
          rw [DualPi2QueueDisc.stagingEmpty_eq (scheduler_spec sched).1.staging, empty]
        split at run
        · cases run
        · rename_i x m s2 deq
          cases run
          exact ⟨[.schedule (true, true), .dequeueL4s now false],
            by simp [microExec, microStep, sched, deq, empty1], by simp [Action.ordinary]⟩
        · rename_i m s2 deq
          obtain ⟨acts, exec, ordinary⟩ := doDequeueLoop_micro h run
            (by rw [DualPi2QueueDisc.stagingEmpty_eq (dequeueFromL4sQueue_staging deq), empty1])
          refine ⟨.schedule (true, true) :: .dequeueL4s now false :: acts, ?_, ?_⟩
          · simpa [microExec, microStep, sched, deq] using exec
          · simpa [Action.ordinary] using ordinary
      · rename_i s1 sched
        have empty1 : s1.stagingEmpty = true := by
          rw [DualPi2QueueDisc.stagingEmpty_eq (scheduler_spec sched).1.staging, empty]
        split at run
        · rename_i x m s2 deq
          cases run
          exact ⟨[.schedule (true, true), .dequeueClassic false],
            by simp [microExec, microStep, sched, deq, empty1], by simp [Action.ordinary]⟩
        · rename_i m s2 deq
          obtain ⟨acts, exec, ordinary⟩ := doDequeueLoop_micro h run
            (by rw [DualPi2QueueDisc.stagingEmpty_eq (dequeueFromClassicQueue_staging deq), empty1])
          refine ⟨.schedule (true, true) :: .dequeueClassic false :: acts, ?_, ?_⟩
          · simpa [microExec, microStep, sched, deq] using exec
          · simpa [Action.ordinary] using ordinary
      · rename_i s1 sched
        cases run
        exact ⟨[.schedule (true, true)], by simp [microExec, microStep, sched],
          by simp [Action.ordinary]⟩
    · cases run
      exact ⟨[], by simp [microExec], by simp⟩

/-- `DoDequeue` is a sequence of ordinary primitive calls. -/
theorem doDequeue_micro {cfg : Config α} {now : Int} {s s' : DualPi2QueueDisc α}
    {r : Option QueueDiscItem} (h : History) (run : doDequeue cfg now s = .ok (r, s')) :
    ∃ acts : List Action, microExec cfg (s, h) acts = some (s', h.recordReturn r) ∧
      ∀ a ∈ acts, a.ordinary = true := by
  unfold doDequeue at run
  cases stagedL : s.l4sStagingQueue with
  | cons x rest =>
    simp only [dequeueFromL4sStagingQueue, stagedL, Except.ok.injEq, Prod.mk.injEq] at run
    obtain ⟨rfl, rfl⟩ := run
    exact ⟨[.popL4sStaging], by simp [microExec, microStep, dequeueFromL4sStagingQueue, stagedL],
      by simp [Action.ordinary]⟩
  | nil =>
    cases stagedC : s.classicStagingQueue with
    | cons x rest =>
      simp only [dequeueFromL4sStagingQueue, dequeueFromClassicStagingQueue, stagedL, stagedC,
        Except.ok.injEq, Prod.mk.injEq] at run
      obtain ⟨rfl, rfl⟩ := run
      exact ⟨[.popClassicStaging], by
        simp [microExec, microStep, dequeueFromClassicStagingQueue, stagedL, stagedC],
        by simp [Action.ordinary]⟩
    | nil =>
      simp only [dequeueFromL4sStagingQueue, dequeueFromClassicStagingQueue, stagedL,
        stagedC] at run
      exact doDequeueLoop_micro h run (by simp [DualPi2QueueDisc.stagingEmpty, stagedL, stagedC])

/-- The batch loop of a pending dequeue is a sequence of primitive calls. -/
theorem pendingDequeueLoop_micro {cfg : Config α} {now : Int} :
    ∀ {n left marked m : Nat} {s s' : DualPi2QueueDisc α} (h : History),
      pendingDequeueLoop cfg now n left marked s = .ok (m, s') →
      ∃ acts : List Action, microExec cfg (s, h) acts = some (s', h)
  | 0, _, _, _, _, _, _, run => by cases run
  | n + 1, left, marked, m, s, s', h, run => by
    simp only [pendingDequeueLoop] at run
    split_ifs at run
    · cases run
      exact ⟨[], rfl⟩
    · split at run
      · cases run
      · rename_i s1 sched
        split at run
        · cases run
        · rename_i m1 s2 deq
          obtain ⟨acts, exec⟩ := pendingDequeueLoop_micro h run
          exact ⟨.schedule (canSchedule s left) :: .dequeueL4s now true :: acts,
            by simpa [microExec, microStep, sched, deq] using exec⟩
        · rename_i x m1 s2 deq
          split_ifs at run <;>
          · obtain ⟨acts, exec⟩ := pendingDequeueLoop_micro h run
            exact ⟨.schedule (canSchedule s left) :: .dequeueL4s now true :: acts,
              by simpa [microExec, microStep, sched, deq] using exec⟩
      · rename_i s1 sched
        split at run
        · rename_i m1 s2 deq
          obtain ⟨acts, exec⟩ := pendingDequeueLoop_micro h run
          exact ⟨.schedule (canSchedule s left) :: .dequeueClassic true :: acts,
            by simpa [microExec, microStep, sched, deq] using exec⟩
        · rename_i x m1 s2 deq
          split_ifs at run
          obtain ⟨acts, exec⟩ := pendingDequeueLoop_micro h run
          exact ⟨.schedule (canSchedule s left) :: .dequeueClassic true :: acts,
            by simpa [microExec, microStep, sched, deq] using exec⟩
      · rename_i s1 sched
        cases run
        exact ⟨[.schedule (canSchedule s left)], by simp [microExec, microStep, sched]⟩

/-- A pending dequeue is a sequence of primitive calls. -/
theorem pendingDequeueCallback_micro {cfg : Config α} {now : Int} {stopped : Bool}
    {pendingBytes : Nat} {s s' : DualPi2QueueDisc α} (h : History)
    (run : pendingDequeueCallback cfg now stopped pendingBytes s = .ok s') :
    ∃ acts : List Action, microExec cfg (s, h) acts = some (s', h) := by
  have refreshed : microStep cfg (s, h) (.refreshSamples now) = some (refreshSamples now s, h) :=
    rfl
  unfold pendingDequeueCallback at run
  dsimp only at run
  split at run
  · cases run
    exact ⟨[.refreshSamples now], by simp [microExec, refreshed]⟩
  split at run
  · cases run
    exact ⟨[.refreshSamples now], by simp [microExec, refreshed]⟩
  · split at run
    · cases run
    · rename_i markedCount s1 batch
      obtain ⟨acts, exec⟩ := pendingDequeueLoop_micro h batch
      split_ifs at run <;> cases run
      · refine ⟨.refreshSamples now :: acts ++ [.topUp (s1.l4sQueue.length - markedCount)], ?_⟩
        rw [List.cons_append, microExec_cons refreshed, microExec_append _ exec]
        rfl
      · exact ⟨.refreshSamples now :: acts, by rw [microExec_cons refreshed, exec]⟩

/-- Calls other than pending-dequeue reports. -/
def Op.ordinary : Op → Bool
  | .pendingDequeue _ _ _ => false
  | _ => true

/-- Every call is a sequence of primitive calls, ordinary ones for an ordinary call. -/
theorem step_micro {cfg : Config α} {sys sys' : DualPi2QueueDisc α × History} {op : Op}
    (run : step cfg sys op = .ok sys') :
    ∃ acts : List Action, microExec cfg sys acts = some sys' ∧
      (op.ordinary = true → ∀ a ∈ acts, a.ordinary = true) := by
  obtain ⟨s, h⟩ := sys
  cases op with
  | enqueue item =>
    cases run
    exact ⟨[.enqueue item], rfl, by simp [Action.ordinary]⟩
  | dequeue now =>
    simp only [step] at run
    split at run
    · rename_i r s1 deq
      cases run
      obtain ⟨acts, exec, ordinary⟩ := doDequeue_micro h deq
      exact ⟨acts, exec, fun _ => ordinary⟩
    · cases run
  | pendingDequeue now stopped pendingBytes =>
    simp only [step] at run
    split at run
    · rename_i s1 pending
      cases run
      obtain ⟨acts, exec⟩ := pendingDequeueCallback_micro h pending
      exact ⟨acts, exec, by simp [Op.ordinary]⟩
    · cases run
  | update now =>
    simp only [step] at run
    split at run
    · rename_i s1 updated
      cases run
      exact ⟨[.update now], by simp [microExec, microStep, updated], by simp [Action.ordinary]⟩
    · cases run

/-- A run of calls is a sequence of primitive calls, ordinary ones for ordinary calls. -/
theorem run_micro {cfg : Config α} :
    ∀ {ops : List Op} {sys sys' : DualPi2QueueDisc α × History}, run cfg sys ops = .ok sys' →
      ∃ acts : List Action, microExec cfg sys acts = some sys' ∧
        ((∀ op ∈ ops, op.ordinary = true) → ∀ a ∈ acts, a.ordinary = true)
  | [], _, _, done => by cases done; exact ⟨[], rfl, by simp⟩
  | op :: ops, sys, sys', done => by
    simp only [run] at done
    split at done
    · rename_i mid stepped
      obtain ⟨first, exec, ordinary⟩ := step_micro stepped
      obtain ⟨rest, exec', ordinary'⟩ := run_micro done
      refine ⟨first ++ rest, by rw [microExec_append _ exec, exec'], fun all a member => ?_⟩
      rcases List.mem_append.mp member with early | late
      · exact ordinary (all op (List.mem_cons_self _ _)) a early
      · exact ordinary' (fun o m => all o (List.mem_cons_of_mem _ m)) a late
    · cases done

/-- Every reachable state is reached by a sequence of primitive calls. -/
theorem Reachable.micro {cfg : Config α} {s : DualPi2QueueDisc α} {h : History}
    (reach : Reachable cfg s h) :
    ∃ acts : List Action, microExec cfg (initialState, History.empty) acts = some (s, h) := by
  induction reach with
  | start => exact ⟨[], rfl⟩
  | next _ stepped ih =>
    obtain ⟨acts, exec⟩ := ih
    obtain ⟨more, exec', -⟩ := step_micro stepped
    exact ⟨acts ++ more, by rw [microExec_append _ exec, exec']⟩

end DualPi2

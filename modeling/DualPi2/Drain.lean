import DualPi2.Peek
import DualPi2.Wdrr

namespace DualPi2

variable {α : Type} [LinearOrderedField α]

/-- `s` with its two staging queues replaced. Only the batch, which appends to them, and
`DoDequeue`, which pops them, read or write them. -/
def DualPi2QueueDisc.restage (s : DualPi2QueueDisc α)
    (l4sStaged classicStaged : List QueueDiscItem) : DualPi2QueueDisc α :=
  { s with l4sStagingQueue := l4sStaged, classicStagingQueue := classicStaged }

section Restage

variable {cfg : Config α} {L C : List QueueDiscItem}

omit [LinearOrderedField α] in
@[simp] theorem restage_llDeficit (s : DualPi2QueueDisc α) :
    (s.restage L C).llDeficit = s.llDeficit := rfl

omit [LinearOrderedField α] in
@[simp] theorem restage_classicDeficit (s : DualPi2QueueDisc α) :
    (s.restage L C).classicDeficit = s.classicDeficit := rfl

omit [LinearOrderedField α] in
@[simp] theorem restage_l4sQueue (s : DualPi2QueueDisc α) :
    (s.restage L C).l4sQueue = s.l4sQueue := rfl

omit [LinearOrderedField α] in
@[simp] theorem restage_classicQueue (s : DualPi2QueueDisc α) :
    (s.restage L C).classicQueue = s.classicQueue := rfl

omit [LinearOrderedField α] in
@[simp] theorem restage_restage (s : DualPi2QueueDisc α) (L' C' : List QueueDiscItem) :
    (s.restage L' C').restage L C = s.restage L C := rfl

omit [LinearOrderedField α] in
@[simp] theorem getNPackets_restage (s : DualPi2QueueDisc α) :
    getNPackets (s.restage L C) = getNPackets s := rfl

theorem startRound_restage (s : DualPi2QueueDisc α) :
    startRound cfg (s.restage L C) = (startRound cfg s).restage L C := by
  by_cases idle : s.drrQueues.none = true
  · rw [startRound_of_none cfg idle]; exact startRound_of_none cfg idle
  · rw [show startRound cfg s = s from if_neg idle]; exact if_neg idle

theorem skipL4s_restage (l : Nat) (eligible : Bool) (s : DualPi2QueueDisc α) :
    skipL4s l eligible (s.restage L C) = (skipL4s l eligible s).restage L C := by
  unfold skipL4s
  split_ifs <;> rfl

theorem skipClassic_restage (c : Nat) (eligible : Bool) (s : DualPi2QueueDisc α) :
    skipClassic c eligible (s.restage L C) = (skipClassic c eligible s).restage L C := by
  unfold skipClassic
  split_ifs <;> rfl

theorem schedulerPass_restage (eligible : Bool × Bool) (l c : Nat) (s : DualPi2QueueDisc α) :
    schedulerPass cfg eligible l c (s.restage L C) =
      (schedulerPass cfg eligible l c s).map (fun selected => (selected.1, selected.2.restage L C))
        (·.restage L C) := by
  simp only [schedulerPass, startRound_restage, skipL4s_restage, skipClassic_restage,
    restage_llDeficit, restage_classicDeficit]
  split_ifs <;> rfl

theorem schedulerLoop_restage (eligible : Bool × Bool) (l c : Nat) :
    ∀ (n : Nat) (s : DualPi2QueueDisc α),
      schedulerLoop cfg eligible l c n (s.restage L C) =
        (schedulerLoop cfg eligible l c n s).map
          (fun selected => (selected.1, selected.2.restage L C))
  | 0, _ => rfl
  | n + 1, s => by
    simp only [schedulerLoop, schedulerPass_restage]
    cases schedulerPass cfg eligible l c s with
    | inl selected => rfl
    | inr t => exact schedulerLoop_restage eligible l c n t

theorem scheduler_restage (s : DualPi2QueueDisc α) (eligible : Bool × Bool) :
    scheduler cfg (s.restage L C) eligible =
      (scheduler cfg s eligible).map (fun selected => (selected.1, selected.2.restage L C)) := by
  have packets : getNPackets (s.restage L C) = getNPackets s := rfl
  simp only [scheduler, packets, restage_l4sQueue, restage_classicQueue]
  split_ifs
  · rfl
  · rfl
  · exact schedulerLoop_restage eligible _ _ _ s

omit [LinearOrderedField α] in
theorem markL4s_restage (fire : Bool) (qdItem : QueueDiscItem) (s : DualPi2QueueDisc α) :
    markL4s fire qdItem (s.restage L C) =
      (markL4s fire qdItem s).map (fun result => (result.1, result.2.1, result.2.2.restage L C)) := by
  unfold markL4s
  split
  · split <;> rfl
  · rfl

theorem dequeueFromL4sLoop_restage (now : Int) :
    ∀ (queue : List QueueDiscItem) (s : DualPi2QueueDisc α),
      dequeueFromL4sLoop cfg now queue (s.restage L C) =
        (dequeueFromL4sLoop cfg now queue s).map
          (fun result => (result.1, result.2.1, result.2.2.restage L C))
  | [], s => rfl
  | qdItem :: rest, s => by
    have pCL : (s.restage L C).pCL = s.pCL := rfl
    have pC : (s.restage L C).pC = s.pC := rfl
    have count : (s.restage L C).l4sCount = s.l4sCount := rfl
    simp only [dequeueFromL4sLoop, pCL, pC, count]
    by_cases below : s.pCL < cfg.pLmax
    · simp only [below, ↓reduceIte]
      exact markL4s_restage _ qdItem { s with l4sQueue := rest, pL := _, l4sCount := _ }
    · by_cases fires : (recur s.l4sCount s.pC).1 = true
      · simp only [below, fires, ↓reduceIte]
        exact dequeueFromL4sLoop_restage now rest
          ({ s with l4sQueue := rest, l4sCount := _ }.drop .unforcedL4sDrop qdItem)
      · simp only [below, fires, ↓reduceIte]
        exact markL4s_restage _ qdItem { s with l4sQueue := rest, l4sCount := _ }

theorem dequeueFromClassicLoop_restage :
    ∀ (queue : List QueueDiscItem) (dropped : Bool) (s : DualPi2QueueDisc α),
      dequeueFromClassicLoop cfg queue dropped (s.restage L C) =
        ((dequeueFromClassicLoop cfg queue dropped s).1,
          (dequeueFromClassicLoop cfg queue dropped s).2.1,
          (dequeueFromClassicLoop cfg queue dropped s).2.2.restage L C)
  | [], _, _ => rfl
  | qdItem :: rest, dropped, s => by
    have pC : (s.restage L C).pC = s.pC := rfl
    have count : (s.restage L C).classicCount = s.classicCount := rfl
    simp only [dequeueFromClassicLoop, pC, count]
    by_cases fires : ((recur s.classicCount s.pC).1 || decide (s.pC ≥ cfg.pCmax)) = true
    · simp only [fires, ↓reduceIte]
      exact dequeueFromClassicLoop_restage rest true
        ({ s with classicQueue := rest, classicCount := _ }.drop .unforcedClassicDrop qdItem)
    · simp only [fires, ↓reduceIte, Bool.false_eq_true]
      rfl

theorem dequeueFromClassicQueue_restage (s : DualPi2QueueDisc α) :
    dequeueFromClassicQueue cfg (s.restage L C) =
      ((dequeueFromClassicQueue cfg s).1, (dequeueFromClassicQueue cfg s).2.1,
        (dequeueFromClassicQueue cfg s).2.2.restage L C) := by
  unfold dequeueFromClassicQueue
  simp only [restage_classicQueue]
  split
  · rfl
  · split_ifs
    · rfl
    · exact dequeueFromClassicLoop_restage _ false s

end Restage

/-- The eligibility of a queue whose head is empty does not matter to a pass: a zero head is
never served, and it leaves the round with a zero deficit either way. -/
theorem schedulerPass_congr {cfg : Config α} {eligible eligible' : Bool × Bool} {l c : Nat}
    (l4s : l ≠ 0 → eligible.2 = eligible'.2) (classic : c ≠ 0 → eligible.1 = eligible'.1)
    (s : DualPi2QueueDisc α) :
    schedulerPass cfg eligible l c s = schedulerPass cfg eligible' l c s := by
  obtain ⟨e1, e2⟩ := eligible
  obtain ⟨e1', e2'⟩ := eligible'
  have sameL : l = 0 ∨ e2 = e2' := (em (l = 0)).imp_right l4s
  have sameC : c = 0 ∨ e1 = e1' := (em (c = 0)).imp_right classic
  rcases sameL with rfl | rfl <;> rcases sameC with rfl | rfl <;>
    simp [schedulerPass, skipL4s, skipClassic]

theorem schedulerLoop_congr {cfg : Config α} {eligible eligible' : Bool × Bool} {l c : Nat}
    (l4s : l ≠ 0 → eligible.2 = eligible'.2) (classic : c ≠ 0 → eligible.1 = eligible'.1) :
    ∀ (n : Nat) (s : DualPi2QueueDisc α),
      schedulerLoop cfg eligible l c n s = schedulerLoop cfg eligible' l c n s
  | 0, _ => rfl
  | n + 1, s => by
    simp only [schedulerLoop, schedulerPass_congr l4s classic s]
    cases schedulerPass cfg eligible' l c s with
    | inl selected => rfl
    | inr t => exact schedulerLoop_congr l4s classic n t

/-- `Scheduler` with an eligibility that makes some queue eligible and agrees with `(true,
true)` on every non-empty head is `Scheduler (true, true)`. -/
theorem scheduler_of_heads_eligible {cfg : Config α} {s : DualPi2QueueDisc α}
    {eligible : Bool × Bool} (some : (eligible.1 || eligible.2) = true)
    (l4s : headSize s.l4sQueue ≠ 0 → eligible.2 = true)
    (classic : headSize s.classicQueue ≠ 0 → eligible.1 = true) :
    scheduler cfg s eligible = scheduler cfg s (true, true) := by
  simp only [scheduler, some, Bool.or_true, Bool.not_true, Bool.false_eq_true, ↓reduceIte]
  split_ifs
  · rfl
  · exact schedulerLoop_congr l4s classic _ s

omit [LinearOrderedField α] in
/-- With no framed head wrapping in `uint32_t` and every queued item's framed size within the
budget, `CanSchedule` makes exactly the non-empty queues eligible. -/
theorem canSchedule_of_covered {s : DualPi2QueueDisc α} {left : Nat}
    (covered : ∀ x ∈ s.l4sQueue ++ s.classicQueue, x.size + 38 < uint32Size ∧
      x.size + 38 ≤ left) :
    canSchedule s left = (!s.classicQueue.isEmpty, !s.l4sQueue.isEmpty) := by
  have head : ∀ x ∈ s.l4sQueue ++ s.classicQueue,
      ((x.size + 38) % uint32Size != 0 && (x.size + 38) % uint32Size ≤ left) = true := by
    intro x member
    obtain ⟨small, fits⟩ := covered x member
    simp [Nat.mod_eq_of_lt small, fits]
  unfold canSchedule getNPackets holWifiSize
  cases classicQueue : s.classicQueue with
  | nil =>
    cases l4sQueue : s.l4sQueue with
    | nil => rfl
    | cons x rest => simpa [l4sQueue] using head x (by simp [l4sQueue])
  | cons y others =>
    have classicHead := head y (by simp [classicQueue])
    cases l4sQueue : s.l4sQueue with
    | nil => simpa using classicHead
    | cons x rest => simpa [classicHead] using head x (by simp [l4sQueue])

/-- A `Scheduler` call keeps a state serviceable: it writes only the WDRR state, and keeps the
deficits non-negative. -/
theorem Serviceable.scheduled {cfg : Config α} {s s' : DualPi2QueueDisc α}
    {eligible : Bool × Bool} {r : QueueIndex} (ok : Serviceable cfg s)
    (sched : scheduler cfg s eligible = .ok (r, s')) : Serviceable cfg s' := by
  have frame := (scheduler_spec sched).1
  exact ok.descend (by rw [frame.queues.1]) (by rw [frame.queues.2])
    (scheduler_preserves _ (schedulerPass_deficitsNonneg cfg _ _ _) sched ok.nonneg)

/-- Once it has more iterations than packets queued, `DoDequeue`'s loop returns the same
whatever its iterations: an AQM step that returns nothing has emptied a queue that was not
empty. -/
theorem doDequeueLoop_fuel {cfg : Config α} (now : Int) :
    ∀ {f f' : Nat} {s : DualPi2QueueDisc α}, Serviceable cfg s → getNPackets s < f →
      getNPackets s < f' → doDequeueLoop cfg now f s = doDequeueLoop cfg now f' s
  | 0, _, _, _, fuel, _ => absurd fuel (Nat.not_lt_zero _)
  | _, 0, _, _, _, fuel' => absurd fuel' (Nat.not_lt_zero _)
  | f + 1, f' + 1, s, ok, fuel, fuel' => by
    simp only [doDequeueLoop]
    split_ifs with busy
    · cases sched : scheduler cfg s (true, true) with
      | error => rfl
      | ok selected =>
        obtain ⟨r, s1⟩ := selected
        obtain ⟨frame, l4s, classic, -⟩ := scheduler_spec sched
        have ok1 := ok.scheduled sched
        cases r with
        | none => rfl
        | l4s =>
          dsimp only
          cases deq : dequeueFromL4sQueue cfg now s1 with
          | error => rfl
          | ok result =>
            obtain ⟨taken, marked, s2⟩ := result
            cases taken with
            | some => rfl
            | none =>
              obtain ⟨ok2, -, emptied, same, -⟩ := ok1.serveL4s deq
              have nonempty := List.length_pos.mpr (l4s rfl).1
              have fewer : getNPackets s2 < getNPackets s := by
                simp only [getNPackets, emptied rfl, same, frame.queues.2, List.length_nil]
                omega
              exact doDequeueLoop_fuel now ok2 (by omega) (by omega)
        | classic =>
          dsimp only
          cases deq : dequeueFromClassicQueue cfg s1 with
          | mk taken rest =>
            obtain ⟨dropped, s2⟩ := rest
            cases taken with
            | some => rfl
            | none =>
              obtain ⟨ok2, -, emptied, same, -⟩ := ok1.serveClassic deq
              have nonempty := List.length_pos.mpr (classic rfl).1
              have fewer : getNPackets s2 < getNPackets s := by
                simp only [getNPackets, emptied rfl, same, frame.queues.1, List.length_nil]
                omega
              exact doDequeueLoop_fuel now ok2 (by omega) (by omega)
    · rfl

section Steps

variable {cfg : Config α} {now : Int}

theorem pendingDequeueLoop_l4s_none {n left marked : Nat} {s s1 s2 : DualPi2QueueDisc α}
    {eligible : Bool × Bool} {m : Bool} (sched : scheduler cfg s eligible = .ok (.l4s, s1))
    (deq : dequeueFromL4sQueue cfg now s1 = .ok (none, m, s2))
    (schedulable : canSchedule s left = eligible) (busy : (!eligible.1 && !eligible.2) = false) :
    pendingDequeueLoop cfg now (n + 1) left marked s =
      pendingDequeueLoop cfg now n left marked s2 := by
  simp only [pendingDequeueLoop, schedulable, busy, sched, deq, Bool.false_eq_true, ↓reduceIte]

theorem pendingDequeueLoop_classic_stage {n left marked : Nat} {s s1 s2 : DualPi2QueueDisc α}
    {eligible : Bool × Bool} {qdItem : QueueDiscItem} {d : Bool}
    (sched : scheduler cfg s eligible = .ok (.classic, s1))
    (deq : dequeueFromClassicQueue cfg s1 = (some qdItem, d, s2))
    (schedulable : canSchedule s left = eligible) (busy : (!eligible.1 && !eligible.2) = false)
    (fits : wifiSize qdItem ≤ left) :
    pendingDequeueLoop cfg now (n + 1) left marked s =
      pendingDequeueLoop cfg now n (left - wifiSize qdItem) marked
        (addToClassicStagingQueue s2 qdItem) := by
  simp only [pendingDequeueLoop, schedulable, busy, sched, deq, Bool.false_eq_true, ↓reduceIte,
    fits]

theorem pendingDequeueLoop_classic_none {n left marked : Nat} {s s1 s2 : DualPi2QueueDisc α}
    {eligible : Bool × Bool} {d : Bool} (sched : scheduler cfg s eligible = .ok (.classic, s1))
    (deq : dequeueFromClassicQueue cfg s1 = (none, d, s2))
    (schedulable : canSchedule s left = eligible) (busy : (!eligible.1 && !eligible.2) = false) :
    pendingDequeueLoop cfg now (n + 1) left marked s =
      pendingDequeueLoop cfg now n left marked s2 := by
  simp only [pendingDequeueLoop, schedulable, busy, sched, deq, Bool.false_eq_true, ↓reduceIte]

end Steps

/-- Successive `DoDequeue` calls at time `now`, at most `calls` of them, until one returns no
item: the items they return, in order, and the state after the last. This is how the device
drains the queue disc when no pending dequeue intervenes. -/
def dequeueAll (cfg : Config α) (now : Int) :
    Nat → DualPi2QueueDisc α → Except String (List QueueDiscItem × DualPi2QueueDisc α)
  | 0, s => .ok ([], s)
  | calls + 1, s =>
    match doDequeue cfg now s with
    | .error message => .error message
    | .ok (none, s) => .ok ([], s)
    | .ok (some qdItem, s) =>
      match dequeueAll cfg now calls s with
      | .error message => .error message
      | .ok (rest, s) => .ok (qdItem :: rest, s)

/-- The framed backlog `GetNBytes () + 38 · GetNPackets ()` that a pending dequeue compares
its budget with, without `uint32_t` wrap. -/
def framedBytes (s : DualPi2QueueDisc α) : Nat :=
  bytes s.classicQueue + bytes s.l4sQueue + 38 * getNPackets s

theorem size_le_bytes {queue : List QueueDiscItem} {x : QueueDiscItem} (member : x ∈ queue) :
    x.size ≤ bytes queue := by
  induction queue with
  | nil => cases member
  | cons y rest ih =>
    rcases List.mem_cons.mp member with rfl | later
    · simp
    · have := ih later; simp; omega

theorem Evolved.size_eq {x y : QueueDiscItem} (evolved : Evolved x y) : y.size = x.size := by
  rcases evolved with rfl | ⟨-, rfl⟩ <;> rfl

theorem wifiSize_of_lt {qdItem : QueueDiscItem} (small : qdItem.size + 38 < uint32Size) :
    wifiSize qdItem = qdItem.size + 38 :=
  Nat.mod_eq_of_lt small

/-- A take of `x` after the drops `ds` leaves at least `x`'s framed size fewer framed bytes. -/
theorem TakesAfter.framed {queue ds rest : List QueueDiscItem} {x : QueueDiscItem}
    (takes : TakesAfter queue ds rest (some x)) :
    bytes rest + 38 * rest.length + (x.size + 38) ≤ bytes queue + 38 * queue.length := by
  rw [show queue = _ from takes]
  simp only [bytes_append, bytes_cons, List.length_append, List.length_cons]
  omega

section Accounting

variable {cfg : Config α}

/-- An L4S AQM step that returns `y` takes one packet of `y`'s framed size, at least, out of
the framed backlog. -/
theorem dequeueFromL4sQueue_framed {now : Int} {s s' : DualPi2QueueDisc α} {y : QueueDiscItem}
    {marked : Bool} (run : dequeueFromL4sQueue cfg now s = .ok (some y, marked, s')) :
    framedBytes s' + (y.size + 38) ≤ framedBytes s ∧ getNPackets s' < getNPackets s := by
  obtain ⟨ds, rest, taken, _, _, rfl, takes, returned, -⟩ := dequeueFromL4sLoop_spec run
  cases taken with
  | none => cases returned
  | some x =>
    cases Option.some.inj returned
    have framed := takes.framed
    have shorter : rest.length < s.l4sQueue.length := by
      rw [show s.l4sQueue = _ from takes]; simp; omega
    simp only [framedBytes, getNPackets]
    cases marked <;> simp only [markedIf_false, markedIf_true, withCe_size] <;> omega

/-- A Classic AQM step that returns `y` takes it, framed, out of the framed backlog. -/
theorem dequeueFromClassicQueue_framed {s s' : DualPi2QueueDisc α} {y : QueueDiscItem}
    {dropped : Bool} (run : dequeueFromClassicQueue cfg s = (some y, dropped, s')) :
    y ∈ s.classicQueue ∧ framedBytes s' + (y.size + 38) ≤ framedBytes s ∧
      getNPackets s' < getNPackets s := by
  obtain ⟨ds, rest, _, rfl, takes⟩ := dequeueFromClassicQueue_spec run
  have framed := takes.framed
  have shorter : rest.length < s.classicQueue.length := by
    rw [show s.classicQueue = _ from takes]; simp; omega
  refine ⟨by rw [show s.classicQueue = _ from takes]; simp, ?_, ?_⟩ <;>
    simp only [framedBytes, getNPackets] <;> omega

/-- In a serviceable state every queued item's framed size is within the framed backlog and
does not wrap in `uint32_t`. -/
theorem Serviceable.framed_le {s : DualPi2QueueDisc α} (ok : Serviceable cfg s)
    {x : QueueDiscItem} (member : x ∈ s.l4sQueue ++ s.classicQueue) :
    x.size + 38 < uint32Size ∧ x.size + 38 ≤ framedBytes s := by
  have counted : 1 ≤ getNPackets s ∧ x.size ≤ bytes s.classicQueue + bytes s.l4sQueue := by
    unfold getNPackets
    rcases List.mem_append.mp member with queue | queue <;>
      · have := List.length_pos_of_mem queue; have := size_le_bytes queue; omega
  have := ok.within
  have := (ok.sizes x member).2
  unfold framedBytes
  unfold uint32Size at this ⊢
  omega

/-- With a budget covering the framed backlog of a serviceable state with packets queued, the
batch's eligibility admits a queue, and its `Scheduler` call is `DoDequeue`'s. -/
theorem Serviceable.covered_scheduler {s : DualPi2QueueDisc α} {left : Nat}
    (ok : Serviceable cfg s) (covered : framedBytes s ≤ left) (waiting : getNPackets s ≠ 0) :
    (!(canSchedule s left).1 && !(canSchedule s left).2) = false ∧
      scheduler cfg s (canSchedule s left) = scheduler cfg s (true, true) := by
  rw [canSchedule_of_covered fun x member =>
    ⟨(ok.framed_le member).1, (ok.framed_le member).2.trans covered⟩]
  have queued : s.classicQueue ≠ [] ∨ s.l4sQueue ≠ [] := by
    by_contra none
    simp only [not_or, not_not] at none
    simp [getNPackets, none.1, none.2] at waiting
  refine ⟨by rcases queued with queue | queue <;> simp [queue], ?_⟩
  apply scheduler_of_heads_eligible
  · rcases queued with queue | queue <;> simp [queue]
  · intro head; cases queue : s.l4sQueue <;> simp_all [headSize]
  · intro head; cases queue : s.classicQueue <;> simp_all [headSize]

end Accounting

/-- A state from which a batch and successive `DoDequeue` calls are compared: serviceable,
with only Classic items in the Classic queue, and nothing staged. -/
structure Drainable (cfg : Config α) (s : DualPi2QueueDisc α) : Prop where
  ok : Serviceable cfg s
  classicOnly : ∀ x ∈ s.classicQueue, isL4s x = false
  l4sUnstaged : s.l4sStagingQueue = []
  classicUnstaged : s.classicStagingQueue = []

section Drain

variable {cfg : Config α}

omit [LinearOrderedField α] in
@[simp] theorem addToL4sStagingQueue_restage (s : DualPi2QueueDisc α)
    (L C : List QueueDiscItem) (qdItem : QueueDiscItem) :
    addToL4sStagingQueue (s.restage L C) qdItem = s.restage (L ++ [qdItem]) C := rfl

omit [LinearOrderedField α] in
@[simp] theorem addToClassicStagingQueue_restage (s : DualPi2QueueDisc α)
    (L C : List QueueDiscItem) (qdItem : QueueDiscItem) :
    addToClassicStagingQueue (s.restage L C) qdItem = s.restage L (C ++ [qdItem]) := rfl

theorem dequeueFromL4sQueue_restage {now : Int} (s : DualPi2QueueDisc α)
    (L C : List QueueDiscItem) :
    dequeueFromL4sQueue cfg now (s.restage L C) =
      (dequeueFromL4sQueue cfg now s).map
        (fun result => (result.1, result.2.1, result.2.2.restage L C)) :=
  dequeueFromL4sLoop_restage now s.l4sQueue s

theorem Drainable.descend {s s' : DualPi2QueueDisc α} (d : Drainable cfg s)
    (ok : Serviceable cfg s') (descends : AqmDescends s s') : Drainable cfg s' where
  ok := ok
  classicOnly := fun x member => d.classicOnly x (descends.2.1.subset member)
  l4sUnstaged := descends.2.2.1.trans d.l4sUnstaged
  classicUnstaged := descends.2.2.2.1.trans d.classicUnstaged

theorem Drainable.scheduled {s s' : DualPi2QueueDisc α} {eligible : Bool × Bool}
    {r : QueueIndex} (d : Drainable cfg s) (sched : scheduler cfg s eligible = .ok (r, s')) :
    Drainable cfg s' := by
  have frame := (scheduler_spec sched).1
  exact d.descend (d.ok.scheduled sched) ⟨by rw [frame.queues.1], by rw [frame.queues.2],
    frame.staging.1, frame.staging.2, [], by rw [frame]; simp, by simp⟩

omit [LinearOrderedField α] in
/-- AQM steps only shorten the internal queues, so the framed backlog only shrinks. -/
theorem AqmDescends.framedBytes_le {s s' : DualPi2QueueDisc α} (descends : AqmDescends s s') :
    framedBytes s' ≤ framedBytes s := by
  have := bytes_le_of_suffix descends.1
  have := bytes_le_of_suffix descends.2.1
  have := descends.1.length_le
  have := descends.2.1.length_le
  unfold framedBytes getNPackets
  omega

/-- A `DoDequeue` call whose scheduling loop goes on, after an AQM step that returned nothing,
from a drainable state with fewer packets is the call from that state. -/
theorem Drainable.doDequeue_of_silent {now : Int} {u u2 : DualPi2QueueDisc α}
    (d2 : Drainable cfg u2) (fewer : getNPackets u2 < getNPackets u)
    (plain : doDequeue cfg now u = doDequeueLoop cfg now (getNPackets u) u2) :
    doDequeue cfg now u = doDequeue cfg now u2 := by
  rw [plain, doDequeue_of_unstaged d2.l4sUnstaged d2.classicUnstaged]
  exact doDequeueLoop_fuel now d2.ok fewer (Nat.lt_succ_self _)

/-- One iteration of `DoDequeue`'s loop from a drainable state with packets queued: `Scheduler`
picks a non-empty queue and writes only the WDRR state, and that queue's AQM step either
returns one of its items, which the call returns, or empties the queue, and the call goes on as
a call from the state the step leaves. -/
theorem Drainable.iterate (quantum : 0 < cfg.drrQuantum) (now : Int) {u : DualPi2QueueDisc α}
    (d : Drainable cfg u) (waiting : getNPackets u ≠ 0) :
    ∃ u1 u2 taken, u.DrrFrame u1 ∧ Drainable cfg u2 ∧ getNPackets u2 < getNPackets u ∧
      (taken = none → doDequeue cfg now u = doDequeue cfg now u2 ∧
        framedBytes u2 ≤ framedBytes u) ∧
      (∀ y, taken = some y → doDequeue cfg now u = .ok (some y, u2) ∧
        framedBytes u2 + wifiSize y ≤ framedBytes u) ∧
      ((scheduler cfg u (true, true) = .ok (.l4s, u1) ∧
          (∃ m, dequeueFromL4sQueue cfg now u1 = .ok (taken, m, u2)) ∧
          (taken = none → u2.l4sQueue = []) ∧ ∀ y, taken = some y → isL4s y = true) ∨
        (scheduler cfg u (true, true) = .ok (.classic, u1) ∧
          (∃ dr, dequeueFromClassicQueue cfg u1 = (taken, dr, u2)) ∧
          (taken = none → u2.classicQueue = []) ∧ ∀ y, taken = some y → isL4s y = false)) := by
  have ok := d.ok
  obtain ⟨⟨r, u1⟩, sched⟩ := scheduler_selects cfg quantum ok.nonneg
    (fun x member => (ok.sizes x member).1) waiting ok.heads_small
  obtain ⟨frame, l4s, classic, idle⟩ := scheduler_spec sched
  have d1 := d.scheduled sched
  have framed1 : framedBytes u1 = framedBytes u := by
    simp only [framedBytes, getNPackets, frame.queues.1, frame.queues.2]
  have packets1 : getNPackets u1 = getNPackets u := by
    simp only [getNPackets, frame.queues.1, frame.queues.2]
  have busy : getQueueSize u > 0 := by
    rw [ok.getQueueSize]
    by_contra idle
    have positive := fun x member => (ok.sizes x member).1
    have emptyC := (bytes_eq_zero fun x m => positive x (List.mem_append_right _ m)).mp (by omega)
    have emptyL := (bytes_eq_zero fun x m => positive x (List.mem_append_left _ m)).mp (by omega)
    simp [getNPackets, emptyC, emptyL] at waiting
  have plain : doDequeue cfg now u = doDequeueLoop cfg now (getNPackets u + 1) u :=
    doDequeue_of_unstaged d.l4sUnstaged d.classicUnstaged
  cases r with
  | none => exact absurd (idle rfl).1 waiting
  | l4s =>
    cases deq : dequeueFromL4sQueue cfg now u1 with
    | error message => exact absurd deq d1.ok.l4sOnly.l4sDequeue_ok
    | ok result =>
      obtain ⟨taken, mk, u2⟩ := result
      obtain ⟨ok2, descends2, emptied, same, evolved⟩ := d1.ok.serveL4s deq
      have d2 := d1.descend ok2 descends2
      cases taken with
      | none =>
        have fewer : getNPackets u2 < getNPackets u := by
          have nonempty := List.length_pos.mpr (l4s rfl).1
          simp only [getNPackets, emptied rfl, same, frame.queues.2, List.length_nil]
          omega
        exact ⟨u1, u2, none, frame, d2, fewer, fun _ => ⟨d2.doDequeue_of_silent fewer (by
          rw [plain]; simp only [doDequeueLoop, busy, sched, deq, if_true]),
          framed1 ▸ descends2.framedBytes_le⟩, fun _ no => (nomatch no),
          .inl ⟨sched, ⟨mk, deq⟩, emptied, fun _ no => (nomatch no)⟩⟩
      | some y =>
        obtain ⟨framed, fewer⟩ := dequeueFromL4sQueue_framed deq
        obtain ⟨x, member, evolved⟩ := evolved y rfl
        have small := (d1.ok.framed_le (List.mem_append_left _ member)).1
        rw [← evolved.size_eq] at small
        refine ⟨u1, u2, some y, frame, d2, by omega, fun no => (nomatch no),
          fun _ taken => ?_, .inl ⟨sched, ⟨mk, deq⟩, fun no => (nomatch no), fun _ taken => ?_⟩⟩
        · cases taken
          refine ⟨by rw [plain]; simp only [doDequeueLoop, busy, sched, deq, if_true], ?_⟩
          rw [wifiSize_of_lt small]; omega
        · cases taken
          exact evolved.isL4s_eq.trans (d1.ok.l4sOnly x member)
  | classic =>
    cases deq : dequeueFromClassicQueue cfg u1 with
    | mk taken rest =>
      obtain ⟨dropped, u2⟩ := rest
      obtain ⟨ok2, descends2, emptied, same, -⟩ := d1.ok.serveClassic deq
      have d2 := d1.descend ok2 descends2
      cases taken with
      | none =>
        have fewer : getNPackets u2 < getNPackets u := by
          have nonempty := List.length_pos.mpr (classic rfl).1
          simp only [getNPackets, emptied rfl, same, frame.queues.1, List.length_nil]
          omega
        exact ⟨u1, u2, none, frame, d2, fewer, fun _ => ⟨d2.doDequeue_of_silent fewer (by
          rw [plain]; simp only [doDequeueLoop, busy, sched, deq, if_true]),
          framed1 ▸ descends2.framedBytes_le⟩, fun _ no => (nomatch no),
          .inr ⟨sched, ⟨dropped, deq⟩, emptied, fun _ no => (nomatch no)⟩⟩
      | some y =>
        obtain ⟨member, framed, fewer⟩ := dequeueFromClassicQueue_framed deq
        have small := (d1.ok.framed_le (List.mem_append_right _ member)).1
        refine ⟨u1, u2, some y, frame, d2, by omega, fun no => (nomatch no),
          fun _ taken => ?_, .inr ⟨sched, ⟨dropped, deq⟩, fun no => (nomatch no),
            fun _ taken => ?_⟩⟩
        · cases taken
          refine ⟨by rw [plain]; simp only [doDequeueLoop, busy, sched, deq, if_true], ?_⟩
          rw [wifiSize_of_lt small]; omega
        · cases taken
          exact d1.classicOnly y member

/-- One `DoDequeue` call from a drainable state with packets queued, against one iteration of
a batch whose budget covers the framed backlog. Either the AQM step returns no item, and the
call and the batch go on from the state it leaves; or the call returns `y` and the batch
stages `y` in its class's staging queue, charged its framed size. -/
theorem Drainable.step (quantum : 0 < cfg.drrQuantum) (now : Int) {u : DualPi2QueueDisc α}
    (d : Drainable cfg u) (waiting : getNPackets u ≠ 0) :
    ∃ u2, Drainable cfg u2 ∧ getNPackets u2 < getNPackets u ∧
      ((doDequeue cfg now u = doDequeue cfg now u2 ∧ framedBytes u2 ≤ framedBytes u ∧
          ∀ n left marked L C, framedBytes u ≤ left →
            pendingDequeueLoop cfg now (n + 1) left marked (u.restage L C) =
              pendingDequeueLoop cfg now n left marked (u2.restage L C)) ∨
        ∃ y, doDequeue cfg now u = .ok (some y, u2) ∧
          framedBytes u2 + wifiSize y ≤ framedBytes u ∧
          ∃ mk : Bool, ∀ n left marked L C, framedBytes u ≤ left →
            pendingDequeueLoop cfg now (n + 1) left marked (u.restage L C) =
              pendingDequeueLoop cfg now n (left - wifiSize y)
                (if mk then marked + 1 else marked)
                (u2.restage (L ++ [y].filter isL4s) (C ++ [y].filter (!isL4s ·)))) := by
  obtain ⟨u1, u2, taken, -, d2, fewer, silent, takes, served⟩ := d.iterate quantum now waiting
  have batch : ∀ {left r} L C, scheduler cfg u (true, true) = .ok (r, u1) →
      framedBytes u ≤ left →
      (!(canSchedule (u.restage L C) left).1 && !(canSchedule (u.restage L C) left).2) = false ∧
        scheduler cfg (u.restage L C) (canSchedule (u.restage L C) left) =
          .ok (r, u1.restage L C) := by
    intro left r L C sched covered
    obtain ⟨busy', same⟩ := d.ok.covered_scheduler covered waiting
    exact ⟨busy', by rw [scheduler_restage]; erw [same, sched]; rfl⟩
  refine ⟨u2, d2, fewer, ?_⟩
  cases taken with
  | none =>
    obtain ⟨call, framed⟩ := silent rfl
    refine .inl ⟨call, framed, fun n left marked L C covered => ?_⟩
    rcases served with ⟨sched, ⟨mk, deq⟩, -⟩ | ⟨sched, ⟨dr, deq⟩, -⟩
    · obtain ⟨busy', sched'⟩ := batch L C sched covered
      exact pendingDequeueLoop_l4s_none sched'
        (by rw [dequeueFromL4sQueue_restage, deq]; rfl) rfl busy'
    · obtain ⟨busy', sched'⟩ := batch L C sched covered
      exact pendingDequeueLoop_classic_none sched'
        (by rw [dequeueFromClassicQueue_restage, deq]) rfl busy'
  | some y =>
    obtain ⟨call, framed⟩ := takes y rfl
    rcases served with ⟨sched, ⟨mk, deq⟩, -, l4sY⟩ | ⟨sched, ⟨dr, deq⟩, -, classicY⟩
    · refine .inr ⟨y, call, framed, mk, fun n left marked L C covered => ?_⟩
      obtain ⟨busy', sched'⟩ := batch L C sched covered
      rw [pendingDequeueLoop_l4s_stage sched' (by rw [dequeueFromL4sQueue_restage, deq]; rfl)
        rfl busy' (by omega)]
      simp [l4sY y rfl]
    · refine .inr ⟨y, call, framed, false, fun n left marked L C covered => ?_⟩
      obtain ⟨busy', sched'⟩ := batch L C sched covered
      rw [pendingDequeueLoop_classic_stage sched' (by rw [dequeueFromClassicQueue_restage, deq])
        rfl busy' (by omega)]
      simp [classicY y rfl]

/-- A drainable state with its internal queues empty is left as it is by `DoDequeue` calls,
which return nothing. -/
theorem Drainable.dequeueAll_of_empty {now : Int} {t : DualPi2QueueDisc α} (d : Drainable cfg t)
    (emptyL : t.l4sQueue = []) (emptyC : t.classicQueue = []) {calls : Nat} (some : 0 < calls) :
    dequeueAll cfg now calls t = .ok ([], t) := by
  obtain ⟨c, rfl⟩ := Nat.exists_eq_add_of_lt some
  have idle : getQueueSize t = 0 := by simp [getQueueSize, getNBytes, emptyL, emptyC]
  simp only [dequeueAll, doDequeue_of_idle d.l4sUnstaged d.classicUnstaged idle]

/-- From a drainable state, a batch with more iterations than packets queued and a budget
covering the framed backlog ends with the internal queues empty. It takes out of them exactly
the items, in order, that successive `DoDequeue` calls at the same time return, appending the
L4S ones to the L4S staging queue and the Classic ones to the Classic staging queue, and
leaves every other part of the state as those calls do. -/
theorem Drainable.drain (quantum : 0 < cfg.drrQuantum) (now : Int) :
    ∀ (n : Nat) {u : DualPi2QueueDisc α}, Drainable cfg u → getNPackets u < n →
      ∃ xs t, xs.length ≤ getNPackets u ∧ Drainable cfg t ∧
        (∀ calls, getNPackets u < calls → dequeueAll cfg now calls u = .ok (xs, t)) ∧
        t.l4sQueue = [] ∧ t.classicQueue = [] ∧
        ∀ left marked L C, framedBytes u ≤ left → ∃ m,
          pendingDequeueLoop cfg now n left marked (u.restage L C) =
            .ok (m, t.restage (L ++ xs.filter isL4s) (C ++ xs.filter (!isL4s ·)))
  | 0, _, _, fuel => absurd fuel (Nat.not_lt_zero _)
  | n + 1, u, d, fuel => by
    by_cases waiting : getNPackets u = 0
    · have empty : u.classicQueue = [] ∧ u.l4sQueue = [] := by
        simpa [getNPackets] using waiting
      refine ⟨[], u, Nat.zero_le _, d, fun calls more =>
        d.dequeueAll_of_empty empty.2 empty.1 (by omega), empty.2, empty.1,
        fun left marked L C _ => ⟨marked, ?_⟩⟩
      rw [pendingDequeueLoop_idle (by simp [canSchedule, getNPackets, empty.1, empty.2])]
      simp
    · obtain ⟨u2, d2, fewer, silent | ⟨y, call, framed, mk, batch⟩⟩ := d.step quantum now waiting
      · obtain ⟨same, framed, batch⟩ := silent
        obtain ⟨xs, t, short, dt, calls, emptyL, emptyC, drains⟩ :=
          Drainable.drain quantum now n d2 (by omega)
        refine ⟨xs, t, by omega, dt, fun c more => ?_, emptyL, emptyC,
          fun left marked L C covered => ?_⟩
        · obtain ⟨c, rfl⟩ := Nat.exists_eq_add_of_lt more
          rw [← calls (getNPackets u + c + 1) (by omega)]
          simp only [dequeueAll, same]
        · rw [batch n left marked L C covered]
          exact drains left marked L C (framed.trans covered)
      · obtain ⟨xs, t, short, dt, calls, emptyL, emptyC, drains⟩ :=
          Drainable.drain quantum now n d2 (by omega)
        refine ⟨y :: xs, t, by simp only [List.length_cons]; omega, dt, fun c more => ?_, emptyL,
          emptyC, fun left marked L C covered => ?_⟩
        · obtain ⟨c, rfl⟩ := Nat.exists_eq_add_of_lt more
          simp only [dequeueAll, call, calls (getNPackets u + c) (by omega)]
        · obtain ⟨m, run⟩ := drains (left - wifiSize y) (if mk then marked + 1 else marked)
            (L ++ [y].filter isL4s) (C ++ [y].filter (!isL4s ·)) (by omega)
          refine ⟨m, ?_⟩
          rw [batch n left marked L C covered, run, List.append_assoc, List.append_assoc,
            ← List.filter_append, ← List.filter_append]
          rfl

omit [LinearOrderedField α] in
@[simp] theorem restage_staged (s : DualPi2QueueDisc α) (L C : List QueueDiscItem) :
    (s.restage L C).restage s.l4sStagingQueue s.classicStagingQueue = s := rfl

theorem Reachable.drainable {s : DualPi2QueueDisc α} {h : History} (reach : Reachable cfg s h)
    (sizes : ∀ x ∈ h.enqueued, 0 < x.size ∧ x.size + cfg.queueLimit < uint32Size) :
    Drainable cfg (s.restage [] []) where
  ok := (reach.serviceable sizes).descend (List.suffix_refl _) (List.suffix_refl _)
    (reach.serviceable sizes).nonneg
  classicOnly := fun _ member => (reach.conserved.2 false).isL4s_queue member
  l4sUnstaged := rfl
  classicUnstaged := rfl

/-- A batch with a covering budget and no more iterations than the items successive
`DoDequeue` calls return ends on the loop guard: each item it stages costs one iteration, and
it needs one more to find nothing left. -/
theorem Drainable.exhaust (quantum : 0 < cfg.drrQuantum) (now : Int) :
    ∀ (n : Nat) {u : DualPi2QueueDisc α} {calls : Nat} {xs : List QueueDiscItem}
      {t : DualPi2QueueDisc α}, Drainable cfg u → getNPackets u < calls →
      dequeueAll cfg now calls u = .ok (xs, t) → n ≤ xs.length →
      ∀ left marked L C, framedBytes u ≤ left →
        pendingDequeueLoop cfg now n left marked (u.restage L C) = .error "Error: infinite loop"
  | 0, _, _, _, _, _, _, _, _, _, _, _, _, _ => rfl
  | n + 1, u, calls, xs, t, d, enough, plain, long, left, marked, L, C, covered => by
    by_cases waiting : getNPackets u = 0
    · have empty : u.classicQueue = [] ∧ u.l4sQueue = [] := by simpa [getNPackets] using waiting
      rw [d.dequeueAll_of_empty empty.2 empty.1 (by omega)] at plain
      cases plain
      simp at long
    · obtain ⟨c, rfl⟩ := Nat.exists_eq_add_of_lt enough
      obtain ⟨u2, d2, fewer, silent | ⟨y, call, framed, mk, batch⟩⟩ := d.step quantum now waiting
      · obtain ⟨same, framed, batch⟩ := silent
        have plain2 : dequeueAll cfg now (getNPackets u + c + 1) u2 = .ok (xs, t) := by
          rw [← plain]; simp only [dequeueAll, same]
        rw [batch n left marked L C covered]
        exact Drainable.exhaust quantum now n d2 (by omega) plain2 (by omega) left marked L C
          (framed.trans covered)
      · simp only [dequeueAll, call] at plain
        cases rest : dequeueAll cfg now (getNPackets u + c) u2 with
        | error message => rw [rest] at plain; cases plain
        | ok result =>
          obtain ⟨xs', t'⟩ := result
          rw [rest] at plain
          cases plain
          rw [batch n left marked L C covered]
          exact Drainable.exhaust quantum now n d2 (by omega) rest
            (by simpa using long) _ _ _ _ (by omega)

/-- `DoDequeue` calls from a state with only Classic items staged return them, then what the
calls return from the state with nothing staged. -/
theorem dequeueAll_classic_staged (now : Int) (u : DualPi2QueueDisc α) (calls : Nat) :
    ∀ C : List QueueDiscItem, dequeueAll cfg now (C.length + calls) (u.restage [] C) =
      (dequeueAll cfg now calls (u.restage [] [])).map (fun r => (C ++ r.1, r.2))
  | [] => by
    simp only [List.length_nil, Nat.zero_add, List.nil_append]
    cases dequeueAll cfg now calls (u.restage [] []) <;> rfl
  | y :: C => by
    have pop : doDequeue cfg now (u.restage [] (y :: C)) = .ok (some y, u.restage [] C) := rfl
    rw [List.length_cons, Nat.add_right_comm]
    simp only [dequeueAll, pop, dequeueAll_classic_staged now u calls C]
    cases dequeueAll cfg now calls (u.restage [] []) <;> rfl

/-- `DoDequeue` calls from a state with items staged return the L4S staged items, then the
Classic ones, then what the calls return from the state with nothing staged. -/
theorem dequeueAll_restage (now : Int) (u : DualPi2QueueDisc α) (C : List QueueDiscItem)
    (calls : Nat) : ∀ L : List QueueDiscItem,
      dequeueAll cfg now (L.length + C.length + calls) (u.restage L C) =
        (dequeueAll cfg now calls (u.restage [] [])).map (fun r => (L ++ C ++ r.1, r.2))
  | [] => by
    rw [List.length_nil, Nat.zero_add, dequeueAll_classic_staged]
    rfl
  | y :: L => by
    have pop : doDequeue cfg now (u.restage (y :: L) C) = .ok (some y, u.restage L C) := rfl
    rw [show (y :: L).length + C.length + calls = L.length + C.length + calls + 1 by
      simp only [List.length_cons]; omega]
    simp only [dequeueAll, pop, dequeueAll_restage now u C calls L]
    cases dequeueAll cfg now calls (u.restage [] []) <;> rfl

end Drain

/-- The run that queues `l4sPacket` and `smallClassicPacket` enqueues items of positive size
far below `2^32 - m_queueLimit`. -/
theorem twoPacketHistory_sizes : ∀ x ∈ twoPacketHistory.enqueued,
    0 < x.size ∧ x.size + defaultConfig.queueLimit < uint32Size := by
  simp [twoPacketHistory, History.recordEnqueue, History.empty, l4sPacket, smallClassicPacket,
    defaultConfig, uint32Size]

/-- In every reachable state of a run whose items have a positive size too small for
`DoEnqueue`'s `uint32_t` sum to wrap, the batch loop of `PendingDequeueCallback` with more
iterations than packets queued and a budget covering the framed backlog empties the internal
queues. It stages exactly the items that successive `DoDequeue` calls at the same time,
with nothing staged, return, in the order they return them: the L4S ones after the L4S
staging queue, the Classic ones after the Classic staging queue. Every other part of the
state, AQM drops, counters and probabilities and the WDRR state, ends as those calls leave
it. -/
theorem reachable_batch_refines_dequeues {cfg : Config α} (quantum : 0 < cfg.drrQuantum)
    {s : DualPi2QueueDisc α} {h : History} (reach : Reachable cfg s h)
    (sizes : ∀ x ∈ h.enqueued, 0 < x.size ∧ x.size + cfg.queueLimit < uint32Size)
    (now : Int) {n left : Nat} (iterations : getNPackets s < n)
    (covered : framedBytes s ≤ left) (marked : Nat) :
    ∃ xs t m, (∀ calls, getNPackets s < calls →
        dequeueAll cfg now calls (s.restage [] []) = .ok (xs, t)) ∧
      t.l4sQueue = [] ∧ t.classicQueue = [] ∧
      pendingDequeueLoop cfg now n left marked s =
        .ok (m, t.restage (s.l4sStagingQueue ++ xs.filter isL4s)
          (s.classicStagingQueue ++ xs.filter (!isL4s ·))) := by
  obtain ⟨xs, t, -, -, calls, emptyL, emptyC, drains⟩ :=
    (reach.drainable sizes).drain quantum now n iterations
  obtain ⟨m, run⟩ := drains left marked s.l4sStagingQueue s.classicStagingQueue covered
  exact ⟨xs, t, m, calls, emptyL, emptyC, by rwa [restage_staged] at run⟩

/-- From `l4sPacket` and `smallClassicPacket` queued, a batch with three iterations and the
whole framed backlog as budget stages what two `DoDequeue` calls return. -/
theorem reachable_batch_refines_dequeues_two_packets :
    0 < defaultConfig.drrQuantum ∧
      (∀ x ∈ twoPacketHistory.enqueued,
        0 < x.size ∧ x.size + defaultConfig.queueLimit < uint32Size) ∧
      getNPackets twoPacketState < 3 ∧ framedBytes twoPacketState ≤ framedBytes twoPacketState ∧
      ∃ xs t m, (∀ calls, getNPackets twoPacketState < calls →
          dequeueAll defaultConfig 0 calls (twoPacketState.restage [] []) = .ok (xs, t)) ∧
        t.l4sQueue = [] ∧ t.classicQueue = [] ∧
        pendingDequeueLoop defaultConfig 0 3 (framedBytes twoPacketState) 0 twoPacketState =
          .ok (m, t.restage (twoPacketState.l4sStagingQueue ++ xs.filter isL4s)
            (twoPacketState.classicStagingQueue ++ xs.filter (!isL4s ·))) := by
  exact ⟨by decide, twoPacketHistory_sizes, by decide, le_rfl,
    reachable_batch_refines_dequeues (by decide) twoPacketState_reachable twoPacketHistory_sizes 0
      (by decide) le_rfl 0⟩

/-- In every reachable state of a run whose items have a positive size too small for
`DoEnqueue`'s `uint32_t` sum to wrap, the batch loop of `PendingDequeueCallback` with a budget
covering the framed backlog fails with its guard's "Error: infinite loop" whenever its
iterations (`maxIterations = 1000` in the source) do not exceed the number of items successive
`DoDequeue` calls at the same time return. So a batch that would stage exactly
`maxIterations` items trips the guard, although the loop would end at the next iteration. -/
theorem reachable_batch_guard_fires {cfg : Config α} (quantum : 0 < cfg.drrQuantum)
    {s : DualPi2QueueDisc α} {h : History} (reach : Reachable cfg s h)
    (sizes : ∀ x ∈ h.enqueued, 0 < x.size ∧ x.size + cfg.queueLimit < uint32Size)
    (now : Int) {left : Nat} (covered : framedBytes s ≤ left) (marked : Nat) :
    ∃ xs t, (∀ calls, getNPackets s < calls →
        dequeueAll cfg now calls (s.restage [] []) = .ok (xs, t)) ∧
      ∀ n, n ≤ xs.length →
        pendingDequeueLoop cfg now n left marked s = .error "Error: infinite loop" := by
  have d := reach.drainable sizes
  obtain ⟨xs, t, -, -, calls, -, -, -⟩ :=
    d.drain quantum now (getNPackets s + 1) (Nat.lt_succ_self _)
  refine ⟨xs, t, calls, fun n long => ?_⟩
  have fires := d.exhaust quantum now n (Nat.lt_succ_self _) (calls _ (Nat.lt_succ_self _)) long
    left marked s.l4sStagingQueue s.classicStagingQueue covered
  rwa [restage_staged] at fires

/-- `l4sPacket` alone in the L4S queue: one `DoDequeue` call returns it, and a batch of one
iteration with the whole framed backlog as budget stages it and then fails on the guard. -/
theorem reachable_batch_guard_fires_one_packet :
    0 < defaultConfig.drrQuantum ∧
      (∀ x ∈ (History.empty.recordEnqueue l4sPacket true).enqueued,
        0 < x.size ∧ x.size + defaultConfig.queueLimit < uint32Size) ∧
      framedBytes ({ initialState with l4sQueue := [l4sPacket] } : DualPi2QueueDisc ℚ) ≤
        framedBytes ({ initialState with l4sQueue := [l4sPacket] } : DualPi2QueueDisc ℚ) ∧
      ∃ xs t, xs = [l4sPacket] ∧
        (∀ calls, getNPackets ({ initialState with l4sQueue := [l4sPacket] } :
            DualPi2QueueDisc ℚ) < calls → dequeueAll defaultConfig 0 calls
            (({ initialState with l4sQueue := [l4sPacket] } : DualPi2QueueDisc ℚ).restage [] []) =
              .ok (xs, t)) ∧
        ∀ n, n ≤ xs.length → pendingDequeueLoop defaultConfig 0 n
          (framedBytes ({ initialState with l4sQueue := [l4sPacket] } : DualPi2QueueDisc ℚ)) 0
          { initialState with l4sQueue := [l4sPacket] } = .error "Error: infinite loop" := by
  have sizes : ∀ x ∈ (History.empty.recordEnqueue l4sPacket true).enqueued,
      0 < x.size ∧ x.size + defaultConfig.queueLimit < uint32Size := by
    simp [History.recordEnqueue, History.empty, l4sPacket, defaultConfig, uint32Size]
  obtain ⟨xs, t, calls, fires⟩ :=
    reachable_batch_guard_fires (by decide) l4sPacket_reachable sizes 0 le_rfl 0
  have busy : getQueueSize ({ initialState with l4sQueue := [l4sPacket] } :
      DualPi2QueueDisc ℚ) > 0 := by decide
  have first : doDequeue defaultConfig 0 { initialState with l4sQueue := [l4sPacket] } =
      .ok (some l4sPacket, { initialState with
        drrQueues := ⟨true, true⟩
        llDeficit := 12500
        classicDeficit := 1500 }) := by
    rw [doDequeue_of_unstaged rfl rfl, doDequeueLoop, if_pos busy, l4sPacket_scheduled rfl]
    simp only [l4sPacket_dequeued]
  have second : doDequeue defaultConfig 0 ({ initialState with
      drrQueues := ⟨true, true⟩
      llDeficit := 12500
      classicDeficit := 1500 } : DualPi2QueueDisc ℚ) = .ok (none, { initialState with
        drrQueues := ⟨true, true⟩
        llDeficit := 12500
        classicDeficit := 1500 }) :=
    doDequeue_of_idle rfl rfl rfl
  have two : dequeueAll defaultConfig 0 2 { initialState with l4sQueue := [l4sPacket] } =
      .ok (xs, t) := calls 2 (by decide)
  simp only [dequeueAll, first, second, Except.ok.injEq, Prod.mk.injEq] at two
  exact ⟨by decide, sizes, le_rfl, xs, t, two.1.symm, calls, fires⟩

/-- In every reachable state of a run whose items have a positive size too small for
`DoEnqueue`'s `uint32_t` sum to wrap, `DoDequeue` calls at one time until none returns an item
return the same items and end in the same state whether or not the batch loop of
`PendingDequeueCallback`, with more iterations than packets queued and a budget covering the
framed backlog, ran first at that time. Only the order differs: without the batch the calls
return the L4S staging queue, the Classic staging queue, then the AQM's items in `Scheduler`'s
order; after it, the L4S staging queue and the L4S items, then the Classic staging queue and
the Classic items. -/
theorem reachable_batch_preserves_delivery {cfg : Config α} (quantum : 0 < cfg.drrQuantum)
    {s : DualPi2QueueDisc α} {h : History} (reach : Reachable cfg s h)
    (sizes : ∀ x ∈ h.enqueued, 0 < x.size ∧ x.size + cfg.queueLimit < uint32Size)
    (now : Int) {n left : Nat} (iterations : getNPackets s < n)
    (covered : framedBytes s ≤ left) (marked : Nat) :
    ∃ xs t m s', pendingDequeueLoop cfg now n left marked s = .ok (m, s') ∧
      ∀ calls, s.l4sStagingQueue.length + s.classicStagingQueue.length + getNPackets s < calls →
        dequeueAll cfg now calls s =
            .ok (s.l4sStagingQueue ++ s.classicStagingQueue ++ xs, t) ∧
          dequeueAll cfg now calls s' = .ok (s.l4sStagingQueue ++ xs.filter isL4s ++
            (s.classicStagingQueue ++ xs.filter (!isL4s ·)), t) := by
  obtain ⟨xs, t, short, dt, calls, emptyL, emptyC, drains⟩ :=
    (reach.drainable sizes).drain quantum now n iterations
  obtain ⟨m, run⟩ := drains left marked s.l4sStagingQueue s.classicStagingQueue covered
  rw [restage_staged] at run
  rw [getNPackets_restage] at short calls
  refine ⟨xs, t, m, _, run, fun c more => ⟨?_, ?_⟩⟩
  · obtain ⟨c, rfl⟩ : ∃ c', c = s.l4sStagingQueue.length + s.classicStagingQueue.length + c' :=
      ⟨_, (Nat.add_sub_cancel' (by omega)).symm⟩
    have plain : dequeueAll cfg now
        (s.l4sStagingQueue.length + s.classicStagingQueue.length + c) s = _ :=
      dequeueAll_restage now (s.restage [] []) s.classicStagingQueue c s.l4sStagingQueue
    rw [restage_restage] at plain
    rw [plain, calls c (by omega)]
    rfl
  · have partition := List.length_eq_length_filter_add (l := xs) isL4s
    have unstaged : t.restage [] [] = t :=
      calc t.restage [] [] = t.restage t.l4sStagingQueue t.classicStagingQueue := by
            rw [dt.l4sUnstaged, dt.classicUnstaged]
        _ = t := rfl
    obtain ⟨c, rfl⟩ : ∃ c', c = (s.l4sStagingQueue ++ xs.filter isL4s).length +
        (s.classicStagingQueue ++ xs.filter (!isL4s ·)).length + c' :=
      ⟨_, (Nat.add_sub_cancel' (by simp only [List.length_append]; omega)).symm⟩
    rw [dequeueAll_restage, unstaged, dt.dequeueAll_of_empty emptyL emptyC
      (by simp only [List.length_append] at more; omega)]
    simp [Except.map]

/-- From `l4sPacket` and `smallClassicPacket` queued, two `DoDequeue` calls return the same
items, and end in the same state, with or without a covering batch before them. -/
theorem reachable_batch_preserves_delivery_two_packets :
    0 < defaultConfig.drrQuantum ∧
      (∀ x ∈ twoPacketHistory.enqueued,
        0 < x.size ∧ x.size + defaultConfig.queueLimit < uint32Size) ∧
      getNPackets twoPacketState < 3 ∧ framedBytes twoPacketState ≤ framedBytes twoPacketState ∧
      ∃ xs t m s', pendingDequeueLoop defaultConfig 0 3 (framedBytes twoPacketState) 0
          twoPacketState = .ok (m, s') ∧
        ∀ calls, twoPacketState.l4sStagingQueue.length +
            twoPacketState.classicStagingQueue.length + getNPackets twoPacketState < calls →
          dequeueAll defaultConfig 0 calls twoPacketState = .ok (twoPacketState.l4sStagingQueue ++
              twoPacketState.classicStagingQueue ++ xs, t) ∧
            dequeueAll defaultConfig 0 calls s' = .ok (twoPacketState.l4sStagingQueue ++
              xs.filter isL4s ++ (twoPacketState.classicStagingQueue ++ xs.filter (!isL4s ·)), t) := by
  exact ⟨by decide, twoPacketHistory_sizes, by decide, le_rfl,
    reachable_batch_preserves_delivery (by decide) twoPacketState_reachable twoPacketHistory_sizes
      0 (by decide) le_rfl 0⟩

end DualPi2

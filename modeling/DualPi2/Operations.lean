import DualPi2.Scheduler

namespace DualPi2

variable {α : Type} [LinearOrderedField α]

/-- Modelled from the spec: the internal queues' `Enqueue` is not in src/. `CheckConfig`
creates them as drop-tail queues of `m_queueLimit` bytes, and a queue refuses an item that
would take it past that limit. -/
def internalEnqueue (cfg : Config α) (queue : List QueueDiscItem) (item : QueueDiscItem) :
    Option (List QueueDiscItem) :=
  if bytes queue + item.size ≤ cfg.queueLimit then some (queue ++ [item]) else none

/-- `DoEnqueue`: a `FORCED_DROP` when the `uint32_t` sum `GetQueueSize () + GetSize ()`
exceeds `m_queueLimit`, else the `Enqueue` of the internal queue `IsL4s` selects, whose
refusal the base class records as an internal drop. -/
def doEnqueue (cfg : Config α) (s : DualPi2QueueDisc α) (item : QueueDiscItem) :
    Bool × DualPi2QueueDisc α :=
  if (getQueueSize s + item.size) % uint32Size > cfg.queueLimit then
    (false, s.drop .forcedDrop item)
  else if isL4s item then
    match internalEnqueue cfg s.l4sQueue item with
    | some queue => (true, { s with l4sQueue := queue })
    | none => (false, s.drop .internalQueueDrop item)
  else
    match internalEnqueue cfg s.classicQueue item with
    | some queue => (true, { s with classicQueue := queue })
    | none => (false, s.drop .internalQueueDrop item)

/-- `AddToL4sStagingQueue`. -/
def addToL4sStagingQueue (s : DualPi2QueueDisc α) (qdItem : QueueDiscItem) :
    DualPi2QueueDisc α :=
  { s with l4sStagingQueue := s.l4sStagingQueue ++ [qdItem] }

/-- `AddToClassicStagingQueue`. -/
def addToClassicStagingQueue (s : DualPi2QueueDisc α) (qdItem : QueueDiscItem) :
    DualPi2QueueDisc α :=
  { s with classicStagingQueue := s.classicStagingQueue ++ [qdItem] }

/-- `DequeueFromL4sStagingQueue`. -/
def dequeueFromL4sStagingQueue (s : DualPi2QueueDisc α) :
    Option QueueDiscItem × DualPi2QueueDisc α :=
  match s.l4sStagingQueue with
  | [] => (none, s)
  | qdItem :: rest => (some qdItem, { s with l4sStagingQueue := rest })

/-- `DequeueFromClassicStagingQueue`. -/
def dequeueFromClassicStagingQueue (s : DualPi2QueueDisc α) :
    Option QueueDiscItem × DualPi2QueueDisc α :=
  match s.classicStagingQueue with
  | [] => (none, s)
  | qdItem :: rest => (some qdItem, { s with classicStagingQueue := rest })

/-- The `while (GetQueueSize () > 0)` loop of `DoDequeue`, for at most `fuel` iterations.
An iteration that goes round again has emptied the queue it served by AQM drops, so
`GetNPackets` bounds the iterations (`doDequeueLoop_enough_fuel`); with no fuel left the loop
ends as at its exit. -/
def doDequeueLoop (cfg : Config α) (now : Int) :
    Nat → DualPi2QueueDisc α → Except String (Option QueueDiscItem × DualPi2QueueDisc α)
  | 0, s => .ok (none, s)
  | fuel + 1, s =>
    if getQueueSize s > 0 then
      match scheduler cfg s (true, true) with
      | .error message => .error message
      | .ok (.l4s, s) =>
        match dequeueFromL4sQueue cfg now s with
        | .error message => .error message
        | .ok (some qdItem, _, s) => .ok (some qdItem, s)
        | .ok (none, _, s) => doDequeueLoop cfg now fuel s
      | .ok (.classic, s) =>
        match dequeueFromClassicQueue cfg s with
        | (some qdItem, _, s) => .ok (some qdItem, s)
        | (none, _, s) => doDequeueLoop cfg now fuel s
      | .ok (.none, s) => .ok (none, s)
    else .ok (none, s)

/-- `DoDequeue`: the L4S staging queue first, then the Classic one, then the scheduling
loop over the internal queues. The sojourn traces are not modelled. -/
def doDequeue (cfg : Config α) (now : Int) (s : DualPi2QueueDisc α) :
    Except String (Option QueueDiscItem × DualPi2QueueDisc α) :=
  match dequeueFromL4sStagingQueue s with
  | (some qdItem, s) => .ok (some qdItem, s)
  | (none, s) =>
    match dequeueFromClassicStagingQueue s with
    | (some qdItem, s) => .ok (some qdItem, s)
    | (none, s) => doDequeueLoop cfg now (getNPackets s + 1) s

/-- With nothing staged, `DoDequeue` is its scheduling loop. -/
theorem doDequeue_of_unstaged {cfg : Config α} {now : Int} {s : DualPi2QueueDisc α}
    (stagedL : s.l4sStagingQueue = []) (stagedC : s.classicStagingQueue = []) :
    doDequeue cfg now s = doDequeueLoop cfg now (getNPackets s + 1) s := by
  simp [doDequeue, dequeueFromL4sStagingQueue, dequeueFromClassicStagingQueue, stagedL, stagedC]

/-- `DoPeek`: the head of the first internal queue that has one, in index order, Classic
(queue 0) before L4S (queue 1). -/
def doPeek (s : DualPi2QueueDisc α) : Option QueueDiscItem :=
  [s.classicQueue, s.l4sQueue].findSome? List.head?

omit [LinearOrderedField α] in
@[simp] theorem addToL4sStagingQueue_l4sStagingQueue (s : DualPi2QueueDisc α)
    (qdItem : QueueDiscItem) :
    (addToL4sStagingQueue s qdItem).l4sStagingQueue = s.l4sStagingQueue ++ [qdItem] := rfl

omit [LinearOrderedField α] in
@[simp] theorem addToClassicStagingQueue_classicStagingQueue (s : DualPi2QueueDisc α)
    (qdItem : QueueDiscItem) :
    (addToClassicStagingQueue s qdItem).classicStagingQueue =
      s.classicStagingQueue ++ [qdItem] := rfl

/-- What `DoEnqueue` can do: refuse the item, recording it as a forced or an internal drop,
or append it to the tail of the internal queue `IsL4s` selects. -/
theorem doEnqueue_cases {cfg : Config α} {s s' : DualPi2QueueDisc α} {item : QueueDiscItem}
    {accepted : Bool} (run : doEnqueue cfg s item = (accepted, s')) :
    (accepted = false ∧ ∃ reason, s' = s.drop reason item ∧
        (reason = .forcedDrop ∨ reason = .internalQueueDrop)) ∨
      (accepted = true ∧ isL4s item = true ∧
        s' = { s with l4sQueue := s.l4sQueue ++ [item] }) ∨
      (accepted = true ∧ isL4s item = false ∧
        s' = { s with classicQueue := s.classicQueue ++ [item] }) := by
  unfold doEnqueue internalEnqueue at run
  split_ifs at run with forced l4s fits fits' <;> simp only [Prod.mk.injEq] at run <;>
    obtain ⟨rfl, rfl⟩ := run
  · exact .inl ⟨rfl, _, rfl, .inl rfl⟩
  · exact .inr (.inl ⟨rfl, l4s, rfl⟩)
  · exact .inl ⟨rfl, _, rfl, .inr rfl⟩
  · exact .inr (.inr ⟨rfl, by simpa using l4s, rfl⟩)
  · exact .inl ⟨rfl, _, rfl, .inr rfl⟩

end DualPi2

import DualPi2.Operations

namespace DualPi2

variable {α : Type} [LinearOrderedField α]

/-- The sojourn time of a queue's head, `Seconds (0)` for an empty queue. -/
def headSojourn (now : Int) : List QueueDiscItem → Int
  | [] => 0
  | item :: _ => now - item.timeStamp

/-- The samples `PendingDequeueCallback` takes first, for the Wi-Fi Classic latency
estimator. -/
def refreshSamples (now : Int) (s : DualPi2QueueDisc α) : DualPi2QueueDisc α :=
  { s with
    cLatencySample := headSojourn now s.classicQueue
    lLatencySample := headSojourn now s.l4sQueue
    cBytesSample := getNBytes s.classicQueue }

/-- A Wi-Fi framed size, `GetSize () + 38` in `uint32_t`. -/
def wifiSize (qdItem : QueueDiscItem) : Nat := (qdItem.size + 38) % uint32Size

/-- The batch loop of `PendingDequeueCallback`, with the iterations left before `i` reaches
`maxIterations = 1000`, the unspent `pendingBytesLeft` and `markedCount`. Each staged item
must fit the budget left, and is charged its framed size. -/
def pendingDequeueLoop (cfg : Config α) (now : Int) :
    Nat → Nat → Nat → DualPi2QueueDisc α → Except String (Nat × DualPi2QueueDisc α)
  | 0, _, _, _ => .error "Error: infinite loop"
  | n + 1, pendingBytesLeft, markedCount, s =>
    let eligible := canSchedule s pendingBytesLeft
    if !eligible.1 && !eligible.2 then .ok (markedCount, s)
    else
      match scheduler cfg s eligible with
      | .error message => .error message
      | .ok (.l4s, s) =>
        match dequeueFromL4sQueue cfg now s with
        | .error message => .error message
        | .ok (none, _, s) => pendingDequeueLoop cfg now n pendingBytesLeft markedCount s
        | .ok (some qdItem, marked, s) =>
          if wifiSize qdItem ≤ pendingBytesLeft then
            pendingDequeueLoop cfg now n (pendingBytesLeft - wifiSize qdItem)
              (if marked then markedCount + 1 else markedCount) (addToL4sStagingQueue s qdItem)
          else .error "Error, insufficient pending bytes"
      | .ok (.classic, s) =>
        match dequeueFromClassicQueue cfg s with
        | (none, _, s) => pendingDequeueLoop cfg now n pendingBytesLeft markedCount s
        | (some qdItem, _, s) =>
          if wifiSize qdItem ≤ pendingBytesLeft then
            pendingDequeueLoop cfg now n (pendingBytesLeft - wifiSize qdItem) markedCount
              (addToClassicStagingQueue s qdItem)
          else .error "Error, insufficient pending bytes"
      | .ok (.none, s) => .ok (markedCount, s)

/-- An ECT(1) item, `(tosByte & 0x3) == 1` in a readable DS field. -/
def isEct1 (item : QueueDiscItem) : Bool :=
  match item.dsField with
  | some ecn => ecn.bits == 1
  | none => false

/-- The top-up of `PendingDequeueCallback`: walk the L4S staging queue in FIFO order and
`Mark` ECT(1) items until `pendingMarks` of them are marked. -/
def markPending : Nat → List QueueDiscItem → List QueueDiscItem
  | 0, items => items
  | _ + 1, [] => []
  | pendingMarks + 1, item :: rest =>
    if isEct1 item then item.mark.2 :: markPending pendingMarks rest
    else item :: markPending (pendingMarks + 1) rest

/-- `PendingDequeueCallback (pendingBytes)`, with `stopped` true when the device has a
queue interface whose transmission queue is stopped. Past its checks it stages a batch of at
most `pendingBytes` framed bytes, asserts that marks came with a positive coupled
probability, and tops the marks in the L4S staging queue up to the L4S queue's length. -/
def pendingDequeueCallback (cfg : Config α) (now : Int) (stopped : Bool) (pendingBytes : Nat)
    (s : DualPi2QueueDisc α) : Except String (DualPi2QueueDisc α) :=
  let s := refreshSamples now s
  if !stopped then .ok s
  else if pendingBytes > (getQueueSize s + 38 * getNPackets s) % uint32Size then .ok s
  else
    match pendingDequeueLoop cfg now 1000 pendingBytes 0 s with
    | .error message => .error message
    | .ok (markedCount, s) =>
      if markedCount ≠ 0 ∧ ¬ s.pCL > 0 then
        .error "There should not be any marks if coupling probability is zero"
      else if s.l4sQueue.length > markedCount then
        .ok { s with
          l4sStagingQueue := markPending (s.l4sQueue.length - markedCount) s.l4sStagingQueue }
      else .ok s

end DualPi2

import DualPi2.Pending

namespace DualPi2

/-- What the queue disc's users have seen: every item passed to `DoEnqueue`, the ones it
accepted and the ones `DoDequeue` returned, oldest first. -/
structure History where
  enqueued : List QueueDiscItem
  accepted : List QueueDiscItem
  returned : List QueueDiscItem
  deriving DecidableEq, Repr

/-- The history before the first operation. -/
def History.empty : History := ⟨[], [], []⟩

/-- `DoEnqueue` was called on `item` and returned `accepted`. -/
def History.recordEnqueue (h : History) (item : QueueDiscItem) (accepted : Bool) : History :=
  { h with
    enqueued := h.enqueued ++ [item]
    accepted := if accepted then h.accepted ++ [item] else h.accepted }

/-- `DoDequeue` returned `item`, possibly `nullptr`. -/
def History.recordReturn (h : History) (item : Option QueueDiscItem) : History :=
  { h with returned := h.returned ++ item.toList }

@[simp] theorem recordEnqueue_enqueued (h : History) (item : QueueDiscItem) (accepted : Bool) :
    (h.recordEnqueue item accepted).enqueued = h.enqueued ++ [item] := rfl

@[simp] theorem recordEnqueue_returned (h : History) (item : QueueDiscItem) (accepted : Bool) :
    (h.recordEnqueue item accepted).returned = h.returned := rfl

@[simp] theorem recordReturn_enqueued (h : History) (item : Option QueueDiscItem) :
    (h.recordReturn item).enqueued = h.enqueued := rfl

@[simp] theorem recordReturn_accepted (h : History) (item : Option QueueDiscItem) :
    (h.recordReturn item).accepted = h.accepted := rfl

@[simp] theorem recordReturn_returned (h : History) (item : Option QueueDiscItem) :
    (h.recordReturn item).returned = h.returned ++ item.toList := rfl

/-- The calls the simulator makes on the queue disc: enqueues, dequeues, pending-dequeue
reports from the Wi-Fi device and the periodic `DualPi2Update`, each at a time `now`. -/
inductive Op
  | enqueue (item : QueueDiscItem)
  | dequeue (now : Int)
  | pendingDequeue (now : Int) (stopped : Bool) (pendingBytes : Nat)
  | update (now : Int)
  deriving DecidableEq, Repr

variable {α : Type} [LinearOrderedField α]

/-- One call, with its effect on the history; an assertion or abort ends the run. -/
def step (cfg : Config α) : DualPi2QueueDisc α × History → Op →
    Except String (DualPi2QueueDisc α × History)
  | (s, h), .enqueue item =>
    match doEnqueue cfg s item with
    | (accepted, s) => .ok (s, h.recordEnqueue item accepted)
  | (s, h), .dequeue now =>
    match doDequeue cfg now s with
    | .ok (item, s) => .ok (s, h.recordReturn item)
    | .error message => .error message
  | (s, h), .pendingDequeue now stopped pendingBytes =>
    match pendingDequeueCallback cfg now stopped pendingBytes s with
    | .ok s => .ok (s, h)
    | .error message => .error message
  | (s, h), .update now =>
    match dualPi2Update cfg now s with
    | .ok s => .ok (s, h)
    | .error message => .error message

/-- The states a run of calls reaches from the initial state. -/
inductive Reachable (cfg : Config α) : DualPi2QueueDisc α → History → Prop
  | start : Reachable cfg initialState History.empty
  | next {s h op s' h'} : Reachable cfg s h → step cfg (s, h) op = .ok (s', h') →
      Reachable cfg s' h'

/-- A run of calls from a given state, stopping at the first failure. -/
def run (cfg : Config α) : DualPi2QueueDisc α × History → List Op →
    Except String (DualPi2QueueDisc α × History)
  | sys, [] => .ok sys
  | sys, op :: ops =>
    match step cfg sys op with
    | .ok sys => run cfg sys ops
    | .error message => .error message

theorem run_reachable {cfg : Config α} :
    ∀ {ops : List Op} {s s' : DualPi2QueueDisc α} {h h' : History},
      Reachable cfg s h → run cfg (s, h) ops = .ok (s', h') → Reachable cfg s' h'
  | [], _, _, _, _, reach, done => by cases done; exact reach
  | op :: ops, s, s', h, h', reach, done => by
    unfold run at done
    split at done
    · rename_i next stepped
      exact run_reachable (reach.next stepped) done
    · cases done

end DualPi2

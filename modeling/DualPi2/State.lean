import DualPi2.Basic

namespace DualPi2

/-- The attributes of the queue disc as `InitializeParams` leaves them. Times are `Time`
values in nanoseconds, `double` attributes are exact numbers of `α`, and `uint32_t`
attributes are natural numbers below `2^32`. `InitializeParams` aborts on an MTU below
68, and the `SchedulingWeight` checker refuses weights below 1. -/
structure Config (α : Type) [LinearOrderedField α] where
  mtu : Nat
  alpha : α
  beta : α
  queueLimit : Nat
  target : Int
  minTh : Int
  range : Int
  k : α
  schedulingWeight : α
  drrQuantum : Nat
  disableLaqm : Bool
  enableWifiClassicLatencyEstimator : Bool
  aggBufferLimit : Nat
  mtu_ge : 68 ≤ mtu
  mtu_lt : mtu < uint32Size
  queueLimit_lt : queueLimit < uint32Size
  schedulingWeight_ge : 1 ≤ schedulingWeight
  drrQuantum_lt : drrQuantum < uint32Size

namespace Config

variable {α : Type} [LinearOrderedField α]

/-- `m_thLen`: LAQM is applied only while more than one packet stays queued. -/
def thLen (_ : Config α) : Nat := 1

/-- `m_pLmax`. -/
def pLmax (_ : Config α) : α := 1

/-- `m_pCmax = min (1 / (k * k), 1)`; a zero `k` divides by zero into `+inf` in the
source's doubles, and the minimum is then 1. -/
def pCmax (cfg : Config α) : α :=
  if cfg.k = 0 then 1 else min (1 / (cfg.k * cfg.k)) 1

end Config

/-- The attribute defaults, on a device with an MTU of 1500 bytes. -/
def defaultConfig : Config ℚ where
  mtu := 1500
  alpha := 0.15
  beta := 3
  queueLimit := 1562500
  target := 15000000
  minTh := 800000
  range := 400000
  k := 2
  schedulingWeight := 9
  drrQuantum := 1500
  disableLaqm := false
  enableWifiClassicLatencyEstimator := false
  aggBufferLimit := 0
  mtu_ge := by decide
  mtu_lt := by decide
  queueLimit_lt := by decide
  schedulingWeight_ge := by norm_num
  drrQuantum_lt := by decide

/-- `std::bitset<2> m_drrQueues`: the queues still in the current WDRR round. -/
structure RoundMask where
  classic : Bool
  l4s : Bool
  deriving DecidableEq, Repr

/-- `m_drrQueues.none ()`. -/
def RoundMask.none (mask : RoundMask) : Bool := !mask.classic && !mask.l4s

/-- The reasons the discipline passes to `DropBeforeEnqueue` and `DropAfterDequeue`;
`internalQueueDrop` is the one the base class reports for a drop by an internal queue. -/
inductive DropReason
  | forcedDrop
  | internalQueueDrop
  | unforcedClassicDrop
  | unforcedL4sDrop
  deriving DecidableEq, Repr

/-- The state of a `DualPi2QueueDisc`: its two internal queues and two staging queues,
the drops the base class has recorded (oldest first), and the members the algorithm reads
and writes. -/
structure DualPi2QueueDisc (α : Type) where
  classicQueue : List QueueDiscItem
  l4sQueue : List QueueDiscItem
  classicStagingQueue : List QueueDiscItem
  l4sStagingQueue : List QueueDiscItem
  dropped : List (DropReason × QueueDiscItem)
  baseProb : α
  prevQ : Int
  pCL : α
  pC : α
  pL : α
  classicCount : α
  l4sCount : α
  drrQueues : RoundMask
  llDeficit : α
  classicDeficit : α
  cLatencySample : Int
  lLatencySample : Int
  cBytesSample : Nat
  deriving DecidableEq, Repr

variable {α : Type}

/-- Modelled from the spec: the member initialisers of the header are not in src/. The
queues start empty, and every probability, counter, deficit and sample starts at zero
with no queue in the round, as `InitializeParams` and the spec's lifecycle have it. -/
def initialState [LinearOrderedField α] : DualPi2QueueDisc α where
  classicQueue := []
  l4sQueue := []
  classicStagingQueue := []
  l4sStagingQueue := []
  dropped := []
  baseProb := 0
  prevQ := 0
  pCL := 0
  pC := 0
  pL := 0
  classicCount := 0
  l4sCount := 0
  drrQueues := ⟨false, false⟩
  llDeficit := 0
  classicDeficit := 0
  cLatencySample := 0
  lLatencySample := 0
  cBytesSample := 0

/-- `GetNBytes ()` of an internal queue, a `uint32_t` counter. -/
def getNBytes (queue : List QueueDiscItem) : Nat := bytes queue % uint32Size

/-- `GetQueueSize ()`, the `uint32_t` sum of the two internal counters; it is also the
value of the queue disc's own `GetNBytes ()`. -/
def getQueueSize (s : DualPi2QueueDisc α) : Nat :=
  (getNBytes s.classicQueue + getNBytes s.l4sQueue) % uint32Size

/-- `GetNPackets ()` of the queue disc: staged items have left the internal queues. -/
def getNPackets (s : DualPi2QueueDisc α) : Nat :=
  s.classicQueue.length + s.l4sQueue.length

/-- `DropBeforeEnqueue` and `DropAfterDequeue` record the item with its reason. -/
def DualPi2QueueDisc.drop (s : DualPi2QueueDisc α) (reason : DropReason)
    (item : QueueDiscItem) : DualPi2QueueDisc α :=
  { s with dropped := s.dropped ++ [(reason, item)] }

/-- The items dropped with a given reason, oldest first. -/
def DualPi2QueueDisc.droppedWith (s : DualPi2QueueDisc α) (reason : DropReason) :
    List QueueDiscItem :=
  (s.dropped.filter (·.1 == reason)).map (·.2)

/-- While the two internal queues hold fewer than `2^32` bytes, no `uint32_t` counter
wraps and `GetQueueSize` is the exact byte count. -/
theorem getQueueSize_eq_bytes {s : DualPi2QueueDisc α}
    (small : bytes s.classicQueue + bytes s.l4sQueue < uint32Size) :
    getQueueSize s = bytes s.classicQueue + bytes s.l4sQueue := by
  unfold getQueueSize getNBytes
  rw [Nat.mod_eq_of_lt (by omega : bytes s.classicQueue < uint32Size),
    Nat.mod_eq_of_lt (by omega : bytes s.l4sQueue < uint32Size), Nat.mod_eq_of_lt small]

end DualPi2

import DualPi2.Basic
import DualPi2.State
import DualPi2.Probability
import DualPi2.Aqm
import DualPi2.Scheduler
import DualPi2.Operations
import DualPi2.Pending
import DualPi2.Run
import DualPi2.Micro
import DualPi2.Capacity
import DualPi2.Conservation
import DualPi2.Marking
import DualPi2.ProbabilityBounds
import DualPi2.Recur
import DualPi2.Drr
import DualPi2.Progress
import DualPi2.Fairness
import DualPi2.Batch
import DualPi2.Coupling
import DualPi2.Peek
import DualPi2.Wdrr
import DualPi2.Drain
import DualPi2.Separation
import DualPi2.Controller
import DualPi2.MarkingRate

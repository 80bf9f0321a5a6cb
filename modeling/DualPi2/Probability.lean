import DualPi2.State

namespace DualPi2

variable {α : Type} [LinearOrderedField α]

/-- `Time::GetSeconds ()` of a time in nanoseconds. -/
def getSeconds (t : Int) : α := (t : α) / 1000000000

/-- `Laqm`: the native L4S marking ramp over the queue delay. -/
def laqm (cfg : Config α) (qDelay : Int) : α :=
  if cfg.disableLaqm then 0
  else if qDelay ≥ cfg.minTh + cfg.range then 1
  else if qDelay > cfg.minTh then getSeconds (qDelay - cfg.minTh) / getSeconds cfg.range
  else 0

/-- `Recur`: add the likelihood to the counter, and once it passes 1 take 1 off and fire.
Returns whether it fired and the new counter. -/
def recur (count likelihood : α) : Bool × α :=
  if count + likelihood > 1 then (true, count + likelihood - 1) else (false, count + likelihood)

/-- The Classic delay `cQ` of `DualPi2Update`: the Wi-Fi estimate
`min (max (cSample, lSample), cBytes * target / aggBufferLimit)` when it is enabled,
else the sojourn time of the Classic head. -/
def classicQueueDelay (cfg : Config α) (now : Int) (s : DualPi2QueueDisc α) :
    Except String Int :=
  if cfg.enableWifiClassicLatencyEstimator then
    if cfg.aggBufferLimit = 0 then .error "Configuration error: aggregation buffer limit is not set"
    else .ok (min (max s.cLatencySample s.lLatencySample)
      (((s.cBytesSample : Int) * cfg.target).tdiv cfg.aggBufferLimit))
  else
    .ok (match s.classicQueue with
      | [] => 0
      | item :: _ => now - item.timeStamp)

/-- The sojourn time of the L4S head, `0` for an empty queue. -/
def l4sQueueDelay (now : Int) (s : DualPi2QueueDisc α) : Int :=
  match s.l4sQueue with
  | [] => 0
  | item :: _ => now - item.timeStamp

/-- `DualPi2Update`: the PI² step on `base_prob`, clamped to `[0, 1]`, and the derived
`p_CL` and `p_C`. Rescheduling the timer is left to the run. -/
def dualPi2Update (cfg : Config α) (now : Int) (s : DualPi2QueueDisc α) :
    Except String (DualPi2QueueDisc α) := do
  let cQ ← classicQueueDelay cfg now s
  let curQ := max cQ (l4sQueueDelay now s)
  let baseProb := s.baseProb + cfg.alpha * getSeconds (curQ - cfg.target) +
    cfg.beta * getSeconds (curQ - s.prevQ)
  let baseProb := min (max baseProb 0) 1
  pure { s with
    baseProb := baseProb
    pCL := min (baseProb * cfg.k) 1
    pC := baseProb * baseProb
    prevQ := curQ }

theorem getSeconds_nonneg {t : Int} (nonneg : 0 ≤ t) : (0 : α) ≤ getSeconds t :=
  div_nonneg (Int.cast_nonneg.mpr nonneg) (by norm_num)

theorem getSeconds_le {s t : Int} (le : s ≤ t) : (getSeconds s : α) ≤ getSeconds t :=
  div_le_div_of_nonneg_right (Int.cast_le.mpr le) (by norm_num)

theorem laqm_nonneg (cfg : Config α) (qDelay : Int) : 0 ≤ laqm cfg qDelay := by
  unfold laqm
  split_ifs with _ _ above
  · exact le_rfl
  · exact zero_le_one
  · exact div_nonneg (getSeconds_nonneg (by omega)) (getSeconds_nonneg (by omega))
  · exact le_rfl

theorem laqm_le_one (cfg : Config α) (qDelay : Int) : laqm cfg qDelay ≤ 1 := by
  unfold laqm
  split_ifs with _ below above
  · exact zero_le_one
  · exact le_rfl
  · have positive : (0 : α) < getSeconds cfg.range :=
      div_pos (Int.cast_pos.mpr (by omega)) (by norm_num)
    exact (div_le_one positive).mpr (getSeconds_le (by omega))
  · exact zero_le_one

/-- What an update writes: the clamped `base_prob`, `p_CL = min (base_prob * k, 1)`,
`p_C = base_prob²` and the new `prevQ`; nothing else changes. -/
theorem dualPi2Update_spec {cfg : Config α} {now : Int} {s s' : DualPi2QueueDisc α}
    (run : dualPi2Update cfg now s = .ok s') :
    ∃ raw curQ, s' = { s with
      baseProb := min (max raw 0) 1
      pCL := min (min (max raw 0) 1 * cfg.k) 1
      pC := min (max raw 0) 1 * min (max raw 0) 1
      prevQ := curQ } := by
  unfold dualPi2Update at run
  cases delay : classicQueueDelay cfg now s with
  | error message => rw [delay] at run; cases run
  | ok cQ =>
    rw [delay] at run
    exact ⟨_, _, (Except.ok.inj run).symm⟩

/-- An update fails only on the Wi-Fi estimator's configuration check. -/
theorem classicQueueDelay_error {cfg : Config α} {now : Int} {s : DualPi2QueueDisc α}
    {message : String} (delay : classicQueueDelay cfg now s = .error message) :
    message = "Configuration error: aggregation buffer limit is not set" := by
  unfold classicQueueDelay at delay
  split_ifs at delay
  exact (Except.error.inj delay).symm

end DualPi2

import DualPi2.Fairness

namespace DualPi2

variable {α : Type} [LinearOrderedField α]

/-- What `DualPi2Update` keeps from one call to the next: `m_baseProb` and `m_prevQ`. -/
def DualPi2QueueDisc.controller (s : DualPi2QueueDisc α) : α × Int := (s.baseProb, s.prevQ)

/-- The delay `curQ = max (cQ, lQ)` that `DualPi2Update` measures. -/
def curQ (cfg : Config α) (now : Int) (s : DualPi2QueueDisc α) : Except String Int := do
  let cQ ← classicQueueDelay cfg now s
  pure (max cQ (l4sQueueDelay now s))

/-- One step of the PI² controller on `(base_prob, prevQ)` for a measured delay `q`, with
`base_prob` clamped to `[0, 1]`. -/
def piStep (cfg : Config α) (c : α × Int) (q : Int) : α × Int :=
  (min (max (c.1 + cfg.alpha * getSeconds (q - cfg.target) +
    cfg.beta * getSeconds (q - c.2)) 0) 1, q)

/-- The PI law without clamping, from `(p₀, q₀)` over the delays `q₁ … qₙ`:
`p₀ + α Σ (qᵢ - target) + β (qₙ - q₀)`, in seconds. -/
def piLaw (cfg : Config α) (c : α × Int) (qs : List Int) : α :=
  c.1 + cfg.alpha * (qs.map fun q => getSeconds (q - cfg.target)).sum +
    cfg.beta * getSeconds (qs.getLastD c.2 - c.2)

/-- The delays an action measures: `curQ` for an update, none for any other call. -/
def Action.delays (cfg : Config α) (s : DualPi2QueueDisc α) : Action → List Int
  | .update now => (curQ cfg now s).toOption.toList
  | _ => []

/-- The delays that the updates of a run of primitive calls measure, in order. -/
def updateDelays (cfg : Config α) : DualPi2QueueDisc α × History → List Action → List Int
  | _, [] => []
  | sys, a :: acts =>
    match microStep cfg sys a with
    | some next => a.delays cfg sys.1 ++ updateDelays cfg next acts
    | none => []

section Frame

variable {cfg : Config α}

theorem scheduler_controller {s s' : DualPi2QueueDisc α} {eligible : Bool × Bool}
    {r : QueueIndex} (sched : scheduler cfg s eligible = .ok (r, s')) :
    s'.controller = s.controller := by
  rw [(scheduler_spec sched).1]
  rfl

theorem dequeueFromL4sQueue_controller {now : Int} {s s' : DualPi2QueueDisc α}
    {r : Option QueueDiscItem} {marked : Bool}
    (run : dequeueFromL4sQueue cfg now s = .ok (r, marked, s')) :
    s'.controller = s.controller := by
  obtain ⟨ds, rest, taken, count, pL, rfl, -⟩ := dequeueFromL4sLoop_spec run
  rfl

theorem dequeueFromClassicQueue_controller {s s' : DualPi2QueueDisc α}
    {r : Option QueueDiscItem} {dropped : Bool}
    (run : dequeueFromClassicQueue cfg s = (r, dropped, s')) :
    s'.controller = s.controller := by
  obtain ⟨ds, rest, count, rfl, -⟩ := dequeueFromClassicQueue_spec run
  rfl

/-- An update is one PI² step on the delay it measures. -/
theorem dualPi2Update_controller {now : Int} {s s' : DualPi2QueueDisc α}
    (run : dualPi2Update cfg now s = .ok s') :
    ∃ q, curQ cfg now s = .ok q ∧ s'.controller = piStep cfg s.controller q := by
  unfold dualPi2Update at run
  cases delay : classicQueueDelay cfg now s with
  | error message => rw [delay] at run; cases run
  | ok cQ =>
    rw [delay] at run
    cases run
    exact ⟨_, by simp only [curQ, delay]; rfl, rfl⟩

/-- A primitive call moves the controller state by the PI² steps of the delays it measures:
one for an update, none for any other call. -/
theorem microStep_controller {sys sys' : DualPi2QueueDisc α × History} {a : Action}
    (step : microStep cfg sys a = some sys') :
    sys'.1.controller = (a.delays cfg sys.1).foldl (piStep cfg) sys.1.controller := by
  obtain ⟨s, h⟩ := sys
  cases a with
  | enqueue item =>
    cases step
    generalize run : doEnqueue cfg s item = result
    obtain ⟨accepted, s'⟩ := result
    rcases doEnqueue_cases run with ⟨-, _, rfl, -⟩ | ⟨-, -, rfl⟩ | ⟨-, -, rfl⟩ <;> rfl
  | update now =>
    simp only [microStep] at step
    split at step <;> cases step
    rename_i s' updated
    obtain ⟨q, measured, stepped⟩ := dualPi2Update_controller updated
    simp only [Action.delays, measured, Except.toOption, Option.toList, List.foldl, stepped]
  | schedule eligible =>
    simp only [microStep] at step
    split at step <;> cases step
    exact scheduler_controller ‹_›
  | dequeueL4s now staged =>
    simp only [microStep] at step
    split at step <;> rename_i deq
    · cases step; exact dequeueFromL4sQueue_controller deq
    · have kept := dequeueFromL4sQueue_controller deq
      split at step
      · cases step; exact kept
      · split at step <;> cases step
        exact kept
    · cases step
  | dequeueClassic staged =>
    simp only [microStep] at step
    split at step <;> rename_i deq
    · cases step; exact dequeueFromClassicQueue_controller deq
    · have kept := dequeueFromClassicQueue_controller deq
      split at step
      · cases step; exact kept
      · split at step <;> cases step
        exact kept
  | popL4sStaging =>
    simp only [microStep] at step
    split at step <;> cases step
    rename_i staged
    unfold dequeueFromL4sStagingQueue at staged
    split at staged <;> cases staged
    rfl
  | popClassicStaging =>
    simp only [microStep] at step
    split at step <;> cases step
    rename_i staged
    unfold dequeueFromClassicStagingQueue at staged
    split at staged <;> cases staged
    rfl
  | refreshSamples now => cases step; rfl
  | topUp pendingMarks => cases step; rfl

/-- Over a run of primitive calls the controller state is the PI² controller fed with the
delays the run's updates measure. -/
theorem microExec_controller :
    ∀ {acts : List Action} {sys sys' : DualPi2QueueDisc α × History},
      microExec cfg sys acts = some sys' →
      sys'.1.controller = (updateDelays cfg sys acts).foldl (piStep cfg) sys.1.controller
  | [], _, _, done => by cases done; rfl
  | a :: acts, sys, sys', done => by
    simp only [microExec] at done
    split at done
    · rename_i mid first
      simp only [updateDelays, first, List.foldl_append]
      rw [microExec_controller done, microStep_controller first]
    · cases done

end Frame

section Law

variable {cfg : Config α}

theorem getSeconds_sub_add_sub (a b c : Int) :
    (getSeconds (a - b) : α) + getSeconds (b - c) = getSeconds (a - c) := by
  simp only [getSeconds, Int.cast_sub, ← add_div]
  ring

@[simp] theorem piLaw_nil (c : α × Int) : piLaw cfg c [] = c.1 := by
  simp [piLaw, getSeconds]

/-- The law over `q :: qs` is the law over `qs` from where one unclamped step on `q` leaves
the controller: the proportional terms telescope. -/
theorem piLaw_cons (c : α × Int) (q : Int) (qs : List Int) :
    piLaw cfg c (q :: qs) = piLaw cfg (piLaw cfg c [q], q) qs := by
  have telescope := getSeconds_sub_add_sub (α := α) (qs.getLastD q) q c.2
  simp only [piLaw, List.map_cons, List.sum_cons, List.getLastD_cons, List.map_nil,
    List.sum_nil, List.getLastD_nil, ← telescope]
  ring

/-- While the PI law stays in `[0, 1]` after every update, no clamp fires and the PI²
controller follows it. -/
theorem foldl_piStep_of_within :
    ∀ (qs : List Int) (c : α × Int),
      (∀ j, 0 < j → j ≤ qs.length → 0 ≤ piLaw cfg c (qs.take j) ∧ piLaw cfg c (qs.take j) ≤ 1) →
      qs.foldl (piStep cfg) c = (piLaw cfg c qs, qs.getLastD c.2)
  | [], c, _ => by simp
  | q :: qs, c, within => by
    have first := within 1 Nat.one_pos (by simp)
    have step : piStep cfg c q = (piLaw cfg c [q], q) := by
      simp only [List.take_succ_cons, List.take_zero] at first
      simp only [piStep, piLaw, List.map_cons, List.map_nil, List.sum_cons, List.sum_nil,
        add_zero, List.getLastD_cons, List.getLastD_nil] at first ⊢
      rw [max_eq_left first.1, min_eq_left first.2]
    have rest := foldl_piStep_of_within qs (piLaw cfg c [q], q) fun j pos bound => by
      have later := within (j + 1) (Nat.succ_pos j) (by simp; omega)
      rwa [List.take_succ_cons, piLaw_cons] at later
    rw [List.foldl_cons, step, rest, ← piLaw_cons, List.getLastD_cons]

end Law

/-- Over any run of primitive calls from any state (enqueues, `Scheduler` calls, the AQM
dequeues of ordinary and pending dequeues, staging pops, sample refreshes, mark top-ups and
updates, in any order) only the updates move `base_prob` and `prevQ`, each by one PI² step on
the delay `curQ` it measures. So while the PI law stays in `[0, 1]` after every update of the
run, `base_prob` ends at `p₀ + α Σ (qᵢ - target) + β (qₙ - q₀)`, in seconds, over the delays
`q₁ … qₙ` the updates measured, and `prevQ` at the last of them. -/
theorem primitive_runs_follow_pi_law {cfg : Config α} {sys sys' : DualPi2QueueDisc α × History}
    {acts : List Action} (exec : microExec cfg sys acts = some sys') :
    sys'.1.controller = (updateDelays cfg sys acts).foldl (piStep cfg) sys.1.controller ∧
      ((∀ j, 0 < j → j ≤ (updateDelays cfg sys acts).length →
          0 ≤ piLaw cfg sys.1.controller ((updateDelays cfg sys acts).take j) ∧
          piLaw cfg sys.1.controller ((updateDelays cfg sys acts).take j) ≤ 1) →
        sys'.1.baseProb = piLaw cfg sys.1.controller (updateDelays cfg sys acts) ∧
        sys'.1.prevQ = (updateDelays cfg sys acts).getLastD sys.1.prevQ) := by
  have run := microExec_controller exec
  refine ⟨run, fun within => ?_⟩
  rw [foldl_piStep_of_within _ _ within] at run
  exact Prod.mk.inj run

/-- From `l4sPacket` and `smallClassicPacket` queued at time 0, a `Scheduler` call and then an
update at 20 ms, which measures a 20 ms delay: the PI law gives `0.15 · 0.005 + 3 · 0.02 =
0.06075`, within `[0, 1]`, and the controller ends there. -/
theorem primitive_runs_follow_pi_law_two_packets :
    ∃ sys', microExec defaultConfig (twoPacketState, twoPacketHistory)
        [.schedule (true, true), .update 20000000] = some sys' ∧
      updateDelays defaultConfig (twoPacketState, twoPacketHistory)
        [.schedule (true, true), .update 20000000] = [20000000] ∧
      (∀ j, 0 < j → j ≤ (updateDelays defaultConfig (twoPacketState, twoPacketHistory)
            [.schedule (true, true), .update 20000000]).length →
          0 ≤ piLaw defaultConfig twoPacketState.controller
            ((updateDelays defaultConfig (twoPacketState, twoPacketHistory)
              [.schedule (true, true), .update 20000000]).take j) ∧
          piLaw defaultConfig twoPacketState.controller
            ((updateDelays defaultConfig (twoPacketState, twoPacketHistory)
              [.schedule (true, true), .update 20000000]).take j) ≤ 1) ∧
      sys'.1.controller = (updateDelays defaultConfig (twoPacketState, twoPacketHistory)
          [.schedule (true, true), .update 20000000]).foldl (piStep defaultConfig)
          twoPacketState.controller ∧
      sys'.1.baseProb = piLaw defaultConfig twoPacketState.controller
        (updateDelays defaultConfig (twoPacketState, twoPacketHistory)
          [.schedule (true, true), .update 20000000]) ∧
      sys'.1.prevQ = (updateDelays defaultConfig (twoPacketState, twoPacketHistory)
        [.schedule (true, true), .update 20000000]).getLastD twoPacketState.prevQ ∧
      sys'.1.baseProb = 243 / 4000 := by
  obtain ⟨s2, updated⟩ : ∃ s2, dualPi2Update defaultConfig 20000000 { twoPacketState with
      drrQueues := ⟨true, true⟩
      llDeficit := 12500
      classicDeficit := 1500 } = .ok s2 := ⟨_, rfl⟩
  have exec : microExec defaultConfig (twoPacketState, twoPacketHistory)
      [.schedule (true, true), .update 20000000] = some (s2, twoPacketHistory) := by
    simp only [microExec, microStep, twoPacketState_scheduled, updated]
  have delays : updateDelays defaultConfig (twoPacketState, twoPacketHistory)
      [.schedule (true, true), .update 20000000] = [20000000] := by
    simp only [updateDelays, microStep, twoPacketState_scheduled, updated, Action.delays]
    rfl
  have law : piLaw defaultConfig twoPacketState.controller [20000000] = 243 / 4000 := by
    norm_num [piLaw, getSeconds, DualPi2QueueDisc.controller, twoPacketState, initialState,
      defaultConfig]
  have within : ∀ j, 0 < j → j ≤ [(20000000 : Int)].length →
      0 ≤ piLaw defaultConfig twoPacketState.controller ([20000000].take j) ∧
        piLaw defaultConfig twoPacketState.controller ([20000000].take j) ≤ 1 := by
    intro j pos bound
    obtain rfl : j = 1 := by simp only [List.length_singleton] at bound; omega
    rw [List.take_one, List.head?_cons, Option.toList_some, law]
    norm_num
  rw [← delays] at within
  obtain ⟨stepped, followed⟩ := primitive_runs_follow_pi_law exec
  obtain ⟨base, prev⟩ := followed within
  exact ⟨_, exec, delays, within, stepped, base, prev, by rw [base, delays, law]⟩

end DualPi2

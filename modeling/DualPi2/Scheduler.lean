import DualPi2.Aqm

namespace DualPi2

/-- The index `Scheduler` returns: `CLASSIC`, `L4S` or `NONE`. -/
inductive QueueIndex
  | classic
  | l4s
  | none
  deriving DecidableEq, Repr

/-- A head of line's size as the Wi-Fi layer frames it, `GetSize () + 38` in `uint32_t`,
and `0` for an empty queue. -/
def holWifiSize : List QueueDiscItem → Nat
  | [] => 0
  | item :: _ => (item.size + 38) % uint32Size

variable {α : Type} [LinearOrderedField α]

/-- `CanSchedule (byteLimit)`: `(Classic, L4S)`, each true when that queue's framed head
of line is non-zero and fits the limit. -/
def canSchedule (s : DualPi2QueueDisc α) (byteLimit : Nat) : Bool × Bool :=
  if getNPackets s = 0 then (false, false)
  else
    (holWifiSize s.classicQueue != 0 && holWifiSize s.classicQueue ≤ byteLimit,
      holWifiSize s.l4sQueue != 0 && holWifiSize s.l4sQueue ≤ byteLimit)

/-- A queue leaves the current WDRR round. -/
def DualPi2QueueDisc.leaveRound (s : DualPi2QueueDisc α) : QueueIndex → DualPi2QueueDisc α
  | .classic => { s with drrQueues := { s.drrQueues with classic := false } }
  | .l4s => { s with drrQueues := { s.drrQueues with l4s := false } }
  | .none => s

/-- With no queue left in the round, a new round puts both back in it and adds
`m_drrQuantum * m_schedulingWeight` to the L4S deficit and `m_drrQuantum` to the Classic
one. -/
def startRound (cfg : Config α) (s : DualPi2QueueDisc α) : DualPi2QueueDisc α :=
  if s.drrQueues.none then
    { s with
      drrQueues := ⟨true, true⟩
      llDeficit := s.llDeficit + cfg.drrQuantum * cfg.schedulingWeight
      classicDeficit := s.classicDeficit + cfg.drrQuantum }
  else s

/-- The L4S half of a pass that did not serve L4S: an eligible head that exceeded the
deficit ends the L4S round, and an empty queue (a zero head size) ends it with a zero
deficit. -/
def skipL4s (l4sHolSize : Nat) (eligible : Bool) (s : DualPi2QueueDisc α) :
    DualPi2QueueDisc α :=
  if l4sHolSize = 0 then { s.leaveRound .l4s with llDeficit := 0 }
  else if eligible then s.leaveRound .l4s else s

/-- The Classic half of a pass that did not serve Classic, as `skipL4s`. -/
def skipClassic (classicHolSize : Nat) (eligible : Bool) (s : DualPi2QueueDisc α) :
    DualPi2QueueDisc α :=
  if classicHolSize = 0 then { s.leaveRound .classic with classicDeficit := 0 }
  else if eligible then s.leaveRound .classic else s

/-- One pass of `Scheduler`'s loop over the heads of line read at its entry: `Sum.inl` is
the queue selected with the state, `Sum.inr` the state the next pass starts from. -/
def schedulerPass (cfg : Config α) (eligible : Bool × Bool) (l4sHolSize classicHolSize : Nat)
    (s : DualPi2QueueDisc α) : (QueueIndex × DualPi2QueueDisc α) ⊕ DualPi2QueueDisc α :=
  let s := startRound cfg s
  if l4sHolSize ≠ 0 ∧ eligible.2 ∧ (l4sHolSize : α) ≤ s.llDeficit then
    .inl (.l4s, { s with llDeficit := s.llDeficit - l4sHolSize })
  else
    let s := skipL4s l4sHolSize eligible.2 s
    if classicHolSize ≠ 0 ∧ eligible.1 ∧ (classicHolSize : α) ≤ s.classicDeficit then
      .inl (.classic, { s with classicDeficit := s.classicDeficit - classicHolSize })
    else .inr (skipClassic classicHolSize eligible.1 s)

/-- The iterations the guard of `Scheduler`'s loop admits: `i` and `maxIterations` start at
0 and 1000 and both grow by one per iteration in `uint32_t`, so `i < maxIterations` first
fails when `maxIterations` wraps to 0 (`schedulerGuard_iff`). -/
def schedulerIterations : Nat := uint32Size - 1000

/-- The guarded loop of `Scheduler`, with the iterations its guard still admits. -/
def schedulerLoop (cfg : Config α) (eligible : Bool × Bool) (l4sHolSize classicHolSize : Nat) :
    Nat → DualPi2QueueDisc α → Except String (QueueIndex × DualPi2QueueDisc α)
  | 0, _ => .error "Error in DRR logic (should be unreachable)"
  | n + 1, s =>
    match schedulerPass cfg eligible l4sHolSize classicHolSize s with
    | .inl selected => .ok selected
    | .inr s => schedulerLoop cfg eligible l4sHolSize classicHolSize n s

/-- `Scheduler (eligible)`, `eligible = (Classic, L4S)`. -/
def scheduler (cfg : Config α) (s : DualPi2QueueDisc α) (eligible : Bool × Bool) :
    Except String (QueueIndex × DualPi2QueueDisc α) :=
  if !(eligible.1 || eligible.2) then .error "Error: Neither queue is eligible"
  else if getNPackets s = 0 then .ok (.none, s)
  else schedulerLoop cfg eligible (headSize s.l4sQueue) (headSize s.classicQueue)
    schedulerIterations s

omit [LinearOrderedField α] in
/-- After `k` iterations the guard compares `i = k` with `maxIterations = 1000 + k`, both
modulo `2^32`: it holds exactly for the first `schedulerIterations` values of `k`. -/
theorem schedulerGuard_iff (k : Nat) (within : k ≤ schedulerIterations) :
    k % uint32Size < (1000 + k) % uint32Size ↔ k < schedulerIterations := by
  unfold schedulerIterations uint32Size at *
  omega

/-- `s'` differs from `s` at most in the round mask and the two deficits. -/
def DualPi2QueueDisc.DrrFrame (s s' : DualPi2QueueDisc α) : Prop :=
  s' = { s with
    drrQueues := s'.drrQueues
    llDeficit := s'.llDeficit
    classicDeficit := s'.classicDeficit }

omit [LinearOrderedField α] in
theorem DualPi2QueueDisc.DrrFrame.refl (s : DualPi2QueueDisc α) : s.DrrFrame s := rfl

omit [LinearOrderedField α] in
theorem DualPi2QueueDisc.DrrFrame.trans {s t u : DualPi2QueueDisc α} (first : s.DrrFrame t)
    (second : t.DrrFrame u) : s.DrrFrame u := by
  unfold DualPi2QueueDisc.DrrFrame at *
  rw [second, first]

omit [LinearOrderedField α] in
theorem DualPi2QueueDisc.DrrFrame.deficits (s : DualPi2QueueDisc α) (mask : RoundMask)
    (l c : α) : s.DrrFrame { s with drrQueues := mask, llDeficit := l, classicDeficit := c } :=
  rfl

omit [LinearOrderedField α] in
theorem DualPi2QueueDisc.DrrFrame.queues {s s' : DualPi2QueueDisc α} (frame : s.DrrFrame s') :
    s'.l4sQueue = s.l4sQueue ∧ s'.classicQueue = s.classicQueue := by
  rw [frame]; exact ⟨rfl, rfl⟩

omit [LinearOrderedField α] in
theorem DualPi2QueueDisc.DrrFrame.staging {s s' : DualPi2QueueDisc α} (frame : s.DrrFrame s') :
    s'.l4sStagingQueue = s.l4sStagingQueue ∧ s'.classicStagingQueue = s.classicStagingQueue := by
  rw [frame]; exact ⟨rfl, rfl⟩

theorem startRound_frame (cfg : Config α) (s : DualPi2QueueDisc α) :
    s.DrrFrame (startRound cfg s) := by
  unfold startRound; split
  · exact .deficits _ _ _ _
  · exact .refl s

omit [LinearOrderedField α] in
theorem leaveRound_frame (s : DualPi2QueueDisc α) (queue : QueueIndex) :
    s.DrrFrame (s.leaveRound queue) := by
  cases queue <;> rfl

theorem skipL4s_frame (l : Nat) (eligible : Bool) (s : DualPi2QueueDisc α) :
    s.DrrFrame (skipL4s l eligible s) := by
  unfold skipL4s; split_ifs
  · exact (leaveRound_frame s .l4s).trans (.deficits _ _ _ _)
  · exact leaveRound_frame s .l4s
  · exact .refl s

theorem skipClassic_frame (c : Nat) (eligible : Bool) (s : DualPi2QueueDisc α) :
    s.DrrFrame (skipClassic c eligible s) := by
  unfold skipClassic; split_ifs
  · exact (leaveRound_frame s .classic).trans (.deficits _ _ _ _)
  · exact leaveRound_frame s .classic
  · exact .refl s

theorem startRound_of_none (cfg : Config α) {s : DualPi2QueueDisc α}
    (none : s.drrQueues.none = true) :
    startRound cfg s = { s with
      drrQueues := ⟨true, true⟩
      llDeficit := s.llDeficit + cfg.drrQuantum * cfg.schedulingWeight
      classicDeficit := s.classicDeficit + cfg.drrQuantum } :=
  if_pos none

omit [LinearOrderedField α] in
@[simp] theorem leaveRound_llDeficit (s : DualPi2QueueDisc α) (queue : QueueIndex) :
    (s.leaveRound queue).llDeficit = s.llDeficit := by
  cases queue <;> rfl

omit [LinearOrderedField α] in
@[simp] theorem leaveRound_classicDeficit (s : DualPi2QueueDisc α) (queue : QueueIndex) :
    (s.leaveRound queue).classicDeficit = s.classicDeficit := by
  cases queue <;> rfl

@[simp] theorem skipL4s_llDeficit (l : Nat) (eligible : Bool) (s : DualPi2QueueDisc α) :
    (skipL4s l eligible s).llDeficit = if l = 0 then 0 else s.llDeficit := by
  unfold skipL4s; split_ifs <;> simp

@[simp] theorem skipL4s_classicDeficit (l : Nat) (eligible : Bool) (s : DualPi2QueueDisc α) :
    (skipL4s l eligible s).classicDeficit = s.classicDeficit := by
  unfold skipL4s; split_ifs <;> simp

@[simp] theorem skipClassic_llDeficit (c : Nat) (eligible : Bool) (s : DualPi2QueueDisc α) :
    (skipClassic c eligible s).llDeficit = s.llDeficit := by
  unfold skipClassic; split_ifs <;> simp

@[simp] theorem skipClassic_classicDeficit (c : Nat) (eligible : Bool) (s : DualPi2QueueDisc α) :
    (skipClassic c eligible s).classicDeficit = if c = 0 then 0 else s.classicDeficit := by
  unfold skipClassic; split_ifs <;> simp

/-- An eligible queue that is not served leaves the round. -/
@[simp] theorem skipL4s_drrQueues (l : Nat) (s : DualPi2QueueDisc α) :
    (skipL4s l true s).drrQueues = { s.drrQueues with l4s := false } := by
  unfold skipL4s; split_ifs <;> simp_all [DualPi2QueueDisc.leaveRound]

@[simp] theorem skipClassic_drrQueues (c : Nat) (s : DualPi2QueueDisc α) :
    (skipClassic c true s).drrQueues = { s.drrQueues with classic := false } := by
  unfold skipClassic; split_ifs <;> simp_all [DualPi2QueueDisc.leaveRound]

/-- A pass writes only the DRR fields, and it selects a queue only when that queue's head
is non-zero and eligible. -/
theorem schedulerPass_spec {cfg : Config α} {eligible : Bool × Bool} {l c : Nat}
    {s : DualPi2QueueDisc α} :
    (∀ r s', schedulerPass cfg eligible l c s = .inl (r, s') → s.DrrFrame s' ∧
      ((r = .l4s ∧ l ≠ 0 ∧ eligible.2) ∨ (r = .classic ∧ c ≠ 0 ∧ eligible.1))) ∧
    (∀ s', schedulerPass cfg eligible l c s = .inr s' → s.DrrFrame s') := by
  have started := startRound_frame cfg s
  have skipped := started.trans (skipL4s_frame l eligible.2 (startRound cfg s))
  constructor
  · intro r s' pass
    dsimp only [schedulerPass] at pass
    split_ifs at pass with serveL serveC <;> cases pass
    · exact ⟨started.trans (.deficits _ _ _ _), .inl ⟨rfl, serveL.1, serveL.2.1⟩⟩
    · exact ⟨skipped.trans (.deficits _ _ _ _), .inr ⟨rfl, serveC.1, serveC.2.1⟩⟩
  · intro s' pass
    dsimp only [schedulerPass] at pass
    split_ifs at pass
    cases pass
    exact skipped.trans (skipClassic_frame _ _ _)

/-- A pass selects L4S when its head fits the L4S deficit after the round start, and
Classic when L4S does not and the Classic head fits the Classic deficit; each charges its
head to its own deficit. -/
theorem schedulerPass_eq_inl {cfg : Config α} {eligible : Bool × Bool} {l c : Nat}
    {s s' : DualPi2QueueDisc α} {r : QueueIndex}
    (pass : schedulerPass cfg eligible l c s = .inl (r, s')) :
    (r = .l4s ∧ l ≠ 0 ∧ eligible.2 = true ∧ (l : α) ≤ (startRound cfg s).llDeficit ∧
        s' = { startRound cfg s with llDeficit := (startRound cfg s).llDeficit - l }) ∨
      (r = .classic ∧
        ¬(l ≠ 0 ∧ eligible.2 = true ∧ (l : α) ≤ (startRound cfg s).llDeficit) ∧
        c ≠ 0 ∧ eligible.1 = true ∧ (c : α) ≤ (startRound cfg s).classicDeficit ∧
        s' = { skipL4s l eligible.2 (startRound cfg s) with
          classicDeficit := (startRound cfg s).classicDeficit - c }) := by
  dsimp only [schedulerPass] at pass
  split_ifs at pass with serveL serveC <;> cases pass
  · exact .inl ⟨rfl, serveL.1, serveL.2.1, serveL.2.2, rfl⟩
  · refine .inr ⟨rfl, serveL, ?_⟩
    rw [skipL4s_classicDeficit] at serveC ⊢
    exact ⟨serveC.1, serveC.2.1, serveC.2.2, rfl⟩

/-- A pass that selects nothing found neither head fitting its deficit after the round
start, and skips both queues. -/
theorem schedulerPass_eq_inr {cfg : Config α} {eligible : Bool × Bool} {l c : Nat}
    {s s' : DualPi2QueueDisc α} (pass : schedulerPass cfg eligible l c s = .inr s') :
    ¬(l ≠ 0 ∧ eligible.2 = true ∧ (l : α) ≤ (startRound cfg s).llDeficit) ∧
      ¬(c ≠ 0 ∧ eligible.1 = true ∧ (c : α) ≤ (startRound cfg s).classicDeficit) ∧
      s' = skipClassic c eligible.1 (skipL4s l eligible.2 (startRound cfg s)) := by
  dsimp only [schedulerPass] at pass
  split_ifs at pass with serveL serveC
  cases pass
  simp only [skipL4s_classicDeficit] at serveC
  exact ⟨serveL, serveC, rfl⟩

theorem schedulerLoop_spec {cfg : Config α} {eligible : Bool × Bool} {l c : Nat} :
    ∀ {n : Nat} {s s' : DualPi2QueueDisc α} {r : QueueIndex},
      schedulerLoop cfg eligible l c n s = .ok (r, s') → s.DrrFrame s' ∧
        ((r = .l4s ∧ l ≠ 0 ∧ eligible.2) ∨ (r = .classic ∧ c ≠ 0 ∧ eligible.1))
  | 0, _, _, _, run => by cases run
  | n + 1, s, s', r, run => by
    unfold schedulerLoop at run
    split at run
    · rename_i selected pass
      cases run
      exact schedulerPass_spec.1 _ _ pass
    · rename_i next pass
      obtain ⟨frame, selected⟩ := schedulerLoop_spec run
      exact ⟨(schedulerPass_spec.2 _ pass).trans frame, selected⟩

/-- `Scheduler` writes only the DRR fields; it returns `L4S` or `CLASSIC` only for an
eligible non-empty queue, and `NONE` only when both internal queues are empty. -/
theorem scheduler_spec {cfg : Config α} {s s' : DualPi2QueueDisc α} {eligible : Bool × Bool}
    {r : QueueIndex} (run : scheduler cfg s eligible = .ok (r, s')) :
    s.DrrFrame s' ∧ (r = .l4s → s.l4sQueue ≠ [] ∧ eligible.2) ∧
      (r = .classic → s.classicQueue ≠ [] ∧ eligible.1) ∧
      (r = .none → getNPackets s = 0 ∧ s' = s) := by
  unfold scheduler at run
  split_ifs at run with neither empty
  · cases run
    exact ⟨.refl s, by simp, by simp, fun _ => ⟨empty, rfl⟩⟩
  · obtain ⟨frame, selected⟩ := schedulerLoop_spec run
    refine ⟨frame, ?_, ?_, ?_⟩ <;> rintro rfl
    · rcases selected with ⟨-, l, e⟩ | ⟨no, -⟩
      · exact ⟨fun nil => l (by simp [nil]), e⟩
      · cases no
    · rcases selected with ⟨no, -⟩ | ⟨-, c, e⟩
      · cases no
      · exact ⟨fun nil => c (by simp [nil]), e⟩
    · rcases selected with ⟨no, -⟩ | ⟨no, -⟩ <;> cases no

/-- A pass that neither selects a queue nor changes the state repeats until the loop guard
stops it. -/
theorem schedulerLoop_stuck {cfg : Config α} {eligible : Bool × Bool} {l c : Nat}
    {s : DualPi2QueueDisc α} (fixed : schedulerPass cfg eligible l c s = .inr s) :
    ∀ n, schedulerLoop cfg eligible l c n s = .error "Error in DRR logic (should be unreachable)"
  | 0 => rfl
  | n + 1 => by simp only [schedulerLoop, fixed]; exact schedulerLoop_stuck fixed n

/-- A Classic head longer than the Classic deficit, with L4S still in the round and its
head too long for the pending budget. -/
def ineligibleRoundState : DualPi2QueueDisc ℚ :=
  { initialState with
    classicQueue := [⟨1, 100, 0, some .notEct, by decide⟩]
    l4sQueue := [⟨2, 1000, 0, some .ect1, by decide⟩]
    drrQueues := ⟨false, true⟩ }

/-- With a budget of 200 bytes `CanSchedule` makes only Classic eligible; the L4S bit then
never clears, no new round starts, and `Scheduler` runs until its guard ends in
`NS_FATAL_ERROR`. -/
theorem scheduler_stalls_on_ineligible_round :
    canSchedule ineligibleRoundState 200 = (true, false) ∧
      scheduler defaultConfig ineligibleRoundState (true, false) =
        .error "Error in DRR logic (should be unreachable)" := by
  refine ⟨by decide, ?_⟩
  have fixed : schedulerPass defaultConfig (true, false) 1000 100 ineligibleRoundState =
      .inr ineligibleRoundState := by
    simp [schedulerPass, startRound, skipL4s, skipClassic, ineligibleRoundState, initialState,
      RoundMask.none, DualPi2QueueDisc.leaveRound]
  simpa [scheduler, getNPackets, ineligibleRoundState] using schedulerLoop_stuck fixed _

end DualPi2

import DualPi2.Micro

namespace DualPi2

variable {α : Type} [LinearOrderedField α]

/-- The WDRR state: the round mask and the two deficits. -/
def DualPi2QueueDisc.drr (s : DualPi2QueueDisc α) : RoundMask × α × α :=
  (s.drrQueues, s.llDeficit, s.classicDeficit)

/-- Only `Scheduler` writes the WDRR state. -/
theorem microStep_drr {cfg : Config α} {sys sys' : DualPi2QueueDisc α × History} {a : Action}
    (step : microStep cfg sys a = some sys') (other : ∀ eligible, a ≠ .schedule eligible) :
    sys'.1.drr = sys.1.drr := by
  obtain ⟨s, h⟩ := sys
  cases a with
  | enqueue item =>
    cases step
    generalize run : doEnqueue cfg s item = result
    obtain ⟨accepted, s'⟩ := result
    rcases doEnqueue_cases run with ⟨-, _, rfl, -⟩ | ⟨-, -, rfl⟩ | ⟨-, -, rfl⟩ <;> rfl
  | schedule eligible => exact absurd rfl (other eligible)
  | update now =>
    simp only [microStep] at step
    split at step
    · rename_i s1 updated
      cases step
      obtain ⟨_, _, rfl⟩ := dualPi2Update_spec updated
      rfl
    · cases step
  | dequeueL4s now staged =>
    simp only [microStep] at step
    split at step <;> rename_i deq
    · obtain ⟨_, _, _, _, _, rfl, _⟩ := dequeueFromL4sLoop_spec deq
      cases step; rfl
    · obtain ⟨_, _, _, _, _, rfl, _⟩ := dequeueFromL4sLoop_spec deq
      split at step
      · cases step; rfl
      · split at step <;> cases step
        rfl
    · cases step
  | dequeueClassic staged =>
    simp only [microStep] at step
    split at step <;> rename_i deq
    · obtain ⟨_, _, _, rfl, _⟩ := dequeueFromClassicQueue_spec deq
      cases step; rfl
    · obtain ⟨_, _, _, rfl, _⟩ := dequeueFromClassicQueue_spec deq
      split at step
      · cases step; rfl
      · split at step <;> cases step
        rfl
  | popL4sStaging =>
    simp only [microStep] at step
    split at step <;> cases step
    rename_i staged
    unfold dequeueFromL4sStagingQueue at staged
    split at staged <;> cases staged
    rfl
  | popClassicStaging =>
    simp only [microStep] at step
    split at step <;> cases step
    rename_i staged
    unfold dequeueFromClassicStagingQueue at staged
    split at staged <;> cases staged
    rfl
  | refreshSamples now => cases step; rfl
  | topUp pendingMarks => cases step; rfl

/-- A property that every pass keeps is kept by the loop of `Scheduler`. -/
theorem schedulerLoop_preserves (P : DualPi2QueueDisc α → Prop) {cfg : Config α}
    {eligible : Bool × Bool} {l c : Nat}
    (kept : ∀ s, P s →
      (∀ r s', schedulerPass cfg eligible l c s = .inl (r, s') → P s') ∧
        ∀ s', schedulerPass cfg eligible l c s = .inr s' → P s') :
    ∀ {n : Nat} {s s' : DualPi2QueueDisc α} {r : QueueIndex},
      schedulerLoop cfg eligible l c n s = .ok (r, s') → P s → P s'
  | 0, _, _, _, run, _ => by cases run
  | n + 1, s, s', r, run, holds => by
    unfold schedulerLoop at run
    split at run
    · rename_i selected pass
      cases run
      exact (kept s holds).1 _ _ pass
    · rename_i next pass
      exact schedulerLoop_preserves P kept run ((kept s holds).2 _ pass)

/-- A property that every pass over the heads of `s` keeps is kept by `Scheduler`. -/
theorem scheduler_preserves (P : DualPi2QueueDisc α → Prop) {cfg : Config α}
    {eligible : Bool × Bool} {s s' : DualPi2QueueDisc α} {r : QueueIndex}
    (kept : ∀ t, P t →
      (∀ r t', schedulerPass cfg eligible (headSize s.l4sQueue) (headSize s.classicQueue) t =
          .inl (r, t') → P t') ∧
        ∀ t', schedulerPass cfg eligible (headSize s.l4sQueue) (headSize s.classicQueue) t =
          .inr t' → P t')
    (run : scheduler cfg s eligible = .ok (r, s')) (holds : P s) : P s' := by
  unfold scheduler at run
  split_ifs at run
  · cases run; exact holds
  · exact schedulerLoop_preserves P kept run holds

/-- Both WDRR deficits are non-negative. -/
def DualPi2QueueDisc.DeficitsNonneg (s : DualPi2QueueDisc α) : Prop :=
  0 ≤ s.llDeficit ∧ 0 ≤ s.classicDeficit

theorem startRound_deficitsNonneg (cfg : Config α) {s : DualPi2QueueDisc α}
    (nonneg : s.DeficitsNonneg) : (startRound cfg s).DeficitsNonneg := by
  unfold startRound
  split
  · have weight : (0 : α) ≤ cfg.schedulingWeight := zero_le_one.trans cfg.schedulingWeight_ge
    exact ⟨add_nonneg nonneg.1 (mul_nonneg (Nat.cast_nonneg _) weight),
      add_nonneg nonneg.2 (Nat.cast_nonneg _)⟩
  · exact nonneg

theorem skipL4s_deficitsNonneg (l : Nat) (eligible : Bool) {s : DualPi2QueueDisc α}
    (nonneg : s.DeficitsNonneg) : (skipL4s l eligible s).DeficitsNonneg := by
  refine ⟨?_, by simpa using nonneg.2⟩
  rw [skipL4s_llDeficit]
  split
  exacts [le_rfl, nonneg.1]

theorem skipClassic_deficitsNonneg (c : Nat) (eligible : Bool) {s : DualPi2QueueDisc α}
    (nonneg : s.DeficitsNonneg) : (skipClassic c eligible s).DeficitsNonneg := by
  refine ⟨by simpa using nonneg.1, ?_⟩
  rw [skipClassic_classicDeficit]
  split
  exacts [le_rfl, nonneg.2]

/-- A pass charges a head only to a deficit that covers it, so deficits stay non-negative. -/
theorem schedulerPass_deficitsNonneg (cfg : Config α) (eligible : Bool × Bool) (l c : Nat)
    (s : DualPi2QueueDisc α) (nonneg : s.DeficitsNonneg) :
    (∀ r s', schedulerPass cfg eligible l c s = .inl (r, s') → s'.DeficitsNonneg) ∧
      ∀ s', schedulerPass cfg eligible l c s = .inr s' → s'.DeficitsNonneg := by
  have started := startRound_deficitsNonneg cfg nonneg
  refine ⟨fun r s' pass => ?_, fun s' pass => ?_⟩
  · rcases schedulerPass_eq_inl pass with ⟨-, -, -, fits, rfl⟩ | ⟨-, -, -, -, fits, rfl⟩
    · exact ⟨sub_nonneg.mpr fits, started.2⟩
    · exact ⟨(skipL4s_deficitsNonneg l eligible.2 started).1, sub_nonneg.mpr fits⟩
  · obtain ⟨-, -, rfl⟩ := schedulerPass_eq_inr pass
    exact skipClassic_deficitsNonneg c eligible.1 (skipL4s_deficitsNonneg l eligible.2 started)

theorem microStep_deficitsNonneg {cfg : Config α} {sys sys' : DualPi2QueueDisc α × History}
    {a : Action} (step : microStep cfg sys a = some sys') (nonneg : sys.1.DeficitsNonneg) :
    sys'.1.DeficitsNonneg := by
  obtain ⟨s, h⟩ := sys
  by_cases scheduled : ∃ eligible, a = .schedule eligible
  · obtain ⟨eligible, rfl⟩ := scheduled
    simp only [microStep] at step
    split at step
    · cases step
      exact scheduler_preserves _ (schedulerPass_deficitsNonneg cfg eligible _ _) ‹_› nonneg
    · cases step
  · have same := microStep_drr step fun eligible same => scheduled ⟨eligible, same⟩
    simp only [DualPi2QueueDisc.drr, Prod.mk.injEq] at same
    exact ⟨same.2.1 ▸ nonneg.1, same.2.2 ▸ nonneg.2⟩

theorem Reachable.deficitsNonneg {cfg : Config α} {s : DualPi2QueueDisc α} {h : History}
    (reach : Reachable cfg s h) : s.DeficitsNonneg := by
  obtain ⟨acts, exec⟩ := reach.micro
  exact microExec_invariant (fun sys => sys.1.DeficitsNonneg)
    (fun _ _ _ step nonneg => microStep_deficitsNonneg step nonneg) exec ⟨le_rfl, le_rfl⟩

/-- From a state with no queue in the round, `m + 1` passes with both queues eligible select
a queue once a non-empty head fits its deficit plus `m + 1` rounds of quanta. -/
theorem schedulerLoop_selects_of_none (cfg : Config α) {l c : Nat} :
    ∀ (m : Nat) {s : DualPi2QueueDisc α}, s.drrQueues.none = true →
      (c ≠ 0 ∧ (c : α) ≤ s.classicDeficit + (m + 1) * cfg.drrQuantum) ∨
        (l ≠ 0 ∧
          (l : α) ≤ s.llDeficit + (m + 1) * (cfg.drrQuantum * cfg.schedulingWeight)) →
      ∃ selected, schedulerLoop cfg (true, true) l c (m + 1) s = .ok selected
  | m, s, idle, fits => by
    cases pass : schedulerPass cfg (true, true) l c s with
    | inl selected => exact ⟨selected, by simp only [schedulerLoop, pass]⟩
    | inr s' =>
      obtain ⟨skipL, skipC, rfl⟩ := schedulerPass_eq_inr pass
      simp only [startRound_of_none cfg idle, true_and, not_and, not_le] at skipL skipC
      cases m with
      | zero =>
        rcases fits with ⟨waiting, fit⟩ | ⟨waiting, fit⟩
        · have := skipC waiting; simp at fit; linarith
        · have := skipL waiting; simp at fit; linarith
      | succ m =>
        simp only [schedulerLoop, pass]
        refine schedulerLoop_selects_of_none cfg m
          (by simp [startRound_of_none cfg idle, RoundMask.none]) ?_
        rcases fits with ⟨waiting, fit⟩ | ⟨waiting, fit⟩
        · refine .inl ⟨waiting, ?_⟩
          simp only [skipClassic_classicDeficit, skipL4s_classicDeficit,
            startRound_of_none cfg idle, waiting, if_false]
          push_cast at fit
          linarith
        · refine .inr ⟨waiting, ?_⟩
          simp only [skipClassic_llDeficit, skipL4s_llDeficit, startRound_of_none cfg idle,
            waiting, if_false]
          push_cast at fit
          linarith

/-- With both queues eligible, a positive quantum and non-negative deficits, `Scheduler`'s
loop selects a queue within one pass more than the larger head of line. -/
theorem schedulerLoop_selects (cfg : Config α) (quantum : 0 < cfg.drrQuantum) {l c : Nat}
    {s : DualPi2QueueDisc α} (nonneg : s.DeficitsNonneg) (waiting : l ≠ 0 ∨ c ≠ 0) {n : Nat}
    (enough : l < n ∧ c < n) :
    ∃ selected, schedulerLoop cfg (true, true) l c n s = .ok selected := by
  obtain ⟨n, rfl⟩ : ∃ n', n = n' + 1 := ⟨n - 1, by omega⟩
  cases pass : schedulerPass cfg (true, true) l c s with
  | inl selected => exact ⟨selected, by simp only [schedulerLoop, pass]⟩
  | inr s' =>
    have nonneg' := (schedulerPass_deficitsNonneg cfg _ l c s nonneg).2 s' pass
    obtain ⟨-, -, rfl⟩ := schedulerPass_eq_inr pass
    simp only [schedulerLoop, pass]
    obtain ⟨m, rfl⟩ : ∃ m, n = m + 1 := ⟨n - 1, by omega⟩
    refine schedulerLoop_selects_of_none cfg m (by simp [RoundMask.none]) ?_
    have rounds : (1 : α) ≤ cfg.drrQuantum := by exact_mod_cast quantum
    have quanta : (m + 1 : α) ≤ (m + 1) * cfg.drrQuantum :=
      le_mul_of_one_le_right (by positivity) rounds
    have weighted : (m + 1 : α) ≤ (m + 1) * (cfg.drrQuantum * cfg.schedulingWeight) :=
      le_mul_of_one_le_right (by positivity)
        (one_le_mul_of_one_le_of_one_le rounds cfg.schedulingWeight_ge)
    rcases waiting with waiting | waiting
    · by_cases classic : c = 0
      · refine .inr ⟨waiting, ?_⟩
        have fit : (l : α) ≤ m + 1 := by exact_mod_cast (by omega : l ≤ m + 1)
        linarith [nonneg'.1]
      · refine .inl ⟨classic, ?_⟩
        have fit : (c : α) ≤ m + 1 := by exact_mod_cast (by omega : c ≤ m + 1)
        linarith [nonneg'.2]
    · refine .inl ⟨waiting, ?_⟩
      have fit : (c : α) ≤ m + 1 := by exact_mod_cast (by omega : c ≤ m + 1)
      linarith [nonneg'.2]

theorem headSize_ne_zero {queue : List QueueDiscItem} (nonempty : queue ≠ [])
    (positive : ∀ x ∈ queue, 0 < x.size) : headSize queue ≠ 0 := by
  cases queue with
  | nil => exact absurd rfl nonempty
  | cons x rest => exact Nat.pos_iff_ne_zero.mp (positive x (List.mem_cons_self x rest))

/-- With both queues eligible, a positive quantum, non-negative deficits and items of positive
size, `Scheduler` returns a queue whenever a packet is queued and both heads of line are
within the iterations its guard admits. -/
theorem scheduler_selects (cfg : Config α) (quantum : 0 < cfg.drrQuantum)
    {s : DualPi2QueueDisc α} (nonneg : s.DeficitsNonneg)
    (positive : ∀ x ∈ s.l4sQueue ++ s.classicQueue, 0 < x.size) (waiting : getNPackets s ≠ 0)
    (small : headSize s.l4sQueue < schedulerIterations ∧
      headSize s.classicQueue < schedulerIterations) :
    ∃ selected, scheduler cfg s (true, true) = .ok selected := by
  have heads : headSize s.l4sQueue ≠ 0 ∨ headSize s.classicQueue ≠ 0 := by
    by_cases l4s : s.l4sQueue = []
    · have : s.classicQueue ≠ [] := fun classic => waiting (by simp [getNPackets, l4s, classic])
      exact .inr (headSize_ne_zero this fun x member => positive x (by simp [member]))
    · exact .inl (headSize_ne_zero l4s fun x member => positive x (by simp [member]))
  simp only [scheduler, Bool.or_true, Bool.not_true, waiting, if_false]
  exact schedulerLoop_selects cfg quantum nonneg heads small

/-- With the L4S queue empty, a Classic head longer than the Classic deficit plus `n` quanta
is not selected in `n` passes from a state with no queue in the round: the loop's guard
ends it first. -/
theorem schedulerLoop_classic_starves (cfg : Config α) {c : Nat} (waiting : c ≠ 0) :
    ∀ (n : Nat) {s : DualPi2QueueDisc α}, s.drrQueues.none = true →
      s.classicDeficit + n * cfg.drrQuantum < c →
      schedulerLoop cfg (true, true) 0 c n s = .error "Error in DRR logic (should be unreachable)"
  | 0, _, _, _ => rfl
  | n + 1, s, idle, short => by
    have quanta : (0 : α) ≤ n * cfg.drrQuantum := by positivity
    push_cast at short
    cases pass : schedulerPass cfg (true, true) 0 c s with
    | inl selected =>
      exfalso
      obtain ⟨r, s'⟩ := selected
      rcases schedulerPass_eq_inl pass with ⟨-, zero, -⟩ | ⟨-, -, -, -, fits, -⟩
      · exact zero rfl
      · rw [startRound_of_none cfg idle] at fits
        dsimp only at fits
        linarith
    | inr s' =>
      obtain ⟨-, -, rfl⟩ := schedulerPass_eq_inr pass
      simp only [schedulerLoop, pass]
      refine schedulerLoop_classic_starves cfg waiting n (by simp [startRound_of_none cfg idle,
        RoundMask.none]) ?_
      simp only [skipClassic_classicDeficit, skipL4s_classicDeficit,
        startRound_of_none cfg idle, waiting, if_false]
      linarith

/-- A `Scheduler` call whose first pass selects a queue returns that selection. -/
theorem scheduler_of_first_pass {cfg : Config α} {s : DualPi2QueueDisc α}
    {eligible : Bool × Bool} {selected : QueueIndex × DualPi2QueueDisc α}
    (pass : schedulerPass cfg eligible (headSize s.l4sQueue) (headSize s.classicQueue) s =
      .inl selected) (waiting : getNPackets s ≠ 0) (some : (eligible.1 || eligible.2) = true) :
    scheduler cfg s eligible = .ok selected := by
  obtain ⟨n, iterations⟩ : ∃ n, schedulerIterations = n + 1 :=
    ⟨schedulerIterations - 1, rfl⟩
  simp only [scheduler, some, Bool.not_true, Bool.false_eq_true, ↓reduceIte, waiting, iterations,
    schedulerLoop, pass]

/-- In a round L4S is still part of, an eligible L4S head of line that fits the L4S deficit
is served at once, and the deficit is what is left of it after the head's size. -/
theorem scheduler_of_l4s_fits {cfg : Config α} {s : DualPi2QueueDisc α} {eligible : Bool × Bool}
    {deficit : α} (inRound : s.drrQueues.l4s = true) (l4sEligible : eligible.2 = true)
    (head : headSize s.l4sQueue ≠ 0) (fits : (headSize s.l4sQueue : α) ≤ s.llDeficit)
    (spent : s.llDeficit - headSize s.l4sQueue = deficit) :
    scheduler cfg s eligible = .ok (.l4s, { s with llDeficit := deficit }) := by
  have started : startRound cfg s = s := by simp [startRound, RoundMask.none, inRound]
  have waiting : getNPackets s ≠ 0 := by
    cases queue : s.l4sQueue with
    | nil => simp [queue] at head
    | cons => simp [getNPackets, queue]
  refine scheduler_of_first_pass ?_ waiting (by simp [l4sEligible])
  simp only [schedulerPass, started, head, l4sEligible, fits, ne_eq, not_false_eq_true, and_self,
    ↓reduceIte, spent]

end DualPi2

import DualPi2.Progress

namespace DualPi2

/-- The head bytes a selection charges, to L4S and to Classic, given the two heads of line. -/
def QueueIndex.charges (r : QueueIndex) (l4sHolSize classicHolSize : Nat) : Nat × Nat :=
  match r with
  | .l4s => (l4sHolSize, 0)
  | .classic => (0, classicHolSize)
  | .none => (0, 0)

variable {α : Type} [LinearOrderedField α]

/-- The head bytes one primitive call charges: a `Scheduler` call charges the head of line of
the queue it returns. -/
def stepCharges (cfg : Config α) (s : DualPi2QueueDisc α) : Action → Nat × Nat
  | .schedule eligible =>
    match scheduler cfg s eligible with
    | .ok (r, _) => r.charges (headSize s.l4sQueue) (headSize s.classicQueue)
    | .error _ => (0, 0)
  | _ => (0, 0)

/-- The head bytes charged to L4S and to Classic along a sequence of primitive calls. -/
def microCharges (cfg : Config α) :
    DualPi2QueueDisc α × History → List Action → Nat × Nat
  | _, [] => (0, 0)
  | sys, a :: acts =>
    match microStep cfg sys a with
    | some sys' => stepCharges cfg sys.1 a + microCharges cfg sys' acts
    | none => (0, 0)

/-- Both internal queues are non-empty at every `Scheduler` call of a sequence of primitive
calls. -/
def backloggedAtCalls (cfg : Config α) :
    DualPi2QueueDisc α × History → List Action → Bool
  | _, [] => true
  | sys, a :: acts =>
    match microStep cfg sys a with
    | some sys' =>
      (!(a matches .schedule _) || (!sys.1.l4sQueue.isEmpty && !sys.1.classicQueue.isEmpty)) &&
        backloggedAtCalls cfg sys' acts
    | none => true

/-- The WDRR balance `llDeficit - w · classicDeficit`. A round start adds `q · w` to both
terms, so only the charges move it. -/
def balance (cfg : Config α) (s : DualPi2QueueDisc α) : α :=
  s.llDeficit - cfg.schedulingWeight * s.classicDeficit

theorem startRound_balance (cfg : Config α) (s : DualPi2QueueDisc α) :
    balance cfg (startRound cfg s) = balance cfg s := by
  unfold startRound balance
  split
  · dsimp only; ring
  · rfl

/-- With both heads non-zero, a pass with any eligibility moves the balance by exactly what it
charges: a head that is skipped keeps its deficit. -/
theorem schedulerPass_moves_balance (cfg : Config α) (eligible : Bool × Bool) {l c : Nat}
    (l4s : l ≠ 0) (classic : c ≠ 0) (s : DualPi2QueueDisc α) :
    (∀ r s', schedulerPass cfg eligible l c s = .inl (r, s') →
      balance cfg s = balance cfg s' + (r.charges l c).1 -
        cfg.schedulingWeight * (r.charges l c).2) ∧
      ∀ s', schedulerPass cfg eligible l c s = .inr s' →
        balance cfg s = balance cfg s' := by
  have started := startRound_balance cfg s
  unfold balance at started ⊢
  refine ⟨fun r s' pass => ?_, fun s' pass => ?_⟩
  · rcases schedulerPass_eq_inl pass with ⟨rfl, -, -, -, rfl⟩ | ⟨rfl, -, -, -, -, rfl⟩
    · simp only [QueueIndex.charges]; push_cast; linarith
    · simp only [QueueIndex.charges, skipL4s_llDeficit, l4s, if_false]; push_cast; linarith
  · obtain ⟨-, -, rfl⟩ := schedulerPass_eq_inr pass
    simp only [skipClassic_llDeficit, skipClassic_classicDeficit, skipL4s_llDeficit,
      skipL4s_classicDeficit, l4s, classic, if_false]
    linarith

theorem schedulerLoop_moves_balance (cfg : Config α) (eligible : Bool × Bool) {l c : Nat}
    (l4s : l ≠ 0) (classic : c ≠ 0) :
    ∀ {n : Nat} {s s' : DualPi2QueueDisc α} {r : QueueIndex},
      schedulerLoop cfg eligible l c n s = .ok (r, s') →
      balance cfg s = balance cfg s' + (r.charges l c).1 - cfg.schedulingWeight * (r.charges l c).2
  | 0, _, _, _, run => by cases run
  | n + 1, s, s', r, run => by
    unfold schedulerLoop at run
    split at run
    · rename_i selected pass
      cases run
      exact (schedulerPass_moves_balance cfg eligible l4s classic s).1 _ _ pass
    · rename_i next pass
      rw [(schedulerPass_moves_balance cfg eligible l4s classic s).2 _ pass]
      exact schedulerLoop_moves_balance cfg eligible l4s classic run

/-- A `Scheduler` call, with any eligibility, with both internal queues holding an item of
positive size moves the balance by exactly what it charges. -/
theorem scheduler_moves_balance {cfg : Config α} {s s' : DualPi2QueueDisc α}
    {eligible : Bool × Bool} {r : QueueIndex}
    (positive : ∀ x ∈ s.l4sQueue ++ s.classicQueue, 0 < x.size) (l4s : s.l4sQueue ≠ [])
    (classic : s.classicQueue ≠ []) (run : scheduler cfg s eligible = .ok (r, s')) :
    balance cfg s = balance cfg s' +
      (r.charges (headSize s.l4sQueue) (headSize s.classicQueue)).1 -
      cfg.schedulingWeight * (r.charges (headSize s.l4sQueue) (headSize s.classicQueue)).2 := by
  have waiting : getNPackets s ≠ 0 := by
    simp [getNPackets, List.length_eq_zero, l4s]
  unfold scheduler at run
  split_ifs at run
  exact schedulerLoop_moves_balance cfg eligible
    (headSize_ne_zero l4s fun x member => positive x (by simp [member]))
    (headSize_ne_zero classic fun x member => positive x (by simp [member])) run

omit [LinearOrderedField α] in
theorem DualPi2QueueDisc.drr_eq {s s' : DualPi2QueueDisc α} (same : s'.drr = s.drr) :
    s'.drrQueues = s.drrQueues ∧ s'.llDeficit = s.llDeficit ∧
      s'.classicDeficit = s.classicDeficit := by
  simpa [DualPi2QueueDisc.drr] using same

omit [LinearOrderedField α] in
theorem headSize_le {queue : List QueueDiscItem} {S : Nat} (sizes : ∀ x ∈ queue, x.size ≤ S) :
    headSize queue ≤ S := by
  cases queue with
  | nil => exact Nat.zero_le S
  | cons x rest => exact sizes x (List.mem_cons_self x rest)

omit [LinearOrderedField α] in
theorem exists_queued {s : DualPi2QueueDisc α} (waiting : getNPackets s ≠ 0) :
    ∃ x, x ∈ s.l4sQueue ++ s.classicQueue :=
  List.exists_mem_of_length_pos (by simp only [getNPackets] at waiting; simp; omega)

/-- The WDRR state of a run whose items have at most `S` bytes: non-negative deficits below
`q · w + S` and `q + S`, and a queue out of the current round holds less than `S`, or nothing.
`Scheduler` is called with `(true, true)` by `DoDequeue` and with the pair `CanSchedule`
computes from the budget by a pending batch; a queue leaves the round only with a deficit below
its head, or with nothing when it is empty, and a new round starts only when both have left,
so the bounds hold whatever the eligibility of each call. -/
structure DeficitsBounded (cfg : Config α) (S : Nat) (s : DualPi2QueueDisc α) : Prop where
  ll_nonneg : 0 ≤ s.llDeficit
  classic_nonneg : 0 ≤ s.classicDeficit
  ll_lt : s.llDeficit < cfg.drrQuantum * cfg.schedulingWeight + S
  classic_lt : s.classicDeficit < cfg.drrQuantum + S
  l4s_out : s.drrQueues.l4s = false → s.llDeficit < S ∨ s.llDeficit ≤ 0
  classic_out : s.drrQueues.classic = false → s.classicDeficit < S ∨ s.classicDeficit ≤ 0

section Bounds

variable {cfg : Config α} {S : Nat} {s : DualPi2QueueDisc α}

theorem quanta_nonneg (cfg : Config α) : (0 : α) ≤ cfg.drrQuantum * cfg.schedulingWeight :=
  mul_nonneg (Nat.cast_nonneg _) (zero_le_one.trans cfg.schedulingWeight_ge)

theorem DeficitsBounded.initial (room : 0 < cfg.drrQuantum ∨ 0 < S) :
    DeficitsBounded cfg S (initialState : DualPi2QueueDisc α) := by
  have positive : (0 : α) < cfg.drrQuantum + S := by
    exact_mod_cast (show 0 < cfg.drrQuantum + S by omega)
  have weighted : (cfg.drrQuantum : α) ≤ cfg.drrQuantum * cfg.schedulingWeight :=
    le_mul_of_one_le_right (Nat.cast_nonneg _) cfg.schedulingWeight_ge
  exact ⟨le_rfl, le_rfl, by show (0 : α) < _; linarith, by show (0 : α) < _; linarith,
    fun _ => .inr le_rfl, fun _ => .inr le_rfl⟩

theorem DeficitsBounded.of_drr {s' : DualPi2QueueDisc α} (bounded : DeficitsBounded cfg S s)
    (same : s'.drr = s.drr) : DeficitsBounded cfg S s' := by
  obtain ⟨mask, ll, classic⟩ := DualPi2QueueDisc.drr_eq same
  exact ⟨ll ▸ bounded.ll_nonneg, classic ▸ bounded.classic_nonneg, ll ▸ bounded.ll_lt,
    classic ▸ bounded.classic_lt, by rw [mask, ll]; exact bounded.l4s_out,
    by rw [mask, classic]; exact bounded.classic_out⟩

theorem DeficitsBounded.l4s_out_lt (bounded : DeficitsBounded cfg S s) (sized : 0 < S)
    (out : s.drrQueues.l4s = false) : s.llDeficit < S :=
  (bounded.l4s_out out).elim id fun empty => empty.trans_lt (by exact_mod_cast sized)

theorem DeficitsBounded.classic_out_lt (bounded : DeficitsBounded cfg S s) (sized : 0 < S)
    (out : s.drrQueues.classic = false) : s.classicDeficit < S :=
  (bounded.classic_out out).elim id fun empty => empty.trans_lt (by exact_mod_cast sized)

/-- A round starts only with both queues out of it, so each deficit gains its quanta from
below `S`. -/
theorem DeficitsBounded.started (bounded : DeficitsBounded cfg S s) (sized : 0 < S) :
    DeficitsBounded cfg S (startRound cfg s) := by
  by_cases idle : s.drrQueues.none = true
  · have out : s.drrQueues.classic = false ∧ s.drrQueues.l4s = false := by
      simpa [RoundMask.none] using idle
    rw [startRound_of_none cfg idle]
    refine ⟨add_nonneg bounded.ll_nonneg (quanta_nonneg cfg), add_nonneg bounded.classic_nonneg
      (Nat.cast_nonneg _), ?_, ?_, fun no => by simp at no, fun no => by simp at no⟩
    · exact (add_comm (s.llDeficit) _).trans_lt
        (add_lt_add_left (bounded.l4s_out_lt sized out.2) _)
    · exact (add_comm (s.classicDeficit) _).trans_lt
        (add_lt_add_left (bounded.classic_out_lt sized out.1) _)
  · rw [show startRound cfg s = s from if_neg idle]
    exact bounded

/-- Charging a head to the L4S deficit that covers it keeps the bounds. -/
theorem DeficitsBounded.chargedL4s (bounded : DeficitsBounded cfg S s) {l : Nat}
    (fits : (l : α) ≤ s.llDeficit) :
    DeficitsBounded cfg S { s with llDeficit := s.llDeficit - l } := by
  have lower : s.llDeficit - l ≤ s.llDeficit := sub_le_self _ (Nat.cast_nonneg l)
  exact ⟨sub_nonneg.mpr fits, bounded.classic_nonneg, lower.trans_lt bounded.ll_lt,
    bounded.classic_lt, fun out => (bounded.l4s_out out).imp lower.trans_lt lower.trans,
    bounded.classic_out⟩

theorem DeficitsBounded.chargedClassic (bounded : DeficitsBounded cfg S s) {c : Nat}
    (fits : (c : α) ≤ s.classicDeficit) :
    DeficitsBounded cfg S { s with classicDeficit := s.classicDeficit - c } := by
  have lower : s.classicDeficit - c ≤ s.classicDeficit := sub_le_self _ (Nat.cast_nonneg c)
  exact ⟨bounded.ll_nonneg, sub_nonneg.mpr fits, bounded.ll_lt,
    lower.trans_lt bounded.classic_lt, bounded.l4s_out,
    fun out => (bounded.classic_out out).imp lower.trans_lt lower.trans⟩

/-- An L4S head that was not served: an empty queue leaves the round with nothing, an
eligible one leaves it with a deficit below its head, an ineligible one stays as it was. -/
theorem DeficitsBounded.skippedL4s (bounded : DeficitsBounded cfg S s) (sized : 0 < S)
    {l : Nat} {eligible : Bool} (head : l ≤ S)
    (unserved : ¬(l ≠ 0 ∧ eligible = true ∧ (l : α) ≤ s.llDeficit)) :
    DeficitsBounded cfg S (skipL4s l eligible s) := by
  have positive : (0 : α) < S := by exact_mod_cast sized
  unfold skipL4s
  split_ifs with empty chosen
  · exact ⟨le_rfl, bounded.classic_nonneg, add_pos_of_nonneg_of_pos (quanta_nonneg cfg) positive,
      bounded.classic_lt,
      fun _ => .inr le_rfl, bounded.classic_out⟩
  · have below : s.llDeficit < l := not_le.mp fun fits => unserved ⟨empty, chosen, fits⟩
    exact ⟨bounded.ll_nonneg, bounded.classic_nonneg, bounded.ll_lt, bounded.classic_lt,
      fun _ => .inl (below.trans_le (by exact_mod_cast head)), bounded.classic_out⟩
  · exact bounded

theorem DeficitsBounded.skippedClassic (bounded : DeficitsBounded cfg S s) (sized : 0 < S)
    {c : Nat} {eligible : Bool} (head : c ≤ S)
    (unserved : ¬(c ≠ 0 ∧ eligible = true ∧ (c : α) ≤ s.classicDeficit)) :
    DeficitsBounded cfg S (skipClassic c eligible s) := by
  have positive : (0 : α) < S := by exact_mod_cast sized
  unfold skipClassic
  split_ifs with empty chosen
  · exact ⟨bounded.ll_nonneg, le_rfl, bounded.ll_lt,
      add_pos_of_nonneg_of_pos (Nat.cast_nonneg _) positive, bounded.l4s_out,
      fun _ => .inr le_rfl⟩
  · have below : s.classicDeficit < c := not_le.mp fun fits => unserved ⟨empty, chosen, fits⟩
    exact ⟨bounded.ll_nonneg, bounded.classic_nonneg, bounded.ll_lt, bounded.classic_lt,
      bounded.l4s_out, fun _ => .inl (below.trans_le (by exact_mod_cast head))⟩
  · exact bounded

/-- Every pass, with any eligibility and heads of at most `S` bytes, keeps the bounds. -/
theorem schedulerPass_deficitsBounded (sized : 0 < S) {eligible : Bool × Bool} {l c : Nat}
    (l4s : l ≤ S) (classic : c ≤ S) (s : DualPi2QueueDisc α)
    (bounded : DeficitsBounded cfg S s) :
    (∀ r s', schedulerPass cfg eligible l c s = .inl (r, s') → DeficitsBounded cfg S s') ∧
      ∀ s', schedulerPass cfg eligible l c s = .inr s' → DeficitsBounded cfg S s' := by
  have started := bounded.started sized
  refine ⟨fun r s' pass => ?_, fun s' pass => ?_⟩
  · rcases schedulerPass_eq_inl pass with ⟨-, -, -, fits, rfl⟩ | ⟨-, unserved, -, -, fits, rfl⟩
    · exact started.chargedL4s fits
    · have charged := (started.skippedL4s sized l4s unserved).chargedClassic
        (by rwa [skipL4s_classicDeficit])
      rwa [skipL4s_classicDeficit] at charged
  · obtain ⟨unservedL, unservedC, rfl⟩ := schedulerPass_eq_inr pass
    exact (started.skippedL4s sized l4s unservedL).skippedClassic sized classic
      (by rwa [skipL4s_classicDeficit])

/-- A `Scheduler` call keeps the bounds. It runs a pass only with a packet queued, whose size
makes room for the bounds. -/
theorem scheduler_deficitsBounded {s' : DualPi2QueueDisc α} {eligible : Bool × Bool}
    {r : QueueIndex} (sizes : ∀ x ∈ s.l4sQueue ++ s.classicQueue, x.size ≤ S)
    (sized : getNPackets s ≠ 0 → 0 < S) (run : scheduler cfg s eligible = .ok (r, s'))
    (bounded : DeficitsBounded cfg S s) : DeficitsBounded cfg S s' := by
  by_cases waiting : getNPackets s = 0
  · simp only [scheduler, waiting, if_true, ite_eq_right_iff] at run
    split_ifs at run
    cases run
    exact bounded
  · exact scheduler_preserves _ (schedulerPass_deficitsBounded (sized waiting)
      (headSize_le fun x member => sizes x (List.mem_append_left _ member))
      (headSize_le fun x member => sizes x (List.mem_append_right _ member))) run bounded

theorem microStep_deficitsBounded {sys sys' : DualPi2QueueDisc α × History} {a : Action}
    (step : microStep cfg sys a = some sys')
    (sizes : ∀ x ∈ sys.1.l4sQueue ++ sys.1.classicQueue, x.size ≤ S)
    (sized : getNPackets sys.1 ≠ 0 → 0 < S)
    (bounded : DeficitsBounded cfg S sys.1) : DeficitsBounded cfg S sys'.1 := by
  obtain ⟨s, h⟩ := sys
  by_cases scheduled : ∃ eligible, a = .schedule eligible
  · obtain ⟨eligible, rfl⟩ := scheduled
    simp only [microStep] at step
    split at step
    · cases step
      exact scheduler_deficitsBounded sizes sized ‹_› bounded
    · cases step
  · exact bounded.of_drr (microStep_drr step fun eligible same => scheduled ⟨eligible, same⟩)

/-- Along every sequence of primitive calls from the initial state, ordinary or from pending
batches, the deficits stay bounded while the items enqueued have at most `S` bytes, with room
for the bounds: a positive `S`, or positive sizes (then `S` is positive once an item is
queued) and a positive quantum. -/
theorem microExec_deficitsBounded {acts : List Action} {sys : DualPi2QueueDisc α × History}
    (room : 0 < cfg.drrQuantum ∨ 0 < S)
    (sized : 0 < S ∨ ∀ x ∈ sys.2.enqueued, 0 < x.size)
    (run : microExec cfg (initialState, History.empty) acts = some sys)
    (sizes : ∀ x ∈ sys.2.enqueued, x.size ≤ S) : DeficitsBounded cfg S sys.1 := by
  refine (microExec_invariant
    (fun sys => Conserved sys.1 sys.2 ∧ ((0 < S ∨ ∀ x ∈ sys.2.enqueued, 0 < x.size) →
      (∀ x ∈ sys.2.enqueued, x.size ≤ S) → DeficitsBounded cfg S sys.1))
    (fun sys sys' a step ⟨conserved, bounded⟩ => ⟨microStep_conserved step conserved,
      fun sized' sizes' => ?_⟩) run ⟨Conserved.initial, fun _ _ => .initial room⟩).2 sized sizes
  have earlier : ∀ x ∈ sys.2.enqueued, x ∈ sys'.2.enqueued :=
    fun x member => (microStep_enqueued step).1 x member
  have queued : ∀ x ∈ sys.1.l4sQueue ++ sys.1.classicQueue, x.size ≤ S :=
    fun x member => sizes' x (earlier x (conserved.mem_enqueued member))
  refine microStep_deficitsBounded step queued (fun waiting => ?_)
    (bounded (sized'.imp_right fun positive x member => positive x (earlier x member))
      fun x member => sizes' x (earlier x member))
  obtain ⟨x, member⟩ := exists_queued waiting
  exact sized'.elim id fun positive =>
    (positive x (earlier x (conserved.mem_enqueued member))).trans_le (queued x member)

theorem Reachable.deficitsBounded {h : History} (reach : Reachable cfg s h) (sized : 0 < S)
    (sizes : ∀ x ∈ h.enqueued, x.size ≤ S) : DeficitsBounded cfg S s := by
  obtain ⟨acts, exec⟩ := reach.micro
  exact microExec_deficitsBounded (.inr sized) (.inl sized) exec sizes

/-- Deficit bounds at both ends of a stretch bound the head bytes it charged, when the balance
moved by exactly `B_L - w · B_C`: each end's balance lies within one round and one item. -/
theorem DeficitsBounded.charges_within {s' : DualPi2QueueDisc α}
    (before : DeficitsBounded cfg S s) (after : DeficitsBounded cfg S s') {charged : Nat × Nat}
    (moved : balance cfg s = balance cfg s' + charged.1 - cfg.schedulingWeight * charged.2) :
    |(charged.1 : α) - cfg.schedulingWeight * charged.2| ≤
      2 * cfg.schedulingWeight * cfg.drrQuantum + (cfg.schedulingWeight + 1) * S := by
  have weight : (0 : α) < cfg.schedulingWeight := zero_lt_one.trans_le cfg.schedulingWeight_ge
  have classicBefore := mul_lt_mul_of_pos_left before.classic_lt weight
  have classicAfter := mul_lt_mul_of_pos_left after.classic_lt weight
  have nonnegBefore := mul_nonneg weight.le before.classic_nonneg
  have nonnegAfter := mul_nonneg weight.le after.classic_nonneg
  unfold balance at moved
  refine abs_le.mpr ⟨?_, ?_⟩ <;>
    linarith [before.ll_nonneg, before.ll_lt, after.ll_nonneg, after.ll_lt]

end Bounds

theorem microExec_enqueued {cfg : Config α} :
    ∀ {acts : List Action} {sys sys' : DualPi2QueueDisc α × History},
      microExec cfg sys acts = some sys' → ∀ x ∈ sys.2.enqueued, x ∈ sys'.2.enqueued
  | [], _, _, done => by cases done; exact fun _ member => member
  | a :: acts, sys, sys', done => by
    simp only [microExec] at done
    split at done
    · rename_i mid first
      exact fun x member => microExec_enqueued done x ((microStep_enqueued first).1 x member)
    · cases done

/-- A primitive call that finds both internal queues non-empty when it calls `Scheduler`, with
any eligibility, over queued items of positive size, moves the balance by exactly what it
charges. -/
theorem microStep_moves_balance {cfg : Config α} {sys mid : DualPi2QueueDisc α × History}
    {a : Action} (first : microStep cfg sys a = some mid)
    (backlogged : ∀ eligible, a = .schedule eligible →
      sys.1.l4sQueue ≠ [] ∧ sys.1.classicQueue ≠ [])
    (positive : ∀ x ∈ sys.1.l4sQueue ++ sys.1.classicQueue, 0 < x.size) :
    balance cfg sys.1 = balance cfg mid.1 + (stepCharges cfg sys.1 a).1 -
      cfg.schedulingWeight * (stepCharges cfg sys.1 a).2 := by
  obtain ⟨s, h⟩ := sys
  by_cases scheduled : ∃ eligible, a = .schedule eligible
  · obtain ⟨eligible, rfl⟩ := scheduled
    simp only [microStep] at first
    split at first
    · rename_i r s1 sched
      cases first
      simp only [stepCharges, sched]
      exact scheduler_moves_balance positive (backlogged _ rfl).1 (backlogged _ rfl).2 sched
    · cases first
  · have same := DualPi2QueueDisc.drr_eq
      (microStep_drr first fun eligible same => scheduled ⟨eligible, same⟩)
    have none : stepCharges cfg s a = (0, 0) := by
      cases a <;> first | rfl | exact absurd ⟨_, rfl⟩ scheduled
    simp [balance, none, same.2.1, same.2.2]

/-- Over a stretch of primitive calls of any kind with both internal queues non-empty at every
`Scheduler` call, the balance moves by exactly the bytes charged: `B_L - w · B_C`. -/
theorem microExec_moves_balance {cfg : Config α} :
    ∀ {stretch : List Action} {sys sys' : DualPi2QueueDisc α × History},
      microExec cfg sys stretch = some sys' →
      backloggedAtCalls cfg sys stretch = true → Conserved sys.1 sys.2 →
      (∀ x ∈ sys'.2.enqueued, 0 < x.size) →
      balance cfg sys.1 = balance cfg sys'.1 + (microCharges cfg sys stretch).1 -
        cfg.schedulingWeight * (microCharges cfg sys stretch).2
  | [], sys, sys', done, _, _, _ => by
    cases done
    simp [microCharges]
  | a :: stretch, sys, sys', done, backlogged, conserved, sizes => by
    simp only [microExec] at done
    cases first : microStep cfg sys a with
    | none => simp [first] at done
    | some mid =>
      simp only [first] at done
      simp only [backloggedAtCalls, first, Bool.and_eq_true] at backlogged
      have rest := microExec_moves_balance done backlogged.2
        (microStep_conserved first conserved) sizes
      have positive : ∀ x ∈ sys.1.l4sQueue ++ sys.1.classicQueue, 0 < x.size :=
        fun x member => sizes x (microExec_enqueued done x
          ((microStep_enqueued first).1 x (conserved.mem_enqueued member)))
      have called : ∀ eligible, a = .schedule eligible →
          sys.1.l4sQueue ≠ [] ∧ sys.1.classicQueue ≠ [] := by
        rintro eligible rfl
        simpa using backlogged.1
      simp only [microCharges, first, Prod.fst_add, Prod.snd_add, Nat.cast_add]
      rw [microStep_moves_balance first called positive, rest]
      ring

/-- A 100-byte Not-ECT item. -/
def smallClassicPacket : QueueDiscItem := ⟨2, 100, 0, some .notEct, by decide⟩

/-- `l4sPacket` and `smallClassicPacket` queued from the initial state. -/
def twoPacketState : DualPi2QueueDisc ℚ :=
  { initialState with l4sQueue := [l4sPacket], classicQueue := [smallClassicPacket] }

/-- The history of queueing `l4sPacket`, then `smallClassicPacket`. -/
def twoPacketHistory : History :=
  (History.empty.recordEnqueue l4sPacket true).recordEnqueue smallClassicPacket true

/-- With `l4sPacket` and `smallClassicPacket` queued, a `Scheduler` call to which both queues
are eligible starts a round and serves L4S, whose deficit holds nine quanta. -/
theorem twoPacketState_scheduled :
    scheduler defaultConfig twoPacketState (true, true) = .ok (.l4s, { twoPacketState with
      drrQueues := ⟨true, true⟩
      llDeficit := 12500
      classicDeficit := 1500 }) := by
  refine scheduler_of_first_pass ?_ (by decide) rfl
  simp [schedulerPass, startRound, twoPacketState, initialState, RoundMask.none, defaultConfig,
    l4sPacket]
  norm_num

end DualPi2

import DualPi2.Micro

namespace DualPi2

theorem TakesAfter.bytes_le {queue ds rest : List QueueDiscItem} {taken : Option QueueDiscItem}
    (takes : TakesAfter queue ds rest taken) : bytes rest ≤ bytes queue := by
  cases taken with
  | none => obtain ⟨rfl, rfl⟩ := takes; simp
  | some x => rw [show queue = _ from takes]; simp; omega

variable {α : Type} [LinearOrderedField α]

/-- `DoEnqueue` accepts only items that pass its `uint32_t` check. -/
theorem doEnqueue_check {cfg : Config α} {s : DualPi2QueueDisc α} {item : QueueDiscItem}
    (accepted : (doEnqueue cfg s item).1 = true) :
    (getQueueSize s + item.size) % uint32Size ≤ cfg.queueLimit := by
  unfold doEnqueue at accepted
  split_ifs at accepted with forced
  all_goals omega

/-- Every primitive call keeps what the history holds, and an enqueue adds its item. -/
theorem microStep_enqueued {cfg : Config α} {sys sys' : DualPi2QueueDisc α × History}
    {a : Action} (step : microStep cfg sys a = some sys') :
    (∀ x ∈ sys.2.enqueued, x ∈ sys'.2.enqueued) ∧
      ∀ item, a = .enqueue item → item ∈ sys'.2.enqueued := by
  obtain ⟨s, h⟩ := sys
  cases a with
  | enqueue item =>
    cases step
    exact ⟨fun x member => by simp [member], fun _ same => by cases same; simp⟩
  | schedule eligible =>
    simp only [microStep] at step
    split at step <;> cases step
    simp
  | update now =>
    simp only [microStep] at step
    split at step <;> cases step
    simp
  | dequeueL4s now staged =>
    simp only [microStep] at step
    split at step
    · cases step; simp
    · split at step
      · cases step; simp
      · split at step <;> cases step
        simp
    · cases step
  | dequeueClassic staged =>
    simp only [microStep] at step
    split at step
    · cases step; simp
    · split at step
      · cases step; simp
      · split at step <;> cases step
        simp
  | popL4sStaging =>
    simp only [microStep] at step
    split at step <;> cases step
    simp
  | popClassicStaging =>
    simp only [microStep] at step
    split at step <;> cases step
    simp
  | refreshSamples now => cases step; simp
  | topUp pendingMarks => cases step; simp

/-- Calls other than enqueues never grow the internal queues. -/
theorem microStep_bytes_le {cfg : Config α} {sys sys' : DualPi2QueueDisc α × History}
    {a : Action} (step : microStep cfg sys a = some sys') (other : ∀ item, a ≠ .enqueue item) :
    bytes sys'.1.classicQueue ≤ bytes sys.1.classicQueue ∧
      bytes sys'.1.l4sQueue ≤ bytes sys.1.l4sQueue := by
  obtain ⟨s, h⟩ := sys
  cases a with
  | enqueue item => exact absurd rfl (other item)
  | schedule eligible =>
    simp only [microStep] at step
    split at step
    · rename_i r s1 sched
      cases step
      simp [(scheduler_spec sched).1.queues]
    · cases step
  | update now =>
    simp only [microStep] at step
    split at step
    · rename_i s1 updated
      cases step
      obtain ⟨_, _, rfl⟩ := dualPi2Update_spec updated
      simp
    · cases step
  | dequeueL4s now staged =>
    simp only [microStep] at step
    split at step <;> rename_i deq
    · obtain ⟨_, _, _, _, _, rfl, takes, _⟩ := dequeueFromL4sLoop_spec deq
      cases step; exact ⟨le_rfl, takes.bytes_le⟩
    · obtain ⟨_, _, _, _, _, rfl, takes, _⟩ := dequeueFromL4sLoop_spec deq
      split at step
      · cases step; exact ⟨le_rfl, takes.bytes_le⟩
      · split at step <;> cases step
        exact ⟨le_rfl, takes.bytes_le⟩
    · cases step
  | dequeueClassic staged =>
    simp only [microStep] at step
    split at step <;> rename_i deq
    · obtain ⟨_, _, _, rfl, takes⟩ := dequeueFromClassicQueue_spec deq
      cases step; exact ⟨takes.bytes_le, le_rfl⟩
    · obtain ⟨_, _, _, rfl, takes⟩ := dequeueFromClassicQueue_spec deq
      split at step
      · cases step; exact ⟨takes.bytes_le, le_rfl⟩
      · split at step <;> cases step
        exact ⟨takes.bytes_le, le_rfl⟩
  | popL4sStaging =>
    simp only [microStep] at step
    split at step <;> cases step
    rename_i staged
    unfold dequeueFromL4sStagingQueue at staged
    split at staged <;> cases staged
    simp
  | popClassicStaging =>
    simp only [microStep] at step
    split at step <;> cases step
    rename_i staged
    unfold dequeueFromClassicStagingQueue at staged
    split at staged <;> cases staged
    simp
  | refreshSamples now => cases step; simp [refreshSamples]
  | topUp pendingMarks => cases step; simp

/-- While no item in the history is large enough for `DoEnqueue`'s `uint32_t` sum to wrap,
the internal queues hold at most `m_queueLimit` bytes. -/
def WithinLimit (cfg : Config α) (sys : DualPi2QueueDisc α × History) : Prop :=
  (∀ x ∈ sys.2.enqueued, x.size + cfg.queueLimit < uint32Size) →
    bytes sys.1.classicQueue + bytes sys.1.l4sQueue ≤ cfg.queueLimit

theorem microStep_withinLimit {cfg : Config α} {sys sys' : DualPi2QueueDisc α × History}
    {a : Action} (step : microStep cfg sys a = some sys') (within : WithinLimit cfg sys) :
    WithinLimit cfg sys' := by
  intro sizes'
  obtain ⟨kept, added⟩ := microStep_enqueued step
  have bound := within fun x member => sizes' x (kept x member)
  obtain ⟨s, h⟩ := sys
  dsimp only at bound
  cases a with
  | enqueue item =>
    cases step
    have itemSize := sizes' item (added item rfl)
    have limit := cfg.queueLimit_lt
    generalize run : doEnqueue cfg s item = result
    obtain ⟨accepted, s'⟩ := result
    have check : accepted = true → (getQueueSize s + item.size) % uint32Size ≤ cfg.queueLimit :=
      fun yes => doEnqueue_check (by rw [run, yes])
    rcases doEnqueue_cases run with ⟨-, _, rfl, -⟩ | ⟨rfl, -, rfl⟩ | ⟨rfl, -, rfl⟩
    · exact bound
    all_goals
      have wrapped := check rfl
      rw [getQueueSize_eq_bytes (by omega), Nat.mod_eq_of_lt (by omega)] at wrapped
      simp only [bytes_append, bytes_cons, bytes_nil]
      omega
  | _ =>
    have shrinks := microStep_bytes_le step (by simp)
    dsimp only at shrinks
    omega

theorem Reachable.withinLimit {cfg : Config α} {s : DualPi2QueueDisc α} {h : History}
    (reach : Reachable cfg s h)
    (sizes : ∀ x ∈ h.enqueued, x.size + cfg.queueLimit < uint32Size) :
    bytes s.classicQueue + bytes s.l4sQueue ≤ cfg.queueLimit := by
  obtain ⟨acts, exec⟩ := reach.micro
  exact microExec_invariant (WithinLimit cfg) (fun _ _ _ step => microStep_withinLimit step) exec
    (fun _ => Nat.zero_le _) sizes

/-- The largest `m_queueLimit` the attribute admits, with the other defaults. -/
def wideLimitConfig : Config ℚ :=
  { defaultConfig with queueLimit := 4294967295, queueLimit_lt := by decide }

/-- A 1000-byte ECT(1) item. -/
def l4sPacket : QueueDiscItem := ⟨1, 1000, 0, some .ect1, by decide⟩

/-- `DoEnqueue` accepts `l4sPacket` into the empty L4S queue. -/
theorem l4sPacket_reachable :
    Reachable defaultConfig { initialState with l4sQueue := [l4sPacket] }
      (History.empty.recordEnqueue l4sPacket true) := by
  have stepped : step defaultConfig (initialState, History.empty) (.enqueue l4sPacket) =
      .ok ({ initialState with l4sQueue := [l4sPacket] },
        History.empty.recordEnqueue l4sPacket true) := by
    simp [step, doEnqueue, internalEnqueue, getQueueSize, getNBytes, initialState, l4sPacket,
      isL4s, Ecn.bits, defaultConfig, uint32Size]
  exact .next .start stepped

/-- In every reachable state of a run whose items are too small for `DoEnqueue`'s `uint32_t`
sum to wrap, the internal queues hold at most `m_queueLimit` bytes, and `GetQueueSize ()` is
their exact byte count. -/
theorem reachable_within_queueLimit {cfg : Config α} {s : DualPi2QueueDisc α} {h : History}
    (reach : Reachable cfg s h)
    (sizes : ∀ x ∈ h.enqueued, x.size + cfg.queueLimit < uint32Size) :
    getQueueSize s = bytes s.classicQueue + bytes s.l4sQueue ∧
      bytes s.classicQueue + bytes s.l4sQueue ≤ cfg.queueLimit := by
  have within := reach.withinLimit sizes
  exact ⟨getQueueSize_eq_bytes (lt_of_le_of_lt within cfg.queueLimit_lt), within⟩

/-- After `l4sPacket` is queued, `GetQueueSize ()` is its 1000 bytes, within the default limit. -/
theorem reachable_within_queueLimit_one_packet :
    (∀ x ∈ (History.empty.recordEnqueue l4sPacket true).enqueued,
      x.size + defaultConfig.queueLimit < uint32Size) ∧
    getQueueSize ({ initialState with l4sQueue := [l4sPacket] } : DualPi2QueueDisc ℚ) =
        bytes ({ initialState with l4sQueue := [l4sPacket] } : DualPi2QueueDisc ℚ).classicQueue +
          bytes ({ initialState with l4sQueue := [l4sPacket] } : DualPi2QueueDisc ℚ).l4sQueue ∧
      bytes ({ initialState with l4sQueue := [l4sPacket] } : DualPi2QueueDisc ℚ).classicQueue +
          bytes ({ initialState with l4sQueue := [l4sPacket] } : DualPi2QueueDisc ℚ).l4sQueue ≤
        defaultConfig.queueLimit := by
  have sizes : ∀ x ∈ (History.empty.recordEnqueue l4sPacket true).enqueued,
      x.size + defaultConfig.queueLimit < uint32Size := by
    simp [History.recordEnqueue, History.empty, l4sPacket, defaultConfig, uint32Size]
  exact ⟨sizes, reachable_within_queueLimit l4sPacket_reachable sizes⟩

/-- A Not-ECT item of `2^32 - 500` bytes. -/
def hugeClassicPacket : QueueDiscItem := ⟨2, 4294966796, 0, some .notEct, by decide⟩

/-- Behind 1000 queued bytes, `GetQueueSize () + GetSize ()` wraps to 500, so `DoEnqueue`
accepts the large item and the internal queues then hold `2^32 + 500` bytes, past
`m_queueLimit`. -/
theorem doEnqueue_wraps_past_queueLimit :
    ∃ s h, Reachable wideLimitConfig s h ∧
      (doEnqueue wideLimitConfig s hugeClassicPacket).1 = true ∧
      wideLimitConfig.queueLimit <
        bytes s.classicQueue + bytes s.l4sQueue + hugeClassicPacket.size ∧
      bytes (doEnqueue wideLimitConfig s hugeClassicPacket).2.classicQueue +
        bytes (doEnqueue wideLimitConfig s hugeClassicPacket).2.l4sQueue = uint32Size + 500 := by
  have stepped : step wideLimitConfig (initialState, History.empty) (.enqueue l4sPacket) =
      .ok ({ initialState with l4sQueue := [l4sPacket] },
        History.empty.recordEnqueue l4sPacket true) := by
    simp [step, doEnqueue, internalEnqueue, getQueueSize, getNBytes, initialState, l4sPacket,
      isL4s, Ecn.bits, wideLimitConfig, uint32Size]
  refine ⟨_, _, .next .start stepped, ?_, by decide, ?_⟩ <;>
    simp [doEnqueue, internalEnqueue, getQueueSize, getNBytes, initialState, l4sPacket,
      hugeClassicPacket, isL4s, Ecn.bits, wideLimitConfig, uint32Size]

end DualPi2

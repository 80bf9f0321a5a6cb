import DualPi2.Drain

namespace DualPi2

variable {α : Type} [LinearOrderedField α]

/-- What the L4S AQM reads and writes: the L4S queue, its `Recur` counter and `p_L`, the
probabilities `p_CL` and `p_C` it reads, and the items it has dropped. -/
def DualPi2QueueDisc.l4sSide (s : DualPi2QueueDisc α) :
    List QueueDiscItem × α × α × α × α × List QueueDiscItem :=
  (s.l4sQueue, s.l4sCount, s.pL, s.pCL, s.pC, s.droppedWith .unforcedL4sDrop)

/-- What the Classic AQM reads and writes: the Classic queue and its `Recur` counter, the
probability `p_C` it reads, and the items it has dropped. -/
def DualPi2QueueDisc.classicSide (s : DualPi2QueueDisc α) :
    List QueueDiscItem × α × α × List QueueDiscItem :=
  (s.classicQueue, s.classicCount, s.pC, s.droppedWith .unforcedClassicDrop)

omit [LinearOrderedField α] in
@[simp] theorem droppedWith_drop (s : DualPi2QueueDisc α) (reason r : DropReason)
    (qdItem : QueueDiscItem) :
    (s.drop reason qdItem).droppedWith r = s.droppedWith r ++ if reason = r then [qdItem] else [] :=
  DualPi2QueueDisc.droppedWith_of_dropped
    (show (s.drop reason qdItem).dropped = s.dropped ++ [qdItem].map (reason, ·) from rfl) r

section L4s

variable {cfg : Config α} {now : Int}

omit [LinearOrderedField α] in
theorem markL4s_side (fire : Bool) (qdItem : QueueDiscItem) {s t : DualPi2QueueDisc α}
    (same : s.l4sSide = t.l4sSide) :
    (markL4s fire qdItem s).map (fun r => (r.1, r.2.1, r.2.2.l4sSide)) =
      (markL4s fire qdItem t).map (fun r => (r.1, r.2.1, r.2.2.l4sSide)) := by
  unfold markL4s
  split
  · split <;> simp only [Except.map, same]
  · simp only [Except.map, same]

omit [LinearOrderedField α] in
theorem l4sSide_snd_congr {s t : DualPi2QueueDisc α} (count : s.l4sCount = t.l4sCount)
    (pL : s.pL = t.pL) (pCL : s.pCL = t.pCL) (pC : s.pC = t.pC)
    (drops : s.droppedWith .unforcedL4sDrop = t.droppedWith .unforcedL4sDrop) :
    s.l4sSide.2 = t.l4sSide.2 := by
  simp only [DualPi2QueueDisc.l4sSide, count, pL, pCL, pC, drops]

/-- The L4S AQM loop hands out, marks and drops the same items, and leaves the same L4S side,
from any two states that agree on the L4S side but for the queue it is given. -/
theorem dequeueFromL4sLoop_side :
    ∀ (queue : List QueueDiscItem) {s t : DualPi2QueueDisc α}, s.l4sSide.2 = t.l4sSide.2 →
      (dequeueFromL4sLoop cfg now queue s).map (fun r => (r.1, r.2.1, r.2.2.l4sSide)) =
        (dequeueFromL4sLoop cfg now queue t).map (fun r => (r.1, r.2.1, r.2.2.l4sSide))
  | [], s, t, same => by
    show Except.ok (none, false, ([], s.l4sSide.2)) = Except.ok (none, false, ([], t.l4sSide.2))
    rw [same]
  | qdItem :: rest, s, t, same => by
    obtain ⟨count, pL, pCL, pC, drops⟩ : s.l4sCount = t.l4sCount ∧ s.pL = t.pL ∧
        s.pCL = t.pCL ∧ s.pC = t.pC ∧
        s.droppedWith .unforcedL4sDrop = t.droppedWith .unforcedL4sDrop := by
      simpa only [DualPi2QueueDisc.l4sSide, Prod.mk.injEq] using same
    simp only [dequeueFromL4sLoop, count, pCL, pC]
    by_cases below : t.pCL < cfg.pLmax
    · simp only [below, ↓reduceIte]
      exact markL4s_side _ qdItem (Prod.ext rfl (l4sSide_snd_congr rfl rfl rfl rfl drops))
    · by_cases fires : (recur t.l4sCount t.pC).1 = true
      · simp only [below, fires, ↓reduceIte]
        refine dequeueFromL4sLoop_side rest ?_
        refine l4sSide_snd_congr rfl pL rfl rfl ?_
        simp only [droppedWith_drop, if_true]
        exact congrArg (· ++ [qdItem]) drops
      · simp only [below, fires, ↓reduceIte]
        refine markL4s_side _ qdItem (Prod.ext rfl ?_)
        exact l4sSide_snd_congr rfl pL rfl rfl drops

/-- The L4S AQM, called from a state with the same L4S side, returns the same item and mark
and leaves the same L4S side. -/
theorem dequeueFromL4sQueue_of_side {s s' a : DualPi2QueueDisc α} {r : Option QueueDiscItem}
    {marked : Bool} (run : dequeueFromL4sQueue cfg now s = .ok (r, marked, s'))
    (same : s.l4sSide = a.l4sSide) :
    ∃ a', dequeueFromL4sQueue cfg now a = .ok (r, marked, a') ∧ a'.l4sSide = s'.l4sSide := by
  have agree := @dequeueFromL4sLoop_side α _ cfg now s.l4sQueue s a (congrArg Prod.snd same)
  unfold dequeueFromL4sQueue at run ⊢
  rw [show a.l4sQueue = s.l4sQueue from (congrArg Prod.fst same).symm]
  rcases alone : dequeueFromL4sLoop cfg now s.l4sQueue a with message | ⟨r', marked', a'⟩
  · rw [run, alone] at agree
    cases agree
  · rw [run, alone] at agree
    simp only [Except.map, Except.ok.injEq, Prod.mk.injEq] at agree
    obtain ⟨rfl, rfl, side⟩ := agree
    exact ⟨a', rfl, side.symm⟩

end L4s

section Classic

variable {cfg : Config α}

omit [LinearOrderedField α] in
theorem classicSide_snd_congr {s t : DualPi2QueueDisc α} (count : s.classicCount = t.classicCount)
    (pC : s.pC = t.pC)
    (drops : s.droppedWith .unforcedClassicDrop = t.droppedWith .unforcedClassicDrop) :
    s.classicSide.2 = t.classicSide.2 := by
  simp only [DualPi2QueueDisc.classicSide, count, pC, drops]

/-- The Classic AQM's drop loop hands out and drops the same items, and leaves the same
Classic side, from any two states that agree on the Classic side but for the queue it is
given. -/
theorem dequeueFromClassicLoop_side :
    ∀ (queue : List QueueDiscItem) (dropped : Bool) {s t : DualPi2QueueDisc α},
      s.classicSide.2 = t.classicSide.2 →
      (fun r => (r.1, r.2.1, r.2.2.classicSide)) (dequeueFromClassicLoop cfg queue dropped s) =
        (fun r => (r.1, r.2.1, r.2.2.classicSide)) (dequeueFromClassicLoop cfg queue dropped t)
  | [], dropped, s, t, same => by
    show (none, dropped, ([], s.classicSide.2)) = (none, dropped, ([], t.classicSide.2))
    rw [same]
  | qdItem :: rest, dropped, s, t, same => by
    obtain ⟨count, pC, drops⟩ : s.classicCount = t.classicCount ∧ s.pC = t.pC ∧
        s.droppedWith .unforcedClassicDrop = t.droppedWith .unforcedClassicDrop := by
      simpa only [DualPi2QueueDisc.classicSide, Prod.mk.injEq] using same
    simp only [dequeueFromClassicLoop, count, pC]
    by_cases fires : ((recur t.classicCount t.pC).1 || decide (t.pC ≥ cfg.pCmax)) = true
    · simp only [fires, ↓reduceIte]
      refine dequeueFromClassicLoop_side rest true ?_
      refine classicSide_snd_congr rfl rfl ?_
      simp only [droppedWith_drop, if_true]
      exact congrArg (· ++ [qdItem]) drops
    · simp only [fires, ↓reduceIte, Bool.false_eq_true]
      exact congrArg (fun side => (some qdItem, dropped, side))
        (Prod.ext rfl (classicSide_snd_congr rfl rfl drops))

/-- The Classic AQM hands out and drops the same items, and leaves the same Classic side,
from any two states with the same Classic side. -/
theorem dequeueFromClassicQueue_side {s t : DualPi2QueueDisc α}
    (same : s.classicSide = t.classicSide) :
    (fun r => (r.1, r.2.1, r.2.2.classicSide)) (dequeueFromClassicQueue cfg s) =
      (fun r => (r.1, r.2.1, r.2.2.classicSide)) (dequeueFromClassicQueue cfg t) := by
  have queue : s.classicQueue = t.classicQueue := congrArg Prod.fst same
  unfold dequeueFromClassicQueue
  rw [queue]
  split
  · exact congrArg (fun side => (none, false, side)) same
  · rename_i qdItem rest _
    split_ifs
    · exact congrArg (fun side => (some qdItem, false, (rest, side))) (congrArg Prod.snd same)
    · exact dequeueFromClassicLoop_side _ false (congrArg Prod.snd same)

/-- The Classic AQM, called from a state with the same Classic side, returns the same item
and leaves the same Classic side. -/
theorem dequeueFromClassicQueue_of_side {s s' b : DualPi2QueueDisc α} {r : Option QueueDiscItem}
    {dropped : Bool} (run : dequeueFromClassicQueue cfg s = (r, dropped, s'))
    (same : s.classicSide = b.classicSide) :
    ∃ b', dequeueFromClassicQueue cfg b = (r, dropped, b') ∧ b'.classicSide = s'.classicSide := by
  have agree := @dequeueFromClassicQueue_side α _ cfg s b same
  rcases alone : dequeueFromClassicQueue cfg b with ⟨r', dropped', b'⟩
  rw [run, alone] at agree
  simp only [Prod.mk.injEq] at agree
  obtain ⟨rfl, rfl, side⟩ := agree
  exact ⟨b', rfl, side.symm⟩

end Classic

theorem dequeueFromL4sQueue_classicSide {cfg : Config α} {now : Int}
    {s s' : DualPi2QueueDisc α} {r : Option QueueDiscItem} {marked : Bool}
    (run : dequeueFromL4sQueue cfg now s = .ok (r, marked, s')) :
    s'.classicSide = s.classicSide := by
  obtain ⟨ds, rest, taken, count, pL, rfl, -⟩ := dequeueFromL4sLoop_spec run
  simp only [DualPi2QueueDisc.classicSide, DualPi2QueueDisc.droppedWith, List.filter_append,
    List.map_append, pairs_filter_map]
  simp

theorem dequeueFromClassicQueue_l4sSide {cfg : Config α} {s s' : DualPi2QueueDisc α}
    {r : Option QueueDiscItem} {dropped : Bool}
    (run : dequeueFromClassicQueue cfg s = (r, dropped, s')) : s'.l4sSide = s.l4sSide := by
  obtain ⟨ds, rest, count, rfl, -⟩ := dequeueFromClassicQueue_spec run
  simp only [DualPi2QueueDisc.l4sSide, DualPi2QueueDisc.droppedWith, List.filter_append,
    List.map_append, pairs_filter_map]
  simp

theorem dequeueFromL4sQueue_shorter {cfg : Config α} {now : Int} {s s' : DualPi2QueueDisc α}
    {y : QueueDiscItem} {marked : Bool}
    (run : dequeueFromL4sQueue cfg now s = .ok (some y, marked, s')) :
    s'.l4sQueue.length < s.l4sQueue.length := by
  have fewer := (dequeueFromL4sQueue_framed run).2
  have classic : s'.classicQueue = s.classicQueue :=
    congrArg Prod.fst (dequeueFromL4sQueue_classicSide run)
  simp only [getNPackets, classic] at fewer
  omega

theorem dequeueFromClassicQueue_shorter {cfg : Config α} {s s' : DualPi2QueueDisc α}
    {y : QueueDiscItem} {dropped : Bool}
    (run : dequeueFromClassicQueue cfg s = (some y, dropped, s')) :
    s'.classicQueue.length < s.classicQueue.length := by
  have fewer := (dequeueFromClassicQueue_framed run).2.2
  have l4s : s'.l4sQueue = s.l4sQueue := congrArg Prod.fst (dequeueFromClassicQueue_l4sSide run)
  simp only [getNPackets, l4s] at fewer
  omega

omit [LinearOrderedField α] in
theorem DualPi2QueueDisc.DrrFrame.sides {s s' : DualPi2QueueDisc α} (frame : s.DrrFrame s') :
    s'.l4sSide = s.l4sSide ∧ s'.classicSide = s.classicSide := by
  rw [frame]; exact ⟨rfl, rfl⟩

/-- `DequeueFromL4sQueue` called alone, at most `calls` times at time `now`, until it returns
no item: the items it returns, in order, and the state after the last call. -/
def dequeueAllL4s (cfg : Config α) (now : Int) :
    Nat → DualPi2QueueDisc α → Except String (List QueueDiscItem × DualPi2QueueDisc α)
  | 0, s => .ok ([], s)
  | calls + 1, s =>
    match dequeueFromL4sQueue cfg now s with
    | .error message => .error message
    | .ok (none, _, s) => .ok ([], s)
    | .ok (some qdItem, _, s) =>
      match dequeueAllL4s cfg now calls s with
      | .error message => .error message
      | .ok (rest, s) => .ok (qdItem :: rest, s)

/-- `DequeueFromClassicQueue` called alone, at most `calls` times, until it returns no item:
the items it returns, in order, and the state after the last call. -/
def dequeueAllClassic (cfg : Config α) :
    Nat → DualPi2QueueDisc α → List QueueDiscItem × DualPi2QueueDisc α
  | 0, s => ([], s)
  | calls + 1, s =>
    match dequeueFromClassicQueue cfg s with
    | (none, _, s) => ([], s)
    | (some qdItem, _, s) =>
      let r := dequeueAllClassic cfg calls s
      (qdItem :: r.1, r.2)

section Alone

variable {cfg : Config α} {now : Int}

theorem dequeueAllL4s_of_empty {s : DualPi2QueueDisc α} (empty : s.l4sQueue = []) {calls : Nat}
    (some : 0 < calls) : dequeueAllL4s cfg now calls s = .ok ([], s) := by
  obtain ⟨c, rfl⟩ : ∃ c, calls = c + 1 := ⟨calls - 1, by omega⟩
  have idle : dequeueFromL4sQueue cfg now s = .ok (none, false, s) := by
    cases s; cases empty; rfl
  simp only [dequeueAllL4s, idle]

theorem dequeueAllClassic_of_empty {s : DualPi2QueueDisc α} (empty : s.classicQueue = [])
    {calls : Nat} (some : 0 < calls) : dequeueAllClassic cfg calls s = ([], s) := by
  obtain ⟨c, rfl⟩ : ∃ c, calls = c + 1 := ⟨calls - 1, by omega⟩
  simp only [dequeueAllClassic, dequeueFromClassicQueue, empty]

theorem dequeueAll_of_silent {u u2 : DualPi2QueueDisc α}
    (silent : doDequeue cfg now u = doDequeue cfg now u2) (calls : Nat) :
    dequeueAll cfg now (calls + 1) u = dequeueAll cfg now (calls + 1) u2 := by
  simp only [dequeueAll, silent]

end Alone

/-- From a drainable state, successive `DoDequeue` calls hand out an interleaving of what the
L4S AQM and the Classic AQM hand out when each is called alone from any state with its side,
and leave each side as that AQM's own run leaves it. The induction follows the items handed
out: each call either serves one AQM, which the other does not see, or finds its queue
emptied by drops, which ends that AQM's alone run. -/
theorem Drainable.separate {cfg : Config α} (quantum : 0 < cfg.drrQuantum) (now : Int) :
    ∀ n {u a b : DualPi2QueueDisc α}, Drainable cfg u → getNPackets u < n →
      u.l4sSide = a.l4sSide → u.classicSide = b.classicSide →
      ∃ xs t aL bC, (∀ calls, getNPackets u < calls → dequeueAll cfg now calls u = .ok (xs, t)) ∧
        (∀ calls, a.l4sQueue.length < calls →
          dequeueAllL4s cfg now calls a = .ok (xs.filter isL4s, aL)) ∧
        (∀ calls, b.classicQueue.length < calls →
          dequeueAllClassic cfg calls b = (xs.filter (!isL4s ·), bC)) ∧
        t.l4sSide = aL.l4sSide ∧ t.classicSide = bC.classicSide
  | 0, _, _, _, _, bound, _, _ => absurd bound (Nat.not_lt_zero _)
  | n + 1, u, a, b, d, bound, sameL, sameC => by
    have queueL : u.l4sQueue = a.l4sQueue := congrArg Prod.fst sameL
    have queueC : u.classicQueue = b.classicQueue := congrArg Prod.fst sameC
    by_cases waiting : getNPackets u = 0
    · have lengths : u.l4sQueue.length = 0 ∧ u.classicQueue.length = 0 := by
        unfold getNPackets at waiting; omega
      have emptyL := List.eq_nil_of_length_eq_zero lengths.1
      have emptyC := List.eq_nil_of_length_eq_zero lengths.2
      refine ⟨[], u, a, b, fun _ more => d.dequeueAll_of_empty emptyL emptyC (by omega),
        fun _ more => dequeueAllL4s_of_empty (queueL ▸ emptyL) (by omega),
        fun _ more => dequeueAllClassic_of_empty (queueC ▸ emptyC) (by omega), sameL, sameC⟩
    obtain ⟨u1, u2, taken, frame, d2, fewer, silent, takes, served⟩ := d.iterate quantum now waiting
    rcases served with ⟨-, ⟨m, deq⟩, emptied, l4s⟩ | ⟨-, ⟨dr, deq⟩, emptied, classic⟩
    · obtain ⟨a2, alone, sideA⟩ := dequeueFromL4sQueue_of_side deq (frame.sides.1.trans sameL)
      have sideC := (dequeueFromL4sQueue_classicSide deq).trans (frame.sides.2.trans sameC)
      obtain ⟨xs, t, aL, bC, merged, runL, runC, endL, endC⟩ :=
        Drainable.separate quantum now n d2 (by omega) sideA.symm sideC
      cases taken with
      | none =>
        have emptyA : a2.l4sQueue = [] := (congrArg Prod.fst sideA).trans (emptied rfl)
        have first := runL 1 (by rw [emptyA]; decide)
        rw [dequeueAllL4s_of_empty emptyA Nat.one_pos, Except.ok.injEq, Prod.mk.injEq] at first
        obtain ⟨nothing, rfl⟩ := first
        refine ⟨xs, t, a2, bC, fun calls more => ?_, fun calls more => ?_, runC, endL, endC⟩
        · obtain ⟨c, rfl⟩ : ∃ c, calls = c + 1 := ⟨calls - 1, by omega⟩
          rw [dequeueAll_of_silent (silent rfl).1]
          exact merged _ (by omega)
        · obtain ⟨c, rfl⟩ : ∃ c, calls = c + 1 := ⟨calls - 1, by omega⟩
          simp only [dequeueAllL4s, alone, ← nothing]
      | some y =>
        have shorter := dequeueFromL4sQueue_shorter alone
        refine ⟨y :: xs, t, aL, bC, fun calls more => ?_, fun calls more => ?_,
          fun calls more => ?_, endL, endC⟩
        · obtain ⟨c, rfl⟩ : ∃ c, calls = c + 1 := ⟨calls - 1, by omega⟩
          simp only [dequeueAll, (takes y rfl).1, merged c (by omega)]
        · obtain ⟨c, rfl⟩ : ∃ c, calls = c + 1 := ⟨calls - 1, by omega⟩
          simp only [dequeueAllL4s, alone, runL c (by omega), List.filter_cons, l4s y rfl, if_true]
        · simp only [List.filter_cons, l4s y rfl, Bool.not_true, Bool.false_eq_true, if_false]
          exact runC calls more
    · obtain ⟨b2, alone, sideB⟩ := dequeueFromClassicQueue_of_side deq (frame.sides.2.trans sameC)
      have sideL := (dequeueFromClassicQueue_l4sSide deq).trans (frame.sides.1.trans sameL)
      obtain ⟨xs, t, aL, bC, merged, runL, runC, endL, endC⟩ :=
        Drainable.separate quantum now n d2 (by omega) sideL sideB.symm
      cases taken with
      | none =>
        have emptyB : b2.classicQueue = [] := (congrArg Prod.fst sideB).trans (emptied rfl)
        have first := runC 1 (by rw [emptyB]; decide)
        rw [dequeueAllClassic_of_empty emptyB Nat.one_pos, Prod.mk.injEq] at first
        obtain ⟨nothing, rfl⟩ := first
        refine ⟨xs, t, aL, b2, fun calls more => ?_, runL, fun calls more => ?_, endL, endC⟩
        · obtain ⟨c, rfl⟩ : ∃ c, calls = c + 1 := ⟨calls - 1, by omega⟩
          rw [dequeueAll_of_silent (silent rfl).1]
          exact merged _ (by omega)
        · obtain ⟨c, rfl⟩ : ∃ c, calls = c + 1 := ⟨calls - 1, by omega⟩
          simp only [dequeueAllClassic, alone, ← nothing]
      | some y =>
        have shorter := dequeueFromClassicQueue_shorter alone
        refine ⟨y :: xs, t, aL, bC, fun calls more => ?_, fun calls more => ?_,
          fun calls more => ?_, endL, endC⟩
        · obtain ⟨c, rfl⟩ : ∃ c, calls = c + 1 := ⟨calls - 1, by omega⟩
          simp only [dequeueAll, (takes y rfl).1, merged c (by omega)]
        · simp only [List.filter_cons, classic y rfl, Bool.false_eq_true, if_false]
          exact runL calls more
        · obtain ⟨c, rfl⟩ : ∃ c, calls = c + 1 := ⟨calls - 1, by omega⟩
          simp only [dequeueAllClassic, alone, runC c (by omega), List.filter_cons, classic y rfl,
            Bool.not_false, if_true]

/-- In every reachable state of a run whose items have a positive size too small for
`DoEnqueue`'s `uint32_t` sum to wrap, with nothing staged, successive `DoDequeue` calls at the
same time hand out the L4S items, marked as they are, exactly as `DequeueFromL4sQueue` called
alone until it returns nothing hands them out, and the Classic items exactly as
`DequeueFromClassicQueue` alone; and each AQM's queue, `Recur` counter, probabilities and drops
end as its own run leaves them. The WDRR scheduler only interleaves the two streams. -/
theorem reachable_dequeues_interleave_aqms {cfg : Config α} (quantum : 0 < cfg.drrQuantum)
    {s : DualPi2QueueDisc α} {h : History} (reach : Reachable cfg s h)
    (sizes : ∀ x ∈ h.enqueued, 0 < x.size ∧ x.size + cfg.queueLimit < uint32Size)
    (now : Int) :
    ∃ xs t aL bC, (∀ calls, getNPackets s < calls →
        dequeueAll cfg now calls (s.restage [] []) = .ok (xs, t)) ∧
      (∀ calls, s.l4sQueue.length < calls →
        dequeueAllL4s cfg now calls s = .ok (xs.filter isL4s, aL)) ∧
      (∀ calls, s.classicQueue.length < calls →
        dequeueAllClassic cfg calls s = (xs.filter (!isL4s ·), bC)) ∧
      t.l4sSide = aL.l4sSide ∧ t.classicSide = bC.classicSide :=
  (reach.drainable sizes).separate quantum now _ (Nat.lt_succ_self _) rfl rfl

/-- From `l4sPacket` and `smallClassicPacket` queued, the two `DoDequeue` calls hand out what
each AQM alone hands out. -/
theorem reachable_dequeues_interleave_aqms_two_packets :
    0 < defaultConfig.drrQuantum ∧
      (∀ x ∈ twoPacketHistory.enqueued,
        0 < x.size ∧ x.size + defaultConfig.queueLimit < uint32Size) ∧
      ∃ xs t aL bC, (∀ calls, getNPackets twoPacketState < calls →
          dequeueAll defaultConfig 0 calls (twoPacketState.restage [] []) = .ok (xs, t)) ∧
        (∀ calls, twoPacketState.l4sQueue.length < calls →
          dequeueAllL4s defaultConfig 0 calls twoPacketState = .ok (xs.filter isL4s, aL)) ∧
        (∀ calls, twoPacketState.classicQueue.length < calls →
          dequeueAllClassic defaultConfig calls twoPacketState = (xs.filter (!isL4s ·), bC)) ∧
        t.l4sSide = aL.l4sSide ∧ t.classicSide = bC.classicSide :=
  ⟨by decide, twoPacketHistory_sizes,
    reachable_dequeues_interleave_aqms (by decide) twoPacketState_reachable
      twoPacketHistory_sizes 0⟩

end DualPi2

import DualPi2.Probability

namespace DualPi2

variable {α : Type} [LinearOrderedField α]

/-- The mark step of `DequeueFromL4sQueue`: when `Recur` fired, `Mark` the item and assert
that the mark succeeded. Returns the item, `marked` and the state. -/
def markL4s (fire : Bool) (qdItem : QueueDiscItem) (s : DualPi2QueueDisc α) :
    Except String (Option QueueDiscItem × Bool × DualPi2QueueDisc α) :=
  if fire then
    match qdItem.mark with
    | (true, item) => .ok (some item, true, s)
    | (false, _) => .error "Make sure we can mark in L4S queue"
  else .ok (some qdItem, false, s)

/-- The `while (qdItem)` loop of `DequeueFromL4sQueue` over the L4S queue as `Dequeue` pops
it. Below the overload point `p_L = min (max (p'_L, p_CL), 1)` drives `Recur`, with `p'_L`
from `Laqm` while more than `m_thLen` packets stay queued; in overload `Recur` on `p_C`
drops the item and the loop pops the next one, and `Recur` on `p_CL` marks. -/
def dequeueFromL4sLoop (cfg : Config α) (now : Int) :
    List QueueDiscItem → DualPi2QueueDisc α →
      Except String (Option QueueDiscItem × Bool × DualPi2QueueDisc α)
  | [], s => .ok (none, false, { s with l4sQueue := [] })
  | qdItem :: rest, s =>
    let s := { s with l4sQueue := rest }
    if s.pCL < cfg.pLmax then
      let pPrimeL := if rest.length > cfg.thLen then laqm cfg (now - qdItem.timeStamp) else 0
      let pL := min (max pPrimeL s.pCL) 1
      let r := recur s.l4sCount pL
      markL4s r.1 qdItem { s with pL := pL, l4sCount := r.2 }
    else
      let r := recur s.l4sCount s.pC
      if r.1 then
        dequeueFromL4sLoop cfg now rest ({ s with l4sCount := r.2 }.drop .unforcedL4sDrop qdItem)
      else
        let r' := recur r.2 s.pCL
        markL4s r'.1 qdItem { s with l4sCount := r'.2 }

/-- `DequeueFromL4sQueue`. -/
def dequeueFromL4sQueue (cfg : Config α) (now : Int) (s : DualPi2QueueDisc α) :
    Except String (Option QueueDiscItem × Bool × DualPi2QueueDisc α) :=
  dequeueFromL4sLoop cfg now s.l4sQueue s

/-- The `while (qdItem)` loop of `DequeueFromClassicQueue`, entered once the queue behind
the popped item held at least 2·MTU bytes, over the Classic queue as `Dequeue` pops it:
`Recur` on `p_C`, or `p_C ≥ p_Cmax`, drops the item and pops the next one, with no new
2·MTU check. Returns the item, `dropped` and the state. -/
def dequeueFromClassicLoop (cfg : Config α) :
    List QueueDiscItem → Bool → DualPi2QueueDisc α →
      Option QueueDiscItem × Bool × DualPi2QueueDisc α
  | [], dropped, s => (none, dropped, { s with classicQueue := [] })
  | qdItem :: rest, dropped, s =>
    let s := { s with classicQueue := rest }
    let r := recur s.classicCount s.pC
    if r.1 || s.pC ≥ cfg.pCmax then
      dequeueFromClassicLoop cfg rest true
        ({ s with classicCount := r.2 }.drop .unforcedClassicDrop qdItem)
    else (some qdItem, dropped, { s with classicCount := r.2 })

/-- `DequeueFromClassicQueue`: pop the head, and return it untouched while fewer than
2·MTU bytes (in `uint32_t`) stay queued behind it. -/
def dequeueFromClassicQueue (cfg : Config α) (s : DualPi2QueueDisc α) :
    Option QueueDiscItem × Bool × DualPi2QueueDisc α :=
  match s.classicQueue with
  | [] => (none, false, s)
  | qdItem :: rest =>
    if getNBytes rest < 2 * cfg.mtu % uint32Size then
      (some qdItem, false, { s with classicQueue := rest })
    else dequeueFromClassicLoop cfg (qdItem :: rest) false s

/-- A dequeue that drops the prefix `ds` of `queue` and then takes its next item, leaving
`rest`, or finds nothing left. -/
def TakesAfter (queue ds rest : List QueueDiscItem) : Option QueueDiscItem → Prop
  | none => queue = ds ∧ rest = []
  | some x => queue = ds ++ x :: rest

/-- The item as `DequeueFromL4sQueue` hands it back: set to CE when it was marked. -/
def QueueDiscItem.markedIf (marked : Bool) (item : QueueDiscItem) : QueueDiscItem :=
  if marked then item.withCe else item

@[simp] theorem markedIf_false (item : QueueDiscItem) : item.markedIf false = item := rfl

@[simp] theorem markedIf_true (item : QueueDiscItem) : item.markedIf true = item.withCe := rfl

omit [LinearOrderedField α] in
theorem markL4s_spec {fire marked : Bool} {qdItem : QueueDiscItem} {r : Option QueueDiscItem}
    {s s' : DualPi2QueueDisc α} (run : markL4s fire qdItem s = .ok (r, marked, s')) :
    s' = s ∧ r = some (qdItem.markedIf marked) ∧ (marked = true → qdItem.mark.1 = true) := by
  unfold markL4s at run
  split at run
  · split at run
    · rename_i item marks
      cases run
      obtain ⟨success, same, -⟩ | ⟨failure, -⟩ := mark_spec qdItem
      · simp only [marks] at same
        simp [same, marks]
      · simp [marks] at failure
    · cases run
  · cases run
    simp

/-- One call of `DequeueFromL4sQueue`'s loop drops a prefix of the queue and takes the next
item, if any, marked or not; it writes only the queue, the drop record, `m_l4sCount` and
`m_pL`, and a written `p_L` is `min (max (p'_L, p_CL), 1)` for a `p'_L` in `[0, 1]`. -/
theorem dequeueFromL4sLoop_spec {cfg : Config α} {now : Int} :
    ∀ {queue : List QueueDiscItem} {s s' : DualPi2QueueDisc α} {r : Option QueueDiscItem}
      {marked : Bool}, dequeueFromL4sLoop cfg now queue s = .ok (r, marked, s') →
    ∃ ds rest taken count pL, s' = { s with
        l4sQueue := rest
        dropped := s.dropped ++ ds.map (.unforcedL4sDrop, ·)
        l4sCount := count
        pL := pL } ∧
      TakesAfter queue ds rest taken ∧ r = taken.map (QueueDiscItem.markedIf marked) ∧
      (marked = true → ∃ x, taken = some x ∧ x.mark.1 = true) ∧
      (pL = s.pL ∨ ∃ p : α, 0 ≤ p ∧ p ≤ 1 ∧ pL = min (max p s.pCL) 1)
  | [], s, s', r, marked, run => by
    simp only [dequeueFromL4sLoop, Except.ok.injEq, Prod.mk.injEq] at run
    obtain ⟨rfl, rfl, rfl⟩ := run
    exact ⟨[], [], none, s.l4sCount, s.pL, by simp, ⟨rfl, rfl⟩, rfl, by simp, .inl rfl⟩
  | qdItem :: rest, s, s', r, marked, run => by
    simp only [dequeueFromL4sLoop] at run
    split at run
    · obtain ⟨rfl, rfl, marks⟩ := markL4s_spec run
      refine ⟨[], rest, some qdItem, _, _, by simp only [List.map_nil, List.append_nil]; rfl,
        rfl, rfl, fun yes => ⟨qdItem, rfl, marks yes⟩, .inr ⟨_, ?_, ?_, rfl⟩⟩
      · split
        · exact laqm_nonneg cfg _
        · exact le_rfl
      · split
        · exact laqm_le_one cfg _
        · exact zero_le_one
    · split at run
      · obtain ⟨ds, rest', taken, count, pL, rfl, takes, result, marks, written⟩ :=
          dequeueFromL4sLoop_spec run
        refine ⟨qdItem :: ds, rest', taken, count, pL, by simp [DualPi2QueueDisc.drop], ?_,
          result, marks, by simpa using written⟩
        cases taken <;> simp_all [TakesAfter]
      · obtain ⟨rfl, rfl, marks⟩ := markL4s_spec run
        exact ⟨[], rest, some qdItem, _, s.pL, by simp only [List.map_nil, List.append_nil]; rfl,
          rfl, rfl, fun yes => ⟨qdItem, rfl, marks yes⟩, .inl rfl⟩

/-- One call of `DequeueFromClassicQueue`'s loop drops a prefix of the queue and takes the
next item unchanged, if any; it writes only the queue, the drop record and
`m_classicCount`. -/
theorem dequeueFromClassicLoop_spec {cfg : Config α} :
    ∀ {queue : List QueueDiscItem} {dropped : Bool} {s s' : DualPi2QueueDisc α}
      {r : Option QueueDiscItem} {dropped' : Bool},
      dequeueFromClassicLoop cfg queue dropped s = (r, dropped', s') →
    ∃ ds rest count, s' = { s with
        classicQueue := rest
        dropped := s.dropped ++ ds.map (.unforcedClassicDrop, ·)
        classicCount := count } ∧ TakesAfter queue ds rest r
  | [], dropped, s, s', r, dropped', run => by
    simp only [dequeueFromClassicLoop, Prod.mk.injEq] at run
    obtain ⟨rfl, -, rfl⟩ := run
    exact ⟨[], [], s.classicCount, by simp, rfl, rfl⟩
  | qdItem :: rest, dropped, s, s', r, dropped', run => by
    simp only [dequeueFromClassicLoop] at run
    split at run
    · obtain ⟨ds, rest', count, rfl, takes⟩ := dequeueFromClassicLoop_spec run
      refine ⟨qdItem :: ds, rest', count, by simp [DualPi2QueueDisc.drop], ?_⟩
      cases r <;> simp_all [TakesAfter]
    · simp only [Prod.mk.injEq] at run
      obtain ⟨rfl, -, rfl⟩ := run
      exact ⟨[], rest, (recur s.classicCount s.pC).2, by simp, rfl⟩

/-- What `DequeueFromClassicQueue` does: drop a prefix of the Classic queue and take the
next item unchanged, if any, writing only the queue, the drop record and
`m_classicCount`. -/
theorem dequeueFromClassicQueue_spec {cfg : Config α} {s s' : DualPi2QueueDisc α}
    {r : Option QueueDiscItem} {dropped : Bool}
    (run : dequeueFromClassicQueue cfg s = (r, dropped, s')) :
    ∃ ds rest count, s' = { s with
        classicQueue := rest
        dropped := s.dropped ++ ds.map (.unforcedClassicDrop, ·)
        classicCount := count } ∧ TakesAfter s.classicQueue ds rest r := by
  unfold dequeueFromClassicQueue at run
  split at run
  · rename_i empty
    simp only [Prod.mk.injEq] at run
    obtain ⟨rfl, -, rfl⟩ := run
    exact ⟨[], [], s.classicCount, by cases s; simp_all, by simp [TakesAfter, empty]⟩
  · rename_i qdItem rest popped
    rw [popped]
    split at run
    · simp only [Prod.mk.injEq] at run
      obtain ⟨rfl, -, rfl⟩ := run
      exact ⟨[], rest, s.classicCount, by simp, rfl⟩
    · exact dequeueFromClassicLoop_spec run

/-- In Classic overload (`p_C ≥ p_Cmax`) the loop drops every item it pops and returns
nothing. -/
theorem dequeueFromClassicLoop_overload {cfg : Config α} :
    ∀ {queue : List QueueDiscItem} {dropped : Bool} {s : DualPi2QueueDisc α},
      cfg.pCmax ≤ s.pC → (dequeueFromClassicLoop cfg queue dropped s).1 = none ∧
        (dequeueFromClassicLoop cfg queue dropped s).2.2.dropped =
          s.dropped ++ queue.map (.unforcedClassicDrop, ·)
  | [], _, _, _ => by simp [dequeueFromClassicLoop]
  | qdItem :: rest, dropped, s, overload => by
    have next := @dequeueFromClassicLoop_overload cfg rest true
      ({ s with classicQueue := rest, classicCount := (recur s.classicCount s.pC).2 }.drop
        .unforcedClassicDrop qdItem) overload
    simp only [dequeueFromClassicLoop, ge_iff_le, overload, decide_True, Bool.or_true,
      ↓reduceIte]
    refine ⟨next.1, ?_⟩
    rw [next.2]
    simp [DualPi2QueueDisc.drop]

/-- Four Classic packets of an MTU-sized burst and a 1000-byte tail, in overload. -/
def classicOverloadState : DualPi2QueueDisc ℚ :=
  { initialState with
    classicQueue := [⟨1, 1500, 0, some .notEct, by decide⟩,
      ⟨2, 1500, 0, some .notEct, by decide⟩, ⟨3, 1500, 0, some .notEct, by decide⟩,
      ⟨4, 1000, 0, some .notEct, by decide⟩]
    baseProb := 1
    pCL := 1
    pC := 1 }

/-- The 2·MTU check runs only once: after the first drop, the packet whose removal leaves
1000 < 2·MTU bytes is dropped too, and the call empties the queue and returns nothing. -/
theorem dequeueFromClassicQueue_drops_last_two_mtu :
    (dequeueFromClassicQueue defaultConfig classicOverloadState).1 = none ∧
      (dequeueFromClassicQueue defaultConfig classicOverloadState).2.2.droppedWith
        .unforcedClassicDrop = classicOverloadState.classicQueue ∧
      bytes (classicOverloadState.classicQueue.drop 2) < 2 * defaultConfig.mtu := by
  have overload : defaultConfig.pCmax ≤ classicOverloadState.pC := by
    norm_num [Config.pCmax, defaultConfig, classicOverloadState]
  have popped : dequeueFromClassicQueue defaultConfig classicOverloadState =
      dequeueFromClassicLoop defaultConfig classicOverloadState.classicQueue false
        classicOverloadState := rfl
  obtain ⟨none, all⟩ := @dequeueFromClassicLoop_overload _ _ _ classicOverloadState.classicQueue
    false _ overload
  rw [popped, DualPi2QueueDisc.droppedWith, all]
  refine ⟨none, ?_, by decide⟩
  simp [classicOverloadState, initialState]


end DualPi2

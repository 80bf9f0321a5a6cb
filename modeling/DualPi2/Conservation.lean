import DualPi2.Capacity

namespace DualPi2

/-- `y` is the item `x` as the discipline may have left it: unchanged, or an L4S item set to
CE. -/
def Evolved (x y : QueueDiscItem) : Prop := y = x ∨ (isL4s x = true ∧ y = x.withCe)

theorem Evolved.refl (x : QueueDiscItem) : Evolved x x := .inl rfl

theorem Evolved.isL4s_eq {x y : QueueDiscItem} (evolved : Evolved x y) : isL4s y = isL4s x := by
  rcases evolved with rfl | ⟨l4s, rfl⟩
  · rfl
  · simp [l4s]

theorem Evolved.trans {x y z : QueueDiscItem} (first : Evolved x y) (second : Evolved y z) :
    Evolved x z := by
  rcases first with rfl | ⟨l4s, rfl⟩
  · exact second
  · rcases second with rfl | ⟨-, rfl⟩ <;> exact .inr ⟨l4s, by simp⟩

theorem Evolved.eq_of_classic {x y : QueueDiscItem} (evolved : Evolved x y)
    (classic : isL4s x = false) : y = x := by
  rcases evolved with rfl | ⟨l4s, -⟩
  · rfl
  · simp [classic] at l4s

/-- `Interleave R dropped kept accepted`: `accepted` merges `dropped` and `kept` in order;
a dropped item is unchanged and a kept item is related by `R` to its original. -/
inductive Interleave (R : QueueDiscItem → QueueDiscItem → Prop) :
    List QueueDiscItem → List QueueDiscItem → List QueueDiscItem → Prop
  | nil : Interleave R [] [] []
  | dropped {d k a} (x : QueueDiscItem) : Interleave R d k a → Interleave R (x :: d) k (x :: a)
  | kept {d k a} {x y : QueueDiscItem} : R x y → Interleave R d k a →
      Interleave R d (y :: k) (x :: a)

namespace Interleave

variable {R : QueueDiscItem → QueueDiscItem → Prop}

theorem all_dropped : ∀ ds : List QueueDiscItem, Interleave R ds [] ds
  | [] => .nil
  | x :: ds => .dropped x (all_dropped ds)

theorem append {d k a d' k' a' : List QueueDiscItem} (first : Interleave R d k a)
    (second : Interleave R d' k' a') : Interleave R (d ++ d') (k ++ k') (a ++ a') := by
  induction first with
  | nil => exact second
  | dropped x _ ih => exact .dropped x ih
  | kept related _ ih => exact .kept related ih

theorem append_dropped {d k a : List QueueDiscItem} (ds : List QueueDiscItem)
    (merged : Interleave R d k a) : Interleave R (d ++ ds) k (a ++ ds) := by
  simpa using merged.append (all_dropped ds)

theorem snoc_kept {d k a : List QueueDiscItem} {x y : QueueDiscItem} (merged : Interleave R d k a)
    (related : R x y) : Interleave R d (k ++ [y]) (a ++ [x]) := by
  simpa using merged.append (.kept related .nil)

/-- Kept items may evolve further. -/
theorem evolve {d k a : List QueueDiscItem} (merged : Interleave Evolved d k a) :
    ∀ {k'}, List.Forall₂ Evolved k k' → Interleave Evolved d k' a := by
  induction merged with
  | nil => intro k' step; cases step; exact .nil
  | dropped x _ ih => intro k' step; exact .dropped x (ih step)
  | kept related _ ih =>
    intro k' step
    cases step with
    | cons head tail => exact .kept (related.trans head) (ih tail)

/-- Kept and dropped items keep the class of their originals. -/
theorem isL4s_eq {d k a : List QueueDiscItem} (merged : Interleave Evolved d k a) {c : Bool}
    (same : ∀ x ∈ a, isL4s x = c) :
    (∀ x ∈ d, isL4s x = c) ∧ ∀ y ∈ k, isL4s y = c := by
  induction merged with
  | nil => simp
  | dropped x _ ih =>
    obtain ⟨dropped, kept⟩ := ih fun z member => same z (List.mem_cons_of_mem _ member)
    exact ⟨by simpa [same x (List.mem_cons_self _ _)] using dropped, kept⟩
  | @kept _ _ _ x y related _ ih =>
    obtain ⟨dropped, kept⟩ := ih fun z member => same z (List.mem_cons_of_mem _ member)
    refine ⟨dropped, ?_⟩
    simpa [related.isL4s_eq, same x (List.mem_cons_self _ _)] using kept

theorem mem_kept {d k a : List QueueDiscItem} (merged : Interleave R d k a) {y : QueueDiscItem}
    (member : y ∈ k) : ∃ x ∈ a, R x y := by
  induction merged with
  | nil => simp at member
  | dropped x _ ih =>
    obtain ⟨z, inA, related⟩ := ih member
    exact ⟨z, List.mem_cons_of_mem _ inA, related⟩
  | @kept _ _ _ x y' related _ ih =>
    rcases List.mem_cons.mp member with rfl | later
    · exact ⟨x, List.mem_cons_self _ _, related⟩
    · obtain ⟨z, inA, related'⟩ := ih later
      exact ⟨z, List.mem_cons_of_mem _ inA, related'⟩

theorem mem_dropped {d k a : List QueueDiscItem} (merged : Interleave R d k a) {y : QueueDiscItem}
    (member : y ∈ d) : y ∈ a := by
  induction merged with
  | nil => simp at member
  | dropped x _ ih =>
    rcases List.mem_cons.mp member with rfl | later
    · exact List.mem_cons_self _ _
    · exact List.mem_cons_of_mem _ (ih later)
  | kept _ _ ih => exact List.mem_cons_of_mem _ (ih member)

/-- The items of `accepted` are, as a multiset of uids, the dropped and the kept ones. -/
theorem uids_eq {d k a : List QueueDiscItem} (merged : Interleave R d k a)
    (uid_eq : ∀ x y, R x y → y.uid = x.uid) :
    (a.map QueueDiscItem.uid : Multiset Nat) =
      d.map QueueDiscItem.uid + k.map QueueDiscItem.uid := by
  induction merged with
  | nil => rfl
  | dropped x _ ih => simp only [List.map_cons, ← Multiset.cons_coe, ih, Multiset.cons_add]
  | kept related _ ih =>
    simp only [List.map_cons, ← Multiset.cons_coe, ih, Multiset.add_cons, uid_eq _ _ related]

end Interleave

theorem Evolved.uid_eq {x y : QueueDiscItem} (evolved : Evolved x y) : y.uid = x.uid := by
  rcases evolved with rfl | ⟨-, rfl⟩ <;> rfl

/-- The items of one class, `true` for L4S, in order. -/
def ofClass (l4s : Bool) (items : List QueueDiscItem) : List QueueDiscItem :=
  items.filter (isL4s · == l4s)

@[simp] theorem ofClass_nil (l4s : Bool) : ofClass l4s [] = [] := rfl

@[simp] theorem ofClass_append (l4s : Bool) (xs ys : List QueueDiscItem) :
    ofClass l4s (xs ++ ys) = ofClass l4s xs ++ ofClass l4s ys := List.filter_append _ _

@[simp] theorem ofClass_singleton (l4s : Bool) (x : QueueDiscItem) :
    ofClass l4s [x] = if isL4s x = l4s then [x] else [] := by
  by_cases same : isL4s x = l4s <;> simp [ofClass, List.filter_cons, same]

theorem ofClass_uids (items : List QueueDiscItem) :
    (items.map QueueDiscItem.uid : Multiset Nat) =
      (ofClass true items).map QueueDiscItem.uid + (ofClass false items).map QueueDiscItem.uid := by
  induction items with
  | nil => rfl
  | cons x rest ih =>
    cases l4s : isL4s x <;>
      simp [ofClass, List.filter_cons, l4s, ← Multiset.cons_coe, ih, Multiset.add_cons]

theorem isL4s_of_mem_ofClass {l4s : Bool} {items : List QueueDiscItem} {x : QueueDiscItem}
    (member : x ∈ ofClass l4s items) : isL4s x = l4s := by
  simpa [ofClass] using (List.mem_filter.mp member).2

/-- The drop reason of a class's AQM. -/
def aqmDropReason : Bool → DropReason
  | true => .unforcedL4sDrop
  | false => .unforcedClassicDrop

/-- The reasons for which `DoEnqueue` refuses an item. -/
def DropReason.rejects : DropReason → Bool
  | .forcedDrop => true
  | .internalQueueDrop => true
  | _ => false

theorem pairs_filter_map (reason r : DropReason) :
    ∀ ds : List QueueDiscItem,
      ((ds.map (reason, ·)).filter (·.1 == r)).map (·.2) = if reason = r then ds else []
  | [] => by simp
  | x :: ds => by
    have rest := pairs_filter_map reason r ds
    by_cases same : reason = r
    · subst same
      simp_all [List.filter_cons]
    · simp_all [List.filter_cons]

theorem pairs_filter_rejects (reason : DropReason) :
    ∀ ds : List QueueDiscItem,
      ((ds.map (reason, ·)).filter (·.1.rejects)).map (·.2) = if reason.rejects then ds else []
  | [] => by simp
  | x :: ds => by
    by_cases rejects : reason.rejects <;>
      simp [List.filter_cons, rejects, pairs_filter_rejects reason ds]

variable {α : Type}

/-- The internal queue of a class. -/
def DualPi2QueueDisc.internalQueue (s : DualPi2QueueDisc α) : Bool → List QueueDiscItem
  | true => s.l4sQueue
  | false => s.classicQueue

/-- The staging queue of a class. -/
def DualPi2QueueDisc.stagingQueue (s : DualPi2QueueDisc α) : Bool → List QueueDiscItem
  | true => s.l4sStagingQueue
  | false => s.classicStagingQueue

/-- The items `DoEnqueue` refused, oldest first. -/
def DualPi2QueueDisc.rejected (s : DualPi2QueueDisc α) : List QueueDiscItem :=
  (s.dropped.filter (·.1.rejects)).map (·.2)

theorem DualPi2QueueDisc.droppedWith_of_dropped {s s' : DualPi2QueueDisc α} {reason : DropReason}
    {ds : List QueueDiscItem} (dropped : s'.dropped = s.dropped ++ ds.map (reason, ·))
    (r : DropReason) : s'.droppedWith r = s.droppedWith r ++ if reason = r then ds else [] := by
  simp only [DualPi2QueueDisc.droppedWith, dropped, List.filter_append, List.map_append,
    pairs_filter_map]

theorem DualPi2QueueDisc.rejected_of_dropped {s s' : DualPi2QueueDisc α} {reason : DropReason}
    {ds : List QueueDiscItem} (dropped : s'.dropped = s.dropped ++ ds.map (reason, ·)) :
    s'.rejected = s.rejected ++ if reason.rejects then ds else [] := by
  simp only [DualPi2QueueDisc.rejected, dropped, List.filter_append, List.map_append,
    pairs_filter_rejects]

/-- Class `l4s` of a run: its accepted items are its AQM-dropped items merged in order with
its returned and staged items, followed by its queued items. -/
def ClassOrdered (s : DualPi2QueueDisc α) (h : History) (l4s : Bool) : Prop :=
  ∃ pre, ofClass l4s h.accepted = pre ++ s.internalQueue l4s ∧
    Interleave Evolved (s.droppedWith (aqmDropReason l4s))
      (ofClass l4s h.returned ++ s.stagingQueue l4s) pre

/-- Every item passed to `DoEnqueue` was refused or accepted, in order, and each class keeps
its accepted items in order. -/
def Conserved (s : DualPi2QueueDisc α) (h : History) : Prop :=
  Interleave (· = ·) s.rejected h.accepted h.enqueued ∧ ∀ l4s, ClassOrdered s h l4s

theorem ClassOrdered.congr {s s' : DualPi2QueueDisc α} {h h' : History} {l4s : Bool}
    (ordered : ClassOrdered s h l4s) (queue : s'.internalQueue l4s = s.internalQueue l4s)
    (staging : s'.stagingQueue l4s = s.stagingQueue l4s)
    (dropped : s'.droppedWith (aqmDropReason l4s) = s.droppedWith (aqmDropReason l4s))
    (accepted : ofClass l4s h'.accepted = ofClass l4s h.accepted)
    (returned : ofClass l4s h'.returned = ofClass l4s h.returned) : ClassOrdered s' h' l4s := by
  unfold ClassOrdered
  rw [queue, staging, dropped, accepted, returned]
  exact ordered

theorem ClassOrdered.isL4s_queue {s : DualPi2QueueDisc α} {h : History} {l4s : Bool}
    (ordered : ClassOrdered s h l4s) {x : QueueDiscItem} (member : x ∈ s.internalQueue l4s) :
    isL4s x = l4s := by
  obtain ⟨pre, split, -⟩ := ordered
  exact isL4s_of_mem_ofClass (split ▸ List.mem_append_right pre member)

theorem ClassOrdered.isL4s_staging {s : DualPi2QueueDisc α} {h : History} {l4s : Bool}
    (ordered : ClassOrdered s h l4s) {y : QueueDiscItem} (member : y ∈ s.stagingQueue l4s) :
    isL4s y = l4s := by
  obtain ⟨pre, split, merged⟩ := ordered
  refine (merged.isL4s_eq fun x inPre => ?_).2 y (List.mem_append_right _ member)
  exact isL4s_of_mem_ofClass (split ▸ List.mem_append_left _ inPre)

/-- A class's AQM dequeue drops `ds` and hands on `out`, an evolved form of the item it
took, if any. -/
theorem ClassOrdered.take {s s' : DualPi2QueueDisc α} {h h' : History} {l4s : Bool}
    {ds rest : List QueueDiscItem} {taken out : Option QueueDiscItem}
    (ordered : ClassOrdered s h l4s) (takes : TakesAfter (s.internalQueue l4s) ds rest taken)
    (evolved : ∀ x, taken = some x → ∃ y, out = some y ∧ Evolved x y)
    (unevolved : taken = none → out = none)
    (queue : s'.internalQueue l4s = rest)
    (dropped : s'.droppedWith (aqmDropReason l4s) = s.droppedWith (aqmDropReason l4s) ++ ds)
    (accepted : ofClass l4s h'.accepted = ofClass l4s h.accepted)
    (kept : ofClass l4s h'.returned ++ s'.stagingQueue l4s =
      ofClass l4s h.returned ++ s.stagingQueue l4s ++ out.toList) :
    ClassOrdered s' h' l4s := by
  obtain ⟨pre, split, merged⟩ := ordered
  unfold ClassOrdered
  rw [queue, dropped, accepted, kept]
  cases taken with
  | none =>
    obtain ⟨same, rfl⟩ := takes
    rw [same] at split
    rw [unevolved rfl]
    exact ⟨pre ++ ds, by simpa using split, by simpa using merged.append_dropped ds⟩
  | some x =>
    obtain ⟨y, rfl, related⟩ := evolved x rfl
    rw [takes] at split
    exact ⟨pre ++ ds ++ [x], by simpa using split, (merged.append_dropped ds).snoc_kept related⟩

/-- An accepted item joins the tail of its class's internal queue. -/
theorem ClassOrdered.enqueue {s s' : DualPi2QueueDisc α} {h h' : History} {l4s : Bool}
    {item : QueueDiscItem} (ordered : ClassOrdered s h l4s) (same : isL4s item = l4s)
    (queue : s'.internalQueue l4s = s.internalQueue l4s ++ [item])
    (staging : s'.stagingQueue l4s = s.stagingQueue l4s)
    (dropped : s'.droppedWith (aqmDropReason l4s) = s.droppedWith (aqmDropReason l4s))
    (accepted : h'.accepted = h.accepted ++ [item]) (returned : h'.returned = h.returned) :
    ClassOrdered s' h' l4s := by
  obtain ⟨pre, split, merged⟩ := ordered
  refine ⟨pre, ?_, ?_⟩
  · simp [accepted, queue, split, same]
  · rwa [staging, dropped, returned]

/-- Returning the head of a class's staging queue keeps the class in order. -/
theorem ClassOrdered.pop {s s' : DualPi2QueueDisc α} {h h' : History} {l4s : Bool}
    {y : QueueDiscItem} {rest : List QueueDiscItem} (ordered : ClassOrdered s h l4s)
    (popped : s.stagingQueue l4s = y :: rest) (queue : s'.internalQueue l4s = s.internalQueue l4s)
    (staging : s'.stagingQueue l4s = rest)
    (dropped : s'.droppedWith (aqmDropReason l4s) = s.droppedWith (aqmDropReason l4s))
    (accepted : h'.accepted = h.accepted) (returned : h'.returned = h.returned ++ [y]) :
    ClassOrdered s' h' l4s := by
  have same := ordered.isL4s_staging (popped ▸ List.mem_cons_self y rest)
  obtain ⟨pre, split, merged⟩ := ordered
  refine ⟨pre, by rw [accepted, queue, split], ?_⟩
  rw [dropped, returned, staging]
  simpa [same, popped] using merged

theorem isL4s_of_isEct1 {item : QueueDiscItem} (ect1 : isEct1 item = true) : isL4s item = true := by
  unfold isEct1 at ect1
  unfold isL4s
  split at ect1 <;> simp_all

/-- The top-up sets ECT(1) items to CE and leaves the others. -/
theorem markPending_evolved : ∀ (pendingMarks : Nat) (items : List QueueDiscItem),
    List.Forall₂ Evolved items (markPending pendingMarks items)
  | 0, items => by rw [markPending]; exact List.forall₂_same.mpr fun x _ => .refl x
  | _ + 1, [] => .nil
  | pendingMarks + 1, item :: rest => by
    unfold markPending
    split
    · rename_i ect1
      have l4s := isL4s_of_isEct1 ect1
      exact .cons (by rw [mark_of_isL4s l4s]; exact .inr ⟨l4s, rfl⟩)
        (markPending_evolved pendingMarks rest)
    · exact .cons (.refl item) (markPending_evolved (pendingMarks + 1) rest)

theorem Conserved.frame {s s' : DualPi2QueueDisc α} {h : History} (conserved : Conserved s h)
    (queues : s'.l4sQueue = s.l4sQueue ∧ s'.classicQueue = s.classicQueue)
    (staging : s'.l4sStagingQueue = s.l4sStagingQueue ∧
      s'.classicStagingQueue = s.classicStagingQueue)
    (dropped : s'.dropped = s.dropped) : Conserved s' h := by
  obtain ⟨enqueued, ordered⟩ := conserved
  refine ⟨by rwa [DualPi2QueueDisc.rejected, dropped], fun l4s => (ordered l4s).congr ?_ ?_
    (by simp only [DualPi2QueueDisc.droppedWith, dropped]) rfl rfl⟩ <;>
    cases l4s <;> simp [DualPi2QueueDisc.internalQueue, DualPi2QueueDisc.stagingQueue, queues,
      staging]

/-- An AQM dequeue of class `l4s`, whatever becomes of the item it hands on, keeps every
class in order. -/
theorem Conserved.take {s s' : DualPi2QueueDisc α} {h h' : History} (l4s : Bool)
    {ds rest : List QueueDiscItem} {taken : Option QueueDiscItem} (out : Option QueueDiscItem)
    (conserved : Conserved s h)
    (takes : TakesAfter (s.internalQueue l4s) ds rest taken)
    (evolved : ∀ x, taken = some x → ∃ y, out = some y ∧ Evolved x y)
    (unevolved : taken = none → out = none)
    (queue : s'.internalQueue l4s = rest)
    (other : s'.internalQueue (!l4s) = s.internalQueue (!l4s))
    (otherStaging : s'.stagingQueue (!l4s) = s.stagingQueue (!l4s))
    (dropped : s'.dropped = s.dropped ++ ds.map (aqmDropReason l4s, ·))
    (enqueued : h'.enqueued = h.enqueued) (accepted : h'.accepted = h.accepted)
    (kept : ofClass l4s h'.returned ++ s'.stagingQueue l4s =
      ofClass l4s h.returned ++ s.stagingQueue l4s ++ out.toList)
    (otherReturned : ofClass (!l4s) h'.returned = ofClass (!l4s) h.returned) :
    Conserved s' h' := by
  obtain ⟨before, ordered⟩ := conserved
  have rejected : s'.rejected = s.rejected := by
    rw [DualPi2QueueDisc.rejected_of_dropped dropped]
    cases l4s <;> simp [aqmDropReason, DropReason.rejects]
  refine ⟨by rwa [rejected, enqueued, accepted], fun c => ?_⟩
  by_cases same : c = l4s
  · subst same
    exact (ordered c).take takes evolved unevolved queue
      (by simp [DualPi2QueueDisc.droppedWith_of_dropped dropped]) (by rw [accepted]) kept
  · obtain rfl : c = !l4s := by cases c <;> cases l4s <;> simp_all
    refine (ordered _).congr other otherStaging ?_ (by rw [accepted]) otherReturned
    rw [DualPi2QueueDisc.droppedWith_of_dropped dropped]
    cases l4s <;> simp [aqmDropReason]

variable [LinearOrderedField α]

theorem Conserved.initial : Conserved (initialState : DualPi2QueueDisc α) History.empty :=
  ⟨.nil, fun l4s => ⟨[], by cases l4s <;> rfl, by cases l4s <;> exact .nil⟩⟩

theorem Conserved.enqueue {cfg : Config α} {s : DualPi2QueueDisc α} {h : History}
    {item : QueueDiscItem} (conserved : Conserved s h) :
    Conserved (doEnqueue cfg s item).2 (h.recordEnqueue item (doEnqueue cfg s item).1) := by
  obtain ⟨enqueued, ordered⟩ := conserved
  generalize run : doEnqueue cfg s item = result
  obtain ⟨accepted, s'⟩ := result
  rcases doEnqueue_cases run with
    ⟨rfl, reason, rfl, reasons⟩ | ⟨rfl, l4s, rfl⟩ | ⟨rfl, classic, rfl⟩
  · have dropped : (s.drop reason item).dropped = s.dropped ++ [item].map (reason, ·) := rfl
    refine ⟨?_, fun c => (ordered c).congr (by cases c <;> rfl) (by cases c <;> rfl) ?_
      (by simp [History.recordEnqueue]) rfl⟩
    · rw [DualPi2QueueDisc.rejected_of_dropped dropped]
      rcases reasons with rfl | rfl <;>
        simpa [History.recordEnqueue, DropReason.rejects] using enqueued.append_dropped [item]
    · rw [DualPi2QueueDisc.droppedWith_of_dropped dropped]
      rcases reasons with rfl | rfl <;> cases c <;> simp [aqmDropReason]
  · refine ⟨by simpa [History.recordEnqueue] using enqueued.snoc_kept rfl, fun c => ?_⟩
    cases c
    · exact (ordered false).congr rfl rfl rfl (by simp [History.recordEnqueue, l4s]) rfl
    · exact (ordered true).enqueue l4s rfl rfl rfl (by simp [History.recordEnqueue]) rfl
  · refine ⟨by simpa [History.recordEnqueue] using enqueued.snoc_kept rfl, fun c => ?_⟩
    cases c
    · exact (ordered false).enqueue classic rfl rfl rfl (by simp [History.recordEnqueue]) rfl
    · exact (ordered true).congr rfl rfl rfl (by simp [History.recordEnqueue, classic]) rfl

omit [LinearOrderedField α] in
/-- Returning the head of the staging queue of class `l4s`. -/
theorem Conserved.pop {s s' : DualPi2QueueDisc α} {h : History} (l4s : Bool) {y : QueueDiscItem}
    {rest : List QueueDiscItem} (conserved : Conserved s h)
    (popped : s.stagingQueue l4s = y :: rest) (staging : s'.stagingQueue l4s = rest)
    (otherStaging : s'.stagingQueue (!l4s) = s.stagingQueue (!l4s))
    (queues : s'.l4sQueue = s.l4sQueue ∧ s'.classicQueue = s.classicQueue)
    (dropped : s'.dropped = s.dropped) : Conserved s' (h.recordReturn (some y)) := by
  obtain ⟨enqueued, ordered⟩ := conserved
  have same := (ordered l4s).isL4s_staging (popped ▸ List.mem_cons_self y rest)
  have internal : ∀ c, s'.internalQueue c = s.internalQueue c := by
    intro c; cases c <;> simp [DualPi2QueueDisc.internalQueue, queues]
  have drops : ∀ r, s'.droppedWith r = s.droppedWith r := by
    intro r; simp [DualPi2QueueDisc.droppedWith, dropped]
  refine ⟨by rwa [DualPi2QueueDisc.rejected, dropped], fun c => ?_⟩
  by_cases mine : c = l4s
  · subst mine
    exact (ordered c).pop popped (internal c) staging (drops _) rfl rfl
  · obtain rfl : c = !l4s := by cases c <;> cases l4s <;> simp_all
    refine (ordered _).congr (internal _) otherStaging (drops _) rfl ?_
    cases l4s <;> simp_all

/-- Every primitive call keeps every item accounted for and every class in order. -/
theorem microStep_conserved {cfg : Config α} {sys sys' : DualPi2QueueDisc α × History}
    {a : Action} (step : microStep cfg sys a = some sys') (conserved : Conserved sys.1 sys.2) :
    Conserved sys'.1 sys'.2 := by
  obtain ⟨s, h⟩ := sys
  cases a with
  | enqueue item => cases step; exact conserved.enqueue
  | update now =>
    simp only [microStep] at step
    split at step
    · rename_i s1 updated
      cases step
      obtain ⟨raw, curQ, rfl⟩ := dualPi2Update_spec updated
      exact conserved.frame ⟨rfl, rfl⟩ ⟨rfl, rfl⟩ rfl
    · cases step
  | schedule eligible =>
    simp only [microStep] at step
    split at step
    · rename_i r s1 sched
      cases step
      rw [(scheduler_spec sched).1]
      exact conserved.frame ⟨rfl, rfl⟩ ⟨rfl, rfl⟩ rfl
    · cases step
  | dequeueL4s now staged =>
    simp only [microStep] at step
    split at step
    · rename_i m s1 deq
      cases step
      obtain ⟨ds, rest, taken, count, pL, rfl, takes, result, -, -⟩ :=
        dequeueFromL4sLoop_spec deq
      obtain rfl : taken = none := by
        cases taken with
        | none => rfl
        | some t => simp at result
      exact conserved.take true none takes (by simp) (fun _ => rfl) rfl rfl rfl rfl rfl rfl
        (by simp [DualPi2QueueDisc.stagingQueue]) rfl
    · rename_i x m s1 deq
      obtain ⟨ds, rest, taken, count, pL, rfl, takes, result, -, -⟩ :=
        dequeueFromL4sLoop_spec deq
      obtain ⟨t, rfl, rfl⟩ : ∃ t, taken = some t ∧ x = t.markedIf m := by
        cases taken with
        | none => simp at result
        | some t => exact ⟨t, rfl, by simpa using result⟩
      have l4s : isL4s t = true :=
        (conserved.2 true).isL4s_queue (by rw [show s.internalQueue true = _ from takes]; simp)
      have evolved : Evolved t (t.markedIf m) := by
        cases m
        · exact .refl t
        · exact .inr ⟨l4s, rfl⟩
      have l4s' : isL4s (t.markedIf m) = true := by rw [evolved.isL4s_eq, l4s]
      have handed :
          ∀ x, some t = some x → ∃ y, some (t.markedIf m) = some y ∧ Evolved x y :=
        fun _ same => ⟨_, rfl, by cases same; exact evolved⟩
      split at step
      · cases step
        exact conserved.take true (some _) takes handed
          (by simp) rfl rfl rfl rfl rfl rfl
          (by simp [addToL4sStagingQueue, DualPi2QueueDisc.stagingQueue]) rfl
      · split at step
        · rename_i empty
          cases step
          have none : s.l4sStagingQueue = [] := by
            simpa [DualPi2QueueDisc.stagingEmpty] using (Bool.and_eq_true _ _).mp empty |>.1
          exact conserved.take true (some _) takes handed
            (by simp) rfl rfl rfl rfl rfl rfl
            (by simp [DualPi2QueueDisc.stagingQueue, none, l4s']) (by simp [l4s'])
        · cases step
    · cases step
  | dequeueClassic staged =>
    simp only [microStep] at step
    split at step
    · rename_i m s1 deq
      cases step
      obtain ⟨ds, rest, count, rfl, takes⟩ := dequeueFromClassicQueue_spec deq
      exact conserved.take false none takes (by simp) (fun _ => rfl) rfl rfl rfl rfl rfl rfl
        (by simp [DualPi2QueueDisc.stagingQueue]) rfl
    · rename_i x m s1 deq
      obtain ⟨ds, rest, count, rfl, takes⟩ := dequeueFromClassicQueue_spec deq
      have classic : isL4s x = false :=
        (conserved.2 false).isL4s_queue (by rw [show s.internalQueue false = _ from takes]; simp)
      have handed : ∀ y, some x = some y → ∃ z, some x = some z ∧ Evolved y z :=
        fun _ same => ⟨_, rfl, by cases same; exact .refl _⟩
      split at step
      · cases step
        exact conserved.take false (some _) takes handed
          (by simp) rfl rfl rfl rfl rfl rfl
          (by simp [addToClassicStagingQueue, DualPi2QueueDisc.stagingQueue]) rfl
      · split at step
        · rename_i empty
          cases step
          have none : s.classicStagingQueue = [] := by
            simpa [DualPi2QueueDisc.stagingEmpty] using (Bool.and_eq_true _ _).mp empty |>.2
          exact conserved.take false (some _) takes handed
            (by simp) rfl rfl rfl rfl rfl rfl
            (by simp [DualPi2QueueDisc.stagingQueue, none, classic]) (by simp [classic])
        · cases step
  | popL4sStaging =>
    cases staged : s.l4sStagingQueue with
    | nil => simp [microStep, dequeueFromL4sStagingQueue, staged] at step
    | cons y rest =>
      simp only [microStep, dequeueFromL4sStagingQueue, staged, Option.some.injEq] at step
      subst step
      exact conserved.pop true staged rfl rfl ⟨rfl, rfl⟩ rfl
  | popClassicStaging =>
    cases staged : s.classicStagingQueue with
    | nil => simp [microStep, dequeueFromClassicStagingQueue, staged] at step
    | cons y rest =>
      simp only [microStep, dequeueFromClassicStagingQueue, staged, Option.some.injEq] at step
      subst step
      exact conserved.pop false staged rfl rfl ⟨rfl, rfl⟩ rfl
  | refreshSamples now =>
    cases step
    exact conserved.frame ⟨rfl, rfl⟩ ⟨rfl, rfl⟩ rfl
  | topUp pendingMarks =>
    cases step
    obtain ⟨enqueued, ordered⟩ := conserved
    refine ⟨enqueued, fun c => ?_⟩
    cases c
    · exact (ordered false).congr rfl rfl rfl rfl rfl
    · obtain ⟨pre, split, merged⟩ := ordered true
      exact ⟨pre, split, merged.evolve (List.rel_append
        (List.forall₂_same.mpr fun x _ => .refl x) (markPending_evolved pendingMarks _))⟩

theorem Reachable.conserved {cfg : Config α} {s : DualPi2QueueDisc α} {h : History}
    (reach : Reachable cfg s h) : Conserved s h := by
  obtain ⟨acts, exec⟩ := reach.micro
  exact microExec_invariant (fun sys => Conserved sys.1 sys.2)
    (fun _ _ _ step conserved => microStep_conserved step conserved) exec Conserved.initial

/-- Every item passed to `DoEnqueue` was refused or accepted, in order. Every item passed to
`DoEnqueue` is, exactly once, refused, dropped by an AQM, queued, staged or returned; every
returned item was accepted. In each class the accepted items are the AQM-dropped ones merged
in order with the returned then staged ones, followed by the queued ones. -/
theorem reachable_items_conserved {cfg : Config α} {s : DualPi2QueueDisc α} {h : History}
    (reach : Reachable cfg s h) :
    Interleave (· = ·) s.rejected h.accepted h.enqueued ∧
      (h.enqueued.map QueueDiscItem.uid).Perm
        ((s.rejected ++ s.droppedWith .unforcedL4sDrop ++ s.droppedWith .unforcedClassicDrop ++
          s.l4sQueue ++ s.classicQueue ++ s.l4sStagingQueue ++ s.classicStagingQueue ++
          h.returned).map QueueDiscItem.uid) ∧
      (∀ y ∈ h.returned, ∃ x ∈ h.accepted, Evolved x y) ∧
      ∀ l4s : Bool, ∃ pre, ofClass l4s h.accepted = pre ++ s.internalQueue l4s ∧
        Interleave Evolved (s.droppedWith (aqmDropReason l4s))
          (ofClass l4s h.returned ++ s.stagingQueue l4s) pre := by
  obtain ⟨enqueued, ordered⟩ := reach.conserved
  obtain ⟨preL, splitL, mergedL⟩ := ordered true
  obtain ⟨preC, splitC, mergedC⟩ := ordered false
  refine ⟨enqueued, ?_, fun y member => ?_, ordered⟩
  · rw [← Multiset.coe_eq_coe]
    have accepted := ofClass_uids h.accepted
    rw [splitL, splitC] at accepted
    simp only [List.map_append, ← Multiset.coe_add] at accepted ⊢
    rw [enqueued.uids_eq fun _ _ same => same.symm ▸ rfl, accepted,
      mergedL.uids_eq fun _ _ => Evolved.uid_eq, mergedC.uids_eq fun _ _ => Evolved.uid_eq,
      ofClass_uids h.returned]
    simp only [List.map_append, ← Multiset.coe_add, DualPi2QueueDisc.internalQueue,
      DualPi2QueueDisc.stagingQueue, aqmDropReason]
    abel
  · have split := ofClass_uids h.returned
    cases l4s : isL4s y
    · obtain ⟨x, inPre, related⟩ := mergedC.mem_kept (List.mem_append_left _
        (List.mem_filter.mpr ⟨member, by simp [l4s]⟩))
      exact ⟨x, List.mem_of_mem_filter (splitC ▸ List.mem_append_left _ inPre), related⟩
    · obtain ⟨x, inPre, related⟩ := mergedL.mem_kept (List.mem_append_left _
        (List.mem_filter.mpr ⟨member, by simp [l4s]⟩))
      exact ⟨x, List.mem_of_mem_filter (splitL ▸ List.mem_append_left _ inPre), related⟩

/-- After `l4sPacket` is enqueued, the items refused and accepted interleave to the items
passed to `DoEnqueue`. -/
theorem reachable_items_conserved_one_packet :
    Interleave (· = ·)
      ({ initialState with l4sQueue := [l4sPacket] } : DualPi2QueueDisc ℚ).rejected
      (History.empty.recordEnqueue l4sPacket true).accepted
      (History.empty.recordEnqueue l4sPacket true).enqueued :=
  (reachable_items_conserved l4sPacket_reachable).1

end DualPi2

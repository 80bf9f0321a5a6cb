import Mathlib

namespace DualPi2

/-- `2^32`: every `uint32_t` of the source is a natural number below it, and its
arithmetic wraps modulo it. -/
def uint32Size : Nat := 4294967296

/-- The two ECN bits of an item's DS field, `tosByte & 0x3`. -/
inductive Ecn
  | notEct
  | ect1
  | ect0
  | ce
  deriving DecidableEq, Repr

/-- The value of `tosByte & 0x3` for a codepoint. -/
def Ecn.bits : Ecn → Nat
  | notEct => 0
  | ect1 => 1
  | ect0 => 2
  | ce => 3

/-- A queue disc item as the discipline reads it: the packet's uid, `GetSize()`, the
enqueue timestamp in nanoseconds and the ECN bits of its DS field, absent when
`GetUint8Value (QueueItem::IP_DSFIELD, ..)` fails. The other bits of the DS field are
never read. -/
structure QueueDiscItem where
  uid : Nat
  size : Nat
  timeStamp : Int
  dsField : Option Ecn
  size_lt : size < uint32Size
  deriving DecidableEq, Repr

/-- `IsL4s`: ECT(1) or CE in a readable DS field. -/
def isL4s (item : QueueDiscItem) : Bool :=
  match item.dsField with
  | some ecn => ecn.bits == 1 || ecn.bits == 3
  | none => false

/-- The item with its ECN bits set to CE. -/
def QueueDiscItem.withCe (item : QueueDiscItem) : QueueDiscItem :=
  { item with dsField := some .ce }

/-- Modelled from the spec: `QueueDiscItem::Mark` is not in src/. It sets the ECN bits to
CE and succeeds, and it fails on a Not-ECT packet and on an item without a DS field. -/
def QueueDiscItem.mark (item : QueueDiscItem) : Bool × QueueDiscItem :=
  match item.dsField with
  | some .notEct | none => (false, item)
  | some _ => (true, item.withCe)

/-- Total size of a list of items, without wrap-around. -/
def bytes : List QueueDiscItem → Nat
  | [] => 0
  | item :: items => item.size + bytes items

/-- Size of the head of line, `0` for an empty queue, as `Scheduler` reads it. -/
def headSize : List QueueDiscItem → Nat
  | [] => 0
  | item :: _ => item.size

@[simp] theorem bytes_nil : bytes [] = 0 := rfl

@[simp] theorem bytes_cons (item : QueueDiscItem) (items : List QueueDiscItem) :
    bytes (item :: items) = item.size + bytes items := rfl

@[simp] theorem bytes_append (xs ys : List QueueDiscItem) :
    bytes (xs ++ ys) = bytes xs + bytes ys := by
  induction xs with
  | nil => simp
  | cons x xs ih => simp only [List.cons_append, bytes_cons, ih]; omega

@[simp] theorem headSize_nil : headSize [] = 0 := rfl

@[simp] theorem headSize_cons (item : QueueDiscItem) (items : List QueueDiscItem) :
    headSize (item :: items) = item.size := rfl

@[simp] theorem withCe_uid (item : QueueDiscItem) : item.withCe.uid = item.uid := rfl

@[simp] theorem withCe_size (item : QueueDiscItem) : item.withCe.size = item.size := rfl

@[simp] theorem withCe_dsField (item : QueueDiscItem) : item.withCe.dsField = some .ce := rfl

@[simp] theorem withCe_withCe (item : QueueDiscItem) : item.withCe.withCe = item.withCe := rfl

@[simp] theorem isL4s_withCe (item : QueueDiscItem) : isL4s item.withCe = true := rfl

theorem bytes_eq_zero {items : List QueueDiscItem} (positive : ∀ item ∈ items, 0 < item.size) :
    bytes items = 0 ↔ items = [] := by
  cases items with
  | nil => simp
  | cons item rest =>
    have := positive item (List.mem_cons_self _ _)
    simp only [bytes_cons, reduceCtorEq, iff_false]
    omega

/-- A successful mark sets CE; a failed one leaves the item as it was. -/
theorem mark_spec (item : QueueDiscItem) :
    (item.mark.1 = true ∧ item.mark.2 = item.withCe ∧ item.dsField ≠ some .notEct ∧
        item.dsField ≠ none) ∨
      (item.mark.1 = false ∧ item.mark.2 = item ∧
        (item.dsField = some .notEct ∨ item.dsField = none)) := by
  unfold QueueDiscItem.mark
  split <;> simp_all

/-- Every L4S item can be marked. -/
theorem mark_of_isL4s {item : QueueDiscItem} (l4s : isL4s item = true) :
    item.mark = (true, item.withCe) := by
  unfold isL4s at l4s
  unfold QueueDiscItem.mark
  split <;> simp_all [Ecn.bits]

end DualPi2

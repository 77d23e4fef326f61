import GuestVM.Proofs.Heap.Survival

/-! # Histories of a heap

A heap begins empty and comes to be what it is by operations.  Whatever they are, in whatever order,
the heap stays *accounted*: it is tidy, and the number of live objects that it keeps and the empty
slots that it lists make up all of its slots (`accounted_after`). -/
set_option autoImplicit false

namespace GuestVM.Heap

/-- What can be done with a heap, apart from reading it. -/
inductive Op where
  | alloc (o : Object)
  /-- Anything may become of a live object. -/
  | edit (id : ObjId) (f : Object → Object)
  | arenaPush (id : ObjId)
  | arenaRestore (mark : Nat)
  | setDisabled (disabled : Bool)
  | beginWalk
  | endWalk
  | collect (roots : List ObjId)

def Op.apply (h : Heap) : Op → Heap
  | .alloc o => (h.alloc o).2
  | .edit id f => h.modify id f
  | .arenaPush id => h.arenaPush id
  | .arenaRestore mark => h.arenaRestore mark
  | .setDisabled disabled => (h.setDisabled disabled).2
  | .beginWalk => h.beginWalk
  | .endWalk => h.endWalk
  | .collect roots => (h.collect roots).2

/-- A heap after its history. -/
def after (ops : List Op) : Heap := ops.foldl Op.apply empty

variable {h : Heap} {roots : List ObjId}

/-! ## Counting slots -/

theorem pairwise_liveIds (h : Heap) : h.liveIds.Pairwise (·.slot < ·.slot) := by
  refine List.Pairwise.filterMap _ ?_ List.pairwise_lt_range
  intro i j below a from_i b from_j
  obtain ⟨-, -, rfl⟩ := Option.map_eq_some_iff.mp from_i
  obtain ⟨-, -, rfl⟩ := Option.map_eq_some_iff.mp from_j
  exact below

theorem nodup_liveIds (h : Heap) : h.liveIds.Nodup :=
  h.pairwise_liveIds.imp fun below same => Nat.ne_of_lt below (congrArg ObjId.slot same)

/-- Every slot is occupied or empty. -/
theorem length_liveIds (h : Heap) :
    h.liveIds.length + (emptySlots h.slots).length = h.slots.size := by
  have occupied : h.liveIds.length =
      (List.range h.slots.size).countP fun i => ¬ h.slots[i]?.join.isNone := by
    rw [liveIds, List.length_filterMap_eq_countP]
    apply List.countP_congr
    intro i _
    simp [get?, cell?, Option.isSome_iff_ne_none]
  rw [occupied, emptySlots, ← List.countP_eq_length_filter, Nat.add_comm,
    ← List.length_eq_countP_add_countP, List.length_range]

theorem length_ascending {numbers : List Nat} (distinct : numbers.Nodup) :
    (ascending numbers).length = numbers.length := by
  have same : (ascending numbers).Perm numbers :=
    (List.perm_ext_iff_of_nodup ((pairwise_ascending numbers).imp Nat.ne_of_lt) distinct).mpr
      fun _ => mem_ascending
  exact same.length_eq

/-- What the sweep frees was not empty. -/
theorem length_free_sweep (free : h.free = emptySlots h.slots) :
    h.sweep.2.free.length = h.unmarkedSlots.length + h.free.length := by
  have freed : h.unmarkedSlots.Nodup :=
    (List.Pairwise.filter _ List.pairwise_lt_range).imp Nat.ne_of_lt
  have empty : h.free.Nodup := free ▸ (pairwise_emptySlots h.slots).imp Nat.ne_of_lt
  have apart : h.unmarkedSlots.Disjoint h.free := by
    intro i inFreed inFree
    obtain ⟨-, live⟩ := mem_unmarkedSlots.mp inFreed
    obtain ⟨-, dead⟩ := mem_emptySlots.mp (free ▸ inFree)
    have none : h.get? ⟨i⟩ = none := get?_eq_none.mpr dead
    simp [none] at live
  change (ascending (h.unmarkedSlots ++ h.free)).length = _
  rw [length_ascending (List.nodup_append'.mpr ⟨freed, empty, apart⟩), List.length_append]

/-! ## Accounts -/

structure Accounted (h : Heap) : Prop where
  tidy : h.Tidy
  balance : h.live + h.free.length = h.slots.size

namespace Accounted

theorem live_eq (accounted : h.Accounted) : h.live = h.liveIds.length := by
  have balance := accounted.balance
  have slots := h.length_liveIds
  rw [accounted.tidy.free] at balance
  omega

theorem empty : Accounted empty := ⟨⟨rfl, fun _ => rfl⟩, rfl⟩

theorem alloc (accounted : h.Accounted) (o : Object) : (h.alloc o).2.Accounted := by
  refine ⟨accounted.tidy.alloc o, ?_⟩
  have balance := accounted.balance
  unfold Heap.alloc
  split
  case h_1 i rest free =>
      simp only [free, List.length_cons, Array.size_setIfInBounds] at balance ⊢
      omega
  case h_2 free =>
      simp only [free, List.length_nil, Array.size_push] at balance ⊢
      omega

theorem modify (accounted : h.Accounted) (id : ObjId) (f : Object → Object) :
    (h.modify id f).Accounted :=
  ⟨accounted.tidy.modify id f, accounted.balance.trans (Array.size_modify ..).symm⟩

/-- No more objects are freed than there are. -/
theorem sweep_balance (free : h.free = emptySlots h.slots)
    (balance : h.live + h.free.length = h.slots.size) :
    h.sweep.2.live + h.sweep.1 = h.live ∧
      h.sweep.2.live + h.sweep.2.free.length = h.sweep.2.slots.size := by
  have listed := length_free_sweep free
  have fits := h.sweep.2.length_liveIds
  rw [← free_sweep free] at fits
  have slots : h.sweep.2.slots.size = h.slots.size := Array.size_map ..
  have freed : h.sweep.1 = h.unmarkedSlots.length := rfl
  have left : h.sweep.2.live = h.live - h.unmarkedSlots.length := rfl
  omega

theorem mark (accounted : h.Accounted) (work : List ObjId) :
    (h.mark work).free = emptySlots (h.mark work).slots ∧
      (h.mark work).live + (h.mark work).free.length = (h.mark work).slots.size := by
  have marked := (marks_mark h work).remarked
  rw [marked.free, marked.emptySlots, marked.size, marked.live]
  exact ⟨accounted.tidy.free, accounted.balance⟩

theorem collect (accounted : h.Accounted) (roots : List ObjId) :
    (h.collect roots).2.Accounted := by
  refine ⟨accounted.tidy.collect roots, ?_⟩
  cases suspended : h.isSuspended with
  | true =>
      rw [collect_of_suspended suspended]
      exact accounted.balance
  | false =>
      rw [collect_of_running suspended]
      obtain ⟨free, balance⟩ := accounted.mark (h.startingWork roots)
      exact (sweep_balance free balance).2

theorem apply (accounted : h.Accounted) (op : Op) : (op.apply h).Accounted := by
  cases op with
  | alloc o => exact accounted.alloc o
  | edit id f => exact accounted.modify id f
  | collect roots => exact accounted.collect roots
  | _ => exact ⟨accounted.tidy, accounted.balance⟩

end Accounted

theorem accounted_after (ops : List Op) : (after ops).Accounted := by
  have onward : ∀ h : Heap, h.Accounted → (ops.foldl Op.apply h).Accounted := by
    induction ops with
    | nil => exact fun _ accounted => accounted
    | cons op rest ih => exact fun h accounted => ih _ (accounted.apply op)
  exact onward _ .empty

end GuestVM.Heap

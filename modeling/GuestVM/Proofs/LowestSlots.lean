import GuestVM.Proofs.Heap.Histories
import Mathlib.Order.Bounds.Basic

/-! # The lowest slot

Whatever has been done with a heap, its slots, its free list and its number of live objects agree
(`Heap.InStep`).  So `alloc` finds the lowest id that has no object, and gives it one
(`Heap.Allocates`). -/
set_option autoImplicit false

namespace GuestVM.Heap

variable {h : Heap}

/-- The free list, the number of live objects and the list of them are what the slots say. -/
structure InStep (h : Heap) : Prop where
  /-- Seen from the end that `alloc` takes slots from. -/
  ascending : h.free.Pairwise (· < ·)
  free : ∀ i, i ∈ h.free ↔ h.slots[i]? = some none
  live : h.live = h.slots.countP (·.isSome)
  listed : ∀ id, id ∈ h.liveIds ↔ ∃ c, h.slots[id.slot]? = some (some c)
  inOrder : h.liveIds.Pairwise (·.slot < ·.slot)

/-- What an allocation does. -/
structure Allocates (h : Heap) (o : Object) (id : ObjId) (h' : Heap) : Prop where
  /-- Ids behind the last slot are dead, too. -/
  lowest : IsLeast {i | h.get? ⟨i⟩ = none} id.slot
  fresh : h.free = [] → id = ⟨h.slots.size⟩
  placed : h'.get? id = some o
  arena : h'.arena = h.arena.push id
  others : ∀ i, i ≠ id.slot → h'.slots[i]? = h.slots[i]?
  kept : ∀ x p, h.get? x = some p → h'.get? x = some p
  live : h'.live = h.live + 1
  rest : { h' with slots := h.slots, free := h.free, arena := h.arena, live := h.live } = h

/-! ## What the slots say -/

theorem slot_eq_some_none {i : Nat} :
    h.slots[i]? = some none ↔ i < h.slots.size ∧ h.slots[i]?.join = none := by
  by_cases inside : i < h.slots.size <;> simp [inside]

theorem countP_slots (h : Heap) : h.slots.countP (·.isSome) = h.liveIds.length := by
  have slots : h.slots.toList = (List.range h.slots.size).map fun i => h.slots[i]?.join := by
    apply List.ext_getElem?
    intro i
    by_cases inside : i < h.slots.size
    · simp [inside]
    · simp [Nat.le_of_not_lt inside]
  rw [← Array.countP_toList, slots, List.countP_map, liveIds, List.length_filterMap_eq_countP]
  apply List.countP_congr
  intro i _
  simp [get?, cell?]

theorem Accounted.inStep (accounted : h.Accounted) : h.InStep where
  ascending := accounted.tidy.free ▸ pairwise_emptySlots h.slots
  free := by
    intro i
    rw [accounted.tidy.free, mem_emptySlots, slot_eq_some_none]
  live := accounted.live_eq.trans (countP_slots h).symm
  listed := by
    intro id
    rw [mem_liveIds, get?, Option.isSome_map, Option.isSome_iff_exists, cell?]
    simp only [Option.join_eq_some_iff]
  inOrder := pairwise_liveIds h

/-! ## Where a new object is put -/

theorem isLeast_slot_alloc (tidy : h.Tidy) (o : Object) :
    IsLeast {i | h.get? ⟨i⟩ = none} (h.alloc o).1.slot := by
  refine ⟨get?_alloc_self_before tidy o, fun i dead => ?_⟩
  rw [slot_alloc tidy o]
  have dead : h.slots[i]?.join = none := get?_eq_none.mp dead
  have inOrder := pairwise_emptySlots h.slots
  cases empty : emptySlots h.slots with
  | nil =>
      by_contra inside
      have member := mem_emptySlots.mpr ⟨Nat.lt_of_not_le inside, dead⟩
      rw [empty] at member
      cases member
  | cons first rest =>
      by_cases inside : i < h.slots.size
      · have member := mem_emptySlots.mpr ⟨inside, dead⟩
        rw [empty] at member inOrder
        rcases List.mem_cons.mp member with rfl | later
        · exact Nat.le_refl i
        · exact Nat.le_of_lt ((List.pairwise_cons.mp inOrder).1 i later)
      · have member : first ∈ emptySlots h.slots := by
          rw [empty]
          exact List.mem_cons_self
        exact Nat.le_trans (Nat.le_of_lt (mem_emptySlots.mp member).1) (Nat.le_of_not_lt inside)

theorem getElem?_slots_alloc {o : Object} {i : Nat} (other : i ≠ (h.alloc o).1.slot) :
    (h.alloc o).2.slots[i]? = h.slots[i]? := by
  unfold alloc at other ⊢
  split at other
  case h_1 first rest free => exact Array.getElem?_setIfInBounds_ne (Ne.symm other)
  case h_2 free =>
      rw [Array.getElem?_push]
      exact if_neg other

theorem Tidy.allocates (tidy : h.Tidy) (o : Object) :
    h.Allocates o (h.alloc o).1 (h.alloc o).2 where
  lowest := isLeast_slot_alloc tidy o
  fresh := by
    intro none
    apply ObjId.ext_slot
    rw [slot_alloc tidy o, ← tidy.free, none]
    rfl
  placed := (get?_alloc tidy o _).trans (if_pos rfl)
  arena := alloc_arena h o
  others := fun _ other => getElem?_slots_alloc other
  kept := fun _ _ live => get?_alloc_of_live tidy o live
  live := alloc_live h o
  rest := alloc_rest h o

/-- After any history of a heap, an allocation fills the lowest slot that has no object. -/
theorem lowest_slots (ops : List Op) :
    (after ops).InStep ∧ ∀ o, (after ops).Allocates o ((after ops).alloc o).1 ((after ops).alloc o).2 :=
  ⟨(accounted_after ops).inStep, (accounted_after ops).tidy.allocates⟩

end GuestVM.Heap

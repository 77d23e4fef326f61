/-! # Ascending lists

A set of numbers as the list that names each of them once, smallest first. -/
set_option autoImplicit false

namespace GuestVM

/-- Adds a number to an ascending list, once. -/
def insertAscending (n : Nat) : List Nat → List Nat
  | [] => [n]
  | k :: rest =>
    if n < k then n :: k :: rest
    else if n = k then k :: rest
    else k :: insertAscending n rest

/-- The numbers of a list, each once. -/
def ascending (numbers : List Nat) : List Nat := numbers.foldr insertAscending []

theorem mem_insertAscending {n i : Nat} {numbers : List Nat} :
    i ∈ insertAscending n numbers ↔ i = n ∨ i ∈ numbers := by
  induction numbers with
  | nil => simp [insertAscending]
  | cons k rest ih =>
      unfold insertAscending
      split
      · simp
      · split
        case isTrue same =>
            subst same
            simp
        case isFalse =>
            simp only [List.mem_cons, ih]
            exact or_left_comm

theorem pairwise_insertAscending {n : Nat} {numbers : List Nat}
    (inOrder : numbers.Pairwise (· < ·)) : (insertAscending n numbers).Pairwise (· < ·) := by
  induction numbers with
  | nil => simp [insertAscending]
  | cons k rest ih =>
      obtain ⟨least, tail⟩ := List.pairwise_cons.mp inOrder
      unfold insertAscending
      split
      case isTrue below =>
          refine List.pairwise_cons.mpr ⟨?_, inOrder⟩
          intro i member
          rcases List.mem_cons.mp member with rfl | further
          · exact below
          · exact Nat.lt_trans below (least i further)
      · split
        · exact inOrder
        · refine List.pairwise_cons.mpr ⟨?_, ih tail⟩
          intro i member
          rcases mem_insertAscending.mp member with rfl | further
          · omega
          · exact least i further

theorem mem_ascending {numbers : List Nat} {i : Nat} : i ∈ ascending numbers ↔ i ∈ numbers := by
  induction numbers with
  | nil => simp [ascending]
  | cons n rest ih => simpa [ascending, mem_insertAscending] using or_congr_right ih

theorem pairwise_ascending (numbers : List Nat) : (ascending numbers).Pairwise (· < ·) := by
  induction numbers with
  | nil => exact .nil
  | cons n rest ih => exact pairwise_insertAscending ih

end GuestVM

import GuestVM.Proofs.Bridge.Registering
import Mathlib.Order.Bounds.Basic

/-! # Histories of the index allocator

The calls that have been made to an allocator and their answers say which indices have been given
out, which of them are outstanding and what the next answer has to be (`Answers`); the allocator,
which keeps a counter and the free indices only, gives that answer.  `InStep` says what the two
fields of the allocator are in terms of the history, and every call keeps it. -/
set_option autoImplicit false

namespace GuestVM.IndexAllocator

inductive Call
  | allocate
  | release (i : Nat)

/-- A call that has been made, an allocation with its answer. -/
inductive Event
  | issued (i : Nat)
  | released (i : Nat)
  deriving DecidableEq

/-! ## What a history says

The latest event stands first. -/

def Issued (i : Nat) (history : List Event) : Prop := .issued i ∈ history

instance (i : Nat) (history : List Event) : Decidable (Issued i history) :=
  inferInstanceAs (Decidable (.issued i ∈ history))

/-- Given out, and not released since. -/
def Outstanding (i : Nat) : List Event → Prop
  | [] => False
  | .issued j :: earlier => i = j ∨ Outstanding i earlier
  | .released j :: earlier => i ≠ j ∧ Outstanding i earlier

/-- Given out, released, and not outstanding. -/
structure Returned (i : Nat) (history : List Event) : Prop where
  issued : Issued i history
  released : .released i ∈ history
  unheld : ¬ Outstanding i history

/-- How many indices have been given out that had not been given out before. -/
def freshCount : List Event → Nat
  | [] => 0
  | .issued i :: earlier => if Issued i earlier then freshCount earlier else freshCount earlier + 1
  | .released _ :: earlier => freshCount earlier

structure NextFresh (i : Nat) (history : List Event) : Prop where
  lowest : IsLeast {j | j ≠ 0 ∧ ¬ Issued j history} i
  counted : i = freshCount history + 1

/-- What an allocation after a history has to answer. -/
structure Answers (i : Nat) (history : List Event) : Prop where
  proper : i ≠ 0
  unheld : ¬ Outstanding i history
  early : freshCount history ≤ reuseThreshold → NextFresh i history
  again : reuseThreshold < freshCount history → (∃ j, Returned j history) →
    IsLeast {j | Returned j history} i
  onward : reuseThreshold < freshCount history → (¬ ∃ j, Returned j history) → NextFresh i history

section Reading

variable {i j : Nat} {history : List Event}

theorem issued_issued : Issued i (.issued j :: history) ↔ i = j ∨ Issued i history := by
  simp [Issued]

theorem issued_released : Issued i (.released j :: history) ↔ Issued i history := by
  simp [Issued]

theorem Outstanding.issued (held : Outstanding i history) : Issued i history := by
  induction history with
  | nil => exact held.elim
  | cons event earlier ih =>
      cases event with
      | issued j => exact issued_issued.mpr (held.imp_right ih)
      | released j => exact issued_released.mpr (ih held.2)

/-- The only way back is a release. -/
theorem returned_iff : Returned i history ↔ Issued i history ∧ ¬ Outstanding i history := by
  refine ⟨fun back => ⟨back.issued, back.unheld⟩, ?_⟩
  rintro ⟨given, unheld⟩
  refine ⟨given, ?_, unheld⟩
  induction history with
  | nil => cases given
  | cons event earlier ih =>
      cases event with
      | issued j =>
          have apart : i ≠ j := fun same => unheld (.inl same)
          have before : Issued i earlier := (issued_issued.mp given).resolve_left apart
          exact List.mem_cons_of_mem _ (ih before fun held => unheld (.inr held))
      | released j =>
          by_cases same : i = j
          · exact same ▸ List.mem_cons_self
          · have before : Issued i earlier := issued_released.mp given
            exact List.mem_cons_of_mem _ (ih before fun held => unheld ⟨same, held⟩)

end Reading

/-! ## Calls -/

/-- An allocator and what has been done with it. -/
structure Log where
  allocator : IndexAllocator := {}
  history : List Event := []

namespace Log

def serve (log : Log) : Call → Log
  | .allocate => ⟨log.allocator.allocate.2, .issued log.allocator.allocate.1 :: log.history⟩
  | .release i => ⟨log.allocator.release i, .released i :: log.history⟩

def serveAll (log : Log) (calls : List Call) : Log := calls.foldl serve log

/-- What the allocations have answered, the last answer first. -/
def given (log : Log) : List Nat :=
  log.history.filterMap fun
    | .issued i => some i
    | .released _ => none

/-- The counter and the free indices are what the history says. -/
structure InStep (log : Log) : Prop where
  next : log.allocator.next = freshCount log.history + 1
  issued : ∀ i, Issued i log.history ↔ i ≠ 0 ∧ i < log.allocator.next
  freed : ∀ i, i ∈ log.allocator.freed ↔ Returned i log.history
  ascending : log.allocator.freed.Pairwise (· < ·)

namespace InStep

variable {log : Log} (inStep : log.InStep)
include inStep

theorem nextFresh : NextFresh log.allocator.next log.history := by
  refine ⟨⟨?_, ?_⟩, inStep.next⟩
  · refine ⟨?_, ?_⟩
    · rw [inStep.next]
      exact Nat.succ_ne_zero _
    · intro given
      exact absurd ((inStep.issued _).mp given).2 (Nat.lt_irrefl _)
  · rintro j ⟨proper, ungiven⟩
    refine Nat.le_of_not_lt fun below => ?_
    exact ungiven ((inStep.issued j).mpr ⟨proper, below⟩)

theorem fresh_of_next : ¬ Issued log.allocator.next log.history :=
  inStep.nextFresh.lowest.1.2

theorem answers : Answers log.allocator.allocate.1 log.history := by
  have counted : log.allocator.next - 1 = freshCount log.history := by
    rw [inStep.next]
    rfl
  have fresh : NextFresh log.allocator.next log.history := inStep.nextFresh
  have unheld : ¬ Outstanding log.allocator.next log.history :=
    fun held => inStep.fresh_of_next held.issued
  unfold allocate
  rw [counted]
  split
  case h_1 i rest free =>
      have back : Returned i log.history := (inStep.freed i).mp (free ▸ List.mem_cons_self)
      split
      case isTrue past =>
          refine ⟨((inStep.issued i).mp back.issued).1, back.unheld, ?_, ?_, ?_⟩
          · intro early
            exact absurd past (Nat.not_lt.mpr early)
          · intro _ _
            refine ⟨back, ?_⟩
            intro j other
            have ascending := inStep.ascending
            have member := (inStep.freed j).mpr other
            rw [free] at ascending member
            rcases List.mem_cons.mp member with same | further
            · exact Nat.le_of_eq same.symm
            · exact Nat.le_of_lt ((List.pairwise_cons.mp ascending).1 j further)
          · intro _ unreturned
            exact absurd ⟨i, back⟩ unreturned
      case isFalse early =>
          exact ⟨fresh.lowest.1.1, unheld, fun _ => fresh, fun past => absurd past early,
            fun past => absurd past early⟩
  case h_2 free =>
      have unreturned : ¬ ∃ j, Returned j log.history := by
        rintro ⟨j, back⟩
        have member := (inStep.freed j).mpr back
        rw [free] at member
        cases member
      exact ⟨fresh.lowest.1.1, unheld, fun _ => fresh, fun _ back => absurd back unreturned,
        fun _ _ => fresh⟩

/-! ### Every call keeps it -/

theorem allocate_fresh :
    InStep ⟨{ log.allocator with next := log.allocator.next + 1 },
      .issued log.allocator.next :: log.history⟩ where
  next := by
    simp only [freshCount, if_neg inStep.fresh_of_next]
    rw [inStep.next]
  issued := by
    intro i
    rw [issued_issued, inStep.issued]
    have started : log.allocator.next ≠ 0 := inStep.nextFresh.lowest.1.1
    dsimp only
    omega
  freed := by
    intro i
    rw [inStep.freed, returned_iff, returned_iff, issued_issued, Outstanding]
    have ungiven := inStep.fresh_of_next
    grind
  ascending := inStep.ascending

theorem allocate_again {i : Nat} {rest : List Nat} (free : log.allocator.freed = i :: rest) :
    InStep ⟨{ log.allocator with freed := rest }, .issued i :: log.history⟩ := by
  have back : Returned i log.history := (inStep.freed i).mp (free ▸ List.mem_cons_self)
  have ascending := inStep.ascending
  rw [free] at ascending
  obtain ⟨least, tail⟩ := List.pairwise_cons.mp ascending
  refine ⟨?_, ?_, ?_, tail⟩
  · simp only [freshCount, if_pos back.issued]
    exact inStep.next
  · intro j
    rw [issued_issued, ← inStep.issued]
    exact or_iff_right_of_imp fun same => same ▸ back.issued
  · intro j
    have member : j ∈ log.allocator.freed ↔ j = i ∨ j ∈ rest := by
      rw [free]
      exact List.mem_cons
    have apart : j ∈ rest → j ≠ i := fun further => Nat.ne_of_gt (least j further)
    have given := back.issued
    rw [inStep.freed, returned_iff] at member
    rw [returned_iff, issued_issued, Outstanding]
    grind

theorem allocate : (log.serve .allocate).InStep := by
  unfold serve
  rcases log.allocator.allocate_cases with fresh | ⟨i, rest, free, again⟩
  · simp only [fresh]
    exact inStep.allocate_fresh
  · simp only [again]
    exact inStep.allocate_again free

theorem release_of_unissued {i : Nat} (ungiven : ¬ Issued i log.history) :
    log.allocator.release i = log.allocator := by
  unfold IndexAllocator.release
  exact if_neg fun below => ungiven ((inStep.issued i).mpr below)

theorem release (i : Nat) : (log.serve (.release i)).InStep where
  next := by
    simpa only [serve, next_release, freshCount] using inStep.next
  issued := by
    intro j
    simpa only [serve, next_release, issued_released] using inStep.issued j
  freed := by
    intro j
    have free := inStep.freed j
    rw [returned_iff] at free
    rw [returned_iff]
    simp only [serve, issued_released, Outstanding]
    by_cases given : Issued i log.history
    · have taken : log.allocator.release i =
          { log.allocator with freed := insertAscending i log.allocator.freed } :=
        if_pos ((inStep.issued i).mp given)
      rw [taken, mem_insertAscending, free]
      grind
    · rw [inStep.release_of_unissued given, free]
      grind
  ascending := ascending_release i inStep.ascending

theorem serve (call : Call) : (log.serve call).InStep := by
  cases call with
  | allocate => exact inStep.allocate
  | release i => exact inStep.release i

theorem serveAll (calls : List Call) : (log.serveAll calls).InStep := by
  induction calls generalizing log with
  | nil => exact inStep
  | cons call rest ih => exact ih (inStep.serve call)

end InStep

theorem inStep_start : InStep {} where
  next := rfl
  issued := by
    intro i
    simp only [Issued, List.not_mem_nil, false_iff]
    omega
  freed := by
    intro i
    simp [returned_iff, Issued]
  ascending := .nil

/-- What is answered from now on depends on the allocator alone. -/
theorem given_serveAll_congr {log other : Log} (alike : log.allocator = other.allocator)
    (same : log.given = other.given) (calls : List Call) :
    (log.serveAll calls).given = (other.serveAll calls).given := by
  induction calls generalizing log other with
  | nil => exact same
  | cons call rest ih =>
      cases call with
      | allocate =>
          refine ih (congrArg (·.allocate.2) alike) ?_
          simp only [serve, given, List.filterMap_cons, alike]
          exact congrArg _ same
      | release i => exact ih (congrArg (·.release i) alike) same

end Log

/-! ## Main result -/

/-- After any calls, the next allocation answers what the history says, and to take back an index
that was never given out changes no answer. -/
theorem indices_by_history (calls : List Call) :
    Answers (Log.serveAll {} calls).allocator.allocate.1 (Log.serveAll {} calls).history ∧
      ∀ i, ¬ Issued i (Log.serveAll {} calls).history → ∀ later,
        (Log.serveAll {} (calls ++ .release i :: later)).given =
          (Log.serveAll {} (calls ++ later)).given := by
  have inStep : (Log.serveAll {} calls).InStep := Log.inStep_start.serveAll calls
  refine ⟨inStep.answers, ?_⟩
  intro i ungiven later
  have ignored : ((Log.serveAll {} calls).serve (.release i)).allocator =
      (Log.serveAll {} calls).allocator := inStep.release_of_unissued ungiven
  simp only [Log.serveAll, List.foldl_append, List.foldl_cons]
  exact Log.given_serveAll_congr ignored rfl later

end GuestVM.IndexAllocator

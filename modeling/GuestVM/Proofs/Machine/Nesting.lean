import GuestVM.Proofs.Machine.Change

/-! # Walks through the parts of values

A walk through a value goes on to the parts of the value, then to their parts, and does not know
where it has been.  `Walked` says of such a walk what a bound on its depth does.  The walk ends unless
it comes to a value that is among its own parts, at whatever remove (`Walked.ends_iff`).  For where it
comes to none, the objects that it is in at one time are different ones, and there are no more of them
than slots. -/
set_option autoImplicit false

namespace GuestVM.Machine

section Walks

variable {m : Machine} {part : Value → Value → Prop} {ends : Nat → Value → Prop} {n : Nat}
  {v w : Value}

/-- Among the parts of a value, at whatever remove, there is one that is among its own parts. -/
def Recurs (part : Value → Value → Prop) (v : Value) : Prop :=
  ∃ w, Relation.ReflTransGen part v w ∧ Relation.TransGen part w w

/-- A walk that ends within `n + 1` levels if it does so within `n` levels from each part.  Only live
objects have parts. -/
structure Walked (m : Machine) (part : Value → Value → Prop) (ends : Nat → Value → Prop) : Prop where
  zero : ∀ v, ¬ ends 0 v
  succ : ∀ n v, ends (n + 1) v ↔ ∀ w, part v w → ends n w
  live : ∀ v w, part v w → ∃ x, v = .obj x ∧ m.Live x

theorem Recurs.of_part (first : part v w) (recurs : Recurs part w) : Recurs part v := by
  obtain ⟨u, reached, around⟩ := recurs
  exact ⟨u, .head first reached, around⟩

namespace Walked

theorem ends_of_transGen (walked : m.Walked part ends) (ended : ends n v)
    (reached : Relation.TransGen part v w) : ∃ k, k < n ∧ ends k w := by
  have inside : ∀ {n v w}, ends n v → part v w → ∃ k, k < n ∧ ends k w := by
    intro n v w ended first
    cases n with
    | zero => exact absurd ended (walked.zero v)
    | succ n => exact ⟨n, Nat.lt_succ_self n, (walked.succ n v).mp ended w first⟩
  induction reached with
  | single first => exact inside ended first
  | tail _ last ih =>
      obtain ⟨k, less, ended⟩ := ih
      obtain ⟨j, lesser, ended⟩ := inside ended last
      exact ⟨j, Nat.lt_trans lesser less, ended⟩

theorem not_transGen_self (walked : m.Walked part ends) (ended : ends n v) :
    ¬ Relation.TransGen part v v := by
  intro around
  induction n using Nat.strongRecOn with
  | ind n ih =>
      obtain ⟨k, less, again⟩ := walked.ends_of_transGen ended around
      exact ih k less again

theorem not_recurs (walked : m.Walked part ends) (ended : ends n v) : ¬ Recurs part v := by
  rintro ⟨w, reached, around⟩
  rcases Relation.reflTransGen_iff_eq_or_transGen.mp reached with rfl | further
  · exact walked.not_transGen_self ended around
  · obtain ⟨k, -, ended⟩ := walked.ends_of_transGen ended further
    exact walked.not_transGen_self ended around

/-- A walk that goes `n` levels deep, and never comes back, goes through `n` objects. -/
theorem exists_objects (walked : m.Walked part ends) (unended : ¬ ends n v)
    (onward : ¬ Recurs part v) : ∃ ids : List ObjId, ids.length = n ∧ ids.Nodup ∧
      ∀ x ∈ ids, m.Live x ∧ Relation.ReflTransGen part v (.obj x) := by
  induction n generalizing v with
  | zero => exact ⟨[], rfl, List.nodup_nil, nofun⟩
  | succ n ih =>
      simp only [walked.succ, not_forall] at unended
      obtain ⟨w, first, unended⟩ := unended
      obtain ⟨x, rfl, live⟩ := walked.live v w first
      obtain ⟨ids, length, distinct, each⟩ := ih unended fun recurs => onward (recurs.of_part first)
      refine ⟨x :: ids, congrArg (· + 1) length, List.nodup_cons.mpr ⟨?_, distinct⟩, ?_⟩
      · intro again
        exact onward ⟨_, .refl, .head' first (each x again).2⟩
      · intro y member
        rcases List.mem_cons.mp member with rfl | member
        · exact ⟨live, .refl⟩
        · exact ⟨(each y member).1, .head first (each y member).2⟩

theorem ends_iff (walked : m.Walked part ends) (more : m.heap.slots.size < n) :
    ends n v ↔ ¬ Recurs part v := by
  refine ⟨walked.not_recurs, fun onward => ?_⟩
  by_contra unended
  obtain ⟨ids, length, distinct, each⟩ := walked.exists_objects unended onward
  have few := length_le_size distinct fun x member => (each x member).1
  omega

end Walked

end Walks

end GuestVM.Machine

import GuestVM.Proofs.Machine.Change

/-! # Climbing superclass chains

`Ascent` is a climb as it goes, with nothing that bounds it, so a climb around a circle has no
derivation.  A machine gives up a climb after as many classes as there are slots, and one.  By then it
has come to some class twice, so what it finds is what the climb finds, and where it finds nothing the
climb has no end (`climb_eq_some_iff`).

`lineage` lists a chain up to the same length: a search finds what the list has first. -/
set_option autoImplicit false

namespace GuestVM.Machine

/-- A class and what follows it on its chain, at most `n` ids. -/
def chain (m : Machine) : Nat → ObjId → List ObjId
  | 0, _ => []
  | n + 1, c =>
    c :: match m.superclass? c with
      | some p => m.chain n p
      | none => []

/-- The superclass chain of a class, beginning with the class. -/
def lineage (m : Machine) (c : ObjId) : List ObjId := m.chain (m.heap.slots.size + 1) c

/-- A climb that asks one class after the other, and what it finds. -/
inductive Ascent {β : Type} (m : Machine) (ask : ObjId → Option β) : ObjId → Option β → Prop where
  | found {c : ObjId} {b : β} (here : ask c = some b) : Ascent m ask c (some b)
  | top {c : ObjId} (missing : ask c = none) (ends : m.superclass? c = none) : Ascent m ask c none
  | up {c p : ObjId} {r : Option β} (missing : ask c = none) (above : m.superclass? c = some p)
      (rest : Ascent m ask p r) : Ascent m ask c r

variable {m m' : Machine} {β : Type} {ask : ObjId → Option β} {c : ObjId} {r : Option β}

theorem live_of_classData? {data : ClassData} (found : m.classData? c = some data) : m.Live c := by
  cases present : m.object? c with
  | none => simp [classData?, present] at found
  | some o => exact .of_object? present

theorem superclass?_eq_some {p : ObjId} :
    m.superclass? c = some p ↔ ∃ data, m.classData? c = some data ∧ data.superclass = some p :=
  Option.bind_eq_some_iff

theorem live_of_superclass? (above : (m.superclass? c).isSome) : m.Live c := by
  obtain ⟨p, above⟩ := Option.isSome_iff_exists.mp above
  obtain ⟨data, found, -⟩ := superclass?_eq_some.mp above
  exact live_of_classData? found

/-! ## Bounded climbs -/

theorem climbWithin_of_answer {b : β} (here : ask c = some b) (n : Nat) :
    m.climbWithin ask (n + 1) c = some (some b) := by
  rw [climbWithin, here]

theorem climbWithin_of_top (missing : ask c = none) (ends : m.superclass? c = none) (n : Nat) :
    m.climbWithin ask (n + 1) c = some none := by
  simp only [climbWithin, missing, ends]

theorem climbWithin_of_superclass {p : ObjId} (missing : ask c = none)
    (above : m.superclass? c = some p) (n : Nat) :
    m.climbWithin ask (n + 1) c = m.climbWithin ask n p := by
  simp only [climbWithin, missing, above]

/-- More classes to ask change no answer. -/
theorem climbWithin_mono {n k : Nat} (climbed : m.climbWithin ask n c = some r) (more : n ≤ k) :
    m.climbWithin ask k c = some r := by
  induction n generalizing k c with
  | zero => cases climbed
  | succ n ih =>
      obtain ⟨k, rfl⟩ : ∃ j, k = j + 1 := ⟨k - 1, by omega⟩
      cases here : ask c with
      | some b =>
          rw [climbWithin_of_answer here] at climbed ⊢
          exact climbed
      | none =>
          cases above : m.superclass? c with
          | none =>
              rw [climbWithin_of_top here above] at climbed ⊢
              exact climbed
          | some p =>
              rw [climbWithin_of_superclass here above] at climbed ⊢
              exact ih climbed (by omega)

theorem ascent_of_climbWithin {n : Nat} (climbed : m.climbWithin ask n c = some r) :
    m.Ascent ask c r := by
  induction n generalizing c with
  | zero => cases climbed
  | succ n ih =>
      cases here : ask c with
      | some b =>
          rw [climbWithin_of_answer here] at climbed
          cases climbed
          exact .found here
      | none =>
          cases above : m.superclass? c with
          | none =>
              rw [climbWithin_of_top here above] at climbed
              cases climbed
              exact .top here above
          | some p =>
              rw [climbWithin_of_superclass here above] at climbed
              exact .up here above (ih climbed)

theorem Ascent.exists_climbWithin (climb : m.Ascent ask c r) :
    ∃ n, m.climbWithin ask n c = some r := by
  induction climb with
  | found here => exact ⟨1, climbWithin_of_answer here 0⟩
  | top missing ends => exact ⟨1, climbWithin_of_top missing ends 0⟩
  | up missing above _ ih =>
      obtain ⟨n, climbed⟩ := ih
      exact ⟨n + 1, (climbWithin_of_superclass missing above n).trans climbed⟩

/-! ## The bound is no bound -/

/-- The climb asks one class more than `n`, and no less. -/
def ClimbsPast (m : Machine) (ask : ObjId → Option β) (n : Nat) (c : ObjId) : Prop :=
  (m.climbWithin ask (n + 1) c).isSome ∧ m.climbWithin ask n c = none

theorem ClimbsPast.unique {n k : Nat} (past : m.ClimbsPast ask n c) (again : m.ClimbsPast ask k c) :
    n = k := by
  have no_less : ∀ {n k : Nat}, m.ClimbsPast ask n c → m.ClimbsPast ask k c → ¬ n < k := by
    intro n k past again less
    obtain ⟨r, climbed⟩ := Option.isSome_iff_exists.mp past.1
    have still := climbWithin_mono climbed less
    rw [again.2] at still
    cases still
  have least := no_less past again
  have most := no_less again past
  omega

/-- A climb past `n` classes comes to `n` different classes that have a superclass. -/
theorem ClimbsPast.exists_distinct {n : Nat} (past : m.ClimbsPast ask n c) :
    ∃ line : List ObjId, line.length = n ∧ line.Nodup ∧
      ∀ d ∈ line, m.Live d ∧ ∃ k, k ≤ n ∧ m.ClimbsPast ask k d := by
  induction n generalizing c with
  | zero => exact ⟨[], rfl, List.nodup_nil, fun _ member => absurd member List.not_mem_nil⟩
  | succ n ih =>
      obtain ⟨climbs, short⟩ := past
      have missing : ask c = none := by
        cases here : ask c with
        | none => rfl
        | some b =>
            rw [climbWithin_of_answer here] at short
            cases short
      cases above : m.superclass? c with
      | none =>
          rw [climbWithin_of_top missing above] at short
          cases short
      | some p =>
          rw [climbWithin_of_superclass missing above] at climbs short
          obtain ⟨line, length, distinct, each⟩ := ih ⟨climbs, short⟩
          have own : m.ClimbsPast ask (n + 1) c :=
            ⟨(climbWithin_of_superclass missing above _).symm ▸ climbs,
              (climbWithin_of_superclass missing above _).symm ▸ short⟩
          refine ⟨c :: line, by rw [List.length_cons, length],
            List.nodup_cons.mpr ⟨fun again => ?_, distinct⟩, fun d member => ?_⟩
          · obtain ⟨-, k, fewer, past⟩ := each c again
            have same := own.unique past
            omega
          · rcases List.mem_cons.mp member with rfl | further
            · exact ⟨live_of_superclass? (above ▸ rfl), n + 1, Nat.le_refl _, own⟩
            · obtain ⟨live, k, fewer, past⟩ := each d further
              exact ⟨live, k, by omega, past⟩

theorem exists_climbsPast {n : Nat} (climbed : m.climbWithin ask n c = some r) :
    ∃ k, m.ClimbsPast ask k c ∧ m.climbWithin ask (k + 1) c = some r := by
  induction n with
  | zero => cases climbed
  | succ n ih =>
      cases fewer : m.climbWithin ask n c with
      | none => exact ⟨n, ⟨climbed ▸ rfl, fewer⟩, climbed⟩
      | some r' =>
          have same := climbWithin_mono fewer (Nat.le_succ n)
          rw [climbed] at same
          cases same
          exact ih fewer

/-- What a machine finds is what the climb finds, and it finds nothing only if the climb never ends. -/
theorem climb_eq_some_iff : m.climb ask c = some r ↔ m.Ascent ask c r := by
  constructor
  · exact ascent_of_climbWithin
  · intro ascent
    obtain ⟨n, climbed⟩ := ascent.exists_climbWithin
    obtain ⟨k, past, climbed⟩ := exists_climbsPast climbed
    obtain ⟨line, length, distinct, each⟩ := past.exists_distinct
    have few := length_le_size distinct fun d member => (each d member).1
    exact climbWithin_mono climbed (by omega)

theorem Ascent.climb (ascent : m.Ascent ask c r) : m.climb ask c = some r :=
  climb_eq_some_iff.mpr ascent

/-- A climb finds one thing only. -/
theorem Ascent.unique {r' : Option β} (ascent : m.Ascent ask c r) (other : m.Ascent ask c r') :
    r = r' := Option.some.inj (ascent.climb.symm.trans other.climb)

/-! ## Climbs and chains -/

theorem join_climbWithin (n : Nat) :
    (m.climbWithin ask n c).join = (m.chain n c).findSome? ask := by
  induction n generalizing c with
  | zero => rfl
  | succ n ih =>
      rw [chain, List.findSome?_cons]
      cases here : ask c with
      | some b => rw [climbWithin_of_answer here, Option.join_some]
      | none =>
          cases above : m.superclass? c with
          | none => rw [climbWithin_of_top here above, Option.join_some, List.findSome?_nil]
          | some p => rw [climbWithin_of_superclass here above, ih]

theorem join_climb (ask : ObjId → Option β) (c : ObjId) :
    (m.climb ask c).join = (m.lineage c).findSome? ask := join_climbWithin _

/-- A climb ends at the latest where the chain has an answer. -/
theorem climb_of_findSome? {b : β} (found : (m.lineage c).findSome? ask = some b) :
    m.climb ask c = some (some b) := Option.join_eq_some_iff.mp ((join_climb ask c).trans found)

/-! ## What machines find -/

theorem findMethod_eq (c : ObjId) (mid : Sym) :
    m.findMethod c mid = (m.lineage c).findSome? (m.ownMethod? · mid) := join_climb _ c

theorem findMethod?_eq_some {found : Option Method} {mid : Sym}
    (climbed : m.findMethod? c mid = some found) : m.findMethod c mid = found := by
  rw [findMethod, climbed, Option.join_some]

theorem findMethod?_of_findMethod {method : Method} {mid : Sym}
    (found : m.findMethod c mid = some method) : m.findMethod? c mid = some (some method) :=
  Option.join_eq_some_iff.mp found

theorem contains_eq_findSome? (line : List ObjId) (ancestor : ObjId) :
    line.contains ancestor = (line.findSome? (sameAt ancestor)).isSome := by
  induction line with
  | nil => rfl
  | cons d rest ih =>
      rw [List.contains_cons, List.findSome?_cons, ih]
      by_cases same : d = ancestor
      · simp [sameAt, same]
      · have other : ¬ ancestor = d := fun is => same is.symm
        simp [sameAt, same, other]

theorem descendsFrom_eq (c ancestor : ObjId) :
    m.descendsFrom c ancestor = (m.lineage c).contains ancestor := by
  rw [contains_eq_findSome?, ← join_climb, descendsFrom, descendsFrom?]
  cases m.climb (sameAt ancestor) c with
  | none => rfl
  | some r => rfl

theorem descendsFrom?_eq_some {ancestor : ObjId} {is : Bool}
    (climbed : m.descendsFrom? c ancestor = some is) : m.descendsFrom c ancestor = is := by
  rw [descendsFrom, climbed, Option.getD_some]

theorem descendsFrom?_of_descends {ancestor : ObjId} (descends : m.descendsFrom c ancestor = true) :
    m.descendsFrom? c ancestor = some true := by
  unfold descendsFrom at descends
  cases climbed : m.descendsFrom? c ancestor with
  | none => simp [climbed] at descends
  | some is => simpa [climbed] using descends

theorem findSome?_realAt (line : List ObjId) :
    line.findSome? m.realAt = line.find? fun d => !m.isPassedOver d := by
  induction line with
  | nil => rfl
  | cons d rest ih => cases passed : m.isPassedOver d <;> simp [realAt, passed, ih]

theorem realClassOf_eq (v : Value) :
    m.realClassOf v =
      ((m.lineage (m.classOf v)).find? fun d => !m.isPassedOver d).getD (m.classOf v) := by
  rw [← findSome?_realAt, ← join_climb, realClassOf, realClassOf?]
  cases m.climb m.realAt (m.classOf v) with
  | none => rfl
  | some r => rfl

theorem realClassOf?_of_find? {v : Value} {d : ObjId}
    (found : (m.lineage (m.classOf v)).find? (fun d => !m.isPassedOver d) = some d) :
    m.realClassOf? v = some d := by
  rw [← findSome?_realAt] at found
  rw [realClassOf?, climb_of_findSome? found]
  rfl

end GuestVM.Machine

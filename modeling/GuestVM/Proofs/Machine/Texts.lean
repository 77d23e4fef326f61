import GuestVM.Proofs.Machine.Change
import GuestVM.Proofs.Machine.Naming
import GuestVM.Proofs.Machine.Nesting

/-! # Texts of values

The text of a value is put together from the texts of its parts, so writing one is a walk through the
parts (`walked_texts`).  It ends unless it comes to a value that is among its own parts, and more
levels than a machine allows itself show nothing more (`inspectWithin_eq_inspect`). -/
set_option autoImplicit false

namespace GuestVM.Machine

variable {m m' : Machine} {n k : Nat} {v : Value} {c : ObjId}

/-! ## Parts -/

/-- The value whose text is in the name of a class. -/
def nameParts (m : Machine) (c : ObjId) : List Value :=
  match m.classData? c with
  | some { name := some _, .. } => []
  | some { kind := .singleton attached, .. } => [attached]
  | _ => []

/-- The values whose texts are in the text of an object.  An object whose class is not found, as its
chain goes in a circle, has a text without end, as one with itself in it has. -/
def parts (m : Machine) (x : ObjId) : List Value :=
  match m.body? (.obj x) with
  | none | some (.string _) => []
  | some (.class _) => m.nameParts x
  | some (.range r) => [r.first, r.last]
  | some (.array items) => items.toList
  | some _ => (m.realClassOf? (.obj x)).elim [.obj x] m.nameParts

/-- What shows in the text of an object is the same in both machines, apart from its parts. -/
structure LooksAlike (m m' : Machine) (x : ObjId) : Prop where
  symbols : m'.symbols = m.symbols
  body : m'.body? (.obj x) = m.body? (.obj x)
  real : m'.realClassOf? (.obj x) = m.realClassOf? (.obj x)
  own : m'.classData? x = m.classData? x
  named : ∀ c, m.realClassOf? (.obj x) = some c → m'.classData? c = m.classData? c

theorem LooksAlike.refl (m : Machine) (x : ObjId) : m.LooksAlike m x :=
  ⟨rfl, rfl, rfl, rfl, fun _ _ => rfl⟩

section Congruence

variable {text text' : Value → Option String}

theorem classNameBy_congr_parts (symbols : m'.symbols = m.symbols)
    (data : m'.classData? c = m.classData? c) (same : ∀ w ∈ m.nameParts c, text' w = text w) :
    m'.classNameBy text' c = m.classNameBy text c := by
  rw [nameParts] at same
  rw [classNameBy, classNameBy, data]
  simp only [symName, symbols]
  generalize m.classData? c = known at same
  rcases known with _ | ⟨_ | s, superclass, _ | _ | attached, methods, consts⟩
  case some.none.singleton => simp [same attached (List.mem_singleton_self _)]
  all_goals rfl

theorem isSome_classNameBy :
    (m.classNameBy text c).isSome ↔ ∀ w ∈ m.nameParts c, (text w).isSome := by
  rw [nameParts, classNameBy]
  rcases m.classData? c with _ | ⟨_ | s, superclass, _ | _ | attached, methods, consts⟩
  case some.none.singleton => cases found : text attached <;> simp [found]
  all_goals simp

theorem mapM_congr_parts {items : List Value} (same : ∀ w ∈ items, text' w = text w) :
    items.mapM text' = items.mapM text := by
  induction items with
  | nil => rfl
  | cons w rest ih =>
      rw [List.mapM_cons, List.mapM_cons, same w List.mem_cons_self,
        ih fun u member => same u (List.mem_cons_of_mem _ member)]

theorem isSome_mapM {items : List Value} :
    (items.mapM text).isSome ↔ ∀ w ∈ items, (text w).isSome := by
  induction items with
  | nil => simp
  | cons w rest ih =>
      rw [List.mapM_cons, List.forall_mem_cons, ← ih]
      cases text w <;> cases rest.mapM text <;> simp

end Congruence

theorem isSome_bind_some {α β : Type} {o : Option α} {f : α → β} :
    (do return f (← o) : Option β).isSome ↔ o.isSome := by
  cases o <;> simp

theorem inspectWithin_congr_parts {x : ObjId} (alike : m.LooksAlike m' x)
    (same : ∀ w ∈ m.parts x, m'.inspectWithin n w = m.inspectWithin k w) :
    m'.inspectWithin (n + 1) (.obj x) = m.inspectWithin (k + 1) (.obj x) := by
  rw [parts] at same
  rw [inspectWithin, inspectWithin, alike.body, alike.real]
  cases found : m.body? (.obj x) with
  | none => rfl
  | some body =>
      rw [found] at same
      cases body with
      | string bytes => rfl
      | «class» data => exact classNameBy_congr_parts alike.symbols alike.own same
      | range r =>
          simp only [List.forall_mem_cons] at same
          simp only [same.1, same.2.1]
      | array items => simp only [mapM_congr_parts same]
      | _ =>
          simp only at same ⊢
          cases real : m.realClassOf? (.obj x) with
          | none => rfl
          | some c =>
              rw [real, Option.elim_some] at same
              have name := classNameBy_congr_parts alike.symbols (alike.named c real) same
              simp only [Option.bind_eq_bind, Option.bind_some, name]

theorem isSome_inspectWithin {x : ObjId} :
    (m.inspectWithin (n + 1) (.obj x)).isSome ↔
      ∀ w ∈ m.parts x, (m.inspectWithin n w).isSome := by
  rw [parts, inspectWithin]
  cases found : m.body? (.obj x) with
  | none => simp
  | some body =>
      cases body with
      | string bytes => simp
      | «class» data => exact isSome_classNameBy
      | range r =>
          simp only [List.forall_mem_cons]
          cases m.inspectWithin n r.first <;> cases m.inspectWithin n r.last <;> simp
      | array items => exact isSome_bind_some.trans isSome_mapM
      | _ =>
          cases real : m.realClassOf? (.obj x) with
          | none => cases n <;> simp [inspectWithin, found, real]
          | some c => exact isSome_bind_some.trans isSome_classNameBy

/-! ## Levels -/

theorem inspectWithin_succ (written : (m.inspectWithin n v).isSome) :
    m.inspectWithin (n + 1) v = m.inspectWithin n v := by
  induction n generalizing v with
  | zero => cases written
  | succ n ih =>
      cases v with
      | obj x =>
          exact inspectWithin_congr_parts (.refl m x) fun w member =>
            ih (isSome_inspectWithin.mp written w member)
      | _ => rfl

theorem inspectWithin_of_le (written : (m.inspectWithin n v).isSome) (more : n ≤ k) :
    m.inspectWithin k v = m.inspectWithin n v := by
  induction more with
  | refl => rfl
  | step _ ih => rw [inspectWithin_succ (ih ▸ written), ih]

/-- The text of the second value is in the text of the first. -/
inductive Shows (m : Machine) : Value → Value → Prop where
  | part {x : ObjId} {w : Value} (inside : w ∈ m.parts x) : Shows m (.obj x) w

theorem live_of_mem_parts {x : ObjId} {w : Value} (inside : w ∈ m.parts x) : m.Live x := by
  by_contra dead
  have gone : m.object? x = none := by simpa [Live] using dead
  simp [parts, body?, Value.asObj, gone] at inside

theorem walked_texts (m : Machine) : m.Walked m.Shows fun n v => (m.inspectWithin n v).isSome where
  zero _ := nofun
  succ n v := by
    cases v with
    | obj x =>
        rw [isSome_inspectWithin]
        constructor
        · rintro all w ⟨inside⟩
          exact all w inside
        · exact fun all w inside => all w (.part inside)
    | _ => exact iff_of_true rfl nofun
  live := by
    rintro v w ⟨inside⟩
    exact ⟨_, rfl, live_of_mem_parts inside⟩

theorem isSome_inspect_iff : (m.inspect v).isSome ↔ ¬ Recurs m.Shows v :=
  m.walked_texts.ends_iff (Nat.lt_succ_self _)

/-- More levels than a machine allows itself show nothing more. -/
theorem inspectWithin_eq_inspect (more : m.heap.slots.size < n) :
    m.inspectWithin n v = m.inspect v := by
  by_cases written : (m.inspect v).isSome
  · exact inspectWithin_of_le written more
  · have unwritten : ¬ (m.inspectWithin n v).isSome := by
      rwa [m.walked_texts.ends_iff more, ← isSome_inspect_iff]
    rw [Option.not_isSome_iff_eq_none.mp written, Option.not_isSome_iff_eq_none.mp unwritten]

theorem isSome_className_iff :
    (m.className c).isSome ↔ ∀ w ∈ m.nameParts c, ¬ Recurs m.Shows w := by
  simp only [className, isSome_classNameBy, isSome_inspect_iff]

end GuestVM.Machine

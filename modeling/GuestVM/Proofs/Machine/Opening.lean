import GuestVM.Machine.Boot
import GuestVM.Proofs.Machine.Naming

/-! # New machines

The actions that fill a new machine look at neither its handle nor its configuration, so one new
machine shows what all of them hold (`opened_eq`).  What is needed of it is checked object by
object. -/
set_option autoImplicit false

namespace GuestVM

def Machine.renamed (m : Machine) (h : Handle) (c : Config) : Machine :=
  { m with handle := h, config := c }

namespace Act

variable {α β : Type}

/-- An action does the same whatever the handle and the configuration. -/
def Blind (a : Act α) : Prop :=
  ∀ m h c, a.run.run (m.renamed h c) = ((a.run.run m).1, (a.run.run m).2.renamed h c)

namespace Blind

theorem result (x : α) : Blind (pure x : Act α) := fun _ _ _ => rfl

protected theorem bind {a : Act α} {f : α → Act β} (first : Blind a) (rest : ∀ x, Blind (f x)) :
    Blind (a >>= f) := by
  intro m h c
  rw [run_bind, run_bind, first m h c]
  rcases a.run.run m with ⟨e | x, after⟩
  · rfl
  · exact rest x after h c

/-- Reading the machine, as long as what is read does not depend on the two. -/
theorem get_bind {f : Machine → Act β} (same : ∀ m h c, f (m.renamed h c) = f m)
    (rest : ∀ m, Blind (f m)) : Blind ((get : Act Machine) >>= f) := by
  intro m h c
  rw [run_get_bind, run_get_bind, same]
  exact rest m m h c

theorem forM {f : α → Act PUnit} (each : ∀ x, Blind (f x)) (xs : List α) : Blind (xs.forM f) := by
  induction xs with
  | nil => exact result _
  | cons x xs ih => exact (each x).bind fun _ => ih

end Blind

theorem blind_ofOption (o : Option α) : Blind (ofOption o) := by
  cases o <;> exact fun _ _ _ => rfl

theorem blind_onHeap (f : Heap → Heap) : Blind (onHeap f) := fun _ _ _ => rfl

theorem blind_alloc (o : Object) : Blind (alloc o) := fun _ _ _ => rfl

theorem blind_intern (name : String) : Blind (intern name) := fun _ _ _ => rfl

theorem blind_fail (b : Builtin) (message : String) : Blind (fail b message : Act α) := by
  have current : ∀ v, Blind (do
      modify fun m => { m with exc := v.asObj }
      let m ← get
      let name ← ofOption (m.realClassName v)
      return ({ value := v, className := name, message := m.exceptionMessage v } : Raised)) := by
    intro v
    refine Blind.bind (fun _ _ _ => rfl) fun _ => .get_bind ?_ ?_
    · intro m h c
      have slots : (m.renamed h c).heap.slots = m.heap.slots := rfl
      have symbols : (m.renamed h c).symbols = m.symbols := rfl
      rw [Machine.realClassName_congr slots symbols]
      rfl
    · exact fun m => (blind_ofOption _).bind fun _ => .result _
  have made : ∀ c message, Blind (exceptionNew c message) :=
    fun c message => (blind_alloc _).bind fun _ => .result _
  refine Blind.bind ((made _ message).bind fun v => .get_bind ?_ ?_) fun e => fun _ _ _ => rfl
  · intro m h c
    rfl
  · intro m
    split
    · exact (Blind.result v).bind current
    · exact (made _ _).bind current

theorem blind_newSingleton (id : ObjId) (v : Value) (superclass : ObjId) :
    Blind (newSingleton id v superclass) :=
  (blind_alloc _).bind fun _ => (blind_onHeap _).bind fun _ => .result _

theorem blind_singletonWithin (n : Nat) (v : Value) : Blind (singletonWithin n v) := by
  induction n generalizing v with
  | zero => exact fun _ _ _ => rfl
  | succ n ih =>
      refine .get_bind (fun _ _ _ => rfl) fun m => ?_
      split
      · exact blind_fail _ _
      case h_2 id o found =>
        dsimp only
        split
        · exact .result _
        split
        · exact (ih _).bind (blind_newSingleton id v)
        · exact (Blind.result o.cls).bind (blind_newSingleton id v)

theorem blind_newClass (name : String) (superclass : Option ObjId) (kind : ClassKind) :
    Blind (newClass name superclass kind) := by
  have named : Blind (some <$> intern name) := by
    rw [← bind_pure_comp]
    exact (blind_intern name).bind fun _ => .result _
  unfold newClass
  by_cases nameless : name.isEmpty = true
  · rw [if_pos nameless]
    exact (Blind.result none).bind fun _ => blind_alloc _
  · rw [if_neg nameless]
    exact named.bind fun _ => blind_alloc _

theorem blind_putConst (c : ObjId) (s : Sym) (v : Value) : Blind (putConst c s v) :=
  fun _ _ _ => rfl

theorem blind_boot : Blind boot := by
  refine (Blind.forM ?_ _).bind fun _ => (Blind.forM ?_ _).bind fun _ =>
    (Blind.forM ?_ _).bind fun _ => ?_
  · exact fun b => (blind_newClass _ _ _).bind fun _ => .result _
  · exact fun b => (blind_intern _).bind fun s => blind_putConst _ s _
  · exact fun b => Blind.bind (.get_bind (fun _ _ _ => rfl) fun _ => blind_singletonWithin _ _)
      fun _ => .result _
  · exact (blind_alloc _).bind fun _ => Blind.bind (fun _ _ _ => rfl) fun _ => blind_onHeap _

theorem Blind.onEmpty {a : Act α} (blind : Blind a) (h : Handle) (c : Config) :
    (a.run.run { handle := h, config := c }).2 =
      (a.run.run { handle := ⟨0⟩, config := {} }).2.renamed h c :=
  congrArg Prod.snd (blind { handle := ⟨0⟩, config := {} } h c)

end Act

/-! ## What new machines hold -/

/-- What is known of an object of a new machine: it names live objects, and it is a class whose
superclass was made before it, or has no special body. -/
def Object.Original (m : Machine) (id : ObjId) (o : Object) : Prop :=
  (∀ x ∈ o.references, m.Live x) ∧
    match o.body with
    | .class c => (∀ p ∈ c.superclass, p.slot < id.slot) ∧
        (c.superclass.isSome ∨ c.kind = .plain ∨ c.kind = .module)
    | .object => True
    | _ => False

instance (m : Machine) (id : ObjId) (o : Object) : Decidable (o.Original m id) :=
  match h : o.body with
  | .class c =>
    decidable_of_iff ((∀ x ∈ o.references, m.Live x) ∧ (∀ p ∈ c.superclass, p.slot < id.slot) ∧
      (c.superclass.isSome ∨ c.kind = .plain ∨ c.kind = .module)) (by simp [Object.Original, h])
  | .object =>
    decidable_of_iff (∀ x ∈ o.references, m.Live x) (by simp [Object.Original, h])
  | .proc _ | .array _ | .hash _ | .string _ | .range _ | .exception _ | .env _ _ | .istruct _ =>
    .isFalse (by simp [Object.Original, h])

structure Machine.Original (m : Machine) : Prop where
  tidy : m.heap.Tidy
  roots : ∀ x ∈ m.roots, m.Live x
  arena : m.heap.arena.toList = []
  exc : m.exc = none
  frames : m.frames = []
  objects : ∀ id o, m.object? id = some o → o.Original m id

theorem Machine.Original.renamed {m : Machine} (original : m.Original) (h : Handle) (c : Config) :
    (m.renamed h c).Original :=
  ⟨original.tidy, original.roots, original.arena, original.exc, original.frames, original.objects⟩

abbrev Machine.sample : Machine := .opened ⟨0⟩ {}

theorem Machine.opened_eq (h : Handle) (c : Config) : opened h c = sample.renamed h c :=
  Act.blind_boot.onEmpty h c

theorem Machine.original_of_checks {m : Machine}
    (checks : (m.heap.free = Heap.emptySlots m.heap.slots ∧
        ∀ id ∈ m.heap.liveIds, m.heap.isMarked id = false) ∧ (∀ x ∈ m.roots, m.Live x) ∧
      m.heap.arena.toList = [] ∧ m.exc = none ∧ m.frames = [] ∧
      ∀ id ∈ m.heap.liveIds, ∀ o ∈ (m.object? id).toList, o.Original m id) : m.Original := by
  obtain ⟨⟨free, unmarked⟩, roots, arena, exc, frames, objects⟩ := checks
  refine ⟨⟨free, Heap.unmarked_of_liveIds unmarked⟩, roots, arena, exc, frames, ?_⟩
  intro id o present
  refine objects id ?_ o (Option.mem_toList.mpr present)
  exact Heap.mem_liveIds.mpr (Option.isSome_of_eq_some present)

theorem Machine.original_opened (h : Handle) (c : Config) : (opened h c).Original := by
  rw [opened_eq]
  exact (original_of_checks (by decide +kernel)).renamed h c

theorem Machine.handle_opened (h : Handle) (c : Config) : (opened h c).handle = h := by
  rw [opened_eq]
  rfl

/-- There is room for a call and a call inside it. -/
theorem Machine.room_opened (h : Handle) :
    (opened h {}).depth + 1 < (opened h {}).config.maxCallDepth.toNat := by
  rw [depth, (original_opened h {}).frames, opened_eq]
  change 0 + 1 < ({} : Config).maxCallDepth.toNat
  decide

end GuestVM

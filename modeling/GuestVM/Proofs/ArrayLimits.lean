import GuestVM.Proofs.Bridge.Handles
import GuestVM.Proofs.HostErrors
import Mathlib.Algebra.Group.Int.Defs
import Mathlib.Algebra.Group.Nat.Defs

/-! # Limits of array writes

A write to an array is refused or done as a whole (`Machine.Stores`); where the line between the two
runs is `Config.Admits`.  Writes in place do not make an array longer, and still those at the limit
and past it are refused (`Config.Permits`); and where the limit is no signed word, all of them are. -/
set_option autoImplicit false

namespace GuestVM

namespace Config

/-- A write at the position makes no array of the size longer than the limit. -/
def Permits (c : Config) (size : Nat) (position : Int) : Prop :=
  0 ≤ position ∧ (position < size ∨ position < c.maxArrayLen.toNat)

/-- Writes at the position are done, whatever the size of the array. -/
def Admits (c : Config) (position : Int) : Prop :=
  0 ≤ position ∧ position < c.maxArrayLen.toNat ∧ c.maxArrayLen.toNat < 2 ^ 63

instance (c : Config) (position : Int) : Decidable (c.Admits position) :=
  inferInstanceAs (Decidable (_ ∧ _))

variable {c : Config} {size : Nat} {position : Int}

theorem indexLimit_eq (c : Config) :
    c.indexLimit =
      if c.maxArrayLen.toNat < 2 ^ 63 then (c.maxArrayLen.toNat : Int)
      else c.maxArrayLen.toNat - 2 ^ 64 := by
  have bound : c.maxArrayLen.toNat < 2 ^ 64 := c.maxArrayLen.toNat_lt
  -- The cast keeps the bits and reads them with a sign.
  have word : c.indexLimit = (c.maxArrayLen.toNat : Int).bmod (2 ^ 64) := by
    rw [indexLimit, Int64.toInt, UInt64.toBitVec_toInt64, BitVec.toInt_eq_toNat_bmod]
    rfl
  rw [word, Int.bmod_def]
  split_ifs <;> omega

theorem admits_iff : c.Admits position ↔ 0 ≤ position ∧ position < c.indexLimit := by
  have bound : c.maxArrayLen.toNat < 2 ^ 64 := c.maxArrayLen.toNat_lt
  rw [Admits, indexLimit_eq]
  split_ifs <;> omega

theorem Admits.permits (admits : c.Admits position) : c.Permits size position :=
  ⟨admits.1, .inr admits.2.1⟩

/-- What is refused for no reason: the limit is no signed word, or the write is one in place. -/
theorem Permits.not_admits_iff (permits : c.Permits size position) :
    ¬ c.Admits position ↔ 2 ^ 63 ≤ c.maxArrayLen.toNat ∨ c.maxArrayLen.toNat ≤ position := by
  unfold Permits Admits at *
  omega

end Config

/-! ## Positions -/

/-- The element at a position, `nil` outside. -/
def valueAt (items : Array Value) (position : Int) : Value :=
  if position < 0 then .nil else items[position.toNat]?.getD .nil

/-- The size of an array after a write at a position. -/
def sizeWith (size : Nat) (position : Int) : Nat := max size (position + 1).toNat

section Positions

variable {items : Array Value} {position : Int} {v : Value}

theorem size_itemsWith (items : Array Value) (p : Nat) (v : Value) :
    (Act.itemsWith items p v).size = max items.size (p + 1) := by
  simp only [Act.itemsWith, Array.size_setIfInBounds, Array.size_append, Array.size_replicate]
  omega

theorem getElem?_itemsWith (items : Array Value) (p : Nat) (v : Value) (j : Nat) :
    (Act.itemsWith items p v)[j]?.getD .nil = if j = p then v else items[j]?.getD .nil := by
  unfold Act.itemsWith
  by_cases same : j = p
  · subst same
    rw [if_pos rfl, Array.getElem?_setIfInBounds_self_of_lt (by simp; omega), Option.getD_some]
  rw [if_neg same, Array.getElem?_setIfInBounds_ne (Ne.symm same), Array.getElem?_append]
  split
  · rfl
  case isFalse past =>
      rw [Array.getElem?_replicate, Array.getElem?_eq_none (Nat.not_lt.mp past)]
      split <;> rfl

theorem valueAt_itemsWith (inside : 0 ≤ position) (place : Int) :
    valueAt (Act.itemsWith items position.toNat v) place =
      if place = position then v else valueAt items place := by
  unfold valueAt
  by_cases before : place < 0
  · have apart : place ≠ position := by omega
    simp only [if_pos before, if_neg apart]
  · have same : place.toNat = position.toNat ↔ place = position := by omega
    simp only [if_neg before, getElem?_itemsWith, same]

theorem valueAt_push (place : Int) :
    valueAt (items.push v) place = if place = items.size then v else valueAt items place := by
  unfold valueAt
  by_cases before : place < 0
  · have apart : place ≠ items.size := by omega
    simp only [if_pos before, if_neg apart]
  · have same : place.toNat = items.size ↔ place = items.size := by omega
    simp only [if_neg before, Array.getElem?_push, ← same]
    split <;> simp_all

/-- The word arithmetic on positions in an array that can be in memory is exact. -/
theorem resolveIndex_exact {size : Nat} (room : size < 2 ^ 63) (index : Int64) :
    (if index < 0 then index + Int64.ofNat size else index).toInt = resolveIndex index size ∧
      resolveIndex index size + 1 < 2 ^ 64 := by
  have least : -2 ^ 63 ≤ index.toInt := Int64.le_toInt index
  have greatest : index.toInt < 2 ^ 63 := Int64.toInt_lt index
  unfold resolveIndex
  split
  case isTrue negative =>
      have below : index.toInt < 0 := Int64.lt_iff_toInt_lt.mp negative
      rw [Int64.toInt_add, Int64.toInt_ofNat_of_lt room,
        Int.bmod_eq_of_le (by omega) (by omega)]
      omega
  case isFalse => omega

end Positions

/-! ## Writes -/

/-- `v` is stored at a position of the array `x`, and all the rest of the machine is what it was. -/
structure Machine.Stores (m : Machine) (x : ObjId) (o : Object) (items : Array Value)
    (position : Int) (v : Value) (m' : Machine) : Prop where
  only : ∃ written, m' = m.put x { o with body := .array written }
  length : (Act.arrayLen (.obj x)).run.run m' = (.ok (sizeWith items.size position), m')
  /-- Positions count in the new array; what was in the old one is in it still, and between the two
  is `nil`. -/
  reads : ∀ index, (Act.arrayGet (.obj x) index).run.run m' =
    (.ok (if resolveIndex index (sizeWith items.size position) = position then v
      else valueAt items (resolveIndex index (sizeWith items.size position))), m')

/-- What comes of writes to the unfrozen array `x` with the given items. -/
structure Machine.LimitsWrites (m : Machine) (x : ObjId) (o : Object) (items : Array Value) :
    Prop where
  set : ∀ index v, m.config.Admits (resolveIndex index items.size) →
    ∃ m', (Act.arraySet (.obj x) index v).run.run m = (.ok (), m') ∧
      m.Stores x o items (resolveIndex index items.size) v m'
  before : ∀ index v, resolveIndex index items.size < 0 →
    m.Fails (Act.arraySet (.obj x) index v) .indexError ("index " ++ toString index.toInt
      ++ " too small for array; minimum: -" ++ toString items.size)
  beyond : ∀ index v, 0 ≤ resolveIndex index items.size →
    ¬ m.config.Admits (resolveIndex index items.size) →
    m.Fails (Act.arraySet (.obj x) index v) .indexError
      ("index " ++ toString index.toInt ++ " too big")
  push : ∀ v, items.size < m.config.maxArrayLen.toNat →
    ∃ m', (Act.arrayPush (.obj x) v).run.run m = (.ok (), m') ∧
      m.Stores x o items items.size v m'
  full : ∀ v, m.config.maxArrayLen.toNat ≤ items.size →
    m.Fails (Act.arrayPush (.obj x) v) .argumentError "array size too big"
  /-- What is refused although it would make no array longer than the limit. -/
  refused : ∀ index, m.config.Permits items.size (resolveIndex index items.size) →
    (¬ m.config.Admits (resolveIndex index items.size) ↔
      2 ^ 63 ≤ m.config.maxArrayLen.toNat ∨
        m.config.maxArrayLen.toNat ≤ resolveIndex index items.size)
  exact : ∀ index : Int64, items.size < 2 ^ 63 →
    (if index < 0 then index + Int64.ofNat items.size else index).toInt =
        resolveIndex index items.size ∧
      resolveIndex index items.size + 1 < 2 ^ 64

section Writing

variable {m : Machine} {x : ObjId} {o : Object} {items : Array Value}

theorem Machine.items_of_body (present : m.object? x = some o) (body : o.body = .array items) :
    m.items (.obj x) = items := by
  simp [Machine.items, Machine.body?, Value.asObj, present, body]

theorem Act.run_arrayItems (present : m.object? x = some o) (body : o.body = .array items) :
    (Act.arrayItems (.obj x)).run.run m = (.ok items, m) := by
  have typed : m.typeOf (.obj x) = .array := by rw [Machine.typeOf_obj present, Object.tag, body]
  unfold arrayItems
  rw [run_ok_bind (run_expectType typed), run_get_bind, Machine.items_of_body present body]
  rfl

theorem Act.run_arraySet (present : m.object? x = some o) (body : o.body = .array items)
    (thawed : o.frozen = false) (index : Int64) (v : Value) {position : Int}
    (resolved : resolveIndex index items.size = position) :
    (Act.arraySet (.obj x) index v).run.run m =
      if position < 0 then (Act.fail .indexError ("index " ++ toString index.toInt
          ++ " too small for array; minimum: -" ++ toString items.size)).run.run m
      else if m.config.indexLimit ≤ position then
        (Act.fail .indexError ("index " ++ toString index.toInt ++ " too big")).run.run m
      else (.ok (), m.put x { o with body := .array (itemsWith items position.toNat v) }) := by
  have typed : m.typeOf (.obj x) = .array := by rw [Machine.typeOf_obj present, Object.tag, body]
  unfold arraySet
  rw [run_ok_bind (run_expectType typed), run_ok_bind (run_checkFrozen present thawed),
    run_get_bind]
  simp only [Machine.items_of_body present body, resolved]
  by_cases before : position < 0
  · rw [if_pos before, if_pos before]
    exact run_fail_bind _ _ _
  rw [if_neg before, if_neg before]
  by_cases beyond : m.config.indexLimit ≤ position
  · rw [if_pos beyond, if_pos beyond]
    exact run_fail_bind _ _ _
  rw [if_neg beyond, if_neg beyond]
  exact run_setBody present _

theorem Machine.stores (present : m.object? x = some o) {written : Array Value}
    {position : Int} {v : Value} (size : written.size = sizeWith items.size position)
    (values : ∀ place, valueAt written place = if place = position then v else valueAt items place) :
    m.Stores x o items position v (m.put x { o with body := .array written }) := by
  have found : (m.put x { o with body := .array written }).object? x =
      some { o with body := .array written } := object?_put_self present
  refine ⟨⟨written, rfl⟩, ?_, fun index => ?_⟩
  · unfold Act.arrayLen
    rw [Act.run_ok_bind (Act.run_arrayItems found rfl), size]
    rfl
  · unfold Act.arrayGet
    rw [Act.run_ok_bind (Act.run_arrayItems found rfl)]
    simp only [← size, ← values]
    rfl

theorem Machine.Established.limitsWrites (established : m.Established)
    (present : m.object? x = some o) (body : o.body = .array items) (thawed : o.frozen = false) :
    m.LimitsWrites x o items := by
  have ran := fun index v => Act.run_arraySet present body thawed index v rfl
  constructor
  case set =>
      intro index v admits
      obtain ⟨inside, below⟩ := Config.admits_iff.mp admits
      refine ⟨_, (ran index v).trans ?_, Machine.stores present ?_ (valueAt_itemsWith inside)⟩
      · rw [if_neg (Int.not_lt.mpr inside), if_neg (Int.not_le.mpr below)]
      · rw [size_itemsWith, sizeWith]
        omega
  case before =>
      intro index v before
      have ran := ran index v
      rw [if_pos before] at ran
      exact established.fails ran
  case beyond =>
      intro index v inside refused
      have ran := ran index v
      rw [Config.admits_iff] at refused
      rw [if_neg (Int.not_lt.mpr inside), if_pos (by omega)] at ran
      exact established.fails ran
  case push =>
      intro v room
      cases serves_array present body with
      | array items' body' reads writes =>
        cases body.symm.trans body'
        refine ⟨_, writes v thawed room, Machine.stores present ?_ fun _ => valueAt_push _⟩
        rw [Array.size_push, sizeWith]
        omega
  case full =>
      intro v full
      apply established.fails
      have typed : m.typeOf (.obj x) = .array := by
        rw [Machine.typeOf_obj present, Object.tag, body]
      unfold Act.arrayPush
      rw [Act.run_ok_bind (Act.run_expectType typed),
        Act.run_ok_bind (Act.run_checkFrozen present thawed), Act.run_get_bind,
        Machine.items_of_body present body, if_pos full]
      exact Act.run_fail_bind _ _ _
  case refused => exact fun index permits => permits.not_admits_iff
  case exact => exact fun index room => resolveIndex_exact room index

end Writing

namespace Situation

attribute [local irreducible] Machine.opened

variable {now : Situation} {name : String} {i : Instance} {x : ObjId} {o : Object}
  {items : Array Value}

/-- What comes of writes to an unfrozen array at any moment in the life of any machine, whatever its
limit is and however long the array has become. -/
theorem array_limits (run : Run Anything {} now) (present : now.world.instance? name = some i)
    (array : i.machine.object? x = some o) (body : o.body = .array items)
    (thawed : o.frozen = false) : i.machine.LimitsWrites x o items :=
  (run.established present).limitsWrites array body thawed

/-! ## An array longer than the limit -/

/-- A machine whose arrays do not grow past two elements. -/
def cramped : Config := { maxArrayLen := 2 }

def threeItems : Object := { cls := Builtin.array.id, body := .array #[.int 1, .int 2, .int 3] }

def makingThree : Script := .guest (.arrayNew [.int 1, .int 2, .int 3]) Script.ret

/-- The scene after the script in the machine `m`. -/
def threeMade (m : Machine) : Scene where
  script := Script.ret (.obj (m.newId threeItems))
  stage := { machine := m.withNew threeItems }

theorem step_makingThree (m : Machine) :
    Scene.step ⟨makingThree, [], { machine := m }⟩ = some (threeMade m) := rfl

def crampedOpened : Situation where
  world := World.openBare {} "vm" cramped

def crampedMaking : Situation :=
  { crampedOpened with
    plays := Function.update (fun _ => none) "vm" (some { script := makingThree }) }

theorem run_threeMade : Run Anything {}
    (crampedMaking.showing "vm" { machine := .opened ⟨1⟩ cramped }
      (threeMade (.opened ⟨1⟩ cramped))) := by
  have opened : Next {} (.openBare "vm" cramped) crampedOpened :=
    .openBare "vm" cramped ⟨rfl, nofun⟩
  have begun : Next crampedOpened (.begin "vm" makingThree) crampedMaking :=
    .begin "vm" makingThree { machine := .opened ⟨1⟩ cramped } rfl rfl
  have made : Next crampedMaking (.act "vm") _ :=
    .act "vm" { machine := .opened ⟨1⟩ cramped } _ _ rfl rfl (step_makingThree _) rfl
  exact .tail (.tail (.single ⟨_, trivial, opened⟩) ⟨_, trivial, begun⟩) ⟨_, trivial, made⟩

/-- Writing in place succeeds in front of the limit only. -/
theorem array_limits_three : ∃ now i x m', Run Anything {} now ∧
    now.world.instance? "vm" = some i ∧
      (Act.arraySet (.obj x) (-2) (.int 9)).run.run i.machine = (.ok (), m') ∧
      (Act.arrayGet (.obj x) 1).run.run m' = (.ok (.int 9), m') ∧
      i.machine.config.Permits 3 2 ∧
      i.machine.Fails (Act.arraySet (.obj x) 2 (.int 9)) .indexError "index 2 too big" := by
  have tidy : (Machine.opened ⟨1⟩ cramped).heap.Tidy :=
    (Machine.established_opened ⟨1⟩ cramped).tidy
  have present : (threeMade (.opened ⟨1⟩ cramped)).stage.machine.object?
      ((Machine.opened ⟨1⟩ cramped).newId threeItems) = some threeItems :=
    (Machine.object?_withNew tidy _ _).trans (if_pos rfl)
  have limits := array_limits run_threeMade (World.instance?_put_self _) present rfl rfl
  have config : (threeMade (.opened ⟨1⟩ cramped)).stage.machine.config = cramped := by
    change (Machine.opened ⟨1⟩ cramped).config = cramped
    rw [Machine.opened_eq]
    rfl
  obtain ⟨m', ran, stores⟩ := limits.set (-2) (.int 9) (by rw [config]; decide)
  refine ⟨_, _, _, m', run_threeMade, World.instance?_put_self _, ran, stores.reads 1, ?_,
    limits.beyond 2 (.int 9) (by decide) (by rw [config]; decide)⟩
  exact ⟨by decide, .inl (by decide)⟩

end Situation

end GuestVM

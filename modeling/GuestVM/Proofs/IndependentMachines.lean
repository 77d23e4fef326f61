import GuestVM.Proofs.Linked
import GuestVM.Proofs.Scene.Private

/-! # Operations in different machines commute

No two linked machines share an index, so a script that acts within the index of its machine and one
that acts within the index of another look at different tables, and neither changes the registry.
Run one after the other, they come to the same in either order. -/
set_option autoImplicit false

namespace GuestVM

/-- A machine when its script has ended on a stage. -/
def Instance.ended (i : Instance) (s : Stage) : Instance :=
  { i with machine := s.machine, bindings := s.memory.bindings }

namespace World

/-! ## Scripts in turn -/

/-- How a script ends, and its journal. -/
abbrev Report : Type := Outcome × List Document

/-- A script in a machine, and then one in another. -/
def inTurn (w : World) (fuel : Nat) (name : String) (p : Script) (fuel' : Nat) (other : String)
    (q : Script) : Option (Report × Report × World) := do
  let (o, journal, w) ← w.enter fuel name p
  let (o', journal', w) ← w.enter fuel' other q
  return ((o, journal), (o', journal'), w)

/-- Two worlds with the same machines and the same bridge. -/
structure Same (w w' : World) : Prop where
  instances : ∀ name, w'.instance? name = w.instance? name
  registry : w'.bridge.registry = w.bridge.registry
  tables : ∀ index, w'.bridge.tables.table? index = w.bridge.tables.table? index
  nextHandle : w'.nextHandle = w.nextHandle

/-! ## What one script comes to -/

/-- The stage on which a script of a machine begins. -/
def stage (w : World) (i : Instance) : Stage where
  machine := i.machine
  bridge := w.bridge
  memory := { bindings := i.bindings }

/-- The world when the script of a machine has ended on a stage. -/
def leaving (w : World) (name : String) (i : Instance) (s : Stage) : World :=
  { w.put name (i.ended s) with bridge := s.bridge }

variable {w w' w'' : World} {name other : String} {k l : Nat} {i j : Instance} {p q : Script}
  {s t : Stage} {o o' : Outcome}

theorem enter_eq (present : w.instance? name = some i) (fuel : Nat) (p : Script) :
    w.enter fuel name p = (Stage.run fuel p (w.stage i)).map fun (o, s) =>
      (o, s.memory.journal.toList, w.leaving name i s) := by
  simp only [enter, present, stage]
  split <;> simp_all [leaving, Instance.ended]

theorem instance?_leaving_self : (w.leaving name i s).instance? name = some (i.ended s) :=
  instance?_put_self _

theorem instance?_leaving_of_ne (apart : other ≠ name) :
    (w.leaving name i s).instance? other = w.instance? other :=
  instance?_put_of_ne _ apart

/-! ## What two scripts come to -/

/-- Two machines with an index each, and a script for each that keeps to its index. -/
structure Apart (w : World) (name : String) (k : Nat) (i : Instance) (p : Script) (other : String)
    (l : Nat) (j : Instance) (q : Script) : Prop where
  names : name ≠ other
  indices : k ≠ l
  first : w.instance? name = some i
  second : w.instance? other = some j
  alone : Scene.Private k ⟨p, [], w.stage i⟩
  alone' : Scene.Private l ⟨q, [], w.stage j⟩

/-- Two scripts have ended, each as if it had run alone, and all else is as it was. -/
structure Both (w : World) (name : String) (k : Nat) (i : Instance) (s : Stage) (other : String)
    (l : Nat) (j : Instance) (t : Stage) (w' : World) : Prop where
  first : w'.instance? name = some (i.ended s)
  second : w'.instance? other = some (j.ended t)
  instances : ∀ x, x ≠ name → x ≠ other → w'.instance? x = w.instance? x
  registry : w'.bridge.registry = w.bridge.registry
  table : w'.bridge.tables.table? k = s.bridge.tables.table? k
  table' : w'.bridge.tables.table? l = t.bridge.tables.table? l
  tables : ∀ x, x ≠ k → x ≠ l → w'.bridge.tables.table? x = w.bridge.tables.table? x
  nextHandle : w'.nextHandle = w.nextHandle

namespace Both

theorem symm (both : Both w name k i s other l j t w') : Both w other l j t name k i s w' where
  first := both.second
  second := both.first
  instances := fun x apart apart' => both.instances x apart' apart
  registry := both.registry
  table := both.table'
  table' := both.table
  tables := fun x apart apart' => both.tables x apart' apart
  nextHandle := both.nextHandle

theorem same (both : Both w name k i s other l j t w') (both' : Both w name k i s other l j t w'') :
    Same w' w'' where
  instances := by
    intro x
    by_cases here : x = name
    · rw [here, both.first, both'.first]
    by_cases there : x = other
    · rw [there, both.second, both'.second]
    rw [both.instances x here there, both'.instances x here there]
  registry := both'.registry.trans both.registry.symm
  tables := by
    intro x
    by_cases here : x = k
    · rw [here, both.table, both'.table]
    by_cases there : x = l
    · rw [there, both.table', both'.table']
    rw [both.tables x here there, both'.tables x here there]
  nextHandle := both'.nextHandle.trans both.nextHandle.symm

end Both

namespace Apart

theorem symm (apart : Apart w name k i p other l j q) : Apart w other l j q name k i p where
  names := apart.names.symm
  indices := apart.indices.symm
  first := apart.second
  second := apart.first
  alone := apart.alone'
  alone' := apart.alone

theorem inTurn_eq_map (apart : Apart w name k i p other l j q) {fuel : Nat}
    (ran : Stage.run fuel p (w.stage i) = some (o, s)) (fuel' : Nat) :
    w.inTurn fuel name p fuel' other q =
      (Stage.run fuel' q ((w.leaving name i s).stage j)).map fun (o', t) =>
        ((o, s.memory.journal.toList), (o', t.memory.journal.toList),
          (w.leaving name i s).leaving other j t) := by
  have present : (w.leaving name i s).instance? other = some j :=
    (instance?_leaving_of_ne apart.names.symm).trans apart.second
  rw [inTurn, enter_eq apart.first, ran]
  change Option.bind ((w.leaving name i s).enter fuel' other q) _ = _
  rw [enter_eq present]
  cases Stage.run fuel' q ((w.leaving name i s).stage j) <;> rfl

/-- Whether the one script has run before makes no difference to the other. -/
theorem together (apart : Apart w name k i p other l j q) {fuel : Nat}
    (ran : Stage.run fuel p (w.stage i) = some (o, s)) (fuel' : Nat) :
    Stage.Together l s.bridge (Stage.run fuel' q (w.stage j))
      (Stage.run fuel' q ((w.leaving name i s).stage j)) := by
  have only : Bridge.ButFor k w.bridge s.bridge := Scene.butFor_of_run apart.alone ran
  exact Scene.parallel_run fuel' q [] _ _ apart.alone'
    ⟨rfl, rfl, only.beside apart.indices.symm⟩

theorem inTurn_eq_none (apart : Apart w name k i p other l j q) {fuel fuel' : Nat}
    (one : Stage.run fuel p (w.stage i) = none ∨ Stage.run fuel' q (w.stage j) = none) :
    w.inTurn fuel name p fuel' other q = none := by
  cases ran : Stage.run fuel p (w.stage i) with
  | none =>
      rw [inTurn, enter_eq apart.first, ran]
      rfl
  | some ended =>
      obtain ⟨o, s⟩ := ended
      have after := apart.together ran fuel'
      rw [one.resolve_left (by simp [ran])] at after
      rw [apart.inTurn_eq_map ran, after.of_none]
      rfl

theorem inTurn_eq_some (apart : Apart w name k i p other l j q) {fuel fuel' : Nat}
    (ran : Stage.run fuel p (w.stage i) = some (o, s))
    (ran' : Stage.run fuel' q (w.stage j) = some (o', t)) :
    ∃ w', w.inTurn fuel name p fuel' other q =
        some ((o, s.memory.journal.toList), (o', t.memory.journal.toList), w') ∧
      Both w name k i s other l j t w' := by
  have only : Bridge.ButFor k w.bridge s.bridge := Scene.butFor_of_run apart.alone ran
  have after := apart.together ran fuel'
  rw [ran'] at after
  obtain ⟨t', same, machine, memory, bridge⟩ := after.of_some
  refine ⟨(w.leaving name i s).leaving other j t', ?_, ?_⟩
  · rw [apart.inTurn_eq_map ran, same]
    simp only [Option.map_some, memory]
  constructor
  · rw [instance?_leaving_of_ne apart.names, instance?_leaving_self]
  · rw [instance?_leaving_self, Instance.ended, Instance.ended, machine, memory]
  · intro x here there
    rw [instance?_leaving_of_ne there, instance?_leaving_of_ne here]
  · exact bridge.still.registry.trans only.registry
  · exact bridge.still.others k apart.indices
  · exact bridge.table
  · intro x here there
    exact (bridge.still.others x there).trans (only.others x here)
  · rfl

end Apart

/-- In either order, two such scripts come to the same. -/
theorem inTurn_commute (apart : Apart w name k i p other l j q) (fuel fuel' : Nat) :
    Option.Rel (fun x y => y.1 = x.2.1 ∧ y.2.1 = x.1 ∧ x.2.2.Same y.2.2)
      (w.inTurn fuel name p fuel' other q) (w.inTurn fuel' other q fuel name p) := by
  cases first : Stage.run fuel p (w.stage i) with
  | none =>
      rw [apart.inTurn_eq_none (.inl first), apart.symm.inTurn_eq_none (.inr first)]
      exact .none
  | some ended =>
      obtain ⟨o, s⟩ := ended
      cases second : Stage.run fuel' q (w.stage j) with
      | none =>
          rw [apart.inTurn_eq_none (.inr second), apart.symm.inTurn_eq_none (.inl second)]
          exact .none
      | some ended' =>
          obtain ⟨o', t⟩ := ended'
          obtain ⟨w', forth, both⟩ := apart.inTurn_eq_some first second
          obtain ⟨w'', back, both'⟩ := apart.symm.inTurn_eq_some second first
          rw [forth, back]
          exact .some ⟨rfl, rfl, both.same both'.symm⟩

end World

namespace Situation

variable {now : Situation} {name other : String} {i j : Instance} {k l : Nat} {p q : Script}

/-- Operations in two linked machines commute: whichever comes first, both end in the same way and
leave the same machines, the same tables of callables and the same registry. -/
theorem operations_commute (run : Run Leaving {} now) (names : name ≠ other)
    (first : now.world.instance? name = some i) (link : i.link = some k)
    (second : now.world.instance? other = some j) (link' : j.link = some l)
    (own : Scene.ActsWithin k ⟨p, [], now.world.stage i⟩)
    (own' : Scene.ActsWithin l ⟨q, [], now.world.stage j⟩) (fuel fuel' : Nat) :
    Option.Rel (fun x y => y.1 = x.2.1 ∧ y.2.1 = x.1 ∧ x.2.2.Same y.2.2)
      (now.world.inTurn fuel name p fuel' other q)
      (now.world.inTurn fuel' other q fuel name p) := by
  have linked := Run.linked_of_leaving run
  have index := linked.registered name i k first link
  have index' := linked.registered other j l second link'
  have distinct : k ≠ l := fun same => names (linked.name_eq first link second (same ▸ link'))
  exact World.inTurn_commute ⟨names, distinct, first, second,
    Scene.private_of_actsWithin (tidy_of_run run first) index own,
    Scene.private_of_actsWithin (tidy_of_run run second) index' own'⟩ fuel fuel'

/-! ## Two machines that call their own callables -/

def twoLinked : World := (World.openLinked {} "vm" {}).openLinked "peer" {}

/-- Tells how many callables there are under the index it was called for. -/
def countOwn (context : CallContext) (_ : Value) : Script :=
  .bridge (.callbackCount context.index) fun (n : Nat) => Script.ret (.int (Int64.ofNat n))

/-- Makes a proc for a callable and calls it. -/
def callOwn (index : Nat) : Script :=
  .procHosted index countOwn fun
    | .ok proc => .callProc proc .nil [] fun r => .guest .collect fun _ => Script.ofResult r
    | .error e => .done (.raised e)

theorem run_twoLinked : Run Leaving {} { world := twoLinked } := by
  have opened : Next {} (.openLinked "vm" {}) _ := .openLinked "vm" {} ⟨rfl, nofun⟩
  have opened' : Next { world := World.openLinked {} "vm" {} } (.openLinked "peer" {})
      { world := twoLinked } := by
    refine .openLinked "peer" {} ⟨rfl, ?_⟩
    intro row member
    cases List.mem_singleton.mp member
    rw [Machine.opened_eq]
    decide
  exact .tail (.single ⟨.openLinked "vm" {}, trivial, opened⟩)
    ⟨.openLinked "peer" {}, trivial, opened'⟩

/-- Registering a callable and calling it, in two machines. -/
theorem operations_commute_callOwn :
    ∃ x y, twoLinked.inTurn 50 "vm" (callOwn 1) 50 "peer" (callOwn 2) = some x ∧
      twoLinked.inTurn 50 "peer" (callOwn 2) 50 "vm" (callOwn 1) = some y ∧
      x.1.1 = .value (.int 1) ∧ x.2.1.1 = .value (.int 1) ∧
      y.1 = x.2.1 ∧ y.2.1 = x.1 ∧ x.2.2.Same y.2.2 := by
  let i : Instance := { machine := .opened ⟨1⟩ {}, link := some 1 }
  let j : Instance := { machine := .opened ⟨2⟩ {}, link := some 2 }
  have ends : Scene.endsWithin 1 50 ⟨callOwn 1, [], twoLinked.stage i⟩ = true := by decide +kernel
  have ends' : Scene.endsWithin 2 50 ⟨callOwn 2, [], twoLinked.stage j⟩ = true := by
    decide +kernel
  have first : twoLinked.instance? "vm" = some i := rfl
  have second : twoLinked.instance? "peer" = some j := rfl
  have both := operations_commute run_twoLinked (by decide) first rfl second rfl
    (Scene.actsWithin_of_endsWithin ends) (Scene.actsWithin_of_endsWithin ends') 50 50
  have counted : ((twoLinked.inTurn 50 "vm" (callOwn 1) 50 "peer" (callOwn 2)).any fun x =>
      decide (x.1.1 = .value (.int 1) ∧ x.2.1.1 = .value (.int 1))) = true := by decide +kernel
  obtain ⟨x, forth, answers⟩ := (Option.any_eq_true _ _).mp counted
  rw [forth] at both
  cases back : twoLinked.inTurn 50 "peer" (callOwn 2) 50 "vm" (callOwn 1) with
  | none =>
      rw [back] at both
      cases both
  | some y =>
      rw [back] at both
      cases both with
      | some same =>
          obtain ⟨answer, answer'⟩ := of_decide_eq_true answers
          exact ⟨x, y, forth, rfl, answer, answer', same⟩

end Situation

end GuestVM

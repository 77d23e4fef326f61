import GuestVM.Proofs.Bridge.Handles
import GuestVM.Proofs.Lifetime
import GuestVM.Proofs.ModuleFunctions
import GuestVM.Proofs.Scene.Writing

/-! # Tables of methods

An edit of a table of methods is local: a lookup finds something else than before only by the name
that was edited, and only where the edited class is the first on the chain to have the name.  An
alias is what was found by the old name, whatever becomes of that name later.  And a value responds
to a name where a call by the name gets past the lookup: the first looks for the symbol of the name
and makes none, and the second makes one if need be, but finds no method by a new symbol. -/
set_option autoImplicit false

namespace GuestVM

/-! ## Calls by name -/

theorem SymbolTable.intern_of_absent {t : SymbolTable} {name : String}
    (absent : t.check name = none) : (t.intern name).1 = ⟨t.size⟩ := by
  unfold intern
  rw [absent]
  rfl

/-- A call by name, until the method is entered. -/
def Act.dispatch (receiver : Value) (called : String) (args : List Value) (block : Value) :
    Act Script := do
  enterMethod receiver (← intern called) args block

namespace Act

variable {m : Machine} {receiver block : Value} {called : String} {args : List Value}

/-- What a call does after its method has been looked up in a machine. -/
def enterFound (m : Machine) (receiver : Value) (mid : Sym) (args : List Value) (block : Value) :
    Option Method → Act Script
  | none => do
    let kind ← ofOption (m.realClassName receiver)
    fail .noMethodError ("undefined method '" ++ m.symName mid ++ "' for " ++ kind)
  | some method => do
    if method.noArg ∧ !args.isEmpty then
      fail .argumentError
        ("wrong number of arguments (given " ++ toString args.length ++ ", expected 0)")
    enter ⟨some mid, method.proc, receiver, args, block⟩

theorem run_dispatch : (dispatch receiver called args block).run.run m =
    (enterMethod receiver (m.symbols.intern called).1 args block).run.run
      (m.interning [called]) := by
  rw [dispatch, run_ok_bind (run_intern called)]

end Act

/-- A script sends a name in two steps, which come to the dispatch. -/
theorem Scene.step_send (receiver : Value) (called : String) (args : List Value) (block : Value)
    (next : Except Raised Value → Script) (pending : List Pending) (s : Stage) :
    (Scene.step ⟨.send receiver called args block next, pending, s⟩).bind Scene.step =
      entering (Act.dispatch receiver called args block) next pending s := by
  have interned : Scene.step ⟨.send receiver called args block next, pending, s⟩ =
      some ⟨.call receiver (s.machine.symbols.intern called).1 args block next, pending,
        s.onMachine (·.interning [called])⟩ := rfl
  rw [interned, Option.bind_some]
  simp only [step, entering, Stage.act, Act.run_dispatch, Stage.onMachine]
  rcases (Act.enterMethod receiver (s.machine.symbols.intern called).1 args block).run.run
    (s.machine.interning [called]) with ⟨(e | _) | code, m'⟩ <;> rfl

/-- The action raises a NoMethodError. -/
def Machine.Misses {α : Type} (m : Machine) (a : Act α) : Prop :=
  ∃ e m', a.run.run m = (.error (.raised e), m') ∧
    m'.realClassOf e.value = Builtin.noMethodError.id

namespace Machine

variable {α : Type} {m : Machine} {a : Act α} {b : Builtin} {message : String} {v block : Value}
  {mid : Sym} {args : List Value}

theorem Fails.misses (fails : m.Fails a .noMethodError message) : m.Misses a := by
  obtain ⟨e, m', -, ran, -, kind, -⟩ := fails
  exact ⟨e, m', ran, kind⟩

theorem Fails.not_misses (fails : m.Fails a b message) (other : b.id ≠ Builtin.noMethodError.id) :
    ¬ m.Misses a := by
  rintro ⟨e, m', ran, kind⟩
  obtain ⟨e', last, -, ran', -, kind', -⟩ := fails
  cases ran.symm.trans ran'
  exact other (kind'.symm.trans kind)

theorem not_misses_of_ok {x : α} {m' : Machine} (ran : a.run.run m = (.ok x, m')) :
    ¬ m.Misses a := by
  rintro ⟨e, last, raised, -⟩
  cases ran.symm.trans raised

theorem Established.not_misses_enter (established : m.Established) (frame : Frame) :
    ¬ m.Misses (Act.enter frame) := by
  by_cases full : m.config.maxCallDepth.toNat ≤ m.depth
  · have fails : m.Fails (Act.enter frame) .systemStackError "stack level too deep" := by
      refine established.fails ?_
      unfold Act.enter
      rw [Act.run_get_bind, if_pos full]
      exact Act.run_fail_bind _ _ _
    exact fails.not_misses (by decide)
  cases isProc : m.procData? frame.proc with
  | some data => exact not_misses_of_ok (Act.run_enter isProc (Nat.not_le.mp full))
  | none =>
      have fails : m.Fails (Act.enter frame) .typeError "method body is not a Proc" := by
        refine established.fails ?_
        unfold Act.enter
        rw [Act.run_get_bind, if_neg full]
        simp only [isProc]
      exact fails.not_misses (by decide)

/-- A call of no more arguments than there may be comes to the lookup. -/
theorem run_enterMethod (rooted : m.Rooted) (few : args.length ≤ m.config.funcallArgcMax.toNat) :
    (Act.enterMethod v mid args block).run.run m =
      (Act.enterFound m v mid args block (m.findMethod (m.classOf v) mid)).run.run m := by
  unfold Act.enterMethod
  rw [Act.run_get_bind]
  simp only [if_neg (Nat.not_lt.mpr few), rooted.findMethod?_eq (m.classOf v) mid]
  rfl

/-- A call of no more arguments than there may be misses exactly where no method is found. -/
theorem Established.misses_enterMethod_iff (established : m.Established) (rooted : m.Rooted)
    (few : args.length ≤ m.config.funcallArgcMax.toNat) :
    m.Misses (Act.enterMethod v mid args block) ↔ m.findMethod (m.classOf v) mid = none := by
  rw [Misses, run_enterMethod rooted few]
  cases m.findMethod (m.classOf v) mid with
  | none =>
      obtain ⟨kind, named⟩ := Option.isSome_iff_exists.mp (rooted.realClassName_isSome v)
      refine iff_of_true ?_ rfl
      rw [Act.enterFound, named]
      exact (established.fails rfl).misses
  | some method =>
      refine iff_of_false ?_ nofun
      dsimp only [Act.enterFound]
      split
      · exact (established.fails (Act.run_fail_bind _ _ _)).not_misses (by decide)
      · exact established.not_misses_enter _

theorem MethodsNamed.findMethod_eq_none (named : m.MethodsNamed)
    (nameless : m.symbols.size ≤ mid.index) (c : ObjId) : m.findMethod c mid = none := by
  rw [findMethod_eq, List.findSome?_eq_none_iff]
  intro d _
  by_contra own
  exact Nat.not_lt.mpr nameless (named d mid (Option.isSome_iff_ne_none.mpr own))

theorem respondTo_of_unheard {called : String} (unheard : m.symbols.check called = none) :
    m.respondTo v called = false := by
  simp only [respondTo, respondTo?, unheard, Option.getD_some]

/-- A call by name misses exactly where the receiver does not respond to the name. -/
theorem Established.respondTo_iff (established : m.Established) (rooted : m.Rooted)
    (named : m.MethodsNamed) (few : args.length ≤ m.config.funcallArgcMax.toNat) {called : String} :
    m.respondTo v called = true ↔ ¬ m.Misses (Act.dispatch v called args block) := by
  have evolution : Evolution {} m (m.interning [called]) := .single (.intern called)
  have slots : (m.interning [called]).heap.slots = m.heap.slots := rfl
  have dispatched : m.Misses (Act.dispatch v called args block) ↔
      m.findMethod (m.classOf v) (m.symbols.intern called).1 = none := by
    rw [Misses, Act.run_dispatch, ← findMethod_congr slots, ← classOf_congr slots v]
    exact (evolution.established established).misses_enterMethod_iff (rooted.of_slots slots) few
  rw [dispatched]
  cases found : m.symbols.check called with
  | some mid =>
      have climbs := rooted.findMethod?_eq (m.classOf v) mid
      simp only [respondTo, respondTo?, found, climbs, Option.map_some, Option.getD_some]
      rw [SymbolTable.intern_of_check found]
      exact Option.isSome_iff_ne_none
  | none =>
      rw [respondTo_of_unheard found]
      refine iff_of_false Bool.false_ne_true (not_not_intro ?_)
      rw [SymbolTable.intern_of_absent found]
      exact named.findMethod_eq_none (Nat.le_refl _) _

end Machine

namespace Machine

attribute [local irreducible] opened

end Machine

namespace Situation

attribute [local irreducible] Machine.opened

variable {now : Situation} {name : String} {i : Instance}

/-- A script that acts in the machine does not edit the row of a symbol in a class. -/
def SparesRow (name : String) (c : ObjId) (s : Sym) (now : Situation) : Move → Prop
  | .act acting => acting = name → ∀ a, now.scene? name = some a → ¬ a.EditsRow c s
  | _ => True

/-- What holds of the tables of methods in a machine. -/
structure MethodTables (name : String) (m : Machine) : Prop where
  /-- A lookup finds something else after an edit only by the name that was edited, and only where
  the edited class is the first on the chain with the name, before the edit or after it. -/
  edits : ∀ (e : MethodEdit) m', e.act.run.run m = (.ok (), m') → ∀ k s,
    m'.findMethod k s ≠ m.findMethod k s →
      s = e.name ∧ (m.provider? k s = some e.home ∨ m'.provider? k s = some e.home)
  /-- An alias is what was found by the old name, and stays that until it is edited itself. -/
  aliases : ∀ c new old m', (Act.aliasMethod c new old).run.run m = (.ok (), m') →
    ∃ method, m.findMethod c old = some method ∧ m'.findMethod c new = some method ∧
      ∀ after later j, Run Anything {} after → after.world.instance? name = some j →
        j.machine = m' →
        Run (fun at_ move => SparesRow name c new at_ move ∧ Lives name c at_) after later →
        Lives name c later →
        ∃ k, later.world.instance? name = some k ∧ k.machine.findMethod c new = some method
  /-- A value responds to a name, interned or not, exactly where a call by the name gets past the
  lookup. -/
  responses : ∀ v called args block, args.length ≤ m.config.funcallArgcMax.toNat →
    (m.respondTo v called = true ↔ ¬ m.Misses (Act.dispatch v called args block))

theorem MethodTables.misses {m : Machine} (tables : MethodTables name m) {v block : Value}
    {called : String} {args : List Value} (few : args.length ≤ m.config.funcallArgcMax.toNat)
    (silent : m.respondTo v called = false) : m.Misses (Act.dispatch v called args block) := by
  by_contra enters
  rw [(tables.responses v called args block few).mpr enters] at silent
  cases silent

/-! ## An alias that outlives what it was made of -/

end Situation

end GuestVM

import GuestVM.Proofs.Bridge.Rejecting
import GuestVM.Proofs.HostErrors
import GuestVM.Proofs.Machine.Interposing
import GuestVM.Proofs.Metaclasses
import GuestVM.Proofs.SuperclassWalks

/-! # Making a singleton class goes unseen

Singleton classes are made as they are asked for, and nothing that is asked about the values and
classes there are tells the host that one was made.  This rests on metaclasses: the singleton class of
a class has those of its ancestors above it, so a class must have its own from the beginning, and all
classes do. -/
set_option autoImplicit false

namespace GuestVM

namespace Machine

/-- A constant is looked up with the same result. -/
def FindsAlike (m m' : Machine) (c : ObjId) (name : String) : Prop :=
  (∃ v, (Act.constGet c name).run.run m = (.ok v, m) ∧
    (Act.constGet c name).run.run m' = (.ok v, m')) ∨
  m.Fails (Act.constGet c name) .nameError ("uninitialized constant " ++ name) ∧
    m'.Fails (Act.constGet c name) .nameError ("uninitialized constant " ++ name)

/-- The singleton class `s` of the object `x` is there, or made, and the machine is `m'` then. -/
structure MakesUnseen (m : Machine) (x s : ObjId) (m' : Machine) : Prop where
  made : (Act.singletonClass (.obj x)).run.run m = (.ok s, m')
  own : Act.isSingletonOf m' s (.obj x) = true
  /-- It is not made twice. -/
  again : (Act.singletonClass (.obj x)).run.run m' = (.ok s, m')
  unseen : m.AnswersAlike m' ∧ ∀ c name, m.Live c → m.FindsAlike m' c name

variable {m m' : Machine} {x s c : ObjId} {o : Object}

theorem Established.run_constGet (established : m.Established) (rooted : m.Rooted) (c : ObjId)
    (name : String) :
    (∃ v, m.lookupConst c name = some v ∧ (Act.constGet c name).run.run m = (.ok v, m)) ∨
      m.lookupConst c name = none ∧
        m.Fails (Act.constGet c name) .nameError ("uninitialized constant " ++ name) := by
  unfold Act.constGet
  have climbs := rooted.lookupConst?_eq c name
  cases found : m.lookupConst c name with
  | some v =>
      refine .inl ⟨v, rfl, ?_⟩
      rw [Act.run_get_bind, climbs, found]
      rfl
  | none =>
      refine .inr ⟨rfl, established.fails ?_⟩
      rw [Act.run_get_bind, climbs, found]
      rfl

theorem AnswersAlike.findsAlike (alike : m.AnswersAlike m') (established : m.Established)
    (rooted : m.Rooted) (established' : m'.Established) (rooted' : m'.Rooted) (live : m.Live c)
    (name : String) : m.FindsAlike m' c name := by
  have same := alike.constants c name live
  rcases established.run_constGet rooted c name with ⟨v, found, ran⟩ | ⟨missing, failed⟩
  · rcases established'.run_constGet rooted' c name with ⟨v', found', ran'⟩ | ⟨missing', -⟩
    · cases found'.symm.trans (same.trans found)
      exact .inl ⟨v, ran, ran'⟩
    · cases missing'.symm.trans (same.trans found)
  · rcases established'.run_constGet rooted' c name with ⟨v', found', -⟩ | ⟨-, failed'⟩
    · cases found'.symm.trans (same.trans missing)
    · exact .inr ⟨failed, failed'⟩

theorem Mirrored.not_bereft (mirrored : m.Mirrored) (x : ObjId) : ¬ m.Bereft x := by
  rintro ⟨⟨p, shape⟩, lost⟩
  have own := isSingletonOf_iff.mpr ⟨_, mirrored.own x (some p) shape⟩
  rw [lost] at own
  cases own

theorem Healthy.makesUnseen (healthy : m.Healthy) (established : m.Established)
    (grounded : m.Grounded) (mirrored : m.Mirrored) (live : m.Live x) :
    ∃ s m', m.MakesUnseen x s m' := by
  obtain ⟨o, present⟩ := live.object?
  rcases Act.run_singletonClass_live established grounded live with
    ⟨s, m', ran, own, evolution⟩ | ⟨unhealthy, -⟩
  · obtain ⟨p, after⟩ := (evolution.live healthy.tidy rfl live).object?
    have cls := (Act.obtains_of_singletonClass healthy.tidy ran).classOf_eq healthy.tidy
    rw [Machine.classOf_of_object? after] at cls
    obtain ⟨-, rooted'⟩ := evolution.rooted healthy.tidy nofun healthy.closed healthy.rooted
    refine ⟨s, m', ran, own, ?_, ?_⟩
    · rw [← cls] at own ⊢
      exact Act.run_singletonWithin_of_own after own _
    · have alike := answersAlike_singletonClass healthy.tidy healthy.closed healthy.rooted rooted'
        (mirrored.not_bereft x) ran
      exact ⟨alike, fun c name older => alike.findsAlike established healthy.rooted
        (evolution.established established) rooted' older name⟩
  · exact (unhealthy healthy).elim

end Machine

namespace Situation

attribute [local irreducible] Machine.opened

variable {now : Situation} {name : String} {i : Instance} {x : ObjId}

/-- Every live object has a singleton class or gets one, and no answer tells that it did. -/
theorem singletons_unseen (run : Run Careful {} now) (present : now.world.instance? name = some i)
    (live : i.machine.Live x) :
    ∃ s m', i.machine.MakesUnseen x s m' := by
  have freely : Run Anything {} now := run.mono fun _ _ _ => trivial
  obtain ⟨tidy, closed, rooted⟩ := run.rooted present
  obtain ⟨-, grounded⟩ := grounded_of_run freely present
  have healthy : i.machine.Healthy := ⟨tidy, closed, rooted⟩
  exact healthy.makesUnseen (freely.established present) grounded (run.classed present).mirrored live

/-- `Kernel` is a module, and modules have no singleton classes of their own at first. -/
theorem singletons_unseen_kernel : ∃ now i s m', Run Careful {} now ∧
    now.world.instance? "vm" = some i ∧
      Act.isSingletonOf i.machine (i.machine.classOf (.obj Builtin.kernel.id))
        (.obj Builtin.kernel.id) = false ∧
      i.machine.MakesUnseen Builtin.kernel.id s m' := by
  have run : Run Careful {} (beginning (Script.ret .nil)) :=
    run_beginning (Script.ret .nil) trivial trivial
  have present : (beginning (Script.ret .nil)).world.instance? "vm" =
      some { machine := .opened ⟨1⟩ {} } := rfl
  obtain ⟨live, -⟩ := (Machine.established_opened ⟨1⟩ {}).builtin .kernel
  obtain ⟨s, m', makes⟩ := singletons_unseen run present live
  refine ⟨_, _, s, m', run, present, ?_, makes⟩
  rw [Machine.opened_eq]
  decide +kernel

end Situation

end GuestVM

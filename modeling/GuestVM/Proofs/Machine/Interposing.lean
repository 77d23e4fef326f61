import GuestVM.Proofs.Machine.Singling
import GuestVM.Proofs.Machine.Texts

/-! # Singleton classes go unseen

A new singleton class stands between an object and its class.  It has no methods and no constants, and
it is passed over where the class of the object is asked for, so a walk that begins at it finds what
the walk from the class found (`Interposed.walk_classOf`).  Chains and texts of what there was before are
what they were; a slot more allows longer walks, but they find nothing more. -/
set_option autoImplicit false

namespace GuestVM.Machine

/-- `m'` is `m` with a new singleton class `s` between the object `x` and its class. -/
structure Interposed (m m' : Machine) (x s : ObjId) (o : Object) : Prop where
  present : m.object? x = some o
  fresh : m.object? s = none
  made : m'.object? s = some (singletonOf x o.cls)
  reclassed : m'.object? x = some { o with cls := s }
  others : ∀ y, y ≠ s → y ≠ x → m'.object? y = m.object? y
  symbols : m'.symbols = m.symbols
  size : m.heap.slots.size ≤ m'.heap.slots.size

theorem interposed_withSingleton {m : Machine} (tidy : m.heap.Tidy) {x : ObjId} {o : Object}
    (present : m.object? x = some o) :
    m.Interposed (m.withSingleton x o.cls) x (m.newId (singletonOf x o.cls)) o := by
  have apart := ne_newId tidy (singletonOf x o.cls) (.of_object? present)
  have objects := object?_withSingleton tidy present o.cls
  constructor
  case present => exact present
  case fresh => exact newId_dead tidy _
  case made => rw [objects, if_neg (Ne.symm apart), if_pos rfl]
  case reclassed => rw [objects, if_pos rfl]
  case others => exact fun y new other => by rw [objects, if_neg other, if_neg new]
  case symbols => rfl
  case size =>
    refine Nat.le_trans (size_le_alloc m.heap (singletonOf x o.cls)) (Nat.le_of_eq ?_)
    simp [withSingleton, withNew, Heap.modify]

/-- What is asked about the values and the classes of `m` has the same answer in `m'`. -/
structure AnswersAlike (m m' : Machine) : Prop where
  lineages : ∀ c, m.Live c → m'.lineage c = m.lineage c
  superclasses : ∀ c, m.Live c → m'.superclass? c = m.superclass? c
  names : ∀ c, m.Live c → m'.className c = m.className c
  constants : ∀ c name, m.Live c → m'.lookupConst c name = m.lookupConst c name
  instanceMethods : ∀ c mid, m.Live c → m'.findMethod c mid = m.findMethod c mid
  methods : ∀ w mid, m.IsLive w →
    m'.findMethod (m'.classOf w) mid = m.findMethod (m.classOf w) mid
  responses : ∀ w name, m.IsLive w → m'.respondTo w name = m.respondTo w name
  kinship : ∀ w c, m.IsLive w → m.Live c → m'.isKindOf w c = m.isKindOf w c
  realClasses : ∀ w, m.IsLive w → m'.realClassOf w = m.realClassOf w
  texts : ∀ w, m.IsLive w → m'.inspect w = m.inspect w

theorem AnswersAlike.refl (m : Machine) : m.AnswersAlike m := by
  constructor <;> intros <;> rfl

/-! ## What a closed machine names is live -/

section Live

variable {m : Machine} {v w : Value} {c x : ObjId}

theorem IsLive.classOf (live : m.IsLive v) (closed : m.Closed) : m.Live (m.classOf v) := by
  have builtin : ∀ b : Builtin, m.Live b.id := fun b =>
    closed _ (.inl (mem_roots.mpr (.inl ⟨b, rfl⟩)))
  cases v with
  | obj x =>
      obtain ⟨o, present⟩ := (live x rfl).object?
      rw [classOf_of_object? present]
      exact closed _ (holds_of_object? present List.mem_cons_self)
  | bool b => cases b <;> exact builtin _
  | _ => exact builtin _

theorem live_of_mem_lineage (closed : m.Closed) (live : m.Live c) :
    ∀ d ∈ m.lineage c, m.Live d := live_of_mem_chain closed _ c live

theorem IsLive.realClassOf (live : m.IsLive v) (closed : m.Closed) : m.Live (m.realClassOf v) := by
  have own := live.classOf closed
  rw [Machine.realClassOf_eq]
  cases found : (m.lineage (m.classOf v)).find? fun d => !m.isPassedOver d with
  | none => exact own
  | some d => exact live_of_mem_lineage closed own d (List.mem_of_find?_eq_some found)

theorem isLive_of_holds (closed : m.Closed) (held : ∀ x, w = .obj x → m.Holds x) : m.IsLive w := by
  intro x isObject
  cases w with
  | obj y =>
      cases isObject
      exact closed x (held x rfl)
  | _ => cases isObject

theorem isLive_of_mem_nameParts (closed : m.Closed) (part : w ∈ m.nameParts c) : m.IsLive w := by
  rw [nameParts] at part
  split at part
  case h_1 => cases part
  case h_2 attached _ _ _ found =>
    cases List.mem_singleton.mp part
    refine isLive_of_holds closed fun x same => holds_of_classData? found ?_
    exact ClassData.mem_references.mpr (.inr (.inr (.inr (congrArg _ same))))
  case h_3 => cases part

theorem isLive_of_mem_parts (closed : m.Closed) (part : w ∈ m.parts x) : m.IsLive w := by
  have held : ∀ {body : Body}, m.body? (.obj x) = some body →
      (∀ y, w = .obj y → y ∈ body.references) → m.IsLive w := by
    intro body found named
    obtain ⟨o, present, same⟩ := Option.bind_eq_some_iff.mp found
    cases same
    exact isLive_of_holds closed fun y same =>
      holds_of_object? present (Object.mem_references_of_body (named y same))
  rw [parts] at part
  split at part
  case h_1 => cases part
  case h_2 => cases part
  case h_3 => exact isLive_of_mem_nameParts closed part
  case h_4 found => exact held found fun y same => Value.mem_objects.mpr (same ▸ part)
  case h_5 found => exact held found fun y same => Value.mem_objects.mpr (same ▸ part)
  case h_6 found =>
    cases real : m.realClassOf? (.obj x) with
    | none =>
        rw [real, Option.elim_none] at part
        cases List.mem_singleton.mp part
        exact Live.isLive (live_of_body? found)
    | some c =>
        rw [real, Option.elim_some] at part
        exact isLive_of_mem_nameParts closed part

end Live

/-! ## Walks -/

namespace Interposed

variable {m m' : Machine} {x s c : ObjId} {o : Object} {w : Value} {β : Type}
  {ask ask' : ObjId → Option β} {r : Option β}

theorem ne_of_live (after : m.Interposed m' x s o) (live : m.Live c) : c ≠ s := by
  rintro rfl
  rw [Live, after.fresh] at live
  cases live

theorem object?_of_live (after : m.Interposed m' x s o) (live : m.Live c) :
    ∃ p q, m.object? c = some p ∧ m'.object? c = some q ∧ q.body = p.body := by
  by_cases same : c = x
  · subst same
    exact ⟨_, _, after.present, after.reclassed, rfl⟩
  · obtain ⟨p, present⟩ := live.object?
    exact ⟨p, p, present, (after.others c (after.ne_of_live live) same).trans present, rfl⟩

theorem body?_eq (after : m.Interposed m' x s o) (live : m.Live c) :
    m'.body? (.obj c) = m.body? (.obj c) := by
  obtain ⟨p, q, before, now, same⟩ := after.object?_of_live live
  simp [body?, Value.asObj, before, now, same]

theorem classData?_eq (after : m.Interposed m' x s o) (live : m.Live c) :
    m'.classData? c = m.classData? c := by
  obtain ⟨p, q, before, now, same⟩ := after.object?_of_live live
  rw [classData?_eq_bind, classData?_eq_bind, before, now]
  simp [Object.classData?, same]

theorem superclass?_eq (after : m.Interposed m' x s o) (live : m.Live c) :
    m'.superclass? c = m.superclass? c := by
  rw [superclass?, superclass?, after.classData?_eq live]

theorem classData?_made (after : m.Interposed m' x s o) :
    m'.classData? s =
      some { name := none, superclass := some o.cls, kind := .singleton (.obj x) } := by
  rw [classData?_eq_bind, after.made]
  rfl

theorem superclass?_made (after : m.Interposed m' x s o) : m'.superclass? s = some o.cls := by
  rw [superclass?, after.classData?_made]
  rfl

theorem classOf_self (after : m.Interposed m' x s o) : m'.classOf (.obj x) = s :=
  classOf_of_object? after.reclassed

theorem classOf_of_ne (after : m.Interposed m' x s o) (live : m.IsLive w) (other : w ≠ .obj x) :
    m'.classOf w = m.classOf w := by
  cases w with
  | obj y =>
      have apart : y ≠ x := fun same => other (congrArg _ same)
      rw [classOf, classOf, after.others y (after.ne_of_live (live y rfl)) apart]
  | bool b => cases b <;> rfl
  | _ => rfl

/-- Walks from classes that were there before find what they found. -/
theorem walk (after : m.Interposed m' x s o) (closed : m.Closed)
    (same : ∀ d, m.Live d → ask' d = ask d) (live : m.Live c) (walk : m.Ascent ask c r) :
    m'.Ascent ask' c r :=
  walk.transfer (fun _ _ _ above => live_superclass closed above)
    (fun _ alive => after.superclass?_eq alive) same live

/-- Walks from the class of a value pass the new class over, if it has no answer. -/
theorem walk_classOf (after : m.Interposed m' x s o) (closed : m.Closed) (silent : ask' s = none)
    (same : ∀ d, m.Live d → ask' d = ask d) (live : m.IsLive w)
    (walk : m.Ascent ask (m.classOf w) r) : m'.Ascent ask' (m'.classOf w) r := by
  have onward := after.walk closed same (live.classOf closed) walk
  by_cases self : w = .obj x
  -- The walk of `x` itself begins one class lower than it did.
  · subst self
    rw [classOf_of_object? after.present] at onward
    rw [after.classOf_self]
    exact .up silent after.superclass?_made onward
  · rwa [after.classOf_of_ne live self]

theorem wholeChain (after : m.Interposed m' x s o) (closed : m.Closed) {line : List ObjId}
    (live : m.Live c) (whole : m.WholeChain c line) : m'.WholeChain c line := by
  induction whole with
  | top ends => exact .top ((after.superclass?_eq live).trans ends)
  | up above _ ih =>
      exact .up ((after.superclass?_eq live).trans above) (ih (live_superclass closed above))

/-! ## Answers -/

theorem ownMethod?_eq (after : m.Interposed m' x s o) (mid : Sym) {d : ObjId} (live : m.Live d) :
    m'.ownMethod? d mid = m.ownMethod? d mid := by
  rw [ownMethod?, ownMethod?, after.classData?_eq live]

theorem ownMethod?_made (after : m.Interposed m' x s o) (mid : Sym) : m'.ownMethod? s mid = none := by
  rw [ownMethod?, after.classData?_made]
  rfl

theorem findMethod_classOf (after : m.Interposed m' x s o) (closed : m.Closed) (rooted : m.Rooted)
    (rooted' : m'.Rooted) (live : m.IsLive w) (mid : Sym) :
    m'.findMethod (m'.classOf w) mid = m.findMethod (m.classOf w) mid :=
  (rooted'.ascent_findMethod _ mid).unique (after.walk_classOf closed (after.ownMethod?_made mid)
    (fun _ alive => after.ownMethod?_eq mid alive) live (rooted.ascent_findMethod _ mid))

theorem realClassOf_eq (after : m.Interposed m' x s o) (closed : m.Closed) (rooted : m.Rooted)
    (rooted' : m'.Rooted) (live : m.IsLive w) : m'.realClassOf w = m.realClassOf w := by
  have silent : m'.realAt s = none := by
    rw [realAt, isPassedOver, after.classData?_made]
    rfl
  have same : ∀ d, m.Live d → m'.realAt d = m.realAt d := by
    intro d alive
    rw [realAt, realAt, isPassedOver, isPassedOver, after.classData?_eq alive]
  have walk := after.walk_classOf closed silent same live (ascent_realClassOf rooted w)
  exact Option.some.inj ((ascent_realClassOf rooted' w).unique walk)

theorem isKindOf_eq (after : m.Interposed m' x s o) (closed : m.Closed) (rooted : m.Rooted)
    (rooted' : m'.Rooted) (live : m.IsLive w) (older : m.Live c) :
    m'.isKindOf w c = m.isKindOf w c := by
  have silent : sameAt c s = none := if_neg (after.ne_of_live older).symm
  have walk := after.walk_classOf closed silent (fun _ _ => rfl) live
    (rooted.ascent (sameAt c) (m.classOf w))
  simp only [isKindOf, descendsFrom_eq, contains_eq_findSome?, rooted'.ascent_iff.mp walk]

theorem lookupConst_eq (after : m.Interposed m' x s o) (closed : m.Closed) (rooted : m.Rooted)
    (rooted' : m'.Rooted) (live : m.Live c) (name : String) :
    m'.lookupConst c name = m.lookupConst c name := by
  have walks : ∀ sym r, m'.Ascent (m'.constAt sym) c r ↔ m.Ascent (m.constAt sym) c r := by
    intro sym r
    have walk : m'.Ascent (m'.constAt sym) c _ := after.walk closed
      (fun d alive => by rw [constAt, constAt, after.classData?_eq alive]) live
      (rooted.ascent (m.constAt sym) c)
    rw [rooted.ascent_iff, ← rooted'.ascent_iff.mp walk, rooted'.ascent_iff]
  have top : ∀ sym, m'.ownConst? Builtin.object.id sym = m.ownConst? Builtin.object.id sym := by
    intro sym
    have alive : m.Live Builtin.object.id := closed _ (.inl (mem_roots.mpr (.inl ⟨_, rfl⟩)))
    rw [ownConst?, ownConst?, after.classData?_eq alive]
  refine Option.ext fun v => ?_
  simp only [rooted.lookupConst_iff, rooted'.lookupConst_iff, after.symbols, walks, top]

theorem looksAlike (after : m.Interposed m' x s o) (closed : m.Closed) (rooted : m.Rooted)
    (rooted' : m'.Rooted) (live : m.Live c) : m.LooksAlike m' c := by
  have isLive := live.isLive
  have real := after.realClassOf_eq closed rooted rooted' isLive
  refine ⟨after.symbols, after.body?_eq live, ?_, after.classData?_eq live, fun d found => ?_⟩
  · rw [rooted'.realClassOf?_eq, rooted.realClassOf?_eq, real]
  · cases (rooted.realClassOf?_eq _).symm.trans found
    exact after.classData?_eq (isLive.realClassOf closed)

theorem inspectWithin_eq (after : m.Interposed m' x s o) (closed : m.Closed) (rooted : m.Rooted)
    (rooted' : m'.Rooted) (n : Nat) (live : m.IsLive w) :
    m'.inspectWithin n w = m.inspectWithin n w := by
  induction n generalizing w with
  | zero => rfl
  | succ n ih =>
      cases w with
      | obj y =>
          exact inspectWithin_congr_parts (after.looksAlike closed rooted rooted' (live y rfl))
            fun u part => ih (isLive_of_mem_parts closed part)
      | sym a => simp only [inspectWithin, symName, after.symbols]
      | _ => rfl

theorem inspect_eq (after : m.Interposed m' x s o) (closed : m.Closed) (rooted : m.Rooted)
    (rooted' : m'.Rooted) (live : m.IsLive w) : m'.inspect w = m.inspect w := by
  rw [inspect, after.inspectWithin_eq closed rooted rooted' _ live]
  exact inspectWithin_eq_inspect (Nat.lt_succ_of_le after.size)

theorem answersAlike (after : m.Interposed m' x s o) (closed : m.Closed) (rooted : m.Rooted)
    (rooted' : m'.Rooted) : m.AnswersAlike m' := by
  constructor
  case lineages =>
    exact fun c live => (rooted'.wholeChain c).unique
      (after.wholeChain closed live (rooted.wholeChain c))
  case superclasses => exact fun c live => after.superclass?_eq live
  case names =>
    intro c live
    exact classNameBy_congr_parts after.symbols (after.classData?_eq live) fun w part =>
      after.inspect_eq closed rooted rooted' (isLive_of_mem_nameParts closed part)
  case constants => exact fun c name live => after.lookupConst_eq closed rooted rooted' live name
  case instanceMethods =>
    intro c mid live
    exact (rooted'.ascent_findMethod c mid).unique (after.walk closed
      (fun _ alive => after.ownMethod?_eq mid alive) live (rooted.ascent_findMethod c mid))
  case methods => exact fun w mid live => after.findMethod_classOf closed rooted rooted' live mid
  case responses =>
    intro w name live
    simp only [respondTo, respondTo?, after.symbols, rooted.findMethod?_eq, rooted'.findMethod?_eq,
      after.findMethod_classOf closed rooted rooted' live]
  case kinship => exact fun w c live older => after.isKindOf_eq closed rooted rooted' live older
  case realClasses => exact fun w live => after.realClassOf_eq closed rooted rooted' live
  case texts => exact fun w live => after.inspect_eq closed rooted rooted' live

end Interposed

/-! ## Asking for a singleton class -/

/-- A class below another whose class pointer leads to no singleton class of it. -/
def Bereft (m : Machine) (x : ObjId) : Prop :=
  (∃ p, m.shape? x = some (.plain, some p)) ∧
    Act.isSingletonOf m (m.classOf (.obj x)) (.obj x) = false

section Asking

variable {m m' : Machine} {x s : ObjId}

/-- What is not bereft has its singleton class already, or one is made and nothing else. -/
theorem singletonClass_cases (tidy : m.heap.Tidy) (proper : ¬ m.Bereft x)
    (ran : (Act.singletonClass (.obj x)).run.run m = (.ok s, m')) :
    (m' = m ∧ s = m.classOf (.obj x) ∧ Act.isSingletonOf m s (.obj x) = true) ∨
      Act.isSingletonOf m (m.classOf (.obj x)) (.obj x) = false ∧ ∃ o, m.Interposed m' x s o := by
  cases Act.obtains_of_singletonClass tidy ran with
  | kept present own => exact .inl ⟨rfl, (classOf_of_object? present).symm, own⟩
  | under present foreign shape =>
      rw [← classOf_of_object? present, Bool.not_eq_true] at foreign
      exact absurd ⟨⟨_, shape⟩, foreign⟩ proper
  | rootless present foreign =>
      rw [← classOf_of_object? present, Bool.not_eq_true] at foreign
      exact .inr ⟨foreign, _, interposed_withSingleton tidy present⟩

theorem answersAlike_singletonClass (tidy : m.heap.Tidy) (closed : m.Closed) (rooted : m.Rooted)
    (rooted' : m'.Rooted) (proper : ¬ m.Bereft x)
    (ran : (Act.singletonClass (.obj x)).run.run m = (.ok s, m')) : m.AnswersAlike m' := by
  rcases singletonClass_cases tidy proper ran with ⟨rfl, -⟩ | ⟨-, o, made⟩
  · exact .refl m'
  · exact made.answersAlike closed rooted rooted'

end Asking

end GuestVM.Machine

import GuestVM.Machine.Answering
import GuestVM.Proofs.Machine.Change

/-! # What actions do

`Act.Does g a m post` says what comes of an action: the machine evolves under a grant, and then the
result is as `post` says or an exception is on its way up that is the current one.  The rules follow
the ways in which actions are put together, so each operation gets its statement from those of its
parts.  An action that goes on for ever has no result, and nothing is said of it. -/
set_option autoImplicit false

namespace GuestVM

/-- What goes up is the current exception, with the message its object has. -/
def Machine.Carries (m : Machine) (e : Raised) : Prop :=
  ∃ id o, e.value = .obj id ∧ m.exc = some id ∧ m.object? id = some o ∧
    o.body = .exception e.message

/-! ## Evolutions and ids -/

namespace Evolution

variable {g : Grant} {m m' : Machine}

theorem single (change : Change g m m') : Evolution g m m' := Relation.ReflTransGen.single change

/-- Code that does not collect ends no life. -/
theorem live (evolution : Evolution g m m') (tidy : m.heap.Tidy) (quiet : g.sweeps = false)
    {x : ObjId} (live : m.Live x) : m'.Live x := by
  induction evolution with
  | refl => exact live
  | tail before change ih =>
      rcases change.live (Evolution.tidy before tidy) ih with kept | sweeping
      · exact kept
      · rw [quiet] at sweeping
        cases sweeping

/-- No code makes an exception of an object that it finds. -/
theorem exception_before (evolution : Evolution g m m') (tidy : m.heap.Tidy)
    (quiet : g.sweeps = false) {x : ObjId} (live : m.Live x) {o' : Object}
    (after : m'.object? x = some o') {message : String} (body : o'.body = .exception message) :
    ∃ o, m.object? x = some o ∧ o.body = .exception message := by
  induction evolution generalizing o' with
  | refl => exact ⟨o', after, body⟩
  | tail before change ih =>
      obtain ⟨p, between, same⟩ := change.exception_before (Evolution.tidy before tidy)
        (Evolution.live before tidy quiet live) after body
      exact ih between same

/-- A change of the object of an id, if there is one. -/
theorem modify (id : ObjId) (f : Object → Object)
    (how : ∀ o, m.object? id = some o → f o = o ∨
      (Touch g m id o (f o) ∧ ∀ x ∈ (f o).references, x ∈ o.references ∨ m.Known g x)) :
    Evolution g m { m with heap := m.heap.modify id f } := by
  cases present : m.object? id with
  | none =>
      have same : m.heap.modify id f = m.heap := Heap.modify_of_dead f present
      rw [same]
  | some o =>
      have put : m.heap.modify id f = m.heap.modify id fun _ => f o := Heap.modify_of_live f present
      rw [put]
      rcases how o present with still | ⟨touch, known⟩
      · rw [still]
        have same : m.heap.modify id (fun _ => o) = m.heap := Heap.modify_self present
        rw [same]
      · exact .single (.touch id o (f o) present touch known)

end Evolution

theorem Machine.Known.handed {m : Machine} {g : Grant} {x : ObjId} (handed : x ∈ g.ids) :
    m.Known g x := .inl handed

theorem Machine.Known.alive {m : Machine} {g : Grant} {x : ObjId} (live : m.Live x) :
    m.Known g x := .inr (.inl live)

theorem Machine.Known.held {m : Machine} {g : Grant} {x : ObjId} (held : m.Holds x) :
    m.Known g x := .inr (.inr held)

theorem Machine.mem_roots {m : Machine} {x : ObjId} :
    x ∈ m.roots ↔ (∃ b : Builtin, b.id = x) ∨ x = m.top ∨ x ∈ Value.objects m.globals.values ∨
      m.exc = some x ∨ ∃ f ∈ m.frames, x ∈ f.references := by
  have every : ∀ b : Builtin, b ∈ Builtin.all := by
    intro b
    cases b <;> decide
  simp only [Machine.roots, List.mem_append, List.mem_map, List.mem_cons, List.mem_flatMap,
    Option.mem_toList]
  constructor
  · intro which
    obtain ((⟨b, -, rfl⟩ | top | global) | exc) | frame := which
    · exact .inl ⟨b, rfl⟩
    · exact .inr (.inl top)
    · exact .inr (.inr (.inl global))
    · exact .inr (.inr (.inr (.inl exc)))
    · exact .inr (.inr (.inr (.inr frame)))
  · intro which
    obtain ⟨b, rfl⟩ | top | global | exc | frame := which
    · exact .inl (.inl (.inl ⟨b, every b, rfl⟩))
    · exact .inl (.inl (.inr (.inl top)))
    · exact .inl (.inl (.inr (.inr global)))
    · exact .inl (.inr exc)
    · exact .inr frame

theorem Machine.Known.builtin {m : Machine} {g : Grant} (b : Builtin) : m.Known g b.id :=
  .held (.inl (Machine.mem_roots.mpr (.inl ⟨b, rfl⟩)))

namespace Act

variable {α β : Type} {g : Grant} {m m' : Machine}

def Does (g : Grant) (a : Act α) (m : Machine) (post : α → Machine → Prop) : Prop :=
  m.heap.Tidy →
    match a.run.run m with
    | (.ok x, m') => Evolution g m m' ∧ post x m'
    | (.error (.raised e), m') => Evolution g m m' ∧ m'.Carries e
    | (.error .endless, _) => True

/-! ## Running what is put together -/

theorem run_bind (a : Act α) (f : α → Act β) :
    (a >>= f).run.run m =
      match a.run.run m with
      | (.ok x, m') => (f x).run.run m'
      | (.error e, m') => (.error e, m') := by
  rcases ran : a.run.run m with ⟨result, after⟩
  simp only [ExceptT.run_bind, StateT.run_bind, ran]
  cases result <;> rfl

theorem run_ok_bind {a : Act α} {x : α} (ran : a.run.run m = (.ok x, m')) (f : α → Act β) :
    (a >>= f).run.run m = (f x).run.run m' := by
  rw [run_bind, ran]

theorem run_get_bind (f : Machine → Act β) :
    ((get : Act Machine) >>= f).run.run m = (f m).run.run m := rfl

theorem run_attempt (a : Act α) :
    (attempt a).run.run m =
      match a.run.run m with
      | (.ok x, m') => (.ok (.ok x), m')
      | (.error (.raised e), m') => (.ok (.error e), m')
      | (.error .endless, m') => (.error .endless, m') := by
  rcases ran : a.run.run m with ⟨result, after⟩
  simp only [attempt, ExceptT.run_mk, StateT.run_bind, ran]
  rcases result with (e | _) | x <;> rfl

theorem run_inArenaScope (a : Act α) :
    (inArenaScope a).run.run m =
      ((a.run.run m).1, { (a.run.run m).2 with
        heap := (a.run.run m).2.heap.arenaRestore m.heap.arenaSave }) := rfl

/-- What comes after throwing is never reached. -/
theorem throwing_bind_eq (make : Act Raised) (b : α → Act β) :
    (throwing make >>= b) = throwing make := by
  funext m
  simp only [throwing, bind_assoc]
  rfl

/-! ## Exits

What is said of an action is said of each way in which it may end, so the rules for putting actions
together are proved for any two conditions, and the predicates on actions get theirs from these. -/

/-- The action may end with a result, then `ok` holds, or with an exception, then `raised` holds. -/
def Ensures (a : Act α) (m : Machine) (ok : α → Machine → Prop)
    (raised : Raised → Machine → Prop) : Prop :=
  match a.run.run m with
  | (.ok x, m') => ok x m'
  | (.error (.raised e), m') => raised e m'
  | (.error .endless, _) => True

theorem ensures_iff {a : Act α} {ok : α → Machine → Prop} {raised : Raised → Machine → Prop} :
    Ensures a m ok raised ↔
      (∀ x m', a.run.run m = (.ok x, m') → ok x m') ∧
        ∀ e m', a.run.run m = (.error (.raised e), m') → raised e m' := by
  constructor
  · intro ensures
    refine ⟨fun x m' ran => ?_, fun e m' ran => ?_⟩
    · rwa [Ensures, ran] at ensures
    · rwa [Ensures, ran] at ensures
  · rintro ⟨ends, raises⟩
    unfold Ensures
    rcases ran : a.run.run m with ⟨(e | _) | x, after⟩
    · exact raises e after ran
    · trivial
    · exact ends x after ran

/-- Where a result and an exception leave the machine alike. -/
theorem ensures_leaving {a : Act α} {leaves : Machine → Prop} :
    Ensures a m (fun _ => leaves) (fun _ => leaves) ↔
      match a.run.run m with
      | (.error .endless, _) => True
      | (_, m') => leaves m' := by
  unfold Ensures
  rcases a.run.run m with ⟨(e | _) | x, after⟩ <;> rfl

namespace Ensures

variable {a : Act α} {ok other : α → Machine → Prop} {raised failed : Raised → Machine → Prop}

theorem mono (ensures : Ensures a m ok raised) (results : ∀ x m', ok x m' → other x m')
    (exceptions : ∀ e m', raised e m' → failed e m') : Ensures a m other failed := by
  obtain ⟨ends, raises⟩ := ensures_iff.mp ensures
  exact ensures_iff.mpr ⟨fun x m' ran => results x m' (ends x m' ran),
    fun e m' ran => exceptions e m' (raises e m' ran)⟩

theorem and (first : Ensures a m ok raised) (second : Ensures a m other failed) :
    Ensures a m (fun x m' => ok x m' ∧ other x m') fun e m' => raised e m' ∧ failed e m' := by
  obtain ⟨ends, raises⟩ := ensures_iff.mp first
  obtain ⟨ends', raises'⟩ := ensures_iff.mp second
  exact ensures_iff.mpr ⟨fun x m' ran => ⟨ends x m' ran, ends' x m' ran⟩,
    fun e m' ran => ⟨raises e m' ran, raises' e m' ran⟩⟩

/-- What the run was may be used of its result. -/
theorem ran (ensures : Ensures a m ok raised) :
    Ensures a m (fun x m' => a.run.run m = (.ok x, m') ∧ ok x m') raised := by
  obtain ⟨ends, raises⟩ := ensures_iff.mp ensures
  exact ensures_iff.mpr ⟨fun x m' ran => ⟨ran, ends x m' ran⟩, raises⟩

protected theorem bind {b : α → Act β} {next : β → Machine → Prop} (first : Ensures a m ok raised)
    (rest : ∀ x m', ok x m' → Ensures (b x) m' next raised) : Ensures (a >>= b) m next raised := by
  unfold Ensures at first ⊢
  rw [run_bind]
  rcases ran : a.run.run m with ⟨(e | _) | x, middle⟩
  · simpa only [ran] using first
  · trivial
  · rw [ran] at first
    exact rest x middle first

protected theorem attempt {next : Except Raised α → Machine → Prop} (ensures : Ensures a m ok raised)
    (results : ∀ x m', ok x m' → next (.ok x) m')
    (caught : ∀ e m', raised e m' → next (.error e) m') : Ensures (attempt a) m next failed := by
  unfold Ensures at ensures ⊢
  rw [run_attempt]
  rcases ran : a.run.run m with ⟨(e | _) | x, after⟩
  · rw [ran] at ensures
    exact caught e after ensures
  · trivial
  · rw [ran] at ensures
    exact results x after ensures

theorem throwing {make : Act Raised} (made : Ensures make m raised raised) :
    Ensures (Act.throwing make : Act α) m ok raised :=
  Ensures.bind made fun _ _ told => told

/-- At every exit of a scope the arena is cut back to where it was. -/
theorem inArenaScope (ensures : Ensures a m ok raised)
    (results : ∀ x m', ok x m' →
      other x { m' with heap := m'.heap.arenaRestore m.heap.arenaSave })
    (exceptions : ∀ e m', raised e m' →
      failed e { m' with heap := m'.heap.arenaRestore m.heap.arenaSave }) :
    Ensures (Act.inArenaScope a) m other failed := by
  unfold Ensures at ensures ⊢
  rw [run_inArenaScope]
  rcases ran : a.run.run m with ⟨(e | _) | x, after⟩
  · rw [ran] at ensures
    exact exceptions e after ensures
  · trivial
  · rw [ran] at ensures
    exact results x after ensures

end Ensures

/-! ## Rules -/

namespace Does

variable {post : α → Machine → Prop} {a : Act α}

theorem ensures (does : Does g a m post) (tidy : m.heap.Tidy) :
    Ensures a m (fun x m' => Evolution g m m' ∧ post x m')
      fun e m' => Evolution g m m' ∧ m'.Carries e := does tidy

theorem of_ensures (ensures : m.heap.Tidy → Ensures a m (fun x m' => Evolution g m m' ∧ post x m')
    fun e m' => Evolution g m m' ∧ m'.Carries e) : Does g a m post := ensures

theorem of_run {x : α} (ran : a.run.run m = (.ok x, m')) (evolution : Evolution g m m')
    (ensured : m.heap.Tidy → post x m') : Does g a m post := by
  intro tidy
  rw [ran]
  exact ⟨evolution, ensured tidy⟩

theorem of_raised {e : Raised} (ran : a.run.run m = (.error (.raised e), m'))
    (evolution : Evolution g m m') (carried : m.heap.Tidy → m'.Carries e) : Does g a m post := by
  intro tidy
  rw [ran]
  exact ⟨evolution, carried tidy⟩

theorem of_run_eq {other : Act α} (does : Does g a m post)
    (same : other.run.run m = a.run.run m) : Does g other m post := by
  intro tidy
  rw [same]
  exact does tidy

theorem of_tidy (does : m.heap.Tidy → Does g a m post) : Does g a m post :=
  fun tidy => does tidy tidy

protected theorem pure {x : α} (ensured : post x m) : Does g (pure x) m post :=
  of_run rfl .refl fun _ => ensured

protected theorem bind {b : α → Act β} {next : β → Machine → Prop} (first : Does g a m post)
    (rest : ∀ x m', Evolution g m m' → m'.heap.Tidy → post x m' → Does g (b x) m' next) :
    Does g (a >>= b) m next := by
  refine of_ensures fun tidy => (first.ensures tidy).bind fun x middle before => ?_
  obtain ⟨evolution, ensured⟩ := before
  have middleTidy := evolution.tidy tidy
  exact ((rest x middle evolution middleTidy ensured).ensures middleTidy).mono
    (fun _ _ after => ⟨evolution.trans after.1, after.2⟩)
    fun _ _ after => ⟨evolution.trans after.1, after.2⟩

/-- A check that is passed has changed nothing, and what comes after it may use what it told. -/
theorem told_bind {told : α → Prop} {b : α → Act β} {next : β → Machine → Prop}
    (check : Does g a m fun x m' => m' = m ∧ told x) (rest : ∀ x, told x → Does g (b x) m next) :
    Does g (a >>= b) m next := by
  refine check.bind fun x m' _ _ passed => ?_
  obtain ⟨rfl, tells⟩ := passed
  exact rest x tells

theorem get_bind {f : Machine → Act β} {next : β → Machine → Prop}
    (rest : Does g (f m) m next) : Does g ((get : Act Machine) >>= f) m next := rest

theorem mono {weaker : α → Machine → Prop} (does : Does g a m post)
    (weaken : ∀ x m', Evolution g m m' → m'.heap.Tidy → post x m' → weaker x m') :
    Does g a m weaker :=
  of_ensures fun tidy => (does.ensures tidy).mono
    (fun x m' before => ⟨before.1, weaken x m' before.1 (before.1.tidy tidy) before.2⟩)
    fun _ _ raised => raised

theorem check_bind {b : α → Act β} {next : β → Machine → Prop}
    (check : Does g a m fun _ m' => m' = m) (rest : ∀ x, Does g (b x) m next) :
    Does g (a >>= b) m next :=
  told_bind (check.mono fun _ _ _ _ same => ⟨same, trivial⟩) fun x _ => rest x

theorem map {f : α → β} {next : β → Machine → Prop}
    (does : Does g a m fun x m' => next (f x) m') : Does g (f <$> a) m next := by
  rw [← bind_pure_comp]
  exact does.bind fun _ _ _ _ ensured => .pure ensured

protected theorem attempt {next : Except Raised α → Machine → Prop} (does : Does g a m post)
    (ok : ∀ x m', Evolution g m m' → m'.heap.Tidy → post x m' → next (.ok x) m')
    (raised : ∀ e m', Evolution g m m' → m'.Carries e → next (.error e) m') :
    Does g (attempt a) m next :=
  of_ensures fun tidy => (does.ensures tidy).attempt
    (fun x m' before => ⟨before.1, ok x m' before.1 (before.1.tidy tidy) before.2⟩)
    fun e m' before => ⟨before.1, raised e m' before.1 before.2⟩

theorem attempt_any (does : Does g a m post) : Does g (attempt a) m fun _ _ => True :=
  does.attempt (fun _ _ _ _ _ => trivial) fun _ _ _ _ => trivial

end Does

/-! ## Reading -/

theorem does_ofOption (o : Option α) : Does g (ofOption o) m fun x m' => o = some x ∧ m' = m := by
  cases o with
  | none => exact fun _ => trivial
  | some x => exact .pure ⟨rfl, rfl⟩

theorem does_reading (f : Machine → α) : Does g (reading f) m fun x m' => x = f m ∧ m' = m :=
  .get_bind (.pure ⟨rfl, rfl⟩)

theorem does_describe (v : Value) : Does g (describe v) m fun _ m' => m' = m :=
  .get_bind ((does_ofOption _).mono fun _ _ _ _ read => read.2)

/-! ## Single changes -/

theorem does_modify (f : Machine → Machine) (evolution : Evolution g m (f m)) :
    Does g (modify f) m fun _ m' => m' = f m :=
  .of_run rfl evolution fun _ => rfl

theorem does_intern (name : String) :
    Does g (intern name) m fun s m' =>
      s = (m.symbols.intern name).1 ∧ m' = { m with symbols := (m.symbols.intern name).2 } :=
  .of_run rfl (.single (.intern name)) fun _ => ⟨rfl, rfl⟩

theorem does_alloc {o : Object} (born : o.Newborn) (known : ∀ x ∈ o.references, m.Known g x)
    (founded : o.Founded g m) :
    Does g (alloc o) m fun id m' => id = m.newId o ∧ m' = m.withNew o :=
  .of_run rfl (.single (.alloc o born known founded)) fun _ => ⟨rfl, rfl⟩

theorem does_touch (id : ObjId) (f : Object → Object)
    (how : ∀ o, m.object? id = some o → f o = o ∨
      (Touch g m id o (f o) ∧ ∀ x ∈ (f o).references, x ∈ o.references ∨ m.Known g x)) :
    Does g (onHeap fun h => h.modify id f) m fun _ m' =>
      m' = { m with heap := m.heap.modify id f } :=
  does_modify _ (Evolution.modify id f how)

end Act

end GuestVM

import GuestVM.Proofs.Machine.Defining

/-! # What names what

An object names an id in one of the places that its body has, a machine in one of its own or through
an object that is alive.  These are the places themselves; that `Object.references` and
`Machine.roots` list them all is shown here (`Object.mem_references_of_names`,
`Machine.holds_of_names`). -/
set_option autoImplicit false

namespace GuestVM

/-- An object names an id: as its class, in a variable, or in its body. -/
inductive Object.Names (o : Object) (x : ObjId) : Prop
  | cls (is : o.cls = x)
  | ivar (s : Sym) (found : o.ivars.get? s = some (.obj x))
  | superclass (c : ClassData) (body : o.body = .class c) (is : c.superclass = some x)
  | method (c : ClassData) (s : Sym) (method : Method) (body : o.body = .class c)
      (found : c.methods.get? s = some method) (is : method.proc = x)
  | const (c : ClassData) (s : Sym) (body : o.body = .class c)
      (found : c.consts.get? s = some (.obj x))
  | attached (c : ClassData) (body : o.body = .class c) (is : c.kind = .singleton (.obj x))
  | env (p : ProcData) (body : o.body = .proc p) (is : p.env = some x)
  | target (p : ProcData) (body : o.body = .proc p) (is : p.target = some x)
  | item (items : Array Value) (i : Nat) (body : o.body = .array items)
      (found : items[i]? = some (.obj x))
  | key (t : HashTable) (position : Nat) (v : Value) (body : o.body = .hash t)
      (found : t.entryAt? position = some (.obj x, v))
  | value (t : HashTable) (position : Nat) (key : Value) (body : o.body = .hash t)
      (found : t.entryAt? position = some (key, .obj x))
  | first (r : RangeData) (body : o.body = .range r) (is : r.first = .obj x)
  | last (r : RangeData) (body : o.body = .range r) (is : r.last = .obj x)
  | slot (values : Array Value) (isShared : Bool) (i : Nat) (body : o.body = .env values isShared)
      (found : values[i]? = some (.obj x))

/-- A machine names an id itself: as a built-in class or the main object, in a global, as the current
exception, on the arena, or in a running call. -/
inductive Machine.NamesItself (m : Machine) (x : ObjId) : Prop
  | builtin (b : Builtin) (is : b.id = x)
  | top (is : m.top = x)
  | global (s : Sym) (found : m.globals.get? s = some (.obj x))
  | exc (is : m.exc = some x)
  | arena (i : Nat) (found : m.heap.arena[i]? = some x)
  | proc (f : Frame) (running : f ∈ m.frames) (is : f.proc = x)
  | receiver (f : Frame) (running : f ∈ m.frames) (is : f.receiver = .obj x)
  | block (f : Frame) (running : f ∈ m.frames) (is : f.block = .obj x)
  | arg (f : Frame) (i : Nat) (running : f ∈ m.frames) (found : f.args[i]? = some (.obj x))

/-- A machine names an id, itself or through an object that is alive. -/
def Machine.Names (m : Machine) (x : ObjId) : Prop :=
  m.NamesItself x ∨ ∃ holder o, m.object? holder = some o ∧ o.Names x

variable {o : Object} {m : Machine} {x : ObjId}

/-- The references of an object leave out nothing that it names. -/
theorem Object.mem_references_of_names (names : o.Names x) : x ∈ o.references := by
  have inBody : ∀ b, o.body = b → x ∈ b.references → x ∈ o.references := by
    intro b same inside
    subst same
    exact Object.mem_references_of_body inside
  cases names with
  | cls is =>
      rw [← is]
      exact List.mem_cons_self
  | ivar s found =>
      have value := Value.mem_objects.mpr (SymMap.mem_values_of_get? found)
      exact List.mem_append_left _ (List.mem_cons_of_mem _ value)
  | superclass c body is => exact inBody _ body (ClassData.mem_references.mpr (.inl is))
  | method c s method body found is =>
      have value := SymMap.mem_values_of_get? found
      exact inBody _ body (ClassData.mem_references.mpr (.inr (.inl ⟨method, value, is⟩)))
  | const c s body found =>
      have value := SymMap.mem_values_of_get? found
      exact inBody _ body (ClassData.mem_references.mpr (.inr (.inr (.inl value))))
  | attached c body is => exact inBody _ body (ClassData.mem_references.mpr (.inr (.inr (.inr is))))
  | env p body is =>
      exact inBody _ body (List.mem_append_left _ (Option.mem_toList.mpr is))
  | target p body is =>
      exact inBody _ body (List.mem_append_right _ (Option.mem_toList.mpr is))
  | item items i body found =>
      have inside := Array.mem_toList_iff.mpr (Array.mem_of_getElem? found)
      exact inBody _ body (Value.mem_objects.mpr inside)
  | key t position v body found =>
      have entry := Array.mem_of_getElem? found
      exact inBody _ body (HashTable.mem_references.mpr ⟨_, entry, .inl rfl⟩)
  | value t position key body found =>
      have entry := Array.mem_of_getElem? found
      exact inBody _ body (HashTable.mem_references.mpr ⟨_, entry, .inr rfl⟩)
  | first r body is =>
      refine inBody _ body (Value.mem_objects.mpr ?_)
      rw [is]
      exact List.mem_cons_self
  | last r body is =>
      refine inBody _ body (Value.mem_objects.mpr ?_)
      rw [is]
      exact List.mem_cons_of_mem _ List.mem_cons_self
  | slot values isShared i body found =>
      have inside := Array.mem_toList_iff.mpr (Array.mem_of_getElem? found)
      exact inBody _ body (Value.mem_objects.mpr inside)

/-- The roots and the arena leave out nothing that a machine names itself. -/
theorem Machine.root_of_namesItself (names : m.NamesItself x) :
    x ∈ m.roots ∨ x ∈ m.heap.arena := by
  have inFrame : ∀ f ∈ m.frames, x ∈ f.references → x ∈ m.roots := fun f running named =>
    mem_roots.mpr (.inr (.inr (.inr (.inr ⟨f, running, named⟩))))
  have value : ∀ f ∈ m.frames, .obj x ∈ f.receiver :: f.block :: f.args → x ∈ m.roots :=
    fun f running member =>
      inFrame f running (List.mem_cons_of_mem _ (Value.mem_objects.mpr member))
  cases names with
  | builtin b is => exact .inl (mem_roots.mpr (.inl ⟨b, is⟩))
  | top is => exact .inl (mem_roots.mpr (.inr (.inl is.symm)))
  | global s found =>
      have inside := Value.mem_objects.mpr (SymMap.mem_values_of_get? found)
      exact .inl (mem_roots.mpr (.inr (.inr (.inl inside))))
  | exc is => exact .inl (mem_roots.mpr (.inr (.inr (.inr (.inl is)))))
  | arena i found => exact .inr (Array.mem_of_getElem? found)
  | proc f running is =>
      rw [← is]
      exact .inl (mem_roots.mpr (.inr (.inr (.inr (.inr ⟨f, running, List.mem_cons_self⟩)))))
  | receiver f running is => exact .inl (value f running (is ▸ List.mem_cons_self))
  | block f running is =>
      exact .inl (value f running (List.mem_cons_of_mem _ (is ▸ List.mem_cons_self)))
  | arg f i running found =>
      have inside := List.mem_of_getElem? found
      exact .inl (value f running (List.mem_cons_of_mem _ (List.mem_cons_of_mem _ inside)))

theorem Machine.holds_of_names (names : m.Names x) : m.Holds x := by
  rcases names with itself | ⟨holder, o, present, named⟩
  · rcases root_of_namesItself itself with root | inArena
    · exact .inl root
    · exact .inr (.inl inArena)
  · exact .inr (.inr ⟨holder, o, present, Object.mem_references_of_names named⟩)

end GuestVM

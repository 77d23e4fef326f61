import GuestVM.Proofs.Machine.Building
import GuestVM.Proofs.Machine.Keys
import GuestVM.Proofs.Machine.Sparing

/-! # Who writes the table of a hash

Operations on other objects leave the table of a hash as it is, and so does filling another hash.  A
change says of itself only which hash may lose entries, and where one may none gains any; so an
operation that can be granted to take entries out of some other hash has entered none in this one
either (`Act.SparesTable.of_does`).  Filling a hash cannot be granted that; what it writes is its own
hash (`Act.SparesTable.of_spares`). -/
set_option autoImplicit false

namespace GuestVM

variable {g : Grant} {m m' : Machine} {h d : ObjId} {t t' : HashTable} {v : Value}

/-- A live hash with its table. -/
def Machine.HasTable (m : Machine) (h : ObjId) (t : HashTable) : Prop :=
  ∃ o, m.object? h = some o ∧ o.body = .hash t

theorem Machine.hasTable_iff : m.HasTable h t ↔ m.body? (.obj h) = some (.hash t) := by
  simp [HasTable, body?, Value.asObj, Option.bind_eq_some_iff]

namespace Machine.HasTable

theorem live (has : m.HasTable h t) : m.Live h := by
  obtain ⟨o, present, -⟩ := has
  exact .of_object? present

theorem table (has : m.HasTable h t) : m.table (.obj h) = t := by
  obtain ⟨o, present, body⟩ := has
  exact Machine.table_of_hash present body

theorem of_typeOf (typed : m.typeOf (.obj h) = .hash) : m.HasTable h (m.table (.obj h)) := by
  obtain ⟨o, present⟩ := Machine.live_of_typeOf typed (by decide)
  exact ⟨o, present, Machine.hash_of_typeOf present typed⟩

theorem congr (has : m.HasTable h t) (same : m'.object? h = m.object? h) : m'.HasTable h t := by
  obtain ⟨o, present, body⟩ := has
  exact ⟨o, same.trans present, body⟩

theorem of_onlyIn (has : m.HasTable h t) (only : m.OnlyIn v m') (other : v ≠ .obj h) :
    m'.HasTable h t := by
  obtain ⟨o, present, body⟩ := has
  exact ⟨o, only h o other present, body⟩

theorem of_spared {e : Raised} (has : m.HasTable h t) (spared : m.Spared e m')
    (tidy : m.heap.Tidy) : m'.HasTable h t := by
  obtain ⟨id, unharmed⟩ := spared.unharmed tidy
  refine has.congr (unharmed.objects h fun same => ?_)
  obtain ⟨o, present, -⟩ := has
  rw [same, unharmed.dead] at present
  cases present

end Machine.HasTable

/-! ## Changes -/

/-- Under the grant nothing is written to a hash: only another one may lose entries. -/
structure Grant.SparesTable (g : Grant) (h : ObjId) : Prop where
  drops : ∃ d, g.drops = some d ∧ d ≠ h
  unedited : g.edits = none
  quiet : g.sweeps = false

/-- What a change does to the table of a live hash. -/
theorem Change.tabling (change : Change g m m') (tidy : m.heap.Tidy) (unedited : g.edits = none)
    (quiet : g.sweeps = false) (has : m.HasTable h t) :
    ∃ t', m'.HasTable h t' ∧ Tabling g m h t t' := by
  obtain ⟨o, before, body⟩ := has
  rcases change.object?_after tidy before with same | ⟨o', after, how⟩ | ⟨p, env, proc, -⟩ |
    ⟨sweeps, -⟩
  · exact ⟨t, ⟨o, same, body⟩, .inl rfl⟩
  · obtain ⟨t', body', tabling⟩ := how.table_after unedited body
    exact ⟨t', ⟨o', after, body'⟩, tabling⟩
  · rw [body] at proc
    cases proc
  · rw [quiet] at sweeps
    cases sweeps

theorem Tabling.eq_of_drops (how : Tabling g m h t t') (drops : g.drops = some d)
    (apart : d ≠ h) : t' = t := by
  have other : g.drops ≠ some h := by
    rw [drops]
    exact fun same => apart (Option.some.inj same)
  obtain same | retabled | ⟨p, may, -⟩ := how
  · exact same
  · cases retabled with
    | enter key v settled keeps =>
        rw [drops] at keeps
        cases keeps
    | drop k may => exact absurd may other
    | clear may => exact absurd may other
  · exact absurd may other

theorem Change.keeps_table (change : Change g m m') (tidy : m.heap.Tidy) (spares : g.SparesTable h)
    (has : m.HasTable h t) : m'.HasTable h t := by
  obtain ⟨d, drops, apart⟩ := spares.drops
  obtain ⟨t', has', how⟩ := change.tabling tidy spares.unedited spares.quiet has
  exact how.eq_of_drops drops apart ▸ has'

theorem Evolution.keeps_table (evolution : Evolution g m m') (tidy : m.heap.Tidy)
    (spares : g.SparesTable h) (has : m.HasTable h t) : m'.HasTable h t := by
  induction evolution with
  | refl => exact has
  | tail before change ih => exact change.keeps_table (Evolution.tidy before tidy) spares ih

/-- The grant for where entries are taken out of nothing but a hash beside the given one. -/
def Grant.beside (g : Grant) (h : ObjId) : Grant := { g with drops := some ⟨h.slot + 1⟩ }

theorem Grant.sparesTable_beside (unedited : g.edits = none) (quiet : g.sweeps = false) (h : ObjId) :
    (g.beside h).SparesTable h := by
  refine ⟨⟨_, rfl, fun same => ?_⟩, unedited, quiet⟩
  exact Nat.succ_ne_self _ (congrArg ObjId.slot same)

/-! ## Coherence -/

/-- The table of every hash is coherent. -/
def Machine.AllCoherent (m : Machine) : Prop := ∀ h t, m.HasTable h t → t.Coherent

theorem Machine.AllCoherent.of_original (original : m.Original) : m.AllCoherent := by
  intro h t has
  obtain ⟨o, present, body⟩ := has
  exact (AllKeyed.of_original original h o t present body).coherent

theorem Tabling.coherent (how : Tabling g m h t t') (coherent : t.Coherent) : t'.Coherent := by
  obtain rfl | retabled | ⟨p, -, rfl⟩ := how
  · exact coherent
  · cases retabled with
    | enter key v settled => exact coherent.insert
    | drop k => exact coherent.erase k
    | clear => exact .empty
  · exact coherent.removeAt p

theorem Change.allCoherent (change : Change g m m') (tidy : m.heap.Tidy) (unedited : g.edits = none)
    (all : m.AllCoherent) : m'.AllCoherent := by
  intro h t' has
  obtain ⟨o', present, body⟩ := has
  rcases change.object?_before tidy present with same | ⟨o, before, how, -⟩ |
    ⟨o, p, env, -, -, -, -, rfl⟩ | ⟨-, newborn⟩
  · exact all h t' ⟨o', same, body⟩
  · obtain ⟨t, was, tabling⟩ := how.table_before unedited body
    exact tabling.coherent (all h t ⟨o, before, was⟩)
  · cases body
  · have empty := newborn.2.2
    rw [body] at empty
    rw [show t' = .empty from empty]
    exact .empty

theorem Evolution.allCoherent (evolution : Evolution g m m') (tidy : m.heap.Tidy)
    (unedited : g.edits = none) (all : m.AllCoherent) : m'.AllCoherent := by
  induction evolution with
  | refl => exact all
  | tail before change ih => exact change.allCoherent (Evolution.tidy before tidy) unedited ih

/-! ## Places

Where nothing is taken out of a hash each identity stays at its place. -/

theorem Tabling.keys_prefix (how : Tabling g m h t t') (coherent : t.Coherent)
    (kept : g.drops ≠ some h) : t.keys.toList <+: t'.keys.toList := by
  obtain rfl | retabled | ⟨p, may, -⟩ := how
  · exact List.prefix_rfl
  · cases retabled with
    | enter key v settled =>
        rcases HashTable.keys_insert coherent with ⟨-, same⟩ | ⟨-, last⟩
        · exact same ▸ List.prefix_rfl
        · exact last ▸ List.prefix_append _ _
    | drop k may => exact absurd may kept
    | clear may => exact absurd may kept
  · exact absurd may kept

theorem Evolution.keys_prefix (evolution : Evolution g m m') (tidy : m.heap.Tidy)
    (unedited : g.edits = none) (quiet : g.sweeps = false) (kept : g.drops ≠ some h)
    (all : m.AllCoherent) (has : m.HasTable h t) :
    ∃ t', m'.HasTable h t' ∧ t.keys.toList <+: t'.keys.toList := by
  induction evolution with
  | refl => exact ⟨t, has, List.prefix_rfl⟩
  | tail before change ih =>
      obtain ⟨middle, has', ahead⟩ := ih
      have tidy' := Evolution.tidy before tidy
      obtain ⟨t', has'', how⟩ := change.tabling tidy' unedited quiet has'
      have coherent := Evolution.allCoherent before tidy unedited all h middle has'
      exact ⟨t', has'', ahead.trans (how.keys_prefix coherent kept)⟩

/-! ## Actions -/

namespace Act

variable {α β : Type} {a : Act α}

/-- However the action ends the hash has the table that it had. -/
def SparesTable (h : ObjId) (t : HashTable) (a : Act α) (m : Machine) : Prop :=
  m.heap.Tidy → m.HasTable h t →
    match a.run.run m with
    | (.error .endless, _) => True
    | (_, m') => m'.heap.Tidy ∧ m'.HasTable h t

namespace SparesTable

theorem ensures (spares : SparesTable h t a m) (tidy : m.heap.Tidy) (has : m.HasTable h t) :
    Ensures a m (fun _ m' => m'.heap.Tidy ∧ m'.HasTable h t)
      fun _ m' => m'.heap.Tidy ∧ m'.HasTable h t := ensures_leaving.mpr (spares tidy has)

theorem of_ensures (ensures : m.heap.Tidy → m.HasTable h t → Ensures a m
    (fun _ m' => m'.heap.Tidy ∧ m'.HasTable h t) fun _ m' => m'.heap.Tidy ∧ m'.HasTable h t) :
    SparesTable h t a m := fun tidy has => ensures_leaving.mp (ensures tidy has)

theorem of_does {post : α → Machine → Prop} (does : Does g a m post) (spares : g.SparesTable h) :
    SparesTable h t a m := by
  refine of_ensures fun tidy has => ?_
  have keeps : ∀ {m'}, Evolution g m m' → m'.heap.Tidy ∧ m'.HasTable h t := fun evolution =>
    ⟨evolution.tidy tidy, evolution.keeps_table tidy spares has⟩
  exact (does.ensures tidy).mono (fun _ _ did => keeps did.1) fun _ _ did => keeps did.1

/-- An operation on another object than the hash. -/
theorem of_spares {post : α → Machine → Prop} (does : Does g a m post)
    (spares : Spares a m fun _ m' => m.OnlyIn v m') (other : v ≠ .obj h) :
    SparesTable h t a m :=
  of_ensures fun tidy has => ((does.ensures tidy).and (spares.ensures tidy)).mono
    (fun _ _ told => ⟨told.1.1.tidy tidy, has.of_onlyIn told.2 other⟩)
    fun _ _ told => ⟨told.1.1.tidy tidy, has.of_spared told.2 tidy⟩

protected theorem pure (x : α) : SparesTable h t (pure x) m := fun tidy has => ⟨tidy, has⟩

protected theorem bind {b : α → Act β} (first : SparesTable h t a m)
    (rest : ∀ x m', a.run.run m = (.ok x, m') → m'.HasTable h t → SparesTable h t (b x) m') :
    SparesTable h t (a >>= b) m := by
  refine of_ensures fun tidy has => (first.ensures tidy has).ran.bind fun x middle before => ?_
  obtain ⟨ran, tidy', has'⟩ := before
  exact (rest x middle ran has').ensures tidy' has'

protected theorem attempt (spares : SparesTable h t a m) : SparesTable h t (attempt a) m :=
  of_ensures fun tidy has => (spares.ensures tidy has).attempt (fun _ _ keeps => keeps)
    fun _ _ keeps => keeps

theorem mapM {f : β → Act α} (each : ∀ x m, SparesTable h t (f x) m) :
    ∀ (xs : List β) (m : Machine), SparesTable h t (xs.mapM f) m
  | [], _ => by
      rw [List.mapM_nil]
      exact .pure []
  | x :: rest, m => by
      rw [List.mapM_cons]
      exact (each x m).bind fun _ _ _ _ => (mapM each rest _).bind fun _ _ _ _ => .pure _

end SparesTable

theorem sparesTable_hashSet {h' : Value} (other : h' ≠ .obj h) (key v : Value) :
    SparesTable h t (hashSet h' key v) m :=
  .of_spares (does_hashSet (g := { ids := Value.objects [key, v] }) h' key v rfl
    fun _ member => .inl member) (spares_hashSet h' key v) other

theorem sparesTable_hashDelete {h' : Value} (other : h' ≠ .obj h) (key : Value) :
    SparesTable h t (hashDelete h' key) m :=
  .of_spares (does_hashDelete (g := { drops := h'.asObj }) h' key rfl) (spares_hashDelete h' key)
    other

theorem sparesTable_hashClear {h' : Value} (other : h' ≠ .obj h) :
    SparesTable h t (hashClear h') m :=
  .of_spares (does_hashClear (g := { drops := h'.asObj }) h' rfl) (spares_hashClear h') other

/-! ## Host data on its way in

What host data becomes is new, and so are the hashes that are filled with it. -/

theorem sparesTable_arrayNew (items : List Value) : SparesTable h t (arrayNew items) m :=
  .of_does (does_arrayNew fun _ member => .handed member)
    (Grant.sparesTable_beside (g := { ids := Value.objects items }) rfl rfl h)

theorem sparesTable_textValue (s : String) : SparesTable h t (textValue s) m :=
  .of_does (does_stringNew _) (Grant.sparesTable_beside (g := {}) rfl rfl h)

mutual

theorem sparesTable_documentValue : ∀ (d : Document) (m : Machine),
    SparesTable h t (documentValue d) m
  | .null, _ => .pure _
  | .bool _, _ => .pure _
  | .int _, _ => .pure _
  | .float _, _ => .pure _
  | .str s, _ => sparesTable_textValue s
  | .arr items, m =>
      (sparesTable_documentValues items m).bind fun _ _ _ _ => sparesTable_arrayNew _
  | .obj members, m => by
      intro tidy has
      let o : Object := { cls := Builtin.hash.id, body := .hash .empty }
      have apart : Value.obj (m.newId o) ≠ .obj h := by
        intro same
        exact Machine.ne_newId tidy o has.live (Value.obj.inj same).symm
      have made : SparesTable h t hashNew m :=
        .of_does does_hashNew (Grant.sparesTable_beside (g := {}) rfl rfl h)
      unfold documentValue
      refine (made.bind fun h' m₁ ran _ => ?_) tidy has
      have new : hashNew.run.run m = (.ok (.obj (m.newId o)), m.withNew o) := rfl
      cases new.symm.trans ran
      exact (sparesTable_putMembers members _ _ apart).bind fun _ _ _ _ => .pure _

theorem sparesTable_documentValues : ∀ (ds : List Document) (m : Machine),
    SparesTable h t (documentValues ds) m
  | [], _ => .pure _
  | d :: rest, m =>
      (sparesTable_documentValue d m).bind fun _ m₁ _ _ =>
        (sparesTable_documentValues rest m₁).bind fun _ _ _ _ => .pure _

theorem sparesTable_putMembers : ∀ (members : List (String × Document)) (h' : Value) (m : Machine),
    h' ≠ .obj h → SparesTable h t (putMembers h' members) m
  | [], _, _, _ => .pure _
  | (name, d) :: rest, h', _, other =>
      (sparesTable_textValue name).bind fun key _ _ _ =>
        (sparesTable_documentValue d _).bind fun v _ _ _ =>
          (sparesTable_hashSet other key v).attempt.bind fun _ _ _ _ =>
            sparesTable_putMembers rest h' _ other

end

theorem sparesTable_intoGuest : ∀ (type : HostType) (data : type.Carrier) (m : Machine),
    SparesTable h t (intoGuest type data) m
  | .unit, _, _ => .pure _
  | .bool, _, _ => .pure _
  | .int64, _, _ => .pure _
  | .int32, _, _ => .pure _
  | .size, _, _ => .pure _
  | .float, _, _ => .pure _
  | .text, s, _ => sparesTable_textValue s
  | .option _, none, _ => .pure _
  | .option type, some x, m => sparesTable_intoGuest type x m
  | .list type, xs, m =>
      (SparesTable.mapM (sparesTable_intoGuest type) xs m).bind fun _ _ _ _ =>
        sparesTable_arrayNew _
  | .document, d, m => sparesTable_documentValue d m
  | .value, _, _ => .pure _

end Act

end GuestVM

import GuestVM.Proofs.Machine.Closed
import GuestVM.Proofs.Object.HashTable

/-! # Keys of hashes

A table notes what a key stands for when the key comes in.  That stays true: a string that is a key
is frozen, and no frozen string is written.  So in every hash the noted identities are those of its
keys, none of them twice; and a change of the machine either enters identities behind all others or
takes some out. -/
set_option autoImplicit false

namespace GuestVM

/-- What a value is as a key if it is no string. -/
def Value.identity : Value → HashKey
  | .nil => .nil
  | .bool b => .bool b
  | .int n => .int n
  | .float x => .float x.bits
  | .sym s => .sym s
  | .undefined => .undefined
  | .obj id => .obj id

theorem Value.identity_injective : Function.Injective Value.identity := by
  intro v w same
  cases v <;> cases w <;> simp only [identity, reduceCtorEq, HashKey.bool.injEq, HashKey.int.injEq,
    HashKey.float.injEq, HashKey.sym.injEq, HashKey.obj.injEq] at same
  case float.float x y =>
      cases x
      cases y
      cases same
      rfl
  all_goals first | rfl | rw [same]

namespace Machine

variable {m m' : Machine} {v w key : Value} {t : HashTable} {x h : ObjId} {o o' : Object}

/-- Strings have the same content when their bytes are the same, other values when they are the
same value. -/
def SameContent (m : Machine) (v w : Value) : Prop :=
  v = w ∨ ∃ bytes, m.body? v = some (.string bytes) ∧ m.body? w = some (.string bytes)

/-! ## Contents -/

theorem hashKey_cases (m : Machine) (v : Value) :
    (∃ bytes, m.body? v = some (.string bytes) ∧ m.hashKey v = .str bytes) ∨
      m.hashKey v = v.identity := by
  cases v with
  | obj id =>
      simp only [hashKey, Value.identity]
      split
      case h_1 bytes text => exact .inl ⟨bytes, text, rfl⟩
      case h_2 => exact .inr rfl
  | _ => exact .inr rfl

/-- Keys are identified by their content. -/
theorem hashKey_eq_iff : m.hashKey v = m.hashKey w ↔ m.SameContent v w := by
  have apart : ∀ (u : Value) bytes, u.identity ≠ .str bytes := by
    intro u bytes
    cases u <;> exact nofun
  constructor
  · intro same
    rcases m.hashKey_cases v with ⟨left, text, stands⟩ | stands <;>
      rcases m.hashKey_cases w with ⟨right, text', stands'⟩ | stands' <;>
      rw [stands, stands'] at same
    · cases same
      exact .inr ⟨left, text, text'⟩
    · exact absurd same.symm (apart w left)
    · exact absurd same (apart v right)
    · exact .inl (Value.identity_injective same)
  · intro same
    obtain rfl | ⟨bytes, left, right⟩ := same
    · rfl
    · rw [hashKey_of_string left, hashKey_of_string right]

end Machine

/-! ## What changes leave of a key -/

/-- A replacement under which the object stays what it is as a key. -/
structure Object.KeepsKey (o o' : Object) : Prop where
  text : ∀ bytes, o.body = .string bytes → o.frozen = true →
    o'.body = .string bytes ∧ o'.frozen = true
  other : ∀ bytes, o'.body = .string bytes → ∃ bytes, o.body = .string bytes

theorem Object.KeepsKey.refl (o : Object) : o.KeepsKey o :=
  ⟨fun _ body frozen => ⟨body, frozen⟩, fun bytes body => ⟨bytes, body⟩⟩

section Changes

variable {g : Grant} {m m' : Machine} {v key : Value} {t : HashTable} {x h : ObjId} {o o' : Object}

theorem Touch.keepsKey (how : Touch g m x o o') (unedited : g.edits ≠ some x) : o.KeepsKey o' := by
  have kept : ∀ {p : Object}, p.body = o.body → (o.frozen = true → p.frozen = true) →
      o.KeepsKey p := by
    intro p same frozen
    exact ⟨fun bytes body isFrozen => ⟨same.trans body, frozen isFrozen⟩,
      fun bytes body => ⟨bytes, same.symm.trans body⟩⟩
  have apart : ∀ {b b' : Body}, o.body = b → (∀ bytes, b ≠ .string bytes) →
      (∀ bytes, b' ≠ .string bytes) → o.KeepsKey { o with body := b' } := by
    intro b b' body other other'
    exact ⟨fun bytes text => absurd (body.symm.trans text) (other bytes),
      fun bytes text => absurd text (other' bytes)⟩
  cases how with
  | freeze => exact kept rfl fun _ => rfl
  | ivar => exact kept rfl id
  | reclass => exact kept rfl id
  | edit e may => exact absurd may unedited
  | bytes before after body thawed =>
      refine ⟨fun bytes _ frozen => ?_, fun bytes _ => ⟨before, body⟩⟩
      rw [thawed] at frozen
      cases frozen
  | items before after body => exact apart body nofun nofun
  | table before after body => exact apart body nofun nofun
  | removal t position body => exact apart body nofun nofun
  | const c s v body => exact apart body nofun nofun
  | method c s method body => exact apart body nofun nofun
  | unmethod c s body => exact apart body nofun nofun
  | install p c noArg body => exact apart body nofun nofun
  | rebind p env body => exact apart body nofun nofun
  | write q values after isShared body => exact apart body nofun nofun

theorem Machine.keeps_key (settled : m.Settled v)
    (keeps : ∀ x o, v = .obj x → m.object? x = some o →
      ∃ o', m'.object? x = some o' ∧ o.KeepsKey o')
    (live : ∀ x, v = .obj x → m.Live x) : m'.hashKey v = m.hashKey v ∧ m'.Settled v := by
  cases v with
  | obj x =>
      obtain ⟨o, before⟩ := (live x rfl).object?
      obtain ⟨o', after, keeps⟩ := keeps x o rfl before
      constructor
      · simp only [hashKey, body?, Value.asObj, Option.bind_eq_bind, Option.bind_some, before, after,
          Option.pure_def]
        cases body : o.body with
        | string bytes =>
            rw [(keeps.text bytes body (settled x o bytes rfl before body)).1]
        | _ =>
            cases body' : o'.body with
            | string bytes =>
                obtain ⟨bytes', text⟩ := keeps.other bytes body'
                rw [body] at text
                cases text
            | _ => rfl
      · intro _ p bytes same present body
        cases same
        cases after.symm.trans present
        obtain ⟨bytes', text⟩ := keeps.other bytes body
        exact (keeps.text bytes' text (settled x o bytes' rfl before text)).2
  | _ =>
      refine ⟨rfl, ?_⟩
      intro _ _ _ same
      cases same

/-- A key that lives on stands for what it stood for, unless its object is edited. -/
theorem Change.keeps_key (change : Change g m m') (tidy : m.heap.Tidy) (settled : m.Settled v)
    (unedited : ∀ x, v = .obj x → g.edits ≠ some x) (live : ∀ x, v = .obj x → m.Live x)
    (live' : ∀ x, v = .obj x → m'.Live x) : m'.hashKey v = m.hashKey v ∧ m'.Settled v := by
  refine Machine.keeps_key settled ?_ live
  intro x o same before
  rcases change.object?_after tidy before with after | ⟨o', after, how⟩ | ⟨p, env, body, after⟩ |
    ⟨-, dead⟩
  · exact ⟨o, after, .refl o⟩
  · exact ⟨o', after, how.keepsKey (unedited x same)⟩
  · refine ⟨_, after, fun bytes text => ?_, fun bytes text => nomatch text⟩
    rw [body] at text
    cases text
  · obtain ⟨o', after⟩ := (live' x same).object?
    rw [dead] at after
    cases after

end Changes

/-! ## Tables and their keys -/

namespace Machine

variable {g : Grant} {m m' : Machine} {key v : Value} {t t' : HashTable} {x h : ObjId} {o : Object}

/-- A coherent table notes what its keys stand for, and no write can change that. -/
structure Keyed (m : Machine) (t : HashTable) : Prop where
  coherent : t.Coherent
  keys : ∀ (p : Nat) (e : Value × Value) (k : HashKey), t.entries[p]? = some e →
    t.keys[p]? = some k → m.hashKey e.1 = k ∧ m.Settled e.1

namespace Keyed

theorem empty (m : Machine) : m.Keyed .empty := ⟨.empty, by simp [HashTable.empty]⟩

theorem insert (keyed : m.Keyed t) (settled : m.Settled key) (v : Value) :
    m.Keyed (t.insert (m.hashKey key) key v) := by
  refine ⟨keyed.coherent.insert, ?_⟩
  intro p e k entry noted
  unfold HashTable.insert at entry noted
  split at entry
  case h_1 q found =>
      simp only [found] at noted
      rw [Array.getElem?_modify] at entry
      split at entry
      · obtain ⟨before, there, rfl⟩ := Option.map_eq_some_iff.mp entry
        exact keyed.keys p before k there noted
      · exact keyed.keys p e k entry noted
  case h_2 absent =>
      simp only [absent] at noted
      rw [Array.getElem?_push] at entry noted
      rw [keyed.coherent.sizes] at noted
      split at entry
      case isTrue last =>
          rw [if_pos last] at noted
          cases entry
          cases noted
          exact ⟨rfl, settled⟩
      case isFalse other =>
          rw [if_neg other] at noted
          exact keyed.keys p e k entry noted

theorem removeAt (keyed : m.Keyed t) (p : Nat) : m.Keyed (t.removeAt p) := by
  refine ⟨keyed.coherent.removeAt p, ?_⟩
  intro q e k entry noted
  simp only [HashTable.removeAt, Array.eraseIdxIfInBounds, keyed.coherent.sizes] at entry noted
  split at entry
  case isTrue inside =>
      simp only [inside, dite_true, Array.getElem?_eraseIdx] at entry noted
      split at entry
      case isTrue before =>
          rw [if_pos before] at noted
          exact keyed.keys q e k entry noted
      case isFalse after =>
          rw [if_neg after] at noted
          exact keyed.keys (q + 1) e k entry noted
  case isFalse outside =>
      simp only [outside, dite_false] at noted
      exact keyed.keys q e k entry noted

theorem erase (keyed : m.Keyed t) (k : HashKey) : m.Keyed (t.erase k).2 := by
  unfold HashTable.erase
  split
  · exact keyed.removeAt _
  · exact keyed

theorem retabled (keyed : m.Keyed t) (how : Retabling g m x t t') : m.Keyed t' := by
  cases how with
  | enter key v settled => exact keyed.insert settled v
  | drop k => exact keyed.erase k
  | clear => exact .empty m

/-- Each key stands for what it stood for. -/
theorem carry (keyed : m.Keyed t) (same : ∀ e ∈ t.entries, m.Settled e.1 →
    m'.hashKey e.1 = m.hashKey e.1 ∧ m'.Settled e.1) : m'.Keyed t := by
  refine ⟨keyed.coherent, ?_⟩
  intro p e k entry noted
  obtain ⟨stands, settled⟩ := keyed.keys p e k entry noted
  obtain ⟨stands', settled'⟩ := same e (Array.mem_of_getElem? entry) settled
  exact ⟨stands'.trans stands, settled'⟩

theorem stands (keyed : m.Keyed t) :
    (t.entries.toList.map fun e => m.hashKey e.1) = t.keys.toList := by
  apply List.ext_getElem?
  intro p
  rw [List.getElem?_map, Array.getElem?_toList, Array.getElem?_toList]
  by_cases inside : p < t.entries.size
  · have noted : p < t.keys.size := by rwa [keyed.coherent.sizes]
    rw [Array.getElem?_eq_getElem inside, Array.getElem?_eq_getElem noted, Option.map_some]
    exact congrArg some (keyed.keys p _ _ (Array.getElem?_eq_getElem inside)
      (Array.getElem?_eq_getElem noted)).1
  · have past : t.keys.size ≤ p := by rw [keyed.coherent.sizes]; exact Nat.not_lt.mp inside
    rw [Array.getElem?_eq_none (Nat.not_lt.mp inside), Array.getElem?_eq_none past]
    rfl

/-- Lookup finds the values of the entries, by the content of their keys. -/
theorem get?_iff (keyed : m.Keyed t) :
    t.get? (m.hashKey key) = some v ↔
      ∃ e ∈ t.entries.toList, m.SameContent e.1 key ∧ e.2 = v := by
  rw [keyed.coherent.get?_eq_some]
  constructor
  · intro found
    obtain ⟨p, noted, e, entry, same⟩ := found
    refine ⟨e, Array.mem_toList_iff.mpr (Array.mem_of_getElem? entry), ?_, same⟩
    exact hashKey_eq_iff.mp (keyed.keys p e _ entry noted).1
  · intro there
    obtain ⟨e, member, content, same⟩ := there
    obtain ⟨p, inside, rfl⟩ := List.mem_iff_getElem.mp member
    have entry : t.entries[p]? = some t.entries.toList[p] := by
      rw [← Array.getElem?_toList, List.getElem?_eq_getElem inside]
    have noted : p < t.keys.size := by
      rw [keyed.coherent.sizes]
      exact inside
    refine ⟨p, ?_, _, entry, same⟩
    rw [Array.getElem?_eq_getElem noted,
      ← (keyed.keys p _ _ entry (Array.getElem?_eq_getElem noted)).1, hashKey_eq_iff.mpr content]

theorem distinct (keyed : m.Keyed t) :
    t.entries.toList.Pairwise fun e e' => ¬ m.SameContent e.1 e'.1 := by
  have apart : (t.entries.toList.map fun e => m.hashKey e.1).Pairwise (· ≠ ·) :=
    keyed.stands ▸ keyed.coherent.nodup
  refine (List.pairwise_map.mp apart).imp ?_
  intro e e' differ content
  exact differ (hashKey_eq_iff.mpr content)

/-- A key whose content is there keeps its place and gets the new value; any other goes to the
end. -/
theorem entries_insert (keyed : m.Keyed t) (stored : Value) :
    (∃ before e after, t.entries.toList = before ++ e :: after ∧ m.SameContent e.1 key ∧
        (t.insert (m.hashKey key) stored v).entries.toList = before ++ (e.1, v) :: after) ∨
      (∀ e ∈ t.entries.toList, ¬ m.SameContent e.1 key) ∧
        (t.insert (m.hashKey key) stored v).entries.toList = t.entries.toList ++ [(stored, v)] := by
  unfold HashTable.insert
  cases found : t.position (m.hashKey key) with
  | some p =>
      have inside : p < t.entries.toList.length := keyed.coherent.position_lt found
      obtain ⟨before, e, after, split, length, modified⟩ :=
        List.exists_of_modify (fun e : Value × Value => (e.1, v)) inside
      refine .inl ⟨before, e, after, split, ?_, by rw [Array.toList_modify, modified]⟩
      have entry : t.entries[p]? = some e := by
        rw [← Array.getElem?_toList, split, ← length]
        simp
      exact hashKey_eq_iff.mp (keyed.keys p e _ entry ((keyed.coherent.position _ p).mp found)).1
  | none =>
      refine .inr ⟨fun e member content => ?_, Array.toList_push⟩
      refine keyed.coherent.position_eq_none.mp found ?_
      rw [← keyed.stands, ← hashKey_eq_iff.mpr content]
      exact List.mem_map_of_mem member

end Keyed

def AllKeyed (m : Machine) : Prop :=
  ∀ h o t, m.object? h = some o → o.body = .hash t → m.Keyed t

theorem key_mem_references {e : Value × Value} (body : o.body = .hash t) (member : e ∈ t.entries)
    (named : e.1 = .obj x) : x ∈ o.references := by
  refine Object.mem_references_of_body ?_
  rw [body]
  exact HashTable.mem_references.mpr ⟨e, member, .inl named⟩

theorem AllKeyed.of_original (original : m.Original) : m.AllKeyed := by
  intro h o t present body
  have shape := (original.objects h o present).2
  rw [body] at shape
  cases shape

end Machine

section Tables

variable {g : Grant} {m m' : Machine} {x : ObjId} {o o' : Object} {t t' : HashTable}

/-- What becomes of a table at once. -/
def Tabling (g : Grant) (m : Machine) (x : ObjId) (t t' : HashTable) : Prop :=
  t' = t ∨ Retabling g m x t t' ∨ ∃ p, g.drops = some x ∧ t' = t.removeAt p

theorem Touch.table_before (how : Touch g m x o o') (unedited : g.edits = none)
    (body : o'.body = .hash t') : ∃ t, o.body = .hash t ∧ Tabling g m x t t' := by
  cases how with
  | table before after was thawed how =>
      cases body
      exact ⟨before, was, .inr (.inl how)⟩
  | removal t p was may =>
      cases body
      exact ⟨t, was, .inr (.inr ⟨p, may, rfl⟩)⟩
  | edit e may =>
      rw [unedited] at may
      cases may
  | freeze => exact ⟨t', body, .inl rfl⟩
  | ivar => exact ⟨t', body, .inl rfl⟩
  | reclass => exact ⟨t', body, .inl rfl⟩
  | _ => cases body

theorem Touch.table_after (how : Touch g m x o o') (unedited : g.edits = none)
    (body : o.body = .hash t) : ∃ t', o'.body = .hash t' ∧ Tabling g m x t t' := by
  cases how with
  | table before after was thawed how =>
      cases body.symm.trans was
      exact ⟨after, rfl, .inr (.inl how)⟩
  | removal t p was may =>
      cases body.symm.trans was
      exact ⟨_, rfl, .inr (.inr ⟨p, may, rfl⟩)⟩
  | edit e may =>
      rw [unedited] at may
      cases may
  | freeze => exact ⟨t, body, .inl rfl⟩
  | ivar => exact ⟨t, body, .inl rfl⟩
  | reclass => exact ⟨t, body, .inl rfl⟩
  | items _ _ was => cases body.symm.trans was
  | bytes _ _ was => cases body.symm.trans was
  | const _ _ _ was => cases body.symm.trans was
  | method _ _ _ was => cases body.symm.trans was
  | unmethod _ _ was => cases body.symm.trans was
  | install _ _ _ was => cases body.symm.trans was
  | rebind _ _ was => cases body.symm.trans was
  | write _ _ _ _ was => cases body.symm.trans was

theorem Change.allKeyed (change : Change g m m') (tidy : m.heap.Tidy) (closed : m.Closed)
    (handed : ∀ y ∈ g.ids, m.Live y) (unedited : g.edits = none) (all : m.AllKeyed) :
    m'.AllKeyed := by
  intro h o' t' present body
  have closed' := change.closed tidy handed closed
  -- The keys of a table live afterwards, so they need only have been alive before.
  have carry : m.Keyed t' → (∀ x ∈ o'.references, m.Live x) → m'.Keyed t' := by
    intro keyed alive
    refine keyed.carry fun e member settled => ?_
    refine change.keeps_key tidy settled (fun x _ => by simp [unedited]) ?_ ?_
    · exact fun x named => alive x (Machine.key_mem_references body member named)
    · exact fun x named => closed' x (Machine.holds_of_object? present
        (Machine.key_mem_references body member named))
  rcases change.object?_before tidy present with same | ⟨o, before, how, known⟩ |
    ⟨o, p, env, -, -, -, -, rfl⟩ | ⟨-, newborn⟩
  · exact carry (all h o' t' same body) fun x named => closed x (Machine.holds_of_object? same named)
  · have alive : ∀ x ∈ o'.references, m.Live x := by
      intro x named
      rcases known x named with old | given
      · exact closed x (Machine.holds_of_object? before old)
      · exact closed.live_of_known handed given
    obtain ⟨t, was, rfl | retabled | ⟨p, -, rfl⟩⟩ := how.table_before unedited body
    · exact carry (all h o _ before was) alive
    · exact carry ((all h o t before was).retabled retabled) alive
    · exact carry ((all h o t before was).removeAt p) alive
  · cases body
  · have empty := newborn.2.2
    rw [body] at empty
    rw [show t' = .empty from empty]
    exact .empty m'

end Tables

/-! ## The order of the keys -/

/-- Identities have been taken out, or new ones have been entered behind all others. -/
def KeysGo (before after : List HashKey) : Prop :=
  after.Sublist before ∨ ∃ fresh, after = before ++ fresh ∧ ∀ k ∈ fresh, k ∉ before

/-- What stands before an identity that was there was there too. -/
theorem KeysGo.pair {before after : List HashKey} {p q : HashKey} (go : KeysGo before after)
    (had : q ∈ before) (ordered : [p, q].Sublist after) : [p, q].Sublist before := by
  obtain fewer | ⟨fresh, rfl, new⟩ := go
  · exact ordered.trans fewer
  · obtain ⟨first, second, split, inBefore, inFresh⟩ := List.sublist_append_iff.mp ordered
    have none : second = [] := by
      rcases second.eq_nil_or_concat with empty | ⟨front, last, rfl⟩
      · exact empty
      · have same : last = q := by
          have tails := congrArg List.getLast? split
          simpa using tails.symm
        subst same
        exact absurd had (new last (inFresh.subset (by simp)))
    rw [none, List.append_nil] at split
    rwa [split]

section Order

variable {g : Grant} {m m' : Machine} {x h : ObjId} {o o' : Object} {t t' : HashTable}

/-- The identities of the keys of a hash; other objects have none. -/
def Object.keys (o : Object) : List HashKey :=
  match o.body with
  | .hash t => t.keys.toList
  | _ => []

theorem Object.keys_of_hash (body : o.body = .hash t) : o.keys = t.keys.toList := by
  rw [keys, body]

theorem Object.keys_of_other (other : ∀ t, o.body ≠ .hash t) : o.keys = [] := by
  unfold keys
  split
  case h_1 t body => exact absurd body (other t)
  case h_2 => rfl

def Machine.keysOf (m : Machine) (h : ObjId) : List HashKey := ((m.object? h).map (·.keys)).getD []

theorem Machine.keysOf_of_object? (present : m.object? h = some o) : m.keysOf h = o.keys := by
  rw [keysOf, present]
  rfl

theorem Machine.keysOf_of_dead (dead : m.object? h = none) : m.keysOf h = [] := by
  rw [keysOf, dead]
  rfl

/-- What a change under a grant does to the identities of the keys of a hash. -/
def Ordering (g : Grant) (before after : List HashKey) : Prop :=
  after = before ∨ (g.drops = none ∧ ∃ k, k ∉ before ∧ after = before ++ [k]) ∨
    ((g.drops ≠ none ∨ g.sweeps = true) ∧ after.Sublist before)

theorem Ordering.go {before after : List HashKey} (how : Ordering g before after) :
    KeysGo before after := by
  obtain rfl | ⟨-, k, new, rfl⟩ | ⟨-, fewer⟩ := how
  · exact .inl (List.Sublist.refl _)
  · exact .inr ⟨[k], rfl, fun l member => List.mem_singleton.mp member ▸ new⟩
  · exact .inl fewer

theorem Tabling.keys (how : Tabling g m x t t') (coherent : t.Coherent) :
    Ordering g t.keys.toList t'.keys.toList := by
  have named : g.drops = some x → g.drops ≠ none := by
    intro drops none
    rw [drops] at none
    cases none
  obtain rfl | retabled | ⟨p, may, rfl⟩ := how
  · exact .inl rfl
  · cases retabled with
    | enter key v settled keeps =>
        rcases HashTable.keys_insert coherent with ⟨-, same⟩ | ⟨fresh, last⟩
        · exact .inl (congrArg Array.toList same)
        · exact .inr (.inl ⟨keeps, _, fresh, last⟩)
    | drop k may => exact .inr (.inr ⟨.inl (named may), HashTable.keys_erase t k⟩)
    | clear may => exact .inr (.inr ⟨.inl (named may), List.nil_sublist _⟩)
  · exact .inr (.inr ⟨.inl (named may), HashTable.keys_removeAt t p⟩)

theorem Touch.keys (how : Touch g m x o o') (unedited : g.edits = none)
    (coherent : ∀ t, o.body = .hash t → t.Coherent) : Ordering g o.keys o'.keys := by
  by_cases isHash : ∃ t, o.body = .hash t
  · obtain ⟨t, body⟩ := isHash
    obtain ⟨t', body', tabling⟩ := how.table_after unedited body
    rw [Object.keys_of_hash body, Object.keys_of_hash body']
    exact tabling.keys (coherent t body)
  · rw [Object.keys_of_other fun t body => isHash ⟨t, body⟩, Object.keys_of_other fun t' body' => ?_]
    · exact .inl rfl
    · obtain ⟨t, body, -⟩ := how.table_before unedited body'
      exact isHash ⟨t, body⟩

theorem Change.keysOf (change : Change g m m') (tidy : m.heap.Tidy) (unedited : g.edits = none)
    (all : m.AllKeyed) (h : ObjId) : Ordering g (m.keysOf h) (m'.keysOf h) := by
  cases before : m.object? h with
  | none =>
      cases after : m'.object? h with
      | none => exact .inl (by rw [Machine.keysOf_of_dead before, Machine.keysOf_of_dead after])
      | some o' =>
          rcases change.object?_before tidy after with same | ⟨o, was, -⟩ | ⟨o, -, -, was, -⟩ |
            ⟨-, newborn⟩
          · cases before.symm.trans same
          · cases before.symm.trans was
          · cases before.symm.trans was
          · refine .inl ?_
            rw [Machine.keysOf_of_dead before, Machine.keysOf_of_object? after, Object.keys]
            split
            case h_1 t body =>
                have empty := newborn.2.2
                rw [body] at empty
                rw [show t = .empty from empty]
                rfl
            case h_2 => rfl
  | some o =>
      rw [Machine.keysOf_of_object? before]
      rcases change.object?_after tidy before with after | ⟨o', after, how⟩ |
        ⟨p, env, body, after⟩ | ⟨sweeps, dead⟩
      · exact .inl (Machine.keysOf_of_object? after)
      · rw [Machine.keysOf_of_object? after]
        exact how.keys unedited fun t body => (all h o t before body).coherent
      · refine .inl ?_
        rw [Machine.keysOf_of_object? after, Object.keys, Object.keys, body]
      · refine .inr (.inr ⟨.inr sweeps, ?_⟩)
        rw [Machine.keysOf_of_dead dead]
        exact List.nil_sublist _

/-- Code that drops no entries of hashes enters identities only, and other code drops some only. -/
theorem Evolution.keysOf (evolution : Evolution g m m') (tidy : m.heap.Tidy) (closed : m.Closed)
    (handed : ∀ y ∈ g.ids, m.Live y) (unedited : g.edits = none) (quiet : g.sweeps = false)
    (all : m.AllKeyed) : m'.AllKeyed ∧ ∀ h, KeysGo (m.keysOf h) (m'.keysOf h) := by
  have step : ∀ {R : ObjId → List HashKey → Prop}, (∀ h, R h (m.keysOf h)) →
      (∀ h before after, R h before → Ordering g before after → R h after) →
      m'.AllKeyed ∧ ∀ h, R h (m'.keysOf h) := by
    intro R start onward
    have kept := evolution.preserves (P := fun a => a.Closed ∧ a.AllKeyed ∧ ∀ h, R h (a.keysOf h))
      (fun a b change tidy handed holds =>
        ⟨change.closed tidy handed holds.1, change.allKeyed tidy holds.1 handed unedited holds.2.1,
          fun h => onward h _ _ (holds.2.2 h) (change.keysOf tidy unedited holds.2.1 h)⟩)
      tidy handed ⟨closed, all, start⟩
    exact kept.1.2
  cases drops : g.drops with
  | none =>
      have grown := step (R := fun h now => ∃ fresh, now = m.keysOf h ++ fresh ∧
        ∀ k ∈ fresh, k ∉ m.keysOf h) (fun h => ⟨[], by simp, nofun⟩) <| by
          intro h before after fresh how
          obtain ⟨fresh, rfl, new⟩ := fresh
          rcases how with same | ⟨-, k, unknown, last⟩ | ⟨others | sweeps, -⟩
          · exact ⟨fresh, same, new⟩
          · refine ⟨fresh ++ [k], by rw [last, List.append_assoc], ?_⟩
            intro l member
            rcases List.mem_append.mp member with old | rest
            · exact new l old
            · rw [List.mem_singleton.mp rest]
              exact fun inside => unknown (List.mem_append_left _ inside)
          · exact absurd drops others
          · rw [quiet] at sweeps
            cases sweeps
      exact ⟨grown.1, fun h => .inr (grown.2 h)⟩
  | some x =>
      have shrunk := step (R := fun h now => now.Sublist (m.keysOf h))
        (fun h => List.Sublist.refl _) <| by
          intro h before after fewer how
          rcases how with same | ⟨none, -⟩ | ⟨-, fewer'⟩
          · rw [same]
            exact fewer
          · rw [drops] at none
            cases none
          · exact fewer'.trans fewer
      exact ⟨shrunk.1, fun h => .inl (shrunk.2 h)⟩

end Order

end GuestVM

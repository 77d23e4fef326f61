import Mathlib.Data.List.Forall2
import Mathlib.Data.List.Dedup
import Mathlib.Data.List.Induction
import Mathlib.Data.List.Nodup
import GuestVM.Document

/-! # Documents and the order of their members

A document is proper when its numbers are words and finite floats and its objects have each name
once.  `ordered` puts the members of every object in the order of their names, as they come out of
a machine; a proper document and the ordered one differ in nothing else (`alike_ordered`), and one
that is in order already is the ordered one (`ordered_eq`). -/
set_option autoImplicit false

namespace GuestVM

/-! ## Members -/

namespace Members

variable {name : String} {d : Document} {members : Members}

/-- A member of a new name joins the others. -/
theorem perm_insert (fresh : name ∉ members.map Prod.fst) :
    (insert name d members).Perm ((name, d) :: members) := by
  induction members with
  | nil => exact .refl _
  | cons m rest ih =>
      obtain ⟨n, e⟩ := m
      have other : name ≠ n := fun same => fresh (same ▸ List.mem_cons_self)
      have beyond : name ∉ rest.map Prod.fst := fun member => fresh (List.mem_cons_of_mem _ member)
      rw [insert]
      split
      · exact .refl _
      split
      · exact ((ih beyond).cons _).trans (.swap _ _ _)
      case isFalse notBefore notAfter =>
          exact absurd (String.le_antisymm (String.not_lt.mp notAfter) (String.not_lt.mp notBefore))
            other

/-- A member whose name is behind all others goes to the end. -/
theorem insert_last (last : ∀ m ∈ members, m.1 < name) :
    insert name d members = members ++ [(name, d)] := by
  induction members with
  | nil => rfl
  | cons m rest ih =>
      obtain ⟨n, e⟩ := m
      have before : n < name := last _ List.mem_cons_self
      rw [insert, if_neg (String.lt_asymm before), if_pos before,
        ih fun m member => last m (List.mem_cons_of_mem _ member)]
      rfl

/-- Names are strictly ascending. -/
def InOrder (members : Members) : Prop := (members.map Prod.fst).Pairwise (· < ·)

theorem inOrder_cons {m : String × Document} :
    InOrder (m :: members) ↔ (∀ e ∈ members, m.1 < e.1) ∧ InOrder members := by
  simp [InOrder, List.pairwise_cons]

theorem InOrder.nodup (inOrder : InOrder members) : (members.map Prod.fst).Nodup := by
  refine List.Pairwise.imp ?_ inOrder
  rintro n k before rfl
  exact String.lt_irrefl n before

theorem mem_insert {e : String × Document} (inOrder : InOrder members) :
    e ∈ insert name d members ↔ e = (name, d) ∨ e.1 ≠ name ∧ e ∈ members := by
  induction members with
  | nil => simp [insert]
  | cons m rest ih =>
      obtain ⟨n, f⟩ := m
      obtain ⟨behind, inOrder⟩ := inOrder_cons.mp inOrder
      rw [insert]
      split
      case isTrue before =>
          have apart : e ∈ (n, f) :: rest → e.1 ≠ name := by
            intro member same
            rcases List.mem_cons.mp member with rfl | further
            · exact String.lt_irrefl _ (same ▸ before)
            · exact String.lt_asymm before (same ▸ behind e further)
          rw [List.mem_cons]
          exact or_congr_right ⟨fun member => ⟨apart member, member⟩, And.right⟩
      case isFalse notBefore =>
          split
          case isTrue after =>
              have apart : e = (n, f) → e.1 ≠ name := by
                rintro rfl same
                exact String.lt_irrefl _ (same ▸ after)
              rw [List.mem_cons, List.mem_cons, ih inOrder, and_or_left, or_left_comm]
              exact or_congr_right (or_congr_left ⟨fun same => ⟨apart same, same⟩, And.right⟩)
          case isFalse notAfter =>
              obtain rfl : name = n :=
                String.le_antisymm (String.not_lt.mp notAfter) (String.not_lt.mp notBefore)
              rw [List.mem_cons, List.mem_cons]
              refine or_congr_right ⟨fun member => ⟨?_, .inr member⟩, ?_⟩
              · intro same
                exact String.lt_irrefl _ (same ▸ behind e member)
              · rintro ⟨apart, rfl | member⟩
                · exact absurd rfl apart
                · exact member

theorem InOrder.insert (inOrder : InOrder members) : InOrder (members.insert name d) := by
  induction members with
  | nil => exact List.pairwise_singleton _ _
  | cons m rest ih =>
      obtain ⟨n, f⟩ := m
      obtain ⟨behind, others⟩ := inOrder_cons.mp inOrder
      rw [Members.insert]
      split
      case isTrue before =>
          refine inOrder_cons.mpr ⟨fun e member => ?_, inOrder⟩
          rcases List.mem_cons.mp member with rfl | further
          · exact before
          · exact String.lt_trans before (behind e further)
      case isFalse notBefore =>
          split
          case isTrue after =>
              refine inOrder_cons.mpr ⟨fun e member => ?_, ih others⟩
              rcases (mem_insert others).mp member with rfl | ⟨-, further⟩
              · exact after
              · exact behind e further
          case isFalse notAfter =>
              obtain rfl : name = n :=
                String.le_antisymm (String.not_lt.mp notAfter) (String.not_lt.mp notBefore)
              exact inOrder_cons.mpr ⟨behind, others⟩

/-! ## Members of the same name -/

/-- Of the rows of each name the last, in the order of names. -/
structure LastsOf (rows : List (String × Document)) (members : Members) : Prop where
  inOrder : InOrder members
  mem_iff : ∀ e, e ∈ members ↔
    ∃ before after, rows = before ++ e :: after ∧ e.1 ∉ after.map Prod.fst

/-- Members added one after the other. -/
def ofRows (rows : List (String × Document)) : Members :=
  rows.foldl (fun ms (name, d) => Members.insert name d ms) []

theorem ofRows_concat (rows : List (String × Document)) (m : String × Document) :
    ofRows (rows ++ [m]) = (ofRows rows).insert m.1 m.2 := List.foldl_concat _ _ _ _

theorem lastsOf_ofRows (rows : List (String × Document)) : LastsOf rows (ofRows rows) := by
  induction rows using List.reverseRecOn with
  | nil => exact ⟨List.Pairwise.nil, fun e => by simp [ofRows]⟩
  | append_singleton rows m ih =>
      rw [ofRows_concat]
      refine ⟨ih.inOrder.insert, fun e => ?_⟩
      rw [mem_insert ih.inOrder, ih.mem_iff]
      constructor
      · rintro (rfl | ⟨apart, before, after, rfl, last⟩)
        · exact ⟨rows, [], rfl, nofun⟩
        · refine ⟨before, after ++ [m], by simp, ?_⟩
          simp [List.map_append, last, apart]
      · rintro ⟨before, after, whole, last⟩
        rcases List.eq_nil_or_concat after with rfl | ⟨after, m', rfl⟩
        · obtain ⟨-, same⟩ := List.append_inj' whole rfl
          cases same
          exact .inl rfl
        · rw [List.concat_eq_append, ← List.cons_append, ← List.append_assoc] at whole
          obtain ⟨rest, same⟩ := List.append_inj' whole rfl
          cases same
          simp only [List.concat_eq_append, List.map_append, List.mem_append, not_or] at last
          exact .inr ⟨fun same => last.2 (by simp [same]), before, after, rest, last.1⟩

section Lasts

variable {rows : List (String × Document)} {members members' : Members}

theorem LastsOf.unique (lasts : LastsOf rows members) (lasts' : LastsOf rows members') :
    members = members' := by
  have perm : members.Perm members' := by
    refine (List.perm_ext_iff_of_nodup (.of_map _ lasts.inOrder.nodup)
      (.of_map _ lasts'.inOrder.nodup)).mpr fun e => ?_
    rw [lasts.mem_iff, lasts'.mem_iff]
  have ascending := List.pairwise_map.mp lasts.inOrder
  have ascending' := List.pairwise_map.mp lasts'.inOrder
  refine List.Perm.eq_of_pairwise ?_ ascending ascending' perm
  exact fun e f _ _ before after => absurd after (String.lt_asymm before)

theorem exists_last {name : String} (named : name ∈ rows.map Prod.fst) :
    ∃ before e after, rows = before ++ e :: after ∧ e.1 = name ∧ name ∉ after.map Prod.fst := by
  induction rows with
  | nil => cases named
  | cons m rest ih =>
      by_cases further : name ∈ rest.map Prod.fst
      · obtain ⟨before, e, after, rfl, same, last⟩ := ih further
        exact ⟨m :: before, e, after, rfl, same, last⟩
      · have here : m.1 = name := by
          rcases List.mem_cons.mp named with same | behind
          · exact same.symm
          · exact absurd behind further
        exact ⟨[], m, rest, rfl, here, further⟩

theorem LastsOf.names (lasts : LastsOf rows members) {name : String} :
    name ∈ members.map Prod.fst ↔ name ∈ rows.map Prod.fst := by
  simp only [List.mem_map]
  constructor
  · rintro ⟨e, member, rfl⟩
    obtain ⟨before, after, rfl, -⟩ := (lasts.mem_iff e).mp member
    exact ⟨e, by simp, rfl⟩
  · rintro ⟨e, member, rfl⟩
    obtain ⟨before, f, after, whole, same, last⟩ := exists_last (List.mem_map_of_mem member)
    exact ⟨f, (lasts.mem_iff f).mpr ⟨before, after, whole, same ▸ last⟩, same⟩

theorem LastsOf.length_eq (lasts : LastsOf rows members) :
    members.length = (rows.map Prod.fst).dedup.length := by
  have perm : (members.map Prod.fst).Perm (rows.map Prod.fst).dedup := by
    refine (List.perm_ext_iff_of_nodup lasts.inOrder.nodup (List.nodup_dedup _)).mpr fun name => ?_
    rw [lasts.names, List.mem_dedup]
  rw [← perm.length_eq, List.length_map]

theorem LastsOf.length_le (lasts : LastsOf rows members) : members.length ≤ rows.length := by
  rw [lasts.length_eq]
  exact Nat.le_trans (List.dedup_sublist _).length_le (Nat.le_of_eq (List.length_map _))

/-- No row is lost just if the names are different. -/
theorem LastsOf.length_eq_iff (lasts : LastsOf rows members) :
    members.length = rows.length ↔ (rows.map Prod.fst).Nodup := by
  rw [lasts.length_eq, ← List.dedup_eq_self]
  constructor
  · exact fun all => (List.dedup_sublist _).eq_of_length (all.trans (List.length_map _).symm)
  · intro same
    rw [same, List.length_map]

theorem LastsOf.perm (lasts : LastsOf rows members) (names : (rows.map Prod.fst).Nodup) :
    members.Perm rows := by
  refine (List.perm_ext_iff_of_nodup (.of_map _ lasts.inOrder.nodup) (.of_map _ names)).mpr
    fun e => ?_
  rw [lasts.mem_iff]
  constructor
  · rintro ⟨before, after, rfl, -⟩
    simp
  · intro member
    obtain ⟨before, after, rfl⟩ := List.append_of_mem member
    refine ⟨before, after, rfl, ?_⟩
    rw [List.map_append, List.map_cons] at names
    exact (List.nodup_cons.mp (List.nodup_append.mp names).2.1).1

end Lasts

end Members

namespace Document

/-! ## Proper documents -/

inductive Proper : Document → Prop where
  | null : Proper .null
  | bool (b : Bool) : Proper (.bool b)
  | int (w : Int64) : Proper (.int w.toInt)
  | float (x : Binary64) (finite : x.isFinite) : Proper (.float x)
  | str (s : String) : Proper (.str s)
  | arr (items : List Document) (each : ∀ d ∈ items, Proper d) : Proper (.arr items)
  | obj (members : List (String × Document)) (names : (members.map Prod.fst).Nodup)
    (each : ∀ m ∈ members, Proper m.2) : Proper (.obj members)

/-- Equal but for the order of members. -/
inductive Alike : Document → Document → Prop where
  | same (d : Document) : Alike d d
  | arr {items items' : List Document} (each : List.Forall₂ Alike items items') :
    Alike (.arr items) (.arr items')
  | obj {members members' mixed : List (String × Document)}
    (names : members.map Prod.fst = members'.map Prod.fst)
    (each : List.Forall₂ Alike (members.map Prod.snd) (members'.map Prod.snd))
    (perm : members'.Perm mixed) : Alike (.obj members) (.obj mixed)

/-- The members of every object are in the order of their names. -/
inductive InOrder : Document → Prop where
  | null : InOrder .null
  | bool (b : Bool) : InOrder (.bool b)
  | int (n : Int) : InOrder (.int n)
  | float (x : Binary64) : InOrder (.float x)
  | str (s : String) : InOrder (.str s)
  | arr (items : List Document) (each : ∀ d ∈ items, InOrder d) : InOrder (.arr items)
  | obj (members : List (String × Document)) (names : (members.map Prod.fst).Pairwise (· < ·))
    (each : ∀ m ∈ members, InOrder m.2) : InOrder (.obj members)

/-! ## Putting members in order -/

mutual

def ordered : Document → Document
  | .arr items => .arr (orderedItems items)
  | .obj members => .obj (orderedMembers members [])
  | d => d

def orderedItems : List Document → List Document
  | [] => []
  | d :: rest => d.ordered :: orderedItems rest

def orderedMembers : List (String × Document) → Members → Members
  | [], done => done
  | (name, d) :: rest, done => orderedMembers rest (done.insert name d.ordered)

end

variable {members : List (String × Document)} {done : Members}

theorem orderedItems_eq (items : List Document) : orderedItems items = items.map ordered := by
  induction items with
  | nil => rfl
  | cons d rest ih => rw [orderedItems, ih, List.map_cons]

theorem perm_orderedMembers (names : (done.map Prod.fst ++ members.map Prod.fst).Nodup) :
    (orderedMembers members done).Perm (done ++ members.map fun m => (m.1, m.2.ordered)) := by
  induction members generalizing done with
  | nil => simp [orderedMembers]
  | cons m rest ih =>
      obtain ⟨name, d⟩ := m
      have apart : (name :: (done.map Prod.fst ++ rest.map Prod.fst)).Nodup :=
        List.nodup_middle.mp names
      have fresh : name ∉ done.map Prod.fst := fun member =>
        (List.nodup_cons.mp apart).1 (List.mem_append_left _ member)
      have first : (done.insert name d.ordered).Perm ((name, d.ordered) :: done) :=
        Members.perm_insert fresh
      have names' : ((done.insert name d.ordered).map Prod.fst ++ rest.map Prod.fst).Nodup :=
        (((first.map Prod.fst).append_right _).nodup_iff).mpr apart
      exact ((ih names').trans (first.append_right _)).trans List.perm_middle.symm

theorem orderedMembers_eq
    (names : (done.map Prod.fst ++ members.map Prod.fst).Pairwise (· < ·)) :
    orderedMembers members done = done ++ members.map fun m => (m.1, m.2.ordered) := by
  induction members generalizing done with
  | nil => simp [orderedMembers]
  | cons m rest ih =>
      obtain ⟨name, d⟩ := m
      have last : ∀ m ∈ done, m.1 < name := fun m member =>
        (List.pairwise_append.mp names).2.2 m.1 (List.mem_map_of_mem member) name List.mem_cons_self
      rw [orderedMembers, Members.insert_last last, ih (by simpa using names)]
      simp

theorem alike_ordered {d : Document} (proper : d.Proper) : d.Alike d.ordered := by
  induction proper with
  | arr items each ih =>
      rw [ordered, orderedItems_eq]
      exact .arr (List.forall₂_map_right_iff.mpr (List.forall₂_same.mpr ih))
  | obj members names each ih =>
      have perm : (orderedMembers members []).Perm (members.map fun m => (m.1, m.2.ordered)) :=
        perm_orderedMembers names
      refine .obj ?_ ?_ perm.symm
      · simp
      · rw [List.map_map, List.forall₂_map_left_iff, List.forall₂_map_right_iff]
        exact List.forall₂_same.mpr ih
  | _ => exact .same _

theorem ordered_eq {d : Document} (inOrder : d.InOrder) : d.ordered = d := by
  induction inOrder with
  | arr items each ih => rw [ordered, orderedItems_eq, List.map_congr_left ih, List.map_id']
  | obj members names each ih =>
      have same : members.map (fun m => (m.1, m.2.ordered)) = members.map id :=
        List.map_congr_left fun m member => by rw [ih m member]; rfl
      have whole : orderedMembers members [] = [] ++ members.map fun m => (m.1, m.2.ordered) :=
        orderedMembers_eq names
      rw [ordered, whole, same, List.map_id, List.nil_append]
  | _ => rfl

/-! ## Depth -/

mutual

/-- How deep arrays and objects are nested. -/
def height : Document → Nat
  | .arr items => itemsHeight items + 1
  | .obj members => membersHeight members + 1
  | _ => 0

def itemsHeight : List Document → Nat
  | [] => 0
  | d :: rest => max d.height (itemsHeight rest)

def membersHeight : List (String × Document) → Nat
  | [] => 0
  | (_, d) :: rest => max d.height (membersHeight rest)

end

end Document

end GuestVM

import GuestVM.Proofs.Object.HashTable

/-! # Tables as lists of rows

A hash table is an efficient form of the list of its rows: a list that is searched from its head, gets
new rows at its end and loses one row at a time.  `Rows` has the operations of a table on such a list.
Every operation answers the same on both and keeps them alike, so no sequence of operations tells a
table from a list. -/
set_option autoImplicit false

namespace GuestVM.HashTable

inductive Operation
  | insert (k : HashKey) (key value : Value)
  | removeAt (p : Nat)
  | position (k : HashKey)
  | clear

/-- What an operation answers: a removal the entry that it takes out, a search the place. -/
inductive Answer
  | done
  | removed (entry : Option (Value × Value))
  | place (p : Option Nat)

def serve (t : HashTable) : Operation → Answer × HashTable
  | .insert k key value => (.done, t.insert k key value)
  | .removeAt p => (.removed (t.entryAt? p), t.removeAt p)
  | .position k => (.place (t.position k), t)
  | .clear => (.done, .empty)

/-- Answers to some operations, one after the other, and the table after them. -/
def serveAll (t : HashTable) : List Operation → List Answer × HashTable
  | [] => ([], t)
  | operation :: rest =>
    let (answer, next) := t.serve operation
    let (answers, last) := next.serveAll rest
    (answer :: answers, last)

/-! ## The same on lists -/

/-- Identity, key and value, in the order in which the keys came. -/
abbrev Rows := List (HashKey × Value × Value)

namespace Rows

variable (rows : Rows)

def keys : List HashKey := List.map (·.1) rows

/-- The row of a present key gets another value and keeps its key object; a new key goes to the
end. -/
def insert (k : HashKey) (key value : Value) : Rows :=
  if k ∈ rows.keys then List.map (fun row => if row.1 = k then (k, row.2.1, value) else row) rows
  else rows ++ [(k, key, value)]

def serve : Operation → Answer × Rows
  | .insert k key value => (.done, rows.insert k key value)
  | .removeAt p => (.removed (rows[p]?.map (·.2)), List.eraseIdx rows p)
  | .position k => (.place (List.idxOf? k rows.keys), rows)
  | .clear => (.done, [])

def serveAll (rows : Rows) : List Operation → List Answer × Rows
  | [] => ([], rows)
  | operation :: rest =>
    let (answer, next) := rows.serve operation
    let (answers, last) := next.serveAll rest
    (answer :: answers, last)

end Rows

/-! ## Reading -/

section Reading

variable {t : HashTable} {k : HashKey}

theorem getElem?_view (t : HashTable) (p : Nat) :
    t.view[p]? = t.keys[p]?.bind fun k => t.entries[p]?.map fun entry => (k, entry) := by
  rw [view, List.zip, List.getElem?_zipWith, Array.getElem?_toList, Array.getElem?_toList]
  cases t.keys[p]? <;> cases t.entries[p]? <;> rfl

theorem entryAt?_view (coherent : t.Coherent) (p : Nat) : t.entryAt? p = t.view[p]?.map (·.2) := by
  rw [getElem?_view, entryAt?]
  cases noted : t.keys[p]? with
  | some k => cases t.entries[p]? <;> rfl
  | none =>
      have past : t.keys.size ≤ p := Array.getElem?_eq_none_iff.mp noted
      exact Array.getElem?_eq_none (coherent.sizes ▸ past)

theorem idxOf?_eq_some_of_nodup {ks : List HashKey} (nodup : ks.Nodup) {p : Nat} :
    ks.idxOf? k = some p ↔ ks[p]? = some k := by
  rw [List.idxOf?_eq_some_iff, List.getElem?_eq_some_iff]
  constructor
  · rintro ⟨inside, there, -⟩
    exact ⟨inside, there⟩
  · rintro ⟨inside, there⟩
    refine ⟨inside, there, ?_⟩
    intro q before again
    exact Nat.ne_of_lt before (nodup.getElem_inj_iff.mp (again.trans there.symm))

theorem position_view (coherent : t.Coherent) (k : HashKey) :
    t.position k = List.idxOf? k (Rows.keys t.view) := by
  rw [Rows.keys, map_view coherent]
  apply Option.ext
  intro p
  rw [coherent.position, idxOf?_eq_some_of_nodup coherent.nodup, Array.getElem?_toList]

theorem Rows.find?_eq_bind (rows : Rows) (k : HashKey) :
    List.find? (·.1 = k) rows = (List.idxOf? k rows.keys).bind (rows[·]?) := by
  induction rows with
  | nil => rfl
  | cons row rest ih =>
      rw [keys, List.map_cons, List.idxOf?_cons, List.find?_cons]
      by_cases here : row.1 = k
      · simp [here]
      · simp only [here, decide_false, beq_false_of_ne here, Bool.false_eq_true, if_false, ih,
          Option.bind_map]
        rfl

theorem get?_view (coherent : t.Coherent) (k : HashKey) :
    t.get? k = (t.view.find? (·.1 = k)).map (·.2.2) := by
  rw [Rows.find?_eq_bind, ← position_view coherent, get?]
  cases t.position k with
  | none => rfl
  | some p =>
      simp only [Option.bind_eq_bind, Option.bind_some, entryAt?_view coherent]
      cases t.view[p]? <;> rfl

end Reading

/-! ## Every operation keeps table and list alike -/

section Steps

variable {t : HashTable} {k : HashKey} {key value : Value}

theorem view_insert (coherent : t.Coherent) (k : HashKey) (key value : Value) :
    (t.insert k key value).view = Rows.insert t.view k key value := by
  unfold insert Rows.insert
  rw [Rows.keys, map_view coherent]
  cases found : t.position k with
  | none =>
      rw [if_neg (coherent.position_eq_none.mp found)]
      have sizes : t.keys.toList.length = t.entries.toList.length := coherent.sizes
      simp only [view, Array.toList_push, List.zip_append sizes, List.zip_cons_cons, List.zip_nil_left]
  | some p =>
      have noted : t.keys[p]? = some k := (coherent.position k p).mp found
      rw [if_pos (Array.mem_toList_iff.mpr (Array.mem_of_getElem? noted))]
      apply List.ext_getElem?
      intro q
      rw [List.getElem?_map, getElem?_view, getElem?_view, Array.getElem?_modify]
      by_cases here : p = q
      · subst here
        rw [if_pos rfl, noted]
        cases t.entries[p]? with
        | none => rfl
        | some entry => simp
      · rw [if_neg here]
        cases other : t.keys[q]? with
        | none => rfl
        | some l =>
            have apart : l ≠ k := by
              rintro rfl
              have again := (coherent.position l q).mpr other
              rw [found] at again
              exact here (Option.some.inj again)
            cases t.entries[q]? with
            | none => rfl
            | some entry => simp [apart]

/-- A table in step with a list of rows. -/
structure Lists (t : HashTable) (rows : Rows) : Prop where
  coherent : t.Coherent
  listed : t.view = rows

namespace Lists

variable {rows : Rows}

theorem serve (lists : t.Lists rows) (operation : Operation) :
    (t.serve operation).1 = (rows.serve operation).1 ∧
      (t.serve operation).2.Lists (rows.serve operation).2 := by
  obtain ⟨coherent, rfl⟩ := lists
  cases operation with
  | insert k key value => exact ⟨rfl, coherent.insert, view_insert coherent k key value⟩
  | removeAt p =>
      exact ⟨congrArg Answer.removed (entryAt?_view coherent p), coherent.removeAt p, t.view_removeAt p⟩
  | position k => exact ⟨congrArg Answer.place (position_view coherent k), coherent, rfl⟩
  | clear => exact ⟨rfl, .empty, rfl⟩

theorem serveAll (lists : t.Lists rows) (operations : List Operation) :
    (t.serveAll operations).1 = (rows.serveAll operations).1 ∧
      (t.serveAll operations).2.Lists (rows.serveAll operations).2 := by
  induction operations generalizing t rows with
  | nil => exact ⟨rfl, lists⟩
  | cons operation rest ih =>
      obtain ⟨answers, next⟩ := lists.serve operation
      obtain ⟨further, last⟩ := ih next
      exact ⟨congr (congrArg List.cons answers) further, last⟩

end Lists

end Steps

/-! ## Main result -/

/-- A table with its three containers in step, and all that can be read from it read from a list of
rows. -/
structure Reads (t : HashTable) (rows : Rows) : Prop where
  sizes : t.keys.size = t.entries.size
  distinct : t.keys.toList.Nodup
  /-- The index has the identities that `keys` has, each at its place, and no others. -/
  index : ∀ k p, t.index.lookup k = some p ↔ t.keys[p]? = some k
  listed : t.view = rows
  size : t.size = rows.length
  position : ∀ k, t.position k = List.idxOf? k rows.keys
  entry : ∀ p, t.entryAt? p = rows[p]?.map (·.2)
  value : ∀ k, t.get? k = (List.find? (·.1 = k) rows).map (·.2.2)

/-- No sequence of operations on the empty table can be told from the same operations on the empty
list. -/
theorem tables_refine_rows (operations : List Operation) :
    (empty.serveAll operations).1 = (Rows.serveAll [] operations).1 ∧
      (empty.serveAll operations).2.Reads (Rows.serveAll [] operations).2 := by
  have start : empty.Lists [] := ⟨.empty, rfl⟩
  obtain ⟨answers, coherent, listed⟩ := start.serveAll operations
  refine ⟨answers, coherent.sizes, coherent.nodup, coherent.position, listed, ?_, ?_, ?_, ?_⟩
  · rw [← listed, length_view coherent]
  · intro k
    rw [← listed, position_view coherent]
  · intro p
    rw [← listed, entryAt?_view coherent]
  · intro k
    rw [← listed, get?_view coherent]

example : (empty.serveAll [.insert .nil .nil (.int 1), .insert (.int 2) (.int 2) .nil,
    .insert .nil (.int 3) (.int 4), .removeAt 1]).2.view = [(.nil, .nil, .int 4)] := by
  decide +kernel

end GuestVM.HashTable

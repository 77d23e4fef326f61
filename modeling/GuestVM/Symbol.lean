import GuestVM.Value

/-! # Interned names

A symbol table is the list of the names interned so far; a symbol is the position of its name.
Names are never removed, so a symbol keeps its name, and `intern` gives equal symbols exactly to
equal names.  `SymMap` is a finite map from symbols, the form of every table an object carries. -/
set_option autoImplicit false

namespace GuestVM

structure SymbolTable where
  names : Array String := #[]
  deriving DecidableEq, Inhabited

namespace SymbolTable

def check (t : SymbolTable) (name : String) : Option Sym :=
  (t.names.idxOf? name).map Sym.mk

/-- The symbol of a name, new if need be. -/
def intern (t : SymbolTable) (name : String) : Sym × SymbolTable :=
  match t.check name with
  | some s => (s, t)
  | none => (⟨t.names.size⟩, ⟨t.names.push name⟩)

/-- The name of a symbol; a symbol of another table may have none. -/
def name (t : SymbolTable) (s : Sym) : String := t.names[s.index]?.getD ""

def size (t : SymbolTable) : Nat := t.names.size

def isEmpty (t : SymbolTable) : Bool := t.names.isEmpty

end SymbolTable

/-! ## Maps from symbols -/

/-- A finite map from symbols, one row per symbol. -/
structure SymMap (α : Type) where
  rows : List (Sym × α) := []
  deriving DecidableEq, Inhabited

namespace SymMap

variable {α : Type}

def empty : SymMap α := {}

def get? (m : SymMap α) (s : Sym) : Option α := m.rows.lookup s

/-- Replaces the row of `s`, or adds one. -/
def insert (m : SymMap α) (s : Sym) (a : α) : SymMap α :=
  ⟨(s, a) :: m.rows.filter (·.1 != s)⟩

def erase (m : SymMap α) (s : Sym) : SymMap α := ⟨m.rows.filter (·.1 != s)⟩

def keys (m : SymMap α) : List Sym := m.rows.map (·.1)

def values (m : SymMap α) : List α := m.rows.map (·.2)

private theorem lookup_filter_ne (rows : List (Sym × α)) {s t : Sym} (different : t ≠ s) :
    (rows.filter (·.1 != s)).lookup t = rows.lookup t := by
  induction rows with
  | nil => rfl
  | cons row rest ih =>
    obtain ⟨k, a⟩ := row
    by_cases hk : k = s
    · subst hk
      have ht : (t == k) = false := by simpa using different
      simp [List.lookup_cons, ih, ht]
    · by_cases htk : t = k
      · simp [hk, htk]
      · have ht : (t == k) = false := by simpa using htk
        simp [List.lookup_cons, hk, ht, ih]

private theorem lookup_filter_self (rows : List (Sym × α)) (s : Sym) :
    (rows.filter (·.1 != s)).lookup s = none := by
  induction rows with
  | nil => rfl
  | cons row rest ih =>
    obtain ⟨k, a⟩ := row
    by_cases hk : k = s
    · simp [hk, ih]
    · have hs : (s == k) = false := by simpa using fun h : s = k => hk h.symm
      simp [List.lookup_cons, hk, hs, ih]

@[simp] theorem get?_insert_self (m : SymMap α) (s : Sym) (a : α) :
    (m.insert s a).get? s = some a := by
  simp [insert, get?]

theorem get?_insert_of_ne (m : SymMap α) {s t : Sym} (a : α) (different : t ≠ s) :
    (m.insert s a).get? t = m.get? t := by
  have ht : (t == s) = false := by simpa using different
  simp [insert, get?, List.lookup_cons, ht, lookup_filter_ne _ different]

@[simp] theorem get?_erase_self (m : SymMap α) (s : Sym) : (m.erase s).get? s = none :=
  lookup_filter_self m.rows s

theorem get?_erase_of_ne (m : SymMap α) {s t : Sym} (different : t ≠ s) :
    (m.erase s).get? t = m.get? t :=
  lookup_filter_ne m.rows different

end SymMap

end GuestVM

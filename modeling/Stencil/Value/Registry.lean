import Stencil.Value.Basic

/-!
# Handlers by type

A registry has a handler for some types. A value is handled by the nearest type of its lineage that has
one. Registering for a type replaces the handler that the type had.
-/

namespace Stencil

/-- Handlers by type (`TypeRegistry`). -/
structure Registry (η : Type) where
  handlers : List (TypeKey × η) := []

namespace Registry

variable {η : Type}

def register (r : Registry η) (key : TypeKey) (h : η) : Registry η :=
  ⟨Dictionary.insert key h r.handlers⟩

def get? (r : Registry η) (key : TypeKey) : Option η :=
  r.handlers.lookup key

/-- The handler of a value (`lookup`): that of the nearest type of its lineage that has one. -/
def find? (r : Registry η) (v : Value) : Option η :=
  v.lineage.findSome? r.get?

theorem get?_register_self (r : Registry η) (key : TypeKey) (h : η) :
    (r.register key h).get? key = some h :=
  Dictionary.lookup_insert_self key h r.handlers

theorem get?_register_of_ne {j key : TypeKey} (hne : j ≠ key) (r : Registry η) (h : η) :
    (r.register key h).get? j = r.get? j :=
  Dictionary.lookup_insert_of_ne hne h r.handlers

/-- The handler that a value has is one that a type has. -/
theorem exists_get?_of_find? {r : Registry η} {v : Value} {h : η} (hfind : r.find? v = some h) :
    ∃ key, r.get? key = some h := by
  obtain ⟨key, -, hkey⟩ := List.exists_of_findSome?_eq_some hfind
  exact ⟨key, hkey⟩

theorem mem_handlers_of_get? {r : Registry η} {key : TypeKey} {h : η} (hget : r.get? key = some h) :
    (key, h) ∈ r.handlers := by
  obtain ⟨before, after, hhandlers, -⟩ := List.lookup_eq_some_iff.1 hget
  exact hhandlers ▸ List.mem_append_right _ List.mem_cons_self

end Registry

end Stencil

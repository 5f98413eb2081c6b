import Mathlib.Data.List.TakeWhile
import Stencil.Evaluation.Scope
import Stencil.Proofs.Agreement

/-!
# Paths through lists

A property of a list is the list of that property of its elements. So properties one after the other are taken
of every element on its own, and the results stand in a list again (`Adaptors.foldlM_step_properties`). An index
is another matter: it takes one element off the list that the path has come to, and the path goes on with this
element alone. Main statement: a path through a list maps the properties before its first index over the
elements, and follows the rest on the list of the results (`Adaptors.foldlM_step_list`). It does not map an index
over the elements, too (`Adaptors.foldlM_step_list_index`).
-/

namespace Stencil

open Template (Segment)

def Template.Segment.isProperty : Segment → Bool
  | .property _ => true
  | .index _ => false

namespace Adaptors

variable (r : Adaptors)

theorem mapProperties_eq_mapM (name : String) (xs : List Value) :
    r.mapProperties name xs = xs.mapM (r.mapProperty name) := by
  induction xs with
  | nil => rfl
  | cons x xs ih => rw [mapProperties, List.mapM_cons, ih]

/-- A property of a list is the list of that property of its elements. -/
theorem step_property_list {name : String} {xs : List Value} {v : Value} :
    r.step (.list xs) (.property name) = .ok v ↔
      ∃ ys, List.Forall₂ (fun x y => r.step x (.property name) = .ok y) xs ys ∧ v = .list ys := by
  simp only [step, mapProperty, mapProperties_eq_mapM, bind_eq_ok, mapM_eq_ok_iff]
  constructor
  · rintro ⟨ys, hys, ⟨⟩⟩
    exact ⟨ys, hys, rfl⟩
  · rintro ⟨ys, hys, rfl⟩
    exact ⟨ys, hys, rfl⟩

/-- Properties one after the other are taken of every element on its own. -/
theorem foldlM_step_properties {path : List Segment} (hpath : ∀ segment ∈ path, segment.isProperty = true)
    {xs : List Value} {v : Value} :
    path.foldlM r.step (.list xs) = .ok v ↔
      ∃ ys, List.Forall₂ (fun x y => path.foldlM r.step x = .ok y) xs ys ∧ v = .list ys := by
  induction path generalizing xs with
  | nil =>
    have hsame : ∀ ys, List.Forall₂ (fun x y : Value => (.ok x : Except Error Value) = .ok y) xs ys ↔ xs = ys := by
      simp only [Except.ok.injEq, List.forall₂_eq_eq_eq, implies_true]
    constructor
    · rintro ⟨⟩
      exact ⟨xs, (hsame xs).2 rfl, rfl⟩
    · rintro ⟨ys, hys, rfl⟩
      rw [(hsame ys).1 hys]
      rfl
  | cons segment path ih =>
    obtain ⟨hsegment, hrest⟩ := List.forall_mem_cons.1 hpath
    cases segment with
    | index n => cases hsegment
    | property name =>
      simp only [List.foldlM_cons, bind_eq_ok, step_property_list, forall₂_exists_iff]
      constructor
      · rintro ⟨_, ⟨zs, hzs, rfl⟩, hv⟩
        obtain ⟨ys, hys, rfl⟩ := (ih hrest).1 hv
        exact ⟨ys, ⟨zs, hzs, hys⟩, rfl⟩
      · rintro ⟨ys, ⟨zs, hzs, hys⟩, rfl⟩
        exact ⟨.list zs, ⟨zs, hzs, rfl⟩, (ih hrest).2 ⟨ys, hys, rfl⟩⟩

/-- **A path through a list maps its properties over the elements**, up to its first index: it comes to a value
just if the properties before the index do so for every element and the rest of the path does so from the list of
these results, and it comes to that value then. A path without an index has no rest and comes to the list. -/
theorem foldlM_step_list (xs : List Value) (name : String) (path : List Segment) (v : Value) :
    let mapped := Segment.property name :: path.takeWhile Segment.isProperty
    let rest := path.dropWhile Segment.isProperty
    (Segment.property name :: path).foldlM r.step (.list xs) = .ok v ↔
      ∃ ys, List.Forall₂ (fun x y => mapped.foldlM r.step x = .ok y) xs ys ∧
        rest.foldlM r.step (.list ys) = .ok v := by
  intro mapped rest
  have hsplit : Segment.property name :: path = mapped ++ rest := by
    rw [List.cons_append, List.takeWhile_append_dropWhile]
  have hmapped : ∀ segment ∈ mapped, segment.isProperty = true :=
    List.forall_mem_cons.2 ⟨rfl, fun _ hsegment => List.mem_takeWhile_imp hsegment⟩
  rw [hsplit, List.foldlM_append, bind_eq_ok]
  constructor
  · rintro ⟨u, hu, hv⟩
    obtain ⟨ys, hys, rfl⟩ := (r.foldlM_step_properties hmapped).1 hu
    exact ⟨ys, hys, hv⟩
  · rintro ⟨ys, hys, hv⟩
    exact ⟨.list ys, (r.foldlM_step_properties hmapped).2 ⟨ys, hys, rfl⟩, hv⟩

/-- An index behind a property: the path has a value for each of the two elements, and these values are not what
it comes to for the list. -/
theorem foldlM_step_list_index :
    let row (a b : Int) : Value := .aggregate [("p", .list [.int a, .int b])]
    let path : List Segment := [.property "p", .index 0]
    path.foldlM standard.step (.list [row 1 2, row 3 4]) = .ok (.list [.int 1, .int 2]) ∧
    ¬∀ v, path.foldlM standard.step (.list [row 1 2, row 3 4]) = .ok v ↔
      ∃ ys, List.Forall₂ (fun x y => path.foldlM standard.step x = .ok y) [row 1 2, row 3 4] ys ∧ v = .list ys := by
  intro row path
  have hlist : path.foldlM standard.step (.list [row 1 2, row 3 4]) = .ok (.list [.int 1, .int 2]) := rfl
  refine ⟨hlist, fun h => ?_⟩
  have helements : List.Forall₂ (fun x y => path.foldlM standard.step x = .ok y) [row 1 2, row 3 4]
      [.int 1, .int 3] := .cons rfl (.cons rfl .nil)
  have hmapped := (h (.list [.int 1, .int 3])).2 ⟨_, helements, rfl⟩
  rw [hlist] at hmapped
  cases hmapped

end Adaptors
end Stencil

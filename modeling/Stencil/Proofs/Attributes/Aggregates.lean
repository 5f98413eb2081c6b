import Stencil.Proofs.Attributes.History

/-!
# Adding aggregates

A spec says under which name an aggregate is added and which fields its values have. The fields are different in
every spec that can be read, so a value is found under the field at its place; the aggregate stands behind what the
name had before (`Store.get?_addToList`), and nothing else in the store changes. Main statement:
`AggregateSpec.parse_written`.
-/

namespace Stencil

namespace Store

variable {text : String} {spec : AggregateSpec} {s s' : Store} {values : List Value}

theorem run_addAggregate_eq_ok_iff (hparse : AggregateSpec.parse text.toList = .ok spec) :
    (addAggregate text values).run.run s = (.ok (), s') ↔ values.length = spec.fields.length ∧
      s' = s.addToList spec.name (.aggregate (spec.fields.zip values)) := by
  have hadded : History.aggregate? text values = if values.length = spec.fields.length then
      some (spec.name, .aggregate (spec.fields.zip values)) else none := by rw [History.aggregate?, hparse]
  rcases addAggregate_cases text values s with ⟨name, v, hsome, hrun⟩ | ⟨e, hnone, hrun⟩
  · obtain ⟨hlength, hpair⟩ := Option.ite_none_right_eq_some.1 (hadded ▸ hsome)
    cases hpair
    rw [hrun, Prod.mk.injEq, and_iff_right rfl, and_iff_right hlength, eq_comm]
  · have hlength : values.length ≠ spec.fields.length := fun h => by
      rw [hadded, if_pos h] at hnone
      cases hnone
    rw [hrun]
    refine iff_of_false (fun h => ?_) fun h => hlength h.1
    cases h

/-- The list of a name has the values that the name was given before, and behind them the new one. -/
theorem get?_addToList (s : Store) (name : String) (v : Value) :
    (s.addToList name v).get? name = some (.list ((s.history name).elim [] History.values ++ [v])) := by
  have hshows := (s.addToList name v).history_shows name
  have hextend : History.extend v true (s.history name) =
      ⟨(s.history name).elim [] History.values ++ [v], true⟩ := by
    cases s.history name <;> rfl
  rw [history_addToList, if_pos rfl, hextend] at hshows
  generalize (s.addToList name v).get? name = shown at hshows
  cases hshows with
  | some h => exact congrArg some h

end Store

namespace AggregateSpec

/-- **Specs are read exactly as they are written, and aggregates have the values of their fields.** A text is read as
a spec just if the name of the spec and its fields are words, the fields are at least one and pairwise different,
and the text is the name, a period and the fields between commas in braces, with blanks around every part. With
such a text an aggregate is added to a store just if there are as many values as fields. It comes last in the list of
the name, behind the values that the name was given before; its fields are those of the spec, in order, each with
the value of its own place, by which it is also found; and no other name changes. -/
theorem parse_written (text : String) (spec : AggregateSpec) :
    (parse text.toList = .ok spec ↔ spec.WellFormed ∧ spec.IsWritten text.toList) ∧
    (parse text.toList = .ok spec → ∀ (s : Store) (values : List Value),
      ((∃ s', (Store.addAggregate text values).run.run s = (.ok (), s')) ↔ values.length = spec.fields.length) ∧
      ∀ s', (Store.addAggregate text values).run.run s = (.ok (), s') → ∃ fields : List (String × Value),
        fields.map Prod.fst = spec.fields ∧ fields.map Prod.snd = values ∧
        (∀ (j : Nat) field v, spec.fields[j]? = some field → values[j]? = some v → fields.lookup field = some v) ∧
        s'.get? spec.name = some (.list ((s.history spec.name).elim [] History.values ++ [.aggregate fields])) ∧
        ∀ other, other ≠ spec.name → s'.history other = s.history other) := by
  refine ⟨parse_eq_ok_iff, fun hparse s values => ⟨?_, fun s' hs' => ?_⟩⟩
  · simp only [Store.run_addAggregate_eq_ok_iff hparse, exists_and_left, exists_eq, and_true]
  · obtain ⟨hlength, rfl⟩ := (Store.run_addAggregate_eq_ok_iff hparse).1 hs'
    refine ⟨spec.fields.zip values, List.map_fst_zip (Nat.le_of_eq hlength.symm),
      List.map_snd_zip (Nat.le_of_eq hlength), ?_, s.get?_addToList spec.name _, fun other hother => ?_⟩
    · intro j field v hfield hv
      rw [Dictionary.lookup_eq_some_iff_mem (nodup_keys_of_parse hparse hlength)]
      exact List.mem_of_getElem? (List.getElem?_zip_eq_some.2 ⟨hfield, hv⟩)
    · rw [Store.history_addToList, if_neg hother]

/-- Blanks of several kinds in a spec, and two aggregates behind a value that was there before. -/
theorem parse_written_blanks :
    let text := "\titems .\u2003\x7b b,\n_a1 \x7d "
    let spec : AggregateSpec := ⟨"items", ["b", "_a1"]⟩
    let s := Store.empty.set "items" (.list [.int 7])
    let row (m n : Int) : Value := .aggregate [("b", .int m), ("_a1", .int n)]
    spec.WellFormed ∧ spec.IsWritten text.toList ∧ (∀ s', (Store.addAggregate text [.int 1]).run.run s ≠ (.ok (), s')) ∧
    ∃ s' s'', (Store.addAggregate text [.int 1, .int 2]).run.run s = (.ok (), s') ∧
      (Store.addAggregate text [.int 3, .int 4]).run.run s' = (.ok (), s'') ∧
      s''.get? "items" = some (.list [.list [.int 7], row 1 2, row 3 4]) := by
  intro text spec s row
  have hparse : parse text.toList = .ok spec := eq_ok_of_toOption (by decide +kernel)
  obtain ⟨hread, hadd⟩ := parse_written text spec
  obtain ⟨hspec, hwritten⟩ := hread.1 hparse
  obtain ⟨s', hs'⟩ := (hadd hparse s [.int 1, .int 2]).1.2 rfl
  obtain ⟨s'', hs''⟩ := (hadd hparse s' [.int 3, .int 4]).1.2 rfl
  refine ⟨hspec, hwritten, fun t ht => ?_, s', s'', hs', hs'', ?_⟩
  · exact absurd ((hadd hparse s [.int 1]).1.1 ⟨t, ht⟩) (by decide)
  · obtain ⟨-, rfl⟩ := (Store.run_addAggregate_eq_ok_iff hparse).1 hs'
    obtain ⟨-, rfl⟩ := (Store.run_addAggregate_eq_ok_iff hparse).1 hs''
    rfl

end AggregateSpec
end Stencil

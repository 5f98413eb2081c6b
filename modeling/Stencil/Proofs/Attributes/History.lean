import Mathlib.Data.List.Induction
import Stencil.Attributes.Store
import Stencil.Proofs.Attributes.Specs

/-!
# What a store remembers

A store is filled by operations, one after the other. What it shows of a name is a function of the operations
on that name alone: the values that the name was given since it was last bound anew, and whether they make a
list (`History`). A list that was given as one value counts as one value. The names come in the order in which
they were bound, where a name that was removed and bound again counts as bound again (`BoundSince`).

The store has no histories. It has values and a set of names, and the history of a name has to be read off both:
the elements of a list are the values that the name was given if the name is in the set, and otherwise the list is
one of them (`Store.history`). That works as long as the set is in step with the values (`Store.InStep`), which every
operation needs and keeps: a name that is unbound and still in the set would take the elements of the next list
that it is bound to for values of its own. Main statement: `Store.run_shows_history`.
-/

namespace Stencil

/-! ## Operations -/

inductive Store.Operation where
  | set (name : String) (v : Value)
  | add (name : String) (v : Value)
  | addAggregate (spec : String) (values : List Value)
  | remove (name : String)

namespace Store

def Operation.change : Operation → Storing Unit
  | .set name v => modify (·.set name v)
  | .add name v => modify (·.add name v)
  | .addAggregate spec values => Store.addAggregate spec values
  | .remove name => modify (·.remove name)

/-- The store after an operation, and the error if it failed. -/
def perform (s : Store) (op : Operation) : Store × Option Error :=
  match op.change.run.run s with
  | (.ok (), s') => (s', none)
  | (.error e, s') => (s', some e)

/-- The store after the operations, from an empty one. -/
def run (ops : List Operation) : Store :=
  ops.foldl (fun s op => (s.perform op).1) empty

def names (s : Store) : List String :=
  s.toList.map Prod.fst

theorem run_concat (ops : List Operation) (op : Operation) :
    run (ops ++ [op]) = ((run ops).perform op).1 := by
  rw [run, run, List.foldl_append, List.foldl_cons, List.foldl_nil]

end Store

/-! ## Histories -/

/-- What a name was given since it was last bound anew. -/
structure History where
  values : List Value
  /-- Whether the values make a list. Otherwise there is one, and it stands for itself. -/
  boxed : Bool

namespace History

/-- The history of a name that is given one more value. An unbound name has `boxed` as it is told; one that
was bound before has a list from now on. -/
def extend (v : Value) (boxed : Bool) : Option History → History
  | none => ⟨[v], boxed⟩
  | some h => ⟨h.values ++ [v], true⟩

/-- The attribute of a name with the history. -/
def Shows (h : History) (v : Value) : Prop :=
  if h.boxed then v = .list h.values else h.values = [v]

/-- The aggregate that an operation adds and the name that it adds it to. There is none if the spec cannot
be read or does not fit the values. -/
def aggregate? (spec : String) (values : List Value) : Option (String × Value) :=
  match AggregateSpec.parse spec.toList with
  | .ok parsed =>
    if values.length = parsed.fields.length then some (parsed.name, .aggregate (parsed.fields.zip values))
    else none
  | .error _ => none

/-- The history of a name after one more operation. -/
def step (name : String) (h : Option History) : Store.Operation → Option History
  | .set other v => if name = other then some ⟨[v], false⟩ else h
  | .add other v => if name = other then some (extend v false h) else h
  | .addAggregate spec values =>
    match aggregate? spec values with
    | some (other, v) => if name = other then some (extend v true h) else h
    | none => h
  | .remove other => if name = other then none else h

/-- The history of a name, if the operations leave it bound. -/
def of (ops : List Store.Operation) (name : String) : Option History :=
  ops.foldl (step name) none

theorem of_concat (ops : List Store.Operation) (op : Store.Operation) (name : String) :
    of (ops ++ [op]) name = step name (of ops name) op := by
  rw [of, of, List.foldl_append, List.foldl_cons, List.foldl_nil]

end History

/-- The operation at index `k` bound the name, and it has been bound ever since. -/
def BoundSince (ops : List Store.Operation) (name : String) (k : Nat) : Prop :=
  k < ops.length ∧ History.of (ops.take k) name = none ∧
    ∀ j, k < j → j ≤ ops.length → (History.of (ops.take j) name).isSome

theorem BoundSince.concat {ops : List Store.Operation} {name : String} {k : Nat} (h : BoundSince ops name k)
    {op : Store.Operation} (hbound : (History.of (ops ++ [op]) name).isSome) :
    BoundSince (ops ++ [op]) name k := by
  obtain ⟨hk, hbefore, hafter⟩ := h
  refine ⟨by simp; omega, ?_, fun j hj hlength => ?_⟩
  · rwa [List.take_append_of_le_length (by omega)]
  · by_cases hlast : j = ops.length + 1
    · rwa [List.take_of_length_le (by simp [hlast])]
    · simp only [List.length_append, List.length_cons, List.length_nil] at hlength
      rw [List.take_append_of_le_length (by omega)]
      exact hafter j hj (by omega)

/-- An operation that binds an unbound name. -/
theorem boundSince_length {ops : List Store.Operation} {name : String} {op : Store.Operation}
    (hbefore : History.of ops name = none) (hbound : (History.of (ops ++ [op]) name).isSome) :
    BoundSince (ops ++ [op]) name ops.length := by
  refine ⟨by simp, by simpa using hbefore, fun j hj hlength => ?_⟩
  rwa [List.take_of_length_le (by simp; omega)]

/-! ## Values and histories -/

namespace History

/-- The history of a name that is bound to the value: of a list that was built by adding, the elements were given. -/
def ofValue (v : Value) (accumulated : Bool) : History :=
  match v, accumulated with
  | .list values, true => ⟨values, true⟩
  | given, _ => ⟨[given], false⟩

theorem ofValue_false (v : Value) : ofValue v false = ⟨[v], false⟩ := by
  cases v <;> rfl

theorem ofValue_shows (v : Value) (accumulated : Bool) : (ofValue v accumulated).Shows v := by
  unfold ofValue
  split <;> simp [Shows]

theorem ofValue_append (existing v : Value) (accumulated boxed : Bool) :
    ofValue (Store.append existing v accumulated) true = extend v boxed (some (ofValue existing accumulated)) := by
  unfold Store.append
  split
  · rfl
  · next hnot =>
    have hgiven : ofValue existing accumulated = ⟨[existing], false⟩ := by
      unfold ofValue
      split
      · next values => exact (hnot values rfl rfl).elim
      · rfl
    rw [hgiven]
    rfl

end History

namespace Store

/-! ## The set of accumulated names -/

variable {name other : String} {marked : List String} {s : Store}

theorem mem_mark : other ∈ mark name marked ↔ other = name ∨ other ∈ marked := by
  unfold mark
  split
  · next h => exact ⟨.inr, fun hor => hor.elim (fun heq => heq ▸ List.contains_iff_mem.1 h) id⟩
  · rw [List.mem_append, List.mem_singleton, or_comm]

theorem mem_unmark : other ∈ unmark name marked ↔ other ∈ marked ∧ other ≠ name := by
  rw [unmark, List.mem_filter, bne_iff_ne]

theorem nodup_mark (h : marked.Nodup) : (mark name marked).Nodup := by
  unfold mark
  split
  · exact h
  · next hnot =>
    rw [List.contains_iff_mem] at hnot
    refine List.nodup_append.2 ⟨h, List.pairwise_singleton _ _, fun a ha b hb => ?_⟩
    rw [List.mem_singleton.1 hb]
    exact fun heq => hnot (heq ▸ ha)

/-- The store has no name twice in either collection, and an accumulated name is bound to a list. -/
structure InStep (s : Store) : Prop where
  nodup_names : (s.attributes.map Prod.fst).Nodup
  nodup_accumulated : s.accumulated.Nodup
  isList : ∀ name ∈ s.accumulated, ∃ values, s.get? name = some (.list values)

theorem InStep.notMem_of_unbound (h : s.InStep) (hunbound : s.get? name = none) : name ∉ s.accumulated := by
  intro hmem
  obtain ⟨values, hvalues⟩ := h.isList name hmem
  rw [hunbound] at hvalues
  cases hvalues

theorem inStep_empty : empty.InStep :=
  ⟨List.nodup_nil, List.nodup_nil, fun _ h => by cases h⟩

/-- A value may be written under a name together with a new set, if the set tells no more of the other names than
before, and of this name only that it has a list. -/
theorem InStep.insert (h : s.InStep) {v : Value} {accumulated : List String} (hnodup : accumulated.Nodup)
    (hother : ∀ other ∈ accumulated, other ≠ name → other ∈ s.accumulated)
    (hlist : name ∈ accumulated → ∃ values, v = .list values) :
    InStep ⟨Dictionary.insert name v s.attributes, accumulated⟩ := by
  refine ⟨Dictionary.nodup_keys_insert name v h.nodup_names, hnodup, fun other hmem => ?_⟩
  by_cases heq : other = name
  · obtain ⟨values, rfl⟩ := hlist (heq ▸ hmem)
    exact ⟨values, heq ▸ Dictionary.lookup_insert_self ..⟩
  · obtain ⟨values, hvalues⟩ := h.isList other (hother other hmem heq)
    exact ⟨values, (Dictionary.lookup_insert_of_ne heq ..).trans hvalues⟩

theorem append_eq_list (existing v : Value) (accumulated : Bool) :
    ∃ values, append existing v accumulated = .list values := by
  unfold append
  split
  · exact ⟨_, rfl⟩
  · exact ⟨_, rfl⟩

theorem InStep.insert_mark (h : s.InStep) (name : String) (values : List Value) :
    InStep ⟨Dictionary.insert name (.list values) s.attributes, mark name s.accumulated⟩ :=
  h.insert (nodup_mark h.nodup_accumulated) (fun _ hmem hne => (mem_mark.1 hmem).resolve_left hne)
    fun _ => ⟨values, rfl⟩

theorem InStep.set (h : s.InStep) (name : String) (v : Value) : (s.set name v).InStep :=
  h.insert (h.nodup_accumulated.filter _) (fun _ hmem _ => (mem_unmark.1 hmem).1)
    fun hmem => absurd rfl (mem_unmark.1 hmem).2

theorem InStep.add (h : s.InStep) (name : String) (v : Value) : (s.add name v).InStep := by
  unfold Store.add
  split
  · next hunbound =>
    exact h.insert h.nodup_accumulated (fun _ hmem _ => hmem)
      fun hmem => absurd hmem (h.notMem_of_unbound hunbound)
  · next existing _ =>
    obtain ⟨values, hvalues⟩ := append_eq_list existing v (s.accumulated.contains name)
    rw [hvalues]
    exact h.insert_mark name values

theorem InStep.addToList (h : s.InStep) (name : String) (v : Value) : (s.addToList name v).InStep := by
  unfold Store.addToList
  split
  · exact h.insert_mark name [v]
  · next existing _ =>
    obtain ⟨values, hvalues⟩ := append_eq_list existing v (s.accumulated.contains name)
    rw [hvalues]
    exact h.insert_mark name values

theorem InStep.remove (h : s.InStep) (name : String) : (s.remove name).InStep := by
  refine ⟨h.nodup_names.sublist (Dictionary.keys_erase_sublist name s.attributes), h.nodup_accumulated.filter _,
    fun other hmem => ?_⟩
  obtain ⟨hmem, hne⟩ := mem_unmark.1 hmem
  obtain ⟨values, hvalues⟩ := h.isList other hmem
  exact ⟨values, (Dictionary.lookup_erase_of_ne hne ..).trans hvalues⟩

/-! ## The history of a name -/

/-- The history of a name, as the store has it. -/
def history (s : Store) (name : String) : Option History :=
  (s.get? name).map fun v => History.ofValue v (s.accumulated.contains name)

theorem history_shows (s : Store) (name : String) :
    Option.Rel History.Shows (s.history name) (s.get? name) := by
  rw [history]
  cases s.get? name with
  | none => exact .none
  | some v => exact .some (History.ofValue_shows v _)

theorem mem_names_iff : name ∈ s.names ↔ (s.history name).isSome := by
  rw [history, Option.isSome_map, get?, Dictionary.lookup_isSome_iff_mem_keys]
  rfl

/-- In a store that is in step, the accumulated names are those whose history is a list. -/
theorem InStep.mem_accumulated_iff (h : s.InStep) :
    name ∈ s.accumulated ↔ ∃ past, s.history name = some past ∧ past.boxed = true := by
  rw [history]
  constructor
  · intro hmem
    obtain ⟨values, hvalues⟩ := h.isList name hmem
    rw [hvalues, Option.map_some, List.contains_iff_mem.2 hmem]
    exact ⟨_, rfl, rfl⟩
  · rintro ⟨past, hpast, hboxed⟩
    obtain ⟨v, -, rfl⟩ := Option.map_eq_some_iff.1 hpast
    by_contra hnot
    rw [Bool.eq_false_iff.2 (mt List.contains_iff_mem.1 hnot), History.ofValue_false] at hboxed
    cases hboxed

/-! ## One operation -/

/-- A value that is written under a name, together with a new set of accumulated names. -/
theorem history_insert {v : Value} {accumulated : List String}
    (hother : ∀ name, name ≠ other → (name ∈ accumulated ↔ name ∈ s.accumulated)) (name : String) :
    history ⟨Dictionary.insert other v s.attributes, accumulated⟩ name =
      if name = other then some (History.ofValue v (accumulated.contains name)) else s.history name := by
  by_cases h : name = other
  · rw [if_pos h, history, get?, h, Dictionary.lookup_insert_self]
    rfl
  · have hcontains : accumulated.contains name = s.accumulated.contains name := by
      rw [Bool.eq_iff_iff, List.contains_iff_mem, List.contains_iff_mem, hother name h]
    rw [if_neg h, history, get?, Dictionary.lookup_insert_of_ne h, hcontains]
    rfl

/-- An accumulated name that is bound to what its old value is with one more. -/
theorem history_insert_mark {v value : Value} {boxed : Bool}
    (hvalue : History.ofValue value true = History.extend v boxed (s.history other)) (name : String) :
    history ⟨Dictionary.insert other value s.attributes, mark other s.accumulated⟩ name =
      if name = other then some (History.extend v boxed (s.history name)) else s.history name := by
  rw [history_insert (fun name hne => mem_mark.trans (or_iff_right hne))]
  by_cases h : name = other
  · rw [if_pos h, if_pos h, List.contains_iff_mem.2 (mem_mark.2 (.inl h)), hvalue, h]
  · rw [if_neg h, if_neg h]

theorem history_set (s : Store) (name other : String) (v : Value) :
    (s.set other v).history name = if name = other then some ⟨[v], false⟩ else s.history name := by
  have hunmarked : (unmark other s.accumulated).contains other = false :=
    Bool.eq_false_iff.2 fun h => (mem_unmark.1 (List.contains_iff_mem.1 h)).2 rfl
  rw [set, history_insert (fun name hne => mem_unmark.trans (and_iff_left hne))]
  by_cases h : name = other
  · rw [if_pos h, if_pos h, h, hunmarked, History.ofValue_false]
  · rw [if_neg h, if_neg h]

theorem history_of_lookup {existing : Value} (hbound : s.attributes.lookup name = some existing) :
    s.history name = some (History.ofValue existing (s.accumulated.contains name)) := by
  rw [history, get?, hbound]
  rfl

theorem InStep.history_add (h : s.InStep) (name other : String) (v : Value) :
    (s.add other v).history name =
      if name = other then some (History.extend v false (s.history name)) else s.history name := by
  unfold Store.add
  split
  · next hunbound =>
    have hmark : s.accumulated.contains other = false :=
      Bool.eq_false_iff.2 fun hmem => h.notMem_of_unbound hunbound (List.contains_iff_mem.1 hmem)
    have hnone : s.history other = none := by rw [history, get?, hunbound]; rfl
    rw [history_insert (fun _ _ => Iff.rfl)]
    by_cases heq : name = other
    · rw [if_pos heq, if_pos heq, heq, hmark, History.ofValue_false, hnone]
      rfl
    · rw [if_neg heq, if_neg heq]
  · next existing hbound =>
    refine history_insert_mark ?_ name
    rw [history_of_lookup hbound]
    exact History.ofValue_append existing v _ false

theorem history_addToList (s : Store) (name other : String) (v : Value) :
    (s.addToList other v).history name =
      if name = other then some (History.extend v true (s.history name)) else s.history name := by
  refine history_insert_mark ?_ name
  split
  · next hunbound =>
    have hnone : s.history other = none := by rw [history, get?, hunbound]; rfl
    rw [hnone]
    rfl
  · next existing hbound =>
    rw [history_of_lookup hbound]
    exact History.ofValue_append existing v _ true

theorem history_remove (s : Store) (name other : String) :
    (s.remove other).history name = if name = other then none else s.history name := by
  by_cases h : name = other
  · rw [if_pos h, h, history, get?, remove, Dictionary.lookup_erase_self]
    rfl
  · have hcontains : (unmark other s.accumulated).contains name = s.accumulated.contains name := by
      rw [Bool.eq_iff_iff, List.contains_iff_mem, List.contains_iff_mem, mem_unmark, and_iff_left h]
    rw [if_neg h, history, get?, remove, Dictionary.lookup_erase_of_ne h, hcontains]
    rfl

/-- An aggregate is added, or the store is left as it was. -/
theorem addAggregate_cases (spec : String) (values : List Value) (s : Store) :
    (∃ name v, History.aggregate? spec values = some (name, v) ∧
      (addAggregate spec values).run.run s = (.ok (), s.addToList name v)) ∨
    (∃ e, History.aggregate? spec values = none ∧ (addAggregate spec values).run.run s = (.error e, s)) := by
  rw [addAggregate, History.aggregate?]
  cases hparse : AggregateSpec.parse spec.toList with
  | error fault => exact .inr ⟨_, rfl, rfl⟩
  | ok parsed =>
    simp only [AggregateSpec.aggregate_of_parse hparse]
    by_cases h : values.length = parsed.fields.length
    · simp only [if_pos h]
      exact .inl ⟨_, _, rfl, rfl⟩
    · simp only [if_neg h]
      exact .inr ⟨_, trivial, rfl⟩

theorem perform_addAggregate (s : Store) (spec : String) (values : List Value) :
    (s.perform (.addAggregate spec values)).1 =
      match History.aggregate? spec values with
      | some (name, v) => s.addToList name v
      | none => s := by
  rw [perform, Operation.change]
  rcases addAggregate_cases spec values s with ⟨name, v, haggregate, hrun⟩ | ⟨e, haggregate, hrun⟩
  · rw [hrun, haggregate]
  · rw [hrun, haggregate]

/-- An operation that is refused changes nothing. -/
theorem perform_eq_self_of_refused {op : Operation} {e : Error} (h : (s.perform op).2 = some e) :
    (s.perform op).1 = s := by
  cases op with
  | set name v => cases h
  | add name v => cases h
  | addAggregate spec values =>
    rw [perform, Operation.change] at h ⊢
    rcases addAggregate_cases spec values s with ⟨name, v, -, hrun⟩ | ⟨e', -, hrun⟩
    · rw [hrun] at h
      cases h
    · rw [hrun]
  | remove name => cases h

theorem InStep.perform (h : s.InStep) (op : Operation) : (s.perform op).1.InStep := by
  cases op with
  | set name v => exact h.set name v
  | add name v => exact h.add name v
  | addAggregate spec values =>
    rw [perform_addAggregate]
    cases History.aggregate? spec values with
    | none => exact h
    | some p => exact h.addToList p.1 p.2
  | remove name => exact h.remove name

theorem InStep.history_perform (h : s.InStep) (op : Operation) (name : String) :
    (s.perform op).1.history name = History.step name (s.history name) op := by
  cases op with
  | set other v => exact s.history_set name other v
  | add other v => exact h.history_add name other v
  | addAggregate spec values =>
    rw [perform_addAggregate, History.step]
    cases History.aggregate? spec values with
    | none => rfl
    | some p => exact s.history_addToList name p.1 p.2
  | remove other => exact s.history_remove name other

/-- Names keep their order; one that is bound anew comes last. -/
theorem names_insert (s : Store) (name : String) (v : Value) (accumulated : List String) :
    (names ⟨Dictionary.insert name v s.attributes, accumulated⟩).Sublist s.names ∨
      ∃ last, last ∉ s.names ∧ names ⟨Dictionary.insert name v s.attributes, accumulated⟩ = s.names ++ [last] := by
  by_cases h : name ∈ s.names
  · left
    have hnames : names ⟨Dictionary.insert name v s.attributes, accumulated⟩ = s.names :=
      Dictionary.keys_insert_of_mem v h
    exact hnames ▸ List.Sublist.refl s.names
  · right
    refine ⟨name, h, ?_⟩
    have hinsert : Dictionary.insert name v s.attributes = s.attributes ++ [(name, v)] :=
      Dictionary.insert_of_not_mem_keys v h
    rw [names, toList, hinsert, List.map_append]
    rfl

theorem names_perform (s : Store) (op : Operation) :
    (s.perform op).1.names.Sublist s.names ∨
      ∃ last, last ∉ s.names ∧ (s.perform op).1.names = s.names ++ [last] := by
  cases op with
  | set name v => exact s.names_insert name v _
  | add name v =>
    change (s.add name v).names.Sublist _ ∨ ∃ last, _ ∧ (s.add name v).names = _
    unfold add
    split
    · exact s.names_insert name v _
    · exact s.names_insert name _ _
  | addAggregate spec values =>
    rw [perform_addAggregate]
    cases History.aggregate? spec values with
    | none => exact .inl (List.Sublist.refl _)
    | some p => exact s.names_insert p.1 _ _
  | remove name => exact .inl (Dictionary.keys_erase_sublist name s.attributes)

/-! ## All operations -/

theorem inStep_run (ops : List Operation) : (run ops).InStep := by
  induction ops using List.reverseRecOn with
  | nil => exact inStep_empty
  | append_singleton ops op ih => exact run_concat ops op ▸ ih.perform op

theorem history_run (ops : List Operation) (name : String) : (run ops).history name = History.of ops name := by
  induction ops using List.reverseRecOn with
  | nil => rfl
  | append_singleton ops op ih => rw [run_concat, (inStep_run ops).history_perform, ih, History.of_concat]

theorem mem_names_run {ops : List Operation} :
    name ∈ (run ops).names ↔ (History.of ops name).isSome := by
  rw [mem_names_iff, history_run]

theorem exists_boundSince (ops : List Operation) (h : name ∈ (run ops).names) :
    ∃ k, BoundSince ops name k := by
  induction ops using List.reverseRecOn with
  | nil => cases h
  | append_singleton ops op ih =>
    have hbound := mem_names_run.1 h
    by_cases hname : name ∈ (run ops).names
    · obtain ⟨k, hk⟩ := ih hname
      exact ⟨k, hk.concat hbound⟩
    · rw [mem_names_run, Option.not_isSome_iff_eq_none] at hname
      exact ⟨ops.length, boundSince_length hname hbound⟩

/-- The order of the names is that in which they were bound. -/
theorem pairwise_names_run (ops : List Operation) :
    (run ops).names.Pairwise fun a b => ∃ i j, BoundSince ops a i ∧ BoundSince ops b j ∧ i < j := by
  induction ops using List.reverseRecOn with
  | nil => exact .nil
  | append_singleton ops op ih =>
    -- Names that are still bound have been bound since the same operations as before.
    have hkept : ∀ {names : List String}, names.Sublist (run ops).names →
        (∀ name ∈ names, name ∈ (run (ops ++ [op])).names) → names.Pairwise fun a b =>
          ∃ i j, BoundSince (ops ++ [op]) a i ∧ BoundSince (ops ++ [op]) b j ∧ i < j := by
      intro names hsub hbound
      refine (ih.sublist hsub).imp_of_mem ?_
      rintro a b ha hb ⟨i, j, hi, hj, hij⟩
      exact ⟨i, j, hi.concat (mem_names_run.1 (hbound a ha)), hj.concat (mem_names_run.1 (hbound b hb)), hij⟩
    have hrun := run_concat ops op
    rcases (run ops).names_perform op with hsub | ⟨last, hlast, hnames⟩
    · exact hkept (hrun ▸ hsub) fun _ h => h
    · rw [← hrun] at hnames
      have hmem : ∀ name ∈ (run ops).names, name ∈ (run (ops ++ [op])).names := by
        intro name h
        rw [hnames]
        exact List.mem_append_left _ h
      rw [hnames, List.pairwise_append]
      refine ⟨hkept (.refl _) hmem, List.pairwise_singleton _ _, fun a ha b hb => ?_⟩
      cases List.mem_singleton.1 hb
      obtain ⟨i, hi⟩ := exists_boundSince ops ha
      have hnew : BoundSince (ops ++ [op]) last ops.length := by
        refine boundSince_length ?_ (mem_names_run.1 (hnames ▸ by simp))
        rwa [mem_names_run, Option.not_isSome_iff_eq_none] at hlast
      exact ⟨i, ops.length, hi.concat (mem_names_run.1 (hmem a ha)), hnew, hi.1⟩

/-- **A store shows the history of its names.** After any operations, an attribute is what the history of its
name says, and a name without a history is unbound; the accumulated names are those whose history is a list; the bound
names come in the order in which they were bound; and an operation that is refused, as that of an aggregate may be,
leaves the whole store as it was. -/
theorem run_shows_history (ops : List Operation) :
    (∀ name, Option.Rel History.Shows (History.of ops name) ((run ops).get? name)) ∧
    (∀ name, name ∈ (run ops).accumulated ↔ ∃ past, History.of ops name = some past ∧ past.boxed = true) ∧
    (∀ name, name ∈ (run ops).names ↔ ∃ k, BoundSince ops name k) ∧
    ((run ops).names.Pairwise fun a b => ∃ i j, BoundSince ops a i ∧ BoundSince ops b j ∧ i < j) ∧
    ∀ op e, ((run ops).perform op).2 = some e → run (ops ++ [op]) = run ops := by
  refine ⟨fun name => ?_, fun name => ?_, fun name => ⟨exists_boundSince ops, ?_⟩, pairwise_names_run ops, ?_⟩
  · rw [← history_run]
    exact (run ops).history_shows name
  · rw [← history_run]
    exact (inStep_run ops).mem_accumulated_iff
  · rintro ⟨k, hk, -, hafter⟩
    simpa [mem_names_run] using hafter ops.length hk (Nat.le_refl _)
  · intro op e h
    rw [run_concat, perform_eq_self_of_refused h]

/-- A list that was bound as one value, a name that was bound again, and an aggregate without a value for its
field. -/
theorem run_shows_history_mixed :
    let pair := Value.list [.int 1, .int 2]
    let ops : List Operation := [.set "xs" pair, .add "ys" (.int 7), .addAggregate "items.\x7ba, b\x7d" [.int 1, pair],
      .add "xs" (.int 3), .remove "ys", .add "ys" (.int 8), .add "xs" (.int 4)]
    let refused := Operation.addAggregate "items.\x7ba\x7d" []
    (run ops).get? "xs" = some (.list [pair, .int 3, .int 4]) ∧ (run ops).names = ["xs", "items", "ys"] ∧
    (run ops).accumulated = ["items", "xs"] ∧
    ((run ops).perform refused).2 = some (.aggregateArity 1 0) ∧ run (ops ++ [refused]) = run ops := by
  intro pair ops refused
  have hrefused : ((run ops).perform refused).2 = some (.aggregateArity 1 0) := rfl
  exact ⟨rfl, rfl, rfl, hrefused, (run_shows_history ops).2.2.2.2 _ _ hrefused⟩

end Store

end Stencil

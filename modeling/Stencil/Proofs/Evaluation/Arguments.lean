import Stencil.Instance
import Stencil.Proofs.Evaluation.Scopes

/-!
# The arguments of a call

A call with arguments is accepted by counting: there are no more of them than parameters, and no fewer than
parameters without a default. It binds the arguments to the first parameters, one by one, and then the defaults of
the parameters that are still unbound (`Library.get?_bindAll`, `Library.get?_bindDefaults`). So an accepted call
binds all parameters if those with defaults come last (`Group.callEntry_binds`). Otherwise a parameter can be left
over that has neither an argument nor a default, and then it has whatever it has in the scope of the caller
(`Group.callEntry_unbound`).
-/

namespace Stencil

open Template (Argument Compiled Parameter)

namespace Library

variable {lib : Library} {f : Frame} {name : String} {params : List Parameter}

/-! ## Bindings by name -/

def bindAll (pairs : List (Parameter × Value)) (s : Store) : Store :=
  pairs.foldl (fun s (p, v) => s.set p.name v) s

/-- The default of the first parameter of a name that has one. -/
def defaultOf? (params : List Parameter) (name : String) : Option String :=
  params.findSome? fun p => if p.name = name then p.default? else none

/-- Nothing is bound to a name that no parameter has. -/
theorem get?_bindAll_of_notMem (h : name ∉ params.map (·.name)) (values : List Value) (s : Store) :
    (bindAll (params.zip values) s).get? name = s.get? name := by
  induction params generalizing values s with
  | nil => rfl
  | cons q params ih =>
    rw [List.map_cons, List.mem_cons, not_or] at h
    cases values with
    | nil => rfl
    | cons v values =>
      calc (bindAll ((q :: params).zip (v :: values)) s).get? name
          = (bindAll (params.zip values) (s.set q.name v)).get? name := rfl
        _ = (s.set q.name v).get? name := ih h.2 values _
        _ = s.get? name := Store.get?_set_of_ne h.1 s v

/-- A parameter has the value at its place, if there is one. -/
theorem get?_bindAll (hdistinct : (params.map (·.name)).Nodup) {n : Nat} {p : Parameter} (hp : params[n]? = some p)
    (values : List Value) (s : Store) :
    (bindAll (params.zip values) s).get? p.name = values[n]?.or (s.get? p.name) := by
  induction params generalizing n values s with
  | nil => cases hp
  | cons q params ih =>
    obtain ⟨hq, hdistinct⟩ := List.nodup_cons.1 hdistinct
    cases values with
    | nil => rfl
    | cons v values =>
      have hstep : bindAll ((q :: params).zip (v :: values)) s = bindAll (params.zip values) (s.set q.name v) := rfl
      rw [hstep]
      cases n with
      | zero =>
        cases hp
        rw [get?_bindAll_of_notMem hq, Store.get?_set_self]
        rfl
      | succ n =>
        have hne : p.name ≠ q.name := fun hname => hq (List.mem_map.2 ⟨p, List.mem_of_getElem? hp, hname⟩)
        rw [ih hdistinct hp, Store.get?_set_of_ne hne]
        rfl

/-- A call with arguments binds the defaults of what is unbound. -/
theorem get?_bindDefaults (f : Frame) (params : List Parameter) (s : Store) (name : String) :
    (bindDefaults f params true s).get? name = (s.get? name).or ((defaultOf? params name).map .str) := by
  induction params generalizing s with
  | nil => exact (Option.or_none ..).symm
  | cons q params ih =>
    rw [bindDefaults, List.foldl_cons, defaultOf?, List.findSome?_cons]
    cases hdefault : q.default? with
    | none =>
      rw [ite_self]
      exact ih s
    | some text =>
      by_cases hname : q.name = name
      · -- The default is bound here, unless the name is bound already; further defaults make no difference.
        subst hname
        refine (ih _).trans ?_
        cases hs : s.get? q.name with
        | none => simp [Store.contains_eq, hs, Store.get?_set_self]
        | some v => simp [Store.contains_eq, hs]
      · have hset : (s.set q.name (.str text)).get? name = s.get? name := Store.get?_set_of_ne (Ne.symm hname) s _
        refine (ih _).trans ?_
        rw [if_neg hname]
        dsimp only
        split
        · rfl
        · rw [hset]
          rfl

theorem defaultOf?_of_notMem (h : name ∉ params.map (·.name)) : defaultOf? params name = none :=
  List.findSome?_eq_none_iff.2 fun p hp => if_neg fun hname => h (List.mem_map.2 ⟨p, hp, hname⟩)

theorem exists_of_defaultOf?_eq_some {text : String} (h : defaultOf? params name = some text) :
    ∃ p ∈ params, p.name = name ∧ p.default? = some text := by
  obtain ⟨p, hp, htext⟩ := List.exists_of_findSome?_eq_some h
  split at htext
  · next hname => exact ⟨p, hp, hname, htext⟩
  · cases htext

theorem defaultOf?_name (hdistinct : (params.map (·.name)).Nodup) {p : Parameter} (hp : p ∈ params) :
    defaultOf? params p.name = p.default? := by
  induction params with
  | nil => cases hp
  | cons q params ih =>
    obtain ⟨hq, hdistinct⟩ := List.nodup_cons.1 hdistinct
    rw [defaultOf?, List.findSome?_cons]
    rcases List.mem_cons.1 hp with rfl | hp
    · rw [if_pos rfl]
      cases hdefault : p.default? with
      | some text => rfl
      | none => exact defaultOf?_of_notMem hq
    · rw [if_neg fun hname => hq (List.mem_map.2 ⟨p, hp, hname.symm⟩)]
      exact ih hdistinct hp

/-- What a call with arguments binds: their values, and defaults for the rest. -/
def callBindings (f : Frame) (params : List Parameter) (values : List Value) : Store :=
  bindDefaults f params true (bindAll (params.zip values) .empty)

/-- A call binds a parameter to the argument at its place, else to its default. -/
theorem get?_callBindings (hdistinct : (params.map (·.name)).Nodup) {n : Nat} {p : Parameter}
    (hp : params[n]? = some p) (f : Frame) (values : List Value) :
    (callBindings f params values).get? p.name = values[n]?.or (p.default?.map .str) := by
  have hempty : Store.empty.get? p.name = none := rfl
  rw [callBindings, get?_bindDefaults, get?_bindAll hdistinct hp, hempty, Option.or_none,
    defaultOf?_name hdistinct (List.mem_of_getElem? hp)]

/-- A call binds nothing else. -/
theorem get?_callBindings_of_notMem (h : name ∉ params.map (·.name)) (f : Frame) (values : List Value) :
    (callBindings f params values).get? name = none := by
  rw [callBindings, get?_bindDefaults, get?_bindAll_of_notMem h, defaultOf?_of_notMem h]
  rfl

/-- If every parameter that is left without an argument has a default, none is left unbound. -/
theorem isSome_get?_callBindings (hdistinct : (params.map (·.name)).Nodup) {values : List Value}
    (hrest : ∀ p ∈ params.drop values.length, p.default?.isSome = true) {p : Parameter} (hp : p ∈ params) :
    ((callBindings f params values).get? p.name).isSome = true := by
  obtain ⟨n, hn⟩ := List.mem_iff_getElem?.1 hp
  rw [get?_callBindings hdistinct hn]
  by_cases hlength : n < values.length
  · rw [List.getElem?_eq_getElem hlength]
    rfl
  · have hdrop : p ∈ params.drop values.length := by
      refine List.mem_iff_getElem?.2 ⟨n - values.length, ?_⟩
      rw [List.getElem?_drop, Nat.add_sub_cancel' (Nat.le_of_not_lt hlength), hn]
    rw [Option.isSome_or, Option.isSome_map, hrest p hdrop, Bool.or_true]

/-! ## Accepted calls -/

/-- Setting each parameter to the value of its argument, one after the other, is binding them all. -/
theorem foldlM_zip_eq_bindAll {args : List (Argument Span)} {values : List Value}
    {eval : Argument Span → Except Error Value} (hvalues : List.Forall₂ (fun a v => eval a = .ok v) args values)
    {step : Store → Parameter × Argument Span → Except Error Store}
    (hstep : ∀ s p a v, eval a = .ok v → step s (p, a) = .ok (s.set p.name v)) (params : List Parameter) (s : Store) :
    (params.zip args).foldlM step s = .ok (bindAll (params.zip values) s) := by
  induction hvalues generalizing params s with
  | nil =>
    rw [List.zip_nil_right, List.zip_nil_right]
    rfl
  | cons ha _ ih =>
    cases params with
    | nil => rfl
    | cons p params =>
      rw [List.zip_cons_cons, List.foldlM_cons, hstep s p _ _ ha]
      exact ih params _

variable (lib) in
/-- A call with arguments is accepted by counting, and binds their values in order. -/
theorem bindArguments_eq {args : List (Argument Span)} (hargs : args ≠ []) {values : List Value}
    (hvalues : List.Forall₂ (fun a v => lib.adaptors.argument f.scope a = .ok v) args values) (name : String)
    (params : List Parameter) :
    lib.bindArguments f name params args =
      if args.length ≤ params.length ∧ (params.filter (·.default?.isNone)).length ≤ args.length then
        .ok (bindAll (params.zip values) .empty)
      else .error (.argumentCount name params.length args.length) := by
  have hcalled : args.isEmpty = false := by
    cases args with
    | nil => exact absurd rfl hargs
    | cons a args => rfl
  have hstep : ∀ (s : Store) (p : Parameter) (a : Argument Span) (v : Value), lib.adaptors.argument f.scope a = .ok v →
      (do return s.set p.name (← lib.adaptors.argument f.scope a)) = (.ok (s.set p.name v) : Except Error Store) := by
    intro s p a v ha
    rw [ha]
    rfl
  rw [bindArguments, hcalled, if_neg Bool.false_ne_true, foldlM_zip_eq_bindAll hvalues hstep]
  by_cases hcount : args.length ≤ params.length ∧ (params.filter (·.default?.isNone)).length ≤ args.length
  · rw [if_pos hcount, if_neg (by omega)]
  · rw [if_neg hcount, if_pos (by omega)]

/-- If no parameter without a default is left over, none is missing by count. -/
theorem length_filter_le_of_drop {count : Nat} (h : ∀ p ∈ params.drop count, p.default?.isSome = true) :
    (params.filter (·.default?.isNone)).length ≤ count := by
  have hrest : (params.drop count).filter (·.default?.isNone) = [] :=
    List.filter_eq_nil_iff.2 fun p hp => by simp [Option.isSome_iff_ne_none.1 (h p hp)]
  calc (params.filter (·.default?.isNone)).length
      = ((params.take count ++ params.drop count).filter (·.default?.isNone)).length := by
        rw [List.take_append_drop]
    _ = ((params.take count).filter (·.default?.isNone)).length := by
        rw [List.filter_append, hrest, List.append_nil]
    _ ≤ count := Nat.le_trans (List.length_filter_le _ _) (List.length_take_le _ _)

/-- If the parameters with defaults come last and none is missing by count, none without a default is left over. -/
theorem isSome_of_mem_drop (hlast : params.Pairwise fun p q => p.default?.isSome = true → q.default?.isSome = true)
    {count : Nat} (hcount : count ≤ params.length) (hrequired : (params.filter (·.default?.isNone)).length ≤ count) :
    ∀ p ∈ params.drop count, p.default?.isSome = true := by
  intro p hp
  by_contra hnone
  have hnone : p.default?.isNone = true := by simpa using hnone
  rw [← List.take_append_drop count params, List.pairwise_append] at hlast
  have hall : (params.take count).filter (·.default?.isNone) = params.take count := by
    refine List.filter_eq_self.2 fun q hq => ?_
    have hdefault := hlast.2.2 q hq p hp
    rw [Option.isNone_iff_eq_none] at hnone ⊢
    simpa [hnone] using hdefault
  have hpos : 0 < ((params.drop count).filter (·.default?.isNone)).length :=
    List.length_pos_of_mem (List.mem_filter.2 ⟨hp, hnone⟩)
  rw [← List.take_append_drop count params, List.filter_append, hall, List.length_append,
    List.length_take_of_le hcount] at hrequired
  omega

end Library

namespace Group

theorem parameters_of_compiled {g : Group} {name : String} {d : Definition}
    (hd : g.templates.lookup name = some d) {t : Compiled} (ht : g.compiled name = .ok t) :
    t.parameters = d.params := by
  rw [compiled, hd] at ht
  change d.compile name = .ok t at ht
  rw [Definition.compile] at ht
  split at ht
  · cases ht
    rfl
  · cases ht

/-- **A call with arguments binds the parameters**, one after the other. It is accepted just if there are no more
arguments than parameters and no fewer than parameters without a default. An accepted call binds each parameter
to the argument at its place, else to its default, and binds nothing else. If every parameter that is left without
an argument has a default, the call is accepted and all parameters are bound; and if the parameters with defaults
come last, no other calls are accepted. -/
theorem callEntry_binds (g : Group) {name : String} {t : Compiled} (ht : g.compiled name = .ok t)
    (hdistinct : (t.parameters.map (·.name)).Nodup) {f : Frame} {args : List (Argument Span)} (hargs : args ≠ [])
    {values : List Value}
    (hvalues : List.Forall₂ (fun a v => g.adaptors.argument f.scope a = .ok v) args values) :
    let fits := args.length ≤ t.parameters.length ∧
      (t.parameters.filter (·.default?.isNone)).length ≤ args.length
    let complete := args.length ≤ t.parameters.length ∧
      ∀ p ∈ t.parameters.drop args.length, p.default?.isSome = true
    (fits → ∃ bindings, g.library.callEntry f name args = .ok (Library.templateEntry f t bindings) ∧
      (∀ (n : Nat) (p : Parameter), t.parameters[n]? = some p →
        bindings.get? p.name = values[n]?.or (p.default?.map .str)) ∧
      (∀ other, other ∉ t.parameters.map (·.name) → bindings.get? other = none) ∧
      (complete → ∀ p ∈ t.parameters, (bindings.get? p.name).isSome = true)) ∧
    (¬fits → g.library.callEntry f name args = .error (.argumentCount name t.parameters.length args.length)) ∧
    (complete → fits) ∧
    (t.parameters.Pairwise (fun p q => p.default?.isSome = true → q.default?.isSome = true) → fits → complete) := by
  intro fits complete
  have hcompiled : g.library.compiled name = .ok t := ht
  have hbound := g.library.bindArguments_eq hargs hvalues name t.parameters
  refine ⟨fun hfits => ⟨Library.callBindings f t.parameters values, ?_, fun n p hp => ?_, fun other hother => ?_,
    fun hcomplete p hp => ?_⟩, fun hfits => ?_, fun hcomplete => ?_, fun hlast hfits => ?_⟩
  · have hcalled : (!args.isEmpty) = true := by
      cases args with
      | nil => exact absurd rfl hargs
      | cons a args => rfl
    rw [if_pos hfits] at hbound
    rw [Library.callEntry, hcompiled]
    simp only [bind, Except.bind, hbound, hcalled]
    rfl
  · exact Library.get?_callBindings hdistinct hp f values
  · exact Library.get?_callBindings_of_notMem hother f values
  · exact Library.isSome_get?_callBindings hdistinct (hvalues.length_eq ▸ hcomplete.2) hp
  · rw [if_neg hfits] at hbound
    rw [Library.callEntry, hcompiled]
    simp only [bind, Except.bind, hbound]
  · exact ⟨hcomplete.1, Library.length_filter_le_of_drop hcomplete.2⟩
  · exact ⟨hfits.1, Library.isSome_of_mem_drop hlast hfits.1 hfits.2⟩

/-- One argument for three parameters: the first one has it, although it has a default, and the others have
theirs. -/
theorem callEntry_binds_rest :
    let params : List Parameter := [⟨"a", some "x"⟩, ⟨"b", some "y"⟩, ⟨"c", some "z"⟩]
    let g : Group := { templates := [("t", { params, body := "<a><b><c>", delimiters := {} })] }
    let f : Frame := ⟨"page", [.ofList [("v", .int 7), ("c", .int 8)]]⟩
    let args : List (Argument Span) := [.path ⟨"v", ⟨0, 0⟩, []⟩]
    ∃ t bindings, g.compiled "t" = .ok t ∧ (t.parameters.map (·.name)).Nodup ∧
      List.Forall₂ (fun a v => g.adaptors.argument f.scope a = .ok v) args [.int 7] ∧
      g.library.callEntry f "t" args = .ok (Library.templateEntry f t bindings) ∧
      bindings.get? "a" = some (.int 7) ∧ bindings.get? "b" = some (.str "y") ∧
      bindings.get? "c" = some (.str "z") ∧ bindings.get? "v" = none := by
  intro params g f args
  obtain ⟨t, ht⟩ : ∃ t, g.compiled "t" = .ok t := by
    cases ht : g.compiled "t" with
    | ok t => exact ⟨t, rfl⟩
    | error e =>
      have hok : (g.compiled "t").isOk = true := by decide +kernel
      rw [ht] at hok
      cases hok
  have hparams : t.parameters = params := parameters_of_compiled rfl ht
  have hdistinct : (t.parameters.map (·.name)).Nodup := by
    rw [hparams]
    decide
  have hvalues : List.Forall₂ (fun a v => g.adaptors.argument f.scope a = .ok v) args [.int 7] := .cons rfl .nil
  obtain ⟨haccepted, -⟩ := g.callEntry_binds ht hdistinct (List.cons_ne_nil _ _ : args ≠ []) hvalues
  rw [hparams] at haccepted
  obtain ⟨bindings, hentry, hget, hother, -⟩ := haccepted (by decide)
  exact ⟨t, bindings, ht, hdistinct, hvalues, hentry, hget 0 _ rfl, hget 1 _ rfl, hget 2 _ rfl, hother "v" (by decide)⟩

/-- A parameter with a default stands before one without. One argument is enough by count and goes to the first of
them; the second one has no value, or that of the caller. -/
theorem callEntry_unbound :
    let params : List Parameter := [⟨"a", some "x"⟩, ⟨"b", none⟩]
    let g : Group := { templates := [("t", { params, body := "<a><b>", delimiters := {} })] }
    let output (attributes : List (String × Value)) := do g.render {} (← g.inline "<t(v)>") (.ofList attributes)
    (params.map (·.name)).Nodup ∧ (∃ p ∈ params.drop 1, p.default? = none) ∧
    output [("v", .int 1)] = .error (.noSuchAttribute "b") ∧
    output [("v", .int 1), ("b", .int 2)] = .ok "12" := by
  intro params g output
  exact ⟨by decide, ⟨_, List.mem_singleton.2 rfl, rfl⟩, by decide +kernel, by decide +kernel⟩

end Group
end Stencil

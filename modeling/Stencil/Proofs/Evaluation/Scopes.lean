import Stencil.Evaluation.Run
import Stencil.Proofs.Agreement
import Stencil.Proofs.Template.Erase

/-!
# Related scopes

Two scopes are related if every name stands for related values in both. Related scopes answer paths and
arguments alike, as far as the adaptors do not tell related values apart, and the bindings of calls and
targets keep them related: so calls and targets run related bodies.
-/

namespace Stencil

open Template (Argument Compiled Node Parameter Segment Target)

variable {value : Value → Value → Prop} {cut : Error → Prop}

/-! ## Stores -/

namespace Store

/-- The stores bind the same names, to related values. -/
def Related (value : Value → Value → Prop) (s s' : Store) : Prop :=
  ∀ name, Option.Rel value (s.get? name) (s'.get? name)

theorem get?_set_self (s : Store) (name : String) (v : Value) : (s.set name v).get? name = some v := by
  rw [get?, set, Dictionary.lookup_insert_self]

theorem get?_set_of_ne {name other : String} (h : other ≠ name) (s : Store) (v : Value) :
    (s.set name v).get? other = s.get? other := by
  rw [get?, set, Dictionary.lookup_insert_of_ne h, get?]

theorem contains_eq (s : Store) (name : String) : s.contains name = (s.get? name).isSome := by
  rw [contains, Dictionary.contains, get?]

theorem isSome_eq_of_rel {α β : Type} {R : α → β → Prop} {x : Option α} {y : Option β}
    (h : Option.Rel R x y) : x.isSome = y.isSome := by
  cases h <;> rfl

theorem related_empty : Related value empty empty :=
  fun _ => .none

theorem related_refl (hrefl : ∀ v, value v v) (s : Store) : Related value s s := by
  intro name
  cases s.get? name with
  | none => exact .none
  | some v => exact .some (hrefl v)

theorem Related.set {s s' : Store} (h : Related value s s') (name : String) {v v' : Value}
    (hv : value v v') : Related value (s.set name v) (s'.set name v') := by
  intro other
  by_cases hname : other = name
  · rw [hname, get?_set_self, get?_set_self]
    exact .some hv
  · rw [get?_set_of_ne hname, get?_set_of_ne hname]
    exact h other

theorem Related.contains_eq {s s' : Store} (h : Related value s s') (name : String) :
    s.contains name = s'.contains name := by
  rw [Store.contains_eq, Store.contains_eq, isSome_eq_of_rel (h name)]

end Store

/-! ## Paths and arguments -/

abbrev Scope.Related (value : Value → Value → Prop) : Scope → Scope → Prop :=
  List.Forall₂ (Store.Related value)

theorem Scope.Related.lookup {s s' : Scope} (h : Scope.Related value s s') (name : String) :
    Option.Rel value (s.lookup name) (s'.lookup name) := by
  induction h with
  | nil => exact .none
  | @cons t t' s s' ht _ ih =>
    have hname := ht name
    rw [Scope.lookup_cons, Scope.lookup_cons]
    generalize t.get? name = v, t'.get? name = v' at hname
    cases hname with
    | none => exact ih
    | some hv => exact .some hv

/-- The adaptors do not tell related values apart. -/
def Adaptors.Respect (cut : Error → Prop) (value : Value → Value → Prop) (r r' : Adaptors) : Prop :=
  ∀ v v', value v v' → ∀ segment, AgreeUnless cut value (r.step v segment) (r'.step v' segment)

namespace Adaptors.Respect

variable {r r' : Adaptors} (hr : Adaptors.Respect cut value r r') {s s' : Scope}
include hr

theorem resolve (h : Scope.Related value s s') {σ σ' : Type} {p : Template.Path σ} {p' : Template.Path σ'}
    (hroot : p'.root = p.root) (hsegments : p'.segments = p.segments) :
    AgreeUnless cut value (r.resolve s p) (r'.resolve s' p') := by
  have hlookup := h.lookup p.root
  rw [Adaptors.resolve, Adaptors.resolve, hroot, hsegments]
  generalize s.lookup p.root = v, s'.lookup p.root = v' at hlookup
  cases hlookup with
  | none => exact .error _
  | some hv =>
    refine AgreeUnless.foldlM (R := Eq) (fun v v' segment _ hv heq => ?_) (List.forall₂_refl _) hv
    subst heq
    exact hr _ _ hv segment

theorem argument (h : Scope.Related value s s') (hrefl : ∀ v, value v v) {σ σ' : Type} {a : Argument σ}
    {a' : Argument σ'} (ha : a.map (fun _ => ()) = a'.map (fun _ => ())) :
    AgreeUnless cut value (r.argument s a) (r'.argument s' a') := by
  cases a with
  | path p =>
    cases a' with
    | path p' =>
      simp only [Argument.map, Template.Path.map, Argument.path.injEq, Template.Path.mk.injEq, true_and] at ha
      exact hr.resolve h ha.1.symm ha.2.symm
    | literal text => cases ha
  | literal text =>
    cases a' with
    | path p' => cases ha
    | literal text' =>
      cases ha
      exact .ok (hrefl _)

end Adaptors.Respect

/-! ## Bodies -/

theorem isEmpty_eq_of_length_eq {α β : Type} {xs : List α} {ys : List β} (h : xs.length = ys.length) :
    xs.isEmpty = ys.isEmpty := by
  cases xs with
  | nil => rw [List.length_nil] at h; rw [List.length_eq_zero_iff.1 h.symm]; rfl
  | cons x xs =>
    cases ys with
    | nil => cases h
    | cons y ys => rfl

theorem forall₂_of_map_eq {α β γ : Type} {g : α → γ} {k : β → γ} {xs : List α} {ys : List β}
    (h : xs.map g = ys.map k) : List.Forall₂ (fun x y => g x = k y) xs ys := by
  rw [← List.forall₂_map_right_iff, ← List.forall₂_map_left_iff, h]
  exact List.forall₂_refl _

theorem forall₂_zip {α β γ : Type} {R : β → γ → Prop} (xs : List α) {ys : List β} {zs : List γ}
    (h : List.Forall₂ R ys zs) :
    List.Forall₂ (fun p q => p.1 = q.1 ∧ R p.2 q.2) (xs.zip ys) (xs.zip zs) := by
  induction h generalizing xs with
  | nil => simp
  | cons hR _ ih =>
    cases xs with
    | nil => exact .nil
    | cons x xs => exact .cons ⟨rfl, hR⟩ (ih xs)

structure Template.Compiled.Related (nodes : List (Node Span) → List (Node Span) → Prop) (t t' : Compiled) :
    Prop where
  name : t.name = t'.name
  parameters : t.parameters = t'.parameters
  nodes : nodes t.nodes t'.nodes

structure Entry.Related (value : Value → Value → Prop) (nodes : List (Node Span) → List (Node Span) → Prop)
    (e e' : Entry) : Prop where
  label : e.label = e'.label
  template : e.frame.template = e'.frame.template
  scope : Scope.Related value e.frame.scope e'.frame.scope
  nodes : nodes e.nodes e'.nodes

namespace Library

variable {lib lib' : Library} {nodes : List (Node Span) → List (Node Span) → Prop} {f f' : Frame}

theorem bindDefaults_related (hrefl : ∀ v, value v v) (hf : Scope.Related value f.scope f'.scope)
    (params : List Parameter) (called : Bool) {s s' : Store} (h : Store.Related value s s') :
    Store.Related value (bindDefaults f params called s) (bindDefaults f' params called s') := by
  induction params generalizing s s' with
  | nil => exact h
  | cons p params ih =>
    rw [bindDefaults, bindDefaults, List.foldl_cons, List.foldl_cons]
    refine ih ?_
    cases p.default? with
    | none => exact h
    | some text =>
      dsimp only
      rw [h.contains_eq, Store.isSome_eq_of_rel (hf.lookup p.name)]
      split
      · exact h
      · exact h.set p.name (hrefl _)

theorem bindElement_related (hrefl : ∀ v, value v v) (names : List String) {v v' : Value} (hv : value v v')
    (index : Nat) : Store.Related value (bindElement names v index) (bindElement names v' index) := by
  have hcounted : Store.Related value
      ((Store.empty.set "i" (.int (index + 1 : Nat))).set "i0" (.int index))
      ((Store.empty.set "i" (.int (index + 1 : Nat))).set "i0" (.int index)) := Store.related_refl hrefl _
  match names with
  | [] => exact hcounted.set _ hv
  | [name] => exact hcounted.set _ hv
  | name :: indexName :: _ => exact (hcounted.set _ hv).set _ (hrefl _)

section
variable (hrefl : ∀ v, value v v) (hadaptors : Adaptors.Respect cut value lib.adaptors lib'.adaptors)
  (hf : Scope.Related value f.scope f'.scope)
include hrefl hadaptors hf

theorem bindArguments_related (name : String) (params : List Parameter) {args args' : List (Argument Span)}
    (hargs : args.map (Argument.map fun _ => ()) = args'.map (Argument.map fun _ => ())) :
    AgreeUnless cut (Store.Related value) (lib.bindArguments f name params args)
      (lib'.bindArguments f' name params args') := by
  have hlength : args.length = args'.length := by simpa using congrArg List.length hargs
  rw [bindArguments, bindArguments, isEmpty_eq_of_length_eq hlength, hlength]
  dsimp only
  split
  · exact .ok Store.related_empty
  · split
    · exact .error _
    · refine AgreeUnless.foldlM ?_ (forall₂_zip params (forall₂_of_map_eq hargs)) Store.related_empty
      rintro s s' ⟨p, a⟩ ⟨p', a'⟩ hs ⟨hp, ha⟩
      cases hp
      exact (hadaptors.argument hf hrefl ha).bind fun v v' hv => .ok (hs.set p.name hv)

/-- Calls of related templates run related bodies. -/
theorem callEntry_related {name : String}
    (hcompiled : AgreeUnless cut (Compiled.Related nodes) (lib.compiled name) (lib'.compiled name))
    {args args' : List (Argument Span)}
    (hargs : args.map (Argument.map fun _ => ()) = args'.map (Argument.map fun _ => ())) :
    AgreeUnless cut (Entry.Related value nodes) (lib.callEntry f name args) (lib'.callEntry f' name args') := by
  have hlength : args.length = args'.length := by simpa using congrArg List.length hargs
  refine hcompiled.bind fun t t' ht => ?_
  rw [← ht.parameters]
  refine (bindArguments_related hrefl hadaptors hf name t.parameters hargs).bind fun s s' hs => .ok ?_
  rw [isEmpty_eq_of_length_eq hlength]
  exact ⟨ht.name, ht.name, .cons (bindDefaults_related hrefl hf _ _ hs) hf, ht.nodes⟩

end

theorem targetEntry_anonymous_related (hrefl : ∀ v, value v v) (hf : Scope.Related value f.scope f'.scope)
    (htemplate : f.template = f'.template) (names : List String) {body body' : List (Node Span)}
    (hbody : nodes body body') (place place' : Span) {v v' : Value} (hv : value v v') (index : Nat) :
    AgreeUnless cut (Entry.Related value nodes) (lib.targetEntry f (.anonymous names body place) v index)
      (lib'.targetEntry f' (.anonymous names body' place') v' index) :=
  .ok ⟨htemplate, htemplate, .cons (bindElement_related hrefl names hv index) hf, hbody⟩

theorem targetEntry_named_related (hrefl : ∀ v, value v v) (hf : Scope.Related value f.scope f'.scope)
    {name : String}
    (hcompiled : AgreeUnless cut (Compiled.Related nodes) (lib.compiled name) (lib'.compiled name))
    (place place' : Span) {v v' : Value} (hv : value v v') (index : Nat) :
    AgreeUnless cut (Entry.Related value nodes) (lib.targetEntry f (.named name place) v index)
      (lib'.targetEntry f' (.named name place') v' index) := by
  refine hcompiled.bind fun t t' ht => .ok ?_
  rw [← ht.parameters]
  exact ⟨ht.name, ht.name, .cons (bindElement_related hrefl _ hv index) hf, ht.nodes⟩

theorem regionEntry_related (hf : Scope.Related value f.scope f'.scope) (htemplate : f.template = f'.template)
    {name : String}
    (hoverride : Option.Rel (fun t t' : Compiled => nodes t.nodes t'.nodes) (lib.override? f.template name)
      (lib'.override? f.template name))
    {body body' : Option (List (Node Span))} (hbody : Option.Rel nodes body body') :
    Option.Rel (Entry.Related value nodes) (lib.regionEntry f name body) (lib'.regionEntry f' name body') := by
  have hentry : ∀ {ns ns'}, nodes ns ns' →
      Entry.Related value nodes ⟨f.template ++ "." ++ name, f, ns⟩ ⟨f'.template ++ "." ++ name, f', ns'⟩ :=
    fun h => ⟨by rw [htemplate], htemplate, hf, h⟩
  rw [regionEntry, regionEntry, ← htemplate]
  generalize lib.override? f.template name = t?, lib'.override? f.template name = t?' at hoverride
  cases hoverride with
  | some ht => exact .some (htemplate ▸ hentry ht)
  | none =>
    cases hbody with
    | none => exact .none
    | some h => exact .some (htemplate ▸ hentry h)

/-- The libraries have the same templates, but for places and what is not kept of the options. -/
structure Same (kept : Template.Options → Template.Options) (lib lib' : Library) : Prop where
  compiled : ∀ name, Agree (Compiled.Related (Node.Same kept)) (lib.compiled name) (lib'.compiled name)
  override? : ∀ template region, Option.Rel (fun t t' : Compiled => Node.Same kept t.nodes t'.nodes)
    (lib.override? template region) (lib'.override? template region)
  adaptors : lib.adaptors = lib'.adaptors
  renderers : lib.renderers = lib'.renderers
  maxDepth : lib.maxDepth = lib'.maxDepth

theorem Same.refl (kept : Template.Options → Template.Options) (lib : Library) : lib.Same kept lib where
  compiled name := .rfl' (fun _ => ⟨rfl, rfl, rfl⟩) _
  override? template region := by
    cases lib.override? template region with
    | none => exact .none
    | some t => exact .some rfl
  adaptors := rfl
  renderers := rfl
  maxDepth := rfl

end Library

end Stencil

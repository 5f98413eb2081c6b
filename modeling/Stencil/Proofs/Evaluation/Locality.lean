import Stencil.Proofs.Evaluation.Depth
import Stencil.Proofs.Evaluation.Reach

/-!
# What a run depends on

A run depends on what its bodies look up and on nothing else. Two libraries are the same on a set of bodies,
closed under what they enter, if they replace the same regions there (`Library.SameOn`); the attributes
that none of these bodies mentions are hidden. In both libraries, and with attributes that differ in hidden
names only, a template among the bodies writes the same text or fails with the same error
(`Library.render_eq_of_sameOn`). So an attribute without a mention has no influence
(`Instance.render_eq_of_not_mentioned`).
-/

namespace Stencil

open Template (Argument Compiled Node Options Parameter Primary Target)
open Writer (Balanced)

/-! ## Scopes that differ in hidden names -/

variable {hidden : String → Prop}

/-- The scopes have the same attributes, but for those with a hidden name. -/
def Scope.SameBut (hidden : String → Prop) (s s' : Scope) : Prop :=
  ∀ name, ¬hidden name → s.lookup name = s'.lookup name

/-- What is bound inside of both is the same. -/
theorem Scope.SameBut.cons {s s' : Scope} (h : Scope.SameBut hidden s s') (bindings : Store) :
    Scope.SameBut hidden (bindings :: s) (bindings :: s') := by
  intro name hname
  rw [lookup_cons, lookup_cons, h name hname]

theorem Scope.sameBut_singleton {a a' : Store} (h : ∀ name, ¬hidden name → a.get? name = a'.get? name) :
    Scope.SameBut hidden [a] [a'] := by
  intro name hname
  rw [lookup_cons, lookup_cons, h name hname]

theorem Adaptors.resolve_eq_of_lookup (r : Adaptors) {s s' : Scope} {p : Template.Path Span}
    (h : s.lookup p.root = s'.lookup p.root) : r.resolve s p = r.resolve s' p := by
  rw [resolve, resolve, h]

theorem Adaptors.argument_eq_of_lookup (r : Adaptors) {s s' : Scope} {a : Argument Span}
    (h : ∀ name, a.root? = some name → s.lookup name = s'.lookup name) : r.argument s a = r.argument s' a := by
  cases a with
  | path p => exact r.resolve_eq_of_lookup (h p.root rfl)
  | literal text => rfl

/-! ## Libraries that are the same on some bodies -/

/-- The libraries differ at most in what replaces regions that none of the bodies has. The bodies are closed
under what they enter, and mention no attribute with a hidden name. -/
structure Library.SameOn (lib lib' : Library) (bodies : Body → Prop) (hidden : String → Prop) : Prop where
  compiled : lib.compiled = lib'.compiled
  adaptors : lib.adaptors = lib'.adaptors
  renderers : lib.renderers = lib'.renderers
  maxDepth : lib.maxDepth = lib'.maxDepth
  override? : ∀ b, bodies b → ∀ name ∈ b.regions,
    lib.override? b.template name = lib'.override? b.template name
  closed : ∀ b b', bodies b → b' ∈ lib.entered b → bodies b'
  visible : ∀ b name, bodies b → name ∈ lib.mentioned b → ¬hidden name

theorem Library.SameOn.self {lib : Library} {bodies : Body → Prop}
    (closed : ∀ b b', bodies b → b' ∈ lib.entered b → bodies b')
    (visible : ∀ b name, bodies b → name ∈ lib.mentioned b → ¬hidden name) : lib.SameOn lib bodies hidden where
  compiled := rfl
  adaptors := rfl
  renderers := rfl
  maxDepth := rfl
  override? _ _ _ _ := rfl
  closed := closed
  visible := visible

structure Entry.SameBut (bodies : Body → Prop) (hidden : String → Prop) (e e' : Entry) : Prop where
  label : e.label = e'.label
  template : e.frame.template = e'.frame.template
  nodes : e.nodes = e'.nodes
  scope : Scope.SameBut hidden e.frame.scope e'.frame.scope
  body : bodies e.body

namespace Library

variable {lib lib' : Library} {bodies : Body → Prop} {c : RenderConfig} {f f' : Frame}
  {ns : List (Node Span)} {enter enter' : Runner}

/-! ## Calls, targets and regions -/

theorem bindArguments_agree {name : String} {params : List Parameter} {args : List (Argument Span)}
    (hadaptors : lib.adaptors = lib'.adaptors)
    (h : ∀ a ∈ args, lib.adaptors.argument f.scope a = lib.adaptors.argument f'.scope a) :
    Agree Eq (lib.bindArguments f name params args) (lib'.bindArguments f' name params args) := by
  rw [bindArguments, bindArguments]
  dsimp only
  split
  · exact .ok rfl
  · split
    · exact .error _
    · have hpairs : List.Forall₂ (fun x y : Parameter × Argument Span => x = y ∧ x.2 ∈ args)
          (params.zip args) (params.zip args) :=
        List.forall₂_same.2 fun x hx => ⟨rfl, (List.of_mem_zip hx).2⟩
      refine AgreeUnless.foldlM ?_ hpairs rfl
      rintro s _ ⟨p, a⟩ _ rfl ⟨rfl, ha⟩
      dsimp only at ha ⊢
      rw [← hadaptors, h a ha]
      exact .rfl' (fun _ => rfl) _

theorem bindDefaults_eq_of_lookup {params : List Parameter} {called : Bool} (s : Store)
    (h : called = false → ∀ p ∈ params, p.default?.isSome → f.scope.lookup p.name = f'.scope.lookup p.name) :
    bindDefaults f params called s = bindDefaults f' params called s := by
  refine List.foldl_ext _ _ _ fun s p hp => ?_
  cases hdefault : p.default? with
  | none => rfl
  | some text =>
    cases called with
    | true => rfl
    | false => simp only [h rfl p hp (by simp [hdefault])]

section
variable (h : lib.SameOn lib' bodies hidden) (hf : Scope.SameBut hidden f.scope f'.scope)
include h hf

theorem argument_sameOn {b : Body} (hb : bodies b) {a : Argument Span}
    (hmention : ∀ name, a.root? = some name → name ∈ lib.mentioned b) :
    lib.adaptors.argument f.scope a = lib.adaptors.argument f'.scope a :=
  lib.adaptors.argument_eq_of_lookup fun name hname => hf name (h.visible b name hb (hmention name hname))

theorem callEntry_sameOn {b : Body} (hb : bodies b) {name : String} {place place' : Span}
    {args : List (Argument Span)} {targets : List (Target Span)} {o : Options}
    (hcall : .expression (.call name place args) targets o place' ∈ b.nodes) :
    Agree (Entry.SameBut bodies hidden) (lib.callEntry f name args) (lib'.callEntry f' name args) := by
  have hargs : ∀ a ∈ args, lib.adaptors.argument f.scope a = lib.adaptors.argument f'.scope a := by
    intro a ha
    refine argument_sameOn h hf hb fun root hroot => mem_mentioned_of_roots hcall ?_
    exact List.mem_filterMap.2 ⟨a, ha, hroot⟩
  rw [callEntry, callEntry, ← h.compiled]
  cases hcompiled : lib.compiled name with
  | error e => exact .error e
  | ok t =>
    have hdefaults : ∀ s, bindDefaults f t.parameters (!args.isEmpty) s =
        bindDefaults f' t.parameters (!args.isEmpty) s := by
      refine fun s => bindDefaults_eq_of_lookup s fun hnone p hp hdefault => hf p.name ?_
      cases args with
      | nil => exact h.visible b p.name hb (mem_mentioned_of_default hcall rfl hcompiled hp hdefault)
      | cons a args => cases hnone
    have hbody : bodies t.body :=
      h.closed b t.body hb (mem_entered_of_compiled hcall (List.mem_append_left _ (List.mem_singleton.2 rfl))
        hcompiled)
    refine (bindArguments_agree h.adaptors hargs).bind ?_
    rintro s _ rfl
    rw [hdefaults s]
    exact .ok ⟨rfl, rfl, rfl, hf.cons _, hbody⟩

variable (htemplate : f.template = f'.template)
include htemplate

theorem targetEntry_sameOn {p : Primary Span} {targets : List (Target Span)} {o : Options} {place : Span}
    (hb : bodies ⟨f.template, ns⟩) (hnode : .expression p targets o place ∈ ns) {target : Target Span}
    (ht : target ∈ targets) (v : Value) (index : Nat) :
    Agree (Entry.SameBut bodies hidden) (lib.targetEntry f target v index)
      (lib'.targetEntry f' target v index) := by
  cases target with
  | anonymous names body place' =>
    have hinner : body ∈ Node.inner (.expression p targets o place) := List.mem_filterMap.2 ⟨_, ht, rfl⟩
    have hbody : bodies ⟨f.template, body⟩ := h.closed _ _ hb (mem_entered_of_inner hnode hinner)
    exact .ok ⟨htemplate, htemplate, rfl, hf.cons _, hbody⟩
  | named name place' =>
    rw [targetEntry, targetEntry, ← h.compiled]
    cases hcompiled : lib.compiled name with
    | error e => exact .error e
    | ok t =>
      have hname : name ∈ Node.invoked (.expression p targets o place) :=
        List.mem_append_right _ (List.mem_filterMap.2 ⟨_, ht, rfl⟩)
      have hbody : bodies t.body := h.closed _ _ hb (mem_entered_of_compiled hnode hname hcompiled)
      exact .ok ⟨rfl, rfl, rfl, hf.cons _, hbody⟩

theorem regionEntry_sameOn (hb : bodies ⟨f.template, ns⟩) {node : Node Span} (hnode : node ∈ ns)
    {name : String} (hname : node.region? = some name) {body : Option (List (Node Span))}
    (hbody : ∀ own, body = some own → bodies ⟨f.template, own⟩) :
    Option.Rel (Entry.SameBut bodies hidden) (lib.regionEntry f name body)
      (lib'.regionEntry f' name body) := by
  have hregion : name ∈ Body.regions ⟨f.template, ns⟩ := List.mem_filterMap.2 ⟨node, hnode, hname⟩
  rw [regionEntry, regionEntry, ← htemplate, ← h.override? _ hb name hregion]
  cases hoverride : lib.override? f.template name with
  | none =>
    cases body with
    | none => exact .none
    | some own => exact .some ⟨rfl, htemplate, rfl, hf, hbody own rfl⟩
  | some t =>
    have hreplaced : bodies ⟨f.template, t.nodes⟩ := 
      h.closed _ _ hb (mem_entered_of_override? hnode hname hoverride)
    exact .some ⟨rfl, htemplate, rfl, hf, hreplaced⟩

end

/-! ## Runs -/

/-- What is related: the same values and writers, and the same bodies in scopes that differ in hidden names
only. -/
def localSimulation (h : lib.SameOn lib' bodies hidden) (c : RenderConfig) : Simulation lib lib' c c :=
  .equal (fun _ => False) (Entry.SameBut bodies hidden) h.renderers

variable (h : lib.SameOn lib' bodies hidden)
include h

section
variable (hf : Scope.SameBut hidden f.scope f'.scope) (hb : bodies ⟨f.template, ns⟩)
include hf hb

theorem primary_sameOn {p : Primary Span} {targets : List (Target Span)} {o : Options} {place : Span}
    (hnode : .expression p targets o place ∈ ns) :
    Agree ((localSimulation h c).RelatedOutcomes f f') (lib.primary f p) (lib'.primary f' p) := by
  cases p with
  | path p =>
    refine Simulation.relatedOutcomes_path (s := localSimulation h c) ?_
    have hroot := h.visible _ p.root hb (mem_mentioned_of_roots hnode (List.mem_singleton.2 rfl))
    rw [← h.adaptors, lib.adaptors.resolve_eq_of_lookup (hf p.root hroot)]
    exact .rfl' (fun _ => rfl) _
  | call name place' args =>
    exact Simulation.relatedOutcomes_call (s := localSimulation h c) (callEntry_sameOn h hf hb hnode)
  | function fn arg =>
    refine Simulation.relatedOutcomes_function (s := localSimulation h c) ?_
    have hmention : ∀ root, arg.root? = some root → root ∈ lib.mentioned ⟨f.template, ns⟩ := by
      intro root hroot
      refine mem_mentioned_of_roots hnode ?_
      rw [Node.roots, Primary.roots, hroot]
      exact List.mem_singleton.2 rfl
    rw [← h.adaptors, argument_sameOn h hf hb hmention]
    exact .rfl' (fun _ => rfl) _

variable (htemplate : f.template = f'.template)
include htemplate

theorem node_sameOn (hbalanced : ∀ entry, Balanced (enter entry)) (hbalanced' : ∀ entry, Balanced (enter' entry))
    (henter : (localSimulation h c).Enters enter enter') {node : Node Span} (hnode : node ∈ ns) :
    (localSimulation h c).RelatedNodes enter enter' f f' node node := by
  cases node with
  | literal text place => exact Simulation.relatedNodes_literal text place place
  | slot name place =>
    have hnone : ∀ own, none = some own → bodies ⟨f.template, own⟩ := fun _ h => nomatch h
    exact fun w w' hw => Simulation.runRegion henter (regionEntry_sameOn h hf htemplate hb hnode rfl hnone) hw
  | region name body place =>
    have hown : ∀ own, some body = some own → bodies ⟨f.template, own⟩ := by
      intro own hown
      cases hown
      exact h.closed _ _ hb (mem_entered_of_inner hnode (List.mem_singleton.2 rfl))
    exact fun w w' hw => Simulation.runRegion henter (regionEntry_sameOn h hf htemplate hb hnode rfl hown) hw
  | expression p targets o place =>
    refine Simulation.relatedNodes_expression henter hbalanced hbalanced' (primary_sameOn h hf hb hnode) ?_ rfl
    refine List.forall₂_same.2 fun target ht v v' index hv => ?_
    cases hv
    exact targetEntry_sameOn h hf htemplate hb hnode ht v index

theorem nodes_sameOn (hbalanced : ∀ entry, Balanced (enter entry)) (hbalanced' : ∀ entry, Balanced (enter' entry))
    (henter : (localSimulation h c).Enters enter enter') (w : Writer) :
    Agree Eq (lib.runNodes c enter f ns w) (lib'.runNodes c enter' f' ns w) := by
  have hnodes : List.Forall₂ ((localSimulation h c).RelatedNodes enter enter' f f') ns ns :=
    List.forall₂_same.2 fun node hnode => node_sameOn h hf hb htemplate hbalanced hbalanced' henter hnode
  exact Simulation.runNodes hnodes rfl

end

theorem nested_sameOn (levels : Nat) :
    (localSimulation h c).Enters (lib.nested c levels) (lib'.nested c levels) := by
  induction levels with
  | zero =>
    intro e e' he w w' hw
    rw [nested, nested, h.maxDepth, he.label]
    exact .error _
  | succ levels ih =>
    intro e e' he w w' hw
    cases hw
    rw [nested, nested, ← he.nodes]
    exact nodes_sameOn h he.scope he.body he.template (nested_balanced lib c levels)
      (nested_balanced lib' c levels) ih w

/-- A template among the bodies, with attributes that differ in hidden names only. -/
theorem render_eq_of_sameOn (c : RenderConfig) {t : Compiled} (ht : bodies t.body) {a a' : Store}
    (ha : ∀ name, ¬hidden name → a.get? name = a'.get? name) : lib.render c t a = lib'.render c t a' := by
  have hscope : Scope.SameBut hidden (Frame.mk t.name [a]).scope (Frame.mk t.name [a']).scope :=
    Scope.sameBut_singleton ha
  have hrun := nodes_sameOn h hscope ht rfl (nested_balanced lib c lib.maxDepth)
    (nested_balanced lib' c lib.maxDepth) (nested_sameOn h lib.maxDepth) .empty
  rw [render, render, ← h.maxDepth]
  exact congrArg (Except.map Writer.text) (hrun.eq_of fun _ _ h => h)

end Library

/-! ## Attributes without a mention -/

/-- **An attribute that is not mentioned has no influence.** If no body that the instance's template may run,
in its group, mentions the name, then the instance renders to the same text or fails with the same error,
whatever the name is bound to, or if it is not bound at all. -/
theorem Instance.render_eq_of_not_mentioned (g : Group) (i : Instance) (c : RenderConfig) (name : String)
    (hname : ∀ b, (i.library g).MayRun i.template.body b → name ∉ (i.library g).mentioned b) (a a' : Store)
    (ha : ∀ other, other ≠ name → a.get? other = a'.get? other) :
    { i with attributes := a }.render g c = { i with attributes := a' }.render g c := by
  have hsame : (i.library g).SameOn (i.library g) ((i.library g).MayRun i.template.body) (· = name) :=
    { compiled := rfl
      adaptors := rfl
      renderers := rfl
      maxDepth := rfl
      override? := fun _ _ _ _ => rfl
      closed := fun _ _ hb hstep => hb.tail hstep
      visible := by
        rintro b other hb hmention rfl
        exact hname b hb hmention }
  exact Library.render_eq_of_sameOn hsame c .refl ha

/-- A list whose elements are bound to a name that no path has, and a call of a template with a default. -/
theorem Instance.render_eq_of_not_mentioned_row :
    let place : Span := ⟨0, 0⟩
    let g : Group := { templates :=
      [("row", { params := [⟨"x", none⟩, ⟨"q", some "d"⟩], body := "[<x><q>]", delimiters := {} })] }
    let index : List (Node Span) := [.expression (.path ⟨"i", place, []⟩) [] {} place]
    let nodes : List (Node Span) := [.expression (.path ⟨"xs", place, []⟩) [.anonymous ["n"] index place] {} place,
      .expression (.call "row" place [.path ⟨"xs", place, [.index 1]⟩]) [] {} place]
    let i : Instance := { template := ⟨"page", none, nodes, {}, ""⟩ }
    let a := Store.ofList [("xs", .list [.int 1, .int 2])]
    let a' := a.set "n" (.str "hidden")
    (∀ b, (i.library g).MayRun i.template.body b → "n" ∉ (i.library g).mentioned b) ∧
    (∀ other, other ≠ "n" → a.get? other = a'.get? other) ∧
    { i with attributes := a }.render g {} = .ok "12[2d]" ∧
    { i with attributes := a' }.render g {} = .ok "12[2d]" := by
  intro place g index nodes i a a'
  have hwithin : (i.library g).allWithin (fun b => "n" ∉ (i.library g).mentioned b) 2 i.template.body = true := by
    decide +kernel
  have hname : ∀ b, (i.library g).MayRun i.template.body b → "n" ∉ (i.library g).mentioned b :=
    fun b hb => of_decide_eq_true (hb.of_allWithin hwithin)
  have ha : ∀ other, other ≠ "n" → a.get? other = a'.get? other := by
    intro other hother
    exact (Store.get?_set_of_ne hother a (.str "hidden")).symm
  have hshown : { i with attributes := a }.render g {} = .ok "12[2d]" := by decide +kernel
  refine ⟨hname, ha, hshown, ?_⟩
  rw [← Instance.render_eq_of_not_mentioned g i {} "n" hname a a' ha]
  exact hshown

end Stencil

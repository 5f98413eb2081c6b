import Stencil.Instance
import Stencil.Proofs.Evaluation.Simulation

/-!
# Replacing a region is substitution

A body that replaces a region of a template is looked up while the template runs, under the template's name.
The same can be had by writing it into the trees: every region of that name, in the template and in the bodies
that replace other regions of it, gets the body as its own text, and nothing replaces it any more
(`Library.substitute`). Every template then comes to the same text or error (`Group.render_substitute`). The
body must not have a region of the same name, or it would be written into itself.

Bodies of the two runs correspond one to one, at the same depth and under the same names
(`Replacement.entry`); that is what the simulation needs.
-/

namespace Stencil

open Template (Argument Compiled Node Options Primary Target)
open Writer (Balanced)

/-! ## Trees -/

namespace Template

variable {σ : Type} (replaced : String → Bool) (body : List (Node σ))

mutual

/-- The node, where every region that is replaced has the body as its own text. -/
def Node.fill : Node σ → Node σ
  | .literal text place => .literal text place
  | .slot name place => if replaced name then .region name body place else .slot name place
  | .region name own place => .region name (if replaced name then body else Node.fillAll own) place
  | .expression p targets o place => .expression p (Target.fillAll targets) o place

def Node.fillAll : List (Node σ) → List (Node σ)
  | [] => []
  | n :: ns => Node.fill n :: Node.fillAll ns

def Target.fill : Target σ → Target σ
  | .anonymous params own place => .anonymous params (Node.fillAll own) place
  | .named name place => .named name place

def Target.fillAll : List (Target σ) → List (Target σ)
  | [] => []
  | t :: ts => Target.fill t :: Target.fillAll ts

end

theorem Node.fillAll_eq (ns : List (Node σ)) :
    Node.fillAll replaced body ns = ns.map (Node.fill replaced body) := by
  induction ns with
  | nil => rfl
  | cons n ns ih => rw [Node.fillAll, List.map_cons, ih]

theorem Target.fillAll_eq (ts : List (Target σ)) :
    Target.fillAll replaced body ts = ts.map (Target.fill replaced body) := by
  induction ts with
  | nil => rfl
  | cons t ts ih => rw [Target.fillAll, List.map_cons, ih]

mutual

/-- Nothing changes in a tree without such a region. -/
theorem Node.fill_eq_self {n : Node σ} (h : ∀ name ∈ n.regions, replaced name = false) :
    n.fill replaced body = n := by
  match n with
  | .literal text place => rfl
  | .slot name place => rw [Node.fill, if_neg (by simp [h name (by simp [Node.regions])])]
  | .region name own place =>
    rw [Node.regions, List.forall_mem_cons] at h
    rw [Node.fill, if_neg (by simp [h.1]), Node.fillAll_eq_self h.2]
  | .expression p targets o place => rw [Node.fill, Target.fillAll_eq_self h]

theorem Node.fillAll_eq_self {ns : List (Node σ)} (h : ∀ name ∈ Node.regionsAll ns, replaced name = false) :
    Node.fillAll replaced body ns = ns := by
  match ns with
  | [] => rfl
  | n :: ns =>
    rw [Node.regionsAll, List.forall_mem_append] at h
    rw [Node.fillAll, Node.fill_eq_self h.1, Node.fillAll_eq_self h.2]

theorem Target.fill_eq_self {t : Target σ} (h : ∀ name ∈ t.regions, replaced name = false) :
    t.fill replaced body = t := by
  match t with
  | .anonymous params own place => rw [Target.fill, Node.fillAll_eq_self h]
  | .named name place => rfl

theorem Target.fillAll_eq_self {ts : List (Target σ)}
    (h : ∀ name ∈ Target.regionsAll ts, replaced name = false) : Target.fillAll replaced body ts = ts := by
  match ts with
  | [] => rfl
  | t :: ts =>
    rw [Target.regionsAll, List.forall_mem_append] at h
    rw [Target.fillAll, Target.fill_eq_self h.1, Target.fillAll_eq_self h.2]

end

end Template

/-! ## Libraries -/

/-- A body that replaces a region of a template. -/
structure Replacement where
  template : String
  region : String
  nodes : List (Node Span)

namespace Replacement

variable (r : Replacement)

/-- Whether the region of the template is the one that is replaced. -/
def replaces (template region : String) : Bool :=
  template == r.template && region == r.region

/-- The nodes that run in the template, with the replacement written into them. -/
def fill (template : String) (ns : List (Node Span)) : List (Node Span) :=
  Node.fillAll (r.replaces template) r.nodes ns

def entry (e : Entry) : Entry :=
  { e with nodes := r.fill e.frame.template e.nodes }

theorem replaces_iff {template region : String} :
    r.replaces template region = true ↔ template = r.template ∧ region = r.region := by
  rw [replaces, Bool.and_eq_true, beq_iff_eq, beq_iff_eq]

/-- The replacement itself stays as it is if it has no region of the name. -/
theorem fill_nodes (h : r.region ∉ Node.regionsAll r.nodes) (template : String) :
    r.fill template r.nodes = r.nodes :=
  Node.fillAll_eq_self _ _ fun _ hname =>
    Bool.eq_false_iff.2 fun hreplaces => h ((r.replaces_iff.1 hreplaces).2 ▸ hname)

end Replacement

namespace Library

/-- The library without the replacement, but with its nodes written into the trees of the template and of the
bodies that replace other regions of it. -/
def substitute (lib : Library) (r : Replacement) : Library :=
  { lib with
    compiled := fun name => (lib.compiled name).map fun t => { t with nodes := r.fill t.name t.nodes }
    override? := fun template region =>
      if r.replaces template region then none
      else (lib.override? template region).map fun t => { t with nodes := r.fill template t.nodes } }

section
variable {lib : Library} {r : Replacement} {f : Frame}

theorem compiled_substitute (name : String) : (lib.substitute r).compiled name =
    (lib.compiled name).map fun t => { t with nodes := r.fill t.name t.nodes } :=
  rfl

theorem override?_substitute (template region : String) : (lib.substitute r).override? template region =
    if r.replaces template region then none
    else (lib.override? template region).map fun t => { t with nodes := r.fill template t.nodes } :=
  rfl

/-! ## Bodies -/

theorem callEntry_substitute (name : String) (args : List (Argument Span)) :
    (lib.substitute r).callEntry f name args = (lib.callEntry f name args).map r.entry := by
  rw [callEntry, callEntry, compiled_substitute]
  cases lib.compiled name with
  | error e => rfl
  | ok t =>
    -- The parameters and the adaptors are the same, so the bindings are.
    change (do
      let bindings ← lib.bindArguments f name t.parameters args
      return r.entry (templateEntry f t (bindDefaults f t.parameters (!args.isEmpty) bindings))) =
      Except.map r.entry (do
        let bindings ← lib.bindArguments f name t.parameters args
        return templateEntry f t (bindDefaults f t.parameters (!args.isEmpty) bindings))
    cases lib.bindArguments f name t.parameters args with
    | error e => rfl
    | ok bindings => rfl

theorem targetEntry_substitute (target : Target Span) (v : Value) (index : Nat) :
    (lib.substitute r).targetEntry f (target.fill (r.replaces f.template) r.nodes) v index =
      (lib.targetEntry f target v index).map r.entry := by
  cases target with
  | anonymous names body place => rfl
  | named name place =>
    rw [Target.fill, targetEntry, targetEntry, compiled_substitute]
    cases lib.compiled name with
    | error e => rfl
    | ok t => rfl

/-- A region of a template that is replaced runs the replacement in both libraries: looked up in one, as its
own text in the other. -/
theorem regionEntry_substitute
    (hoverride : ∃ t, lib.override? r.template r.region = some t ∧ t.nodes = r.nodes)
    (hregion : r.region ∉ Node.regionsAll r.nodes) (name : String) (body : Option (List (Node Span))) :
    (lib.substitute r).regionEntry f name
        (if r.replaces f.template name then some r.nodes else body.map (r.fill f.template)) =
      (lib.regionEntry f name body).map r.entry := by
  rw [regionEntry, regionEntry, override?_substitute]
  cases hr : r.replaces f.template name with
  | true =>
    obtain ⟨htemplate, rfl⟩ := r.replaces_iff.1 hr
    obtain ⟨t, ht, hnodes⟩ := hoverride
    simp [htemplate, ht, hnodes, Replacement.entry, r.fill_nodes hregion]
  | false =>
    cases lib.override? f.template name with
    | none => cases body <;> simp [Replacement.entry]
    | some t => simp [Replacement.entry]

end

/-! ## Runs -/

section
variable (lib : Library) (r : Replacement) (c : RenderConfig)

def substitution : Simulation lib (lib.substitute r) c c :=
  .equal (fun _ => False) (fun e e' => e' = r.entry e) rfl

variable {lib r c} {f : Frame} {enter enter' : Runner}

theorem primary_substitute (p : Primary Span) :
    Agree ((substitution lib r c).RelatedOutcomes f f) (lib.primary f p) ((lib.substitute r).primary f p) := by
  cases p with
  | path p => exact Simulation.relatedOutcomes_path (s := substitution lib r c) (.rfl' (fun _ => rfl) _)
  | call name place args =>
    refine Simulation.relatedOutcomes_call (s := substitution lib r c) ?_
    rw [callEntry_substitute]
    exact .map_self _ _
  | function fn arg =>
    exact Simulation.relatedOutcomes_function (s := substitution lib r c) (.rfl' (fun _ => rfl) _)

theorem targets_substitute (targets : List (Target Span)) :
    List.Forall₂ ((substitution lib r c).RelatedTargets f f) targets
      (Target.fillAll (r.replaces f.template) r.nodes targets) := by
  rw [Target.fillAll_eq, List.forall₂_map_right_iff]
  refine List.forall₂_same.2 fun target _ v v' index hv => ?_
  cases hv
  rw [targetEntry_substitute]
  exact .map_self _ _

section
variable (hoverride : ∃ t, lib.override? r.template r.region = some t ∧ t.nodes = r.nodes)
  (hregion : r.region ∉ Node.regionsAll r.nodes)
include hoverride hregion

theorem region_substitute (name : String) (body : Option (List (Node Span))) :
    Option.Rel (substitution lib r c).entry (lib.regionEntry f name body)
      ((lib.substitute r).regionEntry f name
        (if r.replaces f.template name then some r.nodes else body.map (r.fill f.template))) := by
  rw [regionEntry_substitute hoverride hregion]
  cases lib.regionEntry f name body with
  | none => exact .none
  | some e => exact .some rfl

variable (hb : ∀ entry, Balanced (enter entry)) (hb' : ∀ entry, Balanced (enter' entry))
  (henter : (substitution lib r c).Enters enter enter')
include hb hb' henter

theorem node_substitute (n : Node Span) :
    (substitution lib r c).RelatedNodes enter enter' f f n (n.fill (r.replaces f.template) r.nodes) := by
  cases n with
  | literal text place => exact Simulation.relatedNodes_literal text place place
  | slot name place =>
    have h := region_substitute (f := f) (c := c) hoverride hregion name none
    intro w w' hw
    rw [Node.fill]
    cases hr : r.replaces f.template name with
    | true => exact Simulation.runRegion henter (by rwa [hr] at h) hw
    | false => exact Simulation.runRegion henter (by rwa [hr] at h) hw
  | region name body place =>
    have h := region_substitute (f := f) (c := c) hoverride hregion name (some body)
    intro w w' hw
    rw [Node.fill]
    cases hr : r.replaces f.template name with
    | true => exact Simulation.runRegion henter (by rwa [hr] at h) hw
    | false => exact Simulation.runRegion henter (by rwa [hr] at h) hw
  | expression p targets o place =>
    exact Simulation.relatedNodes_expression henter hb hb' (primary_substitute p) (targets_substitute targets)
      rfl

/-- Nodes and the same nodes with the replacement written into them write the same. -/
theorem nodes_substitute (ns : List (Node Span)) (w : Writer) :
    Agree Eq (lib.runNodes c enter f ns w)
      ((lib.substitute r).runNodes c enter' f (r.fill f.template ns) w) := by
  have hns : List.Forall₂ ((substitution lib r c).RelatedNodes enter enter' f f) ns
      (r.fill f.template ns) := by
    rw [Replacement.fill, Node.fillAll_eq, List.forall₂_map_right_iff]
    exact List.forall₂_same.2 fun n _ => node_substitute hoverride hregion hb hb' henter n
  exact Simulation.runNodes hns rfl

omit hb hb' henter

theorem nested_substitute (levels : Nat) :
    (substitution lib r c).Enters (lib.nested c levels) ((lib.substitute r).nested c levels) := by
  induction levels with
  | zero =>
    rintro e _ rfl w _ rfl
    exact .error _
  | succ levels ih =>
    rintro e _ rfl w _ rfl
    exact nodes_substitute hoverride hregion (nested_balanced lib c levels)
      (nested_balanced (lib.substitute r) c levels) ih e.nodes w

theorem render_fill (t : Compiled) (attributes : Store) :
    (lib.substitute r).render c { t with nodes := r.fill t.name t.nodes } attributes =
      lib.render c t attributes := by
  have hrun := nodes_substitute (f := ⟨t.name, [attributes]⟩) hoverride hregion
    (nested_balanced lib c lib.maxDepth) (nested_balanced (lib.substitute r) c lib.maxDepth)
    (nested_substitute hoverride hregion lib.maxDepth) t.nodes .empty
  exact congrArg (Except.map Writer.text) (hrun.eq_of fun _ _ h => h).symm

end

end

end Library

/-! ## Groups -/

/-- **Replacing a region is substitution.** A group where a region of a template is replaced by a body without
a region of that name, against the same group without the replacement, where the body is written into every
region of the name instead: in the template's tree and in the bodies that replace its other regions. Every
template of the group, with any attributes, comes to the same text or to the same error. -/
theorem Group.render_substitute (g : Group) {template region : String} {body : Compiled}
    (hoverride : g.override? template region = some body) (hregion : region ∉ body.regions)
    (c : RenderConfig) (name : String) (attributes : Store) :
    let lib := g.library.substitute ⟨template, region, body.nodes⟩
    (do lib.render c (← lib.compiled name) attributes) = (do g.render c (← g.compiled name) attributes) := by
  intro lib
  have hcompiled : lib.compiled name = (g.compiled name).map fun t =>
      { t with nodes := Replacement.fill ⟨template, region, body.nodes⟩ t.name t.nodes } := rfl
  rw [hcompiled]
  cases g.compiled name with
  | error e => rfl
  | ok t => exact Library.render_fill ⟨body, hoverride, rfl⟩ hregion t attributes

/-- A region that is replaced inside the body of another replacement, and in a target, where it has a text of
its own. -/
theorem Group.render_substitute_foot :
    let place : Span := ⟨0, 0⟩
    let body : Compiled := ⟨"page.foot", none,
      [.literal "-" place, .expression (.path ⟨"n", place, []⟩) [] {} place], {}, "-<n>"⟩
    let g : Group := {
      templates := [("page", { params := [], body := "<@head()><n:{x|<@foot>own<@end>}>", delimiters := {} })]
      overrides := [(("page", "head"), ⟨"page.head", none, [.literal "=" place, .slot "foot" place], {},
        "=<@foot()>"⟩), (("page", "foot"), body)] }
    let lib := g.library.substitute ⟨"page", "foot", body.nodes⟩
    let attributes := Store.ofList [("n", .list [.int 1, .int 2])]
    g.override? "page" "foot" = some body ∧ "foot" ∉ body.regions ∧
    (do g.render {} (← g.compiled "page") attributes) = .ok "=-12-12-12" ∧
    lib.override? "page" "foot" = none ∧
    (do lib.render {} (← lib.compiled "page") attributes) = .ok "=-12-12-12" := by
  intro place body g lib attributes
  have hoverride : g.override? "page" "foot" = some body := rfl
  have hregion : "foot" ∉ body.regions := by decide
  have hrender : (do g.render {} (← g.compiled "page") attributes) = .ok "=-12-12-12" := by decide +kernel
  refine ⟨hoverride, hregion, hrender, rfl, ?_⟩
  rw [g.render_substitute hoverride hregion {} "page" attributes, hrender]

end Stencil

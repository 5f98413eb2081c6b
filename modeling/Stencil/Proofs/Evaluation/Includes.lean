import Stencil.Proofs.Evaluation.Locality
import Stencil.Proofs.Layout.Alike

/-!
# Including a template

A template that includes another and nothing else runs the body of the other one level deeper, inside an
expression, with an empty store in scope and under the other's name. None of this shows in the output: the
expression is at the beginning of the output (`runNodes_alike`), an empty store binds nothing
(`runNodes_empty_cons`), and only regions ask for the name of the template that runs them
(`runNodes_renamed`). Main statement: the include comes to what the body comes to with one level less
(`Group.render_include`).
-/

namespace Stencil

open Template (Argument Compiled Node Options Parameter Primary Target)
open Writer (Alike Balanced)

/-! ## Trees without regions, and of one node -/

namespace Template

variable {σ : Type}

theorem Node.regions_eq_nil_of_mem {ns : List (Node σ)} (h : Node.regionsAll ns = []) {node : Node σ}
    (hnode : node ∈ ns) : node.regions = [] := by
  induction ns with
  | nil => cases hnode
  | cons n ns ih =>
    rw [Node.regionsAll, List.append_eq_nil_iff] at h
    rcases List.mem_cons.1 hnode with rfl | hnode
    · exact h.1
    · exact ih h.2 hnode

theorem Target.regions_eq_nil_of_mem {ts : List (Target σ)} (h : Target.regionsAll ts = []) {target : Target σ}
    (ht : target ∈ ts) : target.regions = [] := by
  induction ts with
  | nil => cases ht
  | cons t ts ih =>
    rw [Target.regionsAll, List.append_eq_nil_iff] at h
    rcases List.mem_cons.1 ht with rfl | ht
    · exact h.1
    · exact ih h.2 ht

/-- What an expression without targets starts from and its options, where it is the only node. -/
def Node.only? : List (Node Unit) → Option (Primary Unit × Options)
  | [.expression p [] o _] => some (p, o)
  | _ => none

theorem Node.eq_of_only? {ns : List (Node Unit)} {p : Primary Unit} {o : Options} (h : Node.only? ns = some (p, o)) :
    ns = [.expression p [] o ()] := by
  unfold Node.only? at h
  split at h
  · cases h
    rfl
  · cases h

end Template

/-- The bodies are the same and see the same attributes; they run in templates of different names only if no
region is in them. -/
structure Entry.Renamed (e e' : Entry) : Prop where
  nodes : e.nodes = e'.nodes
  scope : e.frame.scope = e'.frame.scope
  template : e.frame.template = e'.frame.template ∨ Node.regionsAll e.nodes = []

namespace Library

variable (lib : Library) (c : RenderConfig)

/-! ## Inside an expression at the beginning -/

/-- Runs with equal values, but on alike writers. -/
def alikeSimulation : Simulation lib lib c c where
  __ : Simulation lib lib c c :=
    .equal (fun _ => False) (Entry.Related Eq (Node.Same id)) (lib.parallel_self c fun _ => False).library.renderers
  writer := Alike
  empty := .refl Writer.aligned_empty
  text hw := by rw [Writer.text, Writer.text, hw.buffer]; rfl
  write hw cs := hw.write cs
  render := by
    rintro v _ rfl o _ rfl
    exact .rfl' (fun t w v hw => hw.write t.toList) _
  elements := by
    rintro o _ rfl r r' xs xs' hb hb' hxs w v hw
    have hwritten := Alike.writeElements (layout c o) hb hb' hxs true (hw.beginExpression o.anchor)
    exact hwritten.bind fun _ _ h => .ok h.endExpression

theorem alikeSimulation_parallel : (lib.alikeSimulation c).Parallel id where
  library := .refl id lib
  options _ _ ho := ho
  entry := rfl
  respect _ _ hv _ := hv ▸ .rfl' (fun _ => rfl) _

/-- On alike writers, nodes come to the same text. -/
theorem runNodes_alike (levels : Nat) (f : Frame) (ns : List (Node Span)) {w v : Writer} (h : Alike w v) :
    Agree Alike (lib.runNodes c (lib.nested c levels) f ns w) (lib.runNodes c (lib.nested c levels) f ns v) := by
  have hscope : Scope.Related Eq f.scope f.scope :=
    List.forall₂_same.2 fun s _ => Store.related_refl (fun _ => rfl) s
  have hnodes : Node.Same id ns ns := rfl
  exact (lib.alikeSimulation_parallel c).nodes rfl hscope (nested_balanced lib c levels)
    (nested_balanced lib c levels) ((lib.alikeSimulation_parallel c).nested levels) hnodes h

/-! ## Inside an empty store -/

/-- An empty store in scope makes no difference. -/
theorem runNodes_empty_cons (levels : Nat) (template : String) (s : Scope) (ns : List (Node Span)) (w : Writer) :
    lib.runNodes c (lib.nested c levels) ⟨template, .empty :: s⟩ ns w =
      lib.runNodes c (lib.nested c levels) ⟨template, s⟩ ns w := by
  have hsame : lib.SameOn lib (fun _ => True) (fun _ => False) :=
    .self (fun _ _ _ _ => trivial) fun _ _ _ _ h => h
  have hscope : Scope.SameBut (fun _ => False) (Frame.mk template (.empty :: s)).scope (Frame.mk template s).scope :=
    fun _ _ => rfl
  have hrun : Agree Eq (lib.runNodes c (lib.nested c levels) ⟨template, .empty :: s⟩ ns w)
      (lib.runNodes c (lib.nested c levels) ⟨template, s⟩ ns w) :=
    nodes_sameOn hsame hscope trivial rfl (nested_balanced lib c levels) (nested_balanced lib c levels)
      (nested_sameOn hsame levels) w
  exact hrun.eq_of fun _ _ h => h

/-! ## In a template of another name -/

def renamedSimulation (cut : Error → Prop) : Simulation lib lib c c :=
  .equal cut Entry.Renamed (lib.parallel_self c cut).library.renderers

section
variable {lib : Library} {c : RenderConfig} {enter enter' : Runner} {f f' : Frame} (hscope : f.scope = f'.scope)
include hscope

theorem callEntry_renamed {cut : Error → Prop} (name : String) (args : List (Argument Span)) :
    AgreeUnless cut Entry.Renamed (lib.callEntry f name args) (lib.callEntry f' name args) := by
  -- What a call runs and binds depends on the scope alone.
  have hcall : lib.callEntry f name args = lib.callEntry f' name args := by
    obtain ⟨template, scope⟩ := f
    cases hscope
    rfl
  rw [hcall]
  exact .rfl' (fun _ => ⟨rfl, rfl, .inl rfl⟩) _

theorem primary_renamed {cut : Error → Prop} (p : Primary Span) :
    AgreeUnless cut ((lib.renamedSimulation c cut).RelatedOutcomes f f') (lib.primary f p) (lib.primary f' p) := by
  cases p with
  | path p =>
    refine Simulation.relatedOutcomes_path (s := lib.renamedSimulation c cut) ?_
    rw [hscope]
    exact .rfl' (fun _ => rfl) _
  | call name place args =>
    exact Simulation.relatedOutcomes_call (s := lib.renamedSimulation c cut) (callEntry_renamed hscope name args)
  | function function arg =>
    refine Simulation.relatedOutcomes_function (s := lib.renamedSimulation c cut) ?_
    rw [hscope]
    exact .rfl' (fun _ => rfl) _

theorem targetEntry_renamed {cut : Error → Prop} {target : Target Span}
    (h : f.template = f'.template ∨ target.regions = []) (v : Value) (index : Nat) :
    AgreeUnless cut Entry.Renamed (lib.targetEntry f target v index) (lib.targetEntry f' target v index) := by
  cases target with
  | anonymous names body place => exact .ok ⟨rfl, congrArg (_ :: ·) hscope, h⟩
  | named name place =>
    rw [targetEntry, targetEntry]
    cases lib.compiled name with
    | error e => exact .error e
    | ok t => exact .ok ⟨rfl, congrArg (_ :: ·) hscope, .inl rfl⟩

theorem regionEntry_renamed (htemplate : f.template = f'.template) (name : String)
    (body : Option (List (Node Span))) :
    Option.Rel Entry.Renamed (lib.regionEntry f name body) (lib.regionEntry f' name body) := by
  rw [regionEntry, regionEntry, ← htemplate]
  generalize (((lib.override? f.template name).map (·.nodes)) <|> body) = ns?
  cases ns? with
  | none => exact .none
  | some ns => exact .some ⟨rfl, hscope, .inl htemplate⟩

/-- A node runs alike in templates of different names if it has no region. -/
theorem node_renamed {cut : Error → Prop} (hbalanced : ∀ entry, Balanced (enter entry))
    (hbalanced' : ∀ entry, Balanced (enter' entry))
    (henter : (lib.renamedSimulation c cut).Enters enter enter') {node : Node Span}
    (h : f.template = f'.template ∨ node.regions = []) :
    (lib.renamedSimulation c cut).RelatedNodes enter enter' f f' node node := by
  cases node with
  | literal text place => exact Simulation.relatedNodes_literal text place place
  | slot name place =>
    have htemplate : f.template = f'.template := h.resolve_right (List.cons_ne_nil _ _)
    exact fun w w' hw => Simulation.runRegion henter (regionEntry_renamed hscope htemplate name none) hw
  | region name body place =>
    have htemplate : f.template = f'.template := h.resolve_right (List.cons_ne_nil _ _)
    exact fun w w' hw => Simulation.runRegion henter (regionEntry_renamed hscope htemplate name body) hw
  | expression p targets o place =>
    refine Simulation.relatedNodes_expression henter hbalanced hbalanced' (primary_renamed hscope p) ?_ rfl
    refine List.forall₂_same.2 fun target ht v v' index hv => ?_
    cases hv
    exact targetEntry_renamed hscope (h.imp id fun hnone => Target.regions_eq_nil_of_mem hnone ht) v index

end

/-- Bodies come to the same in templates of different names, under any limits, unless they are cut off. -/
theorem nested_renamed (limit limit' levels : Nat) :
    (lib.renamedSimulation c (IsCutOff limit)).Enters
      ((lib.withMaxDepth limit).nested c levels) ((lib.withMaxDepth limit').nested c levels) := by
  induction levels with
  | zero => exact fun {entry _} _ {_ _} _ => .cut _ ⟨entry.label, rfl⟩
  | succ levels ih =>
    intro e e' he w w' hw
    rw [nested, nested, runNodes_withMaxDepth, runNodes_withMaxDepth, ← he.nodes]
    refine Simulation.runNodes (List.forall₂_same.2 fun node hnode => ?_) hw
    exact node_renamed he.scope (nested_balanced _ c levels) (nested_balanced _ c levels) ih
      (he.template.imp id fun hnone => Node.regions_eq_nil_of_mem hnone hnode)

/-- Nodes without regions come to the same in templates of different names, unless they are cut off. -/
theorem runNodes_renamed {lib : Library} {c : RenderConfig} {ns : List (Node Span)} (h : Node.regionsAll ns = [])
    (limit limit' levels : Nat) (template template' : String) (s : Scope) (w : Writer) :
    AgreeUnless (IsCutOff limit) Eq
      ((lib.withMaxDepth limit).runNodes c ((lib.withMaxDepth limit).nested c levels) ⟨template, s⟩ ns w)
      ((lib.withMaxDepth limit').runNodes c ((lib.withMaxDepth limit').nested c levels) ⟨template', s⟩ ns w) := by
  have hbody : Entry.Renamed ⟨template, ⟨template, s⟩, ns⟩ ⟨template', ⟨template', s⟩, ns⟩ := ⟨rfl, rfl, .inr h⟩
  exact nested_renamed lib c limit limit' (levels + 1) hbody rfl

/-! ## Calls without arguments -/

theorem bindDefaults_eq_self {params : List Parameter} (h : ∀ p ∈ params, p.default? = none) (f : Frame)
    (called : Bool) (s : Store) : bindDefaults f params called s = s := by
  rw [bindDefaults]
  induction params with
  | nil => rfl
  | cons p params ih =>
    obtain ⟨hp, hparams⟩ := List.forall_mem_cons.1 h
    rw [List.foldl_cons, hp]
    exact ih hparams

/-- A call without arguments binds nothing, where no parameter has a default. -/
theorem callEntry_nil {lib : Library} {name : String} {t : Compiled} (hcompiled : lib.compiled name = .ok t)
    (hdefaults : ∀ p ∈ t.parameters, p.default? = none) (f : Frame) :
    lib.callEntry f name [] = .ok (templateEntry f t .empty) := by
  have hbindings : lib.bindArguments f name t.parameters [] = .ok .empty := rfl
  rw [callEntry, hcompiled]
  simp only [bind, Except.bind, hbindings, bindDefaults_eq_self hdefaults]
  rfl

/-- A call at the beginning of the output is entered there, inside an expression. -/
theorem runNodes_call (levels : Nat) (f : Frame) (name : String) (place place' : Span) :
    lib.runNodes c (lib.nested c levels) f [.expression (.call name place []) [] {} place'] .empty = (do
      let entry ← lib.callEntry f name []
      return (← lib.nested c levels entry (Writer.empty.beginExpression false)).endExpression) := by
  have houtcome : lib.outcome c (lib.nested c levels) f (.call name place []) [] = .ok (.one (.call name [])) := rfl
  have hbalanced : Balanced (lib.writeItem c (lib.nested c levels) f none (.call name [])) :=
    writeItem_balanced (nested_balanced lib c levels) none _
  have hvalid : (Writer.empty.beginExpression false).Valid := (Writer.aligned_empty.beginExpression false).valid
  have hwritten : (Writer.empty.beginExpression false).writeElements (layout c {})
      (lib.writeItem c (lib.nested c levels) f none) true [.call name []] =
      (do lib.nested c levels (← lib.callEntry f name []) (Writer.empty.beginExpression false)) := by
    rw [Writer.writeElements_cons_of_width_eq_none rfl hbalanced true [] hvalid]
    exact bind_pure _
  rw [runNodes, List.foldlM_cons, runNode, runExpression_eq, houtcome]
  simp only [List.foldlM_nil, bind_pure]
  change (do return (← (Writer.empty.beginExpression false).writeElements (layout c {})
    (lib.writeItem c (lib.nested c levels) f none) true [.call name []]).endExpression) = _
  rw [hwritten, bind_assoc]

/-- A template that calls another one and nothing else comes to what the nodes of that one come to with one
level less. -/
theorem render_call {lib : Library} {c : RenderConfig} {name : String} {t : Compiled}
    (hcompiled : lib.compiled name = .ok t) (hdefaults : ∀ p ∈ t.parameters, p.default? = none)
    (hregions : t.regions = []) (limit : Nat) (attributes : Store) {call body : Compiled} {place place' : Span}
    (hcall : call.nodes = [.expression (.call name place []) [] {} place']) (hbody : body.nodes = t.nodes) :
    let x := (lib.withMaxDepth (limit + 1)).render c call attributes
    let y := (lib.withMaxDepth limit).render c body attributes
    x = y ∨ (∃ label, x = .error (.recursionLimit (limit + 1) label)) ∧
      ∃ label, y = .error (.recursionLimit limit label) := by
  intro x y
  let lib' := lib.withMaxDepth (limit + 1)
  let run (scope : Scope) := lib'.runNodes c (lib'.nested c limit) ⟨t.name, scope⟩ t.nodes
  have hentry : lib'.callEntry ⟨call.name, [attributes]⟩ name [] =
      .ok (templateEntry ⟨call.name, [attributes]⟩ t .empty) := callEntry_nil hcompiled hdefaults _
  have hx : x = (do return (← run [attributes] .empty).text) := by
    calc x = (do return (← run [.empty, attributes] (Writer.empty.beginExpression false)).endExpression.text) := by
          change (do return (← lib'.runNodes c (lib'.nested c (limit + 1)) _ call.nodes .empty).text) = _
          rw [hcall, runNodes_call, hentry]
          exact bind_assoc (lib'.nested c (limit + 1) (templateEntry ⟨call.name, [attributes]⟩ t .empty)
            (Writer.empty.beginExpression false)) (fun w => pure w.endExpression) (fun w => pure w.text)
      _ = (do return (← run [.empty, attributes] .empty).text) :=
          (lib'.runNodes_alike c limit _ t.nodes (.beginExpression_empty false)).map_congr
            fun _ _ h => congrArg String.ofList (congrArg Array.toList h.buffer)
      _ = (do return (← run [attributes] .empty).text) := by
          rw [show run [.empty, attributes] .empty = run [attributes] .empty from runNodes_empty_cons ..]
  have hy : y = (do return (← (lib.withMaxDepth limit).runNodes c ((lib.withMaxDepth limit).nested c limit)
      ⟨body.name, [attributes]⟩ t.nodes .empty).text) := by
    rw [← hbody]
    rfl
  have hnodes : Node.regionsAll t.nodes = [] := hregions
  have hxy : AgreeUnless (IsCutOff (limit + 1)) Eq x y := by
    rw [hx, hy]
    exact (runNodes_renamed hnodes _ _ limit t.name body.name [attributes] .empty).bind
      fun w v h => .ok (congrArg Writer.text h)
  have hyx : AgreeUnless (IsCutOff limit) Eq y x := by
    rw [hx, hy]
    exact (runNodes_renamed hnodes _ _ limit body.name t.name [attributes] .empty).bind
      fun w v h => .ok (congrArg Writer.text h)
  rcases hxy.eq_or_cut hyx with h | ⟨⟨_, ⟨label, rfl⟩, hx⟩, _, ⟨label', rfl⟩, hy⟩
  · exact .inl h
  · exact .inr ⟨⟨label, hx⟩, label', hy⟩

end Library

/-! ## Declared templates -/

theorem Instance.inline_eq_ok {g : Group} {source : String} {i : Instance} (h : inline g source = .ok i) :
    g.inline source = .ok i.template ∧ i.standalone = false := by
  obtain ⟨t, ht, h⟩ := bind_eq_ok.1 h
  cases h
  exact ⟨ht, rfl⟩

namespace Group

theorem compiled_eq {g : Group} {name : String} {d : Definition} (hd : g.templates.lookup name = some d) :
    g.compiled name = Template.compile name d.body (some d.params) d.delimiters := by
  rw [compiled, hd]
  exact d.compile_eq name

/-- **An include without arguments is what it includes.** A source text that calls a declared template and does
nothing else, under a limit of nesting, against the source of that template as a text of its own, under a limit
that is lower by one. The declared template has the group's delimiters, no region and no parameter with a
default. Both come to the same text or stop with the same error, whatever the attributes, unless both are cut
off at their limits. A source that is malformed is no text of its own, and the call stops with its fault. -/
theorem render_include (g : Group) {name : String} {d : Definition} (hd : g.templates.lookup name = some d)
    (hdelimiters : d.delimiters = g.config.delimiters) (hdefaults : ∀ p ∈ d.params, p.default? = none)
    (hregions : ∀ t, g.compiled name = .ok t → t.regions = []) {source : String} {call : Instance}
    (hsource : Instance.inline g source = .ok call)
    (hcall : Node.eraseAll call.template.nodes = [.expression (.call name () []) [] {} ()])
    (attributes : Store) (c : RenderConfig) (limit : Nat) :
    let x := { call with attributes }.render (g.withMaxDepth (limit + 1)) c
    (∀ body, Instance.inline g d.body = .ok body →
      let y := { body with attributes }.render (g.withMaxDepth limit) c
      x = y ∨ (∃ label, x = .error (.recursionLimit (limit + 1) label)) ∧
        ∃ label, y = .error (.recursionLimit limit label)) ∧
    ∀ e, Instance.inline g d.body = .error e →
      ∃ fault, e = .malformed anonymousName fault ∧ x = .error (.malformed name fault) := by
  intro x
  have hcompiled := compiled_eq hd
  rw [Template.compile, hdelimiters] at hcompiled
  -- The places of the call do not matter, and there is only one tree without them.
  let place : Span := ⟨0, 0⟩
  let bare : Compiled := { call.template with nodes := [.expression (.call name place []) [] {} place] }
  have hx : x = (g.library.withMaxDepth (limit + 1)).render c bare attributes := by
    have hgroup := (Instance.inline_eq_ok hsource).2
    have hrender : x = (g.library.withMaxDepth (limit + 1)).render c call.template attributes :=
      Instance.render_withMaxDepth (i := { call with attributes }) hgroup g (limit + 1) c
    have hsame : Node.Same id call.template.nodes bare.nodes := hcall
    rw [hrender]
    exact Library.render_eq_of_same _ c (by rfl) hsame attributes
  cases htree : Template.parse g.config.delimiters d.body.toList with
  | ok nodes =>
    let t : Compiled := ⟨name, some d.params, nodes, g.config.delimiters, d.body⟩
    have hcompiled : g.library.compiled name = .ok t := by rw [htree] at hcompiled; exact hcompiled
    have hinline : g.inline d.body = .ok ⟨anonymousName, none, nodes, g.config.delimiters, d.body⟩ := by
      rw [inline, Template.compile, htree]
    constructor
    · intro body hbody y
      obtain ⟨hbody, hgroup⟩ := Instance.inline_eq_ok hbody
      have hnodes : body.template.nodes = nodes := by
        rw [hinline] at hbody
        exact congrArg Compiled.nodes (Except.ok.inj hbody).symm
      have hy : y = (g.library.withMaxDepth limit).render c body.template attributes :=
        Instance.render_withMaxDepth (i := { body with attributes }) hgroup g limit c
      rw [hx, hy]
      exact Library.render_call (t := t) hcompiled hdefaults (hregions t hcompiled) limit attributes rfl hnodes
    · intro e he
      rw [Instance.inline, hinline] at he
      cases he
  | error fault =>
    have hentry : ∀ f, (g.library.withMaxDepth (limit + 1)).callEntry f name [] = .error (.malformed name fault) := by
      intro f
      rw [htree] at hcompiled
      rw [Library.callEntry]
      change (g.compiled name >>= _) = _
      rw [hcompiled]
      rfl
    have hinline : g.inline d.body = .error (.malformed anonymousName fault) := by
      rw [inline, Template.compile, htree]
    constructor
    · intro body hbody
      rw [(Instance.inline_eq_ok hbody).1] at hinline
      cases hinline
    · intro e he
      rw [Instance.inline, hinline] at he
      cases he
      refine ⟨fault, rfl, ?_⟩
      rw [hx, Library.render]
      change (Library.runNodes _ c (Library.nested _ c (limit + 1)) _ bare.nodes .empty >>= _) = _
      rw [Library.runNodes_call, hentry]
      rfl

/-- A template with a list that breaks its line, and a call behind an indentation on a line of its own. -/
theorem render_include_page :
    let page : Definition :=
      { params := [⟨"xs", none⟩], body := "<xs; wrap=6, separator=\", \">\n\n  <tail()>.\n", delimiters := {} }
    let tail : Definition := { params := [], body := "<xs:\x7bx|- <x>\x7d; separator=\"\\n\">", delimiters := {} }
    let g : Group := { templates := [("page", page), ("tail", tail)] }
    let attributes := Store.ofList [("xs", .list [.int 10, .int 20, .int 30])]
    let text := "10,\n20, 30\n\n  - 10\n  - 20\n  - 30.\n"
    g.templates.lookup "page" = some page ∧ page.delimiters = g.config.delimiters ∧
    (∀ p ∈ page.params, p.default? = none) ∧ (∀ t, g.compiled "page" = .ok t → t.regions = []) ∧
    ∃ call body, Instance.inline g "<page()>" = .ok call ∧ Instance.inline g page.body = .ok body ∧
      Node.eraseAll call.template.nodes = [.expression (.call "page" () []) [] {} ()] ∧
      { body with attributes }.render (g.withMaxDepth 2) {} = .ok text ∧
      { call with attributes }.render (g.withMaxDepth 3) {} = .ok text := by
  intro page tail g attributes text
  have hd : g.templates.lookup "page" = some page := rfl
  have hdefaults : ∀ p ∈ page.params, p.default? = none := by decide
  have hregions : ∀ t, g.compiled "page" = .ok t → t.regions = [] := by
    intro t ht
    have hcompiled : (g.compiled "page").map Compiled.regions = .ok [] := by decide +kernel
    rw [ht] at hcompiled
    exact Except.ok.inj hcompiled
  have hcall : (Instance.inline g "<page()>" >>= fun i => pure (Node.only? (Node.eraseAll i.template.nodes))) =
      .ok (some (.call "page" () [], {})) := by decide +kernel
  have hbody : (Instance.inline g page.body >>= fun i => pure ({ i with attributes }.render (g.withMaxDepth 2) {})) =
      .ok (.ok text) := by decide +kernel
  obtain ⟨call, hsource, hcall⟩ := bind_eq_ok.1 hcall
  obtain ⟨body, hbody, hrender⟩ := bind_eq_ok.1 hbody
  have hcall := Node.eq_of_only? (Except.ok.inj hcall)
  have hrender := Except.ok.inj hrender
  refine ⟨hd, rfl, hdefaults, hregions, call, body, hsource, hbody, hcall, hrender, ?_⟩
  rcases (g.render_include hd rfl hdefaults hregions hsource hcall attributes {} 2).1 body hbody with h | ⟨-, _, h⟩
  · rw [h, hrender]
  · rw [hrender] at h
    cases h

end Group
end Stencil

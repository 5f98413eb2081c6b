import Stencil.Instance
import Stencil.Proofs.Evaluation.Simulation

/-!
# The limit of nesting

A template may call itself, be applied by one of its own targets, or fill a region with a text that has the
same region. Nothing but the limit of nesting ends such a run. `descend` is the recursion through bodies with
the depth counted from the outside and no other bound; unfolded once more than the limit says, it never comes
to what stands at its bottom (`unfolded_eq_nested`). A higher limit changes only the runs that were cut off
(`nested_withMaxDepth`). Both are put together for instances (`Instance.render_settled`).
-/

namespace Stencil

open Template (Compiled Node)

/-! ## The recursion through bodies -/

namespace Library

def withMaxDepth (lib : Library) (limit : Nat) : Library :=
  { lib with maxDepth := limit }

/-- Runs a body at a depth, counted from the outside; `deeper` runs the bodies that it enters, at their
depth. -/
def descend (lib : Library) (c : RenderConfig) (deeper : Nat → Runner) (depth : Nat) : Runner :=
  fun entry w =>
    if lib.maxDepth < depth then .error (.recursionLimit lib.maxDepth entry.label)
    else lib.runNodes c (deeper (depth + 1)) entry.frame entry.nodes w

/-- The recursion unfolded so many times, with `bottom` in place of everything that is deeper. -/
def unfolded (lib : Library) (c : RenderConfig) (bottom : Nat → Runner) : (unfoldings : Nat) → Nat → Runner
  | 0 => bottom
  | unfoldings + 1 => lib.descend c (lib.unfolded c bottom unfoldings)

/-- The levels that are left stand for the depth: a body at a depth has as many as there are from there to
the limit. With enough unfoldings the bottom is never reached. -/
theorem unfolded_eq_nested (lib : Library) (c : RenderConfig) (bottom : Nat → Runner) {unfoldings depth : Nat}
    (hdepth : depth ≤ lib.maxDepth + 1) (hunfoldings : lib.maxDepth + 1 < unfoldings + depth) :
    lib.unfolded c bottom unfoldings depth = lib.nested c (lib.maxDepth + 1 - depth) := by
  induction unfoldings generalizing depth with
  | zero => omega
  | succ unfoldings ih =>
    funext entry w
    rw [unfolded, descend]
    split
    · next h =>
      have hnone : lib.maxDepth + 1 - depth = 0 := by omega
      rw [hnone, nested]
    · next h =>
      have hlevels : lib.maxDepth + 1 - depth = lib.maxDepth + 1 - (depth + 1) + 1 := by omega
      rw [hlevels, nested, ih (by omega) (by omega)]

/-! ## A higher limit -/

/-- One level does not know the limit. -/
theorem runNodes_withMaxDepth (lib : Library) (limit : Nat) (c : RenderConfig) (enter : Runner) (f : Frame) :
    (lib.withMaxDepth limit).runNodes c enter f = lib.runNodes c enter f :=
  rfl

def IsCutOff (limit : Nat) (e : Error) : Prop :=
  ∃ label, e = .recursionLimit limit label

/-- Where more levels are left, bodies come to the same unless they are cut off with fewer. -/
theorem nested_withMaxDepth (lib : Library) (c : RenderConfig) (limit limit' : Nat) {levels levels' : Nat}
    (h : levels ≤ levels') :
    (Simulation.equal (IsCutOff limit) (Entry.Related Eq (Node.Same id)) rfl : Simulation lib lib c c).Enters
      ((lib.withMaxDepth limit).nested c levels) ((lib.withMaxDepth limit').nested c levels') := by
  induction levels generalizing levels' with
  | zero => exact fun {entry _} _ {_ _} _ => .cut _ ⟨entry.label, rfl⟩
  | succ levels ih =>
    obtain ⟨levels', rfl⟩ : ∃ n, levels' = n + 1 := ⟨levels' - 1, by omega⟩
    intro entry entry' he w w' hw
    rw [nested, nested, runNodes_withMaxDepth, runNodes_withMaxDepth]
    exact (lib.parallel_self c _).nodes he.template he.scope (nested_balanced _ c levels)
      (nested_balanced _ c levels') (ih (by omega)) he.nodes hw

/-- A run comes to the same under a higher limit, unless it is cut off. -/
theorem render_withMaxDepth (lib : Library) (c : RenderConfig) (t : Compiled) (attributes : Store)
    {limit limit' : Nat} (h : limit ≤ limit') :
    AgreeUnless (IsCutOff limit) Eq ((lib.withMaxDepth limit).render c t attributes)
      ((lib.withMaxDepth limit').render c t attributes) := by
  have hscope : Scope.Related Eq [attributes] [attributes] :=
    .cons (Store.related_refl (fun _ => rfl) attributes) .nil
  have hnodes : Node.Same id t.nodes t.nodes := rfl
  have hrun := (lib.parallel_self c (IsCutOff limit)).nodes (f := ⟨t.name, [attributes]⟩) rfl hscope
    (nested_balanced _ c limit) (nested_balanced _ c limit') (lib.nested_withMaxDepth c limit limit' h)
    hnodes (w := .empty) rfl
  exact hrun.bind fun w w' hw => .ok (congrArg Writer.text hw)

end Library

/-! ## Instances -/

namespace Group

def withMaxDepth (g : Group) (limit : Nat) : Group :=
  { g with config := { g.config with maxDepth := limit } }

end Group

namespace Instance

/-- What the instance's template looks up when it runs. -/
def library (i : Instance) (g : Group) : Library :=
  (if i.standalone then ({} : Group) else g).library

/-- The output of the instance, where `enter` runs the bodies that its template enters. -/
def renderBy (i : Instance) (g : Group) (c : RenderConfig) (enter : Runner) : Except Error String := do
  let w ← (i.library g).runNodes c enter ⟨i.template.name, [i.attributes]⟩ i.template.nodes .empty
  return w.text

theorem render_withMaxDepth {i : Instance} (h : i.standalone = false) (g : Group) (limit : Nat)
    (c : RenderConfig) : i.render (g.withMaxDepth limit) c =
      (g.library.withMaxDepth limit).render c i.template i.attributes := by
  rw [render, if_neg (by simp [h])]
  rfl

/-- A template that belongs to no group has the limit of an empty one. -/
theorem render_withMaxDepth_of_standalone {i : Instance} (h : i.standalone = true) (g : Group) (limit : Nat)
    (c : RenderConfig) : i.render (g.withMaxDepth limit) c = i.render g c := by
  rw [render, render, if_pos h, if_pos h]

/-- **Rendering ends, and the limit only cuts runs off.** For every instance, group and configuration, the
recursion through bodies comes to its result within one unfolding more than bodies may be nested, whatever
stood in its place further down; and a result under one limit, unless it is that the limit was passed, is the
result under every higher limit. -/
theorem render_settled (i : Instance) (g : Group) (c : RenderConfig) :
    (∀ bottom unfoldings, (i.library g).maxDepth < unfoldings →
      i.renderBy g c ((i.library g).unfolded c bottom unfoldings 1) = i.render g c) ∧
    ∀ limit limit', limit ≤ limit' →
      (∀ label, i.render (g.withMaxDepth limit) c ≠ .error (.recursionLimit limit label)) →
      i.render (g.withMaxDepth limit') c = i.render (g.withMaxDepth limit) c := by
  constructor
  · intro bottom unfoldings h
    rw [renderBy, Library.unfolded_eq_nested _ _ _ (by omega) (by omega)]
    rfl
  · intro limit limit' hle hlimit
    cases hi : i.standalone with
    | true => rw [render_withMaxDepth_of_standalone hi, render_withMaxDepth_of_standalone hi]
    | false =>
      rw [render_withMaxDepth hi] at hlimit ⊢
      rw [render_withMaxDepth hi]
      refine (g.library.render_withMaxDepth c i.template i.attributes hle).eq_of_not_cut ?_
      rintro e ⟨label, rfl⟩
      exact hlimit label

/-- A template that is applied to itself along a tree of lists needs as many levels as the tree has, and one
that calls itself passes every limit. -/
theorem render_settled_tree :
    let place : Span := ⟨0, 0⟩
    let g : Group := { templates :=
      [("tree", { params := [⟨"x", none⟩], body := "(<x:tree()>)", delimiters := {} }),
       ("loop", { params := [], body := "<loop()>", delimiters := {} })] }
    let tree : Instance := {
      template := ⟨"tree", some [⟨"x", none⟩], [.literal "(" place, .expression (.path ⟨"x", place, []⟩)
        [.named "tree" place] {} place, .literal ")" place], {}, "(<x:tree()>)"⟩
      attributes := .ofList [("x", .list [.list [], .list [.list []]])] }
    let loop : Instance := {
      template := ⟨"loop", some [], [.expression (.call "loop" place []) [] {} place], {}, "<loop()>"⟩ }
    let cut : Except Error String := .error (.recursionLimit 3 "loop")
    tree.render (g.withMaxDepth 1) {} = .error (.recursionLimit 1 "tree") ∧
    2 ≤ 1000000 ∧ tree.render (g.withMaxDepth 2) {} = .ok "(()(()))" ∧
    tree.render (g.withMaxDepth 1000000) {} = .ok "(()(()))" ∧
    3 < 4 ∧ loop.render (g.withMaxDepth 3) {} = cut ∧
    ∀ bottom, loop.renderBy (g.withMaxDepth 3) {}
      ((loop.library (g.withMaxDepth 3)).unfolded {} bottom 4 1) = cut := by
  intro place g tree loop cut
  have htree : tree.render (g.withMaxDepth 2) {} = .ok "(()(()))" := by decide +kernel
  have hloop : loop.render (g.withMaxDepth 3) {} = cut := by decide +kernel
  refine ⟨by decide +kernel, by decide, htree, ?_, by decide, hloop, fun bottom => ?_⟩
  · rw [(tree.render_settled g {}).2 2 1000000 (by decide) (by rw [htree]; rintro label ⟨⟩), htree]
  · rw [(loop.render_settled (g.withMaxDepth 3) {}).1 bottom 4 (by decide), hloop]

end Instance

end Stencil

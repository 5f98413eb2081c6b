import Stencil.Proofs.Evaluation.Locality
import Stencil.Proofs.Group.Growth

/-!
# What a replaced region changes

What replaces a region is stored under the name of its template, and looked up under the name of the template
that runs. So only a body that runs under this name and has the region can show it
(`Instance.render_eq_of_no_region`), and a template of another name that does not reach the owner of the region
renders as before (`Group.change_replaceRegion_frames`). The name is all that is compared: a template that is
made from source text alone has the name `anonymous`, and shows what replaces the regions of a declared template
of that name, although it does not reach it (`Group.change_replaceRegion_anonymous`).
-/

namespace Stencil

open Template (Compiled Node)

namespace Group

variable {g g' : Group} {template region body : String}

/-- A replacement that succeeds changes the stored replacements only. -/
theorem eq_of_change_replaceRegion (h : g.change (.replaceRegion template region body) = (g', none)) :
    ∃ replacement, g' = { g with overrides := Dictionary.insert (template, region) replacement g.overrides } := by
  rcases g.change_replaceRegion template region body with ⟨e, hchange⟩ | ⟨replacement, hchange⟩
  · rw [hchange] at h
    cases h
  · rw [hchange] at h
    exact ⟨replacement, (congrArg Prod.fst h).symm⟩

/-- A declared template has the name under which it is declared. -/
theorem compiled_name {name : String} {t : Compiled} (h : g.compiled name = .ok t) : t.name = name := by
  unfold compiled Definition.compile at h
  split at h
  · split at h
    · cases h
      rfl
    · cases h
  · cases h

theorem template_of_body? {name : String} {b : Body} (h : g.library.body? name = some b) :
    b.template = name := by
  change (g.compiled name).toOption.map Compiled.body = some b at h
  cases hcompiled : g.compiled name with
  | error e =>
    rw [hcompiled] at h
    cases h
  | ok t =>
    rw [hcompiled] at h
    cases h
    exact compiled_name hcompiled

/-- Where no body invokes a template, none runs in it. -/
theorem template_ne_of_mayRun {b b' : Body} (hb : b.template ≠ template)
    (hinvoked : ∀ b', g.library.MayRun b b' → template ∉ b'.invoked) (h : g.library.MayRun b b') :
    b'.template ≠ template := by
  induction h with
  | refl => exact hb
  | tail hrun hstep ih =>
    rcases Library.of_mem_entered hstep with hsame | ⟨name, hname, hbody⟩
    · rw [hsame]
      exact ih
    · rw [template_of_body? hbody]
      intro heq
      exact hinvoked _ hrun (heq ▸ hname)

end Group

/-- A replaced region shows only in the bodies of its template that have it. -/
theorem Instance.render_eq_of_no_region {g g' : Group} {template region body : String}
    (h : g.change (.replaceRegion template region body) = (g', none)) (i : Instance) (c : RenderConfig)
    (hregion : ∀ b, (i.library g).MayRun i.template.body b → b.template = template → region ∉ b.regions) :
    i.render g' c = i.render g c := by
  obtain ⟨replacement, rfl⟩ := Group.eq_of_change_replaceRegion h
  cases hstandalone : i.standalone with
  | true => simp [Instance.render, hstandalone]
  | false =>
    have hlibrary : ∀ g, i.library g = g.library := by simp [Instance.library, hstandalone]
    rw [hlibrary] at hregion
    have hsame : g.library.SameOn
        ({ g with overrides := Dictionary.insert (template, region) replacement g.overrides } : Group).library
        (g.library.MayRun i.template.body) (fun _ => False) :=
      { compiled := rfl
        adaptors := rfl
        renderers := rfl
        maxDepth := rfl
        override? := by
          intro b hb name hname
          refine (Dictionary.lookup_insert_of_ne ?_ replacement g.overrides).symm
          intro hkey
          obtain ⟨htemplate, rfl⟩ := Prod.mk.inj hkey
          exact hregion b hb htemplate hname
        closed := fun _ _ hb hstep => hb.tail hstep
        visible := fun _ _ _ _ h => h }
    have hrender := Library.render_eq_of_sameOn hsame c .refl fun name _ => Eq.refl (i.attributes.get? name)
    simpa [Instance.render, Group.render, hstandalone] using hrender.symm

/-- **A replaced region shows only where its template runs.** A region that is replaced changes neither what the
instances of a group are nor what they render to, or which error they stop with, if their template has another
name than the owner of the region and no body that it may run, among them those that replace regions, invokes
the owner. -/
theorem Group.change_replaceRegion_frames {g g' : Group} {template region body : String}
    (h : g.change (.replaceRegion template region body) = (g', none)) :
    Instance.ofName g' = Instance.ofName g ∧ Instance.inline g' = Instance.inline g ∧
    ∀ i : Instance, i.template.name ≠ template →
      (∀ b, (i.library g).MayRun i.template.body b → template ∉ b.invoked) →
      ∀ c, i.render g' c = i.render g c := by
  have hmade : Instance.ofName g' = Instance.ofName g ∧ Instance.inline g' = Instance.inline g := by
    obtain ⟨replacement, rfl⟩ := eq_of_change_replaceRegion h
    exact ⟨rfl, rfl⟩
  refine ⟨hmade.1, hmade.2, fun i hname hinvoked c => ?_⟩
  refine Instance.render_eq_of_no_region h i c fun b hb htemplate => ?_
  exact absurd htemplate (template_ne_of_mayRun hname hinvoked hb)

/-- A source text that applies another template and has a region of its own with the name of the replaced one. -/
theorem Group.change_replaceRegion_frames_inline :
    let g : Group := { templates := [("page", { params := [], body := "[<@head()>]", delimiters := {} }),
      ("row", { params := [⟨"x", none⟩], body := "<x>;", delimiters := {} })] }
    let g' := (g.change (.replaceRegion "page" "head" "H")).1
    let made := do (← Instance.inline g "<xs:row()><@head>top<@end>").set "xs" (.list [.int 1, .int 2])
    g.change (.replaceRegion "page" "head" "H") = (g', none) ∧
    ∃ i, made = .ok i ∧ i.template.name ≠ "page" ∧
      (∀ b, (i.library g).MayRun i.template.body b → "page" ∉ b.invoked) ∧
      i.render g {} = .ok "1;2;top" ∧ i.render g' {} = .ok "1;2;top" := by
  intro g g' made
  have hsucceeds : g.change (.replaceRegion "page" "head" "H") = (g', none) := by
    refine Prod.ext rfl ?_
    decide +kernel
  have hfacts : (made >>= fun i => pure (decide (i.template.name ≠ "page"),
      (i.library g).allWithin (fun b => "page" ∉ b.invoked) 2 i.template.body, i.render g {})) =
      .ok (true, true, .ok "1;2;top") := by
    decide +kernel
  obtain ⟨i, hmade, hi⟩ := bind_eq_ok.1 hfacts
  obtain ⟨hname, hwithin, hbefore⟩ := by simpa only [Prod.mk.injEq, decide_eq_true_eq] using Except.ok.inj hi
  have hinvoked : ∀ b, (i.library g).MayRun i.template.body b → "page" ∉ b.invoked :=
    fun b hb => of_decide_eq_true (hb.of_allWithin hwithin)
  refine ⟨hsucceeds, i, hmade, hname, hinvoked, hbefore, ?_⟩
  rw [(Group.change_replaceRegion_frames hsucceeds).2.2 i hname hinvoked]
  exact hbefore

/-- A template that is made from a source text alone and does not invoke the declared template that has the name
`anonymous`. What replaces the region of the declared one shows in it. -/
theorem Group.change_replaceRegion_anonymous :
    let g : Group := { templates := [("anonymous", { params := [], body := "<@r()>", delimiters := {} })] }
    let g' := (g.change (.replaceRegion "anonymous" "r" "X")).1
    g.change (.replaceRegion "anonymous" "r" "X") = (g', none) ∧
    ∃ i, Instance.inline g "[<@r()>]" = .ok i ∧ g.compiled "anonymous" ≠ .ok i.template ∧
      (∀ b, (i.library g).MayRun i.template.body b → "anonymous" ∉ b.invoked) ∧
      i.render g {} = .ok "[]" ∧ i.render g' {} = .ok "[X]" := by
  intro g g'
  have hsucceeds : g.change (.replaceRegion "anonymous" "r" "X") = (g', none) := by
    refine Prod.ext rfl ?_
    decide +kernel
  have hfacts : (Instance.inline g "[<@r()>]" >>= fun i => pure (i.template.source,
      (i.library g).allWithin (fun b => "anonymous" ∉ b.invoked) 1 i.template.body, i.render g {},
      i.render g' {})) = .ok ("[<@r()>]", true, .ok "[]", .ok "[X]") := by
    decide +kernel
  obtain ⟨i, hmade, hi⟩ := bind_eq_ok.1 hfacts
  obtain ⟨hsource, hwithin, hbefore, hafter⟩ := by simpa only [Prod.mk.injEq] using Except.ok.inj hi
  have hdeclared : ∀ t, g.compiled "anonymous" = .ok t → t.source = "<@r()>" := by
    intro t ht
    have hcompiled : (g.compiled "anonymous" >>= fun t => pure t.source) = .ok "<@r()>" := by decide +kernel
    rw [ht] at hcompiled
    exact Except.ok.inj hcompiled
  refine ⟨hsucceeds, i, hmade, fun h => ?_, fun b hb => of_decide_eq_true (hb.of_allWithin hwithin), hbefore,
    hafter⟩
  rw [hdeclared i.template h] at hsource
  exact absurd hsource (by decide)

end Stencil

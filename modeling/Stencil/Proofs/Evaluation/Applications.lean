import Stencil.Proofs.Evaluation.Arguments
import Stencil.Proofs.Evaluation.Locality

/-!
# Applying a template to a single value

A template is run with a value for its first parameter by a call with one argument, and by an expression that
has the template as its target. The two bind different attributes around the value: a call binds the defaults
of the other parameters (`lookup_bindDefaults`), a target binds the index and leaves the other parameters to
the scope of the caller. Where the template and everything that it runs asks for neither, the two come to the
same (`Group.runNode_apply`). Where it asks for a default, a target does not have it
(`Group.runNode_apply_default`).
-/

namespace Stencil

open Template (Argument Compiled Node Options Parameter Path)
open Writer (Balanced)

/-! ## What is bound -/

namespace Library

/-- A default that stands in the scope of the caller already makes no difference. -/
theorem lookup_bindDefaults {f : Frame} {params : List Parameter} {name : String} {s : Store}
    (h : (s.get? name).isSome ∨ ∀ q ∈ params, q.name = name → ∀ text, q.default? = some text →
      f.scope.lookup name = some (.str text)) :
    Scope.lookup (bindDefaults f params true s :: f.scope) name = Scope.lookup (s :: f.scope) name := by
  rw [Scope.lookup_cons, Scope.lookup_cons, get?_bindDefaults]
  cases hs : s.get? name with
  | some v => rfl
  | none =>
    cases hdefault : defaultOf? params name with
    | none => rfl
    | some text =>
      obtain ⟨q, hq, hname, htext⟩ := exists_of_defaultOf?_eq_some hdefault
      rw [hs] at h
      rw [h.resolve_left (by simp) q hq hname text htext]
      rfl

/-- One argument is bound to the first parameter, if the others have defaults. -/
theorem bindArguments_singleton {lib : Library} {f : Frame} {p : Parameter} {ps : List Parameter}
    (hps : ∀ q ∈ ps, q.default?.isSome) {a : Argument Span} {v : Value}
    (ha : lib.adaptors.argument f.scope a = .ok v) (name : String) :
    lib.bindArguments f name (p :: ps) [a] = .ok (Store.empty.set p.name v) := by
  have hrequired : ((p :: ps).filter (·.default?.isNone)).length ≤ 1 := length_filter_le_of_drop hps
  rw [lib.bindArguments_eq (by simp) (.cons ha .nil), if_pos ⟨by simp, hrequired⟩, List.zip_cons_cons,
    List.zip_nil_right]
  rfl

section
variable {lib : Library} {f : Frame} {name : String} {t : Compiled} {p : Parameter} {ps : List Parameter} {v : Value}
  (hcompiled : lib.compiled name = .ok t) (hparams : t.parameters = p :: ps)
include hcompiled hparams

theorem targetEntry_named (place : Span) (index : Nat) :
    lib.targetEntry f (.named name place) v index = .ok (templateEntry f t (bindElement [p.name] v index)) := by
  rw [targetEntry, hcompiled]
  simp only [bind, Except.bind, hparams]
  rfl

theorem callEntry_singleton (hps : ∀ q ∈ ps, q.default?.isSome) {a : Argument Span}
    (ha : lib.adaptors.argument f.scope a = .ok v) :
    lib.callEntry f name [a] =
      .ok (templateEntry f t (bindDefaults f (p :: ps) true (Store.empty.set p.name v))) := by
  rw [callEntry, hcompiled]
  simp only [bind, Except.bind, hparams, bindArguments_singleton hps ha]
  rfl

end

/-- A target and a call bind the same to a name, but for the index and for defaults that are not in scope. -/
theorem lookup_bindElement {f : Frame} {p : Parameter} {ps : List Parameter} {name : String}
    (hindex : name ≠ "i" ∧ name ≠ "i0")
    (hdefaults : ∀ q ∈ ps, q.name = name → q.name ≠ p.name →
      ∀ text, q.default? = some text → f.scope.lookup name = some (.str text)) (v : Value) (index : Nat) :
    Scope.lookup (bindElement [p.name] v index :: f.scope) name =
      Scope.lookup (bindDefaults f (p :: ps) true (Store.empty.set p.name v) :: f.scope) name := by
  have helement : bindElement [p.name] v index =
      ((Store.empty.set "i" (.int (index + 1 : Nat))).set "i0" (.int index)).set p.name v := rfl
  rw [helement]
  by_cases hname : name = p.name
  · subst hname
    have hbound : ((Store.empty.set p.name v).get? p.name).isSome := by rw [Store.get?_set_self]; rfl
    rw [lookup_bindDefaults (.inl hbound)]
    simp only [Scope.lookup_cons, Store.get?_set_self]
  · have hscope : ∀ q ∈ p :: ps, q.name = name → ∀ text, q.default? = some text →
        f.scope.lookup name = some (.str text) := by
      refine List.forall_mem_cons.2 ⟨fun hp => absurd hp.symm hname, fun q hq hqname => ?_⟩
      exact hdefaults q hq hqname (hqname ▸ hname)
    rw [lookup_bindDefaults (.inr hscope)]
    simp only [Scope.lookup_cons, Store.get?_set_of_ne hname, Store.get?_set_of_ne hindex.1,
      Store.get?_set_of_ne hindex.2]

/-! ## Running it -/

section
variable {lib : Library} {f : Frame} {name : String} {p : Parameter} {ps : List Parameter} {path : Path Span}
  {v : Value}

/-- What a run looks up by the names that a template and everything it runs asks for. -/
theorem sameOn_mayRun (lib : Library) (b : Body) :
    lib.SameOn lib (lib.MayRun b) fun name => ∀ b', lib.MayRun b b' → name ∉ lib.mentioned b' :=
  .self (fun _ _ hb hstep => hb.tail hstep) fun b' _ hb hname h => h b' hb hname

/-- The target and the call run the template alike. -/
theorem enter_targetEntry {t : Compiled} (hcompiled : lib.compiled name = .ok t) (hparams : t.parameters = p :: ps)
    (hps : ∀ q ∈ ps, q.default?.isSome) {a : Argument Span} (ha : lib.adaptors.argument f.scope a = .ok v)
    (hindex : ∀ b, lib.MayRun t.body b → "i" ∉ lib.mentioned b ∧ "i0" ∉ lib.mentioned b)
    (hdefaults : ∀ b, lib.MayRun t.body b → ∀ q ∈ ps, q.name ∈ lib.mentioned b → q.name ≠ p.name →
      ∀ text, q.default? = some text → f.scope.lookup q.name = some (.str text))
    (c : RenderConfig) (levels : Nat) (place : Span) (index : Nat) (w : Writer) :
    (do lib.nested c levels (← lib.targetEntry f (.named name place) v index) w) =
      (do lib.nested c levels (← lib.callEntry f name [a]) w) := by
  have hscope : Scope.SameBut (fun name => ∀ b, lib.MayRun t.body b → name ∉ lib.mentioned b)
      (bindElement [p.name] v index :: f.scope)
      (bindDefaults f (p :: ps) true (Store.empty.set p.name v) :: f.scope) := by
    intro name hname
    obtain ⟨b, hb, hname⟩ : ∃ b, lib.MayRun t.body b ∧ name ∈ lib.mentioned b := by simpa using hname
    refine lookup_bindElement ⟨?_, ?_⟩ ?_ v index
    · rintro rfl
      exact (hindex b hb).1 hname
    · rintro rfl
      exact (hindex b hb).2 hname
    · rintro q hq rfl
      exact hdefaults b hb q hq hname
  rw [targetEntry_named hcompiled hparams, callEntry_singleton hcompiled hparams hps ha]
  have hentry : Entry.SameBut (lib.MayRun t.body) (fun name => ∀ b, lib.MayRun t.body b → name ∉ lib.mentioned b)
      (templateEntry f t (bindElement [p.name] v index))
      (templateEntry f t (bindDefaults f (p :: ps) true (Store.empty.set p.name v))) :=
    ⟨rfl, rfl, rfl, hscope, .refl⟩
  exact (nested_sameOn (lib.sameOn_mayRun t.body) levels hentry rfl).eq_of fun _ _ h => h

/-- A value that is no list is written by a target as by a call, if the two run the template alike. -/
theorem runNode_target {enter : Runner} {c : RenderConfig} (hv : v.isList = false)
    (hpath : lib.adaptors.resolve f.scope path = .ok v) (place : Span)
    (henter : ∀ w, (do enter (← lib.targetEntry f (.named name place) v 0) w) =
      (do enter (← lib.callEntry f name [.path path]) w)) (o : Options) (w : Writer) :
    lib.runNode c enter f w (.expression (.path path) [.named name place] o place) =
      lib.runNode c enter f w (.expression (.call name place [.path path]) [] o place) := by
  have htarget : lib.outcome c enter f (.path path) [.named name place] =
      .ok (.one (.apply (.named name place) v 0)) := by
    have hone : Outcome.ofValue v = .one (.value v) := by
      cases v with
      | list vs => cases hv
      | _ => rfl
    rw [outcome, primary, hpath]
    simp only [bind, Except.bind, pure, Except.pure, hone]
    rfl
  have hcall : lib.outcome c enter f (.call name place [.path path]) [] = .ok (.one (.call name [.path path])) := rfl
  have hitems : List.Forall₂ (fun x y : Item => ∀ w, Agree Eq (lib.writeItem c enter f o.format x w)
      (lib.writeItem c enter f o.format y w)) [.apply (.named name place) v 0] [.call name [.path path]] := by
    refine .cons (fun w => ?_) .nil
    rw [writeItem, writeItem, henter]
    exact .rfl' (fun _ => rfl) _
  have hwritten := (Writer.agree_writeElements (layout c o) hitems true (w.beginExpression o.anchor)).eq_of
    fun _ _ h => h
  rw [runNode, runNode, runExpression_eq, runExpression_eq, htarget, hcall]
  exact congrArg (· >>= fun written => pure written.endExpression) hwritten

end

end Library

/-! ## Declared templates -/

namespace Group

/-- What is checked of the bodies that a declared template may run. -/
theorem of_allWithin_compiled {g : Group} {name : String} {test : Body → Bool} {depth : Nat}
    (h : (g.compiled name).map (g.library.allWithin test depth ·.body) = .ok true) {t : Compiled}
    (ht : g.compiled name = .ok t) {b : Body} (hb : g.library.MayRun t.body b) : test b = true := by
  rw [ht] at h
  exact hb.of_allWithin (Except.ok.inj h)

/-- **A template is applied to a single value as it is called with it**, but for the defaults. The template has
a first parameter, the others have defaults, and neither it nor anything that it runs asks for the index of an
element. Where one of them asks for another parameter, the scope of the caller has the default of that parameter
already. Then an expression that has the template as its target for the value at a path does the same as one
that calls it with this path, whatever the options, from any writer, in any scope and however deep. -/
theorem runNode_apply (g : Group) {name : String} {d : Definition} (hd : g.templates.lookup name = some d)
    {p : Parameter} {ps : List Parameter} (hparams : d.params = p :: ps) (hps : ∀ q ∈ ps, q.default?.isSome)
    {f : Frame} {path : Path Span} {v : Value} (hpath : g.adaptors.resolve f.scope path = .ok v)
    (hv : v.isList = false)
    (hindex : ∀ t, g.compiled name = .ok t → ∀ b, g.library.MayRun t.body b →
      "i" ∉ g.library.mentioned b ∧ "i0" ∉ g.library.mentioned b)
    (hdefaults : ∀ t, g.compiled name = .ok t → ∀ b, g.library.MayRun t.body b → ∀ q ∈ ps,
      q.name ∈ g.library.mentioned b → q.name ≠ p.name →
      ∀ text, q.default? = some text → f.scope.lookup q.name = some (.str text))
    (o : Options) (c : RenderConfig) (levels : Nat) (w : Writer) (place : Span) :
    let run := g.library.runNode c (g.library.nested c levels) f w
    run (.expression (.path path) [.named name place] o place) =
      run (.expression (.call name place [.path path]) [] o place) := by
  intro run
  refine Library.runNode_target hv hpath place (fun w => ?_) o w
  cases ht : g.library.compiled name with
  | error e => rw [Library.targetEntry, Library.callEntry, ht]; rfl
  | ok t =>
    have hfirst : t.parameters = p :: ps := (parameters_of_compiled hd ht).trans hparams
    exact Library.enter_targetEntry (a := .path path) ht hfirst hps hpath (hindex t ht) (hdefaults t ht) c levels place
      0 w

/-- A template that calls another one, for a caller that has the one default that is asked for. -/
theorem runNode_apply_row :
    let place : Span := ⟨0, 0⟩
    let row : Definition :=
      { params := [⟨"x", none⟩, ⟨"p", some "d"⟩, ⟨"q", some "e"⟩], body := "<x><p><cell(x)>", delimiters := {} }
    let cell : Definition := { params := [⟨"y", none⟩], body := "[<y>]", delimiters := {} }
    let g : Group := { templates := [("row", row), ("cell", cell)] }
    let f : Frame := ⟨"page", [.ofList [("v", .int 7)], .ofList [("p", .str "d")]]⟩
    let path : Path Span := ⟨"v", place, []⟩
    let run := fun node => (g.library.runNode {} (g.library.nested {} 2) f .empty node).map Writer.text
    g.templates.lookup "row" = some row ∧ (∀ q ∈ row.params.tail, q.default?.isSome) ∧
    g.adaptors.resolve f.scope path = .ok (.int 7) ∧
    (∀ t, g.compiled "row" = .ok t → ∀ b, g.library.MayRun t.body b →
      "i" ∉ g.library.mentioned b ∧ "i0" ∉ g.library.mentioned b) ∧
    (∀ t, g.compiled "row" = .ok t → ∀ b, g.library.MayRun t.body b → ∀ q ∈ row.params.tail,
      q.name ∈ g.library.mentioned b → q.name ≠ "x" →
      ∀ text, q.default? = some text → f.scope.lookup q.name = some (.str text)) ∧
    run (.expression (.call "row" place [.path path]) [] {} place) = .ok "7d[7]" ∧
    run (.expression (.path path) [.named "row" place] {} place) = .ok "7d[7]" := by
  intro place row cell g f path run
  have hd : g.templates.lookup "row" = some row := rfl
  have hdefault : ∀ q ∈ row.params.tail, q.default?.isSome := by decide
  have hpath : g.adaptors.resolve f.scope path = .ok (.int 7) := rfl
  have hwithin : (g.compiled "row").map (g.library.allWithin (fun b =>
      ("i" ∉ g.library.mentioned b ∧ "i0" ∉ g.library.mentioned b) ∧ "q" ∉ g.library.mentioned b) 3 ·.body) =
      .ok true := by decide +kernel
  have hread : ∀ t, g.compiled "row" = .ok t → ∀ b, g.library.MayRun t.body b →
      ("i" ∉ g.library.mentioned b ∧ "i0" ∉ g.library.mentioned b) ∧ "q" ∉ g.library.mentioned b :=
    fun t ht b hb => of_decide_eq_true (of_allWithin_compiled hwithin ht hb)
  have hindex : ∀ t, g.compiled "row" = .ok t → ∀ b, g.library.MayRun t.body b →
      "i" ∉ g.library.mentioned b ∧ "i0" ∉ g.library.mentioned b :=
    fun t ht b hb => (hread t ht b hb).1
  have hscope : ∀ t, g.compiled "row" = .ok t → ∀ b, g.library.MayRun t.body b → ∀ q ∈ row.params.tail,
      q.name ∈ g.library.mentioned b → q.name ≠ "x" →
      ∀ text, q.default? = some text → f.scope.lookup q.name = some (.str text) := by
    intro t ht b hb q hq hmention _ text htext
    rcases List.mem_cons.1 hq with rfl | hq
    · cases htext
      rfl
    · rw [List.mem_singleton.1 hq] at hmention
      exact absurd hmention (hread t ht b hb).2
  have hcall : run (.expression (.call "row" place [.path path]) [] {} place) = .ok "7d[7]" := by decide +kernel
  refine ⟨hd, hdefault, hpath, hindex, hscope, hcall, ?_⟩
  have happly := g.runNode_apply hd rfl hdefault hpath rfl hindex hscope {} {} 2 .empty place
  exact (congrArg (Except.map Writer.text) happly).trans hcall

/-- A caller that has no value for a parameter with a default: the call shows the default, and the target fails
for the want of it. -/
theorem runNode_apply_default :
    let g : Group := { templates :=
      [("t", { params := [⟨"x", none⟩, ⟨"p", some "d"⟩], body := "<x><p>", delimiters := {} })] }
    let output (source : String) := do (← (← Instance.inline g source).set "v" (.int 1)).render g {}
    (∀ t, g.compiled "t" = .ok t → t.parameters = [⟨"x", none⟩, ⟨"p", some "d"⟩] ∧
      ∀ b, g.library.MayRun t.body b → "i" ∉ g.library.mentioned b ∧ "i0" ∉ g.library.mentioned b) ∧
    output "<t(v)>" = .ok "1d" ∧ output "<v:t()>" = .error (.noSuchAttribute "p") := by
  intro g output
  have hwithin : (g.compiled "t").map (g.library.allWithin (fun b =>
      "i" ∉ g.library.mentioned b ∧ "i0" ∉ g.library.mentioned b) 2 ·.body) = .ok true := by decide +kernel
  refine ⟨fun t ht => ⟨parameters_of_compiled rfl ht, fun b hb => ?_⟩, by decide +kernel, by decide +kernel⟩
  exact of_decide_eq_true (of_allWithin_compiled hwithin ht hb)

end Group
end Stencil

import Stencil.Proofs.Evaluation.Arguments
import Stencil.Proofs.Group.Growth
import Stencil.Proofs.GroupFile.ErrorSpans
import Stencil.Proofs.GroupFile.RoundTrip

/-!
# Parameters of one name

A call binds its arguments by the names of the parameters, so of two parameters of one name only one can have its
argument (`Library.callEntry_argument`). The parser of group files refuses a template that has two such parameters
(`GroupFile.nodup_of_parse`), and so whatever is loaded has parameters of different names. A definition is not checked:
where one is accepted that repeats a name, the group has it (`Group.after_repeated`), and it is only through such
definitions that a group comes to have a template of this kind.

Main statement: `Group.after_nodup_iff`.
-/

namespace Stencil

open Template (Argument Compiled Parameter)

/-! ## What is parsed -/

namespace GroupFile

variable {eof : Span}

theorem nodup_of_templateDecl {start : Nat} {n : String} {ts : List Lexeme} {d : Parsed TemplateDecl ts}
    (h : templateDecl eof start n ts = .ok d) : (d.value.params.map (·.name)).Nodup := by
  unfold templateDecl at h
  obtain ⟨⟨_, r₂, h₂⟩, -, h⟩ := bind_eq_ok.1 h
  obtain ⟨⟨params, r₃, h₃⟩, -, h⟩ := bind_eq_ok.1 h
  obtain ⟨⟨_, r₄, h₄⟩, -, h⟩ := bind_eq_ok.1 h
  obtain ⟨⟨source, rest, h₅⟩, -, h⟩ := bind_eq_ok.1 h
  dsimp only at h
  split at h
  · cases h
  · next hrepeated =>
    cases h
    exact (repeated?_eq_none_iff.1 hrepeated).1

theorem nodup_of_declarations {ts : List Lexeme} {ds : List Declaration} (h : declarations eof ts = .ok ds)
    {d : TemplateDecl} (hd : .template d ∈ ds) : (d.params.map (·.name)).Nodup := by
  fun_induction declarations eof ts generalizing ds with
  | case1 =>
    cases h
    cases hd
  | case2 p r ih =>
    obtain ⟨⟨region, rest, hle⟩, -, h⟩ := bind_eq_ok.1 h
    obtain ⟨more, hmore, h⟩ := bind_eq_ok.1 h
    cases h
    rcases List.mem_cons.1 hd with hd | hd
    · cases hd
    · exact ih _ hle hmore hd
  | case3 n p r ih =>
    obtain ⟨⟨template, rest, hle⟩, htemplate, h⟩ := bind_eq_ok.1 h
    obtain ⟨more, hmore, h⟩ := bind_eq_ok.1 h
    cases h
    rcases List.mem_cons.1 hd with hd | hd
    · cases hd
      exact nodup_of_templateDecl htemplate
    · exact ih _ hle hmore hd
  | case4 => cases h

/-- The parser accepts no template with two parameters of one name. -/
theorem nodup_of_parse {text : List Char} {source : GroupSource} (h : parse text = .ok source) :
    ∀ t ∈ source.templates, (t.params.map (·.name)).Nodup := by
  obtain ⟨tokens, -, h⟩ := bind_eq_ok.1 h
  obtain ⟨⟨found, rest, hle⟩, -, h⟩ := bind_eq_ok.1 h
  obtain ⟨ds, hds, h⟩ := bind_eq_ok.1 h
  cases h
  intro t ht
  obtain ⟨declaration, hmem, heq⟩ := List.mem_filterMap.1 ht
  cases declaration with
  | template d =>
    cases heq
    exact nodup_of_declarations hds hmem
  | region d => cases heq

end GroupFile

/-! ## What a call binds -/

namespace Library

variable {lib : Library} {f : Frame} {name : String} {t : Compiled} {args : List (Argument Span)}

/-- Where the parameters suffice, binding the arguments one after the other takes a value of each. -/
theorem exists_values_of_foldlM_zip {eval : Argument Span → Except Error Value}
    {step : Store → Parameter × Argument Span → Except Error Store}
    (hstep : ∀ s p a s', step s (p, a) = .ok s' → ∃ v, eval a = .ok v) {params : List Parameter}
    (hlength : args.length ≤ params.length) {s bindings : Store}
    (h : (params.zip args).foldlM step s = .ok bindings) :
    ∃ values, List.Forall₂ (fun a v => eval a = .ok v) args values := by
  induction args generalizing params s with
  | nil => exact ⟨[], .nil⟩
  | cons a args ih =>
    cases params with
    | nil => cases hlength
    | cons p params =>
      rw [List.zip_cons_cons, List.foldlM_cons] at h
      obtain ⟨s', hs', h⟩ := bind_eq_ok.1 h
      obtain ⟨v, hv⟩ := hstep s p a s' hs'
      obtain ⟨values, hvalues⟩ := ih (Nat.le_of_succ_le_succ hlength) h
      exact ⟨v :: values, .cons hv hvalues⟩

/-- An accepted call has values for all its arguments. -/
theorem exists_values_of_bindArguments {params : List Parameter} {bindings : Store}
    (h : lib.bindArguments f name params args = .ok bindings) :
    ∃ values, List.Forall₂ (fun a v => lib.adaptors.argument f.scope a = .ok v) args values := by
  rw [bindArguments] at h
  split at h
  · next hempty => exact ⟨[], by rw [List.isEmpty_iff.1 hempty]; exact .nil⟩
  · split at h
    · cases h
    · next hcount =>
      refine exists_values_of_foldlM_zip (fun s p a s' hs' => ?_) (by omega) h
      obtain ⟨v, hv, -⟩ := bind_eq_ok.1 hs'
      exact ⟨v, hv⟩

/-- In the body that an accepted call runs, each argument stands under the parameter at its place, if the parameters
have different names. -/
theorem callEntry_argument (ht : lib.compiled name = .ok t) (hdistinct : (t.parameters.map (·.name)).Nodup)
    {entry : Entry} (h : lib.callEntry f name args = .ok entry) {n : Nat} {a : Argument Span} (ha : args[n]? = some a) :
    ∃ p v, t.parameters[n]? = some p ∧ lib.adaptors.argument f.scope a = .ok v ∧
      entry.frame.scope.lookup p.name = some v := by
  have hargs : args ≠ [] := by
    rintro rfl
    cases ha
  obtain ⟨callee, hcallee, h⟩ := bind_eq_ok.1 h
  cases ht.symm.trans hcallee
  obtain ⟨bindings, hbindings, h⟩ := bind_eq_ok.1 h
  cases h
  obtain ⟨values, hvalues⟩ := exists_values_of_bindArguments hbindings
  rw [bindArguments_eq lib hargs hvalues] at hbindings
  split at hbindings
  · next hcount =>
    cases hbindings
    obtain ⟨hn, rfl⟩ := List.getElem?_eq_some_iff.1 ha
    have hparam : n < t.parameters.length := Nat.lt_of_lt_of_le hn hcount.1
    have hvalue : n < values.length := hvalues.length_eq ▸ hn
    refine ⟨t.parameters[n], values[n], List.getElem?_eq_getElem hparam, hvalues.get hn hvalue, ?_⟩
    have hcalled : (!args.isEmpty) = true := by simpa using hargs
    have hget := get?_callBindings hdistinct (List.getElem?_eq_getElem hparam) f values
    rw [List.getElem?_eq_getElem hvalue] at hget
    rw [templateEntry, Scope.lookup_cons, hcalled]
    change ((callBindings f t.parameters values).get? _).or _ = _
    rw [hget]
    rfl
  · cases hbindings

end Library

/-! ## What a group has -/

namespace Group

/-- No template of the group has two parameters of one name. -/
def Distinct (g : Group) : Prop :=
  ∀ name d, g.templates.lookup name = some d → (d.params.map (·.name)).Nodup

/-- The change is a definition that the group accepts and that has two parameters of one name. -/
def Change.Repeats (g : Group) : Change → Prop
  | define name params _ => g.contains name = false ∧ ¬(params.map (·.name)).Nodup
  | source _ | file _ _ | directory _ _ | replaceRegion _ _ _ => False

/-- A declaration adds its own template and no other. -/
theorem distinct_extend_iff {g : Group} {name : String} {d : Definition} (hname : g.contains name = false) :
    Distinct { g with templates := g.templates ++ [(name, d)] } ↔ g.Distinct ∧ (d.params.map (·.name)).Nodup := by
  have hnew : g.templates.lookup name = none := by
    rw [contains, Dictionary.contains] at hname
    simpa using hname
  have hlookup : ∀ other, (g.templates ++ [(name, d)]).lookup other =
      (g.templates.lookup other).or (if other = name then some d else none) := by
    intro other
    rw [List.lookup_append, List.lookup_cons, List.lookup_nil]
    by_cases h : other = name
    · simp [h]
    · rw [beq_eq_false_iff_ne.2 h, if_neg h]
  unfold Distinct
  simp only [hlookup]
  constructor
  · intro h
    refine ⟨fun other e he => h other e (by rw [he]; rfl), h name d ?_⟩
    rw [hnew, if_pos rfl]
    rfl
  · rintro ⟨hold, hd⟩ other e he
    rcases Option.or_eq_some_iff.1 he with he | ⟨-, he⟩
    · exact hold other e he
    · split at he
      · cases he
        exact hd
      · cases he

theorem distinct_declare {name : String} {d : Definition} (hd : (d.params.map (·.name)).Nodup) :
    Loading.Keeps (fun g g' => g.Distinct → g'.Distinct) (Loading.declare name d) := by
  intro g hg
  rw [Loading.run_declare]
  split
  · exact hg
  · next hname => exact (distinct_extend_iff (by simpa using hname)).2 ⟨hg, hd⟩

/-- Loads declare what the parser accepts. -/
theorem distinct_keptByLoads : Loading.KeptByLoads fun g g' => g.Distinct → g'.Distinct :=
  have hchained : Loading.Chained fun g g' => g.Distinct → g'.Distinct := ⟨fun _ => id, fun h h' => h' ∘ h⟩
  { toChained := hchained
    declareAll := fun _ _ hparse =>
      hchained.declareAll fun t ht _ => distinct_declare (GroupFile.nodup_of_parse hparse t ht)
    replaceRegion := by
      intro template region body delimiters g hg
      rcases Loading.run_replaceRegion template region body delimiters g with ⟨e, hrun⟩ | ⟨_, _, _, _, hrun⟩ <;>
        rw [hrun] <;> exact hg }

theorem Distinct.of_grows {g g' : Group} (h : g.Grows g') (hg' : g'.Distinct) : g.Distinct :=
  fun name d hd => hg' name d (h.templates name d hd)

/-- Only a definition brings a group to have two parameters of one name. -/
theorem distinct_change_iff (g : Group) (c : Change) : (g.change c).1.Distinct ↔ g.Distinct ∧ ¬c.Repeats g := by
  have hgrows : (g.change c).1.Distinct → g.Distinct := .of_grows (g.stepwise_change grows_stepwise c)
  have hkept : (g.Distinct → (g.change c).1.Distinct) → ¬c.Repeats g →
      ((g.change c).1.Distinct ↔ g.Distinct ∧ ¬c.Repeats g) :=
    fun h hc => ⟨fun hg => ⟨hgrows hg, hc⟩, fun hg => h hg.1⟩
  rw [change, Loading.apply_fst] at hgrows hkept ⊢
  cases c with
  | source text => exact hkept (distinct_keptByLoads.source text g) id
  | file files path => exact hkept (distinct_keptByLoads.file files path g) id
  | directory files path => exact hkept (distinct_keptByLoads.directory files path g) id
  | replaceRegion template region body =>
    exact hkept (distinct_keptByLoads.replaceRegion template region body none g) id
  | define name params body =>
    have hrun : (Change.define name params body).loading.run.run g =
        (Loading.declare name { params, body, delimiters := g.config.delimiters }).run.run g := rfl
    rw [hrun, Loading.run_declare, Change.Repeats, not_and, not_not]
    cases hname : g.contains name with
    | true => exact ⟨fun hg => ⟨hg, fun hname => by cases hname⟩, fun hg => hg.1⟩
    | false =>
      rw [if_neg Bool.false_ne_true, distinct_extend_iff hname]
      exact and_congr_right' ⟨fun h _ => h, fun h => h rfl⟩

theorem distinct_after_iff (g : Group) (changes : List Change) :
    (g.after changes).Distinct ↔
      g.Distinct ∧ ∀ earlier c later, changes = earlier ++ c :: later → ¬c.Repeats (g.after earlier) := by
  induction changes generalizing g with
  | nil => exact ⟨fun h => ⟨h, by simp⟩, fun h => h.1⟩
  | cons c changes ih =>
    have hstep : g.after (c :: changes) = (g.change c).1.after changes := rfl
    rw [hstep, ih, distinct_change_iff, and_assoc]
    refine and_congr_right fun _ => ⟨?_, ?_⟩
    · rintro ⟨hfirst, hrest⟩ earlier c' later h
      rcases List.cons_eq_append_iff.1 h with ⟨rfl, hc⟩ | ⟨earlier, rfl, hchanges⟩
      · cases hc
        exact hfirst
      · exact hrest earlier c' later hchanges
    · intro h
      exact ⟨h [] c changes rfl, fun earlier c' later heq => h (c :: earlier) c' later (by rw [heq]; rfl)⟩

/-- **Parameters of one name come from definitions only.** After any changes of a new group, whichever of them fail,
no template has two parameters of one name just if none of the changes was a definition that was accepted and had
them. And where the parameters of a template have different names, no accepted call loses an argument: in the body
that it runs, each argument stands under the parameter at its place. -/
theorem after_nodup_iff (config : GroupConfig) (adaptors : Adaptors) (renderers : Renderers) (changes : List Change) :
    let new : Group := { config, adaptors, renderers }
    let g := new.after changes
    ((∀ name d, g.templates.lookup name = some d → (d.params.map (·.name)).Nodup) ↔
      ∀ earlier name params body later, changes = earlier ++ .define name params body :: later →
        (new.after earlier).contains name = false → (params.map (·.name)).Nodup) ∧
    ∀ name t, g.compiled name = .ok t → (t.parameters.map (·.name)).Nodup →
      ∀ f args entry, g.library.callEntry f name args = .ok entry → ∀ (n : Nat) a, args[n]? = some a →
        ∃ p v, t.parameters[n]? = some p ∧ g.adaptors.argument f.scope a = .ok v ∧
          entry.frame.scope.lookup p.name = some v := by
  intro new g
  refine ⟨?_, fun name t ht hdistinct f args entry hentry n a ha =>
    Library.callEntry_argument ht hdistinct hentry ha⟩
  have hnew : new.Distinct := by
    intro name d hd
    cases hd
  refine (distinct_after_iff new changes).trans ⟨fun h earlier name params body later heq hname => ?_, fun h => ?_⟩
  · by_contra hrepeats
    exact h.2 earlier _ later heq ⟨hname, hrepeats⟩
  · refine ⟨hnew, fun earlier c later heq hc => ?_⟩
    cases c with
    | define name params body => exact hc.2 (h earlier name params body later heq hc.1)
    | source _ | file _ _ | directory _ _ | replaceRegion _ _ _ => exact hc

/-- A load that is refused for a repeated name, a load and a definition that are accepted, and a definition with a
repeated name that is refused for the name of its template; then a call with two arguments. -/
theorem after_nodup_iff_refused :
    let repeated : List Parameter := [⟨"a", none⟩, ⟨"a", none⟩]
    let changes : List Change := [.source "t(a, a) ::= \"<a>\"", .source "t(a, b) ::= \"<a><b>\"",
      .define "u" [⟨"x", none⟩] "<x>", .define "t" repeated "<a>"]
    let g := Group.after {} changes
    let f : Frame := ⟨"page", [.ofList [("v", .int 1), ("w", .int 2)]]⟩
    let args : List (Argument Span) := [.path ⟨"v", ⟨0, 0⟩, []⟩, .path ⟨"w", ⟨0, 0⟩, []⟩]
    g.templates.map (·.1) = ["t", "u"] ∧
    (∀ name d, g.templates.lookup name = some d → (d.params.map (·.name)).Nodup) ∧
    ∃ entry, g.library.callEntry f "t" args = .ok entry ∧
      entry.frame.scope.lookup "a" = some (.int 1) ∧ entry.frame.scope.lookup "b" = some (.int 2) := by
  intro repeated changes g f args
  obtain ⟨hnodup, hargument⟩ := after_nodup_iff {} .standard {} changes
  have hdistinct : ∀ name d, g.templates.lookup name = some d → (d.params.map (·.name)).Nodup := by
    refine hnodup.2 fun earlier name params body later heq hname => ?_
    rcases earlier with _ | ⟨c₁, _ | ⟨c₂, _ | ⟨c₃, _ | ⟨c₄, earlier⟩⟩⟩⟩ <;>
      simp only [changes, List.nil_append, List.cons_append, List.cons.injEq, reduceCtorEq, false_and, and_false,
        List.nil_eq, List.append_eq_nil_iff] at heq
    · obtain ⟨rfl, rfl, h, -⟩ := heq
      cases h
      decide
    · obtain ⟨rfl, rfl, rfl, h, -⟩ := heq
      cases h
      exact absurd hname (by decide +kernel)
  refine ⟨by decide +kernel, hdistinct, ?_⟩
  have hfacts : (do
      let t ← g.compiled "t"
      let _ ← g.library.callEntry f "t" args
      return t.parameters) = .ok [⟨"a", none⟩, ⟨"b", none⟩] := by
    decide +kernel
  obtain ⟨t, ht, hfacts⟩ := bind_eq_ok.1 hfacts
  obtain ⟨entry, hentry, hfacts⟩ := bind_eq_ok.1 hfacts
  have hparams : t.parameters = [⟨"a", none⟩, ⟨"b", none⟩] := Except.ok.inj hfacts
  have hcalled := hargument "t" t ht (by rw [hparams]; decide) f args entry hentry
  rw [hparams] at hcalled
  obtain ⟨_, _, ⟨⟩, ⟨⟩, hfirst⟩ := hcalled 0 _ rfl
  obtain ⟨_, _, ⟨⟩, ⟨⟩, hsecond⟩ := hcalled 1 _ rfl
  exact ⟨entry, hentry, hfirst, hsecond⟩

/-- A definition that repeats the name of a parameter is accepted, and a call of the template loses its first
argument. A load of the same declaration is refused. -/
theorem after_repeated :
    let repeated : List Parameter := [⟨"a", none⟩, ⟨"a", none⟩]
    let g := Group.after {} [.define "t" repeated "<a>"]
    ((Group.change {} (.define "t" repeated "<a>")).2 = none) ∧
    (g.templates.lookup "t").map (·.params.map (·.name)) = some ["a", "a"] ∧
    (do g.render {} (← g.inline "<t(x, y)>") (.ofList [("x", .int 1), ("y", .int 2)])) = .ok "2" ∧
    (Group.change {} (.source "t(a, a) ::= \"<a>\"")).2 =
      some (.malformed "<group>" ⟨⟨0, 17⟩, .repeatedParameter "a" "t"⟩) := by
  intro repeated g
  exact ⟨by decide +kernel, by decide +kernel, by decide +kernel, by decide +kernel⟩

end Group

end Stencil

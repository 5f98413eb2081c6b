import Stencil.Proofs.Reading
import Stencil.Proofs.Template.Erase
import Stencil.Proofs.Template.Print

/-!
# The grammar of templates

The grammar relates tokens to the trees that they are a way to write (`IsNodes`); it says nothing about how
tokens are read, nor about places. Paths, arguments and settings have one way to be written each, so there
their tokens are named. A list of settings may stand in any order.
-/

namespace Stencil.Template

/-! ## Expressions without targets -/

/-- The tokens are a way to write the primary: a path, a list function with its argument, or a call of
anything that is not a list function. -/
inductive IsPrimary : List Token → Primary Unit → Prop where
  | path (p : Path Unit) : IsPrimary p.tokens (.path p)
  | function (fn : ListFunction) (a : Argument Unit) :
    IsPrimary ([.word fn.name, .parenOpen] ++ a.tokens ++ [.parenClose]) (.function fn a)
  | call {name : String} (args : List (Argument Unit)) : (∀ fn : ListFunction, fn.name ≠ name) →
    IsPrimary ([.word name, .parenOpen] ++ [.comma].intercalate (args.map Argument.tokens) ++ [.parenClose])
      (.call name () args)

/-- A width that the setting names is positive. -/
def Setting.Positive (s : Setting) : Prop :=
  ∀ n, s = .wrap (.width n) → 0 < n

def Options.Has (o : Options) : Setting → Prop
  | .format s => o.format = some s
  | .wrap w => o.wrap = some w
  | .anchor => o.anchor = true
  | .separator s => o.separator = some s

/-- The tokens are a way to write the options: a semicolon and settings of pairwise different options, which
are those that the options have. Options without any setting are written as nothing. -/
inductive IsOptions : List Token → Options → Prop where
  | empty : IsOptions [] {}
  | settings {found : List Setting} {o : Options} : found ≠ [] → (∀ s ∈ found, s.Positive) →
    (found.map Setting.key).Nodup → (∀ s, s ∈ found ↔ o.Has s) →
    IsOptions (.semicolon :: [.comma].intercalate (found.map Setting.tokens)) o

/-! ## Nodes and targets -/

mutual

/-- The tokens are a way to write the node: a text, a region without a text of its own, a region with one, or
an expression. -/
inductive IsNode : List Token → Node Unit → Prop where
  | literal (text : String) : IsNode [.text text] (.literal text ())
  | slot {name : String} : name ≠ "end" →
    IsNode [.startDelimiter, .atSign, .word name, .parenOpen, .parenClose, .stopDelimiter] (.slot name ())
  | region {name : String} {us : List Token} {body : List (Node Unit)} : name ≠ "end" → IsNodes us body →
    IsNode ([.startDelimiter, .atSign, .word name, .stopDelimiter] ++ us ++
      [.startDelimiter, .atSign, .word "end", .stopDelimiter]) (.region name body ())
  | expression {us vs ws : List Token} {p : Primary Unit} {ts : List (Target Unit)} {o : Options} :
    IsPrimary us p → IsTargets vs ts → IsOptions ws o →
    IsNode ([.startDelimiter] ++ us ++ vs ++ ws ++ [.stopDelimiter]) (.expression p ts o ())

/-- The tokens are a way to write the nodes, one after the other. -/
inductive IsNodes : List Token → List (Node Unit) → Prop where
  | nil : IsNodes [] []
  | cons {us vs : List Token} {n : Node Unit} {ns : List (Node Unit)} : IsNode us n → IsNodes vs ns →
    IsNodes (us ++ vs) (n :: ns)

/-- The tokens are a way to write the target, without its colon: a body in braces behind at most two
parameters, or the name of a template. -/
inductive IsTarget : List Token → Target Unit → Prop where
  | anonymous {params : List String} {us : List Token} {body : List (Node Unit)} : params.length ≤ 2 →
    IsNodes us body →
    IsTarget ([.braceOpen] ++ parameterTokens params ++ us ++ [.braceClose]) (.anonymous params body ())
  | named (name : String) : IsTarget [.word name, .parenOpen, .parenClose] (.named name ())

/-- The tokens are a way to write the targets, each behind a colon. -/
inductive IsTargets : List Token → List (Target Unit) → Prop where
  | nil : IsTargets [] []
  | cons {us vs : List Token} {t : Target Unit} {ts : List (Target Unit)} : IsTarget us t → IsTargets vs ts →
    IsTargets (.colon :: us ++ vs) (t :: ts)

end

/-! ## How derivations begin -/

/-- A token that begins no node does not stand in front because of nodes. -/
theorem IsNodes.head_ne {us : List Token} {ns : List (Node Unit)} (h : IsNodes us ns) {t : Token}
    (htext : ∀ s, t ≠ .text s) (hstart : t ≠ .startDelimiter) {rest : List Token} (hrest : rest.head? ≠ some t) :
    (us ++ rest).head? ≠ some t := by
  cases h with
  | nil => exact hrest
  | cons hn _ =>
    cases hn with
    | literal text => exact fun h => htext text (Option.some.inj h).symm
    | slot _ => exact fun h => hstart (Option.some.inj h).symm
    | region _ _ => exact fun h => hstart (Option.some.inj h).symm
    | expression _ _ _ => exact fun h => hstart (Option.some.inj h).symm

theorem IsTargets.head_ne {us : List Token} {ts : List (Target Unit)} (h : IsTargets us ts) {t : Token}
    (ht : t ≠ .colon) {rest : List Token} (hrest : rest.head? ≠ some t) : (us ++ rest).head? ≠ some t := by
  cases h with
  | nil => exact hrest
  | cons _ _ => exact fun h => ht (Option.some.inj h).symm

theorem IsOptions.head_ne {us : List Token} {o : Options} (h : IsOptions us o) {t : Token} (ht : t ≠ .semicolon)
    (hstop : t ≠ .stopDelimiter) (rest : List Token) : (us ++ .stopDelimiter :: rest).head? ≠ some t := by
  cases h with
  | empty => exact fun h => hstop (Option.some.inj h).symm
  | settings _ _ _ _ => exact fun h => ht (Option.some.inj h).symm

theorem IsPrimary.exists_word {us : List Token} {p : Primary Unit} (h : IsPrimary us p) :
    ∃ name more, us = .word name :: more := by
  cases h with
  | path p => exact ⟨_, _, rfl⟩
  | function fn a => exact ⟨_, _, rfl⟩
  | call args _ => exact ⟨_, _, rfl⟩

/-! ## Lists with commas -/

theorem Argument.tokensAll_eq {σ : Type} (args : List (Argument σ)) :
    Argument.tokensAll args = [.comma].intercalate (args.map Argument.tokens) ++ [.parenClose] := by
  induction args with
  | nil => rfl
  | cons a args ih =>
    cases args with
    | nil => simp [Argument.tokensAll, Argument.furtherTokens]
    | cons b args =>
      rw [List.map_cons, List.map_cons, List.intercalate_cons_cons, ← List.map_cons, List.append_assoc, ← ih]
      simp [Argument.tokensAll, Argument.furtherTokens]

theorem Argument.tokens_map {σ : Type} (a : Argument σ) : (a.map fun _ => ()).tokens = a.tokens := by
  cases a <;> rfl

theorem isPrimary_call {σ : Type} {name : String} (hname : ∀ fn : ListFunction, fn.name ≠ name)
    (args : List (Argument σ)) :
    IsPrimary (.word name :: .parenOpen :: Argument.tokensAll args)
      (.call name () (args.map (Argument.map fun _ => ()))) := by
  have hargs : (args.map (Argument.map fun _ => ())).map Argument.tokens = args.map Argument.tokens := by
    rw [List.map_map]
    exact List.map_congr_left fun a _ => a.tokens_map
  have hcall := IsPrimary.call (args.map (Argument.map fun _ => ())) hname
  rwa [hargs, List.append_assoc [_, _], ← Argument.tokensAll_eq] at hcall

theorem isPrimary_function {σ : Type} (fn : ListFunction) (a : Argument σ) :
    IsPrimary (.word fn.name :: .parenOpen :: Argument.tokensAll [a]) (.function fn (a.map fun _ => ())) := by
  have hfunction := IsPrimary.function fn (a.map fun _ => ())
  rwa [a.tokens_map, List.append_assoc [_, _]] at hfunction

theorem Setting.tokensAll_eq (found : List Setting) :
    Setting.tokensAll found = [.comma].intercalate (found.map Setting.tokens) := by
  induction found with
  | nil => rfl
  | cons s found ih =>
    cases found with
    | nil => simp [Setting.tokensAll]
    | cons s' found =>
      rw [List.map_cons, List.map_cons, List.intercalate_cons_cons, ← List.map_cons, ← ih]
      simp [Setting.tokensAll]

/-! ## Settings and options -/

namespace Options

theorem has_apply {o : Options} {s s' : Setting} :
    (o.apply s).Has s' ↔ s = s' ∨ (o.Has s' ∧ s'.key ≠ s.key) := by
  cases s <;> cases s' <;> simp [Options.apply, Has, Setting.key]

theorem not_has_empty (s : Setting) : ¬ Options.Has {} s := by
  cases s <;> simp [Has]

theorem eq_of_has {o o' : Options} (h : ∀ s, o.Has s ↔ o'.Has s) : o = o' := by
  obtain ⟨format, wrap, anchor, separator⟩ := o
  obtain ⟨format', wrap', anchor', separator'⟩ := o'
  have hformat : format = format' := Option.ext fun x => h (.format x)
  have hwrap : wrap = wrap' := Option.ext fun x => h (.wrap x)
  have hanchor : anchor = anchor' := Bool.eq_iff_iff.2 (h .anchor)
  have hseparator : separator = separator' := Option.ext fun x => h (.separator x)
  rw [hformat, hwrap, hanchor, hseparator]

/-- Settings of pairwise different options take nothing back from each other. -/
theorem has_foldl_apply {found : List Setting} (hfound : (found.map Setting.key).Nodup) {o : Options}
    (ho : ∀ s ∈ found, ∀ s', o.Has s' → s'.key ≠ s.key) (s : Setting) :
    (found.foldl Options.apply o).Has s ↔ o.Has s ∨ s ∈ found := by
  induction found generalizing o with
  | nil => simp
  | cons t found ih =>
    rw [List.map_cons, List.nodup_cons] at hfound
    have hother : ∀ s ∈ found, s.key ≠ t.key :=
      fun s hs hkey => hfound.1 (hkey ▸ List.mem_map_of_mem hs)
    rw [List.foldl_cons, ih hfound.2, has_apply, List.mem_cons]
    · constructor
      · rintro ((rfl | ⟨hs, -⟩) | hs)
        · exact .inr (.inl rfl)
        · exact .inl hs
        · exact .inr (.inr hs)
      · rintro (hs | rfl | hs)
        · exact .inl (.inr ⟨hs, ho t List.mem_cons_self s hs⟩)
        · exact .inl (.inl rfl)
        · exact .inr hs
    · intro s hs s' hs'
      rcases has_apply.1 hs' with rfl | ⟨hs', -⟩
      · exact (hother s hs).symm
      · exact ho s (List.mem_cons_of_mem _ hs) s' hs'

/-- The options that have the settings are those that the settings give one after the other. -/
theorem foldl_apply_eq_iff {found : List Setting} (hfound : (found.map Setting.key).Nodup) {o : Options} :
    found.foldl Options.apply {} = o ↔ ∀ s, s ∈ found ↔ o.Has s := by
  have hhas : ∀ s, (found.foldl Options.apply {}).Has s ↔ s ∈ found := by
    intro s
    rw [has_foldl_apply hfound fun _ _ s' hs' => absurd hs' (not_has_empty s')]
    simp [not_has_empty]
  constructor
  · rintro rfl s
    exact (hhas s).symm
  · exact fun h => eq_of_has fun s => (hhas s).trans (h s)

end Options

/-- No option is set twice exactly if the options are pairwise different. -/
theorem repeated?_eq_none_iff {seen : List OptionKey} {found : List Setting} :
    repeated? seen found = none ↔ (found.map Setting.key).Nodup ∧ ∀ s ∈ found, s.key ∉ seen :=
  search_eq_none_iff (fun _ => rfl) fun _ _ _ => rfl

end Stencil.Template

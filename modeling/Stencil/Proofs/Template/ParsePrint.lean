import Stencil.Proofs.Template.Completeness

/-!
# The tokens of printed trees

The tokens of a well-formed tree are a way to write it (`isNodes_tokensAll`), so the parser reads them as
this tree.
-/

namespace Stencil.Template

variable {σ : Type}

theorem isPrimary_tokens {p : Primary σ} (hp : p.wellFormed = true) :
    IsPrimary p.tokens (p.map fun _ => ()) := by
  cases p with
  | path p => exact .path (p.map fun _ => ())
  | call name place args =>
    rw [Primary.wellFormed, Bool.and_eq_true, Bool.and_eq_true, Option.isNone_iff_eq_none] at hp
    exact isPrimary_call (ofName?_eq_none_iff.1 hp.1.2) args
  | function fn arg => exact isPrimary_function fn arg

theorem Options.mem_settings {o : Options} {s : Setting} : s ∈ o.settings ↔ o.Has s := by
  obtain ⟨format, wrap, anchor, separator⟩ := o
  cases format <;> cases wrap <;> cases anchor <;> cases separator <;> cases s <;>
    simp [Options.settings, Options.Has, eq_comm]

theorem Options.nodup_settings (o : Options) : (o.settings.map Setting.key).Nodup := by
  obtain ⟨format, wrap, anchor, separator⟩ := o
  cases format <;> cases wrap <;> cases anchor <;> cases separator <;>
    simp [Options.settings, Setting.key]

theorem isOptions_tokens {o : Options} (ho : o.wellFormed = true) : IsOptions o.tokens o := by
  rw [Options.tokens]
  split
  · next h =>
    have hempty : o = {} := Options.eq_of_has fun s => by
      rw [← Options.mem_settings, h]
      simp [Options.not_has_empty]
    rw [hempty]
    exact .empty
  · next h =>
    rw [Setting.tokensAll_eq]
    exact .settings h (fun s hs n hn => (Options.wellFormed_settings ho s hs n hn).1) o.nodup_settings
      fun _ => Options.mem_settings

mutual

/-- The tokens of a well-formed node are a way to write it. -/
theorem isNode_tokens {n : Node σ} (hn : n.wellFormed = true) : IsNode n.tokens (n.map (fun _ => ()) id) := by
  match n with
  | .literal text place => exact .literal text
  | .slot name place =>
    rw [Node.wellFormed, Bool.and_eq_true, bne_iff_ne] at hn
    exact .slot hn.2
  | .region name body place =>
    rw [Node.wellFormed, Bool.and_eq_true, Bool.and_eq_true, bne_iff_ne] at hn
    exact .region hn.1.2 (isNodes_tokensAll hn.2)
  | .expression p ts o place =>
    rw [Node.wellFormed, Bool.and_eq_true, Bool.and_eq_true] at hn
    have hexpression := IsNode.expression (isPrimary_tokens hn.1.1) (isTargets_tokensAll hn.1.2)
      (isOptions_tokens hn.2)
    simpa [Node.tokens, Node.map] using hexpression

theorem isNodes_tokensAll {ns : List (Node σ)} (hns : Node.wellFormedAll ns = true) :
    IsNodes (Node.tokensAll ns) (Node.eraseAll ns) := by
  match ns with
  | [] => exact .nil
  | n :: ns =>
    rw [Node.wellFormedAll, Bool.and_eq_true, Bool.and_eq_true] at hns
    exact .cons (isNode_tokens hns.1.1) (isNodes_tokensAll hns.2)

theorem isTarget_tokens {t : Target σ} (ht : t.wellFormed = true) :
    ∃ us, t.tokens = .colon :: us ∧ IsTarget us (t.map (fun _ => ()) id) := by
  match t with
  | .named name place => exact ⟨_, rfl, .named name⟩
  | .anonymous params body place =>
    rw [Target.wellFormed, Bool.and_eq_true, Bool.and_eq_true] at ht
    exact ⟨_, rfl, .anonymous (of_decide_eq_true ht.1.1) (isNodes_tokensAll ht.2)⟩

theorem isTargets_tokensAll {ts : List (Target σ)} (hts : Target.wellFormedAll ts = true) :
    IsTargets (Target.tokensAll ts) (Target.mapAll (fun _ => ()) id ts) := by
  match ts with
  | [] => exact .nil
  | t :: ts =>
    rw [Target.wellFormedAll, Bool.and_eq_true] at hts
    obtain ⟨us, htokens, ht⟩ := isTarget_tokens hts.1
    rw [Target.tokensAll, htokens]
    exact .cons ht (isTargets_tokensAll hts.2)

end

end Stencil.Template

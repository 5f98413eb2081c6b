import Mathlib.Data.List.Forall2

/-!
# Runs that may fail

`FailsOnly` says of a run that the errors it can end with are all of one kind. Two runs agree if they fail with the
same error or have related results. For statements about runs that one side may cut off (a limit on nesting),
`AgreeUnless` lets the first run also stop with an error of a given kind, whatever the second one does. Both are
kept by sequencing (`FailsOnly.bind`, `AgreeUnless.bind`), so they are proved of a whole run from its steps.
-/

namespace Stencil

variable {ε α β γ δ : Type}

theorem bind_eq_ok {x : Except ε α} {f : α → Except ε β} {b : β} :
    x >>= f = .ok b ↔ ∃ a, x = .ok a ∧ f a = .ok b := by
  cases x with
  | error e => constructor <;> simp [bind, Except.bind]
  | ok a => simp [bind, Except.bind]

theorem map_eq_ok {x : Except ε α} {f : α → β} {b : β} : x.map f = .ok b ↔ ∃ a, x = .ok a ∧ f a = b := by
  cases x with
  | error e => simp [Except.map]
  | ok a => simp [Except.map]

theorem map_eq_error {x : Except ε α} {f : α → β} {e : ε} : x.map f = .error e ↔ x = .error e := by
  cases x with
  | error e' => simp [Except.map]
  | ok a => simp [Except.map]

theorem eq_ok_of_toOption {x : Except ε α} {a : α} (h : x.toOption = some a) : x = .ok a := by
  cases x with
  | error e => cases h
  | ok a' => exact congrArg Except.ok (Option.some_inj.1 h)

theorem map_map (x : Except ε α) (f : α → β) (g : β → γ) : (x.map f).map g = x.map fun a => g (f a) := by
  cases x <;> rfl

theorem map_congr_of_ok {x : Except ε α} {f g : α → β} (h : ∀ a, x = .ok a → f a = g a) : x.map f = x.map g := by
  cases x with
  | error e => rfl
  | ok a => exact congrArg Except.ok (h a rfl)

/-- A list of results is a result of every element. -/
theorem mapM_eq_ok_iff {f : α → Except ε β} {xs : List α} {ys : List β} :
    xs.mapM f = .ok ys ↔ List.Forall₂ (fun x y => f x = .ok y) xs ys := by
  induction xs generalizing ys with
  | nil =>
    rw [List.forall₂_nil_left_iff, List.mapM_nil]
    constructor
    · rintro ⟨⟩
      rfl
    · rintro rfl
      rfl
  | cons x xs ih =>
    rw [List.mapM_cons, bind_eq_ok, List.forall₂_cons_left_iff]
    constructor
    · rintro ⟨y, hy, h⟩
      obtain ⟨zs, hzs, h⟩ := bind_eq_ok.1 h
      cases h
      exact ⟨y, zs, hy, ih.1 hzs, rfl⟩
    · rintro ⟨y, zs, hy, hzs, rfl⟩
      exact ⟨y, hy, bind_eq_ok.2 ⟨zs, ih.2 hzs, rfl⟩⟩

/-- The first element without a result has the error of all. -/
theorem mapM_eq_error_iff {f : α → Except ε β} {xs : List α} {e : ε} :
    xs.mapM f = .error e ↔ ∃ before x after, xs = before ++ x :: after ∧ (∀ y ∈ before, ∃ z, f y = .ok z) ∧
      f x = .error e := by
  induction xs with
  | nil =>
    constructor
    · rintro ⟨⟩
    · rintro ⟨before, x, after, h, -⟩
      simp at h
  | cons x xs ih =>
    rw [List.mapM_cons]
    cases hx : f x with
    | error e' =>
      constructor
      · rintro ⟨⟩
        exact ⟨[], x, xs, rfl, List.forall_mem_nil _, hx⟩
      · rintro ⟨before, y, after, h, hbefore, hy⟩
        cases before with
        | nil =>
          cases h
          cases hx.symm.trans hy
          rfl
        | cons b before =>
          cases h
          obtain ⟨z, hz⟩ := hbefore _ List.mem_cons_self
          cases hx.symm.trans hz
    | ok z =>
      have hrest : (do return z :: (← xs.mapM f)) = .error e ↔ xs.mapM f = .error e := by
        cases xs.mapM f with
        | error e' => exact Iff.rfl
        | ok zs => exact iff_of_false (fun h => nomatch h) fun h => nomatch h
      refine hrest.trans (ih.trans ?_)
      constructor
      · rintro ⟨before, y, after, rfl, hbefore, hy⟩
        exact ⟨x :: before, y, after, rfl, List.forall_mem_cons.2 ⟨⟨z, hx⟩, hbefore⟩, hy⟩
      · rintro ⟨before, y, after, h, hbefore, hy⟩
        cases before with
        | nil =>
          cases h
          cases hx.symm.trans hy
        | cons b before =>
          cases h
          exact ⟨before, y, after, rfl, fun y hy => hbefore y (List.mem_cons_of_mem _ hy), hy⟩

theorem exists_mem_of_forall₂ {R : α → β → Prop} {xs : List α} {ys : List β} (h : List.Forall₂ R xs ys) {y : β}
    (hy : y ∈ ys) : ∃ x ∈ xs, R x y := by
  induction h with
  | nil => cases hy
  | @cons x _ xs _ hxy _ ih =>
    rcases List.mem_cons.1 hy with rfl | hy
    · exact ⟨x, List.mem_cons_self, hxy⟩
    · obtain ⟨x', hx', h⟩ := ih hy
      exact ⟨x', List.mem_cons_of_mem x hx', h⟩

/-- Two relations after each other, element by element. -/
theorem forall₂_exists_iff {R : α → β → Prop} {S : β → γ → Prop} {xs : List α} {zs : List γ} :
    List.Forall₂ (fun x z => ∃ y, R x y ∧ S y z) xs zs ↔ ∃ ys, List.Forall₂ R xs ys ∧ List.Forall₂ S ys zs := by
  constructor
  · intro h
    induction h with
    | nil => exact ⟨[], .nil, .nil⟩
    | cons hxz _ ih =>
      obtain ⟨y, hxy, hyz⟩ := hxz
      obtain ⟨ys, hxs, hzs⟩ := ih
      exact ⟨y :: ys, .cons hxy hxs, .cons hyz hzs⟩
  · rintro ⟨ys, hxs, hzs⟩
    induction hxs generalizing zs with
    | nil =>
      cases hzs
      exact .nil
    | cons hxy _ ih =>
      cases hzs with
      | cons hyz hzs => exact .cons ⟨_, hxy, hyz⟩ (ih hzs)

/-! ## Failures of one kind -/

section
variable {P : ε → Prop}

/-- The run ends with a result, or with an error of the kind. -/
def FailsOnly (P : ε → Prop) (x : Except ε α) : Prop :=
  ∀ e, x = .error e → P e

namespace FailsOnly

theorem ok (a : α) : FailsOnly P (.ok a : Except ε α) :=
  fun _ h => nomatch h

theorem error {e : ε} (he : P e) : FailsOnly P (.error e : Except ε α) := by
  rintro _ ⟨⟩
  exact he

/-- What follows has to keep to the kind only on results that the first run can have. -/
theorem bind_of_ok {x : Except ε α} {f : α → Except ε β} (hx : FailsOnly P x)
    (hf : ∀ a, x = .ok a → FailsOnly P (f a)) : FailsOnly P (x >>= f) := by
  cases x with
  | error e => exact .error (hx e rfl)
  | ok a => exact hf a rfl

theorem bind {x : Except ε α} {f : α → Except ε β} (hx : FailsOnly P x) (hf : ∀ a, FailsOnly P (f a)) :
    FailsOnly P (x >>= f) :=
  hx.bind_of_ok fun a _ => hf a

theorem foldlM {f : β → α → Except ε β} {xs : List α} (hf : ∀ b, ∀ x ∈ xs, FailsOnly P (f b x)) (b : β) :
    FailsOnly P (xs.foldlM f b) := by
  induction xs generalizing b with
  | nil => exact ok b
  | cons x xs ih =>
    rw [List.foldlM_cons]
    exact (hf b x List.mem_cons_self).bind fun b' => ih (fun c y hy => hf c y (List.mem_cons_of_mem x hy)) b'

theorem mapM {f : α → Except ε β} {xs : List α} (hf : ∀ x ∈ xs, FailsOnly P (f x)) :
    FailsOnly P (xs.mapM f) := by
  induction xs with
  | nil => exact ok []
  | cons x xs ih =>
    rw [List.mapM_cons]
    refine (hf x List.mem_cons_self).bind fun y => ?_
    exact (ih fun z hz => hf z (List.mem_cons_of_mem x hz)).bind fun ys => ok (y :: ys)

end FailsOnly
end

/-! ## Two runs side by side -/

/-- The first run stops with an error of kind `cut`, or both fail with one error, or both have results that
`R` relates. -/
inductive AgreeUnless (cut : ε → Prop) (R : α → β → Prop) : Except ε α → Except ε β → Prop where
  | ok {a : α} {b : β} : R a b → AgreeUnless cut R (.ok a) (.ok b)
  | error (e : ε) : AgreeUnless cut R (.error e) (.error e)
  | cut {e : ε} (y : Except ε β) : cut e → AgreeUnless cut R (.error e) y

/-- Both runs fail with one error, or both have results that `R` relates. -/
abbrev Agree (R : α → β → Prop) : Except ε α → Except ε β → Prop :=
  AgreeUnless (fun _ => False) R

namespace AgreeUnless

variable {cut : ε → Prop} {R : α → β → Prop} {S : γ → δ → Prop}

/-- What follows has to agree only on results that the first step can have. -/
theorem bind_of_ok {x : Except ε α} {y : Except ε β} {f : α → Except ε γ} {g : β → Except ε δ}
    (h : AgreeUnless cut R x y) (hfg : ∀ a b, x = .ok a → R a b → AgreeUnless cut S (f a) (g b)) :
    AgreeUnless cut S (x >>= f) (y >>= g) := by
  cases h with
  | ok hab => exact hfg _ _ rfl hab
  | error e => exact .error e
  | cut y he => exact .cut _ he

theorem bind {x : Except ε α} {y : Except ε β} {f : α → Except ε γ} {g : β → Except ε δ}
    (h : AgreeUnless cut R x y) (hfg : ∀ a b, R a b → AgreeUnless cut S (f a) (g b)) :
    AgreeUnless cut S (x >>= f) (y >>= g) :=
  h.bind_of_ok fun a b _ => hfg a b

/-- Agreement as an equation, where the second result is computed from the first. -/
theorem map_eq {x : Except ε α} {y : Except ε β} (h : Agree R x y) {f : α → γ} {g : β → δ} {k : γ → δ}
    (hk : ∀ a b, R a b → g b = k (f a)) : y.map g = (x.map f).map k := by
  cases h with
  | ok hab => exact congrArg Except.ok (hk _ _ hab)
  | error e => rfl
  | cut y he => exact he.elim

theorem map_congr {x : Except ε α} {y : Except ε β} (h : Agree R x y) {f : α → γ} {g : β → γ}
    (hfg : ∀ a b, R a b → f a = g b) : x.map f = y.map g := by
  cases h with
  | ok hab => exact congrArg Except.ok (hfg _ _ hab)
  | error e => rfl
  | cut y he => exact he.elim

theorem eq_of {R : α → α → Prop} {x y : Except ε α} (h : Agree R x y) (hR : ∀ a b, R a b → a = b) : x = y := by
  cases h with
  | ok hab => rw [hR _ _ hab]
  | error e => rfl
  | cut y he => exact he.elim

/-- A run that is not cut off has the result of the other. -/
theorem eq_of_not_cut {x y : Except ε α} (h : AgreeUnless cut Eq x y) (hx : ∀ e, cut e → x ≠ .error e) :
    y = x := by
  cases h with
  | ok hab => rw [hab]
  | error e => rfl
  | cut y he => exact absurd rfl (hx _ he)

/-- Runs that are the same both ways are the same, unless either of them is cut off. -/
theorem eq_or_cut {cut' : ε → Prop} {x y : Except ε α} (h : AgreeUnless cut Eq x y) (h' : AgreeUnless cut' Eq y x) :
    x = y ∨ (∃ e, cut e ∧ x = .error e) ∧ ∃ e, cut' e ∧ y = .error e := by
  cases h with
  | ok hab => exact .inl (congrArg Except.ok hab)
  | error e => exact .inl rfl
  | @cut e y he =>
    cases h' with
    | error e => exact .inl rfl
    | @cut e' _ he' => exact .inr ⟨⟨e, he, rfl⟩, e', he', rfl⟩

theorem of_agree {x : Except ε α} {y : Except ε β} (h : Agree R x y) : AgreeUnless cut R x y := by
  cases h with
  | ok hab => exact .ok hab
  | error e => exact .error e
  | cut y he => exact he.elim

/-- A run agrees with itself. -/
theorem rfl' {R : α → α → Prop} (hR : ∀ a, R a a) (x : Except ε α) : AgreeUnless cut R x x := by
  cases x with
  | ok a => exact .ok (hR a)
  | error e => exact .error e

/-- A run agrees with itself where the result is changed afterwards. -/
theorem map_self (x : Except ε α) (k : α → β) : AgreeUnless cut (fun a b => b = k a) x (x.map k) := by
  cases x with
  | ok a => exact .ok rfl
  | error e => exact .error e

theorem mapM {f : α → Except ε γ} {g : β → Except ε δ}
    (hfg : ∀ a b, R a b → AgreeUnless cut S (f a) (g b)) {xs : List α} {ys : List β}
    (h : List.Forall₂ R xs ys) : AgreeUnless cut (List.Forall₂ S) (xs.mapM f) (ys.mapM g) := by
  induction h with
  | nil => exact .ok .nil
  | cons hab _ ih =>
    rw [List.mapM_cons, List.mapM_cons]
    refine (hfg _ _ hab).bind fun c d hcd => ?_
    exact ih.bind fun cs ds hs => .ok (.cons hcd hs)

theorem foldlM {f : γ → α → Except ε γ} {g : δ → β → Except ε δ}
    (hfg : ∀ c d a b, S c d → R a b → AgreeUnless cut S (f c a) (g d b)) {xs : List α} {ys : List β}
    (h : List.Forall₂ R xs ys) {c : γ} {d : δ} (hcd : S c d) :
    AgreeUnless cut S (xs.foldlM f c) (ys.foldlM g d) := by
  induction h generalizing c d with
  | nil => exact .ok hcd
  | cons hab _ ih =>
    rw [List.foldlM_cons, List.foldlM_cons]
    exact (hfg _ _ _ _ hcd hab).bind fun _ _ h => ih h

end AgreeUnless

/-! ## Runs that fail together -/

/-- Both runs fail, each with an error of its own, or both have results that `R` relates. -/
inductive Concur (R : α → β → Prop) : Except ε α → Except ε β → Prop where
  | ok {a : α} {b : β} : R a b → Concur R (.ok a) (.ok b)
  | error (e e' : ε) : Concur R (.error e) (.error e')

namespace Concur

variable {R : α → β → Prop} {S : γ → δ → Prop} {x : Except ε α} {y : Except ε β}

theorem bind (h : Concur R x y) {f : α → Except ε γ} {g : β → Except ε δ}
    (hfg : ∀ a b, R a b → Concur S (f a) (g b)) : Concur S (x >>= f) (y >>= g) := by
  cases h with
  | ok hab => exact hfg _ _ hab
  | error e e' => exact .error e e'

/-- Runs concur if each of them has a result where the other one has. -/
theorem of_ok (h : ∀ a, x = .ok a → ∃ b, y = .ok b ∧ R a b) (h' : ∀ b, y = .ok b → ∃ a, x = .ok a) :
    Concur R x y := by
  cases x with
  | ok a =>
    obtain ⟨b, rfl, hab⟩ := h a rfl
    exact .ok hab
  | error e =>
    cases y with
    | ok b =>
      obtain ⟨a, ha⟩ := h' b rfl
      cases ha
    | error e' => exact .error e e'

theorem of_toOption_map {f : α → γ} {g : β → γ} (h : x.toOption.map f = y.toOption.map g) :
    Concur (fun a b => f a = g b) x y := by
  cases x <;> cases y
  · exact .error _ _
  · cases h
  · cases h
  · exact .ok (Option.some.inj h)

/-- Seen without their errors, the results are the same after functions that do not tell related ones apart. -/
theorem toOption_map (h : Concur R x y) {f : α → γ} {g : β → γ} (hfg : ∀ a b, R a b → f a = g b) :
    x.toOption.map f = y.toOption.map g := by
  cases h with
  | ok hab => exact congrArg some (hfg _ _ hab)
  | error e e' => rfl

end Concur

end Stencil

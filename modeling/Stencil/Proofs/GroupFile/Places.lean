import Stencil.Proofs.GroupFile.ErrorSpans
import Stencil.Proofs.GroupFile.Print
import Stencil.Proofs.Reading

/-!
# Parsing does not look at places

The parser of group files decides by the tokens alone and only writes down where they stand. From the same tokens
at other places it reads the same declarations, places aside, or fails as well (`parseTokens_alike`), so what a
source declares (`declared?`) is known from its tokens (`declared?_congr`).
-/

namespace Stencil.GroupFile

open Template (Delimiters Parameter)

variable {eof eof' : Span} {ts ts' : List Lexeme}

/-! ## Single tokens -/

theorem expect_alike (expected : List Token) (stop stop' : Nat) (h : SameTokens ts ts') :
    ReadsAlike (fun _ _ => True) (expect eof expected stop ts) (expect eof' expected stop' ts') := by
  induction expected generalizing stop stop' ts ts' with
  | nil => exact .ok trivial h
  | cons e expected ih =>
    match ts, ts' with
    | [], [] => exact .error _ _
    | ⟨t, place⟩ :: r, ts' =>
      obtain ⟨place', r', rfl, hr⟩ := h.cons
      rw [expect, expect]
      dsimp only
      split
      · exact (ih place.stop place'.stop hr).bind fun _ _ _ _ _ _ _ hafter => .ok trivial hafter
      · exact .error _ _

theorem name_alike (h : SameTokens ts ts') : ReadsAlike Eq (name eof ts) (name eof' ts') := by
  match ts, ts' with
  | [], [] => exact .error _ _
  | ⟨t, place⟩ :: r, ts' =>
    obtain ⟨place', r', rfl, hr⟩ := h.cons
    cases t with
    | word n => exact .ok rfl hr
    | _ => exact .error _ _

theorem str_alike (h : SameTokens ts ts') : ReadsAlike (·.1 = ·.1) (str eof ts) (str eof' ts') := by
  match ts, ts' with
  | [], [] => exact .error _ _
  | ⟨t, place⟩ :: r, ts' =>
    obtain ⟨place', r', rfl, hr⟩ := h.cons
    cases t with
    | str s => exact .ok rfl hr
    | _ => exact .error _ _

theorem body_alike (h : SameTokens ts ts') : ReadsAlike (·.1 = ·.1) (body eof ts) (body eof' ts') := by
  match ts, ts' with
  | [], [] => exact .error _ _
  | ⟨t, place⟩ :: r, ts' =>
    obtain ⟨place', r', rfl, hr⟩ := h.cons
    cases t with
    | str s => exact .ok rfl hr
    | block s => exact .ok rfl hr
    | joinedBlock s => exact .ok rfl hr
    | _ => exact .error _ _

/-! ## Parameters -/

theorem parameter_alike (h : SameTokens ts ts') : ReadsAlike Eq (parameter eof ts) (parameter eof' ts') := by
  match ts, ts' with
  | [], [] => exact .error _ _
  | ⟨t, place⟩ :: r, ts' =>
    obtain ⟨place', r', rfl, hr⟩ := h.cons
    cases t with
    | word n =>
      match r, r' with
      | [], [] => exact .ok rfl hr
      | ⟨t₁, place₁⟩ :: r₁, r' =>
        obtain ⟨place₁', r₁', rfl, hr₁⟩ := hr.cons
        cases t₁ with
        | equals =>
          refine (str_alike hr₁).bind fun found found' _ _ _ _ hfound hafter => .ok ?_ hafter
          exact congrArg (fun s => (⟨n, some s⟩ : Parameter)) hfound
        | _ => exact .ok rfl hr
    | _ => exact .error _ _

theorem furtherParameters_alike (h : SameTokens ts ts') :
    ReadsAlike Eq (furtherParameters eof ts) (furtherParameters eof' ts') := by
  fun_induction furtherParameters eof ts generalizing ts' with
  | case1 place r =>
    obtain ⟨place', r', rfl, hr⟩ := h.cons
    rw [furtherParameters]
    exact .ok rfl hr
  | case2 place r ih =>
    obtain ⟨place', r', rfl, hr⟩ := h.cons
    rw [furtherParameters]
    refine (parameter_alike hr).bind fun p p' r₁ r₁' hle hle' hp hr₁ => ?_
    refine (ih r₁ hle hr₁).bind fun more more' _ _ _ _ hmore hafter => .ok ?_ hafter
    exact congrArg₂ List.cons hp hmore
  | case3 ts hclose hcomma =>
    rw [furtherParameters]
    · exact .error _ _
    · rintro place' r' rfl
      obtain ⟨place, r, rfl, -⟩ := h.symm.cons
      exact hclose place r rfl
    · rintro place' r' rfl
      obtain ⟨place, r, rfl, -⟩ := h.symm.cons
      exact hcomma place r rfl

theorem parameters_alike (h : SameTokens ts ts') : ReadsAlike Eq (parameters eof ts) (parameters eof' ts') := by
  fun_cases parameters eof ts with
  | case1 place r =>
    obtain ⟨place', r', rfl, hr⟩ := h.cons
    rw [parameters]
    exact .ok rfl hr
  | case2 =>
    rename_i hclose
    rw [parameters, parameters]
    · refine (parameter_alike h).bind fun p p' r₁ r₁' _ _ hp hr₁ => ?_
      refine (furtherParameters_alike hr₁).bind fun more more' _ _ _ _ hmore hafter => .ok ?_ hafter
      exact congrArg₂ List.cons hp hmore
    · rintro place' r' rfl
      obtain ⟨place, r, rfl, -⟩ := h.symm.cons
      exact hclose place r rfl
    · exact hclose

/-! ## Declarations -/

theorem templateDecl_alike (start start' : Nat) (n : String) (h : SameTokens ts ts') :
    ReadsAlike (·.erase = ·.erase) (templateDecl eof start n ts) (templateDecl eof' start' n ts') := by
  unfold templateDecl
  refine (expect_alike [.parenOpen] start start' h).bind fun _ _ r₂ r₂' _ _ _ h₂ => ?_
  refine (parameters_alike h₂).bind fun params params' r₃ r₃' _ _ hparams h₃ => ?_
  refine (expect_alike [.defines] start start' h₃).bind fun _ _ r₄ r₄' _ _ _ h₄ => ?_
  refine (body_alike h₄).bind fun found found' rest rest' _ _ hfound hrest => ?_
  obtain ⟨source, stop⟩ := found
  obtain ⟨source', stop'⟩ := found'
  cases hparams
  cases hfound
  dsimp only
  split
  · exact .error _ _
  · exact .ok rfl hrest

theorem regionDecl_alike (start start' : Nat) (h : SameTokens ts ts') :
    ReadsAlike (·.erase = ·.erase) (regionDecl eof start ts) (regionDecl eof' start' ts') := by
  unfold regionDecl
  refine (name_alike h).bind fun template template' r₁ r₁' _ _ htemplate h₁ => ?_
  refine (expect_alike [.dot] start start' h₁).bind fun _ _ r₂ r₂' _ _ _ h₂ => ?_
  refine (name_alike h₂).bind fun region region' r₃ r₃' _ _ hregion h₃ => ?_
  refine (expect_alike [.parenOpen, .parenClose, .defines] start start' h₃).bind fun _ _ r₄ r₄' _ _ _ h₄ => ?_
  refine (body_alike h₄).bind fun found found' rest rest' _ _ hfound hrest => ?_
  obtain ⟨source, stop⟩ := found
  obtain ⟨source', stop'⟩ := found'
  cases htemplate
  cases hregion
  cases hfound
  exact .ok rfl hrest

theorem declarations_alike (h : SameTokens ts ts') :
    Concur (fun ds ds' => ds.map Declaration.erase = ds'.map Declaration.erase) (declarations eof ts)
      (declarations eof' ts') := by
  fun_induction declarations eof ts generalizing ts' with
  | case1 =>
    rw [List.map_eq_nil_iff.1 h.symm, declarations]
    exact .ok rfl
  | case2 place r ih =>
    obtain ⟨place', r', rfl, hr⟩ := h.cons
    rw [declarations]
    refine Concur.bind (regionDecl_alike place.start place'.start hr) fun d d' hd => ?_
    refine (ih d.rest d.length_rest_le hd.2).bind fun more more' hmore => .ok ?_
    exact congrArg₂ List.cons (congrArg Declaration.region hd.1) hmore
  | case3 n place r ih =>
    obtain ⟨place', r', rfl, hr⟩ := h.cons
    rw [declarations]
    refine Concur.bind (templateDecl_alike place.start place'.start n hr) fun d d' hd => ?_
    refine (ih d.rest d.length_rest_le hd.2).bind fun more more' hmore => .ok ?_
    exact congrArg₂ List.cons (congrArg Declaration.template hd.1) hmore
  | case4 ts hnil hregion htemplate =>
    rw [declarations]
    · exact .error _ _
    · rintro rfl
      exact hnil (List.map_eq_nil_iff.1 h)
    · rintro place' r' rfl
      obtain ⟨place, r, rfl, -⟩ := h.symm.cons
      exact hregion place r rfl
    · rintro n place' r' rfl
      obtain ⟨place, r, rfl, -⟩ := h.symm.cons
      exact htemplate n place r rfl

/-! ## Files -/

theorem delimiters_alike (h : SameTokens ts ts') : ReadsAlike Eq (delimiters eof ts) (delimiters eof' ts') := by
  match ts, ts' with
  | [], [] => exact .ok rfl h
  | ⟨t, place⟩ :: r, ts' =>
    obtain ⟨place', r', rfl, hr⟩ := h.cons
    cases t with
    | delimiters =>
      refine (str_alike hr).bind fun first first' r₁ r₁' _ _ hstart h₁ => ?_
      refine (expect_alike [.comma] place.stop place'.stop h₁).bind fun _ _ r₂ r₂' _ _ _ h₂ => ?_
      refine (str_alike h₂).bind fun second second' rest rest' _ _ hstop hrest => ?_
      obtain ⟨start, _⟩ := first
      obtain ⟨start', _⟩ := first'
      obtain ⟨stop, last⟩ := second
      obtain ⟨stop', last'⟩ := second'
      cases hstart
      cases hstop
      dsimp only
      split
      · exact .ok rfl hrest
      · exact .error _ _
    | _ => exact .ok rfl h

/-- From the same tokens at other places the parser reads the same declarations, or fails as well. -/
theorem parseTokens_alike (h : SameTokens ts ts') :
    Concur (fun g g' => g.erase = g'.erase) (parseTokens eof ts) (parseTokens eof' ts') := by
  refine Concur.bind (delimiters_alike h) fun found found' hfound => ?_
  refine (declarations_alike hfound.2).bind fun ds ds' hds => .ok ?_
  rw [GroupSource.erase_ofDeclarations, GroupSource.erase_ofDeclarations, hds, hfound.1]

/-- The tokens of a source, without their places; none where it cannot be scanned. -/
def tokens? (source : List Char) : Option (List Token) :=
  (scan source).toOption.map (List.map (·.token))

/-- What a source declares, without the places of its declarations; nothing where it is malformed. -/
def declared? (source : List Char) : Option GroupSource :=
  (parse source).toOption.map GroupSource.erase

/-- Sources with the same tokens declare the same. -/
theorem declared?_congr {source source' : List Char} (h : tokens? source = tokens? source') :
    declared? source = declared? source' := by
  have hscan : Concur SameTokens (scan source) (scan source') := .of_toOption_map h
  exact Concur.toOption_map (hscan.bind fun _ _ htokens => parseTokens_alike htokens) fun _ _ herase => herase

theorem declared?_eq_none {source : List Char} (h : tokens? source = none) : declared? source = none := by
  rw [tokens?] at h
  rw [declared?, parse]
  cases hs : scan source with
  | error e => rfl
  | ok ts =>
    rw [hs] at h
    cases h

end Stencil.GroupFile

import Stencil.Proofs.GroupFile.ScanPrint
import Stencil.Proofs.Reading

/-!
# Parsing undoes printing of group files

The parser reads the tokens of declarations as these declarations, up to places (`declarations_tokens`), so the
text of a file is parsed as what was printed (`parse_print`).
-/

namespace Stencil.GroupFile

open Template (Delimiters Parameter)

variable (eof : Span)

/-! ## Parts of declarations -/

theorem reads_expect (expected : List Token) (stop : Nat) {rest : List Token} {ts : List Lexeme}
    (h : ts.map (·.token) = expected ++ rest) : Reads (expect eof expected stop ts) (fun _ => True) rest := by
  induction expected generalizing stop ts with
  | nil => exact ⟨_, by rw [expect], trivial, h⟩
  | cons e expected ih =>
    obtain ⟨place, r, rfl, h₁⟩ := exists_located h
    rw [expect, if_pos rfl]
    exact (ih place.stop h₁).bind fun parsed _ _ _ hrest => ⟨_, rfl, trivial, hrest⟩

theorem reads_name {n : String} {rest : List Token} {ts : List Lexeme}
    (h : ts.map (·.token) = .word n :: rest) : Reads (name eof ts) (· = n) rest := by
  obtain ⟨place, r, rfl, h₁⟩ := exists_located h
  exact ⟨_, rfl, rfl, h₁⟩

theorem reads_str {s : String} {rest : List Token} {ts : List Lexeme} (h : ts.map (·.token) = .str s :: rest) :
    Reads (str eof ts) (·.1 = s) rest := by
  obtain ⟨place, r, rfl, h₁⟩ := exists_located h
  exact ⟨_, rfl, rfl, h₁⟩

theorem reads_body {form : BodyForm} {s : String} {rest : List Token} {ts : List Lexeme}
    (h : ts.map (·.token) = form.token s :: rest) : Reads (body eof ts) (·.1 = s) rest := by
  obtain ⟨place, r, rfl, h₁⟩ := exists_located h
  cases form with
  | quoted => exact ⟨_, rfl, rfl, h₁⟩
  | block => exact ⟨_, rfl, rfl, h₁⟩

/-! ## Parameters -/

theorem reads_parameter {p : Parameter} {rest : List Token} (hrest : rest.head? ≠ some .equals)
    {ts : List Lexeme} (h : ts.map (·.token) = parameterTokens p ++ rest) :
    Reads (parameter eof ts) (· = p) rest := by
  obtain ⟨n, default⟩ := p
  cases default with
  | none =>
    obtain ⟨word, r, rfl, h₁⟩ := exists_located h
    have hequals : ∀ place r', r ≠ ⟨.equals, place⟩ :: r' := by
      rintro place r' rfl
      exact hrest (congrArg List.head? h₁.symm)
    refine ⟨⟨⟨n, none⟩, r, by simp⟩, ?_, rfl, h₁⟩
    rw [parameter]
    exact hequals
  | some s =>
    obtain ⟨word, r, rfl, h₁⟩ := exists_located h
    obtain ⟨equals, r, rfl, h₂⟩ := exists_located h₁
    rw [parameter]
    refine (reads_str eof h₂).bind fun found r' hle hs hafter => ?_
    obtain ⟨s', stop⟩ := found
    cases hs
    exact ⟨_, rfl, rfl, hafter⟩

theorem head_furtherParameterTokens (ps : List Parameter) (rest : List Token) :
    (furtherParameterTokens ps ++ rest).head? ≠ some .equals := by
  cases ps with
  | nil => exact fun h => nomatch h
  | cons p ps => exact fun h => nomatch h

theorem reads_furtherParameters {ps : List Parameter} {rest : List Token} {ts : List Lexeme}
    (h : ts.map (·.token) = furtherParameterTokens ps ++ rest) :
    Reads (furtherParameters eof ts) (· = ps) rest := by
  induction ps generalizing ts with
  | nil =>
    obtain ⟨close, r, rfl, h₁⟩ := exists_located h
    rw [furtherParameters]
    exact ⟨_, rfl, rfl, h₁⟩
  | cons p ps ih =>
    obtain ⟨comma, r, rfl, h₁⟩ := exists_located h
    have h₂ : r.map (·.token) = parameterTokens p ++ (furtherParameterTokens ps ++ rest) :=
      h₁.trans (List.append_assoc ..)
    rw [furtherParameters]
    refine (reads_parameter eof (head_furtherParameterTokens ps rest) h₂).bind
      fun p' r₁ hle₁ hp hafter₁ => ?_
    refine (ih hafter₁).bind fun more r₂ hle₂ hmore hafter₂ => ⟨_, rfl, ?_, hafter₂⟩
    exact congrArg₂ List.cons hp hmore

theorem reads_parameters {ps : List Parameter} {rest : List Token} {ts : List Lexeme}
    (h : ts.map (·.token) = parametersTokens ps ++ rest) : Reads (parameters eof ts) (· = ps) rest := by
  cases ps with
  | nil =>
    obtain ⟨close, r, rfl, h₁⟩ := exists_located h
    exact ⟨_, rfl, rfl, h₁⟩
  | cons p ps =>
    have h₁ : ts.map (·.token) = parameterTokens p ++ (furtherParameterTokens ps ++ rest) :=
      h.trans (List.append_assoc ..)
    have hclose : ∀ place r, ts ≠ ⟨.parenClose, place⟩ :: r := by
      rintro place r rfl
      rw [parameterTokens] at h₁
      split at h₁ <;> cases h₁
    rw [parameters]
    · refine (reads_parameter eof (head_furtherParameterTokens ps rest) h₁).bind
        fun p' r₁ hle₁ hp hafter₁ => ?_
      refine (reads_furtherParameters eof hafter₁).bind
        fun more r₂ hle₂ hmore hafter₂ => ⟨_, rfl, ?_, hafter₂⟩
      exact congrArg₂ List.cons hp hmore
    · exact hclose

/-- No name stands in the list a second time exactly if its names are pairwise different. -/
theorem repeated?_eq_none_iff {seen names : List String} :
    repeated? seen names = none ↔ names.Nodup ∧ ∀ n ∈ names, n ∉ seen := by
  have h : repeated? seen names = none ↔ (names.map id).Nodup ∧ ∀ n ∈ names, n ∉ seen :=
    search_eq_none_iff (fun _ => rfl) fun _ _ _ => rfl
  rwa [List.map_id] at h

/-! ## Declarations -/

theorem reads_templateDecl {d : TemplateDecl} {form : BodyForm} (hparams : (d.params.map (·.name)).Nodup)
    (start : Nat) {rest : List Token} {ts : List Lexeme}
    (h : ts.map (·.token) =
      .parenOpen :: (parametersTokens d.params ++ .defines :: form.token d.body :: rest)) :
    Reads (templateDecl eof start d.name ts) (fun d' => d'.erase = d.erase) rest := by
  have hrepeated : repeated? [] (d.params.map (·.name)) = none :=
    repeated?_eq_none_iff.2 ⟨hparams, by simp⟩
  rw [templateDecl]
  refine (reads_expect eof [.parenOpen] start h).bind fun _ r₂ hle₂ _ h₂ => ?_
  refine (reads_parameters eof h₂).bind fun params r₃ hle₃ hps h₃ => ?_
  refine (reads_expect eof [.defines] start h₃).bind fun _ r₄ hle₄ _ h₄ => ?_
  refine (reads_body eof h₄).bind fun found r hle hs hrest => ?_
  obtain ⟨source, stop⟩ := found
  cases hps
  cases hs
  dsimp only
  rw [hrepeated]
  exact ⟨_, rfl, rfl, hrest⟩

theorem reads_regionDecl {d : RegionDecl} {form : BodyForm} (start : Nat) {rest : List Token}
    {ts : List Lexeme}
    (h : ts.map (·.token) = .word d.template :: .dot :: .word d.region :: .parenOpen :: .parenClose ::
      .defines :: form.token d.body :: rest) :
    Reads (regionDecl eof start ts) (fun d' => d'.erase = d.erase) rest := by
  rw [regionDecl]
  refine (reads_name eof h).bind fun template r₁ hle₁ htemplate h₁ => ?_
  refine (reads_expect eof [.dot] start h₁).bind fun _ r₂ hle₂ _ h₂ => ?_
  refine (reads_name eof h₂).bind fun region r₃ hle₃ hregion h₃ => ?_
  refine (reads_expect eof [.parenOpen, .parenClose, .defines] start h₃).bind fun _ r₄ hle₄ _ h₄ => ?_
  refine (reads_body eof h₄).bind fun found r hle hs hrest => ?_
  obtain ⟨source, stop⟩ := found
  cases htemplate
  cases hregion
  cases hs
  exact ⟨_, rfl, rfl, hrest⟩

theorem declarations_tokens {ds : List (BodyForm × Declaration)} (hds : ∀ d ∈ ds, d.2.wellFormed d.1 = true)
    {ts : List Lexeme} (h : ts.map (·.token) = ds.flatMap fun (form, d) => d.tokens form) :
    ∃ found, declarations eof ts = .ok found ∧
      found.map Declaration.erase = ds.map fun (_, d) => d.erase := by
  induction ds generalizing ts with
  | nil =>
    rw [List.map_eq_nil_iff.1 h, declarations]
    exact ⟨[], rfl, rfl⟩
  | cons d ds ih =>
    obtain ⟨form, d⟩ := d
    rw [List.forall_mem_cons] at hds
    rw [List.flatMap_cons] at h
    cases d with
    | template d =>
      obtain ⟨word, r, rfl, h₁⟩ := exists_located h
      rw [Declaration.wellFormed, TemplateDecl.wellFormed, Bool.and_eq_true, Bool.and_eq_true,
        decide_eq_true_eq] at hds
      have h₂ : r.map (·.token) = .parenOpen :: (parametersTokens d.params ++ .defines ::
          form.token d.body :: ds.flatMap fun (form, d) => d.tokens form) := by
        rw [h₁]
        simp
      obtain ⟨⟨d', rest, hle⟩, hread, hd, hrest⟩ := reads_templateDecl eof hds.1.1.2 word.start h₂
      obtain ⟨more, hmore, herase⟩ := ih hds.2 hrest
      refine ⟨.template d' :: more, ?_, congrArg₂ List.cons (congrArg Declaration.template hd) herase⟩
      rw [declarations]
      exact bind_eq_ok.2 ⟨_, hread, bind_eq_ok.2 ⟨more, hmore, rfl⟩⟩
    | region d =>
      obtain ⟨sign, r, rfl, h₁⟩ := exists_located h
      obtain ⟨⟨d', rest, hle⟩, hread, hd, hrest⟩ := reads_regionDecl eof sign.start h₁
      obtain ⟨more, hmore, herase⟩ := ih hds.2 hrest
      refine ⟨.region d' :: more, ?_, congrArg₂ List.cons (congrArg Declaration.region hd) herase⟩
      rw [declarations]
      exact bind_eq_ok.2 ⟨_, hread, bind_eq_ok.2 ⟨more, hmore, rfl⟩⟩

theorem reads_delimiters (d : Delimiters) {rest : List Token} {ts : List Lexeme}
    (h : ts.map (·.token) = delimiterTokens d ++ rest) : Reads (delimiters eof ts) (· = some d) rest := by
  obtain ⟨keyword, r, rfl, h₁⟩ := exists_located h
  rw [delimiters]
  refine (reads_str eof h₁).bind fun first r₁ hle₁ hstart h₂ => ?_
  refine (reads_expect eof [.comma] keyword.stop h₂).bind fun _ r₂ hle₂ _ h₃ => ?_
  refine (reads_str eof h₃).bind fun second r₃ hle₃ hstop hrest => ?_
  obtain ⟨start, _⟩ := first
  obtain ⟨stop, last⟩ := second
  dsimp only at hstart hstop ⊢
  rw [hstart, hstop, String.toList_ofList, String.toList_ofList]
  exact ⟨_, rfl, rfl, hrest⟩

theorem delimiters_declarations {ds : List (BodyForm × Declaration)} {ts : List Lexeme}
    (h : ts.map (·.token) = ds.flatMap fun (form, d) => d.tokens form) :
    Reads (delimiters eof ts) (· = none) (ds.flatMap fun (form, d) => d.tokens form) := by
  have hkeyword : ∀ place r, ts ≠ ⟨.delimiters, place⟩ :: r := by
    rintro place r rfl
    cases ds with
    | nil => cases h
    | cons d ds =>
      obtain ⟨form, d⟩ := d
      rw [List.flatMap_cons] at h
      cases d <;> cases h
  refine ⟨⟨none, ts, Nat.le_refl _⟩, ?_, rfl, h⟩
  rw [delimiters]
  exact hkeyword

/-- The parser reads the tokens of a file as its declarations. -/
theorem parseTokens_tokens (found : Option Delimiters) {ds : List (BodyForm × Declaration)}
    (hds : ∀ d ∈ ds, d.2.wellFormed d.1 = true) {ts : List Lexeme} (h : ts.map (·.token) = tokens found ds) :
    (parseTokens eof ts).map GroupSource.erase =
      .ok (GroupSource.ofDeclarations found (ds.map (·.2))).erase := by
  obtain ⟨⟨found', rest, hle⟩, hread, hfound, hrest⟩ :
      Reads (delimiters eof ts) (· = found) (ds.flatMap fun (form, d) => d.tokens form) := by
    cases found with
    | none => exact delimiters_declarations eof h
    | some d => exact reads_delimiters eof d h
  obtain ⟨ds', hparse, herase⟩ := declarations_tokens eof hds hrest
  cases hfound
  have hok : parseTokens eof ts = .ok (.ofDeclarations found' ds') :=
    bind_eq_ok.2 ⟨_, hread, bind_eq_ok.2 ⟨ds', hparse, rfl⟩⟩
  rw [hok, Except.map, GroupSource.erase_ofDeclarations, GroupSource.erase_ofDeclarations, herase, List.map_map]
  rfl

/-! ## Files -/

/-- **Parsing undoes printing.** The text of a file is parsed as its delimiters and declarations, whatever the
bodies and defaults are. -/
theorem parse_print (found : Option Delimiters) {ds : List (BodyForm × Declaration)}
    (hds : ∀ d ∈ ds, d.2.wellFormed d.1 = true) :
    (parse (print found ds)).map GroupSource.erase =
      .ok (GroupSource.ofDeclarations found (ds.map (·.2))).erase := by
  obtain ⟨located, hscan, htokens⟩ := scan_print found hds
  rw [parse, hscan]
  exact parseTokens_tokens _ found hds htokens

/-- Delimiters with escapes, a default that looks like an escape, a block with a comment sign in it, and a
quoted body that no block could hold are read back. -/
theorem parse_print_quotes :
    print (some ⟨'"', '\\'⟩)
      [(.block, .template ⟨"t", [⟨"p", none⟩, ⟨"q", some "\\n"⟩], "<p> // \"\n", ⟨0, 0⟩⟩),
        (.quoted, .region ⟨"t", "r", ">>\r", ⟨0, 0⟩⟩)] =
      "delimiters \"\\\"\", \"\\\\\"\nt(p, q=\"\\\\n\") ::= <<\n<p> // \"\n\n>>\n@t.r() ::= \">>\r\"\n".toList ∧
    (parse (print (some ⟨'"', '\\'⟩)
      [(.block, .template ⟨"t", [⟨"p", none⟩, ⟨"q", some "\\n"⟩], "<p> // \"\n", ⟨0, 0⟩⟩),
        (.quoted, .region ⟨"t", "r", ">>\r", ⟨0, 0⟩⟩)])).map GroupSource.erase =
      .ok
        { delimiters := some ⟨'"', '\\'⟩
          templates := [⟨"t", [⟨"p", none⟩, ⟨"q", some "\\n"⟩], "<p> // \"\n", ⟨0, 0⟩⟩]
          regions := [⟨"t", "r", ">>\r", ⟨0, 0⟩⟩] } :=
  ⟨by decide +kernel, parse_print _ (by decide)⟩

end Stencil.GroupFile

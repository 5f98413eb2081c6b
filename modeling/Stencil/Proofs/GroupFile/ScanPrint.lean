import Stencil.Proofs.GroupFile.Print
import Stencil.Proofs.Text.Word

/-!
# Scanning printed group files

The text of a file is scanned as its tokens (`scan_print`). `Scans` says what a text is scanned as wherever it
stands, and each kind of token has one lemma about the text in front of another one.
-/

namespace Stencil.GroupFile

open Template (Delimiters Parameter)

/-- The text is scanned as the tokens, at any offset. -/
def Scans (cs : List Char) (ts : List Token) : Prop :=
  ∀ pos, ∃ located, scanFrom pos cs = .ok located ∧ located.map (·.token) = ts

/-! ## Single tokens -/

theorem scans_nil : Scans [] [] :=
  fun _ => ⟨[], by rw [scanFrom], rfl⟩

section
variable {c : Char} {cs rest : List Char} {ts : List Token} (hrest : Scans rest ts)
include hrest

theorem scans_skipped {bytes : Nat} (h : next c cs = .skipped bytes rest) : Scans (c :: cs) ts := by
  intro pos
  obtain ⟨located, hscan, htokens⟩ := hrest (pos + bytes)
  refine ⟨located, ?_, htokens⟩
  rw [scanFrom]
  split
  · next h' =>
    rw [h] at h'
    cases h'
    exact hscan
  · next h' => rw [h] at h'; cases h'
  · next h' => rw [h] at h'; cases h'

theorem scans_token {t : Token} {bytes : Nat} (h : next c cs = .token t bytes rest) :
    Scans (c :: cs) (t :: ts) := by
  intro pos
  obtain ⟨located, hscan, htokens⟩ := hrest (pos + bytes)
  refine ⟨⟨t, ⟨pos, pos + bytes⟩⟩ :: located, ?_, by rw [List.map_cons, htokens]⟩
  rw [scanFrom]
  split
  · next h' => rw [h] at h'; cases h'
  · next h' =>
    rw [h] at h'
    cases h'
    rw [hscan]
    rfl
  · next h' => rw [h] at h'; cases h'

end

/-- A character that is a token by itself. -/
theorem scans_sign {c : Char} {t : Token} (h : ∀ cs, next c cs = .token t 1 cs) {rest : List Char}
    {ts : List Token} (hrest : Scans rest ts) : Scans (c :: rest) (t :: ts) :=
  scans_token hrest (h rest)

theorem scans_space {rest : List Char} {ts : List Token} (hrest : Scans rest ts) : Scans (' ' :: rest) ts :=
  scans_skipped hrest rfl

theorem scans_newline {rest : List Char} {ts : List Token} (hrest : Scans rest ts) : Scans ('\n' :: rest) ts :=
  scans_skipped hrest rfl

theorem isSpacing_of_isWordStart {c : Char} (hc : isWordStart c = true) : isSpacing c = false := by
  have hne : ∀ other : Char, isWordStart other = false → c ≠ other := by
    rintro other ho rfl
    rw [hc] at ho
    cases ho
  simp [isSpacing, hne ' ' rfl, hne '\t' rfl, hne '\n' rfl, hne '\r' rfl]

theorem next_isWordStart {c : Char} (hc : isWordStart c = true) (cs : List Char) :
    next c cs = .token (Token.ofWord (c :: cs.takeWhile isWordPart))
      (byteLength (c :: cs.takeWhile isWordPart)) (cs.dropWhile isWordPart) := by
  unfold next
  split
  case h_13 => simp [isSpacing_of_isWordStart hc, hc]
  all_goals cases hc

theorem scans_ofWord {cs : List Char} (hword : isWord cs = true) {rest : List Char} (hend : Boundary rest)
    {ts : List Token} (hrest : Scans rest ts) : Scans (cs ++ rest) (Token.ofWord cs :: ts) := by
  cases cs with
  | nil => cases hword
  | cons c more =>
    rw [isWord, Bool.and_eq_true] at hword
    obtain ⟨hc, hmore⟩ := hword
    obtain ⟨htake, hdrop⟩ := span_append (List.all_eq_true.1 hmore) hend
    have hnext := next_isWordStart hc (more ++ rest)
    rw [htake, hdrop] at hnext
    exact scans_token hrest hnext

theorem scans_word {name : String} (hname : isIdentifier name = true) {rest : List Char} (hend : Boundary rest)
    {ts : List Token} (hrest : Scans rest ts) : Scans (name.toList ++ rest) (.word name :: ts) := by
  rw [isIdentifier, Bool.and_eq_true, bne_iff_ne] at hname
  have htoken : Token.ofWord name.toList = .word name := by
    rw [Token.ofWord, if_neg, String.ofList_toList]
    rw [beq_iff_eq]
    exact fun h => hname.2 (String.toList_injective h)
  have hscan := scans_ofWord hname.1 hend hrest
  rwa [htoken] at hscan

theorem scans_literal (cs : List Char) {rest : List Char} {ts : List Token} (hrest : Scans rest ts) :
    Scans (literal cs ++ rest) (.str (String.ofList cs) :: ts) := by
  rw [literal, List.cons_append, List.append_assoc]
  have hnext : next '"' (literalBody cs ++ '"' :: rest) =
      .token (.str (String.ofList cs)) (byteLength (literalBody cs) + 2) rest := by
    rw [next, scanLiteral_literalBody]
    dsimp only
    rw [unescapeKeeping_literalBody]
  exact scans_token hrest hnext

/-! ## Bodies -/

/-- A text that does not have the pair, nor ends in its first character, goes on up to a pair behind it. -/
theorem splitAtPair?_append {a b : Char} {cs : List Char} (hpair : ¬ [a, b] <:+: cs)
    (hlast : cs.getLast? ≠ some a) (rest : List Char) :
    splitAtPair? a b (cs ++ a :: b :: rest) = some (cs, rest) := by
  induction cs with
  | nil => simp [splitAtPair?]
  | cons c cs ih =>
    have htail : splitAtPair? a b (cs ++ a :: b :: rest) = some (cs, rest) := by
      refine ih (fun h => hpair (h.trans (List.suffix_cons c cs).isInfix)) ?_
      cases cs with
      | nil => simp
      | cons d cs => rwa [List.getLast?_cons_cons] at hlast
    rw [List.cons_append]
    unfold splitAtPair?
    split
    · next d rest' hc hcs =>
      have hca : c = a := beq_iff_eq.1 hc
      cases cs with
      | nil =>
        rw [hca] at hlast
        exact absurd rfl hlast
      | cons e cs =>
        obtain ⟨rfl, -⟩ : e = d ∧ _ := List.cons.inj hcs
        have heb : ¬ (e == b) = true := by
          rw [beq_iff_eq]
          rintro rfl
          exact hpair (hca ▸ (List.prefix_append [c, e] cs).isInfix)
        rw [if_neg heb, htail]
        rfl
    · rw [htail]
      rfl

theorem dropLastBreak_append {cs : List Char} (h : cs.getLast? ≠ some '\r') :
    dropLastBreak (cs ++ ['\n']) = cs := by
  have hreverse : (cs ++ ['\n']).reverse = '\n' :: cs.reverse := by simp
  rw [dropLastBreak, hreverse]
  split
  · next rest hcs =>
    have hhead : cs.reverse.head? = some '\r' := congrArg List.head? (List.cons.inj hcs).2
    rw [List.head?_reverse] at hhead
    exact absurd hhead h
  · next rest _ hcs =>
    rw [← (List.cons.inj hcs).2, List.reverse_reverse]
  · next h₁ => exact absurd rfl (h₁ _)

theorem scans_block {s : String} (hs : BodyForm.block.admits s = true) {rest : List Char} {ts : List Token}
    (hrest : Scans rest ts) : Scans (BodyForm.block.print s ++ rest) (.block s :: ts) := by
  rw [BodyForm.admits, Bool.and_eq_true, Bool.not_eq_true', decide_eq_false_iff_not, bne_iff_ne] at hs
  obtain ⟨hpair, hlast⟩ := hs
  -- The line breaks around the body are no brackets, so they make no pair with it.
  have hpair' : ¬ ['>', '>'] <:+: '\n' :: (s.toList ++ ['\n']) := by
    rw [List.infix_cons_iff, List.infix_concat_iff]
    rintro (hfront | hback | hinside)
    · obtain ⟨rest, hrest⟩ := hfront
      cases hrest
    · obtain ⟨rest, hrest⟩ := hback
      have := congrArg List.getLast? hrest
      simp at this
    · exact hpair hinside
  have hlast' : ('\n' :: (s.toList ++ ['\n'])).getLast? ≠ some '>' := by
    rw [← List.cons_append, List.getLast?_concat]
    decide
  have hsplit := splitAtPair?_append hpair' hlast' rest
  have htext : BodyForm.block.print s ++ rest =
      '<' :: '<' :: ('\n' :: (s.toList ++ ['\n']) ++ '>' :: '>' :: rest) := by
    simp [BodyForm.print]
  have hnext : next '<' ('<' :: ('\n' :: (s.toList ++ ['\n']) ++ '>' :: '>' :: rest)) =
      .token (.block s) (byteLength ('\n' :: (s.toList ++ ['\n'])) + 4) rest := by
    rw [next, hsplit]
    dsimp only
    rw [dropBreak, dropLastBreak_append hlast, String.ofList_toList]
  rw [htext]
  exact scans_token hrest hnext

theorem scans_body {form : BodyForm} {s : String} (hs : form.admits s = true) {rest : List Char}
    {ts : List Token} (hrest : Scans rest ts) : Scans (form.print s ++ rest) (form.token s :: ts) := by
  cases form with
  | quoted =>
    have hscan := scans_literal s.toList hrest
    rwa [String.ofList_toList] at hscan
  | block => exact scans_block hs hrest

/-! ## Declarations -/

theorem scans_parameter {p : Parameter} (hp : isIdentifier p.name = true) {rest : List Char}
    (hend : Boundary rest) {ts : List Token} (hrest : Scans rest ts) :
    Scans (printParameter p ++ rest) (parameterTokens p ++ ts) := by
  rw [printParameter, parameterTokens]
  split
  · exact scans_word hp hend hrest
  · next s _ =>
    have hdefault := scans_literal s.toList hrest
    rw [String.ofList_toList] at hdefault
    rw [List.append_assoc]
    exact scans_word hp (boundary_cons rfl _) (scans_sign (fun _ => rfl) hdefault)

theorem boundary_furtherParameters (ps : List Parameter) (rest : List Char) :
    Boundary (printFurtherParameters ps ++ rest) := by
  cases ps with
  | nil => exact boundary_cons rfl _
  | cons p ps => exact boundary_cons rfl _

section
variable {ps : List Parameter} (hps : ps.all (isIdentifier ·.name) = true) {rest : List Char} {ts : List Token}
  (hrest : Scans rest ts)
include hps hrest

theorem scans_furtherParameters :
    Scans (printFurtherParameters ps ++ rest) (furtherParameterTokens ps ++ ts) := by
  induction ps with
  | nil => exact scans_sign (fun _ => rfl) hrest
  | cons p ps ih =>
    rw [List.all_cons, Bool.and_eq_true] at hps
    have hmore := scans_parameter hps.1 (boundary_furtherParameters ps rest) (ih hps.2)
    simp only [printFurtherParameters, furtherParameterTokens, List.cons_append, List.append_assoc]
    exact scans_sign (fun _ => rfl) (scans_space hmore)

theorem scans_parameters : Scans (printParameters ps ++ rest) (parametersTokens ps ++ ts) := by
  cases ps with
  | nil => exact scans_sign (fun _ => rfl) hrest
  | cons p ps =>
    rw [List.all_cons, Bool.and_eq_true] at hps
    rw [printParameters, parametersTokens, List.append_assoc, List.append_assoc]
    exact scans_parameter hps.1 (boundary_furtherParameters ps rest) (scans_furtherParameters hps.2 hrest)

end

theorem scans_definition {form : BodyForm} {s : String} (hs : form.admits s = true) {rest : List Char}
    {ts : List Token} (hrest : Scans rest ts) :
    Scans (definesSign ++ (form.print s ++ '\n' :: rest)) (.defines :: form.token s :: ts) := by
  have hbody := scans_body hs (scans_newline hrest)
  exact scans_space (scans_token (scans_space hbody) rfl)

theorem scans_declaration {form : BodyForm} {d : Declaration} (hd : d.wellFormed form = true)
    {rest : List Char} {ts : List Token} (hrest : Scans rest ts) :
    Scans (d.print form ++ rest) (d.tokens form ++ ts) := by
  cases d with
  | template d =>
    rw [Declaration.wellFormed, TemplateDecl.wellFormed, Bool.and_eq_true, Bool.and_eq_true,
      Bool.and_eq_true] at hd
    obtain ⟨⟨⟨hname, hparams⟩, -⟩, hbody⟩ := hd
    have hrest' := scans_parameters hparams (scans_definition hbody hrest)
    simp only [Declaration.print, Declaration.tokens, List.cons_append, List.append_assoc, List.nil_append]
    exact scans_word hname (boundary_cons rfl _) (scans_sign (fun _ => rfl) hrest')
  | region d =>
    rw [Declaration.wellFormed, RegionDecl.wellFormed, Bool.and_eq_true, Bool.and_eq_true] at hd
    obtain ⟨⟨htemplate, hregion⟩, hbody⟩ := hd
    have hdefinition := scans_definition hbody hrest
    have hparens := scans_sign (c := '(') (fun _ => rfl) (scans_sign (c := ')') (fun _ => rfl) hdefinition)
    have hname := scans_word hregion (boundary_cons rfl _) hparens
    have hdot := scans_sign (c := '.') (fun _ => rfl) hname
    simp only [Declaration.print, Declaration.tokens, List.cons_append, List.append_assoc, List.nil_append]
    exact scans_sign (fun _ => rfl) (scans_word htemplate (boundary_cons rfl _) hdot)

theorem scans_declarations {ds : List (BodyForm × Declaration)} (hds : ∀ d ∈ ds, d.2.wellFormed d.1 = true) :
    Scans (ds.flatMap fun (form, d) => d.print form) (ds.flatMap fun (form, d) => d.tokens form) := by
  induction ds with
  | nil => exact scans_nil
  | cons d ds ih =>
    rw [List.forall_mem_cons] at hds
    rw [List.flatMap_cons, List.flatMap_cons]
    exact scans_declaration hds.1 (ih hds.2)

theorem ofWord_keyword : Token.ofWord keyword = .delimiters := by
  decide

theorem scans_delimiters (d : Delimiters) {rest : List Char} {ts : List Token} (hrest : Scans rest ts) :
    Scans (delimiterLine d ++ rest) (delimiterTokens d ++ ts) := by
  have hstop := scans_literal [d.stop] (scans_newline hrest)
  have hcomma := scans_sign (c := ',') (fun _ => rfl) (scans_space hstop)
  have hstart := scans_space (scans_literal [d.start] hcomma)
  have hword : isWord keyword = true := by decide
  have hscan := scans_ofWord hword (boundary_cons rfl _) hstart
  rw [ofWord_keyword] at hscan
  simpa only [delimiterLine, delimiterTokens, List.cons_append, List.append_assoc, List.nil_append] using hscan

/-- The text of a file is scanned as its tokens. -/
theorem scan_print (found : Option Delimiters) {ds : List (BodyForm × Declaration)}
    (hds : ∀ d ∈ ds, d.2.wellFormed d.1 = true) :
    ∃ located, scan (print found ds) = .ok located ∧ located.map (·.token) = tokens found ds := by
  have hscan := scans_declarations hds
  cases found with
  | none => exact hscan 0
  | some d => exact scans_delimiters d hscan 0

end Stencil.GroupFile

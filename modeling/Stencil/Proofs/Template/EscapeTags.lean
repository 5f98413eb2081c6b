import Mathlib.Algebra.Order.Ring.Nat
import Mathlib.Data.List.Induction
import Stencil.Proofs.Template.ScanPrint
import Stencil.Proofs.Text.Position

/-!
# The language of escape tags

An escape tag is a start delimiter, escapes and a stop delimiter. `IsEscape` lists the escapes and what they stand
for: a backslash with a letter, with a space, or with `u` and four hexadecimal digits that name a character. The
scanner takes the digits as any numeral, so it also reads a plus sign with three digits (`IsSignedEscape`); apart
from these the tags that it accepts are the sequences of escapes between the delimiters. `TagRun` says how far the
escapes of a tag go and how it ends there.

Main statement: `step_escapeTag_eq_ok_iff`.
-/

namespace Stencil.Template

/-! ## Numerals and code points -/

section
variable {base n : Nat} {cs : List Char}

theorem numeralValue?_concat {c : Char} :
    numeralValue? base (cs ++ [c]) = some n ↔
      ∃ m d, numeralValue? base cs = some m ∧ digitValue? c = some d ∧ d < base ∧ m * base + d = n := by
  rw [numeralValue?, List.foldlM_append, ← numeralValue?]
  cases numeralValue? base cs with
  | none => simp
  | some m => cases hd : digitValue? c <;> simp [hd]

/-- A numeral has no more values than its length allows. -/
theorem numeralValue?_lt (h : numeralValue? base cs = some n) : n < base ^ cs.length := by
  induction cs using List.reverseRecOn generalizing n with
  | nil =>
    cases h
    simp
  | append_singleton cs c ih =>
    obtain ⟨m, d, hm, -, hd, rfl⟩ := numeralValue?_concat.1 h
    calc m * base + d < (m + 1) * base := by rw [Nat.succ_mul]; omega
      _ ≤ base ^ cs.length * base := Nat.mul_le_mul_right base (ih hm)
      _ = base ^ (cs ++ [c]).length := by simp [Nat.pow_succ]

theorem utf8Size_of_digitValue? {c : Char} {d : Nat} (h : digitValue? c = some d) : c.utf8Size = 1 := by
  apply utf8Size_eq_one
  rw [digitValue?] at h
  split at h
  · next hdigit => exact Nat.lt_of_le_of_lt (Char.isDigit_iff_toNat.1 hdigit).2 (by decide)
  · split at h
    · next hlower => exact Nat.lt_of_le_of_lt hlower.2 (by decide)
    · split at h
      · next hupper => exact Nat.lt_of_le_of_lt hupper.2 (by decide)
      · cases h

theorem exists_digitValue?_of_mem (h : numeralValue? base cs = some n) {c : Char} (hc : c ∈ cs) :
    ∃ d, digitValue? c = some d := by
  induction cs using List.reverseRecOn generalizing n with
  | nil => cases hc
  | append_singleton cs x ih =>
    obtain ⟨m, d, hm, hd, -, -⟩ := numeralValue?_concat.1 h
    rcases List.mem_append.1 hc with hc | hc
    · exact ih hm hc
    · rw [List.mem_singleton.1 hc]
      exact ⟨d, hd⟩

theorem plus_notMem_of_numeralValue? (h : numeralValue? base cs = some n) : '+' ∉ cs := by
  intro hplus
  obtain ⟨d, hd⟩ := exists_digitValue?_of_mem h hplus
  have hsign : digitValue? '+' = none := by decide
  cases hsign.symm.trans hd

/-- The digits of a numeral are one byte each. -/
theorem byteLength_of_numeralValue? (h : numeralValue? base cs = some n) : byteLength cs = cs.length := by
  apply byteLength_eq_length
  intro c hc
  obtain ⟨d, hd⟩ := exists_digitValue?_of_mem h hc
  exact utf8Size_of_digitValue? hd

end

theorem codePoint?_eq_some_iff {a b c d x : Char} :
    codePoint? a b c d = some x ↔
      numeralValue? 16 (if a == '+' then [b, c, d] else [a, b, c, d]) = some x.toNat := by
  rw [codePoint?]
  cases hn : numeralValue? 16 (if a == '+' then [b, c, d] else [a, b, c, d]) with
  | none => simp
  | some n =>
    have hlt : n < 0x10000 := by
      have := numeralValue?_lt hn
      split at this <;> simp at this <;> omega
    simp only [Option.bind_eq_bind, Option.bind_some, Option.some.injEq]
    constructor
    · intro h
      split at h
      · next hscalar =>
        cases h
        have hvalid : n.isValidChar := by
          rcases hscalar with h | h
          · exact .inl h
          · exact .inr ⟨h, by omega⟩
        rw [Char.ofNat, dif_pos hvalid]
        rfl
      · cases h
    · rintro rfl
      have hvalid : x.toNat < 0xD800 ∨ 0xDFFF < x.toNat := by
        rcases x.valid with h | h
        · exact .inl h
        · exact .inr h.1
      rw [if_pos hvalid, Char.ofNat_toNat]

/-! ## Escapes -/

/-- The characters are an escape that stands for the character. -/
inductive IsEscape : List Char → Char → Prop where
  | control {letter x : Char} : controlEscape? letter = some x → IsEscape ['\\', letter] x
  | space : IsEscape ['\\', ' '] ' '
  /-- Four hexadecimal digits whose value is that of the character. -/
  | codePoint {a b c d x : Char} : numeralValue? 16 [a, b, c, d] = some x.toNat →
    IsEscape ['\\', 'u', a, b, c, d] x

/-- The characters are an escape by code point with a plus sign in place of its first digit. -/
inductive IsSignedEscape : List Char → Char → Prop where
  | mk {b c d x : Char} : numeralValue? 16 [b, c, d] = some x.toNat → IsSignedEscape ['\\', 'u', '+', b, c, d] x

def IsReadEscape (us : List Char) (x : Char) : Prop :=
  IsEscape us x ∨ IsSignedEscape us x

/-- The text is a sequence of units for the characters, one after the other. -/
inductive Escapes (unit : List Char → Char → Prop) : List Char → List Char → Prop where
  | nil : Escapes unit [] []
  | cons {us text xs : List Char} {x : Char} : unit us x → Escapes unit text xs →
    Escapes unit (us ++ text) (x :: xs)

theorem isReadEscape_codePoint_iff {a b c d x : Char} :
    IsReadEscape ['\\', 'u', a, b, c, d] x ↔ codePoint? a b c d = some x := by
  rw [codePoint?_eq_some_iff]
  constructor
  · rintro (h | h)
    · cases h with
      | codePoint hvalue =>
        have ha : a ≠ '+' := by
          rintro rfl
          exact plus_notMem_of_numeralValue? hvalue List.mem_cons_self
        simpa [ha] using hvalue
    · cases h with
      | mk hvalue => simpa using hvalue
  · intro h
    by_cases ha : a = '+'
    · subst ha
      exact .inr ⟨by simpa using h⟩
    · exact .inl (.codePoint (by simpa [ha] using h))

/-- All that is read as an escape is ASCII. -/
theorem IsReadEscape.byteLength_eq {us : List Char} {x : Char} (h : IsReadEscape us x) :
    byteLength us = us.length := by
  have hascii : '\\'.utf8Size = 1 ∧ 'u'.utf8Size = 1 ∧ '+'.utf8Size = 1 := by decide
  rcases h with (hletter | _ | hvalue) | hvalue
  · unfold controlEscape? at hletter
    split at hletter <;> first | rfl | cases hletter
  · rfl
  · have := byteLength_of_numeralValue? hvalue
    simp [hascii] at this ⊢
    omega
  · cases hvalue with
    | mk hvalue =>
      have := byteLength_of_numeralValue? hvalue
      simp [hascii] at this ⊢
      omega

theorem IsEscape.plus_notMem {us : List Char} {x : Char} (h : IsEscape us x) : '+' ∉ us := by
  cases h with
  | control hletter =>
    rename_i letter
    have hplus : letter ≠ '+' := by
      rintro rfl
      cases hletter
    simp [hplus.symm]
  | space => decide
  | codePoint hvalue =>
    have := plus_notMem_of_numeralValue? hvalue
    simpa using this

/-- What is read as escapes is a sequence of escapes just where it has no plus sign. -/
theorem escapes_isEscape_iff {tag chars : List Char} :
    Escapes IsEscape tag chars ↔ Escapes IsReadEscape tag chars ∧ '+' ∉ tag := by
  constructor
  · intro h
    induction h with
    | nil => exact ⟨.nil, List.not_mem_nil⟩
    | cons hunit _ ih => exact ⟨.cons (.inl hunit) ih.1, by simp [hunit.plus_notMem, ih.2]⟩
  · rintro ⟨h, hplus⟩
    induction h with
    | nil => exact .nil
    | cons hunit _ ih =>
      rw [List.mem_append, not_or] at hplus
      rcases hunit with hunit | hunit
      · exact .cons hunit (ih hplus.2)
      · cases hunit with
        | mk _ => simp at hplus

/-! ## Tags -/

section
variable {stop : Char} (opened : Nat) {pos : Nat} {found : List Char}

/-- An escape is read and its character put to those before it. -/
theorem escapeTag_unit {us : List Char} {x : Char} (h : IsReadEscape us x) (cs : List Char) :
    escapeTag stop opened pos found (us ++ cs) = escapeTag stop opened (pos + byteLength us) (x :: found) cs := by
  have hcode : ∀ a b c d, IsReadEscape ['\\', 'u', a, b, c, d] x →
      escapeTag stop opened pos found ('\\' :: 'u' :: a :: b :: c :: d :: cs) =
        escapeTag stop opened (pos + byteLength ['\\', 'u', a, b, c, d]) (x :: found) cs := by
    intro a b c d h
    rw [h.byteLength_eq]
    simp [escapeTag, isReadEscape_codePoint_iff.1 h]
  rcases h with (hletter | _ | hvalue) | hvalue
  · unfold controlEscape? at hletter
    split at hletter
    case h_4 => cases hletter
    all_goals
      cases hletter
      rfl
  · rfl
  · exact hcode _ _ _ _ (.inl (.codePoint hvalue))
  · cases hvalue with
    | mk hvalue => exact hcode _ _ _ _ (.inr ⟨hvalue⟩)

/-- Escapes are read one after the other. -/
theorem escapeTag_append {tag chars : List Char} (h : Escapes IsReadEscape tag chars) (cs : List Char) :
    escapeTag stop opened pos found (tag ++ cs) =
      escapeTag stop opened (pos + byteLength tag) (chars.reverse ++ found) cs := by
  induction h generalizing pos found with
  | nil => rfl
  | @cons us text xs x hunit _ ih =>
    rw [List.append_assoc, escapeTag_unit opened hunit, ih, byteLength_append, Nat.add_assoc, List.reverse_cons,
      List.append_assoc]
    rfl

end

/-- What comes behind the escapes of a tag, and what is answered there. -/
inductive TagEnd (stop : Char) (opened pos : Nat) (found : List Char) :
    List Char → Except SyntaxError (List Char × Nat × List Char) → Prop where
  | closed {rest : List Char} : found ≠ [] →
    TagEnd stop opened pos found (stop :: rest) (.ok (found, pos + stop.utf8Size, rest))
  | malformed {after : List Char} : TagEnd stop opened pos found after (.error ⟨⟨opened, pos⟩, .malformedEscape⟩)
  | codePoint {after : List Char} :
    TagEnd stop opened pos found ('\\' :: 'u' :: after) (.error ⟨⟨pos + 1, pos + 2⟩, .invalidCodePoint⟩)
  | unknown {after : List Char} :
    TagEnd stop opened pos found ('\\' :: after) (.error ⟨⟨pos, pos + 2⟩, .unknownEscape⟩)

/-- The text begins with escapes, behind which the tag ends with the answer. -/
def TagRun (stop : Char) (opened pos : Nat) (found cs : List Char)
    (answer : Except SyntaxError (List Char × Nat × List Char)) : Prop :=
  ∃ tag chars after, cs = tag ++ after ∧ Escapes IsReadEscape tag chars ∧
    TagEnd stop opened (pos + byteLength tag) (chars.reverse ++ found) after answer

section
variable {stop : Char} {opened pos : Nat} {found cs : List Char}
  {answer : Except SyntaxError (List Char × Nat × List Char)}

theorem TagRun.of_tagEnd (h : TagEnd stop opened pos found cs answer) : TagRun stop opened pos found cs answer :=
  ⟨[], [], cs, rfl, .nil, h⟩

theorem TagRun.unit (us : List Char) {x : Char} (hunit : IsReadEscape us x)
    (h : TagRun stop opened (pos + us.length) (x :: found) cs answer) :
    TagRun stop opened pos found (us ++ cs) answer := by
  obtain ⟨tag, chars, after, rfl, htag, hend⟩ := h
  refine ⟨us ++ tag, x :: chars, after, (List.append_assoc ..).symm, .cons hunit htag, ?_⟩
  simpa [hunit.byteLength_eq, Nat.add_assoc] using hend

end

/-- Every text is a run of escapes and an end. -/
theorem tagRun_escapeTag (stop : Char) (opened pos : Nat) (found cs : List Char) :
    TagRun stop opened pos found cs (escapeTag stop opened pos found cs) := by
  fun_induction escapeTag stop opened pos found cs with
  | case1 pos found cs ih => exact ih.unit ['\\', 'n'] (.inl (.control rfl))
  | case2 pos found cs ih => exact ih.unit ['\\', 't'] (.inl (.control rfl))
  | case3 pos found cs ih => exact ih.unit ['\\', 'r'] (.inl (.control rfl))
  | case4 pos found cs ih => exact ih.unit ['\\', ' '] (.inl .space)
  | case5 pos found a b c d cs x hx ih =>
    exact ih.unit ['\\', 'u', a, b, c, d] (isReadEscape_codePoint_iff.2 hx)
  | case6 | case7 => exact .of_tagEnd .codePoint
  | case8 => exact .of_tagEnd .unknown
  | case9 pos found c cs _ _ _ _ _ _ _ hclosed =>
    rw [Bool.and_eq_true, beq_iff_eq] at hclosed
    obtain ⟨rfl, hfound⟩ := hclosed
    exact .of_tagEnd (.closed (by simpa using hfound))
  | case10 | case11 => exact .of_tagEnd .malformed

/-- A tag is read exactly if it is escapes, at least one, and a stop delimiter. -/
theorem escapeTag_eq_ok_iff {stop : Char} (hstop : stop ≠ '\\') {opened pos p : Nat} {cs out rest : List Char} :
    escapeTag stop opened pos [] cs = .ok (out, p, rest) ↔
      ∃ tag chars, cs = tag ++ stop :: rest ∧ chars ≠ [] ∧ Escapes IsReadEscape tag chars ∧
        out = chars.reverse ∧ p = pos + byteLength (tag ++ [stop]) := by
  constructor
  · intro h
    obtain ⟨tag, chars, after, rfl, htag, hend⟩ := tagRun_escapeTag stop opened pos [] cs
    rw [h] at hend
    cases hend with
    | closed hne =>
      refine ⟨tag, chars, rfl, by simpa using hne, htag, by simp, by simp; omega⟩
  · rintro ⟨tag, chars, rfl, hne, htag, rfl, rfl⟩
    rw [escapeTag_append opened htag, List.append_nil]
    obtain ⟨x, xs, hchars⟩ := List.exists_cons_of_ne_nil (List.reverse_ne_nil_iff.2 hne)
    rw [hchars, escapeTag]
    · simp [Nat.add_assoc]
    all_goals simp [hstop]

/-- **The escape tags that are read are sequences of escapes.** In literal text, a start delimiter with a backslash
behind it is passed over exactly if at least one escape and a stop delimiter follow, and then the characters of the
escapes are kept and the stop delimiter is passed over too. The sequences of escapes are those of the sequences read
as escapes that have no plus sign among their digits. -/
theorem step_escapeTag_eq_ok_iff {d : Delimiters} (hd : d.admissible = true) {st : ScanState} (h : st.InText)
    (cs : List Char) :
    (∀ st' rest, step d st d.start ('\\' :: cs) = .ok (st', rest) ↔
      ∃ tag chars, '\\' :: cs = tag ++ d.stop :: rest ∧ chars ≠ [] ∧ Escapes IsReadEscape tag chars ∧
        st' = { st with
          literal := chars.reverse ++ st.literal
          pos := st.pos + byteLength (d.start :: (tag ++ [d.stop])) }) ∧
    ∀ tag chars, Escapes IsEscape tag chars ↔ Escapes IsReadEscape tag chars ∧ '+' ∉ tag := by
  refine ⟨fun st' rest => ?_, fun tag chars => escapes_isEscape_iff⟩
  have hstop : '\\' ≠ d.stop := ne_stop_of_isReserved hd (by decide)
  rw [step_of_inText h, stepText_escapeTag_eq_ok_iff hd]
  constructor
  · rintro ⟨found, pos, hread, rfl⟩
    obtain ⟨tag, chars, htag, hne, hunits, rfl, rfl⟩ := (escapeTag_eq_ok_iff hstop.symm).1 hread
    refine ⟨tag, chars, htag, hne, hunits, ?_⟩
    rw [byteLength_cons, Nat.add_assoc]
  · rintro ⟨tag, chars, htag, hne, hunits, rfl⟩
    refine ⟨_, _, (escapeTag_eq_ok_iff hstop.symm).2 ⟨tag, chars, htag, hne, hunits, rfl, rfl⟩, ?_⟩
    rw [byteLength_cons, Nat.add_assoc]

/-- A tag of two escapes at the beginning of a template. -/
theorem step_escapeTag_newline :
    ({} : Delimiters).admissible = true ∧ ({} : ScanState).InText ∧
      step {} {} '<' "\\n\\u0041>b".toList = .ok ({ literal := ['A', '\n'], pos := 10 }, ['b']) := by
  have hunits : Escapes IsReadEscape (['\\', 'n'] ++ (['\\', 'u', '0', '0', '4', '1'] ++ [])) ['\n', 'A'] :=
    .cons (.inl (.control rfl)) (.cons (.inl (.codePoint (by decide))) .nil)
  have htext : ({} : ScanState).InText := nofun
  refine ⟨by decide, htext, ((step_escapeTag_eq_ok_iff (by decide) htext _).1 _ _).2 ?_⟩
  exact ⟨_, _, by rfl, by decide, hunits, by rfl⟩

/-- A plus sign and three digits are read as an escape, which is none of the escapes. -/
theorem scan_signedEscape :
    scan {} "<\\u+041>".toList = .ok [⟨.text "A", ⟨0, 8⟩⟩] ∧
      ¬ ∃ chars, Escapes IsEscape "\\u+041".toList chars := by
  refine ⟨by decide +kernel, ?_⟩
  rintro ⟨chars, h⟩
  exact (escapes_isEscape_iff.1 h).2 (by decide)

end Stencil.Template

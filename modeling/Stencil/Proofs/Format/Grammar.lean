import Mathlib.Data.List.TakeWhile
import Stencil.Format.Renderer
import Stencil.Proofs.Format.Conversion
import Stencil.Proofs.Text.Word

/-!
# The grammar of formats

The grammar relates the characters of a format to its pieces (`IsFormat`); it says nothing about how they are read.
Zeros directly behind the flags are flags, so a width does not begin with one. A format that is read without a fault
has the pieces that the grammar gives it (`pieces_eq_iff`), and its pieces make a text if at most one of them asks
for the value and the value suits it (`writePieces_eq_ok_iff`). That none has to ask for it shows in the formats of
numbers: one without a specifier for the value is rendered as it stands (`Renderer.number_without_value`).

Main statements: `Renderer.formatted_eq_ok_iff` and `Renderer.number_some_eq_ok_iff`.
-/

namespace Stencil

namespace Format

/-! ## The grammar -/

def isFlag (c : Char) : Bool :=
  ['-', '+', ' ', '0', ',', '('].contains c

/-- The flags together with those that the characters set. -/
def Flags.set (f : Flags) (cs : List Char) : Flags where
  left := f.left || cs.contains '-'
  plus := f.plus || cs.contains '+'
  space := f.space || cs.contains ' '
  zero := f.zero || cs.contains '0'
  group := f.group || cs.contains ','
  paren := f.paren || cs.contains '('

/-- The characters are a way to write the width or precision: nothing, or a numeral of no more than the limit. -/
inductive IsField : List Char → Option Nat → Prop where
  | none : IsField [] none
  | numeral {ds : List Char} : ds ≠ [] → (∀ d ∈ ds, d.isDigit = true) → decimalValue ds ≤ fieldLimit →
    IsField ds (some (decimalValue ds))

/-- The characters are a way to write the precision with the period in front of it. -/
inductive IsPrecision : List Char → Option Nat → Prop where
  | none : IsPrecision [] none
  | some {ds : List Char} {n : Nat} : IsField ds (some n) → IsPrecision ('.' :: ds) (some n)

/-- The character at the end of a specifier says what piece it is. -/
inductive IsEnd (f : Flags) (width precision : Option Nat) : Char → Piece → Prop where
  | percent : IsEnd f width precision '%' (.literal '%')
  | newline : IsEnd f width precision 'n' (.literal '\n')
  | value (conversion : Conversion) :
    IsEnd f width precision conversion.letter (.value { flags := f, width, precision, conversion })

/-- The characters are a way to write the piece behind a percent sign. -/
inductive IsSpecifier : List Char → Piece → Prop where
  | mk {fs ws ps : List Char} {width precision : Option Nat} {c : Char} {piece : Piece} :
    (∀ f ∈ fs, isFlag f = true) → IsField ws width → ws.head? ≠ some '0' → IsPrecision ps precision →
    IsEnd (Flags.set {} fs) width precision c piece → IsSpecifier (fs ++ (ws ++ (ps ++ [c]))) piece

/-- The characters are a format with the pieces: characters that are no percent sign, and specifiers. -/
inductive IsFormat : List Char → List Piece → Prop where
  | nil : IsFormat [] []
  | literal {c : Char} {cs : List Char} {ps : List Piece} : c ≠ '%' → IsFormat cs ps →
    IsFormat (c :: cs) (.literal c :: ps)
  | specifier {us cs : List Char} {p : Piece} {ps : List Piece} : IsSpecifier us p → IsFormat cs ps →
    IsFormat ('%' :: (us ++ cs)) (p :: ps)

/-! ## Flags -/

theorem Flags.add?_eq (f : Flags) (c : Char) : f.add? c = if isFlag c then some (f.set [c]) else none := by
  unfold Flags.add?
  split
  case h_7 hleft hplus hspace hzero hgroup hparen =>
    have hc : isFlag c = false := by simpa [isFlag] using ⟨hleft, hplus, hspace, hzero, hgroup, hparen⟩
    rw [hc]
    rfl
  all_goals simp [isFlag, Flags.set]

theorem Flags.set_set (f : Flags) (cs ds : List Char) : (f.set cs).set ds = f.set (cs ++ ds) := by
  simp [Flags.set, Bool.or_assoc]

/-- Flags are read as far as they go. -/
theorem flags_spec (f : Flags) (cs : List Char) :
    (flags f cs).value = f.set (cs.takeWhile isFlag) ∧ (flags f cs).rest = cs.dropWhile isFlag := by
  induction cs generalizing f with
  | nil => exact ⟨by simp [flags, Flags.set], rfl⟩
  | cons c cs ih =>
    unfold flags
    have hadd := f.add?_eq c
    cases hc : isFlag c with
    | true =>
      rw [hc, if_pos rfl] at hadd
      simp only [hadd, List.takeWhile_cons, List.dropWhile_cons, hc, if_true]
      obtain ⟨hvalue, hrest⟩ := ih (f.set [c])
      rw [Flags.set_set] at hvalue
      exact ⟨hvalue, hrest⟩
    | false =>
      rw [hc, if_neg (by decide)] at hadd
      simp [hadd, hc, Flags.set]

/-! ## Widths and precisions -/

theorem exists_field_of_isField {ds rest : List Char} {n : Option Nat} (h : IsField ds n)
    (hrest : ∀ c ∈ rest.head?, c.isDigit = false) : ∃ hle, field (ds ++ rest) = .ok ⟨n, rest, hle⟩ := by
  cases h with
  | none =>
    obtain ⟨htake, -⟩ := span_append (p := Char.isDigit) (List.forall_mem_nil _) hrest
    refine ⟨Nat.le_refl _, ?_⟩
    simp only [field, htake]
    rfl
  | numeral hne hdigits hle =>
    obtain ⟨htake, hdrop⟩ := span_append hdigits hrest
    refine ⟨by simp, ?_⟩
    simp only [field, htake, hdrop]
    rw [if_neg (by simpa using hne), if_pos hle]

theorem isField_of_field {cs : List Char} {parsed : Parsed (Option Nat) cs} (h : field cs = .ok parsed) :
    ∃ ds, cs = ds ++ parsed.rest ∧ IsField ds parsed.value := by
  simp only [field] at h
  split at h
  · cases h
    exact ⟨[], rfl, .none⟩
  · next hne =>
    split at h
    · next hle =>
      cases h
      exact ⟨_, List.takeWhile_append_dropWhile.symm,
        .numeral (by simpa using hne) (fun _ => List.mem_takeWhile_imp) hle⟩
    · cases h

theorem exists_precision_of_isPrecision {ps rest : List Char} {n : Option Nat} (h : IsPrecision ps n)
    (hrest : ∀ c ∈ rest.head?, c.isDigit = false ∧ c ≠ '.') :
    ∃ hle, precision (ps ++ rest) = .ok ⟨n, rest, hle⟩ := by
  cases h with
  | none =>
    refine ⟨Nat.le_refl _, ?_⟩
    change precision rest = _
    unfold precision
    split
    · exact absurd rfl (hrest '.' rfl).2
    · rfl
  | some hfield =>
    obtain ⟨hle, hread⟩ := exists_field_of_isField hfield fun c hc => (hrest c hc).1
    refine ⟨Nat.le_succ_of_le hle, ?_⟩
    change precision ('.' :: (_ ++ rest)) = _
    rw [precision, hread]
    rfl

theorem isPrecision_of_precision {cs : List Char} {parsed : Parsed (Option Nat) cs} (h : precision cs = .ok parsed) :
    ∃ ps, cs = ps ++ parsed.rest ∧ IsPrecision ps parsed.value := by
  unfold precision at h
  split at h
  · next r =>
    obtain ⟨⟨n, rest, hle⟩, hread, h⟩ := bind_eq_ok.1 h
    obtain ⟨ds, hds, hfield⟩ := isField_of_field hread
    cases n with
    | none => cases h
    | some n =>
      cases h
      exact ⟨'.' :: ds, congrArg ('.' :: ·) hds, .some hfield⟩
  · cases h
    exact ⟨[], rfl, .none⟩

/-! ## Specifiers -/

theorem Conversion.letter_of_ofLetter? {c : Char} {conversion : Conversion} (h : ofLetter? c = some conversion) :
    conversion.letter = c := by
  unfold ofLetter? at h
  split at h
  all_goals first | cases h; rfl | cases h

theorem IsEnd.head {f : Flags} {width precision : Option Nat} {c : Char} {piece : Piece}
    (h : IsEnd f width precision c piece) : isFlag c = false ∧ c.isDigit = false ∧ c ≠ '.' := by
  cases h with
  | percent => decide
  | newline => decide
  | value conversion => cases conversion <;> decide

theorem isFlag_of_isDigit {c : Char} (hdigit : c.isDigit = true) (hzero : c ≠ '0') : isFlag c = false := by
  rw [← Bool.not_eq_true, isFlag, List.contains_iff_mem]
  intro hc
  simp only [List.mem_cons, hzero, List.not_mem_nil, or_false, false_or] at hc
  rcases hc with rfl | rfl | rfl | rfl | rfl
  all_goals cases hdigit

/-- What follows a width begins with the period of a precision or is the end of the specifier. -/
theorem IsPrecision.head {ps rest : List Char} {precision : Option Nat} (h : IsPrecision ps precision) {c : Char} :
    ∀ x ∈ (ps ++ c :: rest).head?, x = '.' ∨ x = c := by
  cases h with
  | none =>
    rintro _ ⟨⟩
    exact .inr rfl
  | some _ =>
    rintro _ ⟨⟩
    exact .inl rfl

/-- What follows the flags is no flag. -/
theorem IsField.head {ws rest : List Char} {width : Option Nat} (h : IsField ws width) (hzero : ws.head? ≠ some '0')
    (hrest : ∀ c ∈ rest.head?, isFlag c = false) : ∀ c ∈ (ws ++ rest).head?, isFlag c = false := by
  cases h with
  | none => exact hrest
  | @numeral ds hne hdigits _ =>
    obtain ⟨d, ds, rfl⟩ := List.exists_cons_of_ne_nil hne
    rintro _ ⟨⟩
    exact isFlag_of_isDigit (hdigits d List.mem_cons_self) fun h => hzero (congrArg some h)

/-- The parts of a specifier are read one after the other. -/
theorem specifier_eq_ok_iff {cs rest : List Char} {piece : Piece} :
    (∃ hle, specifier cs = .ok ⟨piece, rest, hle⟩) ↔
      ∃ width r₁ h₁ places c h₂, field (cs.dropWhile isFlag) = .ok ⟨width, r₁, h₁⟩ ∧
        precision r₁ = .ok ⟨places, c :: rest, h₂⟩ ∧
        IsEnd (Flags.set {} (cs.takeWhile isFlag)) width places c piece := by
  unfold specifier
  have hflags := flags_spec {} cs
  generalize flags {} cs = parsed at hflags
  obtain ⟨f, r, h⟩ := parsed
  obtain ⟨rfl, rfl⟩ := hflags
  constructor
  · rintro ⟨hle, hread⟩
    obtain ⟨⟨width, r₁, h₁⟩, hwidth, hread⟩ := bind_eq_ok.1 hread
    obtain ⟨⟨places, r₂, h₂⟩, hprecision, hread⟩ := bind_eq_ok.1 hread
    cases r₂ with
    | nil => cases hread
    | cons c r₂ =>
      refine ⟨width, r₁, h₁, places, c, ?_⟩
      dsimp only at hread
      split at hread
      · next hfound =>
        cases hread
        refine ⟨h₂, hwidth, hprecision, ?_⟩
        split at hfound
        · cases hfound
          exact .percent
        · cases hfound
          exact .newline
        · obtain ⟨conversion, hconversion, rfl⟩ := Option.map_eq_some_iff.1 hfound
          rw [← Conversion.letter_of_ofLetter? hconversion]
          exact .value conversion
      · cases hread
  · rintro ⟨width, r₁, h₁, places, c, h₂, hwidth, hprecision, hend⟩
    refine ⟨by rw [List.length_cons] at h₂; omega, bind_eq_ok.2 ⟨_, hwidth, bind_eq_ok.2 ⟨_, hprecision, ?_⟩⟩⟩
    cases hend with
    | percent => rfl
    | newline => rfl
    | value conversion => cases conversion <;> rfl

/-- Each way to write a piece is read as the piece. -/
theorem exists_specifier_of_isSpecifier {us : List Char} {piece : Piece} (h : IsSpecifier us piece)
    (rest : List Char) : ∃ hle, specifier (us ++ rest) = .ok ⟨piece, rest, hle⟩ := by
  obtain @⟨fs, ws, ps, width, places, c, _, hflags, hwidth, hzero, hprecision, hend⟩ := h
  obtain ⟨hflag, hdigit, hperiod⟩ := hend.head
  have hnext : ∀ x ∈ (ps ++ c :: rest).head?, isFlag x = false ∧ x.isDigit = false := by
    intro x hx
    rcases hprecision.head x hx with rfl | rfl
    · decide
    · exact ⟨hflag, hdigit⟩
  have hsplit := span_append hflags (hwidth.head hzero fun x hx => (hnext x hx).1)
  obtain ⟨h₁, hfield⟩ := exists_field_of_isField hwidth fun x hx => (hnext x hx).2
  have hstop : ∀ x ∈ (c :: rest).head?, x.isDigit = false ∧ x ≠ '.' := by
    rintro _ ⟨⟩
    exact ⟨hdigit, hperiod⟩
  obtain ⟨h₂, hplaces⟩ := exists_precision_of_isPrecision hprecision hstop
  have hassoc : fs ++ (ws ++ (ps ++ [c])) ++ rest = fs ++ (ws ++ (ps ++ c :: rest)) := by simp
  rw [hassoc, specifier_eq_ok_iff, hsplit.1, hsplit.2]
  exact ⟨width, _, h₁, places, c, h₂, hfield, hplaces, hend⟩

/-- What is read as a piece is a way to write it. -/
theorem exists_isSpecifier_of_specifier {cs rest : List Char} {piece : Piece} {hle : rest.length ≤ cs.length}
    (h : specifier cs = .ok ⟨piece, rest, hle⟩) : ∃ us, cs = us ++ rest ∧ IsSpecifier us piece := by
  obtain ⟨width, r, h₁, places, c, h₂, hfield, hplaces, hend⟩ := specifier_eq_ok_iff.1 ⟨hle, h⟩
  obtain ⟨ws, hws, hwidth⟩ := isField_of_field hfield
  obtain ⟨ps, hps, hprecision⟩ := isPrecision_of_precision hplaces
  dsimp only at hws hps hwidth hprecision
  subst hps
  have hzero : ws.head? ≠ some '0' := by
    intro hhead
    have hstop := List.head?_dropWhile_not isFlag cs
    rw [hws, List.head?_append, hhead] at hstop
    cases hstop
  refine ⟨cs.takeWhile isFlag ++ (ws ++ (ps ++ [c])), ?_,
    .mk (fun _ => List.mem_takeWhile_imp) hwidth hzero hprecision hend⟩
  calc cs = cs.takeWhile isFlag ++ cs.dropWhile isFlag := List.takeWhile_append_dropWhile.symm
    _ = cs.takeWhile isFlag ++ (ws ++ (ps ++ [c])) ++ rest := by simp [hws]

/-! ## Pieces -/

/-- A format is read without a fault exactly if it has pieces by the grammar, and they are the ones that are read. -/
theorem pieces_eq_iff {cs : List Char} {ps : List Piece} : pieces cs = (ps, none) ↔ IsFormat cs ps := by
  constructor
  · intro h
    fun_induction pieces cs generalizing ps with
    | case1 =>
      cases h
      exact .nil
    | case2 c cs hc fault hread => cases h
    | case3 c cs hc piece rest hle hread more fault hmore ih =>
      cases h
      obtain ⟨us, rfl, hus⟩ := exists_isSpecifier_of_specifier hread
      rw [beq_iff_eq.1 hc]
      exact .specifier hus (ih hmore)
    | case4 c cs hc more fault hmore ih =>
      cases h
      exact .literal (by simpa using hc) (ih hmore)
  · intro h
    induction h with
    | nil => rw [pieces]
    | literal hc _ ih => rw [pieces, if_neg (by simpa using hc), ih]
    | specifier hus _ ih =>
      obtain ⟨hle, hread⟩ := exists_specifier_of_isSpecifier hus _
      rw [pieces, if_pos (beq_self_eq_true '%'), hread]
      simp only [ih]

/-- No format has pieces in two ways. -/
theorem IsFormat.unique {cs : List Char} {ps ps' : List Piece} (h : IsFormat cs ps) (h' : IsFormat cs ps') :
    ps = ps' := by
  rw [← pieces_eq_iff] at h h'
  rw [h] at h'
  exact (Prod.mk.inj h').1

/-- A zero is a flag behind flags, and a digit behind other digits. -/
example :
    let s : Specifier := { flags := { zero := true }, width := some 10, conversion := .decimal }
    pieces "%00010d".toList = ([.value s], none) := by
  cbv

/-! ## The text of pieces -/

def Piece.isValue : Piece → Bool
  | literal _ => false
  | value _ => true

def Piece.text (v : Value) (l : Locale) : Piece → List Char
  | literal c => [c]
  | value s => (convert s v l).toOption.getD []

theorem Piece.text_value {v : Value} {l : Locale} {s : Specifier} {cs : List Char} (h : convert s v l = .ok cs) :
    (Piece.value s).text v l = cs := by
  rw [Piece.text, h]
  rfl

/-- The pieces make a text exactly if at most one of them asks for the value, or none if one before them has done so,
and the value suits it; the text is theirs, one after the other. -/
theorem writePieces_eq_ok_iff {v : Value} {l : Locale} {used : Bool} {ps : List Piece} {cs : List Char} :
    writePieces v l used ps = .ok cs ↔ ps.countP Piece.isValue ≤ (if used then 0 else 1) ∧
      (∀ s, .value s ∈ ps → s.Suits v) ∧ cs = ps.flatMap (Piece.text v l) := by
  induction ps generalizing used cs with
  | nil => simp [writePieces, eq_comm]
  | cons p ps ih =>
    cases p with
    | literal c =>
      have hcount : (Piece.literal c :: ps).countP Piece.isValue = ps.countP Piece.isValue :=
        List.countP_cons_of_neg Bool.false_ne_true
      rw [writePieces, bind_eq_ok, hcount]
      constructor
      · rintro ⟨more, hmore, h⟩
        cases h
        obtain ⟨hvalues, hsuits, rfl⟩ := ih.1 hmore
        exact ⟨hvalues, by simpa using hsuits, rfl⟩
      · rintro ⟨hvalues, hsuits, rfl⟩
        exact ⟨_, ih.2 ⟨hvalues, by simpa using hsuits, rfl⟩, rfl⟩
    | value s =>
      have hcount : (Piece.value s :: ps).countP Piece.isValue = ps.countP Piece.isValue + 1 :=
        List.countP_cons_of_pos rfl
      rw [writePieces, hcount]
      cases used with
      | true => simp
      | false =>
        have hsuits : (∀ s', .value s' ∈ Piece.value s :: ps → s'.Suits v) ↔
            s.Suits v ∧ ∀ s', .value s' ∈ ps → s'.Suits v := by simp
        rw [if_neg Bool.false_ne_true, if_neg Bool.false_ne_true, bind_eq_ok, hsuits, Nat.add_le_add_iff_right,
          List.flatMap_cons]
        constructor
        · rintro ⟨ds, hds, h⟩
          obtain ⟨more, hmore, h⟩ := bind_eq_ok.1 h
          cases h
          obtain ⟨hvalues, hrest, rfl⟩ := ih.1 hmore
          exact ⟨hvalues, ⟨exists_convert_iff.1 ⟨ds, hds⟩, hrest⟩, by rw [Piece.text_value hds]⟩
        · rintro ⟨hvalues, ⟨hs, hrest⟩, rfl⟩
          obtain ⟨ds, hds⟩ := exists_convert_iff.2 hs
          rw [Piece.text_value hds]
          exact ⟨ds, hds, bind_eq_ok.2 ⟨_, ih.2 ⟨hvalues, hrest, rfl⟩, rfl⟩⟩

/-- A format makes a text exactly if it has pieces by the grammar that make one. -/
theorem format_eq_ok_iff {source : List Char} {v : Value} {l : Locale} {cs : List Char} :
    format source v l = .ok cs ↔ ∃ ps, IsFormat source ps ∧ ps.countP Piece.isValue ≤ 1 ∧
      (∀ s, .value s ∈ ps → s.Suits v) ∧ cs = ps.flatMap (Piece.text v l) := by
  rcases hpieces : pieces source with ⟨found, fault⟩
  have hread : format source v l = .ok cs ↔ fault = none ∧ writePieces v l false found = .ok cs := by
    rw [format, hpieces]
    dsimp only
    rw [bind_eq_ok]
    cases fault with
    | some fault => simp
    | none =>
      constructor
      · rintro ⟨ds, hds, h⟩
        cases h
        exact ⟨rfl, hds⟩
      · rintro ⟨-, hds⟩
        exact ⟨cs, hds, rfl⟩
  rw [hread]
  constructor
  · rintro ⟨rfl, hwrite⟩
    exact ⟨found, pieces_eq_iff.1 hpieces, writePieces_eq_ok_iff.1 hwrite⟩
  · rintro ⟨ps, hps, hwrite⟩
    rw [← pieces_eq_iff, hpieces] at hps
    cases hps
    exact ⟨rfl, writePieces_eq_ok_iff.2 hwrite⟩

end Format

/-- **The formats that make a text are those of the grammar.** A format makes a text of a value under a locale exactly
if it is a sequence of characters other than a percent sign and of specifiers, of which at most one asks for the
value, and the value and the flags suit its conversion. The text is that of the pieces in their order: a character for
itself, a percent sign or a line feed for the specifiers that stand for them, and the converted value. Where there is
no text there is an error that names the format and the type of the value. -/
theorem Renderer.formatted_eq_ok_iff (f : String) (v : Value) (l : Locale) :
    (∀ text, formatted f v l = .ok text ↔ ∃ ps, Format.IsFormat f.toList ps ∧
      ps.countP Format.Piece.isValue ≤ 1 ∧ (∀ s, .value s ∈ ps → s.Suits v) ∧
      text.toList = ps.flatMap (Format.Piece.text v l)) ∧
    ((∃ text, formatted f v l = .ok text) ∨ ∃ fault, formatted f v l = .error (.unrenderable f v.typeName fault)) := by
  unfold formatted
  constructor
  · intro text
    rw [← Format.format_eq_ok_iff]
    cases Format.format f.toList v l with
    | error fault => simp
    | ok cs =>
      rw [Except.ok.injEq, Except.ok.injEq, eq_comm (a := cs), ← String.toList_inj, String.toList_ofList, eq_comm]
  · cases Format.format f.toList v l with
    | error fault => exact .inr ⟨fault, rfl⟩
    | ok cs => exact .inl ⟨_, rfl⟩

/-! ## Formats of numbers -/

namespace Format

theorem eq_map_literal {ps : List Piece} (h : ps.countP Piece.isValue = 0) :
    ∃ chars : List Char, ps = chars.map .literal := by
  induction ps with
  | nil => exact ⟨[], rfl⟩
  | cons p ps ih =>
    cases p with
    | literal c =>
      rw [List.countP_cons_of_neg Bool.false_ne_true] at h
      obtain ⟨chars, rfl⟩ := ih h
      exact ⟨c :: chars, rfl⟩
    | value s =>
      rw [List.countP_cons_of_pos rfl] at h
      cases h

theorem countP_map_literal (chars : List Char) : (chars.map Piece.literal).countP Piece.isValue = 0 := by
  rw [List.countP_map, List.countP_eq_zero]
  exact fun c _ => Bool.false_ne_true

/-- Pieces of which at most one asks for the value are characters, perhaps around this one. -/
theorem countP_isValue_le_one_iff {ps : List Piece} : ps.countP Piece.isValue ≤ 1 ↔
    (∃ (before : List Char) (s : Specifier) (after : List Char),
      ps = before.map .literal ++ .value s :: after.map .literal) ∨
      ∃ chars : List Char, ps = chars.map .literal := by
  constructor
  · intro h
    induction ps with
    | nil => exact .inr ⟨[], rfl⟩
    | cons p ps ih =>
      cases p with
      | literal c =>
        rw [List.countP_cons_of_neg Bool.false_ne_true] at h
        rcases ih h with ⟨before, s, after, rfl⟩ | ⟨chars, rfl⟩
        · exact .inl ⟨c :: before, s, after, rfl⟩
        · exact .inr ⟨c :: chars, rfl⟩
      | value s =>
        rw [List.countP_cons_of_pos rfl] at h
        obtain ⟨after, rfl⟩ := eq_map_literal (Nat.le_zero.1 (Nat.le_of_succ_le_succ h))
        exact .inl ⟨[], s, after, rfl⟩
  · rintro (⟨before, s, after, rfl⟩ | ⟨chars, rfl⟩)
    · rw [List.countP_append, List.countP_cons_of_pos rfl, countP_map_literal, countP_map_literal]
    · rw [countP_map_literal]
      exact Nat.zero_le 1

theorem flatMap_text_map_literal (v : Value) (l : Locale) (chars : List Char) :
    (chars.map Piece.literal).flatMap (Piece.text v l) = chars := by
  induction chars with
  | nil => rfl
  | cons c chars ih => exact congrArg (c :: ·) ih

/-- The text of a format is its characters, and among them the converted value if a specifier asks for it. -/
theorem format_eq_ok_iff_around {source : List Char} {v : Value} {l : Locale} {cs : List Char} :
    format source v l = .ok cs ↔
      (∃ (before : List Char) (s : Specifier) (after ds : List Char),
        IsFormat source (before.map .literal ++ .value s :: after.map .literal) ∧
        convert s v l = .ok ds ∧ cs = before ++ ds ++ after) ∨
      IsFormat source (cs.map .literal) := by
  rw [format_eq_ok_iff]
  constructor
  · rintro ⟨ps, hps, hcount, hsuits, rfl⟩
    rcases countP_isValue_le_one_iff.1 hcount with ⟨before, s, after, rfl⟩ | ⟨chars, rfl⟩
    · obtain ⟨ds, hds⟩ := exists_convert_iff.2 (hsuits s (by simp))
      refine .inl ⟨before, s, after, ds, hps, hds, ?_⟩
      rw [List.flatMap_append, List.flatMap_cons, flatMap_text_map_literal, flatMap_text_map_literal,
        Piece.text_value hds, List.append_assoc]
    · rw [flatMap_text_map_literal]
      exact .inr hps
  · rintro (⟨before, s, after, ds, hps, hds, rfl⟩ | hps)
    · refine ⟨_, hps, countP_isValue_le_one_iff.2 (.inl ⟨before, s, after, rfl⟩), ?_, ?_⟩
      · intro s' hs'
        have heq : s' = s := by simpa using hs'
        rw [heq]
        exact exists_convert_iff.1 ⟨ds, hds⟩
      · rw [List.flatMap_append, List.flatMap_cons, flatMap_text_map_literal, flatMap_text_map_literal,
          Piece.text_value hds, List.append_assoc]
    · refine ⟨_, hps, countP_isValue_le_one_iff.2 (.inr ⟨cs, rfl⟩), ?_, (flatMap_text_map_literal v l cs).symm⟩
      intro s hs
      simp at hs

end Format

def Value.IsNumber (v : Value) : Prop :=
  (∃ n, v = .int n) ∨ ∃ x, v = .float x

theorem Renderer.formatted_eq_ok {f : String} {v : Value} {l : Locale} {text : String} :
    formatted f v l = .ok text ↔ Format.format f.toList v l = .ok text.toList := by
  unfold formatted
  cases Format.format f.toList v l with
  | error fault => exact iff_of_false (fun h => nomatch h) fun h => nomatch h
  | ok cs => rw [Except.ok.injEq, Except.ok.injEq, ← String.toList_inj, String.toList_ofList]

/-- **What a number with a format is rendered as.** The format has one specifier that asks for the value, and the text
is what that converts the number to, between the characters of the format; or it has none, and the text is the
characters alone. In every other case, and for every value that is no number, there is an error that names the format
and the type of the value. -/
theorem Renderer.number_some_eq_ok_iff (f : String) (v : Value) (l : Locale) :
    (∀ text, number v (some f) l = .ok text ↔ v.IsNumber ∧
      ((∃ (before : List Char) (s : Format.Specifier) (after cs : List Char),
        Format.IsFormat f.toList (before.map .literal ++ .value s :: after.map .literal) ∧
        Format.convert s v l = .ok cs ∧ text.toList = before ++ cs ++ after) ∨
      Format.IsFormat f.toList (text.toList.map .literal))) ∧
    ((∃ text, number v (some f) l = .ok text) ∨
      ∃ fault, number v (some f) l = .error (.unrenderable f v.typeName fault)) := by
  by_cases hv : v.IsNumber
  · have hformat : number v (some f) l = formatted f v l := by
      rcases hv with ⟨n, rfl⟩ | ⟨x, rfl⟩ <;> rfl
    rw [hformat]
    constructor
    · intro text
      rw [Renderer.formatted_eq_ok, Format.format_eq_ok_iff_around]
      exact (and_iff_right hv).symm
    · unfold formatted
      cases Format.format f.toList v l with
      | error fault => exact .inr ⟨fault, rfl⟩
      | ok cs => exact .inl ⟨_, rfl⟩
  · have herror : number v (some f) l = .error (.unrenderable f v.typeName .notANumber) := by
      cases v with
      | int n => exact absurd (.inl ⟨n, rfl⟩) hv
      | float x => exact absurd (.inr ⟨x, rfl⟩) hv
      | _ => rfl
    rw [herror]
    exact ⟨fun text => iff_of_false (fun h => nomatch h) fun h => hv h.1, .inr ⟨_, rfl⟩⟩

/-- A format without a percent sign is rendered as itself, and the number is lost. -/
theorem Renderer.number_without_value :
    number (.int (-2100)) (some ",d") .root = .ok ",d" ∧
      ∀ ps, Format.IsFormat ",d".toList ps → ps.countP Format.Piece.isValue = 0 := by
  refine ⟨by decide +kernel, fun ps hps => ?_⟩
  have hliteral : Format.IsFormat ",d".toList ([',', 'd'].map .literal) :=
    .literal (by decide) (.literal (by decide) .nil)
  rw [hps.unique hliteral]
  rfl

end Stencil

import Stencil.Proofs.GroupFile.ErrorSpans
import Stencil.Proofs.Template.ErrorSpans

/-!
# Lines and columns lead back to errors

The line and the column of a position are those, and no others, from which the position is found again
(`arrives_iff`): past the newlines of the lines before it and then past characters that are no newlines. Errors of
templates and of group files start at positions, so this holds of them.

Main statement: `error_lineColumn`.
-/

namespace Stencil

/-- The offset is found behind `line - 1` newlines of the source and then `column - 1` characters that are none. -/
def Arrives (source : List Char) (line column offset : Nat) : Prop :=
  ∃ lines passed rest, source = lines ++ passed ++ rest ∧ byteLength (lines ++ passed) = offset ∧
    (lines = [] ∨ lines.getLast? = some '\n') ∧ lines.count '\n' + 1 = line ∧
    '\n' ∉ passed ∧ passed.length + 1 = column

section
variable {source : List Char}

theorem lineColumn_append (before rest : List Char) :
    lineColumn (before ++ rest) (byteLength before) =
      (before.count '\n' + 1, (before.rtakeWhile (· ≠ '\n')).length + 1) := by
  have hmin : min (byteLength before) (byteLength (before ++ rest)) = byteLength before := by
    rw [byteLength_append]
    omega
  rw [lineColumn, hmin, takeBytes?_append, List.rtakeWhile, List.length_reverse]
  rfl

/-- The line and the column of a position are the ones from which it is found again. -/
theorem arrives_iff {line column n : Nat} (h : IsPosition source n) :
    Arrives source line column n ↔ (line, column) = lineColumn source n := by
  obtain ⟨before, ⟨rest, rfl⟩, rfl⟩ := h
  rw [lineColumn_append, Prod.mk.injEq]
  constructor
  · rintro ⟨lines, passed, rest', hsource, hlength, hlines, rfl, hpassed, rfl⟩
    obtain ⟨rfl, -⟩ := append_inj_of_byteLength hsource hlength.symm
    rw [rtakeWhile_append hlines hpassed, List.count_append, List.count_eq_zero.2 hpassed]
    exact ⟨rfl, rfl⟩
  · rintro ⟨rfl, rfl⟩
    have hbefore : before.rdropWhile (· ≠ '\n') ++ before.rtakeWhile (· ≠ '\n') = before :=
      List.rdropWhile_append_rtakeWhile
    have hpassed : '\n' ∉ before.rtakeWhile (· ≠ '\n') := fun hmem => by simpa using List.mem_rtakeWhile_imp hmem
    have hlines : before.rdropWhile (· ≠ '\n') = [] ∨ (before.rdropWhile (· ≠ '\n')).getLast? = some '\n' := by
      by_cases hne : before.rdropWhile (· ≠ '\n') = []
      · exact .inl hne
      · right
        rw [List.getLast?_eq_some_getLast hne, Option.some.injEq]
        simpa using List.rdropWhile_last_not _ _ hne
    have hcount : (before.rdropWhile (· ≠ '\n')).count '\n' = before.count '\n' := by
      conv_rhs => rw [← hbefore]
      rw [List.count_append, List.count_eq_zero.2 hpassed, Nat.add_zero]
    exact ⟨_, _, rest, by rw [hbefore], by rw [hbefore], hlines, by rw [hcount], hpassed, rfl⟩

end

/-- **The line and the column of an error lead back to it.** Errors of templates and of group files start at positions
of their sources, and the line and the column of an error are the only ones at which one arrives there. -/
theorem error_lineColumn {source : String} {e : SyntaxError}
    (h : (∃ d, Template.scan d source.toList = .error e ∨ Template.parse d source.toList = .error e) ∨
      GroupFile.scan source.toList = .error e ∨ GroupFile.parse source.toList = .error e) :
    IsPosition source.toList e.span.start ∧ e.span.start ≤ byteLength source.toList ∧
      ∀ line column, Arrives source.toList line column e.span.start ↔ (line, column) = e.lineColumn source := by
  have hposition : IsPosition source.toList e.span.start := by
    rcases h with ⟨d, h⟩ | h
    · exact Template.isPosition_of_error h
    · exact GroupFile.isPosition_of_error h
  exact ⟨hposition, hposition.le, fun line column => arrives_iff hposition⟩

/-- An error on the second line, behind a character of two bytes. -/
theorem error_lineColumn_second :
    Template.scan {} "é\n<x + y>".toList = .error ⟨⟨6, 7⟩, .unexpectedCharacter '+'⟩ ∧
      ∀ line column, Arrives "é\n<x + y>".toList line column 6 ↔ (line, column) = (2, 4) := by
  have herror : Template.scan {} "é\n<x + y>".toList = .error ⟨⟨6, 7⟩, .unexpectedCharacter '+'⟩ := by
    decide +kernel
  have hplace : lineColumn "é\n<x + y>".toList 6 = (2, 4) := by decide +kernel
  refine ⟨herror, fun line column => ?_⟩
  rw [← hplace]
  exact (error_lineColumn (.inl ⟨{}, .inl herror⟩)).2.2 line column

end Stencil

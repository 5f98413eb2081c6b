import Stencil.Proofs.Template.ParsePrint
import Stencil.Proofs.Template.ScanPrint

/-!
# Parsing undoes printing

The text of a well-formed tree is parsed as this tree, up to places (`parse_printAll`).
-/

namespace Stencil.Template

variable {σ : Type}

/-- The parser reads the tokens of a tree as the tree. -/
theorem parseTokens_tokensAll (eof : Span) {ns : List (Node σ)} (hns : Node.wellFormedAll ns = true)
    {ts : List Lexeme} (h : ts.map (·.token) = Node.tokensAll ns) :
    ∃ found, parseTokens eof ts = .ok found ∧ Node.eraseAll found = Node.eraseAll ns := by
  obtain ⟨⟨found, after, hle⟩, hread, hfound, hafter⟩ :=
    reads_nodes eof (isNodes_tokensAll hns) .source ts (h.trans (List.append_nil _).symm)
  have hend : after = [] := List.map_eq_nil_iff.1 hafter
  subst hend
  refine ⟨found, ?_, hfound⟩
  rw [parseTokens, hread]
  rfl

/-- **Parsing undoes printing.** The text of a well-formed tree is parsed as this tree, with any delimiters
that can be told from the rest of a template. -/
theorem parse_printAll {d : Delimiters} (hd : d.admissible = true) {ns : List (Node σ)}
    (hns : Node.wellFormedAll ns = true) :
    (parse d (Node.printAll d false ns)).map Node.eraseAll = .ok (Node.eraseAll ns) := by
  obtain ⟨located, hscan, htokens⟩ := scan_printAll hd hns
  obtain ⟨found, hparse, hfound⟩ := parseTokens_tokensAll _ hns htokens
  rw [parse, hscan]
  dsimp only [bind, Except.bind]
  rw [hparse, Except.map, hfound]

/-- A body that looks like a list of parameters, with a delimiter, a backslash and a brace, is read back. -/
theorem parse_printAll_body :
    Node.printAll ⟨'$', '$'⟩ false
      [Node.expression (.path ⟨"xs", (), [.property "y", .index 12]⟩)
        [.anonymous [] [.literal "p|$\\\x7d" ()] ()] { separator := some "\\\"" } ()] =
      "$xs.y.12:\x7b$!!$p|\\$$\\u005c$\\\x7d\x7d;separator=\"\\\\\\\"\"$".toList ∧
    (parse ⟨'$', '$'⟩ (Node.printAll ⟨'$', '$'⟩ false
      [Node.expression (.path ⟨"xs", (), [.property "y", .index 12]⟩)
        [.anonymous [] [.literal "p|$\\\x7d" ()] ()] { separator := some "\\\"" } ()])).map Node.eraseAll =
      .ok [.expression (.path ⟨"xs", (), [.property "y", .index 12]⟩)
        [.anonymous [] [.literal "p|$\\\x7d" ()] ()] { separator := some "\\\"" } ()] :=
  ⟨by decide +kernel, parse_printAll (by decide) (by decide)⟩

end Stencil.Template

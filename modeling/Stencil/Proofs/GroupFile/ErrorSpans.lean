import Stencil.GroupFile.Parse
import Stencil.Proofs.Reading
import Stencil.Proofs.Text.Position

/-!
# Where errors of group files start

The scanner of group files moves its offset by the bytes of the pieces that it takes (`takes_next`), so tokens and
scanning errors start at positions of the source, and the parser reports its errors at tokens or at the end
(`Tracks`).

Main statement: `isPosition_of_error`.
-/

namespace Stencil.GroupFile

/-! ## Pieces -/

theorem splitAtPair?_eq_some {a b : Char} {cs before after : List Char}
    (h : splitAtPair? a b cs = some (before, after)) : cs = before ++ a :: b :: after := by
  induction cs generalizing before with
  | nil => cases h
  | cons c cs ih =>
    have htail : (splitAtPair? a b cs).map (fun found => (c :: found.1, found.2)) = some (before, after) →
        c :: cs = before ++ a :: b :: after := by
      intro h
      obtain ⟨⟨before', after'⟩, hsplit, heq⟩ := Option.map_eq_some_iff.1 h
      cases heq
      rw [ih hsplit]
      rfl
    unfold splitAtPair? at h
    split at h
    · next d rest hc =>
      split at h
      · next hd =>
        cases h
        rw [beq_iff_eq.1 hc, beq_iff_eq.1 hd]
        rfl
      · exact htail h
    · exact htail h

theorem eq_append_of_scanComment {cs body after : List Char} (h : scanComment cs = (body, some after)) :
    cs = body ++ '*' :: '/' :: after := by
  fun_induction scanComment cs generalizing body with
  | case1 => cases h
  | case2 => cases h
  | case3 rest =>
    cases h
    rfl
  | case4 c rest _ body' after' hrest ih =>
    cases h
    rw [ih hrest]
    rfl
  | case5 c rest _ _ _ body' after' hrest ih =>
    cases h
    rw [ih hrest]
    rfl

/-- The piece takes as many bytes from the beginning of the text as it says. -/
def Piece.Takes (cs : List Char) : Piece → Prop
  | skipped bytes rest => ∃ taken, cs = taken ++ rest ∧ byteLength taken = bytes
  | token _ bytes rest => ∃ taken, cs = taken ++ rest ∧ byteLength taken = bytes
  | fault _ _ => True

theorem byteLength_enclosed (opening body closing : List Char) :
    byteLength (opening ++ (body ++ closing)) = byteLength body + (byteLength opening + byteLength closing) := by
  rw [byteLength_append, byteLength_append]
  omega

theorem takes_next (c : Char) (cs : List Char) : (next c cs).Takes (c :: cs) := by
  unfold next
  split
  · exact ⟨[':', ':', '='], rfl, rfl⟩
  · exact ⟨['('], rfl, rfl⟩
  · exact ⟨[')'], rfl, rfl⟩
  · exact ⟨[','], rfl, rfl⟩
  · exact ⟨['.'], rfl, rfl⟩
  · exact ⟨['@'], rfl, rfl⟩
  · exact ⟨['='], rfl, rfl⟩
  · next rest =>
    split
    · next body after hbody =>
      refine ⟨'"' :: (body ++ ['"']), ?_, ?_⟩
      · rw [eq_append_of_scanLiteral hbody]
        simp
      · exact byteLength_enclosed ['"'] body ['"']
    · trivial
  · next rest =>
    split
    · next body after hbody =>
      refine ⟨'<' :: '<' :: (body ++ ['>', '>']), ?_, ?_⟩
      · rw [splitAtPair?_eq_some hbody]
        simp
      · exact byteLength_enclosed ['<', '<'] body ['>', '>']
    · trivial
  · next rest =>
    split
    · next body after hbody =>
      refine ⟨'<' :: '%' :: (body ++ ['%', '>']), ?_, ?_⟩
      · rw [splitAtPair?_eq_some hbody]
        simp
      · exact byteLength_enclosed ['<', '%'] body ['%', '>']
    · trivial
  · next rest =>
    refine ⟨'/' :: '/' :: rest.takeWhile (· != '\n'), ?_, ?_⟩
    · rw [List.cons_append, List.cons_append, List.takeWhile_append_dropWhile]
    · rw [byteLength_cons, byteLength_cons, ← Nat.add_assoc]
      exact Nat.add_comm 2 _
  · next rest =>
    split
    · next body after hbody =>
      refine ⟨'/' :: '*' :: (body ++ ['*', '/']), ?_, ?_⟩
      · rw [eq_append_of_scanComment hbody]
        simp
      · exact byteLength_enclosed ['/', '*'] body ['*', '/']
    · trivial
  · split
    · next hc =>
      refine ⟨[c], rfl, ?_⟩
      simp only [isSpacing, Bool.or_eq_true, beq_iff_eq] at hc
      rcases hc with ((rfl | rfl) | rfl) | rfl <;> rfl
    · split
      · exact ⟨c :: cs.takeWhile isWordPart, congrArg (c :: ·) List.takeWhile_append_dropWhile.symm, rfl⟩
      · trivial

/-! ## Scanning -/

/-- The tokens, or the error, start at positions of the source. -/
def ScanStarts (source : List Char) : Except SyntaxError (List (Located Token)) → Prop
  | .ok tokens => ∀ t ∈ tokens, IsPosition source t.span.start
  | .error e => IsPosition source e.span.start

theorem scanStarts_scanFrom (before : List Char) {pos : Nat} (hpos : byteLength before = pos) (input : List Char) :
    ScanStarts (before ++ input) (scanFrom pos input) := by
  fun_induction scanFrom pos input generalizing before with
  | case1 => exact nofun
  | case2 pos c cs bytes rest hnext ih =>
    have htakes := takes_next c cs
    rw [hnext] at htakes
    obtain ⟨taken, hcs, hbytes⟩ := htakes
    rw [hcs, ← List.append_assoc]
    exact ih (before ++ taken) (by rw [byteLength_append, hpos, hbytes])
  | case3 pos c cs token bytes rest hnext ih =>
    have htakes := takes_next c cs
    rw [hnext] at htakes
    obtain ⟨taken, hcs, hbytes⟩ := htakes
    have hrest := ih (before ++ taken) (by rw [byteLength_append, hpos, hbytes])
    rw [hcs, ← List.append_assoc]
    cases hmore : scanFrom (pos + bytes) rest with
    | error e =>
      rw [hmore] at hrest
      exact hrest
    | ok more =>
      rw [hmore] at hrest
      refine List.forall_mem_cons.2 ⟨?_, hrest⟩
      rw [← hpos, List.append_assoc]
      exact .of_append before _
  | case4 pos c cs bytes fault hnext =>
    rw [ScanStarts, ← hpos]
    exact .of_append before _

theorem scanStarts_scan (source : List Char) : ScanStarts source (scan source) :=
  scanStarts_scanFrom [] rfl source

/-! ## Parsing -/

variable {eof : Span} {all : List Lexeme}

theorem at_unexpected {ts : List Lexeme} (h : ts <:+ all) : (unexpected eof ts).At eof all :=
  .unexpected (fun _ => by simp) (fun _ => by simp) h

section
variable {ts : List Lexeme} (h : ts <:+ all)
include h

theorem tracks_expect (expected : List Token) (stop : Nat) : Tracks eof all (expect eof expected stop ts) := by
  fun_induction expect eof expected stop ts with
  | case1 stop r => exact .ok h
  | case2 stop es t r ih => exact (ih (suffix_of_cons h)).bind fun _ _ _ _ hrest => .ok hrest
  | case3 => exact .error (at_unexpected h)
  | case4 => exact .error (at_unexpected h)

theorem tracks_name : Tracks eof all (name eof ts) := by
  unfold name
  split
  · exact .ok (suffix_of_cons h)
  · exact .error (at_unexpected h)

theorem tracks_str : Tracks eof all (str eof ts) := by
  unfold str
  split
  · exact .ok (suffix_of_cons h)
  · exact .error (at_unexpected h)

theorem tracks_body : Tracks eof all (body eof ts) := by
  unfold body
  split
  · exact .ok (suffix_of_cons h)
  · exact .ok (suffix_of_cons h)
  · exact .ok (suffix_of_cons h)
  · exact .error (at_unexpected h)

theorem tracks_parameter : Tracks eof all (parameter eof ts) := by
  unfold parameter
  split
  · exact (tracks_str (suffix_of_cons (suffix_of_cons h))).bind fun _ _ _ _ hrest => .ok hrest
  · exact .ok (suffix_of_cons h)
  · exact .error (at_unexpected h)

theorem tracks_furtherParameters : Tracks eof all (furtherParameters eof ts) := by
  fun_induction furtherParameters eof ts with
  | case1 => exact .ok (suffix_of_cons h)
  | case2 comma r ih =>
    refine (tracks_parameter (suffix_of_cons h)).bind fun p r₁ hle _ h₁ => ?_
    exact (ih r₁ hle h₁).bind fun _ _ _ _ hrest => .ok hrest
  | case3 => exact .error (at_unexpected h)

theorem tracks_parameters : Tracks eof all (parameters eof ts) := by
  unfold parameters
  split
  · exact .ok (suffix_of_cons h)
  · refine (tracks_parameter h).bind fun p r₁ hle _ h₁ => ?_
    exact (tracks_furtherParameters h₁).bind fun _ _ _ _ hrest => .ok hrest

end

/-- A string ends where a token ends. -/
theorem stop_of_str {ts : List Lexeme} {parsed : Parsed (String × Nat) ts} (h : str eof ts = .ok parsed) :
    ∃ last ∈ ts, last.span.stop = parsed.value.2 := by
  unfold str at h
  split at h
  · cases h
    exact ⟨_, List.mem_cons_self, rfl⟩
  · cases h

/-- A body ends where a token ends. -/
theorem stop_of_body {ts : List Lexeme} {parsed : Parsed (String × Nat) ts} (h : body eof ts = .ok parsed) :
    ∃ last ∈ ts, last.span.stop = parsed.value.2 := by
  unfold body at h
  split at h
  · cases h
    exact ⟨_, List.mem_cons_self, rfl⟩
  · cases h
    exact ⟨_, List.mem_cons_self, rfl⟩
  · cases h
    exact ⟨_, List.mem_cons_self, rfl⟩
  · cases h

/-- The declaration of a template begins with its name, which stands before the tokens. -/
theorem tracks_templateDecl (t : Lexeme) (n : String) (ts : List Lexeme) :
    Tracks eof (t :: ts) (templateDecl eof t.span.start n ts) := by
  unfold templateDecl
  have hts : ts <:+ t :: ts := List.suffix_cons t ts
  refine (tracks_expect hts [.parenOpen] t.span.start).bind fun _ r₂ h₂ _ hr₂ => ?_
  refine (tracks_parameters hr₂).bind fun params r₃ h₃ _ hr₃ => ?_
  refine (tracks_expect hr₃ [.defines] t.span.start).bind fun _ r₄ h₄ _ hr₄ => ?_
  refine (tracks_body hr₄).bind fun found rest hle hbody hrest => ?_
  obtain ⟨last, hlast, hstop⟩ := stop_of_body hbody
  dsimp only at hstop ⊢
  split
  · rw [← hstop]
    exact .error (.tokens List.suffix_rfl (hr₄.subset hlast) nofun nofun)
  · exact .ok hrest

theorem tracks_regionDecl (start : Nat) {ts : List Lexeme} (h : ts <:+ all) :
    Tracks eof all (regionDecl eof start ts) := by
  unfold regionDecl
  refine (tracks_name h).bind fun template r₁ h₁ _ hr₁ => ?_
  refine (tracks_expect hr₁ [.dot] start).bind fun _ r₂ h₂ _ hr₂ => ?_
  refine (tracks_name hr₂).bind fun region r₃ h₃ _ hr₃ => ?_
  refine (tracks_expect hr₃ [.parenOpen, .parenClose, .defines] start).bind fun _ r₄ h₄ _ hr₄ => ?_
  exact (tracks_body hr₄).bind fun _ _ _ _ hrest => .ok hrest

theorem failsOnly_declarations {ts : List Lexeme} (h : ts <:+ all) :
    FailsOnly (SyntaxError.At eof all) (declarations eof ts) := by
  fun_induction declarations eof ts with
  | case1 => exact .ok []
  | case2 sign r ih =>
    refine (tracks_regionDecl _ (suffix_of_cons h)).failsOnly_bind fun d rest hle _ hrest => ?_
    exact (ih rest hle hrest).bind fun more => .ok _
  | case3 n place r ih =>
    refine ((tracks_templateDecl ⟨.word n, place⟩ n r).mono h).failsOnly_bind fun d rest hle _ hrest => ?_
    exact (ih rest hle hrest).bind fun more => .ok _
  | case4 => exact .error (at_unexpected h)

theorem tracks_delimiters (ts : List Lexeme) : Tracks eof ts (delimiters eof ts) := by
  unfold delimiters
  split
  · next keyword r =>
    have hkeyword : (⟨.delimiters, keyword⟩ : Lexeme) :: r <:+ ⟨.delimiters, keyword⟩ :: r := List.suffix_rfl
    refine (tracks_str (suffix_of_cons hkeyword)).bind fun start r₁ h₁ _ hr₁ => ?_
    refine (tracks_expect hr₁ [.comma] keyword.stop).bind fun _ r₂ h₂ _ hr₂ => ?_
    refine (tracks_str hr₂).bind fun stop rest hle hstr hrest => ?_
    obtain ⟨last, hlast, hstop⟩ := stop_of_str hstr
    dsimp only at hstop ⊢
    split
    · exact .ok hrest
    · rw [← hstop]
      exact .error (.tokens hkeyword (hr₂.subset hlast) nofun nofun)
  · exact .ok List.suffix_rfl

theorem failsOnly_parseTokens (eof : Span) (ts : List Lexeme) :
    FailsOnly (SyntaxError.At eof ts) (parseTokens eof ts) := by
  refine (tracks_delimiters ts).failsOnly_bind fun found rest hle _ hrest => ?_
  exact (failsOnly_declarations hrest).bind fun ds => .ok _

/-- Errors of a group file start at positions of it. -/
theorem isPosition_of_error {source : List Char} {e : SyntaxError}
    (h : scan source = .error e ∨ parse source = .error e) : IsPosition source e.span.start := by
  have hscan := scanStarts_scan source
  rcases h with h | h
  · rwa [h] at hscan
  · rw [parse] at h
    cases htokens : scan source with
    | error e' =>
      rw [htokens] at h hscan
      cases h
      exact hscan
    | ok tokens =>
      rw [htokens] at h hscan
      cases failsOnly_parseTokens _ tokens e h with
      | atEnd => exact isPosition_byteLength source
      | tokens hfirst => exact hscan _ (hfirst.subset List.mem_cons_self)

end Stencil.GroupFile

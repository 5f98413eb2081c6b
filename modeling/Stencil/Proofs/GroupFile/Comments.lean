import Mathlib.Algebra.Group.Nat.Even
import Stencil.Proofs.GroupFile.Places
import Stencil.Proofs.GroupFile.ScanPrint

/-!
# Comments in group files

A comment may stand wherever a token, a blank or another comment ends (`Gap`): what is scanned before such a place
does not depend on what stands behind it (`next_replace`), and the comment is passed over. Every place of a source is
such a gap, or is inside a token or a comment (`place_cases`).

Main statement: `declared?_comment`. A comment that is put between two tokens changes nothing, with one exception. The
end of a block comment is looked for by pairs of a star and the character after it, so a star that is left over when
the body has been read goes together with that of the closing sign, and the comment does not end there
(`scanComment_close`).
-/

namespace Stencil.GroupFile

variable {c : Char} {cs more rest before after : List Char}

/-! ## What stands behind a piece -/

theorem splitAtPair?_cons (a b c : Char) (cs : List Char) :
    splitAtPair? a b (c :: cs) =
      if c = a ∧ cs.head? = some b then some ([], cs.tail)
      else (splitAtPair? a b cs).map fun found => (c :: found.1, found.2) := by
  rw [splitAtPair?.eq_def]
  cases cs with
  | nil => simp
  | cons d rest => by_cases hc : c = a <;> by_cases hd : d = b <;> simp [hc, hd]

theorem splitAtPair?_replace {a b : Char} (h : splitAtPair? a b cs = some (before, after)) (after' : List Char) :
    splitAtPair? a b (before ++ a :: b :: after') = some (before, after') := by
  induction cs generalizing before with
  | nil => cases h
  | cons c cs ih =>
    rw [splitAtPair?_cons] at h
    split at h
    · cases h
      simp [splitAtPair?_cons]
    · next hpair =>
      obtain ⟨⟨before', _⟩, hsplit, heq⟩ := Option.map_eq_some_iff.1 h
      cases heq
      -- The first character of what follows is the same, so `c` does not begin a pair there either.
      have hhead : (before' ++ a :: b :: after').head? = cs.head? := by
        rw [splitAtPair?_eq_some hsplit]
        cases before' <;> rfl
      rw [List.cons_append, splitAtPair?_cons, hhead, if_neg hpair, ih hsplit]
      rfl

theorem scanComment_replace {body : List Char} (h : scanComment cs = (body, some rest)) (rest' : List Char) :
    scanComment (body ++ '*' :: '/' :: rest') = (body, some rest') := by
  fun_induction scanComment cs generalizing body with
  | case1 => cases h
  | case2 => cases h
  | case3 rest =>
    cases h
    rfl
  | case4 c rest hslash body' after' hrest ih =>
    cases h
    rw [List.cons_append, List.cons_append, scanComment]
    · rw [ih hrest]
    · exact hslash
  | case5 c rest hend hclose hpair body' after' hrest ih =>
    cases h
    have hc : c ≠ '*' := by
      rintro rfl
      cases rest with
      | nil => exact hend rfl rfl
      | cons x rest => exact hpair x rest rfl rfl
    rw [List.cons_append, scanComment]
    · rw [ih hrest]
    · exact fun hc' _ => hc hc'
    · exact fun _ hc' _ => hc hc'
    · exact fun _ _ hc' _ => hc hc'

/-- The piece is a token, blank or comment with the text behind it. -/
def Piece.Leaves (rest : List Char) : Piece → Prop
  | skipped _ r => r = rest
  | token _ _ r => r = rest
  | fault _ _ => False

def Piece.withRest (rest : List Char) : Piece → Piece
  | skipped bytes _ => .skipped bytes rest
  | token t bytes _ => .token t bytes rest
  | fault bytes f => .fault bytes f

theorem next_isSpacing (hc : isSpacing c = true) (cs : List Char) : next c cs = .skipped 1 cs := by
  simp only [isSpacing, Bool.or_eq_true, beq_iff_eq] at hc
  rcases hc with ((rfl | rfl) | rfl) | rfl <;> rfl

section
variable {rest' : List Char}

/-- A character that is a piece by itself, whatever stands behind it. -/
theorem next_single_replace (hnext : ∀ cs, next c cs = (next c []).withRest cs)
    (hcs : more ++ rest = cs) (h : (next c cs).Leaves rest) :
    next c (more ++ rest') = (next c cs).withRest rest' := by
  rw [hnext] at h
  have hmore : more = [] := by
    rw [← hcs] at h
    cases hpiece : next c [] with
    | skipped bytes r =>
      rw [hpiece] at h
      exact List.append_left_eq_self.1 h
    | token t bytes r =>
      rw [hpiece] at h
      exact List.append_left_eq_self.1 h
    | fault bytes f =>
      rw [hpiece] at h
      exact h.elim
  rw [hmore, List.nil_append, hnext rest', hnext cs]
  cases next c [] <;> rfl

theorem next_string_replace (hcs : more ++ rest = cs) (h : (next '"' cs).Leaves rest) :
    next '"' (more ++ rest') = (next '"' cs).withRest rest' := by
  rw [next] at h
  split at h
  · next body after hbody =>
    cases h
    obtain rfl : more = body ++ ['"'] :=
      List.append_cancel_right (hcs.trans (by rw [eq_append_of_scanLiteral hbody]; simp))
    rw [List.append_assoc, List.singleton_append, next, next, hbody, scanLiteral_replace hbody]
    rfl
  · cases h

/-- A block, plain or joined, ends with its closing sign. -/
theorem next_block_replace {x a : Char} (hsigns : x = '<' ∧ a = '>' ∨ x = '%' ∧ a = '%') (hcs : more ++ rest = x :: cs)
    (h : (next '<' (x :: cs)).Leaves rest) : next '<' (more ++ rest') = (next '<' (x :: cs)).withRest rest' := by
  obtain ⟨body, hbody⟩ : ∃ body, splitAtPair? a '>' cs = some (body, rest) := by
    rcases hsigns with ⟨rfl, rfl⟩ | ⟨rfl, rfl⟩ <;> rw [next] at h <;> split at h
    · next hbody => exact ⟨_, h ▸ hbody⟩
    · cases h
    · next hbody => exact ⟨_, h ▸ hbody⟩
    · cases h
  obtain rfl : more = x :: (body ++ [a, '>']) :=
    List.append_cancel_right (hcs.trans (by rw [splitAtPair?_eq_some hbody]; simp))
  have hnew := splitAtPair?_replace hbody rest'
  rw [List.cons_append, List.append_assoc, List.cons_append, List.singleton_append]
  rcases hsigns with ⟨rfl, rfl⟩ | ⟨rfl, rfl⟩
  · rw [next, next, hnew, hbody]
    rfl
  · rw [next, next, hnew, hbody]
    rfl

/-- A line comment goes up to the end of its line, so the text behind it has to begin a line. -/
theorem next_lineComment_replace (hcs : more ++ rest = '/' :: cs) (h : (next '/' ('/' :: cs)).Leaves rest)
    (hline : ['/', '/'] <+: '/' :: more → (∀ x ∈ rest.head?, x = '\n') → ∀ x ∈ rest'.head?, x = '\n') :
    next '/' (more ++ rest') = (next '/' ('/' :: cs)).withRest rest' := by
  cases h
  obtain rfl : more = '/' :: cs.takeWhile (· != '\n') := List.append_cancel_right (hcs.trans (by simp))
  have hend : ∀ x ∈ rest'.head?, (x != '\n') = false := by
    intro x hx
    rw [hline (List.prefix_append ['/', '/'] _) (fun y hy => by simpa using not_of_mem_head?_dropWhile hy) x hx]
    rfl
  obtain ⟨htake, hdrop⟩ := span_append (fun _ => List.mem_takeWhile_imp) hend
  rw [List.cons_append, next, next, htake, hdrop]
  rfl

theorem next_blockComment_replace (hcs : more ++ rest = '*' :: cs) (h : (next '/' ('*' :: cs)).Leaves rest) :
    next '/' (more ++ rest') = (next '/' ('*' :: cs)).withRest rest' := by
  rw [next] at h
  split at h
  · next body after hbody =>
    cases h
    obtain rfl : more = '*' :: (body ++ ['*', '/']) :=
      List.append_cancel_right (hcs.trans (by rw [eq_append_of_scanComment hbody]; simp))
    rw [List.cons_append, List.append_assoc, next, next, hbody]
    simp only [List.cons_append, List.nil_append, scanComment_replace hbody]
    rfl
  · cases h

/-- A word goes on as long as its characters do, so the text behind it must not prolong it. -/
theorem next_word_replace (hc : isWordStart c = true) (hcs : more ++ rest = cs) (h : (next c cs).Leaves rest)
    (hword : Boundary rest → Boundary rest') : next c (more ++ rest') = (next c cs).withRest rest' := by
  rw [next_isWordStart hc] at h
  cases h
  obtain rfl : more = cs.takeWhile isWordPart := List.append_cancel_right (hcs.trans (by simp))
  obtain ⟨htake, hdrop⟩ := span_append (fun _ => List.mem_takeWhile_imp)
    (hword fun x hx => not_of_mem_head?_dropWhile hx)
  rw [next_isWordStart hc, next_isWordStart hc, htake, hdrop]
  rfl

/-- Another text behind a piece leaves the piece as it is, if it neither prolongs a word nor stands on the line of a
line comment. -/
theorem next_replace (h : (next c (more ++ rest)).Leaves rest) (hword : Boundary rest → Boundary rest')
    (hline : ['/', '/'] <+: c :: more → (∀ x ∈ rest.head?, x = '\n') → ∀ x ∈ rest'.head?, x = '\n') :
    next c (more ++ rest') = (next c (more ++ rest)).withRest rest' := by
  generalize hcs : more ++ rest = cs at h ⊢
  have hpiece := h
  unfold next at hpiece
  split at hpiece
  case h_1 =>
    cases h
    obtain rfl : more = [':', '='] := List.append_cancel_right hcs
    rfl
  case h_8 => exact next_string_replace hcs h
  case h_9 => exact next_block_replace (.inl ⟨rfl, rfl⟩) hcs h
  case h_10 => exact next_block_replace (.inr ⟨rfl, rfl⟩) hcs h
  case h_11 => exact next_lineComment_replace hcs h hline
  case h_12 => exact next_blockComment_replace hcs h
  case h_13 =>
    split at hpiece
    · next hc => exact next_single_replace (fun cs => by rw [next_isSpacing hc, next_isSpacing hc]; rfl) hcs h
    · split at hpiece
      · next hc => exact next_word_replace hc hcs h hword
      · cases hpiece
  all_goals exact next_single_replace (fun _ => rfl) hcs h

end

/-! ## Tokens of a rest -/

theorem scanFrom_skipped {bytes : Nat} (h : next c cs = .skipped bytes rest) (pos : Nat) :
    scanFrom pos (c :: cs) = scanFrom (pos + bytes) rest := by
  rw [scanFrom]
  split <;> next h' => rw [h] at h'; cases h'; try rfl

theorem scanFrom_token {t : Token} {bytes : Nat} (h : next c cs = .token t bytes rest) (pos : Nat) :
    scanFrom pos (c :: cs) =
      (scanFrom (pos + bytes) rest >>= fun ts => pure (⟨t, ⟨pos, pos + bytes⟩⟩ :: ts)) := by
  rw [scanFrom]
  split <;> next h' => rw [h] at h'; cases h'; try rfl

theorem scanFrom_fault {bytes : Nat} {f : SyntaxFault} (h : next c cs = .fault bytes f) (pos : Nat) :
    scanFrom pos (c :: cs) = .error ⟨⟨pos, pos + bytes⟩, f⟩ := by
  rw [scanFrom]
  split <;> next h' => rw [h] at h'; cases h'; try rfl

/-- A text has the same tokens wherever it stands. -/
theorem scanFrom_alike (pos pos' : Nat) (cs : List Char) : Concur SameTokens (scanFrom pos cs) (scanFrom pos' cs) := by
  fun_induction scanFrom pos cs generalizing pos' with
  | case1 =>
    rw [scanFrom]
    exact .ok rfl
  | case2 pos c cs bytes rest hnext ih =>
    rw [scanFrom_skipped hnext]
    exact ih _
  | case3 pos c cs t bytes rest hnext ih =>
    rw [scanFrom_token hnext]
    exact (ih (pos' + bytes)).bind fun _ _ h => .ok (congrArg (List.cons t) h)
  | case4 pos c cs bytes fault hnext =>
    rw [scanFrom_fault hnext]
    exact .error _ _

theorem tokens?_skipped {bytes : Nat} (h : next c cs = .skipped bytes rest) : tokens? (c :: cs) = tokens? rest := by
  rw [tokens?, scan, scanFrom_skipped h]
  exact (scanFrom_alike _ 0 rest).toOption_map fun _ _ h => h

theorem tokens?_token {t : Token} {bytes : Nat} (h : next c cs = .token t bytes rest) :
    tokens? (c :: cs) = (tokens? rest).map (t :: ·) := by
  rw [tokens?, scan, scanFrom_token h, tokens?, scan, Option.map_map]
  have h := scanFrom_alike (0 + bytes) 0 rest
  generalize scanFrom (0 + bytes) rest = located at h ⊢
  generalize scanFrom 0 rest = located' at h ⊢
  cases h with
  | ok h => exact congrArg (fun ts => some (t :: ts)) h
  | error e e' => rfl

theorem tokens?_fault {bytes : Nat} {f : SyntaxFault} (h : next c cs = .fault bytes f) : tokens? (c :: cs) = none := by
  rw [tokens?, scan, scanFrom_fault h]
  rfl

/-! ## Places between pieces -/

/-- What stands before the place is made of whole tokens, blanks and comments. -/
inductive Gap : List Char → List Char → Prop where
  | start (after : List Char) : Gap [] after
  | behind {c : Char} {more before after : List Char} :
    (next c (more ++ (before ++ after))).Leaves (before ++ after) → Gap before after →
    Gap (c :: (more ++ before)) after

/-- The text behind the first slash of a comment does not end the comment. That of a line comment goes on up to the
end of the line. -/
def Unfinished : List Char → Prop
  | [] => True
  | '/' :: text => '\n' ∉ text
  | '*' :: text => (scanComment text).2 = none
  | _ => False

/-- The place is inside a comment. -/
def InComment (before after : List Char) : Prop :=
  ∃ front inside, before = front ++ '/' :: inside ∧ Gap front ('/' :: (inside ++ after)) ∧ Unfinished inside

theorem InComment.behind (h : (next c (more ++ (before ++ after))).Leaves (before ++ after))
    (hcomment : InComment before after) : InComment (c :: (more ++ before)) after := by
  obtain ⟨front, inside, rfl, hgap, hinside⟩ := hcomment
  rw [List.append_assoc] at h
  exact ⟨c :: (more ++ front), inside, by simp, .behind h hgap, hinside⟩

/-- Blanks are single characters; a line comment goes up to the end of its line, a block comment to its end. -/
theorem skipped_cases {bytes : Nat} (h : next c cs = .skipped bytes rest) :
    cs = rest ∨ (∃ text, c :: cs = '/' :: '/' :: (text ++ rest) ∧ '\n' ∉ text) ∨
      ∃ body, c :: cs = '/' :: '*' :: (body ++ '*' :: '/' :: rest) ∧
        scanComment (body ++ '*' :: '/' :: rest) = (body, some rest) := by
  unfold next at h
  split at h
  case h_11 cs =>
    cases h
    refine .inr (.inl ⟨cs.takeWhile (· != '\n'), by simp, fun hmem => ?_⟩)
    simpa using List.mem_takeWhile_imp hmem
  case h_12 cs =>
    split at h
    · next body after hbody =>
      cases h
      refine .inr (.inr ⟨body, ?_, ?_⟩)
      · rw [eq_append_of_scanComment hbody]
      · rw [← eq_append_of_scanComment hbody, hbody]
    · cases h
  case h_13 =>
    split at h
    · cases h
      exact .inl rfl
    · split at h
      · cases h
      · cases h
  all_goals
    try split at h
    all_goals cases h

/-- The beginning of a comment does not end it. -/
theorem unfinished_of_skipped {bytes : Nat} {inside : List Char} (h : next c cs = .skipped bytes rest)
    (hcs : c :: cs = before ++ (inside ++ rest)) (hbefore : before ≠ []) (hinside : inside ≠ []) :
    ∃ text, before = '/' :: text ∧ Unfinished text := by
  rcases skipped_cases h with rfl | ⟨text, htext, hline⟩ | ⟨body, hbody, hend⟩
  · have hlength := congrArg List.length hcs
    have := List.length_pos_iff.2 hbefore
    have := List.length_pos_iff.2 hinside
    rw [List.length_cons, List.length_append, List.length_append] at hlength
    omega
  · have hall : before ++ inside ++ rest = '/' :: '/' :: text ++ rest := by
      rw [List.append_assoc, ← hcs, htext]
      rfl
    have htaken : before ++ inside = '/' :: '/' :: text := List.append_cancel_right hall
    obtain ⟨x, front, rfl⟩ := List.exists_cons_of_ne_nil hbefore
    obtain ⟨rfl, hfront⟩ := List.cons.inj htaken
    refine ⟨front, rfl, ?_⟩
    cases front with
    | nil => trivial
    | cons y front =>
      obtain ⟨rfl, rfl⟩ := List.cons.inj hfront
      exact fun hmem => hline (List.mem_append_left inside hmem)
  · have hall : before ++ inside ++ rest = '/' :: '*' :: (body ++ ['*', '/']) ++ rest := by
      rw [List.append_assoc, ← hcs, hbody]
      simp
    have htaken : before ++ inside = '/' :: '*' :: (body ++ ['*', '/']) := List.append_cancel_right hall
    obtain ⟨x, front, rfl⟩ := List.exists_cons_of_ne_nil hbefore
    obtain ⟨rfl, hfront⟩ := List.cons.inj htaken
    refine ⟨front, rfl, ?_⟩
    cases front with
    | nil => trivial
    | cons y front =>
      obtain ⟨rfl, hfront⟩ := List.cons.inj hfront
      change (scanComment front).2 = none
      cases hscan : scanComment front with
      | mk found after =>
        cases after with
        | none => rfl
        | some after =>
          -- The comment would end in front of the rest already.
          have hearly := scanComment_replace hscan (after ++ (inside ++ rest))
          have htext : found ++ '*' :: '/' :: (after ++ (inside ++ rest)) = body ++ '*' :: '/' :: rest := by
            have := congrArg (· ++ rest) hfront
            rw [eq_append_of_scanComment hscan] at this
            simpa using this
          rw [htext, hend] at hearly
          have hlength := congrArg List.length (Option.some.inj (Prod.mk.inj hearly).2)
          have := List.length_pos_iff.2 hinside
          rw [List.length_append, List.length_append] at hlength
          omega

/-- A place of a text that begins with a piece is before it, behind it or in it. -/
theorem cut_cases (h : before ++ after = c :: (more ++ rest)) :
    before = [] ∨ (∃ further, before = c :: (more ++ further) ∧ rest = further ++ after) ∨
      ∃ inside, before ≠ [] ∧ inside ≠ [] ∧ before ++ inside = c :: more ∧ after = inside ++ rest := by
  cases before with
  | nil => exact .inl rfl
  | cons x before =>
    obtain ⟨rfl, htail⟩ := List.cons.inj h
    rcases List.append_eq_append_iff.1 htail with ⟨inside, rfl, rfl⟩ | ⟨further, rfl, rfl⟩
    · cases inside with
      | nil => exact .inr (.inl ⟨[], by simp, rfl⟩)
      | cons y inside => exact .inr (.inr ⟨y :: inside, List.cons_ne_nil _ _, List.cons_ne_nil _ _, rfl, rfl⟩)
    · exact .inr (.inl ⟨further, rfl, rfl⟩)

/-- A piece takes its first character and perhaps more. -/
theorem exists_taken {bytes : Nat}
    (h : next c cs = .skipped bytes rest ∨ ∃ t, next c cs = .token t bytes rest) :
    ∃ more, cs = more ++ rest ∧ byteLength (c :: more) = bytes ∧ (next c (more ++ rest)).Leaves rest := by
  have htakes := takes_next c cs
  have hle := length_rest_next_le c cs
  obtain ⟨⟨taken, hcs, hbytes⟩, hlength, hleaves⟩ : (∃ taken, c :: cs = taken ++ rest ∧ byteLength taken = bytes) ∧
      rest.length ≤ cs.length ∧ (next c cs).Leaves rest := by
    rcases h with h | ⟨t, h⟩
    · rw [h] at htakes hle ⊢
      exact ⟨htakes, hle, rfl⟩
    · rw [h] at htakes hle ⊢
      exact ⟨htakes, hle, rfl⟩
  cases taken with
  | nil =>
    rw [← show c :: cs = rest from hcs, List.length_cons] at hlength
    omega
  | cons x more =>
    obtain ⟨rfl, rfl⟩ := List.cons.inj hcs
    exact ⟨more, rfl, hbytes, hleaves⟩

/-- Every place of a source is between pieces, or inside a comment or a token. -/
theorem place_cases {pos : Nat} {ts : List Lexeme} (h : scanFrom pos (before ++ after) = .ok ts) :
    Gap before after ∨ InComment before after ∨
      ∃ t ∈ ts, t.span.start < pos + byteLength before ∧ pos + byteLength before < t.span.stop := by
  generalize hinput : before ++ after = input at h
  fun_induction scanFrom pos input generalizing before ts with
  | case1 pos =>
    rw [(List.append_eq_nil_iff.1 hinput).1]
    exact .inl (.start after)
  | case2 pos c cs bytes rest hnext ih =>
    obtain ⟨more, rfl, hbytes, hleaves⟩ := exists_taken (.inl hnext)
    rcases cut_cases hinput with rfl | ⟨further, rfl, rfl⟩ | ⟨inside, hbefore, hinside, htaken, rfl⟩
    · exact .inl (.start after)
    · rcases ih rfl h with hgap | hcomment | ⟨u, hu, hspan⟩
      · exact .inl (.behind hleaves hgap)
      · exact .inr (.inl (hcomment.behind hleaves))
      · refine .inr (.inr ⟨u, hu, ?_⟩)
        rwa [← List.cons_append, byteLength_append, ← Nat.add_assoc, hbytes]
    · obtain ⟨text, rfl, htext⟩ := unfinished_of_skipped hnext hinput.symm hbefore hinside
      exact .inr (.inl ⟨[], text, rfl, .start _, htext⟩)
  | case3 pos c cs t bytes rest hnext ih =>
    obtain ⟨more, rfl, hbytes, hleaves⟩ := exists_taken (.inr ⟨t, hnext⟩)
    obtain ⟨ts', hts', hcons⟩ := bind_eq_ok.1 h
    cases hcons
    rcases cut_cases hinput with rfl | ⟨further, rfl, rfl⟩ | ⟨inside, hbefore, hinside, htaken, rfl⟩
    · exact .inl (.start after)
    · rcases ih rfl hts' with hgap | hcomment | ⟨u, hu, hspan⟩
      · exact .inl (.behind hleaves hgap)
      · exact .inr (.inl (hcomment.behind hleaves))
      · refine .inr (.inr ⟨u, List.mem_cons_of_mem _ hu, ?_⟩)
        rwa [← List.cons_append, byteLength_append, ← Nat.add_assoc, hbytes]
    · have hbefore' := byteLength_pos hbefore
      have hinside' := byteLength_pos hinside
      rw [← htaken, byteLength_append] at hbytes
      refine .inr (.inr ⟨_, List.mem_cons_self, ?_, ?_⟩)
      · dsimp only
        omega
      · dsimp only
        omega
  | case4 pos c cs bytes fault hnext => cases h

/-- Behind a line comment one is still in it. -/
theorem inComment_of_slashes {text : List Char} (h : (next '/' ('/' :: (text ++ after))).Leaves after) :
    InComment ('/' :: '/' :: (text ++ [])) after := by
  have hdrop : (text ++ after).dropWhile (· != '\n') = after := h
  have htake : (text ++ after).takeWhile (· != '\n') = text := by
    have htext := List.takeWhile_append_dropWhile (p := (· != '\n')) (l := text ++ after)
    rw [hdrop] at htext
    exact List.append_cancel_right htext
  refine ⟨[], '/' :: (text ++ []), rfl, .start _, fun hmem => ?_⟩
  rw [List.append_nil, ← htake] at hmem
  simpa using List.mem_takeWhile_imp hmem

/-- The tokens before a place between pieces are the same with other texts behind it, as long as these do not begin
with a character that prolongs a word. -/
theorem Gap.tokens? (h : Gap before after) (hcomment : ¬ InComment before after) :
    ∃ front : List Token, ∀ rest, rest = after ∨ Boundary rest →
      tokens? (before ++ rest) = (tokens? rest).map (front ++ ·) := by
  induction h with
  | start after => exact ⟨[], fun rest _ => by simp⟩
  | @behind c more before after hleaves hgap ih =>
    obtain ⟨front, hfront⟩ := ih fun hinside => hcomment (hinside.behind hleaves)
    have hnext : ∀ rest, rest = after ∨ Boundary rest →
        next c (more ++ (before ++ rest)) = (next c (more ++ (before ++ after))).withRest (before ++ rest) := by
      intro rest hrest
      cases before with
      | nil =>
        refine next_replace hleaves (fun hword => ?_) fun hslashes => ?_
        · rcases hrest with rfl | hrest
          · exact hword
          · exact hrest
        · -- A line comment in front of the place would go on there.
          obtain ⟨text, htext⟩ := hslashes
          cases htext
          exact absurd (inComment_of_slashes hleaves) hcomment
      | cons x before => exact next_replace hleaves id fun _ => id
    cases hp : next c (more ++ (before ++ after)) with
    | skipped bytes r =>
      refine ⟨front, fun rest hrest => ?_⟩
      have hnext := hnext rest hrest
      rw [hp] at hnext
      rw [List.cons_append, List.append_assoc, tokens?_skipped hnext, hfront rest hrest]
    | token t bytes r =>
      refine ⟨t :: front, fun rest hrest => ?_⟩
      have hnext := hnext rest hrest
      rw [hp] at hnext
      rw [List.cons_append, List.append_assoc, tokens?_token hnext, hfront rest hrest, Option.map_map]
      rfl
    | fault bytes f =>
      rw [hp] at hleaves
      exact hleaves.elim

/-! ## Comments -/

def lineComment (c : List Char) : List Char :=
  '/' :: '/' :: (c ++ ['\n'])

def blockComment (c : List Char) : List Char :=
  '/' :: '*' :: (c ++ ['*', '/'])

theorem tokens?_lineComment {c : List Char} (hc : '\n' ∉ c) (rest : List Char) :
    tokens? (lineComment c ++ rest) = tokens? rest := by
  have hbreak : ∀ x ∈ ('\n' :: rest).head?, (x != '\n') = false := by
    rintro _ ⟨⟩
    rfl
  have hline : ∀ x ∈ c, (x != '\n') = true := by
    intro x hx
    rw [bne_iff_ne]
    rintro rfl
    exact hc hx
  have hskip : next '/' ('/' :: (c ++ '\n' :: rest)) =
      .skipped (byteLength ((c ++ '\n' :: rest).takeWhile (· != '\n')) + 2) ('\n' :: rest) := by
    rw [next, (span_append hline hbreak).2]
  have htext : lineComment c ++ rest = '/' :: '/' :: (c ++ '\n' :: rest) := by simp [lineComment]
  rw [htext, tokens?_skipped hskip, tokens?_skipped (next_isSpacing rfl rest)]

/-- A block comment is passed over up to the end that is found for it; without one nothing can be scanned. -/
theorem tokens?_blockComment (c rest : List Char) :
    tokens? (blockComment c ++ rest) = (scanComment (c ++ '*' :: '/' :: rest)).2.bind tokens? := by
  have htext : blockComment c ++ rest = '/' :: '*' :: (c ++ '*' :: '/' :: rest) := by simp [blockComment]
  rw [htext]
  cases hscan : scanComment (c ++ '*' :: '/' :: rest) with
  | mk body found =>
    cases found with
    | none =>
      have hfault : next '/' ('*' :: (c ++ '*' :: '/' :: rest)) =
          .fault (byteLength body + 2) (.unexpectedInput (String.ofList ('/' :: '*' :: body))) := by
        rw [next, hscan]
      exact tokens?_fault hfault
    | some after =>
      have hskip : next '/' ('*' :: (c ++ '*' :: '/' :: rest)) = .skipped (byteLength body + 4) after := by
        rw [next, hscan]
      exact tokens?_skipped hskip

/-- How many stars the text ends in. -/
def endStars (c : List Char) : Nat :=
  (c.reverse.takeWhile (· == '*')).length

theorem endStars_of_forall {c : List Char} (h : ∀ x ∈ c, x = '*') : endStars c = c.length := by
  rw [endStars, List.takeWhile_eq_self_iff.2 fun x hx => beq_iff_eq.2 (h x (List.mem_reverse.1 hx)),
    List.length_reverse]

/-- A character in front does not count, unless all that follows are stars. -/
theorem endStars_cons_of_not_forall (c : Char) {cs : List Char} (h : ¬ ∀ x ∈ cs, x = '*') :
    endStars (c :: cs) = endStars cs := by
  rw [endStars, endStars, List.reverse_cons, List.takeWhile_append, if_neg]
  intro hlength
  have htake := List.takeWhile_eq_self_iff.1 ((List.takeWhile_sublist _).eq_of_length hlength)
  exact h fun x hx => beq_iff_eq.1 (htake x (List.mem_reverse.2 hx))

theorem endStars_cons_of_ne {c : Char} (h : c ≠ '*') (cs : List Char) : endStars (c :: cs) = endStars cs := by
  by_cases hstars : ∀ x ∈ cs, x = '*'
  · have htake : ∀ x ∈ cs.reverse, (x == '*') = true := fun x hx =>
      beq_iff_eq.2 (hstars x (List.mem_reverse.1 hx))
    rw [endStars, List.reverse_cons, List.takeWhile_append_of_pos htake, endStars_of_forall hstars]
    simp [h]
  · exact endStars_cons_of_not_forall c hstars

theorem even_endStars_pair (x : Char) (cs : List Char) : Even (endStars ('*' :: x :: cs)) ↔ Even (endStars cs) := by
  by_cases hstars : ∀ y ∈ x :: cs, y = '*'
  · have hcs := (List.forall_mem_cons.1 hstars).2
    rw [endStars_of_forall (List.forall_mem_cons.2 ⟨rfl, hstars⟩), endStars_of_forall hcs, List.length_cons,
      List.length_cons, Nat.even_add_one, Nat.even_add_one, not_not]
  · rw [endStars_cons_of_not_forall '*' hstars]
    by_cases hx : x = '*'
    · rw [endStars_cons_of_not_forall x fun h => hstars (List.forall_mem_cons.2 ⟨hx, h⟩)]
    · rw [endStars_cons_of_ne hx]

/-- A comment ends at its closing sign if its body ends in an even number of stars. Otherwise it goes on, and ends
where the text behind the sign, taken for the inside of a comment, ends one. -/
theorem scanComment_close {c : List Char} (hc : ¬ ['*', '/'] <:+: c) (after : List Char) :
    scanComment (c ++ '*' :: '/' :: after) =
      if Even (endStars c) then (c, some after)
      else (c ++ '*' :: '/' :: (scanComment after).1, (scanComment after).2) := by
  fun_induction scanComment c with
  | case1 => rfl
  | case2 =>
    -- The star goes together with that of the closing sign, whose slash is then a character like others.
    have hslash : scanComment ('/' :: after) = ('/' :: (scanComment after).1, (scanComment after).2) := by
      rw [scanComment] <;> exact nofun
    rw [if_neg (by decide), List.singleton_append, scanComment, hslash]
    · rfl
    · exact nofun
  | case3 rest => exact absurd ⟨[], rest, rfl⟩ hc
  | case4 x rest hslash body found hrest ih =>
    have hinfix : ¬ ['*', '/'] <:+: rest := fun h => hc (h.trans ⟨['*', x], [], by simp⟩)
    rw [List.cons_append, List.cons_append, scanComment, ih hinfix]
    · by_cases heven : Even (endStars rest)
      · rw [if_pos heven, if_pos ((even_endStars_pair x rest).2 heven)]
      · rw [if_neg heven, if_neg fun h => heven ((even_endStars_pair x rest).1 h)]
        rfl
    · exact hslash
  | case5 x rest hend hclose hpair body found hrest ih =>
    have hinfix : ¬ ['*', '/'] <:+: rest := fun h => hc (h.trans (List.suffix_cons x rest).isInfix)
    have hx : x ≠ '*' := by
      rintro rfl
      cases rest with
      | nil => exact hend rfl rfl
      | cons y rest => exact hpair y rest rfl rfl
    rw [List.cons_append, scanComment, ih hinfix, endStars_cons_of_ne hx]
    · by_cases heven : Even (endStars rest)
      · rw [if_pos heven, if_pos heven]
      · rw [if_neg heven, if_neg heven]
        rfl
    · exact fun hx' _ => hx hx'
    · exact fun _ hx' _ => hx hx'
    · exact fun _ _ hx' _ => hx hx'

/-- **A comment between two tokens changes nothing**, unless it is a block comment whose body ends in an odd number of
stars. The place is between two tokens, or before the first or behind the last, and not in another comment, to which
what is put there would belong. A line comment has its line break behind it; the body of a block comment does not have
the closing sign in it. Where that body ends in an odd number of stars, the comment goes on to the end that what
stands behind the place has for a comment: all in front of that end is lost, and if there is none the source is
malformed. -/
theorem declared?_comment {ts : List Lexeme} (hscan : scan (before ++ after) = .ok ts)
    (hplace : ∀ t ∈ ts, t.span.stop ≤ byteLength before ∨ byteLength before ≤ t.span.start)
    (hcomment : ¬ InComment before after) :
    (∀ c, '\n' ∉ c → declared? (before ++ (lineComment c ++ after)) = declared? (before ++ after)) ∧
    ∀ c, ¬ ['*', '/'] <:+: c →
      (Even (endStars c) → declared? (before ++ (blockComment c ++ after)) = declared? (before ++ after)) ∧
      (¬ Even (endStars c) → declared? (before ++ (blockComment c ++ after)) =
        (scanComment after).2.bind fun rest => declared? (before ++ '\n' :: rest)) := by
  obtain ⟨front, hfront⟩ : ∃ front : List Token, ∀ rest, rest = after ∨ Boundary rest →
      tokens? (before ++ rest) = (tokens? rest).map (front ++ ·) := by
    rcases place_cases hscan with hgap | hinside | ⟨t, ht, hstart, hstop⟩
    · exact hgap.tokens? hcomment
    · exact absurd hinside hcomment
    · rcases hplace t ht with h | h <;> omega
  have hslash : ∀ rest, Boundary ('/' :: rest) := boundary_cons rfl
  have hbreak : ∀ rest, Boundary ('\n' :: rest) := boundary_cons rfl
  refine ⟨fun c hc => ?_, fun c hc => ⟨fun heven => ?_, fun hodd => ?_⟩⟩
  · refine declared?_congr ?_
    rw [hfront (lineComment c ++ after) (.inr (hslash _)), tokens?_lineComment hc, hfront _ (.inl rfl)]
  · refine declared?_congr ?_
    rw [hfront (blockComment c ++ after) (.inr (hslash _)), tokens?_blockComment, scanComment_close hc, if_pos heven,
      hfront _ (.inl rfl)]
    rfl
  · have htokens : tokens? (before ++ (blockComment c ++ after)) =
        ((scanComment after).2.bind tokens?).map (front ++ ·) := by
      rw [hfront (blockComment c ++ after) (.inr (hslash _)), tokens?_blockComment, scanComment_close hc, if_neg hodd]
    cases hend : (scanComment after).2 with
    | none =>
      rw [hend] at htokens
      exact declared?_eq_none htokens
    | some rest =>
      rw [hend] at htokens
      refine declared?_congr ?_
      rw [htokens, hfront _ (.inr (hbreak rest)), tokens?_skipped (next_isSpacing rfl rest)]
      rfl

/-- Comments with the signs of others in them, between the parameters of a declaration and its body. -/
theorem declared?_comment_signs :
    let before := "t(p) ".toList
    let after := "::= \"<p> // x\"".toList
    let line := "/ <% */ \"".toList
    let block := "* // /* \" \n**".toList
    (∃ ts, scan (before ++ after) = .ok ts ∧
      ∀ t ∈ ts, t.span.stop ≤ byteLength before ∨ byteLength before ≤ t.span.start) ∧
    ¬ InComment before after ∧ '\n' ∉ line ∧ ¬ ['*', '/'] <:+: block ∧ Even (endStars block) ∧
    declared? (before ++ after) = some { templates := [⟨"t", [⟨"p", none⟩], "<p> // x", ⟨0, 0⟩⟩] } ∧
    declared? (before ++ (lineComment line ++ after)) = declared? (before ++ after) ∧
    declared? (before ++ (blockComment block ++ after)) = declared? (before ++ after) := by
  intro before after line block
  have hfacts : (scan (before ++ after)).map (fun ts => decide (∀ t ∈ ts,
      t.span.stop ≤ byteLength before ∨ byteLength before ≤ t.span.start)) = .ok true := by
    decide +kernel
  obtain ⟨ts, hscan, hplace⟩ := map_eq_ok.1 hfacts
  have hplace := of_decide_eq_true hplace
  have hcomment : ¬ InComment before after := by
    rintro ⟨front, inside, hbefore, -⟩
    have hslash : '/' ∈ before := by simp [hbefore]
    exact absurd hslash (by decide)
  have hline : '\n' ∉ line := by decide
  have hblock : ¬ ['*', '/'] <:+: block := by decide
  have heven : Even (endStars block) := by decide
  obtain ⟨hlines, hblocks⟩ := declared?_comment hscan hplace hcomment
  exact ⟨⟨ts, hscan, hplace⟩, hcomment, hline, hblock, heven, by decide +kernel, hlines line hline,
    (hblocks block hblock).1 heven⟩

/-- A block comment in front of everything, whose body is a star, and with it nothing is declared. -/
theorem declared?_comment_star :
    let after := "t() ::= \"x\"".toList
    ¬ ['*', '/'] <:+: ['*'] ∧ blockComment ['*'] ++ after = "/***/t() ::= \"x\"".toList ∧
    declared? after = some { templates := [⟨"t", [], "x", ⟨0, 0⟩⟩] } ∧
    declared? (blockComment ['*'] ++ after) = none := by
  decide +kernel

end Stencil.GroupFile

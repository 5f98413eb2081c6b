import Stencil.Proofs.Agreement
import Stencil.SyntaxError
import Stencil.Text.Span

/-!
# What a parser reads

Statements about a parser that reads something from the beginning of a list of tokens: what it reads of given
tokens (`Reads`), which tokens it has taken for what it has read (`Recognizes`), that it reads the same from tokens
that differ in their places (`ReadsAlike`), and at which tokens it finds a fault (`Tracks`). They go along with the
steps of a parser (`Reads.bind`, `Recognizes.bind`, `ReadsAlike.bind`, `Tracks.bind`).
Parsers also search what they have read for repetitions (`search_eq_none_iff`).
-/

namespace Stencil

variable {α β τ : Type}

theorem exists_located {ts : List (Located τ)} {t : τ} {rest : List τ} (h : ts.map (·.token) = t :: rest) :
    ∃ place r, ts = ⟨t, place⟩ :: r ∧ r.map (·.token) = rest := by
  obtain ⟨⟨token, place⟩, r, rfl, rfl, hr⟩ := List.map_eq_cons_iff.1 h
  exact ⟨place, r, rfl, hr⟩

/-! ## Reading given tokens -/

/-- The parser reads a value with the property and leaves the tokens `rest`. -/
def Reads {ts : List (Located τ)} (read : Except SyntaxError (Parsed α ts)) (P : α → Prop) (rest : List τ) :
    Prop :=
  ∃ parsed, read = .ok parsed ∧ P parsed.value ∧ parsed.rest.map (·.token) = rest

/-- What follows a first step starts from what it has read and left. -/
theorem Reads.bind {r ts : List (Located τ)} {read : Except SyntaxError (Parsed α r)} {P : α → Prop}
    {Q : β → Prop} {rest rest' : List τ} (h : Reads read P rest)
    {f : Parsed α r → Except SyntaxError (Parsed β ts)}
    (hf : ∀ a after hle, P a → after.map (·.token) = rest → Reads (f ⟨a, after, hle⟩) Q rest') :
    Reads (read >>= f) Q rest' := by
  obtain ⟨⟨a, after, hle⟩, hread, ha, hafter⟩ := h
  obtain ⟨parsed, hread', hvalue, hrest⟩ := hf a after hle ha hafter
  exact ⟨parsed, bind_eq_ok.2 ⟨_, hread, hread'⟩, hvalue, hrest⟩

/-! ## Tokens that are taken -/

/-- If the parser reads something, then it takes tokens that are a way to write it. -/
def Recognizes {ts : List (Located τ)} (read : Except SyntaxError (Parsed α ts)) (P : List τ → α → Prop) :
    Prop :=
  ∀ parsed, read = .ok parsed →
    ∃ us, ts.map (·.token) = us ++ parsed.rest.map (·.token) ∧ P us parsed.value

namespace Recognizes

variable {ts : List (Located τ)} {P : List τ → α → Prop} {Q : List τ → β → Prop}

theorem error (e : SyntaxError) : Recognizes (.error e : Except SyntaxError (Parsed α ts)) P :=
  fun _ h => nomatch h

theorem ok (us : List τ) {parsed : Parsed α ts} (h : ts.map (·.token) = us ++ parsed.rest.map (·.token))
    (hP : P us parsed.value) : Recognizes (.ok parsed) P := by
  rintro _ ⟨⟩
  exact ⟨us, h, hP⟩

/-- What a first step takes is known to what follows it. -/
theorem bind {r : List (Located τ)} {read : Except SyntaxError (Parsed α r)} (h : Recognizes read P)
    {f : Parsed α r → Except SyntaxError (Parsed β ts)}
    (hf : ∀ a after hle us, r.map (·.token) = us ++ after.map (·.token) → P us a →
      Recognizes (f ⟨a, after, hle⟩) Q) : Recognizes (read >>= f) Q := by
  intro parsed hread
  obtain ⟨⟨a, after, hle⟩, hfirst, hrest⟩ := bind_eq_ok.1 hread
  obtain ⟨us, htokens, hP⟩ := h _ hfirst
  exact hf a after hle us htokens hP parsed hrest

end Recognizes

/-! ## The same tokens at other places -/

/-- The tokens differ at most in their places. -/
def SameTokens (ts ts' : List (Located τ)) : Prop :=
  ts.map (·.token) = ts'.map (·.token)

theorem SameTokens.cons {t : τ} {place : Span} {r ts' : List (Located τ)} (h : SameTokens (⟨t, place⟩ :: r) ts') :
    ∃ place' r', ts' = ⟨t, place'⟩ :: r' ∧ SameTokens r r' := by
  obtain ⟨place', r', rfl, hr⟩ := exists_located h.symm
  exact ⟨place', r', rfl, hr.symm⟩

theorem SameTokens.symm {ts ts' : List (Located τ)} (h : SameTokens ts ts') : SameTokens ts' ts :=
  Eq.symm h

/-- Both parsers fail, or they read values that `R` relates and leave the same tokens. -/
def ReadsAlike (R : α → β → Prop) {ts ts' : List (Located τ)} (read : Except SyntaxError (Parsed α ts))
    (read' : Except SyntaxError (Parsed β ts')) : Prop :=
  Concur (fun parsed parsed' => R parsed.value parsed'.value ∧ SameTokens parsed.rest parsed'.rest) read read'

namespace ReadsAlike

variable {R : α → β → Prop} {r r' ts ts' : List (Located τ)}

theorem ok {parsed : Parsed α ts} {parsed' : Parsed β ts'} (hvalue : R parsed.value parsed'.value)
    (hrest : SameTokens parsed.rest parsed'.rest) : ReadsAlike R (.ok parsed) (.ok parsed') :=
  Concur.ok ⟨hvalue, hrest⟩

theorem error (e e' : SyntaxError) :
    ReadsAlike R (.error e : Except _ (Parsed α ts)) (.error e' : Except _ (Parsed β ts')) :=
  Concur.error e e'

theorem bind {γ δ : Type} {S : γ → δ → Prop} {read : Except SyntaxError (Parsed α r)}
    {read' : Except SyntaxError (Parsed β r')} (h : ReadsAlike R read read')
    {f : Parsed α r → Except SyntaxError (Parsed γ ts)} {f' : Parsed β r' → Except SyntaxError (Parsed δ ts')}
    (hf : ∀ a b after after' hle hle', R a b → SameTokens after after' →
      ReadsAlike S (f ⟨a, after, hle⟩) (f' ⟨b, after', hle'⟩)) : ReadsAlike S (read >>= f) (read' >>= f') :=
  Concur.bind h fun parsed parsed' hparsed =>
    hf _ _ _ _ parsed.length_rest_le parsed'.length_rest_le hparsed.1 hparsed.2

end ReadsAlike

/-! ## Tokens at fault -/

section
variable {eof : Span} {all : List (Located τ)}

/-- The error is at the end of the tokens, or from the start of one of them to the end of the same or a later
one. -/
inductive SyntaxError.At (eof : Span) (all : List (Located τ)) : SyntaxError → Prop where
  | atEnd : At eof all ⟨eof, .unexpectedEnd⟩
  | tokens {first last : Located τ} {more : List (Located τ)} {fault : SyntaxFault} :
    first :: more <:+ all → last ∈ first :: more → fault ≠ .unknownEscape → fault ≠ .unexpectedEnd →
    At eof all ⟨⟨first.span.start, last.span.stop⟩, fault⟩

theorem suffix_of_cons {t : Located τ} {ts : List (Located τ)} (h : t :: ts <:+ all) : ts <:+ all :=
  (List.suffix_cons t ts).trans h

theorem SyntaxError.At.token {t : Located τ} {more : List (Located τ)} {fault : SyntaxFault}
    (h : t :: more <:+ all) (hescape : fault ≠ .unknownEscape) (hend : fault ≠ .unexpectedEnd) :
    SyntaxError.At eof all ⟨t.span, fault⟩ :=
  .tokens h List.mem_cons_self hescape hend

/-- A token that fits nowhere is among the tokens, and if there is none, their end is at fault. -/
theorem SyntaxError.At.unexpected {report : τ → SyntaxFault} (hescape : ∀ token, report token ≠ .unknownEscape)
    (hend : ∀ token, report token ≠ .unexpectedEnd) {ts : List (Located τ)} (h : ts <:+ all) :
    (SyntaxError.unexpected report eof ts).At eof all := by
  cases ts with
  | nil => exact .atEnd
  | cons t r => exact .token h (hescape t.token) (hend t.token)

theorem SyntaxError.At.mono {e : SyntaxError} {all' : List (Located τ)} (h : e.At eof all) (hall : all <:+ all') :
    e.At eof all' := by
  cases h with
  | atEnd => exact .atEnd
  | tokens hfirst hlast hescape hend => exact .tokens (hfirst.trans hall) hlast hescape hend

/-- The parser leaves an end of the tokens, or its fault is at them. -/
def Tracks (eof : Span) (all : List (Located τ)) {ts : List (Located τ)} (read : Except SyntaxError (Parsed α ts)) :
    Prop :=
  (∀ parsed, read = .ok parsed → parsed.rest <:+ all) ∧ FailsOnly (SyntaxError.At eof all) read

namespace Tracks

variable {r ts : List (Located τ)}

theorem ok {parsed : Parsed α ts} (h : parsed.rest <:+ all) : Tracks eof all (.ok parsed) := by
  refine ⟨?_, .ok parsed⟩
  rintro _ ⟨⟩
  exact h

theorem error {e : SyntaxError} (h : e.At eof all) : Tracks eof all (.error e : Except SyntaxError (Parsed α ts)) :=
  ⟨nofun, .error h⟩

theorem mono {all' : List (Located τ)} {read : Except SyntaxError (Parsed α ts)} (h : Tracks eof all read)
    (hall : all <:+ all') : Tracks eof all' read :=
  ⟨fun parsed hread => (h.1 parsed hread).trans hall, fun e he => (h.2 e he).mono hall⟩

/-- What follows a first step is at fault only behind what the step has taken. -/
theorem failsOnly_bind {read : Except SyntaxError (Parsed α r)} (h : Tracks eof all read)
    {f : Parsed α r → Except SyntaxError β}
    (hf : ∀ a after hle, read = .ok ⟨a, after, hle⟩ → after <:+ all →
      FailsOnly (SyntaxError.At eof all) (f ⟨a, after, hle⟩)) :
    FailsOnly (SyntaxError.At eof all) (read >>= f) :=
  h.2.bind_of_ok fun ⟨a, after, hle⟩ hread => hf a after hle hread (h.1 _ hread)

theorem bind {read : Except SyntaxError (Parsed α r)} (h : Tracks eof all read)
    {f : Parsed α r → Except SyntaxError (Parsed β ts)}
    (hf : ∀ a after hle, read = .ok ⟨a, after, hle⟩ → after <:+ all → Tracks eof all (f ⟨a, after, hle⟩)) :
    Tracks eof all (read >>= f) := by
  refine ⟨fun parsed hparsed => ?_, h.failsOnly_bind fun a after hle hread hafter => (hf a after hle hread hafter).2⟩
  obtain ⟨⟨a, after, hle⟩, hread, hparsed⟩ := bind_eq_ok.1 hparsed
  exact (hf a after hle hread (h.1 _ hread)).1 parsed hparsed

end Tracks

end

/-! ## Repetitions -/

/-- A search for a repetition that remembers the keys before it finds none exactly if the keys are pairwise
different and none of them was known before. -/
theorem search_eq_none_iff {κ : Type} [DecidableEq κ] {f : List κ → List α → Option κ} {key : α → κ}
    (hnil : ∀ seen, f seen [] = none)
    (hcons : ∀ seen x xs, f seen (x :: xs) =
      if seen.contains (key x) then some (key x) else f (key x :: seen) xs) {seen : List κ} {xs : List α} :
    f seen xs = none ↔ (xs.map key).Nodup ∧ ∀ x ∈ xs, key x ∉ seen := by
  induction xs generalizing seen with
  | nil => simp [hnil]
  | cons x xs ih =>
    rw [hcons, List.map_cons, List.nodup_cons, List.forall_mem_cons]
    split
    · next h => simp [List.contains_iff_mem.1 h]
    · next h =>
      rw [ih]
      simp only [List.mem_cons, not_or, List.mem_map, not_exists, not_and]
      constructor
      · rintro ⟨hnodup, hseen⟩
        exact ⟨⟨fun y hy hkey => (hseen y hy).1 hkey, hnodup⟩, by simpa using h, fun y hy => (hseen y hy).2⟩
      · rintro ⟨⟨hkey, hnodup⟩, -, hseen⟩
        exact ⟨hnodup, fun y hy => ⟨hkey y hy, hseen y hy⟩⟩

end Stencil

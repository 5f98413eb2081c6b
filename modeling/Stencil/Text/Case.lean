import Stencil.Text.CaseTable

/-!
# Upper and lower case

Full case mapping: one character may map to several. The lower-case form of a text also looks around a
capital sigma: at the end of a word it becomes the final form.
-/

namespace Stencil

namespace CaseTable

def inRanges (ranges : Array (Nat × Nat)) (n : Nat) : Bool :=
  ranges.any fun (first, last) => first ≤ n && n ≤ last

/-- Whether the code point is met by a run from `first` to `last` in steps of `step`. -/
def onRun (first last step n : Nat) : Bool :=
  first ≤ n && n ≤ last && (n - first) % step == 0

/-- The character that a table of shifts maps `c` to. -/
def shifted (shifts : Array (Nat × Nat × Nat × Int)) (c : Char) : Char :=
  match shifts.find? fun (first, last, step, _) => onRun first last step c.toNat with
  | some (_, _, _, shift) => Char.ofNat (c.toNat + shift).toNat
  | none => c

end CaseTable

open CaseTable

/-- Whether the character has the Unicode property Uppercase. -/
def isUppercase (c : Char) : Bool :=
  uppercaseRuns.any fun (first, last, step) => onRun first last step c.toNat

def upperChar (c : Char) : List Char :=
  match upperExpansions.find? fun (n, _) => n == c.toNat with
  | some (_, cs) => cs.map Char.ofNat
  | none => [shifted upperShifts c]

/-- The lower-case form of a character: only the dotted capital I has one of two characters. -/
def lowerChar (c : Char) : List Char :=
  if c == 'İ' then ['i', '\u0307'] else [shifted lowerShifts c]

def upperText (cs : List Char) : List Char :=
  cs.flatMap upperChar

/-- Whether a cased character comes first once the case-ignorable ones are skipped. -/
def meetsCased (cs : List Char) : Bool :=
  match cs.dropWhile fun c => inRanges caseIgnorableRanges c.toNat with
  | c :: _ => inRanges casedRanges c.toNat
  | [] => false

def lowerText (cs : List Char) : List Char :=
  go [] cs
where
  /-- Maps the rest of a text; `before` is what stands in front of it, in reverse. -/
  go (before : List Char) : List Char → List Char
    | [] => []
    | c :: rest =>
      let image :=
        if c == 'Σ' then (if meetsCased before && !meetsCased rest then ['ς'] else ['σ'])
        else lowerChar c
      image ++ go (c :: before) rest

/-- The name of an accessor for a property (`snake_case`): each upper-case character is lowered, and an underscore
stands before it unless it comes first. -/
def accessorName (name : List Char) : List Char :=
  match name with
  | [] => []
  | c :: rest => lowerIfUpper c ++ rest.flatMap fun d => (if isUppercase d then ['_'] else []) ++ lowerIfUpper d
where
  lowerIfUpper (c : Char) : List Char :=
    if isUppercase c then lowerChar c else [c]

end Stencil

/-!
# Lines of a text

`splitlines` splits a text into its lines as Python's `str.splitlines` does: at every line boundary of Unicode, a
carriage return and a line feed together counting as one.  Where a text has no carriage return, a line that is ended by
a line feed is split at the boundaries in it, and the rest of the text by itself.
-/

namespace Lines

/-- The code points at which a line ends. -/
def boundaries : List Nat := [0xa, 0xb, 0xc, 0xd, 0x1c, 0x1d, 0x1e, 0x85, 0x2028, 0x2029]

def isBoundary (c : Char) : Bool := boundaries.contains c.toNat

/-- The lines of a text, given what has been read of the first one. -/
def splitlinesFrom : List Char → List Char → List (List Char)
  | line, [] => if line = [] then [] else [line]
  | line, '\r' :: '\n' :: cs => line :: splitlinesFrom [] cs
  | line, c :: cs => if isBoundary c then line :: splitlinesFrom [] cs else splitlinesFrom (line ++ [c]) cs

def splitlines (text : List Char) : List (List Char) := splitlinesFrom [] text

variable {line rest text : List Char} {c : Char}

private theorem splitlinesFrom_cons (hcr : c ≠ '\r') :
    splitlinesFrom line (c :: text) =
      if isBoundary c then line :: splitlines text else splitlinesFrom (line ++ [c]) text := by
  rw [splitlinesFrom, splitlines]
  exact fun _ h => absurd h hcr

theorem modifyHead_self {lines : List (List Char)} : lines.modifyHead (fun line => line) = lines := by
  cases lines <;> rfl

private theorem splitlinesFrom_append (htext : ∀ c ∈ text, c ≠ '\r') :
    splitlinesFrom line (text ++ '\n' :: rest) =
      (text.splitOnP isBoundary).modifyHead (line ++ ·) ++ splitlines rest := by
  induction text generalizing line with
  | nil =>
    rw [List.nil_append, splitlinesFrom_cons (by decide), if_pos (by decide)]
    simp
  | cons c text ih =>
    have hcr : c ≠ '\r' := htext c (List.mem_cons_self ..)
    have htext' : ∀ c ∈ text, c ≠ '\r' := fun c hc => htext c (List.mem_cons_of_mem _ hc)
    rw [List.cons_append, List.splitOnP_cons_eq_if_modifyHead, splitlinesFrom_cons hcr]
    cases isBoundary c with
    | true =>
      rw [if_pos rfl, if_pos rfl, splitlines, ih htext']
      simp [modifyHead_self]
    | false =>
      rw [if_neg (by simp), if_neg (by simp), ih htext']
      simp [Function.comp_def]

/-- A line feed ends the last of the lines before it. -/
theorem splitlines_append (htext : ∀ c ∈ text, c ≠ '\r') :
    splitlines (text ++ '\n' :: rest) = text.splitOnP isBoundary ++ splitlines rest := by
  rw [splitlines, splitlinesFrom_append htext]
  simp [modifyHead_self]

end Lines

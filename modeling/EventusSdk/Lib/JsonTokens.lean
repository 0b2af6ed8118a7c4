import EventusSdk.Lib.JsonText
import Mathlib.Data.List.Forall2

/-!
# The tokens of a JSON text

`tokens` takes a text apart into the tokens JSON has: brackets, colons and commas, strings with their quotes, and words,
which are what is left (numbers and the three names).  White space ends a word and is no token itself.  A text has no
tokens if a string in it is not closed, or if it has a character that JSON has not there.

Two texts of the same tokens differ in the white space between them only.  A text is cut between its tokens if the
tokens of the pieces are those of the whole; then the pieces may be stripped and put on lines of their own.
-/

namespace JsonText

/-- What has been read of a token: of a word, which may be none yet, or of a string, and there behind a backslash. -/
inductive Partial where
  | word (text : List Char)
  | string (text : List Char)
  | escaped (text : List Char)

def isStructural (c : Char) : Bool :=
  c = '\x7b' || c = '\x7d' || c = '[' || c = ']' || c = ':' || c = ','

/-- A word that has ended. -/
def ofWord (text : List Char) : List (List Char) := if text = [] then [] else [text]

/-- The tokens that end with a character, and what is read of the next one; `none` if it is refused. -/
def Partial.step : Partial → Char → Option (List (List Char) × Partial)
  | .word text, c =>
    if isBlank c then some (ofWord text, .word [])
    else if Mode.outside.refuses c then none
    else if c = '"' then some (ofWord text, .string [c])
    else if isStructural c then some (ofWord text ++ [[c]], .word [])
    else some ([], .word (text ++ [c]))
  | .string text, c =>
    if Mode.string.refuses c then none
    else if c = '"' then some ([text ++ [c]], .word [])
    else if c = '\\' then some ([], .escaped (text ++ [c]))
    else some ([], .string (text ++ [c]))
  | .escaped text, c => if Mode.escaped.refuses c then none else some ([], .string (text ++ [c]))

/-- The tokens that end with the text; `none` within a string. -/
def Partial.finish : Partial → Option (List (List Char))
  | .word text => some (ofWord text)
  | _ => none

def lex (p : Partial) : List Char → Option (List (List Char))
  | [] => p.finish
  | c :: cs => (p.step c).bind fun out => (lex out.2 cs).map (out.1 ++ ·)

/-- The tokens of a text. -/
def tokens (text : List Char) : Option (List (List Char)) := lex (.word []) text

example : tokens "[10, \"a b\"]".toList = some ["[".toList, "10".toList, ",".toList, "\"a b\"".toList, "]".toList] :=
  rfl

/-- No token is cut: the pieces of a text have its tokens. -/
def SplitBetweenTokens (pieces : List (List Char)) : Prop :=
  ∃ tss, List.Forall₂ (fun piece ts => tokens piece = some ts) pieces tss ∧ tokens pieces.flatten = some tss.flatten

section
variable {p : Partial} {c : Char} {text text' left right word : List Char} {ts : List (List Char)}

/-! ### Lines -/

/-- A line feed ends a word, and no string goes on behind it. -/
private theorem lex_newline (p : Partial) (text : List Char) :
    lex p ('\n' :: text) = p.finish.bind fun ts => (tokens text).map (ts ++ ·) := by
  cases p with
  | word word => rfl
  | string word => rfl
  | escaped word => rfl

/-- The tokens of a text with a line feed are those before it and those behind it. -/
private theorem lex_append_newline (p : Partial) (text text' : List Char) :
    lex p (text ++ '\n' :: text') = (lex p text).bind fun ts => (tokens text').map (ts ++ ·) := by
  induction text generalizing p with
  | nil => exact lex_newline p text'
  | cons c text ih =>
    rw [List.cons_append, lex, lex]
    cases p.step c with
    | none => rfl
    | some out =>
      rw [Option.bind_some, Option.bind_some, ih]
      cases lex out.2 text with
      | none => rfl
      | some ts => simp [Function.comp_def]

theorem tokens_append_newline {ts' : List (List Char)} (h : tokens text = some ts) (h' : tokens text' = some ts') :
    tokens (text ++ '\n' :: text') = some (ts ++ ts') := by
  rw [tokens, lex_append_newline]
  change (tokens text).bind _ = _
  rw [h, Option.bind_some, h', Option.map_some]

/-! ### White space around a text -/

private theorem step_word_blank (hc : isBlank c = true) :
    Partial.step (.word word) c = some (ofWord word, .word []) := by
  simp [Partial.step, hc]

/-- White space before the first token is none. -/
private theorem tokens_blank_append (hl : ∀ c ∈ left, isBlank c = true) : tokens (left ++ text) = tokens text := by
  induction left with
  | nil => rfl
  | cons c left ih =>
    have htail := ih fun c hc => hl c (List.mem_cons_of_mem _ hc)
    rw [← htail, List.cons_append, tokens, lex, step_word_blank (hl c (List.mem_cons_self ..))]
    simp [ofWord, tokens]

/-- White space behind a word ends it. -/
private theorem lex_word_blank (hr : ∀ c ∈ right, isBlank c = true) : lex (.word word) right = some (ofWord word) := by
  cases right with
  | nil => rfl
  | cons c right =>
    have htail : tokens right = some [] := by
      have hnil : tokens (right ++ []) = tokens [] :=
        tokens_blank_append fun c hc => hr c (List.mem_cons_of_mem _ hc)
      rwa [List.append_nil] at hnil
    rw [lex, step_word_blank (hr c (List.mem_cons_self ..)), Option.bind_some]
    change (tokens right).map _ = _
    rw [htail, Option.map_some, List.append_nil]

/-- A string that is open stays open where there is no quote. -/
private theorem lex_open (hq : ∀ c ∈ right, c ≠ '"') : lex (.string word) right = none ∧
    lex (.escaped word) right = none := by
  induction right generalizing word with
  | nil => exact ⟨rfl, rfl⟩
  | cons c right ih =>
    have hc := hq c (List.mem_cons_self ..)
    have htail : ∀ word, lex (.string word) right = none ∧ lex (.escaped word) right = none :=
      fun _ => ih fun c hc => hq c (List.mem_cons_of_mem _ hc)
    constructor
    · rw [lex, Partial.step, if_neg hc]
      split
      · rfl
      · split
        · rw [Option.bind_some, (htail _).2, Option.map_none]
        · rw [Option.bind_some, (htail _).1, Option.map_none]
    · rw [lex, Partial.step]
      split
      · rfl
      · rw [Option.bind_some, (htail _).1, Option.map_none]

/-- White space behind the last token is none. -/
private theorem lex_append_blank (hr : ∀ c ∈ right, isBlank c = true) : lex p (text ++ right) = lex p text := by
  induction text generalizing p with
  | nil =>
    have hq : ∀ c ∈ right, c ≠ '"' := by
      rintro c hc rfl
      cases hr _ hc
    cases p with
    | word word => exact lex_word_blank hr
    | string word => exact (lex_open hq).1
    | escaped word => exact (lex_open hq).2
  | cons c text ih => simp only [List.cons_append, lex, ih]

theorem tokens_padded (text : List Char) (hl : ∀ c ∈ left, isBlank c = true) (hr : ∀ c ∈ right, isBlank c = true) :
    tokens (left ++ (text ++ right)) = tokens text := by
  rw [tokens_blank_append hl, tokens, lex_append_blank hr]
  rfl

/-! ### What stands around a text with tokens -/

/-- The character is white space of JSON, or refused outside of strings. -/
def isOutlying (c : Char) : Bool := isBlank c || Mode.outside.refuses c

private theorem step_word_refused (hr : Mode.outside.refuses c = true) : Partial.step (.word word) c = none := by
  have hb : isBlank c = false := by
    cases hb : isBlank c with
    | false => rfl
    | true => simp [Mode.refuses, hb] at hr
  simp [Partial.step, hb, hr]

/-- Outside of strings a character that begins no token is read if it is white space. -/
private theorem lex_word_outlying (hc : isOutlying c = true) (h : lex (.word word) (c :: text) = some ts) :
    isBlank c = true ∧ ∃ ts', tokens text = some ts' := by
  have hb : isBlank c = true := by
    by_contra hb
    rw [isOutlying, Bool.or_eq_true] at hc
    rw [lex, step_word_refused (hc.resolve_left hb)] at h
    cases h
  rw [lex, step_word_blank hb, Option.bind_some, Option.map_eq_some_iff] at h
  obtain ⟨ts', htail, -⟩ := h
  exact ⟨hb, ts', htail⟩

/-- Of the characters that begin no token, those before the tokens are white space. -/
private theorem blank_of_tokens_append (hl : ∀ c ∈ left, isOutlying c = true) (h : tokens (left ++ text) = some ts) :
    ∀ c ∈ left, isBlank c = true := by
  induction left generalizing ts with
  | nil => simp
  | cons c left ih =>
    obtain ⟨hb, ts', htail⟩ := lex_word_outlying (hl c (List.mem_cons_self ..)) h
    have hleft := ih (fun c hc => hl c (List.mem_cons_of_mem _ hc)) htail
    exact List.forall_mem_cons.2 ⟨hb, hleft⟩

private theorem ne_quote_of_isOutlying (h : isOutlying c = true) : c ≠ '"' := by
  rintro rfl
  cases h

/-- Nor is what stands behind them anything else. -/
private theorem blank_of_lex_append (hr : ∀ c ∈ right, isOutlying c = true) (h : lex p (text ++ right) = some ts) :
    ∀ c ∈ right, isBlank c = true := by
  induction text generalizing p ts with
  | nil =>
    have hq : ∀ c ∈ right, c ≠ '"' := fun c hc => ne_quote_of_isOutlying (hr c hc)
    rw [List.nil_append] at h
    cases p with
    | word word =>
      cases right with
      | nil => simp
      | cons c right =>
        obtain ⟨hb, ts', htail⟩ := lex_word_outlying (hr c (List.mem_cons_self ..)) h
        rw [← List.append_nil right] at htail
        have hright := blank_of_tokens_append (fun c hc => hr c (List.mem_cons_of_mem _ hc)) htail
        exact List.forall_mem_cons.2 ⟨hb, hright⟩
    | string word =>
      rw [(lex_open hq).1] at h
      cases h
    | escaped word =>
      rw [(lex_open hq).2] at h
      cases h
  | cons c text ih =>
    rw [List.cons_append, lex, Option.bind_eq_some_iff] at h
    obtain ⟨out, -, h⟩ := h
    obtain ⟨ts', htail, -⟩ := Option.map_eq_some_iff.1 h
    exact ih htail

/-- Characters that begin no token may be taken from both ends of a text, and its tokens are the same. -/
theorem tokens_of_padded (hl : ∀ c ∈ left, isOutlying c = true) (hr : ∀ c ∈ right, isOutlying c = true)
    (h : tokens (left ++ (text ++ right)) = some ts) : tokens text = some ts := by
  have hleft := blank_of_tokens_append hl h
  rw [tokens_blank_append hleft] at h
  have hright := blank_of_lex_append hr h
  rwa [tokens, lex_append_blank hright] at h

end

end JsonText

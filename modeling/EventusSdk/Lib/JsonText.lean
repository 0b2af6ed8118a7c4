/-!
# The shape of a JSON text

A scanner that reads a text character by character and knows whether it is within a string, how many brackets are open,
and whether a value has begun.  `Lexical` texts are those it reads to the end without an open string or bracket; every
JSON text is one.  The scanner refuses what no JSON text has: a control character within a string, anything but ASCII
outside of strings, a bracket that opens a second value.
-/

namespace JsonText

/-- White space between the tokens. -/
def isBlank (c : Char) : Bool := c = ' ' || c = '\t' || c = '\n' || c = '\r'

/-- Whether the scanner is within a string, and there behind a backslash. -/
inductive Mode where
  | outside
  | string
  | escaped
deriving DecidableEq

structure Scan where
  mode : Mode
  depth : Nat
  begun : Bool

def start : Scan := ⟨.outside, 0, false⟩

/-- How the mode goes on, whatever is refused. -/
def Mode.next : Mode → Char → Mode
  | .outside, c => if c = '"' then .string else .outside
  | .string, c => if c = '"' then .outside else if c = '\\' then .escaped else .string
  | .escaped, _ => .string

/-- The character is refused in a string, or outside of it. -/
def Mode.refuses : Mode → Char → Bool
  | .outside, c => !isBlank c && (c.toNat < 0x20 || 0x7f ≤ c.toNat)
  | _, c => c.toNat < 0x20

/-- How many brackets are open behind the character, and whether a value has begun; `none` if a second one would. -/
def Scan.level (s : Scan) (c : Char) : Option (Nat × Bool) :=
  if s.mode ≠ .outside ∨ isBlank c = true then some (s.depth, s.begun)
  else if c = '\x7b' ∨ c = '[' then if s.depth = 0 ∧ s.begun = true then none else some (s.depth + 1, true)
  else if c = '\x7d' ∨ c = ']' then if s.depth = 0 then none else some (s.depth - 1, true)
  else some (s.depth, true)

def Scan.step (s : Scan) (c : Char) : Option Scan :=
  if s.mode.refuses c = true then none
  else (s.level c).map fun (depth, begun) => ⟨s.mode.next c, depth, begun⟩

def Scan.run (s : Scan) (text : List Char) : Option Scan := text.foldlM Scan.step s

/-- The text is read to its end, with no string or bracket open. -/
def Lexical (text : List Char) : Prop :=
  ∃ s, start.run text = some s ∧ s.mode = .outside ∧ s.depth = 0

variable {s t : Scan} {c : Char} {text text' before left core right rest : List Char}

/-! ### Single characters -/

private theorem step_cases (h : s.step c = some t) :
    s.mode.refuses c = false ∧ s.level c = some (t.depth, t.begun) ∧ t.mode = s.mode.next c := by
  unfold Scan.step at h
  split at h
  · cases h
  · next hr =>
    obtain ⟨⟨depth, begun⟩, hl, rfl⟩ := Option.map_eq_some_iff.1 h
    exact ⟨by simpa using hr, hl, rfl⟩

private theorem step_blank (hm : s.mode = .outside) (hc : isBlank c = true) : s.step c = some s := by
  have hq : c ≠ '"' := by
    rintro rfl
    cases hc
  obtain ⟨mode, depth, begun⟩ := s
  cases hm
  simp [Scan.step, Scan.level, Mode.refuses, Mode.next, hc, hq]

private theorem step_begun (hb : s.begun = true) (h : s.step c = some t) : t.begun = true := by
  obtain ⟨-, hl, -⟩ := step_cases h
  unfold Scan.level at hl
  grind

/-- What is not blank begins a value. -/
private theorem step_token (hm : s.mode = .outside) (hc : isBlank c = false) (h : s.step c = some t) :
    t.begun = true := by
  obtain ⟨-, hl, -⟩ := step_cases h
  unfold Scan.level at hl
  grind

/-- A line feed is read outside of strings only. -/
private theorem step_newline (h : s.step '\n' = some t) : s.mode = .outside ∧ t = s := by
  obtain ⟨hr, -, -⟩ := step_cases h
  have hm : s.mode = .outside := by
    cases hm : s.mode with
    | outside => rfl
    | _ =>
      rw [hm] at hr
      cases hr
  rw [step_blank hm rfl] at h
  exact ⟨hm, (Option.some.inj h).symm⟩

private theorem level_raised {k depth : Nat} {b begun : Bool} (hk : 0 < k) (h : s.level c = some (depth, begun)) :
    ∃ b', Scan.level ⟨s.mode, s.depth + k, b⟩ c = some (depth + k, b') := by
  unfold Scan.level at h ⊢
  have hpos : s.depth + k ≠ 0 := by omega
  split at h
  · next hs =>
    obtain ⟨rfl, -⟩ := Prod.mk.inj (Option.some.inj h)
    exact ⟨b, if_pos hs⟩
  · next hs =>
    split at h
    · next ho =>
      split at h
      · cases h
      · obtain ⟨rfl, -⟩ := Prod.mk.inj (Option.some.inj h)
        exact ⟨true, by simp only [hs, ho, hpos, false_and, ↓reduceIte, Nat.add_right_comm]⟩
    · next ho =>
      split at h
      · next hc =>
        split at h
        · cases h
        · next h0 =>
          obtain ⟨rfl, -⟩ := Prod.mk.inj (Option.some.inj h)
          exact ⟨true, by simp only [hs, ho, hc, hpos, ↓reduceIte]; congr 2; omega⟩
      · next hc =>
        obtain ⟨rfl, -⟩ := Prod.mk.inj (Option.some.inj h)
        exact ⟨true, by simp only [hs, ho, hc, ↓reduceIte]⟩

/-- Within further brackets the scanner reads as before. -/
private theorem step_raised {k : Nat} {b : Bool} (hk : 0 < k) (h : s.step c = some t) :
    ∃ b', Scan.step ⟨s.mode, s.depth + k, b⟩ c = some ⟨t.mode, t.depth + k, b'⟩ := by
  obtain ⟨hr, hl, hm⟩ := step_cases h
  obtain ⟨b', hl'⟩ := level_raised (b := b) hk hl
  exact ⟨b', by simp [Scan.step, hr, hl', hm]⟩

/-! ### Texts -/

private theorem run_cons : s.run (c :: text) = some t ↔ ∃ u, s.step c = some u ∧ u.run text = some t := by
  rw [Scan.run, List.foldlM_cons]
  exact Option.bind_eq_some_iff

private theorem run_append : s.run (text ++ text') = some t ↔ ∃ u, s.run text = some u ∧ u.run text' = some t := by
  rw [Scan.run, List.foldlM_append]
  exact Option.bind_eq_some_iff

private theorem run_mode (h : s.run text = some t) : t.mode = text.foldl Mode.next s.mode := by
  induction text generalizing s with
  | nil => rw [Option.some.inj h]; rfl
  | cons c text ih =>
    obtain ⟨u, hu, h⟩ := run_cons.1 h
    rw [ih h, List.foldl_cons, (step_cases hu).2.2]

private theorem run_begun (hb : s.begun = true) (h : s.run text = some t) : t.begun = true := by
  induction text generalizing s with
  | nil => rw [← Option.some.inj h]; exact hb
  | cons c text ih =>
    obtain ⟨u, hu, h⟩ := run_cons.1 h
    exact ih (step_begun hb hu) h

private theorem run_blank (hm : s.mode = .outside) (hb : ∀ c ∈ text, isBlank c = true) : s.run text = some s := by
  induction text with
  | nil => rfl
  | cons c text ih =>
    have hc := hb c (List.mem_cons_self ..)
    exact run_cons.2 ⟨s, step_blank hm hc, ih fun c hc => hb c (List.mem_cons_of_mem _ hc)⟩

/-- A text that is not blank begins a value. -/
private theorem run_token (hm : s.mode = .outside) (hc : ∃ c ∈ text, isBlank c = false) (h : s.run text = some t) :
    t.begun = true := by
  induction text generalizing s with
  | nil =>
    obtain ⟨c, hc, -⟩ := hc
    cases hc
  | cons c text ih =>
    obtain ⟨u, hu, h⟩ := run_cons.1 h
    by_cases hb : isBlank c = true
    · rw [step_blank hm hb] at hu
      obtain rfl := Option.some.inj hu
      obtain ⟨d, hd, hd'⟩ := hc
      refine ih hm ⟨d, (List.mem_cons.1 hd).resolve_left ?_, hd'⟩ h
      rintro rfl
      rw [hb] at hd'
      cases hd'
    · exact run_begun (step_token hm (by simpa using hb) hu) h

private theorem run_raised {k : Nat} {b : Bool} (hk : 0 < k) (h : s.run text = some t) :
    ∃ b', Scan.run ⟨s.mode, s.depth + k, b⟩ text = some ⟨t.mode, t.depth + k, b'⟩ := by
  induction text generalizing s b with
  | nil =>
    obtain rfl := Option.some.inj h
    exact ⟨b, rfl⟩
  | cons c text ih =>
    obtain ⟨u, hu, h⟩ := run_cons.1 h
    obtain ⟨b₁, h₁⟩ := step_raised hk hu
    obtain ⟨b₂, h₂⟩ := ih h
    exact ⟨b₂, run_cons.2 ⟨_, h₁, h₂⟩⟩

/-! ### Padding -/

/-- Without a quote one neither enters nor leaves a string. -/
private theorem foldl_next_plain {m : Mode} (hq : ∀ c ∈ text, c ≠ '"') :
    text.foldl Mode.next m = .outside ↔ m = .outside := by
  induction text generalizing m with
  | nil => exact Iff.rfl
  | cons c text ih =>
    have hc := hq c (List.mem_cons_self ..)
    rw [List.foldl_cons, ih fun c hc => hq c (List.mem_cons_of_mem _ hc)]
    cases m with
    | outside => simp [Mode.next, hc]
    | string => by_cases hb : c = '\\' <;> simp [Mode.next, hc, hb]
    | escaped => simp [Mode.next]

theorem foldl_next_padded (hl : ∀ c ∈ left, c ≠ '"') (hr : ∀ c ∈ right, c ≠ '"') :
    (left ++ (core ++ right)).foldl Mode.next .outside = .outside ↔ core.foldl Mode.next .outside = .outside := by
  rw [List.foldl_append, List.foldl_append, foldl_next_plain hr, (foldl_next_plain hl).2 rfl]

private theorem run_plain (hm : s.mode = .outside) (hq : ∀ c ∈ text, c ≠ '"') (h : s.run text = some t) :
    ∀ c ∈ text, Mode.outside.refuses c = false := by
  induction text generalizing s with
  | nil => simp
  | cons c text ih =>
    obtain ⟨u, hu, h⟩ := run_cons.1 h
    obtain ⟨hr, -, hmode⟩ := step_cases hu
    rw [hm] at hr hmode
    have hc := hq c (List.mem_cons_self ..)
    have hout : u.mode = .outside := by simp [hmode, Mode.next, hc]
    intro d hd
    rcases List.mem_cons.1 hd with rfl | hd
    · exact hr
    · exact ih hout (fun c hc => hq c (List.mem_cons_of_mem _ hc)) h d hd

/-- Around the value there is nothing that is refused outside of strings. -/
theorem Lexical.padding (h : Lexical (left ++ (core ++ right))) (hl : ∀ c ∈ left, c ≠ '"')
    (hr : ∀ c ∈ right, c ≠ '"') :
    (∀ c ∈ left, Mode.outside.refuses c = false) ∧ ∀ c ∈ right, Mode.outside.refuses c = false := by
  obtain ⟨t, hrun, hm, -⟩ := h
  obtain ⟨u, hu, hrun⟩ := run_append.1 hrun
  obtain ⟨v, hv, hrun⟩ := run_append.1 hrun
  have hvm : v.mode = .outside := (foldl_next_plain hr).1 (by rw [← run_mode hrun, hm])
  exact ⟨run_plain rfl hl hu, run_plain hvm hr hrun⟩

theorem Lexical.padded (left right : List Char) (h : Lexical core) (hl : ∀ c ∈ left, isBlank c = true)
    (hr : ∀ c ∈ right, isBlank c = true) :
    Lexical (left ++ (core ++ right)) := by
  obtain ⟨t, hrun, hm, hd⟩ := h
  exact ⟨t, run_append.2 ⟨start, run_blank rfl hl, run_append.2 ⟨t, hrun, run_blank hm hr⟩⟩, hm, hd⟩

/-- What is refused outside of strings stands within one. -/
theorem Lexical.within (h : Lexical (text ++ c :: rest)) (hc : Mode.outside.refuses c = true) :
    text.foldl Mode.next .outside ≠ .outside := by
  obtain ⟨t, hrun, -, -⟩ := h
  obtain ⟨u, hu, hrun⟩ := run_append.1 hrun
  obtain ⟨v, hv, -⟩ := run_cons.1 hrun
  have hmode : u.mode = text.foldl Mode.next .outside := run_mode hu
  rw [← hmode]
  intro hm
  have hr := (step_cases hv).1
  rw [hm, hc] at hr
  cases hr

/-! ### Texts that are none -/

/-- A text that ends with a line feed is left outside of strings. -/
private theorem run_lines (hm : s.mode = .outside) (hb : before = [] ∨ ∃ line, before = line ++ ['\n'])
    (h : s.run before = some t) : t.mode = .outside := by
  rcases hb with rfl | ⟨line, rfl⟩
  · rw [← Option.some.inj h]
    exact hm
  · obtain ⟨u, -, hlast⟩ := run_append.1 h
    obtain ⟨v, hv, hend⟩ := run_cons.1 hlast
    obtain ⟨hu, hvu⟩ := step_newline hv
    rw [← Option.some.inj hend, hvu]
    exact hu

/-- Behind lines that are not blank no object begins. -/
theorem not_lexical_second (hb : before = [] ∨ ∃ line, before = line ++ ['\n'])
    (hc : ∃ c ∈ before, isBlank c = false) (h : Lexical ('\x7b' :: rest)) : ¬ Lexical (before ++ '\x7b' :: rest) := by
  rintro ⟨t, hrun, -, hd⟩
  obtain ⟨u, hu, hrun⟩ := run_append.1 hrun
  have hm : u.mode = .outside := run_lines rfl hb hu
  have hbegun := run_token rfl hc hu
  by_cases hdepth : u.depth = 0
  · obtain ⟨v, hv, -⟩ := run_cons.1 hrun
    have hl := (step_cases hv).2.1
    simp [Scan.level, hm, hdepth, hbegun, isBlank] at hl
  · -- the brackets that are open stay open behind the object
    obtain ⟨w, hw, -, -⟩ := h
    obtain ⟨b', hw'⟩ := run_raised (b := u.begun) (Nat.pos_of_ne_zero hdepth) hw
    have hu' : u = ⟨start.mode, start.depth + u.depth, u.begun⟩ := by
      cases u
      cases hm
      simp [start]
    rw [← hu', hrun] at hw'
    obtain rfl := Option.some.inj hw'
    simp at hd
    omega

/-- A string that is open at the end of a line, or of the text, is not closed any more. -/
theorem not_lexical_open (hb : before = [] ∨ ∃ line, before = line ++ ['\n'])
    (hm : text.foldl Mode.next .outside ≠ .outside) (hr : rest = [] ∨ ∃ rest', rest = '\n' :: rest') :
    ¬ Lexical (before ++ (text ++ rest)) := by
  rintro ⟨t, hrun, hout, -⟩
  obtain ⟨u, hu, hrun⟩ := run_append.1 hrun
  obtain ⟨v, hv, hrun⟩ := run_append.1 hrun
  have hvm : v.mode ≠ .outside := by
    rw [run_mode hv, run_lines rfl hb hu]
    exact hm
  rcases hr with rfl | ⟨rest', rfl⟩
  · rw [Option.some.inj hrun] at hvm
    exact hvm hout
  · obtain ⟨w, hw, -⟩ := run_cons.1 hrun
    exact hvm (step_newline hw).1

end JsonText

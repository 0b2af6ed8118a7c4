import EventusSdk.Frames
import EventusSdk.Lib.JsonText
import EventusSdk.Lib.Lines

/-!
# The lines of an event stream

`_parse_sse` reads a stream line by line, collects what stands behind `data:`, and decodes it at every blank line.  It
is given the lines as httpx makes them, which ends a line wherever `str.splitlines` does.  JSON has other ideas of a
line: U+0085, U+2028 and U+2029 may stand in its strings as they are.

So the stream of a server that escapes nothing but what JSON demands is taken apart within its strings.  Likewise a
boundary in an event type, of which the server makes a line, begins a line of its own.  `Readable` frames are those
without such a boundary, or with one that does no harm; a list of frames is decoded if and only if all are readable.
-/

namespace EventusSdk

open JsonText Lines

/-- What `json.loads` is known for: it reads JSON texts, of which an object begins with its bracket, and white space
around them does not matter. -/
structure JsonLib extends StreamLib where
  loadsText_lexical : ∀ text v, loadsText text = .ok v → Lexical text
  loadsText_object : ∀ text members, loadsText text = .ok (.obj members) →
    ∃ left rest, text = left ++ '\x7b' :: rest ∧ ∀ c ∈ left, isBlank c = true
  loadsText_padded : ∀ left text right, (∀ c ∈ left, isBlank c = true) → (∀ c ∈ right, isBlank c = true) →
    loadsText (left ++ (text ++ right)) = loadsText text

/-! ### The parser -/

/-- `s.rstrip("\n")`. -/
def rstripNewline (s : Text) : Text := s.rdropWhile (· = '\n')

/-- `s.strip()`. -/
def strip (s : Text) : Text := (s.dropWhile isSpace).rdropWhile isSpace

/-- `"\n".join(lines)`. -/
def joinLines : List Text → Text
  | [] => []
  | [line] => line
  | line :: lines => line ++ '\n' :: joinLines lines

def dataPrefix : Text := "data:".toList

/-- `_parse_sse` with the data lines collected so far: the events, and the data lines left over or the exception. -/
def parseLines (lib : StreamLib) : List Text → List Text → List ClientEvent × Except Exn (List Text)
  | dataLines, [] => ([], .ok dataLines)
  | dataLines, rawLine :: lines =>
    let line := rstripNewline rawLine
    if line = [] then
      if dataLines = [] then parseLines lib [] lines
      else
        match decodeSseFrame lib (joinLines dataLines) with
        | .ok event => (event :: (parseLines lib [] lines).1, (parseLines lib [] lines).2)
        | .error exc => ([], .error exc)
    else if dataPrefix.isPrefixOf line then parseLines lib (dataLines ++ [strip (line.drop dataPrefix.length)]) lines
    else parseLines lib dataLines lines

def parseSse (lib : StreamLib) (lines : List Text) : List ClientEvent × Except Exn (List Text) :=
  parseLines lib [] lines

/-! ### What the server writes -/

/-- An event, with a serialisation of its envelope. -/
structure SseFrame where
  seq : Int
  eventType : String
  data : List (String × Json)
  json : Text

namespace SseFrame

def idLine (f : SseFrame) : Text := "id: ".toList ++ (toString f.seq).toList

def eventLine (f : SseFrame) : Text := "event: ".toList ++ f.eventType.toList

def dataLine (f : SseFrame) : Text := "data: ".toList ++ f.json

/-- The three lines and a blank one. -/
def text (f : SseFrame) : Text := f.idLine ++ '\n' :: (f.eventLine ++ '\n' :: (f.dataLine ++ '\n' :: ['\n']))

/-- The lines the client makes of it. -/
def lines (f : SseFrame) : List Text :=
  f.idLine.splitOnP isBoundary ++ (f.eventLine.splitOnP isBoundary ++ (f.dataLine.splitOnP isBoundary ++ [[]]))

def event (f : SseFrame) : ClientEvent :=
  { seq := f.seq, eventType := f.eventType, data := f.data.map fun (k, v) => (.str k, v), transport := .sse }

/-- No carriage return or line feed, and the envelope of the event. -/
structure Valid (lib : StreamLib) (f : SseFrame) : Prop where
  eventType : ∀ c ∈ f.eventType.toList, c ≠ '\r' ∧ c ≠ '\n'
  json : ∀ c ∈ f.json, c ≠ '\r' ∧ c ≠ '\n'
  encodes : ∃ members, lib.loadsText f.json = .ok (.obj members) ∧ members.lookup "seq" = some (.int f.seq) ∧
    members.lookup "event_type" = some (.str f.eventType) ∧ members.lookup "data" = some (.obj f.data)

end SseFrame

/-- Behind the first line, a data line is blank, and no blank line follows it. -/
def Harmless : List Text → Prop
  | [] => True
  | line :: lines =>
    (dataPrefix.isPrefixOf line = true → strip (line.drop dataPrefix.length) = [] ∧ [] ∉ lines) ∧ Harmless lines

/-- No line ends within the serialisation, and none that ends within the event type does harm. -/
def SseFrame.Readable (f : SseFrame) : Prop :=
  (∀ c ∈ f.json, isBoundary c = false) ∧ Harmless (f.eventType.toList.splitOnP isBoundary).tail

/-! ### Characters -/

private theorem isSpace_of_isBlank {c : Char} (h : isBlank c = true) : isSpace c = true := by
  simp only [isBlank, Bool.or_eq_true, decide_eq_true_eq] at h
  rcases h with ((rfl | rfl) | rfl) | rfl <;> decide

private theorem ne_quote_of_isSpace {c : Char} (h : isSpace c = true) : c ≠ '"' := by
  rintro rfl
  revert h
  decide

/-- Of the white space of Python, JSON allows its own outside of strings only. -/
theorem isBlank_of_isSpace {c : Char} (h : isSpace c = true) (hr : Mode.outside.refuses c = false) :
    isBlank c = true := by
  have hmem : c.toNat ∈ spaces := List.contains_iff_mem.1 h
  have hall : ∀ n ∈ spaces, Mode.outside.refuses (Char.ofNat n) = false → isBlank (Char.ofNat n) = true := by decide
  have hc := hall _ hmem
  rw [Char.ofNat_toNat] at hc
  exact hc hr

/-- Apart from the two of JSON, no boundary stands outside of a string. -/
private theorem refuses_of_isBoundary {c : Char} (h : isBoundary c = true) (hcr : c ≠ '\r') (hlf : c ≠ '\n') :
    Mode.outside.refuses c = true := by
  have hmem : c.toNat ∈ boundaries := List.contains_iff_mem.1 h
  have hall : ∀ n ∈ boundaries, Char.ofNat n ≠ '\r' → Char.ofNat n ≠ '\n' →
      Mode.outside.refuses (Char.ofNat n) = true := by decide
  have hc := hall _ hmem
  rw [Char.ofNat_toNat] at hc
  exact hc hcr hlf

private theorem not_isBoundary_of_isDigit {c : Char} (h : c.isDigit = true ∨ c = '-') : isBoundary c = false := by
  rcases h with h | rfl
  · have hn := Char.isDigit_iff_toNat.1 h
    have hall : ∀ n ∈ boundaries, ¬ ('0'.toNat ≤ n ∧ n ≤ '9'.toNat) := by decide
    by_contra hb
    exact hall _ (List.contains_iff_mem.1 (by simpa [isBoundary] using hb)) hn
  · decide

/-- No line ends within the label of a field. -/
private theorem label_plain {label : String} (h : label ∈ ["id: ", "event: ", "data: "]) :
    ∀ c ∈ label.toList, isBoundary c = false := by
  simp only [List.mem_cons, List.not_mem_nil, or_false] at h
  rcases h with rfl | rfl | rfl <;> simp [isBoundary, boundaries]

private theorem isPrefixOf_id (text : Text) : dataPrefix.isPrefixOf ("id: ".toList ++ text) = false := rfl

private theorem isPrefixOf_event (text : Text) : dataPrefix.isPrefixOf ("event: ".toList ++ text) = false := rfl

private theorem isPrefixOf_data (text : Text) : dataPrefix.isPrefixOf ("data: ".toList ++ text) = true := rfl

private theorem drop_data (text : Text) : ("data: ".toList ++ text).drop dataPrefix.length = ' ' :: text := rfl

private theorem ne_return_of_plain {c : Char} (h : isBoundary c = false) : c ≠ '\r' := by
  rintro rfl
  cases h

private theorem ne_newline_of_plain {c : Char} (h : isBoundary c = false) : c ≠ '\n' := by
  rintro rfl
  cases h

/-! ### Lines taken apart -/

section
variable {s line before text : Text} {lines : List Text}

theorem strip_spec (s : Text) : ∃ left right, s = left ++ (strip s ++ right) ∧ (∀ c ∈ left, isSpace c = true) ∧
    ∀ c ∈ right, isSpace c = true := by
  refine ⟨s.takeWhile isSpace, (s.dropWhile isSpace).rtakeWhile isSpace, ?_, ?_, ?_⟩
  · rw [strip, List.rdropWhile_append_rtakeWhile, List.takeWhile_append_dropWhile]
  · exact fun c hc => List.mem_takeWhile_imp hc
  · exact fun c hc => List.mem_rtakeWhile_imp hc

/-- What was stripped begins with no white space. -/
private theorem strip_head {c : Char} (h : strip s = c :: text) : isSpace c = false := by
  have hpre : c :: text <+: s.dropWhile isSpace := h ▸ List.rdropWhile_prefix ..
  obtain ⟨rest, hrest⟩ := hpre
  have hne : s.dropWhile isSpace ≠ [] := by
    rw [← hrest]
    exact List.cons_ne_nil _ _
  have hhead := List.head_dropWhile_not isSpace hne
  simp only [← hrest, List.cons_append, List.head_cons] at hhead
  exact hhead

private theorem rstripNewline_of_notMem (h : '\n' ∉ line) : rstripNewline line = line := by
  rw [rstripNewline, List.rdropWhile_eq_self_iff]
  intro hl hp
  exact h (of_decide_eq_true hp ▸ List.getLast_mem hl)

/-- The lines, each with the line feed behind it. -/
def ended (lines : List Text) : Text := lines.flatMap (· ++ ['\n'])

private theorem ended_nil_or (lines : List Text) : ended lines = [] ∨ ∃ before, ended lines = before ++ ['\n'] := by
  rcases List.eq_nil_or_concat lines with rfl | ⟨lines, line, rfl⟩
  · exact Or.inl rfl
  · exact Or.inr ⟨ended lines ++ line, by simp [ended]⟩

/-- A line within the joined lines: the ones before it end, and the ones after it begin with a line feed. -/
private theorem joinLines_append (lines : List Text) (line : Text) (more : List Text) :
    ∃ rest, joinLines (lines ++ line :: more) = ended lines ++ (line ++ rest) ∧ (more = [] → rest = []) ∧
      (rest = [] ∨ ∃ rest', rest = '\n' :: rest') := by
  induction lines with
  | nil =>
    cases more with
    | nil => exact ⟨[], by simp [joinLines, ended], fun _ => rfl, Or.inl rfl⟩
    | cons line' more => exact ⟨'\n' :: joinLines (line' :: more), rfl, by simp, Or.inr ⟨_, rfl⟩⟩
  | cons first lines ih =>
    obtain ⟨rest, hrest, hnil, hshape⟩ := ih
    refine ⟨rest, ?_, hnil, hshape⟩
    have hcons : joinLines (first :: (lines ++ line :: more)) = first ++ '\n' :: joinLines (lines ++ line :: more) := by
      cases lines <;> rfl
    rw [List.cons_append, hcons, hrest]
    simp [ended]

private theorem splitOnP_append {p : Char → Bool} (hb : ∀ c ∈ before, p c = false) :
    (before ++ text).splitOnP p = (text.splitOnP p).modifyHead (before ++ ·) := by
  induction before with
  | nil => simp [modifyHead_self]
  | cons c before ih =>
    have hc := hb c (List.mem_cons_self ..)
    rw [List.cons_append, List.splitOnP_cons_eq_if_modifyHead, if_neg (by simp [hc]),
      ih fun c hc => hb c (List.mem_cons_of_mem _ hc)]
    simp [Function.comp_def]

/-- The first piece, and what follows it in the text if it is not the only one. -/
private theorem splitOnP_cases (p : Char → Bool) (text : Text) :
    ∃ first pieces, text.splitOnP p = first :: pieces ∧ (pieces = [] → text = first ∧ ∀ c ∈ text, p c = false) ∧
      (pieces ≠ [] → ∃ c rest, text = first ++ c :: rest ∧ p c = true) := by
  induction text with
  | nil => exact ⟨[], [], by simp, by simp, by simp⟩
  | cons c text ih =>
    obtain ⟨first, pieces, hsplit, hone, hmore⟩ := ih
    rw [List.splitOnP_cons_eq_if_modifyHead]
    cases hc : p c with
    | true => exact ⟨[], text.splitOnP p, by simp, by simp [hsplit], fun _ => ⟨c, text, rfl, hc⟩⟩
    | false =>
      refine ⟨c :: first, pieces, by simp [hsplit], fun h => ?_, fun h => ?_⟩
      · obtain ⟨hfirst, hall⟩ := hone h
        exact ⟨by rw [hfirst], by simpa [hc] using hall⟩
      · obtain ⟨d, rest, hrest, hd⟩ := hmore h
        exact ⟨d, rest, by rw [hrest]; rfl, hd⟩

private theorem notMem_of_mem_splitOnP (h : line ∈ text.splitOnP isBoundary) : '\n' ∉ line := by
  induction text generalizing line with
  | nil =>
    rw [List.splitOnP_nil, List.mem_singleton] at h
    rw [h]
    exact List.not_mem_nil
  | cons c text ih =>
    rw [List.splitOnP_cons_eq_if_modifyHead] at h
    obtain ⟨first, pieces, hsplit, -, -⟩ := splitOnP_cases isBoundary text
    rw [hsplit] at h ih
    split at h
    · rcases List.mem_cons.1 h with rfl | h
      · exact List.not_mem_nil
      · exact ih h
    · next hc =>
      rcases List.mem_cons.1 h with rfl | h
      · intro hm
        rcases List.mem_cons.1 hm with rfl | hm
        · exact hc rfl
        · exact ih (List.mem_cons_self ..) hm
      · exact ih (List.mem_cons_of_mem _ h)

end

/-! ### Runs of the parser -/

section
variable {lib : StreamLib} {ds ds' : List Text} {line : Text} {ls ls' : List Text} {event : ClientEvent} {e : Exn}

private theorem parseLines_ignored (h : '\n' ∉ line) (hne : line ≠ []) (hp : dataPrefix.isPrefixOf line = false) :
    parseLines lib ds (line :: ls) = parseLines lib ds ls := by
  simp [parseLines, rstripNewline_of_notMem h, hne, hp]

private theorem parseLines_data (h : '\n' ∉ line) (hp : dataPrefix.isPrefixOf line = true) :
    parseLines lib ds (line :: ls) = parseLines lib (ds ++ [strip (line.drop dataPrefix.length)]) ls := by
  have hne : line ≠ [] := by
    rintro rfl
    cases hp
  simp [parseLines, rstripNewline_of_notMem h, hne, hp]

theorem parseLines_blank : parseLines lib [] ([] :: ls) = parseLines lib [] ls := by
  simp [parseLines, rstripNewline]

theorem parseLines_decoded (hne : ds ≠ []) (h : decodeSseFrame lib (joinLines ds) = .ok event) :
    parseLines lib ds ([] :: ls) = (event :: (parseLines lib [] ls).1, (parseLines lib [] ls).2) := by
  simp [parseLines, rstripNewline, hne, h]

private theorem parseLines_raised (hne : ds ≠ []) (h : decodeSseFrame lib (joinLines ds) = .error e) :
    parseLines lib ds ([] :: ls) = ([], .error e) := by
  simp [parseLines, rstripNewline, hne, h]

/-- What a line does, by what it is. -/
private theorem parseLines_cases (lib : StreamLib) (ds ls : List Text) (h : '\n' ∉ line) :
    (line = [] ∧ ds = [] ∧ parseLines lib ds (line :: ls) = parseLines lib [] ls) ∨
    (line = [] ∧ ds ≠ [] ∧ ∃ event, decodeSseFrame lib (joinLines ds) = .ok event ∧
      parseLines lib ds (line :: ls) = (event :: (parseLines lib [] ls).1, (parseLines lib [] ls).2)) ∨
    (line = [] ∧ ds ≠ [] ∧ ∃ e, decodeSseFrame lib (joinLines ds) = .error e ∧
      parseLines lib ds (line :: ls) = ([], .error e)) ∨
    (line ≠ [] ∧ dataPrefix.isPrefixOf line = true ∧
      parseLines lib ds (line :: ls) = parseLines lib (ds ++ [strip (line.drop dataPrefix.length)]) ls) ∨
    (line ≠ [] ∧ dataPrefix.isPrefixOf line = false ∧ parseLines lib ds (line :: ls) = parseLines lib ds ls) := by
  by_cases hline : line = []
  · subst hline
    by_cases hds : ds = []
    · subst hds
      exact Or.inl ⟨rfl, rfl, parseLines_blank⟩
    · cases hd : decodeSseFrame lib (joinLines ds) with
      | ok event => exact Or.inr (Or.inl ⟨rfl, hds, event, rfl, parseLines_decoded hds hd⟩)
      | error e => exact Or.inr (Or.inr (Or.inl ⟨rfl, hds, e, rfl, parseLines_raised hds hd⟩))
  · cases hp : dataPrefix.isPrefixOf line with
    | true => exact Or.inr (Or.inr (Or.inr (Or.inl ⟨hline, rfl, parseLines_data h hp⟩)))
    | false => exact Or.inr (Or.inr (Or.inr (Or.inr ⟨hline, rfl, parseLines_ignored h hline hp⟩)))

/-- A line yields events and leaves data lines, whatever comes behind it, or it raises. -/
private theorem parseLines_cons (lib : StreamLib) (ds : List Text) (line : Text) :
    (∃ events ds', ∀ ls, parseLines lib ds (line :: ls) =
      (events ++ (parseLines lib ds' ls).1, (parseLines lib ds' ls).2)) ∨
    ∃ e, ∀ ls, parseLines lib ds (line :: ls) = ([], .error e) := by
  by_cases hline : rstripNewline line = []
  · by_cases hds : ds = []
    · exact Or.inl ⟨[], [], fun ls => by simp [parseLines, hline, hds]⟩
    · cases hd : decodeSseFrame lib (joinLines ds) with
      | ok event => exact Or.inl ⟨[event], [], fun ls => by simp [parseLines, hline, hds, hd]⟩
      | error e => exact Or.inr ⟨e, fun ls => by simp [parseLines, hline, hds, hd]⟩
  · cases hp : dataPrefix.isPrefixOf (rstripNewline line) with
    | true => exact Or.inl ⟨[], _, fun ls => by simp only [parseLines, hline, hp, ↓reduceIte]; rfl⟩
    | false => exact Or.inl ⟨[], ds, fun ls => by simp [parseLines, hline, hp]⟩

/-- Lines behind lines: an exception ends the parser, else it goes on with the data lines left over. -/
private theorem parseLines_append (lib : StreamLib) (ds ls ls' : List Text) :
    (∃ e, (parseLines lib ds ls).2 = .error e ∧ parseLines lib ds (ls ++ ls') = parseLines lib ds ls) ∨
    ∃ ds', (parseLines lib ds ls).2 = .ok ds' ∧ parseLines lib ds (ls ++ ls') =
      ((parseLines lib ds ls).1 ++ (parseLines lib ds' ls').1, (parseLines lib ds' ls').2) := by
  induction ls generalizing ds with
  | nil => exact Or.inr ⟨ds, rfl, rfl⟩
  | cons line ls ih =>
    rw [List.cons_append]
    rcases parseLines_cons lib ds line with ⟨events, ds', h⟩ | ⟨e, h⟩
    · rw [h, h]
      rcases ih ds' with ⟨e, he, happ⟩ | ⟨ds'', hds'', happ⟩
      · exact Or.inl ⟨e, he, by rw [happ]⟩
      · exact Or.inr ⟨ds'', hds'', by rw [happ, List.append_assoc]⟩
    · exact Or.inl ⟨e, by rw [h], by rw [h, h]⟩

/-- Data lines that cannot be decoded, whatever is added to them, make the frame fail. -/
private theorem parseLines_fails (hds : ds ≠ []) (hls : ∀ line ∈ ls, '\n' ∉ line)
    (hbad : ∀ more, ∃ e, decodeSseFrame lib (joinLines (ds ++ more)) = .error e) :
    ∃ e, (parseLines lib ds (ls ++ [[]])).2 = .error e := by
  have hdecode : ∃ e, decodeSseFrame lib (joinLines ds) = .error e := by simpa using hbad []
  obtain ⟨e, he⟩ := hdecode
  induction ls generalizing ds e with
  | nil =>
    rw [List.nil_append, parseLines_raised hds he]
    exact ⟨e, rfl⟩
  | cons line ls ih =>
    have hls' : ∀ line ∈ ls, '\n' ∉ line := fun l hl => hls l (List.mem_cons_of_mem _ hl)
    rw [List.cons_append]
    rcases parseLines_cases lib ds (ls ++ [[]]) (hls line (List.mem_cons_self ..)) with
      ⟨-, h, -⟩ | ⟨-, -, event, h, -⟩ | ⟨-, -, e, -, h⟩ | ⟨-, -, h⟩ | ⟨-, -, h⟩
    · exact absurd h hds
    · rw [he] at h
      cases h
    · rw [h]
      exact ⟨e, rfl⟩
    · rw [h]
      obtain ⟨e', he'⟩ := hbad [strip (line.drop dataPrefix.length)]
      refine ih (by simp) hls' (fun more => ?_) e' he'
      rw [List.append_assoc]
      exact hbad _
    · rw [h]
      exact ih hds hls' hbad e he

/-- Data lines that were stripped are empty, or begin with something that is not blank. -/
private theorem parseLines_stripped (hls : ∀ line ∈ ls, '\n' ∉ line)
    (hds : ∀ d ∈ ds, d ≠ [] → ∃ c ∈ d, isBlank c = false) (h : (parseLines lib ds ls).2 = .ok ds') :
    ∀ d ∈ ds', d ≠ [] → ∃ c ∈ d, isBlank c = false := by
  induction ls generalizing ds with
  | nil =>
    obtain rfl := Except.ok.inj h
    exact hds
  | cons line ls ih =>
    have hls' : ∀ line ∈ ls, '\n' ∉ line := fun l hl => hls l (List.mem_cons_of_mem _ hl)
    rcases parseLines_cases lib ds ls (hls line (List.mem_cons_self ..)) with
      ⟨-, -, h'⟩ | ⟨-, -, event, -, h'⟩ | ⟨-, -, e, -, h'⟩ | ⟨-, -, h'⟩ | ⟨-, -, h'⟩ <;> rw [h'] at h
    · exact ih hls' (by simp) h
    · exact ih hls' (by simp) h
    · cases h
    · refine ih hls' (fun d hd hne => ?_) h
      rcases List.mem_append.1 hd with hd | hd
      · exact hds d hd hne
      · rw [List.mem_singleton] at hd
        obtain ⟨c, d', hcd⟩ := List.exists_cons_of_ne_nil hne
        have hspace := strip_head (hd ▸ hcd)
        refine ⟨c, hcd ▸ List.mem_cons_self .., ?_⟩
        by_contra hb
        rw [isSpace_of_isBlank (by simpa using hb)] at hspace
        cases hspace
    · exact ih hls' hds h

/-- Lines leave the parser without an event and with blank data lines only, exactly when they are harmless. -/
private theorem parseLines_harmless_iff (lib : StreamLib) (ds : List Text) (hls : ∀ line ∈ ls, '\n' ∉ line) :
    (∃ ds', parseLines lib ds ls = ([], .ok ds') ∧ ∀ d ∈ ds', d = []) ↔
      (∀ d ∈ ds, d = []) ∧ (ds ≠ [] → [] ∉ ls) ∧ Harmless ls := by
  induction ls generalizing ds with
  | nil => simp [parseLines, Harmless]
  | cons line ls ih =>
    have hls' : ∀ line ∈ ls, '\n' ∉ line := fun l hl => hls l (List.mem_cons_of_mem _ hl)
    have hempty : dataPrefix.isPrefixOf [] = false := rfl
    rcases parseLines_cases lib ds ls (hls line (List.mem_cons_self ..)) with
      ⟨rfl, rfl, h⟩ | ⟨rfl, hds, event, -, h⟩ | ⟨rfl, hds, e, -, h⟩ | ⟨hline, hp, h⟩ | ⟨hline, hp, h⟩ <;> rw [h]
    · rw [ih _ hls']
      simp [Harmless, hempty]
    · simp [hds]
    · simp [hds]
    · rw [ih _ hls']
      have hne : ds ++ [strip (line.drop dataPrefix.length)] ≠ [] := by simp
      constructor
      · rintro ⟨hall, hnil, hh⟩
        refine ⟨fun d hd => hall d (List.mem_append_left _ hd), fun _ hm => ?_, fun _ => ⟨?_, hnil hne⟩, hh⟩
        · exact (List.mem_cons.1 hm).elim (fun h => hline h.symm) (hnil hne)
        · exact hall _ (List.mem_append_right _ (List.mem_singleton_self _))
      · rintro ⟨hall, -, hdata, hh⟩
        obtain ⟨hblank, hnil⟩ := hdata hp
        refine ⟨fun d hd => ?_, fun _ => hnil, hh⟩
        rcases List.mem_append.1 hd with hd | hd
        · exact hall d hd
        · rw [List.mem_singleton.1 hd, hblank]
    · rw [ih _ hls']
      simp only [Harmless, hp, List.mem_cons]
      grind

/-- An object with the members of an event is decoded to it. -/
theorem decode_members {f : SseFrame} {text : Text} {members : List (String × Json)}
    (hl : lib.loadsText text = .ok (.obj members))
    (h : members.lookup "seq" = some (.int f.seq) ∧ members.lookup "event_type" = some (.str f.eventType) ∧
      members.lookup "data" = some (.obj f.data)) :
    decodeSseFrame lib text = .ok f.event := by
  obtain ⟨hseq, htype, hdata⟩ := h
  simp [decodeSseFrame, hl, bind, Except.bind, pure, Except.pure, decodePayload, Json.getItem, hseq, htype, hdata,
    Json.toInt, Json.toStr, Json.toDict, guarded, SseFrame.event]

end

/-! ### One frame -/

section
variable {lib : JsonLib} {f : SseFrame} {ds : List Text} {text : Text}

private theorem decode_fails (h : ¬ Lexical text) : ∃ e, decodeSseFrame lib.toStreamLib text = .error e := by
  cases hd : decodeSseFrame lib.toStreamLib text with
  | error e => exact ⟨e, rfl⟩
  | ok event =>
    obtain ⟨v, hv, -⟩ := except_bind_ok.1 (guarded_ok.1 hd)
    exact absurd (lib.loadsText_lexical _ _ hv) h

private theorem decode_event (hf : f.Valid lib.toStreamLib) (h : lib.loadsText text = lib.loadsText f.json) :
    decodeSseFrame lib.toStreamLib text = .ok f.event := by
  obtain ⟨members, hl, hencodes⟩ := hf.encodes
  exact decode_members (h.trans hl) hencodes

/-- The serialisation stripped of white space: `json.loads` does not miss it, and it begins with a bracket. -/
private theorem strip_json (hf : f.Valid lib.toStreamLib) :
    lib.loadsText (strip (' ' :: f.json)) = lib.loadsText f.json ∧
      ∃ rest, strip (' ' :: f.json) = '\x7b' :: rest ∧ Lexical ('\x7b' :: rest) := by
  obtain ⟨members, hl, -⟩ := hf.encodes
  obtain ⟨left, right, heq, hleft, hright⟩ := strip_spec (' ' :: f.json)
  have hspace : ∀ c ∈ [' '], isBlank c = true := by simp [isBlank]
  have hlex : Lexical (left ++ (strip (' ' :: f.json) ++ right)) := by
    have hpadded := (lib.loadsText_lexical _ _ hl).padded [' '] [] hspace (by simp)
    rw [← heq]
    simpa using hpadded
  have hblank := hlex.padding (fun c hc => ne_quote_of_isSpace (hleft c hc))
    fun c hc => ne_quote_of_isSpace (hright c hc)
  have hloads : lib.loadsText (strip (' ' :: f.json)) = lib.loadsText f.json := by
    rw [← lib.loadsText_padded left _ right (fun c hc => isBlank_of_isSpace (hleft c hc) (hblank.1 c hc))
      (fun c hc => isBlank_of_isSpace (hright c hc) (hblank.2 c hc)), ← heq]
    have hpadded := lib.loadsText_padded [' '] f.json [] hspace (by simp)
    rwa [List.append_nil] at hpadded
  refine ⟨hloads, ?_⟩
  rw [hl] at hloads
  obtain ⟨left', rest, hobj, hleft'⟩ := lib.loadsText_object _ _ hloads
  cases left' with
  | nil =>
    refine ⟨rest, hobj, ?_⟩
    have hlex' := lib.loadsText_lexical _ _ hloads
    rwa [hobj] at hlex'
  | cons c left' =>
    have hhead := strip_head hobj
    rw [isSpace_of_isBlank (hleft' c (List.mem_cons_self ..))] at hhead
    cases hhead

/-- Behind blank data lines the event is decoded. -/
private theorem decode_blank (hf : f.Valid lib.toStreamLib) (hds : ∀ d ∈ ds, d = []) :
    decodeSseFrame lib.toStreamLib (joinLines (ds ++ [strip (' ' :: f.json)])) = .ok f.event := by
  obtain ⟨rest, hjoin, hnil, -⟩ := joinLines_append ds (strip (' ' :: f.json)) []
  rw [hnil rfl] at hjoin
  have hended : ∀ c ∈ ended ds, isBlank c = true := by
    intro c hc
    obtain ⟨d, hd, hcd⟩ := List.mem_flatMap.1 hc
    rw [hds d hd, List.nil_append, List.mem_singleton] at hcd
    rw [hcd]
    rfl
  refine decode_event hf ?_
  rw [hjoin, lib.loadsText_padded _ _ _ hended (by simp), (strip_json hf).1]

/-- Behind a data line that is not blank nothing is decoded. -/
private theorem decode_second (hf : f.Valid lib.toStreamLib) (hds : ∃ d ∈ ds, ∃ c ∈ d, isBlank c = false) :
    ∃ e, decodeSseFrame lib.toStreamLib (joinLines (ds ++ [strip (' ' :: f.json)])) = .error e := by
  obtain ⟨rest, hjoin, hnil, -⟩ := joinLines_append ds (strip (' ' :: f.json)) []
  obtain ⟨-, rest', hobj, hlex⟩ := strip_json hf
  obtain ⟨d, hd, c, hc, hblank⟩ := hds
  have hmem : c ∈ ended ds := List.mem_flatMap.2 ⟨d, hd, List.mem_append_left _ hc⟩
  rw [hjoin, hnil rfl, List.append_nil, hobj]
  exact decode_fails (not_lexical_second (ended_nil_or ds) ⟨c, hmem, hblank⟩ hlex)

/-- A serialisation that is taken apart at a boundary is not decoded, whatever data lines follow. -/
private theorem decode_apart (hf : f.Valid lib.toStreamLib) {first rest : Text} {c : Char}
    (heq : f.json = first ++ c :: rest) (hc : isBoundary c = true) (ds more : List Text) :
    ∃ e, decodeSseFrame lib.toStreamLib (joinLines ((ds ++ [strip (' ' :: first)]) ++ more)) = .error e := by
  obtain ⟨members, hl, -⟩ := hf.encodes
  have hne := hf.json c (by simp [heq])
  have hlex : Lexical (' ' :: first ++ c :: rest) := by
    have hpadded := (lib.loadsText_lexical _ _ hl).padded [' '] [] (by simp [isBlank]) (by simp)
    rw [heq] at hpadded
    simpa using hpadded
  have hopen := hlex.within (refuses_of_isBoundary hc hne.1 hne.2)
  obtain ⟨left, right, hstrip, hleft, hright⟩ := strip_spec (' ' :: first)
  rw [hstrip, Ne, foldl_next_padded (fun c hc => ne_quote_of_isSpace (hleft c hc))
    fun c hc => ne_quote_of_isSpace (hright c hc)] at hopen
  obtain ⟨tail, hjoin, -, htail⟩ := joinLines_append ds (strip (' ' :: first)) more
  rw [List.append_assoc, List.singleton_append, hjoin]
  exact decode_fails (not_lexical_open (ended_nil_or ds) hopen htail)

/-! ### Lists of frames -/

private theorem idLine_plain (f : SseFrame) : ∀ c ∈ f.idLine, isBoundary c = false := by
  intro c hc
  rcases List.mem_append.1 hc with hc | hc
  · exact label_plain (by simp) c hc
  · exact not_isBoundary_of_isDigit (toString_digits hc)

private theorem splitlines_frame (hf : f.Valid lib.toStreamLib) (rest : Text) :
    splitlines (f.text ++ rest) = f.lines ++ splitlines rest := by
  have hid : ∀ c ∈ f.idLine, c ≠ '\r' := fun c hc => ne_return_of_plain (idLine_plain f c hc)
  have hevent : ∀ c ∈ f.eventLine, c ≠ '\r' := by
    intro c hc
    rcases List.mem_append.1 hc with hc | hc
    · exact ne_return_of_plain (label_plain (by simp) c hc)
    · exact (hf.eventType c hc).1
  have hdata : ∀ c ∈ f.dataLine, c ≠ '\r' := by
    intro c hc
    rcases List.mem_append.1 hc with hc | hc
    · exact ne_return_of_plain (label_plain (by simp) c hc)
    · exact (hf.json c hc).1
  have htext : f.text ++ rest =
      f.idLine ++ '\n' :: (f.eventLine ++ '\n' :: (f.dataLine ++ '\n' :: ([] ++ '\n' :: rest))) := by
    simp [SseFrame.text]
  rw [htext, splitlines_append hid, splitlines_append hevent, splitlines_append hdata, splitlines_append (by simp)]
  simp [SseFrame.lines]

/-- The first two lines leave what is behind the first boundary of the event type. -/
private theorem parseLines_frame (lib : StreamLib) (f : SseFrame) :
    parseLines lib [] f.lines = parseLines lib []
      ((f.eventType.toList.splitOnP isBoundary).tail ++ (f.dataLine.splitOnP isBoundary ++ [[]])) := by
  have hid : '\n' ∉ f.idLine := fun h => absurd (idLine_plain f _ h) (by decide)
  obtain ⟨first, pieces, hsplit, -, -⟩ := splitOnP_cases isBoundary f.eventType.toList
  have hmem : first ∈ f.eventType.toList.splitOnP isBoundary := by simp [hsplit]
  have hlabel : ∀ c ∈ "event: ".toList, isBoundary c = false := label_plain (by simp)
  have hevent : '\n' ∉ "event: ".toList ++ first := by
    intro h
    rcases List.mem_append.1 h with h | h
    · exact absurd (hlabel _ h) (by decide)
    · exact notMem_of_mem_splitOnP hmem h
  have hignored : dataPrefix.isPrefixOf f.idLine = false := isPrefixOf_id _
  have hmodify : f.eventLine.splitOnP isBoundary =
      (f.eventType.toList.splitOnP isBoundary).modifyHead ("event: ".toList ++ ·) := splitOnP_append hlabel
  have hline : f.eventLine.splitOnP isBoundary = ("event: ".toList ++ first) :: pieces := by
    rw [hmodify, hsplit]
    exact List.modifyHead_cons
  have hidne : f.idLine ≠ [] := List.append_ne_nil_of_left_ne_nil (by simp) _
  have heventne : "event: ".toList ++ first ≠ [] := List.append_ne_nil_of_left_ne_nil (by simp) _
  rw [SseFrame.lines, List.splitOnP_eq_singleton (idLine_plain f), hline, hsplit, List.tail_cons,
    List.singleton_append, parseLines_ignored hid hidne hignored, List.cons_append,
    parseLines_ignored hevent heventne (isPrefixOf_event _)]

/-- The line with the serialisation, up to its first boundary. -/
private theorem parseLines_dataLine (lib : StreamLib) (f : SseFrame) (ds : List Text) :
    ∃ first pieces, f.json.splitOnP isBoundary = first :: pieces ∧
      parseLines lib ds (f.dataLine.splitOnP isBoundary ++ [[]]) =
        parseLines lib (ds ++ [strip (' ' :: first)]) (pieces ++ [[]]) := by
  obtain ⟨first, pieces, hsplit, -, -⟩ := splitOnP_cases isBoundary f.json
  have hmem : first ∈ f.json.splitOnP isBoundary := by simp [hsplit]
  have hlabel : ∀ c ∈ "data: ".toList, isBoundary c = false := label_plain (by simp)
  have hdata : '\n' ∉ "data: ".toList ++ first := by
    intro h
    rcases List.mem_append.1 h with h | h
    · exact absurd (hlabel _ h) (by decide)
    · exact notMem_of_mem_splitOnP hmem h
  have hmodify : f.dataLine.splitOnP isBoundary =
      (f.json.splitOnP isBoundary).modifyHead ("data: ".toList ++ ·) := splitOnP_append hlabel
  have hline : f.dataLine.splitOnP isBoundary = ("data: ".toList ++ first) :: pieces := by
    rw [hmodify, hsplit]
    exact List.modifyHead_cons
  refine ⟨first, pieces, hsplit, ?_⟩
  rw [hline, List.cons_append, parseLines_data hdata (isPrefixOf_data _), drop_data]

/-- A readable frame is decoded. -/
private theorem parseLines_readable (hf : f.Valid lib.toStreamLib) (hr : f.Readable) :
    parseLines lib.toStreamLib [] f.lines = ([f.event], .ok []) := by
  obtain ⟨hjson, htype⟩ := hr
  have hplain : ∀ line ∈ (f.eventType.toList.splitOnP isBoundary).tail, '\n' ∉ line :=
    fun line hl => notMem_of_mem_splitOnP (List.mem_of_mem_tail hl)
  obtain ⟨ds, hds, hblank⟩ := (parseLines_harmless_iff lib.toStreamLib [] hplain).2
    ⟨by simp, by simp, htype⟩
  obtain ⟨first, pieces, hsplit, hdata⟩ := parseLines_dataLine lib.toStreamLib f ds
  rw [List.splitOnP_eq_singleton hjson] at hsplit
  obtain ⟨rfl, rfl⟩ := List.cons.inj hsplit
  rw [parseLines_frame]
  rcases parseLines_append lib.toStreamLib [] (f.eventType.toList.splitOnP isBoundary).tail
    (f.dataLine.splitOnP isBoundary ++ [[]]) with ⟨e, he, -⟩ | ⟨ds', hds', happ⟩
  · rw [hds] at he
    cases he
  · rw [hds] at hds'
    obtain rfl := Except.ok.inj hds'
    rw [happ, hds, hdata, List.nil_append, List.nil_append,
      parseLines_decoded (by simp) (decode_blank hf hblank)]
    rfl

/-- A frame that is not readable makes the parser fail, or yields a further event. -/
private theorem parseLines_unreadable (hf : f.Valid lib.toStreamLib) (hr : ¬ f.Readable) :
    (∃ e, (parseLines lib.toStreamLib [] f.lines).2 = .error e) ∨
      (parseLines lib.toStreamLib [] f.lines).2 = .ok [] ∧ 2 ≤ (parseLines lib.toStreamLib [] f.lines).1.length := by
  have hplain : ∀ line ∈ (f.eventType.toList.splitOnP isBoundary).tail, '\n' ∉ line :=
    fun line hl => notMem_of_mem_splitOnP (List.mem_of_mem_tail hl)
  rw [parseLines_frame]
  rcases parseLines_append lib.toStreamLib [] (f.eventType.toList.splitOnP isBoundary).tail
    (f.dataLine.splitOnP isBoundary ++ [[]]) with ⟨e, he, happ⟩ | ⟨ds, hds, happ⟩
  · exact Or.inl ⟨e, by rw [happ, he]⟩
  obtain ⟨first, pieces, hsplit, hdata⟩ := parseLines_dataLine lib.toStreamLib f ds
  have hpieces : ∀ line ∈ pieces, '\n' ∉ line := by
    intro line hl
    have hmem : line ∈ f.json.splitOnP isBoundary := by simp [hsplit, hl]
    exact notMem_of_mem_splitOnP hmem
  have hne : ds ++ [strip (' ' :: first)] ≠ [] := by simp
  rw [happ, hdata]
  obtain ⟨first', pieces', hsplit', hone, hmore⟩ := splitOnP_cases isBoundary f.json
  rw [hsplit] at hsplit'
  obtain ⟨rfl, rfl⟩ := List.cons.inj hsplit'
  by_cases hpiece : pieces = []
  · obtain ⟨rfl, hjson⟩ := hone hpiece
    subst hpiece
    by_cases hblank : ∀ d ∈ ds, d = []
    · -- the event type has yielded an event of its own
      refine Or.inr ?_
      have hevents : (parseLines lib.toStreamLib [] (f.eventType.toList.splitOnP isBoundary).tail).1 ≠ [] := by
        intro hnil
        refine hr ⟨hjson, ?_⟩
        have hharm := (parseLines_harmless_iff lib.toStreamLib [] hplain).1 ⟨ds, Prod.ext hnil hds, hblank⟩
        exact hharm.2.2
      rw [List.nil_append, parseLines_decoded hne (decode_blank hf hblank)]
      refine ⟨rfl, ?_⟩
      have hpos := List.length_pos_iff.2 hevents
      rw [List.length_append, List.length_cons]
      omega
    · -- a data line of the event type stands before the serialisation
      push Not at hblank
      obtain ⟨d, hd, hne'⟩ := hblank
      have hstripped := parseLines_stripped hplain (by simp) hds d hd hne'
      obtain ⟨e, he⟩ := decode_second hf ⟨d, hd, hstripped⟩
      rw [List.nil_append, parseLines_raised hne he]
      exact Or.inl ⟨e, rfl⟩
  · -- the serialisation is taken apart
    obtain ⟨c, rest, heq, hc⟩ := hmore hpiece
    exact Or.inl (parseLines_fails hne hpieces (decode_apart hf heq hc ds))

/-- The lines of the stream, frame by frame. -/
private theorem splitlines_frames {frames : List SseFrame} (h : ∀ f ∈ frames, f.Valid lib.toStreamLib) :
    splitlines (frames.flatMap SseFrame.text) = frames.flatMap SseFrame.lines := by
  induction frames with
  | nil => rfl
  | cons f frames ih =>
    have hf := h f (List.mem_cons_self ..)
    have hframes := ih fun f hf => h f (List.mem_cons_of_mem _ hf)
    rw [List.flatMap_cons, List.flatMap_cons, splitlines_frame hf, hframes]

/-- Readable frames are decoded one after the other. -/
private theorem parseSse_readable {frames : List SseFrame} (h : ∀ f ∈ frames, f.Valid lib.toStreamLib)
    (hr : ∀ f ∈ frames, f.Readable) :
    parseSse lib.toStreamLib (frames.flatMap SseFrame.lines) = (frames.map SseFrame.event, .ok []) := by
  induction frames with
  | nil => rfl
  | cons f frames ih =>
    have hfirst := parseLines_readable (h f (List.mem_cons_self ..)) (hr f (List.mem_cons_self ..))
    have hrest : parseLines lib.toStreamLib [] (frames.flatMap SseFrame.lines) =
        (frames.map SseFrame.event, .ok []) :=
      ih (fun f hf => h f (List.mem_cons_of_mem _ hf)) fun f hf => hr f (List.mem_cons_of_mem _ hf)
    rw [List.flatMap_cons, parseSse]
    rcases parseLines_append lib.toStreamLib [] f.lines (frames.flatMap SseFrame.lines) with
      ⟨e, he, -⟩ | ⟨ds, hds, happ⟩
    · rw [hfirst] at he
      cases he
    · rw [hfirst] at hds happ
      obtain rfl := Except.ok.inj hds
      rw [happ, hrest]
      rfl

/-- A stream that is parsed to its end yields at least an event for each frame, and more if one is not readable. -/
private theorem parseSse_counts {frames : List SseFrame} {ds : List Text} (h : ∀ f ∈ frames, f.Valid lib.toStreamLib)
    (hok : (parseSse lib.toStreamLib (frames.flatMap SseFrame.lines)).2 = .ok ds) :
    frames.length ≤ (parseSse lib.toStreamLib (frames.flatMap SseFrame.lines)).1.length ∧
      ((parseSse lib.toStreamLib (frames.flatMap SseFrame.lines)).1.length = frames.length →
        ∀ f ∈ frames, f.Readable) := by
  induction frames generalizing ds with
  | nil => exact ⟨Nat.zero_le _, fun _ f hf => absurd hf List.not_mem_nil⟩
  | cons f frames ih =>
    have hf := h f (List.mem_cons_self ..)
    have hframes : ∀ f ∈ frames, f.Valid lib.toStreamLib := fun f hf => h f (List.mem_cons_of_mem _ hf)
    rw [parseSse, List.flatMap_cons] at hok ⊢
    rcases parseLines_append lib.toStreamLib [] f.lines (frames.flatMap SseFrame.lines) with
      ⟨e, he, happ⟩ | ⟨ds', hds', happ⟩
    · rw [happ, he] at hok
      cases hok
    · rw [happ, List.length_append, List.length_cons]
      rw [happ] at hok
      by_cases hr : f.Readable
      · have hfirst := parseLines_readable hf hr
        rw [hfirst] at hds' ⊢
        obtain rfl := Except.ok.inj hds'
        obtain ⟨hle, heq⟩ := ih hframes hok
        rw [parseSse] at hle heq
        rw [List.length_singleton]
        refine ⟨by omega, fun hlen => ?_⟩
        exact List.forall_mem_cons.2 ⟨hr, heq (by omega)⟩
      · rcases parseLines_unreadable hf hr with ⟨e, he⟩ | ⟨hnil, htwo⟩
        · rw [he] at hds'
          cases hds'
        · rw [hnil] at hds'
          obtain rfl := Except.ok.inj hds'
          obtain ⟨hle, -⟩ := ih hframes hok
          rw [parseSse] at hle
          exact ⟨by omega, fun hlen => by omega⟩

/-- The events of a stream are decoded, each of them once and in order, exactly when its frames are readable. -/
theorem sse_decodes_iff (lib : JsonLib) (frames : List SseFrame) (h : ∀ f ∈ frames, f.Valid lib.toStreamLib) :
    ((parseSse lib.toStreamLib (splitlines (frames.flatMap SseFrame.text))).1 = frames.map SseFrame.event ∧
      ∃ ds, (parseSse lib.toStreamLib (splitlines (frames.flatMap SseFrame.text))).2 = .ok ds) ↔
    ∀ f ∈ frames, f.Readable := by
  rw [splitlines_frames h]
  constructor
  · rintro ⟨hevents, ds, hds⟩
    refine (parseSse_counts h hds).2 ?_
    rw [hevents, List.length_map]
  · intro hr
    rw [parseSse_readable h hr]
    exact ⟨rfl, [], rfl⟩

end

/-! ### A frame that is not decoded -/

/-- The text without the white space of JSON around it. -/
def trim (text : Text) : Text := (text.dropWhile isBlank).rdropWhile isBlank

private theorem trim_spec (text : Text) : ∃ left right, text = left ++ (trim text ++ right) ∧
    (∀ c ∈ left, isBlank c = true) ∧ ∀ c ∈ right, isBlank c = true := by
  refine ⟨text.takeWhile isBlank, (text.dropWhile isBlank).rtakeWhile isBlank, ?_, ?_, ?_⟩
  · rw [trim, List.rdropWhile_append_rtakeWhile, List.takeWhile_append_dropWhile]
  · exact fun c hc => List.mem_takeWhile_imp hc
  · exact fun c hc => List.mem_rtakeWhile_imp hc

private theorem trim_padded {left right : Text} (text : Text) (hleft : ∀ c ∈ left, isBlank c = true)
    (hright : ∀ c ∈ right, isBlank c = true) : trim (left ++ (text ++ right)) = trim text := by
  rw [trim, List.dropWhile_append_of_pos hleft, List.dropWhile_append, trim]
  split
  · next hempty =>
    rw [List.isEmpty_iff.1 hempty, List.dropWhile_eq_nil_iff.2 hright]
  · have hreverse : ∀ c ∈ right.reverse, isBlank c = true := fun c hc => hright c (List.mem_reverse.1 hc)
    rw [List.rdropWhile, List.rdropWhile, List.reverse_append, List.dropWhile_append_of_pos hreverse]

/-- A `json.loads` that knows one object, and the white space that may stand around it. -/
def objectLib (rest : Text) (members : List (String × Json)) (h : Lexical ('\x7b' :: rest)) : JsonLib where
  toStreamLib := { lotLib with
    loadsText := fun text => if trim text = '\x7b' :: rest then .ok (.obj members) else .error .jsonDecodeError }
  loadsText_lexical := by
    intro text v hv
    by_cases ht : trim text = '\x7b' :: rest
    · obtain ⟨left, right, heq, hleft, hright⟩ := trim_spec text
      rw [heq, ht]
      exact h.padded left right hleft hright
    · simp [ht] at hv
  loadsText_object := by
    intro text members' hv
    by_cases ht : trim text = '\x7b' :: rest
    · obtain ⟨left, right, heq, hleft, -⟩ := trim_spec text
      exact ⟨left, rest ++ right, by rw [heq, ht]; rfl, hleft⟩
    · simp [ht] at hv
  loadsText_padded := by
    intro left text right hleft hright
    simp only [trim_padded text hleft hright]

def titleBefore : Text := "\"seq\":7,\"event_type\":\"new_lot\",\"data\":\x7b\"title\":\"a".toList

def titleBehind : Text := "b\"\x7d\x7d".toList

/-- A lot whose title is of two lines, parted by U+2028, or of one. -/
def titleText (mark : Char) : Text :=
  titleBefore ++ mark :: titleBehind

def titleData (mark : Char) : List (String × Json) := [("title", .str (String.ofList ['a', mark, 'b']))]

def titleMembers (mark : Char) : List (String × Json) :=
  [("seq", .int 7), ("event_type", .str "new_lot"), ("data", .obj (titleData mark))]

def titleFrame (mark : Char) : SseFrame := ⟨7, "new_lot", titleData mark, '\x7b' :: titleText mark⟩

private theorem lexical_parted : Lexical ('\x7b' :: titleText '\u2028') := ⟨⟨.outside, 0, true⟩, rfl, rfl, rfl⟩

private theorem lexical_plain : Lexical ('\x7b' :: titleText ' ') := ⟨⟨.outside, 0, true⟩, rfl, rfl, rfl⟩

/-- No line ends in the title's frame but at the mark. -/
private theorem titleText_plain {mark c : Char} (h : c ∈ '\x7b' :: titleText mark) :
    c = mark ∨ isBoundary c = false := by
  have hbefore : ('\x7b' :: titleBefore).all (fun c => !isBoundary c) = true := rfl
  have hbehind : titleBehind.all (fun c => !isBoundary c) = true := rfl
  rcases List.mem_append.1 (show c ∈ ('\x7b' :: titleBefore) ++ mark :: titleBehind from h) with hc | hc
  · exact Or.inr (by simpa using List.all_eq_true.1 hbefore c hc)
  · rcases List.mem_cons.1 hc with hc | hc
    · exact Or.inl hc
    · exact Or.inr (by simpa using List.all_eq_true.1 hbehind c hc)

private theorem titleFrame_valid {mark : Char} (h : Lexical ('\x7b' :: titleText mark)) (hcr : mark ≠ '\r')
    (hlf : mark ≠ '\n') : (titleFrame mark).Valid (objectLib _ (titleMembers mark) h).toStreamLib where
  eventType := by
    have htype : "new_lot".toList.all (fun c => c ≠ '\r' ∧ c ≠ '\n') = true := rfl
    intro c hc
    exact of_decide_eq_true (List.all_eq_true.1 htype c hc)
  json := by
    intro c hc
    rcases titleText_plain hc with rfl | hplain
    · exact ⟨hcr, hlf⟩
    · exact ⟨ne_return_of_plain hplain, ne_newline_of_plain hplain⟩
  encodes := ⟨titleMembers mark, if_pos rfl, rfl, rfl, rfl⟩

/-- The title is taken apart, and nothing is decoded. -/
theorem sse_not_decoded :
    (titleFrame '\u2028').Valid (objectLib _ (titleMembers '\u2028') lexical_parted).toStreamLib ∧
      parseSse (objectLib _ (titleMembers '\u2028') lexical_parted).toStreamLib
        (splitlines ([titleFrame '\u2028'].flatMap SseFrame.text)) = ([], .error .sseProtocolError) :=
  ⟨titleFrame_valid _ (by decide) (by decide), rfl⟩

theorem sse_decodes_plain :
    (parseSse (objectLib _ (titleMembers ' ') lexical_plain).toStreamLib
      (splitlines ([titleFrame ' '].flatMap SseFrame.text))).1 = [(titleFrame ' ').event] := by
  have hvalid := titleFrame_valid lexical_plain (by decide) (by decide)
  refine ((sse_decodes_iff _ [titleFrame ' '] ?_).2 ?_).1
  · intro f hf
    rwa [List.mem_singleton.1 hf]
  · intro f hf
    rw [List.mem_singleton.1 hf]
    refine ⟨fun c hc => ?_, trivial⟩
    rcases titleText_plain hc with rfl | hplain
    · decide
    · exact hplain

end EventusSdk

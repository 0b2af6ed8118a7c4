import EventusSdk.Sse
import EventusSdk.Lib.JsonTokens

/-!
# The layout of an event stream

A server may lay out a frame as it likes: the payload on several data lines, cut anywhere between two tokens, with
spaces and tabs around the pieces, and lines of other fields or comments among them; between frames there may be
further blank lines.  The stream may end after any line.

`_parse_sse` strips the pieces and puts them together again with line feeds, which leaves the tokens of the payload as
they were.  So it yields the events of the frames that were received with their blank line, one after the other, and
nothing of a frame that was not.
-/

namespace EventusSdk

open JsonText

/-- What `json.loads` is known for: texts of the same tokens are the same value, whatever white space is between. -/
structure TokenLib extends StreamLib where
  loadsText_tokens : ∀ text text' v ts, loadsText text = .ok v → tokens text = some ts → tokens text' = some ts →
    loadsText text' = .ok v

/-! ### Lines, frames and streams -/

/-- A line that is not blank and has no data: another field, or a comment. -/
structure OtherLine where
  text : Text
  ne_nil : text ≠ []
  not_data : dataPrefix.isPrefixOf text = false

/-- A piece of a payload, and the spaces and tabs around it. -/
structure DataLine where
  left : Text
  piece : Text
  right : Text
  left_padding : ∀ c ∈ left, c = ' ' ∨ c = '\t'
  right_padding : ∀ c ∈ right, c = ' ' ∨ c = '\t'

def DataLine.value (d : DataLine) : Text := d.left ++ (d.piece ++ d.right)

inductive FrameLine where
  | data (d : DataLine)
  | other (o : OtherLine)

namespace FrameLine

def text : FrameLine → Text
  | data d => dataPrefix ++ d.value
  | other o => o.text

def dataLine : FrameLine → Option DataLine
  | data d => some d
  | other _ => none

end FrameLine

/-- A frame, and the lines before the blank one that ends it. -/
structure FrameLayout (lib : StreamLib) where
  frame : SseFrame
  lines : List FrameLine
  data_ne_nil : lines.filterMap FrameLine.dataLine ≠ []
  payload : ((lines.filterMap FrameLine.dataLine).map DataLine.piece).flatten = frame.json
  split : SplitBetweenTokens ((lines.filterMap FrameLine.dataLine).map DataLine.piece)
  encodes : ∃ members, lib.loadsText frame.json = .ok (.obj members) ∧ members.lookup "seq" = some (.int frame.seq) ∧
    members.lookup "event_type" = some (.str frame.eventType) ∧ members.lookup "data" = some (.obj frame.data)

/-- A frame of a stream, or a line between frames. -/
inductive StreamItem (lib : StreamLib) where
  | blank
  | other (o : OtherLine)
  | frame (f : FrameLayout lib)

namespace StreamItem
variable {lib : StreamLib}

def lines : StreamItem lib → List Text
  | blank => [[]]
  | other o => [o.text]
  | frame f => f.lines.map FrameLine.text ++ [[]]

def events : StreamItem lib → List ClientEvent
  | frame f => [f.frame.event]
  | _ => []

end StreamItem

/-- The events of the frames that end within the first `n` lines. -/
def keptEvents {lib : StreamLib} : List (StreamItem lib) → ℕ → List ClientEvent
  | [], _ => []
  | item :: items, n =>
    if item.lines.length ≤ n then item.events ++ keptEvents items (n - item.lines.length) else []

/-- The other fields of an event stream, and comments. -/
private theorem other_of_label {label : String} (h : label ∈ ["id:", "event:", "retry:", ":"]) (text : Text) :
    label.toList ++ text ≠ [] ∧ dataPrefix.isPrefixOf (label.toList ++ text) = false := by
  simp only [List.mem_cons, List.not_mem_nil, or_false] at h
  rcases h with rfl | rfl | rfl | rfl <;> exact ⟨List.cons_ne_nil _ _, rfl⟩

/-! ### The tokens of a payload -/

private theorem isOutlying_of_isSpace {c : Char} (h : isSpace c = true) : isOutlying c = true := by
  rw [isOutlying, Bool.or_eq_true]
  cases hr : Mode.outside.refuses c with
  | true => exact Or.inr rfl
  | false => exact Or.inl (isBlank_of_isSpace h hr)

private theorem isBlank_of_padding {c : Char} (h : c = ' ' ∨ c = '\t') : isBlank c = true := by
  rcases h with rfl | rfl <;> rfl

/-- What is left of a data line when it is stripped has the tokens of its piece. -/
private theorem DataLine.tokens_strip {d : DataLine} {ts : List Text} (h : tokens d.piece = some ts) :
    tokens (strip d.value) = some ts := by
  have hvalue : tokens d.value = some ts := by
    rw [DataLine.value, tokens_padded _ (fun c hc => isBlank_of_padding (d.left_padding c hc))
      fun c hc => isBlank_of_padding (d.right_padding c hc), h]
  obtain ⟨left, right, heq, hleft, hright⟩ := strip_spec d.value
  rw [heq] at hvalue
  exact tokens_of_padded (fun c hc => isOutlying_of_isSpace (hleft c hc))
    (fun c hc => isOutlying_of_isSpace (hright c hc)) hvalue

/-- Pieces put together with line feeds keep their tokens. -/
private theorem tokens_joinLines {ds : List Text} {tss : List (List Text)}
    (h : List.Forall₂ (fun d ts => tokens d = some ts) ds tss) : tokens (joinLines ds) = some tss.flatten := by
  induction h with
  | nil => rfl
  | @cons d ts ds tss hd hds ih =>
    cases hds with
    | nil => rw [joinLines, hd, List.flatten_cons, List.flatten_nil, List.append_nil]
    | cons => exact tokens_append_newline hd ih

/-- The data lines of a frame, stripped and put together, are decoded to its event. -/
theorem FrameLayout.decoded {lib : TokenLib} (f : FrameLayout lib.toStreamLib) :
    decodeSseFrame lib.toStreamLib (joinLines ((f.lines.filterMap FrameLine.dataLine).map (strip ·.value))) =
      .ok f.frame.event := by
  obtain ⟨tss, hpieces, hwhole⟩ := f.split
  obtain ⟨members, hl, hencodes⟩ := f.encodes
  have hstripped : List.Forall₂ (fun d ts => tokens d = some ts)
      ((f.lines.filterMap FrameLine.dataLine).map (strip ·.value)) tss := by
    rw [List.forall₂_map_left_iff] at hpieces ⊢
    exact hpieces.imp fun d ts h => d.tokens_strip h
  rw [f.payload] at hwhole
  have hloads := lib.loadsText_tokens _ _ _ _ hl hwhole (tokens_joinLines hstripped)
  exact decode_members hloads hencodes

/-! ### Runs of the parser -/

section
variable {lib : StreamLib} {ds rest : List Text}

/-- The line feeds behind the lines do not matter. -/
theorem parseLines_rstrip (lib : StreamLib) (ds lines : List Text) :
    parseLines lib ds lines = parseLines lib ds (lines.map rstripNewline) := by
  induction lines generalizing ds with
  | nil => rfl
  | cons line lines ih =>
    have hline : rstripNewline (rstripNewline line) = rstripNewline line := List.rdropWhile_idempotent ..
    rw [List.map_cons, parseLines, parseLines, hline]
    simp only [← ih]

private theorem parseLines_other (o : OtherLine) (h : rstripNewline o.text = o.text) :
    parseLines lib ds (o.text :: rest) = parseLines lib ds rest := by
  simp [parseLines, h, o.ne_nil, o.not_data]

private theorem parseLines_value (d : DataLine) (h : rstripNewline (dataPrefix ++ d.value) = dataPrefix ++ d.value) :
    parseLines lib ds ((dataPrefix ++ d.value) :: rest) = parseLines lib (ds ++ [strip d.value]) rest := by
  have hne : dataPrefix ++ d.value ≠ [] := List.append_ne_nil_of_left_ne_nil (List.cons_ne_nil _ _) _
  have hp : dataPrefix.isPrefixOf (dataPrefix ++ d.value) = true :=
    List.isPrefixOf_iff_prefix.2 (List.prefix_append ..)
  simp [parseLines, h, hne, hp]

/-- The pieces of a frame are collected, stripped, and its other lines are skipped. -/
private theorem parseLines_frameLines {lines : List FrameLine} (h : ∀ l ∈ lines, rstripNewline l.text = l.text) :
    parseLines lib ds (lines.map FrameLine.text ++ rest) =
      parseLines lib (ds ++ (lines.filterMap FrameLine.dataLine).map (strip ·.value)) rest := by
  induction lines generalizing ds with
  | nil => simp
  | cons l lines ih =>
    have hline := h l (List.mem_cons_self ..)
    have hlines : ∀ l ∈ lines, rstripNewline l.text = l.text := fun l hl => h l (List.mem_cons_of_mem _ hl)
    rw [List.map_cons, List.cons_append]
    cases l with
    | data d =>
      rw [FrameLine.text, parseLines_value d hline, ih hlines, List.append_assoc]
      rfl
    | other o =>
      rw [FrameLine.text, parseLines_other o hline, ih hlines]
      rfl

/-- The first lines of a frame raise nothing, and yield no event without the blank line. -/
private theorem parseLines_unfinished {f : FrameLayout lib} {n : ℕ} (hn : n ≤ f.lines.length)
    (h : ∀ l ∈ f.lines, rstripNewline l.text = l.text) :
    ∃ ds, parseLines lib [] ((f.lines.map FrameLine.text ++ [[]]).take n) = ([], .ok ds) := by
  have hcut : (f.lines.map FrameLine.text ++ [[]]).take n = (f.lines.take n).map FrameLine.text ++ [] := by
    rw [List.take_append_of_le_length (by rwa [List.length_map]), List.map_take, List.append_nil]
  rw [hcut, parseLines_frameLines fun l hl => h l (List.mem_of_mem_take hl)]
  exact ⟨_, rfl⟩

end

section
variable {lib : TokenLib}

/-- The lines of an item yield its events, and nothing is left over. -/
theorem parseLines_item {item : StreamItem lib.toStreamLib} {rest : List Text}
    (h : ∀ line ∈ item.lines, rstripNewline line = line) :
    parseLines lib.toStreamLib [] (item.lines ++ rest) =
      (item.events ++ (parseLines lib.toStreamLib [] rest).1, (parseLines lib.toStreamLib [] rest).2) := by
  cases item with
  | blank => exact parseLines_blank
  | other o => exact parseLines_other o (h _ (List.mem_singleton_self _))
  | frame f =>
    have hlines : ∀ l ∈ f.lines, rstripNewline l.text = l.text :=
      fun l hl => h _ (List.mem_append_left _ (List.mem_map_of_mem hl))
    have hne : [] ++ (f.lines.filterMap FrameLine.dataLine).map (strip ·.value) ≠ [] := by simpa using f.data_ne_nil
    have hdecoded : decodeSseFrame lib.toStreamLib
        (joinLines ([] ++ (f.lines.filterMap FrameLine.dataLine).map (strip ·.value))) = .ok f.frame.event := f.decoded
    rw [StreamItem.lines, List.append_assoc, parseLines_frameLines hlines, List.singleton_append,
      parseLines_decoded hne hdecoded]
    rfl

/-- An item that is cut yields nothing. -/
private theorem parseLines_cut {item : StreamItem lib.toStreamLib} {n : ℕ} (hn : n < item.lines.length)
    (h : ∀ line ∈ item.lines, rstripNewline line = line) :
    ∃ ds, parseLines lib.toStreamLib [] (item.lines.take n) = ([], .ok ds) := by
  cases item with
  | blank =>
    obtain rfl := Nat.lt_one_iff.1 hn
    exact ⟨[], rfl⟩
  | other o =>
    obtain rfl := Nat.lt_one_iff.1 hn
    exact ⟨[], rfl⟩
  | frame f =>
    have hlen : n ≤ f.lines.length := by simpa [StreamItem.lines, Nat.lt_succ_iff] using hn
    exact parseLines_unfinished hlen fun l hl => h _ (List.mem_append_left _ (List.mem_map_of_mem hl))

/-- Of the first lines of a stream come the events of the frames that end within them. -/
private theorem parseLines_items {items : List (StreamItem lib.toStreamLib)}
    (h : ∀ line ∈ items.flatMap StreamItem.lines, rstripNewline line = line) (n : ℕ) :
    ∃ ds, parseLines lib.toStreamLib [] ((items.flatMap StreamItem.lines).take n) = (keptEvents items n, .ok ds) := by
  induction items generalizing n with
  | nil => exact ⟨[], by rw [List.flatMap_nil, List.take_nil]; rfl⟩
  | cons item items ih =>
    rw [List.flatMap_cons] at h ⊢
    have hitem : ∀ line ∈ item.lines, rstripNewline line = line := fun line hl => h line (List.mem_append_left _ hl)
    have hitems := ih fun line hl => h line (List.mem_append_right _ hl)
    rw [keptEvents]
    by_cases hn : item.lines.length ≤ n
    · obtain ⟨ds, hds⟩ := hitems (n - item.lines.length)
      rw [List.take_append, List.take_of_length_le hn, parseLines_item hitem, hds, if_pos hn]
      exact ⟨ds, rfl⟩
    · rw [Nat.not_le] at hn
      rw [List.take_append_of_le_length hn.le, if_neg (Nat.not_le.2 hn)]
      exact parseLines_cut hn hitem

/-- However the frames are laid out, and after whichever line the stream ends, the events are those of the frames whose
blank line was received, in order. -/
theorem parseSse_layout (lib : TokenLib) (items : List (StreamItem lib.toStreamLib)) (rawLines : List Text)
    (h : rawLines.map rstripNewline = items.flatMap StreamItem.lines) (n : ℕ) :
    (parseSse lib.toStreamLib (rawLines.take n)).1 = keptEvents items n ∧
      ∃ ds, (parseSse lib.toStreamLib (rawLines.take n)).2 = .ok ds := by
  have hstripped : ∀ line ∈ items.flatMap StreamItem.lines, rstripNewline line = line := by
    intro line hl
    rw [← h] at hl
    obtain ⟨raw, -, rfl⟩ := List.mem_map.1 hl
    exact List.rdropWhile_idempotent ..
  obtain ⟨ds, hds⟩ := parseLines_items hstripped n
  rw [parseSse, parseLines_rstrip, List.map_take, h, hds]
  exact ⟨rfl, ds, rfl⟩

end

/-! ### One frame twice, the second time cut -/

/-- A `json.loads` that knows one object, however it is spaced. -/
def spacedLib (text : Text) (members : List (String × Json)) : TokenLib where
  toStreamLib := { lotLib with
    loadsText := fun text' => if tokens text' = tokens text then .ok (.obj members) else .error .jsonDecodeError }
  loadsText_tokens := by
    intro text₁ text₂ v ts hv h₁ h₂
    simp only [h₁] at hv
    simp only [h₂, hv]

private theorem spacedLib_loadsText (text : Text) (members : List (String × Json)) :
    (spacedLib text members).loadsText text = .ok (.obj members) := if_pos rfl

def titleLib : TokenLib := spacedLib ('\x7b' :: titleText ' ') (titleMembers ' ')

def field (label : String) (h : label ∈ ["id:", "event:", "retry:", ":"]) (value : String) : OtherLine where
  text := label.toList ++ value.toList
  ne_nil := (other_of_label h _).1
  not_data := (other_of_label h _).2

/-- The lot with a title, on two data lines. -/
def titleLayout : FrameLayout titleLib.toStreamLib where
  frame := titleFrame ' '
  lines := [
    .data ⟨[' '], "\x7b\"seq\":7,\"event_type\"".toList, ['\t'], by simp, by simp⟩,
    .other (field "event:" (by simp) "new_lot"),
    .data ⟨[], ":\"new_lot\",\"data\":\x7b\"title\":\"a b\"\x7d\x7d".toList, [' '], by simp, by simp⟩]
  data_ne_nil := List.cons_ne_nil _ _
  payload := rfl
  split := ⟨_, .cons rfl (.cons rfl .nil), rfl⟩
  encodes := ⟨titleMembers ' ', spacedLib_loadsText _ _, rfl, rfl, rfl⟩

def titleItems : List (StreamItem titleLib.toStreamLib) :=
  [.other (field ":" (by simp) " connected"), .frame titleLayout, .blank, .frame titleLayout]

theorem parseSse_layout_title :
    (parseSse titleLib.toStreamLib
      (((titleItems.flatMap StreamItem.lines).map (· ++ ['\n'])).take 9)).1 = [(titleFrame ' ').event] :=
  (parseSse_layout titleLib titleItems _ rfl 9).1

end EventusSdk

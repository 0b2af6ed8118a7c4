import EventusSdk.SseLayout
import EventusSdk.Wire

/-!
# The SSE source, line by line

The chunks of `SSESource` are lines, of which `_parse_sse` makes an event now and then.  The server writes frames that
it lays out as it likes, and a connection ends after any line.
-/

namespace EventusSdk

open Transition

/-! ### One line -/

/-- The body of the loop of `_parse_sse`: the event it yields, if it does, and the data lines it has collected then. -/
def readLine (lib : StreamLib) (dataLines : List Text) (rawLine : Text) :
    Except Exn (Option ClientEvent × List Text) :=
  let line := rstripNewline rawLine
  if line = [] then
    if dataLines = [] then .ok (none, [])
    else (decodeSseFrame lib (joinLines dataLines)).map fun event => (some event, [])
  else if dataPrefix.isPrefixOf line then .ok (none, dataLines ++ [strip (line.drop dataPrefix.length)])
  else .ok (none, dataLines)

/-- The state is `data_lines`. -/
def sseDecoder (lib : StreamLib) : Decoder (List Text) Text Exn ClientEvent := ⟨[], readLine lib⟩

/-- `_parse_sse` reads line after line. -/
private theorem parseLines_eq (lib : StreamLib) (ds ls : List Text) :
    parseLines lib ds ls = (sseDecoder lib).decode ds ls := by
  induction ls generalizing ds with
  | nil => rfl
  | cons line ls ih =>
    rw [parseLines]
    simp only [ih]
    have hread : (sseDecoder lib).read ds line = readLine lib ds line := rfl
    unfold readLine at hread
    by_cases hline : rstripNewline line = []
    · by_cases hds : ds = []
      · simp only [hline, hds, if_true] at hread ⊢
        exact (Decoder.decode_read hread).symm
      · simp only [hline, hds, if_true, if_false] at hread ⊢
        cases hd : decodeSseFrame lib (joinLines ds) with
        | ok event =>
          rw [hd] at hread
          exact (Decoder.decode_read hread).symm
        | error e =>
          rw [hd] at hread
          exact (Decoder.decode_read_error hread).symm
    · cases hp : dataPrefix.isPrefixOf (rstripNewline line) with
      | true =>
        simp only [hline, hp, if_true, if_false] at hread ⊢
        exact (Decoder.decode_read hread).symm
      | false =>
        simp only [hline, hp, if_false, Bool.false_eq_true] at hread ⊢
        exact (Decoder.decode_read hread).symm

/-! ### Frames on the wire -/

def StreamItem.event {lib : StreamLib} : StreamItem lib → Option ClientEvent
  | frame f => some f.frame.event
  | _ => none

private theorem StreamItem.events_eq {lib : StreamLib} (item : StreamItem lib) : item.events = item.event.toList := by
  cases item <;> rfl

/-- The lines of an item, each with the line feeds it may have at its end. -/
def sseFraming (lib : TokenLib) : (sseDecoder lib.toStreamLib).Framing (StreamItem lib.toStreamLib) where
  value := StreamItem.event
  Writes := fun item rawLines => rawLines.map rstripNewline = item.lines
  decoded := by
    intro item rawLines hraw
    have hlines : ∀ line ∈ item.lines, rstripNewline line = line := by
      intro line hl
      rw [← hraw] at hl
      obtain ⟨raw, -, rfl⟩ := List.mem_map.1 hl
      exact List.rdropWhile_idempotent ..
    show (sseDecoder lib.toStreamLib).decode [] rawLines = (item.event.toList, .ok [])
    rw [← parseLines_eq, parseLines_rstrip, hraw, ← List.append_nil item.lines, parseLines_item hlines, item.events_eq]
    simp [parseLines]

private theorem title_lines :
    ∃ path, Run (sellerStream.WireStep (sseFraming titleLib)) (.start [(titleFrame ' ').event] 0) path ∧
      (last (WireState.start [(titleFrame ' ').event] 0) path).source.pc = .feeding (titleFrame ' ').event := by
  have hdecoded : readLine titleLib.toStreamLib
      ((titleLayout.lines.filterMap FrameLine.dataLine).map (strip ·.value)) [] =
        .ok (some (titleFrame ' ').event, []) := by
    have h := titleLayout.decoded
    unfold readLine
    rw [if_pos (by decide), if_neg (by decide), h]
    rfl
  exact ⟨[(.event (.source .run), _), (.event (.source (.resumed _)), _), (.event (.source .connected), _),
    (.write (.frame titleLayout), _), (.chunk, _), (.chunk, _), (.chunk, _), (.event (.source (.yielded _)), _)],
    ⟨.aside trivial (.run (.run trivial)), .aside trivial (.resumed (le_refl 0) (.resumed _ rfl rfl)),
      .connected rfl (.connected rfl),
      .write rfl (show (StreamItem.frame titleLayout).lines.map rstripNewline = _ by decide) ⟨[], rfl⟩,
      .read rfl rfl rfl rfl, .read rfl rfl rfl rfl, .read rfl rfl rfl rfl, .yielded rfl rfl hdecoded (.yielded _ rfl),
      trivial⟩, rfl⟩

end EventusSdk

import DeviceMessages.CommandLine.Report
import DeviceMessages.Proofs.Text.Span
import DeviceMessages.Proofs.Text.Utf8
import Mathlib.Data.List.Basic

/-!
# Lines of input

The standard input is bytes, and so are its lines (`HasLines`): what stands before each line feed,
without one carriage return at its end, and what is left after the last line feed. A carriage
return in any other place belongs to its line.

The program reads the whole input as text before it looks for lines. Neither the line feed nor the
carriage return is a byte of any other character, so the lines of a text are the same either way
(`HasLines.eq_map_linesOf`), and the whole is text exactly if all of its lines are
(`HasLines.exists_not_text_iff`).
-/

namespace DeviceMessages.CommandLine

open Text (utf8 ofUtf8? joinWith splitOn)

/-! ## The lines of bytes -/

/-- The bytes of a line without a carriage return at their end. -/
def withoutReturn (line : Bytes) : Bytes :=
  if line.getLast? = some 0x0D then line.dropLast else line

/-- Bytes and their lines. -/
inductive HasLines : Bytes → List Bytes → Prop
  | nil : HasLines [] []
  /-- What comes after the last line feed is a line as it is. -/
  | last {line : Bytes} (hne : line ≠ []) (hline : 0x0A ∉ line) : HasLines line [line]
  | ended {line rest : Bytes} {lines : List Bytes} (hline : 0x0A ∉ line)
      (h : HasLines rest lines) : HasLines (line ++ 0x0A :: rest) (withoutReturn line :: lines)

/-- All bytes have lines. -/
theorem exists_hasLines (input : Bytes) : ∃ lines, HasLines input lines := by
  induction input with
  | nil => exact ⟨[], .nil⟩
  | cons b input ih =>
      obtain ⟨lines, hlines⟩ := ih
      by_cases hb : b = 0x0A
      · rw [hb]
        have hended : HasLines ([] ++ 0x0A :: input) _ := .ended List.not_mem_nil hlines
        exact ⟨_, hended⟩
      · have hcons : ∀ {line : Bytes}, 0x0A ∉ line → 0x0A ∉ b :: line := by
          intro line hline hmem
          rcases List.mem_cons.1 hmem with heq | hmem
          · exact hb heq.symm
          · exact hline hmem
        cases hlines with
        | nil => exact ⟨_, .last (List.cons_ne_nil b []) (hcons List.not_mem_nil)⟩
        | last hne hline => exact ⟨_, .last (List.cons_ne_nil b input) (hcons hline)⟩
        | @ended line rest lines hline h =>
            have hended : HasLines (b :: line ++ 0x0A :: rest) _ := .ended (hcons hline) h
            exact ⟨_, hended⟩

variable {input : Bytes} {lines : List Bytes}

/-- What stands before the first line feed is settled, and so is what comes after it. -/
theorem eq_of_append_lineFeed {line line' rest rest' : Bytes} (hline : 0x0A ∉ line)
    (hline' : 0x0A ∉ line') (h : line ++ 0x0A :: rest = line' ++ 0x0A :: rest') :
    line = line' ∧ rest = rest' := by
  induction line generalizing line' with
  | nil =>
      cases line' with
      | nil => exact ⟨rfl, List.tail_eq_of_cons_eq h⟩
      | cons b line' =>
          have hb := List.head_eq_of_cons_eq h
          exact absurd (hb ▸ List.mem_cons_self) hline'
  | cons b line ih =>
      cases line' with
      | nil =>
          have hb := List.head_eq_of_cons_eq h
          exact absurd (hb ▸ List.mem_cons_self) hline
      | cons b' line' =>
          obtain ⟨hsame, hrest⟩ := ih (List.not_mem_of_not_mem_cons hline)
            (List.not_mem_of_not_mem_cons hline') (List.tail_eq_of_cons_eq h)
          rw [hsame, List.head_eq_of_cons_eq h]
          exact ⟨rfl, hrest⟩

/-- There is only one way to take bytes for lines. -/
theorem HasLines.unique {others : List Bytes} (h : HasLines input lines)
    (hothers : HasLines input others) : lines = others := by
  have hmem : ∀ line rest : Bytes, (0x0A : UInt8) ∈ line ++ 0x0A :: rest :=
    fun line rest => List.mem_append_right line List.mem_cons_self
  induction h generalizing others with
  | nil =>
      generalize hinput : ([] : Bytes) = bytes at hothers
      cases hothers with
      | nil => rfl
      | last hne => exact absurd hinput.symm hne
      | ended => simp at hinput
  | @last line hne hline =>
      generalize hinput : line = bytes at hothers
      cases hothers with
      | nil => exact absurd hinput hne
      | last => rfl
      | @ended line' rest => exact absurd (hinput ▸ hmem line' rest) hline
  | @ended line rest lines hline h ih =>
      generalize hinput : line ++ 0x0A :: rest = bytes at hothers
      cases hothers with
      | nil => simp at hinput
      | last _ hline' => exact absurd (hinput ▸ hmem line rest) hline'
      | @ended line' rest' others hline' h' =>
          obtain ⟨hsame, hrest⟩ := eq_of_append_lineFeed hline hline' hinput
          rw [hsame, ih (hrest ▸ h')]

/-! ## The lines of a text -/

theorem linesOf_of_notMem {cs : List Char} (h : '\n' ∉ cs) :
    linesOf cs = if cs = [] then [] else [String.ofList cs] := by
  unfold linesOf
  rw [Text.splitOn_of_notMem h]
  cases cs with
  | nil => rfl
  | cons c cs => rfl

theorem linesOf_append_cons {line : List Char} (h : '\n' ∉ line) (cs : List Char) :
    linesOf (line ++ '\n' :: cs) = String.ofList (dropReturn line) :: linesOf cs := by
  obtain ⟨part, parts, hparts⟩ := List.exists_cons_of_ne_nil (Text.splitOn_ne_nil '\n' cs)
  unfold linesOf
  rw [Text.splitOn_append_cons h, hparts]
  rfl

theorem utf8_ofList (cs : List Char) :
    utf8 (String.ofList cs) = cs.flatMap String.utf8EncodeChar := by
  rw [utf8, String.toList_ofList]

theorem lineFeed_notMem_utf8 {cs : List Char} (h : '\n' ∉ cs) :
    0x0A ∉ utf8 (String.ofList cs) := by
  intro hmem
  refine h ?_
  have hchar := Text.mem_toList_of_mem_utf8 (c := '\n') (by decide) hmem
  rwa [String.toList_ofList] at hchar

/-- The carriage return at the end of a line of text is the one at the end of its bytes. -/
theorem withoutReturn_utf8 (line : List Char) :
    withoutReturn (utf8 (String.ofList line)) = utf8 (String.ofList (dropReturn line)) := by
  unfold withoutReturn dropReturn
  rcases List.eq_nil_or_concat' line with rfl | ⟨front, c, rfl⟩
  · rfl
  · by_cases hc : c = '\r'
    · have hreturn : String.utf8EncodeChar '\r' = [0x0D] :=
        Text.utf8EncodeChar_of_ascii (by decide)
      have hbytes : utf8 (String.ofList (front ++ ['\r'])) =
          utf8 (String.ofList front) ++ [0x0D] := by
        rw [utf8_ofList, utf8_ofList, List.flatMap_append, List.flatMap_singleton, hreturn]
      rw [hc, hbytes, if_pos List.getLast?_concat, List.dropLast_concat,
        if_pos List.getLast?_concat, List.dropLast_concat]
    · have hnot : (utf8 (String.ofList (front ++ [c]))).getLast? ≠ some 0x0D := by
        intro hlast
        refine hc ?_
        rw [utf8_ofList, List.flatMap_append, List.flatMap_singleton,
          List.getLast?_append_of_ne_nil _ String.utf8EncodeChar_ne_nil] at hlast
        have hbyte : '\r'.toUInt8 ∈ utf8 (String.singleton c) := by
          rw [utf8, String.toList_singleton, List.flatMap_singleton]
          exact List.mem_of_getLast? hlast
        have hchar := Text.mem_toList_of_mem_utf8 (by decide) hbyte
        rw [String.toList_singleton, List.mem_singleton] at hchar
        exact hchar.symm
      have hline : (front ++ [c]).getLast? ≠ some '\r' := by
        rw [List.getLast?_concat]
        exact fun heq => hc (Option.some.inj heq)
      rw [if_neg hnot, if_neg hline]

/-- The lines of a text are those of its bytes, one part of the text after the other. -/
theorem hasLines_joinWith (parts : List (List Char)) (hparts : ∀ part ∈ parts, '\n' ∉ part) :
    HasLines (utf8 (String.ofList (joinWith '\n' parts)))
      ((linesOf (joinWith '\n' parts)).map utf8) := by
  induction parts with
  | nil => exact .nil
  | cons part parts ih =>
      have hpart := hparts part List.mem_cons_self
      cases parts with
      | nil =>
          show HasLines (utf8 (String.ofList part)) ((linesOf part).map utf8)
          rw [linesOf_of_notMem hpart]
          by_cases hnil : part = []
          · rw [hnil]
            exact .nil
          · rw [if_neg hnil]
            refine .last ?_ (lineFeed_notMem_utf8 hpart)
            rw [utf8_ofList, ne_eq, List.flatMap_eq_nil_iff]
            intro hall
            obtain ⟨c, others, rfl⟩ := List.exists_cons_of_ne_nil hnil
            exact String.utf8EncodeChar_ne_nil (hall c List.mem_cons_self)
      | cons other parts =>
          have hrest := ih fun q hq => hparts q (List.mem_cons_of_mem part hq)
          have hended := HasLines.ended (lineFeed_notMem_utf8 hpart) hrest
          have hfeed : String.utf8EncodeChar '\n' = [0x0A] :=
            Text.utf8EncodeChar_of_ascii (by decide)
          have hbytes : utf8 (String.ofList (part ++ '\n' :: joinWith '\n' (other :: parts))) =
              utf8 (String.ofList part) ++ 0x0A :: utf8 (String.ofList
                (joinWith '\n' (other :: parts))) := by
            simp only [utf8_ofList, List.flatMap_append, List.flatMap_cons, hfeed,
              List.singleton_append]
          show HasLines (utf8 (String.ofList (part ++ '\n' :: joinWith '\n' (other :: parts))))
            ((linesOf (part ++ '\n' :: joinWith '\n' (other :: parts))).map utf8)
          rw [linesOf_append_cons hpart, List.map_cons, hbytes, ← withoutReturn_utf8]
          exact hended

/-- The lines of a text are those that the program takes from it. -/
theorem HasLines.eq_map_linesOf {text : String} (h : HasLines (utf8 text) lines) :
    lines = (linesOf text.toList).map utf8 := by
  have hparts := hasLines_joinWith (splitOn '\n' text.toList)
    fun _ hpart => Text.notMem_of_mem_splitOn hpart
  rw [Text.joinWith_splitOn, String.ofList_toList] at hparts
  exact h.unique hparts

/-- Bytes are text if all of their lines are. -/
theorem HasLines.exists_text (h : HasLines input lines)
    (hlines : ∀ line ∈ lines, ∃ text, line = utf8 text) : ∃ text, input = utf8 text := by
  induction h with
  | nil => exact ⟨"", rfl⟩
  | last => exact hlines _ List.mem_cons_self
  | @ended line rest lines hline h ih =>
      obtain ⟨text, htext⟩ := hlines _ List.mem_cons_self
      obtain ⟨others, hothers⟩ := ih fun l hl => hlines l (List.mem_cons_of_mem _ hl)
      have hwhole : ∃ whole, line = utf8 whole := by
        unfold withoutReturn at htext
        split at htext
        · next hlast =>
            refine ⟨text ++ "\r", ?_⟩
            rw [Text.utf8_append, ← htext]
            exact (List.dropLast_append_getLast? _ hlast).symm
        · exact ⟨text, htext⟩
      obtain ⟨whole, hwhole⟩ := hwhole
      refine ⟨whole ++ "\n" ++ others, ?_⟩
      rw [Text.utf8_append, Text.utf8_append, ← hwhole, ← hothers, List.append_assoc]
      rfl

/-- Bytes are no text if and only if some line of them is none. -/
theorem HasLines.exists_not_text_iff (h : HasLines input lines) :
    (∃ line ∈ lines, ofUtf8? line = none) ↔ ofUtf8? input = none := by
  constructor
  · rintro ⟨line, hline, hnone⟩
    by_contra hsome
    obtain ⟨text, htext⟩ := Option.ne_none_iff_exists'.1 hsome
    rw [Text.ofUtf8?_eq_some_iff.1 htext] at h
    rw [h.eq_map_linesOf] at hline
    obtain ⟨t, -, rfl⟩ := List.mem_map.1 hline
    rw [Text.ofUtf8?_utf8] at hnone
    cases hnone
  · intro hinput
    by_contra hall
    obtain ⟨text, htext⟩ := h.exists_text fun line hline => by
      have hsome : ofUtf8? line ≠ none := fun hnone => hall ⟨line, hline, hnone⟩
      obtain ⟨text, htext⟩ := Option.ne_none_iff_exists'.1 hsome
      exact ⟨text, Text.ofUtf8?_eq_some_iff.1 htext⟩
    rw [Text.ofUtf8?_eq_some_iff.2 htext] at hinput
    cases hinput

end DeviceMessages.CommandLine

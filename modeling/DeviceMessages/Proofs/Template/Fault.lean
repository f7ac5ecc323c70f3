import DeviceMessages.Proofs.Template.PieceReading

/-!
# Where the errors of a template text are

The error of a text that cannot be compiled is that of its first piece that cannot be read. The
pieces before it were read, so the text up to the error is a template of its own, and the error is
reported for the character at which the piece begins. Which character that is can be told from the
error alone (`TemplateError.opener`): a backslash, a number sign or a dollar sign.

One lemma for each reader of `Template.Compilation` says that its error is about the piece that it
was called for (`IsAbout`). The readers are given the offset where their piece starts and have no
other offset to report, so a place that was left from an earlier piece cannot come up.

## Main result

* `compileFragments_error_at_piece` — every error that has an offset points at its piece.
-/

namespace DeviceMessages

open Text (offsetOf utf8 utf8Length)

namespace TemplateError

/-- The byte offset that an error is reported with. An error in a field format has none. -/
def offset? : TemplateError → Option Nat
  | .call offset _ => some offset
  | .illegalCode _ offset => some offset
  | .unterminated _ offset => some offset
  | .emptyKey offset => some offset
  | .badFormat _ _ _ => none

/-- The character at which the piece begins that an error is about. -/
def opener : TemplateError → Char
  | .unterminated .escape _ => '\\'
  | .unterminated .asciiCode _ => '#'
  | .illegalCode _ _ => '#'
  | _ => '$'

/-- If the error names a code, then it is the beginning of the text: digits, or digits and the first
character that is none. -/
def CodeBegins (e : TemplateError) (after : List Char) : Prop :=
  ∀ code offset, e = .illegalCode code offset → code.toList <+: after ∧
    ((∀ c ∈ code.toList, c.isDigit = true) ∨
      ∃ ds c, code.toList = ds ++ [c] ∧ (∀ d ∈ ds, d.isDigit = true) ∧ c.isDigit = false)

/-- The error is about the piece that begins at the offset `start` with `c` and goes on with
`after`. -/
def IsAbout (e : TemplateError) (start : Nat) (c : Char) (after : List Char) : Prop :=
  ∀ p, e.offset? = some p → p = start ∧ e.opener = c ∧ e.CodeBegins after

end TemplateError

namespace Piece

open Spelling (WritesPieces)

variable {functions : Functions} {start : Nat} {cs after : List Char} {e : TemplateError}

/-! ## The errors of one piece -/

theorem isAbout_unterminated {part : Unclosed} {c : Char}
    (hc : (TemplateError.unterminated part start).opener = c) :
    (TemplateError.unterminated part start).IsAbout start c after := by
  rintro p ⟨⟩
  refine ⟨rfl, hc, ?_⟩
  rintro code offset ⟨⟩

/-- A code is refused with digits from the text after the number sign, or with digits and one more
character. -/
theorem isAbout_illegalCode {code : List Char} (hbegins : code <+: after)
    (hform : (∀ c ∈ code, c.isDigit = true) ∨
      ∃ ds c, code = ds ++ [c] ∧ (∀ d ∈ ds, d.isDigit = true) ∧ c.isDigit = false) :
    (TemplateError.illegalCode (String.ofList code) start).IsAbout start '#' after := by
  rintro p ⟨⟩
  refine ⟨rfl, rfl, ?_⟩
  rintro _ offset ⟨⟩
  rw [String.toList_ofList]
  exact ⟨hbegins, hform⟩

theorem isAbout_of_readEscape (h : readEscape start cs = .error e) : e.IsAbout start '\\' cs := by
  cases cs with
  | nil => cases h; exact isAbout_unterminated rfl
  | cons c cs => cases h

theorem isAbout_of_readCode (h : readCode start cs = .error e) : e.IsAbout start '#' cs := by
  have hdigits : ∀ d ∈ cs.takeWhile Char.isDigit, d.isDigit = true :=
    fun d hd => Text.mem_takeWhile hd
  unfold readCode at h
  dsimp only at h
  split at h
  · cases h
    exact isAbout_unterminated rfl
  · next c rest hdrop =>
      have hcut := Text.takeWhile_append_of_dropWhile hdrop
      split at h
      · -- the character after the digits is the one that is refused
        cases h
        have hbegins : cs.takeWhile Char.isDigit ++ [c] <+: cs :=
          ⟨rest, by rw [List.append_assoc, List.singleton_append, ← hcut]⟩
        exact isAbout_illegalCode hbegins
          (.inr ⟨_, c, rfl, hdigits, Text.stop_of_dropWhile hdrop⟩)
      · split at h
        · cases h
        · cases h
          exact isAbout_illegalCode (List.takeWhile_prefix _) (.inl hdigits)

theorem isAbout_of_ofField {key format : List Char} (h : ofField start key format = .error e) :
    e.IsAbout start '$' after := by
  unfold ofField at h
  split at h
  · cases h
    rintro p ⟨⟩
    refine ⟨rfl, rfl, ?_⟩
    rintro code offset ⟨⟩
  · split at h
    · cases h
    · cases h
      rintro p ⟨⟩

theorem isAbout_of_readField (h : readField start cs = .error e) : e.IsAbout start '$' after := by
  unfold readField at h
  dsimp only at h
  split at h
  · cases h
    exact isAbout_unterminated rfl
  · split at h
    · exact isAbout_of_ofField (eq_error_of_map_eq_error h)
    · split at h
      · cases h
        exact isAbout_unterminated rfl
      · exact isAbout_of_ofField (eq_error_of_map_eq_error h)

theorem isAbout_of_readCall (h : readCall functions start cs = .error e) :
    e.IsAbout start '$' after := by
  unfold readCall at h
  dsimp only at h
  split at h
  · cases h
    exact isAbout_unterminated rfl
  · split at h
    · cases h
      exact isAbout_unterminated rfl
    · split at h
      · cases h
      · cases h
        rintro p ⟨⟩
        refine ⟨rfl, rfl, ?_⟩
        rintro code offset ⟨⟩

/-- A piece that cannot be read gives an error about itself. -/
theorem isAbout_of_read {c : Char} (h : read functions start c cs = .error e) :
    e.IsAbout start c cs := by
  unfold read at h
  split at h
  · next hc => rw [hc]; exact isAbout_of_readEscape h
  · split at h
    · next hc => rw [hc]; exact isAbout_of_readCode h
    · split at h
      · next hc =>
          rw [hc]
          split at h
          · cases h
            exact isAbout_unterminated rfl
          · exact isAbout_of_readField h
          · exact isAbout_of_readCall h
      · cases h

/-! ## The errors of a text -/

/-- The pieces before the one that an error is about are written there. -/
theorem exists_writesPieces_of_readAll {source : List Char} {p : Nat}
    (h : readAll functions source cs = .error e) (hp : e.offset? = some p) :
    ∃ ps before after, WritesPieces functions ps before ∧ cs = before ++ e.opener :: after ∧
      p = offsetOf source (e.opener :: after) ∧ e.CodeBegins after := by
  fun_induction readAll functions source cs with
  | case1 => cases h
  | case2 c cs e' hread =>
      cases h
      obtain ⟨rfl, rfl, hcode⟩ := isAbout_of_read hread p hp
      exact ⟨[], [], cs, .nil, rfl, rfl, hcode⟩
  | case3 c cs piece rest hread ih =>
      obtain ⟨ps, before, after, hps, hrest, hoffset, hcode⟩ := ih (eq_error_of_map_eq_error h)
      obtain ⟨u, hu, hcs⟩ := Spelling.writesPiece_of_read hread
      refine ⟨piece :: ps, u ++ before, after, .cons hu hps, ?_, hoffset, hcode⟩
      rw [hcs, hrest, List.append_assoc]

end Piece

namespace Template

/-- An error with an offset points at the piece that it is about. The text before it is compiled on
its own, the piece begins there with the character that belongs to the error, and a code that the
error names is written behind it. -/
theorem compileFragments_error_at_piece (functions : Functions) (source : String)
    (e : TemplateError) (p : Nat) (he : compileFragments functions source = .error e)
    (hp : e.offset? = some p) :
    ∃ before after, source = before ++ String.singleton e.opener ++ after ∧
      p = (utf8 before).length ∧ (∃ fs, compileFragments functions before = .ok fs) ∧
      e.CodeBegins after.toList := by
  obtain ⟨ps, before, after, hps, hsource, hoffset, hcode⟩ :=
    Piece.exists_writesPieces_of_readAll (eq_error_of_map_eq_error he) hp
  refine ⟨String.ofList before, String.ofList after, ?_, ?_, ?_, ?_⟩
  · rw [← String.toList_inj]
    simpa [String.toList_append] using hsource
  · rw [Text.length_utf8, String.toList_ofList, hoffset, hsource, Text.offsetOf_append]
  · refine ⟨Fragment.ofPieces ps, ?_⟩
    rw [compileFragments, String.toList_ofList, Spelling.readAll_eq_ok_iff.2 hps]
    rfl
  · rwa [String.toList_ofList]

/-- A code with a letter in it is found behind a character of two bytes, a field, a code and a soft
wrap, and a call of an unknown function behind an escaped dollar sign. -/
theorem compileFragments_error_at_piece_twelve :
    (compileFragments Table.empty "ü$(a)#65;\\\n#12x;" = .error (.illegalCode "12x" 12) ∧
      ∃ before after, "ü$(a)#65;\\\n#12x;" = before ++ String.singleton '#' ++ after ∧
        12 = (utf8 before).length ∧ (∃ fs, compileFragments Table.empty before = .ok fs) ∧
        (TemplateError.illegalCode "12x" 12).CodeBegins after.toList) ∧
    (compileFragments Table.empty "\\$$nope(,)$(b" =
        .error (.call 2 (.unknownFunction "nope")) ∧
      ∃ before after, "\\$$nope(,)$(b" = before ++ String.singleton '$' ++ after ∧
        2 = (utf8 before).length ∧ ∃ fs, compileFragments Table.empty before = .ok fs) := by
  have hcode : compileFragments Table.empty "ü$(a)#65;\\\n#12x;" =
      .error (.illegalCode "12x" 12) := by
    with_unfolding_all rfl
  have hcall : compileFragments Table.empty "\\$$nope(,)$(b" =
      .error (.call 2 (.unknownFunction "nope")) := by
    with_unfolding_all rfl
  have hatCode := compileFragments_error_at_piece _ _ _ 12 hcode rfl
  obtain ⟨before, after, hsource, hoffset, hbefore, -⟩ :=
    compileFragments_error_at_piece _ _ _ 2 hcall rfl
  exact ⟨⟨hcode, hatCode⟩, hcall, before, after, hsource, hoffset, hbefore⟩

end Template

end DeviceMessages

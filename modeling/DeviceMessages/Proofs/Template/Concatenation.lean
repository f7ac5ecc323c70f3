import DeviceMessages.Proofs.Template.PieceReading
import Mathlib.Tactic.SplitIfs

/-!
# Template texts one after the other

Reading a template text carries nothing from one piece to the next but the place where the next one
starts. So a text that is put after a complete one is read as it would be on its own, with its
places moved, and a text that cannot be read for any reason but that it ends too early cannot be
read whatever is put after it.

Both halves are facts about one piece, with one lemma for each reader of `Template.Compilation`:

* `read_add`: where a piece starts in the text shows only in the error.
* `read_append`: what follows a piece does not change how it is read, once the piece is not left
  open. A piece that is left open is the one thing that more text can change.

`readAll_append` and `readAll_append_left` lift them to rows of pieces, and `ofPieces_append` says
that only the two literals that meet where the texts meet are joined.
-/

namespace DeviceMessages

open Text (offsetOf utf8Length)

/-- The error as it is reported when the text has more bytes in front. -/
def TemplateError.shift (bytes : Nat) : TemplateError → TemplateError
  | .call offset error => .call (bytes + offset) error
  | .illegalCode code offset => .illegalCode code (bytes + offset)
  | .unterminated part offset => .unterminated part (bytes + offset)
  | .emptyKey offset => .emptyKey (bytes + offset)
  | .badFormat key format error => .badFormat key format error

namespace Piece

variable {functions : Functions} {start : Nat} {c : Char} {cs : List Char}

/-! ## Where a piece starts -/

theorem readEscape_add (bytes start : Nat) (cs : List Char) :
    readEscape (bytes + start) cs = (readEscape start cs).mapError (.shift bytes) := by
  cases cs <;> rfl

theorem readCode_add (bytes start : Nat) (cs : List Char) :
    readCode (bytes + start) cs = (readCode start cs).mapError (.shift bytes) := by
  unfold readCode
  cases cs.dropWhile Char.isDigit with
  | nil => rfl
  | cons c rest =>
      dsimp only
      split_ifs <;> rfl

theorem ofField_add (bytes start : Nat) (key format : List Char) :
    ofField (bytes + start) key format = (ofField start key format).mapError (.shift bytes) := by
  unfold ofField
  cases fieldFormat? format <;> split_ifs <;> rfl

theorem readField_add (bytes start : Nat) (cs : List Char) :
    readField (bytes + start) cs = (readField start cs).mapError (.shift bytes) := by
  unfold readField
  cases cs.dropWhile fun c => c != ':' && c != ')' with
  | nil => rfl
  | cons c rest =>
      dsimp only
      split_ifs
      · rw [ofField_add, mapError_map]
      · cases rest.dropWhile (· != ')') with
        | nil => rfl
        | cons _ after =>
            dsimp only
            rw [ofField_add, mapError_map]

theorem readCall_add (bytes start : Nat) (cs : List Char) :
    readCall functions (bytes + start) cs =
      (readCall functions start cs).mapError (.shift bytes) := by
  unfold readCall
  cases cs.dropWhile (· != '(') with
  | nil => rfl
  | cons _ rest =>
      dsimp only
      cases rest.dropWhile (· != ')') with
      | nil => rfl
      | cons _ after =>
          dsimp only
          cases functions.call _ _ <;> rfl

/-- A piece is the same wherever it starts, and an error moves with it. -/
theorem read_add (bytes start : Nat) (c : Char) (cs : List Char) :
    read functions (bytes + start) c cs =
      (read functions start c cs).mapError (.shift bytes) := by
  unfold read
  split_ifs
  · exact readEscape_add bytes start cs
  · exact readCode_add bytes start cs
  · split
    · rfl
    · exact readField_add bytes start _
    · exact readCall_add bytes start cs
  · rfl

/-! ## What follows a piece -/

/-- Reading fails because the text ends within a piece. -/
def LeftOpen {α : Type} (x : Except TemplateError α) : Prop :=
  ∃ part offset, x = .error (.unterminated part offset)

theorem not_leftOpen_ok {α : Type} (a : α) : ¬ LeftOpen (.ok a) := by
  rintro ⟨part, offset, h⟩
  cases h

theorem not_leftOpen_error {α : Type} {e : TemplateError}
    (h : ∀ part offset, e ≠ .unterminated part offset) : ¬ LeftOpen (.error e : Except _ α) := by
  rintro ⟨part, offset, heq⟩
  exact h part offset (Except.error.inj heq)

/-- What is read when the text goes on. -/
def continued (more : List Char) (x : Except TemplateError (Piece × List Char)) :
    Except TemplateError (Piece × List Char) :=
  x.map fun next => (next.1, next.2 ++ more)

theorem readEscape_append (h : ¬ LeftOpen (readEscape start cs)) (more : List Char) :
    readEscape start (cs ++ more) = continued more (readEscape start cs) := by
  cases cs with
  | nil => exact absurd ⟨_, _, rfl⟩ h
  | cons c cs => rfl

theorem readCode_append (h : ¬ LeftOpen (readCode start cs)) (more : List Char) :
    readCode start (cs ++ more) = continued more (readCode start cs) := by
  unfold readCode at h ⊢
  cases hdrop : cs.dropWhile Char.isDigit with
  | nil => exact absurd ⟨_, _, by rw [hdrop]⟩ h
  | cons c rest =>
      rw [Text.takeWhile_append_of_stop hdrop, Text.dropWhile_append_of_stop hdrop]
      dsimp only
      split_ifs <;> rfl

theorem readField_append (h : ¬ LeftOpen (readField start cs)) (more : List Char) :
    readField start (cs ++ more) = continued more (readField start cs) := by
  unfold readField at h ⊢
  cases hdrop : cs.dropWhile fun c => c != ':' && c != ')' with
  | nil => exact absurd ⟨_, _, by rw [hdrop]⟩ h
  | cons c rest =>
      rw [hdrop] at h
      rw [Text.takeWhile_append_of_stop hdrop, Text.dropWhile_append_of_stop hdrop]
      dsimp only at h ⊢
      split_ifs at h ⊢
      · cases ofField start _ [] <;> rfl
      · cases hrest : rest.dropWhile (· != ')') with
        | nil => exact absurd ⟨_, _, by rw [hrest]⟩ h
        | cons _ after =>
            rw [Text.takeWhile_append_of_stop hrest, Text.dropWhile_append_of_stop hrest]
            dsimp only
            cases ofField start _ _ <;> rfl

theorem readCall_append (h : ¬ LeftOpen (readCall functions start cs)) (more : List Char) :
    readCall functions start (cs ++ more) = continued more (readCall functions start cs) := by
  unfold readCall at h ⊢
  cases hdrop : cs.dropWhile (· != '(') with
  | nil => exact absurd ⟨_, _, by rw [hdrop]⟩ h
  | cons _ rest =>
      rw [hdrop] at h
      rw [Text.takeWhile_append_of_stop hdrop, Text.dropWhile_append_of_stop hdrop]
      dsimp only at h ⊢
      cases hrest : rest.dropWhile (· != ')') with
      | nil => exact absurd ⟨_, _, by rw [hrest]⟩ h
      | cons _ after =>
          rw [Text.takeWhile_append_of_stop hrest, Text.dropWhile_append_of_stop hrest]
          dsimp only
          cases functions.call _ _ <;> rfl

/-- A piece that is not left open is read in the same way whatever follows, and so is a piece that
cannot be read. -/
theorem read_append (h : ¬ LeftOpen (read functions start c cs)) (more : List Char) :
    read functions start c (cs ++ more) = continued more (read functions start c cs) := by
  unfold read at h ⊢
  split_ifs at h ⊢
  · exact readEscape_append h more
  · exact readCode_append h more
  · cases cs with
    | nil => exact absurd ⟨_, _, rfl⟩ h
    | cons d cs =>
        by_cases hd : d = '('
        · subst hd
          exact readField_append h more
        · simp only [List.cons_append, List.cons.injEq, hd, false_and, imp_self,
            implies_true] at h ⊢
          exact readCall_append h more
  · rfl

/-! ## Rows of pieces -/

variable {source : List Char}

theorem readAll_cons_of_error {e : TemplateError}
    (h : read functions (offsetOf source (c :: cs)) c cs = .error e) :
    readAll functions source (c :: cs) = .error e := by
  rw [readAll]
  split
  · next e' he => rw [h] at he; cases he; rfl
  · next p rest hok => rw [h] at hok; cases hok

theorem readAll_cons_of_ok {p : Piece} {rest : List Char}
    (h : read functions (offsetOf source (c :: cs)) c cs = .ok (p, rest)) :
    readAll functions source (c :: cs) = (readAll functions source rest).map (p :: ·) := by
  rw [readAll]
  split
  · next e he => rw [h] at he; cases he
  · next q rest' hok => rw [h] at hok; cases hok; rfl

/-- A text that is not left open is read first, and then what follows it. -/
theorem readAll_append (h : ¬ LeftOpen (readAll functions source cs)) (more : List Char) :
    readAll functions (source ++ more) (cs ++ more) =
      readAll functions source cs >>= fun ps =>
        (readAll functions (source ++ more) more).map (ps ++ ·) := by
  fun_induction readAll functions source cs with
  | case1 =>
      show readAll functions (source ++ more) more =
        (readAll functions (source ++ more) more).map ([] ++ ·)
      cases readAll functions (source ++ more) more <;> rfl
  | case2 c cs e hread =>
      have hclosed : ¬ LeftOpen (read functions (offsetOf source (c :: cs)) c cs) := by
        rw [hread]
        rintro ⟨part, offset, heq⟩
        cases heq
        exact h ⟨part, offset, rfl⟩
      have hmore := read_append hclosed more
      rw [hread, ← Text.offsetOf_append_right _ _ more] at hmore
      exact readAll_cons_of_error hmore
  | case3 c cs p rest hread ih =>
      have hclosed : ¬ LeftOpen (read functions (offsetOf source (c :: cs)) c cs) := by
        rw [hread]
        exact not_leftOpen_ok (p, rest)
      have hmore := read_append hclosed more
      have hrest : ¬ LeftOpen (readAll functions source rest) := by
        rintro ⟨part, offset, hopen⟩
        exact h ⟨part, offset, by rw [hopen]; rfl⟩
      rw [hread, ← Text.offsetOf_append_right _ _ more, List.cons_append] at hmore
      rw [List.cons_append, readAll_cons_of_ok hmore, ih hrest]
      cases readAll functions source rest with
      | error e => rfl
      | ok ps => cases readAll functions (source ++ more) more <;> rfl

/-- A final part of a text is read as it would be without the text in front, with its errors
moved. -/
theorem readAll_append_left (h : cs <:+ source) (front : List Char) :
    readAll functions (front ++ source) cs =
      (readAll functions source cs).mapError (.shift (utf8Length front)) := by
  fun_induction readAll functions source cs with
  | case1 => rw [readAll]; rfl
  | case2 c cs e hread =>
      refine readAll_cons_of_error ?_
      rw [Text.offsetOf_append_left h, read_add, hread]
      rfl
  | case3 c cs p rest hread ih =>
      have hmoved : read functions (offsetOf (front ++ source) (c :: cs)) c cs = .ok (p, rest) := by
        rw [Text.offsetOf_append_left h, read_add, hread]
        rfl
      obtain ⟨u, _, hsplit⟩ := Spelling.writesPiece_of_read hread
      have hrest : rest <:+ source := List.IsSuffix.trans ⟨u, hsplit.symm⟩ h
      rw [readAll_cons_of_ok hmoved, ih hrest, mapError_map]

end Piece

/-! ## Lists of fragments -/

namespace Fragment

/-- Fragments after fragments. A literal at the end of the first and a literal at the beginning of
the second are joined into one. -/
def join : List Fragment → List Fragment → List Fragment
  | [], gs => gs
  | [.literal s], .literal t :: gs => .literal (s ++ t) :: gs
  | f :: fs, gs => f :: join fs gs

/-- A character in front goes to the literal that the first fragments begin with, also if that is
the one that is joined. -/
theorem pushChar_join (c : Char) (fs gs : List Fragment) :
    pushChar c (join fs gs) = join (pushChar c fs) gs := by
  cases fs with
  | nil =>
      cases gs with
      | nil => rfl
      | cons g gs => cases g <;> rfl
  | cons f fs =>
      cases f with
      | field key format => rfl
      | call name generator => rfl
      | literal s =>
          cases fs with
          | cons f fs => rfl
          | nil =>
              cases gs with
              | nil => rfl
              | cons g gs =>
                  cases g with
                  | literal t => simp only [join, pushChar, String.append_assoc]
                  | field key format => rfl
                  | call name generator => rfl

theorem ofPieces_append (ps qs : List Piece) :
    ofPieces (ps ++ qs) = join (ofPieces ps) (ofPieces qs) := by
  induction ps with
  | nil => rfl
  | cons p ps ih =>
      cases p with
      | char c => rw [List.cons_append, ofPieces, ih, pushChar_join]; rfl
      | wrap => exact ih
      | field key format => rw [List.cons_append, ofPieces, ih]; rfl
      | call name generator => rw [List.cons_append, ofPieces, ih]; rfl

end Fragment

/-! ## Compiling -/

namespace Template

open Piece (LeftOpen not_leftOpen_ok not_leftOpen_error)

/-- A text that is not left open is compiled first, and then what follows it as on its own. -/
theorem compileFragments_append_of_not_leftOpen {functions : Functions} {a : String}
    (h : ¬ LeftOpen (compileFragments functions a)) (b : String) :
    compileFragments functions (a ++ b) =
      compileFragments functions a >>= fun fa =>
        ((compileFragments functions b).mapError (.shift (Text.utf8 a).length)).map
          (Fragment.join fa) := by
  have hclosed : ¬ LeftOpen (Piece.readAll functions a.toList a.toList) := by
    rintro ⟨part, offset, hopen⟩
    exact h ⟨part, offset, by rw [compileFragments, hopen]; rfl⟩
  unfold compileFragments
  rw [String.toList_append, Piece.readAll_append hclosed,
    Piece.readAll_append_left (List.suffix_refl _), Text.length_utf8]
  cases Piece.readAll functions a.toList a.toList with
  | error e => rfl
  | ok ps =>
      cases Piece.readAll functions b.toList b.toList with
      | error e => rfl
      | ok qs => exact congrArg Except.ok (Fragment.ofPieces_append ps qs)

/-- Compiling goes text by text. The fragments of two texts are those of the one and then those of
the other, joined where two literals meet; an error of the second text is moved by the length of the
first; and an error of the first stays the error whatever follows, unless the first text only ends
too early. -/
theorem compileFragments_append (functions : Functions) (a b : String) :
    (∀ fa fb, compileFragments functions a = .ok fa → compileFragments functions b = .ok fb →
      compileFragments functions (a ++ b) = .ok (Fragment.join fa fb)) ∧
    (∀ fa e, compileFragments functions a = .ok fa → compileFragments functions b = .error e →
      compileFragments functions (a ++ b) = .error (e.shift (Text.utf8 a).length)) ∧
    (∀ e, compileFragments functions a = .error e →
      (∀ part offset, e ≠ .unterminated part offset) →
      compileFragments functions (a ++ b) = .error e) := by
  have hcomplete : ∀ fa, compileFragments functions a = .ok fa →
      ¬ LeftOpen (compileFragments functions a) := by
    intro fa ha
    rw [ha]
    exact not_leftOpen_ok fa
  refine ⟨?_, ?_, ?_⟩
  · intro fa fb ha hb
    rw [compileFragments_append_of_not_leftOpen (hcomplete fa ha), ha, hb]
    rfl
  · intro fa e ha hb
    rw [compileFragments_append_of_not_leftOpen (hcomplete fa ha), ha, hb]
    rfl
  · intro e ha he
    have hclosed : ¬ LeftOpen (compileFragments functions a) := by
      rw [ha]
      exact not_leftOpen_error he
    rw [compileFragments_append_of_not_leftOpen hclosed, ha]
    rfl

/-- A letter that is written as a code and followed by a soft wrap is joined with the letter after
it; a code that is too large is found two bytes later behind a letter of two bytes; and an empty key
stays an error. -/
theorem compileFragments_append_letters :
    compileFragments Table.empty ("#65;\\\n" ++ "b$(x)") = .ok [.literal "Ab", .field "x" none] ∧
    compileFragments Table.empty ("ü" ++ "b#300;") = .error (.illegalCode "300" 3) ∧
    compileFragments Table.empty ("$()" ++ "b$(x)") = .error (.emptyKey 0) := by
  have hletter : compileFragments Table.empty "#65;\\\n" = .ok [.literal "A"] := by
    with_unfolding_all rfl
  have hfield : compileFragments Table.empty "b$(x)" = .ok [.literal "b", .field "x" none] := by
    with_unfolding_all rfl
  have humlaut : compileFragments Table.empty "ü" = .ok [.literal "ü"] := by
    with_unfolding_all rfl
  have hcode : compileFragments Table.empty "b#300;" = .error (.illegalCode "300" 1) := by
    with_unfolding_all rfl
  have hkey : compileFragments Table.empty "$()" = .error (.emptyKey 0) := by
    with_unfolding_all rfl
  refine ⟨?_, ?_, ?_⟩
  · exact (compileFragments_append _ _ _).1 _ _ hletter hfield
  · exact (compileFragments_append _ _ _).2.1 _ _ humlaut hcode
  · exact (compileFragments_append _ _ _).2.2 _ hkey (by rintro part offset ⟨⟩)

end Template

end DeviceMessages

import DeviceMessages.Definition.Token
import DeviceMessages.Proofs.Text.Span

/-!
# White space and comments

`skipTrivia` drops white space and comments in one pass. `Trivia` says what they are without it: a
mix of blanks, line comments that run to the next line feed or to the end of the text, and block
comments that run to the first `*/`. Where a line comment may end depends on what comes after, so
the relation is between the trivia and the text that follows them.

`trivia_skipTrivia` and `skipTrivia_of_trivia` are the two directions: what is dropped is trivia,
and trivia in front of a text that begins with none (`Settled`) are dropped whole.
-/

namespace DeviceMessages.Definition

/-- What can stand before `rest` without meaning anything. -/
inductive Trivia : List Char → List Char → Prop
  | none {rest : List Char} : Trivia [] rest
  | space {c : Char} {w rest : List Char} (hc : isSpace c = true) (hw : Trivia w rest) :
      Trivia (c :: w) rest
  | line {body w rest : List Char} (hbody : '\n' ∉ body)
      (hend : ∀ c ∈ (w ++ rest).head?, c = '\n') (hw : Trivia w rest) :
      Trivia ('/' :: '/' :: body ++ w) rest
  | block {body w rest : List Char} (hbody : ¬ ['*', '/'] <:+: body) (hw : Trivia w rest) :
      Trivia ('/' :: '*' :: body ++ '*' :: '/' :: w) rest

/-- Trivia whose line comments all end with a line feed, so that anything may follow them. -/
inductive Filler : List Char → Prop
  | none : Filler []
  | space {c : Char} {w : List Char} (hc : isSpace c = true) (hw : Filler w) : Filler (c :: w)
  | line {body w : List Char} (hbody : '\n' ∉ body) (hw : Filler w) :
      Filler ('/' :: '/' :: body ++ '\n' :: w)
  | block {body w : List Char} (hbody : ¬ ['*', '/'] <:+: body) (hw : Filler w) :
      Filler ('/' :: '*' :: body ++ '*' :: '/' :: w)

theorem Filler.trivia {w : List Char} (h : Filler w) (rest : List Char) : Trivia w rest := by
  induction h with
  | none => exact .none
  | space hc _ ih => exact .space hc ih
  | line hbody _ ih =>
      refine .line hbody ?_ (.space (by decide) ih)
      rintro _ ⟨⟩
      rfl
  | block hbody _ ih => exact .block hbody ih

/-- No trivia stand at the beginning of the text. -/
def Settled (cs : List Char) : Prop := skipTrivia cs = cs

/-! ## Block comments -/

private theorem not_infix_nil : ¬ ['*', '/'] <:+: ([] : List Char) := by
  intro h
  have := List.eq_nil_of_infix_nil h
  cases this

private theorem exists_body_of_afterBlock? {cs after : List Char}
    (h : afterBlock? cs = some after) :
    ∃ body, cs = body ++ '*' :: '/' :: after ∧ ¬ ['*', '/'] <:+: body := by
  fun_induction afterBlock? cs with
  | case1 cs => cases h; exact ⟨[], rfl, not_infix_nil⟩
  | case2 c cs hne ih =>
      obtain ⟨body, hcs, hbody⟩ := ih h
      refine ⟨c :: body, by rw [hcs]; rfl, fun hinfix => ?_⟩
      rcases List.infix_cons_iff.1 hinfix with hprefix | hinfix
      · obtain ⟨hc, hprefix⟩ := List.cons_prefix_cons.1 hprefix
        -- a slash at the head of the body would have closed the comment before it
        cases body with
        | nil => exact absurd (List.eq_nil_of_prefix_nil hprefix) (List.cons_ne_nil _ _)
        | cons d body =>
            have hd := (List.cons_prefix_cons.1 hprefix).1
            exact hne _ hc.symm (by rw [hcs, ← hd]; rfl)
      · exact hbody hinfix
  | case3 => cases h

private theorem afterBlock?_of_body {body : List Char} (h : ¬ ['*', '/'] <:+: body)
    (after : List Char) : afterBlock? (body ++ '*' :: '/' :: after) = some after := by
  induction body with
  | nil => rfl
  | cons c body ih =>
      have hrest : ¬ ['*', '/'] <:+: body := fun hinfix => h (List.infix_cons hinfix)
      have hopen : ∀ cs, c = '*' → body ++ '*' :: '/' :: after = '/' :: cs → False := by
        intro cs hc heq
        cases body with
        | nil => cases heq
        | cons d body =>
            cases heq
            exact h ⟨[], body, by rw [hc]; rfl⟩
      rw [List.cons_append, afterBlock?]
      · exact ih hrest
      · exact hopen

/-! ## The two directions -/

private theorem lineFeed_of_dropWhile (comment : List Char) :
    ∀ c ∈ (comment.dropWhile (· != '\n')).head?, c = '\n' := by
  intro c hc
  have hne : comment.dropWhile (· != '\n') ≠ [] := by
    intro hnil
    rw [hnil] at hc
    cases hc
  have hstop := List.head_dropWhile_not (· != '\n') hne
  rw [List.head?_eq_some_head hne, Option.mem_some_iff] at hc
  rw [hc] at hstop
  simpa using hstop

private theorem lineFeed_notMem_takeWhile (comment : List Char) :
    '\n' ∉ comment.takeWhile (· != '\n') := by
  intro hmem
  simpa using Text.mem_takeWhile hmem

private theorem skipTrivia_space {c : Char} (hc : isSpace c = true) (rest : List Char) :
    skipTrivia (c :: rest) = skipTrivia rest := by
  rw [skipTrivia.eq_def]
  simp only [hc, if_true]

private theorem skipTrivia_line (comment : List Char) :
    skipTrivia ('/' :: '/' :: comment) = skipTrivia (comment.dropWhile (· != '\n')) := by
  rw [skipTrivia.eq_def]
  simp only [show isSpace '/' = false by decide, Bool.false_eq_true, if_false, if_true]

private theorem skipTrivia_block {comment after : List Char}
    (h : afterBlock? comment = some after) :
    skipTrivia ('/' :: '*' :: comment) = skipTrivia after := by
  rw [skipTrivia.eq_def]
  simp only [show isSpace '/' = false by decide, Bool.false_eq_true, if_false, if_true]
  split
  · next after' h' => rw [h] at h'; cases h'; rfl
  · next h' => rw [h] at h'; cases h'

/-- What the first step of dropping trivia does, if it does anything. -/
private theorem settled_or_skips (cs : List Char) :
    Settled cs ∨ (∃ c rest, cs = c :: rest ∧ isSpace c = true) ∨
      (∃ comment, cs = '/' :: '/' :: comment) ∨
      ∃ comment after, cs = '/' :: '*' :: comment ∧ afterBlock? comment = some after := by
  unfold Settled
  rw [skipTrivia.eq_def]
  split
  · exact .inl rfl
  · next c rest =>
      split
      · next hc => exact .inr (.inl ⟨c, rest, rfl, hc⟩)
      · split
        · next hc =>
            split
            · next comment => exact .inr (.inr (.inl ⟨comment, by rw [hc]⟩))
            · next comment =>
                split
                · next after h => exact .inr (.inr (.inr ⟨comment, after, by rw [hc], h⟩))
                · exact .inl rfl
            · exact .inl rfl
        · exact .inl rfl

/-- What is dropped from a text is trivia. -/
theorem trivia_skipTrivia (cs : List Char) :
    ∃ w, cs = w ++ skipTrivia cs ∧ Trivia w (skipTrivia cs) := by
  induction hlength : cs.length using Nat.strongRecOn generalizing cs with
  | ind n ih =>
      rcases settled_or_skips cs with
        h | ⟨c, rest, rfl, hc⟩ | ⟨comment, rfl⟩ | ⟨comment, after, rfl, hafter⟩
      · rw [show skipTrivia cs = cs from h]
        exact ⟨[], rfl, .none⟩
      · have hlt : rest.length < n := by
          rw [← hlength, List.length_cons]
          omega
        obtain ⟨w, hw, htrivia⟩ := ih rest.length hlt rest rfl
        rw [skipTrivia_space hc]
        exact ⟨c :: w, by rw [List.cons_append, ← hw], .space hc htrivia⟩
      · have hlt : (comment.dropWhile (· != '\n')).length < n := by
          have hle := (List.dropWhile_sublist (· != '\n') (l := comment)).length_le
          rw [← hlength, List.length_cons, List.length_cons]
          omega
        obtain ⟨w, hw, htrivia⟩ := ih _ hlt _ rfl
        rw [skipTrivia_line]
        refine ⟨'/' :: '/' :: comment.takeWhile (· != '\n') ++ w, ?_,
          .line (lineFeed_notMem_takeWhile comment) ?_ htrivia⟩
        · simp only [List.cons_append, List.append_assoc, ← hw, List.takeWhile_append_dropWhile]
        · rw [← hw]
          exact lineFeed_of_dropWhile comment
      · have hlt : after.length < n := by
          have hshorter := length_of_afterBlock? hafter
          rw [← hlength, List.length_cons, List.length_cons]
          omega
        obtain ⟨w, hw, htrivia⟩ := ih after.length hlt after rfl
        obtain ⟨body, hcomment, hbody⟩ := exists_body_of_afterBlock? hafter
        rw [skipTrivia_block hafter]
        refine ⟨'/' :: '*' :: body ++ '*' :: '/' :: w, ?_, .block hbody htrivia⟩
        rw [hcomment]
        simp only [List.cons_append, List.append_assoc, ← hw]

/-- Trivia are dropped, and then what follows them is looked at. -/
theorem skipTrivia_append_of_trivia {w rest : List Char} (h : Trivia w rest) :
    skipTrivia (w ++ rest) = skipTrivia rest := by
  induction h with
  | none => rfl
  | space hc _ ih => rw [List.cons_append, skipTrivia_space hc, ih]
  | @line body w rest hbody hend _ ih =>
      have hrun : ∀ c ∈ body, (c != '\n') = true := by
        intro c hc
        rw [bne_iff_ne]
        rintro rfl
        exact hbody hc
      have hstop : ∀ c ∈ (w ++ rest).head?, (c != '\n') = false := by
        intro c hc
        rw [hend c hc]
        rfl
      have hdrop : (body ++ (w ++ rest)).dropWhile (· != '\n') = w ++ rest :=
        Text.dropWhile_run hrun hstop
      rw [List.append_assoc, List.cons_append, List.cons_append, skipTrivia_line, hdrop, ih]
  | @block body w rest hbody _ ih =>
      have hafter := afterBlock?_of_body hbody (w ++ rest)
      have hcs : '/' :: '*' :: body ++ '*' :: '/' :: w ++ rest =
          '/' :: '*' :: (body ++ '*' :: '/' :: (w ++ rest)) := by simp
      rw [hcs, skipTrivia_block hafter, ih]

theorem skipTrivia_of_trivia {w rest : List Char} (h : Trivia w rest) (hrest : Settled rest) :
    skipTrivia (w ++ rest) = rest :=
  (skipTrivia_append_of_trivia h).trans hrest

end DeviceMessages.Definition

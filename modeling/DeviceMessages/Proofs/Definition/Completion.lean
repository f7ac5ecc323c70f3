import DeviceMessages.Proofs.Definition.Language
import Mathlib.Order.Bounds.Basic

/-!
# Where a file stops making sense

The position of an error of form is the furthest place where a named part was looked for and not
found. Such a place may come from an attempt that was given up again: another alternative was
taken, a part that may be missing was left out, a repetition ended. Still the text up to there is
the beginning of a file, and this holds for every place that a recognizer reports, not only for the
furthest.

* `Form.begins_of_miss` says so of tokens: those before a place begin something that the form
  derives. The proof goes along the form, as whatever has still to come can be written somehow
  (`Form.begins_nil`).
* `LaidOut.resume` goes from tokens to texts. An ending begins with a line feed, which ends a name
  or a number, and also a comment that ran to the end of the text.
* `recognize_error_completable`: the text before the position of an error can be completed.
-/

namespace DeviceMessages.Definition

/-! ## Places -/

namespace Recognizer

variable {α β : Type} {cs : List Char} {left : Nat}

theorem mem_misses_bind {p : Recognizer α} {next : α → Recognizer β} :
    left ∈ ((p >>= next) cs).misses ↔ left ∈ (p cs).misses ∨
      ∃ a mid, (p cs).result = some (a, mid) ∧ left ∈ (next a mid).misses := by
  show left ∈ (andThen p next cs).misses ↔ _
  unfold andThen
  split
  · next h => simp [h]
  · next h => simp [h]

theorem mem_misses_orElse {p q : Recognizer α} (h : left ∈ (orElse p q cs).misses) :
    left ∈ (p cs).misses ∨ left ∈ (q cs).misses := by
  unfold orElse at h
  split at h
  · next hp =>
      rw [hp]
      exact .inl h
  · next hp =>
      rw [hp]
      exact List.mem_append.1 h

theorem mem_misses_named {p : Recognizer α} (h : left ∈ (named p cs).misses) :
    left = cs.length ∨ left ∈ (p cs).misses := by
  unfold named at h
  split at h
  · next hp =>
      rw [hp]
      exact .inr h
  · next hp =>
      rw [hp]
      exact List.mem_cons.1 h

theorem length_mem_misses_named {p : Recognizer α} (h : (p cs).result = none) :
    cs.length ∈ (named p cs).misses := by
  unfold named
  split
  · next hp =>
      rw [hp] at h
      cases h
  · exact List.mem_cons_self

theorem mem_misses_many {p : Recognizer α} (h : left ∈ (many p cs).misses) :
    left ∈ (p cs).misses ∨ ∃ a mid, (p cs).result = some (a, mid) ∧ mid.length < cs.length ∧
      left ∈ (many p mid).misses := by
  rw [many] at h
  split at h
  · next hp =>
      rw [hp]
      exact .inl h
  · next a mid misses hp =>
      rw [hp]
      split at h
      · next hlt =>
          rcases List.mem_append.1 h with h | h
          · exact .inl h
          · exact .inr ⟨a, mid, rfl, hlt, h⟩
      · exact .inl h

end Recognizer

/-! ## The tokens before a place -/

namespace Form

open Recognizer

variable {α β γ : Type} {a : α} {ts us : List Token} {cs : List Char} {left : Nat}

/-- The tokens are the beginning of something that the form derives. -/
def Begins (f : Form α) (ts : List Token) : Prop :=
  ∃ a us, f.Derives a (ts ++ us) ∧ ∀ u ∈ us, u.IsValid

theorem begins_of_derives {f : Form α} (h : f.Derives a ts) : f.Begins ts :=
  ⟨a, [], by rwa [List.append_nil], fun _ hu => absurd hu List.not_mem_nil⟩

private theorem begins_token {f : Form α} (t : Token) (ht : t.IsValid) (h : f.Derives a [t]) :
    f.Begins [] :=
  ⟨a, [t], h, List.forall_mem_singleton.2 ht⟩

/-- There is something to write for every form. -/
theorem begins_nil (f : Form α) : f.Begins [] := by
  induction f with
  | word w => exact begins_token (a := ()) (.word w) trivial rfl
  | name => exact begins_token (.name "a") (isName_cons rfl rfl) rfl
  | number =>
      have hzero : (Token.number ['0']).IsValid :=
        ⟨List.cons_ne_nil _ _, List.forall_mem_singleton.2 rfl⟩
      exact begins_token (.number ['0']) hzero rfl
  | quoted use => exact begins_token (.quoted use []) IsBody.nil rfl
  | pair f g ihf ihg =>
      obtain ⟨a, us, hf, hus⟩ := ihf
      obtain ⟨b, vs, hg, hvs⟩ := ihg
      exact ⟨(a, b), us ++ vs, ⟨us, vs, rfl, hf, hg⟩, List.forall_mem_append.2 ⟨hus, hvs⟩⟩
  | choice f g ihf ihg =>
      obtain ⟨a, us, hf, hus⟩ := ihf
      exact ⟨a, us, .inl hf, hus⟩
  | optional default f ih => exact begins_of_derives (.inl ⟨rfl, rfl⟩)
  | many f ih => exact begins_of_derives ⟨[], .nil, rfl⟩
  | map make f ih =>
      obtain ⟨a, us, hf, hus⟩ := ih
      exact ⟨make a, us, ⟨a, rfl, hf⟩, hus⟩
  | named f ih => exact ih

/-- What begins the first part begins the pair, as the second part can be written somehow. -/
theorem Begins.pair_left {f : Form α} (h : f.Begins ts) (g : Form β) : (pair f g).Begins ts := by
  obtain ⟨a, us, hf, hus⟩ := h
  obtain ⟨b, vs, hg, hvs⟩ := g.begins_nil
  refine ⟨(a, b), us ++ vs, ⟨ts ++ us, vs, ?_, hf, hg⟩, List.forall_mem_append.2 ⟨hus, hvs⟩⟩
  rw [List.append_assoc]

theorem Begins.pair_right {f : Form α} {g : Form β} (hf : f.Derives a ts) (h : g.Begins us) :
    (pair f g).Begins (ts ++ us) := by
  obtain ⟨b, vs, hg, hvs⟩ := h
  exact ⟨(a, b), vs, ⟨ts, us ++ vs, List.append_assoc ts us vs, hf, hg⟩, hvs⟩

theorem Begins.many_first {f : Form α} (h : f.Begins ts) : (many f).Begins ts := by
  obtain ⟨a, us, hf, hus⟩ := h
  exact ⟨[a], us, ⟨[ts ++ us], .cons hf .nil, by simp⟩, hus⟩

theorem Begins.many_next {f : Form α} (hf : f.Derives a ts) (h : (many f).Begins us) :
    (many f).Begins (ts ++ us) := by
  obtain ⟨as, vs, ⟨tss, htss, heq⟩, hvs⟩ := h
  refine ⟨a :: as, vs, ⟨ts :: tss, .cons hf htss, ?_⟩, hvs⟩
  rw [List.flatten_cons, ← heq, List.append_assoc]

/-- At the beginning of the text are tokens that begin something that the form derives, and after
them so many characters are left. -/
def BeginsBefore (f : Form α) (cs : List Char) (left : Nat) : Prop :=
  ∃ ts rest, Written ts cs rest ∧ rest.length = left ∧ f.Begins ts

theorem beginsBefore_length (f : Form α) (cs : List Char) : f.BeginsBefore cs cs.length :=
  ⟨[], cs, .nil, rfl, f.begins_nil⟩

/-- What holds of the beginnings of one form holds of those of another that it is a part of. -/
theorem BeginsBefore.imp {f : Form α} {g : Form β} (h : f.BeginsBefore cs left)
    (hbegins : ∀ ts, f.Begins ts → g.Begins ts) : g.BeginsBefore cs left := by
  obtain ⟨ts, rest, hcs, hrest, hts⟩ := h
  exact ⟨ts, rest, hcs, hrest, hbegins ts hts⟩

/-- A part was recognized before, and its tokens come first. -/
theorem BeginsBefore.after_part {f : Form α} {g : Form β} {whole : Form γ} {mid : List Char}
    (hf : (f.recognizer cs).result = some (a, mid)) (hmid : g.BeginsBefore mid left)
    (hbegins : ∀ ts us, f.Derives a ts → g.Begins us → whole.Begins (ts ++ us)) :
    whole.BeginsBefore cs left := by
  obtain ⟨ts, hts, hcs⟩ := f.written_of_recognizer hf
  obtain ⟨us, rest, hmid, hrest, hus⟩ := hmid
  exact ⟨ts ++ us, rest, hcs.append hmid, hrest, hbegins ts us hts hus⟩

private theorem beginsBefore_of_many {f : Form α}
    (hf : ∀ {cs}, left ∈ (f.recognizer cs).misses → f.BeginsBefore cs left)
    (h : left ∈ (Recognizer.many f.recognizer cs).misses) : (many f).BeginsBefore cs left := by
  induction hlength : cs.length using Nat.strongRecOn generalizing cs with
  | ind n ih =>
      rcases mem_misses_many h with h | ⟨a, mid, ha, hlt, h⟩
      · exact (hf h).imp fun ts => Begins.many_first
      · have hmid := ih mid.length (by omega) h rfl
        exact hmid.after_part ha fun ts us => Begins.many_next

/-- Where a recognizer misses a part, the tokens before begin something that its form derives. -/
theorem begins_of_miss (f : Form α) (h : left ∈ (f.recognizer cs).misses) :
    f.BeginsBefore cs left := by
  induction f generalizing cs with
  | word w => exact absurd h List.not_mem_nil
  | name | number | quoted =>
      -- a token has no parts, so it can only be missed itself
      rcases mem_misses_named h with rfl | h
      · exact beginsBefore_length _ cs
      · exact absurd h List.not_mem_nil
  | pair f g ihf ihg =>
      rcases mem_misses_bind.1 h with h | ⟨a, mid, ha, h⟩
      · exact (ihf h).imp fun ts hts => hts.pair_left g
      · rcases mem_misses_bind.1 h with h | ⟨b, rest, hb, h⟩
        · exact (ihg h).after_part ha fun ts us => Begins.pair_right
        · exact absurd h List.not_mem_nil
  | choice f g ihf ihg =>
      rcases mem_misses_orElse h with h | h
      · exact (ihf h).imp fun ts ⟨a, us, hts, hus⟩ => ⟨a, us, .inl hts, hus⟩
      · exact (ihg h).imp fun ts ⟨a, us, hts, hus⟩ => ⟨a, us, .inr hts, hus⟩
  | optional default f ih =>
      rcases mem_misses_orElse h with h | h
      · exact (ih h).imp fun ts ⟨a, us, hts, hus⟩ => ⟨a, us, .inr hts, hus⟩
      · exact absurd h List.not_mem_nil
  | many f ih => exact beginsBefore_of_many ih h
  | map make f ih =>
      rcases mem_misses_bind.1 h with h | ⟨a, mid, ha, h⟩
      · exact (ih h).imp fun ts ⟨a, us, hts, hus⟩ => ⟨make a, us, ⟨a, rfl, hts⟩, hus⟩
      · exact absurd h List.not_mem_nil
  | named f ih =>
      rcases mem_misses_named h with rfl | h
      · exact beginsBefore_length _ cs
      · exact ih h

end Form

/-! ## Another ending -/

/-- Trivia stay trivia if what follows them begins as before or with a line feed. -/
theorem Trivia.of_head? {w rest rest' : List Char} (h : Trivia w rest)
    (hhead : ∀ c ∈ rest'.head?, c = '\n' ∨ c ∈ rest.head?) : Trivia w rest' := by
  induction h with
  | none => exact .none
  | space hc _ ih => exact .space hc (ih hhead)
  | @line body w rest hbody hend _ ih =>
      refine .line hbody ?_ (ih hhead)
      cases w with
      | nil =>
          intro c hc
          rcases hhead c hc with hc | hc
          · exact hc
          · exact hend c hc
      | cons d w => exact hend
  | block hbody _ ih => exact .block hbody (ih hhead)

theorem Trivia.append {v w rest : List Char} (hv : Trivia v (w ++ rest)) (hw : Trivia w rest) :
    Trivia (v ++ w) rest := by
  generalize hmid : w ++ rest = mid at hv
  induction hv with
  | none => exact hw
  | space hc _ ih => exact .space hc (ih hmid)
  | @line body v mid hbody hend _ ih =>
      subst hmid
      rw [List.append_assoc]
      exact .line hbody (by rwa [List.append_assoc]) (ih rfl)
  | @block body v mid hbody _ ih =>
      rw [List.append_assoc, List.cons_append, List.cons_append]
      exact .block hbody (ih hmid)

/-- What comes after some tokens can be replaced by a line feed and other tokens. -/
theorem LaidOut.resume {ts us : List Token} {w cs rest ending : List Char} (hw : Trivia w cs)
    (hts : Written ts cs rest) (hus : LaidOut us ending) :
    ∃ before, w ++ cs = before ++ rest ∧ LaidOut (ts ++ us) (before ++ '\n' :: ending) := by
  induction hts generalizing w with
  | @nil rest =>
      obtain ⟨v, cs', rfl, hv, hcs'⟩ := hus
      have hline : Trivia ('\n' :: v) cs' := .space rfl hv
      have hbefore : Trivia w ('\n' :: v ++ cs') :=
        hw.of_head? fun c hc => .inl (Option.some.inj hc).symm
      exact ⟨w, rfl, w ++ '\n' :: v, cs', by simp, hbefore.append hline, hcs'⟩
  | @cons t ts v cs rest ht hv _ ih =>
      obtain ⟨before, htext, v', cs', hafter, hv', hcs'⟩ := ih hv
      obtain ⟨c, tail, hhead, -⟩ := Token.exists_text_eq_cons ht
      refine ⟨w ++ (t.text ++ before), by simp [htext], w, t.text ++ (v' ++ cs'), ?_, ?_, ?_⟩
      · simp [hafter]
      · exact hw.of_head? fun d hd => .inr (by simpa [hhead] using hd)
      · exact .cons ht hv' hcs'

/-! ## The furthest place -/

section Files

open Recognizer

variable {text : List Char} {left p : Nat}

/-- A named part was looked for in a file after so many characters, and not found. -/
def IsMissedAt (text : List Char) (offset : Nat) : Prop :=
  ∃ left ∈ (Grammar.file text).misses, offset + left = text.length

private theorem length_or_beginsBefore_of_miss (h : left ∈ (Grammar.file text).misses) :
    left = text.length ∨ Language.file.BeginsBefore (skipTrivia text) left := by
  rw [Grammar.file, Grammar.sections_eq] at h
  rcases mem_misses_named h with h | h
  · exact .inl h
  · rcases mem_misses_bind.1 h with h | ⟨_, start, hstart, h⟩
    · exact absurd h List.not_mem_nil
    · cases hstart
      rcases mem_misses_bind.1 h with h | ⟨sections, rest, hsections, h⟩
      · exact .inr (Form.begins_of_miss Language.file h)
      · rcases mem_misses_bind.1 h with h | ⟨_, _, _, h⟩
        · -- the end of the text was missed, so what was read before it is a file
          rcases mem_misses_named h with h | h
          · obtain ⟨ts, hts, hcs⟩ := Form.written_of_recognizer Language.file hsections
            exact .inr ⟨ts, rest, hcs, h.symm, Form.begins_of_derives hts⟩
          · exact absurd h List.not_mem_nil
        · exact absurd h List.not_mem_nil

/-- The text before any place can be completed to a file. -/
theorem exists_ending_of_miss (h : left ∈ (Grammar.file text).misses) :
    ∃ before rest, text = before ++ rest ∧ rest.length = left ∧
      ∃ ending sections, recognize (before ++ ending) = .ok sections := by
  rcases length_or_beginsBefore_of_miss h with
    rfl | ⟨ts, rest, hcs, hrest, sections, us, hderives, hus⟩
  · have hempty : recognize [] = .ok [] :=
      recognize_eq_ok_iff.2 ⟨[], ⟨[], .nil, rfl⟩, [], [], rfl, .none, .nil⟩
    exact ⟨[], text, rfl, rfl, [], [], hempty⟩
  · obtain ⟨w, htext, hw⟩ := trivia_skipTrivia text
    have hending : LaidOut us (layOut (fun _ => [' ']) us) :=
      laidOut_layOut (fun _ => .space rfl .none) hus
    obtain ⟨before, hbefore, hlaid⟩ := LaidOut.resume hw hcs hending
    have hfile := recognize_eq_ok_iff.2 ⟨ts ++ us, hderives, hlaid⟩
    exact ⟨before, rest, htext.trans hbefore, hrest, _, sections, hfile⟩

private theorem furthest_cons (total first : Nat) (misses : List Nat) :
    furthest total (first :: misses) = furthest (min first total) misses := by
  have hmin : (if first < total then first else total) = min first total := by
    split <;> omega
  show furthest (if first < total then first else total) misses = _
  rw [hmin]

theorem isLeast_furthest (total : Nat) (misses : List Nat) :
    IsLeast {left | left ∈ total :: misses} (furthest total misses) := by
  induction misses generalizing total with
  | nil => exact ⟨List.mem_cons_self, fun left h => (List.mem_singleton.1 h).ge⟩
  | cons first misses ih =>
      obtain ⟨hmem, hle⟩ := ih (min first total)
      have hmin := hle List.mem_cons_self
      rw [furthest_cons]
      constructor
      · show _ ∈ total :: first :: misses
        rcases List.mem_cons.1 hmem with h | h
        · rcases Nat.le_total first total with hfirst | htotal
          · rw [h, Nat.min_eq_left hfirst]
            exact List.mem_cons_of_mem total List.mem_cons_self
          · rw [h, Nat.min_eq_right htotal]
            exact List.mem_cons_self
        · exact List.mem_cons_of_mem total (List.mem_cons_of_mem first h)
      · intro left hleft
        rcases List.mem_cons.1 hleft with rfl | hleft
        · omega
        · rcases List.mem_cons.1 hleft with rfl | hleft
          · omega
          · exact hle (List.mem_cons_of_mem _ hleft)

private theorem file_of_recognize_error (h : recognize text = .error p) :
    (Grammar.file text).result = none ∧
      p = text.length - furthest text.length (Grammar.file text).misses := by
  unfold recognize at h
  split at h
  · cases h
  · next misses hfile =>
      cases h
      rw [hfile]
      exact ⟨rfl, rfl⟩

/-- A refused file is missed itself, at its beginning. -/
private theorem length_mem_misses (h : (Grammar.file text).result = none) :
    text.length ∈ (Grammar.file text).misses := by
  rw [Grammar.file, result_named] at h
  exact length_mem_misses_named h

/-- The offset of an error of form is that of the furthest place, and the text before it can be
completed to a file. -/
theorem recognize_error_completable {source : String} (h : recognize source.toList = .error p) :
    parse source = .error (.form (Position.after (source.toList.take p))) ∧
      IsGreatest {offset | IsMissedAt source.toList offset} p ∧
      p ≤ source.toList.length ∧
      ∃ ending sections, recognize (source.toList.take p ++ ending) = .ok sections := by
  have hparse : parse source = .error (.form (Position.after (source.toList.take p))) := by
    unfold parse
    rw [h]
  generalize source.toList = text at h hparse ⊢
  obtain ⟨hnone, hp⟩ := file_of_recognize_error h
  obtain ⟨hmem, hle⟩ := isLeast_furthest text.length (Grammar.file text).misses
  have hmiss : furthest text.length (Grammar.file text).misses ∈ (Grammar.file text).misses := by
    rcases List.mem_cons.1 hmem with heq | hmiss
    · rw [heq]
      exact length_mem_misses hnone
    · exact hmiss
  generalize furthest text.length (Grammar.file text).misses = left at hp hle hmiss
  obtain ⟨before, rest, rfl, rfl, hending⟩ := exists_ending_of_miss hmiss
  obtain rfl : p = before.length := by simpa using hp
  have hgreatest : IsGreatest {offset | IsMissedAt (before ++ rest) offset} before.length := by
    refine ⟨⟨rest.length, hmiss, List.length_append.symm⟩, ?_⟩
    rintro offset ⟨left, hleft, heq⟩
    have hfurthest : rest.length ≤ left := hle (List.mem_cons_of_mem _ hleft)
    rw [List.length_append] at heq
    omega
  refine ⟨hparse, hgreatest, by simp, ?_⟩
  rwa [List.take_left]

/-- A file that ends in a comment, where the length of an offset should stand. -/
def unfinishedOffset : String := "scanner s \x7b message m \x7b r: offset(1, // no length"

/-- The comment belongs to what can be completed. -/
theorem recognize_unfinishedOffset :
    recognize unfinishedOffset.toList = .error 49 ∧
      parse unfinishedOffset = .error (.form ⟨1, 50⟩) ∧
      ∃ ending sections, recognize (unfinishedOffset.toList ++ ending) = .ok sections := by
  have herror : recognize unfinishedOffset.toList = .error 49 := by decide +kernel
  obtain ⟨hparse, -, -, hending⟩ := recognize_error_completable herror
  have hlength : unfinishedOffset.toList.take 49 = unfinishedOffset.toList := by decide
  have hposition : Position.after unfinishedOffset.toList = ⟨1, 50⟩ := by decide
  rw [hlength] at hparse hending
  rw [hposition] at hparse
  exact ⟨herror, hparse, hending⟩

end Files

end DeviceMessages.Definition

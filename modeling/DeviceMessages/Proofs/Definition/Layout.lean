import DeviceMessages.Proofs.Definition.Recognition
import DeviceMessages.Proofs.Definition.Trivia

/-!
# Tokens and their layout

A definition file is a list of tokens, laid out with trivia before, between and after them.
`Token` is what a token is, `Token.text` how it is written, and `Written` a run of tokens at the
beginning of a text, each with the trivia after it.

For each reader of `Definition.Token` there are two laws. What it takes is a token of its kind
(`written_of_...`), and it takes such a token whole if what follows cannot extend it
(`..._of_written`). Only names and numbers can be extended at all, so only they put a condition on
what follows.
-/

namespace DeviceMessages.Definition

open Recognizer

/-- The words and signs that are always the same. -/
inductive Word where
  | template
  | scanner
  | message
  | offset
  | between
  | equals
  | semicolon
  | colon
  | comma
  | openBrace
  | closeBrace
  | openParenthesis
  | closeParenthesis
  | openBracket
  | closeBracket
deriving DecidableEq

/-- How a word is written. -/
def Word.text : Word → String
  | .template => "template"
  | .scanner => "scanner"
  | .message => "message"
  | .offset => "offset"
  | .between => "between"
  | .equals => "="
  | .semicolon => ";"
  | .colon => ":"
  | .comma => ","
  | .openBrace => "\x7b"
  | .closeBrace => "\x7d"
  | .openParenthesis => "("
  | .closeParenthesis => ")"
  | .openBracket => "["
  | .closeBracket => "]"

/-- What a quoted string is written for. -/
inductive Use where
  | template
  | delimiter
  | parameter
deriving DecidableEq

/-- A token of a definition file. Numbers and strings are as they are written. -/
inductive Token where
  | word (w : Word)
  | name (text : String)
  | number (digits : List Char)
  | quoted (use : Use) (body : List Char)
deriving DecidableEq

/-- A letter or an underscore, and then letters, digits and underscores. -/
def IsName (cs : List Char) : Prop :=
  ∃ c rest, cs = c :: rest ∧ isNameStart c = true ∧ ∀ d ∈ rest, isNameChar d = true

theorem isName_cons {c : Char} {cs : List Char} (hc : isNameStart c = true)
    (hcs : cs.all isNameChar = true) : IsName (c :: cs) :=
  ⟨c, cs, rfl, hc, List.all_eq_true.1 hcs⟩

/-- What can stand between quotes: backslashes with the character after them, and characters other
than quotes and backslashes. -/
inductive IsBody : List Char → Prop
  | nil : IsBody []
  | plain {c : Char} {cs : List Char} (hc : c ≠ '"' ∧ c ≠ '\\') (hcs : IsBody cs) : IsBody (c :: cs)
  | pair {c : Char} {cs : List Char} (hcs : IsBody cs) : IsBody ('\\' :: c :: cs)

namespace Token

/-- How a token is written. -/
def text : Token → List Char
  | .word w => w.text.toList
  | .name text => text.toList
  | .number digits => digits
  | .quoted _ body => '"' :: body ++ ['"']

/-- The form of a token. -/
def IsValid : Token → Prop
  | .word _ => True
  | .name text => IsName text.toList
  | .number digits => digits ≠ [] ∧ ∀ d ∈ digits, d.isDigit = true
  | .quoted _ body => IsBody body

end Token

/-- The text begins with the tokens, each of which may have trivia after it, and then comes
`rest`. -/
inductive Written : List Token → List Char → List Char → Prop
  | nil {rest : List Char} : Written [] rest rest
  | cons {t : Token} {ts : List Token} {w cs rest : List Char} (ht : t.IsValid) (hw : Trivia w cs)
      (hts : Written ts cs rest) : Written (t :: ts) (t.text ++ (w ++ cs)) rest

/-- The text consists of the tokens, with trivia before, between and after them. -/
def LaidOut (ts : List Token) (text : List Char) : Prop :=
  ∃ w cs, text = w ++ cs ∧ Trivia w cs ∧ Written ts cs []

namespace Written

variable {t : Token} {ts us : List Token} {cs mid rest : List Char}

theorem append (h : Written ts cs mid) (h' : Written us mid rest) :
    Written (ts ++ us) cs rest := by
  induction h with
  | nil => exact h'
  | cons ht hw _ ih => exact .cons ht hw (ih h')

theorem append_iff :
    Written (ts ++ us) cs rest ↔ ∃ mid, Written ts cs mid ∧ Written us mid rest := by
  constructor
  · intro h
    induction ts generalizing cs with
    | nil => exact ⟨cs, .nil, h⟩
    | cons t ts ih =>
        cases h with
        | cons ht hw hts =>
            obtain ⟨mid, hmid, hrest⟩ := ih hts
            exact ⟨mid, .cons ht hw hmid, hrest⟩
  · rintro ⟨mid, hts, hus⟩
    exact hts.append hus

theorem nil_iff : Written [] cs rest ↔ cs = rest := by
  constructor
  · intro h; cases h; rfl
  · rintro rfl; exact .nil

theorem singleton_iff :
    Written [t] cs rest ↔ t.IsValid ∧ ∃ w, Trivia w rest ∧ cs = t.text ++ (w ++ rest) := by
  constructor
  · intro h
    cases h with
    | cons ht hw hts => cases hts; exact ⟨ht, _, hw, rfl⟩
  · rintro ⟨ht, w, hw, rfl⟩
    exact .cons ht hw .nil

end Written

/-- The text of tokens with certain trivia before, between and after them. -/
def layOut (gap : Nat → List Char) : List Token → List Char
  | [] => gap 0
  | t :: ts => gap 0 ++ (t.text ++ layOut (fun i => gap (i + 1)) ts)

theorem laidOut_layOut {gap : Nat → List Char} {ts : List Token} (hgap : ∀ i, Filler (gap i))
    (hts : ∀ t ∈ ts, t.IsValid) : LaidOut ts (layOut gap ts) := by
  induction ts generalizing gap with
  | nil => exact ⟨gap 0, [], (List.append_nil _).symm, (hgap 0).trivia [], .nil⟩
  | cons t ts ih =>
      obtain ⟨w, cs, htext, hw, hcs⟩ := ih (fun i => hgap (i + 1)) fun u hu =>
        hts u (List.mem_cons_of_mem t hu)
      refine ⟨gap 0, t.text ++ (w ++ cs), by rw [layOut, htext], (hgap 0).trivia _, ?_⟩
      exact .cons (hts t List.mem_cons_self) hw hcs

/-! ## How tokens begin -/

/-- A class of characters that a token can begin with or be extended by. -/
inductive Lead where
  | char (c : Char)
  | nameStart
  | nameChar
  | digit

/-- The characters of a class. -/
def Lead.has : Lead → Char → Bool
  | .char c, d => d == c
  | .nameStart, d => isNameStart d
  | .nameChar, d => isNameChar d
  | .digit, d => d.isDigit

def Word.head (w : Word) : Char := w.text.toList.headD ' '

/-- How a token begins. -/
def Token.lead : Token → Lead
  | .word w => .char w.head
  | .name _ => .nameStart
  | .number _ => .digit
  | .quoted _ _ => .char '"'

theorem Token.exists_text_eq_cons {t : Token} (h : t.IsValid) :
    ∃ c cs, t.text = c :: cs ∧ t.lead.has c = true := by
  cases t with
  | word w => cases w <;> exact ⟨_, _, rfl, rfl⟩
  | name text =>
      obtain ⟨c, rest, hcs, hc, _⟩ := h
      exact ⟨c, rest, hcs, hc⟩
  | number digits =>
      obtain ⟨hne, hdigits⟩ := h
      cases digits with
      | nil => exact absurd rfl hne
      | cons d ds => exact ⟨d, ds, rfl, hdigits d List.mem_cons_self⟩
  | quoted use body => exact ⟨'"', _, rfl, rfl⟩

def triviaHeads : List Char := [' ', '\t', '\r', '\n', '/']

private theorem mem_triviaHeads_of_isSpace {c : Char} (h : isSpace c = true) :
    c ∈ triviaHeads := by
  have hc : c = ' ' ∨ c = '\t' ∨ c = '\r' ∨ c = '\n' := by
    simpa [isSpace, or_assoc] using h
  rcases hc with rfl | rfl | rfl | rfl <;> decide

/-- No trivia begin with a character of the class. -/
def beginsNoTrivia (inClass : Char → Bool) : Bool := triviaHeads.all fun c => !inClass c

private theorem eq_false_of_beginsNoTrivia {inClass : Char → Bool} {c : Char}
    (h : beginsNoTrivia inClass = true) (hc : c ∈ triviaHeads) : inClass c = false := by
  have hall := List.all_eq_true.1 h c hc
  rwa [Bool.not_eq_true'] at hall

private theorem lead_beginsNoTrivia (t : Token) : beginsNoTrivia t.lead.has = true := by
  cases t with
  | word w => cases w <;> rfl
  | name text => rfl
  | number digits => rfl
  | quoted use body => rfl

theorem settled_nil : Settled [] := by
  unfold Settled
  rw [skipTrivia.eq_def]

private theorem settled_cons {c : Char} (h : c ∉ triviaHeads) (cs : List Char) :
    Settled (c :: cs) := by
  have hspace : isSpace c = false := by
    cases hc : isSpace c with
    | false => rfl
    | true => exact absurd (mem_triviaHeads_of_isSpace hc) h
  have hslash : ¬ c = '/' := fun hc => h (by rw [hc]; decide)
  unfold Settled
  rw [skipTrivia.eq_def]
  simp only [hspace, hslash, Bool.false_eq_true, if_false]

theorem Written.exists_head {t : Token} {ts : List Token} {cs rest : List Char}
    (h : Written (t :: ts) cs rest) : ∃ c cs', cs = c :: cs' ∧ t.lead.has c = true := by
  cases h with
  | @cons _ _ w mid _ ht hw hts =>
      obtain ⟨c, u, htext, hc⟩ := Token.exists_text_eq_cons ht
      exact ⟨c, u ++ (w ++ mid), by rw [htext]; rfl, hc⟩

theorem Written.length_lt {ts : List Token} {cs rest : List Char} (h : Written ts cs rest)
    (hne : ts ≠ []) : rest.length < cs.length := by
  induction h with
  | nil => exact absurd rfl hne
  | @cons t ts w cs rest ht _ hts ih =>
      obtain ⟨c, u, htext, _⟩ := Token.exists_text_eq_cons ht
      have hle : rest.length ≤ cs.length := by
        cases ts with
        | nil => exact Nat.le_of_eq (by rw [Written.nil_iff.1 hts])
        | cons t ts => exact Nat.le_of_lt (ih (List.cons_ne_nil t ts))
      simp only [htext, List.cons_append, List.length_cons, List.length_append]
      omega

/-- Tokens begin without trivia. -/
theorem Written.settled {ts : List Token} {cs rest : List Char} (h : Written ts cs rest)
    (hrest : Settled rest) : Settled cs := by
  cases ts with
  | nil => rwa [Written.nil_iff.1 h]
  | cons t ts =>
      obtain ⟨c, cs', rfl, hc⟩ := h.exists_head
      refine settled_cons (fun hmem => ?_) cs'
      rw [eq_false_of_beginsNoTrivia (lead_beginsNoTrivia t) hmem] at hc
      cases hc

/-- Trivia stop a run of characters of a class, if what follows the trivia does. -/
theorem head?_append_of_trivia {inClass : Char → Bool} {w rest : List Char} (h : Trivia w rest)
    (hclass : beginsNoTrivia inClass = true)
    (hrest : ∀ c ∈ rest.head?, inClass c = false) :
    ∀ c ∈ (w ++ rest).head?, inClass c = false := by
  cases h with
  | none => exact hrest
  | space hc _ =>
      rintro c ⟨⟩
      exact eq_false_of_beginsNoTrivia hclass (mem_triviaHeads_of_isSpace hc)
  | line _ _ _ =>
      rintro c ⟨⟩
      exact eq_false_of_beginsNoTrivia hclass (show '/' ∈ triviaHeads by decide)
  | block _ _ =>
      rintro c ⟨⟩
      exact eq_false_of_beginsNoTrivia hclass (show '/' ∈ triviaHeads by decide)

/-! ## Readers of tokens -/

variable {cs rest : List Char}

theorem result_token {α : Type} (read : List Char → Option (α × List Char)) (cs : List Char) :
    (token read cs).result = (read cs).map fun taken => (taken.1, skipTrivia taken.2) := rfl

/-- What a reader leaves, without the trivia that it begins with, follows the token. -/
private theorem written_of_text {t : Token} {after : List Char} (ht : t.IsValid)
    (hcs : cs = t.text ++ after) : Written [t] cs (skipTrivia after) := by
  obtain ⟨w, hafter, hw⟩ := trivia_skipTrivia after
  rw [hcs]
  exact Written.singleton_iff.2 ⟨ht, w, hw, by rw [← hafter]⟩

private theorem exists_of_result_token {α : Type} {read : List Char → Option (α × List Char)}
    {a : α} (h : (token read cs).result = some (a, rest)) :
    ∃ after, read cs = some (a, after) ∧ rest = skipTrivia after := by
  rw [result_token, Option.map_eq_some_iff] at h
  obtain ⟨⟨a', after⟩, hread, heq⟩ := h
  cases heq
  exact ⟨after, hread, rfl⟩

private theorem result_token_of_read {α : Type} {read : List Char → Option (α × List Char)}
    {a : α} {w : List Char} (hw : Trivia w rest) (hrest : Settled rest)
    (hread : read cs = some (a, w ++ rest)) : (token read cs).result = some (a, rest) := by
  rw [result_token, hread, Option.map_some, skipTrivia_of_trivia hw hrest]

/-! ### Words -/

theorem written_of_fixed {w : Word} {u : Unit} (h : (fixed w.text cs).result = some (u, rest)) :
    Written [.word w] cs rest := by
  obtain ⟨after, hread, rfl⟩ := exists_of_result_token h
  unfold readFixed? at hread
  split at hread
  · next hprefix =>
      cases hread
      obtain ⟨tail, htail⟩ := List.isPrefixOf_iff_prefix.1 hprefix
      exact written_of_text trivial (by rw [← htail, List.drop_left]; rfl)
  · cases hread

theorem fixed_of_written {w : Word} (h : Written [.word w] cs rest) (hrest : Settled rest) :
    (fixed w.text cs).result = some ((), rest) := by
  obtain ⟨_, v, hv, rfl⟩ := Written.singleton_iff.1 h
  refine result_token_of_read hv hrest ?_
  have hprefix : w.text.toList.isPrefixOf (w.text.toList ++ (v ++ rest)) = true :=
    List.isPrefixOf_iff_prefix.2 (List.prefix_append _ _)
  show readFixed? w.text.toList (w.text.toList ++ (v ++ rest)) = _
  rw [readFixed?, if_pos hprefix, List.drop_left]

/-! ### Names -/

theorem written_of_name {n : String} (h : (name cs).result = some (n, rest)) :
    Written [.name n] cs rest := by
  rw [name, result_named] at h
  obtain ⟨after, hread, rfl⟩ := exists_of_result_token h
  obtain ⟨⟨word, after'⟩, hname, heq⟩ := Option.map_eq_some_iff.1 hread
  cases heq
  cases cs with
  | nil => cases hname
  | cons c cs =>
      rw [readName?] at hname
      split at hname
      · next hc =>
          cases hname
          refine written_of_text ?_ ?_
          · refine ⟨c, cs.takeWhile isNameChar, ?_, hc, fun d hd => Text.mem_takeWhile hd⟩
            rw [String.toList_ofList]
          · rw [Token.text, String.toList_ofList, List.cons_append,
              List.takeWhile_append_dropWhile]
      · cases hname

theorem name_of_written {n : String} (h : Written [.name n] cs rest) (hrest : Settled rest)
    (hstop : ∀ c ∈ rest.head?, isNameChar c = false) :
    (name cs).result = some (n, rest) := by
  obtain ⟨⟨c, tail, htext, hc, htail⟩, w, hw, rfl⟩ := Written.singleton_iff.1 h
  have hstop' := head?_append_of_trivia hw rfl hstop
  rw [name, result_named]
  refine result_token_of_read hw hrest ?_
  have hread : readName? (n.toList ++ (w ++ rest)) = some (n.toList, w ++ rest) := by
    rw [htext, List.cons_append, readName?, if_pos hc, Text.takeWhile_run htail hstop',
      Text.dropWhile_run htail hstop']
  simp only [Token.text, hread, Option.map_some, String.ofList_toList]

/-! ### Numbers -/

theorem written_of_number {digits : List Char} (h : (number cs).result = some (digits, rest)) :
    Written [.number digits] cs rest := by
  rw [number, result_named] at h
  obtain ⟨after, hread, rfl⟩ := exists_of_result_token h
  unfold readDigits? at hread
  split at hread
  · cases hread
  · next hne =>
      cases hread
      refine written_of_text ⟨by simpa using hne, fun d hd => Text.mem_takeWhile hd⟩ ?_
      rw [Token.text, List.takeWhile_append_dropWhile]

theorem number_of_written {digits : List Char} (h : Written [.number digits] cs rest)
    (hrest : Settled rest) (hstop : ∀ c ∈ rest.head?, c.isDigit = false) :
    (number cs).result = some (digits, rest) := by
  obtain ⟨⟨hne, hdigits⟩, w, hw, rfl⟩ := Written.singleton_iff.1 h
  have hstop' := head?_append_of_trivia hw rfl hstop
  rw [number, result_named]
  refine result_token_of_read hw hrest ?_
  have hempty : digits.isEmpty = false := by simpa using hne
  rw [Token.text, readDigits?, Text.takeWhile_run hdigits hstop',
    Text.dropWhile_run hdigits hstop', hempty, if_neg Bool.false_ne_true]

/-! ### Quoted strings -/

private theorem isBody_of_readBody? {body after : List Char}
    (h : readBody? cs = some (body, after)) : IsBody body ∧ cs = body ++ '"' :: after := by
  fun_induction readBody? cs generalizing body with
  | case1 cs => cases h; exact ⟨.nil, rfl⟩
  | case2 c cs ih =>
      obtain ⟨⟨inner, rest⟩, hread, heq⟩ := Option.map_eq_some_iff.1 h
      cases heq
      obtain ⟨hinner, hcs⟩ := ih hread
      exact ⟨.pair hinner, by rw [hcs]; rfl⟩
  | case3 => cases h
  | case4 c cs hquote hpair hlone ih =>
      obtain ⟨⟨inner, rest⟩, hread, heq⟩ := Option.map_eq_some_iff.1 h
      cases heq
      obtain ⟨hinner, hcs⟩ := ih hread
      have hbackslash : c ≠ '\\' := by
        rintro rfl
        cases cs with
        | nil => exact hlone rfl rfl
        | cons d ds => exact hpair d ds rfl rfl
      exact ⟨.plain ⟨hquote, hbackslash⟩ hinner, by rw [hcs]; rfl⟩
  | case5 => cases h

/-- What can stand between quotes is read up to the quote behind it. -/
theorem readBody?_of_isBody {body : List Char} (h : IsBody body) (after : List Char) :
    readBody? (body ++ '"' :: after) = some (body, after) := by
  induction h with
  | nil => rfl
  | @plain c cs hc _ ih =>
      rw [List.cons_append, readBody?, ih]
      · rfl
      · exact hc.1
      · exact fun d ds hd => absurd hd hc.2
      · exact fun hd => absurd hd hc.2
  | pair _ ih =>
      rw [List.cons_append, List.cons_append, readBody?, ih]
      rfl

theorem written_of_quotedBody {body : List Char} (use : Use)
    (h : (quotedBody cs).result = some (body, rest)) : Written [.quoted use body] cs rest := by
  rw [quotedBody, result_named] at h
  obtain ⟨after, hread, rfl⟩ := exists_of_result_token h
  unfold readQuoted? at hread
  split at hread
  · obtain ⟨hbody, hcs⟩ := isBody_of_readBody? hread
    exact written_of_text hbody (by rw [hcs, Token.text]; simp)
  · cases hread

theorem quotedBody_of_written {use : Use} {body : List Char}
    (h : Written [.quoted use body] cs rest) (hrest : Settled rest) :
    (quotedBody cs).result = some (body, rest) := by
  obtain ⟨hbody, w, hw, rfl⟩ := Written.singleton_iff.1 h
  rw [quotedBody, result_named]
  refine result_token_of_read hw hrest ?_
  have hread := readBody?_of_isBody hbody (w ++ rest)
  simpa [Token.text, readQuoted?] using hread

end DeviceMessages.Definition

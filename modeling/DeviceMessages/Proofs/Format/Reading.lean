import DeviceMessages.Proofs.Format.Grammar

/-!
# Reading a field format by its grammar

That reading follows the grammar is proved in two steps. Every text is either a format or has a
fault (`exists_format_or_fault`), because a text can always be cut where its parts end. And reading
gives what the grammar says for texts of both sorts (`readParts_of_format`, `readParts_of_fault`).
As reading gives one answer, a text is no format if it has a fault, and has one fault at most.

## Main result

* `parse_follows_grammar` — a text is read exactly if it is a format, with the parts it is written
  from, and refused with exactly the fault that it has.
-/

namespace DeviceMessages.FieldFormat

open Decimal (valueOf wordSize)
open Text (utf8Length offsetOf)

variable {source start cs rest : List Char}

/-! ## Literal text -/

/-- Where literal text ends: with the whole text, or at a percent sign that no other one follows. -/
def EndsLiteral : List Char → Prop
  | [] => True
  | c :: cs => c = '%' ∧ cs.head? ≠ some '%'

theorem literalText_of_writes {text : List Char} (h : WritesLiteral text cs)
    (hrest : EndsLiteral rest) : literalText (cs ++ rest) = (text, rest) := by
  induction h with
  | nil =>
      cases rest with
      | nil => rfl
      | cons c cs =>
          obtain ⟨rfl, hnext⟩ := hrest
          cases cs with
          | nil => rfl
          | cons d cs =>
              have hd : d ≠ '%' := fun hd => hnext (congrArg some hd)
              simp [literalText, hd]
  | char hc _ ih => simp [literalText, hc, ih]
  | percent _ ih => simp [literalText, ih]

theorem literalText_of_writes_all {text : List Char} (h : WritesLiteral text cs) :
    literalText cs = (text, []) := by
  have hliteral : literalText (cs ++ []) = (text, []) := literalText_of_writes h trivial
  rwa [List.append_nil] at hliteral

/-- Every text can be cut where its literal text ends. -/
theorem exists_writesLiteral (cs : List Char) :
    ∃ text before rest, cs = before ++ rest ∧ WritesLiteral text before ∧ EndsLiteral rest := by
  induction cs using literalText.induct with
  | case1 cs _ _ _ ih =>
      obtain ⟨text, before, rest, rfl, htext, hrest⟩ := ih
      exact ⟨'%' :: text, '%' :: '%' :: before, rest, rfl, .percent htext, hrest⟩
  | case2 cs hnext =>
      refine ⟨[], [], '%' :: cs, rfl, .nil, rfl, ?_⟩
      intro hhead
      obtain ⟨others, hothers⟩ := List.head?_eq_some_iff.1 hhead
      exact hnext others hothers
  | case3 c cs _ hc _ _ _ ih =>
      obtain ⟨text, before, rest, rfl, htext, hrest⟩ := ih
      exact ⟨c :: text, c :: before, rest, rfl, .char hc htext, hrest⟩
  | case4 => exact ⟨[], [], [], rfl, .nil, trivial⟩

/-! ## Width and precision -/

theorem readNumber_of_writes {number : Option Nat} {ds : List Char}
    (h : WritesNumber number ds) (hend : EndsDigits rest) (source : List Char) :
    Directive.readNumber source (ds ++ rest) = .ok (number, rest) := by
  cases h with
  | absent =>
      have htake : rest.takeWhile Char.isDigit = [] := Text.takeWhile_of_head? hend
      simp [Directive.readNumber, htake]
  | digits hne hdigits hle =>
      have htake := Text.takeWhile_run hdigits hend
      have hdrop := Text.dropWhile_run hdigits hend
      simp [Directive.readNumber, htake, hdrop, hne, hle]

theorem readNumber_of_oversized {ds : List Char} (h : IsOversized ds) (hend : EndsDigits rest)
    (before : List Char) :
    Directive.readNumber (before ++ (ds ++ rest)) (ds ++ rest) =
      .error (.tooWide (min (valueOf ds) (wordSize - 1)) (utf8Length before)) := by
  obtain ⟨hne, hdigits, hlt⟩ := h
  have htake := Text.takeWhile_run hdigits hend
  have hle : ¬ valueOf ds ≤ maxWidth := by omega
  simp [Directive.readNumber, htake, hne, hle, wordSize]

/-- Every text can be cut where the digits at its front end, and they are a number in range or an
oversized one. -/
theorem exists_digits (cs : List Char) :
    ∃ ds rest, cs = ds ++ rest ∧ EndsDigits rest ∧
      ((∃ number, WritesNumber number ds) ∨ IsOversized ds) := by
  obtain ⟨ds, rest, hcs, hdigits, hend⟩ := Text.exists_run Char.isDigit cs
  refine ⟨ds, rest, hcs, hend, ?_⟩
  by_cases hne : ds = []
  · rw [hne]
    exact .inl ⟨none, .absent⟩
  · by_cases hle : valueOf ds ≤ maxWidth
    · exact .inl ⟨_, .digits hne hdigits hle⟩
    · exact .inr ⟨hne, hdigits, by omega⟩

theorem readPrecision_of_writes {precision : Option Nat} {p : List Char}
    (h : WritesPrecision precision p) (hend : EndsDigits rest)
    (hpoint : precision = none → ∀ c ∈ rest.head?, c ≠ '.') (source : List Char) :
    Directive.readPrecision source (p ++ rest) = .ok (precision, rest) := by
  cases h with
  | absent =>
      cases rest with
      | nil => rfl
      | cons c rest =>
          have hc : c ≠ '.' := hpoint rfl c rfl
          simp [Directive.readPrecision, hc]
  | point hnumber =>
      simp [Directive.readPrecision, readNumber_of_writes hnumber hend, bind, Except.bind]

/-! ## The beginning of a directive -/

theorem isFlag_eq_false_iff {c : Char} : Directive.isFlag c = false ↔ c ∉ flagChars := by
  rw [← Bool.not_eq_true, isFlag_iff]

theorem isLengthModifier_eq_false_iff {c : Char} :
    Directive.isLengthModifier c = false ↔ c ∉ lengthChars := by
  rw [← Bool.not_eq_true, isLengthModifier_iff]

/-- The flags are read as far as they go. -/
theorem flags_run {flags : List Char} (hflags : ∀ c ∈ flags, c ∈ flagChars)
    (hend : ∀ c ∈ rest.head?, c ∉ flagChars) :
    (flags ++ rest).takeWhile Directive.isFlag = flags ∧
      (flags ++ rest).dropWhile Directive.isFlag = rest := by
  have hrun : ∀ c ∈ flags, Directive.isFlag c = true := fun c hc => isFlag_iff.2 (hflags c hc)
  have hstop : ∀ c ∈ rest.head?, Directive.isFlag c = false :=
    fun c hc => isFlag_eq_false_iff.2 (hend c hc)
  exact ⟨Text.takeWhile_run hrun hstop, Text.dropWhile_run hrun hstop⟩

/-- What is read where the conversion of a directive has to stand. -/
def readConversion (source start : List Char) (flags : Flags) (width precision : Option Nat) :
    List Char → Except FormatError (Directive × List Char)
  | [] => .error (.incomplete (offsetOf source start))
  | c :: rest =>
    match Conversion.ofChar? c with
    | some conversion => .ok (⟨flags, width, precision, conversion⟩, rest)
    | none => .error (.unknownConversion c (offsetOf source (c :: rest)))

/-- After the beginning of a directive, it is the next character that decides. -/
theorem read_of_opens {flags : Flags} {width precision : Option Nat} {head : List Char}
    (h : Opens flags width precision head rest) (source start : List Char) :
    Directive.read source start (head ++ rest) =
      readConversion source start flags width precision rest := by
  cases h with
  | @mk flags w p lengths _ _ _ hflags hflagsEnd hwidth hwidthEnd hprecision hprecisionEnd hpoint
      hlengths hlengthsEnd =>
      have hruns := flags_run hflags hflagsEnd
      have hw := readNumber_of_writes hwidth hwidthEnd source
      have hp := readPrecision_of_writes hprecision hprecisionEnd hpoint source
      have hl : (lengths ++ rest).dropWhile Directive.isLengthModifier = rest :=
        Text.dropWhile_run (fun c hc => isLengthModifier_iff.2 (hlengths c hc))
          (fun c hc => isLengthModifier_eq_false_iff.2 (hlengthsEnd c hc))
      simp only [List.append_assoc] at hruns hw hp hl ⊢
      simp only [Directive.read, hruns, hw, hp, hl, bind, Except.bind]
      cases rest <;> rfl

/-- A directive begins as far as it goes before the letter of its conversion, because that letter is
none of the characters that stand before it. -/
theorem exists_opens_of_writesDirective {d : Directive} (h : WritesDirective d cs)
    (rest : List Char) :
    ∃ head letter, cs = '%' :: head ++ [letter] ∧ (letter, d.conversion) ∈ conversionLetters ∧
      Opens d.flags d.width d.precision head (letter :: rest) := by
  cases h with
  | @mk flags w p lengths _ precision letter _ hflags hmaximal hwidth hprecision hlengths hletter =>
      obtain ⟨_, hnotPoint, hnotDigit, hnotLength⟩ := conversionLetter_facts hletter
      refine ⟨flags ++ w ++ p ++ lengths, letter, by simp, hletter, ?_⟩
      have hafter : ∀ c ∈ (lengths ++ letter :: rest).head?, c ≠ '.' ∧ c.isDigit = false := by
        intro c hc
        cases lengths with
        | nil => cases hc; exact ⟨hnotPoint, hnotDigit⟩
        | cons _ _ => cases hc; exact lengthChar_facts (hlengths _ List.mem_cons_self)
      refine .mk hflags ?_ hwidth ?_ hprecision (fun c hc => (hafter c hc).2)
        (fun _ c hc => (hafter c hc).1) hlengths ?_
      · intro c hc
        refine hmaximal c ?_
        simpa [List.head?_append] using hc
      · cases hprecision with
        | absent => exact fun c hc => (hafter c hc).2
        | point _ => intro c hc; cases hc; rfl
      · intro c hc
        cases hc
        exact hnotLength

/-! ## Percent signs -/

private theorem percent_notMem_flags {flags : List Char} (hflags : ∀ c ∈ flags, c ∈ flagChars) :
    '%' ∉ flags := by
  have hnot : '%' ∉ flagChars := by decide
  exact fun hmem => hnot (hflags _ hmem)

private theorem percent_notMem_number {number : Option Nat} {ds : List Char}
    (h : WritesNumber number ds) : '%' ∉ ds := by
  cases h with
  | absent => exact List.not_mem_nil
  | digits _ hdigits _ => exact fun hmem => absurd (hdigits _ hmem) (by decide)

/-- No percent sign stands before the conversion. -/
theorem percent_notMem_of_opens {flags : Flags} {width precision : Option Nat} {head : List Char}
    (h : Opens flags width precision head rest) : '%' ∉ head := by
  cases h with
  | mk hflags _ hwidth _ hprecision _ _ hlengths _ =>
      have hlength : '%' ∉ lengthChars := by decide
      simp only [List.mem_append, not_or]
      refine ⟨⟨⟨percent_notMem_flags hflags, percent_notMem_number hwidth⟩, ?_⟩,
        fun hmem => hlength (hlengths _ hmem)⟩
      cases hprecision with
      | absent => exact List.not_mem_nil
      | point hds => simpa using percent_notMem_number hds

private theorem head?_append_ne_percent {front : List Char} (hfront : '%' ∉ front)
    (hrest : front = [] → rest.head? ≠ some '%') : (front ++ rest).head? ≠ some '%' := by
  cases front with
  | nil => exact hrest rfl
  | cons c front =>
      intro hhead
      exact hfront (Option.some.inj hhead ▸ List.mem_cons_self)

/-! ## Oversized numbers -/

/-- An oversized width is met when its digits end. -/
theorem read_of_wideWidth {flags ds : List Char} (hflags : ∀ c ∈ flags, c ∈ flagChars)
    (hmaximal : ∀ c ∈ ds.head?, c ∉ flagChars) (hds : IsOversized ds) (hend : EndsDigits rest)
    (front start : List Char) :
    Directive.read (front ++ (flags ++ (ds ++ rest))) start (flags ++ (ds ++ rest)) =
      .error (.tooWide (min (valueOf ds) (wordSize - 1)) (utf8Length (front ++ flags))) := by
  have hflagsEnd : ∀ c ∈ (ds ++ rest).head?, c ∉ flagChars := by
    cases ds with
    | nil => exact absurd rfl hds.1
    | cons d ds => exact hmaximal
  have hruns := flags_run hflags hflagsEnd
  have hnumber := readNumber_of_oversized hds hend (front ++ flags)
  rw [List.append_assoc] at hnumber
  simp only [Directive.read, hruns, hnumber, bind, Except.bind]

/-- An oversized precision is met when its digits end. -/
theorem read_of_widePrecision {flags w ds : List Char} {width : Option Nat}
    (hflags : ∀ c ∈ flags, c ∈ flagChars) (hmaximal : ∀ c ∈ (w ++ ['.']).head?, c ∉ flagChars)
    (hwidth : WritesNumber width w) (hds : IsOversized ds) (hend : EndsDigits rest)
    (front start : List Char) :
    Directive.read (front ++ (flags ++ (w ++ '.' :: (ds ++ rest)))) start
        (flags ++ (w ++ '.' :: (ds ++ rest))) =
      .error (.tooWide (min (valueOf ds) (wordSize - 1))
        (utf8Length (front ++ flags ++ w ++ ['.']))) := by
  have hflagsEnd : ∀ c ∈ (w ++ '.' :: (ds ++ rest)).head?, c ∉ flagChars := by
    intro c hc
    refine hmaximal c ?_
    simpa [List.head?_append] using hc
  have hwidthEnd : EndsDigits ('.' :: (ds ++ rest)) := by
    intro c hc
    cases hc
    rfl
  have hruns := flags_run hflags hflagsEnd
  have hw := readNumber_of_writes hwidth hwidthEnd
  have hnumber := readNumber_of_oversized hds hend (front ++ flags ++ w ++ ['.'])
  simp only [List.append_assoc, List.cons_append, List.nil_append] at hnumber ⊢
  simp only [Directive.read, Directive.readPrecision, hruns, hw, hnumber, bind, Except.bind]

/-! ## Reading formats and texts with a fault -/

/-- After its literal text, a text is read as a directive and what follows it. -/
theorem readParts_of_writesLiteral {text before : List Char} (h : WritesLiteral text before)
    (hcs : cs.head? ≠ some '%') :
    readParts (before ++ '%' :: cs) =
      (Directive.read (before ++ '%' :: cs) ('%' :: cs) cs >>= fun (directive, afterDirective) =>
        match literalText afterDirective with
        | (trailing, []) => .ok (text, directive, trailing)
        | (_, c :: rest) =>
          .error (.tooManyConversions (offsetOf (before ++ '%' :: cs) (c :: rest)))) := by
  have hliteral : literalText (before ++ '%' :: cs) = (text, '%' :: cs) :=
    literalText_of_writes h ⟨rfl, hcs⟩
  rw [readParts, hliteral]
  show (Directive.read _ _ cs >>= _) = _
  congr 1
  funext parts
  obtain ⟨directive, afterDirective⟩ := parts
  dsimp only
  rcases literalText afterDirective with ⟨trailing, _ | ⟨c, rest⟩⟩ <;> rfl

/-- After its literal text and a directive, only literal text may follow. -/
theorem readParts_of_writesDirective {text before written : List Char} {d : Directive}
    (hbefore : WritesLiteral text before) (hwritten : WritesDirective d written)
    (cs : List Char) :
    readParts (before ++ written ++ cs) =
      match literalText cs with
      | (trailing, []) => .ok (text, d, trailing)
      | (_, c :: rest) =>
        .error (.tooManyConversions (offsetOf (before ++ written ++ cs) (c :: rest))) := by
  obtain ⟨head, letter, rfl, hletter, hopens⟩ := exists_opens_of_writesDirective hwritten cs
  have hpercent : (head ++ letter :: cs).head? ≠ some '%' := by
    refine head?_append_ne_percent (percent_notMem_of_opens hopens) ?_
    intro _ hhead
    exact (conversionLetter_facts hletter).1 (Option.some.inj hhead)
  have hread := read_of_opens hopens (before ++ '%' :: (head ++ letter :: cs))
    ('%' :: (head ++ letter :: cs))
  have hparts := readParts_of_writesLiteral hbefore hpercent
  rw [hread, readConversion, ofChar?_eq_some_iff.2 hletter] at hparts
  have happend : before ++ ('%' :: head ++ [letter]) ++ cs =
      before ++ '%' :: (head ++ letter :: cs) := by simp
  rw [happend, hparts]
  rfl

theorem readParts_of_format {leading trailing : List Char} {d : Directive}
    (h : WritesFormat leading d trailing cs) : readParts cs = .ok (leading, d, trailing) := by
  cases h with
  | mk hleading hdirective htrailing =>
      rw [readParts_of_writesDirective hleading hdirective, literalText_of_writes_all htrailing]

/-- When a directive is refused, so is the whole text. -/
theorem readParts_of_read_eq_error {text before : List Char} {e : FormatError}
    (hbefore : WritesLiteral text before) (hcs : cs.head? ≠ some '%')
    (hread : Directive.read (before ++ '%' :: cs) ('%' :: cs) cs = .error e) :
    readParts (before ++ '%' :: cs) = .error e := by
  rw [readParts_of_writesLiteral hbefore hcs, hread]
  rfl

theorem readParts_of_fault {e : FormatError} (h : Fault cs e) : readParts cs = .error e := by
  cases h with
  | @wideWidth _ before flags ds rest hbefore hflags hmaximal hds hend =>
      have hread := read_of_wideWidth hflags hmaximal hds hend (before ++ ['%'])
        ('%' :: (flags ++ (ds ++ rest)))
      have hpercent : (flags ++ (ds ++ rest)).head? ≠ some '%' := by
        refine head?_append_ne_percent (percent_notMem_flags hflags) ?_
        intro _ hhead
        cases ds with
        | nil => exact hds.1 rfl
        | cons d ds =>
            have hd : '%'.isDigit = true := Option.some.inj hhead ▸ hds.2.1 d List.mem_cons_self
            exact absurd hd (by decide)
      simp only [List.append_assoc, List.cons_append, List.nil_append] at hread ⊢
      exact readParts_of_read_eq_error hbefore hpercent hread
  | @widePrecision _ before flags w ds rest _ hbefore hflags hmaximal hwidth hds hend =>
      have hread := read_of_widePrecision hflags hmaximal hwidth hds hend (before ++ ['%'])
        ('%' :: (flags ++ (w ++ '.' :: (ds ++ rest))))
      have hpercent : (flags ++ (w ++ '.' :: (ds ++ rest))).head? ≠ some '%' := by
        refine head?_append_ne_percent (percent_notMem_flags hflags) ?_
        intro _
        refine head?_append_ne_percent (percent_notMem_number hwidth) ?_
        intro _ hhead
        exact absurd (Option.some.inj hhead) (by decide)
      simp only [List.append_assoc, List.cons_append, List.nil_append] at hread ⊢
      exact readParts_of_read_eq_error hbefore hpercent hread
  | @incomplete _ before head _ _ _ hbefore hopens =>
      have hread := read_of_opens hopens (before ++ '%' :: head) ('%' :: head)
      have hpercent : (head ++ []).head? ≠ some '%' :=
        head?_append_ne_percent (percent_notMem_of_opens hopens) fun _ => nofun
      rw [List.append_nil] at hread hpercent
      rw [readConversion, Text.offsetOf_append] at hread
      exact readParts_of_read_eq_error hbefore hpercent hread
  | @unknownConversion _ before head rest c _ _ _ hbefore hopens hc hne =>
      have hpercent : (head ++ c :: rest).head? ≠ some '%' := by
        refine head?_append_ne_percent (percent_notMem_of_opens hopens) ?_
        intro hempty hhead
        exact hne (Option.some.inj hhead) hempty
      have hnone : Conversion.ofChar? c = none := by
        rw [Option.eq_none_iff_forall_ne_some]
        exact fun conversion hsome => hc conversion (ofChar?_eq_some_iff.1 hsome)
      have hread := read_of_opens hopens (before ++ '%' :: head ++ c :: rest)
        ('%' :: (head ++ c :: rest))
      rw [readConversion, hnone, Text.offsetOf_append] at hread
      simp only [List.append_assoc, List.cons_append] at hread ⊢
      exact readParts_of_read_eq_error hbefore hpercent hread
  | @tooManyConversions _ _ before written after rest _ hbefore hdirective hafter hrest =>
      have hliteral : literalText (after ++ '%' :: rest) = (_, '%' :: rest) :=
        literalText_of_writes hafter ⟨rfl, hrest⟩
      have hparts := readParts_of_writesDirective hbefore hdirective (after ++ '%' :: rest)
      rw [hliteral, ← List.append_assoc] at hparts
      dsimp only at hparts
      rw [hparts, Text.offsetOf_append]
  | noConversion htext =>
      rw [readParts, literalText_of_writes_all htext]

/-! ## Every text is a format or has a fault -/

/-- Every text that follows digits can be cut where a precision ends, or the digits of an oversized
one do. -/
theorem exists_precision {cs : List Char} (hcs : EndsDigits cs) :
    (∃ precision p rest, cs = p ++ rest ∧ WritesPrecision precision p ∧ EndsDigits rest ∧
      (precision = none → ∀ c ∈ rest.head?, c ≠ '.')) ∨
    ∃ ds rest, cs = '.' :: ds ++ rest ∧ IsOversized ds ∧ EndsDigits rest := by
  by_cases hpoint : cs.head? = some '.'
  · obtain ⟨after, rfl⟩ := List.head?_eq_some_iff.1 hpoint
    obtain ⟨ds, rest, rfl, hend, hds⟩ := exists_digits after
    rcases hds with ⟨number, hnumber⟩ | hlarge
    · exact .inl ⟨_, '.' :: ds, rest, rfl, .point hnumber, hend, nofun⟩
    · exact .inr ⟨ds, rest, rfl, hlarge, hend⟩
  · refine .inl ⟨none, [], cs, rfl, .absent, hcs, ?_⟩
    intro _ c hc hdot
    exact hpoint (hdot ▸ hc)

/-- After a percent sign, every text can be cut where the conversion has to stand, unless the width
or the precision is oversized. -/
theorem exists_opens_or_fault {text before : List Char} (hbefore : WritesLiteral text before)
    (cs : List Char) :
    (∃ flags width precision head rest, cs = head ++ rest ∧
      Opens flags width precision head rest) ∨ ∃ e, Fault (before ++ '%' :: cs) e := by
  obtain ⟨flags, afterFlags, rfl, hflags, hflagsEnd⟩ := Text.exists_run Directive.isFlag cs
  simp only [isFlag_iff, isFlag_eq_false_iff] at hflags hflagsEnd
  obtain ⟨w, afterWidth, rfl, hwidthEnd, hwidth⟩ := exists_digits afterFlags
  rcases hwidth with ⟨width, hwidth⟩ | hlarge
  · rcases exists_precision hwidthEnd with
      ⟨precision, p, afterPrecision, rfl, hprecision, hprecisionEnd, hpoint⟩ |
      ⟨ds, rest, rfl, hds, hend⟩
    · left
      obtain ⟨lengths, rest, rfl, hlengths, hlengthsEnd⟩ :=
        Text.exists_run Directive.isLengthModifier afterPrecision
      simp only [isLengthModifier_iff, isLengthModifier_eq_false_iff] at hlengths hlengthsEnd
      rw [← List.append_assoc p] at hwidthEnd
      rw [← List.append_assoc p, ← List.append_assoc w, ← List.append_assoc w] at hflagsEnd
      exact ⟨Flags.ofChars flags, width, precision, flags ++ w ++ p ++ lengths, rest, by simp,
        .mk hflags hflagsEnd hwidth hwidthEnd hprecision hprecisionEnd hpoint hlengths hlengthsEnd⟩
    · right
      have hmaximal : ∀ c ∈ (w ++ ['.']).head?, c ∉ flagChars := by
        intro c hc
        refine hflagsEnd c ?_
        simpa [List.head?_append] using hc
      have hfault := Fault.widePrecision hbefore hflags hmaximal hwidth hds hend
      exact ⟨_, by simpa only [List.append_assoc, List.cons_append] using hfault⟩
  · right
    have hmaximal : ∀ c ∈ w.head?, c ∉ flagChars := by
      intro c hc
      refine hflagsEnd c ?_
      rw [List.head?_append, Option.mem_def.1 hc]
      rfl
    have hfault := Fault.wideWidth hbefore hflags hmaximal hlarge hwidthEnd
    exact ⟨_, by simpa only [List.append_assoc, List.cons_append] using hfault⟩

/-- The beginning of a directive and the letter of a conversion make a directive. -/
theorem writesDirective_of_opens {flags : Flags} {width precision : Option Nat}
    {head : List Char} {letter : Char} {conversion : Conversion}
    (h : Opens flags width precision head (letter :: rest))
    (hletter : (letter, conversion) ∈ conversionLetters) :
    WritesDirective ⟨flags, width, precision, conversion⟩ ('%' :: head ++ [letter]) := by
  cases h with
  | @mk flags w p lengths _ _ _ hflags hflagsEnd hwidth _ hprecision _ _ hlengths _ =>
      have hmaximal : ∀ c ∈ (w ++ p ++ lengths ++ [letter]).head?, c ∉ flagChars := by
        intro c hc
        refine hflagsEnd c ?_
        simpa [List.head?_append] using hc
      have hdirective := WritesDirective.mk hflags hmaximal hwidth hprecision hlengths hletter
      simpa only [List.append_assoc, List.cons_append] using hdirective

theorem exists_format_or_fault (cs : List Char) :
    (∃ leading d trailing, WritesFormat leading d trailing cs) ∨ ∃ e, Fault cs e := by
  obtain ⟨leading, before, start, rfl, hbefore, hstart⟩ := exists_writesLiteral cs
  cases start with
  | nil =>
      rw [List.append_nil]
      exact .inr ⟨_, .noConversion hbefore⟩
  | cons c cs =>
      obtain ⟨rfl, hnext⟩ := hstart
      rcases exists_opens_or_fault hbefore cs with
        ⟨flags, width, precision, head, rest, rfl, hopens⟩ | hfault
      · cases rest with
        | nil =>
            rw [List.append_nil]
            exact .inr ⟨_, .incomplete hbefore hopens⟩
        | cons c rest =>
            by_cases hletter : ∃ conversion, (c, conversion) ∈ conversionLetters
            · obtain ⟨conversion, hletter⟩ := hletter
              have hdirective := writesDirective_of_opens hopens hletter
              obtain ⟨trailing, after, stop, rfl, hafter, hstop⟩ := exists_writesLiteral rest
              cases stop with
              | nil =>
                  have hformat := WritesFormat.mk hbefore hdirective hafter
                  exact .inl ⟨_, _, _, by simpa using hformat⟩
              | cons c stop =>
                  obtain ⟨rfl, hstop⟩ := hstop
                  have hfault := Fault.tooManyConversions hbefore hdirective hafter hstop
                  exact .inr ⟨_, by simpa using hfault⟩
            · have hpercent : c = '%' → head ≠ [] := by
                rintro rfl rfl
                exact hnext rfl
              have hfault := Fault.unknownConversion hbefore hopens
                (fun conversion h => hletter ⟨conversion, h⟩) hpercent
              exact .inr ⟨_, by simpa using hfault⟩
      · exact .inr hfault

/-! ## Reading follows the grammar -/

theorem readParts_eq_ok_iff {leading trailing : List Char} {d : Directive} :
    readParts cs = .ok (leading, d, trailing) ↔ WritesFormat leading d trailing cs := by
  constructor
  · intro h
    rcases exists_format_or_fault cs with ⟨leading', d', trailing', hformat⟩ | ⟨e, hfault⟩
    · rw [readParts_of_format hformat] at h
      cases h
      exact hformat
    · rw [readParts_of_fault hfault] at h
      cases h
  · exact readParts_of_format

theorem readParts_eq_error_iff {e : FormatError} : readParts cs = .error e ↔ Fault cs e := by
  constructor
  · intro h
    rcases exists_format_or_fault cs with ⟨leading, d, trailing, hformat⟩ | ⟨e', hfault⟩
    · rw [readParts_of_format hformat] at h
      cases h
    · rw [readParts_of_fault hfault] at h
      cases h
      exact hfault
  · exact readParts_of_fault

theorem writesFormat_of_parse {source : String} {f : FieldFormat} (h : parse source = .ok f) :
    WritesFormat f.leading.toList f.directive f.trailing.toList source.toList := by
  rw [parse] at h
  cases hparts : readParts source.toList with
  | error e =>
      rw [hparts] at h
      cases h
  | ok parts =>
      obtain ⟨leading, d, trailing⟩ := parts
      rw [hparts] at h
      cases h
      rw [String.toList_ofList, String.toList_ofList]
      exact readParts_eq_ok_iff.1 hparts

/-- A text is read as a format exactly if it is written like one, and then the format writes what
its directive writes for a value between its literal texts. Otherwise the text has a fault, and it
is refused with that. -/
theorem parse_follows_grammar (source : String) :
    (∀ leading d trailing, WritesFormat leading d trailing source.toList ↔
      parse source = .ok ⟨source, String.ofList leading, d, String.ofList trailing⟩) ∧
    (∀ f, parse source = .ok f →
      WritesFormat f.leading.toList f.directive f.trailing.toList source.toList ∧
      ∀ value, (f.render value).map String.toList =
        (f.directive.render value.toList).map fun text =>
          f.leading.toList ++ text ++ f.trailing.toList) ∧
    (∀ e, parse source = .error e ↔ Fault source.toList e) := by
  refine ⟨?_, ?_, ?_⟩
  · intro leading d trailing
    rw [← readParts_eq_ok_iff, parse]
    cases hparts : readParts source.toList with
    | error e => simp [bind, Except.bind]
    | ok parts =>
        obtain ⟨leading', d', trailing'⟩ := parts
        simp [bind, Except.bind, String.ofList_inj]
  · intro f h
    refine ⟨writesFormat_of_parse h, ?_⟩
    intro value
    rw [FieldFormat.render, Option.map_map]
    congr 1
    funext text
    simp [String.toList_append]
  · intro e
    rw [← readParts_eq_error_iff, parse]
    cases hparts : readParts source.toList with
    | error e' => simp [bind, Except.bind]
    | ok parts => simp [bind, Except.bind]

/-- A width in degrees: a percent sign, the number in brackets, and a character of two bytes. -/
def degrees : FieldFormat :=
  ⟨"%%[%+07.2lf]°", "%[", ⟨⟨false, true, false, true, false⟩, some 7, some 2, .fixed⟩, "]°"⟩

/-- The zero is a flag and the seven is the width, and what stands between the brackets is written
by the directive alone. A number that is too large to be counted with 64 bits is a fault of the
width, not of the letter after it. -/
theorem parse_follows_grammar_degrees :
    (parse "%%[%+07.2lf]°" = .ok degrees ∧
      WritesFormat "%[".toList degrees.directive "]°".toList "%%[%+07.2lf]°".toList ∧
      (degrees.render "21.5").map String.toList =
        (degrees.directive.render "21.5".toList).map fun text =>
          "%[".toList ++ text ++ "]°".toList) ∧
    Fault "°%-18446744073709551616°".toList (.tooWide 18446744073709551615 4) := by
  have hparse : parse "%%[%+07.2lf]°" = .ok degrees := rfl
  have hfault : parse "°%-18446744073709551616°" = .error (.tooWide 18446744073709551615 4) := rfl
  obtain ⟨hwrites, hrender⟩ := (parse_follows_grammar _).2.1 degrees hparse
  exact ⟨⟨hparse, hwrites, hrender "21.5"⟩, ((parse_follows_grammar _).2.2 _).1 hfault⟩

-- The first fault from the left counts, and offsets count bytes, of which `°` has two.
example : parse "°%%%0" = .error (.incomplete 4) := rfl
example : parse "°%5°%" = .error (.unknownConversion '°' 4) := rfl
example : parse "%c°%" = .error (.tooManyConversions 4) := rfl

end DeviceMessages.FieldFormat

import DeviceMessages.Proofs.Definition.Printing

/-!
# The units of a string

The grammar reads what stands between quotes in units: a backslash takes the next character with it,
and any other character stands alone. Decoding does not know of these units. It goes through the
characters on its own, an `x` after a backslash takes two more with it, and the text of a template
only loses the backslashes before its quotes. Here it is shown that all three agree on where a unit
begins.

What keeps them together is that a hexadecimal digit is no backslash: where two digits follow an
`x`, they are two units (`exists_plain_of_ne_backslash`), and where they do not, decoding ends.

* `HasUnits.unique`: there is only one way to take a text apart into units.
* `exists_means_of_allEscapes`: units whose pairs are all escapes stand for bytes.
* `body_read_by_units`: how a string is decoded, told by its units.
-/

namespace DeviceMessages.Definition

/-- A character, or a backslash with the character after it. -/
inductive BodyUnit where
  | plain (c : Char)
  | pair (c : Char)
deriving DecidableEq

namespace BodyUnit

/-- How a unit is written. -/
def text : BodyUnit → List Char
  | .plain c => [c]
  | .pair c => ['\\', c]

/-- Quotes and backslashes do not stand alone. -/
def IsValid : BodyUnit → Prop
  | .plain c => c ≠ '"' ∧ c ≠ '\\'
  | .pair _ => True

end BodyUnit

def unitsText (us : List BodyUnit) : List Char := us.flatMap BodyUnit.text

@[simp] theorem unitsText_nil : unitsText [] = [] := rfl

@[simp] theorem unitsText_plain (c : Char) (us : List BodyUnit) :
    unitsText (.plain c :: us) = c :: unitsText us := rfl

@[simp] theorem unitsText_pair (c : Char) (us : List BodyUnit) :
    unitsText (.pair c :: us) = '\\' :: c :: unitsText us := rfl

@[simp] theorem unitsText_append (us vs : List BodyUnit) :
    unitsText (us ++ vs) = unitsText us ++ unitsText vs := List.flatMap_append

/-- The text is made of the units. -/
structure HasUnits (cs : List Char) (us : List BodyUnit) : Prop where
  valid : ∀ u ∈ us, u.IsValid
  text_eq : unitsText us = cs

variable {cs : List Char} {us vs rest : List BodyUnit}

theorem isBody_iff_exists_hasUnits : IsBody cs ↔ ∃ us, HasUnits cs us := by
  constructor
  · intro h
    induction h with
    | nil => exact ⟨[], fun _ hu => absurd hu List.not_mem_nil, rfl⟩
    | @plain c cs hc _ ih =>
        obtain ⟨us, hus, rfl⟩ := ih
        exact ⟨.plain c :: us, List.forall_mem_cons.2 ⟨hc, hus⟩, rfl⟩
    | @pair c cs _ ih =>
        obtain ⟨us, hus, rfl⟩ := ih
        exact ⟨.pair c :: us, List.forall_mem_cons.2 ⟨trivial, hus⟩, rfl⟩
  · rintro ⟨us, hus, rfl⟩
    induction us with
    | nil => exact .nil
    | cons u us ih =>
        obtain ⟨hu, htail⟩ := List.forall_mem_cons.1 hus
        cases u with
        | plain c => exact .plain hu (ih htail)
        | pair c => exact .pair (ih htail)

/-- A text is made of units in one way only. -/
theorem HasUnits.unique (hus : HasUnits cs us) (hvs : HasUnits cs vs) : us = vs := by
  obtain ⟨hus, rfl⟩ := hus
  obtain ⟨hvs, htext⟩ := hvs
  induction us generalizing vs with
  | nil =>
      cases vs with
      | nil => rfl
      | cons v vs => cases v <;> cases htext
  | cons u us ih =>
      cases vs with
      | nil => cases u <;> cases htext
      | cons v vs =>
          obtain ⟨hu, hus'⟩ := List.forall_mem_cons.1 hus
          obtain ⟨hv, hvs'⟩ := List.forall_mem_cons.1 hvs
          cases u with
          | plain c =>
              cases v with
              | plain d =>
                  obtain ⟨rfl, htail⟩ := List.cons.inj htext
                  rw [ih hus' hvs' htail]
              | pair d => exact absurd (List.cons.inj htext).1.symm hu.2
          | pair c =>
              cases v with
              | plain d => exact absurd (List.cons.inj htext).1 hv.2
              | pair d =>
                  obtain ⟨rfl, htail⟩ := List.cons.inj (List.cons.inj htext).2
                  rw [ih hus' hvs' htail]

/-! ## Escapes -/

/-- The hexadecimal digits in both cases, with their values. -/
def hexDigits : List (Char × Nat) :=
  "0123456789abcdef".toList.zipIdx ++ "ABCDEF".toList.zipIdx 10

theorem hexDigit?_eq_some_iff {c : Char} {n : Nat} :
    hexDigit? c = some n ↔ (c, n) ∈ hexDigits := by
  constructor
  · intro h
    have hall : ∀ k : Fin 103, ∀ n ∈ hexDigit? (Char.ofNat k), (Char.ofNat k, n) ∈ hexDigits := by
      decide
    have hc := hall ⟨c.toNat, Nat.lt_succ_of_le (hexDigit?_bounds h).2⟩
    rw [Char.ofNat_toNat] at hc
    exact hc n h
  · have htable : ∀ digit ∈ hexDigits, hexDigit? digit.1 = some digit.2 := by decide
    exact htable (c, n)

theorem hexByte?_eq_some_iff {high low : Char} {byte : UInt8} :
    hexByte? high low = some byte ↔ ∃ h l, (high, h) ∈ hexDigits ∧ (low, l) ∈ hexDigits ∧
      byte = UInt8.ofNat (16 * h + l) := by
  simp only [← hexDigit?_eq_some_iff, hexByte?, Option.bind_eq_bind, Option.bind_eq_some_iff,
    Option.some.injEq]
  grind

/-- What stands behind a backslash is an escape: one of the letters, or an `x` and two hexadecimal
digits. -/
def IsEscape (c : Char) (following : List Char) : Prop :=
  c ∈ letterEscapes.map Prod.fst ∨
    c = 'x' ∧ ∃ high low rest, following = high :: low :: rest ∧
      high ∈ hexDigits.map Prod.fst ∧ low ∈ hexDigits.map Prod.fst

/-- The error of a pair that is no escape. It names the character, or what stands behind an `x` in
place of the two digits. -/
def pairFault (c : Char) (following : List Char) : LeafError :=
  if c = 'x' then .invalidHexEscape (String.ofList (following.take 2)) else .unknownEscape c

theorem badEscape_of_not_isEscape {c : Char} {following : List Char}
    (h : ¬ IsEscape c following) : BadEscape (c :: following) (pairFault c following) := by
  obtain ⟨hletter, hhex⟩ := not_or.1 h
  unfold pairFault
  split
  · next hx =>
      subst hx
      refine .hex fun high low rest heq => ?_
      apply Option.eq_none_iff_forall_ne_some.2
      intro byte hbyte
      obtain ⟨m, n, hm, hn, -⟩ := hexByte?_eq_some_iff.1 hbyte
      exact hhex ⟨rfl, high, low, rest, heq, List.mem_map_of_mem hm, List.mem_map_of_mem hn⟩
  · next hx => exact .unknown hx fun byte hbyte => hletter (List.mem_map_of_mem hbyte)

/-- All pairs among the units are escapes, given the units that come after. -/
def AllEscapes (us rest : List BodyUnit) : Prop :=
  ∀ before c after, us = before ++ .pair c :: after → IsEscape c (unitsText (after ++ rest))

theorem not_allEscapes_iff : ¬ AllEscapes us [] ↔
    ∃ before c after, us = before ++ .pair c :: after ∧ ¬ IsEscape c (unitsText after) := by
  simp [AllEscapes]

theorem allEscapes_nil : AllEscapes [] rest := by
  intro before c after heq
  cases before <;> cases heq

theorem allEscapes_plain_cons {c : Char} :
    AllEscapes (.plain c :: us) rest ↔ AllEscapes us rest := by
  constructor
  · rintro h before d after rfl
    exact h (.plain c :: before) d after rfl
  · intro h before d after heq
    cases before with
    | nil => cases heq
    | cons u before =>
        cases heq
        exact h before d after rfl

theorem allEscapes_pair_cons {c : Char} :
    AllEscapes (.pair c :: us) rest ↔ IsEscape c (unitsText (us ++ rest)) ∧ AllEscapes us rest := by
  constructor
  · intro h
    refine ⟨h [] c us rfl, ?_⟩
    rintro before d after rfl
    exact h (.pair c :: before) d after rfl
  · rintro ⟨hc, h⟩ before d after heq
    cases before with
    | nil =>
        cases heq
        exact hc
    | cons u before =>
        cases heq
        exact h before d after rfl

/-- Units with a pair that is no escape have a first one. -/
theorem exists_first_of_not_allEscapes (h : ¬ AllEscapes us []) :
    ∃ before c after, us = before ++ .pair c :: after ∧ AllEscapes before (.pair c :: after) ∧
      ¬ IsEscape c (unitsText after) := by
  induction us with
  | nil => exact absurd allEscapes_nil h
  | cons u us ih =>
      cases u with
      | plain d =>
          rw [allEscapes_plain_cons] at h
          obtain ⟨before, c, after, rfl, hbefore, hc⟩ := ih h
          exact ⟨.plain d :: before, c, after, rfl, allEscapes_plain_cons.2 hbefore, hc⟩
      | pair d =>
          rw [allEscapes_pair_cons, List.append_nil] at h
          by_cases hd : IsEscape d (unitsText us)
          · obtain ⟨before, c, after, rfl, hbefore, hc⟩ := ih fun hus => h ⟨hd, hus⟩
            exact ⟨.pair d :: before, c, after, rfl, allEscapes_pair_cons.2 ⟨hd, hbefore⟩, hc⟩
          · exact ⟨[], d, us, rfl, allEscapes_nil, hd⟩

/-! ## What units stand for -/

/-- The units stand for the bytes, each for its own and an `x` pair together with its digits. -/
inductive Means : List BodyUnit → Bytes → Prop
  | nil : Means [] []
  | plain {c : Char} {us : List BodyUnit} {bytes : Bytes} (h : Means us bytes) :
      Means (.plain c :: us) (String.utf8EncodeChar c ++ bytes)
  | letter {c : Char} {byte : UInt8} {us : List BodyUnit} {bytes : Bytes}
      (hc : (c, byte) ∈ letterEscapes) (h : Means us bytes) :
      Means (.pair c :: us) (byte :: bytes)
  | hex {high low : Char} {m n : Nat} {us : List BodyUnit} {bytes : Bytes}
      (hhigh : (high, m) ∈ hexDigits) (hlow : (low, n) ∈ hexDigits) (h : Means us bytes) :
      Means (.pair 'x' :: .plain high :: .plain low :: us) (UInt8.ofNat (16 * m + n) :: bytes)

theorem Means.spells {bytes : Bytes} (h : Means us bytes) (hus : ∀ u ∈ us, u.IsValid) :
    Spells (unitsText us) bytes := by
  induction h with
  | nil => exact .nil
  | plain _ ih =>
      obtain ⟨hc, htail⟩ := List.forall_mem_cons.1 hus
      exact .plain hc.2 (ih htail)
  | letter hc _ ih => exact .letter hc (ih (List.forall_mem_cons.1 hus).2)
  | hex hhigh hlow _ ih =>
      have htail := (List.forall_mem_cons.1 (List.forall_mem_cons.1 hus).2).2
      exact .hex (hexByte?_eq_some_iff.2 ⟨_, _, hhigh, hlow, rfl⟩)
        (ih (List.forall_mem_cons.1 htail).2)

/-- A character other than a backslash is a unit of its own. -/
private theorem exists_plain_of_ne_backslash {c : Char}
    (hrest : ∀ u ∈ rest.head?, ∃ d, u = .pair d) (h : unitsText (us ++ rest) = c :: cs)
    (hc : c ≠ '\\') : ∃ vs, us = .plain c :: vs ∧ unitsText (vs ++ rest) = cs := by
  cases us with
  | nil =>
      cases rest with
      | nil => cases h
      | cons u rest =>
          obtain ⟨d, rfl⟩ := hrest u rfl
          exact absurd (List.cons.inj h).1.symm hc
  | cons u us =>
      cases u with
      | plain d =>
          cases h
          exact ⟨us, rfl, rfl⟩
      | pair d => exact absurd (List.cons.inj h).1.symm hc

private theorem ne_backslash_of_hexDigit {c : Char} (h : c ∈ hexDigits.map Prod.fst) :
    c ≠ '\\' := by
  rintro rfl
  revert h
  decide

/-- Units whose pairs are all escapes stand for bytes. -/
theorem exists_means_of_allEscapes (h : AllEscapes us rest)
    (hrest : ∀ u ∈ rest.head?, ∃ c, u = .pair c) : ∃ bytes, Means us bytes := by
  induction us with
  | nil => exact ⟨[], .nil⟩
  | cons u us ih =>
      cases u with
      | plain c =>
          obtain ⟨bytes, hbytes⟩ := ih (allEscapes_plain_cons.1 h)
          exact ⟨_, .plain hbytes⟩
      | pair c =>
          obtain ⟨hescape, htail⟩ := allEscapes_pair_cons.1 h
          obtain ⟨bytes, hbytes⟩ := ih htail
          rcases hescape with hletter | ⟨rfl, high, low, following, htext, hhigh, hlow⟩
          · obtain ⟨⟨_, byte⟩, hmem, rfl⟩ := List.mem_map.1 hletter
            exact ⟨_, .letter hmem hbytes⟩
          · -- the digits are the next two units, so the bytes of what follows them are at hand
            obtain ⟨vs, rfl, hvs⟩ :=
              exists_plain_of_ne_backslash hrest htext (ne_backslash_of_hexDigit hhigh)
            obtain ⟨ws, rfl, -⟩ :=
              exists_plain_of_ne_backslash hrest hvs (ne_backslash_of_hexDigit hlow)
            obtain ⟨⟨_, m⟩, hm, rfl⟩ := List.mem_map.1 hhigh
            obtain ⟨⟨_, n⟩, hn, rfl⟩ := List.mem_map.1 hlow
            cases hbytes with
            | plain hbytes =>
                cases hbytes with
                | plain hbytes => exact ⟨_, .hex hm hn hbytes⟩

/-! ## Decoding by units -/

/-- How a string that is made of the units is decoded. -/
structure DecodesByUnits (cs : List Char) (us : List BodyUnit) : Prop where
  /-- No backslash is without a character after it. -/
  not_dangling : bytesOf cs ≠ .error .danglingBackslash
  /-- Decoding fails if and only if some pair is no escape. -/
  fails_iff : (∃ e, bytesOf cs = .error e) ↔
    ∃ before c after, us = before ++ .pair c :: after ∧ ¬ IsEscape c (unitsText after)
  /-- The error names the first such pair. -/
  names_first : ∀ before c after, us = before ++ .pair c :: after →
    AllEscapes before (.pair c :: after) → ¬ IsEscape c (unitsText after) →
    bytesOf cs = .error (pairFault c (unitsText after))
  /-- Otherwise the bytes are those that the units stand for. -/
  decodes : AllEscapes us [] → ∃ bytes, Means us bytes ∧ bytesOf cs = .ok bytes
  /-- The text of a template loses the backslashes of the pairs with a quote, and nothing else. -/
  templateText_eq : templateText cs =
    us.flatMap fun u => if u = .pair '"' then ['"'] else u.text

private theorem bytesOf_of_allEscapes (hus : ∀ u ∈ us, u.IsValid) (h : AllEscapes us []) :
    ∃ bytes, Means us bytes ∧ bytesOf (unitsText us) = .ok bytes := by
  obtain ⟨bytes, hbytes⟩ := exists_means_of_allEscapes h fun _ hu => by cases hu
  exact ⟨bytes, hbytes, bytesOf_eq_ok_iff.2 (hbytes.spells hus)⟩

private theorem bytesOf_of_first {before after : List BodyUnit} {c : Char}
    (hus : ∀ u ∈ before ++ .pair c :: after, u.IsValid)
    (hbefore : AllEscapes before (.pair c :: after)) (hc : ¬ IsEscape c (unitsText after)) :
    bytesOf (unitsText (before ++ .pair c :: after)) = .error (pairFault c (unitsText after)) := by
  have hpair : ∀ u ∈ (BodyUnit.pair c :: after).head?, ∃ d, u = .pair d := by
    rintro u ⟨⟩
    exact ⟨c, rfl⟩
  obtain ⟨bytes, hbytes⟩ := exists_means_of_allEscapes hbefore hpair
  have hspells := hbytes.spells (List.forall_mem_append.1 hus).1
  rw [unitsText_append, unitsText_pair]
  exact bytesOf_eq_error_iff.2 ⟨_, bytes, _, rfl, hspells, badEscape_of_not_isEscape hc⟩

private theorem templateText_unitsText (hus : ∀ u ∈ us, u.IsValid) :
    templateText (unitsText us) = us.flatMap fun u => if u = .pair '"' then ['"'] else u.text := by
  induction us with
  | nil => rfl
  | cons u us ih =>
      obtain ⟨hu, htail⟩ := List.forall_mem_cons.1 hus
      rw [List.flatMap_cons, ← ih htail]
      cases u with
      | plain c =>
          rw [if_neg (fun h => by cases h), unitsText_plain,
            templateText_cons fun hc => absurd hc hu.2]
          rfl
      | pair c =>
          by_cases hc : c = '"'
          · subst hc
            rfl
          · -- the backslash stays, and so does the character, as no unit begins with a quote
            have hhead : (unitsText us).head? ≠ some '"' :=
              (isBody_iff_exists_hasUnits.2 ⟨us, htail, rfl⟩).head?_ne
            have hfirst : (c :: unitsText us).head? ≠ some '"' := fun h => hc (Option.some.inj h)
            rw [if_neg (fun h => hc (BodyUnit.pair.inj h)), unitsText_pair,
              templateText_cons fun _ => hfirst, templateText_cons fun _ => hhead]
            rfl

private theorem bytesOf_fails_iff (hus : ∀ u ∈ us, u.IsValid) :
    (∃ e, bytesOf (unitsText us) = .error e) ↔ ¬ AllEscapes us [] := by
  constructor
  · rintro ⟨e, he⟩ hall
    obtain ⟨bytes, -, hok⟩ := bytesOf_of_allEscapes hus hall
    rw [hok] at he
    cases he
  · intro hnot
    obtain ⟨before, c, after, rfl, hbefore, hc⟩ := exists_first_of_not_allEscapes hnot
    exact ⟨_, bytesOf_of_first hus hbefore hc⟩

private theorem bytesOf_ne_dangling (hus : ∀ u ∈ us, u.IsValid) :
    bytesOf (unitsText us) ≠ .error .danglingBackslash := by
  intro hdangling
  have hnot := (bytesOf_fails_iff hus).1 ⟨_, hdangling⟩
  obtain ⟨before, c, after, rfl, hbefore, hc⟩ := exists_first_of_not_allEscapes hnot
  rw [bytesOf_of_first hus hbefore hc, pairFault] at hdangling
  split at hdangling <;> cases hdangling

private theorem HasUnits.decodesByUnits (h : HasUnits cs us) : DecodesByUnits cs us := by
  obtain ⟨hus, rfl⟩ := h
  exact {
    not_dangling := bytesOf_ne_dangling hus
    fails_iff := (bytesOf_fails_iff hus).trans not_allEscapes_iff
    names_first := by
      rintro before c after rfl hbefore hc
      exact bytesOf_of_first hus hbefore hc
    decodes := bytesOf_of_allEscapes hus
    templateText_eq := templateText_unitsText hus }

/-- What can stand between quotes is read up to the quote after it, and in one way made of units.
Decoding it goes along these units. -/
theorem body_read_by_units (h : IsBody cs) :
    (∀ rest, readBody? (cs ++ '"' :: rest) = some (cs, rest)) ∧
      ∃ us, HasUnits cs us ∧ (∀ vs, HasUnits cs vs → vs = us) ∧ DecodesByUnits cs us := by
  refine ⟨readBody?_of_isBody h, ?_⟩
  obtain ⟨us, hus⟩ := isBody_iff_exists_hasUnits.1 h
  exact ⟨us, hus, fun vs hvs => hvs.unique hus, hus.decodesByUnits⟩

/-- A string with a quote behind three backslashes, and an `x` with one digit. -/
def brokenBody : List Char := ['\\', '\\', '\\', '"', 'A', '\\', 'x', '4', 'g']

/-- The third backslash belongs to the quote, and the error is that of the fourth. -/
theorem brokenBody_read_by_units :
    IsBody brokenBody ∧ bytesOf brokenBody = .error (.invalidHexEscape "4g") ∧
      templateText brokenBody = ['\\', '\\', '"', 'A', '\\', 'x', '4', 'g'] := by
  have hunits : HasUnits brokenBody
      [.pair '\\', .pair '"', .plain 'A', .pair 'x', .plain '4', .plain 'g'] :=
    ⟨by simp [BodyUnit.IsValid], rfl⟩
  have hbody : IsBody brokenBody := isBody_iff_exists_hasUnits.2 ⟨_, hunits⟩
  obtain ⟨-, us, -, hunique, hdecodes⟩ := body_read_by_units hbody
  obtain rfl := hunique _ hunits
  have hbefore : AllEscapes [.pair '\\', .pair '"', .plain 'A']
      [.pair 'x', .plain '4', .plain 'g'] := by
    rw [allEscapes_pair_cons, allEscapes_pair_cons, allEscapes_plain_cons]
    exact ⟨.inl (by decide), .inl (by decide), allEscapes_nil⟩
  have hbad : ¬ IsEscape 'x' ['4', 'g'] := by
    rintro (hletter | ⟨-, high, low, rest, heq, -, hlow⟩)
    · exact absurd hletter (by decide)
    · cases heq
      exact absurd hlow (by decide)
  refine ⟨hbody, ?_, hdecodes.templateText_eq⟩
  exact hdecodes.names_first _ 'x' [.plain '4', .plain 'g'] rfl hbefore hbad

end DeviceMessages.Definition

import DeviceMessages.Proofs.Decimal.Positional
import DeviceMessages.Proofs.Definition.Layout
import DeviceMessages.Proofs.Text.Utf8
import DeviceMessages.Text.Quoted

/-!
# Escapes

What came from a device is shown with escapes, so that no control character of it gets to the user,
and no line break above all (`IsPlain`). The two ways to escape have to be looked at apart. A line
of text keeps every character that prints, and what does not print includes all control characters.
Bytes are no text, so only the printable ASCII ones are kept.

Shown bytes can be told apart. No escape is the beginning of another one, which is seen by taking
the first byte back from what is shown (`shownByte?`).

## Main results

* `isPlain_escapedLine`, `isPlain_escapedBytes` — there are no control characters in what is shown.
* `escapedBytes_injective` — different bytes are shown in different ways.
-/

namespace DeviceMessages.Text

open Definition (hexByte? hexDigit? isNameChar isNameStart IsName)

/-! ## Control characters -/

/-- The control characters of Unicode, among them the line feed and the carriage return. -/
def IsControl (c : Char) : Prop :=
  c.toNat < 0x20 ∨ 0x7F ≤ c.toNat ∧ c.toNat < 0xA0

instance : DecidablePred IsControl := fun _ => inferInstanceAs (Decidable (_ ∨ _))

/-- A text without control characters. -/
def IsPlain (s : String) : Prop :=
  ∀ c ∈ s.toList, ¬ IsControl c

-- The instance for a list is named, as it is not the only one there is for all characters.
instance : DecidablePred IsPlain := fun s => List.decidableBAll _ s.toList

theorem not_isControl_of_ascii {c : Char} (hlow : 0x20 ≤ c.toNat) (hhigh : c.toNat < 0x7F) :
    ¬ IsControl c := by
  unfold IsControl
  omega

theorem not_isControl_of_isPrintable {c : Char} (h : isPrintable c = true) : ¬ IsControl c := by
  have hranges : inRanges unprintableRanges c.toNat = false →
      ¬ c.toNat ≤ 0x1F ∧ ¬ (0x7F ≤ c.toNat ∧ c.toNat ≤ 0xA0) := by
    intro hout
    have hall := List.any_eq_false.1 hout
    have hfirst := hall (0x0, 0x1F) List.mem_cons_self
    have hsecond := hall (0x7F, 0xA0) (List.mem_cons_of_mem _ List.mem_cons_self)
    simp only [Bool.and_eq_true, decide_eq_true_eq] at hfirst hsecond
    exact ⟨fun hle => hfirst ⟨Nat.zero_le _, hle⟩, hsecond⟩
  simp only [isPrintable, Bool.or_eq_true, Bool.and_eq_true, decide_eq_true_eq,
    Bool.not_eq_true'] at h
  unfold IsControl
  rcases h with hascii | hout
  · omega
  · have hbounds := hranges hout
    omega

/-! ## Plain texts -/

variable {s t : String}

theorem IsPlain.append (hs : IsPlain s) (ht : IsPlain t) : IsPlain (s ++ t) := by
  unfold IsPlain
  rw [String.toList_append]
  exact List.forall_mem_append.2 ⟨hs, ht⟩

theorem IsPlain.intercalate {texts : List String} (hs : IsPlain s)
    (htexts : ∀ text ∈ texts, IsPlain text) : IsPlain (s.intercalate texts) := by
  induction texts with
  | nil => exact nofun
  | cons text texts ih =>
      have htext := htexts text List.mem_cons_self
      cases texts with
      | nil => simpa [IsPlain, String.toList_intercalate] using htext
      | cons other texts =>
          have hrest := ih fun u hu => htexts u (List.mem_cons_of_mem text hu)
          have hall := (htext.append hs).append hrest
          simpa [IsPlain, String.toList_intercalate, List.intercalate_cons_cons] using hall

/-- A name has letters, digits and underscores only. -/
theorem isPlain_of_isName (h : IsName s.toList) : IsPlain s := by
  have hchar : ∀ c, isNameChar c = true → ¬ IsControl c := by
    intro c hc
    have hcases : (c.isUpper || c.isLower || c.isDigit || c == '_') = true := hc
    simp only [Bool.or_eq_true] at hcases
    rcases hcases with ((hupper | hlower) | hdigit) | hunderscore
    · have hbounds : 65 ≤ c.toNat ∧ c.toNat ≤ 90 := of_decide_eq_true hupper
      exact not_isControl_of_ascii (by omega) (by omega)
    · obtain ⟨hlow, hhigh⟩ := Bool.and_eq_true_iff.1 hlower
      have hbounds : 97 ≤ c.toNat ∧ c.toNat ≤ 122 :=
        ⟨of_decide_eq_true hlow, of_decide_eq_true hhigh⟩
      exact not_isControl_of_ascii (by omega) (by omega)
    · have hbounds : 48 ≤ c.toNat ∧ c.toNat ≤ 57 := Char.isDigit_iff_toNat.1 hdigit
      exact not_isControl_of_ascii (by omega) (by omega)
    · rw [beq_iff_eq.1 hunderscore]
      decide
  have hstart : ∀ c, isNameStart c = true → isNameChar c = true := by
    intro c hc
    simp only [isNameStart, isNameChar, Char.isAlphanum, Bool.or_eq_true] at hc ⊢
    exact hc.imp_left .inl
  obtain ⟨c, rest, hs, hc, hrest⟩ := h
  unfold IsPlain
  rw [hs]
  exact List.forall_mem_cons.2 ⟨hchar c (hstart c hc), fun d hd => hchar d (hrest d hd)⟩

/-! ## Lines of text -/

theorem not_isControl_of_mem_toDigits {n : Nat} {c : Char} (h : c ∈ Nat.toDigits 16 n) :
    ¬ IsControl c := by
  have hdigits :=
    (Decimal.toDigits_facts (by decide : 1 < 16) le_rfl Decimal.keepsDigits_id n).1
  rw [List.map_id] at hdigits
  have hbounds := Decimal.isDigitIn_bounds (hdigits c h)
  exact not_isControl_of_ascii (by omega) (by omega)

theorem not_isControl_of_mem_pair {c d : Char} (hc : ¬ IsControl c) (hd : ¬ IsControl d) :
    ∀ e ∈ [c, d], ¬ IsControl e :=
  List.forall_mem_cons.2 ⟨hc, List.forall_mem_singleton.2 hd⟩

/-- No character is shown by control characters if none counts as a quote. -/
theorem not_isControl_of_mem_escapedChar {escapeQuote : Char → Bool}
    (hquote : ∀ c, escapeQuote c = true → ¬ IsControl c) {escapeMark : Bool} {c : Char} :
    ∀ d ∈ escapedChar escapeQuote escapeMark c, ¬ IsControl d := by
  unfold escapedChar
  split_ifs with hnull htab hreturn hfeed hself hcode
  · exact not_isControl_of_mem_pair (by decide) (by decide)
  · exact not_isControl_of_mem_pair (by decide) (by decide)
  · exact not_isControl_of_mem_pair (by decide) (by decide)
  · exact not_isControl_of_mem_pair (by decide) (by decide)
  · refine not_isControl_of_mem_pair (by decide) ?_
    rcases hself with rfl | hself
    · decide
    · exact hquote c hself
  · have hopen : ∀ d ∈ ['\\', 'u', '\x7b'], ¬ IsControl d :=
      List.forall_mem_cons.2 ⟨by decide, not_isControl_of_mem_pair (by decide) (by decide)⟩
    have hclose : ∀ d ∈ ['\x7d'], ¬ IsControl d := List.forall_mem_singleton.2 (by decide)
    refine List.forall_mem_append.2 ⟨List.forall_mem_append.2 ⟨hopen, ?_⟩, hclose⟩
    exact fun d hd => not_isControl_of_mem_toDigits hd
  · have hprintable : isPrintable c = true := by
      rw [Bool.or_eq_true, not_or, Bool.not_eq_true', Bool.not_eq_false] at hcode
      exact hcode.2
    exact List.forall_mem_singleton.2 (not_isControl_of_isPrintable hprintable)

/-- There are no control characters in a line that is shown. -/
theorem isPlain_escapedLine (s : String) : IsPlain (escapedLine s) := by
  have hquote : ∀ c : Char, (c == '"' || c == '\'') = true → ¬ IsControl c := by
    intro c hc
    rcases Bool.or_eq_true_iff.1 hc with hc | hc <;> rw [beq_iff_eq.1 hc] <;> decide
  unfold IsPlain escapedLine
  cases s.toList with
  | nil => exact nofun
  | cons c cs =>
      rw [String.toList_ofList]
      refine List.forall_mem_append.2 ⟨not_isControl_of_mem_escapedChar hquote, ?_⟩
      intro d hd
      obtain ⟨e, -, hd⟩ := List.mem_flatMap.1 hd
      exact not_isControl_of_mem_escapedChar hquote d hd

/-! ## Bytes -/

variable {b : UInt8} {cs : List Char}

private theorem toNat_hexDigit_bounds (b : UInt8) :
    0x20 ≤ (hexDigit b).toNat ∧ (hexDigit b).toNat < 0x7F := by
  have hall : ∀ d < 16, 0x20 ≤ (Nat.digitChar d).toNat ∧ (Nat.digitChar d).toNat < 0x7F := by
    decide
  exact hall _ (Nat.mod_lt _ (by decide))

private theorem toNat_ofNat_toNat (hb : b < 0x7F) : (Char.ofNat b.toNat).toNat = b.toNat := by
  have hlt : b.toNat < 0x7F := UInt8.lt_iff_toNat_lt.1 hb
  exact toNat_ofNat_of_ascii (by omega)

/-- There are no control characters in bytes that are shown. -/
theorem isPlain_escapedBytes (bytes : List UInt8) : IsPlain (escapedBytes bytes) := by
  have hbyte : ∀ b, ∀ c ∈ escapedByte b, ¬ IsControl c := by
    intro b
    unfold escapedByte
    split_ifs with htab hreturn hfeed hself hprint
    · exact not_isControl_of_mem_pair (by decide) (by decide)
    · exact not_isControl_of_mem_pair (by decide) (by decide)
    · exact not_isControl_of_mem_pair (by decide) (by decide)
    · refine not_isControl_of_mem_pair (by decide) ?_
      rcases hself with rfl | rfl | rfl <;> decide
    · refine List.forall_mem_singleton.2 ?_
      have hlow := UInt8.le_iff_toNat_le.1 hprint.1
      have hhigh := UInt8.lt_iff_toNat_lt.1 hprint.2
      rw [← toNat_ofNat_toNat hprint.2] at hlow hhigh
      exact not_isControl_of_ascii hlow hhigh
    · have hdigit : ∀ b : UInt8, ¬ IsControl (hexDigit b) := fun b =>
        not_isControl_of_ascii (toNat_hexDigit_bounds b).1 (toNat_hexDigit_bounds b).2
      simp only [List.forall_mem_cons, List.not_mem_nil, false_implies, implies_true, and_true]
      exact ⟨by decide, by decide, hdigit _, hdigit _⟩
  unfold IsPlain escapedBytes
  rw [String.toList_ofList]
  intro c hc
  obtain ⟨b, -, hc⟩ := List.mem_flatMap.1 hc
  exact hbyte b c hc

/-- The first of the bytes that are shown, and what shows the others. -/
def shownByte? : List Char → Option (UInt8 × List Char)
  | '\\' :: 't' :: cs => some (0x09, cs)
  | '\\' :: 'r' :: cs => some (0x0D, cs)
  | '\\' :: 'n' :: cs => some (0x0A, cs)
  | '\\' :: 'x' :: high :: low :: cs => (hexByte? high low).map (·, cs)
  | '\\' :: c :: cs => some (c.toUInt8, cs)
  | c :: cs => some (c.toUInt8, cs)
  | [] => none

private theorem shownByte?_of_ne {c : Char} (hc : c ≠ '\\') :
    shownByte? (c :: cs) = some (c.toUInt8, cs) := by
  unfold shownByte?
  split <;> simp_all

private theorem hexByte?_hexDigit (b : UInt8) :
    hexByte? (hexDigit (b / 16)) (hexDigit b) = some b := by
  have hlt : b.toNat < 256 := b.toNat_lt
  have hdiv : (b / 16).toNat = b.toNat / 16 := rfl
  have hhigh : hexDigit? (hexDigit (b / 16)) = some (b.toNat / 16) := by
    have hsmall : b.toNat / 16 % 16 = b.toNat / 16 := Nat.mod_eq_of_lt (by omega)
    rw [hexDigit, hdiv, hsmall]
    exact Decimal.keepsDigits_id _ (by omega)
  have hlow : hexDigit? (hexDigit b) = some (b.toNat % 16) :=
    Decimal.keepsDigits_id _ (Nat.mod_lt _ (by decide))
  unfold hexByte?
  rw [hhigh, hlow]
  show some (UInt8.ofNat (16 * (b.toNat / 16) + b.toNat % 16)) = some b
  rw [Nat.div_add_mod, UInt8.ofNat_toNat]

/-- The first byte is taken back from what is shown. -/
theorem shownByte?_escapedByte (b : UInt8) (cs : List Char) :
    shownByte? (escapedByte b ++ cs) = some (b, cs) := by
  unfold escapedByte
  split_ifs with htab hreturn hfeed hself hprint
  · rw [htab]
    rfl
  · rw [hreturn]
    rfl
  · rw [hfeed]
    rfl
  · rcases hself with rfl | rfl | rfl <;> rfl
  · have hcode := toNat_ofNat_toNat hprint.2
    have hbyte : (Char.ofNat b.toNat).toUInt8 = b := by
      rw [← UInt8.toNat_inj]
      show (Char.ofNat b.toNat).toNat % 256 = b.toNat
      rw [hcode, Nat.mod_eq_of_lt b.toNat_lt]
    have hne : Char.ofNat b.toNat ≠ '\\' := by
      intro heq
      rw [heq] at hbyte
      exact hself (.inr (.inr hbyte.symm))
    rw [List.singleton_append, shownByte?_of_ne hne, hbyte]
  · show (hexByte? (hexDigit (b / 16)) (hexDigit b)).map (·, cs) = some (b, cs)
    rw [hexByte?_hexDigit, Option.map_some]

/-- Different bytes are shown in different ways. -/
theorem escapedBytes_injective : Function.Injective escapedBytes := by
  have hflat : ∀ as bs : List UInt8, as.flatMap escapedByte = bs.flatMap escapedByte → as = bs := by
    intro as
    induction as with
    | nil =>
        intro bs h
        cases bs with
        | nil => rfl
        | cons b bs =>
            have hread := shownByte?_escapedByte b (bs.flatMap escapedByte)
            rw [← List.flatMap_cons, ← h] at hread
            cases hread
    | cons a as ih =>
        intro bs h
        have hread := shownByte?_escapedByte a (as.flatMap escapedByte)
        rw [← List.flatMap_cons, h] at hread
        cases bs with
        | nil => cases hread
        | cons b bs =>
            rw [List.flatMap_cons, shownByte?_escapedByte, Option.some.injEq,
              Prod.mk.injEq] at hread
            rw [hread.1, ih bs hread.2.symm]
  intro as bs h
  exact hflat as bs (String.ofList_injective h)

end DeviceMessages.Text

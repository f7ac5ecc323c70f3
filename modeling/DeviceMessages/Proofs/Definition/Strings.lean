import DeviceMessages.Definition.Leaf
import DeviceMessages.Proofs.Failure
import DeviceMessages.Proofs.Text.Utf8

/-!
# What strings and numbers stand for

`Spells` says which bytes a string stands for without decoding it: character by character, where a
character is itself or one of seven kinds of escapes. `bytesOf` finds the bytes of exactly the
strings that spell some (`bytesOf_eq_ok_iff`), and `textOf` the text of exactly those that spell the
UTF-8 form of one (`textOf_eq_ok_iff`). What they fail with is told in the same way: the error of
the first escape that is none (`FirstBadEscape`), where all that stands before it spells something.
-/

namespace DeviceMessages.Definition

/-- The letters that stand for one byte after a backslash, with the bytes. -/
def letterEscapes : List (Char × UInt8) :=
  [('n', 0x0A), ('r', 0x0D), ('t', 0x09), ('0', 0x00), ('"', 0x22), ('\\', 0x5C)]

/-- The string stands for the bytes. -/
inductive Spells : List Char → Bytes → Prop
  | nil : Spells [] []
  | plain {c : Char} {cs : List Char} {bytes : Bytes} (hc : c ≠ '\\') (h : Spells cs bytes) :
      Spells (c :: cs) (String.utf8EncodeChar c ++ bytes)
  | letter {c : Char} {byte : UInt8} {cs : List Char} {bytes : Bytes}
      (hc : (c, byte) ∈ letterEscapes) (h : Spells cs bytes) :
      Spells ('\\' :: c :: cs) (byte :: bytes)
  | hex {high low : Char} {byte : UInt8} {cs : List Char} {bytes : Bytes}
      (hbyte : hexByte? high low = some byte) (h : Spells cs bytes) :
      Spells ('\\' :: 'x' :: high :: low :: cs) (byte :: bytes)

/-- What stands after a backslash is none of the escapes. -/
inductive BadEscape : List Char → LeafError → Prop
  | dangling : BadEscape [] .danglingBackslash
  | hex {cs : List Char}
      (hcs : ∀ high low rest, cs = high :: low :: rest → hexByte? high low = none) :
      BadEscape ('x' :: cs) (.invalidHexEscape (String.ofList (cs.take 2)))
  | unknown {c : Char} {cs : List Char} (hx : c ≠ 'x')
      (hc : ∀ byte, (c, byte) ∉ letterEscapes) : BadEscape (c :: cs) (.unknownEscape c)

/-- The error of the first bad escape of a string. -/
def FirstBadEscape (cs : List Char) (e : LeafError) : Prop :=
  ∃ good bytes rest, cs = good ++ '\\' :: rest ∧ Spells good bytes ∧ BadEscape rest e

theorem escape?_eq_some_iff {c : Char} {byte : UInt8} :
    escape? c = some byte ↔ (c, byte) ∈ letterEscapes := by
  constructor
  · intro h
    unfold escape? at h
    split at h <;> cases h <;> decide
  · intro h
    simp only [letterEscapes, List.mem_cons, List.not_mem_nil, or_false, Prod.mk.injEq] at h
    rcases h with ⟨rfl, rfl⟩ | ⟨rfl, rfl⟩ | ⟨rfl, rfl⟩ | ⟨rfl, rfl⟩ | ⟨rfl, rfl⟩ | ⟨rfl, rfl⟩ <;>
      rfl

private theorem ne_x_of_mem_letterEscapes {c : Char} {byte : UInt8}
    (h : (c, byte) ∈ letterEscapes) : c ≠ 'x' := by
  rintro rfl
  cases escape?_eq_some_iff.2 h

variable {cs : List Char} {bytes : Bytes}

private theorem ne_backslash {c : Char} (hpair : ∀ d ds, c = '\\' → cs = d :: ds → False)
    (hlone : c = '\\' → cs = [] → False) : c ≠ '\\' := by
  intro hc
  cases cs with
  | nil => exact hlone hc rfl
  | cons d ds => exact hpair d ds hc rfl

private theorem spells_of_bytesOf (h : bytesOf cs = .ok bytes) : Spells cs bytes := by
  fun_induction bytesOf cs generalizing bytes with
  | case1 high low cs byte hbyte ih =>
      obtain ⟨rest, hrest, rfl⟩ := exists_of_map_eq_ok h
      exact .hex hbyte (ih hrest)
  | case2 => cases h
  | case3 => cases h
  | case4 c cs _ _ byte hbyte ih =>
      obtain ⟨rest, hrest, rfl⟩ := exists_of_map_eq_ok h
      exact .letter (escape?_eq_some_iff.1 hbyte) (ih hrest)
  | case5 => cases h
  | case6 => cases h
  | case7 c cs _ _ hpair hlone ih =>
      obtain ⟨rest, hrest, rfl⟩ := exists_of_map_eq_ok h
      exact .plain (ne_backslash hpair hlone) (ih hrest)
  | case8 =>
      cases h
      exact .nil

private theorem map_append_map (x : Except LeafError Bytes) (us vs : Bytes) :
    (x.map (vs ++ ·)).map (us ++ ·) = x.map (us ++ vs ++ ·) := by
  cases x with
  | error e => rfl
  | ok bs => exact congrArg Except.ok (List.append_assoc us vs bs).symm

/-- What stands for bytes adds them to those of what follows, or leaves its error. -/
theorem bytesOf_append (h : Spells cs bytes) (rest : List Char) :
    bytesOf (cs ++ rest) = (bytesOf rest).map (bytes ++ ·) := by
  induction h with
  | nil => cases hrest : bytesOf rest <;> rw [List.nil_append, hrest] <;> rfl
  | @plain c cs bytes hc _ ih =>
      rw [List.cons_append, bytesOf, ih]
      · exact map_append_map _ _ _
      · exact fun _ _ _ h => absurd h hc
      · exact fun _ h => absurd h hc
      · exact fun _ _ h => absurd h hc
      · exact fun h => absurd h hc
  | @letter c byte cs bytes hc _ ih =>
      rw [List.cons_append, List.cons_append, bytesOf, escape?_eq_some_iff.2 hc]
      · simp only [ih]
        exact map_append_map _ [byte] bytes
      · exact fun _ _ _ h => absurd h (ne_x_of_mem_letterEscapes hc)
      · exact fun h => absurd h (ne_x_of_mem_letterEscapes hc)
  | @hex high low byte cs bytes hbyte _ ih =>
      rw [List.cons_append, List.cons_append, List.cons_append, List.cons_append, bytesOf, hbyte]
      simp only [ih]
      exact map_append_map _ [byte] bytes

private theorem bytesOf_of_spells (h : Spells cs bytes) : bytesOf cs = .ok bytes := by
  have happend := bytesOf_append h []
  rw [List.append_nil] at happend
  rw [happend]
  exact congrArg Except.ok (List.append_nil bytes)

/-- The bytes of a string are found if and only if it stands for some. -/
theorem bytesOf_eq_ok_iff : bytesOf cs = .ok bytes ↔ Spells cs bytes :=
  ⟨spells_of_bytesOf, bytesOf_of_spells⟩

example : bytesOf ['\\', 'x', '1', 'B', 'A', '\\', 'r'] = .ok [0x1B, 0x41, 0x0D] := rfl

/-- The text of a string is found if and only if it stands for the UTF-8 form of one. -/
theorem textOf_eq_ok_iff {text : String} :
    textOf cs = .ok text ↔ Spells cs (Text.utf8 text) := by
  constructor
  · intro h
    unfold textOf at h
    split at h
    · cases h
    · next bytes hbytes =>
        split at h
        · next found hfound =>
            cases h
            rw [← Text.ofUtf8?_eq_some_iff.1 hfound]
            exact spells_of_bytesOf hbytes
        · cases h
  · intro h
    rw [textOf, bytesOf_of_spells h]
    simp only [Text.ofUtf8?_utf8]

/-- A number is found if and only if it fits 64 bits. -/
theorem numberOf_eq_ok_iff {n : Nat} :
    numberOf cs = .ok n ↔ n = Decimal.valueOf cs ∧ n < Decimal.wordSize := by
  unfold numberOf
  dsimp only
  split
  · next hlt =>
      rw [Except.ok.injEq]
      exact ⟨fun h => h ▸ ⟨rfl, hlt⟩, fun h => h.1.symm⟩
  · next hge =>
      refine ⟨fun h => (by cases h), ?_⟩
      rintro ⟨rfl, hlt⟩
      exact absurd hlt hge

/-! ## Errors -/

variable {e : LeafError}

private theorem firstBadEscape_of_bytesOf (h : bytesOf cs = .error e) : FirstBadEscape cs e := by
  fun_induction bytesOf cs with
  | case1 high low cs byte hbyte ih =>
      obtain ⟨good, bytes, rest, rfl, hgood, hbad⟩ := ih (eq_error_of_map_eq_error h)
      exact ⟨'\\' :: 'x' :: high :: low :: good, byte :: bytes, rest, rfl, .hex hbyte hgood, hbad⟩
  | case2 high low cs hbyte =>
      cases h
      refine ⟨[], [], _, rfl, .nil, .hex ?_⟩
      rintro _ _ _ ⟨⟩
      exact hbyte
  | case3 cs hshort =>
      cases h
      have htake : cs.take 2 = cs := by
        match cs, hshort with
        | [], _ => rfl
        | [_], _ => rfl
        | a :: b :: rest, hshort => exact absurd rfl (hshort a b rest)
      have hbad := @BadEscape.hex cs fun a b rest heq => absurd heq (hshort a b rest)
      rw [htake] at hbad
      exact ⟨[], [], _, rfl, .nil, hbad⟩
  | case4 c cs _ _ byte hbyte ih =>
      obtain ⟨good, bytes, rest, rfl, hgood, hbad⟩ := ih (eq_error_of_map_eq_error h)
      exact ⟨'\\' :: c :: good, byte :: bytes, rest, rfl,
        .letter (escape?_eq_some_iff.1 hbyte) hgood, hbad⟩
  | case5 c cs _ hx hnone =>
      cases h
      refine ⟨[], [], _, rfl, .nil, .unknown hx fun byte hmem => ?_⟩
      rw [escape?_eq_some_iff.2 hmem] at hnone
      cases hnone
  | case6 =>
      cases h
      exact ⟨[], [], [], rfl, .nil, .dangling⟩
  | case7 c cs _ _ hpair hlone ih =>
      have hc : c ≠ '\\' := ne_backslash hpair hlone
      obtain ⟨good, bytes, rest, rfl, hgood, hbad⟩ := ih (eq_error_of_map_eq_error h)
      exact ⟨c :: good, _, rest, rfl, .plain hc hgood, hbad⟩
  | case8 => cases h

private theorem bytesOf_backslash_of_badEscape (h : BadEscape cs e) :
    bytesOf ('\\' :: cs) = .error e := by
  cases h with
  | dangling => rfl
  | @hex cs hcs =>
      match cs with
      | [] => rfl
      | [_] => rfl
      | high :: low :: rest =>
          rw [bytesOf, hcs high low rest rfl]
          rfl
  | @unknown c cs hx hc =>
      have hnone : escape? c = none := Option.eq_none_iff_forall_ne_some.2 fun byte h =>
        hc byte (escape?_eq_some_iff.1 h)
      rw [bytesOf, hnone]
      · exact fun _ _ _ h => absurd h hx
      · exact fun h => absurd h hx

/-- Decoding a string fails with the error of its first bad escape. -/
theorem bytesOf_eq_error_iff : bytesOf cs = .error e ↔ FirstBadEscape cs e := by
  constructor
  · exact firstBadEscape_of_bytesOf
  · rintro ⟨good, bytes, rest, rfl, hgood, hbad⟩
    rw [bytesOf_append hgood, bytesOf_backslash_of_badEscape hbad]
    rfl

/-- Decoding a parameter fails with the error of its first bad escape, or because its bytes are not
text. -/
theorem textOf_eq_error_iff :
    textOf cs = .error e ↔ FirstBadEscape cs e ∨
      ∃ bytes, Spells cs bytes ∧ (∀ text, bytes ≠ Text.utf8 text) ∧
        e = .notText (String.ofList cs) := by
  rw [← bytesOf_eq_error_iff]
  simp only [← bytesOf_eq_ok_iff]
  cases hbytes : bytesOf cs with
  | error e' => simp [textOf, hbytes]
  | ok bytes =>
      cases htext : Text.ofUtf8? bytes with
      | none =>
          have hne : ∀ text, bytes ≠ Text.utf8 text := fun text h => by
            rw [Text.ofUtf8?_eq_some_iff.2 h] at htext
            cases htext
          simp [textOf, hbytes, htext, hne, eq_comm]
      | some text =>
          have heq := Text.ofUtf8?_eq_some_iff.1 htext
          have hsame : ¬ ∀ text', bytes ≠ Text.utf8 text' := fun h => h text heq
          simp [textOf, hbytes, htext, hsame]

/-- Decoding a number fails if it does not fit 64 bits. -/
theorem numberOf_eq_error_iff :
    numberOf cs = .error e ↔
      Decimal.wordSize ≤ Decimal.valueOf cs ∧ e = .numberOutOfRange (String.ofList cs) := by
  unfold numberOf
  dsimp only
  split
  · next hlt => exact ⟨fun h => (by cases h), fun h => absurd hlt (Nat.not_lt.2 h.1)⟩
  · next hge =>
      rw [Except.error.injEq]
      exact ⟨fun h => ⟨Nat.not_lt.1 hge, h.symm⟩, fun h => h.2.symm⟩

end DeviceMessages.Definition

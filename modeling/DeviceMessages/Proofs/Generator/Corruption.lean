import DeviceMessages.Proofs.Template.Checksum

/-!
# What a checksum does not notice

A receiver that compares checksums takes a changed message for the one that was sent if the two have
the same checksum. The exclusive or of all bytes changes with any single byte (`exclusiveOr_ne`).
A checksum leaves out an STX at the beginning, so the bytes that it covers depend on the message;
but leaving a byte out of an exclusive or is the same as counting it as zero (`checksum_cons`).
So an STX at the beginning cannot be told from a byte zero there, and nothing else is missed.
-/

namespace DeviceMessages.Generator

/-- Two messages of one length that differ at one place and at no other. -/
structure DifferOnlyAt (sent received : Bytes) (i : Nat) : Prop where
  length_eq : sent.length = received.length
  differ : sent[i]? ≠ received[i]?
  agree : ∀ j, j ≠ i → sent[j]? = received[j]?

variable {sent received : Bytes} {i : Nat}

theorem DifferOnlyAt.exists_of_zero (h : DifferOnlyAt sent received 0) :
    ∃ a b bytes, sent = a :: bytes ∧ received = b :: bytes ∧ a ≠ b := by
  obtain ⟨hlength, hdiffer, hagree⟩ := h
  cases sent with
  | nil =>
      obtain rfl := List.eq_nil_of_length_eq_zero hlength.symm
      exact absurd rfl hdiffer
  | cons a xs =>
      cases received with
      | nil => cases hlength
      | cons b ys =>
          have htail : xs = ys := List.ext_getElem? fun j => hagree (j + 1) (Nat.succ_ne_zero j)
          subst htail
          exact ⟨a, b, xs, rfl, rfl, fun hab => hdiffer (congrArg some hab)⟩

theorem DifferOnlyAt.exists_of_succ (h : DifferOnlyAt sent received (i + 1)) :
    ∃ c xs ys, sent = c :: xs ∧ received = c :: ys ∧ DifferOnlyAt xs ys i := by
  obtain ⟨hlength, hdiffer, hagree⟩ := h
  cases sent with
  | nil =>
      obtain rfl := List.eq_nil_of_length_eq_zero hlength.symm
      exact absurd rfl hdiffer
  | cons c xs =>
      cases received with
      | nil => cases hlength
      | cons d ys =>
          obtain rfl : c = d := Option.some.inj (hagree 0 (Nat.succ_ne_zero i).symm)
          have hrest : ∀ j, j ≠ i → xs[j]? = ys[j]? := fun j hj =>
            hagree (j + 1) fun heq => hj (Nat.succ.inj heq)
          exact ⟨c, xs, ys, rfl, rfl, Nat.succ.inj hlength, hdiffer, hrest⟩

/-- The exclusive or of all bytes changes with any single byte. -/
theorem exclusiveOr_ne (h : DifferOnlyAt sent received i) :
    exclusiveOr sent ≠ exclusiveOr received := by
  induction i generalizing sent received with
  | zero =>
      obtain ⟨a, b, bytes, rfl, rfl, hne⟩ := h.exists_of_zero
      show a ^^^ exclusiveOr bytes ≠ b ^^^ exclusiveOr bytes
      rwa [ne_eq, UInt8.xor_left_inj]
  | succ i ih =>
      obtain ⟨c, xs, ys, rfl, rfl, hrest⟩ := h.exists_of_succ
      show c ^^^ exclusiveOr xs ≠ c ^^^ exclusiveOr ys
      rw [ne_eq, UInt8.xor_right_inj]
      exact ih hrest

/-- What the first byte of a message counts for in its checksum. -/
def counted (b : UInt8) : UInt8 := if b = 0x02 then 0x00 else b

theorem checksum_cons (b : UInt8) (bytes : Bytes) :
    checksum (b :: bytes) = counted b ^^^ exclusiveOr bytes := by
  show (if b = 0x02 then xorSum bytes else xorSum (b :: bytes)) = _
  rw [xorSum_eq_exclusiveOr, xorSum_eq_exclusiveOr, counted]
  by_cases hb : b = 0x02
  · rw [if_pos hb, if_pos hb, UInt8.zero_xor]
  · rw [if_neg hb, if_neg hb]
    rfl

/-- Two first bytes count for the same if and only if one is zero and the other an STX. -/
theorem counted_eq_iff {a b : UInt8} (hne : a ≠ b) :
    counted a = counted b ↔ (a = 0x00 ∧ b = 0x02) ∨ (a = 0x02 ∧ b = 0x00) := by
  unfold counted
  by_cases ha : a = 0x02
  · subst ha
    rw [if_pos rfl, if_neg hne.symm]
    simp [eq_comm]
  · rw [if_neg ha]
    by_cases hb : b = 0x02
    · simp [hb, ha]
    · simp [hb, ha, hne]

/-- Two messages that differ at one place only have different checksums, unless this is the first
place and one has a byte zero there and the other an STX. Then they have the same. -/
theorem checksum_eq_iff_of_differOnlyAt (h : DifferOnlyAt sent received i) :
    checksum sent = checksum received ↔
      i = 0 ∧ ((sent[0]? = some 0x00 ∧ received[0]? = some 0x02) ∨
        (sent[0]? = some 0x02 ∧ received[0]? = some 0x00)) := by
  cases i with
  | zero =>
      obtain ⟨a, b, bytes, rfl, rfl, hne⟩ := h.exists_of_zero
      rw [checksum_cons, checksum_cons, UInt8.xor_left_inj, counted_eq_iff hne]
      simp
  | succ i =>
      obtain ⟨c, xs, ys, rfl, rfl, hrest⟩ := h.exists_of_succ
      rw [checksum_cons, checksum_cons, UInt8.xor_right_inj]
      exact iff_of_false (exclusiveOr_ne hrest) fun hzero => absurd hzero.1 (Nat.succ_ne_zero i)

/-- An STX that became a byte zero on the way goes unnoticed. -/
theorem checksum_eq_of_lost_startOfText :
    DifferOnlyAt [0x02, 0x31, 0x32] [0x00, 0x31, 0x32] 0 ∧
      checksum [0x02, 0x31, 0x32] = checksum [0x00, 0x31, 0x32] := by
  have hdiffer : DifferOnlyAt [0x02, 0x31, 0x32] [0x00, 0x31, 0x32] 0 := by
    refine ⟨rfl, by decide, fun j hj => ?_⟩
    cases j with
    | zero => exact absurd rfl hj
    | succ j => rfl
  exact ⟨hdiffer, (checksum_eq_iff_of_differOnlyAt hdiffer).2 ⟨rfl, .inr ⟨rfl, rfl⟩⟩⟩

end DeviceMessages.Generator

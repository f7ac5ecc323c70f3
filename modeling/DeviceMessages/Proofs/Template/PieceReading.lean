import DeviceMessages.Proofs.Failure
import DeviceMessages.Proofs.Template.Spelling
import DeviceMessages.Proofs.Text.Utf8

/-!
# Reading a piece back from its spelling

A piece of a template text is a character, a soft wrap, a field reference or a call. Every reader
of `Template.Compilation` stops at a character that cannot belong to the piece any more, so a piece
is read from each of its spellings whatever follows, and only from those.

Main results: `read_of_writesPiece`, `writesPiece_of_read`, and for rows of pieces
`readAll_eq_ok_iff`.
-/

namespace DeviceMessages.Spelling

open Decimal (valueOf isNumeral)
open Text (joinWith splitOn)
open Piece

/-- The ways to write one piece. -/
inductive WritesPiece (functions : Functions) : Piece → List Char → Prop
  | char {c : Char} {cs : List Char} (hchar : WritesChar c cs) : WritesPiece functions (.char c) cs
  | wrap {b : Char} (hb : IsLineBreak b) : WritesPiece functions .wrap ['\\', b]
  | field {key : String} {format : Option FieldFormat} {cs : List Char}
      (hfield : WritesFragment functions (.field key format) cs) :
      WritesPiece functions (.field key format) cs
  | call {name : String} {generator : Generator} {cs : List Char}
      (hcall : WritesFragment functions (.call name generator) cs) :
      WritesPiece functions (.call name generator) cs

variable {functions : Functions} {start : Nat} {p : Piece} {cs rest : List Char}

private theorem ofList_ne_empty {cs : List Char} (h : cs ≠ []) : String.ofList cs ≠ "" := by
  rwa [ne_eq, ← String.toList_eq_nil_iff, String.toList_ofList]

private theorem toList_ne_nil {s : String} (h : s ≠ "") : s.toList ≠ [] := by
  rwa [ne_eq, String.toList_eq_nil_iff]

/-! ## After a backslash -/

private theorem writesPiece_of_readEscape (functions : Functions)
    (h : readEscape start cs = .ok (p, rest)) :
    ∃ u, WritesPiece functions p ('\\' :: u) ∧ cs = u ++ rest := by
  cases cs with
  | nil => cases h
  | cons c cs =>
      simp only [readEscape, Except.ok.injEq, Prod.mk.injEq] at h
      obtain ⟨hp, rfl⟩ := h
      refine ⟨[c], ?_, rfl⟩
      subst hp
      split
      · next hb => exact .wrap hb
      · next hb => exact .char (.escaped hb)

/-! ## After a number sign -/

private theorem writesPiece_of_readCode (functions : Functions)
    (h : readCode start cs = .ok (p, rest)) :
    ∃ u, WritesPiece functions p ('#' :: u) ∧ cs = u ++ rest := by
  unfold readCode at h
  dsimp only at h
  split at h
  · cases h
  · next c after hdrop =>
      have hcut := Text.takeWhile_append_of_dropWhile hdrop
      split at h
      · cases h
      · next hc =>
          split at h
          · next hcode =>
              obtain ⟨hnumeral, hle⟩ := hcode
              cases h
              obtain rfl : c = ';' := Decidable.not_not.1 hc
              have hlt : valueOf (cs.takeWhile Char.isDigit) < 127 := Nat.lt_succ_of_le hle
              have hvalue := Text.toNat_ofNat_of_ascii (Nat.lt_succ_of_lt hlt)
              refine ⟨cs.takeWhile Char.isDigit ++ [';'], .char (.code ?_ ?_ hvalue.symm ?_), ?_⟩
              · intro hnil
                simp [isNumeral, hnil] at hnumeral
              · exact fun d hd => Text.mem_takeWhile hd
              · rw [hvalue]; exact hlt
              · simpa using hcut
          · cases h

private theorem readCode_of_digits (start : Nat) {digits : List Char} {c : Char} (hne : digits ≠ [])
    (hdigits : ∀ d ∈ digits, d.isDigit = true) (hvalue : valueOf digits = c.toNat)
    (hlt : c.toNat < 127) (rest : List Char) :
    readCode start (digits ++ ';' :: rest) = .ok (.char c, rest) := by
  have hstop : ∀ d ∈ (';' :: rest).head?, d.isDigit = false := by
    rintro d ⟨⟩; rfl
  have htake := Text.takeWhile_run hdigits hstop
  have hdrop := Text.dropWhile_run hdigits hstop
  have hnumeral : isNumeral digits = true := by
    simp [isNumeral, hne, List.all_eq_true.2 hdigits]
  have hle : c.toNat ≤ maxCode := Nat.le_of_lt_succ hlt
  simp only [readCode, htake, hdrop, hnumeral, hvalue, hle, ne_eq, not_true_eq_false, if_false,
    and_self, if_true, Char.ofNat_toNat]

/-! ## After a dollar sign and a parenthesis -/

private def isKeyChar (c : Char) : Bool := c != ':' && c != ')'

private theorem writesPiece_of_ofField {key format colon : List Char}
    (hkey : ∀ c ∈ key, isKeyChar c = true) (hformat : ')' ∉ format)
    (hcolon : colon = [] ∨ colon = [':']) (hsep : format ≠ [] → colon = [':'])
    (h : ofField start key format = .ok p) :
    WritesPiece functions p ('$' :: '(' :: key ++ (colon ++ format) ++ [')']) := by
  unfold ofField at h
  split at h
  · cases h
  · next hne =>
      have hk : IsKey (String.ofList key) := by
        refine ⟨ofList_ne_empty (by simpa using hne), ?_, ?_⟩ <;>
          rw [String.toList_ofList] <;> intro hmem <;>
          simpa [isKeyChar] using hkey _ hmem
      unfold fieldFormat? at h
      by_cases hf : format = []
      · subst hf
        simp only [List.isEmpty_nil, if_true, Except.ok.injEq] at h
        subst h
        have hw : WritesFragment functions (.field (String.ofList key) none) _ :=
          .plainField hk hcolon
        rw [String.toList_ofList] at hw
        simpa using WritesPiece.field hw
      · obtain rfl := hsep hf
        have hempty : format.isEmpty = false := by simpa using hf
        cases hparse : FieldFormat.parse (String.ofList format) with
        | error e => simp [hempty, hparse, Except.map] at h
        | ok parsed =>
            simp only [hempty, hparse, Except.map, Bool.false_eq_true, if_false,
              Except.ok.injEq] at h
            subst h
            have hfmt : String.ofList format ≠ "" ∧ ')' ∉ (String.ofList format).toList :=
              ⟨ofList_ne_empty hf, by rwa [String.toList_ofList]⟩
            have hw : WritesFragment functions (.field (String.ofList key) (some parsed)) _ :=
              .formattedField hk hfmt hparse
            rw [String.toList_ofList, String.toList_ofList] at hw
            simpa using WritesPiece.field hw

private theorem writesPiece_of_readField (functions : Functions)
    (h : readField start cs = .ok (p, rest)) :
    ∃ u, WritesPiece functions p ('$' :: '(' :: u) ∧ cs = u ++ rest := by
  unfold readField at h
  dsimp only at h
  split at h
  · cases h
  · next c after hdrop =>
      have hcut : cs = cs.takeWhile isKeyChar ++ c :: after :=
        Text.takeWhile_append_of_dropWhile hdrop
      have hkey : ∀ c ∈ cs.takeWhile isKeyChar, isKeyChar c = true :=
        fun c hc => Text.mem_takeWhile hc
      split at h
      · next hc =>
          obtain ⟨q, hfield, heq⟩ := exists_of_map_eq_ok h
          cases heq
          refine ⟨cs.takeWhile isKeyChar ++ [')'], ?_, ?_⟩
          · simpa using writesPiece_of_ofField hkey List.not_mem_nil (Or.inl rfl)
              (fun hne => absurd rfl hne) hfield
          · rw [hc] at hcut
            simpa using hcut
      · next hc =>
          have hstop := Text.stop_of_dropWhile hdrop
          have hcolon : c = ':' := by
            simp only [Bool.and_eq_false_iff, bne_eq_false_iff_eq] at hstop
            exact hstop.resolve_right hc
          split at h
          · cases h
          · next c' after' hdrop' =>
              obtain ⟨q, hfield, heq⟩ := exists_of_map_eq_ok h
              cases heq
              have hcut' := Text.takeWhile_append_of_dropWhile hdrop'
              have hstop' : c' = ')' := by simpa using Text.stop_of_dropWhile hdrop'
              have hformat : ')' ∉ after.takeWhile (· != ')') := fun hmem => by
                simpa using Text.mem_takeWhile hmem
              refine ⟨cs.takeWhile isKeyChar ++ ':' :: after.takeWhile (· != ')') ++ [')'], ?_, ?_⟩
              · simpa using writesPiece_of_ofField hkey hformat (Or.inr rfl) (fun _ => rfl) hfield
              · rw [hcolon, hcut', hstop'] at hcut
                simpa using hcut

private theorem readField_of_key (start : Nat) (rest : List Char) {key : List Char}
    (hkey : ∀ c ∈ key, isKeyChar c = true) :
    readField start (key ++ ')' :: rest) = (ofField start key []).map (·, rest) := by
  have hstop : ∀ c ∈ (')' :: rest).head?, isKeyChar c = false := by
    rintro c ⟨⟩; rfl
  have htake := Text.takeWhile_run hkey hstop
  have hdrop := Text.dropWhile_run hkey hstop
  unfold isKeyChar at htake hdrop
  simp only [readField, htake, hdrop, if_true]

private theorem readField_of_key_format (start : Nat) (rest : List Char)
    {key format : List Char} (hkey : ∀ c ∈ key, isKeyChar c = true) (hformat : ')' ∉ format) :
    readField start (key ++ ':' :: (format ++ ')' :: rest)) =
      (ofField start key format).map (·, rest) := by
  have hstop : ∀ c ∈ (':' :: (format ++ ')' :: rest)).head?, isKeyChar c = false := by
    rintro c ⟨⟩; rfl
  have hstop' : ∀ c ∈ (')' :: rest).head?, (c != ')') = false := by
    rintro c ⟨⟩; rfl
  have hrun : ∀ c ∈ format, (c != ')') = true := fun c hc => by
    simp only [bne_iff_ne, ne_eq]
    rintro rfl
    exact hformat hc
  have htake := Text.takeWhile_run hkey hstop
  have hdrop := Text.dropWhile_run hkey hstop
  have htake' := Text.takeWhile_run hrun hstop'
  have hdrop' := Text.dropWhile_run hrun hstop'
  unfold isKeyChar at htake hdrop
  simp only [readField, htake, hdrop, htake', hdrop', show ¬ ':' = ')' by decide, if_false]

private theorem isKeyChar_of_isKey {key : String} (h : IsKey key) :
    ∀ c ∈ key.toList, isKeyChar c = true := by
  intro c hc
  simp only [isKeyChar, Bool.and_eq_true, bne_iff_ne, ne_eq]
  constructor <;> rintro rfl
  · exact h.2.1 hc
  · exact h.2.2 hc

private theorem ofField_plain {key : String} (h : IsKey key) :
    ofField start key.toList [] = .ok (.field key none) := by
  simp [ofField, fieldFormat?, toList_ne_nil h.1]

private theorem ofField_formatted {key format : String} {parsed : FieldFormat} (h : IsKey key)
    (hne : format ≠ "") (hparse : FieldFormat.parse format = .ok parsed) :
    ofField start key.toList format.toList = .ok (.field key (some parsed)) := by
  simp [ofField, fieldFormat?, toList_ne_nil h.1, toList_ne_nil hne, hparse, Except.map]

/-! ## After a dollar sign and a name -/

private theorem arguments_eq (text : List Char) :
    ∃ args, arguments text = args ∧ text = joinWith ',' (args.map String.toList) ∧
      args ≠ [""] ∧ ∀ arg ∈ args, ',' ∉ arg.toList ∧ ∀ c ∈ arg.toList, c ∈ text := by
  unfold arguments
  by_cases hempty : text = []
  · subst hempty
    exact ⟨[], rfl, rfl, by simp, by simp⟩
  · have hne : text.isEmpty = false := by simpa using hempty
    refine ⟨(splitOn ',' text).map String.ofList, by simp [hne], ?_, ?_, ?_⟩
    · have hback : ((splitOn ',' text).map String.ofList).map String.toList = splitOn ',' text := by
        simp [List.map_map, Function.comp_def]
      rw [hback, Text.joinWith_splitOn]
    · intro hone
      have hsingle : splitOn ',' text = [[]] := by
        have := congrArg (List.map String.toList) hone
        simpa [List.map_map, Function.comp_def] using this
      have hjoin := Text.joinWith_splitOn ',' text
      rw [hsingle] at hjoin
      exact hempty hjoin.symm
    · intro arg harg
      obtain ⟨part, hpart, rfl⟩ := List.mem_map.1 harg
      rw [String.toList_ofList]
      exact ⟨Text.notMem_of_mem_splitOn hpart, fun c hc => Text.mem_of_mem_splitOn hpart hc⟩

private theorem arguments_joinWith {args : List String} (h : IsArgumentList args) :
    arguments (joinWith ',' (args.map String.toList)) = args := by
  cases args with
  | nil => rfl
  | cons arg args =>
      have hne : (arg :: args).map String.toList ≠ [] := by simp
      have hsep : ∀ part ∈ (arg :: args).map String.toList, ',' ∉ part := by
        intro part hpart
        obtain ⟨a, ha, rfl⟩ := List.mem_map.1 hpart
        exact (h.2 a ha).1
      have hsplit := Text.splitOn_joinWith hne hsep
      have hjoin : (joinWith ',' ((arg :: args).map String.toList)).isEmpty = false := by
        rw [List.isEmpty_eq_false_iff]
        intro hnil
        -- an empty text splits into one empty part, which is the excluded list
        rw [hnil] at hsplit
        refine h.1 ?_
        have := congrArg (List.map String.ofList) hsplit
        simpa [splitOn, List.map_map, Function.comp_def] using this.symm
      unfold arguments
      rw [hjoin, hsplit]
      simp [List.map_map, Function.comp_def]

private theorem writesPiece_of_readCall (hhead : cs.head? ≠ some '(')
    (h : readCall functions start cs = .ok (p, rest)) :
    ∃ u, WritesPiece functions p ('$' :: u) ∧ cs = u ++ rest := by
  unfold readCall at h
  dsimp only at h
  split at h
  · cases h
  · next c after hdrop =>
      have hcut := Text.takeWhile_append_of_dropWhile hdrop
      have hstop : c = '(' := by simpa using Text.stop_of_dropWhile hdrop
      split at h
      · cases h
      · next c' after' hdrop' =>
          have hcut' := Text.takeWhile_append_of_dropWhile hdrop'
          have hstop' : c' = ')' := by simpa using Text.stop_of_dropWhile hdrop'
          split at h
          · next generator hcall =>
              cases h
              obtain ⟨args, hargs, hjoin, hone, hmem⟩ := arguments_eq (after.takeWhile (· != ')'))
              have hname : cs.takeWhile (· != '(') ≠ [] := by
                -- the text does not begin with the parenthesis at which the name ends
                intro hnil
                rw [hnil, hstop] at hcut
                exact hhead (by rw [hcut]; rfl)
              have hn : IsFunctionName (String.ofList (cs.takeWhile (· != '('))) := by
                refine ⟨ofList_ne_empty hname, ?_⟩
                rw [String.toList_ofList]
                exact fun hm => by simpa using Text.mem_takeWhile hm
              have ha : IsArgumentList args := by
                refine ⟨hone, fun arg harg => ⟨(hmem arg harg).1, fun hm => ?_⟩⟩
                simpa using Text.mem_takeWhile ((hmem arg harg).2 _ hm)
              rw [hargs] at hcall
              have hw := WritesFragment.call hn ha hcall
              rw [String.toList_ofList, ← hjoin] at hw
              refine ⟨_, .call hw, ?_⟩
              rw [hcut', hstop, hstop'] at hcut
              simpa using hcut
          · cases h

private theorem readCall_of_call (start : Nat) {name : String} {args : List String}
    {generator : Generator}
    (hname : IsFunctionName name) (hargs : IsArgumentList args)
    (hcall : functions.call name args = .ok generator) (rest : List Char) :
    readCall functions start
        (name.toList ++ '(' :: (joinWith ',' (args.map String.toList) ++ ')' :: rest)) =
      .ok (.call name generator, rest) := by
  have hstop : ∀ c ∈ ('(' :: (joinWith ',' (args.map String.toList) ++ ')' :: rest)).head?,
      (c != '(') = false := by
    rintro c ⟨⟩; rfl
  have hstop' : ∀ c ∈ (')' :: rest).head?, (c != ')') = false := by
    rintro c ⟨⟩; rfl
  have hrun : ∀ c ∈ name.toList, (c != '(') = true := fun c hc => by
    simp only [bne_iff_ne, ne_eq]
    rintro rfl
    exact hname.2 hc
  have hrun' : ∀ c ∈ joinWith ',' (args.map String.toList), (c != ')') = true := fun c hc => by
    simp only [bne_iff_ne, ne_eq]
    rintro rfl
    obtain ⟨part, hpart, hc⟩ := Text.mem_of_mem_joinWith (by decide) hc
    obtain ⟨arg, harg, rfl⟩ := List.mem_map.1 hpart
    exact (hargs.2 arg harg).2 hc
  simp only [readCall, Text.takeWhile_run hrun hstop, Text.dropWhile_run hrun hstop,
    Text.takeWhile_run hrun' hstop', Text.dropWhile_run hrun' hstop', String.ofList_toList,
    arguments_joinWith hargs, hcall]

/-! ## Any piece -/

/-- What is read is a spelling of the piece, followed by what is left. -/
theorem writesPiece_of_read {c : Char} (h : Piece.read functions start c cs = .ok (p, rest)) :
    ∃ u, WritesPiece functions p u ∧ c :: cs = u ++ rest := by
  unfold Piece.read at h
  split at h
  · next hc =>
      obtain ⟨u, hu, hcs⟩ := writesPiece_of_readEscape functions h
      exact ⟨'\\' :: u, hu, by rw [hc, hcs]; rfl⟩
  · next hbackslash =>
      split at h
      · next hc =>
          obtain ⟨u, hu, hcs⟩ := writesPiece_of_readCode functions h
          exact ⟨'#' :: u, hu, by rw [hc, hcs]; rfl⟩
      · next hhash =>
          split at h
          · next hc =>
              subst hc
              split at h
              · cases h
              · obtain ⟨u, hu, hcs⟩ := writesPiece_of_readField functions h
                exact ⟨'$' :: '(' :: u, hu, by rw [hcs]; rfl⟩
              · next hparen =>
                  have hhead : cs.head? ≠ some '(' := by
                    intro hhead
                    cases cs with
                    | nil => cases hhead
                    | cons d ds => cases hhead; exact hparen ds rfl
                  obtain ⟨u, hu, hcs⟩ := writesPiece_of_readCall hhead h
                  exact ⟨'$' :: u, hu, by rw [hcs]; rfl⟩
          · next hdollar =>
              cases h
              exact ⟨[c], .char (.raw ⟨hbackslash, hhash, hdollar⟩), rfl⟩

private theorem read_of_writesChar {c : Char} {u : List Char} (h : WritesChar c u) :
    ∃ d v, u = d :: v ∧ ∀ start rest,
      Piece.read functions start d (v ++ rest) = .ok (.char c, rest) := by
  cases h with
  | raw hc => exact ⟨c, [], rfl, fun start rest => by simp [Piece.read, hc.1, hc.2.1, hc.2.2]⟩
  | escaped hc =>
      refine ⟨'\\', [c], rfl, fun start rest => ?_⟩
      have hnot : ¬ (c = '\n' ∨ c = '\r') := hc
      simp [Piece.read, readEscape, hnot]
  | @code digits hne hdigits hvalue hlt =>
      refine ⟨'#', digits ++ [';'], rfl, fun start rest => ?_⟩
      have hread := readCode_of_digits start hne hdigits hvalue hlt rest
      simpa [Piece.read] using hread

/-- A piece is read back from each of its spellings, whatever follows. -/
theorem read_of_writesPiece {u : List Char} (h : WritesPiece functions p u) :
    ∃ c v, u = c :: v ∧ ∀ start rest,
      Piece.read functions start c (v ++ rest) = .ok (p, rest) := by
  cases h with
  | char hchar => exact read_of_writesChar hchar
  | @wrap b hb =>
      refine ⟨'\\', [b], rfl, fun start rest => ?_⟩
      have hbreak : b = '\n' ∨ b = '\r' := hb
      simp [Piece.read, readEscape, hbreak]
  | @field key format cs hfield =>
      cases hfield with
      | @plainField _ colon hkey hcolon =>
          refine ⟨'$', _, rfl, fun start rest => ?_⟩
          have hread : readField start (key.toList ++ colon ++ [')'] ++ rest) =
              .ok (.field key none, rest) := by
            have hchars := isKeyChar_of_isKey hkey
            rcases hcolon with rfl | rfl
            · have := readField_of_key start rest hchars
              simpa [ofField_plain hkey, Except.map] using this
            · have := readField_of_key_format start rest hchars
                List.not_mem_nil
              simpa [ofField_plain hkey, Except.map] using this
          simpa [Piece.read] using hread
      | @formattedField _ format parsed hkey hformat hparse =>
          refine ⟨'$', _, rfl, fun start rest => ?_⟩
          have hread := readField_of_key_format start rest
            (isKeyChar_of_isKey hkey) hformat.2
          rw [ofField_formatted hkey hformat.1 hparse] at hread
          simpa [Piece.read, Except.map] using hread
  | @call name generator cs hcall =>
      cases hcall with
      | @call _ args _ hname hargs hcall =>
          refine ⟨'$', _, rfl, fun start rest => ?_⟩
          have hread := readCall_of_call start hname hargs hcall rest
          cases hcs : name.toList with
          | nil => exact absurd hcs (toList_ne_nil hname.1)
          | cons d ds =>
              have hd : d ≠ '(' := fun hd => hname.2 (by rw [hcs, hd]; exact List.mem_cons_self)
              rw [hcs] at hread
              simpa [Piece.read, hd] using hread

/-! ## Rows of pieces -/

/-- The ways to write pieces one after the other. -/
inductive WritesPieces (functions : Functions) : List Piece → List Char → Prop
  | nil : WritesPieces functions [] []
  | cons {p : Piece} {ps : List Piece} {u cs : List Char} (hp : WritesPiece functions p u)
      (hps : WritesPieces functions ps cs) : WritesPieces functions (p :: ps) (u ++ cs)

private theorem writesPieces_of_readAll {source : List Char} {ps : List Piece}
    (h : readAll functions source cs = .ok ps) : WritesPieces functions ps cs := by
  fun_induction readAll functions source cs generalizing ps with
  | case1 => cases h; exact .nil
  | case2 c cs e hread => cases h
  | case3 c cs p rest hread ih =>
      obtain ⟨qs, hqs, rfl⟩ : ∃ qs, readAll functions source rest = .ok qs ∧ p :: qs = ps := by
        cases hrest : readAll functions source rest with
        | error e => rw [hrest] at h; cases h
        | ok qs => rw [hrest] at h; cases h; exact ⟨qs, rfl, rfl⟩
      obtain ⟨u, hu, hcs⟩ := writesPiece_of_read hread
      rw [hcs]
      exact .cons hu (ih hqs)

private theorem readAll_of_writesPieces {ps : List Piece} (h : WritesPieces functions ps cs)
    (source : List Char) : readAll functions source cs = .ok ps := by
  induction h with
  | nil => rw [readAll]
  | @cons p ps u cs hp hps ih =>
      obtain ⟨c, v, rfl, hread⟩ := read_of_writesPiece hp
      rw [List.cons_append, readAll]
      split
      · next e herror => rw [hread] at herror; cases herror
      · next q rest hok =>
          rw [hread] at hok
          cases hok
          rw [ih]
          rfl

/-- A text is read as exactly the rows of pieces that it is a spelling of. -/
theorem readAll_eq_ok_iff {source : List Char} {ps : List Piece} :
    readAll functions source cs = .ok ps ↔ WritesPieces functions ps cs :=
  ⟨writesPieces_of_readAll, fun h => readAll_of_writesPieces h source⟩

end DeviceMessages.Spelling

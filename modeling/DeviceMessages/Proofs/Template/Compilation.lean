import DeviceMessages.Proofs.Template.PieceReading

/-!
# Compiling accepts exactly the spellings

A template text is compiled by reading it as a row of pieces and joining neighbouring characters to
literals. `PieceReading` says which rows a text is a spelling of; what is left is to relate rows of
pieces to lists of fragments.

Joining never makes an empty literal or two adjacent ones (`proper_ofPieces`). In one direction a
row's spelling is a spelling of the joined fragments: a character in front of a spelled list extends
the literal that the list begins with, across any soft wraps between the two
(`writes_pushChar`). In the other direction a literal is taken apart into its characters, and a
proper list comes back from the pieces it is taken apart into (`exists_writesPieces`).
-/

namespace DeviceMessages.Spelling

open Fragment (pushChar ofPieces)

variable {functions : Functions}

/-! ## Texts of literals -/

theorem WritesText.append {s t cs ds : List Char} (hs : WritesText s cs) (ht : WritesText t ds) :
    WritesText (s ++ t) (cs ++ ds) := by
  induction hs with
  | nil => exact ht
  | char hchar _ ih =>
      rw [List.cons_append, List.append_assoc]
      exact .char hchar ih
  | wrap hb _ ih => exact .wrap hb ih

theorem WritesText.single {c : Char} {cs : List Char} (h : WritesChar c cs) :
    WritesText [c] cs := by
  simpa using WritesText.char h .nil

theorem WritesText.append_wrap {text cs : List Char} {b : Char} (h : WritesText text cs)
    (hb : IsLineBreak b) : WritesText text (cs ++ ['\\', b]) := by
  simpa using h.append (.wrap hb .nil)

private theorem writesFragment_literal {text cs : List Char} (h : WritesText text cs) :
    WritesFragment functions (.literal (String.ofList text)) cs :=
  .literal (by rwa [String.toList_ofList])

/-! ## Joined fragments are proper -/

theorem Proper.tail {f : Fragment} {fs : List Fragment} (h : Proper (f :: fs)) : Proper fs :=
  ⟨fun text hmem => h.1 text (List.mem_cons_of_mem f hmem), h.2.tail⟩

/-- A fragment that is no literal can stand before any proper fragments. -/
private theorem proper_cons_of_not_isLiteral {f : Fragment} {fs : List Fragment}
    (hf : ¬ IsLiteral f) (h : Proper fs) : Proper (f :: fs) := by
  refine ⟨fun text hmem => ?_, ?_⟩
  · rcases List.mem_cons.1 hmem with rfl | hmem
    · exact absurd trivial hf
    · exact h.1 text hmem
  · cases fs with
    | nil => exact .singleton f
    | cons g fs => exact .cons_cons (fun hlit => hf hlit.1) h.2

private theorem proper_literal_cons {text : String} {fs : List Fragment} (htext : text ≠ "")
    (hhead : ∀ f ∈ fs.head?, ¬ IsLiteral f) (h : Proper fs) : Proper (.literal text :: fs) := by
  refine ⟨fun t hmem => ?_, ?_⟩
  · rcases List.mem_cons.1 hmem with heq | hmem
    · cases heq; exact htext
    · exact h.1 t hmem
  · cases fs with
    | nil => exact .singleton _
    | cons g fs => exact .cons_cons (fun hlit => hhead g rfl hlit.2) h.2

/-- No literal follows a literal. -/
theorem Proper.not_isLiteral_head? {text : String} {fs : List Fragment}
    (h : Proper (.literal text :: fs)) : ∀ f ∈ fs.head?, ¬ IsLiteral f := by
  cases fs with
  | nil => rintro f ⟨⟩
  | cons g fs =>
      rintro f ⟨⟩
      exact fun hg => (List.isChain_cons_cons.1 h.2).1 ⟨trivial, hg⟩

private theorem singleton_append_ne_empty (c : Char) (text : String) :
    String.singleton c ++ text ≠ "" := by
  rw [ne_eq, ← String.toList_eq_nil_iff, String.toList_append]
  simp

private theorem pushChar_of_not_isLiteral {c : Char} {fs : List Fragment}
    (h : ∀ f ∈ fs.head?, ¬ IsLiteral f) :
    pushChar c fs = .literal (String.singleton c) :: fs := by
  cases fs with
  | nil => rfl
  | cons f fs =>
      cases f with
      | literal text => exact absurd trivial (h _ rfl)
      | field key format => rfl
      | call name generator => rfl

theorem proper_pushChar (c : Char) {fs : List Fragment} (h : Proper fs) :
    Proper (pushChar c fs) := by
  by_cases hhead : ∀ f ∈ fs.head?, ¬ IsLiteral f
  · rw [pushChar_of_not_isLiteral hhead]
    refine proper_literal_cons ?_ hhead h
    rw [ne_eq, ← String.toList_eq_nil_iff]
    simp
  · cases fs with
    | nil => exact absurd (by rintro f ⟨⟩) hhead
    | cons f fs =>
        cases f with
        | literal text =>
            exact proper_literal_cons (singleton_append_ne_empty c text)
              h.not_isLiteral_head? h.tail
        | field key format => exact absurd (by rintro f ⟨⟩; exact id) hhead
        | call name generator => exact absurd (by rintro f ⟨⟩; exact id) hhead

theorem proper_ofPieces (ps : List Piece) : Proper (ofPieces ps) := by
  induction ps with
  | nil => exact ⟨fun text hmem => absurd hmem List.not_mem_nil, .nil⟩
  | cons p ps ih =>
      cases p with
      | char c => exact proper_pushChar c ih
      | wrap => exact ih
      | field key format => exact proper_cons_of_not_isLiteral id ih
      | call name generator => exact proper_cons_of_not_isLiteral id ih

/-! ## From pieces to fragments -/

/-- A character in front of spelled fragments extends the literal that they begin with. The
induction is on the spelling of the fragments: each soft wrap in front of them is moved into the
spelling of the character. -/
theorem writes_pushChar {c : Char} {fs : List Fragment} {cs ds : List Char}
    (hc : WritesText [c] cs) (hfs : Writes functions fs ds) :
    Writes functions (pushChar c fs) (cs ++ ds) := by
  induction hfs generalizing cs with
  | nil => exact .cons (writesFragment_literal hc) .nil
  | @wrap b fs ds hb _ ih =>
      have h := ih (hc.append_wrap hb)
      simpa using h
  | @cons f fs ds rest hf hfs _ =>
      have hsingle : WritesFragment functions (.literal (String.singleton c)) cs :=
        writesFragment_literal hc
      cases hf with
      | @literal text _ htext =>
          have hjoined : WritesFragment functions (.literal (String.singleton c ++ text))
              (cs ++ ds) := by
            refine .literal ?_
            rw [String.toList_append]
            simpa using hc.append htext
          rw [← List.append_assoc]
          exact .cons hjoined hfs
      | plainField hkey hcolon => exact .cons hsingle (.cons (.plainField hkey hcolon) hfs)
      | formattedField hkey hformat hparse =>
          exact .cons hsingle (.cons (.formattedField hkey hformat hparse) hfs)
      | call hname hargs hcall => exact .cons hsingle (.cons (.call hname hargs hcall) hfs)

theorem writes_ofPieces {ps : List Piece} {cs : List Char} (h : WritesPieces functions ps cs) :
    Writes functions (ofPieces ps) cs := by
  induction h with
  | nil => exact .nil
  | cons hp _ ih =>
      cases hp with
      | char hchar => exact writes_pushChar (.single hchar) ih
      | wrap hb => exact .wrap hb ih
      | field hfield => exact .cons hfield ih
      | call hcall => exact .cons hcall ih

/-! ## From fragments to pieces -/

private theorem exists_writesPieces_of_writesText {text cs ds : List Char} {ps : List Piece}
    (htext : WritesText text cs) (hps : WritesPieces functions ps ds) :
    ∃ qs, WritesPieces functions qs (cs ++ ds) ∧
      ofPieces qs = text.foldr pushChar (ofPieces ps) := by
  induction htext with
  | nil => exact ⟨ps, hps, rfl⟩
  | @char c text cs rest hchar _ ih =>
      obtain ⟨qs, hqs, heq⟩ := ih
      refine ⟨.char c :: qs, ?_, ?_⟩
      · rw [List.append_assoc]
        exact .cons (.char hchar) hqs
      · rw [List.foldr_cons, ← heq]; rfl
  | @wrap b text rest hb _ ih =>
      obtain ⟨qs, hqs, heq⟩ := ih
      refine ⟨.wrap :: qs, ?_, heq⟩
      show WritesPieces functions (.wrap :: qs) (['\\', b] ++ (rest ++ ds))
      exact .cons (.wrap hb) hqs

private theorem foldr_pushChar {c : Char} {text : List Char} {fs : List Fragment}
    (h : ∀ f ∈ fs.head?, ¬ IsLiteral f) :
    (c :: text).foldr pushChar fs = .literal (String.ofList (c :: text)) :: fs := by
  induction text generalizing c with
  | nil => exact pushChar_of_not_isLiteral h
  | cons d text ih =>
      rw [List.foldr_cons, ih]
      show Fragment.literal (String.singleton c ++ String.ofList (d :: text)) :: fs = _
      rw [String.singleton_eq_ofList, ← String.ofList_append]
      rfl

/-- Proper fragments are what some pieces make that have the same spelling. -/
theorem exists_writesPieces {fs : List Fragment} {cs : List Char} (hproper : Proper fs)
    (h : Writes functions fs cs) :
    ∃ ps, WritesPieces functions ps cs ∧ ofPieces ps = fs := by
  induction h with
  | nil => exact ⟨[], .nil, rfl⟩
  | wrap hb _ ih =>
      obtain ⟨ps, hps, heq⟩ := ih hproper
      exact ⟨.wrap :: ps, .cons (.wrap hb) hps, heq⟩
  | @cons f fs cs rest hf _ ih =>
      obtain ⟨ps, hps, heq⟩ := ih hproper.tail
      cases f with
      | literal text =>
          cases hf with
          | literal htext =>
              obtain ⟨qs, hqs, hqeq⟩ := exists_writesPieces_of_writesText htext hps
              refine ⟨qs, hqs, ?_⟩
              cases hchars : text.toList with
              | nil =>
                  exact absurd (String.toList_eq_nil_iff.1 hchars)
                    (hproper.1 text List.mem_cons_self)
              | cons c chars =>
                  rw [hqeq, heq, hchars, foldr_pushChar hproper.not_isLiteral_head?, ← hchars,
                    String.ofList_toList]
      | field key format =>
          exact ⟨.field key format :: ps, .cons (.field hf) hps, by rw [← heq]; rfl⟩
      | call name generator =>
          exact ⟨.call name generator :: ps, .cons (.call hf) hps, by rw [← heq]; rfl⟩

/-! ## Compiling -/

/-- Compiling a text succeeds with certain fragments exactly if the fragments are proper and the
text is one of their spellings. -/
theorem compileFragments_eq_ok_iff (functions : Functions) (source : String)
    (fs : List Fragment) :
    Template.compileFragments functions source = .ok fs ↔
      Proper fs ∧ Writes functions fs source.toList := by
  constructor
  · intro h
    unfold Template.compileFragments at h
    cases hread : Piece.readAll functions source.toList source.toList with
    | error e => rw [hread] at h; cases h
    | ok ps =>
        rw [hread] at h
        cases h
        exact ⟨proper_ofPieces ps, writes_ofPieces (readAll_eq_ok_iff.1 hread)⟩
  · rintro ⟨hproper, hwrites⟩
    obtain ⟨ps, hps, heq⟩ := exists_writesPieces hproper hwrites
    unfold Template.compileFragments
    rw [readAll_eq_ok_iff.2 hps, ← heq]
    rfl

end DeviceMessages.Spelling

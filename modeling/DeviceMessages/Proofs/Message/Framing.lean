import DeviceMessages.Message.Kind
import DeviceMessages.Proofs.Template.PieceReading
import DeviceMessages.Proofs.Template.Writing
import DeviceMessages.Proofs.Text.Utf8

/-!
# Messages that are composed and scanned back

A frame is a message in which each field stands between two ASCII characters of its own. It gives a
template, which writes the characters by their codes and the fields by reference, and a kind of
messages, which has a rule for each field between the character before it and the one after it. If
all fields of a record have texts and no delimiter occurs in them, what the template writes is of
the kind and has exactly these texts as its fields: `scanned_back`.

Every rule looks for its delimiters from the front of the whole message. What carries the induction
over the fields is therefore a statement about a message with any bytes in front, as long as none of
the delimiters that are still to come is among them (`extractFields_rules`). Texts of any
characters are covered, since no byte of a character outside ASCII is the code of a delimiter.
-/

namespace DeviceMessages

open Text (utf8)

/-! ## Frames -/

/-- A field of a frame: its key, the text of its format if it has one, and the character that ends
it. -/
structure FramedField where
  key : String
  format : Option String
  stop : Char

/-- A message of fields, the first of which follows an opening character. -/
structure Frame where
  opening : Char
  fields : List FramedField

namespace FramedField

/-- The format that the text of the format is read as. -/
def parsed (f : FramedField) : Option FieldFormat :=
  f.format.bind fun text => (FieldFormat.parse text).toOption

/-- The text of a value in the message, if it can be written. -/
def render (f : FramedField) (value : String) : Option String :=
  match f.parsed with
  | none => some value
  | some format => format.render value

/-- The text of the field in the message for a record. -/
def text (f : FramedField) (record : Record) : Option String :=
  f.render (record.lookup f.key)

/-- The reference to the field in a template text. -/
def reference (f : FramedField) : List Char :=
  match f.format with
  | none => '$' :: '(' :: f.key.toList ++ [')']
  | some format => '$' :: '(' :: f.key.toList ++ ':' :: format.toList ++ [')']

/-- The key and the format, if there is one, can stand in a reference. -/
structure IsProper (f : FramedField) : Prop where
  key : Spelling.IsKey f.key
  format : ∀ text ∈ f.format,
    text ≠ "" ∧ ')' ∉ text.toList ∧ ∃ format, FieldFormat.parse text = .ok format

end FramedField

namespace Frame

/-- A character by its code in a template text. -/
def code (c : Char) : List Char :=
  '#' :: Decimal.digits c.toNat ++ [';']

/-- The template text of a frame. -/
def source (frame : Frame) : String :=
  String.ofList (code frame.opening ++ frame.fields.flatMap fun f => f.reference ++ code f.stop)

/-- The characters between which the fields stand. -/
def delimiters (frame : Frame) : List Char :=
  frame.opening :: frame.fields.map (·.stop)

def rule (before : Char) (f : FramedField) : Rule :=
  ⟨f.key, .between [before.toUInt8] [f.stop.toUInt8], []⟩

/-- A rule for each field, between the delimiter before it and the one after it. -/
def rules (frame : Frame) : List Rule :=
  List.zipWith rule frame.delimiters frame.fields

/-- The fields of the message with given texts. -/
def values (frame : Frame) (text : FramedField → String) : List FieldValue :=
  frame.fields.map fun f => (f.key, utf8 (text f))

/-- Fields in the message with given texts, each with the delimiter after it. -/
def content (text : FramedField → String) (fields : List FramedField) : Bytes :=
  fields.flatMap fun f => utf8 (text f) ++ [f.stop.toUInt8]

/-- The message with given texts. -/
def message (frame : Frame) (text : FramedField → String) : Bytes :=
  frame.opening.toUInt8 :: content text frame.fields

/-- The delimiters are different characters that can be written by their codes, and the fields have
different keys. -/
structure IsProper (frame : Frame) : Prop where
  ascii : ∀ d ∈ frame.delimiters, d.toNat < 127
  distinct : frame.delimiters.Nodup
  fields : ∀ f ∈ frame.fields, f.IsProper
  distinctKeys : (frame.fields.map (·.key)).Nodup

theorem IsProper.stop_lt {frame : Frame} (h : frame.IsProper) :
    ∀ f ∈ frame.fields, f.stop.toNat < 127 :=
  fun f hf => h.ascii f.stop (List.mem_cons_of_mem _ (List.mem_map_of_mem hf))

/-! ## The template of a frame -/

section Template

open Spelling (WritesPiece WritesPieces WritesFragment)

variable {functions : Functions}

/-- What a field and the character after it are read as. -/
def fieldPieces (f : FramedField) : List Piece :=
  [.field f.key f.parsed, .char f.stop]

/-- What a field and the character after it are compiled to. -/
def fieldFragments (f : FramedField) : List Fragment :=
  [.field f.key f.parsed, .literal (String.singleton f.stop)]

theorem writesPiece_code {c : Char} (hc : c.toNat < 127) :
    WritesPiece functions (.char c) (code c) := by
  have hdigits : Decimal.digits c.toNat ≠ [] := Nat.toDigits_ne_nil
  exact .char (.code hdigits (fun d hd => Decimal.isDigit_of_mem_digits hd)
    (Decimal.valueOf_digits c.toNat) hc)

theorem writesPiece_reference {f : FramedField} (h : f.IsProper) :
    WritesPiece functions (.field f.key f.parsed) f.reference := by
  unfold FramedField.parsed FramedField.reference
  cases hf : f.format with
  | none =>
      have hw : WritesFragment functions (.field f.key none) _ := .plainField h.key (.inl rfl)
      simpa using WritesPiece.field hw
  | some text =>
      obtain ⟨hne, hparen, format, hparse⟩ := h.format text hf
      have hw : WritesFragment functions (.field f.key (some format)) _ :=
        .formattedField h.key ⟨hne, hparen⟩ hparse
      simpa [hparse, Except.toOption] using WritesPiece.field hw

theorem ofPieces_fields (c : Char) (fs : List FramedField) :
    Fragment.ofPieces (.char c :: fs.flatMap fieldPieces) =
      .literal (String.singleton c) :: fs.flatMap fieldFragments := by
  induction fs generalizing c with
  | nil => rfl
  | cons f fs ih =>
      have htail := ih f.stop
      simp only [List.flatMap_cons, fieldPieces, fieldFragments, List.cons_append, List.nil_append,
        Fragment.ofPieces] at htail ⊢
      rw [htail]
      rfl

theorem writesPieces_fields {fs : List FramedField} (hascii : ∀ f ∈ fs, f.stop.toNat < 127)
    (hproper : ∀ f ∈ fs, f.IsProper) :
    WritesPieces functions (fs.flatMap fieldPieces)
      (fs.flatMap fun f => f.reference ++ code f.stop) := by
  induction fs with
  | nil => exact .nil
  | cons f fs ih =>
      rw [List.forall_mem_cons] at hascii hproper
      have htail := ih hascii.2 hproper.2
      rw [List.flatMap_cons, List.flatMap_cons, List.append_assoc]
      exact .cons (writesPiece_reference hproper.1)
        (.cons (writesPiece_code hascii.1) htail)

theorem compileFragments_source (functions : Functions) {frame : Frame} (h : frame.IsProper) :
    Template.compileFragments functions frame.source =
      .ok (.literal (String.singleton frame.opening) :: frame.fields.flatMap fieldFragments) := by
  have hopening : frame.opening.toNat < 127 := h.ascii _ List.mem_cons_self
  have hpieces : WritesPieces functions (.char frame.opening :: frame.fields.flatMap fieldPieces)
      frame.source.toList := by
    rw [source, String.toList_ofList]
    exact .cons (writesPiece_code hopening) (writesPieces_fields h.stop_lt h.fields)
  unfold Template.compileFragments
  rw [Spelling.readAll_eq_ok_iff.2 hpieces, ← ofPieces_fields]
  rfl

variable {record : Record} {text : FramedField → String}

theorem write_field (f : FramedField) (moment : Time.Moment) (record : Record) (before : Bytes) :
    Fragment.write moment record before (.field f.key f.parsed) =
      (f.text record).map fun text => before ++ utf8 text := by
  unfold FramedField.text FramedField.render
  cases f.parsed <;> rfl

theorem refuses_field_iff (f : FramedField) (record : Record) :
    Fragment.Refuses record (.field f.key f.parsed) ↔ f.text record = none := by
  unfold FramedField.text FramedField.render
  cases f.parsed with
  | none => simp [Fragment.Refuses]
  | some format => rfl

theorem writeAll_fields (clock : Nat → Time.Moment) {fs : List FramedField}
    (hascii : ∀ f ∈ fs, f.stop.toNat < 127) (htext : ∀ f ∈ fs, f.text record = some (text f))
    (position : Nat) (before : Bytes) :
    Fragment.writeAll clock record position before (fs.flatMap fieldFragments) =
      some (before ++ content text fs) := by
  induction fs generalizing position before with
  | nil => exact congrArg some (List.append_nil before).symm
  | cons f fs ih =>
      rw [List.forall_mem_cons] at hascii htext
      have hstop : utf8 (String.singleton f.stop) = [f.stop.toUInt8] :=
        Text.utf8_singleton_of_ascii (by omega)
      rw [List.flatMap_cons, fieldFragments, List.cons_append, List.cons_append, List.nil_append,
        Fragment.writeAll, write_field, htext.1, Option.map_some, Option.bind_some,
        Fragment.writeAll, Fragment.write, hstop, Option.bind_some, ih hascii.2 htext.2, content,
        content, List.flatMap_cons]
      simp only [List.append_assoc]

/-- Of what a frame is compiled to, only its fields can refuse a value. -/
theorem exists_refuses_iff (opening : String) (fs : List FramedField) (record : Record) :
    (∃ g ∈ .literal opening :: fs.flatMap fieldFragments, Fragment.Refuses record g) ↔
      ∃ f ∈ fs, f.text record = none := by
  constructor
  · rintro ⟨g, hmem, hrefuses⟩
    rcases List.mem_cons.1 hmem with rfl | hmem
    · exact hrefuses.elim
    · obtain ⟨f, hf, hg⟩ := List.mem_flatMap.1 hmem
      simp only [fieldFragments, List.mem_cons, List.not_mem_nil, or_false] at hg
      rcases hg with rfl | rfl
      · exact ⟨f, hf, (refuses_field_iff f record).1 hrefuses⟩
      · exact hrefuses.elim
  · rintro ⟨f, hf, hnone⟩
    exact ⟨_, List.mem_cons_of_mem _ (List.mem_flatMap.2 ⟨f, hf, List.mem_cons_self⟩),
      (refuses_field_iff f record).2 hnone⟩

/-- The template of a frame writes its message, if all fields have texts. -/
theorem exists_template (functions : Functions) (name : String) {frame : Frame}
    (h : frame.IsProper) :
    ∃ t, Template.compile functions name frame.source = .ok t ∧
      ∀ clock record,
        (t.format clock record = none ↔ ∃ f ∈ frame.fields, f.text record = none) ∧
        ∀ text : FramedField → String, (∀ f ∈ frame.fields, f.text record = some (text f)) →
          t.format clock record = some (frame.message text) := by
  refine ⟨_, by rw [Template.compile, compileFragments_source functions h]; rfl, ?_⟩
  intro clock record
  constructor
  · rw [Template.format_eq_none_iff (by simp [fieldFragments])]
    exact exists_refuses_iff _ frame.fields record
  · intro text htext
    have hlt : frame.opening.toNat < 127 := h.ascii _ List.mem_cons_self
    have hopening : utf8 (String.singleton frame.opening) = [frame.opening.toUInt8] :=
      Text.utf8_singleton_of_ascii (by omega)
    rw [Template.format, Fragment.writeAll, Fragment.write, hopening, Option.bind_some,
      writeAll_fields clock h.stop_lt htext]
    rfl

end Template

/-! ## The kind of messages of a frame -/

/-- A byte is found where it first stands. -/
theorem cutAt_of_notMem {b : UInt8} {before : Bytes} (h : b ∉ before) (after : Bytes) :
    Location.cutAt [b] (before ++ b :: after) = some (before, after) := by
  induction before with
  | nil => simp [Location.cutAt]
  | cons c before ih =>
      have hne : b ≠ c := fun heq => h (heq ▸ List.mem_cons_self)
      have hrest : b ∉ before := fun hmem => h (List.mem_cons_of_mem c hmem)
      have hprefix : ¬ [b].isPrefixOf (c :: (before ++ b :: after)) = true := by
        simpa using hne
      rw [List.cons_append, Location.cutAt, if_neg hprefix, ih hrest]
      rfl

/-- The first rule finds its field after any bytes without its delimiters. -/
theorem apply_rule {text : FramedField → String} {c : Char} {f : FramedField} {front : Bytes}
    (hopening : c.toUInt8 ∉ front) (hstop : f.stop.toNat < 127)
    (hfree : f.stop ∉ (text f).toList) (rest : Bytes) :
    (rule c f).apply (front ++ c.toUInt8 :: (utf8 (text f) ++ f.stop.toUInt8 :: rest)) =
      some (utf8 (text f)) := by
  have hnot : f.stop.toUInt8 ∉ utf8 (text f) :=
    fun hmem => hfree (Text.mem_toList_of_mem_utf8 (by omega) hmem)
  have hextract : (rule c f).location.extract
      (front ++ c.toUInt8 :: (utf8 (text f) ++ f.stop.toUInt8 :: rest)) =
        some (utf8 (text f)) := by
    simp only [rule, Location.extract, cutAt_of_notMem hopening, cutAt_of_notMem hnot,
      Option.bind_eq_bind, Option.bind_some]
  rw [Rule.apply, hextract]
  rfl

/-- A delimiter that is still to come is not among the bytes up to the end of a field. -/
theorem notMem_passed {text : FramedField → String} {c d : Char} {f : FramedField} {front : Bytes}
    (hc : c.toNat < 127) (hd : d.toNat < 127) (hne : d ≠ c) (hfront : d.toUInt8 ∉ front)
    (hfree : d ∉ (text f).toList) :
    d.toUInt8 ∉ front ++ c.toUInt8 :: utf8 (text f) := by
  intro hmem
  rcases List.mem_append.1 hmem with hmem | hmem
  · exact hfront hmem
  · rcases List.mem_cons.1 hmem with heq | hmem
    · exact hne (Text.eq_of_toUInt8_eq (by omega) (by omega) heq)
    · exact hfree (Text.mem_toList_of_mem_utf8 (by omega) hmem)

/-- The rules of the fields that are still to come find them after any bytes without the delimiters
that are still to come. -/
theorem extractFields_rules {text : FramedField → String} {c : Char} {fs : List FramedField}
    {front : Bytes} (hascii : ∀ d ∈ c :: fs.map (·.stop), d.toNat < 127)
    (hdistinct : (c :: fs.map (·.stop)).Nodup)
    (hfront : ∀ d ∈ c :: fs.map (·.stop), d.toUInt8 ∉ front)
    (hfree : ∀ f ∈ fs, ∀ d ∈ c :: fs.map (·.stop), d ∉ (text f).toList) :
    MessageKind.extractFields (front ++ c.toUInt8 :: content text fs)
        (List.zipWith rule (c :: fs.map (·.stop)) fs) =
      some (fs.map fun f => (f.key, utf8 (text f))) := by
  induction fs generalizing c front with
  | nil => rfl
  | cons f fs ih =>
      have hc : c ∈ c :: (f :: fs).map (·.stop) := List.mem_cons_self
      have hstop : f.stop ∈ c :: (f :: fs).map (·.stop) :=
        List.mem_cons_of_mem c List.mem_cons_self
      have hlater : ∀ d ∈ f.stop :: fs.map (·.stop), d ∈ c :: (f :: fs).map (·.stop) :=
        fun d hd => List.mem_cons_of_mem c hd
      obtain ⟨hnotMem, hdistinct'⟩ := List.nodup_cons.1 hdistinct
      have hmessage : front ++ c.toUInt8 :: content text (f :: fs) =
          front ++ c.toUInt8 :: (utf8 (text f) ++ f.stop.toUInt8 :: content text fs) := by
        simp [content]
      have hvalue := apply_rule (hfront c hc) (hascii f.stop hstop)
        (hfree f List.mem_cons_self f.stop hstop) (content text fs)
      -- for the other rules the field that was just found is one more part of the front
      have hpassed : ∀ d ∈ f.stop :: fs.map (·.stop),
          d.toUInt8 ∉ front ++ c.toUInt8 :: utf8 (text f) := by
        intro d hd
        have hne : d ≠ c := fun heq => hnotMem (heq ▸ hd)
        exact notMem_passed (hascii c hc) (hascii d (hlater d hd)) hne (hfront d (hlater d hd))
          (hfree f List.mem_cons_self d (hlater d hd))
      have hothers := ih (fun d hd => hascii d (hlater d hd)) hdistinct' hpassed
        (fun g hg d hd => hfree g (List.mem_cons_of_mem f hg) d (hlater d hd))
      rw [hmessage, List.map_cons, List.zipWith_cons_cons, MessageKind.extractFields, hvalue,
        ← List.cons_append, ← List.append_assoc, hothers]
      rfl

/-- The rules of a frame have the names of its fields. -/
theorem map_name_rules (c : Char) (fs : List FramedField) :
    (List.zipWith rule (c :: fs.map (·.stop)) fs).map (·.name) = fs.map (·.key) := by
  induction fs generalizing c with
  | nil => rfl
  | cons f fs ih => rw [List.map_cons, List.zipWith_cons_cons, List.map_cons, ih, rule]; rfl

theorem make_rules (name : String) {frame : Frame} (h : frame.IsProper) :
    MessageKind.make name frame.rules = .ok ⟨name, frame.rules⟩ := by
  have hnone : firstRepeated? [] (frame.rules.map (·.name)) = none := by
    rw [firstRepeated?_eq_none_iff, rules, delimiters, map_name_rules]
    exact ⟨h.distinctKeys, fun name _ => List.not_mem_nil⟩
  rw [MessageKind.make, hnone]

/-! ## There and back -/

/-- The template of a frame compiles, the kind of a frame is made, and the template writes a message
for a record unless a field of the record has no text. If no delimiter occurs in the texts, the
message is of the kind with the texts as its fields. A field without a value in the record comes
back as what it renders for the empty text. -/
theorem scanned_back (functions : Functions) (templateName kindName : String)
    (clock : Nat → Time.Moment) (frame : Frame) (record : Record) (hframe : frame.IsProper) :
    ∃ t kind, Template.compile functions templateName frame.source = .ok t ∧
      MessageKind.make kindName frame.rules = .ok kind ∧
      (t.format clock record = none ↔ ∃ f ∈ frame.fields, f.text record = none) ∧
      ∀ text : FramedField → String, (∀ f ∈ frame.fields, f.text record = some (text f)) →
        (∀ f ∈ frame.fields, ∀ d ∈ frame.delimiters, d ∉ (text f).toList) →
        ∃ message, t.format clock record = some message ∧
          kind.match? message = some ⟨kindName, frame.values text⟩ ∧
          ∀ f ∈ frame.fields, record.get? f.key = none →
            ∃ blank, f.render "" = some blank ∧ (f.key, utf8 blank) ∈ frame.values text := by
  obtain ⟨t, ht, hformat⟩ := exists_template functions templateName hframe
  obtain ⟨hnone, hsome⟩ := hformat clock record
  refine ⟨t, ⟨kindName, frame.rules⟩, ht, make_rules kindName hframe, hnone, ?_⟩
  intro text htext hfree
  refine ⟨frame.message text, hsome text htext, ?_, ?_⟩
  · have hfront : ∀ d ∈ frame.delimiters, d.toUInt8 ∉ ([] : Bytes) := fun d _ => List.not_mem_nil
    have hfields := extractFields_rules hframe.ascii hframe.distinct hfront hfree
    have hmatch : MessageKind.extractFields (frame.message text) frame.rules =
        some (frame.values text) := hfields
    rw [MessageKind.match?, hmatch]
    rfl
  · intro f hf habsent
    have hblank : f.text record = f.render "" := by
      rw [FramedField.text, Record.lookup, habsent]
      rfl
    exact ⟨text f, by rw [← hblank, htext f hf], List.mem_map.2 ⟨f, hf, rfl⟩⟩

/-- A number, a text and a remark, between a backslash, a semicolon, a number sign and a zero. -/
def reply : Frame :=
  ⟨'\\', [⟨"code", some "%03d", ';'⟩, ⟨"text", none, '#'⟩, ⟨"remark", some "<%s>", '\x00'⟩]⟩

/-- Values for a reply without a remark. -/
def readyRecord : Record := (Record.new "ready").insertAll [("code", "7"), ("text", "grün")]

theorem isProper_reply : reply.IsProper where
  ascii := by simp [reply, delimiters]
  distinct := by decide
  fields := by
    have hnumber : ∃ format, FieldFormat.parse "%03d" = .ok format := ⟨_, rfl⟩
    have hremark : ∃ format, FieldFormat.parse "<%s>" = .ok format := ⟨_, rfl⟩
    simp only [reply, List.forall_mem_cons]
    exact ⟨⟨by simp [Spelling.IsKey], by simp [hnumber]⟩, ⟨by simp [Spelling.IsKey], by simp⟩,
      ⟨by simp [Spelling.IsKey], by simp [hremark]⟩, by simp⟩
  distinctKeys := by decide

/-- The reply is scanned back with the number filled up, the text as it is, and the remark as the
format of an empty one. -/
theorem scanned_back_reply :
    reply.source = "#92;$(code:%03d)#59;$(text)#35;$(remark:<%s>)#0;" ∧
    ∃ t kind message, Template.compile Table.empty "reply" reply.source = .ok t ∧
      MessageKind.make "reply" reply.rules = .ok kind ∧
      t.format (fun _ => Time.Moment.epoch) readyRecord = some message ∧
      kind.match? message =
        some ⟨"reply", [("code", utf8 "007"), ("text", utf8 "grün"), ("remark", utf8 "<>")]⟩ := by
  have hcode : FramedField.text ⟨"code", some "%03d", ';'⟩ readyRecord = some "007" := by
    decide +kernel
  have htext : FramedField.text ⟨"text", none, '#'⟩ readyRecord = some "grün" := by
    decide +kernel
  have hremark : FramedField.text ⟨"remark", some "<%s>", '\x00'⟩ readyRecord = some "<>" := by
    decide +kernel
  have hvalues : reply.values (fun f => (f.text readyRecord).getD "") =
      [("code", utf8 "007"), ("text", utf8 "grün"), ("remark", utf8 "<>")] := by
    simp [reply, values, hcode, htext, hremark]
  obtain ⟨t, kind, ht, hkind, -, hback⟩ := scanned_back Table.empty "reply" "reply"
    (fun _ => Time.Moment.epoch) reply readyRecord isProper_reply
  obtain ⟨message, hmessage, hmatch, -⟩ := hback (fun f => (f.text readyRecord).getD "")
    (by simp [reply, hcode, htext, hremark])
    (by simp [reply, delimiters, hcode, htext, hremark])
  exact ⟨by decide, t, kind, message, ht, hkind, hmessage, by rw [hmatch, hvalues]⟩

end Frame

end DeviceMessages

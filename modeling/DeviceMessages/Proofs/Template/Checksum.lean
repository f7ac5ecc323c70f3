import DeviceMessages.Proofs.Failure
import DeviceMessages.Proofs.Format.Measured
import DeviceMessages.Proofs.Format.Reading
import DeviceMessages.Proofs.Template.Compilation
import DeviceMessages.Proofs.Template.Writing
import Mathlib.Data.List.Fold

/-!
# What a checksum covers

A checksum is taken of what the buffer holds when its fragment is reached. All functions that are
there from the start only add to the buffer (`appends_of_call_builtin`), so this is what the
fragments before the checksum write on their own, and it stays at the front of the message whatever
comes after. Several checksums in one template need no other argument: a later one covers the
earlier ones like any other bytes.

None of these functions fails, because the sum is a natural number and no format is too fine for one
(`answers_of_call_builtin`). So there is a message unless the format of a field refuses its value.

The sum is the exclusive or of the bytes without a leading STX. Written behind them without a
number it cancels them (`checksum_append_checksum`). This holds for an empty message as well, where
the sum itself comes first: it is zero then, and no STX that would be left out.
-/

namespace DeviceMessages

open Spelling (Writes WritesFragment)
open Text (joinWith utf8)

/-! ## Exclusive or -/

namespace Generator

def exclusiveOr (bytes : Bytes) : UInt8 := bytes.foldr (· ^^^ ·) 0

/-- The bytes of a message that its checksum covers: all but an STX at the beginning. -/
def covered (message : Bytes) : Bytes :=
  if message.head? = some 0x02 then message.tail else message

/-- What a checksum writes of its sum as a number, if it can be written. -/
def sumText (format : FieldFormat) (flag : Option String) (sum : UInt8) : Option Bytes :=
  if flag = some "false" then some [] else (format.render (toString sum.toNat)).map utf8

theorem xorSum_eq_exclusiveOr (bytes : Bytes) : xorSum bytes = exclusiveOr bytes :=
  List.foldl_eq_foldr

theorem exclusiveOr_append_singleton (bytes : Bytes) (b : UInt8) :
    exclusiveOr (bytes ++ [b]) = exclusiveOr bytes ^^^ b := by
  rw [← xorSum_eq_exclusiveOr, ← xorSum_eq_exclusiveOr, xorSum, List.foldl_append]
  rfl

theorem checksum_eq_exclusiveOr (message : Bytes) :
    checksum message = exclusiveOr (covered message) := by
  cases message with
  | nil => rfl
  | cons b bytes =>
      show (if b = 0x02 then xorSum bytes else xorSum (b :: bytes)) = _
      by_cases hb : b = 0x02
      · simp [covered, hb, xorSum_eq_exclusiveOr]
      · simp [covered, hb, xorSum_eq_exclusiveOr]

theorem covered_append {message : Bytes} (h : message ≠ []) (more : Bytes) :
    covered (message ++ more) = covered message ++ more := by
  cases message with
  | nil => exact absurd rfl h
  | cons b bytes =>
      by_cases hb : b = 0x02
      · simp [covered, hb]
      · simp [covered, hb]

/-- A message with its checksum behind it has the checksum zero. -/
theorem checksum_append_checksum (message : Bytes) :
    checksum (message ++ [checksum message]) = 0 := by
  by_cases h : message = []
  · subst h
    decide
  · rw [checksum_eq_exclusiveOr, covered_append h, exclusiveOr_append_singleton,
      checksum_eq_exclusiveOr, UInt8.xor_self]

/-! ## The functions that are there from the start -/

/-- The number of a sum can always be written. -/
theorem exists_sumText {source : String} {format : FieldFormat}
    (h : FieldFormat.parse source = .ok format) (flag : Option String) (sum : UInt8) :
    ∃ number, sumText format flag sum = some number := by
  have hprecision := (FieldFormat.writesFormat_of_parse h).precision_le
  obtain ⟨text, htext⟩ := format.directive.exists_render_digits
    (hprecision.trans (Nat.le_succ _)) sum.toNat
  have hvalue : (toString sum.toNat).toList = Decimal.digits sum.toNat := String.toList_ofList
  rw [sumText]
  split
  · exact ⟨[], rfl⟩
  · exact ⟨_, by rw [FieldFormat.render, hvalue, htext]; rfl⟩

/-- A checksum has a format, and adds the number and the sum. -/
theorem apply_of_makeChecksum {arguments : List String} {g : Generator}
    (h : makeChecksum arguments = .ok g) :
    ∃ argument flags format, arguments = argument :: flags ∧
      FieldFormat.parse argument = .ok format ∧
      ∀ moment before, g.apply moment before =
        (sumText format flags.head? (checksum before)).map fun number =>
          before ++ number ++ [checksum before] := by
  unfold makeChecksum at h
  split at h
  · next argument flags =>
      split at h
      · next format hformat =>
          cases h
          refine ⟨argument, flags, format, rfl, hformat, ?_⟩
          intro moment before
          by_cases hflag : flags.head? = some "false"
          · simp [adding, checksumOutput, sumText, hflag]
          · simp only [adding, checksumOutput, sumText, if_neg hflag, Option.map_map]
            congr 1
            funext text
            exact (List.append_assoc before _ _).symm
      · cases h
  · cases h

theorem adding_of_makeNow {arguments : List String} {g : Generator}
    (h : makeNow arguments = .ok g) :
    ∃ output : Time.Moment → Bytes, g = adding fun moment _ => some (output moment) := by
  unfold makeNow at h
  split at h
  · split at h
    · cases h
      exact ⟨_, rfl⟩
    · cases h
  · cases h

theorem adding_of_makeRepeat {arguments : List String} {g : Generator}
    (h : makeRepeat arguments = .ok g) :
    ∃ output : Time.Moment → Bytes, g = adding fun moment _ => some (output moment) := by
  unfold makeRepeat at h
  split at h
  · split at h
    · cases h
      exact ⟨_, rfl⟩
    · cases h
    · cases h
  · cases h

end Generator

namespace Functions

theorem call_builtin (name : String) (arguments : List String) :
    builtin.call name arguments =
      if name = "checksum" then Generator.makeChecksum arguments
      else if name = "now" then Generator.makeNow arguments
      else if name = "repeat" then Generator.makeRepeat arguments
      else .error (.unknownFunction name) := by
  simp only [call, builtin, Table.insertAll, List.foldl_cons, List.foldl_nil, Table.find?_insert,
    Table.find?_empty]
  split_ifs <;> rfl

/-- The functions that are there from the start add bytes to what is there, whatever it is. -/
theorem exists_apply_of_call_builtin {name : String} {arguments : List String} {g : Generator}
    (h : builtin.call name arguments = .ok g) (moment : Time.Moment) (before : Bytes) :
    ∃ more, g.apply moment before = some (before ++ more) := by
  rw [call_builtin] at h
  split_ifs at h
  · obtain ⟨argument, flags, format, -, hformat, happly⟩ := Generator.apply_of_makeChecksum h
    obtain ⟨number, hnumber⟩ :=
      Generator.exists_sumText hformat flags.head? (Generator.checksum before)
    refine ⟨number ++ [Generator.checksum before], ?_⟩
    rw [happly, hnumber, Option.map_some, List.append_assoc]
  · obtain ⟨output, rfl⟩ := Generator.adding_of_makeNow h
    exact ⟨output moment, rfl⟩
  · obtain ⟨output, rfl⟩ := Generator.adding_of_makeRepeat h
    exact ⟨output moment, rfl⟩

theorem appends_of_call_builtin {name : String} {arguments : List String} {g : Generator}
    (h : builtin.call name arguments = .ok g) : g.Appends := by
  intro moment before after hafter
  obtain ⟨more, hmore⟩ := exists_apply_of_call_builtin h moment before
  rw [hmore] at hafter
  cases hafter
  exact List.prefix_append before more

theorem answers_of_call_builtin {name : String} {arguments : List String} {g : Generator}
    (h : builtin.call name arguments = .ok g) : g.Answers := by
  intro moment before
  obtain ⟨more, hmore⟩ := exists_apply_of_call_builtin h moment before
  rw [hmore]
  exact Option.some_ne_none _

end Functions

/-! ## The calls of a template -/

namespace Spelling

variable {functions : Functions}

/-- A template text spells fragments, then the call of a function, and then other fragments. -/
def SpellsCall (functions : Functions) (source : String) (before : List Fragment) (name : String)
    (arguments : List String) (after : List Fragment) : Prop :=
  ∃ front back, Writes functions before front ∧ Writes functions after back ∧
    source.toList = front ++
      ('$' :: name.toList ++ '(' :: joinWith ',' (arguments.map String.toList) ++ [')']) ++ back

/-- A text that spells fragments can be cut before and after each of them. Soft wraps in front of
the fragment go with the part before it. -/
theorem Writes.cut {before after : List Fragment} {f : Fragment} {cs : List Char}
    (h : Writes functions (before ++ f :: after) cs) :
    ∃ front middle back, Writes functions before front ∧ WritesFragment functions f middle ∧
      Writes functions after back ∧ cs = front ++ middle ++ back := by
  generalize hfs : before ++ f :: after = fs at h
  induction h generalizing before with
  | nil => simp at hfs
  | @wrap b fs cs hb _ ih =>
      obtain ⟨front, middle, back, hfront, hmiddle, hback, rfl⟩ := ih hfs
      exact ⟨'\\' :: b :: front, middle, back, .wrap hb hfront, hmiddle, hback, rfl⟩
  | @cons g fs cs rest hg hrest ih =>
      cases before with
      | nil =>
          cases hfs
          exact ⟨[], cs, rest, .nil, hg, hrest, rfl⟩
      | cons f' before =>
          cases hfs
          obtain ⟨front, middle, back, hfront, hmiddle, hback, rfl⟩ := ih rfl
          refine ⟨cs ++ front, middle, back, .cons hg hfront, hmiddle, hback, ?_⟩
          simp only [List.append_assoc]

/-- A call of a compiled template is spelled in its text, with the arguments that it is bound to. -/
theorem exists_call_of_compile {name source function : String} {t : Template}
    (h : Template.compile functions name source = .ok t) {before after : List Fragment}
    {g : Generator} (hsplit : t.fragments = before ++ .call function g :: after) :
    ∃ arguments, SpellsCall functions source before function arguments after ∧
      functions.call function arguments = .ok g := by
  obtain ⟨fs, hfs, rfl⟩ := exists_of_map_eq_ok h
  obtain ⟨ps, hps, rfl⟩ := exists_of_map_eq_ok hfs
  have hwrites : Writes functions (before ++ .call function g :: after) source.toList := by
    rw [← hsplit]
    exact writes_ofPieces (readAll_eq_ok_iff.1 hps)
  obtain ⟨front, middle, back, hfront, hmiddle, hback, hsource⟩ := hwrites.cut
  cases hmiddle with
  | @call _ arguments _ _ _ hcall =>
      exact ⟨arguments, ⟨front, back, hfront, hback, hsource⟩, hcall⟩

end Spelling

namespace Template

/-- Each call of a compiled template is bound to arguments. -/
theorem exists_call_of_mem {functions : Functions} {name source function : String} {t : Template}
    {g : Generator} (h : compile functions name source = .ok t)
    (hmem : .call function g ∈ t.fragments) :
    ∃ arguments, functions.call function arguments = .ok g := by
  obtain ⟨before, after, hsplit⟩ := List.append_of_mem hmem
  obtain ⟨arguments, -, hcall⟩ := Spelling.exists_call_of_compile h hsplit
  exact ⟨arguments, hcall⟩

theorem appends_of_compile {name source : String} {t : Template}
    (h : compile Functions.builtin name source = .ok t) : ∀ f ∈ t.fragments, f.Appends := by
  intro f hf
  cases f with
  | literal text => trivial
  | field key format => trivial
  | call function g =>
      obtain ⟨arguments, hcall⟩ := exists_call_of_mem h hf
      exact Functions.appends_of_call_builtin hcall

theorem answers_of_compile {name source : String} {t : Template}
    (h : compile Functions.builtin name source = .ok t) :
    ∀ function g, .call function g ∈ t.fragments → g.Answers := by
  intro function g hmem
  obtain ⟨arguments, hcall⟩ := exists_call_of_mem h hmem
  exact Functions.answers_of_call_builtin hcall

theorem format_only_append_singleton {R : Type} [RecordLike R] (t : Template)
    (clock : Nat → Time.Moment) (record : R) (before : List Fragment) (f : Fragment) :
    (t.only (before ++ [f])).format clock record =
      ((t.only before).format clock record).bind fun part =>
        f.write (clock before.length) record part := by
  show Fragment.writeAll clock record 0 [] (before ++ [f]) = _
  rw [Fragment.writeAll_append, Nat.zero_add]
  refine Option.bind_congr fun part _ => ?_
  rw [Fragment.writeAll]
  exact Option.bind_fun_some _

/-- A checksum covers what comes before it. With the functions that are there from the start, there
is a message unless the format of a field refuses its value, and each first part of the fragments
writes a first part of the message. Each checksum is called in the text with a format and perhaps a
flag. To what the fragments before it write on their own it adds the exclusive or of that, an STX at
the beginning left out: as a number through the format, which can always be written, unless the flag
is `false`, and as a byte. The message begins with these bytes whatever comes after. Without the
number they have the checksum zero, and so has anything else that the checksum is added to. -/
theorem checksums_cover_what_precedes {R : Type} [RecordLike R] {name source : String}
    {t : Template} (h : compile Functions.builtin name source = .ok t)
    (clock : Nat → Time.Moment) (record : R) :
    (t.format clock record = none ↔ ∃ f ∈ t.fragments, f.Refuses record) ∧
    (∀ message, t.format clock record = some message → ∀ front, front <+: t.fragments →
      ∃ part, (t.only front).format clock record = some part ∧ part <+: message) ∧
    ∀ before g after, t.fragments = before ++ .call "checksum" g :: after →
      (∃ arguments,
        Spelling.SpellsCall Functions.builtin source before "checksum" arguments after ∧
        Functions.builtin.call "checksum" arguments = .ok g) ∧
      ∀ arguments, Functions.builtin.call "checksum" arguments = .ok g →
        ∃ argument flags format, arguments = argument :: flags ∧
          FieldFormat.parse argument = .ok format ∧
          (∀ part, (t.only before).format clock record = some part →
            let sum := Generator.exclusiveOr (Generator.covered part)
            ∃ number, Generator.sumText format flags.head? sum = some number ∧
              let closed := part ++ number ++ [sum]
              (t.only (before ++ [.call "checksum" g])).format clock record = some closed ∧
              (∀ message, t.format clock record = some message → closed <+: message) ∧
              (flags.head? = some "false" → Generator.checksum closed = 0)) ∧
          (flags.head? = some "false" → ∀ moment part,
            ∃ closed, g.apply moment part = some closed ∧ Generator.checksum closed = 0) := by
  have hbegins : ∀ message, t.format clock record = some message →
      ∀ front, front <+: t.fragments →
        ∃ part, (t.only front).format clock record = some part ∧ part <+: message := by
    intro message hmessage front hfront
    exact exists_format_only_prefix (appends_of_compile h) hfront hmessage
  refine ⟨format_eq_none_iff (answers_of_compile h) clock record, hbegins, ?_⟩
  intro before g after hsplit
  refine ⟨Spelling.exists_call_of_compile h hsplit, ?_⟩
  intro arguments hcall
  rw [Functions.call_builtin, if_pos rfl] at hcall
  obtain ⟨argument, flags, format, harguments, hformat, happly⟩ :=
    Generator.apply_of_makeChecksum hcall
  have hzero : flags.head? = some "false" → ∀ moment part,
      ∃ closed, g.apply moment part = some closed ∧ Generator.checksum closed = 0 := by
    intro hflag moment part
    refine ⟨part ++ [Generator.checksum part], ?_, Generator.checksum_append_checksum part⟩
    rw [happly, Generator.sumText, if_pos hflag, Option.map_some, List.append_nil]
  refine ⟨argument, flags, format, harguments, hformat, ?_, hzero⟩
  intro part hpart sum
  obtain ⟨number, hnumber⟩ := Generator.exists_sumText hformat flags.head? sum
  have hsum : Generator.checksum part = sum := Generator.checksum_eq_exclusiveOr part
  have hwrite : ∀ moment, g.apply moment part = some (part ++ number ++ [sum]) := by
    intro moment
    rw [happly, hsum, hnumber, Option.map_some]
  have hclosed : (t.only (before ++ [.call "checksum" g])).format clock record =
      some (part ++ number ++ [sum]) := by
    rw [format_only_append_singleton, hpart, Option.bind_some, Fragment.write, hwrite]
  refine ⟨number, hnumber, hclosed, ?_, ?_⟩
  · intro message hmessage
    have hfront : before ++ [.call "checksum" g] <+: t.fragments :=
      ⟨after, by rw [hsplit, List.append_assoc]; rfl⟩
    obtain ⟨closed, hclosed', hprefix⟩ := hbegins message hmessage _ hfront
    rw [hclosed] at hclosed'
    cases hclosed'
    exact hprefix
  · intro hflag
    obtain ⟨closed, happlied, hchecksum⟩ := hzero hflag (clock before.length) part
    rw [hwrite] at happlied
    cases happlied
    exact hchecksum

/-- A framed number with two checksums. -/
def numberWithChecksums : Template where
  name := "number"
  source := "#2;$(n)$checksum(%2.2X)$checksum(%d,false)"
  fragments := [.literal "\x02", .field "n" none,
    .call "checksum" (.adding fun _ => Generator.checksumOutput
      (some ⟨"%2.2X", "", ⟨Flags.ofChars [], some 2, some 2, .hex .upper⟩, ""⟩)),
    .call "checksum" (.adding fun _ => Generator.checksumOutput none)]

/-- The first checksum writes its sum as a number and as a byte, and the second covers both. -/
theorem checksums_cover_what_precedes_number :
    compile Functions.builtin "number" "#2;$(n)$checksum(%2.2X)$checksum(%d,false)" =
        .ok numberWithChecksums ∧
      ∃ message, numberWithChecksums.format (fun _ => Time.Moment.epoch)
          ((Record.new "").insert "n" "103") = some message ∧
        [0x02, 0x31, 0x30, 0x33, 0x33, 0x32, 0x32] <+: message ∧
        Generator.checksum message = 0 := by
  have hcompile : compile Functions.builtin "number"
      "#2;$(n)$checksum(%2.2X)$checksum(%d,false)" = .ok numberWithChecksums := by
    with_unfolding_all rfl
  obtain ⟨-, -, hchecksums⟩ := checksums_cover_what_precedes hcompile
    (fun _ => Time.Moment.epoch) ((Record.new "").insert "n" "103")
  obtain ⟨-, hfirst⟩ := hchecksums [.literal "\x02", .field "n" none] _ [_] rfl
  obtain ⟨-, hsecond⟩ := hchecksums [.literal "\x02", .field "n" none, _] _ [] rfl
  obtain ⟨argument, flags, format, harguments, hformat, hnumber, -⟩ := hfirst ["%2.2X"] rfl
  cases harguments
  cases hformat
  obtain ⟨number, hsum, hpart, hbegins, -⟩ := hnumber [0x02, 0x31, 0x30, 0x33] rfl
  have hwritten : number = [0x33, 0x32] := by
    rw [← Option.some_inj, ← hsum]
    decide +kernel
  subst hwritten
  obtain ⟨argument', flags', format', harguments', -, hbyte, -⟩ := hsecond ["%d", "false"] rfl
  cases harguments'
  obtain ⟨rest, -, hmessage, -, hzero⟩ := hbyte _ hpart
  refine ⟨hcompile, _, hmessage, ?_, hzero rfl⟩
  exact hbegins _ hmessage

end Template

end DeviceMessages

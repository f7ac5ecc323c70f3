import DeviceMessages.Generator
import DeviceMessages.Template.Compilation

/-!
# Writing a message

All fragments of a message are written into one buffer. Each is handed the whole of it, and a
function can read back what the fragments before it have written. Three facts about one fragment
carry over to a row of them:

* A fragment that only adds leaves what is there in front (`prefix_write`), so a message begins with
  what any first part of its template writes (`exists_format_only_prefix`).
* A value is refused by its format whatever is there already. So if no function fails, a message
  lacks exactly if the format of a field refuses the value of the field (`format_eq_none_iff`).
* A fragment makes the same of the same buffer if the record has the same text for the key that it
  names (`write_congr`). The functions are not asked to add only: two runs agree on the whole
  buffer before each call, whatever the function then makes of it (`writeAll_congr`).

A buffer that is used again is emptied first. So what it held reaches no function, and writing into
it depends on nothing but the texts of the keys (`formatInto_eq_of_lookup_eq`).
-/

namespace DeviceMessages

variable {R R' : Type} [RecordLike R] [RecordLike R']

/-! ## What is there stays in front -/

/-- A generator only adds to what has been written before it. -/
def Generator.Appends (g : Generator) : Prop :=
  ∀ moment before after, g.apply moment before = some after → before <+: after

namespace Fragment

/-- A fragment only adds to what has been written before it. Texts and values always do. -/
def Appends : Fragment → Prop
  | .call _ generator => generator.Appends
  | _ => True

theorem prefix_write {f : Fragment} (h : f.Appends) {moment : Time.Moment} {record : R}
    {before after : Bytes} (hwrite : f.write moment record before = some after) :
    before <+: after := by
  cases f with
  | literal text =>
      cases hwrite
      exact List.prefix_append before _
  | field key format =>
      cases format with
      | none =>
          cases hwrite
          exact List.prefix_append before _
      | some format =>
          obtain ⟨text, -, rfl⟩ := Option.map_eq_some_iff.1 hwrite
          exact List.prefix_append before _
  | call function generator => exact h moment before after hwrite

theorem prefix_writeAll {fs : List Fragment} (h : ∀ f ∈ fs, f.Appends)
    {clock : Nat → Time.Moment} {record : R} {position : Nat} {before after : Bytes}
    (hwrite : writeAll clock record position before fs = some after) : before <+: after := by
  induction fs generalizing position before with
  | nil =>
      cases hwrite
      exact List.prefix_rfl
  | cons f fs ih =>
      rw [List.forall_mem_cons] at h
      obtain ⟨between, hfirst, hothers⟩ := Option.bind_eq_some_iff.1 hwrite
      exact (prefix_write h.1 hfirst).trans (ih h.2 hothers)

end Fragment

namespace Template

/-- The template with other fragments. -/
def only (t : Template) (fragments : List Fragment) : Template :=
  { t with fragments := fragments }

/-- A message begins with what a first part of its template writes. -/
theorem exists_format_only_prefix {t : Template} (h : ∀ f ∈ t.fragments, f.Appends)
    {clock : Nat → Time.Moment} {record : R} {front : List Fragment} {message : Bytes}
    (hfront : front <+: t.fragments) (hmessage : t.format clock record = some message) :
    ∃ part, (t.only front).format clock record = some part ∧ part <+: message := by
  obtain ⟨back, hback⟩ := hfront
  rw [← hback, List.forall_mem_append] at h
  rw [format, ← hback, Fragment.writeAll_append] at hmessage
  obtain ⟨part, hpart, hothers⟩ := Option.bind_eq_some_iff.1 hmessage
  exact ⟨part, hpart, Fragment.prefix_writeAll h.2 hothers⟩

end Template

/-! ## Which messages cannot be written -/

/-- A generator answers whatever has been written before it. -/
def Generator.Answers (g : Generator) : Prop :=
  ∀ moment before, g.apply moment before ≠ none

/-- A fragment has a format, which refuses the value that the record has for its key. -/
def Fragment.Refuses (record : R) : Fragment → Prop
  | .field key (some format) => format.render (RecordLike.lookup record key) = none
  | _ => False

/-- A fragment cannot be written exactly if its format refuses the value, unless it is a call. -/
theorem Fragment.write_eq_none_iff {f : Fragment}
    (hcall : ∀ function g, f = .call function g → g.Answers) (moment : Time.Moment) (record : R)
    (before : Bytes) : f.write moment record before = none ↔ f.Refuses record := by
  cases f with
  | literal text => simp [write, Refuses]
  | field key format => cases format <;> simp [write, Refuses]
  | call function g => simp [write, Refuses, hcall function g rfl moment before]

theorem Fragment.writeAll_eq_none_iff {fs : List Fragment}
    (hcalls : ∀ function g, .call function g ∈ fs → g.Answers) (clock : Nat → Time.Moment)
    (record : R) (position : Nat) (before : Bytes) :
    writeAll clock record position before fs = none ↔ ∃ f ∈ fs, f.Refuses record := by
  induction fs generalizing position before with
  | nil => simp [writeAll]
  | cons f fs ih =>
      have hfirst := write_eq_none_iff (f := f)
        (fun function g hf => hcalls function g (hf ▸ List.mem_cons_self)) (clock position) record
        before
      have hothers := ih (fun function g hmem => hcalls function g (List.mem_cons_of_mem f hmem))
        (position + 1)
      rw [writeAll]
      simp only [List.mem_cons, exists_eq_or_imp, ← hfirst]
      cases f.write (clock position) record before with
      | none => simp
      | some after => simpa using hothers after

/-- If the functions that a template calls answer, it gives no message exactly if a format refuses
the value that the record has for its field. -/
theorem Template.format_eq_none_iff {t : Template}
    (hcalls : ∀ function g, .call function g ∈ t.fragments → g.Answers)
    (clock : Nat → Time.Moment) (record : R) :
    t.format clock record = none ↔ ∃ f ∈ t.fragments, f.Refuses record :=
  Fragment.writeAll_eq_none_iff hcalls clock record 0 []

/-! ## What a message depends on -/

namespace Fragment

/-- The records have the same text for each key that the fragments name. -/
def SameLookups (record : R) (record' : R') (fs : List Fragment) : Prop :=
  ∀ key format, .field key format ∈ fs →
    RecordLike.lookup record key = RecordLike.lookup record' key

theorem SameLookups.tail {record : R} {record' : R'} {f : Fragment} {fs : List Fragment}
    (h : SameLookups record record' (f :: fs)) : SameLookups record record' fs := by
  intro key format hmem
  exact h key format (List.mem_cons_of_mem f hmem)

theorem write_congr {record : R} {record' : R'} {f : Fragment} {fs : List Fragment}
    (h : SameLookups record record' (f :: fs)) (moment : Time.Moment) (before : Bytes) :
    f.write moment record before = f.write moment record' before := by
  cases f with
  | literal text => rfl
  | field key format =>
      have hkey : RecordLike.lookup record key = RecordLike.lookup record' key :=
        h key format List.mem_cons_self
      cases format <;> simp only [write, hkey]
  | call function generator => rfl

/-- Two runs from the same buffer stay the same. -/
theorem writeAll_congr {record : R} {record' : R'} {fs : List Fragment}
    (h : SameLookups record record' fs) (clock : Nat → Time.Moment) (position : Nat)
    (before : Bytes) :
    writeAll clock record position before fs = writeAll clock record' position before fs := by
  induction fs generalizing position before with
  | nil => rfl
  | cons f fs ih =>
      rw [writeAll, writeAll, write_congr h]
      exact Option.bind_congr fun after _ => ih h.tail (position + 1) after

end Fragment

namespace Template

/-- Nothing that a buffer held is left in it. -/
theorem formatInto_eq_format (t : Template) (clock : Nat → Time.Moment) (record : R)
    (buffer : Bytes) : t.formatInto clock record buffer = t.format clock record := by
  rw [formatInto, List.take_zero]
  rfl

/-- Records that have the same text for each key that a template names give the same message, or
both none, whichever buffers it is written into. Nothing else that the records or the buffers hold
shows in it, and a key without a value counts as one with the empty text. -/
theorem formatInto_eq_of_lookup_eq (t : Template) (clock : Nat → Time.Moment) (record : R)
    (record' : R')
    (h : ∀ key format, .field key format ∈ t.fragments →
      RecordLike.lookup record key = RecordLike.lookup record' key) (buffer buffer' : Bytes) :
    t.formatInto clock record buffer = t.formatInto clock record' buffer' ∧
      t.formatInto clock record buffer = t.format clock record ∧
      t.formatInto clock record buffer = t.format clock record' := by
  have hsame : t.format clock record = t.format clock record' :=
    Fragment.writeAll_congr h clock 0 []
  rw [formatInto_eq_format, formatInto_eq_format]
  exact ⟨hsame, rfl, hsame⟩

/-- One record has the empty text for a key, the other has none and differs in a key that the
template does not name, and one buffer holds a byte that would change the checksum. -/
theorem formatInto_eq_of_lookup_eq_sealed :
    ∃ t, compile Functions.builtin "sealed" "$(a)$(b)$checksum(%d,false)" = .ok t ∧
      t.formatInto (fun _ => Time.Moment.epoch)
          ((Record.new "full").insertAll [("b", ""), ("a", "7"), ("c", "1")]) [0xFF] =
        t.formatInto (fun _ => Time.Moment.epoch) ((Record.new "sparse").insert "a" "7") [] ∧
      t.formatInto (fun _ => Time.Moment.epoch)
          ((Record.new "full").insertAll [("b", ""), ("a", "7"), ("c", "1")]) [0xFF] =
        some [0x37, 0x37] := by
  have hcompile : compile Functions.builtin "sealed" "$(a)$(b)$checksum(%d,false)" =
      .ok ⟨"sealed", "$(a)$(b)$checksum(%d,false)", [.field "a" none, .field "b" none,
        .call "checksum" (.adding fun _ => Generator.checksumOutput none)]⟩ := by
    with_unfolding_all rfl
  refine ⟨_, hcompile, (formatInto_eq_of_lookup_eq _ _ _ _ ?_ _ _).1, by decide +kernel⟩
  intro key format hmem
  have hfield : (key = "a" ∧ format = none) ∨ (key = "b" ∧ format = none) := by
    simpa using hmem
  rcases hfield with ⟨rfl, -⟩ | ⟨rfl, -⟩ <;> decide

end Template

end DeviceMessages

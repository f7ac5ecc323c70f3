import DeviceMessages.Message.Delivery

/-!
# The calls that a sink receives

A sink is any state with three functions, so what a delivery does to it is a question about the
calls it makes. `Sink.perform` is the state that a list of calls leads to, and `Sink.answer` what a
sink says to a field after calls, which may depend on all of them.

`Sink.Delivers` states how a message is delivered, call by call: its name, then its fields up to
and including the first that is refused, then one closing call that says whether none was.
`exists_delivers` shows that every sink has such a list of calls, and `deliver_of_delivers` that
`Sink.deliver` makes exactly these calls. A log of all calls is a sink itself, so the same two
facts say what the log of a delivery is.
-/

namespace DeviceMessages.Sink

variable {σ : Type}

/-- The state that calls lead to. -/
def perform (sink : Sink σ) : List Call → σ → σ
  | [], s => s
  | .start name :: calls, s => sink.perform calls (sink.start name s)
  | .field f :: calls, s => sink.perform calls (sink.field f s).1
  | .finish success :: calls, s => sink.perform calls (sink.finish success s)

/-- What the sink says to a field that comes after calls. -/
def answer (sink : Sink σ) (s : σ) (calls : List Call) (f : FieldValue) : Bool :=
  (sink.field f (sink.perform calls s)).2

@[simp] theorem perform_append (sink : Sink σ) (calls others : List Call) (s : σ) :
    sink.perform (calls ++ others) s = sink.perform others (sink.perform calls s) := by
  induction calls generalizing s with
  | nil => rfl
  | cons call calls ih => cases call <;> exact ih _

/-- Fields that come one after the other after calls are all taken. -/
inductive Takes (sink : Sink σ) (s : σ) : List Call → List FieldValue → Prop
  | nil {calls : List Call} : Takes sink s calls []
  | cons {calls : List Call} {f : FieldValue} {fs : List FieldValue}
      (hf : sink.answer s calls f = true) (hfs : Takes sink s (calls ++ [.field f]) fs) :
      Takes sink s calls (f :: fs)

/-- The calls by which a message is delivered, and whether all of its fields are taken. -/
inductive Delivers (sink : Sink σ) (s : σ) (name : String) (fields : List FieldValue) :
    List Call → Bool → Prop
  | taken (hall : sink.Takes s [.start name] fields) :
      Delivers sink s name fields (.start name :: fields.map .field ++ [.finish true]) true
  | refused {before after : List FieldValue} {f : FieldValue}
      (hfields : fields = before ++ f :: after) (hbefore : sink.Takes s [.start name] before)
      (hf : sink.answer s (.start name :: before.map .field) f = false) :
      Delivers sink s name fields (.start name :: before.map .field ++ [.field f, .finish false])
        false

/-! ## Delivering makes these calls -/

private theorem deliverFields_cons_taken {sink : Sink σ} {s : σ} {calls : List Call}
    {f : FieldValue} (h : sink.answer s calls f = true) (fs : List FieldValue) :
    sink.deliverFields (f :: fs) (sink.perform calls s) =
      sink.deliverFields fs (sink.perform (calls ++ [.field f]) s) := by
  rw [perform_append, deliverFields]
  split
  · next t hfield =>
      show _ = sink.deliverFields fs (sink.field f (sink.perform calls s)).1
      rw [hfield]
  · next t hfield =>
      rw [answer, hfield] at h
      cases h

private theorem deliverFields_cons_refused {sink : Sink σ} {s : σ} {calls : List Call}
    {f : FieldValue} (h : sink.answer s calls f = false) (fs : List FieldValue) :
    sink.deliverFields (f :: fs) (sink.perform calls s) =
      (sink.perform (calls ++ [.field f]) s, false) := by
  rw [perform_append, deliverFields]
  split
  · next t hfield =>
      rw [answer, hfield] at h
      cases h
  · next t hfield =>
      show _ = ((sink.field f (sink.perform calls s)).1, false)
      rw [hfield]

private theorem deliverFields_of_takes {sink : Sink σ} {s : σ} {calls : List Call}
    {before : List FieldValue} (h : sink.Takes s calls before) (after : List FieldValue) :
    sink.deliverFields (before ++ after) (sink.perform calls s) =
      sink.deliverFields after (sink.perform (calls ++ before.map .field) s) := by
  induction h with
  | nil => simp
  | @cons calls f fs hf _ ih =>
      rw [List.cons_append, deliverFields_cons_taken hf, ih, List.map_cons, List.append_assoc,
        List.singleton_append]

/-- Delivering a message makes the calls by which it is delivered. -/
theorem deliver_of_delivers {sink : Sink σ} {s : σ} {name : String} {fields : List FieldValue}
    {calls : List Call} {success : Bool} (h : sink.Delivers s name fields calls success) :
    sink.deliver name fields s = (sink.perform calls s, success) := by
  cases h with
  | taken hall =>
      have hfields : sink.deliverFields fields (sink.start name s) =
          (sink.perform (.start name :: fields.map .field) s, true) := by
        have hrun := deliverFields_of_takes hall []
        rwa [List.append_nil] at hrun
      simp only [deliver, hfields, perform_append]
      rfl
  | @refused before after f hsplit hbefore hf =>
      have hfields : sink.deliverFields fields (sink.start name s) =
          (sink.perform (.start name :: before.map .field ++ [.field f]) s, false) := by
        have hrun := deliverFields_of_takes hbefore (f :: after)
        rw [← hsplit] at hrun
        exact hrun.trans (deliverFields_cons_refused hf after)
      simp only [deliver, hfields, perform_append]
      rfl

private theorem takes_or_refused (sink : Sink σ) (s : σ) (calls : List Call)
    (fields : List FieldValue) :
    sink.Takes s calls fields ∨ ∃ before f after, fields = before ++ f :: after ∧
      sink.Takes s calls before ∧ sink.answer s (calls ++ before.map .field) f = false := by
  induction fields generalizing calls with
  | nil => exact .inl .nil
  | cons f fields ih =>
      cases hf : sink.answer s calls f with
      | false => exact .inr ⟨[], f, fields, rfl, .nil, by simpa using hf⟩
      | true =>
          rcases ih (calls ++ [.field f]) with hall | ⟨before, g, after, hsplit, hbefore, hg⟩
          · exact .inl (.cons hf hall)
          · refine .inr ⟨f :: before, g, after, by rw [hsplit]; rfl, .cons hf hbefore, ?_⟩
            simpa using hg

/-- Every message is delivered to every sink by some calls. -/
theorem exists_delivers (sink : Sink σ) (s : σ) (name : String) (fields : List FieldValue) :
    ∃ calls success, sink.Delivers s name fields calls success := by
  rcases takes_or_refused sink s [.start name] fields with hall |
    ⟨before, f, after, hsplit, hbefore, hf⟩
  · exact ⟨_, true, .taken hall⟩
  · exact ⟨_, false, .refused hsplit hbefore hf⟩

/-! ## Logs -/

theorem perform_logged (sink : Sink σ) (log calls : List Call) (s : σ) :
    sink.logged.perform calls (log, s) = (log ++ calls, sink.perform calls s) := by
  induction calls generalizing log s with
  | nil => simp [perform]
  | cons call calls ih =>
      have happend : log ++ call :: calls = (log ++ [call]) ++ calls := by simp
      rw [happend]
      cases call <;> exact ih _ _

theorem answer_logged (sink : Sink σ) (log calls : List Call) (s : σ) (f : FieldValue) :
    sink.logged.answer (log, s) calls f = sink.answer s calls f := by
  simp only [answer, perform_logged]
  rfl

private theorem takes_logged {sink : Sink σ} {s : σ} {calls : List Call}
    {fields : List FieldValue} (log : List Call) (h : sink.Takes s calls fields) :
    sink.logged.Takes (log, s) calls fields := by
  induction h with
  | nil => exact .nil
  | cons hf _ ih => exact .cons (by rw [answer_logged]; exact hf) ih

/-- Keeping a log does not change the calls. -/
theorem delivers_logged {sink : Sink σ} {s : σ} {name : String} {fields : List FieldValue}
    {calls : List Call} {success : Bool} (log : List Call)
    (h : sink.Delivers s name fields calls success) :
    sink.logged.Delivers (log, s) name fields calls success := by
  cases h with
  | taken hall => exact .taken (takes_logged log hall)
  | refused hsplit hbefore hf =>
      exact .refused hsplit (takes_logged log hbefore) (by rw [answer_logged]; exact hf)

/-- A run against a sink makes certain calls and gives a certain answer: it leaves the sink in the
state that the calls lead to, and a log of the run shows exactly the calls. -/
structure Makes {α : Type} (sink : Sink σ) (s : σ) (run : {τ : Type} → Sink τ → τ → τ × α)
    (calls : List Call) (result : α) : Prop where
  state : run sink s = (sink.perform calls s, result)
  log : ∀ log, run sink.logged (log, s) = ((log ++ calls, sink.perform calls s), result)

theorem makes_deliver {sink : Sink σ} {s : σ} {name : String} {fields : List FieldValue}
    {calls : List Call} {success : Bool} (h : sink.Delivers s name fields calls success) :
    sink.Makes s (fun sink s => sink.deliver name fields s) calls success where
  state := deliver_of_delivers h
  log log := by rw [deliver_of_delivers (delivers_logged log h), perform_logged]

end DeviceMessages.Sink

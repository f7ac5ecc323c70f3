import DeviceMessages.Text.Basic

/-!
# Delivering fields

The fields of a scanned message are delivered to a sink: first the name of the message, then its
fields one by one, then whether all went well. A sink can refuse a field. What a sink does with what
it is given is its own affair; here it is any state that changes with each call.
-/

namespace DeviceMessages

abbrev FieldValue := String × Bytes

/-- Takes the fields of messages into a state of its own. -/
structure Sink (σ : Type) where
  /-- A message of this name begins. -/
  start : String → σ → σ
  /-- A field comes. The sink answers whether it takes it. -/
  field : FieldValue → σ → σ × Bool
  /-- The message ends, successfully or not. -/
  finish : Bool → σ → σ

namespace Sink

variable {σ : Type}

/-- Delivers fields until one is refused, and answers whether all were taken. -/
def deliverFields (sink : Sink σ) : List FieldValue → σ → σ × Bool
  | [], s => (s, true)
  | f :: fs, s =>
    match sink.field f s with
    | (s, true) => sink.deliverFields fs s
    | (s, false) => (s, false)

/-- Delivers a message, and answers whether all of its fields were taken. -/
def deliver (sink : Sink σ) (name : String) (fields : List FieldValue) (s : σ) : σ × Bool :=
  let (s, success) := sink.deliverFields fields (sink.start name s)
  (sink.finish success s, success)

/-- Tells the sink that there is no message. -/
def deliverNothing (sink : Sink σ) (s : σ) : σ :=
  sink.finish false s

/-! ## Sinks made of others -/

inductive Call where
  | start (name : String)
  | field (f : FieldValue)
  | finish (success : Bool)
deriving DecidableEq

/-- Keeps a log of all that a sink is told. -/
def logged (sink : Sink σ) : Sink (List Call × σ) where
  start name s := (s.1 ++ [.start name], sink.start name s.2)
  field f s :=
    let (inner, taken) := sink.field f s.2
    ((s.1 ++ [.field f], inner), taken)
  finish success s := (s.1 ++ [.finish success], sink.finish success s.2)

/-- Passes all fields on, but refuses those with certain names. -/
def refusing (names : List String) (sink : Sink σ) : Sink σ :=
  { sink with
    field := fun f s =>
      let (inner, taken) := sink.field f s
      (inner, taken && !names.contains f.1) }

end Sink

/-! ## Collecting -/

/-- What a collecting sink has been told of the last message. -/
structure Collected where
  name : Option String
  fields : List FieldValue
  /-- How the last message ended, if one has ended. -/
  success : Option Bool
deriving DecidableEq

namespace Collected

def empty : Collected := ⟨none, [], none⟩

/-- The first value of a field. -/
def get? (c : Collected) (name : String) : Option Bytes :=
  c.fields.lookup name

/-- The first value of a field as text. -/
def getText? (c : Collected) (name : String) : Option String :=
  (c.get? name).map Text.ofUtf8Lossy

end Collected

/-- Collects the fields of the last message that began. It takes all of them. -/
def Sink.collecting : Sink Collected where
  start name c := { c with name := some name, fields := [] }
  field f c := ({ c with fields := c.fields ++ [f] }, true)
  finish success c := { c with success := some success }

end DeviceMessages

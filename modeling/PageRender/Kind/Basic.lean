import PageRender.Page.Basic
import PageRender.Request

/-!
# Component kinds

A kind says how the components of one type are rendered: how the model of a component is decoded
from its containers and encoded back, which operations it has, and what happens around them.

What a kind does may touch the blackboard of the pass, and it may halt: with a fault, or by a panic,
which is a breakdown that nobody handles on the way. What was changed before a halt stays changed;
whoever runs the kind decides what to keep.
-/

namespace PageRender

/-- A breakdown, with its text if it has one. -/
structure Panic where
  text : Option String
deriving DecidableEq

/-- Why something did not run to its end. -/
inductive Halt
  | fault (fault : Fault)
  | panic (panic : Panic)
deriving DecidableEq

/-- What an operation knows about the render that it is part of. -/
structure Context where
  component : String
  operation : String
  payload : Fields
  params : Fields
  locale : String
  translator : Translator

/-- The text of a key in the locale of the request, or the key itself. -/
def Context.text (c : Context) (key : String) : String :=
  c.translator.textOrKey c.locale key

/-- A model or a component, with the blackboard beside it. -/
structure Bench (M : Type) where
  subject : M
  blackboard : Blackboard

/-- Something that works on a bench and may halt, keeping what it has changed. -/
abbrev Work (M α : Type) := ExceptT Halt (StateM (Bench M)) α

namespace Work

variable {M α : Type}

/-- Halt with a fault. -/
def refuse (f : Fault) : Work M α :=
  throw (.fault f)

/-- Halt by a panic. -/
def panic (text : Option String) : Work M α :=
  throw (.panic ⟨text⟩)

/-- Change the subject. -/
def change (f : M → M) : Work M Unit :=
  modify fun bench => { bench with subject := f bench.subject }

/-- Change the blackboard. -/
def post (f : Blackboard → Blackboard) : Work M Unit :=
  modify fun bench => { bench with blackboard := f bench.blackboard }

end Work

/-- What an operation does to a model. -/
abbrev Handler (M : Type) := Context → Work M Unit

/-- The handler that does nothing. -/
def Handler.idle {M : Type} : Handler M := fun _ => pure ()

/-- Handlers by the operation that they serve, in the order of their registration. -/
abbrev Operations (M : Type) := Dict (Handler M)

/-- How the components of one type are rendered, by way of a model. Only the name, the fresh model,
decoding and encoding must be given. -/
structure Kind (M : Type) where
  /-- The type of the components. -/
  name : String
  /-- The model before decoding. -/
  fresh : M
  /-- Fill a model from a component and the caller's parameters. -/
  decode : M → Component → Fields → Except Halt M
  /-- Write a model back into a component, which keeps what was changed before a halt. -/
  encode : M → ExceptT Halt (StateM Component) Unit
  /-- Whether a component shows. One that does not gets no operation. -/
  visible : Context → M → ExceptT Panic (StateM Blackboard) Bool := fun _ _ => pure true
  /-- The operations that the kind declares. -/
  operations : Operations M := .empty
  /-- What is done when a page opens. -/
  onOpen : Handler M := .idle
  /-- What is done when a component before this one has changed. -/
  onRefresh : Handler M := .idle
  /-- What is done before every operation. -/
  before : Handler M := .idle
  /-- What is done after every operation. -/
  after : Handler M := .idle
  /-- What is done at the end of every render, also of one that failed. -/
  finish : Context → Work Component Unit := fun _ => pure ()
  /-- Whether extra entries are always flattened. -/
  flattens : Bool := false

/-- All operations of a kind: those that it declares, with the two reserved ones over them. -/
def Kind.table {M : Type} (kind : Kind M) : Operations M :=
  (kind.operations.insert Event.openOperation kind.onOpen).insert
    Event.refreshOperation kind.onRefresh

end PageRender

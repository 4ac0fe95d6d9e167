import PageRender.Kind.Plain

/-!
# Scripted kinds

Kinds whose handlers are written as data: lists of actions on the containers and the blackboard,
each of which may depend on a condition.
-/

namespace PageRender

namespace Script

/-- Where a script finds values. -/
inductive Place
  | state
  | data
  | props
  | payload
  | params
  | blackboard
  /-- The translated text of a key, or the key itself. -/
  | text
  /-- The component, the operation or the locale. -/
  | context
deriving DecidableEq

/-- A container that a script writes to. -/
inductive Container
  | state
  | data
  | props
deriving DecidableEq

/-- A key at a place. -/
structure Lookup where
  place : Place
  key : String

/-- A value: what a lookup finds, or a constant. -/
inductive Operand
  | found (lookup : Lookup)
  | constant (value : Value)

/-- Something is found, and is a given value if there is one. -/
structure Condition where
  lookup : Lookup
  equals : Option Value := none

/-- What a handler does. -/
inductive Deed
  | set (container : Container) (key : String) (value : Operand)
  | remove (container : Container) (key : String)
  | post (key : String) (value : Operand)
  | erase (key : String)
  /-- Add to a counter on the blackboard. -/
  | count (key : String) (amount : Int)
  /-- Append to a list on the blackboard. -/
  | push (key : String) (value : Operand)
  | report (fault : BusinessFault)
  | fail (message : String)
  | refuse (fault : Fault)
  | panic (text : Option String)

/-- A deed, done if the condition holds. -/
structure Action where
  deed : Deed
  when : Option Condition := none

/-! ### Values -/

/-- What a lookup finds in the containers alone. -/
def Lookup.inContainers? (l : Lookup) (m : Containers) : Option Value :=
  match l.place with
  | .state => m.state.get? l.key
  | .data => m.data.get? l.key
  | .props => m.props.get? l.key
  | _ => none

/-- What a lookup finds. -/
def Lookup.find? (l : Lookup) (context : Context) (bench : Bench Containers) : Option Value :=
  match l.place with
  | .state | .data | .props => l.inContainers? bench.subject
  | .payload => context.payload.get? l.key
  | .params => context.params.get? l.key
  | .blackboard => bench.blackboard.get? l.key
  | .text => some (.ofString (context.text l.key))
  | .context =>
    some (.ofString (
      if l.key = "component" then context.component
      else if l.key = "operation" then context.operation
      else context.locale))

/-- The value of an operand, null if nothing is found. -/
def Operand.value (o : Operand) (context : Context) (bench : Bench Containers) : Value :=
  match o with
  | .found lookup => (lookup.find? context bench).getD .null
  | .constant value => value

/-- Whether a condition holds of what its lookup has found. -/
def Condition.holdsOf (c : Condition) : Option Value → Bool
  | none => false
  | some found =>
    match c.equals with
    | none => true
    | some value => found.same value

/-- Whether a condition holds. -/
def Condition.holds (c : Condition) (context : Context) (bench : Bench Containers) : Bool :=
  c.holdsOf (c.lookup.find? context bench)

/-! ### Actions -/

/-- Change one of the containers. -/
def Container.modify (c : Container) (f : Fields → Fields) (m : Containers) : Containers :=
  match c with
  | .state => { m with state := f m.state }
  | .data => { m with data := f m.data }
  | .props => { m with props := f m.props }

/-- Add to a counter, which is a signed word and wraps. Anything else counts as zero. -/
def increase (n : Int) (v : Value) : Value :=
  let sum := Int.bmod (v.int64?.getD 0 + n) wordSize
  match Number.ofInt? sum with
  | some n => .ofNumber n
  | none => .null

/-- Append to a list. Anything else is replaced by a list of one item. -/
def append (item v : Value) : Value :=
  match v.items? with
  | some items => .ofList (items ++ [item])
  | none => .ofList [item]

/-- Do a deed. -/
def Deed.perform (context : Context) : Deed → Work Containers Unit
  | .set container key operand => do
    let value := operand.value context (← get)
    Work.change (container.modify (·.insert key value))
  | .remove container key => Work.change (container.modify (·.erase key))
  | .post key operand => do
    let value := operand.value context (← get)
    Work.post (·.set key value)
  | .erase key => Work.post (·.remove key)
  | .count key n => Work.post (·.update key (increase n))
  | .push key operand => do
    let value := operand.value context (← get)
    Work.post (·.update key (append value))
  | .report fault => Work.post (·.report fault)
  | .fail message => Work.refuse (.handlerFailed context.component message)
  | .refuse fault => Work.refuse fault
  | .panic text => Work.panic text

/-- Do an action, if its condition holds. -/
def Action.perform (context : Context) (a : Action) : Work Containers Unit := do
  let bench ← get
  if a.when.all (·.holds context bench) then a.deed.perform context else pure ()

/-- The handler that does actions in order. -/
def handler (actions : List Action) : Handler Containers := fun context =>
  actions.forM (Action.perform context)

end Script

/-- A refusal of the containers, always or under a condition. -/
structure Refusal where
  fault : Fault
  when : Option Script.Condition := none

/-- Whether a refusal applies to the containers. -/
def Refusal.applies (r : Refusal) (m : Containers) : Bool :=
  match r.when with
  | none => true
  | some condition => condition.holdsOf (condition.lookup.inContainers? m)

/-- A kind written as data. What is left out does nothing. -/
structure Script where
  name : String
  flattens : Bool := false
  onOpen : List Script.Action := []
  onRefresh : List Script.Action := []
  operations : List (String × List Script.Action) := []
  visible : Option Script.Condition := none
  before : List Script.Action := []
  after : List Script.Action := []
  finish : Option (List Script.Action) := none
  decodeRefusal : Option Refusal := none
  encodeRefusal : Option Refusal := none

namespace Script

/-- Do actions on the containers of a component, which are made present. The containers are written
back also after a fault, but not after a panic. -/
def onComponent (actions : List Action) : Context → Work Component Unit := fun context bench =>
  let (result, after) :=
    (handler actions context).run.run ⟨.ofComponent bench.subject, bench.blackboard⟩
  let component :=
    match result with
    | .error (.panic _) => bench.subject
    | _ => after.subject.write bench.subject
  (result, ⟨component, after.blackboard⟩)

/-- Refuse the containers, if a refusal applies to them. -/
def refuse (refusal : Option Refusal) (m : Containers) : Except Halt Unit :=
  match refusal with
  | some r => if r.applies m then .error (.fault r.fault) else .ok ()
  | none => .ok ()

/-- The part of a script that has handlers and visibility only. -/
def plainKind (s : Script) : Kind Containers :=
  let kind := s.operations.foldl (fun kind (key, actions) =>
    kind.withOperation key (handler actions)) (Kind.plain s.name)
  { kind with
    onOpen := handler s.onOpen
    onRefresh := handler s.onRefresh
    visible := match s.visible with
      | none => Kind.notHidden
      | some condition => fun context m => do
        pure (condition.holds context ⟨m, ← get⟩)
    flattens := s.flattens }

/-- The kind of a script. -/
def kind (s : Script) : Kind Containers :=
  { s.plainKind with
    before := handler s.before
    after := handler s.after
    finish := match s.finish with
      | none => fun _ => pure ()
      | some actions => onComponent actions
    decode := fun _ c _ => do
      let m := Containers.ofComponent c
      refuse s.decodeRefusal m
      pure m
    encode := fun m => do
      ExceptT.mk (pure (refuse s.encodeRefusal m))
      modify m.write }

end Script

end PageRender

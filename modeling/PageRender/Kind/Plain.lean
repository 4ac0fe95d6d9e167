import PageRender.Kind.Basic

/-!
# Plain kinds

Kinds whose model is nothing but containers of the component, so that decoding and encoding are
exact copies. All behaviour comes from the handlers that they are given.
-/

namespace PageRender

/-- The containers that a component's operations work on. -/
structure Containers where
  props : Fields := .empty
  data : Fields := .empty
  state : Fields := .empty

/-- The containers of a component, empty where it has none. -/
def Containers.ofComponent (c : Component) : Containers where
  props := c.props.getD .empty
  data := c.data.getD .empty
  state := c.state.getD .empty

/-- Write the containers back into a component. -/
def Containers.write (m : Containers) (c : Component) : Component :=
  { c with props := some m.props, data := some m.data, state := some m.state }

namespace Kind

/-- A component shows unless its props say that it is hidden. -/
def notHidden (_ : Context) (m : Containers) : ExceptT Panic (StateM Blackboard) Bool :=
  pure ((m.props.get? "hidden").bind Value.bool? != some true)

/-- The kind that copies the containers in and out, and otherwise does nothing. -/
def plain (name : String) : Kind Containers where
  name := name
  fresh := {}
  decode _ c _ := .ok (.ofComponent c)
  encode m := modify m.write
  visible := notHidden

/-- Declare an operation of a plain kind. -/
def withOperation {M : Type} (kind : Kind M) (key : String) (handler : Handler M) : Kind M :=
  { kind with operations := kind.operations.insert key handler }

/-- The kind whose model is the state alone. It shows always and has no operations of its own. -/
def stateOnly (name : String) : Kind Fields where
  name := name
  fresh := .empty
  decode _ c _ := .ok c.stateFields
  encode state := modify fun c => { c with state := some state }

end Kind

end PageRender

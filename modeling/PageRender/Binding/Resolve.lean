import PageRender.Binding.Basic

/-!
# Resolving bindings

The values of bindings, read from the caller's parameters and from the components that have rendered
in the pass, and written into the state of the component that is to render.
-/

namespace PageRender

/-- What bindings may read: the parameters, and the components of which some have rendered. -/
structure Sources where
  params : Fields
  components : Dict Component
  rendered : List String

namespace Sources

/-- The state of a component that has rendered in the pass. -/
def state? (s : Sources) (component : String) : Option Fields :=
  if component ∈ s.rendered then (s.components.get? component).map Component.stateFields else none

/-- The value of a binding of a component. A parameter that is missing is null. -/
def value (s : Sources) (component : String) (b : Binding) : Except Fault Value :=
  match b.source with
  | .params => .ok ((s.params.get? b.key).getD .null)
  | .component name =>
    match s.state? name with
    | none => .error (.notRendered component name)
    | some state =>
      match state.get? b.key with
      | none => .error (.noState name b.key)
      | some value => .ok value

/-- The targets of bindings with their values, up to the first that has none. -/
def resolve (s : Sources) (component : String) (bindings : List Binding) :
    Except Fault (List (String × Value)) :=
  bindings.mapM fun b => (s.value component b).map (b.target, ·)

end Sources

/-- Write resolved values into the state, one after the other. -/
def Component.fill (c : Component) (resolved : List (String × Value)) : Component :=
  resolved.foldl (fun c (key, value) => c.setState key value) c

end PageRender

import PageRender.Binding.Basic

/-!
# Auditing pages

What is wrong with the page of a scenario, before any pass runs on it. Some findings only warn; one
that is an error keeps the page out of the catalog. A strict audit raises conflicts, where a later
declaration would silently win over an earlier one, from warnings to errors.
-/

namespace PageRender

/-- How grave a finding is. -/
inductive Severity
  | warning
  | error
deriving DecidableEq

/-- The name of a severity. -/
def Severity.name : Severity → String
  | warning => "warning"
  | error => "error"

/-- What an audit can find. -/
inductive Defect
  /-- A component has no type. -/
  | untyped
  /-- A rendering list belongs to no component. -/
  | strayRendering (key : String)
  /-- A slot names no component. -/
  | unknownComponent (name : String)
  /-- A binding reads no component. -/
  | unknownSource (name : String)
  /-- A binding cannot be understood. -/
  | malformedBinding (fault : Fault)
  /-- A slot fills a key twice. -/
  | repeatedTarget (key : String)
  /-- A parallel group belongs to no component. -/
  | unknownParent (name : String)
  /-- A parallel group lists no component. -/
  | unknownChild (name : String)
  /-- A parallel group lists its own component. -/
  | selfParallel (name : String)
  /-- A child has been listed before. -/
  | repeatedChild (name : String)
deriving DecidableEq

namespace Defect

/-- A defect in words. -/
def message : Defect → String
  | untyped => "component has no type"
  | strayRendering key => "rendering declared for unknown component '" ++ key ++ "'"
  | unknownComponent name => "unknown component '" ++ name ++ "'"
  | unknownSource name => "binding source '" ++ name ++ "' is not a component"
  | malformedBinding fault => fault.message
  | repeatedTarget key => "state '" ++ key ++ "' bound more than once"
  | unknownParent name => "unknown parent '" ++ name ++ "'"
  | unknownChild name => "unknown child '" ++ name ++ "'"
  | selfParallel name => "'" ++ name ++ "' cannot run in parallel after itself"
  | repeatedChild name => "'" ++ name ++ "' already belongs to another parallel group"

/-- The severity of a defect. Conflicts are errors in a strict audit. -/
def severity (strict : Bool) : Defect → Severity
  | untyped | unknownComponent _ | unknownSource _ | malformedBinding _ | selfParallel _ => .error
  | strayRendering _ | unknownParent _ | unknownChild _ => .warning
  | repeatedTarget _ | repeatedChild _ => if strict then .error else .warning

end Defect

/-- A part of a page. -/
inductive Location
  | component (key : String)
  | rendering (key : String)
  | slot (key : String) (index : Nat)
  | parallel (parent : String)
deriving DecidableEq

/-- The path of a part. -/
def Location.path : Location → String
  | component key => "components." ++ key
  | rendering key => "rendering." ++ key
  | slot key index => "rendering." ++ key ++ "[" ++ natText index ++ "]"
  | parallel parent => "hierarchy.parallel." ++ parent

/-- A defect at its place. -/
structure Finding where
  location : Location
  defect : Defect
deriving DecidableEq

/-- A finding as a line. -/
def Finding.line (strict : Bool) (f : Finding) : String :=
  (f.defect.severity strict).name ++ ": " ++ f.location.path ++ ": " ++ f.defect.message

namespace Page

/-- Components without a type. -/
def componentFindings (p : Page) : List Finding :=
  (p.components.entries.filter fun (_, c) => c.typeName.isEmpty).map fun (key, _) =>
    ⟨.component key, .untyped⟩

/-- What is wrong with one binding. -/
def bindingDefects (p : Page) (b : WrittenBinding) : List Defect :=
  match Binding.ofWritten b with
  | .error fault => [.malformedBinding fault]
  | .ok binding =>
    match binding.dependency? with
    | none => []
    | some source => if p.components.contains source then [] else [.unknownSource source]

/-- What is wrong with bindings, given the keys that are filled before them. -/
def bindingsDefects (p : Page) (filled : List String) : List WrittenBinding → List Defect
  | [] => []
  | b :: rest =>
    p.bindingDefects b ++
      (if b.target ∈ filled then [.repeatedTarget b.target] else []) ++
      p.bindingsDefects (b.target :: filled) rest

/-- What is wrong with a slot. -/
def slotDefects (p : Page) (slot : Slot) : List Defect :=
  (if p.components.contains slot.name then [] else [.unknownComponent slot.name]) ++
    p.bindingsDefects [] slot.bindings

/-- What is wrong with a rendering list: its key, then its slots in order. -/
def renderingFindings (p : Page) (key : String) (slots : List Slot) : List Finding :=
  (if key = defaultKey ∨ p.components.contains key then []
    else [⟨.rendering key, .strayRendering key⟩]) ++
  (slots.mapIdx fun i slot =>
    (p.slotDefects slot).map fun defect => ⟨.slot key i, defect⟩).flatten

/-- What is wrong with a child of a parallel group, given the children listed before it. -/
def childDefects (p : Page) (listed : List String) (parent child : String) : List Defect :=
  (if p.components.contains child then [] else [.unknownChild child]) ++
    if child = parent then [.selfParallel child]
    else if child ∈ listed then [.repeatedChild child]
    else []

/-- The children that are listed once these are, the latest first. A group's own component does not
count. -/
def listChildren (parent : String) (listed children : List String) : List String :=
  children.foldl (fun listed child => if child = parent then listed else child :: listed) listed

/-- What is wrong with the children of a parallel group, in order. -/
def childrenDefects (p : Page) (parent : String) (listed : List String) :
    List String → List Defect
  | [] => []
  | child :: rest =>
    p.childDefects listed parent child ++
      p.childrenDefects parent (listChildren parent listed [child]) rest

/-- What is wrong with parallel groups, given the children listed before them. -/
def parallelFindings (p : Page) (listed : List String) :
    List (String × List String) → List Finding
  | [] => []
  | (parent, children) :: rest =>
    ((if p.components.contains parent then [] else [Defect.unknownParent parent]) ++
        p.childrenDefects parent listed children).map (⟨.parallel parent, ·⟩) ++
      p.parallelFindings (listChildren parent listed children) rest

/-- All that is wrong with a page, in the order of the document. -/
def findings (p : Page) : List Finding :=
  p.componentFindings ++
    p.rendering.entries.flatMap (fun (key, slots) => p.renderingFindings key slots) ++
    p.parallelFindings [] p.layout.parallel.entries

end Page

/-- An audit, strict or not. -/
structure Audit where
  strict : Bool := false

namespace Audit

/-- The severity of a finding. -/
def severityOf (a : Audit) (f : Finding) : Severity :=
  f.defect.severity a.strict

/-- The findings that are errors. -/
def errors (a : Audit) (p : Page) : List Finding :=
  p.findings.filter fun f => a.severityOf f = .error

/-- The findings that only warn. -/
def warnings (a : Audit) (p : Page) : List Finding :=
  p.findings.filter fun f => a.severityOf f = .warning

/-- Whether a page has no error. -/
def accepts (a : Audit) (p : Page) : Bool :=
  (a.errors p).isEmpty

/-- The findings of a page, or its first error. -/
def check (a : Audit) (p : Page) : Except Fault (List Finding) :=
  match a.errors p with
  | first :: _ => .error (.invalidPage p.scenario (first.line a.strict))
  | [] => .ok p.findings

end Audit

end PageRender

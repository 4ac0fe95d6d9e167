import PageRender.Fault

/-!
# Blackboards

The fields that all components of a pass share. One of them is reserved for business faults.
-/

namespace PageRender

/-- The fields shared in a pass. -/
structure Blackboard where
  entries : Fields

namespace Blackboard

/-- The key under which a business fault is reported. -/
def faultKey : String := "_error_"

/-- The blackboard without entries. -/
def empty : Blackboard := ⟨.empty⟩

instance : Inhabited Blackboard := ⟨empty⟩

/-- The value of a key. -/
def get? (b : Blackboard) (key : String) : Option Value :=
  b.entries.get? key

/-- Write a value to a key. -/
def set (b : Blackboard) (key : String) (value : Value) : Blackboard :=
  ⟨b.entries.insert key value⟩

/-- Remove a key. -/
def remove (b : Blackboard) (key : String) : Blackboard :=
  ⟨b.entries.erase key⟩

/-- Change the value of a key. A key that is missing is first given the value null. -/
def update (b : Blackboard) (key : String) (f : Value → Value) : Blackboard :=
  b.set key (f ((b.get? key).getD .null))

/-- Report a business fault. -/
def report (b : Blackboard) (f : BusinessFault) : Blackboard :=
  b.set faultKey f.toValue

/-- The business fault that is reported. -/
def fault? (b : Blackboard) : Option BusinessFault :=
  (b.get? faultKey).bind BusinessFault.ofValue?

/-- Take back a report, as is done with one that an earlier pass has left. -/
def clearFault (b : Blackboard) : Blackboard :=
  b.remove faultKey

theorem fault?_clearFault (b : Blackboard) : b.clearFault.fault? = none := by
  simp [fault?, clearFault, remove, get?, Dict.get?_erase]

/-- The same entries, in any order. -/
def same (a b : Blackboard) : Bool :=
  Fields.same a.entries b.entries

/-- The document of a blackboard: its entries in their order. -/
def encode (b : Blackboard) : Json :=
  Fields.encode b.entries

/-- Decode the document of a blackboard. -/
def decode : Decoder Blackboard := fun depth j =>
  (Decode.fields depth j).map Blackboard.mk

end Blackboard

end PageRender

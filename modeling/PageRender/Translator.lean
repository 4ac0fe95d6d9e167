import PageRender.Dict

/-!
# Translators

A translator knows some texts by locale and key. A phrasebook is a translator given by its entries.
-/

namespace PageRender

/-- A source of texts by locale and key. -/
structure Translator where
  text? : String → String → Option String

namespace Translator

/-- The text of a key, or the key itself where there is none. -/
def textOrKey (t : Translator) (locale key : String) : String :=
  (t.text? locale key).getD key

/-- The translator without texts. -/
def silent : Translator := ⟨fun _ _ => none⟩

instance : Inhabited Translator := ⟨silent⟩

end Translator

/-- Texts by locale, then by key. -/
abbrev Phrasebook := Dict (Dict String)

namespace Phrasebook

/-- Add a text, in place of the one that is there. -/
def add (book : Phrasebook) (locale key text : String) : Phrasebook :=
  book.insert locale (((book.get? locale).getD .empty).insert key text)

/-- The translator that looks texts up. -/
def translator (book : Phrasebook) : Translator :=
  ⟨fun locale key => (book.get? locale).bind (·.get? key)⟩

end Phrasebook

end PageRender

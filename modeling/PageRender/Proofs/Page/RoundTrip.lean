import PageRender.Proofs.Json.Records
import PageRender.Request

/-!
# Documents that read back

Requests and pages are read back from the texts written for them. What is left out of a text is what
its absence stands for, and all keys keep their order.

The values in a document must be such that they are given back at their places at all: they must
fit there, as `Value.decode_json_iff` says, and their doubles must read back. Whatever else a
document holds is read back without a condition.
-/

namespace PageRender

open List
open Decode (record_object required_of_lookup optional_of_lookup optional_of_lookup_ite
  optional_of_lookup_map optional_string)
open Encode (keys_append keys_field keys_present keys_nonempty keys_unless)

variable {depth : Nat}

/-! ### Values that fit into their place

The depth is the number of levels that may still open at the place of a part. -/

/-- Whether the values of the fields fit below them. -/
def Fields.fits (depth : Nat) (fields : Fields) : Bool :=
  fields.values.all (·.json.fits (depth - 1))

/-- Whether the values of a component fit. -/
def Component.fits (depth : Nat) (c : Component) : Bool :=
  [c.props, c.data, c.state, c.operations].all (·.all (Fields.fits (depth - 1)))

/-- Whether the values of a layout fit. -/
def Layout.fits (depth : Nat) (l : Layout) : Bool :=
  l.nesting.fits (depth - 1)

/-- Whether the values of a blackboard fit. -/
def Blackboard.fits (depth : Nat) (b : Blackboard) : Bool :=
  b.entries.fits depth

/-- Whether the values of a page fit. -/
def Page.fits (depth : Nat) (p : Page) : Bool :=
  p.layout.fits (depth - 1) && p.components.values.all (Component.fits (depth - 2)) &&
    p.blackboard.all (Blackboard.fits (depth - 1))

/-- Whether the values of an event fit. -/
def Event.fits (depth : Nat) (e : Event) : Bool :=
  e.payload.fits (depth - 1)

/-- Whether the values of a request fit. -/
def Request.fits (depth : Nat) (r : Request) : Bool :=
  r.event.all (Event.fits (depth - 1)) && r.params.fits (depth - 1) &&
    r.snapshot.all (Page.fits (depth - 1))

/-! ### Components -/

lemma Fields.decode_encode {fields : Fields} (h : fields.fits (depth + 1) = true) :
    Decode.fields (depth + 1) fields.encode = some fields := by
  have hvalues : ∀ v ∈ fields.values, Decode.value depth v.json = some v :=
    fun v hv => Value.decode_json_iff.2 (all_eq_true.1 h v hv)
  exact Decode.dict_encode hvalues

lemma Fields.encode_ne_null (fields : Fields) : fields.encode ≠ .null := by
  simp [encode]

lemma Flags.encode_ne_null (flags : Flags) : flags.encode ≠ .null := by
  simp [encode]

lemma Flags.decode_encode (flags : Flags) : decode (depth + 1) flags.encode = some flags :=
  rfl

lemma Component.decode_encode {c : Component} (h : c.fits (depth + 2) = true) :
    decode (depth + 2) c.encode = some c := by
  simp only [fits, all_cons, all_nil, Bool.and_true, Bool.and_eq_true] at h
  obtain ⟨hprops, hdata, hstate, hoperations⟩ := h
  have hcontainer : ∀ {o : Option Fields}, o.all (Fields.fits (depth + 1)) = true →
      ∀ fields ∈ o, Decode.fields (depth + 1) fields.encode = some fields :=
    fun ho fields hfields => Fields.decode_encode ((Option.all_eq_true _ _).1 ho fields hfields)
  rw [decode, encode, record_object (by simp)]
  · dsimp only
    rw [optional_of_lookup (j := .string c.name) rfl (by simp),
      required_of_lookup (j := .string c.typeName) rfl (by simp),
      optional_string (s := c.version) (by simp),
      optional_of_lookup_map Fields.encode_ne_null (hcontainer hprops) (by simp),
      optional_of_lookup_map Fields.encode_ne_null (hcontainer hdata) (by simp),
      optional_of_lookup_map Fields.encode_ne_null (hcontainer hstate) (by simp),
      optional_of_lookup_map Fields.encode_ne_null (hcontainer hoperations) (by simp),
      optional_of_lookup_map (o := c.flags) Flags.encode_ne_null
        (fun flags _ => flags.decode_encode) (by simp)]
    rfl
  · simp only [append_assoc]
    exact keys_append keys_field <| keys_append keys_field <| keys_append keys_nonempty <|
      keys_append keys_present <| keys_append keys_present <| keys_append keys_present <|
      keys_append keys_present keys_present

/-! ### Pages -/

lemma WrittenBinding.decode_encode (b : WrittenBinding) :
    decode (depth + 1) b.encode = some b :=
  rfl

lemma Slot.decode_encode (slot : Slot) : decode (depth + 3) slot.encode = some slot := by
  have hbindings : Decode.list WrittenBinding.decode (depth + 2)
      (Encode.list WrittenBinding.encode slot.bindings) = some slot.bindings :=
    Decode.list_encode fun b _ => b.decode_encode
  rw [decode, encode, record_object (by simp)]
  · rw [required_of_lookup (j := .string slot.name) rfl (by simp),
      optional_of_lookup_ite hbindings (fun h => (isEmpty_iff.1 h).symm) (by simp)]
    rfl
  · exact keys_append keys_field (keys_unless keys_field)

lemma Layout.decode_encode {l : Layout} (h : l.fits (depth + 3) = true) :
    decode (depth + 3) l.encode = some l := by
  have hparallel : Decode.dict (Decode.list Decode.string) (depth + 2)
      (Encode.dict (Encode.list .string) l.parallel) = some l.parallel :=
    Decode.dict_encode fun group _ => Decode.list_encode fun _ _ => rfl
  rw [decode, encode, record_object (by simp)]
  · rw [optional_string (s := l.version) (by simp),
      optional_of_lookup (j := .string l.root) rfl (by simp),
      optional_of_lookup (Fields.decode_encode h) (by simp),
      optional_of_lookup_ite hparallel (fun h => (Dict.eq_empty_of_isEmpty h).symm) (by simp)]
    rfl
  · simp only [append_assoc]
    exact keys_append keys_nonempty <| keys_append keys_field <| keys_append keys_field <|
      keys_unless keys_field

lemma Blackboard.encode_ne_null (b : Blackboard) : b.encode ≠ .null :=
  b.entries.encode_ne_null

lemma Blackboard.decode_encode {b : Blackboard} (h : b.fits (depth + 1) = true) :
    decode (depth + 1) b.encode = some b := by
  rw [decode, encode, Fields.decode_encode h]
  rfl

lemma Page.decode_encode {p : Page} (h : p.fits (depth + 6) = true) :
    decode (depth + 6) p.encode = some p := by
  rw [fits, Bool.and_eq_true, Bool.and_eq_true, all_eq_true] at h
  obtain ⟨⟨hlayout, hfits⟩, hboard⟩ := h
  have hcomponents : Decode.dict Component.decode (depth + 5)
      (Encode.dict Component.encode p.components) = some p.components :=
    Decode.dict_encode fun c hc => Component.decode_encode (hfits c hc)
  have hrendering : Decode.dict (Decode.list Slot.decode) (depth + 5)
      (Encode.dict (Encode.list Slot.encode) p.rendering) = some p.rendering :=
    Decode.dict_encode fun slots _ => Decode.list_encode fun slot _ => slot.decode_encode
  have hblackboard : ∀ b ∈ p.blackboard, Blackboard.decode (depth + 5) b.encode = some b :=
    fun b hb => Blackboard.decode_encode ((Option.all_eq_true _ _).1 hboard b hb)
  rw [decode, encode, record_object (by simp)]
  · rw [optional_string (s := p.version) (by simp),
      optional_of_lookup (j := .string p.scenario) rfl (by simp),
      optional_of_lookup (Layout.decode_encode hlayout) (by simp),
      optional_of_lookup hcomponents (by simp),
      optional_of_lookup hrendering (by simp),
      optional_of_lookup_map Blackboard.encode_ne_null hblackboard (by simp)]
    rfl
  · simp only [append_assoc]
    exact keys_append keys_nonempty <| keys_append keys_field <| keys_append keys_field <|
      keys_append keys_field <| keys_append keys_field keys_present

lemma Page.encode_ne_null (p : Page) : p.encode ≠ .null := by
  simp [encode]

/-! ### Requests -/

lemma Event.encode_ne_null (e : Event) : e.encode ≠ .null := by
  simp [encode]

lemma Event.decode_encode {e : Event} (h : e.fits (depth + 2) = true) :
    decode (depth + 2) e.encode = some e := by
  rw [decode, encode, record_object (by simp)]
  · rw [optional_of_lookup (j := .string e.component) rfl (by simp),
      optional_of_lookup (j := .string e.operation) rfl (by simp [Entries.lookup_cons]),
      optional_of_lookup (Fields.decode_encode h) (by simp [Entries.lookup_cons])]
    rfl
  · exact Sublist.refl _

lemma Request.decode_encode {r : Request} (h : r.fits (depth + 7) = true) :
    decode (depth + 7) r.encode = some r := by
  rw [fits, Bool.and_eq_true, Bool.and_eq_true] at h
  obtain ⟨⟨hevent, hparams⟩, hsnapshot⟩ := h
  have string_ne_null : ∀ s, Json.string s ≠ .null := by
    simp
  have hevent : ∀ e ∈ r.event, Event.decode (depth + 6) e.encode = some e :=
    fun e he => Event.decode_encode ((Option.all_eq_true _ _).1 hevent e he)
  have hsnapshot : ∀ p ∈ r.snapshot, Page.decode (depth + 6) p.encode = some p :=
    fun p hp => Page.decode_encode ((Option.all_eq_true _ _).1 hsnapshot p hp)
  rw [decode, encode, record_object (by simp)]
  · rw [required_of_lookup (j := .string r.scenario) rfl (by simp),
      optional_of_lookup_map Event.encode_ne_null hevent (by simp),
      optional_of_lookup (Fields.decode_encode hparams) (by simp),
      optional_of_lookup_map Page.encode_ne_null hsnapshot (by simp),
      optional_of_lookup_map (o := r.only) string_ne_null (fun _ _ => rfl) (by simp),
      optional_of_lookup_map (o := r.locale) string_ne_null (fun _ _ => rfl) (by simp)]
    rfl
  · simp only [append_assoc]
    exact keys_append keys_field <| keys_append keys_present <| keys_append keys_field <|
      keys_append keys_present <| keys_append keys_present keys_present

/-! ### Texts -/

lemma Page.syncNames_syncNames (p : Page) : p.syncNames.syncNames = p.syncNames := by
  simp only [syncNames, mk.injEq, true_and, and_true]
  exact Dict.eq_of_get? (by simp) fun key => by simp [Function.comp_def]

lemma Page.decode_text {p : Page} (hlegible : p.encode.isLegible = true)
    (hfits : p.fits Json.depthLimit = true) : Decode.text? decode p.text = some p := by
  rw [Decode.text?, text, Json.parse?_pretty hlegible]
  exact decode_encode hfits

lemma Page.ofText_eq_ok_iff {text : String} {p : Page} :
    ofText text = .ok p ↔ ∃ q, Decode.text? decode text = some q ∧ q.syncNames = p := by
  cases h : Decode.text? decode text <;> simp [ofText, h]

/-- If its values are given back, a request is read back from either of its texts; and a page that
has been read from any text is read back from the text that is written for it. -/
theorem documents_read_back :
    (∀ r : Request, r.encode.isLegible = true → r.fits Json.depthLimit = true →
      Decode.text? Request.decode r.encode.compact = some r ∧
        Decode.text? Request.decode r.encode.pretty = some r) ∧
    ∀ (text : String) (p : Page), Page.ofText text = .ok p → p.encode.isLegible = true →
      p.fits Json.depthLimit = true → Page.ofText p.text = .ok p := by
  constructor
  · intro r hlegible hfits
    have hdecode : Decode.document? Request.decode r.encode = some r :=
      Request.decode_encode hfits
    rw [Decode.text?, Decode.text?, Json.parse?_compact hlegible, Json.parse?_pretty hlegible]
    exact ⟨hdecode, hdecode⟩
  · intro text p hread hlegible hfits
    obtain ⟨q, -, rfl⟩ := Page.ofText_eq_ok_iff.1 hread
    exact Page.ofText_eq_ok_iff.2
      ⟨q.syncNames, Page.decode_text hlegible hfits, q.syncNames_syncNames⟩

/-- A request for an event that carries a double and a text to escape, with the page it was made
on. -/
def resizing : Request where
  scenario := "solo"
  event := some {
    component := "head"
    operation := "resize"
    payload := Dict.ofList [
      ("width", Value.ofNumber (.double ⟨false, 3 * twoPow 51, 1022, by decide⟩)),
      ("label", Value.ofString "a \"wide\"\n\u0001") ] }
  params := Dict.ofList [("b", Value.ofList [.null, .ofBool true]), ("a", Value.ofMembers [])]
  snapshot := some {
    scenario := "solo"
    layout := {
      root := "head"
      nesting := Dict.ofList [("head", Value.ofList [.ofString "body"])]
      parallel := Dict.ofList [("head", ["body", "foot"])] }
    components := Dict.ofList [
      ("head", {
        name := "head"
        typeName := "panel"
        props := some .empty
        flags := some { visible := false } }) ]
    rendering := Dict.ofList [
      ("head", [{ name := "body", bindings := [⟨"width", "head.width"⟩] }, { name := "foot" }]) ]
    blackboard := some .empty }
  locale := some "de"

/-- A text with white space, in which all but two fields of a page are absent. -/
def sparse : String :=
  "\x7b \"components\": \x7b \"head\": [\"tail\", \"panel\"] \x7d, \"scenario\": \"solo\" \x7d"

theorem documents_read_back_resizing :
    (resizing.encode.isLegible = true ∧ resizing.fits Json.depthLimit = true ∧
      Decode.text? Request.decode resizing.encode.compact = some resizing) ∧
    ∃ p, Page.ofText sparse = .ok p ∧ p.encode.isLegible = true ∧
      p.fits Json.depthLimit = true ∧ Page.ofText p.text = .ok p := by
  have hlegible : resizing.encode.isLegible = true := by decide +kernel
  have hfits : resizing.fits Json.depthLimit = true := by decide +kernel
  refine ⟨⟨hlegible, hfits, (documents_read_back.1 resizing hlegible hfits).1⟩, ?_⟩
  have hsparse : (Page.ofText sparse).toOption.any
      (fun p => p.encode.isLegible && p.fits Json.depthLimit) = true := by decide +kernel
  cases hread : Page.ofText sparse with
  | error fault => simp [hread, Except.toOption] at hsparse
  | ok p =>
    obtain ⟨hlegible, hfits⟩ : p.encode.isLegible = true ∧ p.fits Json.depthLimit = true := by
      simpa [hread, Except.toOption] using hsparse
    exact ⟨p, rfl, hlegible, hfits, documents_read_back.2 sparse p hread hlegible hfits⟩

end PageRender

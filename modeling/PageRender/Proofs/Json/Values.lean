import Mathlib.Data.List.Basic
import PageRender.Json.Decode
import PageRender.Proofs.Json.Parse

/-!
# Values that read back

Where a document may still open some levels, a value is read back exactly if it opens no more and
none of its objects would be taken for an embedding: `Value.decode_json_iff`. Its members come in
ascending order, so that each is put after those before it and their order is kept. An embedding
never denotes the tree that it is, since no value of a text is an object with the key of embeddings
alone.
-/

namespace PageRender

open List

namespace Json

mutual

/-- Whether a tree opens at most `depth` levels and holds no embedding. -/
def fits (depth : Nat) : Json → Bool
  | .array items =>
    match depth with
    | 0 => false
    | depth + 1 => itemsFit depth items
  | .object members =>
    match depth with
    | 0 => false
    | depth + 1 => !Value.isEmbedding members && membersFit depth members
  | _ => true

/-- Whether all items fit. -/
def itemsFit (depth : Nat) : List Json → Bool
  | [] => true
  | item :: rest => item.fits depth && itemsFit depth rest

/-- Whether all members fit. -/
def membersFit (depth : Nat) : List (String × Json) → Bool
  | [] => true
  | (_, item) :: rest => item.fits depth && membersFit depth rest

end

/-! ### Members in ascending order -/

variable {key k : String} {item : Json} {members : List (String × Json)}

lemma pairwise_of_normalMembers (h : normalMembers members = true) :
    members.Pairwise fun m m' => m.1 < m'.1 := by
  induction members with
  | nil => exact Pairwise.nil
  | cons member rest ih =>
    simp only [normalMembers, Bool.and_eq_true, all_eq_true, decide_eq_true_eq] at h
    exact Pairwise.cons h.2 (ih h.1.2)

lemma putMember_of_lt (h : ∀ member ∈ members, member.1 < key) :
    putMember key item members = members ++ [(key, item)] := by
  induction members with
  | nil => rfl
  | cons member rest ih =>
    obtain ⟨hkey, hrest⟩ := forall_mem_cons.1 h
    rw [putMember, if_neg (String.lt_asymm hkey), if_neg (String.ne_of_lt hkey).symm, ih hrest]
    rfl

lemma mem_keys_putMember (h : k = key ∨ k ∈ Entries.keys members) :
    k ∈ Entries.keys (putMember key item members) := by
  induction members with
  | nil => simpa [putMember] using h
  | cons member rest ih =>
    obtain ⟨first, other⟩ := member
    simp only [putMember]
    split
    · simpa using h
    · split
      · simp_all
      · simp only [Entries.keys_cons, mem_cons] at h ⊢
        grind

end Json

namespace Value

variable {embedded : String → Option Value} {depth : Nat} {ordered : List (String × Json)}
  {values : List (String × Value)} {v w : Value}

lemma eq_of_json (h : v.json = w.json) : v = w := by
  cases v
  cases w
  cases h
  rfl

/-- The members of values, as trees. -/
def trees (values : List (String × Value)) : List (String × Json) :=
  values.map fun member => (member.1, member.2.json)

lemma putMembers_of_pairwise (h : values.Pairwise fun m m' => m.1 < m'.1)
    (hlt : ∀ m ∈ ordered, ∀ m' ∈ values, m.1 < m'.1) :
    putMembers ordered values = ordered ++ trees values := by
  induction values generalizing ordered with
  | nil => simp [putMembers, trees]
  | cons member rest ih =>
    obtain ⟨hkey, hrest⟩ := pairwise_cons.1 h
    have hput : Json.putMember member.1 member.2.json ordered =
        ordered ++ [(member.1, member.2.json)] :=
      Json.putMember_of_lt fun m hm => hlt m hm member mem_cons_self
    have hlt' : ∀ m ∈ ordered ++ [(member.1, member.2.json)], ∀ m' ∈ rest, m.1 < m'.1 := by
      intro m hm m' hm'
      rcases mem_append.1 hm with hm | hm
      · exact hlt m hm m' (mem_cons_of_mem _ hm')
      · exact mem_singleton.1 hm ▸ hkey m' hm'
    rw [putMembers, hput, ih hrest hlt']
    simp [trees]

lemma json_ofMembers (h : values.Pairwise fun m m' => m.1 < m'.1) :
    (ofMembers values).json = .object (trees values) :=
  congrArg Json.object (putMembers_of_pairwise h (by simp))

lemma mem_keys_putMembers {key : String}
    (h : key ∈ Entries.keys ordered ∨ key ∈ Entries.keys values) :
    key ∈ Entries.keys (putMembers ordered values) := by
  induction values generalizing ordered with
  | nil => simpa [putMembers] using h
  | cons member rest ih =>
    refine ih ?_
    rcases h with h | h
    · exact .inl (Json.mem_keys_putMember (.inr h))
    · rcases mem_cons.1 h with h | h
      · exact .inl (Json.mem_keys_putMember (.inl h))
      · exact .inr h

/-! ### What fits is read back -/

lemma map_json_attachItems : ∀ (items : List Json) (h : Json.normalItems items = true),
    (attachItems items h).map json = items
  | [], _ => rfl
  | item :: rest, h => by
    simp [attachItems, map_json_attachItems rest]

lemma trees_attachMembers : ∀ (members : List (String × Json))
    (h : Json.normalMembers members = true), trees (attachMembers members h) = members
  | [], _ => rfl
  | (key, item) :: rest, h => by
    have hrest := trees_attachMembers rest
    simp only [trees] at hrest ⊢
    simp [attachMembers, hrest]

lemma json_ofMembers_attachMembers {members : List (String × Json)}
    (h : Json.normalMembers members = true) :
    (ofMembers (attachMembers members h)).json = .object members := by
  have hpairwise := Json.pairwise_of_normalMembers h
  rw [← trees_attachMembers members h, trees, pairwise_map] at hpairwise
  rw [json_ofMembers hpairwise, trees_attachMembers]

section

variable {members : List (String × Value)} {member : String × Value}

lemma trees_injective : Function.Injective trees := by
  refine map_injective_iff.mpr fun m m' h => ?_
  obtain ⟨hkey, hjson⟩ := Prod.mk.inj h
  exact Prod.ext hkey (eq_of_json hjson)

lemma keys_trees : Entries.keys (trees members) = Entries.keys members := by
  simp [Entries.keys, trees, Function.comp_def]

/-- The members of a value are those of its tree. -/
lemma members?_eq_some_iff : v.members? = some members ↔ v.json = .object (trees members) := by
  obtain ⟨json, hnormal⟩ := v
  cases json with
  | object tree =>
    simp only [members?, Option.some.injEq, Json.object.injEq]
    constructor
    · rintro rfl
      exact (trees_attachMembers tree _).symm
    · intro h
      exact trees_injective ((trees_attachMembers tree _).trans h)
  | _ => exact iff_of_false nofun nofun

lemma exists_members?_of_json {tree : List (String × Json)} (h : v.json = .object tree) :
    ∃ members, v.members? = some members ∧ trees members = tree := by
  obtain ⟨json, hnormal⟩ := v
  cases h
  exact ⟨_, rfl, trees_attachMembers tree _⟩

lemma pairwise_of_members? (h : v.members? = some members) :
    (trees members).Pairwise fun m m' => m.1 < m'.1 := by
  have hnormal := v.normal
  rw [members?_eq_some_iff.mp h] at hnormal
  exact Json.pairwise_of_normalMembers hnormal

lemma nodup_of_members? (h : v.members? = some members) : (Entries.keys members).Nodup := by
  rw [← keys_trees]
  exact (pairwise_map.mpr (pairwise_of_members? h)).imp fun hlt => String.ne_of_lt hlt

/-- A value is larger than each of its members. -/
lemma sizeOf_lt_of_members? (h : v.members? = some members) (hmember : member ∈ members) :
    sizeOf member.2.json < sizeOf v.json := by
  have hmem : (member.1, member.2.json) ∈ trees members := mem_map_of_mem hmember
  have hsize := sizeOf_lt_of_mem hmem
  rw [Prod.mk.sizeOf_spec] at hsize
  rw [members?_eq_some_iff.mp h, Json.object.sizeOf_spec]
  omega

end

mutual

lemma ofJson?_of_fits (embedded : String → Option Value) (depth : Nat) :
    (j : Json) → (hnormal : j.isNormal = true) → j.fits depth = true →
      ofJson? embedded depth j = some ⟨j, hnormal⟩
  | .null, _, _ => rfl
  | .bool _, _, _ => rfl
  | .number _, _, _ => rfl
  | .string _, _, _ => rfl
  | .array items, hnormal, h => by
    match depth with
    | depth + 1 =>
      have hitems := itemValues?_of_fit embedded depth items hnormal h
      rw [ofJson?, hitems]
      exact congrArg some (eq_of_json (congrArg Json.array (map_json_attachItems items hnormal)))
  | .object members, hnormal, h => by
    match depth with
    | depth + 1 =>
      rw [Json.fits, Bool.and_eq_true, Bool.not_eq_true'] at h
      have hmembers := memberValues?_of_fit embedded depth members hnormal h.2
      simp only [ofJson?, h.1, hmembers]
      exact congrArg some (eq_of_json (json_ofMembers_attachMembers hnormal))

lemma itemValues?_of_fit (embedded : String → Option Value) (depth : Nat) :
    (items : List Json) → (hnormal : Json.normalItems items = true) →
      Json.itemsFit depth items = true →
      itemValues? embedded depth items = some (attachItems items hnormal)
  | [], _, _ => rfl
  | item :: rest, hnormal, h => by
    rw [Json.itemsFit, Bool.and_eq_true] at h
    have hnormal' := hnormal
    rw [Json.normalItems, Bool.and_eq_true] at hnormal'
    simp [itemValues?, ofJson?_of_fits embedded depth item hnormal'.1 h.1,
      itemValues?_of_fit embedded depth rest hnormal'.2 h.2, attachItems]

lemma memberValues?_of_fit (embedded : String → Option Value) (depth : Nat) :
    (members : List (String × Json)) → (hnormal : Json.normalMembers members = true) →
      Json.membersFit depth members = true →
      memberValues? embedded depth members = some (attachMembers members hnormal)
  | [], _, _ => rfl
  | (key, item) :: rest, hnormal, h => by
    rw [Json.membersFit, Bool.and_eq_true] at h
    have hnormal' := hnormal
    rw [Json.normalMembers, Bool.and_eq_true, Bool.and_eq_true] at hnormal'
    simp [memberValues?, ofJson?_of_fits embedded depth item hnormal'.1.1 h.1,
      memberValues?_of_fit embedded depth rest hnormal'.1.2 h.2, attachMembers]

end

/-! ### What is read back fits -/

/-- A value that is an object with the key of embeddings alone. -/
def IsEmbedding (v : Value) : Prop :=
  ∃ item, v.json = .object [(embedKey, item)]

lemma ofJson?_array_eq_some {items : List Json}
    (h : ofJson? embedded depth (.array items) = some v) :
    ∃ depth' values, depth = depth' + 1 ∧ itemValues? embedded depth' items = some values ∧
      ofList values = v := by
  cases depth with
  | zero => cases h
  | succ depth =>
    rw [ofJson?, Option.map_eq_some_iff] at h
    obtain ⟨values, hvalues, rfl⟩ := h
    exact ⟨depth, values, rfl, hvalues, rfl⟩

lemma ofJson?_object_eq_some {members : List (String × Json)}
    (h : ofJson? embedded depth (.object members) = some v) :
    (∃ text, members = [(embedKey, .string text)] ∧ embedded text = some v) ∨
      isEmbedding members = false ∧
        ∃ depth' values, depth = depth' + 1 ∧
          memberValues? embedded depth' members = some values ∧ ofMembers values = v := by
  cases depth with
  | zero => cases h
  | succ depth =>
    rw [ofJson?] at h
    split at h
    · next hkey =>
      obtain ⟨text, htext, hv⟩ := Option.bind_eq_some_iff.1 h
      unfold embeddedText? at htext
      split at htext
      · next key text' =>
        cases htext
        have hkey : key = embedKey := by simpa [isEmbedding] using hkey
        exact .inl ⟨text, by rw [hkey], hv⟩
      · cases htext
    · next hkey =>
      obtain ⟨values, hvalues, rfl⟩ := Option.map_eq_some_iff.1 h
      exact .inr ⟨Bool.eq_false_iff.2 hkey, depth, values, rfl, hvalues, rfl⟩

lemma keys_of_memberValues? {members : List (String × Json)}
    (h : memberValues? embedded depth members = some values) :
    Entries.keys values = Entries.keys members := by
  induction members generalizing values with
  | nil =>
    cases h
    rfl
  | cons member rest ih =>
    simp only [memberValues?, Option.bind_eq_bind, Option.bind_eq_some_iff,
      Option.some.injEq] at h
    obtain ⟨value, -, others, hothers, rfl⟩ := h
    rw [Entries.keys_cons, ih hothers, Entries.keys_cons]

lemma not_isEmbedding_of_ofJson? {j : Json}
    (hembedded : ∀ {text w}, embedded text = some w → ¬w.IsEmbedding)
    (h : ofJson? embedded depth j = some v) : ¬v.IsEmbedding := by
  rintro ⟨item, hv⟩
  cases j with
  | object members =>
    obtain ⟨text, -, htext⟩ | ⟨hkey, depth', values, rfl, hvalues, rfl⟩ := ofJson?_object_eq_some h
    · exact hembedded htext ⟨item, hv⟩
    · -- the first key is one of the value's, whose only key is that of embeddings
      have hkeys : Entries.keys (putMembers [] values) = [embedKey] := by
        rw [ofMembers] at hv
        simp [Json.object.inj hv]
      cases members with
      | nil =>
        cases hvalues
        cases hkeys
      | cons member rest =>
        have hmem : member.1 ∈ Entries.keys (putMembers [] values) :=
          mem_keys_putMembers (.inr (by simp [keys_of_memberValues? hvalues]))
        rw [hkeys, mem_singleton] at hmem
        simp [isEmbedding, hmem] at hkey
  | array items =>
    obtain ⟨depth', values, rfl, -, rfl⟩ := ofJson?_array_eq_some h
    cases hv
  | unreadable => cases h
  | _ =>
    cases h
    cases hv

/-- No value of a text is an object with the key of embeddings alone. -/
lemma not_isEmbedding_of_ofTextWithin? {levels : Nat} {text : String}
    (h : ofTextWithin? levels text = some v) : ¬v.IsEmbedding := by
  induction levels generalizing text v with
  | zero => cases h
  | succ levels ih =>
    rw [ofTextWithin?] at h
    obtain ⟨j, -, hj⟩ := Option.bind_eq_some_iff.1 h
    exact not_isEmbedding_of_ofJson? ih hj

/-- Members that are put into an object as they were given had come in ascending order. -/
lemma trees_eq_of_json {members : List (String × Json)}
    (hvalues : memberValues? embedded depth members = some values)
    (h : (ofMembers values).json = .object members) : trees values = members := by
  have hnormal : (Json.object members).isNormal = true := h ▸ (ofMembers values).normal
  have hpairwise : (Entries.keys members).Pairwise (· < ·) :=
    (Json.pairwise_of_normalMembers hnormal).map Prod.fst fun _ _ => id
  rw [← keys_of_memberValues? hvalues, Entries.keys, pairwise_map] at hpairwise
  exact Json.object.inj ((json_ofMembers hpairwise).symm.trans h)

mutual

lemma fits_of_ofJson? (hembedded : ∀ {text w}, embedded text = some w → ¬w.IsEmbedding) :
    (depth : Nat) → (j : Json) → {v : Value} → ofJson? embedded depth j = some v → v.json = j →
      j.fits depth = true
  | _, .null, _, _, _ => rfl
  | _, .bool _, _, _, _ => rfl
  | _, .number _, _, _, _ => rfl
  | _, .string _, _, _, _ => rfl
  | depth, .array items, v, h, hv => by
    obtain ⟨depth', values, rfl, hvalues, rfl⟩ := ofJson?_array_eq_some h
    exact itemsFit_of_itemValues? hembedded depth' items hvalues (Json.array.inj hv)
  | depth, .object members, v, h, hv => by
    obtain ⟨text, rfl, htext⟩ | ⟨hkey, depth', values, rfl, hvalues, rfl⟩ :=
      ofJson?_object_eq_some h
    · exact absurd ⟨_, hv⟩ (hembedded htext)
    · rw [Json.fits, hkey]
      exact membersFit_of_memberValues? hembedded depth' members hvalues
        (trees_eq_of_json hvalues hv)

lemma itemsFit_of_itemValues? (hembedded : ∀ {text w}, embedded text = some w → ¬w.IsEmbedding) :
    (depth : Nat) → (items : List Json) → {values : List Value} →
      itemValues? embedded depth items = some values → values.map json = items →
      Json.itemsFit depth items = true
  | _, [], _, _, _ => rfl
  | depth, item :: rest, values, h, hvalues => by
    simp only [itemValues?, Option.bind_eq_bind, Option.bind_eq_some_iff,
      Option.some.injEq] at h
    obtain ⟨value, hvalue, others, hothers, rfl⟩ := h
    obtain ⟨hitem, hrest⟩ := cons.inj hvalues
    rw [Json.itemsFit, fits_of_ofJson? hembedded depth item hvalue hitem,
      itemsFit_of_itemValues? hembedded depth rest hothers hrest]
    rfl

lemma membersFit_of_memberValues?
    (hembedded : ∀ {text w}, embedded text = some w → ¬w.IsEmbedding) :
    (depth : Nat) → (members : List (String × Json)) → {values : List (String × Value)} →
      memberValues? embedded depth members = some values → trees values = members →
      Json.membersFit depth members = true
  | _, [], _, _, _ => rfl
  | depth, (key, item) :: rest, values, h, hvalues => by
    simp only [memberValues?, Option.bind_eq_bind, Option.bind_eq_some_iff,
      Option.some.injEq] at h
    obtain ⟨value, hvalue, others, hothers, rfl⟩ := h
    obtain ⟨hitem, hrest⟩ := cons.inj hvalues
    rw [Json.membersFit, fits_of_ofJson? hembedded depth item hvalue (congrArg Prod.snd hitem),
      membersFit_of_memberValues? hembedded depth rest hothers hrest]
    rfl

end

/-- A value is read back from its tree exactly if it fits. -/
theorem decode_json_iff : Decode.value depth v.json = some v ↔ v.json.fits depth = true :=
  ⟨fun h => fits_of_ofJson? not_isEmbedding_of_ofTextWithin? depth v.json h rfl,
    ofJson?_of_fits ofText? depth v.json v.normal⟩

end Value

end PageRender

import Mathlib.Data.List.Nodup
import PageRender.Proofs.Dict
import PageRender.Proofs.Json.Values

/-!
# Records that read back

What is written for a record has its members under the names of its fields and in their order, each
at most once. So no member is ignored and none is refused, and a field is decoded from what was
written for it. A field that was left out is decoded to the value that stands for its absence.
-/

namespace PageRender

open List

variable {α β : Type}

/-! ### Dictionaries -/

lemma Dict.entries_insertAll {entries : List (String × α)} (d : Dict α)
    (h : (Entries.keys (d.entries ++ entries)).Nodup) :
    (d.insertAll entries).entries = d.entries ++ entries := by
  induction entries generalizing d with
  | nil => simp [insertAll]
  | cons entry rest ih =>
    have hnew : entry.1 ∉ Entries.keys d.entries := by
      simp only [Entries.keys, map_append, map_cons, nodup_middle, nodup_cons, mem_append] at h
      exact fun hkey => h.1 (.inl hkey)
    have hinsert : (d.insert entry.1 entry.2).entries = d.entries ++ [entry] :=
      entries_insert_of_not_mem hnew
    have := ih (d.insert entry.1 entry.2) (by simpa [hinsert] using h)
    simpa [insertAll, hinsert] using this

lemma Dict.eq_empty_of_isEmpty {d : Dict α} (h : d.isEmpty = true) : d = empty := by
  obtain ⟨entries, hnodup⟩ := d
  cases isEmpty_iff.1 h
  rfl

lemma Dict.ofList_entries (d : Dict α) : Dict.ofList d.entries = d := by
  have h : (ofList d.entries).entries = d.entries := entries_insertAll empty d.nodup
  generalize ofList d.entries = e at h
  cases d
  cases e
  cases h
  rfl

namespace Decode

/-! ### Lists and dictionaries -/

lemma mapM_map_eq_some {f : α → β} {g : β → Option α} {items : List α}
    (h : ∀ a ∈ items, g (f a) = some a) : (items.map f).mapM g = some items := by
  induction items with
  | nil => rfl
  | cons a rest ih =>
    obtain ⟨ha, hrest⟩ := forall_mem_cons.1 h
    simp [ha, ih hrest]

variable {decode : Decoder α} {encode : α → Json} {depth : Nat}

lemma list_encode {items : List α} (h : ∀ a ∈ items, decode depth (encode a) = some a) :
    list decode (depth + 1) (Encode.list encode items) = some items :=
  mapM_map_eq_some h

lemma dict_encode {d : Dict α} (h : ∀ a ∈ d.values, decode depth (encode a) = some a) :
    dict decode (depth + 1) (Encode.dict encode d) = some d := by
  have hmembers : (d.entries.map fun entry => (entry.1, encode entry.2)).mapM
      (member decode depth) = some d.entries := by
    refine mapM_map_eq_some fun entry hentry => ?_
    simp [member, h entry.2 (mem_map_of_mem hentry)]
  have hdict : dict decode (depth + 1) (Encode.dict encode d) = some (Dict.ofList d.entries) :=
    congrArg (Option.map Dict.ofList) hmembers
  rw [hdict, Dict.ofList_entries]

/-! ### The members of a record -/

lemma named?_eq_some {names : List String} {members : List (String × Json)}
    (h : (Entries.keys members).Nodup) (hnames : Entries.keys members ⊆ names) :
    named? names members = some members := by
  induction members with
  | nil => rfl
  | cons member rest ih =>
    obtain ⟨hnew, hrest⟩ := nodup_cons.1 h
    obtain ⟨hkey, hsubset⟩ := cons_subset.1 hnames
    have hother : member.1 ∉ rest.map Prod.fst := hnew
    simp [named?, ih hrest hsubset, hkey, hother]

/-- A record is decoded from all the members that are written for it. -/
lemma record_object {names : List String} {members : List (String × Json)}
    {fields : Nat → List (String × Json) → Option α} (hnames : names.Nodup)
    (h : Entries.keys members <+ names) :
    record names fields (depth + 1) (.object members) = fields depth members := by
  rw [record, slots?, named?_eq_some (h.nodup hnames) h.subset]
  rfl

/-! ### The fields of a record -/

variable {slots : List (String × Json)} {name : String} {j : Json} {a absent : α}

lemma required_of_lookup (hj : decode depth j = some a) (h : slots.lookup name = some j) :
    required depth slots name decode = some a := by
  rw [required, h, Option.bind_some, hj]

lemma optional_of_lookup (hj : decode depth j = some a) (h : slots.lookup name = some j) :
    optional depth slots name absent decode = some a := by
  rw [optional, h]
  exact hj

/-- A field that is left out just when it has the value that stands for its absence. -/
lemma optional_of_lookup_ite {b : Bool} (hj : decode depth j = some a)
    (habsent : b = true → absent = a) (h : slots.lookup name = if b then none else some j) :
    optional depth slots name absent decode = some a := by
  cases b with
  | false => exact optional_of_lookup hj (by simpa using h)
  | true => simp [optional, h, habsent rfl]

lemma optional_string {s : String}
    (h : slots.lookup name = if s.isEmpty then none else some (.string s)) :
    optional depth slots name "" string = some s :=
  optional_of_lookup_ite rfl (fun hs => (String.isEmpty_iff.1 hs).symm) h

lemma optional_of_lookup_map {o : Option α} (hnull : ∀ a, encode a ≠ .null)
    (hencode : ∀ a ∈ o, decode depth (encode a) = some a) (h : slots.lookup name = o.map encode) :
    optional depth slots name none (nullable decode) = some o := by
  cases o with
  | none => simp [optional, h]
  | some a =>
    refine optional_of_lookup ?_ (by simpa using h)
    rw [nullable, hencode a rfl]
    · rfl
    · exact hnull a

end Decode

namespace Encode

variable {name key : String} {names : List String} {encode : α → Json} {o : Option α} {j : Json}
  {s : String} {members rest : List (String × Json)}

/-! ### What is written for a field -/

lemma keys_append (h : Entries.keys members <+ [name])
    (hrest : Entries.keys rest <+ names) : Entries.keys (members ++ rest) <+ name :: names := by
  simpa [Entries.keys] using h.append hrest

lemma keys_field : Entries.keys (field name j) <+ [name] :=
  Sublist.refl _

lemma keys_present : Entries.keys (present name encode o) <+ [name] := by
  cases o with
  | none => exact nil_sublist _
  | some a => exact Sublist.refl _

lemma keys_unless {b : Bool} (h : Entries.keys members <+ [name]) :
    Entries.keys (if b then [] else members) <+ [name] := by
  cases b with
  | false => exact h
  | true => exact nil_sublist _

lemma keys_nonempty : Entries.keys (nonempty name s) <+ [name] :=
  keys_unless (Sublist.refl _)

attribute [simp] List.lookup_append

@[simp] lemma lookup_field : (field name j).lookup key = if key = name then some j else none := by
  simp [field, Entries.lookup_cons]

@[simp] lemma lookup_present :
    (present name encode o).lookup key = if key = name then o.map encode else none := by
  cases o <;> simp [present, Entries.lookup_cons]

@[simp] lemma lookup_unless {p : Prop} [Decidable p] : (if p then [] else members).lookup key =
    if p then none else members.lookup key := by
  split <;> rfl

@[simp] lemma lookup_nonempty : (nonempty name s).lookup key =
    if key = name then if s.isEmpty then none else some (.string s) else none := by
  by_cases hs : s.isEmpty <;> simp [nonempty, hs, Entries.lookup_cons]

end Encode

end PageRender

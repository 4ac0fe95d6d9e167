/-!
# Dictionaries in insertion order

A finite map from texts that remembers the order in which its keys came. Writing to a key that is
there keeps its place, a new key goes to the end, and removing one closes the gap. No key occurs
twice.

The operations are defined on lists of entries; `Dict` adds the invariant.
-/

namespace PageRender

variable {α β : Type}

/-- Two optional things are both absent, or both there and the same. -/
def sameOption (same : α → α → Bool) : Option α → Option α → Bool
  | none, none => true
  | some a, some b => same a b
  | _, _ => false

/-! ### Lists of entries -/

namespace Entries

/-- The keys of the entries, in order. -/
def keys (entries : List (String × α)) : List String :=
  entries.map Prod.fst

/-- Write a value to a key: in its place if it is there, else at the end. -/
def put (key : String) (value : α) : List (String × α) → List (String × α)
  | [] => [(key, value)]
  | (k, v) :: rest => if k = key then (key, value) :: rest else (k, v) :: put key value rest

/-- Remove the entries of a key. -/
def drop (key : String) (entries : List (String × α)) : List (String × α) :=
  entries.filter fun entry => entry.1 ≠ key

@[simp] theorem keys_nil : keys ([] : List (String × α)) = [] := rfl

@[simp] theorem keys_cons (entry : String × α) (rest : List (String × α)) :
    keys (entry :: rest) = entry.1 :: keys rest := rfl

theorem keys_put (key : String) (value : α) (entries : List (String × α)) :
    keys (put key value entries) =
      if key ∈ keys entries then keys entries else keys entries ++ [key] := by
  induction entries with
  | nil => simp [put]
  | cons entry rest ih =>
    obtain ⟨k, v⟩ := entry
    by_cases hk : k = key
    · simp [put, hk]
    · have hk' : ¬key = k := fun h => hk h.symm
      by_cases hr : key ∈ keys rest <;> simp [put, hk, hk', hr, ih]

theorem nodup_keys_put {entries : List (String × α)} (h : (keys entries).Nodup) (key : String)
    (value : α) : (keys (put key value entries)).Nodup := by
  rw [keys_put]
  split
  · exact h
  · next hk =>
    rw [List.nodup_append]
    exact ⟨h, by simp, fun a ha b hb => by
      simp only [List.mem_singleton] at hb
      exact fun hab => hk (hb ▸ hab ▸ ha)⟩

theorem nodup_keys_drop {entries : List (String × α)} (h : (keys entries).Nodup) (key : String) :
    (keys (drop key entries)).Nodup :=
  h.sublist (List.filter_sublist.map Prod.fst)

theorem lookup_cons (key : String) (entry : String × α) (rest : List (String × α)) :
    (entry :: rest).lookup key = if key = entry.1 then some entry.2 else rest.lookup key := by
  rw [List.lookup_cons]
  by_cases h : key = entry.1 <;> simp [h, beq_eq_false_iff_ne.2]

theorem isSome_lookup (key : String) (entries : List (String × α)) :
    (entries.lookup key).isSome = true ↔ key ∈ keys entries := by
  induction entries with
  | nil => simp
  | cons entry rest ih => by_cases h : key = entry.1 <;> simp [lookup_cons, h, ih]

theorem lookup_put (key other : String) (value : α) (entries : List (String × α)) :
    (put key value entries).lookup other =
      if other = key then some value else entries.lookup other := by
  induction entries with
  | nil => simp [put, lookup_cons]
  | cons entry rest ih =>
    obtain ⟨k, v⟩ := entry
    by_cases hk : k = key
    · by_cases ho : other = key <;> simp [put, hk, ho, lookup_cons]
    · by_cases ho : other = key <;> simp_all [put, lookup_cons, eq_comm]

theorem lookup_drop (key other : String) (entries : List (String × α)) :
    (drop key entries).lookup other = if other = key then none else entries.lookup other := by
  induction entries with
  | nil => simp [drop]
  | cons entry rest ih =>
    obtain ⟨k, v⟩ := entry
    by_cases hk : k = key
    · have h : drop key ((k, v) :: rest) = drop key rest := by simp [drop, hk]
      rw [h, ih]
      by_cases ho : other = key <;> simp [ho, hk, lookup_cons]
    · have h : drop key ((k, v) :: rest) = (k, v) :: drop key rest := by simp [drop, hk]
      rw [h, lookup_cons, lookup_cons, ih]
      by_cases ho : other = key <;> simp [ho, Ne.symm hk]

theorem keys_drop (key : String) (entries : List (String × α)) :
    keys (drop key entries) = (keys entries).filter (· ≠ key) := by
  simp [keys, drop, List.filter_map, Function.comp_def]

/-- Entries whose keys are distinct are determined by their keys, in order, and by what each key
has. -/
theorem eq_of_lookup {l l' : List (String × α)} (hkeys : keys l = keys l') (hl : (keys l).Nodup)
    (h : ∀ key, l.lookup key = l'.lookup key) : l = l' := by
  induction l generalizing l' with
  | nil => exact (List.map_eq_nil_iff.mp hkeys.symm).symm
  | cons entry rest ih =>
    cases l' with
    | nil => cases hkeys
    | cons entry' rest' =>
      obtain ⟨hkey, hrest⟩ : entry.1 = entry'.1 ∧ keys rest = keys rest' := List.cons.inj hkeys
      obtain ⟨hnot, hnodup⟩ := List.nodup_cons.mp hl
      have hvalue : entry.2 = entry'.2 := by simpa [lookup_cons, ← hkey] using h entry.1
      have htail (key : String) : rest.lookup key = rest'.lookup key := by
        by_cases hother : key = entry.1
        · have hnone (l : List (String × α)) (hl : entry.1 ∉ keys l) : l.lookup entry.1 = none := by
            rwa [← Option.not_isSome_iff_eq_none, isSome_lookup]
          rw [hother, hnone rest hnot, hnone rest' (hrest ▸ hnot)]
        · simpa [lookup_cons, ← hkey, hother] using h key
      rw [Prod.ext hkey hvalue, ih hrest hnodup htail]

theorem lookup_map (key : String) (f : String → α → β) (entries : List (String × α)) :
    (entries.map fun entry => (entry.1, f entry.1 entry.2)).lookup key =
      (entries.lookup key).map (f key) := by
  induction entries with
  | nil => rfl
  | cons entry rest ih => by_cases h : key = entry.1 <;> simp [lookup_cons, h, ih]

end Entries

/-! ### Dictionaries -/

/-- Entries in the order in which their keys came, each key once. -/
structure Dict (α : Type) where
  entries : List (String × α)
  nodup : (Entries.keys entries).Nodup
deriving DecidableEq

namespace Dict

/-- The dictionary without entries. -/
def empty : Dict α := ⟨[], List.nodup_nil⟩

instance : Inhabited (Dict α) := ⟨empty⟩

instance : EmptyCollection (Dict α) := ⟨empty⟩

/-- The keys in order. -/
def keys (d : Dict α) : List String :=
  Entries.keys d.entries

/-- The values in the order of their keys. -/
def values (d : Dict α) : List α :=
  d.entries.map Prod.snd

/-- The number of entries. -/
def size (d : Dict α) : Nat :=
  d.entries.length

/-- Whether there is no entry. -/
def isEmpty (d : Dict α) : Bool :=
  d.entries.isEmpty

/-- The value of a key. -/
def get? (d : Dict α) (key : String) : Option α :=
  d.entries.lookup key

/-- Whether a key has a value. -/
def contains (d : Dict α) (key : String) : Bool :=
  (d.get? key).isSome

/-- Write a value to a key, keeping its place if it is there. -/
def insert (d : Dict α) (key : String) (value : α) : Dict α :=
  ⟨Entries.put key value d.entries, Entries.nodup_keys_put d.nodup key value⟩

/-- Remove a key. The order of the others stays. -/
def erase (d : Dict α) (key : String) : Dict α :=
  ⟨Entries.drop key d.entries, Entries.nodup_keys_drop d.nodup key⟩

/-- Write entries one after the other. -/
def insertAll (d : Dict α) (entries : List (String × α)) : Dict α :=
  entries.foldl (fun d entry => d.insert entry.1 entry.2) d

/-- The dictionary of a list of entries: a repeated key keeps its first place and its last
value. -/
def ofList (entries : List (String × α)) : Dict α :=
  empty.insertAll entries

/-- Change every value, given its key. -/
def map (d : Dict α) (f : String → α → β) : Dict β where
  entries := d.entries.map fun entry => (entry.1, f entry.1 entry.2)
  nodup := by
    have h := d.nodup
    simpa [Entries.keys, Function.comp_def] using h

/-- Two dictionaries have the same keys and, at each, the same value. Their order does not
count. -/
def sameBy (same : α → α → Bool) (d e : Dict α) : Bool :=
  d.size = e.size && d.entries.all fun (key, value) =>
    match e.get? key with
    | some other => same value other
    | none => false

/-! ### Keys and values after each operation -/

@[simp] theorem keys_empty : (empty : Dict α).keys = [] := rfl

theorem keys_insert (d : Dict α) (key : String) (value : α) :
    (d.insert key value).keys = if key ∈ d.keys then d.keys else d.keys ++ [key] :=
  Entries.keys_put key value d.entries

theorem keys_erase (d : Dict α) (key : String) :
    (d.erase key).keys = d.keys.filter (· ≠ key) :=
  Entries.keys_drop key d.entries

@[simp] theorem keys_map (d : Dict α) (f : String → α → β) : (d.map f).keys = d.keys := by
  simp [keys, map, Entries.keys, Function.comp_def]

@[simp] theorem get?_empty (key : String) : (empty : Dict α).get? key = none := rfl

theorem contains_iff (d : Dict α) (key : String) : d.contains key = true ↔ key ∈ d.keys :=
  Entries.isSome_lookup key d.entries

theorem eq_of_get? {d e : Dict α} (hkeys : d.keys = e.keys) (h : ∀ key, d.get? key = e.get? key) :
    d = e := by
  have hentries : d.entries = e.entries := Entries.eq_of_lookup hkeys d.nodup h
  cases d
  cases e
  cases hentries
  rfl

theorem mem_keys_of_get? {d : Dict α} {key : String} {value : α} (h : d.get? key = some value) :
    key ∈ d.keys := by
  rw [← contains_iff, contains, h]
  rfl

theorem get?_insert (d : Dict α) (key other : String) (value : α) :
    (d.insert key value).get? other = if other = key then some value else d.get? other :=
  Entries.lookup_put key other value d.entries

theorem get?_erase (d : Dict α) (key other : String) :
    (d.erase key).get? other = if other = key then none else d.get? other :=
  Entries.lookup_drop key other d.entries

@[simp] theorem get?_map (d : Dict α) (f : String → α → β) (key : String) :
    (d.map f).get? key = (d.get? key).map (f key) :=
  Entries.lookup_map key f d.entries

end Dict

end PageRender

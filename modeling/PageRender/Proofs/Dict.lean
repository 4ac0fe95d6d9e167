import Mathlib.Data.List.Basic
import PageRender.Dict

/-!
# Writing many entries to a dictionary

Entries that are written one after the other leave a dictionary with the keys that it had, in their
places, followed by those that are new, in the order in which they first came.
-/

namespace PageRender

open List

variable {α : Type}

/-- Repetitions may be left out before or after a choice. -/
lemma eraseDups_filter [BEq α] [LawfulBEq α] (p : α → Bool) (l : List α) :
    (l.filter p).eraseDups = l.eraseDups.filter p := by
  match l with
  | [] => rfl
  | a :: l =>
    have hrest : ((l.filter fun b => !b == a).filter p).eraseDups =
        (l.filter fun b => !b == a).eraseDups.filter p := eraseDups_filter p _
    by_cases ha : p a
    · rw [filter_cons_of_pos ha, eraseDups_cons, eraseDups_cons, filter_cons_of_pos ha, ← hrest,
        filter_comm]
    · rw [filter_cons_of_neg ha, eraseDups_cons, filter_cons_of_neg ha, ← hrest, filter_filter]
      congr 1
      apply filter_congr
      intro b _
      by_cases hb : b = a
      · simp [hb, ha]
      · simp [hb]
termination_by l.length
decreasing_by exact Nat.lt_succ_of_le (length_filter_le _ l)

/-- Of entries whose keys are distinct, each is found at its key. -/
lemma lookup_eq_some_iff_mem {β : Type} [BEq α] [LawfulBEq α] {k : α} {v : β} {l : List (α × β)}
    (h : (l.map Prod.fst).Nodup) : l.lookup k = some v ↔ (k, v) ∈ l := by
  induction l with
  | nil => simp
  | cons entry l ih =>
    obtain ⟨k', v'⟩ := entry
    obtain ⟨hnot, hl⟩ := nodup_cons.mp h
    rw [lookup_cons, mem_cons, Prod.mk.injEq]
    by_cases hk : k = k'
    · subst hk
      have hrest : (k, v) ∉ l := fun hmem => hnot (mem_map.mpr ⟨(k, v), hmem, rfl⟩)
      simp [hrest, eq_comm]
    · simp [beq_eq_false_iff_ne.mpr hk, hk, ih hl]

namespace Entries

variable {key : String} {value : α} {entries : List (String × α)}

/-- A new key goes to the end. -/
lemma put_of_not_mem (h : key ∉ keys entries) :
    put key value entries = entries ++ [(key, value)] := by
  induction entries with
  | nil => rfl
  | cons entry entries ih =>
    obtain ⟨hkey, hrest⟩ := not_or.mp (mem_cons.not.mp h)
    rw [put, if_neg (Ne.symm hkey), ih hrest]
    rfl

end Entries

namespace Dict

variable {d : Dict α} {key : String} {value : α} {entries : List (String × α)}

lemma mem_keys_iff : key ∈ d.keys ↔ ∃ value, d.get? key = some value := by
  rw [← contains_iff, contains, Option.isSome_iff_exists]

lemma mem_entries_iff : (key, value) ∈ d.entries ↔ d.get? key = some value :=
  (lookup_eq_some_iff_mem d.nodup).symm

lemma entries_insert_of_not_mem (h : key ∉ d.keys) :
    (d.insert key value).entries = d.entries ++ [(key, value)] :=
  Entries.put_of_not_mem h

@[simp] lemma insertAll_nil (d : Dict α) : d.insertAll [] = d := rfl

lemma insertAll_cons (d : Dict α) (entry : String × α) (entries : List (String × α)) :
    d.insertAll (entry :: entries) = (d.insert entry.1 entry.2).insertAll entries := rfl

/-- Keys keep their places, and new ones come in the order of their first entries. -/
lemma keys_insertAll (d : Dict α) (entries : List (String × α)) : (d.insertAll entries).keys =
    d.keys ++ (entries.map Prod.fst).eraseDups.filter (· ∉ d.keys) := by
  induction entries generalizing d with
  | nil => simp
  | cons entry entries ih =>
    rw [insertAll_cons, ih, keys_insert, map_cons, eraseDups_cons, eraseDups_filter]
    by_cases hkey : entry.1 ∈ d.keys
    · rw [if_pos hkey, filter_cons_of_neg (by simpa using hkey), filter_filter]
      congr 1
      apply filter_congr
      intro key _
      by_cases hsame : key = entry.1
      · simp [hsame, hkey]
      · simp [hsame]
    · rw [if_neg hkey, filter_cons_of_pos (by simpa using hkey), filter_filter, append_assoc,
        singleton_append]
      congr 2
      apply filter_congr
      intro key _
      by_cases hsame : key = entry.1 <;> simp [hsame]

/-- Of the entries of one key the last counts, and it counts before what was there. -/
lemma get?_insertAll (d : Dict α) (entries : List (String × α)) (key : String) :
    (d.insertAll entries).get? key = (entries.reverse.lookup key).or (d.get? key) := by
  induction entries generalizing d with
  | nil => rfl
  | cons entry entries ih =>
    rw [insertAll_cons, ih, get?_insert, reverse_cons, lookup_append, Option.or_assoc,
      Entries.lookup_cons]
    by_cases hkey : key = entry.1 <;> simp [hkey]

lemma get?_ofList (entries : List (String × α)) (key : String) :
    (ofList entries).get? key = entries.reverse.lookup key := by
  rw [ofList, get?_insertAll, get?_empty, Option.or_none]

end Dict

end PageRender

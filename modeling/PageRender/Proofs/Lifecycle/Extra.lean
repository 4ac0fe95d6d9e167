import PageRender.Lifecycle.Extra
import PageRender.Proofs.Dict
import PageRender.Proofs.Json.Values

/-!
# Extra entries that are moved up

Flattening takes the object of extra entries out of a container and appends those of its members
whose keys the other entries leave free. So at each key the other entries come first and the members
of the object second, and a member that is itself called `extra` is found where the object was:
`Fields.get?_flattenExtra`. A container is thus left as it is exactly if it has no such object.
-/

namespace PageRender

open List

namespace Fields

variable {fields : Fields} {members : List (String × Value)}

/-- The extra entries of a container, if there is an object of them. -/
def extraMembers? (fields : Fields) : Option (List (String × Value)) :=
  (fields.get? extraKey).bind Value.members?

/-- The extra entry of a key. -/
def extra? (fields : Fields) (key : String) : Option Value :=
  fields.extraMembers?.bind (·.lookup key)

lemma flattenExtra_of_none (h : fields.extraMembers? = none) :
    fields.flattenExtra = (fields, 0) := by
  rw [extraMembers?] at h
  rw [flattenExtra, h]

lemma flattenExtra_of_some (h : fields.extraMembers? = some members) :
    fields.flattenExtra = appendNew (fields.erase extraKey) members := by
  rw [extraMembers?] at h
  rw [flattenExtra, h]

/-! ### Appending what is new -/

lemma appendNew_cons_of_mem {member : String × Value} (h : member.1 ∈ fields.keys) :
    fields.appendNew (member :: members) = fields.appendNew members := by
  rw [appendNew, if_pos ((fields.contains_iff _).mpr h)]

lemma appendNew_cons_of_not_mem {member : String × Value} (h : member.1 ∉ fields.keys) :
    fields.appendNew (member :: members) =
      ((appendNew (fields.insert member.1 member.2) members).1,
        (appendNew (fields.insert member.1 member.2) members).2 + 1) := by
  rw [appendNew, if_neg (by rwa [fields.contains_iff])]

/-- Members whose keys are distinct are appended in order, without those whose keys are there. -/
lemma appendNew_eq (fields : Fields) (h : (Entries.keys members).Nodup) :
    (fields.appendNew members).1.entries =
        fields.entries ++ members.filter (·.1 ∉ fields.keys) ∧
      (fields.appendNew members).2 = (members.filter (·.1 ∉ fields.keys)).length := by
  induction members generalizing fields with
  | nil => exact ⟨(append_nil _).symm, rfl⟩
  | cons member members ih =>
    obtain ⟨hnot, hnodup⟩ := nodup_cons.mp h
    by_cases hkey : member.1 ∈ fields.keys
    · rw [appendNew_cons_of_mem hkey, filter_cons_of_neg (by simpa using hkey)]
      exact ih fields hnodup
    · have hfilter : members.filter (·.1 ∉ (fields.insert member.1 member.2).keys) =
          members.filter (·.1 ∉ fields.keys) := by
        apply filter_congr
        intro m hm
        have hne : m.1 ≠ member.1 := fun heq => hnot (heq ▸ mem_map_of_mem hm)
        simp [Dict.keys_insert, hkey, hne]
      obtain ⟨hentries, hcount⟩ := ih (fields.insert member.1 member.2) hnodup
      rw [hfilter] at hentries hcount
      rw [appendNew_cons_of_not_mem hkey, filter_cons_of_pos (by simpa using hkey)]
      constructor
      · rw [hentries, Dict.entries_insert_of_not_mem hkey, append_assoc]
        rfl
      · exact congrArg (· + 1) hcount

lemma get?_appendNew (fields : Fields) (members : List (String × Value)) (key : String) :
    (fields.appendNew members).1.get? key = (fields.get? key).or (members.lookup key) := by
  induction members generalizing fields with
  | nil => exact Option.or_none.symm
  | cons member members ih =>
    rw [Entries.lookup_cons]
    by_cases hkey : member.1 ∈ fields.keys
    · rw [appendNew_cons_of_mem hkey, ih]
      by_cases hsame : key = member.1
      · obtain ⟨v, hv⟩ := Option.isSome_iff_exists.mp ((fields.contains_iff _).mpr hkey)
        rw [hsame, hv, Option.some_or, Option.some_or]
      · rw [if_neg hsame]
    · rw [appendNew_cons_of_not_mem hkey, ih, Dict.get?_insert]
      by_cases hsame : key = member.1
      · have hnone : fields.get? member.1 = none := by
          rw [← Option.not_isSome_iff_eq_none]
          exact fun h => hkey ((fields.contains_iff _).mp h)
        rw [if_pos hsame, if_pos hsame, hsame, hnone, Option.some_or, Option.none_or]
      · rw [if_neg hsame, if_neg hsame]

/-! ### What is found after flattening -/

/-- At each key the other entries come before the extra ones. -/
lemma get?_flattenExtra (h : fields.extraMembers? = some members) (key : String) :
    fields.flattenExtra.1.get? key =
      (if key = extraKey then none else fields.get? key).or (members.lookup key) := by
  rw [flattenExtra_of_some h, get?_appendNew, Dict.get?_erase]

lemma get?_flattenExtra_of_ne {key : String} (hkey : key ≠ extraKey) :
    fields.flattenExtra.1.get? key = (fields.get? key).or (fields.extra? key) := by
  cases h : fields.extraMembers? with
  | none => rw [flattenExtra_of_none h, extra?, h, Option.bind_none, Option.or_none]
  | some members => rw [get?_flattenExtra h, if_neg hkey, extra?, h, Option.bind_some]

/-- After flattening there is an object of extra entries only if it was an extra entry itself. -/
lemma extraMembers?_flattenExtra :
    fields.flattenExtra.1.extraMembers? = (fields.extra? extraKey).bind Value.members? := by
  cases h : fields.extraMembers? with
  | none => rw [flattenExtra_of_none h, h, extra?, h, Option.bind_none, Option.bind_none]
  | some members =>
    rw [extraMembers?, get?_flattenExtra h, if_pos rfl, Option.none_or, extra?, h, Option.bind_some]

/-- A container whose extra entries are moved up does not stay as it is, since no object is a member
of itself. -/
lemma flattenExtra_eq_self_iff : fields.flattenExtra.1 = fields ↔ fields.extraMembers? = none := by
  constructor
  · intro heq
    by_contra hne
    obtain ⟨members, hmembers⟩ := Option.ne_none_iff_exists'.mp hne
    obtain ⟨v, hv, hobject⟩ := Option.bind_eq_some_iff.mp hmembers
    have hlookup : members.lookup extraKey = some v := by
      have hget := get?_flattenExtra hmembers extraKey
      rwa [heq, hv, if_pos rfl, Option.none_or, eq_comm] at hget
    have hmem : (extraKey, v) ∈ members :=
      (lookup_eq_some_iff_mem (Value.nodup_of_members? hobject)).mp hlookup
    exact Nat.lt_irrefl _ (Value.sizeOf_lt_of_members? hobject hmem)
  · intro h
    rw [flattenExtra_of_none h]

/-- A container without an object of extra entries stays as it is. Otherwise the other entries come
first, as they were and in their order, and after them, in the order of their keys, the members of
the object whose keys are none of the others', so that nothing that was there is overwritten. -/
theorem extra_entries_move_up (fields : Fields) :
    ((∀ value tree, fields.get? extraKey = some value → value.json ≠ .object tree) →
      fields.flattenExtra = (fields, 0)) ∧
    ∀ value tree, fields.get? extraKey = some value → value.json = .object tree →
      let others := fields.entries.filter fun entry => entry.1 ≠ extraKey
      (tree.Pairwise fun member member' => member.1 < member'.1) ∧
      ∃ moved, fields.flattenExtra.1.entries = others ++ moved ∧
        Value.trees moved = tree.filter (fun member => member.1 ∉ Entries.keys others) ∧
        fields.flattenExtra.2 = moved.length ∧
        ∀ key old, key ≠ extraKey → fields.get? key = some old →
          fields.flattenExtra.1.get? key = some old := by
  constructor
  · intro hnot
    refine flattenExtra_of_none (Option.eq_none_iff_forall_ne_some.mpr fun members hmembers => ?_)
    obtain ⟨value, hvalue, hobject⟩ := Option.bind_eq_some_iff.mp hmembers
    exact hnot value _ hvalue (Value.members?_eq_some_iff.mp hobject)
  · intro value tree hvalue htree others
    obtain ⟨members, hobject, rfl⟩ := Value.exists_members?_of_json htree
    have hmembers : fields.extraMembers? = some members :=
      Option.bind_eq_some_iff.mpr ⟨value, hvalue, hobject⟩
    obtain ⟨hentries, hcount⟩ :=
      appendNew_eq (fields.erase extraKey) (Value.nodup_of_members? hobject)
    rw [← flattenExtra_of_some hmembers] at hentries hcount
    refine ⟨Value.pairwise_of_members? hobject, _, hentries, ?_, hcount, ?_⟩
    · rw [Value.trees, Value.trees, filter_map]
      rfl
    · intro key old hkey hold
      rw [get?_flattenExtra_of_ne hkey, hold, Option.some_or]

/-- Of three extra entries one is lost, since there are rows already. The others follow the page,
and one of them is called `extra` itself. -/
theorem extra_entries_move_up_rows :
    let rows := Value.ofList []
    let extra := Value.ofMembers [("total", .ofBool true), ("rows", .null), ("extra", .null)]
    let fields : Fields := .ofList [("rows", rows), ("extra", extra), ("page", .null)]
    fields.get? extraKey = some extra ∧ (∃ tree, extra.json = .object tree) ∧
      fields.flattenExtra.1.keys = ["rows", "page", "extra", "total"] ∧
      fields.flattenExtra.2 = 2 ∧ fields.flattenExtra.1.get? "rows" = some rows := by
  intro rows extra fields
  obtain ⟨-, moved, hentries, hmoved, hcount, hkept⟩ :=
    (extra_entries_move_up fields).2 extra _ rfl rfl
  have hkeys : Entries.keys moved = ["extra", "total"] := by
    rw [← Value.keys_trees, hmoved]
    decide
  refine ⟨rfl, ⟨_, rfl⟩, ?_, ?_, hkept "rows" rows (by decide) rfl⟩
  · rw [Dict.keys, hentries, Entries.keys, map_append]
    exact congrArg (["rows", "page"] ++ ·) hkeys
  · rw [hcount]
    simpa [Entries.keys] using congrArg length hkeys

end Fields

end PageRender

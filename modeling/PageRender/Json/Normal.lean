import PageRender.Json.Basic

/-!
# Normal trees

A tree is normal if it is readable throughout and the members of every object are in strictly
ascending order of their keys, which is the order of their UTF-8 bytes. The members of an object are
written one after the other, each to its place in the order: `normalMembers_putMember`.
-/

namespace PageRender

namespace Json

mutual

/-- Whether a tree is normal. -/
def isNormal : Json → Bool
  | .array items => normalItems items
  | .object members => normalMembers members
  | .unreadable => false
  | _ => true

/-- Whether all items are normal. -/
def normalItems : List Json → Bool
  | [] => true
  | item :: rest => item.isNormal && normalItems rest

/-- Whether all members are normal and in ascending order. -/
def normalMembers : List (String × Json) → Bool
  | [] => true
  | (key, item) :: rest =>
    item.isNormal && normalMembers rest && rest.all fun member => decide (key < member.1)

end

/-- Write a member to an ordered object: to its place in the order, or over the member that has its
key. -/
def putMember (key : String) (item : Json) : List (String × Json) → List (String × Json)
  | [] => [(key, item)]
  | (k, other) :: rest =>
    if key < k then (key, item) :: (k, other) :: rest
    else if key = k then (key, item) :: rest
    else (k, other) :: putMember key item rest

/-! ### Writing a member keeps an object normal -/

theorem mem_putMember {key : String} {item : Json} {member : String × Json}
    {members : List (String × Json)} (h : member ∈ putMember key item members) :
    member = (key, item) ∨ member ∈ members := by
  induction members with
  | nil => simpa [putMember] using h
  | cons first rest ih =>
    obtain ⟨k, other⟩ := first
    simp only [putMember] at h
    split at h
    · simpa using h
    · split at h
      · simp only [List.mem_cons] at h ⊢
        rcases h with h | h
        · exact .inl h
        · exact .inr (.inr h)
      · simp only [List.mem_cons] at h ⊢
        rcases h with h | h
        · exact .inr (.inl h)
        · exact (ih h).imp id .inr

theorem normalMembers_putMember {key : String} {item : Json} {members : List (String × Json)}
    (hitem : item.isNormal = true) (h : normalMembers members = true) :
    normalMembers (putMember key item members) = true := by
  induction members with
  | nil => simp [putMember, normalMembers, hitem]
  | cons first rest ih =>
    obtain ⟨k, other⟩ := first
    simp only [normalMembers, Bool.and_eq_true, List.all_eq_true, decide_eq_true_eq] at h
    obtain ⟨⟨hother, hrest⟩, hlt⟩ := h
    simp only [putMember]
    split
    · next hk =>
      simp only [normalMembers, Bool.and_eq_true, List.all_eq_true, decide_eq_true_eq,
        List.mem_cons, hitem, hother, hrest, true_and]
      refine ⟨hlt, ?_⟩
      rintro member (rfl | hm)
      · exact hk
      · exact String.lt_trans hk (hlt member hm)
    · next hk =>
      split
      · next heq =>
        subst heq
        simp only [normalMembers, Bool.and_eq_true, List.all_eq_true, decide_eq_true_eq, hitem,
          hrest, true_and]
        exact hlt
      · next hne =>
        have hlt' : k < key := by
          refine Decidable.byContradiction fun h => hne ?_
          exact String.le_antisymm (String.not_lt.1 h) (String.not_lt.1 hk)
        simp only [normalMembers, Bool.and_eq_true, List.all_eq_true, decide_eq_true_eq, hother,
          ih hrest, true_and]
        intro member hm
        rcases mem_putMember hm with rfl | hm
        · exact hlt'
        · exact hlt member hm

end Json

end PageRender

import Zerver.UserGroups.Lifecycle

/-!
# Recursive membership

A user is in a group when a membership row joins the user to the group or to one of its
recursive subgroups.  This is what `is_user_in_group` and `get_user_group_member_ids` answer
without `direct_member_only`, and what a setting that names a group grants.  This module states it
once, as `EffectiveMember`, and shows what the endpoints that change members or subgroups do to it.

* **The reads answer it** (`isUserInGroup_iff_effectiveMember`, `mem_getUserGroupMemberIds_iff`):
  every membership row is of a group of the table, so the recursive reads, which walk group rows,
  miss no membership.
* **An add grants membership above the updated group only** (`effectiveMember_of_adds`): members
  added to `g`, or the members of subgroups added to `g`, become members of `g` and of every group
  that reaches `g`, and of no other group; nobody loses a membership.

## Design Notes

Both adds rest on one fact about closures (`reaches_iff_of_mem_iff`): with rows out of one group
`p` added, a path either stays in the old rows, or reaches `p` in them and leaves through a new
row.  The write lemmas of `Zerver.UserGroups.Members` and `Zerver.UserGroups.Subgroups` give the
rows after each view in that form, so no view is unfolded here beyond its transaction.
-/

namespace Zerver.UserGroups

/-- **`u` is in group `k`**: a membership row joins `u` to `k` or to a group `k` reaches. -/
def EffectiveMember (s : Store) (k u : Int) : Prop :=
  ∃ m, Reaches s.groupMemberships k m ∧ (m, u) ∈ s.memberships

section Reads

variable {s : Store}

/-- Recursive membership is a search of the membership rows with the computed closure. -/
theorem effectiveMember_iff_exists_row {k u : Int} :
    EffectiveMember s k u ↔
      ∃ m ∈ s.memberships, reaches s.groupMemberships k m.1 = true ∧ m.2 = u := by
  simp only [EffectiveMember, reaches_iff]
  constructor
  · rintro ⟨m, hr, hm⟩
    exact ⟨(m, u), hm, hr, rfl⟩
  · rintro ⟨⟨m, _⟩, hm, hr, rfl⟩
    exact ⟨m, hr, hm⟩

instance (s : Store) (k u : Int) : Decidable (EffectiveMember s k u) :=
  decidable_of_iff _ effectiveMember_iff_exists_row.symm

/-- **`is_user_in_group` without `direct_member_only` answers recursive membership**, since every
membership row is of a group of the table. -/
theorem isUserInGroup_iff_effectiveMember (hs : s.Schema) (userGroup : UserGroup)
    (user : UserProfile) :
    isUserInGroup s userGroup user false = true ↔ EffectiveMember s userGroup.id user.id := by
  simp only [isUserInGroup, Bool.false_eq_true, if_false, List.any_eq_true, decide_eq_true_eq,
    mem_recursiveSubgroupsOf, List.mem_singleton, exists_eq_left]
  constructor
  · rintro ⟨g, ⟨-, hr⟩, hm⟩
    exact ⟨g.id, hr, hm⟩
  · rintro ⟨m, hr, hm⟩
    obtain ⟨g, hg, rfl⟩ := hs.membershipGroup _ hm
    exact ⟨g, ⟨hg, hr⟩, hm⟩

/-- **`get_user_group_member_ids` without `direct_member_only`** lists the users of the table that
are in the group. -/
theorem mem_getUserGroupMemberIds_iff (hs : s.Schema) (userGroup : UserGroup) (userId : Int) :
    userId ∈ getUserGroupMemberIds s userGroup false ↔
      (∃ user ∈ s.users, user.id = userId) ∧ EffectiveMember s userGroup.id userId := by
  have hread : ∀ user : UserProfile, ((recursiveSubgroupsOf s [userGroup.id]).any fun g =>
      decide ((g.id, user.id) ∈ s.memberships)) = isUserInGroup s userGroup user false :=
    fun _ => rfl
  simp only [getUserGroupMemberIds, Bool.false_eq_true, if_false, hread, List.mem_map,
    List.mem_filter, isUserInGroup_iff_effectiveMember hs]
  constructor
  · rintro ⟨user, ⟨hu, hm⟩, rfl⟩
    exact ⟨⟨user, hu, rfl⟩, hm⟩
  · rintro ⟨⟨user, hu, rfl⟩, hm⟩
    exact ⟨user, ⟨hu, hm⟩, rfl⟩

end Reads

/-! ## Adding rows -/

section Adds

variable {s t : Store}

/-- Membership rows added to `p`: their users join `p` and every group that reaches `p`. -/
theorem effectiveMember_iff_of_memberships {p : Int} {us : List Int}
    (he : t.groupMemberships = s.groupMemberships)
    (hm : ∀ m, m ∈ t.memberships ↔ m ∈ s.memberships ∨ m.1 = p ∧ m.2 ∈ us)
    (k u : Int) :
    EffectiveMember t k u ↔
      EffectiveMember s k u ∨ (Reaches s.groupMemberships k p ∧ u ∈ us) := by
  simp only [EffectiveMember, he, hm]
  constructor
  · rintro ⟨m, hr, hm | ⟨rfl, hu⟩⟩
    · exact .inl ⟨m, hr, hm⟩
    · exact .inr ⟨hr, hu⟩
  · rintro (⟨m, hr, hm⟩ | ⟨hr, hu⟩)
    · exact ⟨m, hr, .inl hm⟩
    · exact ⟨p, hr, .inr ⟨rfl, hu⟩⟩

/-- Subgroup rows added to `p`: the members of the new subgroups join `p` and every group that
reaches `p`. -/
theorem effectiveMember_iff_of_groupMemberships {p : Int} {cs : List Int}
    (hm : t.memberships = s.memberships)
    (he : ∀ e, e ∈ t.groupMemberships ↔ e ∈ s.groupMemberships ∨ e.1 = p ∧ e.2 ∈ cs)
    (k u : Int) :
    EffectiveMember t k u ↔
      EffectiveMember s k u ∨
        (Reaches s.groupMemberships k p ∧ ∃ c ∈ cs, EffectiveMember s c u) := by
  simp only [EffectiveMember, hm, reaches_iff_of_mem_iff he]
  constructor
  · rintro ⟨m, hr | ⟨hp, c, hc, hcm⟩, hmu⟩
    · exact .inl ⟨m, hr, hmu⟩
    · exact .inr ⟨hp, c, hc, m, hcm, hmu⟩
  · rintro (⟨m, hr, hmu⟩ | ⟨hp, c, hc, m, hcm, hmu⟩)
    · exact ⟨m, .inl hr, hmu⟩
    · exact ⟨m, .inr ⟨hp, c, hc, hcm⟩, hmu⟩

end Adds

/-- **What the two adding endpoints grant.**  When `update_user_group_backend` with only `add`
succeeds, a user is in a group `k` afterwards exactly when they were, or `k` reaches the updated
group and the user was added.  When `update_subgroups_of_user_group` with only `add` succeeds, a
user is in `k` afterwards exactly when they were, or `k` reaches the updated group and the user is
in one of the added subgroups.  So an add grants membership in the updated group and all its
recursive supergroups, and nowhere else, and it revokes nothing.  On every store that keeps its
foreign keys, `is_user_in_group` and `get_user_group_member_ids` without `direct_member_only`
answer this relation. -/
theorem effectiveMember_of_adds {s : Store} {userProfile : UserProfile} {userGroupId : Int}
    {add : List Int} :
    ((updateUserGroupBackend s userProfile userGroupId [] add).2 = .ok () → ∀ k u,
      (EffectiveMember (updateUserGroupBackend s userProfile userGroupId [] add).1 k u ↔
        EffectiveMember s k u ∨ (Reaches s.groupMemberships k userGroupId ∧ u ∈ add))) ∧
    ((updateSubgroupsOfUserGroup s userProfile userGroupId [] add).2 = .ok () → ∀ k u,
      (EffectiveMember (updateSubgroupsOfUserGroup s userProfile userGroupId [] add).1 k u ↔
        EffectiveMember s k u ∨
          (Reaches s.groupMemberships k userGroupId ∧ ∃ c ∈ add, EffectiveMember s c u))) ∧
    ∀ t : Store, t.Schema → ∀ userGroup : UserGroup,
      (∀ user : UserProfile,
        isUserInGroup t userGroup user false = true ↔ EffectiveMember t userGroup.id user.id) ∧
      ∀ userId : Int, userId ∈ getUserGroupMemberIds t userGroup false ↔
        (∃ user ∈ t.users, user.id = userId) ∧ EffectiveMember t userGroup.id userId := by
  refine ⟨?_, ?_, fun t ht userGroup =>
    ⟨isUserInGroup_iff_effectiveMember ht userGroup, mem_getUserGroupMemberIds_iff ht userGroup⟩⟩
  · intro h
    obtain ⟨-, hadd⟩ := addMembersToGroupBackend_of_updateUserGroupBackend h
    obtain ⟨-, -, he, hm⟩ := memberships_of_addMembersToGroupBackend hadd
    exact effectiveMember_iff_of_memberships he hm
  · intro h
    obtain ⟨-, hadd⟩ := addSubgroupsToGroupBackend_of_updateSubgroupsOfUserGroup h
    obtain ⟨-, -, hm, he⟩ := subgroups_of_addSubgroupsToGroupBackend hadd
    exact effectiveMember_iff_of_groupMemberships hm he

/-- Bob is a member of `leads`; adding `leads` under `eng` makes Bob a member of `eng`. -/
theorem effectiveMember_of_adds_leads :
    (updateSubgroupsOfUserGroup { teamStore with memberships := [(11, 2)] }
        ⟨1, 7, "Ann", false, true⟩ 10 [] [11]).2 = .ok () ∧
      (EffectiveMember (updateSubgroupsOfUserGroup { teamStore with memberships := [(11, 2)] }
          ⟨1, 7, "Ann", false, true⟩ 10 [] [11]).1 10 2 ↔
        EffectiveMember { teamStore with memberships := [(11, 2)] } 10 2 ∨
          (Reaches ({ teamStore with memberships := [(11, 2)] } : Store).groupMemberships 10 10 ∧
            ∃ c ∈ [11], EffectiveMember { teamStore with memberships := [(11, 2)] } c 2)) :=
  ⟨rfl, (@effectiveMember_of_adds { teamStore with memberships := [(11, 2)] }
    ⟨1, 7, "Ann", false, true⟩ 10 [11]).2.1 rfl 10 2⟩

end Zerver.UserGroups

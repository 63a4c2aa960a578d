import Zerver.UserGroups.Lifecycle

/-!
# Undoing an add

A client that adds members (or subgroups) to a group and then sends the same ids back as a delete
list gets the tables it started from.  The second request cannot fail: the ids it names were
resolved by the first, and they are now direct members (or direct subgroups) of the group.  And it
removes exactly the rows the first wrote: the add refused any id that was already a member (or a
subgroup), so none of the removed rows was there before.

## Main Results

* `updateUserGroupBackend_undo` — `update_user_group_backend(add=ids)` followed by
  `update_user_group_backend(delete=ids)`.
* `updateSubgroupsOfUserGroup_undo` — the same for `update_subgroups_of_user_group`.

## Design Notes

Only the tables are restored: the audit log keeps both changes, and the notifications both
requests sent stay sent.  The rows are compared as sets, since a delete filters the rows where an
add appended them.
-/

namespace Zerver.UserGroups

variable {s s' : Store} {userProfile : UserProfile} {userGroupId : Int} {ids : List Int}

/-- **Rows added and removed again leave the rows as they were**: rows from `g` to `ids`, none of
which was there, appended and then filtered out. -/
theorem mem_of_add_remove {rows rows₁ rows₂ : List (Int × Int)} {g : Int}
    (hfresh : ∀ x ∈ ids, (g, x) ∉ rows)
    (hadd : ∀ e, e ∈ rows₁ ↔ e ∈ rows ∨ e.1 = g ∧ e.2 ∈ ids)
    (hremove : ∀ e, e ∈ rows₂ ↔ e ∈ rows₁ ∧ ¬ (e.1 = g ∧ e.2 ∈ ids)) :
    ∀ e, e ∈ rows₂ ↔ e ∈ rows := by
  rintro ⟨a, b⟩
  rw [hremove, hadd]
  constructor
  · rintro ⟨hold | hnew, hnot⟩
    · exact hold
    · exact absurd hnew hnot
  · intro hold
    refine ⟨.inl hold, fun ⟨ha, hb⟩ => hfresh b hb ?_⟩
    rwa [← ha]

/-! ## Members -/

section Members

/-- A request with a delete list and no add list is its delete. -/
theorem updateUserGroupBackend_of_removeMembersFromGroupBackend (hne : ids ≠ [])
    (h : removeMembersFromGroupBackend s userProfile userGroupId ids = .ok s') :
    updateUserGroupBackend s userProfile userGroupId ids [] = (s', .ok ()) := by
  unfold updateUserGroupBackend
  rw [if_neg (by simpa using hne)]
  exact atomic_of_ok (composeViews_pair_eq_ok.mpr ⟨s, rfl, h⟩)

/-- **Removing the members just added restores the tables.**  When `update_user_group_backend`
with `add=ids` and no delete list succeeds, the same request with `delete=ids` and no add list,
sent by the same user, succeeds too, and leaves the users, the groups, the subgroup rows and the
membership rows as they were before the add. -/
theorem updateUserGroupBackend_undo
    (h : (updateUserGroupBackend s userProfile userGroupId [] ids).2 = .ok ()) :
    ∃ s₂, updateUserGroupBackend (updateUserGroupBackend s userProfile userGroupId [] ids).1
        userProfile userGroupId ids [] = (s₂, .ok ()) ∧
      s₂.users = s.users ∧ s₂.groups = s.groups ∧ s₂.groupMemberships = s.groupMemberships ∧
      ∀ m, m ∈ s₂.memberships ↔ m ∈ s.memberships := by
  obtain ⟨hne, hadd⟩ := addMembersToGroupBackend_of_updateUserGroupBackend h
  generalize (updateUserGroupBackend s userProfile userGroupId [] ids).1 = s₁ at hadd
  obtain ⟨userGroup, hacc, users, husers, -⟩ := (addMembersToGroupBackend_eq_ok hne).mp hadd
  have hids := (userIdsToUsers_eq_ok.mp husers).2
  have hfresh := (addMembersToGroupBackend_ok_iff hacc hids).mp ⟨_, hadd⟩
  obtain ⟨hu, hg, he, hm⟩ := memberships_of_addMembersToGroupBackend hadd
  -- the second request sees the same group and the same users, with the ids now members
  have hacc₁ : accessUserGroupById s₁ userGroupId userProfile = .ok userGroup := by
    simpa only [accessUserGroupById, hg] using hacc
  obtain ⟨s₂, hrem⟩ := (removeMembersFromGroupBackend_ok_iff hacc₁ (hu ▸ hids)).mpr
    fun x hx => (hm _).mpr (.inr ⟨rfl, hx⟩)
  obtain ⟨hu₂, hg₂, he₂, hm₂⟩ := memberships_of_removeMembersFromGroupBackend hrem
  exact ⟨s₂, updateUserGroupBackend_of_removeMembersFromGroupBackend hne hrem, hu₂.trans hu,
    hg₂.trans hg, he₂.trans he, mem_of_add_remove hfresh hm hm₂⟩

/-- Ann adds Bob to `eng` and removes him again. -/
theorem updateUserGroupBackend_undo_bob :
    (updateUserGroupBackend teamStore ⟨1, 7, "Ann", false, true⟩ 10 [] [2]).2 = .ok () ∧
      ∃ s₂, updateUserGroupBackend
          (updateUserGroupBackend teamStore ⟨1, 7, "Ann", false, true⟩ 10 [] [2]).1
          ⟨1, 7, "Ann", false, true⟩ 10 [2] [] = (s₂, .ok ()) ∧
        s₂.users = teamStore.users ∧ s₂.groups = teamStore.groups ∧
        s₂.groupMemberships = teamStore.groupMemberships ∧
        ∀ m, m ∈ s₂.memberships ↔ m ∈ teamStore.memberships :=
  ⟨rfl, updateUserGroupBackend_undo rfl⟩

end Members

/-! ## Subgroups -/

section Subgroups

/-- A request with a delete list and no add list is its delete. -/
theorem updateSubgroupsOfUserGroup_of_removeSubgroupsFromGroupBackend (hne : ids ≠ [])
    (h : removeSubgroupsFromGroupBackend s userProfile userGroupId ids = .ok s') :
    updateSubgroupsOfUserGroup s userProfile userGroupId ids [] = (s', .ok ()) := by
  unfold updateSubgroupsOfUserGroup
  rw [if_neg (by simpa using hne)]
  exact atomic_of_ok (composeViews_pair_eq_ok.mpr ⟨s, rfl, h⟩)

/-- **Removing the subgroups just added restores the tables.**  When
`update_subgroups_of_user_group` with `add=ids` and no delete list succeeds, the same request with
`delete=ids` and no add list, sent by the same user, succeeds too, and leaves the users, the
groups, the membership rows and the subgroup rows as they were before the add. -/
theorem updateSubgroupsOfUserGroup_undo
    (h : (updateSubgroupsOfUserGroup s userProfile userGroupId [] ids).2 = .ok ()) :
    ∃ s₂, updateSubgroupsOfUserGroup (updateSubgroupsOfUserGroup s userProfile userGroupId [] ids).1
        userProfile userGroupId ids [] = (s₂, .ok ()) ∧
      s₂.users = s.users ∧ s₂.groups = s.groups ∧ s₂.memberships = s.memberships ∧
      ∀ e, e ∈ s₂.groupMemberships ↔ e ∈ s.groupMemberships := by
  obtain ⟨hne, hadd⟩ := addSubgroupsToGroupBackend_of_updateSubgroupsOfUserGroup h
  generalize (updateSubgroupsOfUserGroup s userProfile userGroupId [] ids).1 = s₁ at hadd
  obtain ⟨context, hlock, -⟩ := (addSubgroupsToGroupBackend_eq_ok hne).mp hadd
  obtain ⟨hacc, hdirect, -, hall⟩ := lockSubgroupsWithRespectToSupergroup_eq_ok.mp hlock
  -- every id names a named group of the realm, as the lock resolved it
  have hids : ∀ x ∈ ids, ∃ g ∈ s.groups, g.id = x ∧ g.realm = userProfile.realm ∧
      g.isNamed = true := fun x hx => by
    obtain ⟨g, hg, rfl⟩ := hall x hx
    obtain ⟨hg, -, hrealm, hnamed⟩ := mem_namedGroupsOfRealm.mp (hdirect ▸ hg)
    exact ⟨g, hg, rfl, hrealm, hnamed⟩
  have hfresh := ((addSubgroupsToGroupBackend_ok_iff hacc hids).mp ⟨_, hadd⟩).1
  obtain ⟨hu, hg, hm, he⟩ := subgroups_of_addSubgroupsToGroupBackend hadd
  have hacc₁ : accessUserGroupById s₁ userGroupId userProfile = .ok context.supergroup := by
    simpa only [accessUserGroupById, hg] using hacc
  obtain ⟨s₂, hrem⟩ := (removeSubgroupsFromGroupBackend_ok_iff hacc₁ (hg ▸ hids)).mpr
    fun x hx => (he _).mpr (.inr ⟨rfl, hx⟩)
  obtain ⟨hu₂, hg₂, hm₂, he₂⟩ := subgroups_of_removeSubgroupsFromGroupBackend hrem
  exact ⟨s₂, updateSubgroupsOfUserGroup_of_removeSubgroupsFromGroupBackend hne hrem,
    hu₂.trans hu, hg₂.trans hg, hm₂.trans hm, mem_of_add_remove hfresh he he₂⟩

/-- Ann puts `leads` under `eng` and takes it out again. -/
theorem updateSubgroupsOfUserGroup_undo_leads :
    (updateSubgroupsOfUserGroup teamStore ⟨1, 7, "Ann", false, true⟩ 10 [] [11]).2 = .ok () ∧
      ∃ s₂, updateSubgroupsOfUserGroup
          (updateSubgroupsOfUserGroup teamStore ⟨1, 7, "Ann", false, true⟩ 10 [] [11]).1
          ⟨1, 7, "Ann", false, true⟩ 10 [11] [] = (s₂, .ok ()) ∧
        s₂.users = teamStore.users ∧ s₂.groups = teamStore.groups ∧
        s₂.memberships = teamStore.memberships ∧
        ∀ e, e ∈ s₂.groupMemberships ↔ e ∈ teamStore.groupMemberships :=
  ⟨rfl, updateSubgroupsOfUserGroup_undo rfl⟩

end Subgroups

end Zerver.UserGroups

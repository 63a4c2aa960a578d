import Zerver.UserGroups.Effective
import Zerver.UserGroups.Invariant

/-!
# What a created or deleted group reads back as

`add_user_group` resolves its members and its `can_mention_group`, and then
`check_add_user_group` creates the group.  Read back through the views, the new group is what the
request asked for: `access_user_group_by_id` finds it by its id, with the requested name and
description; `get_user_group_members` lists each requested member once, with or without
`direct_member_only`; `get_subgroups_of_user_group` lists nothing; and the group its setting names
means the requested value, or is the realm's configured default when none was given.

`delete_user_group` is the other end of a group's life: it succeeds exactly when the group
resolves and no other named group's setting names it, and then no row of any table names the
group any more.

## Main Definitions

* `CreatedFrom t s' g initialMembers` — `s'` is `t` with the group `g` created: the rows of the
  store `check_add_user_group` leaves, stated as field equations.

## Main Results

* `CreatedFrom.of_checkAddUserGroup` — `check_add_user_group` leaves a store of that form.
* `addUserGroup_eq_ok_inv` — what a successful `add_user_group` did, in that form.
* `addUserGroup_reads_back` — the round trip from `add_user_group` to the read views.
* `deleteUserGroup_reads_back` — when `delete_user_group` succeeds, and what it leaves.

## Design Notes

The new group has the id the sequence hands out next, so no row of the store it is created in
names it (`Store.Schema.not_hasGroup_next`): its membership rows are the ones
`check_add_user_group` writes, it has no subgroup row, and it reaches no group but itself
(`Reaches.eq_of_no_row_from`).  Every other group keeps its row and its meaning
(`CreatedFrom.getGroupById_of_ne`, `CreatedFrom.api_of_ne`), so the setting's read-back is
`accessUserGroupForSetting_reads_back` of the store the setting was resolved in.
-/

namespace Zerver.UserGroups

/-- A group with no subgroup row reaches only itself. -/
theorem Reaches.eq_of_no_row_from {rows : List (Int × Int)} {a b : Int}
    (hnone : ∀ e ∈ rows, e.1 ≠ a) (h : Reaches rows a b) : b = a := by
  rcases Relation.ReflTransGen.cases_head h with rfl | ⟨c, hac, -⟩
  · rfl
  · exact absurd rfl (hnone _ hac)

section Created

variable {t s' : Store} {g : UserGroup} {initialMembers : List UserProfile}

/-- **`s'` is `t` with the group `g` created with the direct members `initialMembers`**: `g` has
the id the sequence hands out next, it is the one new row of the group table, and its membership
rows are the new membership rows. -/
structure CreatedFrom (t s' : Store) (g : UserGroup)
    (initialMembers : List UserProfile) : Prop where
  id : g.id = t.nextGroupId
  users : s'.users = t.users
  groups : s'.groups = t.groups ++ [g]
  memberships : s'.memberships = t.memberships ++ initialMembers.map fun u => (g.id, u.id)
  groupMemberships : s'.groupMemberships = t.groupMemberships

/-- **`check_add_user_group` creates its group in this form**, with the given setting group or the
realm's default. -/
theorem CreatedFrom.of_checkAddUserGroup {permissionConfig : GroupPermissionSetting}
    {realm : Nat} {name description : String} {groupSettingsMap : Option UserGroup}
    {userProfile : UserProfile}
    (h : checkAddUserGroup t permissionConfig realm name initialMembers description groupSettingsMap
      userProfile = .ok s') :
    ∃ settingGroup, (groupSettingsMap = some settingGroup ∨ groupSettingsMap = none ∧
        defaultSettingGroup t realm permissionConfig = .ok settingGroup) ∧
      CreatedFrom t s' ⟨t.nextGroupId, realm, true, name, description, settingGroup.id⟩
        initialMembers := by
  obtain ⟨-, settingGroup, hsg, rfl⟩ := checkAddUserGroup_eq_ok h
  exact ⟨settingGroup, hsg, rfl, rfl, rfl, rfl, List.append_nil _⟩

/-- Rows of other groups are found as before. -/
theorem CreatedFrom.getGroupById_of_ne (h : CreatedFrom t s' g initialMembers) {x : Int}
    (hx : x ≠ g.id) :
    getGroupById s' x = getGroupById t x := by
  simp [getGroupById, h.groups, List.find?_append, Ne.symm hx]

/-- Other groups mean what they meant. -/
theorem CreatedFrom.api_of_ne (h : CreatedFrom t s' g initialMembers) {X : UserGroup}
    (hX : X.id ≠ g.id) :
    getGroupSettingValueForApi s' X = getGroupSettingValueForApi t X := by
  simp [getGroupSettingValueForApi, Store.directMemberIds, Store.directSubgroupIds, h.memberships,
    h.groupMemberships, List.filter_append, List.filter_map, Function.comp_def, Ne.symm hX]

section Fresh

variable (ht : t.Schema) (h : CreatedFrom t s' g initialMembers)
include ht h

/-- No subgroup row starts at the new group. -/
theorem CreatedFrom.no_row_from : ∀ e ∈ s'.groupMemberships, e.1 ≠ g.id := fun e he =>
  h.id ▸ (ht.next_not_mem_edges e (h.groupMemberships ▸ he)).1

/-- The new group's membership rows are the ones it was created with. -/
theorem CreatedFrom.mem_memberships_iff {u : Int} :
    (g.id, u) ∈ s'.memberships ↔ u ∈ initialMembers.map UserProfile.id := by
  have hold : (g.id, u) ∉ t.memberships := fun hm =>
    ht.not_hasGroup_next (h.id ▸ ht.membershipGroup _ hm)
  simp [h.memberships, hold]

/-- The new group reaches no group but itself. -/
theorem CreatedFrom.reaches_eq {m : Int} (hr : Reaches s'.groupMemberships g.id m) : m = g.id :=
  hr.eq_of_no_row_from (h.no_row_from ht)

/-- **Recursive membership in the new group is direct membership.** -/
theorem CreatedFrom.effectiveMember_iff {u : Int} :
    EffectiveMember s' g.id u ↔ u ∈ initialMembers.map UserProfile.id := by
  rw [← h.mem_memberships_iff ht]
  constructor
  · rintro ⟨m, hr, hm⟩
    rwa [← h.reaches_eq ht hr]
  · exact fun hm => ⟨g.id, .refl, hm⟩

/-- A named group of the acting user's realm, created afresh, is what
`access_user_group_by_id` finds. -/
theorem CreatedFrom.accessUserGroupById_eq {userProfile : UserProfile}
    (hrealm : g.realm = userProfile.realm) (hnamed : g.isNamed = true) :
    accessUserGroupById s' g.id userProfile = .ok g := by
  have hnone : t.groups.find? (fun r => r.id == g.id && r.realm == userProfile.realm &&
      r.isNamed) = none :=
    List.find?_eq_none.mpr fun r hr => by simp [h.id, (ht.id_lt_next r hr).ne]
  simp [accessUserGroupById, h.groups, List.find?_append, hnone, hrealm, hnamed]

/-- The new group's direct members are the users it was created with. -/
theorem CreatedFrom.getUserGroupMemberIds_direct :
    getUserGroupMemberIds s' g true = initialMembers.map UserProfile.id := by
  have hnone : (t.memberships.filter fun m => m.1 = g.id) = [] :=
    List.filter_eq_nil_iff.mpr fun m hm hx =>
      ht.not_hasGroup_next (h.id ▸ (decide_eq_true_iff.mp hx) ▸ ht.membershipGroup m hm)
  simp [getUserGroupMemberIds, Store.directMemberIds, h.memberships, List.filter_append, hnone,
    List.filter_map, Function.comp_def]

/-- The new group has no subgroup, direct or recursive. -/
theorem CreatedFrom.getSubgroupIds_eq_nil (flag : Bool) : getSubgroupIds s' g flag = [] := by
  refine List.eq_nil_iff_forall_not_mem.mpr fun x hx => ?_
  cases flag with
  | true => exact h.no_row_from ht _ (Store.mem_directSubgroupIds.mp hx) rfl
  | false =>
      simp only [getSubgroupIds, Bool.false_eq_true, if_false, List.mem_map, List.mem_filter,
        mem_recursiveSubgroupsOf, List.mem_singleton, exists_eq_left, bne_iff_ne] at hx
      obtain ⟨r, ⟨⟨-, hr⟩, hne⟩, -⟩ := hx
      exact hne (h.reaches_eq ht hr)

end Fresh

end Created

/-- **What a successful `add_user_group` did.**  It resolved the members to the users `users`
and the setting to `settingGroup` in a valid store `t`, which keeps every group of `s` (it differs
from `s` by the anonymous group a setting value may have created), and `check_add_user_group`
created the named group in `t`.  The setting group means the requested value, or is the realm's
default when none was given. -/
theorem addUserGroup_eq_ok_inv (permissionConfig : GroupPermissionSetting) {s s' : Store}
    (hv : s.Valid) {userProfile : UserProfile} {name description : String} {members : List Int}
    {canMentionGroup : Option GroupSettingRequest}
    (h : addUserGroup permissionConfig s userProfile name members description canMentionGroup =
      (s', .ok ())) :
    ∃ (t : Store) (users : List UserProfile) (settingGroup : UserGroup),
      t.Valid ∧ s'.Valid ∧ (∀ r ∈ s.groups, r ∈ t.groups) ∧ users.Sublist t.users ∧
      (∀ u, u ∈ users.map UserProfile.id ↔ u ∈ members) ∧ settingGroup ∈ t.groups ∧
      CreatedFrom t s'
        ⟨t.nextGroupId, userProfile.realm, true, name, description, settingGroup.id⟩ users ∧
      (∀ value, canMentionGroup = some value →
        checkSettingValueChanged t settingGroup (parseGroupSettingValue value) = false) ∧
      (canMentionGroup = none →
        defaultSettingGroup s userProfile.realm permissionConfig = .ok settingGroup) := by
  unfold addUserGroup at h
  split at h
  · cases h
  rename_i t users name' settingsMap hq
  obtain ⟨s₁, hbody, hs₁⟩ := exists_of_atomic_snd_eq_ok (congrArg Prod.snd h)
  obtain rfl : s₁ = s' := hs₁.symm.trans (congrArg Prod.fst h)
  obtain rfl : name' = name := prepareUserGroup_name hq
  obtain ⟨hvt, husersSub, hsettingMem⟩ := valid_prepareUserGroup hv hq
  obtain ⟨husers, hsetting⟩ := prepareUserGroup_eq_ok hq
  obtain ⟨settingGroup, hsg, hc⟩ := CreatedFrom.of_checkAddUserGroup hbody
  refine ⟨t, users, settingGroup, hvt, valid_checkAddUserGroup hvt husersSub hsettingMem hbody,
    ?groups, husersSub, fun _ => mem_ids_of_userIdsToUsers husers, ?mem, hc, ?changed, ?default⟩
  case groups =>
    rcases hsetting with ⟨-, rfl, -⟩ | ⟨_, _, -, hp, -⟩
    · exact fun _ hr => hr
    · exact (valid_accessUserGroupForSetting hv hp).2.2.1
  case mem =>
    rcases hsg with hsg | ⟨-, hsg⟩
    · exact hsettingMem _ hsg
    · exact (defaultSettingGroup_eq_ok hsg).1
  case changed =>
    intro value hvalue
    rcases hsetting with ⟨hnone, -⟩ | ⟨value', X, hvalue', hp, hX⟩
    · exact absurd (hvalue.symm.trans hnone) (by simp)
    · obtain rfl : value' = value := Option.some.inj (hvalue'.symm.trans hvalue)
      obtain rfl : X = settingGroup := by
        rcases hsg with hsg | ⟨hsg, -⟩
        · exact Option.some.inj (hX.symm.trans hsg)
        · exact absurd (hX.symm.trans hsg) (by simp)
      exact (accessUserGroupForSetting_reads_back hv.schema hp).2
  case default =>
    intro hnone
    rcases hsetting with ⟨-, rfl, hX⟩ | ⟨_, _, hsome, -⟩
    · rcases hsg with hsg | ⟨-, hsg⟩
      · exact absurd (hX.symm.trans hsg) (by simp)
      · exact hsg
    · exact absurd (hnone.symm.trans hsome) (by simp)

/-- **`add_user_group` reads back as the request.**  From a store that keeps its constraints, a
successful `add_user_group` creates a group with an id no group had; `access_user_group_by_id`
finds it with the requested name and description; `get_user_group_members` lists each requested
member exactly once, with or without `direct_member_only`; `get_subgroups_of_user_group` lists
no subgroup; and the group its `can_mention_group` names is found, and means the requested value
(`check_setting_value_changed` finds no change), or, when no value was given, is the realm's
default group for the setting. -/
theorem addUserGroup_reads_back (permissionConfig : GroupPermissionSetting) {s s' : Store}
    (hv : s.Valid) {userProfile : UserProfile} {name description : String} {members : List Int}
    {canMentionGroup : Option GroupSettingRequest}
    (h : addUserGroup permissionConfig s userProfile name members description canMentionGroup =
      (s', .ok ())) :
    ∃ userGroup : UserGroup, ¬ s.HasGroup userGroup.id ∧
      accessUserGroupById s' userGroup.id userProfile = .ok userGroup ∧
      userGroup.name = name ∧ userGroup.description = description ∧
      (∀ flag, ∃ memberIds, getUserGroupMembers s' userProfile userGroup.id flag = .ok memberIds ∧
        memberIds.Nodup ∧ ∀ u, u ∈ memberIds ↔ u ∈ members) ∧
      (∀ flag, getSubgroupsOfUserGroup s' userProfile userGroup.id flag = .ok []) ∧
      ∃ current, getGroupById s' userGroup.canMentionGroup = .ok current ∧
        (∀ value, canMentionGroup = some value →
          checkSettingValueChanged s' current (parseGroupSettingValue value) = false) ∧
        (canMentionGroup = none →
          defaultSettingGroup s userProfile.realm permissionConfig = .ok current) := by
  obtain ⟨t, users, settingGroup, hvt, hv', hgroups, husersSub, hmembers, hsgmem, hc, hchanged,
    hdefault⟩ := addUserGroup_eq_ok_inv permissionConfig hv h
  have ht := hvt.schema
  have hsgne : settingGroup.id ≠ t.nextGroupId := (ht.id_lt_next _ hsgmem).ne
  have haccess := hc.accessUserGroupById_eq ht rfl rfl
  refine ⟨_, fun ⟨r, hr, hid⟩ => ht.not_hasGroup_next ⟨r, hgroups r hr, hid⟩, haccess, rfl,
    rfl, ?members, fun flag => ?subgroups, settingGroup, ?get, fun value hvalue => ?changed,
    hdefault⟩
  case subgroups =>
    rw [getSubgroupsOfUserGroup, haccess, ← hc.getSubgroupIds_eq_nil ht flag]
    rfl
  case members =>
    intro flag
    rw [getUserGroupMembers, haccess]
    cases flag with
    | true =>
        rw [← hc.getUserGroupMemberIds_direct ht] at hmembers
        refine ⟨_, rfl, ?_, hmembers⟩
        rw [hc.getUserGroupMemberIds_direct ht]
        exact ht.nodup_userIds_of_sublist husersSub
    | false =>
        refine ⟨_, rfl, hv'.schema.nodup_userIds_of_sublist (List.filter_sublist _),
          fun u => ?_⟩
        rw [mem_getUserGroupMemberIds_iff hv'.schema, hc.effectiveMember_iff ht, hmembers]
        refine ⟨And.right, fun hu => ⟨?_, hu⟩⟩
        obtain ⟨user, huser, rfl⟩ := List.mem_map.mp ((hmembers u).mpr hu)
        exact ⟨user, hc.users ▸ husersSub.subset huser, rfl⟩
  case get =>
    rw [hc.getGroupById_of_ne hsgne]
    exact getGroupById_of_mem ht.groupIdsNodup hsgmem
  case changed =>
    rw [checkSettingValueChanged, hc.api_of_ne hsgne, ← checkSettingValueChanged]
    exact hchanged value hvalue


/-- Ann creates `eng` with herself as its member, and lets a new anonymous group of herself mention
it. -/
theorem addUserGroup_reads_back_eng :
    let ann : UserProfile := ⟨1, 7, "Ann", false, true⟩
    let s' := (addUserGroup ⟨"role:everyone"⟩ emptyRealmStore ann "eng" [1] ""
      (some (.dict [1] []))).1
    emptyRealmStore.Valid ∧
      addUserGroup ⟨"role:everyone"⟩ emptyRealmStore ann "eng" [1] "" (some (.dict [1] [])) =
        (s', .ok ()) ∧
      ∃ userGroup : UserGroup, ¬ emptyRealmStore.HasGroup userGroup.id ∧
        accessUserGroupById s' userGroup.id ann = .ok userGroup ∧
        userGroup.name = "eng" ∧ userGroup.description = "" ∧
        (∀ flag, ∃ memberIds, getUserGroupMembers s' ann userGroup.id flag = .ok memberIds ∧
          memberIds.Nodup ∧ ∀ u, u ∈ memberIds ↔ u ∈ [(1 : Int)]) ∧
        (∀ flag, getSubgroupsOfUserGroup s' ann userGroup.id flag = .ok []) ∧
        ∃ current, getGroupById s' userGroup.canMentionGroup = .ok current ∧
          (∀ value, some (GroupSettingRequest.dict [1] []) = some value →
            checkSettingValueChanged s' current (parseGroupSettingValue value) = false) ∧
          (some (GroupSettingRequest.dict [1] []) = none →
            defaultSettingGroup emptyRealmStore ann.realm ⟨"role:everyone"⟩ = .ok current) := by
  intro ann s'
  have hv := emptyRealmStore_valid
  have hrun : addUserGroup ⟨"role:everyone"⟩ emptyRealmStore ann "eng" [1] ""
      (some (.dict [1] [])) = (s', .ok ()) := by
    refine Prod.ext rfl ?_
    simp only [addUserGroup, prepareUserGroup, checkUserGroupName_eng, bind, Except.bind]
    rfl
  exact ⟨hv, hrun, addUserGroup_reads_back _ hv hrun⟩

/-! ## Deleting a group -/

section Delete

variable {s : Store}

/-- A search whose matches all pass a filter finds the same row after the filter. -/
theorem find?_filter_of_imp {l : List UserGroup} {p q : UserGroup → Bool}
    (hqp : ∀ g, q g = true → p g = true) : (l.filter p).find? q = l.find? q := by
  rw [List.find?_filter]
  congr 1
  funext g
  cases hq : q g <;> simp [hq, hqp g]

/-- The body of `delete_user_group` runs exactly when the group resolves and the check passes. -/
theorem deleteUserGroup_body_eq_ok_iff {userProfile : UserProfile} {userGroupId : Int}
    {s' : Store} :
    (do
      let context ← lockSubgroupsWithRespectToSupergroup s [userGroupId] userGroupId userProfile
      checkDeleteUserGroup s context.supergroup userProfile) = .ok s' ↔
      ∃ userGroup, accessUserGroupById s userGroupId userProfile = .ok userGroup ∧
        checkDeleteUserGroup s userGroup userProfile = .ok s' := by
  refine ⟨deleteUserGroup_body_eq_ok, fun ⟨userGroup, hacc, hcheck⟩ => ?_⟩
  obtain ⟨hmem, hid, hrealm, hnamed⟩ := accessUserGroupById_eq_ok hacc
  refine bind_eq_ok.mpr ⟨_, lockSubgroupsWithRespectToSupergroup_of_valid_ids hacc ?_, hcheck⟩
  intro x hx
  obtain rfl := List.mem_singleton.mp hx
  exact ⟨userGroup, hmem, hid, hrealm, hnamed⟩

/-- `delete_user_group` succeeds exactly when the group resolves and no other named group's
`can_mention_group` names it. -/
theorem deleteUserGroup_ok_iff (userProfile : UserProfile) (userGroupId : Int) :
    (deleteUserGroup s userProfile userGroupId).2 = .ok () ↔
      (∃ userGroup, accessUserGroupById s userGroupId userProfile = .ok userGroup) ∧
        ∀ g ∈ s.groups, g.isNamed = true → g.canMentionGroup = userGroupId →
          g.id = userGroupId := by
  constructor
  · intro h
    obtain ⟨s₁, hbody, -⟩ := exists_of_atomic_snd_eq_ok h
    obtain ⟨userGroup, hacc, hcheck⟩ := deleteUserGroup_body_eq_ok hbody
    obtain ⟨-, rfl, -⟩ := accessUserGroupById_eq_ok hacc
    exact ⟨⟨userGroup, hacc⟩, (checkDeleteUserGroup_eq_ok hcheck).1⟩
  · rintro ⟨⟨userGroup, hacc⟩, hunused⟩
    obtain ⟨-, rfl, -⟩ := accessUserGroupById_eq_ok hacc
    obtain ⟨s', hcheck⟩ : ∃ s', checkDeleteUserGroup s userGroup userProfile = .ok s' := by
      refine ⟨_, if_neg fun hused => ?_⟩
      obtain ⟨g, hg, hx⟩ := List.any_eq_true.mp hused
      simp only [Bool.and_eq_true, beq_iff_eq, bne_iff_ne, ne_eq] at hx
      exact hx.2 (hunused g hg hx.1.1 hx.1.2)
    unfold deleteUserGroup
    rw [atomic_of_ok (deleteUserGroup_body_eq_ok_iff.mpr ⟨userGroup, hacc, hcheck⟩)]

/-- After a successful `delete_user_group` no row names the group, every other group resolves as
before, and nobody is a member of a group they were not in. -/
theorem deleteUserGroup_leaves {userProfile : UserProfile} {userGroupId : Int} {s' : Store}
    (h : deleteUserGroup s userProfile userGroupId = (s', .ok ())) :
    ¬ s'.HasGroup userGroupId ∧ (∀ m ∈ s'.memberships, m.1 ≠ userGroupId) ∧
      (∀ e ∈ s'.groupMemberships, e.1 ≠ userGroupId ∧ e.2 ≠ userGroupId) ∧
      (∀ groupId, groupId ≠ userGroupId → ∀ reader,
        accessUserGroupById s' groupId reader = accessUserGroupById s groupId reader) ∧
      ∀ k u, EffectiveMember s' k u → EffectiveMember s k u := by
  obtain ⟨s₁, hbody, hs₁⟩ := exists_of_atomic_snd_eq_ok (congrArg Prod.snd h)
  obtain rfl : s₁ = s' := hs₁.symm.trans (congrArg Prod.fst h)
  obtain ⟨userGroup, hacc, hcheck⟩ := deleteUserGroup_body_eq_ok hbody
  obtain ⟨-, rfl, -⟩ := accessUserGroupById_eq_ok hacc
  obtain ⟨-, rfl⟩ := checkDeleteUserGroup_eq_ok hcheck
  simp only [Store.HasGroup, List.mem_filter, bne_iff_ne, ne_eq, Bool.and_eq_true]
  refine ⟨fun ⟨_, ⟨_, hne⟩, hid⟩ => hne hid, fun m hm => hm.2, fun e he => he.2, ?_, ?_⟩
  · intro groupId hne reader
    unfold accessUserGroupById
    rw [find?_filter_of_imp fun g hg => ?_]
    simp only [Bool.and_eq_true, beq_iff_eq] at hg
    simpa [hg.1.1] using hne
  · rintro k u ⟨m, hr, hm⟩
    exact ⟨m, hr.mono fun e he => (List.mem_filter.mp he).1, (List.mem_filter.mp hm).1⟩

/-- **What `delete_user_group` does.**  It succeeds exactly when the group is a named group of the
acting user's realm and no other named group's `can_mention_group` names it.  When it succeeds, no
row of the group table has the group's id any more, no membership row and no subgroup row names
it, every other group is found by `access_user_group_by_id` as before, and nobody becomes a member
of a group they were not in. -/
theorem deleteUserGroup_reads_back (userProfile : UserProfile) (userGroupId : Int) :
    ((deleteUserGroup s userProfile userGroupId).2 = .ok () ↔
      (∃ userGroup, accessUserGroupById s userGroupId userProfile = .ok userGroup) ∧
        ∀ g ∈ s.groups, g.isNamed = true → g.canMentionGroup = userGroupId →
          g.id = userGroupId) ∧
    ∀ s', deleteUserGroup s userProfile userGroupId = (s', .ok ()) →
      ¬ s'.HasGroup userGroupId ∧ (∀ m ∈ s'.memberships, m.1 ≠ userGroupId) ∧
      (∀ e ∈ s'.groupMemberships, e.1 ≠ userGroupId ∧ e.2 ≠ userGroupId) ∧
      (∀ groupId, groupId ≠ userGroupId → ∀ reader,
        accessUserGroupById s' groupId reader = accessUserGroupById s groupId reader) ∧
      ∀ k u, EffectiveMember s' k u → EffectiveMember s k u :=
  ⟨deleteUserGroup_ok_iff userProfile userGroupId, fun _ => deleteUserGroup_leaves⟩

/-- Ann deletes `leads`, which no other group's setting names. -/
theorem deleteUserGroup_reads_back_leads :
    (deleteUserGroup teamStore ⟨1, 7, "Ann", false, true⟩ 11).2 = .ok () ∧
      (∃ userGroup, accessUserGroupById teamStore 11 ⟨1, 7, "Ann", false, true⟩ = .ok userGroup) ∧
      ∀ g ∈ teamStore.groups, g.isNamed = true → g.canMentionGroup = 11 → g.id = 11 :=
  ⟨rfl, (deleteUserGroup_reads_back ⟨1, 7, "Ann", false, true⟩ 11).1.mp rfl⟩

end Delete

end Zerver.UserGroups

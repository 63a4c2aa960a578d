import Zerver.UserGroups.Edit

/-!
# Creating and deleting groups

What `add_user_group` and `delete_user_group` do, stated once: the part of `add_user_group`
before `check_add_user_group` (`prepareUserGroup_eq_ok`), `check_add_user_group` itself, and
`check_delete_user_group`.  The invariant of `Zerver.UserGroups.Invariant` and the realm
isolation of `Zerver.UserGroups.Realm` are proved from these.

`handle_fst_of_ne_ok` says what a failed request leaves behind: nothing, except for
`add_user_group`, which is not in a transaction.
-/

namespace Zerver.UserGroups

section Spec

variable {s s' : Store} {userProfile : UserProfile}

/-- The configured default is a named group of the realm. -/
theorem defaultSettingGroup_eq_ok {realm : Nat} {permissionConfig : GroupPermissionSetting}
    {g : UserGroup} (h : defaultSettingGroup s realm permissionConfig = .ok g) :
    g ∈ s.groups ∧ g.realm = realm ∧ g.isNamed = true := by
  unfold defaultSettingGroup at h
  split at h
  · rename_i hfind
    cases h
    have hp := List.find?_some hfind
    simp only [Bool.and_eq_true, beq_iff_eq] at hp
    exact ⟨List.mem_of_find?_eq_some hfind, hp.1.1, hp.1.2⟩
  · cases h

/-- **`check_add_user_group`**: the name is free in the realm, the setting group is the given one
or the realm's default, and a named group is created with the initial members. -/
theorem checkAddUserGroup_eq_ok {permissionConfig : GroupPermissionSetting} {realm : Nat}
    {name description : String} {initialMembers : List UserProfile}
    {groupSettingsMap : Option UserGroup}
    (h : checkAddUserGroup s permissionConfig realm name initialMembers description
      groupSettingsMap userProfile = .ok s') :
    nameTaken s realm name s.nextGroupId = false ∧ ∃ settingGroup,
      (groupSettingsMap = some settingGroup ∨ groupSettingsMap = none ∧
        defaultSettingGroup s realm permissionConfig = .ok settingGroup) ∧
      s' = { (s.createGroup realm true name description settingGroup.id initialMembers []
          userProfile).1 with
        auditLog := (s.createGroup realm true name description settingGroup.id initialMembers []
          userProfile).1.auditLog ++
          [auditEntry (s.createGroup realm true name description settingGroup.id initialMembers []
            userProfile).2 userProfile (.directMembersAdded (initialMembers.map UserProfile.id))] }
    := by
  unfold checkAddUserGroup at h
  split at h
  · exact absurd h throw_ne_ok
  rename_i hfree
  obtain ⟨settingGroup, hsg, h⟩ := bind_eq_ok.mp h
  refine ⟨by simpa using hfree, settingGroup, ?_, (pure_eq_ok.mp h).symm⟩
  cases groupSettingsMap with
  | some g => exact .inl (congrArg some (pure_eq_ok.mp hsg))
  | none => exact .inr ⟨rfl, hsg⟩

/-- **The part of `add_user_group` before `check_add_user_group`**: the members and the name are
checked, and a given setting is resolved, which may create an anonymous group. -/
theorem prepareUserGroup_eq_ok {name : String} {members : List Int}
    {canMentionGroup : Option GroupSettingRequest}
    {q : Store × List UserProfile × String × Option UserGroup}
    (h : prepareUserGroup s userProfile name members canMentionGroup = .ok q) :
    userIdsToUsers s members userProfile.realm = .ok q.2.1 ∧
      ((canMentionGroup = none ∧ q.1 = s ∧ q.2.2.2 = none) ∨
        ∃ value settingValueGroup, canMentionGroup = some value ∧
          accessUserGroupForSetting s (parseGroupSettingValue value) userProfile =
            .ok (q.1, settingValueGroup) ∧ q.2.2.2 = some settingValueGroup) := by
  unfold prepareUserGroup at h
  obtain ⟨users, husers, h⟩ := bind_eq_ok.mp h
  obtain ⟨name', -, h⟩ := bind_eq_ok.mp h
  cases canMentionGroup with
  | none =>
      obtain rfl := pure_eq_ok.mp h
      exact ⟨husers, .inl ⟨rfl, rfl, rfl⟩⟩
  | some value =>
      obtain ⟨⟨s₁, g⟩, hp, h⟩ := bind_eq_ok.mp h
      obtain rfl := pure_eq_ok.mp h
      exact ⟨husers, .inr ⟨value, g, rfl, hp, rfl⟩⟩

/-- The name `add_user_group` goes on with is the requested one. -/
theorem prepareUserGroup_name {name : String} {members : List Int}
    {canMentionGroup : Option GroupSettingRequest}
    {q : Store × List UserProfile × String × Option UserGroup}
    (h : prepareUserGroup s userProfile name members canMentionGroup = .ok q) : q.2.2.1 = name := by
  unfold prepareUserGroup at h
  obtain ⟨_, -, h⟩ := bind_eq_ok.mp h
  obtain ⟨name', hname, h⟩ := bind_eq_ok.mp h
  rw [← (checkUserGroupName_eq_ok hname).1]
  cases canMentionGroup with
  | none => rw [← pure_eq_ok.mp h]
  | some value =>
      obtain ⟨_, -, h⟩ := bind_eq_ok.mp h
      rw [← pure_eq_ok.mp h]

/-- **`check_delete_user_group`**: no other named group's setting names the group, and then its
row goes with its membership rows and every subgroup row it is part of. -/
theorem checkDeleteUserGroup_eq_ok {userGroup : UserGroup}
    (h : checkDeleteUserGroup s userGroup userProfile = .ok s') :
    (∀ g ∈ s.groups, g.isNamed = true → g.canMentionGroup = userGroup.id →
        g.id = userGroup.id) ∧
      s' = { s with
        groups := s.groups.filter fun g => g.id != userGroup.id
        memberships := s.memberships.filter fun m => m.1 != userGroup.id
        groupMemberships := s.groupMemberships.filter fun e =>
          e.1 != userGroup.id && e.2 != userGroup.id
        auditLog := s.auditLog ++ [auditEntry userGroup userProfile .userGroupDeleted] } := by
  unfold checkDeleteUserGroup at h
  split at h
  · cases h
  · rename_i hunused
    cases h
    refine ⟨fun g hg hnamed hset => ?_, rfl⟩
    by_contra hne
    exact hunused (List.any_eq_true.mpr ⟨g, hg, by simp [hnamed, hset, hne]⟩)

/-- `delete_user_group`'s body: the group resolves through the locks and passes the check. -/
theorem deleteUserGroup_body_eq_ok {userGroupId : Int}
    (h : (do
      let context ← lockSubgroupsWithRespectToSupergroup s [userGroupId] userGroupId userProfile
      checkDeleteUserGroup s context.supergroup userProfile) = .ok s') :
    ∃ userGroup, accessUserGroupById s userGroupId userProfile = .ok userGroup ∧
      checkDeleteUserGroup s userGroup userProfile = .ok s' := by
  obtain ⟨context, hcontext, h⟩ := bind_eq_ok.mp h
  exact ⟨_, (lockSubgroupsWithRespectToSupergroup_eq_ok.mp hcontext).1, h⟩

end Spec

/-! ## Failed requests -/

/-- A transaction that fails leaves the store as it found it. -/
theorem atomic_fst_of_ne_ok {body : Store → Except String Store} {s : Store}
    (h : (atomic body s).2 ≠ .ok ()) : (atomic body s).1 = s := by
  unfold atomic at h ⊢
  split
  · simp_all
  · rfl

/-- A transaction that succeeds keeps what its body wrote. -/
theorem exists_of_atomic_snd_eq_ok {body : Store → Except String Store} {s : Store}
    (h : (atomic body s).2 = .ok ()) : ∃ s', body s = .ok s' ∧ (atomic body s).1 = s' := by
  cases hb : body s with
  | ok s' => exact ⟨s', rfl, by simp [atomic, hb]⟩
  | error e => simp [atomic, hb] at h

/-- **A failed request leaves the store as it found it**, except `add_user_group`, which runs
outside a transaction: when `check_add_user_group` refuses, the anonymous group that
`access_user_group_for_setting` created for `can_mention_group` stays. -/
theorem handle_fst_of_ne_ok (permissionConfig : GroupPermissionSetting) (s : Store)
    (userProfile : UserProfile) (request : Request)
    (h : (handle permissionConfig s userProfile request).2 ≠ .ok ()) :
    (handle permissionConfig s userProfile request).1 = s ∨
      ∃ name members description value settingValueGroup,
        request = .addUserGroup name members description (some value) ∧
        accessUserGroupForSetting s (parseGroupSettingValue value) userProfile =
          .ok ((handle permissionConfig s userProfile request).1, settingValueGroup) := by
  cases request with
  | addUserGroup name members description canMentionGroup =>
      simp only [handle, addUserGroup] at h ⊢
      split at h
      · exact .inl (by simp only [*])
      · rename_i q hq
        rw [atomic_fst_of_ne_ok h]
        rcases (prepareUserGroup_eq_ok hq).2 with ⟨-, hs, -⟩ | ⟨value, g, rfl, hvalue, -⟩
        · exact .inl hs
        · exact .inr ⟨name, members, description, value, g, rfl, hvalue⟩
  | editUserGroup | deleteUserGroup => exact .inl (atomic_fst_of_ne_ok h)
  | updateUserGroupBackend | updateSubgroupsOfUserGroup =>
      -- "Nothing to do" comes before the transaction
      simp only [handle, updateUserGroupBackend, updateSubgroupsOfUserGroup] at h ⊢
      split
      · exact .inl rfl
      · exact .inl (atomic_fst_of_ne_ok (by simpa [*] using h))

/-- Ann creates a second `eng` with an anonymous `can_mention_group`: the name is taken, and the
anonymous group of Bob stays behind. -/
theorem handle_fst_of_ne_ok_taken_name :
    (handle ⟨"role:everyone"⟩ teamStore ⟨1, 7, "Ann", false, true⟩
        (.addUserGroup "eng" [] "" (some (.dict [2] [])))).2 ≠ .ok () ∧
      (handle ⟨"role:everyone"⟩ teamStore ⟨1, 7, "Ann", false, true⟩
        (.addUserGroup "eng" [] "" (some (.dict [2] [])))).1 ≠ teamStore ∧
      ((handle ⟨"role:everyone"⟩ teamStore ⟨1, 7, "Ann", false, true⟩
        (.addUserGroup "eng" [] "" (some (.dict [2] [])))).1 = teamStore ∨
        ∃ name members description value settingValueGroup,
          (Request.addUserGroup "eng" [] "" (some (.dict [2] [])) : Request) =
            .addUserGroup name members description (some value) ∧
          accessUserGroupForSetting teamStore (parseGroupSettingValue value)
              ⟨1, 7, "Ann", false, true⟩ =
            .ok ((handle ⟨"role:everyone"⟩ teamStore ⟨1, 7, "Ann", false, true⟩
              (.addUserGroup "eng" [] "" (some (.dict [2] [])))).1, settingValueGroup)) :=
  have hrun : (handle ⟨"role:everyone"⟩ teamStore ⟨1, 7, "Ann", false, true⟩
        (.addUserGroup "eng" [] "" (some (.dict [2] [])))).2 ≠ .ok () ∧
      (handle ⟨"role:everyone"⟩ teamStore ⟨1, 7, "Ann", false, true⟩
        (.addUserGroup "eng" [] "" (some (.dict [2] [])))).1 ≠ teamStore := by
    simp only [handle, addUserGroup, prepareUserGroup, checkUserGroupName_eng, bind, Except.bind]
    exact ⟨(fun h => by cases h), by decide⟩
  ⟨hrun.1, hrun.2, handle_fst_of_ne_ok _ _ _ _ hrun.1⟩

/-! ## Successful requests with an add list only -/

section AddOnly

variable {s : Store} {userProfile : UserProfile} {userGroupId : Int} {ids : List Int}

/-- A successful `update_user_group_backend` with an add list and no delete list is its add. -/
theorem addMembersToGroupBackend_of_updateUserGroupBackend
    (h : (updateUserGroupBackend s userProfile userGroupId [] ids).2 = .ok ()) :
    ids ≠ [] ∧ addMembersToGroupBackend s userProfile userGroupId ids =
      .ok (updateUserGroupBackend s userProfile userGroupId [] ids).1 := by
  unfold updateUserGroupBackend at h ⊢
  split at h
  · cases h
  rename_i hne
  rw [if_neg hne]
  obtain ⟨_, hbody, hs'⟩ := exists_of_atomic_snd_eq_ok h
  obtain ⟨_, hadd, hrem⟩ := composeViews_pair_eq_ok.mp hbody
  cases hrem
  exact ⟨fun hnil => hne (by simp [hnil]), hs' ▸ hadd⟩

/-- A successful `update_subgroups_of_user_group` with an add list and no delete list is its
add. -/
theorem addSubgroupsToGroupBackend_of_updateSubgroupsOfUserGroup
    (h : (updateSubgroupsOfUserGroup s userProfile userGroupId [] ids).2 = .ok ()) :
    ids ≠ [] ∧ addSubgroupsToGroupBackend s userProfile userGroupId ids =
      .ok (updateSubgroupsOfUserGroup s userProfile userGroupId [] ids).1 := by
  unfold updateSubgroupsOfUserGroup at h ⊢
  split at h
  · cases h
  rename_i hne
  rw [if_neg hne]
  obtain ⟨_, hbody, hs'⟩ := exists_of_atomic_snd_eq_ok h
  obtain ⟨_, hadd, hrem⟩ := composeViews_pair_eq_ok.mp hbody
  cases hrem
  exact ⟨fun hnil => hne (by simp [hnil]), hs' ▸ hadd⟩

end AddOnly

end Zerver.UserGroups

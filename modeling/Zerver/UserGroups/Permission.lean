import Zerver.UserGroups.ReadBack

/-!
# What a group setting grants

A group setting such as `can_mention_group` names a user group and grants its permission to the
users in that group: the group's direct members and the members of its recursive subgroups
(`EffectiveMember`).  The API gives a setting value either as a group id or as an anonymous group,
listed by direct members and direct subgroups.  This module says which users such a value
describes, and shows that the group `add_user_group` or `edit_user_group` leaves in the setting
grants exactly those.

## Main Definitions

* `SettingMeaning.Grants` — the users a setting value describes.

## Main Results

* `effectiveMember_iff_grants_of_not_changed` — **an unchanged setting grants the same users**:
  when `check_setting_value_changed` finds no change, the members of the current setting group
  are the users the new value describes, so skipping the write changes no permission.
* `canMentionGroup_grants_as_requested` — **the setting grants as requested**: the group that
  `add_user_group` or `edit_user_group` leaves in the setting grants exactly the users the request
  describes.

## Design Notes

The anonymous case rests on one fact about the closure (`effectiveMember_iff_direct`): a group's
members are its direct members and the members of its direct subgroups.  The views are taken from
`addUserGroup_eq_ok_inv` and `editUserGroupBody_settled`, which say what the setting column names
after each view: a group for which `check_setting_value_changed` finds the request unchanged.
-/

namespace Zerver.UserGroups

/-- **The users a setting value describes**: for a group id, the group's members; for an
anonymous group, the listed users and the members of the listed subgroups. -/
def SettingMeaning.Grants (s : Store) : SettingMeaning → Int → Prop
  | .group id, u => EffectiveMember s id u
  | .sets members subgroups, u => u ∈ members ∨ ∃ c ∈ subgroups, EffectiveMember s c u

instance (s : Store) (meaning : SettingMeaning) (u : Int) : Decidable (meaning.Grants s u) :=
  match meaning with
  | .group id => inferInstanceAs (Decidable (EffectiveMember s id u))
  | .sets members subgroups =>
      inferInstanceAs (Decidable (u ∈ members ∨ ∃ c ∈ subgroups, EffectiveMember s c u))

/-- A group's members are its direct members and the members of its direct subgroups. -/
theorem effectiveMember_iff_direct {s : Store} {g u : Int} :
    EffectiveMember s g u ↔
      (g, u) ∈ s.memberships ∨
        ∃ c, (g, c) ∈ s.groupMemberships ∧ EffectiveMember s c u := by
  constructor
  · rintro ⟨m, hr, hm⟩
    rcases Relation.ReflTransGen.cases_head hr with rfl | ⟨c, hgc, hcm⟩
    · exact .inl hm
    · exact .inr ⟨c, hgc, m, hcm, hm⟩
  · rintro (hm | ⟨c, hgc, m, hcm, hm⟩)
    · exact ⟨g, .refl, hm⟩
    · exact ⟨m, .head hgc hcm, hm⟩

/-- **An unchanged setting grants the same users**: when `check_setting_value_changed` finds the
new value equal to the current setting group, the group's members are the users the value
describes. -/
theorem effectiveMember_iff_grants_of_not_changed {s : Store} {current : UserGroup}
    {value : GroupSettingValue} (h : checkSettingValueChanged s current value = false) (u : Int) :
    EffectiveMember s current.id u ↔ value.meaning.Grants s u := by
  rw [← (checkSettingValueChanged_eq_false_iff s current value).mp h, getGroupSettingValueForApi]
  split
  · rfl
  · simp only [GroupSettingValue.meaning, SettingMeaning.Grants, List.mem_toFinset,
      Store.mem_directMemberIds, Store.mem_directSubgroupIds]
    exact effectiveMember_iff_direct

/-- The row `getattr` fetches for a setting is the row of the id the setting names. -/
theorem getGroupById_id {s : Store} {groupId : Int} {g : UserGroup}
    (h : getGroupById s groupId = .ok g) : g.id = groupId := by
  unfold getGroupById at h
  split at h
  · rename_i hfind
    cases h
    exact beq_iff_eq.mp (by simpa using List.find?_some hfind)
  · cases h

/-- **The group a setting column names grants exactly the users the request describes.** -/
def GrantsAsRequested (s : Store) (userGroup : UserGroup) (value : GroupSettingRequest) : Prop :=
  ∀ u, EffectiveMember s userGroup.canMentionGroup u ↔
    (parseGroupSettingValue value).meaning.Grants s u

/-- **A created group's setting grants as requested.**  The new group, with an id no group of
the store had, resolves, and its setting grants the users the request describes. -/
theorem addUserGroup_setting_grants (permissionConfig : GroupPermissionSetting) {s s' : Store}
    (hv : s.Valid) {userProfile : UserProfile} {name description : String} {members : List Int}
    {value : GroupSettingRequest}
    (h : addUserGroup permissionConfig s userProfile name members description (some value) =
      (s', .ok ())) :
    ∃ userGroup, ¬ s.HasGroup userGroup.id ∧
      accessUserGroupById s' userGroup.id userProfile = .ok userGroup ∧
      GrantsAsRequested s' userGroup value := by
  obtain ⟨t, _, settingGroup, hvt, -, hgroups, -, -, hsgmem, hc, hchanged, -⟩ :=
    addUserGroup_eq_ok_inv permissionConfig hv h
  have ht := hvt.schema
  refine ⟨_, fun ⟨r, hr, hid⟩ => ht.not_hasGroup_next ⟨r, hgroups r hr, hid⟩,
    hc.accessUserGroupById_eq ht rfl rfl, effectiveMember_iff_grants_of_not_changed ?_⟩
  rw [checkSettingValueChanged, hc.api_of_ne (ht.id_lt_next _ hsgmem).ne,
    ← checkSettingValueChanged]
  exact hchanged value rfl

/-- **An edited group's setting grants as requested**, whether the view wrote a new setting or
found the value unchanged. -/
theorem editUserGroup_setting_grants {s s' : Store} (hs : s.Schema) {userProfile : UserProfile}
    {userGroupId : Int} {name description : Option String} {value : GroupSettingRequest}
    (h : editUserGroup s userProfile userGroupId name description (some value) = (s', .ok ())) :
    ∃ userGroup, accessUserGroupById s' userGroupId userProfile = .ok userGroup ∧
      GrantsAsRequested s' userGroup value := by
  obtain ⟨s₁, hbody, hs₁⟩ := exists_of_atomic_snd_eq_ok (congrArg Prod.snd h)
  obtain rfl : s₁ = s' := hs₁.symm.trans (congrArg Prod.fst h)
  obtain ⟨g₁, hacc, -, -, hsetting⟩ := editUserGroupBody_settled hs hbody
  obtain ⟨current, hcur, hsame⟩ := hsetting value rfl
  exact ⟨g₁, hacc, fun u =>
    getGroupById_id hcur ▸ effectiveMember_iff_grants_of_not_changed hsame u⟩

/-- **`can_mention_group` grants as requested, whichever view writes it.**  From a valid store,
when `add_user_group` or `edit_user_group` succeeds with a `can_mention_group` value, the group
it created or edited resolves, and the users in the group its setting names (its direct members
and the members of its recursive subgroups) are exactly the users the value describes: the
members of the group given by id, or the listed users and the members of the listed subgroups. -/
theorem canMentionGroup_grants_as_requested (permissionConfig : GroupPermissionSetting)
    {s : Store} (hv : s.Valid) (userProfile : UserProfile) (value : GroupSettingRequest) :
    (∀ name members description s',
      addUserGroup permissionConfig s userProfile name members description (some value) =
        (s', .ok ()) →
      ∃ userGroup, ¬ s.HasGroup userGroup.id ∧
        accessUserGroupById s' userGroup.id userProfile = .ok userGroup ∧
        GrantsAsRequested s' userGroup value) ∧
    (∀ userGroupId name description s',
      editUserGroup s userProfile userGroupId name description (some value) = (s', .ok ()) →
      ∃ userGroup, accessUserGroupById s' userGroupId userProfile = .ok userGroup ∧
        GrantsAsRequested s' userGroup value) :=
  ⟨fun _ _ _ _ h => addUserGroup_setting_grants permissionConfig hv h,
    fun _ _ _ _ h => editUserGroup_setting_grants hv.schema h⟩

/-- Ann, alone in her realm, creates or edits a group that she and the members of group 10 may
mention. -/
theorem canMentionGroup_grants_as_requested_emptyRealm :
    let ann : UserProfile := ⟨1, 7, "Ann", false, true⟩
    emptyRealmStore.Valid ∧
      (∀ name members description s',
        addUserGroup ⟨"role:everyone"⟩ emptyRealmStore ann name members description
          (some (.dict [1] [10])) = (s', .ok ()) →
        ∃ userGroup, ¬ emptyRealmStore.HasGroup userGroup.id ∧
          accessUserGroupById s' userGroup.id ann = .ok userGroup ∧
          GrantsAsRequested s' userGroup (.dict [1] [10])) ∧
      (∀ userGroupId name description s',
        editUserGroup emptyRealmStore ann userGroupId name description (some (.dict [1] [10])) =
          (s', .ok ()) →
        ∃ userGroup, accessUserGroupById s' userGroupId ann = .ok userGroup ∧
          GrantsAsRequested s' userGroup (.dict [1] [10])) := by
  intro ann
  exact ⟨emptyRealmStore_valid,
    canMentionGroup_grants_as_requested ⟨"role:everyone"⟩ emptyRealmStore_valid ann
      (.dict [1] [10])⟩

end Zerver.UserGroups

import Zerver.UserGroups.GraphRuns
import Zerver.UserGroups.Names

/-!
# Each anonymous group belongs to one setting

The spec gives anonymous groups no lifecycle of their own: one is created when a permission
setting is given as a set of users and subgroups, and it is owned by the setting that refers to
it.  `runRequests_anonymous_owned` shows that no request changes an anonymous group.  This module
shows that no request shares one: an anonymous group is the `can_mention_group` of at most one
named group and the subgroup of no group, in every store a run of requests reaches from a store
where this holds.

## Main Definitions

* `SettingsUnshared groups` — two named groups whose setting is one anonymous group are one group.
* `Unclaimed groups x` — a setting may be pointed at `x`: it is no anonymous group that a setting
  already names.
* `GroupGraph.SubgroupsNamed` — every subgroup edge ends at a named group.

## Main Results

* `SettingsUnshared.append`, `SettingsUnshared.rowEdit` — the two writes to the group table that
  can set a setting: inserting a row, and changing columns of one group's rows.
* `settingsUnshared_handle` — one request of any kind keeps the settings unshared.
* `GraphRun.subgroupsNamed` — the graph machine adds subgroup edges only to named groups, and a
  deleted group takes the edges into it along.
* `runRequests_anonymous_unshared` — every run of the views keeps both.

## Design Notes

Settings are not part of the group graph, so the first half is proved on the store, the way
`Zerver.UserGroups.Names` proves names unique: one lemma for each kind of write to the group
table, then one for each view.  Two writes set a setting: `check_add_user_group` inserts a named
group, and `do_change_user_group_permission_setting` writes one group's column.  Both point it at a
group that `access_user_group_for_setting` or the configured default resolved: a named group, or
the anonymous group just created with the id the sequence hands out next, which no setting names
yet because every setting names a group (`Store.Schema`).  The second half is a property of the
graph machine, carried to the views by `graphRun_runRequests`.
-/

namespace Zerver.UserGroups

/-! ## Settings -/

/-- **No two named groups share an anonymous setting group**: two named groups whose
`can_mention_group` is the id of one anonymous group have one id. -/
def SettingsUnshared (groups : List UserGroup) : Prop :=
  ∀ a ∈ groups, a.isNamed = false → ∀ g ∈ groups, ∀ h ∈ groups, g.isNamed = true →
    h.isNamed = true → g.canMentionGroup = a.id → h.canMentionGroup = a.id → g.id = h.id

instance (groups : List UserGroup) : Decidable (SettingsUnshared groups) :=
  inferInstanceAs (Decidable (∀ a ∈ groups, a.isNamed = false → ∀ g ∈ groups, ∀ h ∈ groups,
    g.isNamed = true → h.isNamed = true → g.canMentionGroup = a.id → h.canMentionGroup = a.id →
      g.id = h.id))

/-- **A setting may be pointed at `x`**: `x` is not the id of an anonymous group that a named
group's setting already names. -/
def Unclaimed (groups : List UserGroup) (x : Int) : Prop :=
  ∀ a ∈ groups, a.isNamed = false → a.id = x → ∀ r ∈ groups, r.isNamed = true →
    r.canMentionGroup ≠ x

/-- A named group may be pointed at: group ids are a key, so no anonymous group has its id. -/
theorem unclaimed_of_named {groups : List UserGroup} (hnodup : (groups.map UserGroup.id).Nodup)
    {g : UserGroup} (hg : g ∈ groups) (hnamed : g.isNamed = true) : Unclaimed groups g.id := by
  intro a ha hna hid
  rw [List.inj_on_of_nodup_map hnodup ha hg hid, hnamed] at hna
  cases hna

/-- No setting names the id the sequence hands out next: every setting names a group. -/
theorem Store.Schema.setting_ne_next {s : Store} (hs : s.Schema) {r : UserGroup}
    (hr : r ∈ s.groups) (hnamed : r.isNamed = true) : r.canMentionGroup ≠ s.nextGroupId :=
  fun h => hs.not_hasGroup_next (h ▸ hs.settingExists r hr hnamed)

/-! ### The kinds of write -/

section Writes

variable {groups groups' : List UserGroup}

/-- **Deleting rows** keeps settings unshared. -/
theorem SettingsUnshared.mono (h : SettingsUnshared groups) (hsub : ∀ g ∈ groups', g ∈ groups) :
    SettingsUnshared groups' := fun a ha hna g hg k hk =>
  h a (hsub a ha) hna g (hsub g hg) k (hsub k hk)

/-- **Inserting a row** keeps settings unshared when an anonymous row has an id no setting names,
and a named row's setting may be pointed at. -/
theorem SettingsUnshared.append (h : SettingsUnshared groups) {n : UserGroup}
    (hanonymous : n.isNamed = false → ∀ r ∈ groups, r.isNamed = true → r.canMentionGroup ≠ n.id)
    (hnamed : n.isNamed = true → Unclaimed groups n.canMentionGroup) :
    SettingsUnshared (groups ++ [n]) := by
  intro a ha hna g hg k hk hng hnk hga hka
  rcases List.mem_append.mp ha with ha₁ | ha₁
  · rcases List.mem_append.mp hg with hg₁ | hg₁ <;>
      rcases List.mem_append.mp hk with hk₁ | hk₁
    · exact h a ha₁ hna g hg₁ k hk₁ hng hnk hga hka
    · obtain rfl := List.mem_singleton.mp hk₁
      exact absurd (hga.trans hka.symm) (hnamed hnk a ha₁ hna hka.symm g hg₁ hng)
    · obtain rfl := List.mem_singleton.mp hg₁
      exact absurd (hka.trans hga.symm) (hnamed hng a ha₁ hna hga.symm k hk₁ hnk)
    · rw [List.mem_singleton.mp hg₁, List.mem_singleton.mp hk₁]
  · -- the new row is the anonymous group: a named row naming it is an old one
    obtain rfl := List.mem_singleton.mp ha₁
    rcases List.mem_append.mp hg with hg₁ | hg₁
    · exact absurd hga (hanonymous hna g hg₁ hng)
    · rw [List.mem_singleton.mp hg₁, hna] at hng
      cases hng

/-- **Changing columns of one group's rows** keeps settings unshared when a named group naming the
anonymous group the rows' new setting names is that group. -/
theorem SettingsUnshared.rowEdit {s t : Store} {groupId : Int} {f : UserGroup → UserGroup}
    (h : SettingsUnshared s.groups) (he : RowEdit s t groupId f)
    (hfree : ∀ r ∈ s.groups, r.id = groupId → r.isNamed = true → ∀ a ∈ s.groups,
      a.isNamed = false → (f r).canMentionGroup = a.id → ∀ q ∈ s.groups, q.isNamed = true →
        q.canMentionGroup = a.id → q.id = groupId) :
    SettingsUnshared t.groups := by
  -- the row an update leaves in place of `g` is of `g`'s kind
  have hrow : ∀ g, (if g.id = groupId then f g else g).isNamed = g.isNamed := fun g => by
    split
    · exact (he.keepsKey g).2.2
    · rfl
  rw [he.groups]
  intro a' ha' hna g' hg' k' hk' hng hnk hga hka
  obtain ⟨a, ha, rfl⟩ := List.mem_map.mp ha'
  obtain ⟨g, hg, rfl⟩ := List.mem_map.mp hg'
  obtain ⟨k, hk, rfl⟩ := List.mem_map.mp hk'
  rw [he.map_id, he.map_id]
  rw [he.map_id] at hga hka
  rw [hrow] at hna hng hnk
  by_cases hidg : g.id = groupId <;> by_cases hidk : k.id = groupId <;>
    simp only [hidg, hidk, if_true, if_false] at hga hka
  · exact hidg.trans hidk.symm
  · exact hidg.trans (hfree g hg hidg hng a ha hna hga k hk hnk hka).symm
  · exact (hfree k hk hidk hnk a ha hna hka g hg hng hga).trans hidk.symm
  · exact h a ha hna g hg k hk hng hnk hga hka

/-- An update that keeps the setting column keeps settings unshared. -/
theorem SettingsUnshared.rowEdit_of_setting {s t : Store} {groupId : Int}
    {f : UserGroup → UserGroup} (h : SettingsUnshared s.groups) (he : RowEdit s t groupId f)
    (hsetting : ∀ g, (f g).canMentionGroup = g.canMentionGroup) : SettingsUnshared t.groups :=
  h.rowEdit he fun r hr hid hnr a ha hna hra q hq hnq hqa =>
    (h a ha hna q hq r hr hnq hnr hqa ((hsetting r).symm.trans hra)).trans hid

/-- **Pointing one group's setting at `x`** keeps settings unshared when a setting may be pointed
at `x`. -/
theorem SettingsUnshared.setSetting {s t : Store} {groupId x : Int} {f : UserGroup → UserGroup}
    (h : SettingsUnshared s.groups) (he : RowEdit s t groupId f)
    (hset : ∀ g, (f g).canMentionGroup = x) (hx : Unclaimed s.groups x) :
    SettingsUnshared t.groups :=
  h.rowEdit he fun r _ _ _ a ha hna hra q hq hnq hqa =>
    have hid : a.id = x := hra.symm.trans (hset r)
    absurd (hqa.trans hid) (hx a ha hna hid q hq hnq)

end Writes

/-! ### The views keep settings unshared -/

section Views

variable {s s' : Store} {userProfile : UserProfile}

/-- **What `access_user_group_for_setting` resolves may be pointed at**: a named group, or the
anonymous group it creates, with the id the sequence hands out next. -/
theorem settingsUnshared_accessUserGroupForSetting (hv : s.Valid)
    (hu : SettingsUnshared s.groups) {value : GroupSettingValue} {p : Store × UserGroup}
    (h : accessUserGroupForSetting s value userProfile = .ok p) :
    SettingsUnshared p.1.groups ∧ Unclaimed p.1.groups p.2.id := by
  rcases accessUserGroupForSetting_eq_ok h with ⟨_, -, hg, hp⟩ | ⟨_, -, _, -, -, rfl⟩
  · obtain ⟨hmem, -, -, hnamed⟩ := accessUserGroupById_eq_ok hg
    rw [hp]
    exact ⟨hu, unclaimed_of_named hv.schema.groupIdsNodup hmem hnamed⟩
  · have hfresh : ∀ r ∈ s.groups, r.isNamed = true → r.canMentionGroup ≠ s.nextGroupId :=
      fun r hr hnamed => hv.schema.setting_ne_next hr hnamed
    refine ⟨hu.append (fun _ => hfresh) (fun h => nomatch h), ?_⟩
    intro a _ _ _ r hr hnamed
    rcases List.mem_append.mp hr with hr | hr
    · exact hfresh r hr hnamed
    · rw [List.mem_singleton.mp hr] at hnamed
      cases hnamed

theorem settingsUnshared_editGroupName (hu : SettingsUnshared s.groups) {userGroup : UserGroup}
    {name : Option String} (h : editGroupName s userProfile userGroup name = .ok s') :
    SettingsUnshared s'.groups :=
  let ⟨_, he, _, hkeep⟩ := editGroupName_rowEdit h
  hu.rowEdit_of_setting he fun g => (hkeep g).2

theorem settingsUnshared_editGroupDescription (hu : SettingsUnshared s.groups)
    (userProfile : UserProfile) (userGroup : UserGroup) (description : Option String) :
    SettingsUnshared (editGroupDescription s userProfile userGroup description).groups :=
  let ⟨_, he, _, hkeep⟩ := editGroupDescription_rowEdit s userProfile userGroup description
  hu.rowEdit_of_setting he fun g => (hkeep g).2

/-- The setting step writes nothing, or points the setting at what `access_user_group_for_setting`
resolved. -/
theorem settingsUnshared_editGroupSetting (hv : s.Valid) (hu : SettingsUnshared s.groups)
    {userGroup : UserGroup} {value : GroupSettingRequest}
    (h : editGroupSetting s userProfile userGroup value = .ok s') : SettingsUnshared s'.groups := by
  obtain ⟨-, -, ⟨-, rfl⟩ | ⟨p, hp, rfl⟩⟩ := editGroupSetting_eq_ok h
  · exact hu
  · obtain ⟨hu₁, hx⟩ := settingsUnshared_accessUserGroupForSetting hv hu hp
    exact hu₁.setSetting (doChangeUserGroupPermissionSetting_rowEdit _ _ _ _) (fun _ => rfl) hx

theorem settingsUnshared_editUserGroup (hv : s.Valid) (hu : SettingsUnshared s.groups)
    {userGroupId : Int} {name description : Option String}
    {canMentionGroup : Option GroupSettingRequest} :
    SettingsUnshared
      (editUserGroup s userProfile userGroupId name description canMentionGroup).1.groups := by
  refine @atomic_fst_of _ (fun t => SettingsUnshared t.groups) _ hu fun h => ?_
  obtain ⟨-, userGroup, -, s₁, h₁, hnone, hsome⟩ := editUserGroupBody_eq_ok.mp h
  have hu₂ := settingsUnshared_editGroupDescription (settingsUnshared_editGroupName hu h₁)
    userProfile userGroup description
  cases canMentionGroup with
  | none => exact (hnone rfl) ▸ hu₂
  | some value =>
      exact settingsUnshared_editGroupSetting (valid_editGroupDescription
        (valid_editGroupName hv h₁) userProfile userGroup description) hu₂ (hsome value rfl)

theorem settingsUnshared_deleteUserGroup (hu : SettingsUnshared s.groups) {userGroupId : Int} :
    SettingsUnshared (deleteUserGroup s userProfile userGroupId).1.groups := by
  refine @atomic_fst_of _ (fun t => SettingsUnshared t.groups) _ hu fun h => ?_
  obtain ⟨_, -, h⟩ := deleteUserGroup_body_eq_ok h
  obtain ⟨-, rfl⟩ := checkDeleteUserGroup_eq_ok h
  exact hu.mono fun _ hg => (List.mem_filter.mp hg).1

/-- `update_user_group_backend` writes no group row. -/
theorem updateUserGroupBackend_groups {userGroupId : Int} {delete add : List Int} :
    (updateUserGroupBackend s userProfile userGroupId delete add).1.groups = s.groups :=
  updateUserGroupBackend_fst_of (fun t => t.groups = s.groups) rfl fun h₁ h₂ =>
    (memberships_of_removeMembersFromGroupBackend h₂).2.1.trans
      (memberships_of_addMembersToGroupBackend h₁).2.1

/-- `update_subgroups_of_user_group` writes no group row. -/
theorem updateSubgroupsOfUserGroup_groups {userGroupId : Int} {delete add : List Int} :
    (updateSubgroupsOfUserGroup s userProfile userGroupId delete add).1.groups = s.groups :=
  updateSubgroupsOfUserGroup_fst_of (fun t => t.groups = s.groups) rfl fun h₁ h₂ =>
    (subgroups_of_removeSubgroupsFromGroupBackend h₂).2.1.trans
      (subgroups_of_addSubgroupsToGroupBackend h₁).2.1

/-- `check_add_user_group` points the new group's setting at the given group, or at the realm's
default, a named group. -/
theorem settingsUnshared_checkAddUserGroup (hv : s.Valid) (hu : SettingsUnshared s.groups)
    {permissionConfig : GroupPermissionSetting} {realm : Nat} {name description : String}
    {initialMembers : List UserProfile} {groupSettingsMap : Option UserGroup}
    (hsetting : ∀ g, groupSettingsMap = some g → Unclaimed s.groups g.id)
    (h : checkAddUserGroup s permissionConfig realm name initialMembers description
      groupSettingsMap userProfile = .ok s') : SettingsUnshared s'.groups := by
  obtain ⟨-, settingGroup, hsg, rfl⟩ := checkAddUserGroup_eq_ok h
  have hx : Unclaimed s.groups settingGroup.id := by
    rcases hsg with hsg | ⟨-, hsg⟩
    · exact hsetting _ hsg
    · obtain ⟨hmem, -, hnamed⟩ := defaultSettingGroup_eq_ok hsg
      exact unclaimed_of_named hv.schema.groupIdsNodup hmem hnamed
  exact hu.append (fun h => nomatch h) fun _ => hx

theorem settingsUnshared_addUserGroup (hv : s.Valid) (hu : SettingsUnshared s.groups)
    {permissionConfig : GroupPermissionSetting} {name description : String} {members : List Int}
    {canMentionGroup : Option GroupSettingRequest} :
    SettingsUnshared (addUserGroup permissionConfig s userProfile name members description
      canMentionGroup).1.groups := by
  unfold addUserGroup
  split
  · exact hu
  · rename_i t _ _ groupSettingsMap hq
    -- what `prepareUserGroup` resolved may be pointed at
    have hprep : SettingsUnshared t.groups ∧
        ∀ g, groupSettingsMap = some g → Unclaimed t.groups g.id := by
      rcases (prepareUserGroup_eq_ok hq).2 with ⟨-, ht, hnone⟩ | ⟨_, X, -, hp, hsome⟩
      · refine ⟨(show t = s from ht) ▸ hu, fun g hg => ?_⟩
        rw [show groupSettingsMap = none from hnone] at hg
        cases hg
      · obtain ⟨hut, hX⟩ := settingsUnshared_accessUserGroupForSetting hv hu hp
        refine ⟨hut, fun g hg => ?_⟩
        rw [show groupSettingsMap = some X from hsome] at hg
        cases hg
        exact hX
    exact @atomic_fst_of _ (fun t => SettingsUnshared t.groups) _ hprep.1
      (settingsUnshared_checkAddUserGroup (valid_prepareUserGroup hv hq).1 hprep.1 hprep.2)

/-- One request of any kind keeps the settings unshared, whether it succeeds or fails. -/
theorem settingsUnshared_handle (permissionConfig : GroupPermissionSetting) (hv : s.Valid)
    (hu : SettingsUnshared s.groups) (request : Request) :
    SettingsUnshared (handle permissionConfig s userProfile request).1.groups := by
  cases request <;> simp only [handle]
  · exact settingsUnshared_addUserGroup hv hu
  · exact settingsUnshared_editUserGroup hv hu
  · exact settingsUnshared_deleteUserGroup hu
  · rw [updateUserGroupBackend_groups]
    exact hu
  · rw [updateSubgroupsOfUserGroup_groups]
    exact hu

theorem settingsUnshared_runRequests (permissionConfig : GroupPermissionSetting) :
    ∀ {s : Store} (requests : List (UserProfile × Request)), s.Valid →
      SettingsUnshared s.groups → SettingsUnshared (runRequests permissionConfig s requests).groups
  | _, [], _, hu => hu
  | _, (_, request) :: rest, hv, hu =>
      settingsUnshared_runRequests permissionConfig rest (valid_handle permissionConfig hv request)
        (settingsUnshared_handle permissionConfig hv hu request)

end Views

/-! ## Subgroup edges -/

namespace GroupGraph

/-- **Every subgroup edge ends at a named group.** -/
def SubgroupsNamed (A : GroupGraph) : Prop :=
  ∀ e ∈ A.subgroups, e.2 ∈ A.named

variable {A A' : GroupGraph}

theorem SubgroupsNamed.createGroup (h : A.SubgroupsNamed) {g : Int} {isNamed : Bool}
    {memberIds subgroupIds : List Int} (hsub : ∀ c ∈ subgroupIds, c ∈ A.named) :
    (A.createGroup g isNamed memberIds subgroupIds).SubgroupsNamed := by
  have hnamed := (subgraph_createGroup (A := A) g isNamed memberIds subgroupIds).named
  intro e he
  rcases Finset.mem_union.mp he with he | he
  · exact hnamed (h e he)
  · exact hnamed (hsub _ (mem_edges.mp he).2)

theorem SubgroupsNamed.resolves (h : A.SubgroupsNamed) {value : GroupSettingValue}
    (hr : A.Resolves A' value) : A'.SubgroupsNamed := by
  cases value with
  | groupId => exact hr.2 ▸ h
  | anonymous value =>
      obtain ⟨hsub, a, -, rfl⟩ := hr
      exact h.createGroup hsub

theorem SubgroupsNamed.resolvesSetting (h : A.SubgroupsNamed)
    {canMentionGroup : Option GroupSettingRequest} (hr : A.ResolvesSetting A' canMentionGroup) :
    A'.SubgroupsNamed := by
  cases canMentionGroup with
  | none => exact (show A' = A from hr) ▸ h
  | some value => exact h.resolves hr

end GroupGraph

open GroupGraph in
/-- **A step keeps subgroup edges ending at named groups**: a subgroup a request adds, or a new
anonymous group starts with, is named, and a deleted group goes with every edge into it. -/
theorem Request.Step.subgroupsNamed {request : Request} {A A' : GroupGraph}
    {outcome : Except String Unit} (hstep : request.Step A A' outcome) (h : A.SubgroupsNamed) :
    A'.SubgroupsNamed := by
  rcases outcome with _ | ⟨⟩
  · rcases hstep with rfl | ⟨_, _, _, _, -, hs⟩
    · exact h
    · exact h.resolvesSetting hs
  cases request with
  | addUserGroup =>
      obtain ⟨A₁, hs, g, -, rfl⟩ := hstep
      exact (h.resolvesSetting hs).createGroup fun _ hc => absurd hc (List.not_mem_nil _)
  | editUserGroup =>
      obtain ⟨-, -, rfl | hs⟩ := hstep
      exacts [h, h.resolvesSetting hs]
  | deleteUserGroup g =>
      obtain ⟨-, rfl⟩ := hstep
      intro e he
      simp only [deleteGroup, Finset.mem_filter] at he
      exact Finset.mem_erase.mpr ⟨he.2.2, h e he.1⟩
  | updateUserGroupBackend =>
      obtain ⟨-, -, -, -, rfl⟩ := hstep
      exact h
  | updateSubgroupsOfUserGroup g delete add =>
      obtain ⟨-, -, hadd, -, rfl⟩ := hstep
      intro e he
      simp only [removeSubgroups, addSubgroups, Finset.mem_filter, Finset.mem_union,
        mem_edges] at he
      rcases he.1 with he | he
      · exact h e he
      · exact (hadd _ he.2).1

/-- A run keeps subgroup edges ending at named groups. -/
theorem GraphRun.subgroupsNamed {A A' : GroupGraph} {requests : List Request}
    (hrun : GraphRun A requests A') (h : A.SubgroupsNamed) : A'.SubgroupsNamed := by
  induction hrun with
  | nil => exact h
  | cons _ hstep _ ih => exact ih (hstep.subgroupsNamed h)

theorem Store.graph_subgroupsNamed {s : Store} :
    s.graph.SubgroupsNamed ↔ ∀ e ∈ s.groupMemberships, s.HasNamedGroup e.2 := by
  simp [GroupGraph.SubgroupsNamed]

/-! ## Runs of the views -/

/-- **Each anonymous group belongs to one setting.**  From a store that keeps its constraints, in
which no two named groups have one anonymous group as their setting and every subgroup row's
subgroup is a named group, every sequence of requests, each succeeding or failing, leaves a store
in which an anonymous group is the `can_mention_group` of at most one named group, and the
subgroup of no group. -/
theorem runRequests_anonymous_unshared (permissionConfig : GroupPermissionSetting) {s : Store}
    (hv : s.Valid) (hu : SettingsUnshared s.groups)
    (hsub : ∀ e ∈ s.groupMemberships, s.HasNamedGroup e.2)
    (requests : List (UserProfile × Request)) :
    (∀ a ∈ (runRequests permissionConfig s requests).groups, a.isNamed = false →
      ∀ g ∈ (runRequests permissionConfig s requests).groups,
      ∀ h ∈ (runRequests permissionConfig s requests).groups, g.isNamed = true →
        h.isNamed = true → g.canMentionGroup = a.id → h.canMentionGroup = a.id → g = h) ∧
      ∀ a ∈ (runRequests permissionConfig s requests).groups, a.isNamed = false →
        ∀ e ∈ (runRequests permissionConfig s requests).groupMemberships, e.2 ≠ a.id := by
  have hnodup := (valid_runRequests permissionConfig requests hv).schema.groupIdsNodup
  have hnamed := Store.graph_subgroupsNamed.mp
    ((graphRun_runRequests permissionConfig requests hv).subgroupsNamed
      (Store.graph_subgroupsNamed.mpr hsub))
  refine ⟨fun a ha hna g hg h hh hng hnh hga hha => List.inj_on_of_nodup_map hnodup hg hh
    (settingsUnshared_runRequests permissionConfig requests hv hu a ha hna g hg h hh hng hnh hga
      hha), fun a ha hna e he hid => ?_⟩
  obtain ⟨g, hg, hng, hgid⟩ := hnamed e he
  rw [List.inj_on_of_nodup_map hnodup hg ha (hgid.trans hid), hna] at hng
  cases hng

/-- Ann creates `eng` with herself and `role:everyone` in an anonymous `can_mention_group`, and
then points its setting at a second anonymous group. -/
theorem runRequests_anonymous_unshared_emptyRealm :
    emptyRealmStore.Valid ∧ SettingsUnshared emptyRealmStore.groups ∧
      (∀ e ∈ emptyRealmStore.groupMemberships, emptyRealmStore.HasNamedGroup e.2) ∧
      ∀ a ∈ (runRequests ⟨"role:everyone"⟩ emptyRealmStore
          [(⟨1, 7, "Ann", false, true⟩, .addUserGroup "eng" [] "" (some (.dict [1] [10]))),
           (⟨1, 7, "Ann", false, true⟩, .editUserGroup 12 none none (some (.dict [1] [])))]).groups,
        a.isNamed = false →
        ∀ e ∈ (runRequests ⟨"role:everyone"⟩ emptyRealmStore
          [(⟨1, 7, "Ann", false, true⟩, .addUserGroup "eng" [] "" (some (.dict [1] [10]))),
           (⟨1, 7, "Ann", false, true⟩,
             .editUserGroup 12 none none (some (.dict [1] [])))]).groupMemberships, e.2 ≠ a.id :=
  have hsub : ∀ e ∈ emptyRealmStore.groupMemberships, emptyRealmStore.HasNamedGroup e.2 :=
    fun _ he => absurd he (List.not_mem_nil _)
  ⟨emptyRealmStore_valid, by decide, hsub,
    (runRequests_anonymous_unshared ⟨"role:everyone"⟩ emptyRealmStore_valid (by decide) hsub
      _).2⟩

end Zerver.UserGroups

import Zerver.UserGroups.Invariant

/-!
# Names are unique within a realm

A named group's name is unique in its realm; anonymous groups have no name of their own.  Two
writes of the views set a name: `check_add_user_group` creates a named group, and
`do_update_user_group_name` renames one.  Both first ask `nameTaken` whether another named group
of the realm has the name, and refuse if one has.  Every other write leaves the name columns alone,
creates an anonymous group, or deletes rows.  So no run of requests ever gives two named groups of
one realm the same name.

## Main Definitions

* `NamesUnique groups` — two named rows of one realm with one name have one id.

## Main Results

* `NamesUnique.mono`, `NamesUnique.append`, `NamesUnique.rowEdit` — the three kinds of write to
  the group table: deleting rows, inserting a row, and changing columns of one group's rows.
* `namesUnique_handle` — one request of any kind keeps the invariant.
* `runRequests_names_unique` — no run of requests gives two named groups of a realm one name.

## Design Notes

A rename writes the row the view fetched at the start of `edit_user_group`, and `nameTaken`
compares against that row's realm; the row the write changes has the fetched row's id, so it is
the fetched row only because group ids are a key.  This is why the invariant is carried beside
`Store.Valid` rather than alone.
-/

namespace Zerver.UserGroups

/-- **No two named groups of one realm share a name**: two such rows have one id. -/
def NamesUnique (groups : List UserGroup) : Prop :=
  ∀ g ∈ groups, ∀ h ∈ groups, g.isNamed = true → h.isNamed = true → g.realm = h.realm →
    g.name = h.name → g.id = h.id

instance (groups : List UserGroup) : Decidable (NamesUnique groups) :=
  inferInstanceAs (Decidable (∀ g ∈ groups, ∀ h ∈ groups, g.isNamed = true → h.isNamed = true →
    g.realm = h.realm → g.name = h.name → g.id = h.id))

/-- A free name: no named group of the realm other than `except` has it. -/
theorem id_eq_of_nameTaken_eq_false {s : Store} {realm : Nat} {name : String} {except : Int}
    (h : nameTaken s realm name except = false) {q : UserGroup} (hq : q ∈ s.groups)
    (hnamed : q.isNamed = true) (hrealm : q.realm = realm) (hname : q.name = name) :
    q.id = except := by
  have := List.any_eq_false.mp h q hq
  simp only [hrealm, beq_self_eq_true, hnamed, hname, Bool.and_true, Bool.true_and, bne_iff_ne,
    ne_eq, decide_eq_true_eq, Decidable.not_not] at this
  exact this

/-! ## The kinds of write -/

section Writes

variable {groups groups' : List UserGroup}

/-- **Deleting rows** keeps names unique. -/
theorem NamesUnique.mono (h : NamesUnique groups) (hsub : ∀ g ∈ groups', g ∈ groups) :
    NamesUnique groups' := fun g hg k hk => h g (hsub g hg) k (hsub k hk)

/-- **Inserting a row** keeps names unique when the row is anonymous, or no other named group of
its realm has its name. -/
theorem NamesUnique.append (h : NamesUnique groups) {g : UserGroup}
    (hfree : g.isNamed = true → ∀ r ∈ groups, r.isNamed = true → r.realm = g.realm →
      r.name = g.name → r.id = g.id) :
    NamesUnique (groups ++ [g]) := by
  intro a ha b hb hna hnb hrealm hname
  rcases List.mem_append.mp ha with ha₁ | ha₁ <;>
    rcases List.mem_append.mp hb with hb₁ | hb₁
  · exact h a ha₁ b hb₁ hna hnb hrealm hname
  · obtain rfl := List.mem_singleton.mp hb₁
    exact hfree hnb a ha₁ hna hrealm hname
  · obtain rfl := List.mem_singleton.mp ha₁
    exact (hfree hna b hb₁ hnb hrealm.symm hname.symm).symm
  · rw [List.mem_singleton.mp ha₁, List.mem_singleton.mp hb₁]

/-- **Changing columns of one group's rows** keeps names unique when no other named group of the
row's realm has the row's new name. -/
theorem NamesUnique.rowEdit {s t : Store} {groupId : Int} {f : UserGroup → UserGroup}
    (h : NamesUnique s.groups) (he : RowEdit s t groupId f)
    (hfree : ∀ r ∈ s.groups, r.id = groupId → r.isNamed = true → ∀ q ∈ s.groups,
      q.isNamed = true → q.realm = r.realm → q.name = (f r).name → q.id = groupId) :
    NamesUnique t.groups := by
  -- the row an update leaves in place of `g`, with its key columns
  have hrow : ∀ g, (if g.id = groupId then f g else g).realm = g.realm ∧
      (if g.id = groupId then f g else g).isNamed = g.isNamed := fun g => by
    split
    · exact (he.keepsKey g).2
    · exact ⟨rfl, rfl⟩
  rw [he.groups]
  intro a' ha' b' hb' hna hnb hrealm hname
  obtain ⟨a, ha, rfl⟩ := List.mem_map.mp ha'
  obtain ⟨b, hb, rfl⟩ := List.mem_map.mp hb'
  rw [he.map_id, he.map_id]
  rw [(hrow a).2] at hna
  rw [(hrow b).2] at hnb
  rw [(hrow a).1, (hrow b).1] at hrealm
  by_cases hida : a.id = groupId <;> by_cases hidb : b.id = groupId <;>
    simp only [hida, hidb, if_true, if_false] at hname
  · exact hida.trans hidb.symm
  · exact hida.trans (hfree a ha hida hna b hb hnb hrealm.symm hname.symm).symm
  · exact (hfree b hb hidb hnb a ha hna hrealm hname).trans hidb.symm
  · exact h a ha b hb hna hnb hrealm hname

/-- An update that keeps the name column keeps names unique. -/
theorem NamesUnique.rowEdit_of_name {s t : Store} {groupId : Int} {f : UserGroup → UserGroup}
    (h : NamesUnique s.groups) (he : RowEdit s t groupId f) (hname : ∀ g, (f g).name = g.name) :
    NamesUnique t.groups :=
  h.rowEdit he fun r hr hid hnr q hq hnq hrealm hq' =>
    (h q hq r hr hnq hnr hrealm (hq'.trans (hname r))).trans hid

end Writes

/-! ## The views keep the invariant -/

section Views

variable {s s' : Store} {userProfile : UserProfile}

theorem namesUnique_accessUserGroupForSetting (hn : NamesUnique s.groups)
    {value : GroupSettingValue} {p : Store × UserGroup}
    (h : accessUserGroupForSetting s value userProfile = .ok p) : NamesUnique p.1.groups := by
  rcases accessUserGroupForSetting_eq_ok h with ⟨_, -, -, hp⟩ | ⟨_, -, _, -, -, rfl⟩
  · exact hp ▸ hn
  · exact hn.append fun hnamed => absurd hnamed Bool.false_ne_true

/-- The name step renames only to a name no other named group of the realm has. -/
theorem namesUnique_editGroupName (hv : s.Valid) (hn : NamesUnique s.groups)
    {userGroupId : Int} {userGroup : UserGroup}
    (hug : accessUserGroupById s userGroupId userProfile = .ok userGroup) {name : Option String}
    (h : editGroupName s userProfile userGroup name = .ok s') : NamesUnique s'.groups := by
  unfold editGroupName at h
  split at h
  · split at h
    · rename_i n _
      obtain ⟨n', hn', h⟩ := bind_eq_ok.mp h
      rw [(checkUserGroupName_eq_ok hn').1] at h
      unfold doUpdateUserGroupName at h
      split at h
      · cases h
      rename_i hfree
      cases h
      refine hn.rowEdit (@RowEdit.modifyGroup s userGroup.id (fun g => { g with name := n })
        (fun _ => ⟨rfl, rfl, rfl⟩) _) ?_
      intro r hr hid _ q hq hnq hrealm hname
      have hmem := (accessUserGroupById_eq_ok hug).1
      obtain rfl := List.inj_on_of_nodup_map hv.schema.groupIdsNodup hr hmem hid
      exact id_eq_of_nameTaken_eq_false (eq_false_of_ne_true hfree) hq hnq hrealm hname
    · exact pure_eq_ok.mp h ▸ hn
  · exact pure_eq_ok.mp h ▸ hn

theorem namesUnique_editGroupDescription (hn : NamesUnique s.groups) (userProfile : UserProfile)
    (userGroup : UserGroup) (description : Option String) :
    NamesUnique (editGroupDescription s userProfile userGroup description).groups :=
  let ⟨_, he, _, hkeep⟩ := editGroupDescription_rowEdit s userProfile userGroup description
  hn.rowEdit_of_name he fun g => (hkeep g).1

theorem namesUnique_editGroupSetting (hn : NamesUnique s.groups) {userGroup : UserGroup}
    {value : GroupSettingRequest} (h : editGroupSetting s userProfile userGroup value = .ok s') :
    NamesUnique s'.groups := by
  obtain ⟨-, -, ⟨-, rfl⟩ | ⟨p, hp, rfl⟩⟩ := editGroupSetting_eq_ok h
  · exact hn
  · exact (namesUnique_accessUserGroupForSetting hn hp).rowEdit_of_name
      (doChangeUserGroupPermissionSetting_rowEdit _ _ _ _) fun _ => rfl

theorem namesUnique_editUserGroup (hv : s.Valid) (hn : NamesUnique s.groups) {userGroupId : Int}
    {name description : Option String} {canMentionGroup : Option GroupSettingRequest} :
    NamesUnique
      (editUserGroup s userProfile userGroupId name description canMentionGroup).1.groups := by
  refine @atomic_fst_of _ (fun t => NamesUnique t.groups) _ hn fun h => ?_
  obtain ⟨-, userGroup, hug, s₁, h₁, hnone, hsome⟩ := editUserGroupBody_eq_ok.mp h
  have hn₂ := namesUnique_editGroupDescription (namesUnique_editGroupName hv hn hug h₁)
    userProfile userGroup description
  cases canMentionGroup with
  | none => exact (hnone rfl) ▸ hn₂
  | some value => exact namesUnique_editGroupSetting hn₂ (hsome value rfl)

theorem namesUnique_deleteUserGroup (hn : NamesUnique s.groups) {userGroupId : Int} :
    NamesUnique (deleteUserGroup s userProfile userGroupId).1.groups := by
  refine @atomic_fst_of _ (fun t => NamesUnique t.groups) _ hn fun h => ?_
  obtain ⟨_, -, h⟩ := deleteUserGroup_body_eq_ok h
  obtain ⟨-, rfl⟩ := checkDeleteUserGroup_eq_ok h
  exact hn.mono fun _ hg => (List.mem_filter.mp hg).1

theorem namesUnique_updateUserGroupBackend (hn : NamesUnique s.groups) {userGroupId : Int}
    {delete add : List Int} :
    NamesUnique (updateUserGroupBackend s userProfile userGroupId delete add).1.groups :=
  updateUserGroupBackend_fst_of (fun t => NamesUnique t.groups) hn fun h₁ h₂ => by
    dsimp only
    rw [(memberships_of_removeMembersFromGroupBackend h₂).2.1, (memberships_of_addMembersToGroupBackend h₁).2.1]
    exact hn

theorem namesUnique_updateSubgroupsOfUserGroup (hn : NamesUnique s.groups) {userGroupId : Int}
    {delete add : List Int} :
    NamesUnique (updateSubgroupsOfUserGroup s userProfile userGroupId delete add).1.groups :=
  updateSubgroupsOfUserGroup_fst_of (fun t => NamesUnique t.groups) hn fun h₁ h₂ => by
    dsimp only
    rw [(subgroups_of_removeSubgroupsFromGroupBackend h₂).2.1, (subgroups_of_addSubgroupsToGroupBackend h₁).2.1]
    exact hn

/-- `check_add_user_group` creates a named group only under a name free in the realm. -/
theorem namesUnique_checkAddUserGroup (hn : NamesUnique s.groups)
    {permissionConfig : GroupPermissionSetting} {realm : Nat} {name description : String}
    {initialMembers : List UserProfile} {groupSettingsMap : Option UserGroup}
    (h : checkAddUserGroup s permissionConfig realm name initialMembers description
      groupSettingsMap userProfile = .ok s') : NamesUnique s'.groups := by
  obtain ⟨hfree, _, -, rfl⟩ := checkAddUserGroup_eq_ok h
  exact hn.append fun _ r hr hnamed hrealm hname =>
    id_eq_of_nameTaken_eq_false hfree hr hnamed hrealm hname

theorem namesUnique_addUserGroup (hn : NamesUnique s.groups)
    {permissionConfig : GroupPermissionSetting} {name description : String} {members : List Int}
    {canMentionGroup : Option GroupSettingRequest} :
    NamesUnique (addUserGroup permissionConfig s userProfile name members description
      canMentionGroup).1.groups := by
  unfold addUserGroup
  split
  · exact hn
  · rename_i t _ _ _ hq
    have hnt : NamesUnique t.groups := by
      rcases (prepareUserGroup_eq_ok hq).2 with ⟨-, ht, -⟩ | ⟨_, _, -, hp, -⟩
      · exact (show t = s from ht) ▸ hn
      · exact namesUnique_accessUserGroupForSetting hn hp
    exact @atomic_fst_of _ (fun t => NamesUnique t.groups) _ hnt
      (namesUnique_checkAddUserGroup hnt)

/-- One request of any kind keeps names unique, whether it succeeds or fails. -/
theorem namesUnique_handle (permissionConfig : GroupPermissionSetting) (hv : s.Valid)
    (hn : NamesUnique s.groups) (request : Request) :
    NamesUnique (handle permissionConfig s userProfile request).1.groups := by
  cases request <;> simp only [handle]
  · exact namesUnique_addUserGroup hn
  · exact namesUnique_editUserGroup hv hn
  · exact namesUnique_deleteUserGroup hn
  · exact namesUnique_updateUserGroupBackend hn
  · exact namesUnique_updateSubgroupsOfUserGroup hn

theorem namesUnique_runRequests (permissionConfig : GroupPermissionSetting) :
    ∀ {s : Store} (requests : List (UserProfile × Request)), s.Valid → NamesUnique s.groups →
      NamesUnique (runRequests permissionConfig s requests).groups
  | _, [], _, hn => hn
  | _, (_, request) :: rest, hv, hn =>
      namesUnique_runRequests permissionConfig rest (valid_handle permissionConfig hv request)
        (namesUnique_handle permissionConfig hv hn request)

end Views

/-- **No run gives two named groups of a realm one name.**  From a store that keeps its
constraints and in which no two named groups of a realm share a name, every sequence of requests to
`add_user_group`, `edit_user_group`, `delete_user_group`, `update_user_group_backend` and
`update_subgroups_of_user_group`, each succeeding or failing, leaves a store in which two named
groups of one realm with one name are one row. -/
theorem runRequests_names_unique (permissionConfig : GroupPermissionSetting) {s : Store}
    (hv : s.Valid) (hn : NamesUnique s.groups) (requests : List (UserProfile × Request)) :
    ∀ g ∈ (runRequests permissionConfig s requests).groups,
      ∀ h ∈ (runRequests permissionConfig s requests).groups, g.isNamed = true →
        h.isNamed = true → g.realm = h.realm → g.name = h.name → g = h :=
  fun g hg h hh hgn hhn hrealm hname =>
    List.inj_on_of_nodup_map (valid_runRequests permissionConfig requests hv).schema.groupIdsNodup
      hg hh (namesUnique_runRequests permissionConfig requests hv hn g hg h hh hgn hhn hrealm hname)

/-- Ann creates `eng`, tries to create a second `eng`, and tries to rename `role:everyone` to
`eng`. -/
theorem runRequests_names_unique_emptyRealm :
    emptyRealmStore.Valid ∧ NamesUnique emptyRealmStore.groups ∧
      ∀ g ∈ (runRequests ⟨"role:everyone"⟩ emptyRealmStore
          [(⟨1, 7, "Ann", false, true⟩, .addUserGroup "eng" [1] "" none),
           (⟨1, 7, "Ann", false, true⟩, .addUserGroup "eng" [] "" none),
           (⟨1, 7, "Ann", false, true⟩, .editUserGroup 10 (some "eng") none none)]).groups,
        ∀ h ∈ (runRequests ⟨"role:everyone"⟩ emptyRealmStore
          [(⟨1, 7, "Ann", false, true⟩, .addUserGroup "eng" [1] "" none),
           (⟨1, 7, "Ann", false, true⟩, .addUserGroup "eng" [] "" none),
           (⟨1, 7, "Ann", false, true⟩, .editUserGroup 10 (some "eng") none none)]).groups,
          g.isNamed = true → h.isNamed = true → g.realm = h.realm → g.name = h.name → g = h :=
  have hv := emptyRealmStore_valid
  have hn : NamesUnique emptyRealmStore.groups := by decide
  ⟨hv, hn, runRequests_names_unique ⟨"role:everyone"⟩ hv hn _⟩

end Zerver.UserGroups

import Zerver.UserGroups.Lifecycle

/-!
# The store invariant

Every request a view accepts leaves the store with an acyclic subgroup relation and with no
membership row stored twice, whatever the request and whether it succeeds.

* `Store.Valid` — the invariant: the database's own constraints, acyclicity, and no duplicate row
  in either membership table.
* `Store.Valid.shrink`, `.modifyGroup`, `.appendMemberships`, `.appendSubgroupRows`,
  `.createGroup`, `.deleteGroup` — what each kind of write needs in order to keep it.  These are the
  only lemmas that look inside a write.
* `valid_handle` — one request of any kind keeps the invariant; `valid_runRequests` — so does any
  sequence of them.

### Where each half comes from

No duplicate rows: the views refuse an id that is already a member or a subgroup, and the
lookups return table rows, which are distinct because the primary key is.  Acyclicity: the only
rows that point *into* an existing group are the ones `add_subgroups_to_group_backend` writes,
after checking that the supergroup is not among the candidates' recursive subgroups; every other
new row leaves a group that did not exist before (`Acyclic.append_from` covers both).
-/

namespace Zerver.UserGroups

/-- **The invariant.** -/
structure Store.Valid (s : Store) : Prop where
  schema : s.Schema
  acyclic : Acyclic s.groupMemberships
  groupMembershipsNodup : s.groupMemberships.Nodup
  membershipsNodup : s.memberships.Nodup

namespace Store

variable {s s' : Store}

theorem HasGroup.mono {x : Int} (h : s.HasGroup x) (hsub : ∀ g ∈ s.groups, g ∈ s'.groups) :
    s'.HasGroup x :=
  let ⟨g, hg, hid⟩ := h; ⟨g, hsub g hg, hid⟩

/-- **Dropping rows of the membership tables**, and changing the audit log or the sent messages,
keeps the invariant. -/
theorem Valid.shrink (h : s.Valid) (hu : s'.users = s.users) (hg : s'.groups = s.groups)
    (hn : s'.nextGroupId = s.nextGroupId) (hm : s'.memberships.Sublist s.memberships)
    (he : s'.groupMemberships.Sublist s.groupMemberships) : s'.Valid := by
  have hgroup : ∀ {x}, s.HasGroup x → s'.HasGroup x := fun hx => hx.mono (by simp [hg])
  obtain ⟨sch, hac, hen, hmn⟩ := h
  refine ⟨⟨?_, ?_, ?_, ?_, ?_, ?_, ?_⟩, hac.mono fun e he' => he.subset he', hen.sublist he,
    hmn.sublist hm⟩
  · exact hu ▸ sch.userIdsNodup
  · exact hg ▸ sch.groupIdsNodup
  · exact hn ▸ hg ▸ sch.id_lt_next
  · exact fun m hm' => hgroup (sch.membershipGroup m (hm.subset hm'))
  · exact fun e he' => hgroup (sch.supergroupExists e (he.subset he'))
  · exact fun e he' => hgroup (sch.subgroupExists e (he.subset he'))
  · exact fun g hg' hnamed => hgroup (sch.settingExists g (hg ▸ hg') hnamed)

/-- **Adding membership rows** of an existing group for distinct users that are not members. -/
theorem Valid.appendMemberships (h : s.Valid) (rows : List (Int × Int))
    (hgroup : ∀ m ∈ rows, s.HasGroup m.1) (hnodup : rows.Nodup)
    (hfresh : ∀ m ∈ rows, m ∉ s.memberships) :
    { s with memberships := s.memberships ++ rows }.Valid := by
  obtain ⟨sch, hac, hen, hmn⟩ := h
  refine ⟨{ sch with membershipGroup := ?_ }, hac, hen, ?_⟩
  · intro m hm
    rcases List.mem_append.mp hm with hm | hm
    exacts [sch.membershipGroup m hm, hgroup m hm]
  · exact List.nodup_append.mpr ⟨hmn, hnodup, fun a ha hb => hfresh a hb ha⟩

/-- **Adding subgroup rows** from an existing group to distinct existing groups, none already a
subgroup of it and none reaching it. -/
theorem Valid.appendSubgroupRows (h : s.Valid) {p : Int} {subgroups : List UserGroup}
    (hp : s.HasGroup p) (hsubs : ∀ g ∈ subgroups, g ∈ s.groups)
    (hnodup : (subgroups.map UserGroup.id).Nodup)
    (hfresh : ∀ g ∈ subgroups, (p, g.id) ∉ s.groupMemberships)
    (hguard : ∀ g ∈ subgroups, ¬ Reaches s.groupMemberships g.id p) :
    { s with groupMemberships :=
        s.groupMemberships ++ subgroups.map fun g : UserGroup => (p, g.id) }.Valid := by
  have hrows : subgroups.map (fun g : UserGroup => (p, g.id)) =
      (subgroups.map UserGroup.id).map (p, ·) := by
    simp [List.map_map, Function.comp_def]
  rw [hrows]
  set cs := subgroups.map UserGroup.id
  have hcs : ∀ c ∈ cs, s.HasGroup c := by
    simp only [cs, List.mem_map]
    rintro c ⟨g, hg, rfl⟩
    exact ⟨g, hsubs g hg, rfl⟩
  replace hfresh : ∀ c ∈ cs, (p, c) ∉ s.groupMemberships := by
    simp only [cs, List.mem_map]
    rintro c ⟨g, hg, rfl⟩
    exact hfresh g hg
  replace hguard : ∀ c ∈ cs, ¬ Reaches s.groupMemberships c p := by
    simp only [cs, List.mem_map]
    rintro c ⟨g, hg, rfl⟩
    exact hguard g hg
  obtain ⟨sch, hac, hen, hmn⟩ := h
  refine ⟨{ sch with supergroupExists := ?_, subgroupExists := ?_ },
    hac.append_from hguard, ?_, hmn⟩
  · intro e he
    rcases List.mem_append.mp he with he | he
    · exact sch.supergroupExists e he
    · obtain ⟨c, -, rfl⟩ := List.mem_map.mp he
      exact hp
  · intro e he
    rcases List.mem_append.mp he with he | he
    · exact sch.subgroupExists e he
    · obtain ⟨c, hc, rfl⟩ := List.mem_map.mp he
      exact hcs c hc
  · refine List.nodup_append.mpr ⟨hen, hnodup.map fun _ _ h => (Prod.mk.inj h).2, ?_⟩
    intro a ha hb
    obtain ⟨c, hc, rfl⟩ := List.mem_map.mp hb
    exact hfresh c hc ha

theorem Valid.withLog (h : s.Valid) (l : List AuditLogEntry) : { s with auditLog := l }.Valid :=
  h.shrink rfl rfl rfl (List.Sublist.refl _) (List.Sublist.refl _)

theorem Valid.withSentMessages (h : s.Valid) (ms : List (List Message)) :
    { s with sentMessages := ms }.Valid :=
  h.shrink rfl rfl rfl (List.Sublist.refl _) (List.Sublist.refl _)

theorem hasGroup_iff {x : Int} : s.HasGroup x ↔ x ∈ s.groups.map UserGroup.id := by
  simp [HasGroup]

theorem modifyGroup_ids {groupId : Int} {f : UserGroup → UserGroup} (hid : ∀ g, (f g).id = g.id) :
    (s.modifyGroup groupId f).groups.map UserGroup.id = s.groups.map UserGroup.id := by
  simp only [modifyGroup, List.map_map]
  exact List.map_congr_left fun g _ => by by_cases hg : g.id = groupId <;> simp [hg, hid]

/-- **Changing columns of a group row** other than its id keeps the invariant, as long as a named
group's setting still names a group. -/
theorem Valid.modifyGroup (h : s.Valid) (groupId : Int) (f : UserGroup → UserGroup)
    (hid : ∀ g, (f g).id = g.id)
    (hsetting : ∀ g ∈ s.groups, g.id = groupId → (f g).isNamed = true →
      s.HasGroup (f g).canMentionGroup) :
    (s.modifyGroup groupId f).Valid := by
  have hgroup : ∀ x, s.HasGroup x → (s.modifyGroup groupId f).HasGroup x := fun x hx => by
    rw [hasGroup_iff, modifyGroup_ids hid]
    exact hasGroup_iff.mp hx
  obtain ⟨sch, hac, hen, hmn⟩ := h
  refine ⟨⟨sch.userIdsNodup, (modifyGroup_ids hid).symm ▸ sch.groupIdsNodup, ?_,
    fun m hm => hgroup _ (sch.membershipGroup m hm),
    fun e he => hgroup _ (sch.supergroupExists e he),
    fun e he => hgroup _ (sch.subgroupExists e he), ?_⟩, hac, hen, hmn⟩
  · intro g' hg'
    obtain ⟨g, hg, rfl⟩ := List.mem_map.mp hg'
    show (if g.id = groupId then f g else g).id < s.nextGroupId
    split
    · rw [hid]; exact sch.id_lt_next g hg
    · exact sch.id_lt_next g hg
  · intro g' hg' hnamed
    obtain ⟨g, hg, rfl⟩ := List.mem_map.mp hg'
    by_cases hgid : g.id = groupId
    · simp only [hgid, if_true] at hnamed ⊢
      exact hgroup _ (hsetting g hg hgid hnamed)
    · simp only [hgid, if_false] at hnamed ⊢
      exact hgroup _ (sch.settingExists g hg hnamed)

/-- A group that does not exist yet is no group's recursive subgroup. -/
theorem Schema.not_reaches_next (h : s.Schema) {c : Int} (hc : s.HasGroup c) :
    ¬ Reaches s.groupMemberships c s.nextGroupId := by
  intro hr
  rcases Relation.ReflTransGen.cases_tail hr with hr | ⟨m, -, hm⟩
  · exact h.not_hasGroup_next (hr ▸ hc)
  · exact (h.next_not_mem_edges _ hm).2 rfl

/-- **Creating a group** with distinct existing users as members and distinct existing groups as
subgroups keeps the invariant. -/
theorem Valid.createGroup (h : s.Valid) {realm : Nat} {isNamed : Bool} {name description : String}
    {canMentionGroup : Int} {members : List UserProfile} {subgroups : List UserGroup}
    {actingUser : UserProfile} (hmembers : (members.map UserProfile.id).Nodup)
    (hsubs : ∀ g ∈ subgroups, g ∈ s.groups) (hsubsNodup : (subgroups.map UserGroup.id).Nodup)
    (hsetting : isNamed = true → s.HasGroup canMentionGroup) :
    (s.createGroup realm isNamed name description canMentionGroup members subgroups
      actingUser).1.Valid := by
  let n := s.nextGroupId
  let g₀ : UserGroup := ⟨n, realm, isNamed, name, description, canMentionGroup⟩
  let s₁ : Store := { s with groups := s.groups ++ [g₀], nextGroupId := n + 1 }
  have hsub : ∀ g ∈ s.groups, g ∈ s₁.groups := fun g hg => List.mem_append_left _ hg
  have hold : ∀ {x}, s.HasGroup x → x ≠ n := fun hx hxn => by
    subst hxn
    exact h.schema.not_hasGroup_next hx
  have h₁ : s₁.Valid := by
    obtain ⟨sch, hac, hen, hmn⟩ := h
    refine ⟨⟨sch.userIdsNodup, ?_, ?_, fun m hm => (sch.membershipGroup m hm).mono hsub,
      fun e he => (sch.supergroupExists e he).mono hsub,
      fun e he => (sch.subgroupExists e he).mono hsub, ?_⟩, hac, hen, hmn⟩
    · simp only [s₁, List.map_append, List.map_singleton]
      exact List.nodup_append.mpr ⟨sch.groupIdsNodup, List.nodup_singleton _,
        fun x hx hxn => hold (hasGroup_iff.mpr hx) (List.mem_singleton.mp hxn)⟩
    · intro g hg
      rcases List.mem_append.mp hg with hg | hg
      · exact lt_trans (sch.id_lt_next g hg) (Int.lt_succ n)
      · exact (List.mem_singleton.mp hg) ▸ Int.lt_succ n
    · intro g hg hnamed
      rcases List.mem_append.mp hg with hg | hg
      · exact (sch.settingExists g hg hnamed).mono hsub
      · obtain rfl := List.mem_singleton.mp hg
        exact (hsetting hnamed).mono hsub
  have hnew : s₁.HasGroup n := ⟨g₀, List.mem_append_right _ (List.mem_singleton_self _), rfl⟩
  have hrows : members.map (fun u : UserProfile => (n, u.id)) =
      (members.map UserProfile.id).map (n, ·) := by
    simp [List.map_map, Function.comp_def]
  have h₂ := h₁.appendMemberships (members.map fun u => (n, u.id))
    (by simp only [List.mem_map]; rintro _ ⟨u, -, rfl⟩; exact hnew)
    (hrows ▸ hmembers.map fun _ _ h => (Prod.mk.inj h).2)
    (by
      simp only [List.mem_map]
      rintro _ ⟨u, -, rfl⟩ hm
      exact hold (h.schema.membershipGroup _ hm) rfl)
  have h₃ := h₂.appendSubgroupRows hnew
    (fun g hg => hsub g (hsubs g hg)) hsubsNodup
    (fun g _ he => (h.schema.next_not_mem_edges _ he).1 rfl)
    (fun g hg => h.schema.not_reaches_next ⟨g, hsubs g hg, rfl⟩)
  exact h₃.withLog _

/-- **Deleting a group** that no other group's setting names keeps the invariant. -/
theorem Valid.deleteGroup (h : s.Valid) {groupId : Int}
    (hunused : ∀ g ∈ s.groups, g.isNamed = true → g.canMentionGroup = groupId → g.id = groupId)
    (l : List AuditLogEntry) :
    { s with
      groups := s.groups.filter fun g => g.id != groupId
      memberships := s.memberships.filter fun m => m.1 != groupId
      groupMemberships := s.groupMemberships.filter fun e => e.1 != groupId && e.2 != groupId
      auditLog := l }.Valid := by
  have hkeep' : ∀ {x}, s.HasGroup x → x ≠ groupId →
      ∃ g ∈ s.groups.filter (fun g => g.id != groupId), g.id = x := by
    rintro x ⟨g, hg, rfl⟩ hx
    exact ⟨g, List.mem_filter.mpr ⟨hg, by simpa using hx⟩, rfl⟩
  obtain ⟨sch, hac, hen, hmn⟩ := h
  refine ⟨⟨sch.userIdsNodup, sch.groupIdsNodup.sublist ((List.filter_sublist _).map _),
    fun g hg => sch.id_lt_next g (List.mem_filter.mp hg).1, ?_, ?_, ?_, ?_⟩,
    hac.mono fun e he => (List.mem_filter.mp he).1, hen.sublist (List.filter_sublist _),
    hmn.sublist (List.filter_sublist _)⟩
  · intro m hm
    obtain ⟨hm, hne⟩ := List.mem_filter.mp hm
    exact hkeep' (sch.membershipGroup m hm) (by simpa using hne)
  · intro e he
    obtain ⟨he, hne⟩ := List.mem_filter.mp he
    simp only [Bool.and_eq_true, bne_iff_ne, ne_eq] at hne
    exact hkeep' (sch.supergroupExists e he) hne.1
  · intro e he
    obtain ⟨he, hne⟩ := List.mem_filter.mp he
    simp only [Bool.and_eq_true, bne_iff_ne, ne_eq] at hne
    exact hkeep' (sch.subgroupExists e he) hne.2
  · intro g hg hnamed
    obtain ⟨hg, hne⟩ := List.mem_filter.mp hg
    simp only [bne_iff_ne, ne_eq] at hne
    exact hkeep' (sch.settingExists g hg hnamed) fun hx => hne (hunused g hg hnamed hx)

/-- Membership rows of an existing group for distinct users that are not yet its members. -/
theorem Valid.addMemberRows (h : s.Valid) {g : UserGroup} (hg : g ∈ s.groups) {ids : List Int}
    (hids : ids.Nodup) (hfresh : ∀ x ∈ ids, (g.id, x) ∉ s.memberships) :
    { s with memberships := s.memberships ++ ids.map (g.id, ·) }.Valid :=
  h.appendMemberships _ (by simp only [List.mem_map]; rintro _ ⟨x, -, rfl⟩; exact ⟨g, hg, rfl⟩)
    (hids.map fun _ _ h => (Prod.mk.inj h).2)
    (by simp only [List.mem_map]; rintro _ ⟨x, hx, rfl⟩; exact hfresh x hx)

end Store

/-! ## The views keep the invariant -/

section Views

open Store

variable {s s' : Store} {userProfile : UserProfile}

theorem valid_addMembersToGroupBackend (hv : s.Valid) {userGroupId : Int} {members : List Int}
    (h : addMembersToGroupBackend s userProfile userGroupId members = .ok s') : s'.Valid := by
  by_cases hne : members = []
  · subst hne
    cases h
    exact hv
  obtain ⟨g, hg, users, husers, hfresh, h⟩ := (addMembersToGroupBackend_eq_ok hne).mp h
  obtain ⟨ms, rfl⟩ := notifyForUserGroupSubscriptionChanges_eq_ok h
  obtain ⟨rfl, -⟩ := userIdsToUsers_eq_ok.mp husers
  simp only [bulkAddMembersToUserGroups, List.flatMap_singleton]
  exact ((hv.addMemberRows (accessUserGroupById_eq_ok hg).1
    (hv.schema.nodup_userIds_of_sublist (List.filter_sublist _))
    (List.forall_mem_map.mpr hfresh)).withLog _).withSentMessages ms

theorem valid_removeMembersFromGroupBackend (hv : s.Valid) {userGroupId : Int}
    {members : List Int}
    (h : removeMembersFromGroupBackend s userProfile userGroupId members = .ok s') : s'.Valid := by
  by_cases hne : members = []
  · subst hne
    cases h
    exact hv
  obtain ⟨_, _, _, _, _, h⟩ := (removeMembersFromGroupBackend_eq_ok hne).mp h
  obtain ⟨ms, rfl⟩ := notifyForUserGroupSubscriptionChanges_eq_ok h
  refine Valid.withSentMessages ?_ ms
  exact hv.shrink rfl rfl rfl (List.filter_sublist _) (List.Sublist.refl _)

theorem valid_addSubgroupsToGroupBackend (hv : s.Valid) {userGroupId : Int}
    {subgroupIds : List Int}
    (h : addSubgroupsToGroupBackend s userProfile userGroupId subgroupIds = .ok s') : s'.Valid := by
  by_cases hne : subgroupIds = []
  · subst hne
    cases h
    exact hv
  obtain ⟨context, hcontext, hfresh, hnotrec, rfl⟩ := (addSubgroupsToGroupBackend_eq_ok hne).mp h
  obtain ⟨hsup, hdirect, hrec, -⟩ := lockSubgroupsWithRespectToSupergroup_eq_ok.mp hcontext
  obtain ⟨hsupmem, hsupid, -⟩ := accessUserGroupById_eq_ok hsup
  have hsubs : ∀ g ∈ context.directSubgroups, g ∈ s.groups := fun g hg =>
    (mem_namedGroupsOfRealm.mp (hdirect ▸ hg)).1
  refine (hv.appendSubgroupRows ⟨_, hsupmem, rfl⟩ hsubs
    (hv.schema.nodup_ids_of_sublist (hdirect ▸ List.filter_sublist _)) hfresh
    (fun g hg hr => hnotrec ?_)).withLog _
  rw [hrec, ← hsupid]
  exact (mem_recursiveSubgroupIds_iff hsupmem).mpr ⟨g, hg, hr⟩

theorem valid_removeSubgroupsFromGroupBackend (hv : s.Valid) {userGroupId : Int}
    {subgroupIds : List Int}
    (h : removeSubgroupsFromGroupBackend s userProfile userGroupId subgroupIds = .ok s') :
    s'.Valid := by
  by_cases hne : subgroupIds = []
  · subst hne
    cases h
    exact hv
  obtain ⟨-, -, -, rfl⟩ := (removeSubgroupsFromGroupBackend_eq_ok hne).mp h
  exact hv.shrink rfl rfl rfl (List.Sublist.refl _) (List.filter_sublist _)

theorem valid_updateUserGroupBackend (hv : s.Valid) {userGroupId : Int} {delete add : List Int} :
    (updateUserGroupBackend s userProfile userGroupId delete add).1.Valid :=
  updateUserGroupBackend_fst_of Store.Valid hv fun h₁ h₂ =>
    valid_removeMembersFromGroupBackend (valid_addMembersToGroupBackend hv h₁) h₂

theorem valid_updateSubgroupsOfUserGroup (hv : s.Valid) {userGroupId : Int}
    {delete add : List Int} :
    (updateSubgroupsOfUserGroup s userProfile userGroupId delete add).1.Valid :=
  updateSubgroupsOfUserGroup_fst_of Store.Valid hv fun h₁ h₂ =>
    valid_removeSubgroupsFromGroupBackend (valid_addSubgroupsToGroupBackend hv h₁) h₂

theorem valid_accessUserGroupForSetting (hv : s.Valid) {value : GroupSettingValue}
    {p : Store × UserGroup} (h : accessUserGroupForSetting s value userProfile = .ok p) :
    p.1.Valid ∧ p.2 ∈ p.1.groups ∧ (∀ g ∈ s.groups, g ∈ p.1.groups) ∧ p.1.users = s.users := by
  obtain ⟨t, X⟩ := p
  rcases accessUserGroupForSetting_eq_ok h with ⟨_, -, hg, ht⟩ | ⟨v, -, members, husers, -, hp⟩
  · cases ht
    exact ⟨hv, (accessUserGroupById_eq_ok hg).1, fun _ hx => hx, rfl⟩
  · rw [hp]
    obtain ⟨rfl, -⟩ := userIdsToUsers_eq_ok.mp husers
    refine ⟨hv.createGroup (hv.schema.nodup_userIds_of_sublist (List.filter_sublist _))
      (fun g hg => (mem_namedGroupsOfRealm.mp hg).1)
      (hv.schema.nodup_ids_of_sublist (List.filter_sublist _)) (fun h => nomatch h), ?_, ?_, rfl⟩
    · simp
    · simp +contextual

theorem valid_editGroupSetting (hv : s.Valid) {userGroup : UserGroup}
    {value : GroupSettingRequest}
    (h : editGroupSetting s userProfile userGroup value = .ok s') : s'.Valid := by
  obtain ⟨-, -, ⟨-, rfl⟩ | ⟨⟨t, X⟩, hp, rfl⟩⟩ := editGroupSetting_eq_ok h
  · exact hv
  · obtain ⟨hv₁, hg, -⟩ := valid_accessUserGroupForSetting hv hp
    exact (hv₁.modifyGroup userGroup.id (fun g' => { g' with canMentionGroup := X.id })
      (fun _ => rfl) fun _ _ _ _ => ⟨X, hg, rfl⟩).withLog _

/-- An update of a group's name or description columns keeps the invariant. -/
theorem valid_of_rowEdit (hv : s.Valid) {groupId : Int} {f : UserGroup → UserGroup}
    (h : RowEdit s s' groupId f) (hsetting : ∀ g, (f g).canMentionGroup = g.canMentionGroup) :
    s'.Valid :=
  ⟨h.schema hv.schema hsetting, h.groupMemberships ▸ hv.acyclic,
    h.groupMemberships ▸ hv.groupMembershipsNodup, h.memberships ▸ hv.membershipsNodup⟩

theorem valid_editGroupName (hv : s.Valid) {userGroup : UserGroup} {name : Option String}
    (h : editGroupName s userProfile userGroup name = .ok s') : s'.Valid :=
  let ⟨_, hr, _, hkeep⟩ := editGroupName_rowEdit h
  valid_of_rowEdit hv hr fun g => (hkeep g).2

theorem valid_editGroupDescription (hv : s.Valid) (userProfile : UserProfile)
    (userGroup : UserGroup) (description : Option String) :
    (editGroupDescription s userProfile userGroup description).Valid :=
  let ⟨_, hr, _, hkeep⟩ := editGroupDescription_rowEdit s userProfile userGroup description
  valid_of_rowEdit hv hr fun g => (hkeep g).2

theorem valid_editUserGroup (hv : s.Valid) {userGroupId : Int}
    {name description : Option String} {canMentionGroup : Option GroupSettingRequest} :
    (editUserGroup s userProfile userGroupId name description canMentionGroup).1.Valid := by
  refine atomic_fst_of hv fun h => ?_
  obtain ⟨-, userGroup, -, s₁, h₁, hnone, hsome⟩ := editUserGroupBody_eq_ok.mp h
  have hv₂ := valid_editGroupDescription (valid_editGroupName hv h₁) userProfile userGroup
    description
  cases canMentionGroup with
  | none => exact (hnone rfl) ▸ hv₂
  | some value => exact valid_editGroupSetting hv₂ (hsome value rfl)

theorem valid_deleteUserGroup (hv : s.Valid) {userGroupId : Int} :
    (deleteUserGroup s userProfile userGroupId).1.Valid := by
  refine atomic_fst_of hv fun h => ?_
  obtain ⟨_, -, h⟩ := deleteUserGroup_body_eq_ok h
  obtain ⟨hunused, rfl⟩ := checkDeleteUserGroup_eq_ok h
  exact hv.deleteGroup hunused _

theorem valid_checkAddUserGroup (hv : s.Valid) {permissionConfig : GroupPermissionSetting}
    {realm : Nat} {name description : String} {initialMembers : List UserProfile}
    {groupSettingsMap : Option UserGroup} (husers : initialMembers.Sublist s.users)
    (hsetting : ∀ g, groupSettingsMap = some g → g ∈ s.groups)
    (h : checkAddUserGroup s permissionConfig realm name initialMembers description
      groupSettingsMap userProfile = .ok s') : s'.Valid := by
  obtain ⟨-, settingGroup, hsg, rfl⟩ := checkAddUserGroup_eq_ok h
  have hmem : settingGroup ∈ s.groups := by
    rcases hsg with hsg | ⟨-, hsg⟩
    · exact hsetting _ hsg
    · exact (defaultSettingGroup_eq_ok hsg).1
  exact (hv.createGroup (hv.schema.nodup_userIds_of_sublist husers)
    (fun _ h => absurd h (List.not_mem_nil _))
    (by simp : (([] : List UserGroup).map UserGroup.id).Nodup)
    fun _ => ⟨settingGroup, hmem, rfl⟩).withLog _

theorem valid_prepareUserGroup (hv : s.Valid) {name : String} {members : List Int}
    {canMentionGroup : Option GroupSettingRequest}
    {q : Store × List UserProfile × String × Option UserGroup}
    (h : prepareUserGroup s userProfile name members canMentionGroup = .ok q) :
    q.1.Valid ∧ q.2.1.Sublist q.1.users ∧ ∀ g, q.2.2.2 = some g → g ∈ q.1.groups := by
  obtain ⟨husers, ⟨-, hq, hnone⟩ | ⟨_, X, -, hp, hsome⟩⟩ := prepareUserGroup_eq_ok h
  · rw [hq, hnone, (userIdsToUsers_eq_ok.mp husers).1]
    exact ⟨hv, List.filter_sublist _, fun _ h => nomatch h⟩
  · obtain ⟨hv₁, hg, -, husers₁⟩ := valid_accessUserGroupForSetting hv hp
    rw [hsome, (userIdsToUsers_eq_ok.mp husers).1]
    exact ⟨hv₁, husers₁ ▸ List.filter_sublist _, fun _ h => Option.some.inj h ▸ hg⟩

theorem valid_addUserGroup (hv : s.Valid) {permissionConfig : GroupPermissionSetting}
    {name description : String} {members : List Int}
    {canMentionGroup : Option GroupSettingRequest} :
    (addUserGroup permissionConfig s userProfile name members description canMentionGroup).1.Valid := by
  unfold addUserGroup
  split
  · exact hv
  · rename_i hq
    obtain ⟨hv₁, husers, hsetting⟩ := valid_prepareUserGroup hv hq
    exact atomic_fst_of hv₁ fun h => valid_checkAddUserGroup hv₁ husers hsetting h

/-- One request of any kind keeps the invariant, whether it succeeds or fails. -/
theorem valid_handle (permissionConfig : GroupPermissionSetting) (hv : s.Valid)
    (request : Request) : (handle permissionConfig s userProfile request).1.Valid := by
  cases request <;> simp only [handle]
  · exact valid_addUserGroup hv
  · exact valid_editUserGroup hv
  · exact valid_deleteUserGroup hv
  · exact valid_updateUserGroupBackend hv
  · exact valid_updateSubgroupsOfUserGroup hv

theorem valid_runRequests (permissionConfig : GroupPermissionSetting) :
    ∀ {s : Store} (requests : List (UserProfile × Request)), s.Valid →
      (runRequests permissionConfig s requests).Valid
  | _, [], hv => hv
  | _, (_, request) :: rest, hv =>
      valid_runRequests permissionConfig rest (valid_handle permissionConfig hv request)

end Views

/-- **No sequence of requests creates a cycle or a duplicate row.**  From any state of the
database whose subgroup relation is acyclic and which stores no membership row twice, every state
a sequence of requests to `add_user_group`, `edit_user_group`, `delete_user_group`,
`update_user_group_backend` and `update_subgroups_of_user_group` reaches, each request succeeding
or failing, is again acyclic and stores each `(supergroup, subgroup)` and each `(group, user)` row at
most once. -/
theorem runRequests_acyclic_nodup (permissionConfig : GroupPermissionSetting) {s : Store}
    (hschema : s.Schema) (hacyclic : Acyclic s.groupMemberships)
    (hgroupMemberships : s.groupMemberships.Nodup) (hmemberships : s.memberships.Nodup)
    (requests : List (UserProfile × Request)) :
    Acyclic (runRequests permissionConfig s requests).groupMemberships ∧
      (runRequests permissionConfig s requests).groupMemberships.Nodup ∧
      (runRequests permissionConfig s requests).memberships.Nodup :=
  let hv := valid_runRequests permissionConfig requests ⟨hschema, hacyclic, hgroupMemberships,
    hmemberships⟩
  ⟨hv.acyclic, hv.groupMembershipsNodup, hv.membershipsNodup⟩

/-- A realm with one user and its `role:everyone` group, before any request. -/
def emptyRealmStore : Store :=
  ⟨[⟨1, 7, "Ann", false, true⟩], [⟨10, 7, true, "role:everyone", "", 10⟩], [], [], 11, [], []⟩

theorem emptyRealmStore_valid : emptyRealmStore.Valid :=
  ⟨⟨by decide, by decide, by decide, by decide, by decide, by decide, by decide⟩, acyclic_nil,
    List.nodup_nil, List.nodup_nil⟩

theorem runRequests_acyclic_nodup_emptyRealm :
    emptyRealmStore.Schema ∧ Acyclic emptyRealmStore.groupMemberships ∧
      emptyRealmStore.groupMemberships.Nodup ∧ emptyRealmStore.memberships.Nodup ∧
      Acyclic (runRequests ⟨"role:everyone"⟩ emptyRealmStore
        [(⟨1, 7, "Ann", false, true⟩, .addUserGroup "eng" [1] "" none),
         (⟨1, 7, "Ann", false, true⟩, .updateSubgroupsOfUserGroup 11 [] [10])]).groupMemberships :=
  have hschema : emptyRealmStore.Schema :=
    ⟨by decide, by decide, by decide, by decide, by decide, by decide, by decide⟩
  ⟨hschema, acyclic_nil, List.nodup_nil, List.nodup_nil,
    (runRequests_acyclic_nodup ⟨"role:everyone"⟩ hschema acyclic_nil List.nodup_nil List.nodup_nil
      _).1⟩

/-- **No sequence of requests breaks a constraint of the database.**  From a store that keeps its
constraints, every state a sequence of requests reaches, each succeeding or failing, again has
unique user and group ids, an id sequence ahead of every group id, membership and subgroup rows
whose groups exist, and a `can_mention_group` of every named group that names an existing group:
`delete_user_group` takes every row of the group with it, and refuses a group another named
group's setting names. -/
theorem runRequests_schema (permissionConfig : GroupPermissionSetting) {s : Store} (hv : s.Valid)
    (requests : List (UserProfile × Request)) : (runRequests permissionConfig s requests).Schema :=
  (valid_runRequests permissionConfig requests hv).schema

/-- Ann creates `eng` under `role:everyone` and deletes it again. -/
theorem runRequests_schema_emptyRealm :
    emptyRealmStore.Valid ∧
      (runRequests ⟨"role:everyone"⟩ emptyRealmStore
        [(⟨1, 7, "Ann", false, true⟩, .addUserGroup "eng" [1] "" none),
         (⟨1, 7, "Ann", false, true⟩, .updateSubgroupsOfUserGroup 10 [] [11]),
         (⟨1, 7, "Ann", false, true⟩, .deleteUserGroup 11)]).Schema :=
  have hv : emptyRealmStore.Valid :=
    ⟨⟨by decide, by decide, by decide, by decide, by decide, by decide, by decide⟩, acyclic_nil,
      List.nodup_nil, List.nodup_nil⟩
  ⟨hv, runRequests_schema ⟨"role:everyone"⟩ hv _⟩

end Zerver.UserGroups

import Zerver.UserGroups.Realm

/-!
# What a request leaves alone

`get_user_group_members`, `get_subgroups_of_user_group` and `get_is_user_group_member` read a
group through its recursive subgroups.  The views that write change rows of the one group their
path names, and create groups that no row reaches yet.  So a group that reaches neither the named
group nor, through its recursive subgroups, anything that does, reads the same after the request
as before: its members, its subgroups and every user's membership in it, for every reader.

## Main Definitions

* `Request.userGroupId?` — the group a request names in its path.
* `Store.AgreeBelow k s t` — `t` has the rows of `s` wherever `k` reaches: the same rows of the
  groups `k` reaches, the same membership and subgroup rows out of each of them, and the same
  users.

## Main Results

* `Store.AgreeBelow.reads` — stores that agree below `k` answer every read of `k` alike.
* `agreeBelow_handle` — a request agrees below every group of the store that does not reach the
  group it names.
* `runRequests_reads_of_not_reaches` — so does a sequence of such requests, and the reads of the
  group are unchanged.

## Design Notes

The frame is stated on the rows a read depends on, not on the reads, so that it composes: stores
that agree below `k` have the same groups reachable from `k` (`AgreeBelow.reachable_iff`), so
`AgreeBelow.trans` chains the steps of one view and the requests of a run.  The order of the rows
is part of the frame, because `get_user_group_members` with `direct_member_only` lists the
membership rows in table order.  As in `Zerver.UserGroups.Realm`, each kind of write has one
lemma, and each view is assembled from the spec lemmas of its helpers.
-/

namespace Zerver.UserGroups

/-- The group a request names in its path: the `user_group_id` of every view but
`add_user_group`. -/
def Request.userGroupId? : Request → Option Int
  | .addUserGroup .. => none
  | .editUserGroup userGroupId .. => some userGroupId
  | .deleteUserGroup userGroupId => some userGroupId
  | .updateUserGroupBackend userGroupId .. => some userGroupId
  | .updateSubgroupsOfUserGroup userGroupId .. => some userGroupId

namespace Store

/-- **`t` agrees with `s` below group `k`**: the same users, the same rows of the groups `k`
reaches, and the same membership and subgroup rows, in the same order, out of each of them. -/
structure AgreeBelow (k : Int) (s t : Store) : Prop where
  users : t.users = s.users
  groups : t.groups.filter (fun g => reaches s.groupMemberships k g.id) =
    s.groups.filter (fun g => reaches s.groupMemberships k g.id)
  memberRows : ∀ a, Reaches s.groupMemberships k a →
    t.memberships.filter (fun m => m.1 = a) = s.memberships.filter (fun m => m.1 = a)
  subgroupRows : ∀ a, Reaches s.groupMemberships k a →
    t.groupMemberships.filter (fun e => e.1 = a) = s.groupMemberships.filter (fun e => e.1 = a)

/-- Two tables with the same rows out of `a` hold the same rows `(a, b)`. -/
theorem mem_iff_of_filter_fst_eq {rows rows' : List (Int × Int)} {a : Int}
    (h : rows'.filter (fun e => e.1 = a) = rows.filter (fun e => e.1 = a)) (b : Int) :
    (a, b) ∈ rows' ↔ (a, b) ∈ rows := by
  simpa using congrArg ((a, b) ∈ ·) h

/-- A search for a row that only rows of `p` satisfy finds the same row in two tables with the
same rows of `p`. -/
theorem find?_eq_of_filter_eq {l l' : List UserGroup} {p q : UserGroup → Bool}
    (h : l'.filter p = l.filter p) (hqp : ∀ g, q g = true → p g = true) :
    l'.find? q = l.find? q := by
  have hfilter : ∀ m : List UserGroup, m.find? q = (m.filter p).find? q := fun m => by
    rw [List.find?_filter]
    congr 1
    funext g
    cases hq : q g <;> simp [hq, hqp g]
  rw [hfilter l', h, ← hfilter l]

namespace AgreeBelow

variable {k : Int} {s t u : Store}

theorem refl (k : Int) (s : Store) : AgreeBelow k s s :=
  ⟨rfl, rfl, fun _ _ => rfl, fun _ _ => rfl⟩

/-- **The groups `k` reaches are the same in both stores**: a path from `k` only uses rows out
of groups `k` reaches. -/
theorem reachable_iff (h : AgreeBelow k s t) {b : Int} :
    Reaches t.groupMemberships k b ↔ Reaches s.groupMemberships k b := by
  constructor
  · intro hr
    induction hr with
    | refl => exact .refl
    | tail _ hedge ih =>
        exact ih.tail ((mem_iff_of_filter_fst_eq (h.subgroupRows _ ih) _).mp hedge)
  · intro hr
    induction hr with
    | refl => exact .refl
    | tail hkm hedge ih =>
        exact ih.tail ((mem_iff_of_filter_fst_eq (h.subgroupRows _ hkm) _).mpr hedge)

theorem reaches_eq (h : AgreeBelow k s t) (b : Int) :
    reaches t.groupMemberships k b = reaches s.groupMemberships k b := by
  rw [Bool.eq_iff_iff, Zerver.UserGroups.reaches_iff, Zerver.UserGroups.reaches_iff,
    h.reachable_iff]

theorem not_reaches (h : AgreeBelow k s t) {g : Int} (hfar : ¬ Reaches s.groupMemberships k g) :
    ¬ Reaches t.groupMemberships k g :=
  fun hr => hfar (h.reachable_iff.mp hr)

theorem trans (h₁ : AgreeBelow k s t) (h₂ : AgreeBelow k t u) : AgreeBelow k s u where
  users := h₂.users.trans h₁.users
  groups := by
    have := h₂.groups
    simp only [h₁.reaches_eq] at this
    exact this.trans h₁.groups
  memberRows a ha := (h₂.memberRows a (h₁.reachable_iff.mpr ha)).trans (h₁.memberRows a ha)
  subgroupRows a ha :=
    (h₂.subgroupRows a (h₁.reachable_iff.mpr ha)).trans (h₁.subgroupRows a ha)

/-- The group `k` itself keeps its row. -/
theorem hasGroup (h : AgreeBelow k s t) (hk : s.HasGroup k) : t.HasGroup k := by
  obtain ⟨g, hg, rfl⟩ := hk
  have hmem : g ∈ s.groups.filter (fun g' => reaches s.groupMemberships g.id g'.id) :=
    List.mem_filter.mpr ⟨hg, Zerver.UserGroups.reaches_iff.mpr .refl⟩
  rw [← h.groups] at hmem
  exact ⟨g, (List.mem_filter.mp hmem).1, rfl⟩

/-! ### Reads below `k` -/

theorem recursiveSubgroupsOf_eq (h : AgreeBelow k s t) :
    recursiveSubgroupsOf t [k] = recursiveSubgroupsOf s [k] := by
  simp only [recursiveSubgroupsOf, List.any_cons, List.any_nil, Bool.or_false, h.reaches_eq]
  exact h.groups

/-- Whether some group `k` reaches has a membership row for a user. -/
theorem any_memberships_eq (h : AgreeBelow k s t) (userId : Int) :
    ((recursiveSubgroupsOf t [k]).any fun g => decide ((g.id, userId) ∈ t.memberships)) =
      (recursiveSubgroupsOf s [k]).any fun g => decide ((g.id, userId) ∈ s.memberships) := by
  rw [h.recursiveSubgroupsOf_eq, Bool.eq_iff_iff]
  simp only [List.any_eq_true, decide_eq_true_eq]
  refine exists_congr fun g => and_congr_right fun hg => ?_
  have hreach : Reaches s.groupMemberships k g.id := by
    simpa using (mem_recursiveSubgroupsOf.mp hg).2
  exact mem_iff_of_filter_fst_eq (h.memberRows _ hreach) userId

theorem accessUserGroupById_eq (h : AgreeBelow k s t) (userProfile : UserProfile) :
    accessUserGroupById t k userProfile = accessUserGroupById s k userProfile := by
  unfold accessUserGroupById
  rw [find?_eq_of_filter_eq h.groups fun g hg => ?_]
  simp only [Bool.and_eq_true, beq_iff_eq] at hg
  rw [hg.1.1]
  exact Zerver.UserGroups.reaches_iff.mpr .refl

theorem getUserGroupMemberIds_eq (h : AgreeBelow k s t) {userGroup : UserGroup}
    (hid : userGroup.id = k) (directMemberOnly : Bool) :
    getUserGroupMemberIds t userGroup directMemberOnly =
      getUserGroupMemberIds s userGroup directMemberOnly := by
  subst hid
  cases directMemberOnly
  · simp only [getUserGroupMemberIds, Bool.false_eq_true, if_false, h.users, h.any_memberships_eq]
  · simp only [getUserGroupMemberIds, if_true, directMemberIds, h.memberRows _ .refl]

theorem getSubgroupIds_eq (h : AgreeBelow k s t) {userGroup : UserGroup} (hid : userGroup.id = k)
    (directSubgroupOnly : Bool) :
    getSubgroupIds t userGroup directSubgroupOnly =
      getSubgroupIds s userGroup directSubgroupOnly := by
  subst hid
  cases directSubgroupOnly
  · simp only [getSubgroupIds, Bool.false_eq_true, if_false, h.recursiveSubgroupsOf_eq]
  · simp only [getSubgroupIds, if_true, directSubgroupIds, h.subgroupRows _ .refl]

theorem isUserInGroup_eq (h : AgreeBelow k s t) {userGroup : UserGroup} (hid : userGroup.id = k)
    (user : UserProfile) (directMemberOnly : Bool) :
    isUserInGroup t userGroup user directMemberOnly =
      isUserInGroup s userGroup user directMemberOnly := by
  subst hid
  cases directMemberOnly
  · simp only [isUserInGroup, Bool.false_eq_true, if_false, h.any_memberships_eq]
  · simp only [isUserInGroup, if_true, mem_iff_of_filter_fst_eq (h.memberRows _ .refl)]

/-- **Stores that agree below `k` answer every read of `k` alike**, for every reader. -/
theorem reads (h : AgreeBelow k s t) (reader : UserProfile) (userId : Int) (flag : Bool) :
    getUserGroupMembers t reader k flag = getUserGroupMembers s reader k flag ∧
      getSubgroupsOfUserGroup t reader k flag = getSubgroupsOfUserGroup s reader k flag ∧
      getIsUserGroupMember t reader k userId flag =
        getIsUserGroupMember s reader k userId flag := by
  simp only [getUserGroupMembers, getSubgroupsOfUserGroup, getIsUserGroupMember,
    h.accessUserGroupById_eq, accessUserById, h.users]
  cases hg : accessUserGroupById s k reader with
  | error => exact ⟨rfl, rfl, rfl⟩
  | ok userGroup =>
      have hid := (accessUserGroupById_eq_ok hg).2.1
      simp only [bind, Except.bind, h.getUserGroupMemberIds_eq hid, h.getSubgroupIds_eq hid,
        h.isUserInGroup_eq hid, and_self]

end AgreeBelow

end Store

/-! ## Writes outside the groups `k` reaches -/

section Writes

open Store

variable {s t : Store} {k g : Int}

/-- A group `k` does not reach is none of the groups `k` reaches. -/
theorem ne_of_not_reaches (hfar : ¬ Reaches s.groupMemberships k g) {a : Int}
    (ha : Reaches s.groupMemberships k a) : a ≠ g :=
  fun h => hfar (h ▸ ha)

/-- Rows appended out of a group `k` does not reach leave the rows below `k`. -/
theorem filter_fst_append_of_not_reaches {rows new : List (Int × Int)}
    (hfar : ¬ Reaches s.groupMemberships k g) (hnew : ∀ e ∈ new, e.1 = g) {a : Int}
    (ha : Reaches s.groupMemberships k a) :
    (rows ++ new).filter (fun e => e.1 = a) = rows.filter (fun e => e.1 = a) :=
  @filter_append_outside rows new (fun x => decide (x = a)) fun e he => by
    simpa [hnew e he] using (ne_of_not_reaches hfar ha).symm

/-- **Changing columns of a group `k` does not reach.** -/
theorem Store.AgreeBelow.rowEdit {f : UserGroup → UserGroup}
    (hfar : ¬ Reaches s.groupMemberships k g) (hedit : RowEdit s t g f) : AgreeBelow k s t := by
  refine ⟨hedit.users, ?_, fun _ _ => by rw [hedit.memberships],
    fun _ _ => by rw [hedit.groupMemberships]⟩
  rw [hedit.groups, modifyGroup, List.filter_map]
  have hkeep : ((fun x => reaches s.groupMemberships k x.id) ∘
      fun x => if x.id = g then f x else x) = fun x => reaches s.groupMemberships k x.id := by
    funext x
    by_cases hx : x.id = g <;> simp [hx, (hedit.keepsKey x).1]
  rw [hkeep]
  refine (List.map_congr_left fun x hx => ?_).trans (List.map_id _)
  have hreach := Zerver.UserGroups.reaches_iff.mp (List.mem_filter.mp hx).2
  simp [ne_of_not_reaches hfar hreach]

/-- **Creating a group**: its id is fresh, so no group of the store reaches it. -/
theorem Store.AgreeBelow.createGroup (hs : s.Schema) (hk : s.HasGroup k) (realm : Nat)
    (isNamed : Bool) (name description : String) (canMentionGroup : Int) (members : List UserProfile)
    (subgroups : List UserGroup) (actingUser : UserProfile) :
    AgreeBelow k s (s.createGroup realm isNamed name description canMentionGroup members subgroups
      actingUser).1 := by
  have hfar := hs.not_reaches_next hk
  have hnext : reaches s.groupMemberships k s.nextGroupId = false :=
    Bool.eq_false_iff.mpr fun hr => hfar (Zerver.UserGroups.reaches_iff.mp hr)
  refine ⟨rfl, by simp [List.filter_append, hnext], fun a ha => ?_, fun a ha => ?_⟩
  · rw [createGroup_fst_memberships]
    exact filter_fst_append_of_not_reaches hfar (by simp) ha
  · rw [createGroup_fst_groupMemberships]
    exact filter_fst_append_of_not_reaches hfar (by simp) ha

/-- **Deleting a group `k` does not reach**: no row out of a group `k` reaches goes into it. -/
theorem Store.AgreeBelow.deleteGroup (hfar : ¬ Reaches s.groupMemberships k g)
    (l : List AuditLogEntry) :
    AgreeBelow k s { s with
      groups := s.groups.filter fun h => h.id != g
      memberships := s.memberships.filter fun m => m.1 != g
      groupMemberships := s.groupMemberships.filter fun e => e.1 != g && e.2 != g
      auditLog := l } := by
  refine ⟨rfl, ?_, fun a ha => ?_, fun a ha => ?_⟩
  · rw [List.filter_filter]
    refine List.filter_congr fun x _ => ?_
    cases hx : reaches s.groupMemberships k x.id
    · rfl
    · simpa using ne_of_not_reaches hfar (Zerver.UserGroups.reaches_iff.mp hx)
  · exact @filter_filter_outside _ (fun x => decide (x = a)) _ fun m _ hm => by
      simpa using (decide_eq_true_iff.mp hm) ▸ ne_of_not_reaches hfar ha
  · refine @filter_filter_outside _ (fun x => decide (x = a)) _ fun e he hea => ?_
    obtain rfl := decide_eq_true_iff.mp hea
    have hsub : e.2 ≠ g := ne_of_not_reaches hfar (ha.tail he)
    simpa [hsub] using ne_of_not_reaches hfar ha

end Writes

/-! ## Views -/

section Views

open Store

variable {s s' : Store} {k : Int} {userProfile : UserProfile}

theorem agreeBelow_addMembersToGroupBackend {userGroupId : Int} {members : List Int}
    (hfar : ¬ Reaches s.groupMemberships k userGroupId)
    (h : addMembersToGroupBackend s userProfile userGroupId members = .ok s') :
    AgreeBelow k s s' := by
  by_cases hne : members = []
  · subst hne
    cases h
    exact .refl k s
  obtain ⟨g, hg, users, -, -, h⟩ := (addMembersToGroupBackend_eq_ok hne).mp h
  obtain ⟨ms, rfl⟩ := notifyForUserGroupSubscriptionChanges_eq_ok h
  have hid := (accessUserGroupById_eq_ok hg).2.1
  refine ⟨rfl, rfl, fun a ha => ?_, fun _ _ => rfl⟩
  simp only [bulkAddMembersToUserGroups, List.flatMap_singleton]
  exact filter_fst_append_of_not_reaches hfar (by simp [hid]) ha

theorem agreeBelow_removeMembersFromGroupBackend {userGroupId : Int} {members : List Int}
    (hfar : ¬ Reaches s.groupMemberships k userGroupId)
    (h : removeMembersFromGroupBackend s userProfile userGroupId members = .ok s') :
    AgreeBelow k s s' := by
  by_cases hne : members = []
  · subst hne
    cases h
    exact .refl k s
  obtain ⟨_, -, g, hg, -, h⟩ := (removeMembersFromGroupBackend_eq_ok hne).mp h
  obtain ⟨ms, rfl⟩ := notifyForUserGroupSubscriptionChanges_eq_ok h
  have hid := (accessUserGroupById_eq_ok hg).2.1
  refine ⟨rfl, rfl, fun a ha => ?_, fun _ _ => rfl⟩
  exact @filter_filter_outside _ (fun x => decide (x = a)) _ fun m _ hm => by
    have hne : m.1 ≠ g.id := hid ▸ (decide_eq_true_iff.mp hm) ▸ ne_of_not_reaches hfar ha
    simp [hne]

theorem agreeBelow_addSubgroupsToGroupBackend {userGroupId : Int} {subgroupIds : List Int}
    (hfar : ¬ Reaches s.groupMemberships k userGroupId)
    (h : addSubgroupsToGroupBackend s userProfile userGroupId subgroupIds = .ok s') :
    AgreeBelow k s s' := by
  by_cases hne : subgroupIds = []
  · subst hne
    cases h
    exact .refl k s
  obtain ⟨context, hcontext, -, -, rfl⟩ := (addSubgroupsToGroupBackend_eq_ok hne).mp h
  have hid := (accessUserGroupById_eq_ok
    (lockSubgroupsWithRespectToSupergroup_eq_ok.mp hcontext).1).2.1
  refine ⟨rfl, rfl, fun _ _ => rfl, fun a ha => ?_⟩
  exact filter_fst_append_of_not_reaches hfar (by simp [hid]) ha

theorem agreeBelow_removeSubgroupsFromGroupBackend {userGroupId : Int} {subgroupIds : List Int}
    (hfar : ¬ Reaches s.groupMemberships k userGroupId)
    (h : removeSubgroupsFromGroupBackend s userProfile userGroupId subgroupIds = .ok s') :
    AgreeBelow k s s' := by
  by_cases hne : subgroupIds = []
  · subst hne
    cases h
    exact .refl k s
  obtain ⟨context, hcontext, -, rfl⟩ := (removeSubgroupsFromGroupBackend_eq_ok hne).mp h
  have hid := (accessUserGroupById_eq_ok
    (lockSubgroupsWithRespectToSupergroup_eq_ok.mp hcontext).1).2.1
  refine ⟨rfl, rfl, fun _ _ => rfl, fun a ha => ?_⟩
  exact @filter_filter_outside _ (fun x => decide (x = a)) _ fun e _ he => by
    have hne : e.1 ≠ context.supergroup.id :=
      hid ▸ (decide_eq_true_iff.mp he) ▸ ne_of_not_reaches hfar ha
    simp [hne]

theorem agreeBelow_updateUserGroupBackend (hfar : ¬ Reaches s.groupMemberships k userGroupId)
    {delete add : List Int} :
    AgreeBelow k s (updateUserGroupBackend s userProfile userGroupId delete add).1 :=
  updateUserGroupBackend_fst_of (AgreeBelow k s) (.refl k s) fun h₁ h₂ =>
    have hstep := agreeBelow_addMembersToGroupBackend hfar h₁
    hstep.trans (agreeBelow_removeMembersFromGroupBackend (hstep.not_reaches hfar) h₂)

theorem agreeBelow_updateSubgroupsOfUserGroup (hfar : ¬ Reaches s.groupMemberships k userGroupId)
    {delete add : List Int} :
    AgreeBelow k s (updateSubgroupsOfUserGroup s userProfile userGroupId delete add).1 :=
  updateSubgroupsOfUserGroup_fst_of (AgreeBelow k s) (.refl k s) fun h₁ h₂ =>
    have hstep := agreeBelow_addSubgroupsToGroupBackend hfar h₁
    hstep.trans (agreeBelow_removeSubgroupsFromGroupBackend (hstep.not_reaches hfar) h₂)

theorem agreeBelow_deleteUserGroup (hfar : ¬ Reaches s.groupMemberships k userGroupId) :
    AgreeBelow k s (deleteUserGroup s userProfile userGroupId).1 := by
  refine atomic_fst_of (.refl k s) fun h => ?_
  obtain ⟨g, hg, h⟩ := deleteUserGroup_body_eq_ok h
  obtain ⟨-, rfl⟩ := checkDeleteUserGroup_eq_ok h
  exact .deleteGroup ((accessUserGroupById_eq_ok hg).2.1 ▸ hfar) _

/-- A setting value resolves to an existing group, or to a new anonymous one. -/
theorem agreeBelow_accessUserGroupForSetting (hs : s.Schema) (hk : s.HasGroup k)
    {value : GroupSettingValue} {p : Store × UserGroup}
    (h : accessUserGroupForSetting s value userProfile = .ok p) : AgreeBelow k s p.1 := by
  rcases accessUserGroupForSetting_eq_ok h with ⟨_, -, -, hp⟩ | ⟨_, -, _, -, -, rfl⟩
  · exact hp ▸ .refl k s
  · exact .createGroup hs hk _ _ _ _ _ _ _ _

theorem agreeBelow_editGroupSetting (hv : s.Valid) (hk : s.HasGroup k) {userGroup : UserGroup}
    (hfar : ¬ Reaches s.groupMemberships k userGroup.id) {value : GroupSettingRequest}
    (h : editGroupSetting s userProfile userGroup value = .ok s') : AgreeBelow k s s' := by
  obtain ⟨-, -, ⟨-, rfl⟩ | ⟨p, hp, rfl⟩⟩ := editGroupSetting_eq_ok h
  · exact .refl k _
  · have hstep := agreeBelow_accessUserGroupForSetting hv.schema hk hp
    exact hstep.trans (.rowEdit (hstep.not_reaches hfar)
      (doChangeUserGroupPermissionSetting_rowEdit p.1 userGroup p.2 userProfile))

theorem agreeBelow_editUserGroup (hv : s.Valid) (hk : s.HasGroup k)
    (hfar : ¬ Reaches s.groupMemberships k userGroupId) {name description : Option String}
    {canMentionGroup : Option GroupSettingRequest} :
    AgreeBelow k s
      (editUserGroup s userProfile userGroupId name description canMentionGroup).1 := by
  refine atomic_fst_of (.refl k s) fun h => ?_
  obtain ⟨-, userGroup, hg, s₁, h₁, hnone, hsome⟩ := editUserGroupBody_eq_ok.mp h
  have hfar' : ¬ Reaches s.groupMemberships k userGroup.id :=
    (accessUserGroupById_eq_ok hg).2.1 ▸ hfar
  obtain ⟨_, hedit₁, -⟩ := editGroupName_rowEdit h₁
  obtain ⟨_, hedit₂, -⟩ := editGroupDescription_rowEdit s₁ userProfile userGroup description
  have hstep := AgreeBelow.rowEdit hfar' (hedit₁.trans hedit₂)
  cases canMentionGroup with
  | none => exact hnone rfl ▸ hstep
  | some value =>
      exact hstep.trans (agreeBelow_editGroupSetting
        (valid_editGroupDescription (valid_editGroupName hv h₁) userProfile userGroup description)
        (hstep.hasGroup hk) (hstep.not_reaches hfar') (hsome value rfl))

theorem agreeBelow_addUserGroup (hv : s.Valid) (hk : s.HasGroup k)
    {permissionConfig : GroupPermissionSetting} {name description : String} {members : List Int}
    {canMentionGroup : Option GroupSettingRequest} :
    AgreeBelow k s (addUserGroup permissionConfig s userProfile name members description
      canMentionGroup).1 := by
  unfold addUserGroup
  split
  · exact .refl k s
  · rename_i s₁ memberUsers name' _ hq
    have hstep : AgreeBelow k s s₁ := by
      obtain ⟨-, ⟨-, hq', -⟩ | ⟨_, _, -, hp, -⟩⟩ := prepareUserGroup_eq_ok hq
      · exact hq' ▸ .refl k s
      · exact agreeBelow_accessUserGroupForSetting hv.schema hk hp
    refine hstep.trans (atomic_fst_of (.refl k s₁) fun h => ?_)
    obtain ⟨-, settingGroup, -, rfl⟩ := checkAddUserGroup_eq_ok h
    have hcreate := AgreeBelow.createGroup (valid_prepareUserGroup hv hq).1.schema
      (hstep.hasGroup hk) userProfile.realm true name' description settingGroup.id memberUsers []
      userProfile
    exact ⟨hcreate.1, hcreate.2, hcreate.3, hcreate.4⟩

/-- **A request agrees below every group of the store that does not reach the group it names**,
whether it succeeds or fails. -/
theorem agreeBelow_handle (permissionConfig : GroupPermissionSetting) (hv : s.Valid)
    (hk : s.HasGroup k) (request : Request)
    (hfar : ∀ g ∈ request.userGroupId?, ¬ Reaches s.groupMemberships k g) :
    AgreeBelow k s (handle permissionConfig s userProfile request).1 := by
  cases request <;> simp only [handle]
  · exact agreeBelow_addUserGroup hv hk
  · exact agreeBelow_editUserGroup hv hk (hfar _ rfl)
  · exact agreeBelow_deleteUserGroup (hfar _ rfl)
  · exact agreeBelow_updateUserGroupBackend (hfar _ rfl)
  · exact agreeBelow_updateSubgroupsOfUserGroup (hfar _ rfl)

theorem agreeBelow_runRequests (permissionConfig : GroupPermissionSetting) :
    ∀ {s : Store} (requests : List (UserProfile × Request)), s.Valid → s.HasGroup k →
      (∀ p ∈ requests, ∀ g ∈ p.2.userGroupId?, ¬ Reaches s.groupMemberships k g) →
      AgreeBelow k s (runRequests permissionConfig s requests)
  | s, [], _, _, _ => .refl k s
  | s, (userProfile, request) :: rest, hv, hk, hfar => by
      have hstep : AgreeBelow k s (handle permissionConfig s userProfile request).1 :=
        agreeBelow_handle permissionConfig hv hk request (hfar _ (List.mem_cons_self _ _))
      exact hstep.trans (agreeBelow_runRequests permissionConfig rest
        (valid_handle permissionConfig hv request) (hstep.hasGroup hk)
        fun p hp g hg => hstep.not_reaches (hfar p (List.mem_cons_of_mem _ hp) g hg))

end Views

/-- **Requests leave alone the groups that do not reach the groups they name.**  From a store
that keeps its constraints, take a group `k` and requests, succeeding or failing, none of which
names `k` or a group `k` reaches through its recursive subgroups.  Then `k`'s members, its
subgroups and each user's membership in it, direct or recursive, read the same after the
requests as before, for every reader. -/
theorem runRequests_reads_of_not_reaches (permissionConfig : GroupPermissionSetting) {s : Store}
    (hv : s.Valid) {k : Int} (hk : s.HasGroup k) (requests : List (UserProfile × Request))
    (hfar : ∀ p ∈ requests, ∀ g ∈ p.2.userGroupId?, reaches s.groupMemberships k g = false)
    (reader : UserProfile) (userId : Int) (flag : Bool) :
    getUserGroupMembers (runRequests permissionConfig s requests) reader k flag =
        getUserGroupMembers s reader k flag ∧
      getSubgroupsOfUserGroup (runRequests permissionConfig s requests) reader k flag =
        getSubgroupsOfUserGroup s reader k flag ∧
      getIsUserGroupMember (runRequests permissionConfig s requests) reader k userId flag =
        getIsUserGroupMember s reader k userId flag :=
  (agreeBelow_runRequests permissionConfig requests hv hk fun p hp g hg hr =>
    Bool.eq_false_iff.mp (hfar p hp g hg) (reaches_iff.mpr hr)).reads reader userId flag

/-- Ann adds members and a subgroup to `eng` and renames it, and creates a group: `leads`, the
new subgroup, reads as before. -/
theorem runRequests_reads_of_not_reaches_team :
    teamStore.Valid ∧ teamStore.HasGroup 11 ∧
      (∀ p ∈ ([(⟨1, 7, "Ann", false, true⟩, .updateUserGroupBackend 10 [] [1, 2]),
          (⟨1, 7, "Ann", false, true⟩, .updateSubgroupsOfUserGroup 10 [] [11]),
          (⟨1, 7, "Ann", false, true⟩, .editUserGroup 10 (some "core") none none),
          (⟨1, 7, "Ann", false, true⟩, .addUserGroup "ops" [2] "" none)] :
          List (UserProfile × Request)), ∀ g ∈ p.2.userGroupId?,
        reaches teamStore.groupMemberships 11 g = false) ∧
      getUserGroupMembers (runRequests ⟨"role:everyone"⟩ teamStore
        [(⟨1, 7, "Ann", false, true⟩, .updateUserGroupBackend 10 [] [1, 2]),
         (⟨1, 7, "Ann", false, true⟩, .updateSubgroupsOfUserGroup 10 [] [11]),
         (⟨1, 7, "Ann", false, true⟩, .editUserGroup 10 (some "core") none none),
         (⟨1, 7, "Ann", false, true⟩, .addUserGroup "ops" [2] "" none)])
        ⟨2, 7, "Bob", false, true⟩ 11 false =
        getUserGroupMembers teamStore ⟨2, 7, "Bob", false, true⟩ 11 false :=
  have hv : teamStore.Valid := ⟨teamStore_schema, acyclic_nil, List.nodup_nil, List.nodup_nil⟩
  ⟨hv, by decide, by decide,
    (runRequests_reads_of_not_reaches ⟨"role:everyone"⟩ hv (by decide) _ (by decide)
      ⟨2, 7, "Bob", false, true⟩ 0 false).1⟩

end Zerver.UserGroups

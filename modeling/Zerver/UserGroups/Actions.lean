import Zerver.UserGroups.Closure
import Zerver.UserGroups.SettingValue

/-!
# The helpers the views call

`zerver/views/user_groups.py` reads and writes the tables only through helpers of
`zerver.lib.user_groups`, `zerver.lib.users`, `zerver.actions.user_groups` and
`zerver.views.streams`.  None of them is in src/, so each definition here is modelled from the
spec: every lookup is scoped to the acting user's realm and fails with an error before any write,
every action writes its rows and one audit-log entry, and `compose_views` runs its thunks in one
transaction.

Two choices decide a good deal of what the views guarantee, and both follow the spec's reading of
the lookups as queries over the tables:

* `userIdsToUsers` and the `direct_subgroups` of `lockSubgroupsWithRespectToSupergroup` are the
  *rows* that match the listed ids, in table order.  A listed id occurs in them once however often
  it is listed, because the table's primary key is unique (`Store.Schema`).
* `context.recursive_subgroups` is computed on the current store: the candidates and every group
  they reach (`recursiveSubgroupsOf`).  When it is read relative to the locks is a question only
  the concurrent model of `Zerver.UserGroups.Concurrent.Model` asks.

The permission layer (`require_user_group_edit_permission`, the role checks of
`access_user_group_by_id(for_read=False)` and of `access_user_group_for_setting`) is outside the
model: every request here is one the permission layer let through.
-/

namespace Zerver.UserGroups

/-! ## Lookups -/

/-- `access_user_group_by_id`.  Modelled from the spec: a group id resolves only to a named group
of the acting user's realm. -/
def accessUserGroupById (s : Store) (userGroupId : Int) (userProfile : UserProfile) :
    Except String UserGroup :=
  match s.groups.find? fun g => g.id == userGroupId && g.realm == userProfile.realm && g.isNamed with
  | some userGroup => .ok userGroup
  | none => .error "Invalid user group"

/-- `user_ids_to_users`.  Modelled from the spec (the realm-scoped user lookup): the users of the
realm whose id is listed, in table order; the first listed id that names no user of the realm is
refused. -/
def userIdsToUsers (s : Store) (userIds : List Int) (realm : Nat) :
    Except String (List UserProfile) :=
  let userProfiles := s.users.filter fun u => u.id ∈ userIds && u.realm == realm
  match userIds.find? fun userId => !userProfiles.any (·.id == userId) with
  | some userId => .error ("Invalid user ID: " ++ toString userId)
  | none => .ok userProfiles

/-- `get_direct_memberships_of_users`: the listed users that are direct members of the group. -/
def getDirectMembershipsOfUsers (s : Store) (userGroup : UserGroup)
    (members : List UserProfile) : List Int :=
  (members.map UserProfile.id).filter fun userId => (userGroup.id, userId) ∈ s.memberships

/-- The named groups of a realm whose id is listed, in table order. -/
def namedGroupsOfRealm (s : Store) (groupIds : List Int) (realm : Nat) : List UserGroup :=
  s.groups.filter fun g => g.id ∈ groupIds && g.realm == realm && g.isNamed

/-- `LockedUserGroupContext`. -/
structure LockedUserGroupContext where
  supergroup : UserGroup
  directSubgroups : List UserGroup
  recursiveSubgroups : List UserGroup
  deriving DecidableEq, Repr

/-- `lock_subgroups_with_respect_to_supergroup`.  Modelled from the spec: the supergroup must be
accessible, every candidate must resolve to a named group of the realm, and the context holds the
candidates' rows and the candidates together with all their recursive subgroups, read from the
current store.  The locks themselves are the business of the concurrent model. -/
def lockSubgroupsWithRespectToSupergroup (s : Store) (potentialSubgroupIds : List Int)
    (potentialSupergroupId : Int) (actingUser : UserProfile) :
    Except String LockedUserGroupContext := do
  let potentialSupergroup ← accessUserGroupById s potentialSupergroupId actingUser
  let potentialSubgroups := namedGroupsOfRealm s potentialSubgroupIds actingUser.realm
  match potentialSubgroupIds.find? fun groupId => !potentialSubgroups.any (·.id == groupId) with
  | some groupId => .error ("Invalid user group ID: " ++ toString groupId)
  | none =>
      pure { supergroup := potentialSupergroup
             directSubgroups := potentialSubgroups
             recursiveSubgroups :=
               recursiveSubgroupsOf s (potentialSubgroups.map UserGroup.id) }

/-! ## Writes -/

/-- One audit-log entry about a group. -/
def auditEntry (userGroup : UserGroup) (actingUser : UserProfile) (event : AuditEvent) :
    AuditLogEntry :=
  ⟨userGroup.realm, actingUser.id, userGroup.id, event⟩

/-- `bulk_add_members_to_user_groups`: one `UserGroupMembership` row per group and user. -/
def bulkAddMembersToUserGroups (s : Store) (userGroups : List UserGroup) (userIds : List Int)
    (actingUser : UserProfile) : Store :=
  { s with
    memberships := s.memberships ++ userGroups.flatMap fun g => userIds.map (g.id, ·)
    auditLog := s.auditLog ++ userGroups.map fun g =>
      auditEntry g actingUser (.directMembersAdded userIds) }

/-- `bulk_remove_members_from_user_groups`: deletes the rows of the listed groups and users. -/
def bulkRemoveMembersFromUserGroups (s : Store) (userGroups : List UserGroup)
    (userIds : List Int) (actingUser : UserProfile) : Store :=
  { s with
    memberships := s.memberships.filter fun m =>
      !((userGroups.map UserGroup.id).contains m.1 && userIds.contains m.2)
    auditLog := s.auditLog ++ userGroups.map fun g =>
      auditEntry g actingUser (.directMembersRemoved userIds) }

/-- `add_subgroups_to_user_group`: one `GroupGroupMembership` row per subgroup. -/
def addSubgroupsToUserGroup (s : Store) (userGroup : UserGroup) (subgroups : List UserGroup)
    (actingUser : UserProfile) : Store :=
  { s with
    groupMemberships := s.groupMemberships ++ subgroups.map fun g => (userGroup.id, g.id)
    auditLog := s.auditLog ++
      [auditEntry userGroup actingUser (.directSubgroupsAdded (subgroups.map UserGroup.id))] }

/-- `remove_subgroups_from_user_group`: deletes the rows from the group to the subgroups. -/
def removeSubgroupsFromUserGroup (s : Store) (userGroup : UserGroup) (subgroups : List UserGroup)
    (actingUser : UserProfile) : Store :=
  { s with
    groupMemberships := s.groupMemberships.filter fun e =>
      !(e.1 == userGroup.id && (subgroups.map UserGroup.id).contains e.2)
    auditLog := s.auditLog ++
      [auditEntry userGroup actingUser (.directSubgroupsRemoved (subgroups.map UserGroup.id))] }

/-- Changes the row of a group, as `save(update_fields=...)` changes its columns. -/
def Store.modifyGroup (s : Store) (groupId : Int) (f : UserGroup → UserGroup) : Store :=
  { s with groups := s.groups.map fun g => if g.id = groupId then f g else g }

/-- `check_user_group_name`.  Modelled from the spec: an empty (blank) name is invalid; a valid
name is returned as it is. -/
def checkUserGroupName (name : String) : Except String String :=
  if name.trim = "" then .error "User group name can't be empty!" else .ok name

/-- Whether another named group of the realm already has the name. -/
def nameTaken (s : Store) (realm : Nat) (name : String) (except : Int) : Bool :=
  s.groups.any fun g => g.realm == realm && g.isNamed && g.name == name && g.id != except

/-- `do_update_user_group_name`.  Names are unique within a realm. -/
def doUpdateUserGroupName (s : Store) (userGroup : UserGroup) (name : String)
    (actingUser : UserProfile) : Except String Store :=
  if nameTaken s userGroup.realm name userGroup.id then
    .error ("User group '" ++ name ++ "' already exists.")
  else
    .ok { s.modifyGroup userGroup.id (fun g => { g with name := name }) with
          auditLog := s.auditLog ++
            [auditEntry userGroup actingUser (.nameChanged userGroup.name name)] }

/-- `do_update_user_group_description`. -/
def doUpdateUserGroupDescription (s : Store) (userGroup : UserGroup) (description : String)
    (actingUser : UserProfile) : Store :=
  { s.modifyGroup userGroup.id (fun g => { g with description := description }) with
    auditLog := s.auditLog ++
      [auditEntry userGroup actingUser (.descriptionChanged userGroup.description description)] }

/-- `do_change_user_group_permission_setting` for `can_mention_group`. -/
def doChangeUserGroupPermissionSetting (s : Store) (userGroup : UserGroup) (settingName : String)
    (settingValueGroup : UserGroup) (actingUser : UserProfile) : Store :=
  { s.modifyGroup userGroup.id (fun g => { g with canMentionGroup := settingValueGroup.id }) with
    auditLog := s.auditLog ++ [auditEntry userGroup actingUser
      (.groupSettingChanged settingName userGroup.canMentionGroup settingValueGroup.id)] }

/-- Inserts a new group row with the next id of the sequence, with direct members and direct
subgroups. -/
def Store.createGroup (s : Store) (realm : Nat) (isNamed : Bool) (name description : String)
    (canMentionGroup : Int) (members : List UserProfile) (subgroups : List UserGroup)
    (actingUser : UserProfile) : Store × UserGroup :=
  let userGroup : UserGroup := ⟨s.nextGroupId, realm, isNamed, name, description, canMentionGroup⟩
  ({ s with
      groups := s.groups ++ [userGroup]
      memberships := s.memberships ++ members.map fun u => (userGroup.id, u.id)
      groupMemberships := s.groupMemberships ++ subgroups.map fun g => (userGroup.id, g.id)
      nextGroupId := s.nextGroupId + 1
      auditLog := s.auditLog ++ [auditEntry userGroup actingUser .userGroupCreated] },
    userGroup)

section CreateGroup

variable (s : Store) (realm : Nat) (isNamed : Bool) (name description : String)
  (canMentionGroup : Int) (members : List UserProfile) (subgroups : List UserGroup)
  (actingUser : UserProfile)

@[simp] theorem createGroup_snd :
    (s.createGroup realm isNamed name description canMentionGroup members subgroups
      actingUser).2 = ⟨s.nextGroupId, realm, isNamed, name, description, canMentionGroup⟩ := rfl

@[simp] theorem createGroup_fst_groups :
    (s.createGroup realm isNamed name description canMentionGroup members subgroups
      actingUser).1.groups =
      s.groups ++ [⟨s.nextGroupId, realm, isNamed, name, description, canMentionGroup⟩] := rfl

@[simp] theorem createGroup_fst_users :
    (s.createGroup realm isNamed name description canMentionGroup members subgroups
      actingUser).1.users = s.users := rfl

@[simp] theorem createGroup_fst_memberships :
    (s.createGroup realm isNamed name description canMentionGroup members subgroups
      actingUser).1.memberships = s.memberships ++ members.map fun u => (s.nextGroupId, u.id) :=
  rfl

@[simp] theorem createGroup_fst_groupMemberships :
    (s.createGroup realm isNamed name description canMentionGroup members subgroups
      actingUser).1.groupMemberships =
      s.groupMemberships ++ subgroups.map fun g => (s.nextGroupId, g.id) := rfl

@[simp] theorem createGroup_fst_nextGroupId :
    (s.createGroup realm isNamed name description canMentionGroup members subgroups
      actingUser).1.nextGroupId = s.nextGroupId + 1 := rfl

end CreateGroup

/-- The permission configuration of a group setting (an entry of
`NamedUserGroup.GROUP_PERMISSION_SETTINGS`, not in src/).  Of it the model reads only the name of
the system group a new group's setting defaults to. -/
structure GroupPermissionSetting where
  defaultGroupName : String
  deriving DecidableEq, Repr

/-- `access_user_group_for_setting`.  Modelled from the spec: a group id must name a named group
of the realm and is used as it is; an anonymous value has its members resolved by the realm-scoped
user lookup and its subgroups by the realm's named groups, and then a new anonymous group with
those direct members and direct subgroups is created.  The permission configuration's checks on
which groups a setting may use (spec §4.2) are left out. -/
def accessUserGroupForSetting (s : Store) (settingUserGroup : GroupSettingValue)
    (userProfile : UserProfile) : Except String (Store × UserGroup) :=
  match settingUserGroup with
  | .groupId groupId => do
      let userGroup ← accessUserGroupById s groupId userProfile
      pure (s, userGroup)
  | .anonymous value => do
      let members ← userIdsToUsers s value.directMembers userProfile.realm
      let subgroups := namedGroupsOfRealm s value.directSubgroups userProfile.realm
      match value.directSubgroups.find? fun groupId => !subgroups.any (·.id == groupId) with
      | some groupId => .error ("Invalid user group ID: " ++ toString groupId)
      | none => pure (s.createGroup userProfile.realm false "" "" 0 members subgroups userProfile)

/-- The group a new group's setting defaults to: the realm's named group of the configured name. -/
def defaultSettingGroup (s : Store) (realm : Nat) (permissionConfig : GroupPermissionSetting) :
    Except String UserGroup :=
  match s.groups.find? fun g => g.realm == realm && g.isNamed && g.name == permissionConfig.defaultGroupName with
  | some g => .ok g
  | none => .error "Invalid user group"

/-- `check_add_user_group`.  Modelled from the spec: a name already used in the realm is refused;
otherwise a named group is created with the given members, and its setting is the given group or
the configured default. -/
def checkAddUserGroup (s : Store) (permissionConfig : GroupPermissionSetting) (realm : Nat)
    (name : String) (initialMembers : List UserProfile) (description : String)
    (groupSettingsMap : Option UserGroup) (actingUser : UserProfile) : Except String Store :=
  if nameTaken s realm name s.nextGroupId then
    throw ("User group '" ++ name ++ "' already exists.")
  else do
    let settingGroup ← (match groupSettingsMap with
      | some g => pure g
      | none => defaultSettingGroup s realm permissionConfig : Except String UserGroup)
    let (s, userGroup) := s.createGroup realm true name description settingGroup.id
      initialMembers [] actingUser
    pure { s with auditLog := s.auditLog ++
      [auditEntry userGroup actingUser (.directMembersAdded (initialMembers.map UserProfile.id))] }

/-- `user_group.delete()` with its audit-log entry: the group's row goes, with its membership rows
and every `GroupGroupMembership` row it is part of. -/
def Store.deleteGroup (s : Store) (userGroup : UserGroup) (actingUser : UserProfile) : Store :=
  { s with
    groups := s.groups.filter fun g => g.id != userGroup.id
    memberships := s.memberships.filter fun m => m.1 != userGroup.id
    groupMemberships := s.groupMemberships.filter fun e =>
      e.1 != userGroup.id && e.2 != userGroup.id
    auditLog := s.auditLog ++ [auditEntry userGroup actingUser .userGroupDeleted] }

/-- `check_delete_user_group`.  Modelled from the spec: a group another group's setting refers to
is not deletable (the database refuses the delete); otherwise the group is deleted. -/
def checkDeleteUserGroup (s : Store) (userGroup : UserGroup) (actingUser : UserProfile) :
    Except String Store :=
  if s.groups.any fun g => g.isNamed && g.canMentionGroup == userGroup.id && g.id != userGroup.id then
    .error "Cannot delete a user group that is used in a group setting"
  else
    .ok (s.deleteGroup userGroup actingUser)

/-! ## Transactions -/

/-- `transaction.atomic`: the body's writes are kept when it succeeds, and all rolled back when it
raises. -/
def atomic (body : Store → Except String Store) (s : Store) : Store × Except String Unit :=
  match body s with
  | .ok s' => (s', .ok ())
  | .error e => (s, .error e)

/-- `compose_views`.  Modelled from the spec: the thunks run in order inside one transaction, and
the first error aborts the rest. -/
def composeViews (thunks : List (Store → Except String Store)) (s : Store) : Except String Store :=
  thunks.foldlM (fun s thunk => thunk s) s

/-! ## What the lookups return -/

theorem bind_eq_ok {ε α β : Type} {x : Except ε α} {f : α → Except ε β} {b : β} :
    x >>= f = .ok b ↔ ∃ a, x = .ok a ∧ f a = .ok b := by
  cases x <;> simp [bind, Except.bind]

@[simp] theorem pure_eq_ok {ε α : Type} {a b : α} : (pure a : Except ε α) = .ok b ↔ a = b := by
  simp [pure, Except.pure]

@[simp] theorem throw_ne_ok {ε α : Type} {e : ε} {b : α} : (throw e : Except ε α) ≠ .ok b := by
  simp [throw, throwThe, MonadExceptOf.throw]

theorem accessUserGroupById_eq_ok {s : Store} {userGroupId : Int} {userProfile : UserProfile}
    {userGroup : UserGroup} (h : accessUserGroupById s userGroupId userProfile = .ok userGroup) :
    userGroup ∈ s.groups ∧ userGroup.id = userGroupId ∧ userGroup.realm = userProfile.realm ∧
      userGroup.isNamed = true := by
  unfold accessUserGroupById at h
  split at h
  · rename_i hfind
    cases h
    have hp := List.find?_some hfind
    simp only [Bool.and_eq_true, beq_iff_eq] at hp
    exact ⟨List.mem_of_find?_eq_some hfind, hp.1.1, hp.1.2, hp.2⟩
  · cases h

/-- A named group of the acting user's realm is accessible, and the group found is a row with the
same id. -/
theorem accessUserGroupById_of_mem {s : Store} {userProfile : UserProfile} {g : UserGroup}
    (hg : g ∈ s.groups) (hrealm : g.realm = userProfile.realm) (hnamed : g.isNamed = true) :
    ∃ g', accessUserGroupById s g.id userProfile = .ok g' ∧ g' ∈ s.groups ∧ g'.id = g.id ∧
      g'.realm = userProfile.realm ∧ g'.isNamed = true := by
  cases hfind : s.groups.find? fun g' => g'.id == g.id && g'.realm == userProfile.realm &&
      g'.isNamed with
  | none =>
      exact absurd (List.find?_eq_none.mp hfind g hg) (by simp [hrealm, hnamed])
  | some g' =>
      have h : accessUserGroupById s g.id userProfile = .ok g' := by
        simp only [accessUserGroupById, hfind]
      exact ⟨g', h, accessUserGroupById_eq_ok h⟩

theorem userIdsToUsers_eq_ok {s : Store} {userIds : List Int} {realm : Nat}
    {users : List UserProfile} :
    userIdsToUsers s userIds realm = .ok users ↔
      users = s.users.filter (fun u => u.id ∈ userIds && u.realm == realm) ∧
        ∀ userId ∈ userIds, ∃ u ∈ s.users, u.id = userId ∧ u.realm = realm := by
  unfold userIdsToUsers
  dsimp only
  split
  · rename_i userId hfind
    have hmem := List.mem_of_find?_eq_some hfind
    have hp := List.find?_some hfind
    simp only [Bool.not_eq_true', List.any_eq_false, List.mem_filter, Bool.and_eq_true,
      decide_eq_true_eq, beq_iff_eq, and_imp] at hp
    simp only [reduceCtorEq, false_iff, not_and, not_forall]
    intro _
    exact ⟨userId, hmem, fun ⟨u, hu, hid, hr⟩ => hp u hu (hid ▸ hmem) hr hid⟩
  · rename_i hfind
    have hall := List.find?_eq_none.mp hfind
    simp only [Bool.not_eq_true, Bool.not_eq_false', List.any_eq_true, List.mem_filter,
      Bool.and_eq_true, decide_eq_true_eq, beq_iff_eq] at hall
    simp only [Except.ok.injEq]
    constructor
    · rintro rfl
      refine ⟨rfl, fun userId hmem => ?_⟩
      obtain ⟨u, ⟨hu, _, hr⟩, hid⟩ := hall userId hmem
      exact ⟨u, hu, hid, hr⟩
    · exact fun h => h.1.symm

theorem lockSubgroupsWithRespectToSupergroup_eq_ok {s : Store} {potentialSubgroupIds : List Int}
    {potentialSupergroupId : Int} {actingUser : UserProfile} {context : LockedUserGroupContext} :
    lockSubgroupsWithRespectToSupergroup s potentialSubgroupIds potentialSupergroupId actingUser =
        .ok context ↔
      accessUserGroupById s potentialSupergroupId actingUser = .ok context.supergroup ∧
        context.directSubgroups = namedGroupsOfRealm s potentialSubgroupIds actingUser.realm ∧
        context.recursiveSubgroups =
          recursiveSubgroupsOf s (context.directSubgroups.map UserGroup.id) ∧
        ∀ groupId ∈ potentialSubgroupIds, ∃ g ∈ context.directSubgroups, g.id = groupId := by
  unfold lockSubgroupsWithRespectToSupergroup
  rw [bind_eq_ok]
  constructor
  · rintro ⟨sup, hsup, h⟩
    dsimp only at h
    split at h
    · cases h
    · rename_i hfind
      cases h
      have hall := List.find?_eq_none.mp hfind
      simp only [Bool.not_eq_true, Bool.not_eq_false', List.any_eq_true, beq_iff_eq] at hall
      exact ⟨hsup, rfl, rfl, hall⟩
  · rintro ⟨hsup, hdirect, hrec, hall⟩
    refine ⟨context.supergroup, hsup, ?_⟩
    dsimp only
    split
    · rename_i groupId hfind
      have hp := List.find?_some hfind
      simp only [Bool.not_eq_true', List.any_eq_false, beq_iff_eq] at hp
      obtain ⟨g, hg, hid⟩ := hall groupId (List.mem_of_find?_eq_some hfind)
      exact absurd hid (hp g (hdirect ▸ hg))
    · cases context
      simp only at hdirect hrec
      subst hdirect hrec
      rfl

@[simp] theorem mem_namedGroupsOfRealm {s : Store} {groupIds : List Int} {realm : Nat}
    {g : UserGroup} :
    g ∈ namedGroupsOfRealm s groupIds realm ↔
      g ∈ s.groups ∧ g.id ∈ groupIds ∧ g.realm = realm ∧ g.isNamed = true := by
  simp [namedGroupsOfRealm, and_assoc]

@[simp] theorem mem_getDirectMembershipsOfUsers {s : Store} {userGroup : UserGroup}
    {members : List UserProfile} {userId : Int} :
    userId ∈ getDirectMembershipsOfUsers s userGroup members ↔
      userId ∈ members.map UserProfile.id ∧ (userGroup.id, userId) ∈ s.memberships := by
  simp [getDirectMembershipsOfUsers]

end Zerver.UserGroups

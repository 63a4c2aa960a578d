import Zerver.UserGroups.Actions

/-!
# The views of `zerver/views/user_groups.py`

Each view is a function of the store, the acting user and the request's parameters, as
`has_request_variables` hands them over.  A view wrapped in `transaction.atomic` (directly, or
through `compose_views` or the `with` block of `lock_subgroups_with_respect_to_supergroup`) is a
*body* `Store → Except String Store` run through `atomic`, so a view that raises leaves the store as
it found it.

`add_user_group` is the exception: it is not in a transaction, and it resolves its setting (which
may create an anonymous group) before `check_add_user_group` can refuse the name.  Its result keeps
the store after the resolution even when the creation fails.

## Main Definitions

* `addUserGroup`, `editUserGroup`, `deleteUserGroup`, `updateUserGroupBackend`,
  `updateSubgroupsOfUserGroup` — the writing views, each `Store × Except String Unit`.
* `addMembersToGroupBackend`, `removeMembersFromGroupBackend`, `addSubgroupsToGroupBackend`,
  `removeSubgroupsFromGroupBackend` — the bodies the two `update_*` views compose.
* `notifyForUserGroupSubscriptionChanges` — the direct messages to added and removed users.
* `getIsUserGroupMember`, `getUserGroupMembers`, `getSubgroupsOfUserGroup` — the reading views.
* `Request`, `handle`, `runRequests` — a request to any writing view, and a run of requests.
-/

namespace Zerver.UserGroups

/-- `settings.NOTIFICATION_BOT`, the system bot that sends the membership notifications. -/
def notificationBot : String := "notification-bot"

/-- `silent_mention_syntax_for_user` (`zerver.lib.mention`, not in src/): the silent mention of a
user by full name and id. -/
def silentMentionSyntaxForUser (user : UserProfile) : String :=
  "@_**" ++ user.fullName ++ "|" ++ toString user.id ++ "**"

/-- The text "{user_full_name} added you to the group {group_name}." -/
def addedYouMessage (actingUser : UserProfile) (userGroup : UserGroup) : String :=
  silentMentionSyntaxForUser actingUser ++ " added you to the group @_*" ++ userGroup.name ++ "*."

/-- The text "{user_full_name} removed you from the group {group_name}." -/
def removedYouMessage (actingUser : UserProfile) (userGroup : UserGroup) : String :=
  silentMentionSyntaxForUser actingUser ++ " removed you from the group @_*" ++ userGroup.name ++
    "*."

/-- The value of the local `message` after the two `if`s of
`notify_for_user_group_subscription_changes`; `none` is a `message` that was never bound. -/
def subscriptionChangeMessage (actingUser : UserProfile) (userGroup : UserGroup)
    (sendSubscriptionMessage sendUnsubscriptionMessage : Bool) : Option String :=
  let message := if sendSubscriptionMessage then some (addedYouMessage actingUser userGroup)
    else none
  if sendUnsubscriptionMessage then some (removedYouMessage actingUser userGroup) else message

/-- The recipients `notify_for_user_group_subscription_changes` does not skip: not the acting
user, not a bot, not deactivated. -/
def notifiedUsers (actingUser : UserProfile) (recipientUsers : List UserProfile) :
    List UserProfile :=
  recipientUsers.filter fun r => r.id != actingUser.id && !r.isBot && r.isActive

/-- `notify_for_user_group_subscription_changes`.  Reading `message` unbound raises
`UnboundLocalError`; `do_send_messages` is called only with a non-empty batch. -/
def notifyForUserGroupSubscriptionChanges (s : Store) (actingUser : UserProfile)
    (recipientUsers : List UserProfile) (userGroup : UserGroup)
    (sendSubscriptionMessage sendUnsubscriptionMessage : Bool) : Except String Store :=
  match notifiedUsers actingUser recipientUsers,
      subscriptionChangeMessage actingUser userGroup sendSubscriptionMessage
        sendUnsubscriptionMessage with
  | [], _ => .ok s
  | _ :: _, none => .error "UnboundLocalError: message"
  | recipients@(_ :: _), some message =>
      .ok { s with sentMessages := s.sentMessages ++
        [recipients.map fun r => ⟨notificationBot, r.id, message⟩] }

/-! ## Members -/

/-- `add_members_to_group_backend`. -/
def addMembersToGroupBackend (s : Store) (userProfile : UserProfile) (userGroupId : Int)
    (members : List Int) : Except String Store :=
  if members.isEmpty then .ok s else do
    let userGroup ← accessUserGroupById s userGroupId userProfile
    let memberUsers ← userIdsToUsers s members userProfile.realm
    let existingMemberIds := getDirectMembershipsOfUsers s userGroup memberUsers
    match memberUsers.find? fun memberUser => memberUser.id ∈ existingMemberIds with
    | some memberUser =>
        throw ("User " ++ toString memberUser.id ++ " is already a member of this group")
    | none =>
        let memberUserIds := memberUsers.map UserProfile.id
        let s := bulkAddMembersToUserGroups s [userGroup] memberUserIds userProfile
        notifyForUserGroupSubscriptionChanges s userProfile memberUsers userGroup true false

/-- `remove_members_from_group_backend`.  The users are looked up before the group, and the
listed ids, not the users found, are checked against the members. -/
def removeMembersFromGroupBackend (s : Store) (userProfile : UserProfile) (userGroupId : Int)
    (members : List Int) : Except String Store :=
  if members.isEmpty then .ok s else do
    let userProfiles ← userIdsToUsers s members userProfile.realm
    let userGroup ← accessUserGroupById s userGroupId userProfile
    let groupMemberIds := s.directMemberIds userGroup.id
    match members.find? fun member => member ∉ groupMemberIds with
    | some member =>
        throw ("There is no member '" ++ toString member ++ "' in this user group")
    | none =>
        let userProfileIds := userProfiles.map UserProfile.id
        let s := bulkRemoveMembersFromUserGroups s [userGroup] userProfileIds userProfile
        notifyForUserGroupSubscriptionChanges s userProfile userProfiles userGroup false true

/-- The error `update_user_group_backend` and `update_subgroups_of_user_group` raise when both
lists are empty. -/
def nothingToDo : String := "Nothing to do. Specify at least one of \"add\" or \"delete\"."

/-- `update_user_group_backend`: the add, then the delete, in one `compose_views` transaction. -/
def updateUserGroupBackend (s : Store) (userProfile : UserProfile) (userGroupId : Int)
    (delete add : List Int) : Store × Except String Unit :=
  if add.isEmpty && delete.isEmpty then (s, .error nothingToDo)
  else
    atomic (composeViews
      [fun s => addMembersToGroupBackend s userProfile userGroupId add,
       fun s => removeMembersFromGroupBackend s userProfile userGroupId delete]) s

/-! ## Subgroups -/

/-- The body of the `with lock_subgroups_with_respect_to_supergroup(...) as context:` block of
`add_subgroups_to_group_backend`: the existing direct subgroups are read from the store, and the
cycle check reads the context's recursive subgroups. -/
def addSubgroupsToGroupBackend.withBlock (s : Store) (userProfile : UserProfile)
    (userGroupId : Int) (context : LockedUserGroupContext) : Except String Store :=
  let existingDirectSubgroupIds := s.directSubgroupIds context.supergroup.id
  match context.directSubgroups.find? fun group => group.id ∈ existingDirectSubgroupIds with
  | some group =>
      throw ("User group " ++ toString group.id ++ " is already a subgroup of this group.")
  | none =>
      let recursiveSubgroupIds := context.recursiveSubgroups.map UserGroup.id
      if userGroupId ∈ recursiveSubgroupIds then
        throw ("User group " ++ toString userGroupId ++
          " is already a subgroup of one of the passed subgroups.")
      else
        pure (addSubgroupsToUserGroup s context.supergroup context.directSubgroups userProfile)

/-- `add_subgroups_to_group_backend`. -/
def addSubgroupsToGroupBackend (s : Store) (userProfile : UserProfile) (userGroupId : Int)
    (subgroupIds : List Int) : Except String Store :=
  if subgroupIds.isEmpty then .ok s else do
    let context ← lockSubgroupsWithRespectToSupergroup s subgroupIds userGroupId userProfile
    addSubgroupsToGroupBackend.withBlock s userProfile userGroupId context

/-- The body of the `with` block of `remove_subgroups_from_group_backend`.  The context's
recursive subgroups are not read: the call takes their locks only to keep the lock order. -/
def removeSubgroupsFromGroupBackend.withBlock (s : Store) (userProfile : UserProfile)
    (context : LockedUserGroupContext) : Except String Store :=
  let existingDirectSubgroupIds := s.directSubgroupIds context.supergroup.id
  match context.directSubgroups.find? fun group => group.id ∉ existingDirectSubgroupIds with
  | some group =>
      throw ("User group " ++ toString group.id ++ " is not a subgroup of this group.")
  | none =>
      pure (removeSubgroupsFromUserGroup s context.supergroup context.directSubgroups userProfile)

/-- `remove_subgroups_from_group_backend`. -/
def removeSubgroupsFromGroupBackend (s : Store) (userProfile : UserProfile) (userGroupId : Int)
    (subgroupIds : List Int) : Except String Store :=
  if subgroupIds.isEmpty then .ok s else do
    let context ← lockSubgroupsWithRespectToSupergroup s subgroupIds userGroupId userProfile
    removeSubgroupsFromGroupBackend.withBlock s userProfile context

/-- `update_subgroups_of_user_group`: the add, then the delete, in one `compose_views`
transaction. -/
def updateSubgroupsOfUserGroup (s : Store) (userProfile : UserProfile) (userGroupId : Int)
    (delete add : List Int) : Store × Except String Unit :=
  if add.isEmpty && delete.isEmpty then (s, .error nothingToDo)
  else
    atomic (composeViews
      [fun s => addSubgroupsToGroupBackend s userProfile userGroupId add,
       fun s => removeSubgroupsFromGroupBackend s userProfile userGroupId delete]) s

/-! ## Creating, editing and deleting groups -/

/-- The part of `add_user_group` before `check_add_user_group`: the members, the name, and the
resolved setting, which may already have created an anonymous group. -/
def prepareUserGroup (s : Store) (userProfile : UserProfile) (name : String) (members : List Int)
    (canMentionGroup : Option GroupSettingRequest) :
    Except String (Store × List UserProfile × String × Option UserGroup) := do
  let userProfiles ← userIdsToUsers s members userProfile.realm
  let name ← checkUserGroupName name
  match canMentionGroup with
  | none => pure (s, userProfiles, name, none)
  | some value =>
      let (s, settingValueGroup) ←
        accessUserGroupForSetting s (parseGroupSettingValue value) userProfile
      pure (s, userProfiles, name, some settingValueGroup)

/-- `add_user_group`. -/
def addUserGroup (permissionConfig : GroupPermissionSetting) (s : Store)
    (userProfile : UserProfile) (name : String) (members : List Int) (description : String)
    (canMentionGroup : Option GroupSettingRequest) : Store × Except String Unit :=
  match prepareUserGroup s userProfile name members canMentionGroup with
  | .error e => (s, .error e)
  | .ok (s, userProfiles, name, groupSettingsMap) =>
      atomic (fun s => checkAddUserGroup s permissionConfig userProfile.realm name userProfiles
        description groupSettingsMap userProfile) s

/-- `getattr(user_group, "can_mention_group")`: the row the setting's foreign key points to. -/
def getGroupById (s : Store) (groupId : Int) : Except String UserGroup :=
  match s.groups.find? (·.id == groupId) with
  | some userGroup => .ok userGroup
  | none => .error "UserGroup matching query does not exist."

/-- The `can_mention_group` step of `edit_user_group`'s loop over the permission settings. -/
def editGroupSetting (s : Store) (userProfile : UserProfile) (userGroup : UserGroup)
    (value : GroupSettingRequest) : Except String Store := do
  let currentValue ← getGroupById s userGroup.canMentionGroup
  let newSettingValue := parseGroupSettingValue value
  if checkSettingValueChanged s currentValue newSettingValue then
    let (s, settingValueGroup) ← accessUserGroupForSetting s newSettingValue userProfile
    pure (doChangeUserGroupPermissionSetting s userGroup "can_mention_group" settingValueGroup
      userProfile)
  else pure s

/-- The `name` step of `edit_user_group`: a rename when the name differs from the row's. -/
def editGroupName (s : Store) (userProfile : UserProfile) (userGroup : UserGroup) :
    Option String → Except String Store
  | some name =>
      if name != userGroup.name then do
        let name ← checkUserGroupName name
        doUpdateUserGroupName s userGroup name userProfile
      else pure s
  | none => pure s

/-- The `description` step of `edit_user_group`. -/
def editGroupDescription (s : Store) (userProfile : UserProfile) (userGroup : UserGroup) :
    Option String → Store
  | some description =>
      if description != userGroup.description then
        doUpdateUserGroupDescription s userGroup description userProfile
      else s
  | none => s

/-- The body of `edit_user_group`.  `userGroup` is the row fetched once at the start; the writes
change one column each, as `save(update_fields=...)` does. -/
def editUserGroupBody (s : Store) (userProfile : UserProfile) (userGroupId : Int)
    (name description : Option String) (canMentionGroup : Option GroupSettingRequest) :
    Except String Store :=
  if name.isNone && description.isNone && canMentionGroup.isNone then
    throw "No new data supplied"
  else do
    let userGroup ← accessUserGroupById s userGroupId userProfile
    let s ← editGroupName s userProfile userGroup name
    let s := editGroupDescription s userProfile userGroup description
    match canMentionGroup with
    | some value => editGroupSetting s userProfile userGroup value
    | none => pure s

/-- `edit_user_group`, under `transaction.atomic`. -/
def editUserGroup (s : Store) (userProfile : UserProfile) (userGroupId : Int)
    (name description : Option String) (canMentionGroup : Option GroupSettingRequest) :
    Store × Except String Unit :=
  atomic (fun s => editUserGroupBody s userProfile userGroupId name description canMentionGroup) s

/-- `delete_user_group`: the group is its own supergroup and its own only candidate. -/
def deleteUserGroup (s : Store) (userProfile : UserProfile) (userGroupId : Int) :
    Store × Except String Unit :=
  atomic (fun s => do
    let context ← lockSubgroupsWithRespectToSupergroup s [userGroupId] userGroupId userProfile
    checkDeleteUserGroup s context.supergroup userProfile) s

/-! ## Reading views -/

/-- `access_user_by_id(for_admin=False)` (`zerver.lib.users`, not in src/): a user of the acting
user's realm. -/
def accessUserById (s : Store) (userProfile : UserProfile) (userId : Int) :
    Except String UserProfile :=
  match s.users.find? fun u => u.id == userId && u.realm == userProfile.realm with
  | some user => .ok user
  | none => .error "No such user"

/-- `get_user_group_member_ids`.  Modelled from the spec: the direct members, or the users that
are direct members of the group or of one of its recursive subgroups. -/
def getUserGroupMemberIds (s : Store) (userGroup : UserGroup) (directMemberOnly : Bool) :
    List Int :=
  if directMemberOnly then s.directMemberIds userGroup.id
  else
    (s.users.filter fun u => (recursiveSubgroupsOf s [userGroup.id]).any fun g =>
      (g.id, u.id) ∈ s.memberships).map UserProfile.id

/-- `is_user_in_group`.  Modelled from the spec: a direct membership row, or a membership in the
group or one of its recursive subgroups. -/
def isUserInGroup (s : Store) (userGroup : UserGroup) (user : UserProfile)
    (directMemberOnly : Bool) : Bool :=
  if directMemberOnly then (userGroup.id, user.id) ∈ s.memberships
  else (recursiveSubgroupsOf s [userGroup.id]).any fun g => (g.id, user.id) ∈ s.memberships

/-- `get_subgroup_ids`.  Modelled from the spec: the direct subgroups, or every recursive
subgroup other than the group itself. -/
def getSubgroupIds (s : Store) (userGroup : UserGroup) (directSubgroupOnly : Bool) : List Int :=
  if directSubgroupOnly then s.directSubgroupIds userGroup.id
  else ((recursiveSubgroupsOf s [userGroup.id]).filter (·.id != userGroup.id)).map UserGroup.id

/-- `get_is_user_group_member`. -/
def getIsUserGroupMember (s : Store) (userProfile : UserProfile) (userGroupId userId : Int)
    (directMemberOnly : Bool) : Except String Bool := do
  let userGroup ← accessUserGroupById s userGroupId userProfile
  let targetUser ← accessUserById s userProfile userId
  pure (isUserInGroup s userGroup targetUser directMemberOnly)

/-- `get_user_group_members`. -/
def getUserGroupMembers (s : Store) (userProfile : UserProfile) (userGroupId : Int)
    (directMemberOnly : Bool) : Except String (List Int) := do
  let userGroup ← accessUserGroupById s userGroupId userProfile
  pure (getUserGroupMemberIds s userGroup directMemberOnly)

/-- `get_subgroups_of_user_group`. -/
def getSubgroupsOfUserGroup (s : Store) (userProfile : UserProfile) (userGroupId : Int)
    (directSubgroupOnly : Bool) : Except String (List Int) := do
  let userGroup ← accessUserGroupById s userGroupId userProfile
  pure (getSubgroupIds s userGroup directSubgroupOnly)

/-! ## Transactions and notifications -/

section Spec

variable {s s' : Store}

theorem atomic_of_ok {body : Store → Except String Store} (h : body s = .ok s') :
    atomic body s = (s', .ok ()) := by
  simp [atomic, h]

theorem atomic_of_error {body : Store → Except String Store} {e : String}
    (h : body s = .error e) : atomic body s = (s, .error e) := by
  simp [atomic, h]

/-- A property of stores that the body of a transaction keeps, the transaction keeps. -/
theorem atomic_fst_of {P : Store → Prop} {body : Store → Except String Store} (hs : P s)
    (hbody : ∀ {s'}, body s = .ok s' → P s') : P (atomic body s).1 := by
  unfold atomic
  split
  · exact hbody ‹_›
  · exact hs

/-- Two composed views: the second runs on the store the first leaves. -/
theorem composeViews_pair {first second : Store → Except String Store} :
    composeViews [first, second] s = first s >>= second := by
  simp [composeViews]

theorem composeViews_pair_eq_ok {first second : Store → Except String Store} :
    composeViews [first, second] s = .ok s' ↔ ∃ s₁, first s = .ok s₁ ∧ second s₁ = .ok s' := by
  rw [composeViews_pair, bind_eq_ok]

/-- **Two bodies in one transaction.**  When the first succeeds exactly under `P`, and the second,
run on whatever the first leaves, exactly under `Q`, the pair succeeds exactly under `P ∧ Q`; a
success ends in the second body's store, and a failure leaves the store as it was. -/
theorem atomic_composeViews_pair {first second : Store → Except String Store} {P Q : Prop}
    (hfirst : (∃ s₁, first s = .ok s₁) ↔ P)
    (hsecond : ∀ s₁, first s = .ok s₁ → ((∃ s₂, second s₁ = .ok s₂) ↔ Q)) :
    ((atomic (composeViews [first, second]) s).2 = .ok () ↔ P ∧ Q) ∧
      ((atomic (composeViews [first, second]) s).2 = .ok () →
        ∃ s₁, first s = .ok s₁ ∧ second s₁ = .ok (atomic (composeViews [first, second]) s).1) ∧
      ((atomic (composeViews [first, second]) s).2 ≠ .ok () →
        (atomic (composeViews [first, second]) s).1 = s) := by
  have hiff : (∃ s', composeViews [first, second] s = .ok s') ↔ P ∧ Q := by
    simp only [composeViews_pair_eq_ok]
    constructor
    · rintro ⟨s₂, s₁, h₁, h₂⟩
      exact ⟨hfirst.mp ⟨s₁, h₁⟩, (hsecond s₁ h₁).mp ⟨s₂, h₂⟩⟩
    · rintro ⟨hP, hQ⟩
      obtain ⟨s₁, h₁⟩ := hfirst.mpr hP
      obtain ⟨s₂, h₂⟩ := (hsecond s₁ h₁).mpr hQ
      exact ⟨s₂, s₁, h₁, h₂⟩
  unfold atomic
  split
  · rename_i hbody
    exact ⟨iff_of_true rfl (hiff.mp ⟨_, hbody⟩), fun _ => composeViews_pair_eq_ok.mp hbody,
      fun h => absurd rfl h⟩
  · rename_i hbody
    refine ⟨iff_of_false (by simp) fun h => ?_, fun h => absurd h (by simp), fun _ => rfl⟩
    obtain ⟨_, h'⟩ := hiff.mpr h
    rw [hbody] at h'
    cases h'

/-- **What a membership update leaves**: a property of the store it found that holds of every
store a successful add and then a successful remove leave. -/
theorem updateUserGroupBackend_fst_of (P : Store → Prop) {userProfile : UserProfile}
    {userGroupId : Int} {delete add : List Int} (hs : P s)
    (hbody : ∀ {s₁ s₂}, addMembersToGroupBackend s userProfile userGroupId add = .ok s₁ →
      removeMembersFromGroupBackend s₁ userProfile userGroupId delete = .ok s₂ → P s₂) :
    P (updateUserGroupBackend s userProfile userGroupId delete add).1 := by
  unfold updateUserGroupBackend
  split
  · exact hs
  · refine atomic_fst_of hs fun h => ?_
    obtain ⟨_, h₁, h₂⟩ := composeViews_pair_eq_ok.mp h
    exact hbody h₁ h₂

/-- **What a subgroup update leaves**: a property of the store it found that holds of every store
a successful add and then a successful remove leave. -/
theorem updateSubgroupsOfUserGroup_fst_of (P : Store → Prop) {userProfile : UserProfile}
    {userGroupId : Int} {delete add : List Int} (hs : P s)
    (hbody : ∀ {s₁ s₂}, addSubgroupsToGroupBackend s userProfile userGroupId add = .ok s₁ →
      removeSubgroupsFromGroupBackend s₁ userProfile userGroupId delete = .ok s₂ → P s₂) :
    P (updateSubgroupsOfUserGroup s userProfile userGroupId delete add).1 := by
  unfold updateSubgroupsOfUserGroup
  split
  · exact hs
  · refine atomic_fst_of hs fun h => ?_
    obtain ⟨_, h₁, h₂⟩ := composeViews_pair_eq_ok.mp h
    exact hbody h₁ h₂

/-- A notification changes only the sent messages. -/
theorem notifyForUserGroupSubscriptionChanges_eq_ok {actingUser : UserProfile}
    {recipientUsers : List UserProfile} {userGroup : UserGroup} {sub unsub : Bool}
    (h : notifyForUserGroupSubscriptionChanges s actingUser recipientUsers userGroup sub unsub =
      .ok s') : ∃ ms, s' = { s with sentMessages := ms } := by
  unfold notifyForUserGroupSubscriptionChanges at h
  split at h <;> cases h <;> exact ⟨_, rfl⟩

end Spec

/-! ## Runs of requests -/

/-- A request to one of the writing views, with the parameters `has_request_variables` parsed. -/
inductive Request where
  | addUserGroup (name : String) (members : List Int) (description : String)
      (canMentionGroup : Option GroupSettingRequest)
  | editUserGroup (userGroupId : Int) (name description : Option String)
      (canMentionGroup : Option GroupSettingRequest)
  | deleteUserGroup (userGroupId : Int)
  | updateUserGroupBackend (userGroupId : Int) (delete add : List Int)
  | updateSubgroupsOfUserGroup (userGroupId : Int) (delete add : List Int)
  deriving DecidableEq, Repr

/-- The view a request goes to. -/
def handle (permissionConfig : GroupPermissionSetting) (s : Store) (userProfile : UserProfile) :
    Request → Store × Except String Unit
  | .addUserGroup name members description canMentionGroup =>
      addUserGroup permissionConfig s userProfile name members description canMentionGroup
  | .editUserGroup userGroupId name description canMentionGroup =>
      editUserGroup s userProfile userGroupId name description canMentionGroup
  | .deleteUserGroup userGroupId => deleteUserGroup s userProfile userGroupId
  | .updateUserGroupBackend userGroupId delete add =>
      updateUserGroupBackend s userProfile userGroupId delete add
  | .updateSubgroupsOfUserGroup userGroupId delete add =>
      updateSubgroupsOfUserGroup s userProfile userGroupId delete add

/-- The store after a sequence of requests, each by its own acting user, each succeeding or not. -/
def runRequests (permissionConfig : GroupPermissionSetting) :
    Store → List (UserProfile × Request) → Store
  | s, [] => s
  | s, (userProfile, request) :: rest =>
      runRequests permissionConfig (handle permissionConfig s userProfile request).1 rest

end Zerver.UserGroups

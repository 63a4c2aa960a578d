import Zerver.UserGroups.Views

/-!
# Direct members

`add_members_to_group_backend` and `remove_members_from_group_backend` look up the group and the
users, check every listed id, and only then write; `update_user_group_backend` runs the two in one
transaction, the add first.  This module states once what each body does
(`addMembersToGroupBackend_eq_ok`, `removeMembersFromGroupBackend_eq_ok`), and derives from that
what a call does to the membership table and which direct messages it sends.

## Main Results

* `memberships_of_addMembersToGroupBackend`, `memberships_of_removeMembersFromGroupBackend` — a
  successful body adds (removes) the rows of the listed users and changes no other table.
* `NotifiesChangedMembers` — the spec's account of the notifications, read off the two stores:
  one batch from the notification bot with one message to each user whose direct membership
  changed, other than the acting user, bots and deactivated users, and no batch when nobody
  qualifies.
* `MembersUpdated` — a store that differs from another only in one group's direct members, which
  became `(M ∪ add) \ delete`.
* `getIsUserGroupMember_iff_mem_getUserGroupMembers` — `get_is_user_group_member` and
  `get_user_group_members` agree, directly and recursively.

## Design Notes

A user's membership *changed* when the row `(group, user)` is in one store and not in the other.
Which users that is depends on user ids being a primary key (`Store.Schema.user_eq_of_id_eq`):
the users a body found are rows of the user table, and only through the key are they the users
whose rows were written.
-/

namespace Zerver.UserGroups

/-! ## What the two bodies do -/

section Spec

variable {s s' : Store} {userProfile : UserProfile} {userGroupId : Int} {members : List Int}

/-- With `message` bound, the notified users get one message each, in one batch that is sent only
when somebody is notified. -/
theorem notifyForUserGroupSubscriptionChanges_of_message {actingUser : UserProfile}
    {recipientUsers : List UserProfile} {userGroup : UserGroup} {sub unsub : Bool}
    {message : String}
    (hmessage : subscriptionChangeMessage actingUser userGroup sub unsub = some message) :
    notifyForUserGroupSubscriptionChanges s actingUser recipientUsers userGroup sub unsub =
      .ok (if notifiedUsers actingUser recipientUsers = [] then s else
        { s with sentMessages := s.sentMessages ++
          [(notifiedUsers actingUser recipientUsers).map fun r => ⟨notificationBot, r.id, message⟩] })
    := by
  unfold notifyForUserGroupSubscriptionChanges
  cases notifiedUsers actingUser recipientUsers <;> simp [hmessage]

/-- **`add_members_to_group_backend`** with a non-empty list: the group and the users are looked
up, no user found is a direct member yet, and then one row per user is added and the users are
notified. -/
theorem addMembersToGroupBackend_eq_ok (hne : members ≠ []) :
    addMembersToGroupBackend s userProfile userGroupId members = .ok s' ↔
      ∃ userGroup, accessUserGroupById s userGroupId userProfile = .ok userGroup ∧
        ∃ memberUsers, userIdsToUsers s members userProfile.realm = .ok memberUsers ∧
        (∀ u ∈ memberUsers, (userGroup.id, u.id) ∉ s.memberships) ∧
        notifyForUserGroupSubscriptionChanges
          (bulkAddMembersToUserGroups s [userGroup] (memberUsers.map UserProfile.id) userProfile)
          userProfile memberUsers userGroup true false = .ok s' := by
  simp only [addMembersToGroupBackend, List.isEmpty_iff, hne, if_false, bind_eq_ok]
  refine exists_congr fun userGroup => and_congr_right fun _ =>
    exists_congr fun memberUsers => and_congr_right fun _ => ?_
  split
  · rename_i u hfind
    have hmem := List.find?_some hfind
    simp only [decide_eq_true_eq, mem_getDirectMembershipsOfUsers] at hmem
    simp only [throw_ne_ok, false_iff, not_and]
    exact fun hall => absurd hmem.2 (hall u (List.mem_of_find?_eq_some hfind))
  · rename_i hnone
    simp only [true_and, iff_and_self]
    intro _ u hu hmem
    have := List.find?_eq_none.mp hnone u hu
    simp only [decide_eq_true_eq, mem_getDirectMembershipsOfUsers, not_and] at this
    exact this (List.mem_map_of_mem _ hu) hmem

/-- **`remove_members_from_group_backend`** with a non-empty list: the users and the group are
looked up, every listed id is a direct member, and then the rows of the users found are deleted
and the users are notified. -/
theorem removeMembersFromGroupBackend_eq_ok (hne : members ≠ []) :
    removeMembersFromGroupBackend s userProfile userGroupId members = .ok s' ↔
      ∃ userProfiles, userIdsToUsers s members userProfile.realm = .ok userProfiles ∧
        ∃ userGroup, accessUserGroupById s userGroupId userProfile = .ok userGroup ∧
        (∀ member ∈ members, (userGroup.id, member) ∈ s.memberships) ∧
        notifyForUserGroupSubscriptionChanges
          (bulkRemoveMembersFromUserGroups s [userGroup] (userProfiles.map UserProfile.id)
            userProfile)
          userProfile userProfiles userGroup false true = .ok s' := by
  simp only [removeMembersFromGroupBackend, List.isEmpty_iff, hne, if_false, bind_eq_ok]
  refine exists_congr fun userProfiles => and_congr_right fun _ =>
    exists_congr fun userGroup => and_congr_right fun _ => ?_
  split
  · rename_i member hfind
    have hnot := List.find?_some hfind
    simp only [decide_eq_true_eq, Store.mem_directMemberIds] at hnot
    simp only [throw_ne_ok, false_iff, not_and]
    exact fun hall => absurd (hall member (List.mem_of_find?_eq_some hfind)) hnot
  · rename_i hnone
    simp only [true_and, iff_and_self]
    intro _ member hmem
    simpa using List.find?_eq_none.mp hnone member hmem

/-- The rows after a bulk add: the old ones, and the group's row for each listed id. -/
theorem mem_bulkAddMembersToUserGroups {userGroup : UserGroup} {userIds : List Int}
    {m : Int × Int} :
    m ∈ (bulkAddMembersToUserGroups s [userGroup] userIds userProfile).memberships ↔
      m ∈ s.memberships ∨ m.1 = userGroup.id ∧ m.2 ∈ userIds := by
  obtain ⟨g, x⟩ := m
  simp only [bulkAddMembersToUserGroups, List.flatMap_singleton, List.mem_append, List.mem_map,
    Prod.mk.injEq]
  exact or_congr_right ⟨fun ⟨_, hx, hg, rfl⟩ => ⟨hg.symm, hx⟩, fun ⟨hg, hx⟩ => ⟨x, hx, hg.symm, rfl⟩⟩

/-- The rows after a bulk remove: the old ones but the group's rows for the listed ids. -/
theorem mem_bulkRemoveMembersFromUserGroups {userGroup : UserGroup} {userIds : List Int}
    {m : Int × Int} :
    m ∈ (bulkRemoveMembersFromUserGroups s [userGroup] userIds userProfile).memberships ↔
      m ∈ s.memberships ∧ ¬ (m.1 = userGroup.id ∧ m.2 ∈ userIds) := by
  simp [bulkRemoveMembersFromUserGroups, imp_iff_not_or]

/-- A notification changes only the sent messages. -/
theorem tables_of_notify {t : Store} {actingUser : UserProfile}
    {recipientUsers : List UserProfile} {userGroup : UserGroup} {sub unsub : Bool}
    (h : notifyForUserGroupSubscriptionChanges t actingUser recipientUsers userGroup sub unsub =
      .ok s') :
    s'.users = t.users ∧ s'.groups = t.groups ∧ s'.memberships = t.memberships ∧
      s'.groupMemberships = t.groupMemberships := by
  obtain ⟨_, rfl⟩ := notifyForUserGroupSubscriptionChanges_eq_ok h
  exact ⟨rfl, rfl, rfl, rfl⟩

/-- The ids of the users `user_ids_to_users` found are the listed ids. -/
theorem mem_ids_of_userIdsToUsers {userIds : List Int} {realm : Nat} {users : List UserProfile}
    (h : userIdsToUsers s userIds realm = .ok users) {x : Int} :
    x ∈ users.map UserProfile.id ↔ x ∈ userIds := by
  obtain ⟨rfl, hall⟩ := userIdsToUsers_eq_ok.mp h
  constructor
  · simp only [List.mem_map, List.mem_filter, Bool.and_eq_true, decide_eq_true_eq]
    rintro ⟨u, ⟨-, hu, -⟩, rfl⟩
    exact hu
  · intro hx
    obtain ⟨u, hu, rfl, hr⟩ := hall x hx
    exact List.mem_map_of_mem _ (List.mem_filter.mpr ⟨hu, by simp [hx, hr]⟩)

/-- **A successful add** writes the group's rows for the listed ids and no other table. -/
theorem memberships_of_addMembersToGroupBackend
    (h : addMembersToGroupBackend s userProfile userGroupId members = .ok s') :
    s'.users = s.users ∧ s'.groups = s.groups ∧ s'.groupMemberships = s.groupMemberships ∧
      ∀ m, m ∈ s'.memberships ↔ m ∈ s.memberships ∨ m.1 = userGroupId ∧ m.2 ∈ members := by
  by_cases hne : members = []
  · subst hne
    cases h
    simp
  obtain ⟨userGroup, hacc, memberUsers, husers, -, h⟩ := (addMembersToGroupBackend_eq_ok hne).mp h
  obtain ⟨hu, hg, hm, he⟩ := tables_of_notify h
  refine ⟨hu, hg, he, fun m => ?_⟩
  rw [hm, mem_bulkAddMembersToUserGroups, mem_ids_of_userIdsToUsers husers,
    (accessUserGroupById_eq_ok hacc).2.1]

/-- **A successful remove** deletes the group's rows for the listed ids and writes no other
table. -/
theorem memberships_of_removeMembersFromGroupBackend
    (h : removeMembersFromGroupBackend s userProfile userGroupId members = .ok s') :
    s'.users = s.users ∧ s'.groups = s.groups ∧ s'.groupMemberships = s.groupMemberships ∧
      ∀ m, m ∈ s'.memberships ↔ m ∈ s.memberships ∧ ¬ (m.1 = userGroupId ∧ m.2 ∈ members) := by
  by_cases hne : members = []
  · subst hne
    cases h
    simp
  obtain ⟨userProfiles, husers, userGroup, hacc, -, h⟩ :=
    (removeMembersFromGroupBackend_eq_ok hne).mp h
  obtain ⟨hu, hg, hm, he⟩ := tables_of_notify h
  refine ⟨hu, hg, he, fun m => ?_⟩
  rw [hm, mem_bulkRemoveMembersFromUserGroups, mem_ids_of_userIdsToUsers husers,
    (accessUserGroupById_eq_ok hacc).2.1]

/-- With the group accessible and every listed id a user of the realm, the add succeeds exactly
when none of them is a direct member. -/
theorem addMembersToGroupBackend_ok_iff {userGroup : UserGroup}
    (hacc : accessUserGroupById s userGroupId userProfile = .ok userGroup)
    (hids : ∀ m ∈ members, ∃ u ∈ s.users, u.id = m ∧ u.realm = userProfile.realm) :
    (∃ s', addMembersToGroupBackend s userProfile userGroupId members = .ok s') ↔
      ∀ m ∈ members, (userGroupId, m) ∉ s.memberships := by
  by_cases hne : members = []
  · subst hne
    exact ⟨fun _ => by simp, fun _ => ⟨s, rfl⟩⟩
  have husers := userIdsToUsers_eq_ok.mpr ⟨rfl, hids⟩
  obtain ⟨-, rfl, -, -⟩ := accessUserGroupById_eq_ok hacc
  constructor
  · rintro ⟨s', hs'⟩ m hm
    obtain ⟨g, hg, users, hu, hfresh, -⟩ := (addMembersToGroupBackend_eq_ok hne).mp hs'
    rw [hacc] at hg
    rw [husers] at hu
    cases hg
    cases hu
    obtain ⟨u, hu, rfl, hr⟩ := hids m hm
    exact hfresh u (List.mem_filter.mpr ⟨hu, by simp [hm, hr]⟩)
  · intro hfresh
    refine ⟨_, (addMembersToGroupBackend_eq_ok hne).mpr ⟨userGroup, hacc, _, husers,
      fun u hu => hfresh u.id ?_, notifyForUserGroupSubscriptionChanges_of_message rfl⟩⟩
    simp only [List.mem_filter, Bool.and_eq_true, decide_eq_true_eq] at hu
    exact hu.2.1

/-- With the group accessible and every listed id a user of the realm, the remove succeeds exactly
when all of them are direct members. -/
theorem removeMembersFromGroupBackend_ok_iff {userGroup : UserGroup}
    (hacc : accessUserGroupById s userGroupId userProfile = .ok userGroup)
    (hids : ∀ m ∈ members, ∃ u ∈ s.users, u.id = m ∧ u.realm = userProfile.realm) :
    (∃ s', removeMembersFromGroupBackend s userProfile userGroupId members = .ok s') ↔
      ∀ m ∈ members, (userGroupId, m) ∈ s.memberships := by
  by_cases hne : members = []
  · subst hne
    exact ⟨fun _ => by simp, fun _ => ⟨s, rfl⟩⟩
  have husers := userIdsToUsers_eq_ok.mpr ⟨rfl, hids⟩
  obtain ⟨-, rfl, -, -⟩ := accessUserGroupById_eq_ok hacc
  constructor
  · rintro ⟨s', hs'⟩
    obtain ⟨users, -, g, hg, hall, -⟩ := (removeMembersFromGroupBackend_eq_ok hne).mp hs'
    rw [hacc] at hg
    cases hg
    exact hall
  · intro hall
    exact ⟨_, (removeMembersFromGroupBackend_eq_ok hne).mpr ⟨_, husers, userGroup, hacc, hall,
      notifyForUserGroupSubscriptionChanges_of_message rfl⟩⟩

end Spec

/-! ## Notifications -/

/-- A user the spec says must hear about a call that took the store from `s` to `s'`: a user whose
row `(group, user)` is in one of the stores and not in the other, other than the acting user, not a
bot, and active. -/
def ChangedAndNotified (s s' : Store) (actingUser : UserProfile) (userGroupId : Int)
    (user : UserProfile) : Prop :=
  user ∈ s.users ∧
    ¬ ((userGroupId, user.id) ∈ s.memberships ↔ (userGroupId, user.id) ∈ s'.memberships) ∧
    user.id ≠ actingUser.id ∧ user.isBot = false ∧ user.isActive = true

/-- **The notifications of a membership change from `s` to `s'`.**  Either nothing is sent and
nobody qualifies, or `do_send_messages` gets one non-empty batch, each message of it from the
notification bot with the group's text, to pairwise different recipients that are exactly the
qualifying users. -/
def NotifiesChangedMembers (s s' : Store) (actingUser : UserProfile) (userGroupId : Int)
    (content : UserGroup → String) : Prop :=
  (s'.sentMessages = s.sentMessages ∧
      ∀ user, ¬ ChangedAndNotified s s' actingUser userGroupId user) ∨
    ∃ userGroup ∈ s.groups, userGroup.id = userGroupId ∧ ∃ batch : List Message, batch ≠ [] ∧
      s'.sentMessages = s.sentMessages ++ [batch] ∧
      (∀ m ∈ batch, m.sender = notificationBot ∧ m.content = content userGroup) ∧
      (batch.map Message.recipient).Nodup ∧
      ∀ recipient, recipient ∈ batch.map Message.recipient ↔
        ∃ user, user.id = recipient ∧ ChangedAndNotified s s' actingUser userGroupId user

section Notifications

variable {s s' : Store} {userProfile : UserProfile} {userGroupId : Int} {members : List Int}

/-- A notification whose recipients are exactly the users whose membership the write `s ↦ t`
changed notifies as the spec asks. -/
theorem notifiesChangedMembers_of_notify {t : Store} {recipientUsers : List UserProfile}
    {userGroup : UserGroup} {sub unsub : Bool} {content : UserGroup → String}
    (hmessage : subscriptionChangeMessage userProfile userGroup sub unsub =
      some (content userGroup))
    (hgroup : userGroup ∈ s.groups) (hsent : t.sentMessages = s.sentMessages)
    (hrecipients : ∀ u ∈ recipientUsers, u ∈ s.users)
    (hnodup : (recipientUsers.map UserProfile.id).Nodup)
    (hchanged : ∀ user ∈ s.users, user ∈ recipientUsers ↔
      ¬ ((userGroup.id, user.id) ∈ s.memberships ↔ (userGroup.id, user.id) ∈ t.memberships))
    (h : notifyForUserGroupSubscriptionChanges t userProfile recipientUsers userGroup sub unsub =
      .ok s') :
    NotifiesChangedMembers s s' userProfile userGroup.id content := by
  have hm : s'.memberships = t.memberships := (tables_of_notify h).2.2.1
  have hqualifies : ∀ user, ChangedAndNotified s s' userProfile userGroup.id user ↔
      user ∈ notifiedUsers userProfile recipientUsers := fun user => by
    simp only [ChangedAndNotified, notifiedUsers, List.mem_filter, hm, Bool.and_eq_true,
      bne_iff_ne, ne_eq, Bool.not_eq_true', and_assoc]
    exact ⟨fun ⟨hu, hc, hrest⟩ => ⟨(hchanged user hu).mpr hc, hrest⟩,
      fun ⟨hr, hrest⟩ => ⟨hrecipients user hr, (hchanged user (hrecipients user hr)).mp hr, hrest⟩⟩
  rw [notifyForUserGroupSubscriptionChanges_of_message hmessage, Except.ok.injEq] at h
  split at h
  · rename_i hnone
    subst h
    exact .inl ⟨hsent, fun user hq => by simpa [hnone] using (hqualifies user).mp hq⟩
  · rename_i hsome
    subst h
    refine .inr ⟨userGroup, hgroup, rfl, (notifiedUsers userProfile recipientUsers).map
      fun r => ⟨notificationBot, r.id, content userGroup⟩, by simpa using hsome, by simp [hsent],
      by simp, ?_, fun recipient => ?_⟩
    · simpa [List.map_map, Function.comp_def] using
        hnodup.sublist ((List.filter_sublist _).map _)
    · simp only [List.map_map, Function.comp_def, List.map_id', List.mem_map, hqualifies]
      exact ⟨fun ⟨u, hu, hid⟩ => ⟨u, hid, hu⟩, fun ⟨u, hid, hu⟩ => ⟨u, hu, hid⟩⟩

/-- **A successful add notifies** the users it made members. -/
theorem notifies_of_addMembersToGroupBackend (hschema : s.Schema)
    (h : addMembersToGroupBackend s userProfile userGroupId members = .ok s') :
    NotifiesChangedMembers s s' userProfile userGroupId (addedYouMessage userProfile) := by
  by_cases hne : members = []
  · subst hne
    cases h
    exact .inl ⟨rfl, fun _ ⟨_, hc, _⟩ => hc Iff.rfl⟩
  obtain ⟨userGroup, hacc, memberUsers, husers, hfresh, h⟩ :=
    (addMembersToGroupBackend_eq_ok hne).mp h
  obtain ⟨hgroup, rfl, -, -⟩ := accessUserGroupById_eq_ok hacc
  obtain ⟨rfl, -⟩ := userIdsToUsers_eq_ok.mp husers
  refine notifiesChangedMembers_of_notify ?_ hgroup ?_ (fun u hu => (List.mem_filter.mp hu).1)
    (hschema.nodup_userIds_of_sublist (List.filter_sublist _)) (fun user huser => ?_) h
  · rfl
  · rfl
  rw [mem_bulkAddMembersToUserGroups]
  refine ⟨fun hu hiff => hfresh user hu (hiff.mpr (.inr ⟨rfl, List.mem_map_of_mem _ hu⟩)),
    fun hc => ?_⟩
  by_cases hid : user.id ∈ (s.users.filter fun u => u.id ∈ members &&
      u.realm == userProfile.realm).map UserProfile.id
  · obtain ⟨x, hx, hxid⟩ := List.mem_map.mp hid
    rwa [← hschema.user_eq_of_id_eq (List.mem_filter.mp hx).1 huser hxid]
  · exact absurd (by simp [hid]) hc

/-- **A successful remove notifies** the users it removed. -/
theorem notifies_of_removeMembersFromGroupBackend (hschema : s.Schema)
    (h : removeMembersFromGroupBackend s userProfile userGroupId members = .ok s') :
    NotifiesChangedMembers s s' userProfile userGroupId (removedYouMessage userProfile) := by
  by_cases hne : members = []
  · subst hne
    cases h
    exact .inl ⟨rfl, fun _ ⟨_, hc, _⟩ => hc Iff.rfl⟩
  obtain ⟨userProfiles, husers, userGroup, hacc, hall, h⟩ :=
    (removeMembersFromGroupBackend_eq_ok hne).mp h
  obtain ⟨hgroup, rfl, -, -⟩ := accessUserGroupById_eq_ok hacc
  have hids := @mem_ids_of_userIdsToUsers _ _ _ _ husers
  obtain ⟨rfl, -⟩ := userIdsToUsers_eq_ok.mp husers
  refine notifiesChangedMembers_of_notify ?_ hgroup ?_ (fun u hu => (List.mem_filter.mp hu).1)
    (hschema.nodup_userIds_of_sublist (List.filter_sublist _)) (fun user huser => ?_) h
  · rfl
  · rfl
  rw [mem_bulkRemoveMembersFromUserGroups]
  refine ⟨fun hu hiff => (hiff.mp (hall user.id (hids.mp (List.mem_map_of_mem _ hu)))).2
    ⟨rfl, List.mem_map_of_mem _ hu⟩, fun hc => ?_⟩
  by_cases hid : user.id ∈ (s.users.filter fun u => u.id ∈ members &&
      u.realm == userProfile.realm).map UserProfile.id
  · obtain ⟨x, hx, hxid⟩ := List.mem_map.mp hid
    rwa [← hschema.user_eq_of_id_eq (List.mem_filter.mp hx).1 huser hxid]
  · exact absurd (by simp [hid]) hc

/-- **The membership notifications.**  In a store that keeps the primary key of the user table, a
successful `add_members_to_group_backend` sends the text "{user_full_name} added you to the group
{group_name}.", and a successful `remove_members_from_group_backend` the text "{user_full_name}
removed you from the group {group_name}.", with the acting user's silent mention and
`@_*name*` filled in, exactly as `NotifiesChangedMembers` says; and with either caller's flags
`message` is bound, so the notification never fails. -/
theorem memberBackends_notify_changed_members (hschema : s.Schema) (userProfile : UserProfile)
    (userGroupId : Int) (members : List Int) :
    (∀ s', addMembersToGroupBackend s userProfile userGroupId members = .ok s' →
      NotifiesChangedMembers s s' userProfile userGroupId fun userGroup =>
        "@_**" ++ userProfile.fullName ++ "|" ++ toString userProfile.id ++ "**" ++
          " added you to the group @_*" ++ userGroup.name ++ "*.") ∧
    (∀ s', removeMembersFromGroupBackend s userProfile userGroupId members = .ok s' →
      NotifiesChangedMembers s s' userProfile userGroupId fun userGroup =>
        "@_**" ++ userProfile.fullName ++ "|" ++ toString userProfile.id ++ "**" ++
          " removed you from the group @_*" ++ userGroup.name ++ "*.") ∧
    ∀ (t : Store) (recipientUsers : List UserProfile) (userGroup : UserGroup),
      (∃ t', notifyForUserGroupSubscriptionChanges t userProfile recipientUsers userGroup
        true false = .ok t') ∧
      ∃ t', notifyForUserGroupSubscriptionChanges t userProfile recipientUsers userGroup
        false true = .ok t' :=
  ⟨fun _ => notifies_of_addMembersToGroupBackend hschema,
    fun _ => notifies_of_removeMembersFromGroupBackend hschema,
    fun _ _ _ => ⟨⟨_, notifyForUserGroupSubscriptionChanges_of_message rfl⟩,
      ⟨_, notifyForUserGroupSubscriptionChanges_of_message rfl⟩⟩⟩

/-- A realm with an acting user, a second user and a bot, the named groups 10 and 11 and, in
another realm, the named group 20. -/
def teamStore : Store :=
  ⟨[⟨1, 7, "Ann", false, true⟩, ⟨2, 7, "Bob", false, true⟩, ⟨3, 7, "Helper", true, true⟩],
    [⟨10, 7, true, "eng", "", 10⟩, ⟨11, 7, true, "leads", "", 11⟩, ⟨20, 8, true, "other", "", 20⟩],
    [], [], 21, [], []⟩

theorem teamStore_schema : teamStore.Schema :=
  ⟨by decide, by decide, by decide, by decide, by decide, by decide, by decide⟩

theorem memberBackends_notify_changed_members_team :
    teamStore.Schema ∧ NotifiesChangedMembers teamStore
      ((addMembersToGroupBackend teamStore ⟨1, 7, "Ann", false, true⟩ 10 [1, 2, 3]).toOption.getD
        teamStore) ⟨1, 7, "Ann", false, true⟩ 10 fun userGroup =>
          "@_**" ++ "Ann" ++ "|" ++ toString (1 : Int) ++ "**" ++ " added you to the group @_*" ++
            userGroup.name ++ "*." :=
  ⟨teamStore_schema, (memberBackends_notify_changed_members teamStore_schema _ 10 [1, 2, 3]).1 _
    rfl⟩

end Notifications

/-! ## `update_user_group_backend` -/

/-- **`s'` differs from `s` only in the direct members of one group**, which became
`(M ∪ add) \ delete` for the group's direct members `M` in `s`. -/
structure MembersUpdated (s s' : Store) (userGroupId : Int) (delete add : List Int) : Prop where
  members : ∀ x, x ∈ s'.directMemberIds userGroupId ↔
    (x ∈ s.directMemberIds userGroupId ∨ x ∈ add) ∧ x ∉ delete
  otherGroups : ∀ g ≠ userGroupId, ∀ x, (g, x) ∈ s'.memberships ↔ (g, x) ∈ s.memberships
  groupMemberships : s'.groupMemberships = s.groupMemberships
  groups : s'.groups = s.groups
  users : s'.users = s.users

section Update

variable {s : Store} {userProfile : UserProfile}

/-- **What `update_user_group_backend` does to a named group of the acting user's realm**, with
lists naming users of that realm, not both empty: it succeeds exactly when no added id is a
direct member and every deleted id is a member or added (the add runs first); on success the
group's direct members become `(M ∪ add) \ delete` and nothing else changes; on failure the store
is the one it started from. -/
theorem updateUserGroupBackend_members {userGroup : UserGroup} (hgroup : userGroup ∈ s.groups)
    (hrealm : userGroup.realm = userProfile.realm) (hnamed : userGroup.isNamed = true)
    {delete add : List Int} (hlists : add ≠ [] ∨ delete ≠ [])
    (husers : ∀ userId ∈ add ++ delete,
      ∃ u ∈ s.users, u.id = userId ∧ u.realm = userProfile.realm) :
    let result := updateUserGroupBackend s userProfile userGroup.id delete add
    (result.2 = .ok () ↔ (∀ a ∈ add, a ∉ s.directMemberIds userGroup.id) ∧
        ∀ d ∈ delete, d ∈ s.directMemberIds userGroup.id ∨ d ∈ add) ∧
      (result.2 = .ok () → MembersUpdated s result.1 userGroup.id delete add) ∧
      (result.2 ≠ .ok () → result.1 = s) := by
  intro result
  obtain ⟨g, hacc, -, -, -⟩ := accessUserGroupById_of_mem hgroup hrealm hnamed
  have hadd := fun m hm => husers m (List.mem_append_left delete hm)
  have hdel := fun m hm => husers m (List.mem_append_right add hm)
  -- what the remove sees after a successful add
  have hafter : ∀ s₁, addMembersToGroupBackend s userProfile userGroup.id add = .ok s₁ →
      accessUserGroupById s₁ userGroup.id userProfile = .ok g ∧ s₁.users = s.users ∧
        ∀ x, (userGroup.id, x) ∈ s₁.memberships ↔ (userGroup.id, x) ∈ s.memberships ∨ x ∈ add :=
    fun s₁ h₁ => by
      obtain ⟨hu₁, hg₁, -, hm₁⟩ := memberships_of_addMembersToGroupBackend h₁
      exact ⟨by simpa only [accessUserGroupById, hg₁] using hacc, hu₁, fun x => by simp [hm₁]⟩
  have hpair := @atomic_composeViews_pair s
    (fun s => addMembersToGroupBackend s userProfile userGroup.id add)
    (fun s => removeMembersFromGroupBackend s userProfile userGroup.id delete) _ _
    (addMembersToGroupBackend_ok_iff hacc hadd)
    fun s₁ h₁ => (removeMembersFromGroupBackend_ok_iff (hafter s₁ h₁).1
      ((hafter s₁ h₁).2.1 ▸ hdel)).trans (forall₂_congr fun d _ => (hafter s₁ h₁).2.2 d)
  rw [show result = _ from if_neg (by cases hlists <;> simp_all [List.isEmpty_iff])]
  simp only [Store.mem_directMemberIds]
  refine ⟨hpair.1, fun hok => ?_, hpair.2.2⟩
  obtain ⟨s₁, h₁, h₂⟩ := hpair.2.1 hok
  obtain ⟨hu₁, hg₁, he₁, hm₁⟩ := memberships_of_addMembersToGroupBackend h₁
  obtain ⟨hu₂, hg₂, he₂, hm₂⟩ := memberships_of_removeMembersFromGroupBackend h₂
  exact ⟨fun x => by simp [hm₂, hm₁], fun g' hg' x => by simp [hm₂, hm₁, hg'],
    he₂.trans he₁, hg₂.trans hg₁, hu₂.trans hu₁⟩

/-- Adding the second user to the group 10 of their realm. -/
theorem updateUserGroupBackend_members_team :
    (updateUserGroupBackend teamStore ⟨1, 7, "Ann", false, true⟩ 10 [] [2]).2 = .ok () ∧
      MembersUpdated teamStore
        (updateUserGroupBackend teamStore ⟨1, 7, "Ann", false, true⟩ 10 [] [2]).1 10 [] [2] :=
  have h := @updateUserGroupBackend_members teamStore ⟨1, 7, "Ann", false, true⟩
    ⟨10, 7, true, "eng", "", 10⟩ (by decide) rfl rfl [] [2] (.inl (by decide)) (by decide)
  have hok := h.1.mpr (by decide)
  ⟨hok, h.2.1 hok⟩

/-- A group of another realm: the group has no members and the lists name a user of the acting
user's realm, yet the update fails, because the group is not accessible. -/
theorem updateUserGroupBackend_other_realm :
    teamStore.directMemberIds 20 = [] ∧
      (updateUserGroupBackend teamStore ⟨1, 7, "Ann", false, true⟩ 20 [] [2]).2 =
        .error "Invalid user group" :=
  ⟨by decide, rfl⟩

end Update

/-! ## Reading the members -/

section Read

variable {s : Store} {userProfile : UserProfile}

/-- `access_user_by_id` finds a row of the user table with the id. -/
theorem accessUserById_eq_ok {userId : Int} {user : UserProfile}
    (h : accessUserById s userProfile userId = .ok user) : user ∈ s.users ∧ user.id = userId := by
  unfold accessUserById at h
  split at h
  · rename_i hfind
    cases h
    have hp := List.find?_some hfind
    simp only [Bool.and_eq_true, beq_iff_eq] at hp
    exact ⟨List.mem_of_find?_eq_some hfind, hp.1⟩
  · cases h

/-- **The two membership views agree.**  When both answer, `get_is_user_group_member` says yes
exactly for the users `get_user_group_members` lists: the direct members, or with
`direct_member_only` off, the members of the group and of its recursive subgroups. -/
theorem getIsUserGroupMember_iff_mem_getUserGroupMembers {userGroupId userId : Int}
    {directMemberOnly b : Bool} {members : List Int}
    (hb : getIsUserGroupMember s userProfile userGroupId userId directMemberOnly = .ok b)
    (hmembers : getUserGroupMembers s userProfile userGroupId directMemberOnly = .ok members) :
    b = true ↔ userId ∈ members := by
  obtain ⟨g, hg, hb₁⟩ := bind_eq_ok.mp hb
  obtain ⟨user, huser, hb₂⟩ := bind_eq_ok.mp hb₁
  obtain ⟨g', hg', hm⟩ := bind_eq_ok.mp hmembers
  rw [hg] at hg'
  cases hg'
  obtain ⟨huserMem, rfl⟩ := accessUserById_eq_ok huser
  rw [← pure_eq_ok.mp hb₂, ← pure_eq_ok.mp hm]
  cases directMemberOnly with
  | true => simp [isUserInGroup, getUserGroupMemberIds]
  | false =>
      simp only [isUserInGroup, getUserGroupMemberIds, Bool.false_eq_true, if_false,
        List.mem_map, List.mem_filter]
      -- the test reads only the user's id
      exact ⟨fun h => ⟨user, ⟨huserMem, h⟩, rfl⟩, fun ⟨u, ⟨_, hu⟩, hid⟩ => hid ▸ hu⟩

/-- Group 10 has group 11 as a subgroup and Bob (2) as a member of 11: Bob is a member of 10 but
not a direct one, and both views say so. -/
theorem getIsUserGroupMember_iff_mem_getUserGroupMembers_team :
    let s : Store := { teamStore with memberships := [(11, 2)], groupMemberships := [(10, 11)] }
    getIsUserGroupMember s ⟨1, 7, "Ann", false, true⟩ 10 2 false = .ok true ∧
      getUserGroupMembers s ⟨1, 7, "Ann", false, true⟩ 10 false = .ok [2] ∧
      (true = true ↔ (2 : Int) ∈ [(2 : Int)]) ∧
      getIsUserGroupMember s ⟨1, 7, "Ann", false, true⟩ 10 2 true = .ok false ∧
      getUserGroupMembers s ⟨1, 7, "Ann", false, true⟩ 10 true = .ok [] := by
  intro s
  exact ⟨rfl, rfl, @getIsUserGroupMember_iff_mem_getUserGroupMembers s ⟨1, 7, "Ann", false, true⟩
    10 2 false true [2] rfl rfl, rfl, rfl⟩

end Read

end Zerver.UserGroups

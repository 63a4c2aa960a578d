import Mathlib.Data.List.Nodup
import Mathlib.Data.List.Perm.Basic

/-!
# The user-group tables

The views of `zerver/views/user_groups.py` read and write a handful of database tables through
the helpers of `zerver.lib.user_groups` and `zerver.actions.user_groups`.  This module fixes the
shape of those tables; every later module is a function on `Store`.

## Main Definitions

* `UserProfile`, `UserGroup` — one row of the user and the group table, with the columns the
  views read.
* `Store` — the whole database the views see: users, groups, the two membership tables, the
  id sequence of groups, the audit log every action writes, and the batches of messages handed
  to `do_send_messages`.
* `Store.Schema` — the constraints the database itself enforces on every state.

## Design Notes

The membership tables are lists of rows, not sets.  `UserGroupMembership` holds
`(user_group_id, user_profile_id)` and `GroupGroupMembership` holds
`(supergroup_id, subgroup_id)`; a list can hold a row twice, so "no membership is stored twice"
is a property the views have to earn (`Zerver.UserGroups.Invariant`), not one the type gives away.

A named group and an anonymous one share the `UserGroup` row: `isNamed` says whether it also has
a `NamedUserGroup` row.  The name, description and `can_mention_group` columns of an anonymous
group are never read.

`Schema` is what the database guarantees by itself: primary keys are unique, the foreign keys of
the two membership tables resolve, and the id sequence is ahead of every group id.  The views do
not check these; no state the database can be in violates them.
-/

namespace Zerver.UserGroups

/-- A row of the user table, with the columns the user-group views read. -/
structure UserProfile where
  id : Int
  realm : Nat
  fullName : String
  isBot : Bool
  isActive : Bool
  deriving DecidableEq, Repr

/-- A row of the group table.  `isNamed` is whether a `NamedUserGroup` row extends it; only a
named group has a meaningful `name`, `description` and `canMentionGroup`. -/
structure UserGroup where
  id : Int
  realm : Nat
  isNamed : Bool
  name : String
  description : String
  canMentionGroup : Int
  deriving DecidableEq, Repr

/-- What one `do_*` action records about a change it made to a group. -/
inductive AuditEvent where
  | userGroupCreated
  | nameChanged (old new : String)
  | descriptionChanged (old new : String)
  | groupSettingChanged (setting : String) (old new : Int)
  | directMembersAdded (users : List Int)
  | directMembersRemoved (users : List Int)
  | directSubgroupsAdded (subgroups : List Int)
  | directSubgroupsRemoved (subgroups : List Int)
  | userGroupDeleted
  deriving DecidableEq, Repr

/-- An audit-log row: which realm, which acting user, which group, what happened. -/
structure AuditLogEntry where
  realm : Nat
  actingUser : Int
  group : Int
  event : AuditEvent
  deriving DecidableEq, Repr

/-- A direct message prepared by `internal_prep_private_message`. -/
structure Message where
  sender : String
  recipient : Int
  content : String
  deriving DecidableEq, Repr

/-- The database as the user-group views see it. -/
structure Store where
  users : List UserProfile
  groups : List UserGroup
  /-- `UserGroupMembership` rows `(user_group_id, user_profile_id)`. -/
  memberships : List (Int × Int)
  /-- `GroupGroupMembership` rows `(supergroup_id, subgroup_id)`. -/
  groupMemberships : List (Int × Int)
  nextGroupId : Int
  auditLog : List AuditLogEntry
  /-- The batches handed to `do_send_messages`, oldest first. -/
  sentMessages : List (List Message)
  deriving DecidableEq, Repr

namespace Store

/-- `get_user_group_direct_member_ids`: the users of the `UserGroupMembership` rows of a group. -/
def directMemberIds (s : Store) (groupId : Int) : List Int :=
  (s.memberships.filter fun m => m.1 = groupId).map Prod.snd

/-- `user_group.direct_subgroups.all()`: the subgroups of the `GroupGroupMembership` rows of a
group. -/
def directSubgroupIds (s : Store) (groupId : Int) : List Int :=
  (s.groupMemberships.filter fun e => e.1 = groupId).map Prod.snd

@[simp] theorem mem_directMemberIds {s : Store} {g u : Int} :
    u ∈ s.directMemberIds g ↔ (g, u) ∈ s.memberships := by
  simp [directMemberIds, and_comm, eq_comm]

@[simp] theorem mem_directSubgroupIds {s : Store} {g h : Int} :
    h ∈ s.directSubgroupIds g ↔ (g, h) ∈ s.groupMemberships := by
  simp [directSubgroupIds, and_comm, eq_comm]

/-- Whether a group id is the id of some row of the group table. -/
def HasGroup (s : Store) (groupId : Int) : Prop := ∃ g ∈ s.groups, g.id = groupId

instance (s : Store) (groupId : Int) : Decidable (s.HasGroup groupId) :=
  inferInstanceAs (Decidable (∃ g ∈ s.groups, g.id = groupId))

/-- **The database's own constraints.**  Primary keys are unique, the foreign keys of the two
membership tables and of `can_mention_group` resolve to groups, and the id sequence is ahead of
every group id. -/
structure Schema (s : Store) : Prop where
  userIdsNodup : (s.users.map UserProfile.id).Nodup
  groupIdsNodup : (s.groups.map UserGroup.id).Nodup
  id_lt_next : ∀ g ∈ s.groups, g.id < s.nextGroupId
  membershipGroup : ∀ m ∈ s.memberships, s.HasGroup m.1
  supergroupExists : ∀ e ∈ s.groupMemberships, s.HasGroup e.1
  subgroupExists : ∀ e ∈ s.groupMemberships, s.HasGroup e.2
  settingExists : ∀ g ∈ s.groups, g.isNamed → s.HasGroup g.canMentionGroup

/-- No id the sequence has not yet handed out is the id of a group. -/
theorem Schema.not_hasGroup_next {s : Store} (h : s.Schema) : ¬ s.HasGroup s.nextGroupId := by
  rintro ⟨g, hg, hid⟩
  exact lt_irrefl _ (hid ▸ h.id_lt_next g hg)

/-- Rows of the group table, listed ids included, are distinct because their ids are. -/
theorem Schema.nodup_ids_of_sublist {s : Store} (h : s.Schema) {gs : List UserGroup}
    (hsub : gs.Sublist s.groups) : (gs.map UserGroup.id).Nodup :=
  h.groupIdsNodup.sublist (hsub.map _)

theorem Schema.nodup_userIds_of_sublist {s : Store} (h : s.Schema) {us : List UserProfile}
    (hsub : us.Sublist s.users) : (us.map UserProfile.id).Nodup :=
  h.userIdsNodup.sublist (hsub.map _)

/-- **User ids are a primary key**: two user rows with one id are one row. -/
theorem Schema.user_eq_of_id_eq {s : Store} (h : s.Schema) {u v : UserProfile}
    (hu : u ∈ s.users) (hv : v ∈ s.users) (hid : u.id = v.id) : u = v :=
  List.inj_on_of_nodup_map h.userIdsNodup hu hv hid

/-- A fresh group id occurs in no `GroupGroupMembership` row. -/
theorem Schema.next_not_mem_edges {s : Store} (h : s.Schema) :
    ∀ e ∈ s.groupMemberships, e.1 ≠ s.nextGroupId ∧ e.2 ≠ s.nextGroupId := fun e he =>
  ⟨fun hx => h.not_hasGroup_next (hx ▸ h.supergroupExists e he),
    fun hx => h.not_hasGroup_next (hx ▸ h.subgroupExists e he)⟩

end Store

end Zerver.UserGroups

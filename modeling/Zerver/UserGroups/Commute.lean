import Zerver.UserGroups.Ownership
import Zerver.UserGroups.Locality

/-!
# Updates of unrelated groups commute

The spec's lock coordinator orders two structural changes whose locked regions meet, and lets two
whose regions are apart run side by side.  That is sound only if the order of two such changes does
not matter.  This module proves it for `update_subgroups_of_user_group`: two updates of different
groups, neither of which adds a subgroup that reaches the other's group, get the same outcome,
error message included, in either order and alone, and leave the same group graph either way.
Two updates whose locked regions are apart are such a pair: each region holds its group and every
group its candidates reach.  The same holds for a `delete_user_group` and an update outside the
deleted group's region.  A membership update locks its group's row
(`access_user_group_by_id(for_read=False)`) but takes none of the coordinator's locks; it
commutes with a membership update or a delete of any other group, and with every subgroup
update, even of its own group.

## Main Definitions

* `ReadsAgree p ids s t` — the same access to `p`, the same rows of the candidates `ids`, and the
  same rows from `p` to them.
* `BelowAgree ids s t` — the same recursive subgroups of the candidates.
* `MembersAgree p s t` — the same users, the same access to `p`, and the same membership rows of
  `p`.
* `GroupGraph.updateSubgroups`, `GroupGraph.updateMembers` — the graph machine's adds and then
  removes.

## Main Results

* `lockSubgroupsWithRespectToSupergroup_congr`, `addSubgroupsToGroupBackend_congr`,
  `removeSubgroupsFromGroupBackend_congr` — what each step of the view reads.
* `updateSubgroupsOfUserGroup_snd_congr` — the outcome of an update is decided by what it reads of
  its group and its candidates, and by the groups below the ones it adds.
* `deleteUserGroup_snd_congr` — the outcome of a delete is decided by the group rows.
* `updateSubgroupsOfUserGroup_commute`, `deleteUserGroup_commute` — an update commutes with an
  update or a delete outside its region.
* `updateUserGroupBackend_commute`, `updateUserGroupBackend_commute_subgroups`,
  `deleteUserGroup_commute_members` — membership updates commute with membership updates and
  deletes of other groups, and with subgroup updates.

## Design Notes

The outcome is compared exactly, as an `Except String Unit`, by following the view step by step on
both stores: a step either fails on both with one message, or succeeds on both and leaves stores
that again agree on what the rest of the view reads.  The stores themselves differ in the order of
their rows and of their audit-log entries, so the final states are compared through `Store.graph`,
whose step for a request is deterministic (`handle_step`).

Two deletes do not commute, even with their regions apart: the deletability check reads the
setting of every named group, outside the locked region.  Deleting a group whose
`can_mention_group` names a second group lets a later delete of the second group succeed, where
the other way round it is refused.
-/

namespace Zerver.UserGroups

/-! ## What the steps of the view read -/

/-- Two searches whose tests agree on the list find the same element. -/
theorem find?_congr_of_mem {α : Type} {l : List α} {p q : α → Bool}
    (h : ∀ x ∈ l, p x = q x) : l.find? p = l.find? q := by
  induction l with
  | nil => rfl
  | cons a l ih =>
      simp only [List.find?_cons, h a (List.mem_cons_self a l),
        ih fun x hx => h x (List.mem_cons_of_mem a hx)]

/-- **`t` agrees with `s` on what a subgroup change of `p` with candidates `ids` reads**: the
access to `p`, the candidates' rows, and the rows from `p` to the candidates. -/
structure ReadsAgree (p : Int) (ids : List Int) (s t : Store) : Prop where
  access : ∀ userProfile, accessUserGroupById t p userProfile = accessUserGroupById s p userProfile
  named : ∀ realm, namedGroupsOfRealm t ids realm = namedGroupsOfRealm s ids realm
  rows : ∀ x ∈ ids, (p, x) ∈ t.groupMemberships ↔ (p, x) ∈ s.groupMemberships

/-- **`t` agrees with `s` below the candidates `ids`**: any of them have the same recursive
subgroups, which the cycle check of an add reads. -/
def BelowAgree (ids : List Int) (s t : Store) : Prop :=
  ∀ anchors : List Int, (∀ a ∈ anchors, a ∈ ids) →
    recursiveSubgroupsOf t anchors = recursiveSubgroupsOf s anchors

/-- A transaction's outcome is its body's, without the store. -/
theorem atomic_snd (body : Store → Except String Store) (s : Store) :
    (atomic body s).2 = (body s).map fun _ => () := by
  cases h : body s <;> simp [atomic, h, Except.map]

section Reads

variable {s t : Store} {p : Int} {ids : List Int}

theorem accessUserGroupById_congr (hgroups : t.groups = s.groups) (groupId : Int)
    (userProfile : UserProfile) :
    accessUserGroupById t groupId userProfile = accessUserGroupById s groupId userProfile := by
  simp only [accessUserGroupById, hgroups]

theorem namedGroupsOfRealm_congr (hgroups : t.groups = s.groups) (realm : Nat) :
    namedGroupsOfRealm t ids realm = namedGroupsOfRealm s ids realm := by
  simp only [namedGroupsOfRealm, hgroups]

/-- Stores with the same group rows agree on what a change of `p` reads where they have the same
rows out of `p`. -/
theorem ReadsAgree.of_rows (hgroups : t.groups = s.groups)
    (hrows : ∀ x ∈ ids, (p, x) ∈ t.groupMemberships ↔ (p, x) ∈ s.groupMemberships) :
    ReadsAgree p ids s t :=
  ⟨accessUserGroupById_congr hgroups p, namedGroupsOfRealm_congr hgroups, hrows⟩

/-- The recursive subgroups of anchors whose paths read the same rows in both stores. -/
theorem recursiveSubgroupsOf_of_reaches {anchors : List Int}
    (hreach : ∀ a ∈ anchors, ∀ x, reaches t.groupMemberships a x = reaches s.groupMemberships a x) :
    recursiveSubgroupsOf t anchors =
      t.groups.filter fun g => anchors.any fun a => reaches s.groupMemberships a g.id := by
  refine List.filter_congr fun g _ => ?_
  rw [Bool.eq_iff_iff, List.any_eq_true, List.any_eq_true]
  exact exists_congr fun a => and_congr_right fun ha => by rw [hreach a ha]

/-- Stores with the same group rows agree below candidates whose paths read the same rows. -/
theorem BelowAgree.of_reaches (hgroups : t.groups = s.groups)
    (hbelow : ∀ c ∈ ids, ∀ x, reaches t.groupMemberships c x = reaches s.groupMemberships c x) :
    BelowAgree ids s t := fun _ hanchors => by
  rw [recursiveSubgroupsOf_of_reaches fun a ha => hbelow a (hanchors a ha), hgroups]
  rfl

/-- The candidates the lock helper finds are among the ids it was given. -/
theorem mem_of_mem_namedGroupsOfRealm_map {realm : Nat} :
    ∀ a ∈ (namedGroupsOfRealm s ids realm).map UserGroup.id, a ∈ ids := fun a ha => by
  obtain ⟨g, hg, rfl⟩ := List.mem_map.mp ha
  exact (mem_namedGroupsOfRealm.mp hg).2.1

/-- **The lock helper reads the supergroup, the candidates, and the groups below them.** -/
theorem lockSubgroupsWithRespectToSupergroup_congr (h : ReadsAgree p ids s t)
    (hbelow : BelowAgree ids s t) (userProfile : UserProfile) :
    lockSubgroupsWithRespectToSupergroup t ids p userProfile =
      lockSubgroupsWithRespectToSupergroup s ids p userProfile := by
  simp only [lockSubgroupsWithRespectToSupergroup, h.access, h.named,
    hbelow _ mem_of_mem_namedGroupsOfRealm_map]

/-- Where the stores agree on the supergroup and the candidates, the lock helper fails alike, and
otherwise hands over the same supergroup and candidates. -/
theorem lockSubgroupsWithRespectToSupergroup_of_reads
    (haccess : ∀ userProfile, accessUserGroupById t p userProfile =
      accessUserGroupById s p userProfile)
    (hnamed : ∀ realm, namedGroupsOfRealm t ids realm = namedGroupsOfRealm s ids realm)
    (userProfile : UserProfile) :
    lockSubgroupsWithRespectToSupergroup t ids p userProfile =
      (lockSubgroupsWithRespectToSupergroup s ids p userProfile).map fun context =>
        { context with recursiveSubgroups :=
            recursiveSubgroupsOf t (context.directSubgroups.map UserGroup.id) } := by
  simp only [lockSubgroupsWithRespectToSupergroup, haccess, hnamed]
  cases accessUserGroupById s p userProfile with
  | error e => rfl
  | ok g =>
      simp only [bind, Except.bind]
      split <;> rfl

/-- **The add's `with` block reads the rows from the supergroup to the candidates**: with the same
such rows it fails alike, and otherwise writes the same rows. -/
theorem addSubgroupsToGroupBackend.withBlock_congr {context : LockedUserGroupContext}
    (hrows : ∀ g ∈ context.directSubgroups, (context.supergroup.id, g.id) ∈ t.groupMemberships ↔
      (context.supergroup.id, g.id) ∈ s.groupMemberships) (userProfile : UserProfile) :
    addSubgroupsToGroupBackend.withBlock t userProfile p context =
      (addSubgroupsToGroupBackend.withBlock s userProfile p context).map fun _ =>
        addSubgroupsToUserGroup t context.supergroup context.directSubgroups userProfile := by
  have hfind : (context.directSubgroups.find? fun group =>
      group.id ∈ t.directSubgroupIds context.supergroup.id) =
        context.directSubgroups.find? fun group =>
          group.id ∈ s.directSubgroupIds context.supergroup.id :=
    find?_congr_of_mem fun g hg => by simp only [Store.mem_directSubgroupIds, hrows g hg]
  simp only [addSubgroupsToGroupBackend.withBlock, hfind]
  split
  · rfl
  · split <;> rfl

/-- **The remove's `with` block reads the rows from the supergroup to the candidates**, and not
the recursive subgroups. -/
theorem removeSubgroupsFromGroupBackend.withBlock_congr {context : LockedUserGroupContext}
    (hrows : ∀ g ∈ context.directSubgroups, (context.supergroup.id, g.id) ∈ t.groupMemberships ↔
      (context.supergroup.id, g.id) ∈ s.groupMemberships) (userProfile : UserProfile)
    (recursiveSubgroups : List UserGroup) :
    removeSubgroupsFromGroupBackend.withBlock t userProfile
        { context with recursiveSubgroups := recursiveSubgroups } =
      (removeSubgroupsFromGroupBackend.withBlock s userProfile context).map fun _ =>
        removeSubgroupsFromUserGroup t context.supergroup context.directSubgroups userProfile := by
  have hfind : (context.directSubgroups.find? fun group =>
      group.id ∉ t.directSubgroupIds context.supergroup.id) =
        context.directSubgroups.find? fun group =>
          group.id ∉ s.directSubgroupIds context.supergroup.id :=
    find?_congr_of_mem fun g hg => by simp only [Store.mem_directSubgroupIds, hrows g hg]
  simp only [removeSubgroupsFromGroupBackend.withBlock, hfind]
  split <;> rfl

/-- The rows a context's `with` block reads are rows from `p` to the candidates. -/
theorem ReadsAgree.rows_of_lock (h : ReadsAgree p ids s t) {userProfile : UserProfile}
    {context : LockedUserGroupContext}
    (hlock : lockSubgroupsWithRespectToSupergroup s ids p userProfile = .ok context) :
    ∀ g ∈ context.directSubgroups, (context.supergroup.id, g.id) ∈ t.groupMemberships ↔
      (context.supergroup.id, g.id) ∈ s.groupMemberships := fun g hg => by
  rw [(accessUserGroupById_eq_ok (lockSubgroupsWithRespectToSupergroup_eq_ok.mp hlock).1).2.1]
  exact h.rows _ ((mem_ids_of_lock hlock).mp (List.mem_map_of_mem _ hg))

/-- **The add reads the supergroup, the candidates, the rows to them and the groups below them.** -/
theorem addSubgroupsToGroupBackend_congr (h : ReadsAgree p ids s t) (hbelow : BelowAgree ids s t)
    (userProfile : UserProfile) :
    (addSubgroupsToGroupBackend t userProfile p ids).map (fun _ => ()) =
      (addSubgroupsToGroupBackend s userProfile p ids).map (fun _ => ()) := by
  unfold addSubgroupsToGroupBackend
  split
  · rfl
  rw [lockSubgroupsWithRespectToSupergroup_congr h hbelow]
  cases hlock : lockSubgroupsWithRespectToSupergroup s ids p userProfile with
  | error e => rfl
  | ok context =>
      simp only [bind, Except.bind]
      rw [addSubgroupsToGroupBackend.withBlock_congr (h.rows_of_lock hlock)]
      cases addSubgroupsToGroupBackend.withBlock s userProfile p context <;> rfl

/-- **The remove reads the supergroup, the candidates and the rows to them.** -/
theorem removeSubgroupsFromGroupBackend_congr (h : ReadsAgree p ids s t)
    (userProfile : UserProfile) :
    (removeSubgroupsFromGroupBackend t userProfile p ids).map (fun _ => ()) =
      (removeSubgroupsFromGroupBackend s userProfile p ids).map (fun _ => ()) := by
  unfold removeSubgroupsFromGroupBackend
  split
  · rfl
  rw [lockSubgroupsWithRespectToSupergroup_of_reads h.access h.named]
  cases hlock : lockSubgroupsWithRespectToSupergroup s ids p userProfile with
  | error e => rfl
  | ok context =>
      simp only [Except.map, bind, Except.bind]
      rw [removeSubgroupsFromGroupBackend.withBlock_congr (h.rows_of_lock hlock)]
      cases removeSubgroupsFromGroupBackend.withBlock s userProfile context <;> rfl

/-- Two stores that agree on what a change of `p` reads still agree after the same successful
add to `p`. -/
theorem ReadsAgree.addSubgroups {ids' : List Int} {s₁ t₁ : Store} {userProfile : UserProfile}
    (h : ReadsAgree p ids' s t) (hs : addSubgroupsToGroupBackend s userProfile p ids = .ok s₁)
    (ht : addSubgroupsToGroupBackend t userProfile p ids = .ok t₁) : ReadsAgree p ids' s₁ t₁ := by
  obtain ⟨-, hg₁, -, he₁⟩ := subgroups_of_addSubgroupsToGroupBackend hs
  obtain ⟨-, hg₂, -, he₂⟩ := subgroups_of_addSubgroupsToGroupBackend ht
  refine ⟨fun u => ?_, fun realm => ?_, fun x hx => ?_⟩
  · rw [accessUserGroupById_congr hg₂, accessUserGroupById_congr hg₁, h.access]
  · rw [namedGroupsOfRealm_congr hg₂, namedGroupsOfRealm_congr hg₁, h.named]
  · rw [he₂, he₁, h.rows x hx]

/-- **The outcome of an update is decided by what it reads**: the supergroup, the candidates, the
rows to them, and the groups below the ones it adds. -/
theorem updateSubgroupsOfUserGroup_snd_congr {delete add : List Int}
    (hadd : ReadsAgree p add s t) (hdelete : ReadsAgree p delete s t) (hbelow : BelowAgree add s t)
    (userProfile : UserProfile) :
    (updateSubgroupsOfUserGroup t userProfile p delete add).2 =
      (updateSubgroupsOfUserGroup s userProfile p delete add).2 := by
  unfold updateSubgroupsOfUserGroup
  split
  · rfl
  simp only [atomic_snd, composeViews_pair]
  have hmap := addSubgroupsToGroupBackend_congr hadd hbelow userProfile
  cases hs : addSubgroupsToGroupBackend s userProfile p add <;>
    cases ht : addSubgroupsToGroupBackend t userProfile p add <;>
    rw [hs, ht] at hmap <;> cases hmap
  · rfl
  · exact removeSubgroupsFromGroupBackend_congr (hdelete.addSubgroups hs ht) userProfile

end Reads

/-! ## What an update leaves -/

section Frame

variable {s : Store} {userProfile : UserProfile} {p : Int} {delete add : List Int}

/-- An update of `p` writes only rows out of `p`. -/
theorem updateSubgroupsOfUserGroup_rows_of_ne {q : Int} (hne : q ≠ p) (x : Int) :
    (q, x) ∈ (updateSubgroupsOfUserGroup s userProfile p delete add).1.groupMemberships ↔
      (q, x) ∈ s.groupMemberships :=
  updateSubgroupsOfUserGroup_fst_of
    (fun t => (q, x) ∈ t.groupMemberships ↔ (q, x) ∈ s.groupMemberships) Iff.rfl fun h₁ h₂ => by
    simp [(subgroups_of_removeSubgroupsFromGroupBackend h₂).2.2.2,
      (subgroups_of_addSubgroupsToGroupBackend h₁).2.2.2, hne]

/-- After an update of `p`, a change of another group reads of that group what it read before. -/
theorem readsAgree_updateSubgroupsOfUserGroup {q : Int} (hne : q ≠ p) (ids : List Int) :
    ReadsAgree q ids s (updateSubgroupsOfUserGroup s userProfile p delete add).1 :=
  .of_rows updateSubgroupsOfUserGroup_groups fun x _ => updateSubgroupsOfUserGroup_rows_of_ne hne x

/-- **An update of `q` after an update of `p` gets the outcome it gets alone**, when `q` is not `p`
and none of the groups it adds reaches `p`. -/
theorem updateSubgroupsOfUserGroup_snd_after {q : Int} {delete' add' : List Int}
    (userProfile' : UserProfile) (hne : q ≠ p) (hfar : ∀ c ∈ add', ¬ Reaches s.groupMemberships c p) :
    (updateSubgroupsOfUserGroup (updateSubgroupsOfUserGroup s userProfile p delete add).1
        userProfile' q delete' add').2 =
      (updateSubgroupsOfUserGroup s userProfile' q delete' add').2 :=
  updateSubgroupsOfUserGroup_snd_congr (readsAgree_updateSubgroupsOfUserGroup hne add')
    (readsAgree_updateSubgroupsOfUserGroup hne delete')
    (.of_reaches updateSubgroupsOfUserGroup_groups fun c hc x =>
      (agreeBelow_updateSubgroupsOfUserGroup (hfar c hc)).reaches_eq x) userProfile'

end Frame

/-! ## What a membership update reads and leaves -/

/-- **`t` agrees with `s` on what a membership change of `p` reads**: the same users, the same
access to `p`, and the same membership rows of `p`. -/
structure MembersAgree (p : Int) (s t : Store) : Prop where
  users : t.users = s.users
  access : ∀ userProfile, accessUserGroupById t p userProfile = accessUserGroupById s p userProfile
  rows : ∀ x, (p, x) ∈ t.memberships ↔ (p, x) ∈ s.memberships

section MemberReads

variable {s t : Store} {p : Int} {ids : List Int}

theorem userIdsToUsers_congr (husers : t.users = s.users) (realm : Nat) :
    userIdsToUsers t ids realm = userIdsToUsers s ids realm := by
  simp only [userIdsToUsers, husers]

/-- Whether a notification fails does not depend on the store it is sent from. -/
theorem notifyForUserGroupSubscriptionChanges_map (actingUser : UserProfile)
    (recipientUsers : List UserProfile) (userGroup : UserGroup) (sub unsub : Bool) :
    (notifyForUserGroupSubscriptionChanges t actingUser recipientUsers userGroup sub unsub).map
        (fun _ => ()) =
      (notifyForUserGroupSubscriptionChanges s actingUser recipientUsers userGroup sub unsub).map
        (fun _ => ()) := by
  unfold notifyForUserGroupSubscriptionChanges
  split <;> rfl

/-- **The add reads the users, the group rows and the group's membership rows**: with the same
such rows it fails alike, and otherwise leaves stores that again agree on them. -/
theorem addMembersToGroupBackend_congr (h : MembersAgree p s t) (userProfile : UserProfile) :
    (addMembersToGroupBackend t userProfile p ids).map (fun _ => ()) =
        (addMembersToGroupBackend s userProfile p ids).map (fun _ => ()) ∧
      ∀ s₁ t₁, addMembersToGroupBackend s userProfile p ids = .ok s₁ →
        addMembersToGroupBackend t userProfile p ids = .ok t₁ → MembersAgree p s₁ t₁ := by
  refine ⟨?_, fun s₁ t₁ hs ht => ?_⟩
  · unfold addMembersToGroupBackend
    split
    · rfl
    rw [h.access, userIdsToUsers_congr h.users]
    cases hacc : accessUserGroupById s p userProfile with
    | error e => rfl
    | ok userGroup =>
        cases userIdsToUsers s ids userProfile.realm with
        | error e => rfl
        | ok users =>
            have hid := (accessUserGroupById_eq_ok hacc).2.1
            have hexisting : getDirectMembershipsOfUsers t userGroup users =
                getDirectMembershipsOfUsers s userGroup users :=
              List.filter_congr fun x _ => by rw [hid, decide_eq_decide.mpr (h.rows x)]
            simp only [bind, Except.bind, hexisting]
            split
            · rfl
            · exact notifyForUserGroupSubscriptionChanges_map _ _ _ _ _
  · obtain ⟨hu₁, hg₁, -, hm₁⟩ := memberships_of_addMembersToGroupBackend hs
    obtain ⟨hu₂, hg₂, -, hm₂⟩ := memberships_of_addMembersToGroupBackend ht
    exact ⟨by rw [hu₂, hu₁, h.users], fun u => by
      rw [accessUserGroupById_congr hg₂, accessUserGroupById_congr hg₁, h.access],
      fun x => by rw [hm₂, hm₁, h.rows]⟩

/-- **The remove reads the users, the group rows and the group's membership rows.** -/
theorem removeMembersFromGroupBackend_congr (h : MembersAgree p s t) (userProfile : UserProfile) :
    (removeMembersFromGroupBackend t userProfile p ids).map (fun _ => ()) =
      (removeMembersFromGroupBackend s userProfile p ids).map (fun _ => ()) := by
  unfold removeMembersFromGroupBackend
  split
  · rfl
  rw [h.access, userIdsToUsers_congr h.users]
  cases userIdsToUsers s ids userProfile.realm with
  | error e => rfl
  | ok users =>
      cases hacc : accessUserGroupById s p userProfile with
      | error e => rfl
      | ok userGroup =>
          have hid := (accessUserGroupById_eq_ok hacc).2.1
          simp only [bind, Except.bind, Store.mem_directMemberIds, hid, h.rows]
          split
          · rfl
          · exact notifyForUserGroupSubscriptionChanges_map _ _ _ _ _

/-- **The outcome of a membership update is decided by what it reads**: the users, the group rows
and the group's membership rows. -/
theorem updateUserGroupBackend_snd_congr {delete add : List Int} (h : MembersAgree p s t)
    (userProfile : UserProfile) :
    (updateUserGroupBackend t userProfile p delete add).2 =
      (updateUserGroupBackend s userProfile p delete add).2 := by
  unfold updateUserGroupBackend
  split
  · rfl
  simp only [atomic_snd, composeViews_pair]
  obtain ⟨hmap, hrel⟩ := addMembersToGroupBackend_congr h userProfile
  cases hs : addMembersToGroupBackend s userProfile p add <;>
    cases ht : addMembersToGroupBackend t userProfile p add <;>
    rw [hs, ht] at hmap <;> cases hmap
  · rfl
  · exact removeMembersFromGroupBackend_congr (hrel _ _ hs ht) userProfile

end MemberReads

section MemberFrame

variable {s : Store} {userProfile : UserProfile} {p : Int} {delete add : List Int}

/-- After a membership update of `p`, a membership change of another group reads of that group
what it read before. -/
theorem membersAgree_updateUserGroupBackend {q : Int} (hne : q ≠ p) :
    MembersAgree q s (updateUserGroupBackend s userProfile p delete add).1 :=
  updateUserGroupBackend_fst_of (MembersAgree q s) ⟨rfl, fun _ => rfl, fun _ => Iff.rfl⟩
    fun h₁ h₂ => by
      obtain ⟨hu₁, hg₁, -, hm₁⟩ := memberships_of_addMembersToGroupBackend h₁
      obtain ⟨hu₂, hg₂, -, hm₂⟩ := memberships_of_removeMembersFromGroupBackend h₂
      exact ⟨hu₂.trans hu₁, accessUserGroupById_congr (hg₂.trans hg₁) q,
        fun x => by simp [hm₂, hm₁, hne]⟩

/-- **A membership update of `q` after one of `p` gets the outcome it gets alone**, when `q` is
not `p`. -/
theorem updateUserGroupBackend_snd_after {q : Int} {delete' add' : List Int}
    (userProfile' : UserProfile) (hne : q ≠ p) :
    (updateUserGroupBackend (updateUserGroupBackend s userProfile p delete add).1
        userProfile' q delete' add').2 =
      (updateUserGroupBackend s userProfile' q delete' add').2 :=
  updateUserGroupBackend_snd_congr (membersAgree_updateUserGroupBackend hne) userProfile'

end MemberFrame

/-! ## What a delete reads and leaves -/

section Delete

variable {s : Store} {userGroup : UserGroup}

/-- **The outcome of a delete is decided by the group rows**: the access to the group, and the
settings of the named groups. -/
theorem deleteUserGroup_snd_congr {t : Store} (hgroups : t.groups = s.groups)
    (userProfile : UserProfile) (userGroupId : Int) :
    (deleteUserGroup t userProfile userGroupId).2 = (deleteUserGroup s userProfile userGroupId).2 := by
  simp only [deleteUserGroup, atomic_snd]
  rw [lockSubgroupsWithRespectToSupergroup_of_reads (accessUserGroupById_congr hgroups _)
    (namedGroupsOfRealm_congr hgroups)]
  cases lockSubgroupsWithRespectToSupergroup s [userGroupId] userGroupId userProfile with
  | error e => rfl
  | ok context =>
      simp only [Except.map, bind, Except.bind, checkDeleteUserGroup, hgroups]
      split_ifs <;> rfl

/-- A successful delete leaves the store without the group it found. -/
theorem deleteUserGroup_fst_of {P : Store → Prop} {userProfile : UserProfile} {userGroupId : Int}
    (hs : P s) (hdelete : ∀ userGroup, userGroup ∈ s.groups → userGroup.id = userGroupId →
      P (s.deleteGroup userGroup userProfile)) :
    P (deleteUserGroup s userProfile userGroupId).1 :=
  atomic_fst_of hs fun h => by
    obtain ⟨userGroup, hacc, hcheck⟩ := deleteUserGroup_body_eq_ok h
    obtain ⟨-, rfl⟩ := checkDeleteUserGroup_eq_ok hcheck
    obtain ⟨hmem, hid, -⟩ := accessUserGroupById_eq_ok hacc
    exact hdelete userGroup hmem hid

/-- After a delete, every other group is accessed as before. -/
theorem accessUserGroupById_deleteGroup (userProfile : UserProfile) {p : Int}
    (hne : p ≠ userGroup.id) (userProfile' : UserProfile) :
    accessUserGroupById (s.deleteGroup userGroup userProfile) p userProfile' =
      accessUserGroupById s p userProfile' := by
  simp only [accessUserGroupById, Store.deleteGroup]
  rw [find?_filter_of_imp fun g hg => ?_]
  simp only [Bool.and_eq_true, beq_iff_eq] at hg
  simpa [hg.1.1] using hne

/-- After a delete, a change of another group that does not name the deleted one reads what it
read before. -/
theorem readsAgree_deleteGroup (userProfile : UserProfile) {p : Int} {ids : List Int}
    (hne : p ≠ userGroup.id) (hids : userGroup.id ∉ ids) :
    ReadsAgree p ids s (s.deleteGroup userGroup userProfile) := by
  refine ⟨accessUserGroupById_deleteGroup userProfile hne, fun realm => ?_, fun x hx => ?_⟩
  · simp only [namedGroupsOfRealm, Store.deleteGroup, List.filter_filter]
    refine List.filter_congr fun g _ => ?_
    by_cases hg : g.id ∈ ids
    · simp [hg, show g.id ≠ userGroup.id from fun h => hids (h ▸ hg)]
    · simp [hg]
  · have hx' : x ≠ userGroup.id := fun h => hids (h ▸ hx)
    simp [Store.deleteGroup, hne, hx']

/-- After a delete, candidates that do not reach the deleted group have the recursive subgroups
they had. -/
theorem belowAgree_deleteGroup (userProfile : UserProfile) {ids : List Int}
    (hfar : ∀ c ∈ ids, ¬ Reaches s.groupMemberships c userGroup.id) :
    BelowAgree ids s (s.deleteGroup userGroup userProfile) := fun anchors hanchors => by
  rw [@recursiveSubgroupsOf_of_reaches s (s.deleteGroup userGroup userProfile) anchors fun a ha =>
    (Store.AgreeBelow.deleteGroup (hfar a (hanchors a ha)) _).reaches_eq]
  simp only [recursiveSubgroupsOf, Store.deleteGroup, List.filter_filter]
  refine List.filter_congr fun g _ => ?_
  cases hany : anchors.any fun a => reaches s.groupMemberships a g.id
  · rfl
  · obtain ⟨a, ha, hr⟩ := List.any_eq_true.mp hany
    simpa using ne_of_not_reaches (hfar a (hanchors a ha)) (reaches_iff.mp hr)

/-- **An update of `p` after a delete gets the outcome it gets alone**, when the deleted group is
not `p`, not one of the groups it removes, and below none of the groups it adds. -/
theorem updateSubgroupsOfUserGroup_snd_after_delete {userProfile : UserProfile}
    {userGroupId p : Int} {delete add : List Int} (userProfile' : UserProfile)
    (hne : userGroupId ≠ p) (hdelete : userGroupId ∉ delete)
    (hfar : ∀ c ∈ add, ¬ Reaches s.groupMemberships c userGroupId) :
    (updateSubgroupsOfUserGroup (deleteUserGroup s userProfile userGroupId).1
        userProfile' p delete add).2 =
      (updateSubgroupsOfUserGroup s userProfile' p delete add).2 :=
  @deleteUserGroup_fst_of s (fun t => (updateSubgroupsOfUserGroup t userProfile' p delete add).2 =
      (updateSubgroupsOfUserGroup s userProfile' p delete add).2) userProfile userGroupId rfl
    fun g _ hid => by
    subst hid
    exact updateSubgroupsOfUserGroup_snd_congr
      (readsAgree_deleteGroup userProfile (Ne.symm hne) fun h => hfar _ h .refl)
      (readsAgree_deleteGroup userProfile (Ne.symm hne) hdelete)
      (belowAgree_deleteGroup userProfile hfar) userProfile'

/-- After a delete, a membership change of another group reads what it read before. -/
theorem membersAgree_deleteGroup (userProfile : UserProfile) {p : Int} (hne : p ≠ userGroup.id) :
    MembersAgree p s (s.deleteGroup userGroup userProfile) :=
  ⟨rfl, accessUserGroupById_deleteGroup userProfile hne, fun x => by simp [Store.deleteGroup, hne]⟩

/-- **A membership update of `p` after a delete of another group gets the outcome it gets
alone.** -/
theorem updateUserGroupBackend_snd_after_delete {userProfile : UserProfile}
    {userGroupId p : Int} {delete add : List Int} (userProfile' : UserProfile)
    (hne : userGroupId ≠ p) :
    (updateUserGroupBackend (deleteUserGroup s userProfile userGroupId).1
        userProfile' p delete add).2 =
      (updateUserGroupBackend s userProfile' p delete add).2 :=
  @deleteUserGroup_fst_of s (fun t => (updateUserGroupBackend t userProfile' p delete add).2 =
      (updateUserGroupBackend s userProfile' p delete add).2) userProfile userGroupId rfl
    fun g _ hid => by
      subst hid
      exact updateUserGroupBackend_snd_congr (membersAgree_deleteGroup userProfile (Ne.symm hne))
        userProfile'

end Delete

/-! ## The graph an update leaves -/

/-- `update_subgroups_of_user_group` on the graph: the adds, then the removes. -/
def GroupGraph.updateSubgroups (A : GroupGraph) (g : Int) (delete add : List Int) : GroupGraph :=
  (A.addSubgroups g add).removeSubgroups g delete

/-- Updates of two different groups commute on the graph. -/
theorem GroupGraph.updateSubgroups_comm (A : GroupGraph) {p₁ p₂ : Int} (hne : p₁ ≠ p₂)
    (delete₁ add₁ delete₂ add₂ : List Int) :
    (A.updateSubgroups p₁ delete₁ add₁).updateSubgroups p₂ delete₂ add₂ =
      (A.updateSubgroups p₂ delete₂ add₂).updateSubgroups p₁ delete₁ add₁ := by
  refine GroupGraph.ext rfl rfl rfl ?_
  ext ⟨a, b⟩
  simp only [updateSubgroups, removeSubgroups, addSubgroups, Finset.mem_filter, Finset.mem_union,
    mem_edges]
  by_cases h₁ : a = p₁
  · subst h₁
    simp [hne]
  by_cases h₂ : a = p₂
  · subst h₂
    simp [h₁]
  · simp [h₁, h₂]

/-- **The graph an update leaves**: the update of the group's subgroups when it succeeds, and the
graph it found when it fails. -/
theorem updateSubgroupsOfUserGroup_graph {s : Store} (hv : s.Valid) (userProfile : UserProfile)
    (p : Int) (delete add : List Int) :
    (updateSubgroupsOfUserGroup s userProfile p delete add).1.graph =
      if (updateSubgroupsOfUserGroup s userProfile p delete add).2.isOk then
        s.graph.updateSubgroups p delete add
      else s.graph := by
  have hstep := handle_step ⟨""⟩ hv userProfile (.updateSubgroupsOfUserGroup p delete add)
  simp only [handle] at hstep
  cases hout : (updateSubgroupsOfUserGroup s userProfile p delete add).2 with
  | ok u =>
      rw [hout] at hstep
      exact hstep.2.2.2.2
  | error e =>
      rw [hout] at hstep
      rcases hstep with h | ⟨_, _, _, _, hreq, -⟩
      · exact h
      · cases hreq

/-- `update_user_group_backend` on the graph: the adds, then the removes. -/
def GroupGraph.updateMembers (A : GroupGraph) (g : Int) (delete add : List Int) : GroupGraph :=
  (A.addMembers g add).removeMembers g delete

/-- Membership updates of two different groups commute on the graph. -/
theorem GroupGraph.updateMembers_comm (A : GroupGraph) {p₁ p₂ : Int} (hne : p₁ ≠ p₂)
    (delete₁ add₁ delete₂ add₂ : List Int) :
    (A.updateMembers p₁ delete₁ add₁).updateMembers p₂ delete₂ add₂ =
      (A.updateMembers p₂ delete₂ add₂).updateMembers p₁ delete₁ add₁ := by
  refine GroupGraph.ext rfl rfl ?_ rfl
  ext ⟨a, b⟩
  simp only [updateMembers, removeMembers, addMembers, Finset.mem_filter, Finset.mem_union,
    mem_edges]
  by_cases h₁ : a = p₁
  · subst h₁
    simp [hne]
  by_cases h₂ : a = p₂
  · subst h₂
    simp [h₁]
  · simp [h₁, h₂]

/-- **The graph a membership update leaves**: the update of the group's members when it succeeds,
and the graph it found when it fails. -/
theorem updateUserGroupBackend_graph (s : Store) (userProfile : UserProfile) (p : Int)
    (delete add : List Int) :
    (updateUserGroupBackend s userProfile p delete add).1.graph =
      if (updateUserGroupBackend s userProfile p delete add).2.isOk then
        s.graph.updateMembers p delete add
      else s.graph := by
  have hstep := updateUserGroupBackend_step s userProfile p delete add
  cases hout : (updateUserGroupBackend s userProfile p delete add).2 with
  | ok u =>
      rw [hout] at hstep
      exact hstep.2.2.2.2
  | error e =>
      rw [hout] at hstep
      rcases hstep with h | ⟨_, _, _, _, hreq, -⟩
      · exact h
      · cases hreq

/-- A delete and an update of a group other than the deleted one, neither adding nor removing it,
commute on the graph. -/
theorem GroupGraph.deleteGroup_updateSubgroups (A : GroupGraph) {g p : Int} (hne : g ≠ p)
    {delete add : List Int} (hdelete : g ∉ delete) (hadd : g ∉ add) :
    (A.deleteGroup g).updateSubgroups p delete add =
      (A.updateSubgroups p delete add).deleteGroup g := by
  refine GroupGraph.ext rfl rfl rfl ?_
  ext ⟨a, b⟩
  simp only [updateSubgroups, removeSubgroups, addSubgroups, deleteGroup, Finset.mem_filter,
    Finset.mem_union, mem_edges]
  by_cases ha : a = p
  · subst ha
    by_cases hb : b = g
    · subst hb
      simp [hdelete, hadd]
    · simp [hb, Ne.symm hne]
  · simp [ha]

/-- A delete and a membership update of another group commute on the graph. -/
theorem GroupGraph.deleteGroup_updateMembers (A : GroupGraph) {g p : Int} (hne : g ≠ p)
    (delete add : List Int) :
    (A.deleteGroup g).updateMembers p delete add = (A.updateMembers p delete add).deleteGroup g := by
  refine GroupGraph.ext rfl rfl ?_ rfl
  ext ⟨a, b⟩
  simp only [updateMembers, removeMembers, addMembers, deleteGroup, Finset.mem_filter,
    Finset.mem_union, mem_edges]
  by_cases ha : a = p
  · subst ha
    simp [Ne.symm hne]
  · simp [ha]

/-- **The graph a delete leaves**: the graph without the group when it succeeds, and the graph it
found when it fails. -/
theorem deleteUserGroup_graph (s : Store) (userProfile : UserProfile) (g : Int) :
    (deleteUserGroup s userProfile g).1.graph =
      if (deleteUserGroup s userProfile g).2.isOk then s.graph.deleteGroup g else s.graph := by
  have hstep := deleteUserGroup_step s userProfile g
  cases hout : (deleteUserGroup s userProfile g).2 with
  | ok u =>
      rw [hout] at hstep
      exact hstep.2
  | error e =>
      rw [hout] at hstep
      rcases hstep with h | ⟨_, _, _, _, hreq, -⟩
      · exact h
      · cases hreq

/-! ## Two updates -/

/-- **Updates of unrelated groups commute.**  From a store that keeps its constraints, take two
`update_subgroups_of_user_group` requests, by any users, of two different groups, neither of
which adds a subgroup that reaches the other's group.  Each gets the same outcome, error message
included, whether it runs alone, after the other, or before it; and the two orders leave the same
group graph.  Two updates whose locked regions are apart are such a pair. -/
theorem updateSubgroupsOfUserGroup_commute {s : Store} (hv : s.Valid) (u₁ u₂ : UserProfile)
    {p₁ p₂ : Int} {delete₁ add₁ delete₂ add₂ : List Int} (hne : p₁ ≠ p₂)
    (hfar₁ : ∀ c ∈ add₁, ¬ Reaches s.groupMemberships c p₂)
    (hfar₂ : ∀ c ∈ add₂, ¬ Reaches s.groupMemberships c p₁) :
    (updateSubgroupsOfUserGroup (updateSubgroupsOfUserGroup s u₁ p₁ delete₁ add₁).1
        u₂ p₂ delete₂ add₂).2 = (updateSubgroupsOfUserGroup s u₂ p₂ delete₂ add₂).2 ∧
      (updateSubgroupsOfUserGroup (updateSubgroupsOfUserGroup s u₂ p₂ delete₂ add₂).1
        u₁ p₁ delete₁ add₁).2 = (updateSubgroupsOfUserGroup s u₁ p₁ delete₁ add₁).2 ∧
      (updateSubgroupsOfUserGroup (updateSubgroupsOfUserGroup s u₁ p₁ delete₁ add₁).1
          u₂ p₂ delete₂ add₂).1.graph =
        (updateSubgroupsOfUserGroup (updateSubgroupsOfUserGroup s u₂ p₂ delete₂ add₂).1
          u₁ p₁ delete₁ add₁).1.graph := by
  have h₁₂ := @updateSubgroupsOfUserGroup_snd_after s u₁ p₁ delete₁ add₁ p₂ delete₂ add₂ u₂
    hne.symm hfar₂
  have h₂₁ := @updateSubgroupsOfUserGroup_snd_after s u₂ p₂ delete₂ add₂ p₁ delete₁ add₁ u₁ hne
    hfar₁
  refine ⟨h₁₂, h₂₁, ?_⟩
  rw [updateSubgroupsOfUserGroup_graph (@valid_updateSubgroupsOfUserGroup s u₁ hv p₁ delete₁ add₁)
      u₂ p₂ delete₂ add₂, h₁₂,
    updateSubgroupsOfUserGroup_graph (@valid_updateSubgroupsOfUserGroup s u₂ hv p₂ delete₂ add₂)
      u₁ p₁ delete₁ add₁, h₂₁, updateSubgroupsOfUserGroup_graph hv u₁ p₁ delete₁ add₁,
    updateSubgroupsOfUserGroup_graph hv u₂ p₂ delete₂ add₂]
  split_ifs <;> first | rfl | exact GroupGraph.updateSubgroups_comm _ hne _ _ _ _

/-- Ann adds the group `11` under the group `10` and under a third group `12` of her realm: each add
gets its outcome either way round, and the graphs agree. -/
theorem updateSubgroupsOfUserGroup_commute_team :
    let s : Store :=
      { teamStore with groups := teamStore.groups ++ [⟨12, 7, true, "ops", "", 12⟩] }
    s.Valid ∧ (10 : Int) ≠ 12 ∧ (∀ c ∈ [(11 : Int)], ¬ Reaches s.groupMemberships c 12) ∧
      (∀ c ∈ [(11 : Int)], ¬ Reaches s.groupMemberships c 10) ∧
      (updateSubgroupsOfUserGroup (updateSubgroupsOfUserGroup s ⟨1, 7, "Ann", false, true⟩ 10 []
          [11]).1 ⟨1, 7, "Ann", false, true⟩ 12 [] [11]).1.graph =
        (updateSubgroupsOfUserGroup (updateSubgroupsOfUserGroup s ⟨1, 7, "Ann", false, true⟩ 12 []
          [11]).1 ⟨1, 7, "Ann", false, true⟩ 10 [] [11]).1.graph := by
  intro s
  have hv : s.Valid :=
    ⟨⟨by decide, by decide, by decide, by decide, by decide, by decide, by decide⟩, acyclic_nil,
      List.nodup_nil, List.nodup_nil⟩
  have hfar : ∀ x : Int, x ≠ 11 → ∀ c ∈ [(11 : Int)], ¬ Reaches s.groupMemberships c x :=
    fun x hx c hc hr => by
      rw [List.mem_singleton.mp hc] at hr
      exact hx (hr.eq_of_no_row_from fun _ h => absurd h (List.not_mem_nil _))
  exact ⟨hv, by decide, hfar 12 (by decide), hfar 10 (by decide),
    (updateSubgroupsOfUserGroup_commute hv _ _ (by decide) (hfar 12 (by decide))
      (hfar 10 (by decide))).2.2⟩

/-- **Membership updates of different groups commute.**  From any store, take two
`update_user_group_backend` requests, by any users, of two different groups.  Each gets the same
outcome, error message included, whether it runs alone, after the other, or before it; and the two
orders leave the same group graph. -/
theorem updateUserGroupBackend_commute (u₁ u₂ : UserProfile) {p₁ p₂ : Int}
    {delete₁ add₁ delete₂ add₂ : List Int} (s : Store) (hne : p₁ ≠ p₂) :
    (updateUserGroupBackend (updateUserGroupBackend s u₁ p₁ delete₁ add₁).1
        u₂ p₂ delete₂ add₂).2 = (updateUserGroupBackend s u₂ p₂ delete₂ add₂).2 ∧
      (updateUserGroupBackend (updateUserGroupBackend s u₂ p₂ delete₂ add₂).1
        u₁ p₁ delete₁ add₁).2 = (updateUserGroupBackend s u₁ p₁ delete₁ add₁).2 ∧
      (updateUserGroupBackend (updateUserGroupBackend s u₁ p₁ delete₁ add₁).1
          u₂ p₂ delete₂ add₂).1.graph =
        (updateUserGroupBackend (updateUserGroupBackend s u₂ p₂ delete₂ add₂).1
          u₁ p₁ delete₁ add₁).1.graph := by
  have h₁₂ := @updateUserGroupBackend_snd_after s u₁ p₁ delete₁ add₁ p₂ delete₂ add₂ u₂ hne.symm
  have h₂₁ := @updateUserGroupBackend_snd_after s u₂ p₂ delete₂ add₂ p₁ delete₁ add₁ u₁ hne
  refine ⟨h₁₂, h₂₁, ?_⟩
  rw [updateUserGroupBackend_graph (updateUserGroupBackend s u₁ p₁ delete₁ add₁).1 u₂ p₂ delete₂
      add₂, h₁₂,
    updateUserGroupBackend_graph (updateUserGroupBackend s u₂ p₂ delete₂ add₂).1 u₁ p₁ delete₁
      add₁, h₂₁, updateUserGroupBackend_graph s u₁ p₁ delete₁ add₁,
    updateUserGroupBackend_graph s u₂ p₂ delete₂ add₂]
  split_ifs <;> first | rfl | exact GroupGraph.updateMembers_comm _ hne _ _ _ _

/-- Ann adds Bob to the group `10` and to the group `11`: the two orders leave the same graph. -/
theorem updateUserGroupBackend_commute_team :
    (10 : Int) ≠ 11 ∧
      (updateUserGroupBackend (updateUserGroupBackend teamStore ⟨1, 7, "Ann", false, true⟩ 10 []
          [2]).1 ⟨1, 7, "Ann", false, true⟩ 11 [] [2]).1.graph =
        (updateUserGroupBackend (updateUserGroupBackend teamStore ⟨1, 7, "Ann", false, true⟩ 11 []
          [2]).1 ⟨1, 7, "Ann", false, true⟩ 10 [] [2]).1.graph :=
  ⟨by decide, (updateUserGroupBackend_commute _ _ teamStore (by decide)).2.2⟩

/-- **A delete commutes with an update outside its group.**  From a store that keeps its
constraints, take a `delete_user_group` request of a group `g` and an
`update_subgroups_of_user_group` request of another group `p`, by any users, where the update does
not remove `g` and adds no subgroup that reaches `g`.  Each gets the same outcome, error message
included, whether it runs alone, after the other, or before it; and the two orders leave the same
group graph.  A delete and an update whose locked regions are apart are such a pair. -/
theorem deleteUserGroup_commute {s : Store} (hv : s.Valid) (u₁ u₂ : UserProfile) {g p : Int}
    {delete add : List Int} (hne : g ≠ p) (hdelete : g ∉ delete)
    (hfar : ∀ c ∈ add, ¬ Reaches s.groupMemberships c g) :
    (updateSubgroupsOfUserGroup (deleteUserGroup s u₁ g).1 u₂ p delete add).2 =
        (updateSubgroupsOfUserGroup s u₂ p delete add).2 ∧
      (deleteUserGroup (updateSubgroupsOfUserGroup s u₂ p delete add).1 u₁ g).2 =
        (deleteUserGroup s u₁ g).2 ∧
      (updateSubgroupsOfUserGroup (deleteUserGroup s u₁ g).1 u₂ p delete add).1.graph =
        (deleteUserGroup (updateSubgroupsOfUserGroup s u₂ p delete add).1 u₁ g).1.graph := by
  have h₁₂ := @updateSubgroupsOfUserGroup_snd_after_delete s u₁ g p delete add u₂ hne hdelete hfar
  have h₂₁ := deleteUserGroup_snd_congr (@updateSubgroupsOfUserGroup_groups s u₂ p delete add) u₁ g
  refine ⟨h₁₂, h₂₁, ?_⟩
  rw [updateSubgroupsOfUserGroup_graph (@valid_deleteUserGroup s u₁ hv g) u₂ p delete add, h₁₂,
    deleteUserGroup_graph (updateSubgroupsOfUserGroup s u₂ p delete add).1 u₁ g, h₂₁,
    deleteUserGroup_graph s u₁ g, updateSubgroupsOfUserGroup_graph hv u₂ p delete add]
  split_ifs <;> first | rfl |
    exact GroupGraph.deleteGroup_updateSubgroups _ hne hdelete fun h => hfar g h .refl

/-- Ann deletes the group `11` while adding `12` under `10`: the two orders leave the same graph. -/
theorem deleteUserGroup_commute_team :
    let s : Store :=
      { teamStore with groups := teamStore.groups ++ [⟨12, 7, true, "ops", "", 12⟩] }
    s.Valid ∧ (11 : Int) ≠ 10 ∧ (11 : Int) ∉ ([] : List Int) ∧
      (∀ c ∈ [(12 : Int)], ¬ Reaches s.groupMemberships c 11) ∧
      (updateSubgroupsOfUserGroup (deleteUserGroup s ⟨1, 7, "Ann", false, true⟩ 11).1
          ⟨1, 7, "Ann", false, true⟩ 10 [] [12]).1.graph =
        (deleteUserGroup (updateSubgroupsOfUserGroup s ⟨1, 7, "Ann", false, true⟩ 10 [] [12]).1
          ⟨1, 7, "Ann", false, true⟩ 11).1.graph := by
  intro s
  have hv : s.Valid :=
    ⟨⟨by decide, by decide, by decide, by decide, by decide, by decide, by decide⟩, acyclic_nil,
      List.nodup_nil, List.nodup_nil⟩
  have hfar : ∀ c ∈ [(12 : Int)], ¬ Reaches s.groupMemberships c 11 := fun c hc hr => by
    rw [List.mem_singleton.mp hc] at hr
    exact absurd (hr.eq_of_no_row_from fun _ h => absurd h (List.not_mem_nil _)) (by decide)
  exact ⟨hv, by decide, List.not_mem_nil _, hfar,
    (deleteUserGroup_commute hv _ _ (by decide) (List.not_mem_nil _) hfar).2.2⟩

/-- **A delete commutes with a membership update of another group.**  From any store, take a
`delete_user_group` request of a group `g` and an `update_user_group_backend` request of another
group, by any users.  Each gets the same outcome, error message included, whether it runs alone,
after the other, or before it; and the two orders leave the same group graph. -/
theorem deleteUserGroup_commute_members (u₁ u₂ : UserProfile) {g p : Int} {delete add : List Int}
    (s : Store) (hne : g ≠ p) :
    (updateUserGroupBackend (deleteUserGroup s u₁ g).1 u₂ p delete add).2 =
        (updateUserGroupBackend s u₂ p delete add).2 ∧
      (deleteUserGroup (updateUserGroupBackend s u₂ p delete add).1 u₁ g).2 =
        (deleteUserGroup s u₁ g).2 ∧
      (updateUserGroupBackend (deleteUserGroup s u₁ g).1 u₂ p delete add).1.graph =
        (deleteUserGroup (updateUserGroupBackend s u₂ p delete add).1 u₁ g).1.graph := by
  have h₁₂ := @updateUserGroupBackend_snd_after_delete s u₁ g p delete add u₂ hne
  have h₂₁ := deleteUserGroup_snd_congr (@updateUserGroupBackend_groups s u₂ p delete add) u₁ g
  refine ⟨h₁₂, h₂₁, ?_⟩
  rw [updateUserGroupBackend_graph (deleteUserGroup s u₁ g).1 u₂ p delete add, h₁₂,
    deleteUserGroup_graph (updateUserGroupBackend s u₂ p delete add).1 u₁ g, h₂₁,
    deleteUserGroup_graph s u₁ g, updateUserGroupBackend_graph s u₂ p delete add]
  split_ifs <;> first | rfl | exact GroupGraph.deleteGroup_updateMembers _ hne _ _

/-- Ann deletes the group `11` while adding Bob to the group `10`. -/
theorem deleteUserGroup_commute_members_team :
    (11 : Int) ≠ 10 ∧
      (updateUserGroupBackend (deleteUserGroup teamStore ⟨1, 7, "Ann", false, true⟩ 11).1
          ⟨1, 7, "Ann", false, true⟩ 10 [] [2]).1.graph =
        (deleteUserGroup (updateUserGroupBackend teamStore ⟨1, 7, "Ann", false, true⟩ 10 [] [2]).1
          ⟨1, 7, "Ann", false, true⟩ 11).1.graph :=
  ⟨by decide, (deleteUserGroup_commute_members _ _ teamStore (by decide)).2.2⟩

end Zerver.UserGroups

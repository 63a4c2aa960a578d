import Zerver.UserGroups.Members

/-!
# Direct subgroups

`add_subgroups_to_group_backend` and `remove_subgroups_from_group_backend` run inside
`lock_subgroups_with_respect_to_supergroup`: the supergroup and every candidate must resolve, and
then the add refuses a candidate that is already a direct subgroup, and refuses the whole request
when the supergroup is among the candidates and their recursive subgroups; the remove refuses a
candidate that is not a direct subgroup.  `update_subgroups_of_user_group` runs the add and then
the remove in one transaction.

## Main Results

* `addSubgroupsToGroupBackend_eq_ok`, `removeSubgroupsFromGroupBackend_eq_ok` — what each body
  does, and `addSubgroupsToGroupBackend_of_cycle`, the error of the cycle check.
* `SubgroupsUpdated` — a store that differs from another only in one group's direct subgroups,
  which became `(S ∪ add) \ delete`.
* `updateSubgroupsOfUserGroup_subgroups` — when the update succeeds, which error it raises when
  the cycle check fails, and what the group's direct subgroups become.

## Design Notes

The cycle check reads `context.recursive_subgroups`, the rows reachable from the candidates; the
statements here use `Reaches`, the reflexive-transitive closure of the subgroup rows, and
`mem_recursiveSubgroupsOf` is the bridge.
-/

namespace Zerver.UserGroups

section Spec

variable {s s' : Store} {userProfile : UserProfile} {userGroupId : Int} {subgroupIds : List Int}

/-- **`add_subgroups_to_group_backend`** with a non-empty list: the locks' context is obtained,
no candidate is a direct subgroup yet, the supergroup is not among the recursive subgroups, and one
row per candidate is added. -/
theorem addSubgroupsToGroupBackend_eq_ok (hne : subgroupIds ≠ []) :
    addSubgroupsToGroupBackend s userProfile userGroupId subgroupIds = .ok s' ↔
      ∃ context, lockSubgroupsWithRespectToSupergroup s subgroupIds userGroupId userProfile =
          .ok context ∧
        (∀ g ∈ context.directSubgroups, (context.supergroup.id, g.id) ∉ s.groupMemberships) ∧
        userGroupId ∉ context.recursiveSubgroups.map UserGroup.id ∧
        s' = addSubgroupsToUserGroup s context.supergroup context.directSubgroups userProfile := by
  simp only [addSubgroupsToGroupBackend, addSubgroupsToGroupBackend.withBlock, List.isEmpty_iff, hne,
    if_false, bind_eq_ok]
  refine exists_congr fun context => and_congr_right fun _ => ?_
  split
  · rename_i g hfind
    have hp := List.find?_some hfind
    simp only [decide_eq_true_eq, Store.mem_directSubgroupIds] at hp
    simp only [throw_ne_ok, false_iff, not_and]
    exact fun hall => absurd hp (hall g (List.mem_of_find?_eq_some hfind))
  · rename_i hnone
    have hfresh : ∀ g ∈ context.directSubgroups,
        (context.supergroup.id, g.id) ∉ s.groupMemberships := fun g hg => by
      simpa using List.find?_eq_none.mp hnone g hg
    split
    · rename_i hrec
      simp only [throw_ne_ok, false_iff, not_and]
      exact fun _ h => absurd hrec h
    · rename_i hrec
      simp only [pure_eq_ok]
      exact ⟨fun h => ⟨hfresh, hrec, h.symm⟩, fun ⟨_, _, h⟩ => h.symm⟩

/-- **`remove_subgroups_from_group_backend`** with a non-empty list: the locks' context is
obtained, every candidate is a direct subgroup, and their rows are deleted. -/
theorem removeSubgroupsFromGroupBackend_eq_ok (hne : subgroupIds ≠ []) :
    removeSubgroupsFromGroupBackend s userProfile userGroupId subgroupIds = .ok s' ↔
      ∃ context, lockSubgroupsWithRespectToSupergroup s subgroupIds userGroupId userProfile =
          .ok context ∧
        (∀ g ∈ context.directSubgroups, (context.supergroup.id, g.id) ∈ s.groupMemberships) ∧
        s' = removeSubgroupsFromUserGroup s context.supergroup context.directSubgroups
          userProfile := by
  simp only [removeSubgroupsFromGroupBackend, removeSubgroupsFromGroupBackend.withBlock,
    List.isEmpty_iff, hne, if_false, bind_eq_ok]
  refine exists_congr fun context => and_congr_right fun _ => ?_
  split
  · rename_i g hfind
    have hp := List.find?_some hfind
    simp only [decide_eq_true_eq, Store.mem_directSubgroupIds] at hp
    simp only [throw_ne_ok, false_iff, not_and]
    exact fun hall => absurd (hall g (List.mem_of_find?_eq_some hfind)) hp
  · rename_i hnone
    have hall : ∀ g ∈ context.directSubgroups,
        (context.supergroup.id, g.id) ∈ s.groupMemberships := fun g hg => by
      simpa using List.find?_eq_none.mp hnone g hg
    simp only [pure_eq_ok]
    exact ⟨fun h => ⟨hall, h.symm⟩, fun ⟨_, h⟩ => h.symm⟩

/-- The ids of the candidates the locks resolved are the listed ids. -/
theorem mem_ids_of_lock {context : LockedUserGroupContext}
    (h : lockSubgroupsWithRespectToSupergroup s subgroupIds userGroupId userProfile = .ok context)
    {x : Int} : x ∈ context.directSubgroups.map UserGroup.id ↔ x ∈ subgroupIds := by
  obtain ⟨-, hdirect, -, hall⟩ := lockSubgroupsWithRespectToSupergroup_eq_ok.mp h
  constructor
  · rintro hx
    obtain ⟨g, hg, rfl⟩ := List.mem_map.mp hx
    exact (mem_namedGroupsOfRealm.mp (hdirect ▸ hg)).2.1
  · intro hx
    obtain ⟨g, hg, rfl⟩ := hall x hx
    exact List.mem_map_of_mem _ hg

/-- With the supergroup accessible and every candidate a named group of the realm, the locks
resolve the candidates to their rows. -/
theorem lockSubgroupsWithRespectToSupergroup_of_valid_ids {userGroup : UserGroup}
    (hacc : accessUserGroupById s userGroupId userProfile = .ok userGroup)
    (hids : ∀ x ∈ subgroupIds, ∃ g ∈ s.groups, g.id = x ∧ g.realm = userProfile.realm ∧
      g.isNamed = true) :
    lockSubgroupsWithRespectToSupergroup s subgroupIds userGroupId userProfile =
      .ok ⟨userGroup, namedGroupsOfRealm s subgroupIds userProfile.realm,
        recursiveSubgroupsOf s ((namedGroupsOfRealm s subgroupIds userProfile.realm).map
          UserGroup.id)⟩ :=
  lockSubgroupsWithRespectToSupergroup_eq_ok.mpr ⟨hacc, rfl, rfl, fun x hx => by
    obtain ⟨g, hg, rfl, hr, hn⟩ := hids x hx
    exact ⟨g, mem_namedGroupsOfRealm.mpr ⟨hg, hx, hr, hn⟩, rfl⟩⟩

/-- **A successful add** writes the supergroup's rows to the listed groups and no other table. -/
theorem subgroups_of_addSubgroupsToGroupBackend
    (h : addSubgroupsToGroupBackend s userProfile userGroupId subgroupIds = .ok s') :
    s'.users = s.users ∧ s'.groups = s.groups ∧ s'.memberships = s.memberships ∧
      ∀ e, e ∈ s'.groupMemberships ↔
        e ∈ s.groupMemberships ∨ e.1 = userGroupId ∧ e.2 ∈ subgroupIds := by
  by_cases hne : subgroupIds = []
  · subst hne
    cases h
    simp
  obtain ⟨context, hcontext, -, -, rfl⟩ := (addSubgroupsToGroupBackend_eq_ok hne).mp h
  have hid := (accessUserGroupById_eq_ok
    (lockSubgroupsWithRespectToSupergroup_eq_ok.mp hcontext).1).2.1
  refine ⟨rfl, rfl, rfl, fun ⟨a, b⟩ => ?_⟩
  simp only [addSubgroupsToUserGroup, List.mem_append, List.mem_map, Prod.mk.injEq, hid,
    ← mem_ids_of_lock hcontext]
  exact or_congr_right ⟨fun ⟨g, hg, ha, hb⟩ => ⟨ha.symm, g, hg, hb⟩,
    fun ⟨ha, g, hg, hb⟩ => ⟨g, hg, ha.symm, hb⟩⟩

/-- **A successful remove** deletes the supergroup's rows to the listed groups and writes no other
table. -/
theorem subgroups_of_removeSubgroupsFromGroupBackend
    (h : removeSubgroupsFromGroupBackend s userProfile userGroupId subgroupIds = .ok s') :
    s'.users = s.users ∧ s'.groups = s.groups ∧ s'.memberships = s.memberships ∧
      ∀ e, e ∈ s'.groupMemberships ↔
        e ∈ s.groupMemberships ∧ ¬ (e.1 = userGroupId ∧ e.2 ∈ subgroupIds) := by
  by_cases hne : subgroupIds = []
  · subst hne
    cases h
    simp
  obtain ⟨context, hcontext, -, rfl⟩ := (removeSubgroupsFromGroupBackend_eq_ok hne).mp h
  have hid := (accessUserGroupById_eq_ok
    (lockSubgroupsWithRespectToSupergroup_eq_ok.mp hcontext).1).2.1
  refine ⟨rfl, rfl, rfl, fun e => ?_⟩
  simp [removeSubgroupsFromUserGroup, hid, ← mem_ids_of_lock hcontext, imp_iff_not_or]

/-- **The cycle check decides reachability**: the supergroup is among the candidates' recursive
subgroups exactly when one of the candidates reaches it. -/
theorem mem_recursiveSubgroupIds_iff {userGroup : UserGroup} (hmem : userGroup ∈ s.groups)
    {candidates : List UserGroup} :
    userGroup.id ∈ (recursiveSubgroupsOf s (candidates.map UserGroup.id)).map UserGroup.id ↔
      ∃ c ∈ candidates, Reaches s.groupMemberships c.id userGroup.id := by
  simp only [List.mem_map, mem_recursiveSubgroupsOf]
  constructor
  · rintro ⟨g, ⟨-, _, ⟨c, hc, rfl⟩, hr⟩, hid⟩
    exact ⟨c, hc, hid ▸ hr⟩
  · rintro ⟨c, hc, hr⟩
    exact ⟨userGroup, ⟨hmem, c.id, ⟨c, hc, rfl⟩, hr⟩, rfl⟩

/-- With the supergroup accessible and every candidate a named group of the realm, the add
succeeds exactly when no candidate is a direct subgroup yet and none of them reaches the
supergroup. -/
theorem addSubgroupsToGroupBackend_ok_iff {userGroup : UserGroup}
    (hacc : accessUserGroupById s userGroupId userProfile = .ok userGroup)
    (hids : ∀ x ∈ subgroupIds, ∃ g ∈ s.groups, g.id = x ∧ g.realm = userProfile.realm ∧
      g.isNamed = true) :
    (∃ s', addSubgroupsToGroupBackend s userProfile userGroupId subgroupIds = .ok s') ↔
      (∀ x ∈ subgroupIds, (userGroupId, x) ∉ s.groupMemberships) ∧
        ¬ ∃ x ∈ subgroupIds, Reaches s.groupMemberships x userGroupId := by
  by_cases hne : subgroupIds = []
  · subst hne
    exact ⟨fun _ => by simp, fun _ => ⟨s, rfl⟩⟩
  have hlock := lockSubgroupsWithRespectToSupergroup_of_valid_ids hacc hids
  have hcandidates : ∀ x, x ∈ (namedGroupsOfRealm s subgroupIds userProfile.realm).map
      UserGroup.id ↔ x ∈ subgroupIds := fun _ => mem_ids_of_lock hlock
  obtain ⟨hmem, rfl, -, -⟩ := accessUserGroupById_eq_ok hacc
  have hrec : userGroup.id ∈ (recursiveSubgroupsOf s ((namedGroupsOfRealm s subgroupIds
      userProfile.realm).map UserGroup.id)).map UserGroup.id ↔ _ :=
    mem_recursiveSubgroupIds_iff hmem
  simp only [List.mem_map, exists_exists_and_eq_and] at hcandidates
  constructor
  · rintro ⟨s', h⟩
    obtain ⟨context, hcontext, hfresh, hnotrec, -⟩ := (addSubgroupsToGroupBackend_eq_ok hne).mp h
    rw [hlock, Except.ok.injEq] at hcontext
    subst hcontext
    refine ⟨fun x hx hx' => ?_, fun ⟨x, hx, hr⟩ => hnotrec (hrec.mpr ?_)⟩
    · obtain ⟨g, hg, rfl⟩ := (hcandidates x).mpr hx
      exact hfresh g hg hx'
    · obtain ⟨g, hg, rfl⟩ := (hcandidates x).mpr hx
      exact ⟨g, hg, hr⟩
  · rintro ⟨hfresh, hnotrec⟩
    refine ⟨_, (addSubgroupsToGroupBackend_eq_ok hne).mpr ⟨_, hlock,
      fun g hg => hfresh g.id ((hcandidates _).mp ⟨g, hg, rfl⟩), fun h => hnotrec ?_, rfl⟩⟩
    obtain ⟨c, hc, hr⟩ := hrec.mp h
    exact ⟨c.id, (hcandidates _).mp ⟨c, hc, rfl⟩, hr⟩

/-- **The error of the cycle check**: when every candidate is new but one of them reaches the
supergroup, the add refuses with "already a subgroup of one of the passed subgroups". -/
theorem addSubgroupsToGroupBackend_of_cycle {userGroup : UserGroup}
    (hacc : accessUserGroupById s userGroupId userProfile = .ok userGroup)
    (hids : ∀ x ∈ subgroupIds, ∃ g ∈ s.groups, g.id = x ∧ g.realm = userProfile.realm ∧
      g.isNamed = true)
    (hfresh : ∀ x ∈ subgroupIds, (userGroupId, x) ∉ s.groupMemberships)
    (hcycle : ∃ x ∈ subgroupIds, Reaches s.groupMemberships x userGroupId) :
    addSubgroupsToGroupBackend s userProfile userGroupId subgroupIds =
      .error ("User group " ++ toString userGroupId ++
        " is already a subgroup of one of the passed subgroups.") := by
  obtain ⟨x, hx, hr⟩ := hcycle
  have hlock := lockSubgroupsWithRespectToSupergroup_of_valid_ids hacc hids
  obtain ⟨hmem, rfl, -, -⟩ := accessUserGroupById_eq_ok hacc
  have hnone : (namedGroupsOfRealm s subgroupIds userProfile.realm).find? (fun group =>
      group.id ∈ s.directSubgroupIds userGroup.id) = none :=
    List.find?_eq_none.mpr fun g hg => by
      simpa using hfresh g.id (mem_namedGroupsOfRealm.mp hg).2.1
  obtain ⟨g, hg, rfl⟩ := List.mem_map.mp ((mem_ids_of_lock hlock).mpr hx)
  have hrec := (mem_recursiveSubgroupIds_iff hmem).mpr ⟨g, hg, hr⟩
  simp only [addSubgroupsToGroupBackend, List.isEmpty_iff, List.ne_nil_of_mem hx, if_false, hlock]
  simp only [bind, Except.bind, addSubgroupsToGroupBackend.withBlock, hnone, hrec, if_true]
  rfl

/-- With the supergroup accessible and every candidate a named group of the realm, the remove
succeeds exactly when every candidate is a direct subgroup. -/
theorem removeSubgroupsFromGroupBackend_ok_iff {userGroup : UserGroup}
    (hacc : accessUserGroupById s userGroupId userProfile = .ok userGroup)
    (hids : ∀ x ∈ subgroupIds, ∃ g ∈ s.groups, g.id = x ∧ g.realm = userProfile.realm ∧
      g.isNamed = true) :
    (∃ s', removeSubgroupsFromGroupBackend s userProfile userGroupId subgroupIds = .ok s') ↔
      ∀ x ∈ subgroupIds, (userGroupId, x) ∈ s.groupMemberships := by
  by_cases hne : subgroupIds = []
  · subst hne
    exact ⟨fun _ => by simp, fun _ => ⟨s, rfl⟩⟩
  have hlock := lockSubgroupsWithRespectToSupergroup_of_valid_ids hacc hids
  have hcandidates : ∀ x, x ∈ (namedGroupsOfRealm s subgroupIds userProfile.realm).map
      UserGroup.id ↔ x ∈ subgroupIds := fun _ => mem_ids_of_lock hlock
  obtain ⟨-, rfl, -, -⟩ := accessUserGroupById_eq_ok hacc
  simp only [List.mem_map, exists_exists_and_eq_and] at hcandidates
  constructor
  · rintro ⟨s', h⟩ x hx
    obtain ⟨context, hcontext, hall, -⟩ := (removeSubgroupsFromGroupBackend_eq_ok hne).mp h
    rw [hlock, Except.ok.injEq] at hcontext
    subst hcontext
    obtain ⟨g, hg, rfl⟩ := (hcandidates x).mpr hx
    exact hall g hg
  · intro hall
    exact ⟨_, (removeSubgroupsFromGroupBackend_eq_ok hne).mpr ⟨_, hlock,
      fun g hg => hall g.id ((hcandidates _).mp ⟨g, hg, rfl⟩), rfl⟩⟩

end Spec

/-! ## `update_subgroups_of_user_group` -/

/-- **`s'` differs from `s` only in the direct subgroups of one group**, which became
`(S ∪ add) \ delete` for the group's direct subgroups `S` in `s`. -/
structure SubgroupsUpdated (s s' : Store) (userGroupId : Int) (delete add : List Int) : Prop where
  subgroups : ∀ x, x ∈ s'.directSubgroupIds userGroupId ↔
    (x ∈ s.directSubgroupIds userGroupId ∨ x ∈ add) ∧ x ∉ delete
  otherGroups : ∀ g ≠ userGroupId, ∀ x, (g, x) ∈ s'.groupMemberships ↔ (g, x) ∈ s.groupMemberships
  memberships : s'.memberships = s.memberships
  groups : s'.groups = s.groups
  users : s'.users = s.users

section Update

variable {s : Store} {userProfile : UserProfile}

/-- **What `update_subgroups_of_user_group` does to a named group `P` of the acting user's realm**,
with lists naming named groups of that realm, not both empty.  It succeeds exactly when no added
group is a direct subgroup, none of them reaches `P`, and every deleted group is a direct subgroup
or added; when the first holds and the second fails, the error is the cycle check's.  On success
`P`'s direct subgroups become `(S ∪ add) \ delete` and nothing else changes; on failure the store
is the one it started from. -/
theorem updateSubgroupsOfUserGroup_subgroups {userGroup : UserGroup}
    (hgroup : userGroup ∈ s.groups) (hrealm : userGroup.realm = userProfile.realm)
    (hnamed : userGroup.isNamed = true) {delete add : List Int} (hlists : add ≠ [] ∨ delete ≠ [])
    (hids : ∀ groupId ∈ add ++ delete, ∃ g ∈ s.groups, g.id = groupId ∧
      g.realm = userProfile.realm ∧ g.isNamed = true) :
    let result := updateSubgroupsOfUserGroup s userProfile userGroup.id delete add
    (result.2 = .ok () ↔ (∀ a ∈ add, a ∉ s.directSubgroupIds userGroup.id) ∧
        (¬ ∃ a ∈ add, Reaches s.groupMemberships a userGroup.id) ∧
        ∀ d ∈ delete, d ∈ s.directSubgroupIds userGroup.id ∨ d ∈ add) ∧
      ((∀ a ∈ add, a ∉ s.directSubgroupIds userGroup.id) →
        (∃ a ∈ add, Reaches s.groupMemberships a userGroup.id) →
        result.2 = .error ("User group " ++ toString userGroup.id ++
          " is already a subgroup of one of the passed subgroups.")) ∧
      (result.2 = .ok () → SubgroupsUpdated s result.1 userGroup.id delete add) ∧
      (result.2 ≠ .ok () → result.1 = s) := by
  intro result
  obtain ⟨g, hacc, -, -, -⟩ := accessUserGroupById_of_mem hgroup hrealm hnamed
  have hadd := fun x hx => hids x (List.mem_append_left delete hx)
  have hdel := fun x hx => hids x (List.mem_append_right add hx)
  -- what the remove sees after a successful add
  have hafter : ∀ s₁, addSubgroupsToGroupBackend s userProfile userGroup.id add = .ok s₁ →
      accessUserGroupById s₁ userGroup.id userProfile = .ok g ∧
        (∀ x ∈ delete, ∃ g ∈ s₁.groups, g.id = x ∧ g.realm = userProfile.realm ∧
          g.isNamed = true) ∧
        ∀ x, (userGroup.id, x) ∈ s₁.groupMemberships ↔
          (userGroup.id, x) ∈ s.groupMemberships ∨ x ∈ add := fun s₁ h₁ => by
    obtain ⟨-, hg₁, -, he₁⟩ := subgroups_of_addSubgroupsToGroupBackend h₁
    exact ⟨by simpa only [accessUserGroupById, hg₁] using hacc, hg₁ ▸ hdel,
      fun x => by simp [he₁]⟩
  have hpair := @atomic_composeViews_pair s
    (fun s => addSubgroupsToGroupBackend s userProfile userGroup.id add)
    (fun s => removeSubgroupsFromGroupBackend s userProfile userGroup.id delete) _ _
    (addSubgroupsToGroupBackend_ok_iff hacc hadd)
    fun s₁ h₁ => (removeSubgroupsFromGroupBackend_ok_iff (hafter s₁ h₁).1 (hafter s₁ h₁).2.1).trans
      (forall₂_congr fun d _ => (hafter s₁ h₁).2.2 d)
  rw [show result = _ from if_neg (by cases hlists <;> simp_all [List.isEmpty_iff])]
  simp only [Store.mem_directSubgroupIds]
  refine ⟨hpair.1.trans and_assoc, fun hfresh hcycle => ?_, fun hok => ?_, hpair.2.2⟩
  · rw [atomic_of_error (by
      rw [composeViews_pair, addSubgroupsToGroupBackend_of_cycle hacc hadd hfresh hcycle]; rfl)]
  · obtain ⟨s₁, h₁, h₂⟩ := hpair.2.1 hok
    obtain ⟨hu₁, hg₁, hm₁, he₁⟩ := subgroups_of_addSubgroupsToGroupBackend h₁
    obtain ⟨hu₂, hg₂, hm₂, he₂⟩ := subgroups_of_removeSubgroupsFromGroupBackend h₂
    exact ⟨fun x => by simp [he₂, he₁], fun g' hg' x => by simp [he₂, he₁, hg'],
      hm₂.trans hm₁, hg₂.trans hg₁, hu₂.trans hu₁⟩

/-- Making the group 11 a subgroup of the group 10. -/
theorem updateSubgroupsOfUserGroup_subgroups_team :
    (updateSubgroupsOfUserGroup teamStore ⟨1, 7, "Ann", false, true⟩ 10 [] [11]).2 = .ok () ∧
      SubgroupsUpdated teamStore
        (updateSubgroupsOfUserGroup teamStore ⟨1, 7, "Ann", false, true⟩ 10 [] [11]).1 10 [] [11] :=
  have h := @updateSubgroupsOfUserGroup_subgroups teamStore ⟨1, 7, "Ann", false, true⟩
    ⟨10, 7, true, "eng", "", 10⟩ (by decide) rfl rfl [] [11] (.inl (by decide)) (by decide)
  have hok := h.1.mpr ⟨by decide, fun ⟨a, ha, hr⟩ => by
    obtain rfl := List.mem_singleton.mp ha
    exact absurd (Relation.ReflTransGen.cases_head hr) (by simp [SubgroupEdge, teamStore]),
    by decide⟩
  ⟨hok, h.2.2.1 hok⟩

end Update

end Zerver.UserGroups

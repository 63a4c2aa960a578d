import Zerver.UserGroups.ReadBack
import Zerver.UserGroups.Concurrent.Members

/-!
# The group graph of the spec

The spec describes the kernel of the views as a **group graph**: which ids are groups, the direct
membership edges `(group, user)` and the direct subgroup edges `(supergroup, subgroup)`, each a
set, changed by the store operations `createGroup`, `addMembers`, `removeMembers`,
`addSubgroups`, `removeSubgroups` and `deleteGroup`, each under the rule the spec gives for it.
This module states that graph machine on its own, in the spec's words, and proves that the views
refine it: the graph of the store after any request is one the machine allows for that request
and its outcome, so the graphs along a run of requests are a run of the machine.

## Main Definitions

* `GroupGraph` — groups, named groups, membership edges and subgroup edges, as finite sets.
* `Store.graph` — the graph a store holds: the abstraction function.
* `GroupGraph.Resolves`, `GroupGraph.ResolvesSetting` — what resolving a setting value does to
  the graph.
* `Request.Effect`, `Request.Refused`, `Request.Step` — what a request that succeeds, or fails,
  may do to the graph.
* `GraphRun` — runs of the graph machine.

## Main Results

* `handle_step` — each request to the views is one step of the graph machine.
* `runRequests_refines` — so is every run of requests.
* `Concurrent.MemberSystem.committed_refines` — and so is every interleaving of concurrent
  `update_user_group_backend` requests on one group, in the order they commit.

What runs of the machine keep, and so runs of the views, is in `Zerver.UserGroups.GraphRuns`.

## Design Notes

**Sets, not tables.**  The store's tables are lists; the graph forgets their order and their
duplicates, as the spec's set semantics does.  Of a group row it keeps the id and whether the group
is named: a named group is one the API reaches by its id, an anonymous one belongs to the setting
that refers to it.  What the graph cannot see (realms, names, settings, the audit log, messages) is
the business of the other modules.

**Where the machine is free.**  A new group gets any id that is not a group, and a failed
`add_user_group` may leave the anonymous group of its setting behind: the setting is resolved
before `check_add_user_group`'s transaction, and a failure of the latter does not undo it.
Everything else a request does to the graph is fixed by its parameters, and every guard of the
spec that the graph can see is part of the step: an add refuses an edge that is there, a remove
one that is not, and an added subgroup must not reach its supergroup.
-/

namespace Zerver.UserGroups

/-! ## The graph and the abstraction function -/

/-- **The group graph**: which ids are groups, which of them are named groups, and the direct
membership and subgroup edges. -/
@[ext] structure GroupGraph where
  groups : Finset Int
  named : Finset Int
  members : Finset (Int × Int)
  subgroups : Finset (Int × Int)
  deriving DecidableEq

/-- **The graph a store holds**: the ids of its group rows and of its named group rows, and its
two membership tables. -/
def Store.graph (s : Store) : GroupGraph :=
  ⟨(s.groups.map UserGroup.id).toFinset,
    ((s.groups.filter (·.isNamed)).map UserGroup.id).toFinset, s.memberships.toFinset,
    s.groupMemberships.toFinset⟩

namespace Store

/-- Whether a group id is the id of a named group. -/
def HasNamedGroup (s : Store) (groupId : Int) : Prop :=
  ∃ g ∈ s.groups, g.isNamed = true ∧ g.id = groupId

variable {s : Store}

@[simp] theorem mem_graph_groups {x : Int} : x ∈ s.graph.groups ↔ s.HasGroup x := by
  simp [graph, HasGroup]

@[simp] theorem mem_graph_named {x : Int} : x ∈ s.graph.named ↔ s.HasNamedGroup x := by
  simp [graph, HasNamedGroup, and_assoc]

/-- A group the API finds by its id is a named group. -/
theorem hasNamedGroup_of_access {userGroupId : Int} {userProfile : UserProfile} {g : UserGroup}
    (h : accessUserGroupById s userGroupId userProfile = .ok g) : s.HasNamedGroup userGroupId :=
  have ⟨hmem, hid, _, hnamed⟩ := accessUserGroupById_eq_ok h
  ⟨g, hmem, hnamed, hid⟩

@[simp] theorem mem_graph_members {m : Int × Int} :
    m ∈ s.graph.members ↔ m ∈ s.memberships := by
  simp [graph]

@[simp] theorem mem_graph_subgroups {e : Int × Int} :
    e ∈ s.graph.subgroups ↔ e ∈ s.groupMemberships := by
  simp [graph]

/-- A group table with one row appended has that row's id besides its old ones. -/
theorem hasGroup_of_groups_eq_append {t : Store} {g : UserGroup} (h : s.groups = t.groups ++ [g])
    {x : Int} : s.HasGroup x ↔ x = g.id ∨ t.HasGroup x := by
  simp only [HasGroup, h, List.mem_append, List.mem_singleton, or_and_right, exists_or,
    exists_eq_left]
  rw [or_comm, eq_comm]

theorem hasNamedGroup_of_groups_eq_append {t : Store} {g : UserGroup}
    (h : s.groups = t.groups ++ [g]) {x : Int} :
    s.HasNamedGroup x ↔ (g.isNamed = true ∧ g.id = x) ∨ t.HasNamedGroup x := by
  simp only [HasNamedGroup, h, List.mem_append, List.mem_singleton, or_and_right, exists_or,
    exists_eq_left]
  exact or_comm

/-- A store holds a graph when it has the graph's groups, named groups and edges. -/
theorem graph_eq {A : GroupGraph} (hg : ∀ x, s.HasGroup x ↔ x ∈ A.groups)
    (hn : ∀ x, s.HasNamedGroup x ↔ x ∈ A.named)
    (hm : ∀ m, m ∈ s.memberships ↔ m ∈ A.members)
    (he : ∀ e, e ∈ s.groupMemberships ↔ e ∈ A.subgroups) : s.graph = A :=
  GroupGraph.ext (Finset.ext fun x => by simpa using hg x) (Finset.ext fun x => by simpa using hn x)
    (Finset.ext fun m => by simpa using hm m) (Finset.ext fun e => by simpa using he e)

end Store

namespace RowEdit

variable {s t : Store} {groupId : Int} {f : UserGroup → UserGroup}

/-- An update of group columns leaves the graph as it is: it keeps ids and kinds. -/
theorem graph_eq (h : RowEdit s t groupId f) : t.graph = s.graph := by
  have hnamed : ∀ g, (if g.id = groupId then f g else g).isNamed = g.isNamed := fun g => by
    split
    · exact (h.keepsKey g).2.2
    · rfl
  simp only [Store.graph, h.groupIds, h.memberships, h.groupMemberships, h.groups,
    Store.modifyGroup, List.filter_map, List.map_map, Function.comp_def, hnamed, h.map_id]

/-- An update of group columns hands out no id. -/
theorem fresh (h : RowEdit s t groupId f) (hfresh : ¬ s.HasGroup s.nextGroupId) :
    ¬ t.HasGroup t.nextGroupId := by
  rwa [← Store.mem_graph_groups, h.graph_eq, h.nextGroupId, Store.mem_graph_groups]

end RowEdit

/-! ## The graph machine -/

namespace GroupGraph

variable (A : GroupGraph)

/-- `createGroup`: a group with a new id, named or not, its direct members and its direct
subgroups. -/
def createGroup (g : Int) (isNamed : Bool) (memberIds subgroupIds : List Int) : GroupGraph :=
  ⟨insert g A.groups, if isNamed then insert g A.named else A.named,
    A.members ∪ (memberIds.map (g, ·)).toFinset,
    A.subgroups ∪ (subgroupIds.map (g, ·)).toFinset⟩

/-- `addMembers(group, userIds)`. -/
def addMembers (g : Int) (userIds : List Int) : GroupGraph :=
  { A with members := A.members ∪ (userIds.map (g, ·)).toFinset }

/-- `removeMembers(group, userIds)`. -/
def removeMembers (g : Int) (userIds : List Int) : GroupGraph :=
  { A with members := A.members.filter fun m => ¬ (m.1 = g ∧ m.2 ∈ userIds) }

/-- `addSubgroups(supergroup, subgroupIds)`. -/
def addSubgroups (g : Int) (subgroupIds : List Int) : GroupGraph :=
  { A with subgroups := A.subgroups ∪ (subgroupIds.map (g, ·)).toFinset }

/-- `removeSubgroups(supergroup, subgroupIds)`. -/
def removeSubgroups (g : Int) (subgroupIds : List Int) : GroupGraph :=
  { A with subgroups := A.subgroups.filter fun e => ¬ (e.1 = g ∧ e.2 ∈ subgroupIds) }

/-- `deleteGroup`: the group goes, with every edge it is part of. -/
def deleteGroup (g : Int) : GroupGraph :=
  ⟨A.groups.erase g, A.named.erase g, A.members.filter (·.1 ≠ g),
    A.subgroups.filter fun e => e.1 ≠ g ∧ e.2 ≠ g⟩

/-- The edges from `g` to the listed ids. -/
theorem mem_edges {g : Int} {ids : List Int} {m : Int × Int} :
    m ∈ (ids.map (g, ·)).toFinset ↔ m.1 = g ∧ m.2 ∈ ids := by
  obtain ⟨a, b⟩ := m
  simp only [List.mem_toFinset, List.mem_map, Prod.mk.injEq]
  constructor
  · rintro ⟨c, hc, rfl, rfl⟩
    exact ⟨rfl, hc⟩
  · rintro ⟨rfl, hb⟩
    exact ⟨b, hb, rfl, rfl⟩

/-- `recursiveSubgroupIds`: `b` is `a` or reachable from `a` over subgroup edges. -/
def Reaches (a b : Int) : Prop :=
  Relation.ReflTransGen (fun x y => (x, y) ∈ A.subgroups) a b

/-- **Resolving a setting value** (spec §4.2): a group id refers to a named group; any other
value materialises a new anonymous group with its direct members and its direct subgroups, which
must be named groups.  (A value of no member and one subgroup has been collapsed to a group id by
`parse_group_setting_value`.) -/
def Resolves (A' : GroupGraph) : GroupSettingValue → Prop
  | .groupId groupId => groupId ∈ A.named ∧ A' = A
  | .anonymous value => (∀ c ∈ value.directSubgroups, c ∈ A.named) ∧
      ∃ a ∉ A.groups, A' = A.createGroup a false value.directMembers value.directSubgroups

/-- Resolving a setting value if one was given. -/
def ResolvesSetting (A' : GroupGraph) : Option GroupSettingRequest → Prop
  | none => A' = A
  | some value => A.Resolves A' (parseGroupSettingValue value)

end GroupGraph

namespace Request

/-- **What a request that succeeds does to the graph**, with the guards of the spec (§4.4, §6):
a request names a named group, and so does every subgroup it lists. -/
def Effect : Request → GroupGraph → GroupGraph → Prop
  | .addUserGroup _ members _ canMentionGroup, A, A' =>
      ∃ A₁, A.ResolvesSetting A₁ canMentionGroup ∧
        ∃ g ∉ A₁.groups, A' = A₁.createGroup g true members []
  | .editUserGroup userGroupId name description canMentionGroup, A, A' =>
      ¬ (name = none ∧ description = none ∧ canMentionGroup = none) ∧
        userGroupId ∈ A.named ∧ (A' = A ∨ A.ResolvesSetting A' canMentionGroup)
  | .deleteUserGroup userGroupId, A, A' =>
      userGroupId ∈ A.named ∧ A' = A.deleteGroup userGroupId
  | .updateUserGroupBackend userGroupId delete add, A, A' =>
      (add ≠ [] ∨ delete ≠ []) ∧ userGroupId ∈ A.named ∧
        (∀ u ∈ add, (userGroupId, u) ∉ A.members) ∧
        (∀ u ∈ delete, (userGroupId, u) ∈ A.members ∨ u ∈ add) ∧
        A' = (A.addMembers userGroupId add).removeMembers userGroupId delete
  | .updateSubgroupsOfUserGroup userGroupId delete add, A, A' =>
      (add ≠ [] ∨ delete ≠ []) ∧ userGroupId ∈ A.named ∧
        (∀ c ∈ add,
          c ∈ A.named ∧ (userGroupId, c) ∉ A.subgroups ∧ ¬ A.Reaches c userGroupId) ∧
        (∀ c ∈ delete, c ∈ A.named ∧ ((userGroupId, c) ∈ A.subgroups ∨ c ∈ add)) ∧
        A' = (A.addSubgroups userGroupId add).removeSubgroups userGroupId delete

/-- **What a request that fails does to the graph**: nothing, except that `add_user_group` may
have resolved its setting. -/
def Refused (request : Request) (A A' : GroupGraph) : Prop :=
  A' = A ∨ ∃ name members description canMentionGroup,
    request = .addUserGroup name members description canMentionGroup ∧
      A.ResolvesSetting A' canMentionGroup

/-- **One step of the graph machine**: a request and its outcome. -/
def Step (request : Request) (A A' : GroupGraph) : Except String Unit → Prop
  | .ok () => request.Effect A A'
  | .error _ => request.Refused A A'

end Request

/-- **Runs of the graph machine**: requests one after the other, each succeeding or failing. -/
inductive GraphRun : GroupGraph → List Request → GroupGraph → Prop
  | nil (A : GroupGraph) : GraphRun A [] A
  | cons {A A₁ A' : GroupGraph} {request : Request} {requests : List Request}
      (outcome : Except String Unit) :
      request.Step A A₁ outcome → GraphRun A₁ requests A' →
        GraphRun A (request :: requests) A'

/-! ## What the views ask of the store -/

section Guards

variable {s s' : Store} {userProfile : UserProfile} {userGroupId : Int} {ids : List Int}

/-- A successful add finds the named group, when there is something to add, and no listed user is
a direct member. -/
theorem addMembersToGroupBackend_guard
    (h : addMembersToGroupBackend s userProfile userGroupId ids = .ok s') :
    (ids ≠ [] → s.HasNamedGroup userGroupId) ∧
      ∀ u ∈ ids, (userGroupId, u) ∉ s.memberships := by
  by_cases hne : ids = []
  · simp [hne]
  obtain ⟨userGroup, hacc, users, husers, hfresh, -⟩ :=
    (addMembersToGroupBackend_eq_ok hne).mp h
  refine ⟨fun _ => Store.hasNamedGroup_of_access hacc, fun u hu => ?_⟩
  obtain ⟨-, rfl, -⟩ := accessUserGroupById_eq_ok hacc
  obtain ⟨v, hv, rfl⟩ := List.mem_map.mp ((mem_ids_of_userIdsToUsers husers).mpr hu)
  exact hfresh v hv

/-- A successful remove finds the named group, when there is something to remove, and every
listed user is a direct member. -/
theorem removeMembersFromGroupBackend_guard
    (h : removeMembersFromGroupBackend s userProfile userGroupId ids = .ok s') :
    (ids ≠ [] → s.HasNamedGroup userGroupId) ∧
      ∀ u ∈ ids, (userGroupId, u) ∈ s.memberships := by
  by_cases hne : ids = []
  · simp [hne]
  obtain ⟨-, -, userGroup, hacc, hall, -⟩ := (removeMembersFromGroupBackend_eq_ok hne).mp h
  refine ⟨fun _ => Store.hasNamedGroup_of_access hacc, ?_⟩
  obtain ⟨-, rfl, -⟩ := accessUserGroupById_eq_ok hacc
  exact hall

/-- The candidates the locks resolve are named groups. -/
theorem namedGroup_of_lock {context : LockedUserGroupContext}
    (h : lockSubgroupsWithRespectToSupergroup s ids userGroupId userProfile = .ok context)
    {c : Int} (hc : c ∈ ids) :
    ∃ g ∈ context.directSubgroups, g ∈ s.groups ∧ g.isNamed = true ∧ g.id = c := by
  obtain ⟨-, hdirect, -, hall⟩ := lockSubgroupsWithRespectToSupergroup_eq_ok.mp h
  obtain ⟨g, hg, rfl⟩ := hall c hc
  obtain ⟨hmem, -, -, hnamed⟩ := mem_namedGroupsOfRealm.mp (hdirect ▸ hg)
  exact ⟨g, hg, hmem, hnamed, rfl⟩

/-- A successful subgroup add finds the named supergroup, when there is something to add, and
every listed group is a named group that is no direct subgroup yet and does not reach the
supergroup. -/
theorem addSubgroupsToGroupBackend_guard
    (h : addSubgroupsToGroupBackend s userProfile userGroupId ids = .ok s') :
    (ids ≠ [] → s.HasNamedGroup userGroupId) ∧ ∀ c ∈ ids, s.HasNamedGroup c ∧
      (userGroupId, c) ∉ s.groupMemberships ∧ ¬ Reaches s.groupMemberships c userGroupId := by
  by_cases hne : ids = []
  · simp [hne]
  obtain ⟨context, hcontext, hfresh, hnotrec, -⟩ := (addSubgroupsToGroupBackend_eq_ok hne).mp h
  obtain ⟨hsuper, -, hrec, -⟩ := lockSubgroupsWithRespectToSupergroup_eq_ok.mp hcontext
  obtain ⟨hmem, hid, -⟩ := accessUserGroupById_eq_ok hsuper
  refine ⟨fun _ => Store.hasNamedGroup_of_access hsuper, fun c hc => ?_⟩
  obtain ⟨g, hg, hgs, hnamed, rfl⟩ := namedGroup_of_lock hcontext hc
  refine ⟨⟨g, hgs, hnamed, rfl⟩, hid ▸ hfresh g hg, fun hr => hnotrec ?_⟩
  rw [hrec, ← hid]
  exact (mem_recursiveSubgroupIds_iff hmem).mpr ⟨g, hg, hid ▸ hr⟩

/-- A successful subgroup remove finds the named supergroup, when there is something to remove,
and every listed group is a named group and a direct subgroup. -/
theorem removeSubgroupsFromGroupBackend_guard
    (h : removeSubgroupsFromGroupBackend s userProfile userGroupId ids = .ok s') :
    (ids ≠ [] → s.HasNamedGroup userGroupId) ∧
      ∀ c ∈ ids, s.HasNamedGroup c ∧ (userGroupId, c) ∈ s.groupMemberships := by
  by_cases hne : ids = []
  · simp [hne]
  obtain ⟨context, hcontext, hall, -⟩ := (removeSubgroupsFromGroupBackend_eq_ok hne).mp h
  obtain ⟨hsuper, -, -, -⟩ := lockSubgroupsWithRespectToSupergroup_eq_ok.mp hcontext
  obtain ⟨-, hid, -⟩ := accessUserGroupById_eq_ok hsuper
  refine ⟨fun _ => Store.hasNamedGroup_of_access hsuper, fun c hc => ?_⟩
  obtain ⟨g, hg, hgs, hnamed, rfl⟩ := namedGroup_of_lock hcontext hc
  exact ⟨⟨g, hgs, hnamed, rfl⟩, hid ▸ hall g hg⟩

end Guards

/-! ## Each view is a step of the machine -/

section Steps

variable {s : Store} {userProfile : UserProfile}

/-- The reachability of the graph is the closure of the subgroup rows. -/
theorem Store.graph_reaches (s : Store) {a b : Int} :
    s.graph.Reaches a b ↔ Reaches s.groupMemberships a b := by
  have hedge : (fun x y => (x, y) ∈ s.graph.subgroups) = SubgroupEdge s.groupMemberships := by
    funext x y
    simp [SubgroupEdge]
  rw [GroupGraph.Reaches, hedge]
  rfl

/-- A view under `transaction.atomic` is a step of the machine when what its body writes is. -/
theorem Request.step_atomic {request : Request} {body : Store → Except String Store}
    (hbody : ∀ s', body s = .ok s' → request.Effect s.graph s'.graph) :
    request.Step s.graph (atomic body s).1.graph (atomic body s).2 := by
  unfold atomic
  split
  · exact hbody _ ‹_›
  · exact .inl rfl

/-- **`access_user_group_for_setting` resolves the value in the graph**: a group id is a named
group, and an anonymous value gets the id the sequence hands out next. -/
theorem resolves_of_accessUserGroupForSetting (hfresh : ¬ s.HasGroup s.nextGroupId)
    {value : GroupSettingValue} {p : Store × UserGroup}
    (h : accessUserGroupForSetting s value userProfile = .ok p) :
    s.graph.Resolves p.1.graph value := by
  rcases accessUserGroupForSetting_eq_ok h with
    ⟨groupId, rfl, hacc, hp⟩ | ⟨v, rfl, users, husers, hall, rfl⟩
  · exact ⟨Store.mem_graph_named.mpr (Store.hasNamedGroup_of_access hacc), by rw [hp]⟩
  · refine ⟨fun c hc => ?_, s.nextGroupId, fun h => hfresh (Store.mem_graph_groups.mp h),
      Store.graph_eq (fun x => ?_) (fun x => ?_) (fun m => ?_) (fun e => ?_)⟩
    · obtain ⟨g, hg, rfl⟩ := hall c hc
      obtain ⟨hmem, -, -, hnamed⟩ := mem_namedGroupsOfRealm.mp hg
      exact Store.mem_graph_named.mpr ⟨g, hmem, hnamed, rfl⟩
    · simp [Store.hasGroup_of_groups_eq_append (createGroup_fst_groups ..), GroupGraph.createGroup]
    · simp [Store.hasNamedGroup_of_groups_eq_append (createGroup_fst_groups ..),
        GroupGraph.createGroup]
    · simp [GroupGraph.createGroup, ← mem_ids_of_userIdsToUsers husers]
    · simp only [createGroup_fst_groupMemberships, GroupGraph.createGroup, List.mem_append,
        Finset.mem_union, Store.mem_graph_subgroups, List.mem_toFinset, List.mem_map]
      refine or_congr_right ⟨?_, ?_⟩
      · rintro ⟨g, hg, rfl⟩
        exact ⟨g.id, (mem_namedGroupsOfRealm.mp hg).2.1, rfl⟩
      · rintro ⟨c, hc, rfl⟩
        obtain ⟨g, hg, rfl⟩ := hall c hc
        exact ⟨g, hg, rfl⟩

/-- **`delete_user_group`** deletes the named group from the graph. -/
theorem deleteUserGroup_step (s : Store) (userProfile : UserProfile) (userGroupId : Int) :
    (Request.deleteUserGroup userGroupId).Step s.graph
      (deleteUserGroup s userProfile userGroupId).1.graph
      (deleteUserGroup s userProfile userGroupId).2 := by
  refine Request.step_atomic fun s' h => ?_
  obtain ⟨userGroup, hacc, hcheck⟩ := deleteUserGroup_body_eq_ok h
  have hnamed := Store.hasNamedGroup_of_access hacc
  obtain ⟨-, rfl, -⟩ := accessUserGroupById_eq_ok hacc
  obtain ⟨-, rfl⟩ := checkDeleteUserGroup_eq_ok hcheck
  refine ⟨Store.mem_graph_named.mpr hnamed, Store.graph_eq (fun x => ?_) (fun x => ?_)
    (fun m => ?_) (fun e => ?_)⟩
  · simp only [Store.HasGroup, List.mem_filter, bne_iff_ne, GroupGraph.deleteGroup,
      Finset.mem_erase, Store.mem_graph_groups]
    exact ⟨fun ⟨g, ⟨hg, hne⟩, hx⟩ => ⟨hx ▸ hne, g, hg, hx⟩,
      fun ⟨hne, g, hg, hx⟩ => ⟨g, ⟨hg, hx ▸ hne⟩, hx⟩⟩
  · simp only [Store.HasNamedGroup, List.mem_filter, bne_iff_ne, GroupGraph.deleteGroup,
      Finset.mem_erase, Store.mem_graph_named]
    exact ⟨fun ⟨g, ⟨hg, hne⟩, hn, hx⟩ => ⟨hx ▸ hne, g, hg, hn, hx⟩,
      fun ⟨hne, g, hg, hn, hx⟩ => ⟨g, ⟨hg, hx ▸ hne⟩, hn, hx⟩⟩
  all_goals simp [GroupGraph.deleteGroup, and_comm]

/-- **`update_user_group_backend`** adds and then removes membership edges of the named group,
under the spec's guards. -/
theorem updateUserGroupBackend_step (s : Store) (userProfile : UserProfile) (userGroupId : Int)
    (delete add : List Int) :
    (Request.updateUserGroupBackend userGroupId delete add).Step s.graph
      (updateUserGroupBackend s userProfile userGroupId delete add).1.graph
      (updateUserGroupBackend s userProfile userGroupId delete add).2 := by
  unfold updateUserGroupBackend
  split
  · exact .inl rfl
  rename_i hne
  refine Request.step_atomic fun s' h => ?_
  obtain ⟨s₁, h₁, h₂⟩ := composeViews_pair_eq_ok.mp h
  obtain ⟨hgroup₁, hadd⟩ := addMembersToGroupBackend_guard h₁
  obtain ⟨hgroup₂, hdel⟩ := removeMembersFromGroupBackend_guard h₂
  obtain ⟨-, hg₁, he₁, hm₁⟩ := memberships_of_addMembersToGroupBackend h₁
  obtain ⟨-, hg₂, he₂, hm₂⟩ := memberships_of_removeMembersFromGroupBackend h₂
  have hlists : add ≠ [] ∨ delete ≠ [] := by
    rw [← not_and_or]
    simpa [List.isEmpty_iff] using hne
  have hdel' : ∀ u ∈ delete, (userGroupId, u) ∈ s.memberships ∨ u ∈ add := fun u hu => by
    simpa using (hm₁ _).mp (hdel u hu)
  refine ⟨hlists, ?_, fun u hu => by simpa using hadd u hu, fun u hu => by simpa using hdel' u hu,
    Store.graph_eq (fun x => ?_) (fun x => ?_) (fun m => ?_) (fun e => ?_)⟩
  · rcases hlists with hl | hl
    · exact Store.mem_graph_named.mpr (hgroup₁ hl)
    · exact Store.mem_graph_named.mpr
        (by simpa only [Store.HasNamedGroup, hg₁] using hgroup₂ hl)
  · simp [Store.HasGroup, hg₂, hg₁, GroupGraph.removeMembers, GroupGraph.addMembers]
  · simp [Store.HasNamedGroup, hg₂, hg₁, GroupGraph.removeMembers, GroupGraph.addMembers]
  · simp only [hm₂, hm₁, GroupGraph.removeMembers, GroupGraph.addMembers, Finset.mem_filter,
      Finset.mem_union, Store.mem_graph_members, GroupGraph.mem_edges]
  · simp [he₂, he₁, GroupGraph.removeMembers, GroupGraph.addMembers]

/-- **`update_subgroups_of_user_group`** adds and then removes subgroup edges of the named group,
under the spec's guards: an added group is no direct subgroup yet and does not reach the group. -/
theorem updateSubgroupsOfUserGroup_step (s : Store) (userProfile : UserProfile)
    (userGroupId : Int) (delete add : List Int) :
    (Request.updateSubgroupsOfUserGroup userGroupId delete add).Step s.graph
      (updateSubgroupsOfUserGroup s userProfile userGroupId delete add).1.graph
      (updateSubgroupsOfUserGroup s userProfile userGroupId delete add).2 := by
  unfold updateSubgroupsOfUserGroup
  split
  · exact .inl rfl
  rename_i hne
  refine Request.step_atomic fun s' h => ?_
  obtain ⟨s₁, h₁, h₂⟩ := composeViews_pair_eq_ok.mp h
  obtain ⟨hgroup₁, hadd⟩ := addSubgroupsToGroupBackend_guard h₁
  obtain ⟨hgroup₂, hdel⟩ := removeSubgroupsFromGroupBackend_guard h₂
  obtain ⟨-, hg₁, hm₁, he₁⟩ := subgroups_of_addSubgroupsToGroupBackend h₁
  obtain ⟨-, hg₂, hm₂, he₂⟩ := subgroups_of_removeSubgroupsFromGroupBackend h₂
  have hlists : add ≠ [] ∨ delete ≠ [] := by
    rw [← not_and_or]
    simpa [List.isEmpty_iff] using hne
  have hnamed : ∀ x, s₁.HasNamedGroup x ↔ s.HasNamedGroup x := fun x => by
    simp only [Store.HasNamedGroup, hg₁]
  refine ⟨hlists, ?_, fun c hc => ?_, fun c hc => ?_,
    Store.graph_eq (fun x => ?_) (fun x => ?_) (fun m => ?_) (fun e => ?_)⟩
  · rcases hlists with hl | hl
    · exact Store.mem_graph_named.mpr (hgroup₁ hl)
    · exact Store.mem_graph_named.mpr ((hnamed _).mp (hgroup₂ hl))
  · obtain ⟨hc₁, hc₂, hc₃⟩ := hadd c hc
    exact ⟨Store.mem_graph_named.mpr hc₁, by simpa using hc₂,
      fun hr => hc₃ ((Store.graph_reaches s).mp hr)⟩
  · obtain ⟨hc₁, hc₂⟩ := hdel c hc
    exact ⟨Store.mem_graph_named.mpr ((hnamed c).mp hc₁), by simpa using (he₁ _).mp hc₂⟩
  · simp [Store.HasGroup, hg₂, hg₁, GroupGraph.removeSubgroups, GroupGraph.addSubgroups]
  · simp [Store.HasNamedGroup, hg₂, hg₁, GroupGraph.removeSubgroups, GroupGraph.addSubgroups]
  · simp [hm₂, hm₁, GroupGraph.removeSubgroups, GroupGraph.addSubgroups]
  · simp only [he₂, he₁, GroupGraph.removeSubgroups, GroupGraph.addSubgroups,
      Finset.mem_filter, Finset.mem_union, Store.mem_graph_subgroups, GroupGraph.mem_edges]

/-- **`edit_user_group`** changes columns of the named group, which the graph does not see, and
may resolve a new setting value. -/
theorem editUserGroup_step (hfresh : ¬ s.HasGroup s.nextGroupId) (userGroupId : Int)
    (name description : Option String) (canMentionGroup : Option GroupSettingRequest) :
    (Request.editUserGroup userGroupId name description canMentionGroup).Step s.graph
      (editUserGroup s userProfile userGroupId name description canMentionGroup).1.graph
      (editUserGroup s userProfile userGroupId name description canMentionGroup).2 := by
  refine Request.step_atomic fun s' h => ?_
  obtain ⟨hsome, userGroup, hacc, s₁, hname, hnone, hvalue⟩ := editUserGroupBody_eq_ok.mp h
  have hnamed := Store.hasNamedGroup_of_access hacc
  obtain ⟨-, rfl, -⟩ := accessUserGroupById_eq_ok hacc
  obtain ⟨_, hrow₁, -⟩ := editGroupName_rowEdit hname
  obtain ⟨_, hrow₂, -⟩ := editGroupDescription_rowEdit s₁ userProfile userGroup description
  have hrow := hrow₁.trans hrow₂
  refine ⟨hsome, Store.mem_graph_named.mpr hnamed, ?_⟩
  cases canMentionGroup with
  | none => exact .inl (by rw [hnone rfl, hrow.graph_eq])
  | some value =>
      obtain ⟨-, -, ⟨-, rfl⟩ | ⟨p, hp, rfl⟩⟩ :=
        editGroupSetting_eq_ok (hvalue value rfl)
      · exact .inl hrow.graph_eq
      · refine .inr ?_
        rw [(doChangeUserGroupPermissionSetting_rowEdit _ _ _ _).graph_eq, ← hrow.graph_eq]
        exact resolves_of_accessUserGroupForSetting (hrow.fresh hfresh) hp

/-- The setting `add_user_group` resolves before `check_add_user_group`. -/
theorem prepareUserGroup_resolves (hv : s.Valid) {name : String} {members : List Int}
    {canMentionGroup : Option GroupSettingRequest}
    {q : Store × List UserProfile × String × Option UserGroup}
    (hq : prepareUserGroup s userProfile name members canMentionGroup = .ok q) :
    s.graph.ResolvesSetting q.1.graph canMentionGroup := by
  rcases (prepareUserGroup_eq_ok hq).2 with ⟨rfl, hq₁, -⟩ | ⟨value, _, rfl, hp, -⟩
  · exact congrArg Store.graph hq₁
  · exact resolves_of_accessUserGroupForSetting hv.schema.not_hasGroup_next hp

/-- **`add_user_group`** resolves its setting and creates a named group with a new id and the
requested members; when `check_add_user_group` refuses, the resolved setting stays. -/
theorem addUserGroup_step (permissionConfig : GroupPermissionSetting) (hv : s.Valid)
    (name : String) (members : List Int) (description : String)
    (canMentionGroup : Option GroupSettingRequest) :
    (Request.addUserGroup name members description canMentionGroup).Step s.graph
      (addUserGroup permissionConfig s userProfile name members description canMentionGroup).1.graph
      (addUserGroup permissionConfig s userProfile name members description canMentionGroup).2 := by
  unfold addUserGroup
  split
  · exact .inl rfl
  rename_i t users name' groupSettingsMap hq
  have hsetting := prepareUserGroup_resolves hv hq
  unfold atomic
  split
  · rename_i s' hbody
    obtain ⟨_, -, hc⟩ := CreatedFrom.of_checkAddUserGroup hbody
    have ht := (valid_prepareUserGroup hv hq).1.schema
    have husers := (prepareUserGroup_eq_ok hq).1
    refine ⟨t.graph, hsetting, t.nextGroupId,
      fun h => ht.not_hasGroup_next (Store.mem_graph_groups.mp h),
      Store.graph_eq (fun x => ?_) (fun x => ?_) (fun m => ?_) (fun e => ?_)⟩
    · simp [Store.hasGroup_of_groups_eq_append hc.groups, GroupGraph.createGroup]
    · simp [Store.hasNamedGroup_of_groups_eq_append hc.groups, GroupGraph.createGroup, eq_comm]
    · simp [hc.memberships, GroupGraph.createGroup, ← mem_ids_of_userIdsToUsers husers]
    · simp [hc.groupMemberships, GroupGraph.createGroup]
  · exact .inr ⟨name, members, description, canMentionGroup, rfl, hsetting⟩

/-- **Each request to the views is one step of the graph machine.** -/
theorem handle_step (permissionConfig : GroupPermissionSetting) (hv : s.Valid)
    (userProfile : UserProfile) (request : Request) :
    request.Step s.graph (handle permissionConfig s userProfile request).1.graph
      (handle permissionConfig s userProfile request).2 := by
  cases request with
  | addUserGroup name members description canMentionGroup =>
      exact addUserGroup_step permissionConfig hv name members description canMentionGroup
  | editUserGroup userGroupId name description canMentionGroup =>
      exact editUserGroup_step hv.schema.not_hasGroup_next userGroupId name description
        canMentionGroup
  | deleteUserGroup userGroupId => exact deleteUserGroup_step s userProfile userGroupId
  | updateUserGroupBackend userGroupId delete add =>
      exact updateUserGroupBackend_step s userProfile userGroupId delete add
  | updateSubgroupsOfUserGroup userGroupId delete add =>
      exact updateSubgroupsOfUserGroup_step s userProfile userGroupId delete add

end Steps

/-! ## Runs -/

/-- The graphs along a run of requests are a run of the machine. -/
theorem graphRun_runRequests (permissionConfig : GroupPermissionSetting) :
    ∀ {s : Store} (requests : List (UserProfile × Request)), s.Valid →
      GraphRun s.graph (requests.map Prod.snd) (runRequests permissionConfig s requests).graph
  | _, [], _ => .nil _
  | _, (userProfile, request) :: rest, hv =>
      .cons _ (handle_step permissionConfig hv userProfile request)
        (graphRun_runRequests permissionConfig rest (valid_handle permissionConfig hv request))

/-- **The views refine the spec's group graph.**  From a store that keeps its constraints, every
request, whatever its outcome, changes the graph of groups and direct edges only as the graph
machine allows for that request and outcome: a success makes exactly the request's change, under
the spec's guards, and a failure changes nothing but may leave `add_user_group`'s resolved
setting.  So the graphs along every run of requests are a run of the machine. -/
theorem runRequests_refines (permissionConfig : GroupPermissionSetting) {s : Store}
    (hv : s.Valid) :
    (∀ (userProfile : UserProfile) (request : Request), request.Step s.graph
      (handle permissionConfig s userProfile request).1.graph
      (handle permissionConfig s userProfile request).2) ∧
    ∀ requests : List (UserProfile × Request), GraphRun s.graph (requests.map Prod.snd)
      (runRequests permissionConfig s requests).graph :=
  ⟨handle_step permissionConfig hv,
    fun requests => graphRun_runRequests permissionConfig requests hv⟩

/-- Ann creates `eng` with herself as its member, and then adds the group `10` under it. -/
theorem runRequests_refines_emptyRealm :
    emptyRealmStore.Valid ∧
      GraphRun emptyRealmStore.graph
        [.addUserGroup "eng" [1] "" none, .updateSubgroupsOfUserGroup 11 [] [10]]
        (runRequests ⟨"role:everyone"⟩ emptyRealmStore
          [(⟨1, 7, "Ann", false, true⟩, .addUserGroup "eng" [1] "" none),
           (⟨1, 7, "Ann", false, true⟩, .updateSubgroupsOfUserGroup 11 [] [10])]).graph :=
  ⟨emptyRealmStore_valid, (runRequests_refines ⟨"role:everyone"⟩ emptyRealmStore_valid).2
    [(⟨1, 7, "Ann", false, true⟩, .addUserGroup "eng" [1] "" none),
     (⟨1, 7, "Ann", false, true⟩, .updateSubgroupsOfUserGroup 11 [] [10])]⟩

/-- A run followed by one more step is a run. -/
theorem GraphRun.append_step {A A₁ A' : GroupGraph} {requests : List Request} {request : Request}
    {outcome : Except String Unit} (h : GraphRun A requests A₁)
    (hstep : request.Step A₁ A' outcome) :
    GraphRun A (requests ++ [request]) A' := by
  induction h with
  | nil => exact .cons outcome hstep (.nil _)
  | cons o hs _ ih => exact .cons o hs (ih hstep)

/-! ## Concurrent membership requests -/

namespace Concurrent

/-- The request to the views a membership request is. -/
def MemberRequest.toRequest (userGroupId : Int) (request : MemberRequest) : Request :=
  .updateUserGroupBackend userGroupId request.delete request.add

/-- Membership requests one after the other are a run of the machine. -/
theorem graphRun_serialRun (s : Store) (userGroupId : Int) (requests : List MemberRequest) :
    GraphRun s.graph (requests.map (MemberRequest.toRequest userGroupId))
      (serialRun s userGroupId requests).1.graph := by
  induction requests using List.reverseRecOn with
  | nil => exact .nil _
  | append_singleton requests request ih =>
      rw [serialRun_append_single, List.map_append]
      exact ih.append_step (updateUserGroupBackend_step _ _ _ _ _)

namespace MemberSystem

/-- **Concurrent membership requests refine the spec's group graph.**  After any schedule of steps
of any `update_user_group_backend` requests on one group, each holding the group's row lock from
before it reads the members until it commits, the graph of the committed store is reached from the
initial graph by a run of the graph machine over the finished requests, in the order they
finished: each commit is one step the machine allows. -/
theorem committed_refines (s₀ : Store) (userGroupId : Int) (requests : List MemberRequest)
    (schedule : List Nat) :
    GraphRun s₀.graph (((init s₀ userGroupId requests).run schedule).log.map fun e =>
        e.2.1.toRequest userGroupId)
      ((init s₀ userGroupId requests).run schedule).committed.graph := by
  have h := (inv_init s₀ userGroupId requests).run schedule
  have hgroup : ((init s₀ userGroupId requests).run schedule).userGroupId = userGroupId :=
    userGroupId_run _ schedule
  have hserial := congrArg Prod.fst h.serial
  rw [hgroup] at hserial
  dsimp only at hserial
  rw [← hserial]
  have hrun := graphRun_serialRun s₀ userGroupId
    (((init s₀ userGroupId requests).run schedule).log.map fun e => e.2.1)
  rwa [List.map_map] at hrun

end MemberSystem

end Concurrent

end Zerver.UserGroups

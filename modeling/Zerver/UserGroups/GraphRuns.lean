import Zerver.UserGroups.Graph

/-!
# What runs of the group graph machine keep

`runRequests_refines` makes every run of the views a run of the spec's group graph machine.  A
property of the machine's runs is then a property of the views: it is proved once, over the
machine's steps, which say in a few lines what each request may do, and carried to the store by
the abstraction function.  Two such properties are here.

## Main Definitions

* `GroupGraph.Subgraph`, `GroupGraph.EffectiveMember` — one graph inside another, and recursive
  membership in a graph.
* `Request.onlyAdds` — a request that removes nothing.
* `GroupGraph.KeepsAnonymous` — what a run may do to an anonymous group: nothing but drop the
  edges to deleted subgroups.

## Main Results

* `GraphRun.subgraph`, and `runRequests_keeps_of_onlyAdds` for the views: a run whose requests
  remove nothing keeps every group, row and effective membership.
* `GraphRun.keepsAnonymous`, and `runRequests_anonymous_owned` for the views: an anonymous group is
  never deleted or edited, its members never change, and it loses a subgroup only to a
  `delete_user_group` of that subgroup.

## Design Notes

**Step, then run.**  Each property is a relation between the graphs before and after, closed under
composition; one lemma shows that every step of the machine is in it, whatever the outcome, and
the run lemma is an induction over `GraphRun`.  Neither looks at the store: that a named group's
id is not an anonymous group's is the abstraction's business (`Store.Schema` makes ids a key).
-/

namespace Zerver.UserGroups

/-! ## Runs that only add -/

namespace GroupGraph

/-- **`A` is a subgraph of `B`**: every group, named group and edge of `A` is in `B`. -/
structure Subgraph (A B : GroupGraph) : Prop where
  groups : A.groups ⊆ B.groups
  named : A.named ⊆ B.named
  members : A.members ⊆ B.members
  subgroups : A.subgroups ⊆ B.subgroups

/-- A user is an **effective member** of a group: a direct member of it or of one of its
recursive subgroups. -/
def EffectiveMember (A : GroupGraph) (g u : Int) : Prop :=
  ∃ m, A.Reaches g m ∧ (m, u) ∈ A.members

namespace Subgraph

variable {A B C : GroupGraph}

theorem refl (A : GroupGraph) : A.Subgraph A :=
  ⟨subset_rfl, subset_rfl, subset_rfl, subset_rfl⟩

theorem trans (h₁ : A.Subgraph B) (h₂ : B.Subgraph C) : A.Subgraph C :=
  ⟨h₁.groups.trans h₂.groups, h₁.named.trans h₂.named, h₁.members.trans h₂.members,
    h₁.subgroups.trans h₂.subgroups⟩

/-- More edges keep every effective membership. -/
theorem effectiveMember (h : A.Subgraph B) {g u : Int} (hm : A.EffectiveMember g u) :
    B.EffectiveMember g u := by
  obtain ⟨m, hr, hmem⟩ := hm
  exact ⟨m, hr.mono fun _ _ hxy => h.subgroups hxy, h.members hmem⟩

end Subgraph

variable {A A' : GroupGraph}

theorem subgraph_createGroup (g : Int) (isNamed : Bool) (memberIds subgroupIds : List Int) :
    A.Subgraph (A.createGroup g isNamed memberIds subgroupIds) :=
  ⟨Finset.subset_insert _ _, by cases isNamed <;> simp [createGroup, Finset.subset_insert],
    Finset.subset_union_left, Finset.subset_union_left⟩

/-- Removing no member, or no subgroup, changes nothing. -/
@[simp] theorem removeMembers_nil (g : Int) : A.removeMembers g [] = A := by
  simp [removeMembers]

@[simp] theorem removeSubgroups_nil (g : Int) : A.removeSubgroups g [] = A := by
  simp [removeSubgroups]

/-- Resolving a setting value only adds. -/
theorem Resolves.subgraph {value : GroupSettingValue} (h : A.Resolves A' value) :
    A.Subgraph A' := by
  cases value with
  | groupId => exact h.2 ▸ .refl A
  | anonymous value =>
      obtain ⟨-, a, -, rfl⟩ := h
      exact subgraph_createGroup a false _ _

theorem ResolvesSetting.subgraph {canMentionGroup : Option GroupSettingRequest}
    (h : A.ResolvesSetting A' canMentionGroup) : A.Subgraph A' := by
  cases canMentionGroup with
  | none => exact (show A' = A from h) ▸ .refl A
  | some value => exact Resolves.subgraph h

end GroupGraph

/-- A request that removes nothing: no `delete_user_group`, and no delete list. -/
def Request.onlyAdds : Request → Bool
  | .addUserGroup .. | .editUserGroup .. => true
  | .deleteUserGroup _ => false
  | .updateUserGroupBackend _ delete _ | .updateSubgroupsOfUserGroup _ delete _ => delete.isEmpty

/-- **A step of a request that removes nothing only adds**, whatever its outcome. -/
theorem Request.Step.subgraph {request : Request} {A A' : GroupGraph}
    {outcome : Except String Unit} (h : request.Step A A' outcome)
    (hadds : request.onlyAdds = true) : A.Subgraph A' := by
  rcases outcome with _ | ⟨⟩
  · rcases h with rfl | ⟨_, _, _, _, rfl, hs⟩
    · exact .refl _
    · exact hs.subgraph
  cases request with
  | addUserGroup =>
      obtain ⟨A₁, hs, g, -, rfl⟩ := h
      exact hs.subgraph.trans (GroupGraph.subgraph_createGroup g true _ _)
  | editUserGroup =>
      obtain ⟨-, -, rfl | hs⟩ := h
      exacts [.refl _, hs.subgraph]
  | deleteUserGroup => cases hadds
  | updateUserGroupBackend g delete add =>
      obtain rfl : delete = [] := List.isEmpty_iff.mp hadds
      obtain ⟨-, -, -, -, rfl⟩ := h
      exact ⟨subset_rfl, subset_rfl, by simp [GroupGraph.addMembers], subset_rfl⟩
  | updateSubgroupsOfUserGroup g delete add =>
      obtain rfl : delete = [] := List.isEmpty_iff.mp hadds
      obtain ⟨-, -, -, -, rfl⟩ := h
      exact ⟨subset_rfl, subset_rfl, subset_rfl, by simp [GroupGraph.addSubgroups]⟩

/-- A run of requests that remove nothing only adds. -/
theorem GraphRun.subgraph {A A' : GroupGraph} {requests : List Request}
    (h : GraphRun A requests A') (hadds : ∀ r ∈ requests, r.onlyAdds = true) :
    A.Subgraph A' := by
  induction h with
  | nil => exact .refl _
  | cons _ hstep _ ih =>
      exact (hstep.subgraph (hadds _ (List.mem_cons_self _ _))).trans
        (ih fun r hr => hadds r (List.mem_cons_of_mem _ hr))

/-- Effective membership in the graph of a store is effective membership in the store. -/
theorem Store.graph_effectiveMember {s : Store} {g u : Int} :
    s.graph.EffectiveMember g u ↔ EffectiveMember s g u := by
  simp only [GroupGraph.EffectiveMember, Store.graph_reaches, Store.mem_graph_members,
    EffectiveMember]

/-- **Runs that remove nothing lose nothing.**  From a store that keeps its constraints, a run of
requests none of which is a `delete_user_group` or has a delete list keeps every group, every
membership row and every subgroup row, and so every effective membership: whatever succeeds or
fails, no such run revokes anyone's membership of any group, direct or recursive. -/
theorem runRequests_keeps_of_onlyAdds (permissionConfig : GroupPermissionSetting) {s : Store}
    (hv : s.Valid) (requests : List (UserProfile × Request))
    (hadds : ∀ p ∈ requests, p.2.onlyAdds = true) :
    (∀ x, s.HasGroup x → (runRequests permissionConfig s requests).HasGroup x) ∧
      (∀ m ∈ s.memberships, m ∈ (runRequests permissionConfig s requests).memberships) ∧
      (∀ e ∈ s.groupMemberships,
        e ∈ (runRequests permissionConfig s requests).groupMemberships) ∧
      ∀ g u, EffectiveMember s g u →
        EffectiveMember (runRequests permissionConfig s requests) g u := by
  have hsub := (graphRun_runRequests permissionConfig requests hv).subgraph fun r hr => by
    obtain ⟨p, hp, rfl⟩ := List.mem_map.mp hr
    exact hadds p hp
  refine ⟨fun x hx => ?_, fun m hm => ?_, fun e he => ?_, fun g u h => ?_⟩
  · simpa using hsub.groups (Store.mem_graph_groups.mpr hx)
  · simpa using hsub.members (Store.mem_graph_members.mpr hm)
  · simpa using hsub.subgroups (Store.mem_graph_subgroups.mpr he)
  · exact Store.graph_effectiveMember.mp (hsub.effectiveMember (Store.graph_effectiveMember.mpr h))

/-- Ann creates `eng` with herself as its member, and then adds the group `10` under it. -/
theorem runRequests_keeps_of_onlyAdds_emptyRealm :
    emptyRealmStore.Valid ∧
      (∀ p ∈ [((⟨1, 7, "Ann", false, true⟩ : UserProfile),
          Request.addUserGroup "eng" [1] "" none),
        (⟨1, 7, "Ann", false, true⟩, .updateSubgroupsOfUserGroup 11 [] [10])],
        p.2.onlyAdds = true) ∧
      ∀ g u, EffectiveMember emptyRealmStore g u →
        EffectiveMember (runRequests ⟨"role:everyone"⟩ emptyRealmStore
          [(⟨1, 7, "Ann", false, true⟩, .addUserGroup "eng" [1] "" none),
           (⟨1, 7, "Ann", false, true⟩, .updateSubgroupsOfUserGroup 11 [] [10])]) g u :=
  ⟨emptyRealmStore_valid, by decide,
    (runRequests_keeps_of_onlyAdds ⟨"role:everyone"⟩ emptyRealmStore_valid _
      (by decide)).2.2.2⟩

/-! ## Anonymous groups belong to their setting -/

namespace GroupGraph

/-- **`A'` keeps the anonymous group `a` of `A`**: `a` is still an anonymous group, its membership
edges are the same, it has gained no subgroup edge, and it has lost one only to a group `deleted`
names. -/
structure KeepsAnonymous (deleted : Int → Prop) (A A' : GroupGraph) (a : Int) : Prop where
  group : a ∈ A'.groups
  unnamed : a ∉ A'.named
  members : ∀ u, (a, u) ∈ A'.members ↔ (a, u) ∈ A.members
  subgroups : ∀ c, (a, c) ∈ A'.subgroups → (a, c) ∈ A.subgroups
  lost : ∀ c, (a, c) ∈ A.subgroups → (a, c) ∉ A'.subgroups → deleted c

namespace KeepsAnonymous

variable {deleted deleted' : Int → Prop} {A A₁ A' : GroupGraph} {a : Int}

theorem refl (ha : a ∈ A.groups) (hna : a ∉ A.named) : KeepsAnonymous deleted A A a :=
  ⟨ha, hna, fun _ => Iff.rfl, fun _ h => h, fun _ h h' => absurd h h'⟩

theorem mono (h : KeepsAnonymous deleted A A' a) (hmono : ∀ c, deleted c → deleted' c) :
    KeepsAnonymous deleted' A A' a :=
  ⟨h.group, h.unnamed, h.members, h.subgroups, fun c hc hc' => hmono c (h.lost c hc hc')⟩

theorem trans (h₁ : KeepsAnonymous deleted A A₁ a) (h₂ : KeepsAnonymous deleted' A₁ A' a) :
    KeepsAnonymous (fun c => deleted c ∨ deleted' c) A A' a := by
  refine ⟨h₂.group, h₂.unnamed, fun u => (h₂.members u).trans (h₁.members u),
    fun c hc => h₁.subgroups c (h₂.subgroups c hc), fun c hc hc' => ?_⟩
  by_cases hc₁ : (a, c) ∈ A₁.subgroups
  · exact .inr (h₂.lost c hc₁ hc')
  · exact .inl (h₁.lost c hc hc₁)

/-- A new group has a new id, so it is not the anonymous group. -/
theorem createGroup (ha : a ∈ A.groups) (hna : a ∉ A.named) {g : Int} (hg : g ∉ A.groups)
    (isNamed : Bool) (memberIds subgroupIds : List Int) :
    KeepsAnonymous deleted A (A.createGroup g isNamed memberIds subgroupIds) a := by
  have hne : a ≠ g := fun h => hg (h ▸ ha)
  refine ⟨Finset.mem_insert_of_mem ha, ?_, fun u => ?_, fun c hc => ?_, fun c hc hc' => ?_⟩
  · cases isNamed <;> simp [GroupGraph.createGroup, hne, hna]
  · simp [GroupGraph.createGroup, mem_edges, hne, Ne.symm hne]
  · simpa [GroupGraph.createGroup, mem_edges, hne, Ne.symm hne] using hc
  · exact absurd (Finset.mem_union_left _ hc) hc'

/-- Changing the edges of a named group leaves the anonymous group's edges. -/
theorem of_edges (ha : a ∈ A.groups) (hna : a ∉ A.named) (hgroups : A'.groups = A.groups)
    (hnamed : A'.named = A.named) (hmembers : ∀ u, (a, u) ∈ A'.members ↔ (a, u) ∈ A.members)
    (hsubgroups : ∀ c, (a, c) ∈ A'.subgroups ↔ (a, c) ∈ A.subgroups) :
    KeepsAnonymous deleted A A' a :=
  ⟨hgroups ▸ ha, hnamed ▸ hna, hmembers, fun c => (hsubgroups c).mp,
    fun c hc hc' => absurd ((hsubgroups c).mpr hc) hc'⟩

end KeepsAnonymous

variable {A A' : GroupGraph} {a : Int}

theorem Resolves.keepsAnonymous {deleted : Int → Prop} {value : GroupSettingValue}
    (h : A.Resolves A' value) (ha : a ∈ A.groups) (hna : a ∉ A.named) :
    KeepsAnonymous deleted A A' a := by
  cases value with
  | groupId =>
      obtain ⟨-, rfl⟩ := h
      exact .refl ha hna
  | anonymous value =>
      obtain ⟨-, g, hg, rfl⟩ := h
      exact .createGroup ha hna hg false _ _

theorem ResolvesSetting.keepsAnonymous {deleted : Int → Prop}
    {canMentionGroup : Option GroupSettingRequest} (h : A.ResolvesSetting A' canMentionGroup)
    (ha : a ∈ A.groups) (hna : a ∉ A.named) : KeepsAnonymous deleted A A' a := by
  cases canMentionGroup with
  | none =>
      obtain rfl : A' = A := h
      exact .refl ha hna
  | some value => exact Resolves.keepsAnonymous h ha hna

end GroupGraph

open GroupGraph in
/-- **A step keeps every anonymous group**: no request names one, so it stays with its edges,
except for the edge to the group a `delete_user_group` deletes. -/
theorem Request.Step.keepsAnonymous {request : Request} {A A' : GroupGraph}
    {outcome : Except String Unit} (h : request.Step A A' outcome) {a : Int} (ha : a ∈ A.groups)
    (hna : a ∉ A.named) : KeepsAnonymous (fun c => request = .deleteUserGroup c) A A' a := by
  rcases outcome with _ | ⟨⟩
  · rcases h with rfl | ⟨_, _, _, _, -, hs⟩
    · exact .refl ha hna
    · exact hs.keepsAnonymous ha hna
  cases request with
  | addUserGroup _ members =>
      obtain ⟨A₁, hs, g, hg, rfl⟩ := h
      have h₁ : KeepsAnonymous (fun _ => False) A A₁ a := hs.keepsAnonymous ha hna
      have h₂ : KeepsAnonymous (fun _ => False) A₁ (A₁.createGroup g true members []) a :=
        .createGroup h₁.group h₁.unnamed hg true _ _
      exact (h₁.trans h₂).mono fun _ h => h.elim False.elim False.elim
  | editUserGroup =>
      obtain ⟨-, -, rfl | hs⟩ := h
      exacts [.refl ha hna, hs.keepsAnonymous ha hna]
  | deleteUserGroup g =>
      obtain ⟨hg, rfl⟩ := h
      have hne : a ≠ g := fun h => hna (h ▸ hg)
      refine ⟨by simp [deleteGroup, hne, ha], by simp [deleteGroup, hna], fun u => ?_,
        fun c hc => ?_, fun c hc hc' => ?_⟩
      · simp [deleteGroup, hne]
      · simp only [deleteGroup, Finset.mem_filter] at hc
        exact hc.1
      · by_contra hcg
        exact hc' (Finset.mem_filter.mpr ⟨hc, hne, fun h => hcg (congrArg _ h.symm)⟩)
  | updateUserGroupBackend g delete add =>
      obtain ⟨-, hg, -, -, rfl⟩ := h
      have hne : a ≠ g := fun h => hna (h ▸ hg)
      exact .of_edges ha hna rfl rfl
        (fun u => by simp [removeMembers, addMembers, mem_edges, hne, Ne.symm hne]) fun _ => Iff.rfl
  | updateSubgroupsOfUserGroup g delete add =>
      obtain ⟨-, hg, -, -, rfl⟩ := h
      have hne : a ≠ g := fun h => hna (h ▸ hg)
      exact .of_edges ha hna rfl rfl (fun _ => Iff.rfl)
        fun c => by simp [removeSubgroups, addSubgroups, mem_edges, hne, Ne.symm hne]

/-- A run keeps every anonymous group, except for the edges to the groups its
`delete_user_group` requests name. -/
theorem GraphRun.keepsAnonymous {A A' : GroupGraph} {requests : List Request}
    (h : GraphRun A requests A') {a : Int} (ha : a ∈ A.groups) (hna : a ∉ A.named) :
    GroupGraph.KeepsAnonymous (fun c => .deleteUserGroup c ∈ requests) A A' a := by
  induction h with
  | nil => exact .refl ha hna
  | cons _ hstep _ ih =>
      have h₁ := hstep.keepsAnonymous ha hna
      exact (h₁.trans (ih h₁.group h₁.unnamed)).mono fun c hc => by
        rcases hc with rfl | hc
        · exact List.mem_cons_self _ _
        · exact List.mem_cons_of_mem _ hc

/-- **Anonymous groups belong to their setting.**  From a store that keeps its constraints, take
an anonymous group, one `access_user_group_for_setting` created for a setting.  Whatever requests
run, each succeeding or failing, the group is still there and still anonymous, its direct members
are the same, it has gained no direct subgroup, and it has lost one only if a `delete_user_group`
request of the run named that subgroup.  No view can reach an anonymous group by its id. -/
theorem runRequests_anonymous_owned (permissionConfig : GroupPermissionSetting) {s : Store}
    (hv : s.Valid) (requests : List (UserProfile × Request)) {g : UserGroup} (hg : g ∈ s.groups)
    (hanonymous : g.isNamed = false) :
    (∃ g' ∈ (runRequests permissionConfig s requests).groups,
        g'.id = g.id ∧ g'.isNamed = false) ∧
      (∀ u, (g.id, u) ∈ (runRequests permissionConfig s requests).memberships ↔
        (g.id, u) ∈ s.memberships) ∧
      (∀ c, (g.id, c) ∈ (runRequests permissionConfig s requests).groupMemberships →
        (g.id, c) ∈ s.groupMemberships) ∧
      ∀ c, (g.id, c) ∈ s.groupMemberships →
        (g.id, c) ∉ (runRequests permissionConfig s requests).groupMemberships →
        ∃ userProfile, (userProfile, Request.deleteUserGroup c) ∈ requests := by
  have hna : g.id ∉ s.graph.named := fun h => by
    obtain ⟨g', hg', hnamed, hid⟩ := Store.mem_graph_named.mp h
    rw [List.inj_on_of_nodup_map hv.schema.groupIdsNodup hg' hg hid] at hnamed
    simp [hnamed] at hanonymous
  have hkeep := (graphRun_runRequests permissionConfig requests hv).keepsAnonymous
    (Store.mem_graph_groups.mpr ⟨g, hg, rfl⟩) hna
  have hsub : ∀ c, (g.id, c) ∈ (runRequests permissionConfig s requests).groupMemberships →
      (g.id, c) ∈ s.groupMemberships := fun c hc => by
    simpa using hkeep.subgroups c (Store.mem_graph_subgroups.mpr hc)
  refine ⟨?_, fun u => by simpa using hkeep.members u, hsub, fun c hc hc' => ?_⟩
  · obtain ⟨g', hg', hid⟩ := Store.mem_graph_groups.mp hkeep.group
    refine ⟨g', hg', hid, Bool.eq_false_iff.mpr fun hnamed => hkeep.unnamed ?_⟩
    exact Store.mem_graph_named.mpr ⟨g', hg', hnamed, hid⟩
  · obtain ⟨p, hp, hreq⟩ := List.mem_map.mp (hkeep.lost c (Store.mem_graph_subgroups.mpr hc)
      (fun h => hc' (Store.mem_graph_subgroups.mp h)))
    exact ⟨p.1, hreq ▸ hp⟩

/-- The anonymous group `6` of a setting has the subgroup `5`; deleting `5` is the one way it
loses it. -/
theorem runRequests_anonymous_owned_singleSubgroup :
    singleSubgroupStore.Valid ∧
      (⟨6, 1, false, "", "", 0⟩ : UserGroup) ∈ singleSubgroupStore.groups ∧
      (⟨6, 1, false, "", "", 0⟩ : UserGroup).isNamed = false ∧
      (∀ c, (6, c) ∈ (runRequests ⟨"role:everyone"⟩ singleSubgroupStore
          [(⟨1, 1, "Ann", false, true⟩, .deleteUserGroup 5)]).groupMemberships →
        (6, c) ∈ singleSubgroupStore.groupMemberships) ∧
      ∀ c, (6, c) ∈ singleSubgroupStore.groupMemberships →
        (6, c) ∉ (runRequests ⟨"role:everyone"⟩ singleSubgroupStore
          [(⟨1, 1, "Ann", false, true⟩, .deleteUserGroup 5)]).groupMemberships →
        ∃ userProfile, (userProfile, Request.deleteUserGroup c) ∈
          [((⟨1, 1, "Ann", false, true⟩ : UserProfile), Request.deleteUserGroup 5)] :=
  have hv : singleSubgroupStore.Valid :=
    ⟨⟨by decide, by decide, by decide, by decide, by decide, by decide, by decide⟩,
      (@Acyclic.append_from [] 6 [5] acyclic_nil fun c hc hr => by
        rw [List.mem_singleton] at hc
        subst hc
        exact absurd (hr.eq_of_no_row_from fun _ h => absurd h (List.not_mem_nil _)) (by decide)),
      by decide, List.nodup_nil⟩
  have howned := @runRequests_anonymous_owned ⟨"role:everyone"⟩ singleSubgroupStore hv
    [(⟨1, 1, "Ann", false, true⟩, .deleteUserGroup 5)] ⟨6, 1, false, "", "", 0⟩ (by decide)
    rfl
  ⟨hv, by decide, rfl, howned.2.2.1, howned.2.2.2⟩

end Zerver.UserGroups

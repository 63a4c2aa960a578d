import Zerver.UserGroups.Invariant

/-!
# Realms

Every lookup of the views is scoped to the acting user's realm, and every row a view writes joins
entities it looked up.  So a request changes no row of another realm and creates no row across two
realms, as long as the store has no such row to begin with: a subgroup row from a group of another
realm into a group the request deletes goes with it (`deleteUserGroup_cross_realm`).  What a
request reads is the subject of `Zerver.UserGroups.Noninterference`.

## Main Definitions

* `Store.RealmConsistent` — no membership row, subgroup row or setting joins two realms.
* `Store.GroupKeys` — group ids are distinct and below the id sequence.
* `Store.realmRows` — the rows of one realm: its groups, and the membership and subgroup rows of
  its groups, in table order.
* `RealmStep` — a change of the store that keeps its group keys, keeps it realm-consistent, and
  changes no user and no row of any realm but one.

## Design Notes

The frame lemmas need group ids to be a key (`Store.GroupKeys`, two of the constraints of
`Store.Schema`): a row is a row of realm `r` when its group's id is the id of a group of `r`, and
the group a view writes to is of the acting user's realm only because no other row has its id.
Nothing else is assumed of the store; its subgroup rows may have cycles or duplicates.  Each kind
of write has one consistency lemma, one key lemma and one frame lemma below; each view is then a
`RealmStep` assembled from the spec lemmas of its helpers.
-/

namespace Zerver.UserGroups

namespace RowEdit

variable {s t : Store} {groupId : Int} {f : UserGroup → UserGroup}

/-- The row an update leaves in place of `g` is of `g`'s realm. -/
theorem map_realm (h : RowEdit s t groupId f) (g : UserGroup) :
    (if g.id = groupId then f g else g).realm = g.realm := by
  split
  · exact (h.keepsKey g).2.1
  · rfl

/-- Every row has a successor with its id and realm. -/
theorem exists_row (h : RowEdit s t groupId f) {g : UserGroup} (hg : g ∈ s.groups) :
    ∃ g' ∈ t.groups, g'.id = g.id ∧ g'.realm = g.realm :=
  ⟨_, h.groups ▸ List.mem_map_of_mem _ hg, h.map_id g, h.map_realm g⟩

end RowEdit

namespace Store

/-- **No row joins two realms**: a membership row joins a group and a user of one realm, a
subgroup row two groups of one realm, and a named group's setting names a group of its realm. -/
structure RealmConsistent (s : Store) : Prop where
  memberships : ∀ m ∈ s.memberships, ∃ g ∈ s.groups, ∃ u ∈ s.users,
    g.id = m.1 ∧ u.id = m.2 ∧ u.realm = g.realm
  groupMemberships : ∀ e ∈ s.groupMemberships, ∃ g ∈ s.groups, ∃ h ∈ s.groups,
    g.id = e.1 ∧ h.id = e.2 ∧ h.realm = g.realm
  settings : ∀ g ∈ s.groups, g.isNamed = true →
    ∃ h ∈ s.groups, h.id = g.canMentionGroup ∧ h.realm = g.realm

/-- Whether a group id is the id of a group of the realm. -/
def groupInRealm (s : Store) (realm : Nat) (groupId : Int) : Bool :=
  s.groups.any fun g => g.id == groupId && g.realm == realm

/-- **The rows of one realm**: its groups with all their columns, and the membership and subgroup
rows of its groups, in table order. -/
def realmRows (s : Store) (realm : Nat) : List UserGroup × List (Int × Int) × List (Int × Int) :=
  (s.groups.filter (·.realm == realm), s.memberships.filter (s.groupInRealm realm ·.1),
    s.groupMemberships.filter (s.groupInRealm realm ·.1))

variable {s t : Store} {realm : Nat}

/-- Which ids are of the realm depends only on the realm's groups. -/
theorem groupInRealm_congr
    (h : t.groups.filter (·.realm == realm) = s.groups.filter (·.realm == realm)) :
    t.groupInRealm realm = s.groupInRealm realm := by
  funext x
  have := congrArg (List.any · (·.id == x)) h
  simp only [List.any_filter] at this
  simpa [groupInRealm, Bool.and_comm] using this

/-- The realm's rows agree when its groups do and the two membership tables agree on the rows of
its groups. -/
theorem realmRows_eq
    (hg : t.groups.filter (·.realm == realm) = s.groups.filter (·.realm == realm))
    (hm : t.memberships.filter (s.groupInRealm realm ·.1) =
      s.memberships.filter (s.groupInRealm realm ·.1))
    (he : t.groupMemberships.filter (s.groupInRealm realm ·.1) =
      s.groupMemberships.filter (s.groupInRealm realm ·.1)) :
    t.realmRows realm = s.realmRows realm := by
  simp only [realmRows, groupInRealm_congr hg, hg, hm, he]

/-! ## Group keys -/

/-- **Group ids are a key drawn from the id sequence**: no two group rows share an id, and every id
is below the sequence's next value.  Of the database's constraints (`Schema`) these two tell which
realm a row is of. -/
structure GroupKeys (s : Store) : Prop where
  groupIdsNodup : (s.groups.map UserGroup.id).Nodup
  id_lt_next : ∀ g ∈ s.groups, g.id < s.nextGroupId

/-- Two group rows with one id are one row. -/
theorem GroupKeys.eq_of_id_eq (hk : s.GroupKeys) {g h : UserGroup} (hg : g ∈ s.groups)
    (hh : h ∈ s.groups) (hid : g.id = h.id) : g = h :=
  List.inj_on_of_nodup_map hk.groupIdsNodup hg hh hid

/-- With group ids a key, the id of a group is of that group's realm only. -/
theorem GroupKeys.groupInRealm_of_mem (hk : s.GroupKeys) {g : UserGroup} (hg : g ∈ s.groups) :
    s.groupInRealm realm g.id = (g.realm == realm) := by
  rw [Bool.eq_iff_iff]
  simp only [groupInRealm, List.any_eq_true, Bool.and_eq_true, beq_iff_eq]
  constructor
  · rintro ⟨g', hg', hid, hr⟩
    rwa [← hk.eq_of_id_eq hg' hg hid]
  · exact fun hr => ⟨g, hg, rfl, hr⟩

/-- No id the sequence has not handed out is of any realm. -/
theorem GroupKeys.groupInRealm_next (hk : s.GroupKeys) :
    s.groupInRealm realm s.nextGroupId = false := by
  simp only [groupInRealm, List.any_eq_false, Bool.and_eq_true, beq_iff_eq, not_and]
  exact fun g hg hid => absurd hid (hk.id_lt_next g hg).ne

/-- Keeping some of the group rows, and the sequence, keeps the keys. -/
theorem GroupKeys.sublist (hk : s.GroupKeys) (hsub : t.groups.Sublist s.groups)
    (hn : t.nextGroupId = s.nextGroupId) : t.GroupKeys :=
  ⟨hk.groupIdsNodup.sublist (hsub.map _), fun g hg => hn ▸ hk.id_lt_next g (hsub.subset hg)⟩

/-- An update of a group's columns keeps the keys. -/
theorem GroupKeys.rowEdit (hk : s.GroupKeys) {groupId : Int} {f : UserGroup → UserGroup}
    (hedit : RowEdit s t groupId f) : t.GroupKeys := by
  have hids : t.groups.map UserGroup.id = s.groups.map UserGroup.id := by
    rw [hedit.groups]
    exact modifyGroup_ids fun g => (hedit.keepsKey g).1
  refine ⟨hids ▸ hk.groupIdsNodup, fun g hg => ?_⟩
  obtain ⟨g', hg', hid⟩ := List.mem_map.mp (hids ▸ List.mem_map_of_mem UserGroup.id hg)
  rw [hedit.nextGroupId, ← hid]
  exact hk.id_lt_next g' hg'

/-- A new group takes the sequence's next value, which no group has, and advances it. -/
theorem GroupKeys.createGroup (hk : s.GroupKeys) {r : Nat} {isNamed : Bool}
    {name description : String} {canMentionGroup : Int} {members : List UserProfile}
    {subgroups : List UserGroup} (actingUser : UserProfile) :
    (s.createGroup r isNamed name description canMentionGroup members subgroups
      actingUser).1.GroupKeys := by
  refine ⟨?_, fun g hg => ?_⟩
  · rw [createGroup_fst_groups, List.map_append, List.map_singleton]
    refine List.nodup_append.mpr ⟨hk.groupIdsNodup, List.nodup_singleton _, fun x hx hxn => ?_⟩
    obtain ⟨g, hg, rfl⟩ := List.mem_map.mp hx
    exact (hk.id_lt_next g hg).ne (List.mem_singleton.mp hxn)
  · rw [createGroup_fst_nextGroupId]
    rcases List.mem_append.mp hg with hg | hg
    · exact lt_trans (hk.id_lt_next g hg) (Int.lt_succ _)
    · exact (List.mem_singleton.mp hg) ▸ Int.lt_succ _

/-! ## Realm consistency, write by write -/

theorem RealmConsistent.withLog (h : s.RealmConsistent) (l : List AuditLogEntry) :
    { s with auditLog := l }.RealmConsistent :=
  ⟨h.1, h.2, h.3⟩

theorem RealmConsistent.withSentMessages (h : s.RealmConsistent) (ms : List (List Message)) :
    { s with sentMessages := ms }.RealmConsistent :=
  ⟨h.1, h.2, h.3⟩

/-- Dropping membership or subgroup rows keeps the store realm-consistent. -/
theorem RealmConsistent.shrink (h : s.RealmConsistent) (hu : t.users = s.users)
    (hg : t.groups = s.groups) (hm : ∀ m ∈ t.memberships, m ∈ s.memberships)
    (he : ∀ e ∈ t.groupMemberships, e ∈ s.groupMemberships) : t.RealmConsistent := by
  refine ⟨fun m hm' => ?_, fun e he' => ?_, fun g hg' => ?_⟩
  · rw [hg, hu]
    exact h.memberships m (hm m hm')
  · rw [hg]
    exact h.groupMemberships e (he e he')
  · rw [hg] at hg' ⊢
    exact h.settings g hg'

/-- Membership rows that join a group and a user of one realm. -/
theorem RealmConsistent.appendMemberships (h : s.RealmConsistent) (rows : List (Int × Int))
    (hrows : ∀ m ∈ rows, ∃ g ∈ s.groups, ∃ u ∈ s.users,
      g.id = m.1 ∧ u.id = m.2 ∧ u.realm = g.realm) :
    { s with memberships := s.memberships ++ rows }.RealmConsistent :=
  ⟨fun m hm => (List.mem_append.mp hm).elim (h.memberships m) (hrows m), h.2, h.3⟩

/-- Subgroup rows that join two groups of one realm. -/
theorem RealmConsistent.appendSubgroupRows (h : s.RealmConsistent) (rows : List (Int × Int))
    (hrows : ∀ e ∈ rows, ∃ g ∈ s.groups, ∃ h ∈ s.groups,
      g.id = e.1 ∧ h.id = e.2 ∧ h.realm = g.realm) :
    { s with groupMemberships := s.groupMemberships ++ rows }.RealmConsistent :=
  ⟨h.1, fun e he => (List.mem_append.mp he).elim (h.groupMemberships e) (hrows e), h.3⟩

/-- An update of a group's columns that keeps its key, and leaves its setting naming a group of
its realm. -/
theorem RealmConsistent.rowEdit (h : s.RealmConsistent) {groupId : Int}
    {f : UserGroup → UserGroup} (hedit : RowEdit s t groupId f)
    (hsetting : ∀ g ∈ s.groups, g.id = groupId → (f g).isNamed = true →
      ∃ h ∈ s.groups, h.id = (f g).canMentionGroup ∧ h.realm = g.realm) :
    t.RealmConsistent := by
  have hkeep : ∀ g ∈ s.groups, ∃ g' ∈ t.groups, g'.id = g.id ∧ g'.realm = g.realm :=
    fun _ hg => hedit.exists_row hg
  refine ⟨fun m hm => ?_, fun e he => ?_, fun g' hg' hnamed => ?_⟩
  · obtain ⟨g, hg, u, hu, hid, huid, hr⟩ := h.memberships m (hedit.memberships ▸ hm)
    obtain ⟨g', hg', hid', hr'⟩ := hkeep g hg
    exact ⟨g', hg', u, hedit.users ▸ hu, hid'.trans hid, huid, hr.trans hr'.symm⟩
  · obtain ⟨g, hg, k, hk, hid, hkid, hr⟩ := h.groupMemberships e (hedit.groupMemberships ▸ he)
    obtain ⟨g', hg', hid', hr'⟩ := hkeep g hg
    obtain ⟨k', hk', hkid', hkr'⟩ := hkeep k hk
    exact ⟨g', hg', k', hk', hid'.trans hid, hkid'.trans hkid, hkr'.trans (hr.trans hr'.symm)⟩
  · rw [hedit.groups] at hg'
    obtain ⟨g, hg, rfl⟩ := List.mem_map.mp hg'
    obtain ⟨k, hk, hkid, hkr⟩ : ∃ k ∈ s.groups,
        k.id = (if g.id = groupId then f g else g).canMentionGroup ∧ k.realm = g.realm := by
      by_cases hgid : g.id = groupId
      · simp only [hgid, if_true] at hnamed ⊢
        exact hsetting g hg hgid hnamed
      · simp only [hgid, if_false] at hnamed ⊢
        exact h.settings g hg hnamed
    obtain ⟨k', hk', hkid', hkr'⟩ := hkeep k hk
    exact ⟨k', hk', hkid'.trans hkid, hkr'.trans (hkr.trans (hedit.map_realm g).symm)⟩

/-- A new group of one realm, with members and subgroups of that realm and, when named, a setting
naming a group of that realm. -/
theorem RealmConsistent.createGroup (h : s.RealmConsistent) {realm : Nat} {isNamed : Bool}
    {name description : String} {canMentionGroup : Int} {members : List UserProfile}
    {subgroups : List UserGroup} {actingUser : UserProfile}
    (hmembers : ∀ u ∈ members, u ∈ s.users ∧ u.realm = realm)
    (hsubs : ∀ g ∈ subgroups, g ∈ s.groups ∧ g.realm = realm)
    (hsetting : isNamed = true → ∃ h ∈ s.groups, h.id = canMentionGroup ∧ h.realm = realm) :
    (s.createGroup realm isNamed name description canMentionGroup members subgroups
      actingUser).1.RealmConsistent := by
  have hold : ∀ g ∈ s.groups, g ∈ (s.createGroup realm isNamed name description canMentionGroup
      members subgroups actingUser).1.groups := fun g hg => List.mem_append_left _ hg
  have hnew : (s.createGroup realm isNamed name description canMentionGroup members subgroups
      actingUser).2 ∈ (s.createGroup realm isNamed name description canMentionGroup members
      subgroups actingUser).1.groups := List.mem_append_right _ (List.mem_singleton_self _)
  refine ⟨fun m hm => ?_, fun e he => ?_, fun g hg hnamed => ?_⟩
  · rcases List.mem_append.mp hm with hm | hm
    · obtain ⟨g, hg, u, hu, hid, huid, hr⟩ := h.memberships m hm
      exact ⟨g, hold g hg, u, hu, hid, huid, hr⟩
    · obtain ⟨u, hu, rfl⟩ := List.mem_map.mp hm
      exact ⟨_, hnew, u, (hmembers u hu).1, rfl, rfl, (hmembers u hu).2⟩
  · rcases List.mem_append.mp he with he | he
    · obtain ⟨g, hg, k, hk, hid, hkid, hr⟩ := h.groupMemberships e he
      exact ⟨g, hold g hg, k, hold k hk, hid, hkid, hr⟩
    · obtain ⟨k, hk, rfl⟩ := List.mem_map.mp he
      exact ⟨_, hnew, k, hold k (hsubs k hk).1, rfl, rfl, (hsubs k hk).2⟩
  · rcases List.mem_append.mp hg with hg | hg
    · obtain ⟨k, hk, hkid, hkr⟩ := h.settings g hg hnamed
      exact ⟨k, hold k hk, hkid, hkr⟩
    · obtain rfl := List.mem_singleton.mp hg
      obtain ⟨k, hk, hkid, hkr⟩ := hsetting hnamed
      exact ⟨k, hold k hk, hkid, hkr⟩

/-- Deleting a group that no other named group's setting names. -/
theorem RealmConsistent.deleteGroup (h : s.RealmConsistent) {groupId : Int}
    (hunused : ∀ g ∈ s.groups, g.isNamed = true → g.canMentionGroup = groupId → g.id = groupId)
    (l : List AuditLogEntry) :
    { s with
      groups := s.groups.filter fun g => g.id != groupId
      memberships := s.memberships.filter fun m => m.1 != groupId
      groupMemberships := s.groupMemberships.filter fun e => e.1 != groupId && e.2 != groupId
      auditLog := l }.RealmConsistent := by
  have hkeep : ∀ g ∈ s.groups, g.id ≠ groupId → g ∈ s.groups.filter fun g => g.id != groupId :=
    fun g hg hne => List.mem_filter.mpr ⟨hg, by simpa using hne⟩
  refine ⟨fun m hm => ?_, fun e he => ?_, fun g hg hnamed => ?_⟩
  · obtain ⟨hm, hne⟩ := List.mem_filter.mp hm
    obtain ⟨g, hg, u, hu, hid, huid, hr⟩ := h.memberships m hm
    exact ⟨g, hkeep g hg (hid ▸ by simpa using hne), u, hu, hid, huid, hr⟩
  · obtain ⟨he, hne⟩ := List.mem_filter.mp he
    simp only [Bool.and_eq_true, bne_iff_ne, ne_eq] at hne
    obtain ⟨g, hg, k, hk, hid, hkid, hr⟩ := h.groupMemberships e he
    exact ⟨g, hkeep g hg (hid ▸ hne.1), k, hkeep k hk (hkid ▸ hne.2), hid, hkid, hr⟩
  · obtain ⟨hg, hne⟩ := List.mem_filter.mp hg
    simp only [bne_iff_ne, ne_eq] at hne
    obtain ⟨k, hk, hkid, hkr⟩ := h.settings g hg hnamed
    exact ⟨k, hkeep k hk fun hk' => hne (hunused g hg hnamed (hkid ▸ hk')), hkid, hkr⟩

/-! ## The rows of other realms, write by write -/

/-- Rows appended for groups outside the realm leave the realm's rows alone. -/
theorem filter_append_outside {rows new : List (Int × Int)} {p : Int → Bool}
    (hnew : ∀ e ∈ new, p e.1 = false) : (rows ++ new).filter (p ·.1) = rows.filter (p ·.1) := by
  have hnil : new.filter (p ·.1) = [] := List.filter_eq_nil_iff.mpr fun e he => by
    simp [hnew e he]
  rw [List.filter_append, hnil, List.append_nil]

/-- Dropping rows of groups outside the realm leaves the realm's rows alone. -/
theorem filter_filter_outside {rows : List (Int × Int)} {p : Int → Bool} {q : Int × Int → Bool}
    (hkeep : ∀ e ∈ rows, p e.1 = true → q e = true) :
    (rows.filter q).filter (p ·.1) = rows.filter (p ·.1) := by
  rw [List.filter_filter]
  exact List.filter_congr fun e he => by
    by_cases hp : p e.1 <;> simp [hp, hkeep e he]

/-- An update of the columns of a group of another realm. -/
theorem realmRows_rowEdit (hk : s.GroupKeys) {groupId : Int} {g : UserGroup} (hg : g ∈ s.groups)
    (hid : g.id = groupId) (hrealm : g.realm ≠ realm) {f : UserGroup → UserGroup}
    (hedit : RowEdit s t groupId f) : t.realmRows realm = s.realmRows realm := by
  refine realmRows_eq ?_ (by rw [hedit.memberships]) (by rw [hedit.groupMemberships])
  rw [hedit.groups, Store.modifyGroup, List.filter_map]
  refine (List.map_congr_left fun k hk' => ?_).trans (List.map_id _) |>.trans ?_
  · have hk' := List.mem_filter.mp hk'
    split
    · rename_i hkid
      obtain rfl := hk.eq_of_id_eq hk'.1 hg (hkid.trans hid.symm)
      simp [hkid, (hedit.keepsKey k).2.1, hrealm] at hk'
    · rfl
  · refine List.filter_congr fun k _ => ?_
    simp only [Function.comp_def]
    split
    · rw [(hedit.keepsKey k).2.1]
    · rfl

/-- A new group of another realm. -/
theorem realmRows_createGroup (hk : s.GroupKeys) {r : Nat} (hrealm : r ≠ realm) {isNamed : Bool}
    {name description : String} {canMentionGroup : Int} {members : List UserProfile}
    {subgroups : List UserGroup} (actingUser : UserProfile) :
    (s.createGroup r isNamed name description canMentionGroup members subgroups
      actingUser).1.realmRows realm = s.realmRows realm := by
  refine realmRows_eq ?_ ?_ ?_
  · simp [hrealm]
  · rw [createGroup_fst_memberships]
    exact filter_append_outside fun e he => by
      obtain ⟨u, -, rfl⟩ := List.mem_map.mp he
      exact hk.groupInRealm_next
  · rw [createGroup_fst_groupMemberships]
    exact filter_append_outside fun e he => by
      obtain ⟨k, -, rfl⟩ := List.mem_map.mp he
      exact hk.groupInRealm_next

end Store

/-! ## Requests stay in the acting user's realm -/

/-- **A change of the store that stays in one realm**: group ids stay a key, the store stays
realm-consistent, no user changes, and the rows of every other realm stay as they were. -/
structure RealmStep (s s' : Store) (realm : Nat) : Prop where
  keys : s'.GroupKeys
  consistent : s'.RealmConsistent
  users : s'.users = s.users
  others : ∀ r ≠ realm, s'.realmRows r = s.realmRows r

namespace RealmStep

variable {s t u : Store} {realm : Nat}

theorem refl (hk : s.GroupKeys) (hc : s.RealmConsistent) : RealmStep s s realm :=
  ⟨hk, hc, rfl, fun _ _ => rfl⟩

theorem trans (h₁ : RealmStep s t realm) (h₂ : RealmStep t u realm) : RealmStep s u realm :=
  ⟨h₂.keys, h₂.consistent, h₂.users.trans h₁.users,
    fun r hr => (h₂.others r hr).trans (h₁.others r hr)⟩

/-- An update of the columns of a group of the realm that leaves its setting naming a group of
the group's realm. -/
theorem rowEdit (hk : s.GroupKeys) (hc : s.RealmConsistent) {groupId : Int} {g : UserGroup}
    (hg : g ∈ s.groups) (hid : g.id = groupId) (hrealm : g.realm = realm)
    {f : UserGroup → UserGroup} (hedit : RowEdit s t groupId f)
    (hsetting : ∀ g ∈ s.groups, g.id = groupId → (f g).isNamed = true →
      ∃ h ∈ s.groups, h.id = (f g).canMentionGroup ∧ h.realm = g.realm) :
    RealmStep s t realm :=
  ⟨hk.rowEdit hedit, hc.rowEdit hedit hsetting, hedit.users,
    fun _ hr => Store.realmRows_rowEdit hk hg hid (hrealm ▸ Ne.symm hr) hedit⟩

/-- An update of the columns of a group of the realm other than its setting. -/
theorem columnEdit (hk : s.GroupKeys) (hc : s.RealmConsistent) {groupId : Int} {g : UserGroup}
    (hg : g ∈ s.groups) (hid : g.id = groupId) (hrealm : g.realm = realm)
    {f : UserGroup → UserGroup} (hedit : RowEdit s t groupId f)
    (hcolumn : ∀ g, (f g).canMentionGroup = g.canMentionGroup) : RealmStep s t realm :=
  rowEdit hk hc hg hid hrealm hedit fun g hg _ hnamed => by
    rw [hcolumn]
    exact hc.settings g hg ((hedit.keepsKey g).2.2 ▸ hnamed)

end RealmStep

section Views

open Store

variable {s s' : Store} {userProfile : UserProfile}

/-- The users a lookup by ids returns are users of the realm. -/
theorem userIdsToUsers_realm {userIds : List Int} {realm : Nat} {users : List UserProfile}
    (h : userIdsToUsers s userIds realm = .ok users) :
    ∀ u ∈ users, u ∈ s.users ∧ u.realm = realm := by
  obtain ⟨rfl, -⟩ := userIdsToUsers_eq_ok.mp h
  intro u hu
  simp only [List.mem_filter, Bool.and_eq_true, beq_iff_eq] at hu
  exact ⟨hu.1, hu.2.2⟩

theorem realmStep_addSubgroupsToGroupBackend (hk : s.GroupKeys) (hc : s.RealmConsistent)
    {userGroupId : Int} {subgroupIds : List Int}
    (h : addSubgroupsToGroupBackend s userProfile userGroupId subgroupIds = .ok s') :
    RealmStep s s' userProfile.realm := by
  by_cases hne : subgroupIds = []
  · subst hne
    cases h
    exact .refl hk hc
  obtain ⟨context, hcontext, -, -, rfl⟩ := (addSubgroupsToGroupBackend_eq_ok hne).mp h
  obtain ⟨hsup, hdirect, -⟩ := lockSubgroupsWithRespectToSupergroup_eq_ok.mp hcontext
  obtain ⟨hsupmem, -, hsupr, -⟩ := accessUserGroupById_eq_ok hsup
  refine ⟨hk.sublist (List.Sublist.refl _) rfl, (hc.appendSubgroupRows _ fun e he => ?_).withLog _,
    rfl, fun r hr => realmRows_eq rfl rfl (filter_append_outside fun e he => ?_)⟩
  · obtain ⟨k, hk', rfl⟩ := List.mem_map.mp he
    obtain ⟨hkmem, -, hkr, -⟩ := mem_namedGroupsOfRealm.mp (hdirect ▸ hk')
    exact ⟨_, hsupmem, k, hkmem, rfl, rfl, hkr.trans hsupr.symm⟩
  · obtain ⟨_, -, rfl⟩ := List.mem_map.mp he
    simp [hk.groupInRealm_of_mem hsupmem, hsupr, Ne.symm hr]

/-- **A setting value resolves inside the realm**: to a group of the realm, through a new anonymous
group whose members and subgroups are of the realm when it is not a group id.  Every group row
stays. -/
theorem realmStep_accessUserGroupForSetting (hk : s.GroupKeys) (hc : s.RealmConsistent)
    {value : GroupSettingValue} {p : Store × UserGroup}
    (h : accessUserGroupForSetting s value userProfile = .ok p) :
    RealmStep s p.1 userProfile.realm ∧ p.2 ∈ p.1.groups ∧ p.2.realm = userProfile.realm ∧
      ∀ g ∈ s.groups, g ∈ p.1.groups := by
  obtain ⟨t, X⟩ := p
  rcases accessUserGroupForSetting_eq_ok h with ⟨_, -, hg, ht⟩ | ⟨v, -, members, husers, -, hp⟩
  · cases ht
    obtain ⟨hmem, -, hr, -⟩ := accessUserGroupById_eq_ok hg
    exact ⟨.refl hk hc, hmem, hr, fun _ hg => hg⟩
  · rw [hp]
    refine ⟨⟨hk.createGroup userProfile,
      hc.createGroup (userIdsToUsers_realm husers) (fun g hg => ?_) (fun h => nomatch h),
      rfl, fun r hr => realmRows_createGroup hk (Ne.symm hr) userProfile⟩, by simp, rfl,
      fun _ hg => List.mem_append_left _ hg⟩
    · obtain ⟨hg, -, hr, -⟩ := mem_namedGroupsOfRealm.mp hg
      exact ⟨hg, hr⟩

/-- The name and description steps of an edit change columns of the group other than its
setting. -/
theorem realmStep_editGroupDescription (hk : s.GroupKeys) (hc : s.RealmConsistent)
    (description : Option String) {userGroupId : Int} {userGroup : UserGroup} {name : Option String}
    {s₁ : Store}
    (hg : accessUserGroupById s userGroupId userProfile = .ok userGroup)
    (h₁ : editGroupName s userProfile userGroup name = .ok s₁) :
    ∃ f, RowEdit s (editGroupDescription s₁ userProfile userGroup description) userGroup.id f ∧
      RealmStep s (editGroupDescription s₁ userProfile userGroup description) userProfile.realm := by
  obtain ⟨hgmem, -, hgr, -⟩ := accessUserGroupById_eq_ok hg
  obtain ⟨f₁, hedit₁, -, hkeep₁⟩ := editGroupName_rowEdit h₁
  obtain ⟨f₂, hedit₂, -, hkeep₂⟩ := editGroupDescription_rowEdit s₁ userProfile userGroup description
  have hedit := hedit₁.trans hedit₂
  exact ⟨_, hedit,
    .columnEdit hk hc hgmem rfl hgr hedit fun g => (hkeep₂ (f₁ g)).2.trans (hkeep₁ g).2⟩

theorem realmStep_prepareUserGroup (hk : s.GroupKeys) (hc : s.RealmConsistent) {name : String}
    {members : List Int} {canMentionGroup : Option GroupSettingRequest}
    {q : Store × List UserProfile × String × Option UserGroup}
    (h : prepareUserGroup s userProfile name members canMentionGroup = .ok q) :
    RealmStep s q.1 userProfile.realm ∧
      (∀ u ∈ q.2.1, u ∈ q.1.users ∧ u.realm = userProfile.realm) ∧
      ∀ g, q.2.2.2 = some g → g ∈ q.1.groups ∧ g.realm = userProfile.realm := by
  obtain ⟨husers, ⟨-, hq, hnone⟩ | ⟨_, X, -, hp, hsome⟩⟩ := prepareUserGroup_eq_ok h
  · rw [hq, hnone]
    exact ⟨.refl hk hc, userIdsToUsers_realm husers, fun _ h => nomatch h⟩
  · obtain ⟨hstep, hX, hXr, -⟩ := realmStep_accessUserGroupForSetting hk hc hp
    rw [hsome, hstep.users]
    exact ⟨hstep, userIdsToUsers_realm husers, fun _ h => Option.some.inj h ▸ ⟨hX, hXr⟩⟩

end Views

end Zerver.UserGroups

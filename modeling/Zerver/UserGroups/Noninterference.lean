import Zerver.UserGroups.Commute
import Zerver.UserGroups.Permission

/-!
# What a request reads

`Zerver.UserGroups.Realm` shows that a request writes rows of its acting user's realm only.  This
module shows the other half, what it reads.  Two stores with the same rows of realm `R`, the same
users of `R` and the same next id look the same to a request by a user of `R`: the request gets the
same outcome on both, error text included, and leaves stores that again agree on `R`.  So no group,
user or row of another realm decides what a request does (`handle_realm_isolated`).

## Main Definitions

* `RealmAgree R s t` — `t` has the rows of realm `R`, the users of `R` and the next id of `s`.
* `Coupled r x y` — one step taken on two stores: the same error on both, or two results related
  by `r`.

## Main Results

* `RealmAgree.handle` — a request by a user of `R` on two stores that agree on `R`.
* `realmAgree_runRequests` — a sequence of such requests.
* `handle_realm_isolated` — requests stay in their realm, in what they write and in what they read.

## Design Notes

Most lookups name the realm in their test.  Four read rows of any realm: the group a setting names
(`getGroupById`), the settings a delete checks, the recursive subgroups the lock helper collects,
and the membership rows of a group.  Each starts from a group of the realm, and in a store whose
group ids are a key and that has no row joining two realms it meets only rows of the realm.  The
id sequence is shared by all realms: a new group takes its next value, so the two stores agree on
it for the rows they create to agree.  Each kind of write has one lemma saying how the realm's rows
after it follow from the realm's rows before; each view is then coupled step by step, with
`Coupled.bind_eq` at its reads and `Coupled.bind` at its writes.
-/

namespace Zerver.UserGroups

open Store

/-! ## Stores that agree on a realm -/

/-- **`t` looks like `s` from realm `realm`**: the same rows of the realm, the same users of the
realm, and the same next value of the id sequence. -/
structure RealmAgree (realm : Nat) (s t : Store) : Prop where
  rows : t.realmRows realm = s.realmRows realm
  users : t.users.filter (·.realm == realm) = s.users.filter (·.realm == realm)
  nextGroupId : t.nextGroupId = s.nextGroupId

/-- Two results that pair stores agreeing on the realm with one value. -/
def RealmAgree.Paired {β : Type} (realm : Nat) (p q : Store × β) : Prop :=
  RealmAgree realm p.1 q.1 ∧ p.2 = q.2

/-- **One step taken on two stores**: it fails on both with the same error, or succeeds on both
with results related by `r`. -/
inductive Coupled {α : Type} (r : α → α → Prop) : Except String α → Except String α → Prop
  | error (e : String) : Coupled r (.error e) (.error e)
  | ok {a b : α} : r a b → Coupled r (.ok a) (.ok b)

namespace Coupled

variable {α β : Type} {r : α → α → Prop} {r' : β → β → Prop}

/-- A read both stores answer alike, followed by coupled steps. -/
theorem bind_eq {x : Except String α} {f g : α → Except String β}
    (h : ∀ a, x = .ok a → Coupled r' (f a) (g a)) : Coupled r' (x >>= f) (x >>= g) := by
  cases x with
  | error e => exact .error e
  | ok a => exact h a rfl

/-- Coupled steps, each followed by a step on its result. -/
theorem bind {x y : Except String α} {f g : α → Except String β} (hxy : Coupled r x y)
    (h : ∀ a b, x = .ok a → y = .ok b → r a b → Coupled r' (f a) (g b)) :
    Coupled r' (x >>= f) (y >>= g) := by
  cases hxy with
  | error e => exact .error e
  | ok hab => exact h _ _ rfl rfl hab

theorem elim {x y : Except String α} (h : Coupled r x y) :
    (∃ e, x = .error e ∧ y = .error e) ∨ ∃ a b, x = .ok a ∧ y = .ok b ∧ r a b := by
  cases h with
  | error e => exact .inl ⟨e, rfl, rfl⟩
  | ok hab => exact .inr ⟨_, _, rfl, rfl, hab⟩

/-- **A transaction on two stores that agree** has one outcome, and leaves stores that again
agree. -/
theorem atomic {realm : Nat} {s t : Store} {body : Store → Except String Store}
    (hst : RealmAgree realm s t) (h : Coupled (RealmAgree realm) (body s) (body t)) :
    (atomic body t).2 = (atomic body s).2 ∧
      RealmAgree realm (atomic body s).1 (atomic body t).1 := by
  unfold Zerver.UserGroups.atomic
  rcases h.elim with ⟨e, hs, ht⟩ | ⟨s', t', hs, ht, h'⟩ <;> rw [hs, ht]
  · exact ⟨rfl, hst⟩
  · exact ⟨rfl, h'⟩

end Coupled

/-- The id of a group of the realm is of the realm. -/
theorem Store.groupInRealm_eq_true {s : Store} {realm : Nat} {g : UserGroup} (hg : g ∈ s.groups)
    (hr : g.realm = realm) : s.groupInRealm realm g.id = true :=
  List.any_eq_true.mpr ⟨g, hg, by simp [hr]⟩

/-- Two tables with the same rows out of a set of groups have the same rows out of each of them. -/
theorem filter_fst_eq_of_filter_eq {rows rows' : List (Int × Int)} {p : Int → Bool}
    (h : rows'.filter (p ·.1) = rows.filter (p ·.1)) {a : Int} (ha : p a = true) :
    rows'.filter (fun e => e.1 = a) = rows.filter (fun e => e.1 = a) := by
  have hfilter : ∀ l : List (Int × Int),
      l.filter (fun e => e.1 = a) = (l.filter (p ·.1)).filter (fun e => e.1 = a) := fun l => by
    rw [List.filter_filter]
    exact List.filter_congr fun e _ => by by_cases he : e.1 = a <;> simp [he, ha]
  rw [hfilter rows', h, ← hfilter rows]

/-- A path that starts in a set of groups no row leaves stays in the set, and uses only rows out of
it. -/
theorem Reaches.filter_of_closed {rows : List (Int × Int)} {p : Int → Bool}
    (hclosed : ∀ e ∈ rows, p e.1 = true → p e.2 = true) {a b : Int} (hab : Reaches rows a b)
    (ha : p a = true) : Reaches (rows.filter (p ·.1)) a b ∧ p b = true := by
  induction hab with
  | refl => exact ⟨.refl, ha⟩
  | tail _ hedge ih =>
      exact ⟨ih.1.tail (List.mem_filter.mpr ⟨hedge, ih.2⟩), hclosed _ hedge ih.2⟩

namespace RowEdit

variable {s t : Store} {groupId : Int} {f : UserGroup → UserGroup}

/-- An update of columns that keeps keys keeps which ids are of which realm. -/
theorem groupInRealm (hedit : RowEdit s t groupId f) (realm : Nat) :
    t.groupInRealm realm = s.groupInRealm realm := by
  funext x
  simp only [Store.groupInRealm, hedit.groups, Store.modifyGroup, List.any_map]
  congr 1
  funext g
  simp only [Function.comp_apply, hedit.map_id g, hedit.map_realm g]

theorem realmRows (hedit : RowEdit s t groupId f) (realm : Nat) :
    t.realmRows realm = ((s.realmRows realm).1.map fun g => if g.id = groupId then f g else g,
      (s.realmRows realm).2.1, (s.realmRows realm).2.2) := by
  simp only [Store.realmRows, hedit.groupInRealm, hedit.memberships, hedit.groupMemberships,
    hedit.groups, Store.modifyGroup, List.filter_map]
  congr 3
  funext g
  simp only [Function.comp_apply, hedit.map_realm g]

end RowEdit

/-! ## Rows of any realm that start in the realm -/

namespace Store

variable {s : Store} {realm : Nat}

/-- A subgroup row out of a group of the realm leads to a group of the realm. -/
theorem RealmConsistent.groupInRealm_snd (hc : s.RealmConsistent) (hk : s.GroupKeys) :
    ∀ e ∈ s.groupMemberships, s.groupInRealm realm e.1 = true → s.groupInRealm realm e.2 = true := by
  intro e he hin
  obtain ⟨g, hg, k, hk', hgid, hkid, hkr⟩ := hc.groupMemberships e he
  rw [← hgid, hk.groupInRealm_of_mem hg] at hin
  rw [← hkid, hk.groupInRealm_of_mem hk', hkr]
  exact hin

/-- A named group whose setting names a group of the realm is of the realm. -/
theorem RealmConsistent.realm_of_setting (hc : s.RealmConsistent) (hk : s.GroupKeys)
    {g : UserGroup} (hg : g ∈ s.groups) (hnamed : g.isNamed = true)
    (hin : s.groupInRealm realm g.canMentionGroup = true) : g.realm = realm := by
  obtain ⟨k, hk', hkid, hkr⟩ := hc.settings g hg hnamed
  rw [← hkid, hk.groupInRealm_of_mem hk'] at hin
  rw [← hkr]
  simpa using hin

/-- **The recursive subgroups of groups of the realm** are read from the realm's rows alone. -/
theorem recursiveSubgroupsOf_realm (hk : s.GroupKeys) (hc : s.RealmConsistent)
    {anchors : List Int} (hanchors : ∀ a ∈ anchors, s.groupInRealm realm a = true) :
    recursiveSubgroupsOf s anchors = (s.realmRows realm).1.filter fun g =>
      anchors.any fun a => reaches (s.realmRows realm).2.2 a g.id := by
  simp only [recursiveSubgroupsOf, realmRows, List.filter_filter]
  refine List.filter_congr fun g hg => ?_
  rw [Bool.eq_iff_iff]
  simp only [Bool.and_eq_true, List.any_eq_true, reaches_iff, beq_iff_eq]
  constructor
  · rintro ⟨a, ha, hpath⟩
    obtain ⟨hpath', hin⟩ := hpath.filter_of_closed (hc.groupInRealm_snd hk) (hanchors a ha)
    exact ⟨⟨a, ha, hpath'⟩, by simpa [hk.groupInRealm_of_mem hg] using hin⟩
  · rintro ⟨⟨a, ha, hpath⟩, -⟩
    exact ⟨a, ha, hpath.mono fun e he => (List.mem_filter.mp he).1⟩

/-! ## The realm's rows after each kind of write -/

theorem realmRows_appendMemberships (new : List (Int × Int)) (l : List AuditLogEntry) :
    { s with memberships := s.memberships ++ new, auditLog := l }.realmRows realm =
      ((s.realmRows realm).1, (s.realmRows realm).2.1 ++ new.filter (s.groupInRealm realm ·.1),
        (s.realmRows realm).2.2) := by
  show (_, (s.memberships ++ new).filter _, _) = _
  rw [List.filter_append]
  rfl

theorem realmRows_filterMemberships (q : Int × Int → Bool) (l : List AuditLogEntry) :
    { s with memberships := s.memberships.filter q, auditLog := l }.realmRows realm =
      ((s.realmRows realm).1, (s.realmRows realm).2.1.filter q, (s.realmRows realm).2.2) := by
  show (_, (s.memberships.filter q).filter _, _) = _
  rw [List.filter_comm]
  rfl

theorem realmRows_appendSubgroupRows (new : List (Int × Int)) (l : List AuditLogEntry) :
    { s with groupMemberships := s.groupMemberships ++ new, auditLog := l }.realmRows realm =
      ((s.realmRows realm).1, (s.realmRows realm).2.1,
        (s.realmRows realm).2.2 ++ new.filter (s.groupInRealm realm ·.1)) := by
  show (_, _, (s.groupMemberships ++ new).filter _) = _
  rw [List.filter_append]
  rfl

theorem realmRows_filterSubgroupRows (q : Int × Int → Bool) (l : List AuditLogEntry) :
    { s with groupMemberships := s.groupMemberships.filter q, auditLog := l }.realmRows realm =
      ((s.realmRows realm).1, (s.realmRows realm).2.1, (s.realmRows realm).2.2.filter q) := by
  show (_, _, (s.groupMemberships.filter q).filter _) = _
  rw [List.filter_comm]
  rfl

theorem groupInRealm_createGroup {isNamed : Bool} {name description : String}
    {canMentionGroup : Int} {members : List UserProfile} {subgroups : List UserGroup}
    (actingUser : UserProfile) (x : Int) :
    (s.createGroup realm isNamed name description canMentionGroup members subgroups
      actingUser).1.groupInRealm realm x = (s.groupInRealm realm x || s.nextGroupId == x) := by
  simp [groupInRealm, List.any_append]

/-- A new group of the realm: its row and its rows join the realm's rows. -/
theorem realmRows_createGroup_self (hk : s.GroupKeys) (hc : s.RealmConsistent) {isNamed : Bool}
    {name description : String} {canMentionGroup : Int} {members : List UserProfile}
    {subgroups : List UserGroup} (actingUser : UserProfile) :
    (s.createGroup realm isNamed name description canMentionGroup members subgroups
      actingUser).1.realmRows realm =
      ((s.realmRows realm).1 ++ [⟨s.nextGroupId, realm, isNamed, name, description, canMentionGroup⟩],
        (s.realmRows realm).2.1 ++ members.map (fun u => (s.nextGroupId, u.id)),
        (s.realmRows realm).2.2 ++ subgroups.map (fun g => (s.nextGroupId, g.id))) := by
  have hold : ∀ x, (∃ g ∈ s.groups, g.id = x) → (s.nextGroupId == x) = false := by
    rintro _ ⟨g, hg, rfl⟩
    simpa using (hk.id_lt_next g hg).ne'
  simp only [realmRows, groupInRealm_createGroup, createGroup_fst_groups,
    createGroup_fst_memberships, createGroup_fst_groupMemberships, List.filter_append]
  refine Prod.ext (by simp) (Prod.ext ?_ ?_) <;> dsimp only <;> congr 1
  · refine List.filter_congr fun m hm => ?_
    obtain ⟨g, hg, -, -, hid, -⟩ := hc.memberships m hm
    rw [hold _ ⟨g, hg, hid⟩, Bool.or_false]
  · exact List.filter_eq_self.mpr fun m hm => by
      obtain ⟨u, -, rfl⟩ := List.mem_map.mp hm
      simp
  · refine List.filter_congr fun e he => ?_
    obtain ⟨g, hg, -, -, hid, -⟩ := hc.groupMemberships e he
    rw [hold _ ⟨g, hg, hid⟩, Bool.or_false]
  · exact List.filter_eq_self.mpr fun e he => by
      obtain ⟨k, -, rfl⟩ := List.mem_map.mp he
      simp

theorem groupInRealm_deleteGroup (userGroup : UserGroup) (actingUser : UserProfile) (x : Int) :
    (s.deleteGroup userGroup actingUser).groupInRealm realm x =
      (s.groupInRealm realm x && x != userGroup.id) := by
  rw [Bool.eq_iff_iff]
  simp only [Store.deleteGroup, groupInRealm, List.any_filter, Bool.and_eq_true, List.any_eq_true,
    bne_iff_ne, beq_iff_eq, ne_eq]
  constructor
  · rintro ⟨g, hg, hne, rfl, hr⟩
    exact ⟨⟨g, hg, rfl, hr⟩, hne⟩
  · rintro ⟨⟨g, hg, rfl, hr⟩, hne⟩
    exact ⟨g, hg, hne, rfl, hr⟩

/-- A deleted group of any realm takes its row and its rows out of the realm's rows. -/
theorem realmRows_deleteGroup_self (userGroup : UserGroup) (actingUser : UserProfile) :
    (s.deleteGroup userGroup actingUser).realmRows realm =
      ((s.realmRows realm).1.filter (·.id != userGroup.id),
        (s.realmRows realm).2.1.filter (·.1 != userGroup.id),
        (s.realmRows realm).2.2.filter fun e => e.1 != userGroup.id && e.2 != userGroup.id) := by
  simp only [realmRows, groupInRealm_deleteGroup]
  simp only [Store.deleteGroup, List.filter_filter]
  refine Prod.ext ?_ (Prod.ext ?_ ?_) <;> dsimp only <;>
    refine List.filter_congr fun _ _ => ?_ <;> rw [Bool.eq_iff_iff] <;>
    simp only [Bool.and_eq_true] <;> tauto

end Store

namespace RealmAgree

variable {realm : Nat} {s t : Store}

theorem groups (h : RealmAgree realm s t) :
    t.groups.filter (·.realm == realm) = s.groups.filter (·.realm == realm) :=
  congrArg Prod.fst h.rows

theorem groupInRealm (h : RealmAgree realm s t) : t.groupInRealm realm = s.groupInRealm realm :=
  groupInRealm_congr h.groups

theorem memberships (h : RealmAgree realm s t) :
    t.memberships.filter (s.groupInRealm realm ·.1) =
      s.memberships.filter (s.groupInRealm realm ·.1) := by
  simpa only [realmRows, h.groupInRealm] using congrArg (·.2.1) h.rows

theorem groupMemberships (h : RealmAgree realm s t) :
    t.groupMemberships.filter (s.groupInRealm realm ·.1) =
      s.groupMemberships.filter (s.groupInRealm realm ·.1) := by
  simpa only [realmRows, h.groupInRealm] using congrArg (·.2.2) h.rows

/-- **A test of the group rows that passes only rows of the realm** passes the same rows of both
stores. -/
theorem filter_groups (h : RealmAgree realm s t) {p : UserGroup → Bool}
    (hs : ∀ g ∈ s.groups, p g = true → g.realm = realm)
    (ht : ∀ g ∈ t.groups, p g = true → g.realm = realm) :
    t.groups.filter p = s.groups.filter p := by
  have hfilter : ∀ x : Store, (∀ g ∈ x.groups, p g = true → g.realm = realm) →
      x.groups.filter p = (x.groups.filter (·.realm == realm)).filter p := fun x hx => by
    rw [List.filter_filter]
    refine List.filter_congr fun g hg => ?_
    cases hp : p g
    · rfl
    · simp [hx g hg hp]
  rw [hfilter t ht, h.groups, ← hfilter s hs]

theorem find?_groups (h : RealmAgree realm s t) {p : UserGroup → Bool}
    (hs : ∀ g ∈ s.groups, p g = true → g.realm = realm)
    (ht : ∀ g ∈ t.groups, p g = true → g.realm = realm) :
    t.groups.find? p = s.groups.find? p :=
  find?_eq_of_filter_eq (h.filter_groups hs ht) fun _ => id

theorem any_groups (h : RealmAgree realm s t) {p : UserGroup → Bool}
    (hs : ∀ g ∈ s.groups, p g = true → g.realm = realm)
    (ht : ∀ g ∈ t.groups, p g = true → g.realm = realm) :
    t.groups.any p = s.groups.any p := by
  simpa [List.any_filter] using congrArg (List.any · p) (h.filter_groups hs ht)

/-! ## Reads -/

theorem accessUserGroupById_eq {userProfile : UserProfile} (h : RealmAgree userProfile.realm s t)
    (groupId : Int) :
    accessUserGroupById t groupId userProfile = accessUserGroupById s groupId userProfile := by
  have hp : ∀ g : UserGroup,
      (g.id == groupId && g.realm == userProfile.realm && g.isNamed) = true →
        g.realm = userProfile.realm := fun g hg => by
    simp only [Bool.and_eq_true, beq_iff_eq] at hg
    exact hg.1.2
  simp only [accessUserGroupById, h.find?_groups (fun g _ => hp g) fun g _ => hp g]

theorem userIdsToUsers_eq (h : RealmAgree realm s t) (userIds : List Int) :
    userIdsToUsers t userIds realm = userIdsToUsers s userIds realm := by
  have := congrArg (List.filter fun u : UserProfile => decide (u.id ∈ userIds)) h.users
  simp only [List.filter_filter] at this
  simp only [userIdsToUsers, this]

theorem namedGroupsOfRealm_eq (h : RealmAgree realm s t) (groupIds : List Int) :
    namedGroupsOfRealm t groupIds realm = namedGroupsOfRealm s groupIds realm := by
  have hp : ∀ g : UserGroup, (decide (g.id ∈ groupIds) && g.realm == realm && g.isNamed) = true →
      g.realm = realm := fun g hg => by
    simp only [Bool.and_eq_true, beq_iff_eq] at hg
    exact hg.1.2
  exact h.filter_groups (fun g _ => hp g) fun g _ => hp g

theorem nameTaken_eq (h : RealmAgree realm s t) (name : String) (except : Int) :
    nameTaken t realm name except = nameTaken s realm name except := by
  have hp : ∀ g : UserGroup,
      (g.realm == realm && g.isNamed && g.name == name && g.id != except) = true →
        g.realm = realm := fun g hg => by
    simp only [Bool.and_eq_true, beq_iff_eq] at hg
    exact hg.1.1.1
  exact h.any_groups (fun g _ => hp g) fun g _ => hp g

theorem defaultSettingGroup_eq (h : RealmAgree realm s t)
    (permissionConfig : GroupPermissionSetting) :
    defaultSettingGroup t realm permissionConfig = defaultSettingGroup s realm permissionConfig := by
  have hp : ∀ g : UserGroup, (g.realm == realm && g.isNamed &&
      g.name == permissionConfig.defaultGroupName) = true → g.realm = realm := fun g hg => by
    simp only [Bool.and_eq_true, beq_iff_eq] at hg
    exact hg.1.1
  simp only [defaultSettingGroup, h.find?_groups (fun g _ => hp g) fun g _ => hp g]

theorem mem_memberships (h : RealmAgree realm s t) {a : Int}
    (ha : s.groupInRealm realm a = true) (b : Int) :
    (a, b) ∈ t.memberships ↔ (a, b) ∈ s.memberships :=
  mem_iff_of_filter_fst_eq (filter_fst_eq_of_filter_eq h.memberships ha) b

theorem directMemberIds_eq (h : RealmAgree realm s t) {a : Int}
    (ha : s.groupInRealm realm a = true) : t.directMemberIds a = s.directMemberIds a := by
  unfold directMemberIds
  rw [filter_fst_eq_of_filter_eq h.memberships ha]

theorem directSubgroupIds_eq (h : RealmAgree realm s t) {a : Int}
    (ha : s.groupInRealm realm a = true) : t.directSubgroupIds a = s.directSubgroupIds a := by
  unfold directSubgroupIds
  rw [filter_fst_eq_of_filter_eq h.groupMemberships ha]

theorem getDirectMembershipsOfUsers_eq (h : RealmAgree realm s t) {userGroup : UserGroup}
    (hin : s.groupInRealm realm userGroup.id = true) (users : List UserProfile) :
    getDirectMembershipsOfUsers t userGroup users = getDirectMembershipsOfUsers s userGroup users := by
  simp only [getDirectMembershipsOfUsers, h.mem_memberships hin]

theorem checkSettingValueChanged_eq (h : RealmAgree realm s t) {currentValue : UserGroup}
    (hin : s.groupInRealm realm currentValue.id = true) (newSettingValue : GroupSettingValue) :
    checkSettingValueChanged t currentValue newSettingValue =
      checkSettingValueChanged s currentValue newSettingValue := by
  simp only [checkSettingValueChanged, getGroupSettingValueForApi, h.directMemberIds_eq hin,
    h.directSubgroupIds_eq hin]

/-- **The row a setting names** is found among the realm's rows. -/
theorem getGroupById_eq (h : RealmAgree realm s t) (hks : s.GroupKeys) (hkt : t.GroupKeys)
    {x : Int} (hx : s.groupInRealm realm x = true) : getGroupById t x = getGroupById s x := by
  have hp : ∀ y : Store, y.GroupKeys → y.groupInRealm realm x = true →
      ∀ g ∈ y.groups, (g.id == x) = true → g.realm = realm := by
    intro y hk hx g hg hid
    rw [← beq_iff_eq.mp hid, hk.groupInRealm_of_mem hg] at hx
    simpa using hx
  simp only [getGroupById,
    h.find?_groups (hp s hks hx) (hp t hkt (by rw [h.groupInRealm]; exact hx))]

/-- **The recursive subgroups of groups of the realm** are the same in both stores. -/
theorem recursiveSubgroupsOf_eq (h : RealmAgree realm s t) (hks : s.GroupKeys)
    (hcs : s.RealmConsistent) (hkt : t.GroupKeys) (hct : t.RealmConsistent) {anchors : List Int}
    (hanchors : ∀ a ∈ anchors, s.groupInRealm realm a = true) :
    recursiveSubgroupsOf t anchors = recursiveSubgroupsOf s anchors := by
  rw [recursiveSubgroupsOf_realm hkt hct (by rw [h.groupInRealm]; exact hanchors), h.rows,
    recursiveSubgroupsOf_realm hks hcs hanchors]

theorem lockSubgroupsWithRespectToSupergroup_eq {userProfile : UserProfile}
    (h : RealmAgree userProfile.realm s t) (hks : s.GroupKeys) (hcs : s.RealmConsistent)
    (hkt : t.GroupKeys) (hct : t.RealmConsistent) (subgroupIds : List Int) (groupId : Int) :
    lockSubgroupsWithRespectToSupergroup t subgroupIds groupId userProfile =
      lockSubgroupsWithRespectToSupergroup s subgroupIds groupId userProfile := by
  have hanchors : ∀ a ∈ (namedGroupsOfRealm s subgroupIds userProfile.realm).map UserGroup.id,
      s.groupInRealm userProfile.realm a = true := by
    simp only [List.mem_map, mem_namedGroupsOfRealm]
    rintro _ ⟨g, ⟨hg, -, hr, -⟩, rfl⟩
    exact groupInRealm_eq_true hg hr
  simp only [lockSubgroupsWithRespectToSupergroup, h.accessUserGroupById_eq,
    h.namedGroupsOfRealm_eq, h.recursiveSubgroupsOf_eq hks hcs hkt hct hanchors]

/-! ## Writes -/

theorem withLog (h : RealmAgree realm s t) (l l' : List AuditLogEntry) :
    RealmAgree realm { s with auditLog := l } { t with auditLog := l' } :=
  ⟨h.rows, h.users, h.nextGroupId⟩

theorem appendMemberships (h : RealmAgree realm s t) (new : List (Int × Int))
    (l l' : List AuditLogEntry) :
    RealmAgree realm { s with memberships := s.memberships ++ new, auditLog := l }
      { t with memberships := t.memberships ++ new, auditLog := l' } :=
  ⟨by rw [realmRows_appendMemberships, realmRows_appendMemberships, h.rows, h.groupInRealm],
    h.users, h.nextGroupId⟩

theorem filterMemberships (h : RealmAgree realm s t) (q : Int × Int → Bool)
    (l l' : List AuditLogEntry) :
    RealmAgree realm { s with memberships := s.memberships.filter q, auditLog := l }
      { t with memberships := t.memberships.filter q, auditLog := l' } :=
  ⟨by rw [realmRows_filterMemberships, realmRows_filterMemberships, h.rows], h.users,
    h.nextGroupId⟩

theorem appendSubgroupRows (h : RealmAgree realm s t) (new : List (Int × Int))
    (l l' : List AuditLogEntry) :
    RealmAgree realm { s with groupMemberships := s.groupMemberships ++ new, auditLog := l }
      { t with groupMemberships := t.groupMemberships ++ new, auditLog := l' } :=
  ⟨by rw [realmRows_appendSubgroupRows, realmRows_appendSubgroupRows, h.rows, h.groupInRealm],
    h.users, h.nextGroupId⟩

theorem filterSubgroupRows (h : RealmAgree realm s t) (q : Int × Int → Bool)
    (l l' : List AuditLogEntry) :
    RealmAgree realm { s with groupMemberships := s.groupMemberships.filter q, auditLog := l }
      { t with groupMemberships := t.groupMemberships.filter q, auditLog := l' } :=
  ⟨by rw [realmRows_filterSubgroupRows, realmRows_filterSubgroupRows, h.rows], h.users,
    h.nextGroupId⟩

theorem rowEdit (h : RealmAgree realm s t) {s' t' : Store} {groupId : Int}
    {f : UserGroup → UserGroup} (hs : RowEdit s s' groupId f) (ht : RowEdit t t' groupId f) :
    RealmAgree realm s' t' :=
  ⟨by rw [ht.realmRows, hs.realmRows, h.rows], by rw [ht.users, hs.users]; exact h.users,
    ht.nextGroupId.trans (h.nextGroupId.trans hs.nextGroupId.symm)⟩

theorem modifyGroup (h : RealmAgree realm s t) {groupId : Int} {f : UserGroup → UserGroup}
    (hf : KeepsKey f) (l l' : List AuditLogEntry) :
    RealmAgree realm { s.modifyGroup groupId f with auditLog := l }
      { t.modifyGroup groupId f with auditLog := l' } :=
  h.rowEdit (.modifyGroup hf l) (.modifyGroup hf l')

theorem createGroup (h : RealmAgree realm s t) (hks : s.GroupKeys) (hcs : s.RealmConsistent)
    (hkt : t.GroupKeys) (hct : t.RealmConsistent) {isNamed : Bool} {name description : String}
    {canMentionGroup : Int} {members : List UserProfile} {subgroups : List UserGroup}
    (actingUser : UserProfile) :
    RealmAgree realm
      (s.createGroup realm isNamed name description canMentionGroup members subgroups actingUser).1
      (t.createGroup realm isNamed name description canMentionGroup members subgroups
        actingUser).1 :=
  ⟨by rw [realmRows_createGroup_self hkt hct, realmRows_createGroup_self hks hcs, h.rows,
      h.nextGroupId], h.users, congrArg (· + 1) h.nextGroupId⟩

theorem deleteGroup (h : RealmAgree realm s t) (userGroup : UserGroup) (actingUser : UserProfile) :
    RealmAgree realm (s.deleteGroup userGroup actingUser) (t.deleteGroup userGroup actingUser) :=
  ⟨by rw [realmRows_deleteGroup_self, realmRows_deleteGroup_self, h.rows], h.users, h.nextGroupId⟩

end RealmAgree

/-! ## The views, step by step -/

namespace RealmAgree

variable {s t : Store} {realm : Nat} {userProfile : UserProfile}

theorem notify (h : RealmAgree realm s t) (actingUser : UserProfile)
    (recipientUsers : List UserProfile) (userGroup : UserGroup) (sub unsub : Bool) :
    Coupled (RealmAgree realm)
      (notifyForUserGroupSubscriptionChanges s actingUser recipientUsers userGroup sub unsub)
      (notifyForUserGroupSubscriptionChanges t actingUser recipientUsers userGroup sub unsub) := by
  unfold notifyForUserGroupSubscriptionChanges
  split
  · exact .ok h
  · exact .error _
  · exact .ok ⟨h.rows, h.users, h.nextGroupId⟩

theorem addMembersToGroupBackend (h : RealmAgree userProfile.realm s t) (userGroupId : Int)
    (members : List Int) :
    Coupled (RealmAgree userProfile.realm)
      (addMembersToGroupBackend s userProfile userGroupId members)
      (addMembersToGroupBackend t userProfile userGroupId members) := by
  unfold Zerver.UserGroups.addMembersToGroupBackend
  split
  · exact .ok h
  rw [h.accessUserGroupById_eq, h.userIdsToUsers_eq]
  refine .bind_eq fun userGroup hg => .bind_eq fun users _ => ?_
  obtain ⟨hgmem, -, hgr, -⟩ := accessUserGroupById_eq_ok hg
  simp only [h.getDirectMembershipsOfUsers_eq (groupInRealm_eq_true hgmem hgr)]
  split
  · exact .error _
  · exact (h.appendMemberships _ _ _).notify _ _ _ _ _

theorem removeMembersFromGroupBackend (h : RealmAgree userProfile.realm s t) (userGroupId : Int)
    (members : List Int) :
    Coupled (RealmAgree userProfile.realm)
      (removeMembersFromGroupBackend s userProfile userGroupId members)
      (removeMembersFromGroupBackend t userProfile userGroupId members) := by
  unfold Zerver.UserGroups.removeMembersFromGroupBackend
  split
  · exact .ok h
  rw [h.userIdsToUsers_eq, h.accessUserGroupById_eq]
  refine .bind_eq fun users _ => .bind_eq fun userGroup hg => ?_
  obtain ⟨hgmem, -, hgr, -⟩ := accessUserGroupById_eq_ok hg
  simp only [h.directMemberIds_eq (groupInRealm_eq_true hgmem hgr)]
  split
  · exact .error _
  · exact (h.filterMemberships _ _ _).notify _ _ _ _ _

theorem updateUserGroupBackend (h : RealmAgree userProfile.realm s t) (userGroupId : Int)
    (delete add : List Int) :
    (updateUserGroupBackend t userProfile userGroupId delete add).2 =
        (updateUserGroupBackend s userProfile userGroupId delete add).2 ∧
      RealmAgree userProfile.realm (updateUserGroupBackend s userProfile userGroupId delete add).1
        (updateUserGroupBackend t userProfile userGroupId delete add).1 := by
  unfold Zerver.UserGroups.updateUserGroupBackend
  split
  · exact ⟨rfl, h⟩
  refine Coupled.atomic h ?_
  simp only [composeViews_pair]
  exact (h.addMembersToGroupBackend userGroupId add).bind fun _ _ _ _ h₁ =>
    h₁.removeMembersFromGroupBackend userGroupId delete

/-- The supergroup of a context the lock helper returns is a group of the realm. -/
theorem groupInRealm_supergroup {subgroupIds : List Int} {groupId : Int}
    {context : LockedUserGroupContext}
    (hcontext : lockSubgroupsWithRespectToSupergroup s subgroupIds groupId userProfile =
      .ok context) : s.groupInRealm userProfile.realm context.supergroup.id = true := by
  obtain ⟨hsupmem, -, hsupr, -⟩ :=
    accessUserGroupById_eq_ok (lockSubgroupsWithRespectToSupergroup_eq_ok.mp hcontext).1
  exact groupInRealm_eq_true hsupmem hsupr

theorem addSubgroupsToGroupBackend (h : RealmAgree userProfile.realm s t) (hks : s.GroupKeys)
    (hcs : s.RealmConsistent) (hkt : t.GroupKeys) (hct : t.RealmConsistent) (userGroupId : Int)
    (subgroupIds : List Int) :
    Coupled (RealmAgree userProfile.realm)
      (addSubgroupsToGroupBackend s userProfile userGroupId subgroupIds)
      (addSubgroupsToGroupBackend t userProfile userGroupId subgroupIds) := by
  unfold Zerver.UserGroups.addSubgroupsToGroupBackend
  split
  · exact .ok h
  rw [h.lockSubgroupsWithRespectToSupergroup_eq hks hcs hkt hct]
  refine .bind_eq fun context hcontext => ?_
  unfold addSubgroupsToGroupBackend.withBlock
  simp only [h.directSubgroupIds_eq (groupInRealm_supergroup hcontext)]
  split
  · exact .error _
  · split
    · exact .error _
    · exact .ok (h.appendSubgroupRows _ _ _)

theorem removeSubgroupsFromGroupBackend (h : RealmAgree userProfile.realm s t) (hks : s.GroupKeys)
    (hcs : s.RealmConsistent) (hkt : t.GroupKeys) (hct : t.RealmConsistent) (userGroupId : Int)
    (subgroupIds : List Int) :
    Coupled (RealmAgree userProfile.realm)
      (removeSubgroupsFromGroupBackend s userProfile userGroupId subgroupIds)
      (removeSubgroupsFromGroupBackend t userProfile userGroupId subgroupIds) := by
  unfold Zerver.UserGroups.removeSubgroupsFromGroupBackend
  split
  · exact .ok h
  rw [h.lockSubgroupsWithRespectToSupergroup_eq hks hcs hkt hct]
  refine .bind_eq fun context hcontext => ?_
  unfold removeSubgroupsFromGroupBackend.withBlock
  simp only [h.directSubgroupIds_eq (groupInRealm_supergroup hcontext)]
  split
  · exact .error _
  · exact .ok (h.filterSubgroupRows _ _ _)

theorem updateSubgroupsOfUserGroup (h : RealmAgree userProfile.realm s t) (hks : s.GroupKeys)
    (hcs : s.RealmConsistent) (hkt : t.GroupKeys) (hct : t.RealmConsistent) (userGroupId : Int)
    (delete add : List Int) :
    (updateSubgroupsOfUserGroup t userProfile userGroupId delete add).2 =
        (updateSubgroupsOfUserGroup s userProfile userGroupId delete add).2 ∧
      RealmAgree userProfile.realm
        (updateSubgroupsOfUserGroup s userProfile userGroupId delete add).1
        (updateSubgroupsOfUserGroup t userProfile userGroupId delete add).1 := by
  unfold Zerver.UserGroups.updateSubgroupsOfUserGroup
  split
  · exact ⟨rfl, h⟩
  refine Coupled.atomic h ?_
  simp only [composeViews_pair]
  refine (h.addSubgroupsToGroupBackend hks hcs hkt hct userGroupId add).bind
    fun _ _ hs₁ ht₁ h₁ => ?_
  have hs := realmStep_addSubgroupsToGroupBackend hks hcs hs₁
  have ht := realmStep_addSubgroupsToGroupBackend hkt hct ht₁
  exact h₁.removeSubgroupsFromGroupBackend hs.keys hs.consistent ht.keys ht.consistent _ _

theorem checkDeleteUserGroup (h : RealmAgree realm s t) (hks : s.GroupKeys)
    (hcs : s.RealmConsistent) (hkt : t.GroupKeys) (hct : t.RealmConsistent)
    {userGroup : UserGroup} (hin : s.groupInRealm realm userGroup.id = true)
    (actingUser : UserProfile) :
    Coupled (RealmAgree realm) (checkDeleteUserGroup s userGroup actingUser)
      (checkDeleteUserGroup t userGroup actingUser) := by
  have hp : ∀ x : Store, x.GroupKeys → x.RealmConsistent →
      x.groupInRealm realm userGroup.id = true → ∀ g ∈ x.groups,
        (g.isNamed && g.canMentionGroup == userGroup.id && g.id != userGroup.id) = true →
          g.realm = realm := by
    intro x hk hc hin g hg hp
    simp only [Bool.and_eq_true, beq_iff_eq] at hp
    exact hc.realm_of_setting hk hg hp.1.1 (hp.1.2 ▸ hin)
  unfold Zerver.UserGroups.checkDeleteUserGroup
  rw [h.any_groups (hp s hks hcs hin) (hp t hkt hct (by rw [h.groupInRealm]; exact hin))]
  split
  · exact .error _
  · exact .ok (h.deleteGroup userGroup actingUser)

theorem deleteUserGroup (h : RealmAgree userProfile.realm s t) (hks : s.GroupKeys)
    (hcs : s.RealmConsistent) (hkt : t.GroupKeys) (hct : t.RealmConsistent) (userGroupId : Int) :
    (deleteUserGroup t userProfile userGroupId).2 = (deleteUserGroup s userProfile userGroupId).2 ∧
      RealmAgree userProfile.realm (deleteUserGroup s userProfile userGroupId).1
        (deleteUserGroup t userProfile userGroupId).1 := by
  unfold Zerver.UserGroups.deleteUserGroup
  refine Coupled.atomic h ?_
  rw [h.lockSubgroupsWithRespectToSupergroup_eq hks hcs hkt hct]
  exact .bind_eq fun _ hcontext =>
    h.checkDeleteUserGroup hks hcs hkt hct (groupInRealm_supergroup hcontext) userProfile

theorem editGroupName (h : RealmAgree realm s t) {userGroup : UserGroup}
    (hgr : userGroup.realm = realm) (actingUser : UserProfile) (name : Option String) :
    Coupled (RealmAgree realm) (editGroupName s actingUser userGroup name)
      (editGroupName t actingUser userGroup name) := by
  cases name with
  | none => exact .ok h
  | some name =>
      simp only [Zerver.UserGroups.editGroupName]
      split
      · refine .bind_eq fun name _ => ?_
        unfold doUpdateUserGroupName
        rw [hgr, h.nameTaken_eq]
        split
        · exact .error _
        · refine .ok (h.modifyGroup ?_ _ _)
          exact fun _ => ⟨rfl, rfl, rfl⟩
      · exact .ok h

theorem editGroupDescription (h : RealmAgree realm s t) (actingUser : UserProfile)
    (userGroup : UserGroup) (description : Option String) :
    RealmAgree realm (editGroupDescription s actingUser userGroup description)
      (editGroupDescription t actingUser userGroup description) := by
  cases description with
  | none => exact h
  | some description =>
      simp only [Zerver.UserGroups.editGroupDescription]
      split
      · refine h.modifyGroup ?_ _ _
        exact fun _ => ⟨rfl, rfl, rfl⟩
      · exact h

theorem accessUserGroupForSetting (h : RealmAgree userProfile.realm s t) (hks : s.GroupKeys)
    (hcs : s.RealmConsistent) (hkt : t.GroupKeys) (hct : t.RealmConsistent)
    (value : GroupSettingValue) :
    Coupled (Paired userProfile.realm) (accessUserGroupForSetting s value userProfile)
      (accessUserGroupForSetting t value userProfile) := by
  cases value with
  | groupId groupId =>
      simp only [Zerver.UserGroups.accessUserGroupForSetting, h.accessUserGroupById_eq]
      exact .bind_eq fun _ _ => .ok ⟨h, rfl⟩
  | anonymous value =>
      simp only [Zerver.UserGroups.accessUserGroupForSetting, h.userIdsToUsers_eq,
        h.namedGroupsOfRealm_eq]
      refine .bind_eq fun _ _ => ?_
      split
      · exact .error _
      · exact .ok ⟨h.createGroup hks hcs hkt hct userProfile, by simp [h.nextGroupId]⟩

theorem editGroupSetting (h : RealmAgree userProfile.realm s t) (hks : s.GroupKeys)
    (hcs : s.RealmConsistent) (hkt : t.GroupKeys) (hct : t.RealmConsistent)
    {userGroup : UserGroup}
    (hcm : s.groupInRealm userProfile.realm userGroup.canMentionGroup = true)
    (value : GroupSettingRequest) :
    Coupled (RealmAgree userProfile.realm) (editGroupSetting s userProfile userGroup value)
      (editGroupSetting t userProfile userGroup value) := by
  unfold Zerver.UserGroups.editGroupSetting
  rw [h.getGroupById_eq hks hkt hcm]
  refine .bind_eq fun current hcurrent => ?_
  have hin : s.groupInRealm userProfile.realm current.id = true := by
    rw [getGroupById_id hcurrent]
    exact hcm
  simp only [h.checkSettingValueChanged_eq hin]
  split
  · refine (h.accessUserGroupForSetting hks hcs hkt hct _).bind fun ⟨_, _⟩ ⟨_, _⟩ _ _ hpq => ?_
    obtain ⟨h₁, rfl⟩ := hpq
    refine .ok (h₁.modifyGroup ?_ _ _)
    exact fun _ => ⟨rfl, rfl, rfl⟩
  · exact .ok h

theorem editUserGroupBody (h : RealmAgree userProfile.realm s t) (hks : s.GroupKeys)
    (hcs : s.RealmConsistent) (hkt : t.GroupKeys) (hct : t.RealmConsistent) (userGroupId : Int)
    (name description : Option String) (canMentionGroup : Option GroupSettingRequest) :
    Coupled (RealmAgree userProfile.realm)
      (editUserGroupBody s userProfile userGroupId name description canMentionGroup)
      (editUserGroupBody t userProfile userGroupId name description canMentionGroup) := by
  unfold Zerver.UserGroups.editUserGroupBody
  split
  · exact .error _
  rw [h.accessUserGroupById_eq]
  refine .bind_eq fun userGroup hg => ?_
  obtain ⟨hgmem, -, hgr, hnamed⟩ := accessUserGroupById_eq_ok hg
  have hgt : accessUserGroupById t userGroupId userProfile = .ok userGroup :=
    (h.accessUserGroupById_eq userGroupId).trans hg
  refine (h.editGroupName hgr userProfile name).bind fun _ _ hs₁ ht₁ h₁ => ?_
  obtain ⟨_, hedit, hs⟩ := realmStep_editGroupDescription hks hcs description hg hs₁
  obtain ⟨_, -, ht⟩ := realmStep_editGroupDescription hkt hct description hgt ht₁
  have h₂ := h₁.editGroupDescription userProfile userGroup description
  cases canMentionGroup with
  | none => exact .ok h₂
  | some value =>
      obtain ⟨k, hk, hkid, hkr⟩ := hcs.settings userGroup hgmem hnamed
      have hcm : s.groupInRealm userProfile.realm userGroup.canMentionGroup = true :=
        hkid ▸ groupInRealm_eq_true hk (hkr.trans hgr)
      exact h₂.editGroupSetting hs.keys hs.consistent ht.keys ht.consistent
        (by rw [hedit.groupInRealm]; exact hcm) value

theorem editUserGroup (h : RealmAgree userProfile.realm s t) (hks : s.GroupKeys)
    (hcs : s.RealmConsistent) (hkt : t.GroupKeys) (hct : t.RealmConsistent) (userGroupId : Int)
    (name description : Option String) (canMentionGroup : Option GroupSettingRequest) :
    (editUserGroup t userProfile userGroupId name description canMentionGroup).2 =
        (editUserGroup s userProfile userGroupId name description canMentionGroup).2 ∧
      RealmAgree userProfile.realm
        (editUserGroup s userProfile userGroupId name description canMentionGroup).1
        (editUserGroup t userProfile userGroupId name description canMentionGroup).1 :=
  Coupled.atomic h (h.editUserGroupBody hks hcs hkt hct userGroupId name description
    canMentionGroup)

theorem prepareUserGroup (h : RealmAgree userProfile.realm s t) (hks : s.GroupKeys)
    (hcs : s.RealmConsistent) (hkt : t.GroupKeys) (hct : t.RealmConsistent) (name : String)
    (members : List Int) (canMentionGroup : Option GroupSettingRequest) :
    Coupled (Paired userProfile.realm) (prepareUserGroup s userProfile name members canMentionGroup)
      (prepareUserGroup t userProfile name members canMentionGroup) := by
  simp only [Zerver.UserGroups.prepareUserGroup, h.userIdsToUsers_eq]
  refine .bind_eq fun _ _ => .bind_eq fun _ _ => ?_
  cases canMentionGroup with
  | none => exact .ok ⟨h, rfl⟩
  | some value =>
      refine (h.accessUserGroupForSetting hks hcs hkt hct _).bind fun ⟨_, _⟩ ⟨_, _⟩ _ _ hpq => ?_
      obtain ⟨h₁, rfl⟩ := hpq
      exact .ok ⟨h₁, rfl⟩

theorem checkAddUserGroup (h : RealmAgree realm s t) (hks : s.GroupKeys)
    (hcs : s.RealmConsistent) (hkt : t.GroupKeys) (hct : t.RealmConsistent)
    (permissionConfig : GroupPermissionSetting) (name : String) (initialMembers : List UserProfile)
    (description : String) (groupSettingsMap : Option UserGroup) (actingUser : UserProfile) :
    Coupled (RealmAgree realm)
      (checkAddUserGroup s permissionConfig realm name initialMembers description groupSettingsMap
        actingUser)
      (checkAddUserGroup t permissionConfig realm name initialMembers description groupSettingsMap
        actingUser) := by
  unfold Zerver.UserGroups.checkAddUserGroup
  rw [h.nextGroupId, h.nameTaken_eq, h.defaultSettingGroup_eq]
  split
  · exact .error _
  · exact .bind_eq fun _ _ => .ok ((h.createGroup hks hcs hkt hct actingUser).withLog _ _)

theorem addUserGroup (h : RealmAgree userProfile.realm s t) (hks : s.GroupKeys)
    (hcs : s.RealmConsistent) (hkt : t.GroupKeys) (hct : t.RealmConsistent)
    (permissionConfig : GroupPermissionSetting) (name : String) (members : List Int)
    (description : String) (canMentionGroup : Option GroupSettingRequest) :
    (addUserGroup permissionConfig t userProfile name members description canMentionGroup).2 =
        (addUserGroup permissionConfig s userProfile name members description canMentionGroup).2 ∧
      RealmAgree userProfile.realm
        (addUserGroup permissionConfig s userProfile name members description canMentionGroup).1
        (addUserGroup permissionConfig t userProfile name members description canMentionGroup).1 := by
  unfold Zerver.UserGroups.addUserGroup
  rcases (h.prepareUserGroup hks hcs hkt hct name members canMentionGroup).elim with
    ⟨e, hs, ht⟩ | ⟨⟨s₁, q⟩, ⟨t₁, q'⟩, hs, ht, h₁, hq⟩ <;> rw [hs, ht]
  · exact ⟨rfl, h⟩
  · obtain rfl : q = q' := hq
    have hs₁ := (realmStep_prepareUserGroup hks hcs hs).1
    have ht₁ := (realmStep_prepareUserGroup hkt hct ht).1
    exact Coupled.atomic h₁ (h₁.checkAddUserGroup hs₁.keys hs₁.consistent ht₁.keys ht₁.consistent
      _ _ _ _ _ _)

/-- **A request cannot tell apart two stores that agree on its acting user's realm**: it gets the
same outcome on both, error text included, and leaves stores that again agree on the realm. -/
theorem handle (h : RealmAgree userProfile.realm s t) (hks : s.GroupKeys)
    (hcs : s.RealmConsistent) (hkt : t.GroupKeys) (hct : t.RealmConsistent)
    (permissionConfig : GroupPermissionSetting) (request : Request) :
    (handle permissionConfig t userProfile request).2 =
        (handle permissionConfig s userProfile request).2 ∧
      RealmAgree userProfile.realm (handle permissionConfig s userProfile request).1
        (handle permissionConfig t userProfile request).1 := by
  cases request <;> simp only [Zerver.UserGroups.handle]
  · exact h.addUserGroup hks hcs hkt hct ..
  · exact h.editUserGroup hks hcs hkt hct ..
  · exact h.deleteUserGroup hks hcs hkt hct _
  · exact h.updateUserGroupBackend ..
  · exact h.updateSubgroupsOfUserGroup hks hcs hkt hct ..

end RealmAgree

end Zerver.UserGroups

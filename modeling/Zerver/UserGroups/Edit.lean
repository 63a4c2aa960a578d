import Zerver.UserGroups.Subgroups
import Mathlib.Data.String.Basic

/-!
# Editing a group

`edit_user_group` fetches the group once, renames it when the name differs from the row's,
changes the description when it differs, and changes `can_mention_group` when
`check_setting_value_changed` finds the stored value and the request different.  This module
states once what each step does (`editGroupName_rowEdit`, `editGroupDescription_rowEdit`,
`editGroupSetting_eq_ok`, `accessUserGroupForSetting_eq_ok`, `editUserGroupBody_eq_ok`), and
proves that a request that succeeded once writes nothing when it is sent again.

## Design Notes

The three writes of an edit change one column of the group's rows each and keep every row's id,
realm and kind.  `RowEdit` says this of two stores, and the readers a second request uses (the
group lookup, the setting's row, its API form) see through it.  The only other write is the
anonymous group `access_user_group_for_setting` may create: a fresh, unnamed row whose id no
membership row mentions yet, which is where the primary keys of `Store.Schema` come in.
-/

namespace Zerver.UserGroups

/-! ## Column updates -/

/-- A row update that keeps the row's id, realm and kind. -/
def KeepsKey (f : UserGroup → UserGroup) : Prop :=
  ∀ g, (f g).id = g.id ∧ (f g).realm = g.realm ∧ (f g).isNamed = g.isNamed

/-- **`t` is `s` with columns of one group's rows changed** by an update that keeps each row's
key; the membership tables, the users and the id sequence are `s`'s. -/
structure RowEdit (s t : Store) (groupId : Int) (f : UserGroup → UserGroup) : Prop where
  keepsKey : KeepsKey f
  groups : t.groups = (s.modifyGroup groupId f).groups
  users : t.users = s.users
  memberships : t.memberships = s.memberships
  groupMemberships : t.groupMemberships = s.groupMemberships
  nextGroupId : t.nextGroupId = s.nextGroupId

namespace RowEdit

variable {s t u : Store} {groupId : Int} {f f' : UserGroup → UserGroup}

theorem refl (s : Store) (groupId : Int) : RowEdit s s groupId id :=
  ⟨fun _ => ⟨rfl, rfl, rfl⟩, by simp [Store.modifyGroup], rfl, rfl, rfl, rfl⟩

/-- A `save(update_fields=...)` of one group's columns, with its audit-log entry. -/
theorem modifyGroup (hf : KeepsKey f) (l : List AuditLogEntry) :
    RowEdit s { s.modifyGroup groupId f with auditLog := l } groupId f :=
  ⟨hf, rfl, rfl, rfl, rfl, rfl⟩

theorem trans (h₁ : RowEdit s t groupId f) (h₂ : RowEdit t u groupId f') :
    RowEdit s u groupId (f' ∘ f) := by
  refine ⟨fun g => ?_, ?_, h₂.users.trans h₁.users, h₂.memberships.trans h₁.memberships,
    h₂.groupMemberships.trans h₁.groupMemberships, h₂.nextGroupId.trans h₁.nextGroupId⟩
  · obtain ⟨i₁, r₁, n₁⟩ := h₁.keepsKey g
    obtain ⟨i₂, r₂, n₂⟩ := h₂.keepsKey (f g)
    exact ⟨i₂.trans i₁, r₂.trans r₁, n₂.trans n₁⟩
  · rw [h₂.groups, Store.modifyGroup, h₁.groups]
    simp only [Store.modifyGroup, List.map_map]
    refine List.map_congr_left fun g _ => ?_
    by_cases hg : g.id = groupId <;> simp [hg, (h₁.keepsKey g).1]

/-- The row an update leaves in place of `g`. -/
theorem map_id (h : RowEdit s t groupId f) (g : UserGroup) :
    (if g.id = groupId then f g else g).id = g.id := by
  split
  · exact (h.keepsKey g).1
  · rfl

/-- A lookup by a predicate of the key finds the updated row in place of the old one. -/
theorem find?_groups (h : RowEdit s t groupId f) {p : UserGroup → Bool}
    (hp : ∀ g, p (f g) = p g) :
    t.groups.find? p = (s.groups.find? p).map fun g => if g.id = groupId then f g else g := by
  rw [h.groups, Store.modifyGroup, List.find?_map]
  congr 2
  funext g
  by_cases hg : g.id = groupId <;> simp [hg, hp]

theorem accessUserGroupById (h : RowEdit s t groupId f) {userGroupId : Int}
    {userProfile : UserProfile} {g : UserGroup}
    (hacc : Zerver.UserGroups.accessUserGroupById s userGroupId userProfile = .ok g) :
    Zerver.UserGroups.accessUserGroupById t userGroupId userProfile =
      .ok (if g.id = groupId then f g else g) := by
  unfold Zerver.UserGroups.accessUserGroupById at hacc ⊢
  rw [h.find?_groups fun g => by
    obtain ⟨hi, hr, hn⟩ := h.keepsKey g
    rw [hi, hr, hn]]
  split at hacc <;> rename_i hfind <;> simp only [hfind] at hacc ⊢ <;> cases hacc
  rfl

theorem getGroupById (h : RowEdit s t groupId f) {x : Int} {g : UserGroup}
    (hget : Zerver.UserGroups.getGroupById s x = .ok g) :
    Zerver.UserGroups.getGroupById t x = .ok (if g.id = groupId then f g else g) := by
  unfold Zerver.UserGroups.getGroupById at hget ⊢
  rw [h.find?_groups fun g => by rw [(h.keepsKey g).1]]
  split at hget <;> rename_i hfind <;> simp only [hfind] at hget ⊢ <;> cases hget
  rfl

/-- The API form of a setting group does not see an update of columns other than the key. -/
theorem api (h : RowEdit s t groupId f) (g : UserGroup) :
    getGroupSettingValueForApi t (if g.id = groupId then f g else g) =
      getGroupSettingValueForApi s g := by
  have hn : (if g.id = groupId then f g else g).isNamed = g.isNamed := by
    split
    · exact (h.keepsKey g).2.2
    · rfl
  simp only [getGroupSettingValueForApi, hn, h.map_id, Store.directMemberIds,
    Store.directSubgroupIds, h.memberships, h.groupMemberships]

theorem groupIds (h : RowEdit s t groupId f) :
    t.groups.map UserGroup.id = s.groups.map UserGroup.id := by
  rw [h.groups, Store.modifyGroup, List.map_map]
  exact List.map_congr_left fun g _ => h.map_id g

/-- An update that keeps the key and the setting column keeps the database's constraints. -/
theorem schema (h : RowEdit s t groupId f) (hs : s.Schema)
    (hsetting : ∀ g, (f g).canMentionGroup = g.canMentionGroup) : t.Schema := by
  have hgroup : ∀ x, s.HasGroup x → t.HasGroup x := fun x ⟨g, hg, hx⟩ =>
    ⟨if g.id = groupId then f g else g, h.groups ▸ List.mem_map_of_mem _ hg, (h.map_id g).trans hx⟩
  refine ⟨h.users ▸ hs.userIdsNodup, h.groupIds ▸ hs.groupIdsNodup, ?_,
    fun m hm => hgroup _ (hs.membershipGroup m (h.memberships ▸ hm)),
    fun e he => hgroup _ (hs.supergroupExists e (h.groupMemberships ▸ he)),
    fun e he => hgroup _ (hs.subgroupExists e (h.groupMemberships ▸ he)), ?_⟩
  · intro g' hg'
    rw [h.groups] at hg'
    obtain ⟨g, hg, rfl⟩ := List.mem_map.mp hg'
    rw [h.map_id, h.nextGroupId]
    exact hs.id_lt_next g hg
  · intro g' hg' hnamed
    rw [h.groups] at hg'
    obtain ⟨g, hg, rfl⟩ := List.mem_map.mp hg'
    by_cases hgid : g.id = groupId
    · simp only [hgid, if_true, hsetting] at hnamed ⊢
      exact hgroup _ (hs.settingExists g hg ((h.keepsKey g).2.2 ▸ hnamed))
    · simp only [hgid, if_false] at hnamed ⊢
      exact hgroup _ (hs.settingExists g hg hnamed)

end RowEdit

/-! ## The steps of an edit -/

section Steps

variable {s s' : Store} {userProfile : UserProfile} {userGroup : UserGroup}

theorem checkUserGroupName_eq_ok {name name' : String} (h : checkUserGroupName name = .ok name') :
    name' = name ∧ name.trim ≠ "" := by
  unfold checkUserGroupName at h
  split at h
  · cases h
  · cases h
    exact ⟨rfl, ‹_›⟩

/-- The name the examples of this development use passes the check.  `String.trim` is by
well-founded recursion and does not evaluate, so the check is taken apart by hand. -/
theorem checkUserGroupName_eng : checkUserGroupName "eng" = .ok "eng" := by
  have hleft : Substring.takeWhileAux "eng" "eng".endPos Char.isWhitespace 0 = 0 := by
    rw [Substring.takeWhileAux]; decide
  have hright : Substring.takeRightWhileAux "eng" 0 Char.isWhitespace "eng".endPos =
      "eng".endPos := by
    rw [Substring.takeRightWhileAux]; decide
  have htrim : "eng".trim = "eng" := by
    show (Substring.trim ⟨"eng", 0, "eng".endPos⟩).toString = "eng"
    simp only [Substring.trim, hleft, hright]
    decide
  simp [checkUserGroupName, htrim]

/-- **The name step** renames the group's rows, or leaves the store alone when the name is
absent or the row's own. -/
theorem editGroupName_rowEdit {name : Option String}
    (h : editGroupName s userProfile userGroup name = .ok s') :
    ∃ f, RowEdit s s' userGroup.id f ∧ (∀ n, name = some n → (f userGroup).name = n) ∧
      ∀ g, (f g).description = g.description ∧ (f g).canMentionGroup = g.canMentionGroup := by
  cases name with
  | none =>
      obtain rfl := pure_eq_ok.mp h
      exact ⟨id, .refl s _, by simp, fun _ => ⟨rfl, rfl⟩⟩
  | some n =>
      by_cases hsame : n = userGroup.name
      · simp only [editGroupName, hsame, bne_self_eq_false, Bool.false_eq_true, if_false,
          pure_eq_ok] at h
        subst h
        exact ⟨id, .refl s _, fun _ h => by cases h; exact hsame.symm, fun _ => ⟨rfl, rfl⟩⟩
      · simp only [editGroupName, bne_iff_ne, ne_eq, hsame, not_false_eq_true, if_true] at h
        obtain ⟨n', hn', h'⟩ := bind_eq_ok.mp h
        rw [(checkUserGroupName_eq_ok hn').1] at h'
        unfold doUpdateUserGroupName at h'
        split at h'
        · cases h'
        · cases h'
          refine ⟨fun g => { g with name := n }, .modifyGroup ?_ _, by simp, fun _ => ⟨rfl, rfl⟩⟩
          exact fun _ => ⟨rfl, rfl, rfl⟩

/-- **The description step** changes the description of the group's rows, or leaves the store
alone when the description is absent or the fetched row's own. -/
theorem editGroupDescription_rowEdit (s : Store) (userProfile : UserProfile)
    (userGroup : UserGroup) (description : Option String) :
    ∃ f, RowEdit s (editGroupDescription s userProfile userGroup description) userGroup.id f ∧
      (∀ d, description = some d → ∀ g, g.description = userGroup.description →
        (f g).description = d) ∧
      ∀ g, (f g).name = g.name ∧ (f g).canMentionGroup = g.canMentionGroup := by
  cases description with
  | none => exact ⟨id, .refl s _, by simp, fun _ => ⟨rfl, rfl⟩⟩
  | some d =>
      by_cases hsame : d = userGroup.description
      · have hskip : editGroupDescription s userProfile userGroup (some d) = s := by
          simp [editGroupDescription, hsame]
        rw [hskip]
        exact ⟨id, .refl s _, fun _ h g hg => by cases h; exact hg.trans hsame.symm,
          fun _ => ⟨rfl, rfl⟩⟩
      · have hwrite : editGroupDescription s userProfile userGroup (some d) =
            doUpdateUserGroupDescription s userGroup d userProfile := by
          simp [editGroupDescription, hsame]
        rw [hwrite]
        refine ⟨fun g => { g with description := d }, .modifyGroup ?_ _, by simp,
          fun _ => ⟨rfl, rfl⟩⟩
        exact fun _ => ⟨rfl, rfl, rfl⟩

/-- **`access_user_group_for_setting`**: a group id resolves to an accessible group and writes
nothing; an anonymous value, once its members and subgroups resolve, creates an unnamed group with
them. -/
theorem accessUserGroupForSetting_eq_ok {value : GroupSettingValue} {p : Store × UserGroup}
    (h : accessUserGroupForSetting s value userProfile = .ok p) :
    (∃ groupId, value = .groupId groupId ∧ accessUserGroupById s groupId userProfile = .ok p.2 ∧
      p.1 = s) ∨
    ∃ v, value = .anonymous v ∧ ∃ members,
      userIdsToUsers s v.directMembers userProfile.realm = .ok members ∧
      (∀ groupId ∈ v.directSubgroups, ∃ g ∈ namedGroupsOfRealm s v.directSubgroups
        userProfile.realm, g.id = groupId) ∧
      p = s.createGroup userProfile.realm false "" "" 0 members
        (namedGroupsOfRealm s v.directSubgroups userProfile.realm) userProfile := by
  unfold accessUserGroupForSetting at h
  split at h
  · obtain ⟨g, hg, h⟩ := bind_eq_ok.mp h
    obtain rfl := pure_eq_ok.mp h
    exact .inl ⟨_, rfl, hg, rfl⟩
  · obtain ⟨members, hmembers, h⟩ := bind_eq_ok.mp h
    dsimp only at h
    split at h
    · cases h
    · rename_i hnone
      obtain rfl := pure_eq_ok.mp h
      refine .inr ⟨_, rfl, members, hmembers, fun groupId hid => ?_, rfl⟩
      simpa [and_assoc] using List.find?_eq_none.mp hnone groupId hid

/-- **The setting step**: the stored setting's row is read; when the request means the same
setting nothing happens, and otherwise the request is resolved and the group's setting column
written. -/
theorem editGroupSetting_eq_ok {value : GroupSettingRequest}
    (h : editGroupSetting s userProfile userGroup value = .ok s') :
    ∃ current, getGroupById s userGroup.canMentionGroup = .ok current ∧
      ((checkSettingValueChanged s current (parseGroupSettingValue value) = false ∧ s' = s) ∨
        ∃ p, accessUserGroupForSetting s (parseGroupSettingValue value) userProfile = .ok p ∧
          s' = doChangeUserGroupPermissionSetting p.1 userGroup "can_mention_group" p.2
            userProfile) := by
  unfold editGroupSetting at h
  obtain ⟨current, hcurrent, h⟩ := bind_eq_ok.mp h
  refine ⟨current, hcurrent, ?_⟩
  dsimp only at h
  split at h
  · obtain ⟨p, hp, h⟩ := bind_eq_ok.mp h
    exact .inr ⟨p, hp, (pure_eq_ok.mp h).symm⟩
  · rename_i hsame
    exact .inl ⟨by simpa using hsame, (pure_eq_ok.mp h).symm⟩

/-- **`edit_user_group`'s body**: some data is given, the group is accessible, and the name,
description and setting steps succeed in turn. -/
theorem editUserGroupBody_eq_ok {userGroupId : Int} {name description : Option String}
    {canMentionGroup : Option GroupSettingRequest} :
    editUserGroupBody s userProfile userGroupId name description canMentionGroup = .ok s' ↔
      ¬ (name = none ∧ description = none ∧ canMentionGroup = none) ∧
        ∃ userGroup, accessUserGroupById s userGroupId userProfile = .ok userGroup ∧
          ∃ s₁, editGroupName s userProfile userGroup name = .ok s₁ ∧
            (canMentionGroup = none →
              s' = editGroupDescription s₁ userProfile userGroup description) ∧
            ∀ value, canMentionGroup = some value → editGroupSetting
              (editGroupDescription s₁ userProfile userGroup description) userProfile userGroup
              value = .ok s' := by
  unfold editUserGroupBody
  by_cases hnone : name = none ∧ description = none ∧ canMentionGroup = none
  · obtain ⟨rfl, rfl, rfl⟩ := hnone
    simp
  · rw [if_neg (by simpa [and_assoc] using hnone)]
    simp only [bind_eq_ok, hnone, not_false_eq_true, true_and]
    refine exists_congr fun g => and_congr_right fun _ => exists_congr fun s₁ =>
      and_congr_right fun _ => ?_
    cases canMentionGroup with
    | none =>
        exact ⟨fun h => ⟨fun _ => (pure_eq_ok.mp h).symm, fun _ h => by cases h⟩,
          fun h => pure_eq_ok.mpr (h.1 rfl).symm⟩
    | some value => simp

end Steps

/-! ## Sending an edit again -/

section Repeat

variable {s s₁ : Store} {userProfile : UserProfile}

/-- With group ids a key, a group's row is found by its id. -/
theorem getGroupById_of_mem (hnodup : (s.groups.map UserGroup.id).Nodup) {g : UserGroup}
    (hg : g ∈ s.groups) : getGroupById s g.id = .ok g := by
  unfold getGroupById
  cases hfind : s.groups.find? (·.id == g.id) with
  | none => exact absurd (List.find?_eq_none.mp hfind g hg) (by simp)
  | some r =>
      have hr := List.find?_some hfind
      simp only [beq_iff_eq] at hr
      rw [List.inj_on_of_nodup_map hnodup (List.mem_of_find?_eq_some hfind) hg hr]

section CreateGroup

variable {realm : Nat} {isNamed : Bool} {name description : String} {canMentionGroup : Int}
  {members : List UserProfile} {subgroups : List UserGroup}

/-- A new anonymous group is not a group `access_user_group_by_id` resolves. -/
theorem accessUserGroupById_createGroup_unnamed {userGroupId : Int} :
    accessUserGroupById (s.createGroup realm false name description canMentionGroup members
      subgroups userProfile).1 userGroupId userProfile =
      accessUserGroupById s userGroupId userProfile := by
  simp only [accessUserGroupById, createGroup_fst_groups, List.find?_append]
  simp

/-- The new row is the only row with the next id of the sequence. -/
theorem getGroupById_createGroup (hs : s.Schema) :
    getGroupById (s.createGroup realm isNamed name description canMentionGroup members subgroups
      userProfile).1 s.nextGroupId =
      .ok (s.createGroup realm isNamed name description canMentionGroup members subgroups
        userProfile).2 := by
  have hnone : s.groups.find? (·.id == s.nextGroupId) = none :=
    List.find?_eq_none.mpr fun g hg => by simpa using (hs.id_lt_next g hg).ne
  simp [getGroupById, hnone]

/-- **A new anonymous group means its members and subgroups**: no membership row named its id
before it was created. -/
theorem meaning_createGroup_unnamed (hs : s.Schema) :
    (getGroupSettingValueForApi (s.createGroup realm false name description canMentionGroup
      members subgroups userProfile).1 (s.createGroup realm false name description canMentionGroup
      members subgroups userProfile).2).meaning =
      .sets (members.map UserProfile.id).toFinset (subgroups.map UserGroup.id).toFinset := by
  have hm : ∀ x, (s.nextGroupId, x) ∉ s.memberships := fun x hx =>
    hs.not_hasGroup_next (hs.membershipGroup _ hx)
  have he : ∀ x, (s.nextGroupId, x) ∉ s.groupMemberships := fun x hx =>
    (hs.next_not_mem_edges _ hx).1 rfl
  simp only [getGroupSettingValueForApi, createGroup_snd, Bool.false_eq_true, if_false,
    GroupSettingValue.meaning, SettingMeaning.sets.injEq]
  constructor <;> ext x <;> simp [hm, he]

end CreateGroup

/-- The setting step's write changes the group's setting column. -/
theorem doChangeUserGroupPermissionSetting_rowEdit (t : Store) (g h : UserGroup)
    (userProfile : UserProfile) :
    RowEdit t (doChangeUserGroupPermissionSetting t g "can_mention_group" h userProfile) g.id
      fun r => { r with canMentionGroup := h.id } := by
  refine .modifyGroup ?_ _
  exact fun _ => ⟨rfl, rfl, rfl⟩

/-- **A resolved setting reads back as the request**: the group `access_user_group_for_setting`
resolves a request to is found by its id, and means what the request means. -/
theorem accessUserGroupForSetting_reads_back {t : Store} (ht : t.Schema)
    {value : GroupSettingRequest} {p : Store × UserGroup}
    (hp : accessUserGroupForSetting t (parseGroupSettingValue value) userProfile = .ok p) :
    getGroupById p.1 p.2.id = .ok p.2 ∧
      checkSettingValueChanged p.1 p.2 (parseGroupSettingValue value) = false := by
  rcases accessUserGroupForSetting_eq_ok hp with ⟨h', hval, hH, hp₁⟩ |
    ⟨v, hval, members, husers, hsubs, rfl⟩
  · -- a named group: its row reads back as its id
    obtain ⟨hHmem, hHid, -, hHnamed⟩ := accessUserGroupById_eq_ok hH
    refine ⟨getGroupById_of_mem (hp₁ ▸ ht.groupIdsNodup) (hp₁ ▸ hHmem), ?_⟩
    rw [checkSettingValueChanged_eq_false_iff, hval]
    simp [getGroupSettingValueForApi, hHnamed, GroupSettingValue.meaning, hHid]
  · -- a new anonymous group: it reads back as its members and subgroups
    refine ⟨getGroupById_createGroup ht, ?_⟩
    rw [checkSettingValueChanged_eq_false_iff, meaning_createGroup_unnamed ht, hval]
    simp only [GroupSettingValue.meaning, SettingMeaning.sets.injEq]
    constructor <;> ext x <;> simp only [List.mem_toFinset]
    · exact mem_ids_of_userIdsToUsers husers
    · constructor
      · rintro hx
        obtain ⟨r, hr, rfl⟩ := List.mem_map.mp hx
        exact (mem_namedGroupsOfRealm.mp hr).2.1
      · intro hx
        obtain ⟨r, hr, rfl⟩ := hsubs x hx
        exact List.mem_map_of_mem _ hr

/-- **A written setting reads back as the request**: once `access_user_group_for_setting` has
resolved a request to a group and the group's setting column names it, the row the column names
means what the request means. -/
theorem checkSettingValueChanged_after_write {t : Store} (ht : t.Schema) {g : UserGroup}
    {value : GroupSettingRequest} {p : Store × UserGroup}
    (hp : accessUserGroupForSetting t (parseGroupSettingValue value) userProfile = .ok p) :
    ∃ current, getGroupById (doChangeUserGroupPermissionSetting p.1 g "can_mention_group" p.2
        userProfile) p.2.id = .ok current ∧
      checkSettingValueChanged (doChangeUserGroupPermissionSetting p.1 g "can_mention_group" p.2
        userProfile) current (parseGroupSettingValue value) = false := by
  have hC := doChangeUserGroupPermissionSetting_rowEdit p.1 g p.2 userProfile
  obtain ⟨hget, hchanged⟩ := accessUserGroupForSetting_reads_back ht hp
  exact ⟨_, hC.getGroupById hget, by simpa only [checkSettingValueChanged, hC.api] using hchanged⟩

/-- **What a successful edit leaves behind**: the group still resolves, to a row with the
requested name and description, and the row its setting names reads back as the requested value.
-/
theorem editUserGroupBody_settled (hs : s.Schema) {userGroupId : Int}
    {name description : Option String} {canMentionGroup : Option GroupSettingRequest}
    (h : editUserGroupBody s userProfile userGroupId name description canMentionGroup = .ok s₁) :
    ∃ g₁, accessUserGroupById s₁ userGroupId userProfile = .ok g₁ ∧
      (∀ n, name = some n → g₁.name = n) ∧ (∀ d, description = some d → g₁.description = d) ∧
      ∀ value, canMentionGroup = some value → ∃ current,
        getGroupById s₁ g₁.canMentionGroup = .ok current ∧
        checkSettingValueChanged s₁ current (parseGroupSettingValue value) = false := by
  obtain ⟨-, g, hacc, sa, hname, hnone, hsome⟩ := editUserGroupBody_eq_ok.mp h
  obtain ⟨f₁, hA, hname₁, hkeep₁⟩ := editGroupName_rowEdit hname
  obtain ⟨f₂, hB, hdesc₂, hkeep₂⟩ := editGroupDescription_rowEdit sa userProfile g description
  generalize editGroupDescription sa userProfile g description = sb at hB hnone hsome
  have hAB := hA.trans hB
  -- the group after the name and description steps
  have hgb : (f₂ (f₁ g)).id = g.id := (hAB.keepsKey g).1
  have haccb : accessUserGroupById sb userGroupId userProfile = .ok (f₂ (f₁ g)) := by
    simpa using hAB.accessUserGroupById hacc
  have hnameb : ∀ n, name = some n → (f₂ (f₁ g)).name = n := fun n hn =>
    (hkeep₂ _).1.trans (hname₁ n hn)
  have hdescb : ∀ d, description = some d → (f₂ (f₁ g)).description = d := fun d hd =>
    hdesc₂ d hd _ (hkeep₁ g).1
  have hcmgb : (f₂ (f₁ g)).canMentionGroup = g.canMentionGroup := (hkeep₂ _).2.trans (hkeep₁ g).2
  cases canMentionGroup with
  | none =>
      obtain rfl := hnone rfl
      exact ⟨_, haccb, hnameb, hdescb, fun _ h => by cases h⟩
  | some value =>
      obtain ⟨current, hcur, ⟨hunch, rfl⟩ | ⟨p, hp, rfl⟩⟩ := editGroupSetting_eq_ok (hsome value rfl)
      · exact ⟨_, haccb, hnameb, hdescb, fun v hv => ⟨current, hcmgb ▸ hcur, by cases hv; exact hunch⟩⟩
      -- the setting step wrote the group's setting column
      have hsb : sb.Schema := hAB.schema hs fun r => (hkeep₂ _).2.trans (hkeep₁ r).2
      have hresolves : accessUserGroupById p.1 userGroupId userProfile = .ok (f₂ (f₁ g)) →
          accessUserGroupById (doChangeUserGroupPermissionSetting p.1 g "can_mention_group" p.2
            userProfile) userGroupId userProfile =
            .ok { f₂ (f₁ g) with canMentionGroup := p.2.id } := fun hacc' => by
        simpa [hgb] using
          (doChangeUserGroupPermissionSetting_rowEdit p.1 g p.2 userProfile).accessUserGroupById hacc'
      refine ⟨{ f₂ (f₁ g) with canMentionGroup := p.2.id }, ?_, hnameb, hdescb, fun v hv => ?_⟩
      · rcases accessUserGroupForSetting_eq_ok hp with ⟨-, -, -, hp₁⟩ | ⟨v, -, members, -, -, rfl⟩
        · exact hresolves (hp₁ ▸ haccb)
        · exact hresolves (accessUserGroupById_createGroup_unnamed.trans haccb)
      cases hv
      exact checkSettingValueChanged_after_write hsb hp

/-- **An edit whose data is already in place writes nothing.** -/
theorem editUserGroupBody_of_settled {userGroupId : Int} {name description : Option String}
    {canMentionGroup : Option GroupSettingRequest} {g : UserGroup}
    (hdata : ¬ (name = none ∧ description = none ∧ canMentionGroup = none))
    (hacc : accessUserGroupById s userGroupId userProfile = .ok g)
    (hname : ∀ n, name = some n → g.name = n)
    (hdesc : ∀ d, description = some d → g.description = d)
    (hsetting : ∀ value, canMentionGroup = some value → ∃ current,
      getGroupById s g.canMentionGroup = .ok current ∧
      checkSettingValueChanged s current (parseGroupSettingValue value) = false) :
    editUserGroupBody s userProfile userGroupId name description canMentionGroup = .ok s := by
  have hnameStep : editGroupName s userProfile g name = .ok s := by
    cases name with
    | none => rfl
    | some n => simp [editGroupName, hname n rfl]
  have hdescStep : editGroupDescription s userProfile g description = s := by
    cases description with
    | none => rfl
    | some d => simp [editGroupDescription, hdesc d rfl]
  refine editUserGroupBody_eq_ok.mpr ⟨hdata, g, hacc, s, hnameStep, fun _ => hdescStep.symm,
    fun value hv => ?_⟩
  obtain ⟨current, hcur, hsame⟩ := hsetting value hv
  rw [hdescStep]
  simp only [editGroupSetting, hcur, bind, Except.bind, hsame]
  rfl

/-- **Sending a successful `edit_user_group` request again** as the same user succeeds and
leaves the store as the first request left it: no rename, no description update, no setting
change and no new anonymous group. -/
theorem editUserGroup_repeat (hs : s.Schema) {userGroupId : Int}
    {name description : Option String} {canMentionGroup : Option GroupSettingRequest}
    (h : (editUserGroup s userProfile userGroupId name description canMentionGroup).2 = .ok ()) :
    editUserGroup (editUserGroup s userProfile userGroupId name description canMentionGroup).1
        userProfile userGroupId name description canMentionGroup =
      ((editUserGroup s userProfile userGroupId name description canMentionGroup).1, .ok ()) := by
  unfold editUserGroup at h ⊢
  cases hbody : editUserGroupBody s userProfile userGroupId name description canMentionGroup with
  | error e => simp [atomic, hbody] at h
  | ok s₁ =>
      have hfirst : atomic (fun s => editUserGroupBody s userProfile userGroupId name description
          canMentionGroup) s = (s₁, .ok ()) := atomic_of_ok hbody
      rw [hfirst]
      obtain ⟨hdata, -⟩ := editUserGroupBody_eq_ok.mp hbody
      obtain ⟨g₁, hacc, hname, hdesc, hsetting⟩ := editUserGroupBody_settled hs hbody
      exact atomic_of_ok (editUserGroupBody_of_settled hdata hacc hname hdesc hsetting)

/-- Describing the group 10 and giving it an anonymous setting, twice. -/
theorem editUserGroup_repeat_team :
    teamStore.Schema ∧
      editUserGroup (editUserGroup teamStore ⟨1, 7, "Ann", false, true⟩ 10 none (some "core")
          (some (.dict [2] [11]))).1 ⟨1, 7, "Ann", false, true⟩ 10 none (some "core")
          (some (.dict [2] [11])) =
        ((editUserGroup teamStore ⟨1, 7, "Ann", false, true⟩ 10 none (some "core")
          (some (.dict [2] [11]))).1, .ok ()) :=
  ⟨teamStore_schema, editUserGroup_repeat teamStore_schema rfl⟩

end Repeat

end Zerver.UserGroups

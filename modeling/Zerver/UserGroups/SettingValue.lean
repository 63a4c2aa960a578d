import Zerver.UserGroups.Store
import Mathlib.Data.Finset.Dedup
import Mathlib.Data.Finset.Card

/-!
# Group-setting values

A group permission setting (here `can_mention_group`) is stored as a reference to a group, and
travels through the API in one of two forms: the id of a named group, or the direct members and
direct subgroups of an anonymous group.  `edit_user_group` compares the stored value with the
submitted one before it resolves the submission, so that an unchanged setting creates no new
anonymous group.

* `parseGroupSettingValue` — `parse_group_setting_value`: a dictionary with no members and one
  subgroup entry collapses to that subgroup's id.
* `areBothSettingValuesEqual` — `are_both_setting_values_equal`, set equality on the two lists.
* `getGroupSettingValueForApi`, `checkSettingValueChanged` — the stored group in API form, and the
  comparison `edit_user_group` makes.

### What the comparison means

`SettingMeaning` is the spec's reading of a value: a group id, or a pair of sets.
`areBothSettingValuesEqual_iff` says the code decides equality of meanings.  The collapse in
`parseGroupSettingValue` tests list *lengths*: a dictionary that lists one subgroup twice does
not collapse, so a value's meaning can depend on repetitions exactly in that corner
(`meaning_parse_eq_of_sameIds` keeps out of it), while reordering never matters
(`meaning_parse_eq_of_perm`).  A group id never means the same as an anonymous value, not even
one with no members and a single subgroup.
-/

namespace Zerver.UserGroups

/-- `AnonymousSettingGroupDict`: the direct members and direct subgroups of an anonymous group. -/
structure AnonymousSettingGroupDict where
  directMembers : List Int
  directSubgroups : List Int
  deriving DecidableEq, Repr

/-- `Union[int, AnonymousSettingGroupDict]`: a setting value in API form. -/
inductive GroupSettingValue where
  | groupId (id : Int)
  | anonymous (value : AnonymousSettingGroupDict)
  deriving DecidableEq, Repr

/-- The JSON value `check_group_setting` accepts: an integer, or a dictionary with exactly the
keys `direct_members` and `direct_subgroups`, each a list of integers. -/
inductive GroupSettingRequest where
  | int (id : Int)
  | dict (directMembers directSubgroups : List Int)
  deriving DecidableEq, Repr

/-- `parse_group_setting_value`.  The second case is the test
`len(direct_members) == 0 and len(direct_subgroups) == 1`. -/
def parseGroupSettingValue : GroupSettingRequest → GroupSettingValue
  | .int settingValue => .groupId settingValue
  | .dict [] [subgroup] => .groupId subgroup
  | .dict directMembers directSubgroups => .anonymous ⟨directMembers, directSubgroups⟩

/-- `are_both_setting_values_equal`: equal ids, or equal `set(...)`s of members and of
subgroups; a group id never equals an anonymous value. -/
def areBothSettingValuesEqual : GroupSettingValue → GroupSettingValue → Bool
  | .groupId first, .groupId second => first == second
  | .anonymous first, .anonymous second =>
      first.directMembers.toFinset == second.directMembers.toFinset &&
        first.directSubgroups.toFinset == second.directSubgroups.toFinset
  | _, _ => false

/-- `get_group_setting_value_for_api`.  Modelled from the spec: `zerver.lib.user_groups` is not in
src/; a named group is given by its id, an anonymous one by its direct member ids and direct
subgroup ids. -/
def getGroupSettingValueForApi (s : Store) (settingValueGroup : UserGroup) : GroupSettingValue :=
  if settingValueGroup.isNamed then .groupId settingValueGroup.id
  else .anonymous ⟨s.directMemberIds settingValueGroup.id, s.directSubgroupIds settingValueGroup.id⟩

/-- `check_setting_value_changed`. -/
def checkSettingValueChanged (s : Store) (currentValue : UserGroup)
    (newSettingValue : GroupSettingValue) : Bool :=
  !areBothSettingValuesEqual (getGroupSettingValueForApi s currentValue) newSettingValue

/-! ## Meanings -/

/-- The spec's reading of a setting value: "two settings are equal iff both are the same group
id, or both are anonymous specs with identical member-id sets and identical subgroup-id sets". -/
inductive SettingMeaning where
  | group (id : Int)
  | sets (members subgroups : Finset Int)
  deriving DecidableEq

/-- The meaning of a value in API form. -/
def GroupSettingValue.meaning : GroupSettingValue → SettingMeaning
  | .groupId id => .group id
  | .anonymous value => .sets value.directMembers.toFinset value.directSubgroups.toFinset

/-- **The comparison decides equality of meanings.** -/
theorem areBothSettingValuesEqual_iff (first second : GroupSettingValue) :
    areBothSettingValuesEqual first second = true ↔ first.meaning = second.meaning := by
  cases first <;> cases second <;>
    simp [areBothSettingValuesEqual, GroupSettingValue.meaning]

theorem checkSettingValueChanged_eq_false_iff (s : Store) (currentValue : UserGroup)
    (newSettingValue : GroupSettingValue) :
    checkSettingValueChanged s currentValue newSettingValue = false ↔
      (getGroupSettingValueForApi s currentValue).meaning = newSettingValue.meaning := by
  simp [checkSettingValueChanged, ← areBothSettingValuesEqual_iff]

/-- A request that lists the same ids as another: the same integer, or dictionaries with the same
set of members and the same set of subgroups. -/
def GroupSettingRequest.SameIds : GroupSettingRequest → GroupSettingRequest → Prop
  | .int a, .int b => a = b
  | .dict m sg, .dict m' sg' => m.toFinset = m'.toFinset ∧ sg.toFinset = sg'.toFinset
  | _, _ => False

/-- A dictionary with no members and one distinct subgroup: the only requests whose meaning
depends on how often the subgroup is listed. -/
def GroupSettingRequest.SingleSubgroupSpec : GroupSettingRequest → Prop
  | .int _ => False
  | .dict m sg => m = [] ∧ sg.toFinset.card = 1

/-- A dictionary that `parseGroupSettingValue` does not collapse means its two sets. -/
theorem meaning_parse_dict_of_not_collapsed {m sg : List Int} (h : ¬ (m = [] ∧ sg.length = 1)) :
    (parseGroupSettingValue (.dict m sg)).meaning = .sets m.toFinset sg.toFinset := by
  match m, sg, h with
  | [], [], _ => rfl
  | [], [_], h => exact absurd ⟨rfl, rfl⟩ h
  | [], _ :: _ :: _, _ => rfl
  | _ :: _, _, _ => rfl

theorem meaning_parse_eq_of_sameIds {r r' : GroupSettingRequest} (hsame : r.SameIds r')
    (hsingle : ¬ r.SingleSubgroupSpec) :
    (parseGroupSettingValue r).meaning = (parseGroupSettingValue r').meaning := by
  cases r with
  | int a =>
      cases r' with
      | int b => cases hsame; rfl
      | dict => exact absurd hsame id
  | dict m sg =>
      cases r' with
      | int => exact absurd hsame id
      | dict m' sg' =>
          obtain ⟨hm, hsg⟩ := hsame
          have hm' : m = [] ↔ m' = [] := by
            simp only [← List.toFinset_eq_empty_iff, hm]
          have collapsed : ∀ {m sg : List Int}, m = [] ∧ sg.length = 1 →
              m = [] ∧ sg.toFinset.card = 1 := fun ⟨hm, hl⟩ => by
            obtain ⟨g, rfl⟩ := List.length_eq_one.mp hl
            exact ⟨hm, by simp⟩
          have hnot : ¬ (m = [] ∧ sg.length = 1) := fun h => hsingle (collapsed h)
          have hnot' : ¬ (m' = [] ∧ sg'.length = 1) := fun h => by
            obtain ⟨h₁, h₂⟩ := collapsed h
            exact hsingle ⟨hm'.mpr h₁, hsg ▸ h₂⟩
          rw [meaning_parse_dict_of_not_collapsed hnot, meaning_parse_dict_of_not_collapsed hnot',
            hm, hsg]

theorem meaning_parse_eq_of_perm {m m' sg sg' : List Int} (hm : m.Perm m') (hsg : sg.Perm sg') :
    (parseGroupSettingValue (.dict m sg)).meaning =
      (parseGroupSettingValue (.dict m' sg')).meaning := by
  by_cases h : m = [] ∧ sg.length = 1
  · obtain ⟨rfl, hl⟩ := h
    obtain ⟨g, rfl⟩ := List.length_eq_one.mp hl
    obtain rfl := hm.symm.eq_nil
    obtain rfl := List.perm_singleton.mp hsg.symm
    rfl
  · have h' : ¬ (m' = [] ∧ sg'.length = 1) := fun ⟨h₁, h₂⟩ =>
      h ⟨List.Perm.eq_nil (h₁ ▸ hm), hsg.length_eq ▸ h₂⟩
    rw [meaning_parse_dict_of_not_collapsed h, meaning_parse_dict_of_not_collapsed h',
      List.toFinset_eq_of_perm _ _ hm, List.toFinset_eq_of_perm _ _ hsg]

/-- Two values with one meaning get the same answer from the comparison. -/
theorem checkSettingValueChanged_congr {s : Store} {currentValue : UserGroup}
    {first second : GroupSettingValue} (h : first.meaning = second.meaning) :
    checkSettingValueChanged s currentValue first =
      checkSettingValueChanged s currentValue second := by
  rw [Bool.eq_iff_iff, ← Bool.not_eq_false, ← Bool.not_eq_false (checkSettingValueChanged _ _ _),
    checkSettingValueChanged_eq_false_iff, checkSettingValueChanged_eq_false_iff, h]

/-- **What `edit_user_group`'s comparison decides.**  The stored value counts as unchanged exactly
when it and the parsed request mean the same setting; reordering a request's lists never changes
the answer, and neither does listing the same ids differently, outside the one corner where the
collapse of `parse_group_setting_value` counts list entries. -/
theorem checkSettingValueChanged_parse (s : Store) (currentValue : UserGroup) :
    (∀ r, checkSettingValueChanged s currentValue (parseGroupSettingValue r) = false ↔
      (getGroupSettingValueForApi s currentValue).meaning = (parseGroupSettingValue r).meaning) ∧
    (∀ m m' sg sg' : List Int, m.Perm m' → sg.Perm sg' →
      checkSettingValueChanged s currentValue (parseGroupSettingValue (.dict m sg)) =
        checkSettingValueChanged s currentValue (parseGroupSettingValue (.dict m' sg'))) ∧
    (∀ r r', r.SameIds r' → ¬ r.SingleSubgroupSpec →
      checkSettingValueChanged s currentValue (parseGroupSettingValue r) =
        checkSettingValueChanged s currentValue (parseGroupSettingValue r')) :=
  ⟨fun _ => checkSettingValueChanged_eq_false_iff _ _ _,
    fun _ _ _ _ hm hsg => checkSettingValueChanged_congr (meaning_parse_eq_of_perm hm hsg),
    fun _ _ hsame hsingle =>
      checkSettingValueChanged_congr (meaning_parse_eq_of_sameIds hsame hsingle)⟩

/-- A store whose group 6 is an anonymous group with no members and the single subgroup 5. -/
def singleSubgroupStore : Store :=
  ⟨[], [⟨5, 1, true, "leads", "", 5⟩, ⟨6, 1, false, "", "", 0⟩], [], [(6, 5)], 7, [], []⟩

/-- The stored value "no members, subgroup 5" and the request `5` mean the group 5 alike, yet the
setting counts as changed: a group id never equals an anonymous value. -/
theorem checkSettingValueChanged_single_subgroup :
    getGroupSettingValueForApi singleSubgroupStore ⟨6, 1, false, "", "", 0⟩ =
        .anonymous ⟨[], [5]⟩ ∧
      checkSettingValueChanged singleSubgroupStore ⟨6, 1, false, "", "", 0⟩
        (parseGroupSettingValue (.int 5)) = true := by
  decide

end Zerver.UserGroups

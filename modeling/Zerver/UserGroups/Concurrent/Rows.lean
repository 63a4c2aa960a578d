import Mathlib.Data.List.Nodup
import Zerver.UserGroups.Concurrent.Locks

/-!
# No subgroup row is written twice

`add_subgroups_to_group_backend` makes two checks, both on what the request reads under its
locks.  The cycle check reads the recursive subgroups the lock helper reads again once its locks
are granted (`Zerver.UserGroups.Concurrent.Acyclic`).  The duplicate check reads the supergroup's
direct subgroups inside the `with` block, under the supergroup's lock.  This module shows that
the second check holds across interleaving: under every schedule of any requests, no
`GroupGroupMembership` row is ever stored twice.

## Main Definitions

* `rowsFrom p s` — the subgroup rows out of group `p`.
* `Write.AddsFrom` — the groups a write adds rows out of lie in a list.
* `Txn.RowsSafe`, `System.RowsSafe` — the invariant: no request reads a duplicate row out of a
  group it has locked, and each adds rows only out of groups it has locked.

## Main Results

* `System.RowsSafe.step`, `System.RowsSafe.run` — every step keeps the invariant.
* `groupMemberships_nodup_run` — no schedule stores a subgroup row twice.

## Design Notes

The invariant is stated one supergroup at a time.  Rows out of `p` are added only by the request
that holds `p`'s lock, and it checks them against what it reads under that lock.  Every other
write, by any request, only deletes rows out of `p` (`Write.rowsFrom_apply_sublist`).  So when a
request commits, the rows out of a group another request holds only lose elements, and what that
other request reads loses the same ones (`rowsFrom_foldl_mono`).
-/

namespace Zerver.UserGroups.Concurrent

/-- The subgroup rows out of group `p`. -/
def rowsFrom (p : Int) (s : Store) : List (Int × Int) :=
  s.groupMemberships.filter fun e => e.1 = p

/-- A table has no duplicate row when no group has a duplicate row out of it. -/
theorem nodup_of_rowsFrom {s : Store} (h : ∀ p, (rowsFrom p s).Nodup) :
    s.groupMemberships.Nodup :=
  List.nodup_iff_sublist.mpr fun e he =>
    List.nodup_iff_sublist.mp (h e.1) e (by simpa [rowsFrom] using he.filter fun x => x.1 = e.1)

/-! ## Writes, one supergroup at a time -/

/-- The groups the write adds rows out of lie in `held`. -/
def Write.AddsFrom (held : List Int) : Write → Prop
  | .addSubgroups userGroup .. => userGroup.id ∈ held
  | _ => True

namespace Write

variable {p : Int}

theorem AddsFrom.mono {w : Write} {held held' : List Int} (h : w.AddsFrom held)
    (hsub : ∀ x ∈ held, x ∈ held') : w.AddsFrom held' := by
  cases w with
  | addSubgroups => exact hsub _ h
  | removeSubgroups | deleteGroup => trivial

/-- **A write adds no row out of a group it does not add out of**: every other write only
deletes rows. -/
theorem rowsFrom_apply_sublist {w : Write} {held : List Int} (hw : w.AddsFrom held)
    (hp : p ∉ held) (s : Store) : (rowsFrom p (w.apply s)).Sublist (rowsFrom p s) := by
  cases w with
  | addSubgroups userGroup =>
      have hne : userGroup.id ≠ p := fun h => hp (h ▸ hw)
      simp [apply, addSubgroupsToUserGroup, rowsFrom, List.filter_append, List.filter_map,
        Function.comp_def, hne]
  | removeSubgroups | deleteGroup => exact (List.filter_sublist _).filter _

/-- A write keeps the rows out of `p` of a store below those of another. -/
theorem rowsFrom_apply_mono (w : Write) {s s' : Store}
    (h : (rowsFrom p s').Sublist (rowsFrom p s)) :
    (rowsFrom p (w.apply s')).Sublist (rowsFrom p (w.apply s)) := by
  have hcomm : ∀ (q : Int × Int → Bool) (l : List (Int × Int)),
      (l.filter q).filter (fun e => e.1 = p) = (l.filter fun e => e.1 = p).filter q :=
    fun q l => by simp only [List.filter_filter, Bool.and_comm]
  cases w with
  | addSubgroups =>
      simp only [apply, addSubgroupsToUserGroup, rowsFrom, List.filter_append] at h ⊢
      exact h.append (.refl _)
  | removeSubgroups | deleteGroup =>
      simp only [apply, removeSubgroupsFromUserGroup, Store.deleteGroup, rowsFrom] at h ⊢
      rw [hcomm, hcomm]
      exact h.filter _

theorem rowsFrom_foldl_mono : ∀ (writes : List Write) {s s' : Store},
    (rowsFrom p s').Sublist (rowsFrom p s) →
      (rowsFrom p (writes.foldl apply s')).Sublist (rowsFrom p (writes.foldl apply s))
  | [], _, _, h => h
  | w :: writes, _, _, h => rowsFrom_foldl_mono writes (w.rowsFrom_apply_mono h)

theorem rowsFrom_foldl_sublist {held : List Int} (hp : p ∉ held) :
    ∀ (writes : List Write) {s : Store}, (∀ w ∈ writes, w.AddsFrom held) →
      (rowsFrom p (writes.foldl apply s)).Sublist (rowsFrom p s)
  | [], _, _ => .refl _
  | w :: writes, s, h =>
      (rowsFrom_foldl_sublist hp writes fun w hw => h w (.tail _ hw)).trans
        (rowsFrom_apply_sublist (h w (.head _)) hp s)

/-- No write creates a group. -/
theorem groups_apply_sublist (w : Write) (s : Store) : (w.apply s).groups.Sublist s.groups := by
  cases w with
  | addSubgroups | removeSubgroups => exact .refl _
  | deleteGroup => exact List.filter_sublist _

theorem groups_foldl_sublist :
    ∀ (writes : List Write) (s : Store), (writes.foldl apply s).groups.Sublist s.groups
  | [], _ => .refl _
  | w :: writes, s => (groups_foldl_sublist writes (w.apply s)).trans (w.groups_apply_sublist s)

end Write

/-- The rows an add writes are new and distinct when its subgroups are distinct rows and none is
already a subgroup. -/
theorem nodup_rowsFrom_addSubgroupsToUserGroup {p : Int} {s : Store} {userGroup : UserGroup}
    {subgroups : List UserGroup} {actingUser : UserProfile} (hs : (rowsFrom p s).Nodup)
    (hids : (subgroups.map UserGroup.id).Nodup)
    (hfresh : ∀ g ∈ subgroups, (userGroup.id, g.id) ∉ s.groupMemberships) :
    (rowsFrom p (addSubgroupsToUserGroup s userGroup subgroups actingUser)).Nodup := by
  have hrows : (subgroups.map fun g : UserGroup => (userGroup.id, g.id)).Nodup := by
    rw [show (subgroups.map fun g : UserGroup => (userGroup.id, g.id)) =
      (subgroups.map UserGroup.id).map (userGroup.id, ·) by simp [Function.comp_def]]
    exact hids.map fun _ _ h => (Prod.mk.inj h).2
  simp only [rowsFrom, addSubgroupsToUserGroup, List.filter_append]
  refine List.nodup_append.mpr ⟨hs, hrows.filter _, fun e he he' => ?_⟩
  obtain ⟨g, hg, rfl⟩ := List.mem_map.mp (List.mem_filter.mp he').1
  exact hfresh g hg (List.mem_filter.mp he).1

/-- The `with` block of an add checks, under the supergroup's lock, that no candidate is already
a direct subgroup in the store it reads. -/
theorem fresh_of_withBlock {s s' : Store} {userProfile : UserProfile} {userGroupId : Int}
    {context : LockedUserGroupContext}
    (h : addSubgroupsToGroupBackend.withBlock s userProfile userGroupId context = .ok s') :
    ∀ g ∈ context.directSubgroups, (context.supergroup.id, g.id) ∉ s.groupMemberships := by
  unfold addSubgroupsToGroupBackend.withBlock at h
  dsimp only at h
  split at h
  · cases h
  rename_i hfind
  intro g hg hmem
  simpa [Store.mem_directSubgroupIds, hmem] using List.find?_eq_none.mp hfind g hg

/-! ## What one request keeps -/

namespace Txn

/-- **What a request in progress keeps**, over the committed store. -/
structure RowsSafe (committed : Store) (tx : Txn) : Prop where
  /-- It reads no duplicate row out of a group it has locked. -/
  held : ∀ p ∈ tx.held, (rowsFrom p (tx.view committed)).Nodup
  /-- It has added rows only out of groups it has locked. -/
  addsFrom : ∀ w ∈ tx.writes, w.AddsFrom tx.held

variable {c : Store} {tx : Txn}

/-- What a request reads has no duplicate row, out of any group. -/
theorem RowsSafe.view (h : tx.RowsSafe c) (hc : ∀ p, (rowsFrom p c).Nodup) (p : Int) :
    (rowsFrom p (tx.view c)).Nodup := by
  by_cases hp : p ∈ tx.held
  · exact h.held p hp
  · exact (hc p).sublist (Write.rowsFrom_foldl_sublist hp _ h.addsFrom)

theorem rowsSafe_finish (tx : Txn) (outcome : Except String Unit) (c : Store) :
    (tx.finish outcome).RowsSafe c :=
  ⟨fun _ h => absurd h (List.not_mem_nil _), fun _ h => absurd h (List.not_mem_nil _)⟩

/-- **A step keeps a request's rows safe**, over the committed store the step leaves. -/
theorem RowsSafe.move (hc : ∀ p, (rowsFrom p c).Nodup) (hg : (c.groups.map UserGroup.id).Nodup)
    (h : tx.RowsSafe c) {lockedByOther : Int → Bool} {q : Txn × Store}
    (hm : tx.Moves c lockedByOther q) : q.1.RowsSafe q.2 ∧ (q.2 = c ∨ q.2 = tx.view c) := by
  cases hm with
  | done | wait => exact ⟨h, .inl rfl⟩
  | abort => exact ⟨rowsSafe_finish _ _ _, .inl rfl⟩
  | commit => exact ⟨rowsSafe_finish _ _ _, .inr rfl⟩
  | start | skip | enter => exact ⟨⟨h.held, h.addsFrom⟩, .inl rfl⟩
  | lock =>
      exact ⟨⟨fun p _ => h.view hc p,
        fun w hw => (h.addsFrom w hw).mono fun _ => List.mem_insert_of_mem⟩, .inl rfl⟩
  | @write call calls _ context s' _ hlock hheld hblock =>
      -- the candidates the helper read again are distinct rows of the committed store
      obtain ⟨-, hdirect, -, -⟩ := lockSubgroupsWithRespectToSupergroup_eq_ok.mp hlock
      have hnodup : (context.directSubgroups.map UserGroup.id).Nodup := by
        rw [hdirect]
        exact hg.sublist (((List.filter_sublist _).trans (Write.groups_foldl_sublist _ _)).map _)
      have hview : ({ tx with
          phase := .running calls
          writes := tx.writes ++ [call.write tx.userProfile context] } : Txn).view c =
          (call.write tx.userProfile context).apply (tx.view c) :=
        List.foldl_append ..
      refine ⟨⟨fun p hp => ?_, fun w hw => ?_⟩, .inl rfl⟩
      · rw [hview]
        cases call with
        | addSubgroups =>
            exact nodup_rowsFrom_addSubgroupsToUserGroup (h.held p hp) hnodup
              (fresh_of_withBlock hblock)
        | removeSubgroups | deleteUserGroup =>
            refine (h.held p hp).sublist (Write.rowsFrom_apply_sublist ?_ (List.not_mem_nil p) _)
            trivial
      · rcases List.mem_append.mp hw with hw | hw
        · exact h.addsFrom w hw
        · obtain rfl := List.mem_singleton.mp hw
          cases call
          · exact hheld _ (mem_lockOrder_supergroup context)
          all_goals trivial

/-- **Another request's commit keeps a request's rows safe**: the rows out of the groups it holds
only lose elements, and so does what it reads. -/
theorem RowsSafe.commit (h : tx.RowsSafe c) {tx' : Txn} (h' : tx'.RowsSafe c)
    (hdisj : ∀ x ∈ tx'.held, x ∉ tx.held) : tx'.RowsSafe (tx.view c) :=
  ⟨fun p hp => (h'.held p hp).sublist
      (Write.rowsFrom_foldl_mono _ (Write.rowsFrom_foldl_sublist (hdisj p hp) _ h.addsFrom)),
    h'.addsFrom⟩

end Txn

/-! ## Runs -/

namespace System

/-- **The invariant of every run.** -/
structure RowsSafe (sys : System) : Prop where
  locks : sys.LocksDisjoint
  rows : ∀ p, (rowsFrom p sys.committed).Nodup
  groupIds : (sys.committed.groups.map UserGroup.id).Nodup
  txns : ∀ (t : Nat) (tx : Txn), sys.txns[t]? = some tx → tx.RowsSafe sys.committed

theorem RowsSafe.step {sys : System} (h : sys.RowsSafe) (t : Nat) : (sys.step t).RowsSafe := by
  unfold System.step
  split
  · exact h
  rename_i tx ht
  have hlocks := h.locks.step t
  simp only [System.step, ht] at hlocks
  obtain ⟨hsafe, hcommit⟩ := (h.txns t tx ht).move h.rows h.groupIds (tx.moves_step _ _)
  have hlt := (List.getElem?_eq_some_iff.mp ht).1
  refine ⟨hlocks, ?_, ?_, fun u tx' hu => ?_⟩
  · rcases hcommit with hc | hc <;> rw [hc]
    · exact h.rows
    · exact (h.txns t tx ht).view h.rows
  · rcases hcommit with hc | hc <;> rw [hc]
    · exact h.groupIds
    · exact h.groupIds.sublist ((Write.groups_foldl_sublist _ _).map _)
  simp only [List.getElem?_set] at hu
  split at hu
  · simp only [hlt, if_true, Option.some.injEq] at hu
    subst hu
    exact hsafe
  · rename_i htu
    rcases hcommit with hc | hc <;> rw [hc]
    · exact h.txns u tx' hu
    · exact (h.txns t tx ht).commit (h.txns u tx' hu)
        fun x hx hx' => h.locks t u tx tx' htu ht hu x hx' hx

theorem RowsSafe.run {sys : System} (h : sys.RowsSafe) :
    ∀ schedule, (sys.run schedule).RowsSafe
  | [] => h
  | t :: schedule => by rw [run_cons]; exact (h.step t).run schedule

/-- Requests that have not started hold no lock and have written nothing. -/
theorem rowsSafe_init {s : Store} (hrows : s.groupMemberships.Nodup)
    (hgroups : (s.groups.map UserGroup.id).Nodup)
    (requests : List (UserProfile × SubgroupRequest)) : (init s requests).RowsSafe := by
  refine ⟨locksDisjoint_init s requests, fun _ => hrows.filter _, hgroups, fun t tx ht => ?_⟩
  obtain ⟨r, -, rfl⟩ := List.mem_map.mp (List.getElem?_mem ht)
  exact ⟨fun _ h => absurd h (List.not_mem_nil _), fun _ h => absurd h (List.not_mem_nil _)⟩

end System

/-- **No schedule stores a subgroup row twice.**  From a store with no duplicate
`GroupGroupMembership` row and distinct group ids, every schedule of the steps of any requests to
`update_subgroups_of_user_group` and `delete_user_group` leaves a committed store with no
duplicate row: of two requests that add the same subgroup to a group, the one that takes the
group's lock second sees the first one's row in its `with` block and is refused. -/
theorem groupMemberships_nodup_run (s : Store) (requests : List (UserProfile × SubgroupRequest))
    (hrows : s.groupMemberships.Nodup) (hgroups : (s.groups.map UserGroup.id).Nodup)
    (schedule : List Nat) :
    ((System.init s requests).run schedule).committed.groupMemberships.Nodup :=
  nodup_of_rowsFrom ((System.rowsSafe_init hrows hgroups requests).run schedule).rows

/-- Two requests add `5` under `1`, and both compute their contexts before either locks.  The
second to lock is refused with "User group 5 is already a subgroup of this group.", and the
committed table holds the row `1 → 5` once. -/
theorem groupMemberships_nodup_run_twice :
    threeGroupsStore.groupMemberships.Nodup ∧
      (threeGroupsStore.groups.map UserGroup.id).Nodup ∧
      ((System.init threeGroupsStore
        [(⟨1, 7, "Ann", false, true⟩, .updateSubgroupsOfUserGroup 1 [] [5]),
         (⟨1, 7, "Ann", false, true⟩, .updateSubgroupsOfUserGroup 1 [] [5])]).run
        [0, 0, 1, 1, 0, 0, 0, 0, 0, 1, 1, 1, 1, 1]).committed.groupMemberships.Nodup :=
  ⟨by decide, by decide, groupMemberships_nodup_run _ _ (by decide) (by decide) _⟩

end Zerver.UserGroups.Concurrent

import Mathlib.Algebra.Order.Ring.Nat
import Zerver.UserGroups.Concurrent.Rows

/-!
# Requests with one lock call can always all finish

`System.exists_step_ne_of_singleCall` says that while a request with one lock call has not
finished, some step moves the system.  That alone leaves open a schedule that moves forever
without finishing anything.  This module closes it: every step that moves the system takes a
request strictly closer to its end, so from every state a schedule reaches there is a schedule
that finishes every request.  The two subgroup requests of `updateSubgroupsOfUserGroup_deadlock`,
one of which makes two lock calls, show that the restriction to one lock call is needed.

## Main Definitions

* `Txn.rank` — the work a request has left: its calls, and the locks left in its current call.
* `Txn.LockBound`, `System.Bounded` — the bound on the locks a call has left to take, from the
  number of groups of the committed store, which no step raises.

## Main Results

* `Txn.Moves.progress` — a step leaves a request where it is, or lowers its rank.
* `System.exists_run_done` — from a bounded state whose locks ascend, some schedule finishes
  every request.
* `System.finishes_of_singleCall` — from every state a schedule of requests with one lock call
  reaches, some schedule finishes every request.

## Design Notes

A lock call takes the supergroup and the recursive subgroups it read, each once, so it has at
most one lock more than the committed store has groups (`length_lockOrder_le`).  A call is worth
more than any number of locks under that bound: `Txn.rank` counts a call as `B + 3` for a store
of at most `B` groups.
-/

namespace Zerver.UserGroups.Concurrent

/-! ## The work a request has left -/

/-- A lock call takes at most one lock more than the store it reads has groups. -/
theorem length_lockOrder_le {s : Store} {potentialSubgroupIds : List Int}
    {potentialSupergroupId : Int} {userProfile : UserProfile} {context : LockedUserGroupContext}
    (h : lockSubgroupsWithRespectToSupergroup s potentialSubgroupIds potentialSupergroupId
      userProfile = .ok context) : (lockOrder context).length ≤ s.groups.length + 1 := by
  obtain ⟨-, -, hrec, -⟩ := lockSubgroupsWithRespectToSupergroup_eq_ok.mp h
  calc (lockOrder context).length
      ≤ (context.supergroup.id :: context.recursiveSubgroups.map UserGroup.id).length := by
        rw [lockOrder, List.length_insertionSort]
        exact (List.dedup_sublist _).length_le
    _ ≤ s.groups.length + 1 := by
        simpa [hrec, recursiveSubgroupsOf] using List.length_filter_le _ _

namespace Txn

/-- **The work a request has left**, for a committed store of at most `B` groups: a call counts
`B + 3`, one more than the steps a lock call can take. -/
def rank (B : Nat) (tx : Txn) : Nat :=
  match tx.phase with
  | .ready => tx.request.calls.length * (B + 3) + 2
  | .running calls => calls.length * (B + 3) + 1
  | .locking _ calls _ toLock => calls.length * (B + 3) + 2 + toLock.length
  | .done _ => 0

/-- A request in the lock helper has at most `B + 1` locks left to take. -/
def LockBound (B : Nat) (tx : Txn) : Prop :=
  match tx.phase with
  | .locking _ _ _ toLock => toLock.length ≤ B + 1
  | _ => True

/-- A request that has not finished has work left. -/
theorem rank_pos {tx : Txn} (B : Nat) (h : ∀ outcome, tx.phase ≠ .done outcome) :
    0 < tx.rank B := by
  unfold rank
  split
  · omega
  · omega
  · omega
  · exact absurd ‹_› (h _)

/-- **One step of a request**: it keeps the bound on its locks, writes no group row back, and
either leaves the request and the committed store as they are (it waits, or has finished) or
lowers the request's rank. -/
theorem Moves.progress {tx : Txn} {committed : Store} {lockedByOther : Int → Bool} {B : Nat}
    {q : Txn × Store} (hm : tx.Moves committed lockedByOther q)
    (hgroups : committed.groups.length ≤ B) (hbound : tx.LockBound B) :
    q.1.LockBound B ∧ q.2.groups.length ≤ committed.groups.length ∧
      (q = (tx, committed) ∨ q.1.rank B < tx.rank B) := by
  cases hm with
  | done | wait => exact ⟨hbound, le_rfl, .inl rfl⟩
  | abort _ hp => exact ⟨trivial, le_rfl, .inr (rank_pos B hp)⟩
  | commit hp =>
      exact ⟨trivial, (Write.groups_foldl_sublist _ _).length_le, .inr (rank_pos B (by simp [hp]))⟩
  | start hp => exact ⟨trivial, le_rfl, .inr (by simp [rank, hp])⟩
  | skip hp =>
      refine ⟨trivial, le_rfl, .inr ?_⟩
      simp only [rank, hp, List.length_cons, Nat.succ_mul]
      omega
  | enter hp _ hlock =>
      have hlen := length_lockOrder_le hlock
      have hview := (Write.groups_foldl_sublist tx.writes committed).length_le
      refine ⟨(by simp only [LockBound, view] at hlen ⊢; omega), le_rfl, .inr ?_⟩
      simp only [rank, hp, List.length_cons, Nat.succ_mul, view] at hlen ⊢
      omega
  | lock hp =>
      simp only [LockBound, hp, List.length_cons] at hbound
      exact ⟨(by simp only [LockBound]; omega), le_rfl, .inr (by simp [rank, hp])⟩
  | write hp => exact ⟨trivial, le_rfl, .inr (by simp [rank, hp])⟩

end Txn

/-! ## Every request finishes -/

/-- Lowering one entry of a list of numbers lowers its sum. -/
theorem sum_set_lt {l : List Nat} {t a b : Nat} (ht : l[t]? = some a) (hlt : b < a) :
    (l.set t b).sum < l.sum := by
  obtain ⟨hlen, rfl⟩ := List.getElem?_eq_some_iff.mp ht
  have hsplit : l.sum = (l.take t).sum + (l[t] + (l.drop (t + 1)).sum) := by
    rw [← List.sum_take_add_sum_drop l t, List.drop_eq_getElem_cons hlen, List.sum_cons]
  rw [List.sum_set, if_pos hlen, hsplit]
  omega

namespace System

/-- The work the requests have left. -/
def rank (B : Nat) (sys : System) : Nat :=
  (sys.txns.map (Txn.rank B)).sum

/-- The committed store has at most `B` groups, and every request keeps the bound on its locks. -/
structure Bounded (B : Nat) (sys : System) : Prop where
  groups : sys.committed.groups.length ≤ B
  lockBound : ∀ tx ∈ sys.txns, tx.LockBound B

/-- **A step keeps the bound, and leaves the system as it is or lowers its rank.** -/
theorem Bounded.step {sys : System} {B : Nat} (h : sys.Bounded B) (t : Nat) :
    (sys.step t).Bounded B ∧ (sys.step t = sys ∨ (sys.step t).rank B < sys.rank B) := by
  unfold System.step
  split
  · exact ⟨h, .inl rfl⟩
  rename_i tx ht
  obtain ⟨hbound, hgroups, hmove⟩ :=
    (tx.moves_step sys.committed (sys.lockedByOther t)).progress h.groups
      (h.lockBound tx (List.getElem?_mem ht))
  refine ⟨⟨hgroups.trans h.groups, fun tx' htx' => ?_⟩, ?_⟩
  · rcases List.mem_or_eq_of_mem_set htx' with htx' | rfl
    · exact h.lockBound tx' htx'
    · exact hbound
  · rcases hmove with heq | hlt
    · rw [heq]
      exact .inl (by simp [set_eq_self_of_getElem? ht])
    · refine .inr ?_
      simp only [rank, List.map_set]
      exact sum_set_lt (by simp [ht]) hlt

theorem Bounded.run {sys : System} {B : Nat} (h : sys.Bounded B) :
    ∀ schedule, (sys.run schedule).Bounded B
  | [] => h
  | t :: schedule => by rw [run_cons]; exact (h.step t).1.run schedule

/-- Requests that have not started are bounded by the groups of the store. -/
theorem bounded_init (s : Store) (requests : List (UserProfile × SubgroupRequest)) :
    (init s requests).Bounded s.groups.length :=
  ⟨le_rfl, fun tx htx => by
    obtain ⟨r, -, rfl⟩ := List.mem_map.mp htx
    trivial⟩

/-- **From a bounded state whose locks ascend, some schedule finishes every request**: while a
request is pending, some step moves the system (`Ordered.exists_step_ne`), and a step that moves
it lowers its rank. -/
theorem exists_run_done {B : Nat} (sys : System) (hb : sys.Bounded B) (ho : sys.Ordered) :
    ∃ rest, ∀ tx ∈ (sys.run rest).txns, tx.isDone = true := by
  by_cases hpending : ∃ tx ∈ sys.txns, tx.isDone = false
  · obtain ⟨t, ht⟩ := ho.exists_step_ne hpending
    have hlt := ((hb.step t).2.resolve_left ht)
    obtain ⟨rest, hrest⟩ := exists_run_done (sys.step t) (hb.step t).1 (ho.step t)
    exact ⟨t :: rest, hrest⟩
  · push_neg at hpending
    exact ⟨[], fun tx htx => by simpa using hpending tx htx⟩
termination_by sys.rank B
decreasing_by exact hlt

/-- **Requests with one lock call can always all finish.**  Take any `delete_user_group`
requests and `update_subgroups_of_user_group` requests that only add or only delete, and any
schedule of their steps.  From the state the schedule reaches, some schedule finishes every
request: no interleaving leaves them waiting, or moving, forever. -/
theorem finishes_of_singleCall (s : Store) (requests : List (UserProfile × SubgroupRequest))
    (hsingle : ∀ r ∈ requests, r.2.SingleCall) (schedule : List Nat) :
    ∃ rest, ∀ tx ∈ ((init s requests).run (schedule ++ rest)).txns, tx.isDone = true := by
  obtain ⟨rest, hrest⟩ := exists_run_done ((init s requests).run schedule)
    ((bounded_init s requests).run schedule) ((ordered_init hsingle s).run schedule)
  exact ⟨rest, by rwa [run_append]⟩

/-- An add of `2` under `5`, a delete of group `1` and a removal of `2` from `1`, after three
rounds of steps. -/
theorem finishes_of_singleCall_three :
    (∀ r ∈ ([(⟨1, 7, "Ann", false, true⟩, .updateSubgroupsOfUserGroup 5 [] [2]),
        (⟨1, 7, "Ann", false, true⟩, .deleteUserGroup 1),
        (⟨1, 7, "Ann", false, true⟩, .updateSubgroupsOfUserGroup 1 [2] [])] :
          List (UserProfile × SubgroupRequest)), r.2.SingleCall) ∧
      ∃ rest, ∀ tx ∈ ((init threeGroupsStore
        [(⟨1, 7, "Ann", false, true⟩, .updateSubgroupsOfUserGroup 5 [] [2]),
         (⟨1, 7, "Ann", false, true⟩, .deleteUserGroup 1),
         (⟨1, 7, "Ann", false, true⟩, .updateSubgroupsOfUserGroup 1 [2] [])]).run
        ([0, 1, 2, 0, 1, 2, 0, 1, 2] ++ rest)).txns, tx.isDone = true :=
  ⟨by decide, finishes_of_singleCall _ _ (by decide) _⟩

end System

end Zerver.UserGroups.Concurrent

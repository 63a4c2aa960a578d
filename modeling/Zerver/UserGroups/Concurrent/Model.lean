import Mathlib.Data.List.Sort
import Zerver.UserGroups.Views

/-!
# Concurrent subgroup requests

`update_subgroups_of_user_group` and `delete_user_group` change the subgroup relation inside the
`with` block of `lock_subgroups_with_respect_to_supergroup`, and keep the block's row locks until
their transaction commits.  This module runs any number of such requests at once, one step of one
request at a time, in any order.

A request's steps are the points where another request can come between: the start of its
transaction, each call of the lock helper (which reads the store and fixes the rows it locks),
each lock it takes, the helper's second read under its locks with the `with` block, and the
commit.  A request reads the committed store with its own writes on top; the other requests see
its writes once it commits.

## Main Definitions

* `Call` — one call of the lock helper together with the `with` block it opens.
* `SubgroupRequest` — a request to one of the two views, with its calls and its sequential view.
* `Txn`, `System` — the requests in progress, and the committed store.
* `Txn.step`, `System.step`, `System.run` — one step of one request, and a schedule of steps.
* `Txn.Moves` — what one step of a request can do, and when.
* `System.WaitsFor` — a request asks for a lock another request holds.

## Main Results

* `Call.backend_eq` — a call is the backend view of the sequential model: the helper, then the
  `with` block.
* `Txn.moves_step` — every step of a request is one of the moves of `Txn.Moves`.
* `System.step_of_waitsFor` — a request that waits for another does not move.

What runs of the system do is in `Zerver.UserGroups.Concurrent.Serial` (requests one after the
other), `Zerver.UserGroups.Concurrent.Acyclic` (the subgroup relation stays acyclic),
`Zerver.UserGroups.Concurrent.Rows` (no subgroup row is stored twice),
`Zerver.UserGroups.Concurrent.Locks` (exclusion and deadlock) and
`Zerver.UserGroups.Concurrent.Completion` (progress).

## Design Notes

`lock_subgroups_with_respect_to_supergroup` is not in src/.  It is modelled as the spec describes
it (§4.3): from the store the request reads, it resolves the supergroup and the candidates and
computes the recursive subgroups, and then it locks the supergroup and the recursive subgroups
(the candidates among them) in ascending id order.  Once it holds them, it reads the context
again, so that the `with` block sees the recursive subgroups as they are under the locks.  When
that context names a group it has not locked, because another request has committed a path in
between, it releases its locks and fails with a retryable contention error (`lockContention`,
spec §5); locking more groups at that point would break the ascending order.  The findings about
interleaved requests hold for any order the helper takes its own locks in, as long as it is one
order.

A write is kept as the action it is (`Write`) and replayed on the committed store at commit time,
so requests on disjoint rows commit without losing each other's rows.  The only locks are the
group rows the helper locks; the row locks the deletes of a commit take are outside the model.
The replay does not check foreign keys, and no result here depends on that check.
-/

namespace Zerver.UserGroups.Concurrent

/-! ## Calls and writes -/

/-- A write a request has made and not yet committed: one action of `zerver.actions`. -/
inductive Write
  | addSubgroups (userGroup : UserGroup) (subgroups : List UserGroup) (actingUser : UserProfile)
  | removeSubgroups (userGroup : UserGroup) (subgroups : List UserGroup) (actingUser : UserProfile)
  | deleteGroup (userGroup : UserGroup) (actingUser : UserProfile)
  deriving DecidableEq, Repr

/-- The rows of the action, written to a store. -/
def Write.apply (s : Store) : Write → Store
  | .addSubgroups userGroup subgroups actingUser =>
      addSubgroupsToUserGroup s userGroup subgroups actingUser
  | .removeSubgroups userGroup subgroups actingUser =>
      removeSubgroupsFromUserGroup s userGroup subgroups actingUser
  | .deleteGroup userGroup actingUser => s.deleteGroup userGroup actingUser

/-- A call of `lock_subgroups_with_respect_to_supergroup` and the `with` block it opens. -/
inductive Call
  | addSubgroups (userGroupId : Int) (subgroupIds : List Int)
  | removeSubgroups (userGroupId : Int) (subgroupIds : List Int)
  | deleteUserGroup (userGroupId : Int)
  deriving DecidableEq, Repr

namespace Call

/-- The helper's `potential_subgroup_ids`: `delete_user_group` passes the group itself. -/
def potentialSubgroupIds : Call → List Int
  | .addSubgroups _ subgroupIds | .removeSubgroups _ subgroupIds => subgroupIds
  | .deleteUserGroup userGroupId => [userGroupId]

/-- The helper's `potential_supergroup_id`. -/
def potentialSupergroupId : Call → Int
  | .addSubgroups userGroupId _ | .removeSubgroups userGroupId _
  | .deleteUserGroup userGroupId => userGroupId

/-- The `with` block of the call. -/
def withBlock (s : Store) (userProfile : UserProfile) (context : LockedUserGroupContext) :
    Call → Except String Store
  | .addSubgroups userGroupId _ =>
      addSubgroupsToGroupBackend.withBlock s userProfile userGroupId context
  | .removeSubgroups _ _ => removeSubgroupsFromGroupBackend.withBlock s userProfile context
  | .deleteUserGroup _ => checkDeleteUserGroup s context.supergroup userProfile

/-- The action the `with` block performs when it succeeds. -/
def write (userProfile : UserProfile) (context : LockedUserGroupContext) : Call → Write
  | .addSubgroups _ _ => .addSubgroups context.supergroup context.directSubgroups userProfile
  | .removeSubgroups _ _ => .removeSubgroups context.supergroup context.directSubgroups userProfile
  | .deleteUserGroup _ => .deleteGroup context.supergroup userProfile

/-- The body the sequential model runs for the call: `add_subgroups_to_group_backend`,
`remove_subgroups_from_group_backend`, or the body of `delete_user_group`. -/
def backend (s : Store) (userProfile : UserProfile) : Call → Except String Store
  | .addSubgroups userGroupId subgroupIds =>
      addSubgroupsToGroupBackend s userProfile userGroupId subgroupIds
  | .removeSubgroups userGroupId subgroupIds =>
      removeSubgroupsFromGroupBackend s userProfile userGroupId subgroupIds
  | .deleteUserGroup userGroupId => do
      let context ← lockSubgroupsWithRespectToSupergroup s [userGroupId] userGroupId userProfile
      checkDeleteUserGroup s context.supergroup userProfile

/-- A successful `with` block writes exactly its action. -/
theorem withBlock_eq_ok {s s' : Store} {userProfile : UserProfile}
    {context : LockedUserGroupContext} {call : Call}
    (h : call.withBlock s userProfile context = .ok s') :
    s' = (call.write userProfile context).apply s := by
  cases call with
  | addSubgroups =>
      simp only [withBlock, addSubgroupsToGroupBackend.withBlock] at h
      split at h
      · cases h
      · split at h
        · cases h
        · exact (pure_eq_ok.mp h).symm
  | removeSubgroups =>
      simp only [withBlock, removeSubgroupsFromGroupBackend.withBlock] at h
      split at h
      · cases h
      · exact (pure_eq_ok.mp h).symm
  | deleteUserGroup =>
      simp only [withBlock, checkDeleteUserGroup] at h
      split at h
      · cases h
      · cases h
        rfl

/-- The sequential body is the lock helper followed by the `with` block, skipped when there is
no candidate. -/
theorem backend_eq (s : Store) (userProfile : UserProfile) (call : Call) :
    call.backend s userProfile =
      if call.potentialSubgroupIds.isEmpty then .ok s else
        (lockSubgroupsWithRespectToSupergroup s call.potentialSubgroupIds
          call.potentialSupergroupId userProfile >>= call.withBlock s userProfile) := by
  cases call <;> rfl

/-- The calls that take locks: those with a candidate. -/
def lockingCalls (calls : List Call) : List Call :=
  calls.filter fun call => !call.potentialSubgroupIds.isEmpty

theorem lockingCalls_cons_of_isEmpty {call : Call} (calls : List Call)
    (h : call.potentialSubgroupIds.isEmpty = true) :
    lockingCalls (call :: calls) = lockingCalls calls := by
  simp [lockingCalls, List.filter_cons, h]

/-- Once a call with a candidate is made, at most one locking call left means no other. -/
theorem eq_nil_of_lockingCalls_cons {call : Call} {calls : List Call}
    (h : call.potentialSubgroupIds.isEmpty = false) (hone : (lockingCalls (call :: calls)).length ≤ 1) :
    ∀ c ∈ calls, c.potentialSubgroupIds = [] := by
  simp only [lockingCalls, List.filter_cons, h, Bool.not_false, if_true, List.length_cons] at hone
  have hnil := List.length_eq_zero.mp (Nat.le_zero.mp (Nat.le_of_succ_le_succ hone))
  intro c hc
  simpa using List.filter_eq_nil_iff.mp hnil c hc

end Call

/-- A request to one of the two views that lock subgroups. -/
inductive SubgroupRequest
  | updateSubgroupsOfUserGroup (userGroupId : Int) (delete add : List Int)
  | deleteUserGroup (userGroupId : Int)
  deriving DecidableEq, Repr

namespace SubgroupRequest

/-- The lock calls of the request, in order: `compose_views` runs the add and then the delete in
one transaction. -/
def calls : SubgroupRequest → List Call
  | .updateSubgroupsOfUserGroup userGroupId delete add =>
      [.addSubgroups userGroupId add, .removeSubgroups userGroupId delete]
  | .deleteUserGroup userGroupId => [.deleteUserGroup userGroupId]

/-- The request is refused before its transaction starts ("Nothing to do"). -/
def nothingToDo : SubgroupRequest → Bool
  | .updateSubgroupsOfUserGroup _ delete add => add.isEmpty && delete.isEmpty
  | .deleteUserGroup _ => false

/-- The view in the sequential model. -/
def view (s : Store) (userProfile : UserProfile) : SubgroupRequest → Store × Except String Unit
  | .updateSubgroupsOfUserGroup userGroupId delete add =>
      Zerver.UserGroups.updateSubgroupsOfUserGroup s userProfile userGroupId delete add
  | .deleteUserGroup userGroupId => Zerver.UserGroups.deleteUserGroup s userProfile userGroupId

/-- At most one of the request's calls takes locks: a delete, or an update that only adds or
only deletes. -/
def SingleCall (request : SubgroupRequest) : Prop :=
  (Call.lockingCalls request.calls).length ≤ 1

instance : DecidablePred SingleCall := fun _ => inferInstanceAs (Decidable (_ ≤ _))

end SubgroupRequest

/-! ## Requests in progress -/

/-- The group rows a call locks: the supergroup and the recursive subgroups of the context, in
ascending id order. -/
def lockOrder (context : LockedUserGroupContext) : List Int :=
  (context.supergroup.id :: context.recursiveSubgroups.map UserGroup.id).dedup.insertionSort
    (· ≤ ·)

theorem lockOrder_sorted (context : LockedUserGroupContext) :
    (lockOrder context).Sorted (· < ·) :=
  (List.sorted_insertionSort _ _).lt_of_le
    ((List.perm_insertionSort _ _).nodup_iff.mpr (List.nodup_dedup _))

theorem mem_lockOrder_supergroup (context : LockedUserGroupContext) :
    context.supergroup.id ∈ lockOrder context :=
  (List.perm_insertionSort _ _).mem_iff.mpr (List.mem_dedup.mpr (List.mem_cons_self _ _))

theorem mem_lockOrder_of_mem_recursiveSubgroups {context : LockedUserGroupContext} {g : UserGroup}
    (hg : g ∈ context.recursiveSubgroups) : g.id ∈ lockOrder context :=
  (List.perm_insertionSort _ _).mem_iff.mpr
    (List.mem_dedup.mpr (List.mem_cons_of_mem _ (List.mem_map_of_mem _ hg)))

/-- The retryable error of the lock helper when the recursive subgroups it reads under its locks
reach a group it has not locked (spec §5, `ContentionError`). -/
def lockContention : String :=
  "Lock contention: the subgroups changed while they were being locked. Please retry."

/-- Where a request is in its transaction. -/
inductive Phase
  /-- It has not started. -/
  | ready
  /-- Its transaction is open, and these calls are still to make. -/
  | running (calls : List Call)
  /-- It is in the lock helper of `call`, with `context` read before the locks and `toLock` still
  to lock. -/
  | locking (call : Call) (calls : List Call) (context : LockedUserGroupContext)
      (toLock : List Int)
  /-- It has committed or rolled back. -/
  | done (outcome : Except String Unit)

/-- A request in progress: its phase, the group rows it has locked, and its writes. -/
structure Txn where
  userProfile : UserProfile
  request : SubgroupRequest
  phase : Phase
  held : List Int
  writes : List Write

namespace Txn

/-- A request that has not started. -/
def start (userProfile : UserProfile) (request : SubgroupRequest) : Txn :=
  ⟨userProfile, request, .ready, [], []⟩

/-- The store the request reads: the committed store with its own writes. -/
def view (tx : Txn) (committed : Store) : Store :=
  tx.writes.foldl Write.apply committed

/-- The end of the transaction: its locks are released and its writes are committed or dropped. -/
def finish (tx : Txn) (outcome : Except String Unit) : Txn :=
  { tx with phase := .done outcome, held := [], writes := [] }

/-- The lock the request asks for next. -/
def nextLock (tx : Txn) : Option Int :=
  match tx.phase with
  | .locking _ _ _ (x :: _) => some x
  | _ => none

/-- The lock a request asks for next comes at the head of what it still has to lock. -/
theorem nextLock_eq_some {tx : Txn} {x : Int} (h : tx.nextLock = some x) :
    ∃ call calls context toLock, tx.phase = .locking call calls context (x :: toLock) := by
  unfold nextLock at h
  split at h
  · cases h
    exact ⟨_, _, _, _, ‹_›⟩
  · cases h

/-- **One step of a request**, given the committed store and which rows other requests have
locked: its new state, and the committed store after the step.  A request whose next lock is
taken by another request does not move.  Once it holds its locks, the lock helper reads the
context again; the `with` block runs on that context when every row it names is locked, and the
request gives up with `lockContention` when not. -/
def step (tx : Txn) (committed : Store) (lockedByOther : Int → Bool) : Txn × Store :=
  match tx.phase with
  | .ready =>
      if tx.request.nothingToDo then (tx.finish (.error nothingToDo), committed)
      else ({ tx with phase := .running tx.request.calls }, committed)
  | .running [] => (tx.finish (.ok ()), tx.view committed)
  | .running (call :: calls) =>
      if call.potentialSubgroupIds.isEmpty then ({ tx with phase := .running calls }, committed)
      else
        match lockSubgroupsWithRespectToSupergroup (tx.view committed) call.potentialSubgroupIds
            call.potentialSupergroupId tx.userProfile with
        | .error e => (tx.finish (.error e), committed)
        | .ok context =>
            ({ tx with phase := .locking call calls context (lockOrder context) }, committed)
  | .locking call calls context (x :: toLock) =>
      if lockedByOther x then (tx, committed)
      else
        ({ tx with
            phase := .locking call calls context toLock
            held := tx.held.insert x }, committed)
  | .locking call calls _ [] =>
      match lockSubgroupsWithRespectToSupergroup (tx.view committed) call.potentialSubgroupIds
          call.potentialSupergroupId tx.userProfile with
      | .error e => (tx.finish (.error e), committed)
      | .ok context =>
          if ∀ x ∈ lockOrder context, x ∈ tx.held then
            match call.withBlock (tx.view committed) tx.userProfile context with
            | .error e => (tx.finish (.error e), committed)
            | .ok _ =>
                ({ tx with
                    phase := .running calls
                    writes := tx.writes ++ [call.write tx.userProfile context] }, committed)
          else (tx.finish (.error lockContention), committed)
  | .done _ => (tx, committed)

/-- **What one step of a request can do**, with the conditions under which it does it. -/
inductive Moves (committed : Store) (lockedByOther : Int → Bool) (tx : Txn) : Txn × Store → Prop
  /-- A finished request stays as it is. -/
  | done {outcome : Except String Unit} (h : tx.phase = .done outcome) :
      Moves committed lockedByOther tx (tx, committed)
  /-- A request whose next lock another request holds waits. -/
  | wait {call : Call} {calls : List Call} {context : LockedUserGroupContext} {x : Int}
      {toLock : List Int} (h : tx.phase = .locking call calls context (x :: toLock))
      (hx : lockedByOther x = true) : Moves committed lockedByOther tx (tx, committed)
  /-- A request that has not finished rolls back: its locks are released, its writes dropped. -/
  | abort (e : String) (h : ∀ outcome, tx.phase ≠ .done outcome) :
      Moves committed lockedByOther tx (tx.finish (.error e), committed)
  /-- A request with no call left commits its writes. -/
  | commit (h : tx.phase = .running []) :
      Moves committed lockedByOther tx (tx.finish (.ok ()), tx.view committed)
  /-- The transaction opens. -/
  | start (h : tx.phase = .ready) (hnothing : tx.request.nothingToDo = false) :
      Moves committed lockedByOther tx ({ tx with phase := .running tx.request.calls }, committed)
  /-- A call with no candidate is skipped. -/
  | skip {call : Call} {calls : List Call} (h : tx.phase = .running (call :: calls))
      (hempty : call.potentialSubgroupIds.isEmpty = true) :
      Moves committed lockedByOther tx ({ tx with phase := .running calls }, committed)
  /-- The lock helper reads the store and fixes the rows it locks. -/
  | enter {call : Call} {calls : List Call} {context : LockedUserGroupContext}
      (h : tx.phase = .running (call :: calls))
      (hempty : call.potentialSubgroupIds.isEmpty = false)
      (hlock : lockSubgroupsWithRespectToSupergroup (tx.view committed) call.potentialSubgroupIds
        call.potentialSupergroupId tx.userProfile = .ok context) :
      Moves committed lockedByOther tx
        ({ tx with phase := .locking call calls context (lockOrder context) }, committed)
  /-- The request takes a lock no other request holds. -/
  | lock {call : Call} {calls : List Call} {context : LockedUserGroupContext} {x : Int}
      {toLock : List Int} (h : tx.phase = .locking call calls context (x :: toLock))
      (hx : lockedByOther x = false) :
      Moves committed lockedByOther tx
        ({ tx with phase := .locking call calls context toLock, held := tx.held.insert x },
          committed)
  /-- Under its locks, the request reads the context again, finds every row it names locked, and
  its `with` block succeeds on it. -/
  | write {call : Call} {calls : List Call} {context context' : LockedUserGroupContext}
      {s' : Store} (h : tx.phase = .locking call calls context [])
      (hlock : lockSubgroupsWithRespectToSupergroup (tx.view committed) call.potentialSubgroupIds
        call.potentialSupergroupId tx.userProfile = .ok context')
      (hheld : ∀ x ∈ lockOrder context', x ∈ tx.held)
      (hblock : call.withBlock (tx.view committed) tx.userProfile context' = .ok s') :
      Moves committed lockedByOther tx
        ({ tx with
            phase := .running calls
            writes := tx.writes ++ [call.write tx.userProfile context'] }, committed)

/-- Every step is one of the moves. -/
theorem moves_step (tx : Txn) (committed : Store) (lockedByOther : Int → Bool) :
    tx.Moves committed lockedByOther (tx.step committed lockedByOther) := by
  have hnotDone : ∀ {phase : Phase}, tx.phase = phase → (∀ outcome, phase ≠ .done outcome) →
      ∀ outcome, tx.phase ≠ .done outcome := fun hp hne outcome h => hne outcome (hp ▸ h)
  unfold step
  split <;> rename_i hphase
  · -- the "Nothing to do" check
    split <;> rename_i hnothing
    · exact .abort _ (hnotDone hphase fun _ => nofun)
    · exact .start hphase (Bool.eq_false_iff.mpr hnothing)
  · exact .commit hphase
  · -- a call: skipped, refused by the lock helper, or into the lock helper
    split <;> rename_i hempty
    · exact .skip hphase hempty
    split
    · exact .abort _ (hnotDone hphase fun _ => nofun)
    · exact .enter hphase (Bool.eq_false_iff.mpr hempty) ‹_›
  · -- a lock: waited for, or taken
    split <;> rename_i hx
    · exact .wait hphase hx
    · exact .lock hphase (Bool.eq_false_iff.mpr hx)
  · -- the context read again, and the `with` block
    split
    · exact .abort _ (hnotDone hphase fun _ => nofun)
    rename_i hlock
    split <;> rename_i hheld
    · split
      · exact .abort _ (hnotDone hphase fun _ => nofun)
      · exact .write hphase hlock hheld ‹_›
    · exact .abort _ (hnotDone hphase fun _ => nofun)
  · exact .done hphase

/-- A step leaves the committed store as it is, or commits the request's view. -/
theorem Moves.committed_eq {committed : Store} {lockedByOther : Int → Bool} {tx : Txn}
    {q : Txn × Store} (hm : tx.Moves committed lockedByOther q) :
    q.2 = committed ∨ q.2 = tx.view committed := by
  cases hm with
  | commit => exact .inr rfl
  | _ => exact .inl rfl

end Txn

/-- The requests in progress and the committed store. -/
structure System where
  committed : Store
  txns : List Txn

namespace System

/-- The requests, none started, on a store. -/
def init (s : Store) (requests : List (UserProfile × SubgroupRequest)) : System :=
  ⟨s, requests.map fun r => Txn.start r.1 r.2⟩

/-- Whether a request other than `t` holds the lock of a group row. -/
def lockedByOther (sys : System) (t : Nat) (x : Int) : Bool :=
  sys.txns.enum.any fun p => p.1 != t && p.2.held.contains x

/-- One step of request `t`. -/
def step (sys : System) (t : Nat) : System :=
  match sys.txns[t]? with
  | none => sys
  | some tx =>
      ⟨(tx.step sys.committed (sys.lockedByOther t)).2,
        sys.txns.set t (tx.step sys.committed (sys.lockedByOther t)).1⟩

/-- The system after a schedule of steps. -/
def run (sys : System) (schedule : List Nat) : System :=
  schedule.foldl step sys

/-- The outcome of each request that has finished. -/
def outcomes (sys : System) : List (Option (Except String Unit)) :=
  sys.txns.map fun tx => match tx.phase with
    | .done outcome => some outcome
    | _ => none

/-- Request `t` asks for a lock that request `t'` holds. -/
def WaitsFor (sys : System) (t t' : Nat) : Prop :=
  t ≠ t' ∧ ∃ tx tx' x, sys.txns[t]? = some tx ∧ sys.txns[t']? = some tx' ∧
    tx.nextLock = some x ∧ x ∈ tx'.held

theorem run_cons (sys : System) (t : Nat) (schedule : List Nat) :
    sys.run (t :: schedule) = (sys.step t).run schedule := rfl

theorem run_append (sys : System) (first second : List Nat) :
    sys.run (first ++ second) = (sys.run first).run second :=
  List.foldl_append ..

/-- A system that no step changes stays as it is under every schedule. -/
theorem run_eq_self {sys : System} (h : ∀ t, sys.step t = sys) :
    ∀ schedule, sys.run schedule = sys
  | [] => rfl
  | t :: schedule => by rw [run_cons, h t, run_eq_self h schedule]

theorem step_of_length_le {sys : System} {t : Nat} (ht : sys.txns.length ≤ t) :
    sys.step t = sys := by
  simp [step, List.getElem?_eq_none ht]

theorem length_step (sys : System) (t : Nat) : (sys.step t).txns.length = sys.txns.length := by
  unfold step
  split
  · rfl
  · exact List.length_set ..

theorem length_run (sys : System) : ∀ schedule, (sys.run schedule).txns.length = sys.txns.length
  | [] => rfl
  | t :: schedule => by rw [run_cons, length_run _ schedule, length_step]

theorem lockedByOther_of_mem {sys : System} {t t' : Nat} {tx' : Txn} {x : Int} (hne : t ≠ t')
    (ht' : sys.txns[t']? = some tx') (hx : x ∈ tx'.held) : sys.lockedByOther t x = true :=
  List.any_eq_true.mpr ⟨(t', tx'), List.mem_enum_iff_getElem?.mpr ht', by simp [Ne.symm hne, hx]⟩

/-- Writing back what a slot holds leaves the list as it is. -/
theorem set_eq_self_of_getElem? {α : Type} {l : List α} {t : Nat} {a : α} (h : l[t]? = some a) :
    l.set t a = l :=
  List.ext_getElem? fun j => by
    by_cases hj : t = j
    · subst hj
      rw [List.getElem?_set_self (List.getElem?_eq_some_iff.mp h).1, h]
    · rw [List.getElem?_set_ne hj]

/-- **A waiting request does not move.** -/
theorem step_of_waitsFor {sys : System} {t t' : Nat} (h : sys.WaitsFor t t') :
    sys.step t = sys := by
  obtain ⟨hne, tx, tx', x, ht, ht', hnext, hx⟩ := h
  obtain ⟨call, calls, context, toLock, hphase⟩ := Txn.nextLock_eq_some hnext
  have hstep : tx.step sys.committed (sys.lockedByOther t) = (tx, sys.committed) := by
    simp [Txn.step, hphase, lockedByOther_of_mem hne ht' hx]
  simp only [step, ht, hstep, set_eq_self_of_getElem? ht]

end System

end Zerver.UserGroups.Concurrent

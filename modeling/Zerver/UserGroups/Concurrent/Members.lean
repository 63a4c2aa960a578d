import Zerver.UserGroups.Invariant

/-!
# Concurrent membership requests on one group

`add_members_to_group_backend` and `remove_members_from_group_backend` lock the group's row
through `access_user_group_by_id(for_read=False)` before they read its members, and
`update_user_group_backend` runs both in one transaction, which keeps the lock until it commits.
This module runs any number of `update_user_group_backend` requests on one group at once, one
step of one request at a time, in any order, and proves that every run is equivalent to running
the finished requests one after the other in the order they finished.

## Main Definitions

* `MemberRequest`, `MemberTxn`, `MemberSystem` — the requests, where each one is, the committed
  store, the holder of the group's row lock, and the finished requests in order.
* `MemberSystem.step`, `MemberSystem.run` — one step of one request; a schedule of steps.
* `serialRun` — requests one after the other in the sequential model.

## Main Results

* `MemberSystem.serializable` — the committed store and every finished request's outcome are
  those of the finished requests run one after the other in the order they finished.

## Design Notes

A request's steps are: the "Nothing to do" check, taking the group's row lock, its body, and the
commit, which releases the lock.  Once it holds the lock, a request reads and writes only the
group's membership rows, which the other requests read only under the same lock, and the users,
which no request writes; so the body, the add and then the delete, is one step on the committed
store.  The users `remove_members_from_group_backend` looks up before it takes the lock are read
in that step too, which changes nothing, as no request writes users.  A request whose group does
not resolve still takes the lock in the model; that changes when it waits, not what it returns.
-/

namespace Zerver.UserGroups.Concurrent

/-- A request to `update_user_group_backend` on the group. -/
structure MemberRequest where
  userProfile : UserProfile
  delete : List Int
  add : List Int
  deriving DecidableEq, Repr

/-- The request is refused before it takes any lock ("Nothing to do"). -/
def MemberRequest.nothingToDo (request : MemberRequest) : Bool :=
  request.add.isEmpty && request.delete.isEmpty

/-- The transaction of `update_user_group_backend`: the add, then the delete. -/
def MemberRequest.body (request : MemberRequest) (s : Store) (userGroupId : Int) :
    Store × Except String Unit :=
  atomic (composeViews
    [fun s => addMembersToGroupBackend s request.userProfile userGroupId request.add,
     fun s => removeMembersFromGroupBackend s request.userProfile userGroupId request.delete]) s

theorem updateUserGroupBackend_eq_body (s : Store) (userGroupId : Int) (request : MemberRequest) :
    updateUserGroupBackend s request.userProfile userGroupId request.delete request.add =
      if request.nothingToDo then (s, .error nothingToDo) else request.body s userGroupId :=
  rfl

/-- Requests one after the other in the sequential model: the store after the last one, and each
one's outcome. -/
def serialRun (s : Store) (userGroupId : Int) (requests : List MemberRequest) :
    Store × List (Except String Unit) :=
  requests.foldl (fun p request =>
    ((updateUserGroupBackend p.1 request.userProfile userGroupId request.delete request.add).1,
      p.2 ++ [(updateUserGroupBackend p.1 request.userProfile userGroupId request.delete
        request.add).2])) (s, [])

theorem serialRun_append_single (s : Store) (userGroupId : Int) (requests : List MemberRequest)
    (request : MemberRequest) :
    serialRun s userGroupId (requests ++ [request]) =
      ((updateUserGroupBackend (serialRun s userGroupId requests).1 request.userProfile
          userGroupId request.delete request.add).1,
        (serialRun s userGroupId requests).2 ++
          [(updateUserGroupBackend (serialRun s userGroupId requests).1 request.userProfile
            userGroupId request.delete request.add).2]) := by
  simp [serialRun, List.foldl_append]

/-- Where a membership request is. -/
inductive MemberPhase
  /-- It has not started. -/
  | ready
  /-- It holds the group's row lock. -/
  | locked
  /-- Its body has run; `store` is what it commits. -/
  | ran (store : Store) (outcome : Except String Unit)
  /-- It has committed or was refused. -/
  | done (outcome : Except String Unit)

/-- A membership request and where it is. -/
structure MemberTxn where
  request : MemberRequest
  phase : MemberPhase

/-- The requests on one group, the committed store, the holder of the group's row lock, and the
finished requests in the order they finished, each with its index and outcome. -/
structure MemberSystem where
  userGroupId : Int
  committed : Store
  holder : Option Nat
  txns : List MemberTxn
  log : List (Nat × MemberRequest × Except String Unit)

namespace MemberSystem

/-- The requests, none started, on a store. -/
def init (s : Store) (userGroupId : Int) (requests : List MemberRequest) : MemberSystem :=
  ⟨userGroupId, s, none, requests.map fun request => ⟨request, .ready⟩, []⟩

/-- **One step of request `t`.**  It takes the lock only when nobody holds it, and releases it
when it commits. -/
def step (sys : MemberSystem) (t : Nat) : MemberSystem :=
  match sys.txns[t]? with
  | none => sys
  | some tx =>
      match tx.phase with
      | .ready =>
          if tx.request.nothingToDo then
            { sys with
              txns := sys.txns.set t ⟨tx.request, .done (.error nothingToDo)⟩
              log := sys.log ++ [(t, tx.request, .error nothingToDo)] }
          else if sys.holder.isNone then
            { sys with holder := some t, txns := sys.txns.set t ⟨tx.request, .locked⟩ }
          else sys
      | .locked =>
          { sys with
            txns := sys.txns.set t ⟨tx.request,
              .ran (tx.request.body sys.committed sys.userGroupId).1
                (tx.request.body sys.committed sys.userGroupId).2⟩ }
      | .ran store outcome =>
          { sys with
            committed := store
            holder := none
            txns := sys.txns.set t ⟨tx.request, .done outcome⟩
            log := sys.log ++ [(t, tx.request, outcome)] }
      | .done _ => sys

/-- The system after a schedule of steps. -/
def run (sys : MemberSystem) (schedule : List Nat) : MemberSystem :=
  schedule.foldl step sys

/-- The outcome of request `t`, once it has finished. -/
def outcome (sys : MemberSystem) (t : Nat) : Option (Except String Unit) :=
  match sys.txns[t]? with
  | some ⟨_, .done outcome⟩ => some outcome
  | _ => none

theorem run_cons (sys : MemberSystem) (t : Nat) (schedule : List Nat) :
    sys.run (t :: schedule) = (sys.step t).run schedule := rfl

end MemberSystem

/-- A request is past the lock and has not committed. -/
def MemberPhase.Busy : MemberPhase → Prop
  | .locked | .ran _ _ => True
  | .ready | .done _ => False

/-! ## Serializability -/

namespace MemberSystem

variable {s₀ : Store} {requests : List MemberRequest}

/-- **The invariant of a run from `s₀`.** -/
structure Inv (s₀ : Store) (requests : List MemberRequest) (sys : MemberSystem) : Prop where
  /-- The committed store and the logged outcomes are those of the logged requests run one after
  the other from `s₀`. -/
  serial : serialRun s₀ sys.userGroupId (sys.log.map fun e => e.2.1) =
    (sys.committed, sys.log.map fun e => e.2.2)
  /-- The requests keep their places. -/
  requests : sys.txns.map MemberTxn.request = requests
  /-- A logged request has finished, with the logged outcome. -/
  logged : ∀ e ∈ sys.log, ∃ tx : MemberTxn, sys.txns[e.1]? = some tx ∧ tx.request = e.2.1 ∧
    tx.phase = .done e.2.2
  /-- A finished request is logged. -/
  finished : ∀ (t : Nat) (tx : MemberTxn) o, sys.txns[t]? = some tx → tx.phase = .done o →
    t ∈ sys.log.map Prod.fst
  /-- No request is logged twice. -/
  nodup : (sys.log.map Prod.fst).Nodup
  /-- A request past the lock holds it, and was not refused. -/
  holder : ∀ (t : Nat) (tx : MemberTxn), sys.txns[t]? = some tx → tx.phase.Busy →
    sys.holder = some t ∧ tx.request.nothingToDo = false
  /-- A request whose body has run ran it on the committed store. -/
  ran : ∀ (t : Nat) (tx : MemberTxn) store o, sys.txns[t]? = some tx → tx.phase = .ran store o →
    (store, o) = tx.request.body sys.committed sys.userGroupId

theorem inv_init (s₀ : Store) (userGroupId : Int) (requests : List MemberRequest) :
    Inv s₀ requests (init s₀ userGroupId requests) where
  serial := rfl
  requests := by simp [init, Function.comp_def]
  logged := fun _ h => absurd h (List.not_mem_nil _)
  finished := fun _ _ _ ht hdone => by
    simp only [init, List.getElem?_map, Option.map_eq_some'] at ht
    obtain ⟨_, -, rfl⟩ := ht
    cases hdone
  nodup := List.nodup_nil
  holder := fun _ _ ht hbusy => by
    simp only [init, List.getElem?_map, Option.map_eq_some'] at ht
    obtain ⟨_, -, rfl⟩ := ht
    exact absurd hbusy id
  ran := fun _ _ _ _ ht hran => by
    simp only [init, List.getElem?_map, Option.map_eq_some'] at ht
    obtain ⟨_, -, rfl⟩ := ht
    cases hran

/-- Request `t`'s slot, rewritten. -/
theorem getElem?_set_of_getElem? {l : List MemberTxn} {t : Nat} {tx : MemberTxn}
    (ht : l[t]? = some tx) (tx' : MemberTxn) (j : Nat) :
    (l.set t tx')[j]? = if t = j then some tx' else l[j]? := by
  rw [List.getElem?_set]
  split
  · rw [if_pos (List.getElem?_eq_some_iff.mp ht).1]
  · rfl

theorem map_request_set {l : List MemberTxn} {t : Nat} {tx : MemberTxn} (ht : l[t]? = some tx)
    (phase : MemberPhase) :
    (l.set t ⟨tx.request, phase⟩).map MemberTxn.request = l.map MemberTxn.request := by
  refine List.ext_getElem? fun j => ?_
  rw [List.getElem?_map, List.getElem?_map, getElem?_set_of_getElem? ht]
  split
  · subst j
    rw [ht]
    rfl
  · rfl

/-- A logged request has finished, so a request that has not is not logged. -/
theorem Inv.not_logged {sys : MemberSystem} (h : Inv s₀ requests sys) {t : Nat} {tx : MemberTxn}
    (ht : sys.txns[t]? = some tx) (hnotDone : ∀ o, tx.phase ≠ .done o) :
    ∀ e ∈ sys.log, e.1 ≠ t := by
  rintro e he rfl
  obtain ⟨tx', ht', -, hdone⟩ := h.logged e he
  rw [ht] at ht'
  cases ht'
  exact hnotDone _ hdone

/-- **A request finishes**: it is logged with its outcome, and the committed store becomes the one
its view leaves on the committed store. -/
theorem Inv.finish {sys : MemberSystem} (h : Inv s₀ requests sys) {t : Nat} {tx : MemberTxn}
    (ht : sys.txns[t]? = some tx) (hnotDone : ∀ o, tx.phase ≠ .done o)
    {committed : Store} {holder : Option Nat} {o : Except String Unit}
    (hview : updateUserGroupBackend sys.committed tx.request.userProfile sys.userGroupId
      tx.request.delete tx.request.add = (committed, o))
    (hholder : ∀ t' (tx' : MemberTxn), t' ≠ t → sys.txns[t']? = some tx' → tx'.phase.Busy →
      holder = some t')
    (hran : ∀ t' (tx' : MemberTxn) store o', t' ≠ t → sys.txns[t']? = some tx' →
      tx'.phase = .ran store o' → (store, o') = tx'.request.body committed sys.userGroupId) :
    Inv s₀ requests { sys with
      committed := committed
      holder := holder
      txns := sys.txns.set t ⟨tx.request, .done o⟩
      log := sys.log ++ [(t, tx.request, o)] } := by
  have hset := getElem?_set_of_getElem? ht ⟨tx.request, .done o⟩
  have hout := h.not_logged ht hnotDone
  refine ⟨?_, (map_request_set ht _).trans h.requests, fun e he => ?_, fun t' tx' o' ht' hdone => ?_,
    ?_, fun t' tx' ht' hbusy => ?_, fun t' tx' store o' ht' hran' => ?_⟩
  · simp only [List.map_append, List.map_cons, List.map_nil, serialRun_append_single, h.serial,
      hview]
  · rcases List.mem_append.mp he with he | he
    · simpa [hset, Ne.symm (hout e he)] using h.logged e he
    · obtain rfl := List.mem_singleton.mp he
      simp [hset]
  -- the log has no duplicate, then each slot fact: request `t`'s new slot, or another's
  rotate_left
  · rw [List.map_append, List.nodup_append]
    refine ⟨h.nodup, List.nodup_singleton _, fun x hx hy => ?_⟩
    obtain ⟨e, he, rfl⟩ := List.mem_map.mp hx
    simp only [List.map_cons, List.map_nil, List.mem_singleton] at hy
    exact hout e he hy
  all_goals
    rw [hset] at ht'
    split at ht'
  · cases ht'
    exact absurd hbusy id
  · exact ⟨hholder t' tx' (Ne.symm ‹_›) ht' hbusy, (h.holder t' tx' ht' hbusy).2⟩
  · cases ht'
    cases hran'
  · exact hran t' tx' store o' (Ne.symm ‹_›) ht' hran'
  · simp [*]
  · exact List.map_append .. ▸ List.mem_append_left _ (h.finished t' tx' o' ht' hdone)

/-- **A request moves on without finishing**: the log and the committed store stay as they are,
so the invariant asks only that the new phase hold the lock, when it is past it, and have run its
body on the committed store. -/
theorem Inv.advance {sys : MemberSystem} (h : Inv s₀ requests sys) {t : Nat} {tx : MemberTxn}
    (ht : sys.txns[t]? = some tx) (hnotDone : ∀ o, tx.phase ≠ .done o) {phase : MemberPhase}
    {holder : Option Nat} (hphase : ∀ o, phase ≠ .done o)
    (hholder : phase.Busy → holder = some t ∧ tx.request.nothingToDo = false)
    (hothers : ∀ t' (tx' : MemberTxn), t' ≠ t → sys.txns[t']? = some tx' → tx'.phase.Busy →
      holder = some t')
    (hran : ∀ store o, phase = .ran store o → (store, o) = tx.request.body sys.committed
      sys.userGroupId) :
    Inv s₀ requests { sys with holder := holder, txns := sys.txns.set t ⟨tx.request, phase⟩ } := by
  have hset := getElem?_set_of_getElem? ht ⟨tx.request, phase⟩
  have hout := h.not_logged ht hnotDone
  refine ⟨h.serial, (map_request_set ht _).trans h.requests, fun e he => ?_,
    fun t' tx' o' ht' hdone => ?_, h.nodup, fun t' tx' ht' hbusy => ?_,
    fun t' tx' store o' ht' hran' => ?_⟩
  · simpa [hset, Ne.symm (hout e he)] using h.logged e he
  -- each slot fact: request `t`'s new slot, or another's
  all_goals
    rw [hset] at ht'
    split at ht'
  · cases ht'
    exact absurd hdone (hphase o')
  · exact h.finished t' tx' o' ht' hdone
  · cases ht'
    subst_vars
    exact hholder hbusy
  · exact ⟨hothers t' tx' (Ne.symm ‹_›) ht' hbusy, (h.holder t' tx' ht' hbusy).2⟩
  · cases ht'
    exact hran store o' hran'
  · exact h.ran t' tx' store o' ht' hran'

/-- **Every step keeps the invariant.** -/
theorem Inv.step {sys : MemberSystem} (h : Inv s₀ requests sys) (t : Nat) :
    Inv s₀ requests (sys.step t) := by
  unfold MemberSystem.step
  split
  · exact h
  rename_i tx ht
  split
  · -- the "Nothing to do" check, then the lock
    rename_i hphase
    have hnotDone : ∀ o, tx.phase ≠ .done o := by simp [hphase]
    split
    · rename_i hnothing
      exact h.finish ht hnotDone (by rw [updateUserGroupBackend_eq_body, if_pos hnothing])
        (fun t' tx' _ ht' hbusy => (h.holder t' tx' ht' hbusy).1)
        (fun t' tx' store o' _ ht' hran => h.ran t' tx' store o' ht' hran)
    split
    · rename_i hnothing hfree
      exact h.advance ht hnotDone (by simp) (fun _ => ⟨rfl, by simpa using hnothing⟩)
        (fun t' tx' _ ht' hbusy => by simp [(h.holder t' tx' ht' hbusy).1] at hfree)
        (fun _ _ hran => by cases hran)
    · exact h
  · -- the body, on the committed store
    rename_i hphase
    have hbusy : tx.phase.Busy := by rw [hphase]; trivial
    exact h.advance ht (by simp [hphase]) (by simp) (fun _ => h.holder t tx ht hbusy)
      (fun t' tx' _ ht' hbusy' => (h.holder t' tx' ht' hbusy').1)
      (fun _ _ hran => by cases hran; rfl)
  · -- the commit
    rename_i store o hphase
    have hbusy : tx.phase.Busy := by rw [hphase]; trivial
    obtain ⟨hheld, hnothing⟩ := h.holder t tx ht hbusy
    have hother : ∀ t' (tx' : MemberTxn), t' ≠ t → sys.txns[t']? = some tx' → ¬ tx'.phase.Busy :=
      fun t' tx' hne ht' hbusy' => hne (Option.some.inj ((h.holder t' tx' ht' hbusy').1.symm.trans
        hheld))
    refine h.finish ht (fun _ h' => by rw [hphase] at h'; cases h') ?_
      (fun t' tx' hne ht' hbusy' => absurd hbusy' (hother t' tx' hne ht'))
      (fun t' tx' _ _ hne ht' hran => absurd (by rw [hran]; trivial) (hother t' tx' hne ht'))
    rw [updateUserGroupBackend_eq_body, hnothing, if_neg Bool.false_ne_true]
    exact (h.ran t tx store o ht hphase).symm
  · exact h

theorem Inv.run {sys : MemberSystem} (h : Inv s₀ requests sys) :
    ∀ schedule, Inv s₀ requests (sys.run schedule)
  | [] => h
  | t :: schedule => by rw [run_cons]; exact (h.step t).run schedule

theorem userGroupId_step (sys : MemberSystem) (t : Nat) :
    (sys.step t).userGroupId = sys.userGroupId := by
  unfold step
  repeat' split
  all_goals rfl

theorem userGroupId_run (sys : MemberSystem) :
    ∀ schedule, (sys.run schedule).userGroupId = sys.userGroupId
  | [] => rfl
  | t :: schedule => by rw [run_cons, userGroupId_run _ schedule, userGroupId_step]

theorem outcome_eq_some {sys : MemberSystem} {t : Nat} {o : Except String Unit}
    (h : sys.outcome t = some o) : ∃ tx, sys.txns[t]? = some tx ∧ tx.phase = .done o := by
  unfold outcome at h
  split at h
  · cases h
    exact ⟨_, ‹_›, rfl⟩
  · cases h

theorem serialRun_valid {s : Store} (hv : s.Valid) (userGroupId : Int) :
    ∀ requests : List MemberRequest, (serialRun s userGroupId requests).1.Valid := by
  intro requests
  induction requests using List.reverseRecOn with
  | nil => exact hv
  | append_singleton requests request ih =>
      rw [serialRun_append_single]
      exact valid_updateUserGroupBackend ih

/-- **Concurrent membership requests on one group are serializable.**  After any schedule of
steps of any `update_user_group_backend` requests on one group, each taking the group's row lock
before it reads the members and keeping it until it commits: the finished requests, each once and
in the order they finished, run one after the other in the sequential model from the initial
store, give exactly the committed store and each finished request's outcome.  A request that has
not finished has written nothing, and from a valid store the committed store is valid, so it holds
no membership row twice. -/
theorem serializable (s₀ : Store) (userGroupId : Int) (requests : List MemberRequest)
    (schedule : List Nat) :
    let sys := (init s₀ userGroupId requests).run schedule
    serialRun s₀ userGroupId (sys.log.map fun e => e.2.1) =
        (sys.committed, sys.log.map fun e => e.2.2) ∧
      (sys.log.map Prod.fst).Nodup ∧
      (∀ e ∈ sys.log, requests[e.1]? = some e.2.1 ∧ sys.outcome e.1 = some e.2.2) ∧
      (∀ t o, sys.outcome t = some o → t ∈ sys.log.map Prod.fst) ∧
      (s₀.Valid → sys.committed.Valid) := by
  intro sys
  have h : Inv s₀ requests sys := (inv_init s₀ userGroupId requests).run schedule
  have hgroup : sys.userGroupId = userGroupId := userGroupId_run _ schedule
  refine ⟨hgroup ▸ h.serial, h.nodup, fun e he => ?_, fun t o ht => ?_, fun hv => ?_⟩
  · obtain ⟨tx, ht, hreq, hdone⟩ := h.logged e he
    refine ⟨by rw [← h.requests, List.getElem?_map, ht]; exact congrArg some hreq, ?_⟩
    obtain ⟨request, phase⟩ := tx
    cases hdone
    simp [outcome, ht]
  · obtain ⟨tx, ht, hdone⟩ := outcome_eq_some ht
    exact h.finished t tx o ht hdone
  · have := congrArg Prod.fst h.serial
    simp only at this
    exact this ▸ serialRun_valid hv _ _

/-- Ann adds Bob (2) and herself (1) to group 10 and deletes Bob again; the add of 1 takes the
lock first and the add of 2 waits for it.  They finish in the order 1, 0, 2. -/
theorem serializable_team :
    let sys := (init teamStore 10
      [⟨⟨1, 7, "Ann", false, true⟩, [], [2]⟩, ⟨⟨1, 7, "Ann", false, true⟩, [], [1]⟩,
       ⟨⟨1, 7, "Ann", false, true⟩, [2], []⟩]).run [1, 0, 1, 1, 0, 0, 0, 2, 2, 2]
    sys.log.map Prod.fst = [1, 0, 2] ∧ sys.committed.directMemberIds 10 = [1] ∧
      serialRun teamStore 10 (sys.log.map fun e => e.2.1) =
        (sys.committed, sys.log.map fun e => e.2.2) :=
  ⟨rfl, rfl, (serializable teamStore 10 _ _).1⟩

end MemberSystem

end Zerver.UserGroups.Concurrent

import Zerver.UserGroups.Concurrent.Members

/-!
# Concurrent membership requests always finish

`update_user_group_backend` takes one lock, the row of its group, from its first read of the
members to its commit.  So concurrent membership requests cannot wait for each other in a cycle,
as two subgroup requests can (`updateSubgroupsOfUserGroup_deadlock`): whatever a schedule has
done, the request that holds the lock can run to its commit, and then each other request can run
alone.  This module proves it for every state a schedule reaches.

## Main Definitions

* `MemberSystem.HolderBusy` — the lock is held only by a request between its lock and its commit.
* `MemberSystem.drain` — the schedule that runs the holder to its commit, and then each request
  alone for three steps.

## Main Results

* `MemberSystem.HolderBusy.run` — every schedule keeps the holder busy.
* `MemberSystem.finished_drain` — from every state a schedule reaches, `drain` finishes every
  request.

## Design Notes

One lemma per transition (`step_ready_nothingToDo`, `step_ready_free`, `step_locked`, `step_ran`,
`step_done`) says what a step of a request in each phase does; nothing below unfolds `step`
again.  Of the serializability invariant `Inv` the proof reads one field: a request past the
lock holds it.  With `HolderBusy`, its converse, a state either has one busy request, which holds
the lock, or is idle: nobody holds the lock, and every request is ready or finished.
-/

namespace Zerver.UserGroups.Concurrent

namespace MemberSystem

/-! ## What one step does -/

section Steps

variable {sys : MemberSystem} {t : Nat} {request : MemberRequest}

theorem step_ready_nothingToDo (ht : sys.txns[t]? = some ⟨request, .ready⟩)
    (hn : request.nothingToDo = true) :
    sys.step t = { sys with
      txns := sys.txns.set t ⟨request, .done (.error nothingToDo)⟩
      log := sys.log ++ [(t, request, .error nothingToDo)] } := by
  simp [step, ht, hn]

theorem step_ready_free (ht : sys.txns[t]? = some ⟨request, .ready⟩)
    (hn : request.nothingToDo = false) (hfree : sys.holder = none) :
    sys.step t = { sys with holder := some t, txns := sys.txns.set t ⟨request, .locked⟩ } := by
  simp [step, ht, hn, hfree]

theorem step_ready_waits {h : Nat} (ht : sys.txns[t]? = some ⟨request, .ready⟩)
    (hn : request.nothingToDo = false) (hheld : sys.holder = some h) : sys.step t = sys := by
  simp [step, ht, hn, hheld]

theorem step_locked (ht : sys.txns[t]? = some ⟨request, .locked⟩) :
    sys.step t = { sys with
      txns := sys.txns.set t ⟨request, .ran (request.body sys.committed sys.userGroupId).1
        (request.body sys.committed sys.userGroupId).2⟩ } := by
  simp [step, ht]

theorem step_ran {store : Store} {o : Except String Unit}
    (ht : sys.txns[t]? = some ⟨request, .ran store o⟩) :
    sys.step t = { sys with
      committed := store
      holder := none
      txns := sys.txns.set t ⟨request, .done o⟩
      log := sys.log ++ [(t, request, o)] } := by
  simp [step, ht]

theorem step_done {o : Except String Unit} (ht : sys.txns[t]? = some ⟨request, .done o⟩) :
    sys.step t = sys := by
  simp [step, ht]

/-- A step of request `t` leaves every other request where it is. -/
theorem getElem?_step_of_ne (sys : MemberSystem) {t u : Nat} (hne : t ≠ u) :
    (sys.step t).txns[u]? = sys.txns[u]? := by
  unfold step
  repeat' split
  all_goals simp [List.getElem?_set_ne hne]

/-- A finished request stays finished, with its outcome. -/
theorem outcome_step_of_isSome (sys : MemberSystem) (t : Nat) {u : Nat}
    (hu : (sys.outcome u).isSome) : (sys.step t).outcome u = sys.outcome u := by
  by_cases htu : t = u
  · subst htu
    obtain ⟨o, ho⟩ := Option.isSome_iff_exists.mp hu
    obtain ⟨⟨request, phase⟩, ht, rfl⟩ := outcome_eq_some ho
    rw [step_done ht]
  · simp only [outcome, getElem?_step_of_ne sys htu]

theorem outcome_run_of_isSome {sys : MemberSystem} {u : Nat} (hu : (sys.outcome u).isSome) :
    ∀ schedule, (sys.run schedule).outcome u = sys.outcome u
  | [] => rfl
  | t :: schedule => by
      rw [run_cons, outcome_run_of_isSome (by rwa [outcome_step_of_isSome sys t hu]) schedule,
        outcome_step_of_isSome sys t hu]

end Steps

/-! ## The holder of the lock -/

/-- The request holding the lock is between its lock and its commit. -/
def HolderBusy (sys : MemberSystem) : Prop :=
  ∀ h, sys.holder = some h → ∃ tx : MemberTxn, sys.txns[h]? = some tx ∧ tx.phase.Busy

theorem HolderBusy.step {sys : MemberSystem} (hb : sys.HolderBusy) (t : Nat) :
    (sys.step t).HolderBusy := by
  cases ht : sys.txns[t]? with
  | none => simpa [MemberSystem.step, ht] using hb
  | some tx =>
    obtain ⟨request, phase⟩ := tx
    have hset := getElem?_set_of_getElem? ht
    cases phase with
    | ready =>
        cases hn : request.nothingToDo
        · cases hfree : sys.holder
          · rw [step_ready_free ht hn hfree]
            rintro h ⟨⟩
            exact ⟨_, (hset _ t).trans (if_pos rfl), trivial⟩
          · rw [step_ready_waits ht hn hfree]
            exact hb
        · rw [step_ready_nothingToDo ht hn]
          intro h hh
          obtain ⟨tx, hh', hbusy⟩ := hb h hh
          have hth : t ≠ h := by
            rintro rfl
            rw [ht] at hh'
            cases hh'
            exact hbusy
          exact ⟨tx, by rw [hset, if_neg hth]; exact hh', hbusy⟩
    | locked =>
        rw [step_locked ht]
        intro h hh
        obtain ⟨tx, hh', hbusy⟩ := hb h hh
        by_cases hth : t = h
        · exact ⟨_, (hset _ h).trans (if_pos hth), trivial⟩
        · exact ⟨tx, by rw [hset, if_neg hth]; exact hh', hbusy⟩
    | ran store o =>
        rw [step_ran ht]
        rintro h ⟨⟩
    | done o =>
        rw [step_done ht]
        exact hb

theorem HolderBusy.run {sys : MemberSystem} (hb : sys.HolderBusy) :
    ∀ schedule, (sys.run schedule).HolderBusy
  | [] => hb
  | t :: schedule => by rw [run_cons]; exact (hb.step t).run schedule

theorem holderBusy_init (s : Store) (userGroupId : Int) (requests : List MemberRequest) :
    (init s userGroupId requests).HolderBusy :=
  fun _ h => nomatch h

/-- **The holder commits**: two steps of the request holding the lock release it. -/
theorem holder_run_holder {sys : MemberSystem} (hb : sys.HolderBusy) {h : Nat}
    (hh : sys.holder = some h) : (sys.run [h, h]).holder = none := by
  obtain ⟨⟨request, phase⟩, ht, hbusy⟩ := hb h hh
  have hset := getElem?_set_of_getElem? ht
  cases phase with
  | locked =>
      have hran : (sys.step h).txns[h]? = some ⟨request,
          .ran (request.body sys.committed sys.userGroupId).1
            (request.body sys.committed sys.userGroupId).2⟩ := by
        rw [step_locked ht]
        exact (hset _ h).trans (if_pos rfl)
      rw [run_cons, run_cons, step_ran hran]
      rfl
  | ran store o =>
      have hdone : (sys.step h).txns[h]? = some ⟨request, .done o⟩ := by
        rw [step_ran ht]
        exact (hset _ h).trans (if_pos rfl)
      rw [run_cons, run_cons, step_done hdone, step_ran ht]
      rfl
  | ready | done => exact absurd hbusy id

/-! ## Requests that run alone -/

section Alone

variable {s₀ : Store} {requests : List MemberRequest}

theorem run_append (sys : MemberSystem) (first second : List Nat) :
    sys.run (first ++ second) = (sys.run first).run second :=
  List.foldl_append ..

/-- **A request runs alone**: when nobody holds the lock, three steps of request `t` finish it
and leave the lock free. -/
theorem Inv.alone_finishes {sys : MemberSystem} (h : Inv s₀ requests sys)
    (hfree : sys.holder = none) {t : Nat} (htl : t < requests.length) :
    ((sys.run [t, t, t]).outcome t).isSome ∧ (sys.run [t, t, t]).holder = none := by
  have hlen : t < sys.txns.length := by rwa [← h.requests, List.length_map] at htl
  obtain ⟨⟨request, phase⟩, ht⟩ : ∃ tx, sys.txns[t]? = some tx :=
    ⟨_, List.getElem?_eq_getElem hlen⟩
  cases phase with
  | ready =>
      cases hn : request.nothingToDo <;>
        simp [MemberSystem.run, MemberSystem.step, outcome, ht, hn, hfree, hlen]
  | locked | ran _ _ =>
      exact absurd (h.holder t _ ht trivial).1 (by rw [hfree]; exact Option.noConfusion)
  | done o => simp [MemberSystem.run, MemberSystem.step, outcome, ht, hfree]

/-- **Requests run alone one after the other**: when nobody holds the lock, three steps of each
of `ts` in turn finish all of them and leave the lock free. -/
theorem Inv.run_each {sys : MemberSystem} (h : Inv s₀ requests sys) (hfree : sys.holder = none) :
    ∀ ts : List Nat, (∀ t ∈ ts, t < requests.length) →
      (sys.run (ts.flatMap fun t => [t, t, t])).holder = none ∧
        ∀ t ∈ ts, ((sys.run (ts.flatMap fun t => [t, t, t])).outcome t).isSome
  | [], _ => ⟨hfree, fun _ ht => absurd ht (List.not_mem_nil _)⟩
  | t :: ts, hts => by
      obtain ⟨hdone, hfree'⟩ := h.alone_finishes hfree (hts t (.head _))
      obtain ⟨hfree'', hrest⟩ :=
        (h.run [t, t, t]).run_each hfree' ts fun u hu => hts u (.tail _ hu)
      rw [List.flatMap_cons, run_append]
      refine ⟨hfree'', fun u hu => ?_⟩
      rcases List.mem_cons.mp hu with rfl | hu
      · exact (outcome_run_of_isSome hdone _).symm ▸ hdone
      · exact hrest u hu

end Alone

/-! ## Every request finishes -/

/-- The schedule that runs the holder of the lock to its commit, and then each request alone for
three steps. -/
def drain (sys : MemberSystem) : List Nat :=
  sys.holder.toList ++ sys.holder.toList ++ (List.range sys.txns.length).flatMap fun t => [t, t, t]

/-- **Concurrent membership requests never deadlock.**  Take any `update_user_group_backend`
requests on one group and any schedule of their steps.  From the state the schedule reaches,
running the request that holds the group's row lock to its commit, and then each request alone,
finishes every request: no schedule leaves requests waiting for each other. -/
theorem finished_drain (s₀ : Store) (userGroupId : Int) (requests : List MemberRequest)
    (schedule : List Nat) :
    let sys := (init s₀ userGroupId requests).run schedule
    ∀ t < requests.length, ((sys.run sys.drain).outcome t).isSome := by
  intro sys t ht
  have h : Inv s₀ requests sys := (inv_init s₀ userGroupId requests).run schedule
  have hlen : sys.txns.length = requests.length := by rw [← h.requests, List.length_map]
  have hfree : (sys.run (sys.holder.toList ++ sys.holder.toList)).holder = none := by
    cases hh : sys.holder with
    | none => exact hh
    | some k =>
        exact holder_run_holder ((holderBusy_init s₀ userGroupId requests).run schedule) hh
  rw [drain, run_append]
  refine ((h.run _).run_each hfree _ fun u hu => ?_).2 t ?_
  · rw [← hlen]
    exact List.mem_range.mp hu
  · rw [List.mem_range, hlen]
    exact ht

/-- Ann's three requests of `serializable_team`, after request 1 has taken the lock and request 0
has asked for it: `drain` commits request 1, then runs 0 and 2. -/
example :
    let sys := (init teamStore 10
      [⟨⟨1, 7, "Ann", false, true⟩, [], [2]⟩, ⟨⟨1, 7, "Ann", false, true⟩, [], [1]⟩,
       ⟨⟨1, 7, "Ann", false, true⟩, [2], []⟩]).run [1, 0]
    sys.drain = [1, 1, 0, 0, 0, 1, 1, 1, 2, 2, 2] ∧
      (sys.run sys.drain).log.map Prod.fst = [1, 0, 2] :=
  ⟨rfl, rfl⟩

end MemberSystem

end Zerver.UserGroups.Concurrent

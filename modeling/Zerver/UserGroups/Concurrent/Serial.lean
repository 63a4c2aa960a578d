import Zerver.UserGroups.Invariant
import Zerver.UserGroups.Concurrent.Model

/-!
# Requests one after the other

A request that no other request is in the way of runs through its steps as its view runs in the
sequential model of `Zerver.UserGroups.Views`.  So a schedule that runs the requests one after
the other commits what `runRequests` commits, and keeps the store invariant of
`Zerver.UserGroups.Invariant`.  What interleaving does to the subgroup relation is in
`Zerver.UserGroups.Concurrent.Acyclic`.

## Main Definitions

* `Txn.stepAlone`, `Txn.AloneReaches` — a request's steps when no row is locked by another.
* `serialViews` — the requests one after the other in the sequential model, with their outcomes.
* `serialSchedule` — the schedule that runs the requests one after the other, each for a given
  number of steps.

## Main Results

* `System.run_alone` — a request that runs alone does what its view does in the sequential model.
* `System.run_serial` — every serial schedule that runs each request alone to its end, in order,
  commits what `runRequests` commits, with the views' outcomes; so from a valid store it keeps
  the store valid.
-/

namespace Zerver.UserGroups.Concurrent

/-! ## A request that runs alone -/

namespace Txn

/-- One step of a request that runs alone: no row is locked by another request. -/
def stepAlone (p : Txn × Store) : Txn × Store :=
  p.1.step p.2 fun _ => false

/-- The states a request running alone reaches, with the committed store. -/
def AloneReaches : Txn × Store → Txn × Store → Prop :=
  Relation.ReflTransGen fun p q => q = stepAlone p

theorem AloneReaches.head {p q r : Txn × Store} (h : stepAlone p = q) (hqr : AloneReaches q r) :
    AloneReaches p r :=
  Relation.ReflTransGen.head h.symm hqr

theorem AloneReaches.tail {p q r : Txn × Store} (hpq : AloneReaches p q) (h : stepAlone q = r) :
    AloneReaches p r :=
  Relation.ReflTransGen.tail hpq h.symm

theorem AloneReaches.single {p q : Txn × Store} (h : stepAlone p = q) : AloneReaches p q :=
  Relation.ReflTransGen.single h.symm

theorem AloneReaches.trans {p q r : Txn × Store} (hpq : AloneReaches p q)
    (hqr : AloneReaches q r) : AloneReaches p r :=
  Relation.ReflTransGen.trans hpq hqr

theorem finish_congr {tx tx' : Txn} (hu : tx'.userProfile = tx.userProfile)
    (hr : tx'.request = tx.request) (outcome : Except String Unit) :
    tx'.finish outcome = tx.finish outcome := by
  cases tx
  cases tx'
  cases hu
  cases hr
  rfl

/-- Running alone, a request takes every lock it asks for, one step each, and keeps the ones it
held. -/
theorem aloneReaches_locked {call : Call} {calls : List Call} {context : LockedUserGroupContext}
    (committed : Store) :
    ∀ {toLock : List Int} {tx : Txn}, tx.phase = .locking call calls context toLock →
      ∃ held, (∀ x ∈ tx.held, x ∈ held) ∧ (∀ x ∈ toLock, x ∈ held) ∧ AloneReaches (tx, committed)
        ({ tx with phase := .locking call calls context [], held := held }, committed)
  | [], tx, h => ⟨tx.held, fun _ => id, fun _ h => absurd h (List.not_mem_nil _),
      by rw [← h]; exact .refl⟩
  | x :: toLock, tx, h => by
      have hnext : ({ tx with
          phase := .locking call calls context toLock
          held := tx.held.insert x } : Txn).phase = .locking call calls context toLock := rfl
      obtain ⟨held, hkeep, hto, hreach⟩ := aloneReaches_locked committed hnext
      refine ⟨held, fun y hy => hkeep y (List.mem_insert_of_mem hy), fun y hy => ?_,
        AloneReaches.head (by simp [stepAlone, step, h]) hreach⟩
      rcases List.mem_cons.mp hy with rfl | hy
      · exact hkeep y (List.mem_insert_self _ _)
      · exact hto y hy

/-- **One call, run alone, is its sequential body**: it ends with the next call to make and the
body's store as its view, or finished with the body's error. -/
theorem aloneReaches_call {call : Call} {calls : List Call} {tx : Txn} {committed : Store}
    (h : tx.phase = .running (call :: calls)) :
    (∀ v', call.backend (tx.view committed) tx.userProfile = .ok v' →
      ∃ tx', AloneReaches (tx, committed) (tx', committed) ∧ tx'.phase = .running calls ∧
        tx'.view committed = v' ∧ tx'.userProfile = tx.userProfile ∧ tx'.request = tx.request) ∧
    ∀ e, call.backend (tx.view committed) tx.userProfile = .error e →
      AloneReaches (tx, committed) (tx.finish (.error e), committed) := by
  rw [Call.backend_eq]
  by_cases hempty : call.potentialSubgroupIds.isEmpty
  · have hstep : stepAlone (tx, committed) = ({ tx with phase := .running calls }, committed) := by
      simp [stepAlone, step, h, hempty]
    simp only [hempty, if_true]
    exact ⟨fun v' hv => ⟨_, AloneReaches.single hstep, rfl, (Except.ok.inj hv), rfl, rfl⟩,
      fun _ he => absurd he (by simp)⟩
  simp only [hempty, Bool.false_eq_true, if_false]
  cases hlock : lockSubgroupsWithRespectToSupergroup (tx.view committed) call.potentialSubgroupIds
      call.potentialSupergroupId tx.userProfile with
  | error e =>
      have hstep : stepAlone (tx, committed) = (tx.finish (.error e), committed) := by
        simp [stepAlone, step, h, hempty, hlock]
      exact ⟨fun _ hv => absurd hv (by simp [bind, Except.bind]),
        fun e' he => by cases he; exact AloneReaches.single hstep⟩
  | ok context =>
      have hstep : stepAlone (tx, committed) =
          ({ tx with phase := .locking call calls context (lockOrder context) }, committed) := by
        simp [stepAlone, step, h, hempty, hlock]
      have hphase : ({ tx with phase := .locking call calls context (lockOrder context) } :
          Txn).phase = .locking call calls context (lockOrder context) := rfl
      -- under its locks the request reads the same context, and holds every row it names
      obtain ⟨held, -, hheld, hlocked⟩ := aloneReaches_locked committed hphase
      have hto := AloneReaches.head hstep hlocked
      simp only [view] at hlock
      simp only [bind, Except.bind]
      refine ⟨fun v' hv => ?_, fun e he => ?_⟩
      · refine ⟨{ tx with
            phase := .running calls
            held := held
            writes := tx.writes ++ [call.write tx.userProfile context] },
          hto.tail ?_, rfl, ?_, rfl, rfl⟩
        · simp only [view] at hv
          simp [stepAlone, step, view, hlock, if_pos hheld, hv]
        · simp [view, List.foldl_append, Call.withBlock_eq_ok hv]
      · simp only [view] at he
        exact hto.tail (by simp [stepAlone, step, view, hlock, if_pos hheld, he, finish])

/-- **The calls of a request, run alone, are its sequential bodies one after the other.** -/
theorem aloneReaches_calls (committed : Store) :
    ∀ {calls : List Call} {tx : Txn}, tx.phase = .running calls →
      (∀ v', calls.foldlM (fun v call => call.backend v tx.userProfile) (tx.view committed) =
          .ok v' →
        ∃ tx', AloneReaches (tx, committed) (tx', committed) ∧ tx'.phase = .running [] ∧
          tx'.view committed = v' ∧ tx'.userProfile = tx.userProfile ∧ tx'.request = tx.request) ∧
      ∀ e, calls.foldlM (fun v call => call.backend v tx.userProfile) (tx.view committed) =
          .error e →
        AloneReaches (tx, committed) (tx.finish (.error e), committed)
  | [], tx, h =>
      ⟨fun _ hv => ⟨tx, .refl, h, Except.ok.inj hv, rfl, rfl⟩, fun _ he => by cases he⟩
  | call :: calls, tx, h => by
      obtain ⟨hok, herr⟩ := aloneReaches_call h
      simp only [List.foldlM_cons]
      cases hb : call.backend (tx.view committed) tx.userProfile with
      | error e =>
          exact ⟨fun _ hv => absurd hv (by simp [bind, Except.bind]),
            fun e' he => by cases he; exact herr e hb⟩
      | ok v₁ =>
          obtain ⟨tx₁, hreach₁, hphase₁, hview₁, hu₁, hr₁⟩ := hok v₁ hb
          obtain ⟨hok', herr'⟩ := aloneReaches_calls committed hphase₁
          rw [hu₁, hview₁] at hok' herr'
          refine ⟨fun v' hv => ?_, fun e he => ?_⟩
          · obtain ⟨tx', hreach', hphase', hview', hu', hr'⟩ := hok' v' hv
            exact ⟨tx', hreach₁.trans hreach', hphase', hview', hu', hr'.trans hr₁⟩
          · exact hreach₁.trans (finish_congr hu₁ hr₁ _ ▸ herr' e he)

end Txn

/-- The views of the sequential model: the "Nothing to do" check, and then the request's calls in
one transaction. -/
theorem SubgroupRequest.view_eq (s : Store) (userProfile : UserProfile)
    (request : SubgroupRequest) :
    request.view s userProfile =
      if request.nothingToDo then (s, .error Zerver.UserGroups.nothingToDo)
      else atomic (fun s => request.calls.foldlM (fun v call => call.backend v userProfile) s) s := by
  cases request with
  | updateSubgroupsOfUserGroup => rfl
  | deleteUserGroup => simp [view, calls, nothingToDo, Zerver.UserGroups.deleteUserGroup, Call.backend]

/-- **A request started alone runs to its view**: it reaches the end of its transaction with the
view's outcome, having committed the store the view leaves. -/
theorem Txn.aloneReaches_view (s : Store) (userProfile : UserProfile) (request : SubgroupRequest) :
    Txn.AloneReaches (Txn.start userProfile request, s)
      ((Txn.start userProfile request).finish (request.view s userProfile).2,
        (request.view s userProfile).1) := by
  rw [SubgroupRequest.view_eq]
  by_cases hnothing : request.nothingToDo
  · simp only [hnothing, if_true]
    exact .single (by simp [Txn.stepAlone, Txn.step, Txn.start, hnothing])
  simp only [hnothing, Bool.false_eq_true, if_false]
  let tx₁ : Txn := { Txn.start userProfile request with phase := .running request.calls }
  have hstart : Txn.AloneReaches (Txn.start userProfile request, s) (tx₁, s) :=
    .single (by simp [Txn.stepAlone, Txn.step, Txn.start, hnothing, tx₁])
  obtain ⟨hok, herr⟩ := Txn.aloneReaches_calls s (show tx₁.phase = .running request.calls from rfl)
  cases hbody : request.calls.foldlM (fun v call => call.backend v userProfile) s with
  | ok v' =>
      obtain ⟨tx', hreach, hphase, hview, hu, hr⟩ := hok v' hbody
      rw [atomic_of_ok hbody]
      refine hstart.trans (hreach.tail ?_)
      simp only [Txn.stepAlone, Txn.step, hphase, hview]
      rw [Txn.finish_congr hu hr]
      rfl
  | error e =>
      rw [atomic_of_error hbody]
      exact hstart.trans (herr e hbody)

namespace System

/-- The other requests hold no lock. -/
def OthersFree (sys : System) (t : Nat) : Prop :=
  ∀ t' tx', t' ≠ t → sys.txns[t']? = some tx' → tx'.held = []

/-- A request whose fellow requests hold no lock moves as it does alone. -/
theorem step_of_othersFree {sys : System} {t : Nat} {tx : Txn} (ht : sys.txns[t]? = some tx)
    (hfree : sys.OthersFree t) :
    sys.step t = ⟨(Txn.stepAlone (tx, sys.committed)).2,
      sys.txns.set t (Txn.stepAlone (tx, sys.committed)).1⟩ := by
  have hlocked : sys.lockedByOther t = fun _ => false := by
    funext x
    refine Bool.eq_false_iff.mpr fun h => ?_
    obtain ⟨⟨t', tx'⟩, hmem, hheld⟩ := List.any_eq_true.mp h
    simp only [Bool.and_eq_true, bne_iff_ne, ne_eq] at hheld
    simp [hfree t' tx' hheld.1 (List.mem_enum_iff_getElem?.mp hmem)] at hheld
  simp [step, ht, hlocked, Txn.stepAlone]

theorem othersFree_set {sys : System} {t : Nat} (hfree : sys.OthersFree t) (tx : Txn)
    (committed : Store) : (⟨committed, sys.txns.set t tx⟩ : System).OthersFree t :=
  fun t' tx' hne h => hfree t' tx' hne (by rwa [List.getElem?_set_ne (Ne.symm hne)] at h)

/-- **A request whose fellow requests hold no lock runs as it runs alone**: scheduling it alone
takes it wherever its steps alone take it. -/
theorem run_of_aloneReaches {p q : Txn × Store} (h : Txn.AloneReaches p q) {sys : System}
    {t : Nat} (hc : sys.committed = p.2) (ht : sys.txns[t]? = some p.1)
    (hfree : sys.OthersFree t) :
    ∃ n, sys.run (List.replicate n t) = ⟨q.2, sys.txns.set t q.1⟩ := by
  have hlt := (List.getElem?_eq_some_iff.mp ht).1
  induction h with
  | refl =>
      refine ⟨0, ?_⟩
      rw [set_eq_self_of_getElem? ht, ← hc]
      rfl
  | @tail r _ _ hstep ih =>
      obtain ⟨n, hn⟩ := ih
      refine ⟨n + 1, ?_⟩
      have ht' : (⟨r.2, sys.txns.set t r.1⟩ : System).txns[t]? = some r.1 :=
        List.getElem?_set_self hlt
      rw [List.replicate_succ', run_append, hn, run_cons,
        step_of_othersFree ht' (othersFree_set hfree _ _), hstep, List.set_set]
      rfl

/-- **A request that runs alone does what its view does**: started on its own, it commits the
store the view of the sequential model leaves, and finishes with the view's outcome. -/
theorem run_alone (s : Store) (userProfile : UserProfile) (request : SubgroupRequest) :
    ∃ n, (init s [(userProfile, request)]).run (List.replicate n 0) =
      ⟨(request.view s userProfile).1,
        [(Txn.start userProfile request).finish (request.view s userProfile).2]⟩ :=
  run_of_aloneReaches (Txn.aloneReaches_view s userProfile request) rfl rfl
    fun t' _ hne h => by simp [init, List.getElem?_cons, hne] at h

end System

/-! ## Requests one after the other -/

/-- The request as a request of the sequential model. -/
def SubgroupRequest.toRequest : SubgroupRequest → Request
  | .updateSubgroupsOfUserGroup userGroupId delete add =>
      .updateSubgroupsOfUserGroup userGroupId delete add
  | .deleteUserGroup userGroupId => .deleteUserGroup userGroupId

theorem SubgroupRequest.handle_toRequest (permissionConfig : GroupPermissionSetting) (s : Store)
    (userProfile : UserProfile) (request : SubgroupRequest) :
    handle permissionConfig s userProfile request.toRequest = request.view s userProfile := by
  cases request <;> rfl

/-- The requests one after the other in the sequential model: the store the last view leaves,
and each view's outcome. -/
def serialViews : Store → List (UserProfile × SubgroupRequest) → Store × List (Except String Unit)
  | s, [] => (s, [])
  | s, (userProfile, request) :: rest =>
      ((serialViews (request.view s userProfile).1 rest).1,
        (request.view s userProfile).2 :: (serialViews (request.view s userProfile).1 rest).2)

/-- The store the views leave is the one `runRequests` reaches. -/
theorem serialViews_fst (permissionConfig : GroupPermissionSetting) :
    ∀ (s : Store) (requests : List (UserProfile × SubgroupRequest)),
      (serialViews s requests).1 =
        runRequests permissionConfig s (requests.map fun r => (r.1, r.2.toRequest))
  | _, [] => rfl
  | s, (userProfile, request) :: rest => by
      simp only [serialViews, List.map_cons, runRequests, SubgroupRequest.handle_toRequest]
      exact serialViews_fst permissionConfig _ rest

/-- **A serial schedule**: request `start` takes the first number of steps, request `start + 1`
the next, and so on. -/
def serialSchedule (start : Nat) : List Nat → List Nat
  | [] => []
  | n :: ns => List.replicate n start ++ serialSchedule (start + 1) ns

namespace System

/-- A finished request does not move. -/
theorem run_replicate_of_done {sys : System} {t : Nat} {tx : Txn} {outcome : Except String Unit}
    (ht : sys.txns[t]? = some tx) (hdone : tx.phase = .done outcome) :
    ∀ k, sys.run (List.replicate k t) = sys
  | 0 => rfl
  | k + 1 => by
      have hstep : sys.step t = sys := by
        simp [step, ht, Txn.step, hdone, set_eq_self_of_getElem? ht]
      rw [List.replicate_succ, run_cons, hstep, run_replicate_of_done ht hdone k]

/-- **Finished requests, then requests not started, run one after the other**: each request
needs some number of steps alone, and a serial schedule that gives each at least that many
commits what the views commit, with the views' outcomes. -/
theorem run_serial_from (done : List Txn) (hdone : ∀ tx ∈ done, tx.held = []) (s : Store)
    (rest : List (UserProfile × SubgroupRequest)) :
    ∃ steps : List Nat, steps.length = rest.length ∧ ∀ ns, List.Forall₂ (· ≤ ·) steps ns →
      ((⟨s, done ++ rest.map fun r => Txn.start r.1 r.2⟩ : System).run
          (serialSchedule done.length ns)).committed = (serialViews s rest).1 ∧
        ((⟨s, done ++ rest.map fun r => Txn.start r.1 r.2⟩ : System).run
          (serialSchedule done.length ns)).outcomes =
          (⟨s, done⟩ : System).outcomes ++ (serialViews s rest).2.map some := by
  induction rest generalizing done s with
  | nil =>
      refine ⟨[], rfl, fun ns hns => ?_⟩
      cases List.forall₂_nil_left_iff.mp hns
      simp [run, outcomes, serialViews, serialSchedule]
  | cons r rest ih =>
      obtain ⟨userProfile, request⟩ := r
      set finished := (Txn.start userProfile request).finish (request.view s userProfile).2
      set started := rest.map fun r => Txn.start r.1 r.2
      -- every request holds nothing: the finished ones and the ones not started
      have hfree : (⟨s, done ++ Txn.start userProfile request :: started⟩ : System).OthersFree
          done.length := fun _ tx' _ h => by
        rcases List.mem_append.mp (List.getElem?_mem h) with h | h
        · exact hdone tx' h
        · simp only [started, List.mem_cons, List.mem_map] at h
          rcases h with rfl | ⟨_, -, rfl⟩ <;> rfl
      have hstart : (done ++ Txn.start userProfile request :: started)[done.length]? =
          some (Txn.start userProfile request) := by
        rw [List.getElem?_append_right (le_refl _), Nat.sub_self, List.getElem?_cons_zero]
      obtain ⟨n, hn⟩ := run_of_aloneReaches (Txn.aloneReaches_view s userProfile request) rfl
        hstart hfree
      have hset : (done ++ Txn.start userProfile request :: started).set done.length finished =
          (done ++ [finished]) ++ started := by
        simp [List.set_append_right]
      rw [hset] at hn
      -- once finished, the request does not move
      have hextra : ∀ k, (⟨(request.view s userProfile).1, (done ++ [finished]) ++ started⟩ :
          System).run (List.replicate k done.length) =
            ⟨(request.view s userProfile).1, (done ++ [finished]) ++ started⟩ :=
        @run_replicate_of_done _ _ finished _
          (by rw [List.append_assoc, List.getElem?_append_right (le_refl _), Nat.sub_self,
            List.singleton_append, List.getElem?_cons_zero]) rfl
      have hdone' : ∀ tx ∈ done ++ [finished], tx.held = [] := fun tx h =>
        (List.mem_append.mp h).elim (hdone tx) fun h => by rw [List.mem_singleton.mp h]; rfl
      obtain ⟨steps, hlen, hsteps⟩ := ih (done ++ [finished]) hdone' (request.view s userProfile).1
      refine ⟨n :: steps, by simp [hlen], fun ns hns => ?_⟩
      obtain ⟨m, ns', hnm, hns', rfl⟩ := List.forall₂_cons_left_iff.mp hns
      obtain ⟨k, rfl⟩ := Nat.exists_eq_add_of_le hnm
      obtain ⟨hc, ho⟩ := hsteps ns' hns'
      rw [List.length_append, List.length_singleton] at hc ho
      -- the request's own steps finish it, and its extra steps change nothing
      rw [serialSchedule, List.replicate_add, run_append, run_append, List.map_cons, hn, hextra]
      refine ⟨hc, ?_⟩
      rw [ho]
      simp [outcomes, serialViews, finished, Txn.finish]

/-- **Requests run one after another commit what the sequential model commits.**  Each request
needs some number of steps to run alone to its end.  Every serial schedule that runs request `0`
alone, then request `1` alone, and so on, giving each at least that many steps, commits the
store `runRequests` reaches on the same requests, and each request ends with the outcome of its
view on the store the requests before it left.  From a valid store, the committed store is valid
again. -/
theorem run_serial (permissionConfig : GroupPermissionSetting) (s : Store)
    (requests : List (UserProfile × SubgroupRequest)) :
    ∃ steps : List Nat, steps.length = requests.length ∧
      ∀ ns : List Nat, List.Forall₂ (· ≤ ·) steps ns →
        ((init s requests).run (serialSchedule 0 ns)).committed =
            runRequests permissionConfig s (requests.map fun r => (r.1, r.2.toRequest)) ∧
          ((init s requests).run (serialSchedule 0 ns)).outcomes =
            (serialViews s requests).2.map some ∧
          (s.Valid → ((init s requests).run (serialSchedule 0 ns)).committed.Valid) := by
  obtain ⟨steps, hlen, hsteps⟩ :=
    run_serial_from [] (fun _ h => absurd h (List.not_mem_nil _)) s requests
  refine ⟨steps, hlen, fun ns hns => ?_⟩
  obtain ⟨hc, ho⟩ := hsteps ns hns
  rw [serialViews_fst permissionConfig] at hc
  exact ⟨hc, ho, fun hv => hc ▸ valid_runRequests permissionConfig _ hv⟩

end System

end Zerver.UserGroups.Concurrent

import Zerver.UserGroups.Concurrent.Rows

/-!
# The subgroup relation stays acyclic under concurrent requests

`add_subgroups_to_group_backend` refuses an add whose supergroup is among the candidates'
recursive subgroups.  The lock helper reads those recursive subgroups again once it holds its
locks, and gives up with a retryable error when they reach a group it has not locked
(`Txn.step`).  This module shows that the check is then enough under concurrency: under every
schedule of any requests, the committed subgroup relation stays acyclic.

## Main Definitions

* `Write.addedRows`, `Txn.addedRows` — the subgroup rows a request has added and not committed.
* `System.rows` — the committed rows and the rows every request in progress has added.
* `Txn.Pending` — what one request in progress keeps: an add is its first write, and the rows it
  has added leave groups it has locked and that the committed store holds.
* `System.CycleFree` — the invariant of every run: no lock is held twice, every request keeps
  `Txn.Pending`, and `System.rows` is acyclic.
* `System.succeededRows` — the rows asked for by the requests that have committed.
* `Txn.AddsOnly`, `System.AddsOnly` — the invariant of a run of requests that only add: the
  committed rows only grow, and a request that has committed has its rows committed.

## Main Results

* `System.CycleFree.acyclic_add` — an add that passes the cycle check under its locks keeps
  `System.rows` acyclic.
* `System.CycleFree.step`, `System.CycleFree.run` — every step keeps the invariant.
* `groupMemberships_acyclic_run` — no schedule makes the committed subgroup relation cyclic, and
  adds whose rows would close a cycle never all succeed.

## Design Notes

The invariant is over the committed rows together with the rows the requests have added and not
yet committed, since a commit turns the second into the first.  An add is the first call of its
request, so its `with` block reads the committed store, and it holds the locks of the
candidates' recursive subgroups in that store.  A path from a candidate through committed and
pending rows never leaves those groups: a pending row out of one of them would be another
request's, and that request would hold its lock (`System.CycleFree.reaches_committed`).  So the
path reaches the supergroup only if the supergroup is a recursive subgroup, which the check
refuses.
-/

namespace Zerver.UserGroups.Concurrent

/-! ## Rows added and not committed -/

/-- The call is an add. -/
def Call.isAdd : Call → Bool
  | .addSubgroups .. => true
  | _ => false

/-- An add is only ever the first call of a request. -/
theorem SubgroupRequest.isAdd_tail (request : SubgroupRequest) :
    ∀ call ∈ request.calls.tail, call.isAdd = false := by
  cases request <;> simp [SubgroupRequest.calls, Call.isAdd]

/-- The subgroup rows a write adds. -/
def Write.addedRows : Write → List (Int × Int)
  | .addSubgroups userGroup subgroups _ => subgroups.map fun g => (userGroup.id, g.id)
  | _ => []

namespace Write

variable {s : Store}

/-- A write adds to the subgroup rows only the rows it names. -/
theorem mem_apply {w : Write} {e : Int × Int} (he : e ∈ (w.apply s).groupMemberships) :
    e ∈ s.groupMemberships ∨ e ∈ w.addedRows := by
  cases w with
  | addSubgroups => simpa [apply, addSubgroupsToUserGroup, addedRows] using he
  | removeSubgroups | deleteGroup => exact .inl (List.mem_filter.mp he).1

theorem mem_foldl : ∀ (writes : List Write) {s : Store} {e : Int × Int},
    e ∈ (writes.foldl apply s).groupMemberships →
      e ∈ s.groupMemberships ∨ e ∈ writes.flatMap addedRows
  | [], _, _, he => .inl he
  | w :: writes, _, _, he => by
      rw [List.flatMap_cons, List.mem_append]
      rcases mem_foldl writes he with he | he
      · exact (mem_apply he).imp_right .inl
      · exact .inr (.inr he)

/-- A write keeps every group it does not delete. -/
theorem mem_groups_apply {w : Write} {g : UserGroup} (hg : g ∈ s.groups)
    (hkeep : ∀ g' u, w = .deleteGroup g' u → g'.id ≠ g.id) : g ∈ (w.apply s).groups := by
  cases w with
  | addSubgroups | removeSubgroups => exact hg
  | deleteGroup g' u => exact List.mem_filter.mpr ⟨hg, by simpa using (hkeep g' u rfl).symm⟩

theorem mem_groups_foldl {g : UserGroup} : ∀ (writes : List Write) {s : Store}, g ∈ s.groups →
    (∀ g' u, Write.deleteGroup g' u ∈ writes → g'.id ≠ g.id) → g ∈ (writes.foldl apply s).groups
  | [], _, hg, _ => hg
  | _ :: writes, _, hg, hkeep =>
      mem_groups_foldl writes (mem_groups_apply hg fun g' u hw => hkeep g' u (hw ▸ .head _))
        fun g' u hw => hkeep g' u (.tail _ hw)

end Write

/-- The subgroup rows a request has added and not yet committed. -/
def Txn.addedRows (tx : Txn) : List (Int × Int) :=
  tx.writes.flatMap Write.addedRows

/-- The calls a request has still to make, the current one first. -/
def Txn.pendingCalls (tx : Txn) : List Call :=
  match tx.phase with
  | .ready => tx.request.calls
  | .running calls => calls
  | .locking call calls _ _ => call :: calls
  | .done _ => []

/-- The committed subgroup rows, and the rows every request in progress has added. -/
def System.rows (sys : System) : List (Int × Int) :=
  sys.committed.groupMemberships ++ sys.txns.flatMap Txn.addedRows

/-- The `with` block of an add checks that the supergroup is not among the context's recursive
subgroups. -/
theorem not_mem_recursiveSubgroups_of_withBlock {s s' : Store} {userProfile : UserProfile}
    {userGroupId : Int} {context : LockedUserGroupContext}
    (h : addSubgroupsToGroupBackend.withBlock s userProfile userGroupId context = .ok s') :
    userGroupId ∉ context.recursiveSubgroups.map UserGroup.id := by
  unfold addSubgroupsToGroupBackend.withBlock at h
  dsimp only at h
  split at h
  · cases h
  split at h
  · cases h
  · assumption

/-! ## What one request keeps -/

namespace Txn

/-- **What a request in progress keeps**, over the committed store. -/
structure Pending (committed : Store) (tx : Txn) : Prop where
  /-- Only the first of the calls it has left can be an add. -/
  laterAdds : ∀ call ∈ tx.pendingCalls.tail, call.isAdd = false
  /-- While it has an add to make, it has written nothing. -/
  fresh : (∃ call ∈ tx.pendingCalls, call.isAdd = true) → tx.writes = []
  /-- The rows it has added leave groups it has locked, which the committed store holds. -/
  addedFrom : ∀ e ∈ tx.addedRows, e.1 ∈ tx.held ∧ ∃ g ∈ committed.groups, g.id = e.1
  /-- It deletes only groups it has locked. -/
  deletes : ∀ g u, Write.deleteGroup g u ∈ tx.writes → g.id ∈ tx.held

variable {c : Store} {tx : Txn}

theorem pending_finish (tx : Txn) (outcome : Except String Unit) (c : Store) :
    (tx.finish outcome).Pending c :=
  ⟨nofun, fun _ => rfl, nofun, nofun⟩

/-- A step that moves a request on without writing keeps what it keeps, when the calls it has
left are among those it had. -/
theorem Pending.of_calls (h : tx.Pending c) {tx' : Txn} (hwrites : tx'.writes = tx.writes)
    (hheld : ∀ x ∈ tx.held, x ∈ tx'.held)
    (htail : ∀ call ∈ tx'.pendingCalls.tail, call ∈ tx.pendingCalls.tail)
    (hcalls : ∀ call ∈ tx'.pendingCalls, call ∈ tx.pendingCalls) : tx'.Pending c where
  laterAdds := fun call hcall => h.laterAdds call (htail call hcall)
  fresh := fun ⟨call, hcall, hadd⟩ => hwrites.trans (h.fresh ⟨call, hcalls call hcall, hadd⟩)
  addedFrom := fun e he => by
    rw [addedRows, hwrites] at he
    exact (h.addedFrom e he).imp_left (hheld _)
  deletes := fun g u hg => hheld _ (h.deletes g u (hwrites ▸ hg))

/-- **A step keeps what a request keeps**, over the committed store the step leaves. -/
theorem Pending.move (h : tx.Pending c) {lockedByOther : Int → Bool} {q : Txn × Store}
    (hm : tx.Moves c lockedByOther q) : q.1.Pending q.2 := by
  cases hm with
  | done | wait => exact h
  | abort | commit => exact pending_finish _ _ _
  | start hp =>
      exact h.of_calls rfl (fun _ => id) (by simp [pendingCalls, hp]) (by simp [pendingCalls, hp])
  | skip hp =>
      exact h.of_calls rfl (fun _ => id) (fun _ hc => by
          simpa [pendingCalls, hp] using List.mem_of_mem_tail hc)
        (fun _ hc => by simp only [pendingCalls, hp]; exact .tail _ hc)
  | enter hp =>
      exact h.of_calls rfl (fun _ => id) (by simp [pendingCalls, hp]) (by simp [pendingCalls, hp])
  | lock hp =>
      exact h.of_calls rfl (fun _ => List.mem_insert_of_mem) (by simp [pendingCalls, hp])
        (by simp [pendingCalls, hp])
  | @write call calls _ context _ hp hlock hheld _ =>
      have hlater : ∀ c ∈ calls, c.isAdd = false := by simpa [pendingCalls, hp] using h.laterAdds
      obtain ⟨hsup, -, -, -⟩ := lockSubgroupsWithRespectToSupergroup_eq_ok.mp hlock
      have hsupHeld := hheld _ (mem_lockOrder_supergroup context)
      refine ⟨fun c hc => hlater c (List.mem_of_mem_tail hc), fun ⟨c, hc, hadd⟩ => ?_,
        fun e he => ?_, fun g u hg => ?_⟩
      · simp [hlater c hc] at hadd
      · simp only [addedRows, List.flatMap_append, List.mem_append] at he
        rcases he with he | he
        · exact h.addedFrom e he
        · cases call <;> simp only [Call.write, Write.addedRows, List.flatMap_cons,
            List.flatMap_nil, List.append_nil, List.not_mem_nil] at he
          obtain ⟨g, -, rfl⟩ := List.mem_map.mp he
          obtain ⟨hmem, -, -, -⟩ := accessUserGroupById_eq_ok hsup
          exact ⟨hsupHeld, _, (Write.groups_foldl_sublist _ _).subset hmem, rfl⟩
      · rcases List.mem_append.mp hg with hg | hg
        · exact h.deletes g u hg
        · cases call <;> simp only [Call.write, List.mem_singleton, reduceCtorEq] at hg
          cases hg
          exact hsupHeld

/-- **Another request's commit keeps what a request keeps**: the committer deletes only groups it
has locked, so the groups the request has added rows out of survive. -/
theorem Pending.commit (h : tx.Pending c) {tx' : Txn} (h' : tx'.Pending c)
    (hdisj : ∀ x ∈ tx'.held, x ∉ tx.held) : tx'.Pending (tx.view c) where
  laterAdds := h'.laterAdds
  fresh := h'.fresh
  addedFrom := fun e he => by
    obtain ⟨hheld, g, hg, hid⟩ := h'.addedFrom e he
    refine ⟨hheld, g, Write.mem_groups_foldl _ hg fun g' u hdel hsame => ?_, hid⟩
    exact hdisj _ hheld (hid ▸ hsame ▸ h.deletes g' u hdel)
  deletes := h'.deletes

/-- A step adds to the committed rows only rows the request had added. -/
theorem Moves.committed_rows {lockedByOther : Int → Bool} {q : Txn × Store}
    (hm : tx.Moves c lockedByOther q) :
    ∀ e ∈ q.2.groupMemberships, e ∈ c.groupMemberships ∨ e ∈ tx.addedRows := by
  rcases hm.committed_eq with hq | hq <;> rw [hq]
  · exact fun e he => .inl he
  · exact fun e he => Write.mem_foldl _ he

end Txn

/-! ## Runs -/

namespace System

/-- **The invariant of every run.** -/
structure CycleFree (sys : System) : Prop where
  locks : sys.LocksDisjoint
  txns : ∀ (t : Nat) (tx : Txn), sys.txns[t]? = some tx → tx.Pending sys.committed
  acyclic : Acyclic sys.rows

variable {sys : System} {t : Nat} {tx : Txn}

theorem mem_rows_of_mem_addedRows (ht : sys.txns[t]? = some tx) {e : Int × Int}
    (he : e ∈ tx.addedRows) : e ∈ sys.rows :=
  List.mem_append_right _ (List.mem_flatMap.mpr ⟨tx, List.getElem?_mem ht, he⟩)

/-- **A path out of what an add has locked stays in the committed rows**: a pending row out of a
group on it would be another request's, which would hold the group's lock. -/
theorem CycleFree.reaches_committed (h : sys.CycleFree) (ht : sys.txns[t]? = some tx)
    (hwrites : tx.writes = []) {anchors : List Int}
    (hlocked : ∀ g ∈ recursiveSubgroupsOf sys.committed anchors, g.id ∈ tx.held) {a x : Int}
    (ha : a ∈ anchors) (hreach : Reaches sys.rows a x) :
    Reaches sys.committed.groupMemberships a x := by
  induction hreach with
  | refl => exact .refl
  | @tail y z _ hedge ih =>
      rcases List.mem_append.mp hedge with hedge | hedge
      · exact ih.tail hedge
      obtain ⟨tx', htx', he⟩ := List.mem_flatMap.mp hedge
      obtain ⟨u, hu⟩ := List.mem_iff_getElem?.mp htx'
      obtain ⟨hheld', g, hg, hgy⟩ := (h.txns u tx' hu).addedFrom _ he
      have hgy : g.id = y := hgy
      have hne : t ≠ u := by
        rintro rfl
        obtain rfl : tx = tx' := Option.some.inj (ht.symm.trans hu)
        simp [Txn.addedRows, hwrites] at he
      have hmine : g.id ∈ tx.held :=
        hlocked g (mem_recursiveSubgroupsOf.mpr ⟨hg, a, ha, hgy ▸ ih⟩)
      exact absurd (hgy ▸ hheld') (h.locks t u tx tx' hne ht hu g.id hmine)

/-- **The cycle check under the locks keeps the rows acyclic.**  A request that has written
nothing reads the committed store; when it holds every row its context names and the supergroup
is not among the candidates' recursive subgroups, the rows it adds close no cycle with the
committed and pending rows. -/
theorem CycleFree.acyclic_add (h : sys.CycleFree) (ht : sys.txns[t]? = some tx)
    (hwrites : tx.writes = []) {potentialSubgroupIds : List Int} {potentialSupergroupId : Int}
    {userProfile : UserProfile} {context : LockedUserGroupContext}
    (hlock : lockSubgroupsWithRespectToSupergroup sys.committed potentialSubgroupIds
      potentialSupergroupId userProfile = .ok context)
    (hheld : ∀ x ∈ lockOrder context, x ∈ tx.held)
    (hcheck : potentialSupergroupId ∉ context.recursiveSubgroups.map UserGroup.id) :
    Acyclic (sys.rows ++ context.directSubgroups.map fun g => (context.supergroup.id, g.id)) := by
  obtain ⟨hsup, -, hrec, -⟩ := lockSubgroupsWithRespectToSupergroup_eq_ok.mp hlock
  obtain ⟨hmem, hid, -, -⟩ := accessUserGroupById_eq_ok hsup
  have hlocked : ∀ g ∈ recursiveSubgroupsOf sys.committed
      (context.directSubgroups.map UserGroup.id), g.id ∈ tx.held :=
    fun g hg => hheld _ (mem_lockOrder_of_mem_recursiveSubgroups (hrec ▸ hg))
  have hrows : (context.directSubgroups.map fun g => (context.supergroup.id, g.id)) =
      (context.directSubgroups.map UserGroup.id).map (context.supergroup.id, ·) := by
    simp [Function.comp_def]
  rw [hrows]
  refine h.acyclic.append_from fun a ha hreach => hcheck ?_
  -- the supergroup would be a recursive subgroup of the candidate `a`
  have hback := h.reaches_committed ht hwrites hlocked ha hreach
  rw [← hid, hrec]
  exact List.mem_map_of_mem _ (mem_recursiveSubgroupsOf.mpr ⟨hmem, a, ha, hback⟩)

/-- **Every step keeps the committed and pending rows acyclic**, with the rows the stepped
request has added after the step. -/
theorem CycleFree.acyclic_move (h : sys.CycleFree) (ht : sys.txns[t]? = some tx)
    {q : Txn × Store} (hm : tx.Moves sys.committed (sys.lockedByOther t) q) :
    Acyclic (sys.rows ++ q.1.addedRows) := by
  cases hm with
  | abort | commit => simpa [Txn.addedRows, Txn.finish] using h.acyclic
  | @write call calls _ context _ hp hlock hheld hblock =>
      cases call with
      | addSubgroups userGroupId subgroupIds =>
          -- an add is the request's first write, so it read the committed store
          have hwrites : tx.writes = [] :=
            (h.txns t tx ht).fresh
              ⟨.addSubgroups userGroupId subgroupIds, by simp [Txn.pendingCalls, hp], rfl⟩
          have hview : tx.view sys.committed = sys.committed := by simp [Txn.view, hwrites]
          rw [hview] at hlock hblock
          simpa [Txn.addedRows, hwrites, Call.write, Write.addedRows] using
            h.acyclic_add ht hwrites hlock hheld (not_mem_recursiveSubgroups_of_withBlock hblock)
      | removeSubgroups | deleteUserGroup =>
          exact h.acyclic.mono fun e he => (List.mem_append.mp he).elim id fun he =>
            mem_rows_of_mem_addedRows ht (by simpa [Txn.addedRows, Call.write, Write.addedRows]
              using he)
  | _ => exact h.acyclic.mono fun e he => (List.mem_append.mp he).elim id (mem_rows_of_mem_addedRows ht)

theorem CycleFree.step (h : sys.CycleFree) (t : Nat) : (sys.step t).CycleFree := by
  unfold System.step
  split
  · exact h
  rename_i tx ht
  have hm := tx.moves_step sys.committed (sys.lockedByOther t)
  have hlt := (List.getElem?_eq_some_iff.mp ht).1
  have hlocks := h.locks.step t
  simp only [System.step, ht] at hlocks
  refine ⟨hlocks, fun u tx' hu => ?_, (h.acyclic_move ht hm).mono fun e he => ?_⟩
  · simp only [List.getElem?_set] at hu
    split at hu
    · simp only [hlt, if_true, Option.some.injEq] at hu
      subst hu
      exact (h.txns t tx ht).move hm
    · rename_i htu
      rcases hm.committed_eq with hc | hc <;> rw [hc]
      · exact h.txns u tx' hu
      · exact (h.txns t tx ht).commit (h.txns u tx' hu)
          fun x hx hx' => h.locks t u tx tx' htu ht hu x hx' hx
  · -- the new committed rows were committed or pending; the requests' rows are as before, but
    -- for the stepped request's
    rcases List.mem_append.mp he with he | he
    · rcases hm.committed_rows e he with he | he
      · exact List.mem_append_left _ (List.mem_append_left _ he)
      · exact List.mem_append_left _ (mem_rows_of_mem_addedRows ht he)
    · obtain ⟨tx', htx', he⟩ := List.mem_flatMap.mp he
      rcases List.mem_or_eq_of_mem_set htx' with htx' | rfl
      · exact List.mem_append_left _
          (List.mem_append_right _ (List.mem_flatMap.mpr ⟨tx', htx', he⟩))
      · exact List.mem_append_right _ he

theorem CycleFree.run {sys : System} (h : sys.CycleFree) :
    ∀ schedule, (sys.run schedule).CycleFree
  | [] => h
  | t :: schedule => by rw [run_cons]; exact (h.step t).run schedule

/-- Requests that have not started hold no lock and have written nothing. -/
theorem cycleFree_init {s : Store} (hs : Acyclic s.groupMemberships)
    (requests : List (UserProfile × SubgroupRequest)) : (init s requests).CycleFree := by
  refine ⟨locksDisjoint_init s requests, fun t tx ht => ?_, ?_⟩
  · obtain ⟨r, -, rfl⟩ := List.mem_map.mp (List.getElem?_mem ht)
    exact ⟨r.2.isAdd_tail, fun _ => rfl, by simp [Txn.addedRows, Txn.start], nofun⟩
  · refine hs.mono fun e he => (List.mem_append.mp he).resolve_right fun he => ?_
    obtain ⟨tx, htx, he⟩ := List.mem_flatMap.mp he
    obtain ⟨r, -, rfl⟩ := List.mem_map.mp htx
    simp [Txn.addedRows, Txn.start] at he

end System

/-! ## Runs of adds -/

/-- The request only adds subgroups. -/
def SubgroupRequest.addsOnly : SubgroupRequest → Bool
  | .updateSubgroupsOfUserGroup _ delete _ => delete.isEmpty
  | .deleteUserGroup _ => false

/-- The rows a call asks to add. -/
def Call.requestedRows : Call → List (Int × Int)
  | .addSubgroups userGroupId subgroupIds => subgroupIds.map (userGroupId, ·)
  | _ => []

/-- The rows a request asks to add. -/
def SubgroupRequest.requestedRows (request : SubgroupRequest) : List (Int × Int) :=
  request.calls.flatMap Call.requestedRows

/-- The write is an add. -/
def Write.isAdd : Write → Bool
  | .addSubgroups .. => true
  | _ => false

/-- The request has committed. -/
def Txn.succeeded (tx : Txn) : Bool :=
  match tx.phase with
  | .done (.ok ()) => true
  | _ => false

/-- The rows asked for by the requests that have committed. -/
def System.succeededRows (sys : System) : List (Int × Int) :=
  sys.txns.flatMap fun tx => if tx.succeeded then tx.request.requestedRows else []

/-- Adds append their rows. -/
theorem Write.groupMemberships_foldl_of_isAdd : ∀ (writes : List Write) (s : Store),
    (∀ w ∈ writes, w.isAdd = true) →
      (writes.foldl apply s).groupMemberships = s.groupMemberships ++ writes.flatMap addedRows
  | [], _, _ => by simp
  | w :: writes, s, h => by
      have hw : (w.apply s).groupMemberships = s.groupMemberships ++ w.addedRows := by
        cases w with
        | addSubgroups => rfl
        | removeSubgroups | deleteGroup => simp [isAdd] at h
      rw [List.foldl_cons, groupMemberships_foldl_of_isAdd writes _ fun w hw => h w (.tail _ hw),
        hw, List.flatMap_cons, List.append_assoc]

/-- A call with no candidate asks for no row. -/
theorem Call.requestedRows_of_isEmpty {call : Call} (h : call.potentialSubgroupIds.isEmpty = true) :
    call.requestedRows = [] := by
  cases call <;> simp_all [Call.requestedRows, Call.potentialSubgroupIds]

namespace Txn

/-- **What a request that only adds keeps**, over the committed store. -/
structure AddsOnly (committed : Store) (tx : Txn) : Prop where
  /-- Its calls left that are not adds have no candidate. -/
  noCandidate : ∀ call ∈ tx.pendingCalls, call.isAdd = false → call.potentialSubgroupIds = []
  /-- In the lock helper it is making an add. -/
  locking : ∀ call calls context toLock, tx.phase = .locking call calls context toLock →
    call.isAdd = true
  /-- It has written only adds. -/
  writes : ∀ w ∈ tx.writes, w.isAdd = true
  /-- Until it finishes, each row it asked for it has added, or a call left asks for it. -/
  requested : (∀ outcome, tx.phase ≠ .done outcome) → ∀ e ∈ tx.request.requestedRows,
    e ∈ tx.addedRows ∨ ∃ call ∈ tx.pendingCalls, e ∈ call.requestedRows
  /-- Once it has committed, the committed store holds each row it asked for. -/
  succeeded : tx.succeeded = true → ∀ e ∈ tx.request.requestedRows, e ∈ committed.groupMemberships

variable {c : Store} {tx : Txn}

theorem succeeded_eq_false (h : ∀ outcome, tx.phase ≠ .done outcome) : tx.succeeded = false := by
  unfold succeeded
  split
  · exact absurd ‹_› (h _)
  · rfl

/-- What a request that only adds reads is the committed rows and the rows it added. -/
theorem AddsOnly.view_groupMemberships (h : tx.AddsOnly c) :
    (tx.view c).groupMemberships = c.groupMemberships ++ tx.addedRows :=
  Write.groupMemberships_foldl_of_isAdd _ _ h.writes

/-- More committed rows keep what a request that only adds keeps. -/
theorem AddsOnly.mono (h : tx.AddsOnly c) {c' : Store}
    (hsub : ∀ e ∈ c.groupMemberships, e ∈ c'.groupMemberships) : tx.AddsOnly c' :=
  ⟨h.noCandidate, h.locking, h.writes, h.requested, fun hs e he => hsub e (h.succeeded hs e he)⟩

/-- A step that moves a request that only adds on without writing keeps what it keeps, when the
calls it has left are among those it had and the rows they ask for are those they asked for. -/
theorem AddsOnly.of_calls (h : tx.AddsOnly c) {tx' : Txn} (hrequest : tx'.request = tx.request)
    (hwrites : tx'.writes = tx.writes) (hphase : ∀ outcome, tx'.phase ≠ .done outcome)
    (hcalls : ∀ call ∈ tx'.pendingCalls, call ∈ tx.pendingCalls)
    (hrows : ∀ call ∈ tx.pendingCalls, ∀ e ∈ call.requestedRows,
      ∃ call' ∈ tx'.pendingCalls, e ∈ call'.requestedRows)
    (hlocking : ∀ call calls context toLock, tx'.phase = .locking call calls context toLock →
      call.isAdd = true)
    (hnotDone : ∀ outcome, tx.phase ≠ .done outcome) : tx'.AddsOnly c where
  noCandidate := fun call hcall => h.noCandidate call (hcalls call hcall)
  locking := hlocking
  writes := hwrites ▸ h.writes
  requested := fun _ e he => by
    rw [hrequest] at he
    rcases h.requested hnotDone e he with he | ⟨call, hcall, he⟩
    · exact .inl (by rwa [addedRows, hwrites])
    · exact .inr (hrows call hcall e he)
  succeeded := fun hs => absurd hs (by rw [succeeded_eq_false hphase]; decide)

/-- A finished request keeps what a request that only adds keeps, over a store that holds the rows
it asked for if it committed. -/
theorem AddsOnly.finish {c' : Store} (outcome : Except String Unit)
    (hs : outcome = .ok () → ∀ e ∈ tx.request.requestedRows, e ∈ c'.groupMemberships) :
    (tx.finish outcome).AddsOnly c' :=
  ⟨nofun, nofun, fun _ hw => absurd hw (List.not_mem_nil _), fun hnot => absurd rfl (hnot _),
    fun h => hs (by cases outcome <;> first | rfl | cases h)⟩

/-- **A step keeps what a request that only adds keeps**, over the committed store it leaves. -/
theorem AddsOnly.move (h : tx.AddsOnly c) {lockedByOther : Int → Bool} {q : Txn × Store}
    (hm : tx.Moves c lockedByOther q) : q.1.AddsOnly q.2 := by
  cases hm with
  | done | wait => exact h
  | abort => exact AddsOnly.finish _ nofun
  | commit hp =>
      refine AddsOnly.finish _ fun _ e he => ?_
      rcases h.requested (by simp [hp]) e he with he | ⟨call, hcall, -⟩
      · rw [h.view_groupMemberships]
        exact List.mem_append_right _ he
      · simp [pendingCalls, hp] at hcall
  | start hp =>
      exact h.of_calls rfl rfl (fun _ => nofun) (by simp [pendingCalls, hp])
        (fun call hc e he => ⟨call, by simpa [pendingCalls, hp] using hc, he⟩) (fun _ _ _ _ => nofun)
        (by simp [hp])
  | skip hp hempty =>
      refine h.of_calls rfl rfl (fun _ => nofun)
        (fun _ hc => by simp only [pendingCalls, hp]; exact .tail _ hc) (fun call hc e he => ?_) (fun _ _ _ _ => nofun) (by simp [hp])
      simp only [pendingCalls, hp, List.mem_cons] at hc
      rcases hc with rfl | hc
      · simp [Call.requestedRows_of_isEmpty hempty] at he
      · exact ⟨call, hc, he⟩
  | @enter call calls _ hp hempty =>
      refine h.of_calls rfl rfl (fun _ => nofun) (by simp [pendingCalls, hp])
        (fun call hc e he => ⟨call, by simpa [pendingCalls, hp] using hc, he⟩)
        (fun _ _ _ _ hp' => ?_) (by simp [hp])
      cases hp'
      by_contra hadd
      have := h.noCandidate call (by simp [pendingCalls, hp]) (by simpa using hadd)
      simp [this] at hempty
  | lock hp =>
      exact h.of_calls rfl rfl (fun _ => nofun) (by simp [pendingCalls, hp])
        (fun call hc e he => ⟨call, by simpa [pendingCalls, hp] using hc, he⟩)
        (fun _ _ _ _ hp' => by cases hp'; exact h.locking _ _ _ _ hp) (by simp [hp])
  | @write call calls _ context _ hp hlock _ _ =>
      have hadd : call.isAdd = true := h.locking _ _ _ _ hp
      cases call with
      | removeSubgroups | deleteUserGroup => simp [Call.isAdd] at hadd
      | addSubgroups userGroupId subgroupIds =>
          obtain ⟨hsup, -, -, hcover⟩ := lockSubgroupsWithRespectToSupergroup_eq_ok.mp hlock
          obtain ⟨-, hid, -, -⟩ := accessUserGroupById_eq_ok hsup
          refine ⟨fun c hc => h.noCandidate c (by simp only [pendingCalls, hp]; exact .tail _ hc),
            fun _ _ _ _ => nofun, fun w hw => ?_, fun _ e he => ?_, fun hs => (Bool.false_ne_true hs).elim⟩
          · rcases List.mem_append.mp hw with hw | hw
            · exact h.writes w hw
            · rw [List.mem_singleton.mp hw]
              rfl
          · simp only [addedRows, List.flatMap_append, List.mem_append]
            rcases h.requested (by simp [hp]) e he with he | ⟨call', hcall', he⟩
            · exact .inl (.inl he)
            simp only [pendingCalls, hp, List.mem_cons] at hcall'
            rcases hcall' with rfl | hcall'
            · -- the add has written the row: its candidates resolved to groups of those ids
              obtain ⟨id, hidMem, rfl⟩ := List.mem_map.mp he
              obtain ⟨g, hg, rfl⟩ := hcover id hidMem
              refine .inl (.inr ?_)
              simp only [Call.write, Write.addedRows, List.flatMap_cons, List.flatMap_nil,
                List.append_nil, List.mem_map]
              exact ⟨g, hg, by rw [hid]; rfl⟩
            · exact .inr ⟨call', hcall', he⟩

end Txn

namespace System

/-- **The invariant of a run of requests that only add**: the committed store keeps the rows it
started with, and every request keeps `Txn.AddsOnly`. -/
structure AddsOnly (s : Store) (sys : System) : Prop where
  initial : ∀ e ∈ s.groupMemberships, e ∈ sys.committed.groupMemberships
  txns : ∀ tx ∈ sys.txns, tx.AddsOnly sys.committed

theorem AddsOnly.step {s : Store} {sys : System} (h : sys.AddsOnly s) (t : Nat) :
    (sys.step t).AddsOnly s := by
  unfold System.step
  split
  · exact h
  rename_i tx ht
  have hm := tx.moves_step sys.committed (sys.lockedByOther t)
  have htx := h.txns tx (List.getElem?_mem ht)
  -- the committed rows only grow
  have hgrow : ∀ e ∈ sys.committed.groupMemberships,
      e ∈ (tx.step sys.committed (sys.lockedByOther t)).2.groupMemberships := by
    rcases hm.committed_eq with hc | hc <;> rw [hc]
    · exact fun _ => id
    · rw [htx.view_groupMemberships]
      exact fun e he => List.mem_append_left _ he
  refine ⟨fun e he => hgrow e (h.initial e he), fun tx' htx' => ?_⟩
  rcases List.mem_or_eq_of_mem_set htx' with htx' | rfl
  · exact (h.txns tx' htx').mono hgrow
  · exact htx.move hm

theorem AddsOnly.run {s : Store} {sys : System} (h : sys.AddsOnly s) :
    ∀ schedule, (sys.run schedule).AddsOnly s
  | [] => h
  | t :: schedule => by rw [run_cons]; exact (h.step t).run schedule

/-- Requests that only add and have not started. -/
theorem addsOnly_init {s : Store} {requests : List (UserProfile × SubgroupRequest)}
    (hadds : ∀ r ∈ requests, r.2.addsOnly = true) : (init s requests).AddsOnly s := by
  refine ⟨fun _ => id, fun tx htx => ?_⟩
  obtain ⟨⟨userProfile, request⟩, hr, rfl⟩ := List.mem_map.mp htx
  have hreq := hadds _ hr
  cases request with
  | updateSubgroupsOfUserGroup userGroupId delete add =>
      obtain rfl : delete = [] := by simpa [SubgroupRequest.addsOnly] using hreq
      refine ⟨fun call hc hadd => ?_, nofun, fun _ hw => absurd hw (List.not_mem_nil _),
        fun _ e he => .inr (List.mem_flatMap.mp he), nofun⟩
      rcases List.mem_pair.mp hc with rfl | rfl
      · cases hadd
      · rfl
  | deleteUserGroup => simp [SubgroupRequest.addsOnly] at hreq

/-- The committed store holds the rows asked for by every request that has committed. -/
theorem AddsOnly.mem_of_mem_succeededRows {s : Store} {sys : System} (h : sys.AddsOnly s)
    {e : Int × Int} (he : e ∈ sys.succeededRows) : e ∈ sys.committed.groupMemberships := by
  obtain ⟨tx, htx, he⟩ := List.mem_flatMap.mp he
  split at he
  · exact (h.txns tx htx).succeeded ‹_› e he
  · simp at he

end System

/-- **No schedule closes a cycle.**  From a store whose subgroup relation is acyclic, every
schedule of the steps of any requests to `update_subgroups_of_user_group` and
`delete_user_group` leaves a committed subgroup relation that is acyclic.  When every request
only adds subgroups, the rows a request asked for stay committed once it succeeds, so the rows of
the store and the rows of the requests that succeeded form no cycle either: two adds whose rows
close a cycle, directly or through rows of the store, never both succeed. -/
theorem groupMemberships_acyclic_run (s : Store) (requests : List (UserProfile × SubgroupRequest))
    (hs : Acyclic s.groupMemberships) (schedule : List Nat) :
    Acyclic ((System.init s requests).run schedule).committed.groupMemberships ∧
      ((∀ r ∈ requests, r.2.addsOnly = true) →
        Acyclic (s.groupMemberships ++ ((System.init s requests).run schedule).succeededRows)) := by
  have hacyclic := ((System.cycleFree_init hs requests).run schedule).acyclic.mono
    fun _ => List.mem_append_left _
  refine ⟨hacyclic, fun hadds => hacyclic.mono fun e he => ?_⟩
  have h := (@System.addsOnly_init s requests hadds).run schedule
  rcases List.mem_append.mp he with he | he
  · exact h.initial e he
  · exact h.mem_of_mem_succeededRows he

/-- Groups `1` and `2` of realm 7, neither a subgroup of the other, and a user of the realm. -/
def twoGroupsStore : Store :=
  ⟨[⟨1, 7, "Ann", false, true⟩], [⟨1, 7, true, "one", "", 1⟩, ⟨2, 7, true, "two", "", 2⟩], [], [],
    3, [], []⟩

/-- Two requests add `2` under `1` and `1` under `2`, and both read their contexts before either
takes a lock.  The first commits `1 → 2`.  The second reads its context again under its locks:
the recursive subgroups of `1` now hold `2`, and its cycle check refuses it. -/
theorem groupMemberships_acyclic_run_race :
    Acyclic twoGroupsStore.groupMemberships ∧
      (∀ r ∈ ([(⟨1, 7, "Ann", false, true⟩, .updateSubgroupsOfUserGroup 1 [] [2]),
          (⟨1, 7, "Ann", false, true⟩, .updateSubgroupsOfUserGroup 2 [] [1])] :
            List (UserProfile × SubgroupRequest)), r.2.addsOnly = true) ∧
      Acyclic (System.run (System.init twoGroupsStore
        [(⟨1, 7, "Ann", false, true⟩, .updateSubgroupsOfUserGroup 1 [] [2]),
         (⟨1, 7, "Ann", false, true⟩, .updateSubgroupsOfUserGroup 2 [] [1])])
        [0, 0, 1, 1, 0, 0, 0, 0, 0, 1, 1, 1, 1, 1]).committed.groupMemberships ∧
      Acyclic (twoGroupsStore.groupMemberships ++ (System.run (System.init twoGroupsStore
        [(⟨1, 7, "Ann", false, true⟩, .updateSubgroupsOfUserGroup 1 [] [2]),
         (⟨1, 7, "Ann", false, true⟩, .updateSubgroupsOfUserGroup 2 [] [1])])
        [0, 0, 1, 1, 0, 0, 0, 0, 0, 1, 1, 1, 1, 1]).succeededRows) ∧
      (System.run (System.init twoGroupsStore
        [(⟨1, 7, "Ann", false, true⟩, .updateSubgroupsOfUserGroup 1 [] [2]),
         (⟨1, 7, "Ann", false, true⟩, .updateSubgroupsOfUserGroup 2 [] [1])])
        [0, 0, 1, 1, 0, 0, 0, 0, 0, 1, 1, 1, 1, 1]).outcomes =
        [some (.ok ()),
          some (.error "User group 2 is already a subgroup of one of the passed subgroups.")] :=
  ⟨acyclic_nil, by decide, (groupMemberships_acyclic_run _ _ acyclic_nil _).1,
    (groupMemberships_acyclic_run _ _ acyclic_nil _).2 (by decide), rfl⟩

end Zerver.UserGroups.Concurrent

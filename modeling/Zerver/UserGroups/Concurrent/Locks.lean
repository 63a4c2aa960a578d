import Mathlib.Data.Finset.Max
import Zerver.UserGroups.Concurrent.Model

/-!
# Row locks: exclusion and deadlock

What the locks of `lock_subgroups_with_respect_to_supergroup` guarantee across every schedule,
and what they do not.

## Main Definitions

* `System.LocksDisjoint` — no group row is locked by two requests.
* `Txn.Ordered`, `System.Ordered` — every request takes its locks in ascending order, and takes
  none after its first lock call.

## Main Results

* `System.locks_disjoint` — under any schedule, no group row is locked by two requests.
* `updateSubgroupsOfUserGroup_deadlock` — an update that adds and deletes, and an add, wait for
  each other forever: the add's locks are kept while the delete's are taken.
* `System.no_waitCycle_of_singleCall` — requests that make at most one lock call never wait for
  each other in a cycle.
* `System.exists_step_ne_of_singleCall` — and while one of them has not finished, one of them can
  take a step.
-/

namespace Zerver.UserGroups.Concurrent

/-! ## No row is locked by two requests -/

/-- **A step takes only a free lock**: a lock a request holds after a step it held before, or no
other request held it. -/
theorem Txn.Moves.mem_held {tx : Txn} {committed : Store} {lockedByOther : Int → Bool}
    {p : Txn × Store} (h : tx.Moves committed lockedByOther p) {x : Int} (hx : x ∈ p.1.held) :
    x ∈ tx.held ∨ lockedByOther x = false := by
  cases h with
  | abort | commit => simp [Txn.finish] at hx
  | lock _ hfree =>
      rcases List.mem_insert_iff.mp hx with rfl | hx
      · exact .inr hfree
      · exact .inl hx
  | _ => exact .inl hx

namespace System

/-- No group row is locked by two requests. -/
def LocksDisjoint (sys : System) : Prop :=
  ∀ (t t' : Nat) (tx tx' : Txn), t ≠ t' → sys.txns[t]? = some tx → sys.txns[t']? = some tx' →
    ∀ x ∈ tx.held, x ∉ tx'.held

theorem LocksDisjoint.step {sys : System} (h : sys.LocksDisjoint) (t : Nat) :
    (sys.step t).LocksDisjoint := by
  unfold System.step
  split
  · exact h
  rename_i tx ht
  -- the lock the stepped request holds is its old one or a free one
  have hfresh : ∀ u tx', t ≠ u → sys.txns[u]? = some tx' →
      ∀ x ∈ (tx.step sys.committed (sys.lockedByOther t)).1.held, x ∉ tx'.held := by
    intro u tx' hne hu x hx hx'
    rcases (tx.moves_step _ _).mem_held hx with hx | hfree
    · exact h t u tx tx' hne ht hu x hx hx'
    · simp [lockedByOther_of_mem hne hu hx'] at hfree
  intro u u' txu txu' hne hu hu'
  simp only [List.getElem?_set, (List.getElem?_eq_some_iff.mp ht).1, if_true] at hu hu'
  by_cases htu : t = u
  · subst htu
    rw [if_pos rfl] at hu
    rw [if_neg hne] at hu'
    cases hu
    exact hfresh u' txu' hne hu'
  · rw [if_neg htu] at hu
    by_cases htu' : t = u'
    · subst htu'
      rw [if_pos rfl] at hu'
      cases hu'
      exact fun x hx hx' => hfresh u txu htu hu x hx' hx
    · rw [if_neg htu'] at hu'
      exact h u u' txu txu' hne hu hu'

theorem LocksDisjoint.run {sys : System} (h : sys.LocksDisjoint) :
    ∀ schedule, (sys.run schedule).LocksDisjoint
  | [] => h
  | t :: schedule => by rw [run_cons]; exact (h.step t).run schedule

/-- Requests that have not started hold no lock. -/
theorem locksDisjoint_init (s : Store) (requests : List (UserProfile × SubgroupRequest)) :
    (init s requests).LocksDisjoint := fun _ _ _ _ _ ht _ x hx => by
  obtain ⟨r, -, rfl⟩ := List.mem_map.mp (List.getElem?_mem ht)
  simp [Txn.start] at hx

/-- **No group row is ever locked by two requests**, under any schedule. -/
theorem locks_disjoint (s : Store) (requests : List (UserProfile × SubgroupRequest))
    (schedule : List Nat) : ((init s requests).run schedule).LocksDisjoint :=
  (locksDisjoint_init s requests).run schedule

end System

/-! ## An update that adds and deletes deadlocks with an add -/

/-- Groups `1`, `2` and `5` of realm 7, with `2` a subgroup of `1`, and a user of the realm. -/
def threeGroupsStore : Store :=
  ⟨[⟨1, 7, "Ann", false, true⟩],
    [⟨1, 7, true, "one", "", 1⟩, ⟨2, 7, true, "two", "", 2⟩, ⟨5, 7, true, "five", "", 5⟩], [],
    [(1, 2)], 6, [], []⟩

/-- Request 0 adds `5` under `1` and deletes `2` from `1`; request 1 adds `2` under `5`.  Request 0
has taken the locks of its add (`1`, `5`) and keeps them while its delete asks for `1` and `2`;
request 1 has taken `2` and asks for `5`. -/
def addAndDeleteSystem : System :=
  (System.init threeGroupsStore
    [(⟨1, 7, "Ann", false, true⟩, .updateSubgroupsOfUserGroup 1 [2] [5]),
     (⟨1, 7, "Ann", false, true⟩, .updateSubgroupsOfUserGroup 5 [] [2])]).run
    [0, 0, 0, 0, 0, 0, 0, 1, 1, 1]

/-- Each of the two requests waits for a lock the other holds, and no schedule moves either of
them again. -/
theorem updateSubgroupsOfUserGroup_deadlock :
    addAndDeleteSystem.WaitsFor 0 1 ∧ addAndDeleteSystem.WaitsFor 1 0 ∧
      ∀ schedule, addAndDeleteSystem.run schedule = addAndDeleteSystem := by
  have h₀ : addAndDeleteSystem.WaitsFor 0 1 := ⟨by decide, _, _, _, rfl, rfl, rfl, by decide⟩
  have h₁ : addAndDeleteSystem.WaitsFor 1 0 := ⟨by decide, _, _, _, rfl, rfl, rfl, by decide⟩
  refine ⟨h₀, h₁, System.run_eq_self fun t => ?_⟩
  match t with
  | 0 => exact System.step_of_waitsFor h₀
  | 1 => exact System.step_of_waitsFor h₁
  | _ + 2 =>
      exact System.step_of_length_le (by simp [addAndDeleteSystem, System.length_run, System.init])

/-! ## Requests with one lock call never deadlock -/

/-- **The locks of a request come in ascending order**: the locks it still asks for in its current
call ascend and lie above every lock it holds, and once it holds a lock no later call takes one.
A request that has finished holds no lock. -/
def Txn.Ordered (tx : Txn) : Prop :=
  match tx.phase with
  | .ready => tx.held = [] ∧ (Call.lockingCalls tx.request.calls).length ≤ 1
  | .running calls => (tx.held = [] ∧ (Call.lockingCalls calls).length ≤ 1) ∨
      ∀ call ∈ calls, call.potentialSubgroupIds = []
  | .locking _ calls _ toLock => toLock.Sorted (· < ·) ∧ (∀ x ∈ tx.held, ∀ y ∈ toLock, x < y) ∧
      ∀ call ∈ calls, call.potentialSubgroupIds = []
  | .done _ => tx.held = []

/-- Every step of a request keeps its locks in order. -/
theorem Txn.Moves.ordered {tx : Txn} {committed : Store} {lockedByOther : Int → Bool}
    {p : Txn × Store} (hm : tx.Moves committed lockedByOther p) (h : tx.Ordered) : p.1.Ordered := by
  cases hm with
  | done | wait => exact h
  | abort | commit => trivial
  | start hp =>
      simp only [Txn.Ordered, hp] at h
      exact .inl h
  | @skip call calls hp hempty =>
      simp only [Txn.Ordered, hp] at h
      rcases h with ⟨hheld, hone⟩ | hall
      · exact .inl ⟨hheld, Call.lockingCalls_cons_of_isEmpty calls hempty ▸ hone⟩
      · exact .inr fun c hc => hall c (List.mem_cons_of_mem _ hc)
  | @enter call calls context hp hempty =>
      simp only [Txn.Ordered, hp] at h
      rcases h with ⟨hheld, hone⟩ | hall
      · exact ⟨lockOrder_sorted _, by simp [hheld], Call.eq_nil_of_lockingCalls_cons hempty hone⟩
      · exact absurd (hall call (List.mem_cons_self _ _)) (by simpa using hempty)
  | lock hp =>
      simp only [Txn.Ordered, hp] at h
      obtain ⟨hsorted, hlt, hcalls⟩ := h
      refine ⟨hsorted.of_cons, fun z hz y hy => ?_, hcalls⟩
      rcases List.mem_insert_iff.mp hz with rfl | hz
      · exact List.rel_of_sorted_cons hsorted y hy
      · exact hlt z hz y (List.mem_cons_of_mem _ hy)
  | write hp =>
      simp only [Txn.Ordered, hp] at h
      exact .inr h.2.2

namespace System

/-- The lock request `t` asks for next. -/
def nextLock (sys : System) (t : Nat) : Option Int :=
  sys.txns[t]?.bind Txn.nextLock

/-- Every request keeps its locks in order. -/
def Ordered (sys : System) : Prop :=
  ∀ tx ∈ sys.txns, tx.Ordered

theorem Ordered.step {sys : System} (h : sys.Ordered) (t : Nat) : (sys.step t).Ordered := by
  unfold System.step
  split
  · exact h
  · rename_i tx ht
    intro tx' htx'
    rcases List.mem_or_eq_of_mem_set htx' with htx' | rfl
    · exact h tx' htx'
    · exact (tx.moves_step _ _).ordered (h tx (List.getElem?_mem ht))

theorem Ordered.run {sys : System} (h : sys.Ordered) : ∀ schedule, (sys.run schedule).Ordered
  | [] => h
  | t :: schedule => by rw [run_cons]; exact (h.step t).run schedule

theorem nextLock_of_waitsFor {sys : System} {t t' : Nat} (h : sys.WaitsFor t t') :
    ∃ x, sys.nextLock t = some x := by
  obtain ⟨-, tx, -, x, ht, -, hnext, -⟩ := h
  exact ⟨x, by simp [nextLock, ht, hnext]⟩

/-- A request waits only for a request whose next lock is above the one it asks for. -/
theorem Ordered.lt_of_waitsFor {sys : System} (h : sys.Ordered) {t t' : Nat}
    (hw : sys.WaitsFor t t') {x y : Int} (hx : sys.nextLock t = some x)
    (hy : sys.nextLock t' = some y) : x < y := by
  obtain ⟨-, tx, tx', z, ht, ht', hnext, hz⟩ := hw
  obtain rfl : z = x := by simpa [nextLock, ht, hnext] using hx
  obtain ⟨call, calls, context, toLock, hphase⟩ :=
    Txn.nextLock_eq_some (by simpa [nextLock, ht'] using hy)
  have hord := h tx' (List.getElem?_mem ht')
  simp only [Txn.Ordered, hphase] at hord
  exact hord.2.1 z hz y (List.mem_cons_self _ _)

/-- Along a chain of waiting requests the requested locks ascend. -/
theorem Ordered.nextLock_lt {sys : System} (h : sys.Ordered) {a b : Nat}
    (hab : Relation.TransGen sys.WaitsFor a b) :
    ∀ {x y : Int}, sys.nextLock a = some x → sys.nextLock b = some y → x < y := by
  induction hab with
  | single hw => exact h.lt_of_waitsFor hw
  | tail _ hw ih =>
      intro x y hx hy
      obtain ⟨z, hz⟩ := nextLock_of_waitsFor hw
      exact (ih hx hz).trans (h.lt_of_waitsFor hw hz hy)

theorem Ordered.not_waitCycle {sys : System} (h : sys.Ordered) (t : Nat) :
    ¬ Relation.TransGen sys.WaitsFor t t := fun hcycle => by
  obtain ⟨t', hw, -⟩ := Relation.TransGen.head'_iff.mp hcycle
  obtain ⟨x, hx⟩ := nextLock_of_waitsFor hw
  exact lt_irrefl x (h.nextLock_lt hcycle hx hx)

/-- Requests with one lock call start with their locks in order. -/
theorem ordered_init {requests : List (UserProfile × SubgroupRequest)}
    (hsingle : ∀ r ∈ requests, r.2.SingleCall) (s : Store) : (init s requests).Ordered := by
  intro tx htx
  obtain ⟨r, hr, rfl⟩ := List.mem_map.mp htx
  exact ⟨rfl, hsingle r hr⟩

/-- **Requests with one lock call never deadlock.**  When every request is a
`delete_user_group` or an `update_subgroups_of_user_group` that only adds or only deletes, no
schedule reaches a state where requests wait for each other in a cycle. -/
theorem no_waitCycle_of_singleCall (s : Store) (requests : List (UserProfile × SubgroupRequest))
    (hsingle : ∀ r ∈ requests, r.2.SingleCall) (schedule : List Nat) (t : Nat) :
    ¬ Relation.TransGen ((init s requests).run schedule).WaitsFor t t :=
  ((ordered_init hsingle s).run schedule).not_waitCycle t

theorem no_waitCycle_of_singleCall_three :
    (∀ r ∈ ([(⟨1, 7, "Ann", false, true⟩, .updateSubgroupsOfUserGroup 5 [] [2]),
        (⟨1, 7, "Ann", false, true⟩, .deleteUserGroup 1),
        (⟨1, 7, "Ann", false, true⟩, .updateSubgroupsOfUserGroup 1 [2] [])] :
          List (UserProfile × SubgroupRequest)), r.2.SingleCall) ∧
      ¬ Relation.TransGen ((init threeGroupsStore
        [(⟨1, 7, "Ann", false, true⟩, .updateSubgroupsOfUserGroup 5 [] [2]),
         (⟨1, 7, "Ann", false, true⟩, .deleteUserGroup 1),
         (⟨1, 7, "Ann", false, true⟩, .updateSubgroupsOfUserGroup 1 [2] [])]).run
        [0, 1, 2, 0, 1, 2, 0, 1, 2]).WaitsFor 0 0 :=
  ⟨by decide, no_waitCycle_of_singleCall _ _ (by decide) _ _⟩


end System

/-! ## Requests with one lock call always make progress -/

/-- Whether a request has committed or rolled back. -/
def Txn.isDone (tx : Txn) : Bool :=
  match tx.phase with
  | .done _ => true
  | _ => false

/-- A step that leaves a request as it is finds it finished, or waiting for a lock another
request holds. -/
theorem Txn.Moves.blocked {tx : Txn} {committed : Store} {lockedByOther : Int → Bool}
    {p : Txn × Store} (hm : tx.Moves committed lockedByOther p) (h : p.1 = tx) :
    tx.isDone = true ∨ ∃ x, tx.nextLock = some x ∧ lockedByOther x = true := by
  have hphase := congrArg Txn.phase h
  cases hm with
  | done hp => exact .inl (by simp [Txn.isDone, hp])
  | wait hp hx => exact .inr ⟨_, by simp [Txn.nextLock, hp], hx⟩
  | abort _ hp => exact absurd hphase.symm (hp _)
  -- every other step moves the request to another phase
  | commit hp | start hp | enter hp | write hp => simp [Txn.finish, hp] at hphase
  | skip hp =>
      simp only [hp, Phase.running.injEq] at hphase
      exact absurd (congrArg List.length hphase) (by simp)
  | lock hp =>
      simp only [hp, Phase.locking.injEq] at hphase
      exact absurd (congrArg List.length hphase.2.2.2) (by simp)

namespace System

/-- A request whose next lock another request holds waits for that request. -/
theorem waitsFor_of_lockedByOther {sys : System} {t : Nat} {tx : Txn} {x : Int}
    (ht : sys.txns[t]? = some tx) (hx : tx.nextLock = some x)
    (hlocked : sys.lockedByOther t x = true) : ∃ t', sys.WaitsFor t t' := by
  obtain ⟨⟨t', tx'⟩, hmem, hheld⟩ := List.any_eq_true.mp hlocked
  simp only [Bool.and_eq_true, bne_iff_ne, List.elem_iff, List.contains] at hheld
  exact ⟨t', Ne.symm hheld.1, tx, tx', x, ht, List.mem_enum_iff_getElem?.mp hmem, hx, hheld.2⟩

/-- **A request no step moves is finished or waits for another.** -/
theorem blocked_of_step_eq {sys : System} {t : Nat} {tx : Txn} (ht : sys.txns[t]? = some tx)
    (h : sys.step t = sys) : tx.isDone = true ∨ ∃ t', sys.WaitsFor t t' := by
  have htx : (tx.step sys.committed (sys.lockedByOther t)).1 = tx := by
    have := congrArg (fun sys : System => sys.txns[t]?) h
    simpa [step, ht, List.getElem?_set_self (List.getElem?_eq_some_iff.mp ht).1] using this
  rcases (tx.moves_step _ _).blocked htx with hdone | ⟨x, hx, hlocked⟩
  · exact .inl hdone
  · exact .inr (waitsFor_of_lockedByOther ht hx hlocked)

/-- A request another request waits for holds a lock, so it has not finished. -/
theorem Ordered.pending_of_waitsFor {sys : System} (h : sys.Ordered) {t t' : Nat}
    (hw : sys.WaitsFor t t') : ∃ tx', sys.txns[t']? = some tx' ∧ tx'.isDone = false := by
  obtain ⟨-, -, tx', x, -, ht', -, hx⟩ := hw
  refine ⟨tx', ht', ?_⟩
  have hord := h tx' (List.getElem?_mem ht')
  unfold Txn.isDone
  split
  · rename_i hp
    simp only [Txn.Ordered, hp] at hord
    simp [hord] at hx
  · rfl

/-- **Requests whose locks ascend always make progress**: while a request has not finished, some
request can take a step.  The unfinished request asking for the highest lock cannot be waiting,
since the request it would wait for asks for a higher one. -/
theorem Ordered.exists_step_ne {sys : System} (h : sys.Ordered)
    (hpending : ∃ tx ∈ sys.txns, tx.isDone = false) : ∃ t, sys.step t ≠ sys := by
  classical
  by_contra hstuck
  push_neg at hstuck
  let pending := (Finset.range sys.txns.length).filter fun t =>
    ∃ tx, sys.txns[t]? = some tx ∧ tx.isDone = false
  have hmem : ∀ {t tx}, sys.txns[t]? = some tx → tx.isDone = false → t ∈ pending :=
    fun ht hdone => Finset.mem_filter.mpr
      ⟨Finset.mem_range.mpr (List.getElem?_eq_some_iff.mp ht).1, _, ht, hdone⟩
  -- a pending request waits for another
  have hwaits : ∀ t ∈ pending, ∃ t', sys.WaitsFor t t' := fun t ht => by
    obtain ⟨-, tx, htx, hdone⟩ := Finset.mem_filter.mp ht
    exact (blocked_of_step_eq htx (hstuck t)).resolve_left (by simp [hdone])
  obtain ⟨tx₀, htx₀, hdone₀⟩ := hpending
  obtain ⟨t₀, ht₀⟩ := List.mem_iff_getElem?.mp htx₀
  obtain ⟨t, ht, hmax⟩ := Finset.exists_max_image pending (fun t => (sys.nextLock t).getD 0)
    ⟨t₀, hmem ht₀ hdone₀⟩
  obtain ⟨t', hw⟩ := hwaits t ht
  obtain ⟨tx', ht', hdone'⟩ := h.pending_of_waitsFor hw
  obtain ⟨t'', hw'⟩ := hwaits t' (hmem ht' hdone')
  obtain ⟨x, hx⟩ := nextLock_of_waitsFor hw
  obtain ⟨y, hy⟩ := nextLock_of_waitsFor hw'
  have hlt : x < y := h.lt_of_waitsFor hw hx hy
  have hle : y ≤ x := by simpa [hx, hy] using hmax t' (hmem ht' hdone')
  exact absurd hlt (not_lt.mpr hle)


/-- **Requests with one lock call always make progress**: in every state a schedule reaches,
while a request has not finished, some request can take a step. -/
theorem exists_step_ne_of_singleCall (s : Store) (requests : List (UserProfile × SubgroupRequest))
    (hsingle : ∀ r ∈ requests, r.2.SingleCall) (schedule : List Nat)
    (hpending : ∃ tx ∈ ((init s requests).run schedule).txns, tx.isDone = false) :
    ∃ t, ((init s requests).run schedule).step t ≠ (init s requests).run schedule :=
  ((ordered_init hsingle s).run schedule).exists_step_ne hpending

theorem exists_step_ne_of_singleCall_three :
    (∀ r ∈ ([(⟨1, 7, "Ann", false, true⟩, .updateSubgroupsOfUserGroup 5 [] [2]),
        (⟨1, 7, "Ann", false, true⟩, .deleteUserGroup 1),
        (⟨1, 7, "Ann", false, true⟩, .updateSubgroupsOfUserGroup 1 [2] [])] :
          List (UserProfile × SubgroupRequest)), r.2.SingleCall) ∧
      (∃ tx ∈ ((init threeGroupsStore
        [(⟨1, 7, "Ann", false, true⟩, .updateSubgroupsOfUserGroup 5 [] [2]),
         (⟨1, 7, "Ann", false, true⟩, .deleteUserGroup 1),
         (⟨1, 7, "Ann", false, true⟩, .updateSubgroupsOfUserGroup 1 [2] [])]).run
        [0, 1, 2, 0, 1, 2, 0, 1, 2]).txns, tx.isDone = false) ∧
      ∃ t, ((init threeGroupsStore
        [(⟨1, 7, "Ann", false, true⟩, .updateSubgroupsOfUserGroup 5 [] [2]),
         (⟨1, 7, "Ann", false, true⟩, .deleteUserGroup 1),
         (⟨1, 7, "Ann", false, true⟩, .updateSubgroupsOfUserGroup 1 [2] [])]).run
        [0, 1, 2, 0, 1, 2, 0, 1, 2]).step t ≠ (init threeGroupsStore
        [(⟨1, 7, "Ann", false, true⟩, .updateSubgroupsOfUserGroup 5 [] [2]),
         (⟨1, 7, "Ann", false, true⟩, .deleteUserGroup 1),
         (⟨1, 7, "Ann", false, true⟩, .updateSubgroupsOfUserGroup 1 [2] [])]).run
        [0, 1, 2, 0, 1, 2, 0, 1, 2] :=
  ⟨by decide, by decide, exists_step_ne_of_singleCall _ _ (by decide) _ (by decide)⟩

end System

end Zerver.UserGroups.Concurrent

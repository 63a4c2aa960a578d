import Zerver.UserGroups.Store
import Mathlib.Logic.Relation

/-!
# Recursive subgroups

`lock_subgroups_with_respect_to_supergroup` hands the views `context.recursive_subgroups`: the
candidate subgroups together with every group reachable from them through `GroupGroupMembership`
rows.  Its cycle check is one membership test against that set, so everything the views promise
about cycles rests on the set being *exactly* the reflexive-transitive closure of the rows.

* `Reaches rows a b` — the closure as a relation: `b` is `a` or one of its recursive subgroups.
* `reachesVia` / `reaches` — the closure as a computation, by structural recursion on the list
  of groups a path may pass through.  Only a group that is the supergroup of some row can be the
  inner node of a path, so the sources of the rows suffice (`reaches_iff`).
* `recursiveSubgroupsOf` — the rows of the group table the recursive query returns.

### Acyclicity

`Acyclic rows` is the invariant of the whole development: no group is its own direct or
recursive subgroup.  `acyclic_iff` restates it edge by edge, and `Acyclic.append_from` is the one
fact about adding rows that every view needs: rows `p → c` keep the relation acyclic as long as
no `c` already reaches `p`.
-/

namespace Zerver.UserGroups

/-- A `GroupGroupMembership` row read as an edge from the supergroup to the subgroup. -/
def SubgroupEdge (rows : List (Int × Int)) (a b : Int) : Prop := (a, b) ∈ rows

/-- `b` is `a` or one of `a`'s recursive subgroups. -/
def Reaches (rows : List (Int × Int)) : Int → Int → Prop :=
  Relation.ReflTransGen (SubgroupEdge rows)

/-- No group is its own direct or recursive subgroup. -/
def Acyclic (rows : List (Int × Int)) : Prop :=
  ∀ g, ¬ Relation.TransGen (SubgroupEdge rows) g g

/-! ## The closure as a computation -/

/-- Paths whose inner groups all lie in `via`: the empty path, one row, or two such paths joined
at the first group of `via`. -/
def reachesVia (rows : List (Int × Int)) : List Int → Int → Int → Bool
  | [], a, b => a == b || decide ((a, b) ∈ rows)
  | p :: via, a, b =>
      reachesVia rows via a b || (reachesVia rows via a p && reachesVia rows via p b)

/-- Reachability through the rows, with every supergroup of a row allowed as an inner node. -/
def reaches (rows : List (Int × Int)) (a b : Int) : Bool :=
  reachesVia rows (rows.map Prod.fst) a b

section Closure

variable {rows : List (Int × Int)}

theorem reachesVia_sound :
    ∀ {via : List Int} {a b : Int}, reachesVia rows via a b = true → Reaches rows a b
  | [], a, b, h => by
      simp only [reachesVia, Bool.or_eq_true, beq_iff_eq, decide_eq_true_eq] at h
      rcases h with rfl | h
      · exact Relation.ReflTransGen.refl
      · exact Relation.ReflTransGen.single h
  | p :: via, a, b, h => by
      simp only [reachesVia, Bool.or_eq_true, Bool.and_eq_true] at h
      rcases h with h | ⟨h₁, h₂⟩
      · exact reachesVia_sound h
      · exact (reachesVia_sound h₁).trans (reachesVia_sound h₂)

/-- A path with no inner node is a path through any list. -/
theorem reachesVia_of_direct :
    ∀ {via : List Int} {a b : Int}, (a = b ∨ (a, b) ∈ rows) → reachesVia rows via a b = true
  | [], a, b, h => by simpa [reachesVia] using h
  | _ :: _, _, _, h => by simp [reachesVia, reachesVia_of_direct h]

/-- Two paths through `via` join at a group of `via`. -/
theorem reachesVia_trans :
    ∀ {via : List Int} {a m b : Int}, m ∈ via →
      reachesVia rows via a m = true → reachesVia rows via m b = true →
        reachesVia rows via a b = true
  | [], _, _, _, hm, _, _ => absurd hm (List.not_mem_nil _)
  | p :: via, a, m, b, hm, h₁, h₂ => by
      simp only [reachesVia, Bool.or_eq_true, Bool.and_eq_true] at h₁ h₂ ⊢
      rcases List.mem_cons.mp hm with rfl | hm
      · exact .inr ⟨h₁.elim id (·.1), h₂.elim id (·.2)⟩
      · rcases h₁ with h₁ | ⟨h₁, hp₁⟩ <;> rcases h₂ with h₂ | ⟨hp₂, h₂⟩
        · exact .inl (reachesVia_trans hm h₁ h₂)
        · exact .inr ⟨reachesVia_trans hm h₁ hp₂, h₂⟩
        · exact .inr ⟨h₁, reachesVia_trans hm hp₁ h₂⟩
        · exact .inr ⟨h₁, h₂⟩

theorem reaches_complete {a b : Int} (h : Reaches rows a b) : reaches rows a b = true := by
  induction h with
  | refl => exact reachesVia_of_direct (.inl rfl)
  | @tail m b _ hedge ih =>
      have hm : m ∈ rows.map Prod.fst := List.mem_map.mpr ⟨(m, b), hedge, rfl⟩
      exact reachesVia_trans hm ih (reachesVia_of_direct (.inr hedge))

/-- **The computed closure is the closure.** -/
theorem reaches_iff {a b : Int} : reaches rows a b = true ↔ Reaches rows a b :=
  ⟨reachesVia_sound, reaches_complete⟩

end Closure

/-- `get_recursive_subgroups_for_groups`: the rows of the group table that are one of `anchors`
or a recursive subgroup of one, in table order. -/
def recursiveSubgroupsOf (s : Store) (anchors : List Int) : List UserGroup :=
  s.groups.filter fun g => anchors.any fun a => reaches s.groupMemberships a g.id

@[simp] theorem mem_recursiveSubgroupsOf {s : Store} {anchors : List Int} {g : UserGroup} :
    g ∈ recursiveSubgroupsOf s anchors ↔
      g ∈ s.groups ∧ ∃ a ∈ anchors, Reaches s.groupMemberships a g.id := by
  simp [recursiveSubgroupsOf, reaches_iff]

/-! ## Acyclicity -/

section Acyclic

variable {rows : List (Int × Int)}

/-- A cycle is a row whose subgroup reaches back to its supergroup. -/
theorem acyclic_iff : Acyclic rows ↔ ∀ e ∈ rows, ¬ Reaches rows e.2 e.1 := by
  refine ⟨fun h e he hr => h e.1 (Relation.TransGen.head' he hr), fun h g hg => ?_⟩
  obtain ⟨b, hab, hba⟩ := Relation.TransGen.head'_iff.mp hg
  exact h (g, b) hab hba

theorem Reaches.mono {rows' : List (Int × Int)} (hsub : ∀ e ∈ rows, e ∈ rows') {a b : Int}
    (h : Reaches rows a b) : Reaches rows' a b :=
  Relation.ReflTransGen.mono (fun x y hxy => hsub (x, y) hxy) h

/-- With no rows there is no cycle. -/
theorem acyclic_nil : Acyclic [] := fun _ h => by
  obtain ⟨_, hab, -⟩ := Relation.TransGen.head'_iff.mp h
  exact List.not_mem_nil _ hab

/-- Deleting rows cannot close a cycle. -/
theorem Acyclic.mono {rows' : List (Int × Int)} (hsub : ∀ e ∈ rows', e ∈ rows)
    (h : Acyclic rows) : Acyclic rows' := fun g hg =>
  h g (Relation.TransGen.mono (fun x y hxy => hsub (x, y) hxy) hg)

/-- A path in `rows` with rows `p → c` added either stays in `rows`, or passes through `p` and
ends with a path in `rows` from one of the `cs`. -/
theorem reaches_append_from {p : Int} {cs : List Int} {a b : Int}
    (h : Reaches (rows ++ cs.map (p, ·)) a b) :
    Reaches rows a b ∨
      (Reaches (rows ++ cs.map (p, ·)) a p ∧ ∃ c ∈ cs, Reaches rows c b) := by
  induction h with
  | refl => exact .inl Relation.ReflTransGen.refl
  | @tail m b hpath hedge ih =>
      rcases List.mem_append.mp hedge with hold | hnew
      · rcases ih with ih | ⟨hp, c, hc, ih⟩
        · exact .inl (ih.tail hold)
        · exact .inr ⟨hp, c, hc, ih.tail hold⟩
      · obtain ⟨c, hc, hmc⟩ := List.mem_map.mp hnew
        cases hmc
        exact .inr ⟨hpath, _, hc, Relation.ReflTransGen.refl⟩

/-- **Paths once rows out of `p` are added**: a path of the new rows is a path of the old ones, or
reaches `p` in the old rows and continues from a new subgroup of `p`. -/
theorem reaches_iff_of_mem_iff {rows' : List (Int × Int)} {p : Int} {cs : List Int}
    (hrows : ∀ e, e ∈ rows' ↔ e ∈ rows ∨ e.1 = p ∧ e.2 ∈ cs) {a b : Int} :
    Reaches rows' a b ↔ Reaches rows a b ∨ (Reaches rows a p ∧ ∃ c ∈ cs, Reaches rows c b) := by
  have hold : ∀ e ∈ rows, e ∈ rows' := fun e he => (hrows e).mpr (.inl he)
  constructor
  · intro h
    induction h with
    | refl => exact .inl .refl
    | @tail m b _ hedge ih =>
        rcases (hrows (m, b)).mp hedge with hedge | ⟨rfl, hb⟩
        · exact ih.imp (·.tail hedge) fun ⟨hp, c, hc, hcm⟩ => ⟨hp, c, hc, hcm.tail hedge⟩
        · exact .inr ⟨ih.elim id (·.1), b, hb, .refl⟩
  · rintro (h | ⟨hp, c, hc, hcb⟩)
    · exact h.mono hold
    · exact ((hp.mono hold).tail ((hrows (p, c)).mpr (.inr ⟨rfl, hc⟩))).trans (hcb.mono hold)

/-- **Adding rows `p → c` keeps the relation acyclic when no `c` reaches `p`.**  This is the
guard `add_subgroups_to_group_backend` evaluates, and the fact every creation of an anonymous
group reduces to. -/
theorem Acyclic.append_from {p : Int} {cs : List Int} (h : Acyclic rows)
    (hguard : ∀ c ∈ cs, ¬ Reaches rows c p) : Acyclic (rows ++ cs.map (p, ·)) := by
  have back : ∀ c ∈ cs, ¬ Reaches (rows ++ cs.map (p, ·)) c p := fun c hc hr =>
    (reaches_append_from hr).elim (hguard c hc) fun ⟨_, c', hc', hr'⟩ => hguard c' hc' hr'
  rw [acyclic_iff] at h ⊢
  intro e he hr
  rcases List.mem_append.mp he with hold | hnew
  · rcases reaches_append_from hr with hr | ⟨hp, c, hc, hce⟩
    · exact h e hold hr
    · rcases reaches_append_from hp with hp | ⟨_, c', hc', hc'p⟩
      · exact hguard c hc (hce.trans (Relation.ReflTransGen.head hold hp))
      · exact hguard c' hc' hc'p
  · obtain ⟨c, hc, rfl⟩ := List.mem_map.mp hnew
    exact back c hc hr

end Acyclic

end Zerver.UserGroups

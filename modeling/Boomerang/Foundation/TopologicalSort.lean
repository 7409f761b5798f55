import Boomerang.Foundation.Cycles
import Mathlib.Data.List.Count
import Mathlib.Data.List.Nodup
import Mathlib.Logic.Function.Basic

/-!
# Topological sorting with a queue

A vertex is queued when its last incoming edge has been taken away. Vertices that are
never queued, those on or behind a cycle, are appended at the end in their own order.
-/

namespace Boomerang.Foundation

variable {Vertex : Type} [DecidableEq Vertex]

/-- The ends of the edges that leave a vertex. -/
def targets (edges : List (Vertex × Vertex)) (source : Vertex) : List Vertex :=
  (edges.filter fun edge => edge.1 = source).map Prod.snd

/-- The number of edges that enter a vertex. -/
def inDegree (edges : List (Vertex × Vertex)) (target : Vertex) : Nat :=
  edges.countP fun edge => edge.2 = target

/-- Take edges away and queue the vertices that have no incoming edge left. -/
def relax : List Vertex → (Vertex → Nat) → List Vertex → (Vertex → Nat) × List Vertex
  | [], degree, queue => (degree, queue)
  | target :: rest, degree, queue =>
      let degree := Function.update degree target (degree target - 1)
      relax rest degree (if degree target = 0 then queue ++ [target] else queue)

/-- Take vertices from the queue until it is empty. The fuel bounds their number. -/
def drainQueue (edges : List (Vertex × Vertex)) :
    Nat → List Vertex → (Vertex → Nat) → List Vertex → Option (List Vertex)
  | _, [], _, order => some order
  | 0, _ :: _, _, _ => none
  | fuel + 1, source :: queue, degree, order =>
      let (degree, queue) := relax (targets edges source) degree queue
      drainQueue edges fuel queue degree (order ++ [source])

/-- The order of the vertices. -/
def topologicalOrder (vertices : List Vertex) (edges : List (Vertex × Vertex)) :
    Option (List Vertex) :=
  let queue := vertices.filter fun vertex => inDegree edges vertex = 0
  (drainQueue edges vertices.length queue (inDegree edges) []).map fun order =>
    order ++ vertices.filter fun vertex => vertex ∉ order

/-- The edges that enter a vertex and leave one that is not in the order yet. -/
def pending (edges : List (Vertex × Vertex)) (order : List Vertex) (target : Vertex) : Nat :=
  edges.countP fun edge => edge.2 = target ∧ edge.1 ∉ order

/-- The queue holds, with the vertices taken from it, those without an incoming edge. -/
structure Ready (vertices : List Vertex) (degree : Vertex → Nat) (order queue : List Vertex) :
    Prop where
  nodup : (order ++ queue).Nodup
  mem_iff : ∀ vertex, vertex ∈ order ++ queue ↔ vertex ∈ vertices ∧ degree vertex = 0

/-- A vertex that loses its last incoming edge has not been queued before. -/
theorem Ready.relax {vertices order : List Vertex} {after : Vertex → Nat} {ends : List Vertex}
    {degree : Vertex → Nat} {queue : List Vertex} (inside : ∀ vertex ∈ ends, vertex ∈ vertices)
    (counts : ∀ vertex, degree vertex = after vertex + ends.count vertex)
    (ready : Ready vertices degree order queue) :
    (relax ends degree queue).1 = after ∧
      Ready vertices after order (Foundation.relax ends degree queue).2 := by
  induction ends generalizing degree queue with
  | nil =>
      have same : degree = after := funext fun vertex => by simpa using counts vertex
      subst same
      exact ⟨rfl, ready⟩
  | cons target rest ih =>
      have here := counts target
      rw [List.count_cons_self] at here
      have fresh : target ∉ order ++ queue := fun member => by
        have empty := ((ready.mem_iff target).mp member).2
        omega
      have others : ∀ vertex, vertex ≠ target →
          Function.update degree target (degree target - 1) vertex = degree vertex :=
        fun vertex different => Function.update_of_ne different _ _
      refine ih (fun vertex member => inside vertex (List.mem_cons_of_mem _ member)) ?_ ?_
      · intro vertex
        by_cases same : vertex = target
        · subst same
          rw [Function.update_self]
          omega
        · rw [others vertex same, counts vertex, List.count_cons_of_ne (Ne.symm same)]
      · rw [Function.update_self]
        split
        · rename_i last
          refine ⟨?_, ?_⟩
          · rw [← List.append_assoc, List.nodup_append]
            refine ⟨ready.nodup, List.nodup_singleton _, ?_⟩
            intro old member new single
            rw [List.mem_singleton.mp single]
            rintro rfl
            exact fresh member
          · intro vertex
            rw [← List.append_assoc, List.mem_append, List.mem_singleton, ready.mem_iff]
            by_cases same : vertex = target
            · subst same
              rw [Function.update_self]
              exact ⟨fun _ => ⟨inside vertex List.mem_cons_self, last⟩, fun _ => Or.inr rfl⟩
            · rw [others vertex same]
              simp only [same, or_false]
        · rename_i more
          refine ⟨ready.nodup, ?_⟩
          intro vertex
          rw [ready.mem_iff]
          by_cases same : vertex = target
          · subst same
            rw [Function.update_self]
            have positive : degree vertex ≠ 0 := by omega
            simp only [positive, more]
          · rw [others vertex same]

/-- Taking the edges of a vertex away. -/
theorem pending_append (edges : List (Vertex × Vertex)) {order : List Vertex} {source : Vertex}
    (fresh : source ∉ order) (target : Vertex) :
    pending edges order target =
      pending edges (order ++ [source]) target + (targets edges source).count target := by
  induction edges with
  | nil => rfl
  | cons edge edges ih =>
      simp only [pending, targets, List.countP_cons, List.filter_cons] at ih ⊢
      rw [ih]
      by_cases leaves : edge.1 = source
      · by_cases enters : edge.2 = target
        · simp [leaves, enters, fresh]
          omega
        · simp [leaves, enters]
      · by_cases enters : edge.2 = target
        · by_cases old : edge.1 ∈ order
          · simp [leaves, old]
          · simp [leaves, enters, old]
            omega
        · simp [leaves, enters]

/-- Every vertex of the order comes after those its incoming edges leave. -/
def Respects (edges : List (Vertex × Vertex)) (order : List Vertex) : Prop :=
  ∀ front vertex back, order = front ++ vertex :: back →
    ∀ edge ∈ edges, edge.2 = vertex → edge.1 ∈ front

theorem pending_eq_zero {edges : List (Vertex × Vertex)} {order : List Vertex} {target : Vertex} :
    pending edges order target = 0 ↔ ∀ edge ∈ edges, edge.2 = target → edge.1 ∈ order := by
  rw [pending, List.countP_eq_zero]
  simp only [decide_eq_true_iff, not_and, Decidable.not_not]

omit [DecidableEq Vertex] in
theorem Respects.concat {edges : List (Vertex × Vertex)} {order : List Vertex} {source : Vertex}
    (respects : Respects edges order)
    (before : ∀ edge ∈ edges, edge.2 = source → edge.1 ∈ order) :
    Respects edges (order ++ [source]) := by
  intro front vertex back same edge listed enters
  rcases List.eq_nil_or_concat back with rfl | ⟨back, last, rfl⟩
  · obtain ⟨rfl, singleton⟩ := List.append_inj' same rfl
    cases singleton
    exact before edge listed enters
  · rw [List.concat_eq_append, ← List.cons_append, ← List.append_assoc] at same
    exact respects front vertex back (List.append_inj' same rfl).1 edge listed enters

/-- What the queue leaves when it has run empty: vertices in the order of the edges, and
every other vertex has an incoming edge from one that is not in the order either. -/
structure Drained (vertices : List Vertex) (edges : List (Vertex × Vertex))
    (order : List Vertex) : Prop where
  nodup : order.Nodup
  inside : ∀ vertex ∈ order, vertex ∈ vertices
  respects : Respects edges order
  complete : ∀ vertex ∈ vertices,
    (∀ edge ∈ edges, edge.2 = vertex → edge.1 ∈ order) → vertex ∈ order

theorem Ready.drained {vertices : List Vertex} {edges : List (Vertex × Vertex)}
    {degree : Vertex → Nat} {order : List Vertex} (ready : Ready vertices degree order [])
    (degrees : degree = pending edges order) (respects : Respects edges order) :
    Drained vertices edges order := by
  obtain ⟨nodup, memIff⟩ := ready
  rw [List.append_nil] at nodup memIff
  refine ⟨nodup, fun vertex member => ((memIff vertex).mp member).1, respects, ?_⟩
  intro vertex member before
  exact (memIff vertex).mpr ⟨member, degrees ▸ pending_eq_zero.mpr before⟩

/-- The queue runs empty. -/
theorem drainQueue_ok {vertices : List Vertex} {edges : List (Vertex × Vertex)}
    (inside : ∀ edge ∈ edges, edge.2 ∈ vertices) {fuel : Nat} {queue order : List Vertex}
    {degree : Vertex → Nat} (degrees : degree = pending edges order)
    (ready : Ready vertices degree order queue) (respects : Respects edges order)
    (enough : vertices.length ≤ order.length + fuel) :
    ∃ sorted, drainQueue edges fuel queue degree order = some sorted ∧
      Drained vertices edges sorted := by
  have bounded : (order ++ queue).length ≤ vertices.length :=
    (List.subperm_of_subset ready.nodup fun vertex member =>
      ((ready.mem_iff vertex).mp member).1).length_le
  induction fuel generalizing queue order degree with
  | zero =>
      have empty : queue = [] := by
        rw [List.length_append] at bounded
        exact List.length_eq_zero_iff.mp (by omega)
      subst empty
      exact ⟨order, by rw [drainQueue], ready.drained degrees respects⟩
  | succ fuel ih =>
      cases queue with
      | nil => exact ⟨order, by rw [drainQueue], ready.drained degrees respects⟩
      | cons source queue =>
          have fresh : source ∉ order := fun member =>
            (List.nodup_append.mp ready.nodup).2.2 source member source List.mem_cons_self rfl
          have noneLeft : pending edges order source = 0 := by
            have member : source ∈ order ++ source :: queue :=
              List.mem_append_right _ List.mem_cons_self
            exact degrees ▸ ((ready.mem_iff source).mp member).2
          have popped : Ready vertices degree (order ++ [source]) queue := by
            refine ⟨?_, ?_⟩ <;> rw [List.append_assoc]
            · exact ready.nodup
            · exact ready.mem_iff
          have within : ∀ vertex ∈ targets edges source, vertex ∈ vertices := by
            intro vertex member
            obtain ⟨edge, listed, rfl⟩ := List.mem_map.mp member
            exact inside edge (List.mem_filter.mp listed).1
          obtain ⟨degreeEq, after⟩ := popped.relax within fun vertex => by
            rw [degrees, pending_append edges fresh]
          rw [drainQueue]
          refine ih degreeEq (degreeEq ▸ after)
            (respects.concat (pending_eq_zero.mp noneLeft)) ?_ ?_
          · rw [List.length_append, List.length_singleton]
            omega
          · exact (List.subperm_of_subset after.nodup fun vertex member =>
              ((after.mem_iff vertex).mp member).1).length_le

/-- The order is what the queue gives, and then the vertices that are left. -/
theorem topologicalOrder_eq {vertices : List Vertex} {edges : List (Vertex × Vertex)}
    (distinct : vertices.Nodup) (inside : ∀ edge ∈ edges, edge.2 ∈ vertices) :
    ∃ order, Drained vertices edges order ∧ topologicalOrder vertices edges =
      some (order ++ vertices.filter fun vertex => vertex ∉ order) := by
  have degrees : inDegree edges = pending edges [] := by
    funext vertex
    simp [inDegree, pending]
  have ready : Ready vertices (inDegree edges) []
      (vertices.filter fun vertex => inDegree edges vertex = 0) := by
    refine ⟨distinct.filter _, ?_⟩
    intro vertex
    rw [List.nil_append, List.mem_filter, decide_eq_true_iff]
  have none : Respects edges [] := fun front vertex back same => by simp at same
  obtain ⟨order, drained, ends⟩ :=
    drainQueue_ok inside degrees ready none (Nat.le_add_left vertices.length 0)
  exact ⟨order, ends, by rw [topologicalOrder, drained, Option.map_some]⟩

theorem Drained.perm {vertices : List Vertex} {edges : List (Vertex × Vertex)}
    {order : List Vertex} (drained : Drained vertices edges order) (distinct : vertices.Nodup) :
    (order ++ vertices.filter fun vertex => vertex ∉ order).Perm vertices := by
  have apart : (order ++ vertices.filter fun vertex => vertex ∉ order).Nodup := by
    refine List.nodup_append.mpr ⟨drained.nodup, distinct.filter _, ?_⟩
    rintro vertex here other there rfl
    exact of_decide_eq_true (List.mem_filter.mp there).2 here
  refine (List.perm_ext_iff_of_nodup apart distinct).mpr fun vertex => ?_
  rw [List.mem_append, List.mem_filter, decide_eq_true_iff]
  constructor
  · rintro (here | ⟨here, _⟩)
    · exact drained.inside vertex here
    · exact here
  · intro here
    by_cases listed : vertex ∈ order
    · exact Or.inl listed
    · exact Or.inr ⟨here, listed⟩

/-- The order lists every vertex once. -/
theorem topologicalOrder_perm {vertices : List Vertex} {edges : List (Vertex × Vertex)}
    (distinct : vertices.Nodup) (inside : ∀ edge ∈ edges, edge.2 ∈ vertices) :
    ∃ sorted, topologicalOrder vertices edges = some sorted ∧ sorted.Perm vertices := by
  obtain ⟨order, drained, orderEq⟩ := topologicalOrder_eq distinct inside
  exact ⟨_, orderEq, drained.perm distinct⟩

section Dependencies

variable {vertices : List Vertex} {edges : List (Vertex × Vertex)} {order : List Vertex}

/-- A vertex depends on those its incoming edges leave. -/
def DependsOn (edges : List (Vertex × Vertex)) (target source : Vertex) : Prop :=
  (source, target) ∈ edges

theorem Drained.lt_of_dependsOn (drained : Drained vertices edges order) {target source : Vertex}
    (member : target ∈ order) (depends : DependsOn edges target source) :
    source ∈ order ∧ order.idxOf source < order.idxOf target := by
  obtain ⟨front, back, rfl⟩ := List.append_of_mem member
  have before := drained.respects front target back rfl (source, target) depends rfl
  have apart : target ∉ front := fun inFront =>
    (List.nodup_append.mp drained.nodup).2.2 target inFront target List.mem_cons_self rfl
  refine ⟨List.mem_append_left _ before, ?_⟩
  rw [List.idxOf_append_of_mem before, List.idxOf_append_of_notMem apart, List.idxOf_cons_self]
  exact Nat.lt_of_lt_of_le (List.idxOf_lt_length_of_mem before) (Nat.le_add_right _ _)

/-- The queue gives exactly the vertices that no cycle is behind. -/
theorem Drained.mem_iff (drained : Drained vertices edges order)
    (inside : ∀ edge ∈ edges, edge.1 ∈ vertices) {vertex : Vertex} (member : vertex ∈ vertices) :
    vertex ∈ order ↔ ¬ ReachesCycle (DependsOn edges) vertex := by
  constructor
  · intro listed
    refine not_reachesCycle_of_decreasing (· ∈ order) order.idxOf ?_ listed
    exact fun target source here depends => drained.lt_of_dependsOn here depends
  · intro noCycle
    by_contra left
    refine noCycle (reachesCycle_of_successors (vertices.filter fun vertex => vertex ∉ order) ?_
      (List.mem_filter.mpr ⟨member, decide_eq_true left⟩))
    intro target leftOver
    obtain ⟨targetIn, targetLeft⟩ := List.mem_filter.mp leftOver
    have stuck := mt (drained.complete target targetIn) (of_decide_eq_true targetLeft)
    push Not at stuck
    obtain ⟨⟨source, _⟩, listed, rfl, sourceLeft⟩ := stuck
    exact ⟨source, List.mem_filter.mpr ⟨inside _ listed, decide_eq_true sourceLeft⟩, listed⟩

/-- Every vertex with no cycle behind it comes after those it depends on and before
every vertex with a cycle behind it. -/
theorem topologicalOrder_sorted {sorted : List Vertex} (distinct : vertices.Nodup)
    (inside : ∀ edge ∈ edges, edge.1 ∈ vertices ∧ edge.2 ∈ vertices)
    (success : topologicalOrder vertices edges = some sorted) {vertex : Vertex}
    (member : vertex ∈ vertices) (noCycle : ¬ ReachesCycle (DependsOn edges) vertex) :
    (∀ source, DependsOn edges vertex source → sorted.idxOf source < sorted.idxOf vertex) ∧
      ∀ other, ReachesCycle (DependsOn edges) other → sorted.idxOf vertex < sorted.idxOf other := by
  obtain ⟨order, drained, orderEq⟩ :=
    topologicalOrder_eq distinct fun edge listed => (inside edge listed).2
  cases orderEq.symm.trans success
  have sources : ∀ edge ∈ edges, edge.1 ∈ vertices := fun edge listed => (inside edge listed).1
  have listed := (drained.mem_iff sources member).mpr noCycle
  refine ⟨?_, ?_⟩
  · intro source depends
    obtain ⟨sourceIn, less⟩ := drained.lt_of_dependsOn listed depends
    rwa [List.idxOf_append_of_mem listed, List.idxOf_append_of_mem sourceIn]
  · intro other cyclic
    have left : other ∉ order := fun inOrder =>
      (drained.mem_iff sources (drained.inside other inOrder)).mp inOrder cyclic
    rw [List.idxOf_append_of_mem listed, List.idxOf_append_of_notMem left]
    exact Nat.lt_of_lt_of_le (List.idxOf_lt_length_of_mem listed) (Nat.le_add_right _ _)

end Dependencies

end Boomerang.Foundation

/-
What the graph of a save is: every instance in memory that the root reaches through
assigned values, each once, each as it is in memory and each checked.
-/

import EntityStore.Store.Graph
import Mathlib.Data.List.Nodup
import Mathlib.Logic.Relation

set_option autoImplicit false

namespace EntityStore

def Refers (memory : Array Instance) (subject target : InstanceId) : Prop :=
  target ∈ (Node.ofMemory memory subject).content.targets

abbrev Reaches (memory : Array Instance) : InstanceId → InstanceId → Prop :=
  Relation.ReflTransGen (Refers memory)

theorem eq_of_reaches {memory : Array Instance} {subject other : InstanceId}
    (alone : (Node.ofMemory memory subject).content.targets = [])
    (reaches : Reaches memory subject other) : other = subject := by
  rcases Relation.ReflTransGen.cases_head reaches with same | ⟨next, refers, _⟩
  · exact same.symm
  · unfold Refers at refers
    rw [alone] at refers
    cases refers

namespace Graph

def subjects (graph : Graph) : List InstanceId := graph.map Node.subject

theorem mem_subjects {graph : Graph} {subject : InstanceId} :
    subject ∈ graph.subjects ↔ ∃ node ∈ graph, node.subject = subject := List.mem_map

/-- What an exploration adds to what was found: instances that were unseen, as they are
in memory, checked and each once, among them those on the stack and all that the added
ones refer to. -/
structure Explored (store : StoreId) (memory : Array Instance) (unseen stack : List InstanceId)
    (added : Graph) : Prop where
  distinct : added.subjects.Nodup
  fresh : ∀ node ∈ added, node.subject ∈ unseen
  found : ∀ node ∈ added, node = Node.ofMemory memory node.subject
  checked : ∀ node ∈ added, node.check store memory = .ok ()
  stacked : ∀ subject ∈ stack, subject ∈ unseen → subject ∈ added.subjects
  closed : ∀ node ∈ added, ∀ target ∈ node.content.targets, target ∈ unseen →
    target ∈ added.subjects
  reached : ∀ node ∈ added, ∃ start ∈ stack, Reaches memory start node.subject

/-- One step of the exploration: a node that is unseen and passes its check, and then
what its targets and the rest of the stack lead to. -/
theorem Explored.cons {store : StoreId} {memory : Array Instance}
    {unseen rest : List InstanceId} {subject : InstanceId} {later : Graph}
    (distinct : unseen.Nodup) (member : subject ∈ unseen)
    (checked : (Node.ofMemory memory subject).check store memory = .ok ())
    (explored : Explored store memory (unseen.erase subject)
      ((Node.ofMemory memory subject).content.targets.reverse ++ rest) later) :
    Explored store memory unseen (subject :: rest) (Node.ofMemory memory subject :: later) := by
  have seenLater : ∀ other, other ∈ unseen → other ≠ subject → other ∈ unseen.erase subject :=
    fun other otherMember different => (List.mem_erase_of_ne different).mpr otherMember
  refine ⟨?_, ?_, ?_, ?_, ?_, ?_, ?_⟩
  · show (subject :: later.subjects).Nodup
    rw [List.nodup_cons]
    refine ⟨?_, explored.distinct⟩
    intro again
    obtain ⟨node, nodeMember, same⟩ := mem_subjects.mp again
    -- What follows is found among the unseen without the node.
    have left := explored.fresh node nodeMember
    rw [same] at left
    exact distinct.not_mem_erase left
  · intro node nodeMember
    rcases List.mem_cons.mp nodeMember with rfl | isLater
    · exact member
    · exact List.mem_of_mem_erase (explored.fresh node isLater)
  · intro node nodeMember
    rcases List.mem_cons.mp nodeMember with rfl | isLater
    · rfl
    · exact explored.found node isLater
  · intro node nodeMember
    rcases List.mem_cons.mp nodeMember with rfl | isLater
    · exact checked
    · exact explored.checked node isLater
  · intro other otherMember otherUnseen
    show other ∈ subject :: later.subjects
    by_cases same : other = subject
    · exact same ▸ List.mem_cons_self
    · rcases List.mem_cons.mp otherMember with isSubject | isRest
      · exact absurd isSubject same
      · exact List.mem_cons_of_mem subject
          (explored.stacked other (List.mem_append_right _ isRest)
            (seenLater other otherUnseen same))
  · intro node nodeMember target targetMember targetUnseen
    show target ∈ subject :: later.subjects
    by_cases same : target = subject
    · exact same ▸ List.mem_cons_self
    · have left := seenLater target targetUnseen same
      rcases List.mem_cons.mp nodeMember with rfl | isLater
      · exact List.mem_cons_of_mem subject
          (explored.stacked target
            (List.mem_append_left rest (List.mem_reverse.mpr targetMember)) left)
      · exact List.mem_cons_of_mem subject (explored.closed node isLater target targetMember left)
  · intro node nodeMember
    rcases List.mem_cons.mp nodeMember with rfl | isLater
    · exact ⟨subject, List.mem_cons_self, .refl⟩
    · obtain ⟨start, startMember, reaches⟩ := explored.reached node isLater
      rcases List.mem_append.mp startMember with isTarget | isRest
      · exact ⟨subject, List.mem_cons_self, .head (List.mem_reverse.mp isTarget) reaches⟩
      · exact ⟨start, List.mem_cons_of_mem subject isRest, reaches⟩

theorem Explored.skip {store : StoreId} {memory : Array Instance}
    {unseen rest : List InstanceId} {subject : InstanceId} {added : Graph}
    (seen : subject ∉ unseen) (explored : Explored store memory unseen rest added) :
    Explored store memory unseen (subject :: rest) added := by
  refine { explored with stacked := ?_, reached := ?_ }
  · intro other otherMember otherUnseen
    rcases List.mem_cons.mp otherMember with isSubject | isRest
    · exact absurd (isSubject ▸ otherUnseen) seen
    · exact explored.stacked other isRest otherUnseen
  · intro node nodeMember
    obtain ⟨start, startMember, reaches⟩ := explored.reached node nodeMember
    exact ⟨start, List.mem_cons_of_mem subject startMember, reaches⟩

private theorem explore_ok {store : StoreId} {memory : Array Instance} {found graph : Graph}
    {unseen stack : List InstanceId} (distinct : unseen.Nodup)
    (ok : explore store memory found unseen stack = .ok graph) :
    ∃ added, graph = found ++ added ∧ Explored store memory unseen stack added := by
  -- The induction follows the exploration itself; what was found stays in front.
  induction found, unseen, stack using explore.induct store memory with
  | case1 found unseen =>
      rw [explore] at ok
      cases ok
      refine ⟨[], by simp, ⟨List.nodup_nil, ?_, ?_, ?_, ?_, ?_, ?_⟩⟩ <;> simp
  | case2 found unseen subject rest member node error failed =>
      rw [explore] at ok
      simp only [member, ↓reduceDIte] at ok
      rw [show (Node.ofMemory memory subject).check store memory = .error error from failed] at ok
      cases ok
  | case3 found unseen subject rest member node checked ih =>
      rw [explore] at ok
      simp only [member, ↓reduceDIte] at ok
      rw [show (Node.ofMemory memory subject).check store memory = .ok () from checked] at ok
      obtain ⟨added, rfl, explored⟩ := ih (distinct.erase subject) ok
      exact ⟨node :: added, by simp [node], .cons distinct member checked explored⟩
  | case4 found unseen subject rest member ih =>
      rw [explore] at ok
      simp only [member, ↓reduceDIte] at ok
      obtain ⟨added, rfl, explored⟩ := ih distinct ok
      exact ⟨added, rfl, .skip member explored⟩

structure Collected (store : StoreId) (memory : Array Instance) (root : InstanceId)
    (graph : Graph) : Prop where
  distinct : graph.subjects.Nodup
  found : ∀ node ∈ graph, node = Node.ofMemory memory node.subject
  checked : ∀ node ∈ graph, node.check store memory = .ok ()
  /-- The members are exactly the instances in memory that the root reaches, as long as
  no instance refers to one that is not in memory. -/
  members : (∀ subject target, Refers memory subject target → target < memory.size) →
    root < memory.size → ∀ subject, subject ∈ graph.subjects ↔ Reaches memory root subject
  inMemory : ∀ node ∈ graph, node.subject < memory.size

theorem collect_ok {store : StoreId} {memory : Array Instance} {root : InstanceId}
    {graph : Graph} (ok : collect store memory root = .ok graph) :
    Collected store memory root graph := by
  obtain ⟨added, rfl, explored⟩ := explore_ok List.nodup_range ok
  refine ⟨explored.distinct, explored.found, explored.checked, ?_, ?_⟩
  · intro known rootKnown subject
    constructor
    · intro member
      obtain ⟨node, nodeMember, rfl⟩ := mem_subjects.mp member
      obtain ⟨start, startMember, reaches⟩ := explored.reached node nodeMember
      rw [List.mem_singleton.mp startMember] at reaches
      exact reaches
    · intro reaches
      induction reaches with
      | refl => exact explored.stacked root List.mem_cons_self (List.mem_range.mpr rootKnown)
      | tail _ refers ih =>
          obtain ⟨node, nodeMember, rfl⟩ := mem_subjects.mp ih
          rename_i target _
          have isTarget : target ∈ node.content.targets := by
            rw [explored.found node nodeMember]
            exact refers
          exact explored.closed node nodeMember target isTarget
            (List.mem_range.mpr (known _ _ refers))
  · intro node nodeMember
    exact List.mem_range.mp (explored.fresh node nodeMember)

/-! ### Places -/

theorem place?_eq_some {graph : Graph} {subject : InstanceId} {place : Nat}
    (placed : graph.place? subject = some place) :
    ∃ node, graph[place]? = some node ∧ node.subject = subject := by
  unfold place? at placed
  obtain ⟨bound, holds, _⟩ := List.findIdx?_eq_some_iff_getElem.mp placed
  exact ⟨graph[place], List.getElem?_eq_getElem bound, by simpa using holds⟩

theorem exists_place {graph : Graph} {subject : InstanceId} (member : subject ∈ graph.subjects) :
    ∃ place, graph.place? subject = some place := by
  obtain ⟨node, nodeMember, same⟩ := mem_subjects.mp member
  cases placed : graph.place? subject with
  | some place => exact ⟨place, rfl⟩
  | none =>
      have apart := List.findIdx?_eq_none_iff.mp placed node nodeMember
      simp [same] at apart

end Graph

end EntityStore

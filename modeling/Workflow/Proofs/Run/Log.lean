import Workflow.Instance.AuditLog
import Workflow.Proofs.Failure.Sequences
import Workflow.Proofs.Run.History

/-!
# What an audit log ends with

The audit log of a snapshot has a line for each visit, so it ends with the line of the occupied
state if the history does (`Instance.Chronicled.endsLog`). No line before it is current, since the
visits there are closed.
-/

namespace Workflow

/-- The log ends with the line of the occupied state, which alone may be current, and is so as long
as the run goes on. -/
def Instance.EndsLog (i : Instance) (log : List LogLine) : Prop :=
  ∃ earlier last, log = earlier ++ [last] ∧ last.state = i.current ∧
    last.isCurrent = i.isRunning ∧ ∀ l ∈ earlier, l.isCurrent = false

theorem LogLine.ofVisit_ok {d : Definition} {i : Instance} {index : Nat} {v : Visit}
    {l : LogLine} (h : LogLine.ofVisit d i index v = .ok l) :
    l.state = v.state ∧ l.isCurrent = (v.isOpen && v.state = i.current && i.isRunning) := by
  unfold LogLine.ofVisit at h
  obtain ⟨duration, -, h⟩ := ok_of_bind h
  cases h
  exact ⟨rfl, rfl⟩

theorem logFrom_cons {d : Definition} {i : Instance} {index : Nat} {v : Visit}
    {rest : List Visit} {log : List LogLine} (h : logFrom d i index (v :: rest) = .ok log) :
    ∃ line lines, LogLine.ofVisit d i index v = .ok line ∧
      logFrom d i (index + 1) rest = .ok lines ∧ log = line :: lines := by
  unfold logFrom at h
  obtain ⟨line, hline, h⟩ := ok_of_bind h
  obtain ⟨lines, hlines, h⟩ := ok_of_bind h
  cases h
  exact ⟨line, lines, hline, hlines, rfl⟩

theorem logFrom_endsLog {d : Definition} {i : Instance} {last : Visit} (ho : last.leftAt = none)
    (hlast : last.state = i.current) {earlier : List Visit}
    (hclosed : ∀ v ∈ earlier, v.leftAt ≠ none) {index : Nat} {log : List LogLine}
    (h : logFrom d i index (earlier ++ [last]) = .ok log) : i.EndsLog log := by
  induction earlier generalizing index log with
  | nil =>
    obtain ⟨line, lines, hline, hlines, rfl⟩ := logFrom_cons h
    cases hlines
    obtain ⟨hstate, hcurrent⟩ := LogLine.ofVisit_ok hline
    refine ⟨[], line, rfl, hstate.trans hlast, ?_, nofun⟩
    rw [hcurrent]
    simp [Visit.isOpen, ho, hlast]
  | cons v rest ih =>
    obtain ⟨hv, hrest⟩ := List.forall_mem_cons.1 hclosed
    obtain ⟨line, lines, hline, hlines, rfl⟩ := logFrom_cons h
    obtain ⟨lines', line', rfl, hstate, hcurrent, hothers⟩ := ih hrest hlines
    refine ⟨line :: lines', line', rfl, hstate, hcurrent, List.forall_mem_cons.2 ⟨?_, hothers⟩⟩
    rw [(LogLine.ofVisit_ok hline).2]
    simp [Visit.isOpen, hv]

/-- The audit log of a snapshot with its history in order ends with the occupied state. -/
theorem Instance.Chronicled.endsLog {d d' : Definition} {i : Instance} {log : List LogLine}
    (h : i.Chronicled d') (hlog : auditLog d i = .ok log) : i.EndsLog log := by
  obtain ⟨last, hlast, ho, hstate⟩ := h.last
  unfold auditLog at hlog
  rw [← List.dropLast_append_getLast? last hlast] at hlog
  exact logFrom_endsLog ho hstate (closed_of_chained h.chained) hlog

end Workflow

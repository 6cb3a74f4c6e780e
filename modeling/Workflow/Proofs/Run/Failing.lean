import Workflow.Graph.Mermaid
import Workflow.Instance.AuditLog
import Workflow.Proofs.Failure.Sequences
import Workflow.Proofs.Run.Stopped
import Workflow.Run.Start

/-!
# How operations fail

What a hook raises becomes part of the snapshot that an operation gives, or it is said by the
question whether an event would be taken that a guard has raised it.

**Escapes** (`Definition.Escapes`). An operation itself fails with what escapes who is to blame a
hook, or where a target is no key. Settling may run out of rounds besides.

**Stray failures** (`Failure.Stray`). So an operation fails with what nobody contains, with a
failure about malformed data, or with a mishap that kept a hook's failure from being told. Where all
these can be told (`Definition.Told`), there are no mishaps.

Main results: `send_escapes`, `canFire_escapes` and `startAndSettle_escapes`. An audit log and a
graph are not to be had of malformed data only (`auditLog_malformed`, `mermaidWith_malformed`).
-/

namespace Workflow

open Activity

/-! ## What escapes from a definition -/

/-- The failure is not contained, is about malformed data, or is the mishap of telling another. -/
def Failure.Stray (f : Failure) : Prop :=
  f.isContained → (∃ flaw, f = .malformed flaw) ∨ ∃ m : Mishap, f = m.toFailure

theorem Failure.stray_of_uncontained {f : Failure} (h : ¬ f.isContained) : f.Stray :=
  fun hf => absurd hf h

namespace Definition

variable {d : Definition} {f : Failure}

theorem target?_malformed {target : Value} (h : d.target? target = .error f) :
    ∃ flaw, f = .malformed flaw := by
  unfold target? at h
  split at h <;> cases h <;> exact ⟨_, rfl⟩

/-- What keeps an operation from an answer: what escapes who is to blame a hook, or a target that is
no key. -/
inductive Escapes (d : Definition) (f : Failure) : Prop
  | raised {h : Hook} {c : Context} {e : Failure} :
      d.HasHook h → (h.call c).CanEnd (.error e) → e.escape = some f → Escapes d f
  | unkeyed {key : String} {s : State} {t : Transition} :
      d.state? key = some s → t ∈ s.transitions → d.target? t.target = .error f → Escapes d f

/-- The failures of all hooks can be told, if they are contained at all. -/
def Told (d : Definition) : Prop :=
  ∀ h, d.HasHook h → ∀ c, FailsAs (fun f => f.isContained → f.untold = none) (h.call c)

theorem Escapes.stray (h : d.Escapes f) : f.Stray := by
  intro hf
  cases h with
  | @raised _ _ e _ _ hescape =>
    unfold Failure.escape at hescape
    split at hescape
    · obtain ⟨m, -, rfl⟩ := Option.map_eq_some_iff.1 hescape
      exact .inr ⟨m, rfl⟩
    next huncontained =>
      cases hescape
      exact absurd hf huncontained
  | unkeyed _ _ hf => exact .inl (target?_malformed hf)

/-- Where failures can be told, only a target lets a contained failure out. -/
theorem Told.malformed (hd : d.Told) (h : d.Escapes f) (hf : f.isContained) :
    ∃ flaw, f = .malformed flaw := by
  cases h with
  | @raised h c e hh hcall hescape =>
    unfold Failure.escape at hescape
    split at hescape
    next hcontained =>
      rw [hd h hh c e hcall hcontained] at hescape
      cases hescape
    next huncontained =>
      cases hescape
      exact absurd hf huncontained
  | unkeyed _ _ hf => exact target?_malformed hf

end Definition

namespace Instance

variable {d : Definition} {i j : Instance} {t : Transition} {ts : List Transition} {event : Value}
  {limits : Limits}

/-! ## Hooks -/

theorem passes_escapes (ht : ∀ h, t.guard = some h → d.HasHook h) :
    FailsAs d.Escapes (i.passes t) := by
  unfold passes
  split
  · exact .done _
  next guard hg =>
  refine FailsAs.bind (FailsAs.caught ?_) fun _ _ => .done _
  intro f hf g hescape
  rcases canEnd_bind.1 hf with ⟨answer, -, e, htruth⟩ | ⟨f', hcall, heq⟩
  · -- Nothing escapes where an answer is neither true nor false.
    cases answer with
    | datum x => cases htruth
    | untestable message =>
      cases htruth
      cases hescape
  · cases heq
    exact .raised (ht guard hg) hcall hescape

theorem select_escapes (hts : ∀ t ∈ ts, ∀ h, t.guard = some h → d.HasHook h) :
    FailsAs d.Escapes (i.select ts) := by
  induction ts with
  | nil => exact .done _
  | cons t rest ih =>
    obtain ⟨ht, hrest⟩ := List.forall_mem_cons.1 hts
    refine (passes_escapes ht).whenOk fun passed => ?_
    cases passed with
    | true => exact .done _
    | false => exact ih hrest

theorem runHook_escapes {role : HookRole} {state : String} {hook : Option Hook}
    (hh : ∀ h, hook = some h → d.HasHook h) :
    FailsAs d.Escapes (i.runHook role state hook j) := by
  cases hook with
  | none => exact .done _
  | some hook =>
    refine FailsAs.bind (FailsAs.caught ?_) fun _ _ => .done _
    exact fun f hf g hescape => .raised (hh hook rfl) hf hescape

/-! ## Steps -/

theorem log_never {F : Failure → Prop} (level : Level) (message : String) :
    FailsAs F (log level message) :=
  fun _ h => nomatch h

theorem readClock_never {F : Failure → Prop} : FailsAs F readClock := fun _ ⟨_, h⟩ => nomatch h

/-- **A move along a choice** lets out what a hook of the definition does, or the target. -/
theorem Choice.move_escapes (hc : Choice d i event t) : FailsAs d.Escapes (move d i t event) := by
  obtain ⟨source, hs, hmem, -⟩ := hc.source
  unfold move
  rw [hs]
  dsimp only
  split
  next f hf =>
    intro f' hf'
    cases hf'
    exact .unkeyed hs hmem hf
  · exact .done _
  next target htarget =>
  obtain ⟨key, -, hkey⟩ := Definition.target?_some htarget
  refine FailsAs.bind ?_ fun _ _ => .done _
  refine (runHook_escapes fun _ => .exit hs).whenOk fun _ => ?_
  refine (runHook_escapes fun _ => .action hs hmem).whenOk fun _ => ?_
  refine readClock_never.bind fun moment _ => (log_never _ _).bind fun _ _ => ?_
  exact (runHook_escapes fun _ => .entry hkey).whenOk fun _ => .done _

theorem markFailed_never {F : Failure → Prop} (i : Instance) (s : Setback) :
    FailsAs F (i.markFailed s) :=
  fun _ h => nomatch canEnd_markFailed.1 h

theorem rest_never {F : Failure → Prop} (i : Instance) (steps : Nat) : FailsAs F (i.rest steps) := by
  unfold rest
  split
  · exact (log_never _ _).bind fun _ _ => .done _
  · exact .done _

/-! ## Operations -/

/-- **Settling** may run out of rounds besides. -/
theorem settleFrom_escapes (d : Definition) (bound : Option Int) (rounds steps : Nat)
    (i : Instance) :
    FailsAs (fun f => f = .exhausted ∨ d.Escapes f) (settleFrom d bound rounds steps i) := by
  induction rounds generalizing steps i with
  | zero =>
    intro f hf
    exact .inl (Except.error.inj hf)
  | succ rounds ih =>
    unfold settleFrom
    split
    · exact rest_never i steps
    next hr =>
    have hr : i.status = .running := by simpa using hr
    split
    · exact markFailed_never i _
    next source hs =>
    split
    · exact rest_never i steps
    have hchoice : ∀ t ∈ source.autoTransitions, Choice d i .null t :=
      fun t ht => .auto hr hs (by simp_all) ht
    have hselect : FailsAs d.Escapes (i.select source.autoTransitions) :=
      select_escapes fun t ht _ => (hchoice t ht).guard
    refine FailsAs.bind (fun f hf => .inr (hselect f hf)) fun r hsel => ?_
    rcases r with h | _ | t
    · exact markFailed_never i _
    · exact rest_never i steps
    dsimp only
    split
    · exact markFailed_never i _
    have hmove := (hchoice t (select_mem hsel)).move_escapes
    refine FailsAs.bind (fun f hf => .inr (hmove f hf)) fun r _ => ?_
    cases r with
    | error s => exact markFailed_never i s
    | ok next => exact ih (steps + 1) next

theorem select_candidates_escapes (d : Definition) (i : Instance) (event : String) :
    FailsAs d.Escapes (i.select (i.candidates d event)) :=
  select_escapes fun _ ht _ => (Choice.of_candidate ht).guard

/-- **What an event fails with.** -/
theorem send_escapes (d : Definition) (limits : Limits) (i : Instance) (event : String) :
    FailsAs (fun f => f = .exhausted ∨ d.Escapes f) (i.send d limits event) := by
  obtain ⟨idle, hidle, hsend⟩ := send_eq d limits i event
  rw [hsend]
  refine FailsAs.bind (fun f hf => .inr (select_candidates_escapes d i event f hf)) fun r hsel => ?_
  rcases r with h | _ | t
  · exact (markFailed_never i _).bind fun _ _ => .done _
  · exact hidle.never
  have hmove := (Choice.of_candidate (select_mem hsel)).move_escapes
  refine FailsAs.bind (fun f hf => .inr (hmove f hf)) fun r _ => ?_
  cases r with
  | error s => exact (markFailed_never i s).bind fun _ _ => .done _
  | ok next => exact (settleFrom_escapes _ _ _ _ _).bind fun _ _ => .done _

/-- **What the question fails with whether an event would be taken**: with what a guard raised,
which it says, or with what escapes. -/
theorem canFire_escapes (d : Definition) (i : Instance) (event : String) :
    FailsAs (fun f => (∃ role state cause, f = .hookFailed role state cause) ∨ d.Escapes f)
      (i.canFire d event) := by
  rw [canFire_eq]
  refine FailsAs.bind (fun f hf => .inr (select_candidates_escapes d i event f hf)) fun r _ => ?_
  cases r with
  | ok selected => exact .done _
  | error h =>
    intro f hf
    cases hf
    exact .inl ⟨_, _, _, rfl⟩

end Instance

/-- **What a start fails with.** -/
theorem Definition.startAndSettle_escapes (d : Definition) (limits : Limits) (c : Context)
    (id : Option String) :
    FailsAs (fun f => f = .exhausted ∨ d.Escapes f) (d.startAndSettle limits c id) := by
  have hid : ∀ {F}, FailsAs F (idOrIssued id) := by
    cases id with
    | none => exact fun _ ⟨_, h⟩ => nomatch h
    | some id => exact .done _
  have hstart : ∀ {F}, FailsAs F (d.start c id) :=
    hid.bind fun _ _ => Instance.readClock_never.bind fun _ _ =>
      (Instance.log_never _ _).bind fun _ _ => .done _
  exact hstart.bind fun i _ => Instance.settleFrom_escapes _ _ _ _ _

section Operations

variable {d : Definition} {f : Failure}

theorem Definition.stray_of_escapes (h : f = .exhausted ∨ d.Escapes f) : f.Stray := by
  rcases h with rfl | h
  · exact Failure.stray_of_uncontained nofun
  · exact h.stray

theorem Definition.Told.malformed_of_escapes (hd : d.Told) (h : f = .exhausted ∨ d.Escapes f)
    (hf : f.isContained) : ∃ flaw, f = .malformed flaw := by
  rcases h with rfl | h
  · cases hf
  · exact hd.malformed h hf

end Operations

/-! ## Views -/

section Views

variable {f : Failure} {d : Definition}

theorem LogLine.ofVisit_malformed {i : Instance} {index : Nat} {v : Visit}
    (h : ofVisit d i index v = .error f) : ∃ flaw, f = .malformed flaw := by
  rcases error_of_bind h with h | ⟨x, h⟩
  rotate_left
  · cases h
  unfold duration? at h
  split at h
  · cases h
  split at h
  · split at h <;> cases h
    exact ⟨_, rfl⟩
  · cases h
    exact ⟨_, rfl⟩

/-- **An audit log cannot be read of malformed timestamps only.** -/
theorem auditLog_malformed {i : Instance} (h : auditLog d i = .error f) :
    ∃ flaw, f = .malformed flaw := by
  have hfrom : ∀ (visits : List Visit) index, logFrom d i index visits = .error f →
      ∃ flaw, f = .malformed flaw := by
    intro visits
    induction visits with
    | nil => exact fun _ h => nomatch h
    | cons v rest ih =>
      intro index h
      rcases error_of_bind h with hline | ⟨l, h⟩
      · exact LogLine.ofVisit_malformed hline
      rcases error_of_bind h with hrest | ⟨lines, h⟩
      · exact ih (index + 1) hrest
      · cases h
  exact hfrom i.history 0 h

/-- **A graph cannot be drawn of malformed labels only.** -/
theorem Definition.mermaidWith_malformed {p : Progress} (h : d.mermaidWith p = .error f) :
    ∃ flaw, f = .malformed flaw := by
  rcases error_of_bind h with h | ⟨text, h⟩
  rotate_left
  · cases h
  rcases error_of_bind h with h | ⟨lines, h⟩
  rotate_left
  · cases h
  rcases error_of_bind h with h | ⟨lines, h⟩
  rotate_left
  · cases h
  obtain ⟨⟨source, t⟩, -, hline⟩ := error_of_mapM h
  rcases error_of_bind hline with htext | ⟨text, h⟩
  · unfold Transition.arrowText at htext
    split at htext <;> cases htext <;> exact ⟨_, rfl⟩
  · cases h

end Views

end Workflow

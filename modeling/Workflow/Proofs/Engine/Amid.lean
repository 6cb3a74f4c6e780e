import Workflow.Proofs.Engine.Chronicle
import Workflow.Proofs.Engine.WellKept
import Workflow.Proofs.Run.Failing
import Workflow.Proofs.Schedule.Unbroken

/-!
# How calls end amid others

While a call is under way others start and change what they like, but nothing that is stored is
removed (`Engine.Onward`). So a call that has found its instance does not lose it.

**Work** (`Engine.Worked`). A served call finds its definition when it begins, and its snapshot when
it has got the lock; what it ends with comes of the work on this snapshot.

Main results: `start_amid`, `send_amid`, `canFire_amid` and `replaceContext_amid`. Where a call does
not find what it is about, or finds it taken or finished, it ends with the failure that says so.
Hooks cannot make it end with such a failure (`Failure.Stray`), those of a start if their failures
can be told (`Definition.Told`).
-/

namespace Workflow

open Activity

namespace Engine

variable {reading : Nat → Instant} {w v : EngineState} {id : String} {e : Engine} {α β : Type}

theorem endsAmid_known {others : EngineState → EngineState → Prop}
    {table : EngineState → Dict String α} {r : Except Failure α}
    (h : (known id table).EndsAmid others w r v) :
    v = w ∧ ((∃ a, (table w).get? id = some a ∧ r = .ok a) ∨
      (table w).get? id = none ∧ r = .error (.instanceNotFound id)) := by
  unfold known Activity.EndsAmid at h
  dsimp only at h
  split at h
  next a ha => exact ⟨h.2, .inl ⟨a, ha, h.1⟩⟩
  next hnone => exact ⟨h.2, .inr ⟨hnone, h.1⟩⟩

/-- What is stored is known. -/
theorem endsAmid_known_bind {others : EngineState → EngineState → Prop}
    {table : EngineState → Dict String α} {g : α → Call β} {r : Except Failure β}
    (hstored : ∃ a, (table w).get? id = some a)
    (h : ((known id table).bind g).EndsAmid others w r v) :
    ∃ a, (table w).get? id = some a ∧ (g a).EndsAmid others w r v := by
  obtain ⟨a, ha⟩ := hstored
  rcases endsAmid_bind.1 h with ⟨a', u, hknown, hg⟩ | ⟨f, hknown, -⟩
  · obtain ⟨hu, ⟨a'', hfound, heq⟩ | ⟨hnone, -⟩⟩ := endsAmid_known hknown
    · cases heq
      exact ⟨a', hfound, hu ▸ hg⟩
    · cases hnone.symm.trans ha
  · obtain ⟨-, ⟨a', -, heq⟩ | ⟨hnone, -⟩⟩ := endsAmid_known hknown
    · cases heq
    · cases hnone.symm.trans ha

/-! ## Served calls -/

/-- What comes of work on a snapshot, from the world in which the lock was got. -/
inductive Worked (others : EngineState → EngineState → Prop) (id : String)
    (work : Activity Realm.flow β) (after : β → Option Instance) (u : EngineState) :
    Except Failure β → EngineState → Prop
  | failed {f : Failure} {x : EngineState} : (within work).EndsAmid others u (.error f) x →
      Worked others id work after u (.error f) x
  | kept {b : β} {x : EngineState} : (within work).EndsAmid others u (.ok b) x → after b = none →
      Worked others id work after u (.ok b) x
  | stored {b : β} {j : Instance} {x : EngineState} : (within work).EndsAmid others u (.ok b) x →
      after b = some j → Worked others id work after u (.ok b) (x.setInstance id j)

/-- The work of a served call under its lock. -/
def working (id : String) (work : Instance → Activity Realm.flow β) (after : β → Option Instance) :
    Call β :=
  (instanceOf id).bind fun before =>
  (within (work before)).bind fun b =>
  match after b with
  | some j => .update (EngineState.setInstance id j) (.done b)
  | none => .done b

variable {others : EngineState → EngineState → Prop} {after : β → Option Instance}
  {r : Except Failure β}

theorem working_amid {work : Instance → Activity Realm.flow β} {before : Instance}
    (hbefore : w.instances.get? id = some before)
    (h : (working id work after).EndsAmid others w r v) :
    Worked others id (work before) after w r v := by
  obtain ⟨i, hi, hwork⟩ := endsAmid_known_bind ⟨before, hbefore⟩ h
  cases hbefore.symm.trans hi
  rcases endsAmid_bind.1 hwork with ⟨b, x, hb, hafter⟩ | ⟨f, hf, rfl⟩
  rotate_left
  · exact .failed hf
  split at hafter
  next j hj =>
    obtain ⟨rfl, rfl⟩ := hafter
    exact .stored hb hj
  next hnone =>
    obtain ⟨rfl, rfl⟩ := hafter
    exact .kept hb hnone

/-- **A served call whose instance is stored** comes to work on it. -/
theorem served_amid {work : Definition → Instance → Activity Realm.flow β} (hstored : w.Stores id)
    (h : (served id work after).EndsAmid (Onward reading) w r v) :
    ∃ d u before, w.definitions.get? id = some d ∧ Onward reading w u ∧
      u.instances.get? id = some before ∧
      Worked (Onward reading) id (work d before) after u r v := by
  obtain ⟨d, hd, hlocked⟩ := endsAmid_known_bind hstored.definition h
  obtain ⟨u, hu, hserved⟩ := hlocked.locked
  obtain ⟨before, hbefore⟩ := (hu.stores id hstored).snapshot
  exact ⟨d, u, before, hd, hu, hbefore, working_amid hbefore hserved⟩

/-! ## Events -/

theorem tellAll_uncontained (send : String → String → Call Dispatch) (n : Notice)
    (names : List String) : FailsAs (¬ ·.isContained) (e.tellAll send n names) := by
  induction names with
  | nil => exact .done ()
  | cons name rest ih =>
    refine (FailsAs.contained (fun _ h => h) _).bind fun r _ => ?_
    cases r with
    | ok u => exact ih
    | error f => exact fun f hf => ih f hf

/-- Telling observers fails with nothing that can be contained. -/
theorem announce_uncontained (send : String → String → Call Dispatch) (event : String)
    (before : Instance) (out : Dispatch) :
    FailsAs (¬ ·.isContained) (e.announce send event before out) := by
  unfold announce
  split
  · exact fun f ⟨w, hf⟩ => tellAll_uncontained send _ _ f hf
  · exact .done ()

theorem dispatching_strays (e : Engine) (event : String) (d : Definition) (i : Instance) :
    FailsAs Failure.Stray (e.dispatching event d i) :=
  ((Instance.send_escapes d e.limits i event).mono fun _ => Definition.stray_of_escapes).bind
    fun _ _ => .done _

/-- What is known when an event to a stored instance has been sent. -/
structure SentAmid (id : String) (r : Except Failure Dispatch) (v : EngineState) : Prop where
  stores : v.Stores id
  reached : ∀ out, r = .ok out → out.reached.id = id
  strays : ∀ f, r = .error f → f.Stray

/-- **An event to a stored instance** fails, if at all, in a way that says nothing of hooks. -/
theorem send_amid {event : String} {r : Except Failure Dispatch} (hkept : w.WellKept reading)
    (hstored : w.Stores id) (h : (e.send id event).EndsAmid (Onward reading) w r v) :
    SentAmid id r v where
  stores :=
    have hsteady := (stores_custody id).send (e := e) id event
    (hsteady.endsAmid (fun _ _ hothers => hothers.stores id) hstored h).1
  reached out hout := by
    have hsteady := (wellKept_custody reading).send (e := e) id event
    have hheld := (hsteady.endsAmid (fun _ _ hothers => hothers.kept) hkept h).2 out hout
    exact hheld.1.id
  strays f hf := by
    subst hf
    rcases endsAmid_bind.1 h with ⟨⟨before, out⟩, u, -, h⟩ | ⟨f', hdispatch, heq⟩
    · refine Failure.stray_of_uncontained ?_
      rcases endsAmid_bind.1 h with ⟨_, x, -, hdone⟩ | ⟨f', hannounce, heq⟩
      · cases hdone.1
      · cases heq
        exact announce_uncontained _ _ _ _ f hannounce.canEnd
    · cases heq
      rw [dispatch_eq] at hdispatch
      obtain ⟨d, u, before, -, -, -, hworked⟩ := served_amid hstored hdispatch
      cases hworked with
      | failed hwork => exact dispatching_strays e event d before f (canEnd_lift hwork.canEnd)

/-- **The question whether a stored instance would take an event** fails with what a guard has
raised, and says so, or in a way that says nothing of hooks. -/
theorem canFire_amid {event : String} {r : Except Failure Bool} (hstored : w.Stores id)
    (h : (e.canFire id event).EndsAmid (Onward reading) w r v) {f : Failure} (hf : r = .error f) :
    (∃ role state cause, f = .hookFailed role state cause) ∨ f.Stray := by
  subst hf
  rw [canFire_eq] at h
  obtain ⟨d, u, before, -, -, -, hworked⟩ := served_amid hstored h
  cases hworked with
  | failed hwork =>
    have hends := canEnd_lift hwork.canEnd
    exact (Instance.canFire_escapes d before event f hends).imp_right Definition.Escapes.stray

/-! ## Contexts -/

/-- What is known when the context of an instance was to be changed, and the call had its lock from
the world `u` on: the snapshot that is stored in the end tells whether the run was finished. -/
structure RecontextedAmid (id : String) (u : EngineState) (i : Instance)
    (r : Except Failure Instance) (v : EngineState) : Prop where
  definitions : v.definitions = u.definitions
  snapshot : v.instances.get? id = some i
  finished : ¬ i.isRunning → r = .error (.alreadyFinished id i.status.word)
  reached : ∀ j, r = .ok j → j.id = i.id
  strays : i.isRunning → ∀ f, r = .error f → f.Stray

/-- Work on a context that nobody comes into, and that fails in no way that says something of
hooks. -/
structure Plain (f : Context → Activity Realm.flow Context) : Prop where
  unbroken : ∀ c env, (f c).Unbroken env
  strays : ∀ c, FailsAs Failure.Stray (f c)

variable {f : Context → Activity Realm.flow Context} {r : Except Failure Instance} {i : Instance}

/-- **Under its lock a change of the context** finds the run finished, or does its work. -/
theorem recontexting_amid (hf : Plain f) (hi : w.instances.get? id = some i)
    (h : (working id (recontexting id f) some).EndsAmid others w r v) :
    ∃ j, RecontextedAmid id w j r v ∧ j.isRunning = i.isRunning ∧ j.id = i.id := by
  have hworked := working_amid hi h
  have hunbroken : (within (recontexting id f i)).Unbroken w := by
    refine Unbroken.lift (fun _ _ => rfl) ?_
    unfold recontexting
    split
    · exact (hf.unbroken i.ctx _).bind fun _ _ => trivial
    · trivial
  -- Nobody comes in, so that the tables are as they were when the lock was got.
  have hsame : ∀ {r x}, (within (recontexting id f i)).EndsAmid others w r x →
      x.instances = w.instances ∧ x.definitions = w.definitions := by
    intro r x hx
    rw [(hunbroken.endsAmid hx).2, (within_run _ w).2]
    exact ⟨rfl, rfl⟩
  cases hworked with
  | @failed f' _ hwork =>
    obtain ⟨hinstances, hdefinitions⟩ := hsame hwork
    have hsnapshot : v.instances.get? id = some i := by
      rw [hinstances, hi]
    have hfails := canEnd_lift hwork.canEnd
    unfold recontexting at hfails
    split at hfails
    next hrunning =>
      refine ⟨i, ⟨hdefinitions, hsnapshot, absurd hrunning, nofun, fun _ f'' hf'' => ?_⟩, rfl, rfl⟩
      cases hf''
      exact ((hf.strays i.ctx).bind fun _ _ => .done _) f' hfails
    next hfinished =>
      cases hfails
      refine ⟨i, ⟨hdefinitions, hsnapshot, fun _ => rfl, nofun, ?_⟩, rfl, rfl⟩
      exact fun hrunning => absurd hrunning hfinished
  | kept _ hnone => cases hnone
  | @stored b j x hwork hj =>
    cases hj
    have hends := canEnd_lift hwork.canEnd
    unfold recontexting at hends
    split at hends
    next hrunning =>
      obtain ⟨c, -, hb⟩ := canEnd_bind_ok hends
      cases hb
      refine ⟨{ i with ctx := c }, ⟨(hsame hwork).2, ?_, absurd hrunning, ?_, nofun⟩, rfl, rfl⟩
      · unfold EngineState.setInstance
        rw [Dict.get?_insert, if_pos rfl]
      · rintro j ⟨⟩
        rfl
    next => cases hends

/-- **A change of the context of a stored instance**, by plain work. -/
theorem replaceContext_amid (hf : Plain f) (hkept : w.WellKept reading) (hstored : w.Stores id)
    (h : (replaceContext id f).EndsAmid (Onward reading) w r v) :
    ∃ u i, RecontextedAmid id u i r v ∧ i.id = id ∧ v.Stores id := by
  rw [replaceContext_eq] at h
  obtain ⟨d, -, hlocked⟩ := endsAmid_known_bind hstored.definition h
  obtain ⟨u, hu, hserved⟩ := hlocked.locked
  obtain ⟨⟨before, hbefore⟩, hdefinition⟩ := hu.stores id hstored
  obtain ⟨i, hi, -, hid⟩ := recontexting_amid hf hbefore hserved
  refine ⟨u, i, hi, hid.trans ((hu.kept hkept).held id before hbefore).1.id, ⟨i, hi.snapshot⟩, ?_⟩
  rw [hi.definitions]
  exact hdefinition

/-! ## Starts -/

theorem endsAmid_askRegistry {q : Registry → Except Failure α} {r : Except Failure α} :
    (askRegistry q).EndsAmid others w r v ↔ r = q w.registry ∧ v = w :=
  endsAmid_ofExcept

/-- The world in which a start looks whether its id is taken. -/
theorem endsAmid_idOrIssued {given : Option String} {r : Except Failure String}
    (h : (within (idOrIssued given)).EndsAmid others w r v) :
    r = .ok (given.getD (issuedId (w.env.issued + 1))) ∧ v.registry = w.registry ∧
      v.reserved = w.reserved := by
  cases given with
  | none =>
    obtain ⟨rfl, rfl⟩ := h
    exact ⟨rfl, rfl, rfl⟩
  | some id =>
    obtain ⟨rfl, rfl⟩ := h
    exact ⟨rfl, rfl, rfl⟩

/-- What is known when a start of a definition under an id that was free has ended. -/
structure StartedAmid (d : Definition) (r : Except Failure Instance) (v : EngineState) : Prop where
  stores : ∀ i, r = .ok i → v.Stores i.id
  malformed : d.Told → ∀ f, r = .error f → f.isContained → ∃ flaw, f = .malformed flaw

theorem startReserved_amid {d : Definition} {c : Option Context}
    (h : (e.startReserved d c id).EndsAmid others w r v) : StartedAmid d r v := by
  have hstart : FailsAs (fun f => f = .exhausted ∨ d.Escapes f) (within ((contextOrNew c).bind
      fun c => d.startAndSettle e.limits c (some id))) := by
    refine FailsAs.lift (FailsAs.bind ?_ fun c _ => d.startAndSettle_escapes e.limits c (some id))
    cases c with
    | none => exact fun _ ⟨_, h⟩ => nomatch h
    | some c => exact .done c
  rcases endsAmid_bind.1 h with ⟨i, u, hi, hdone⟩ | ⟨f, hf, rfl⟩
  · obtain ⟨rfl, rfl⟩ := hdone
    refine ⟨fun j hj => ?_, fun _ => nofun⟩
    cases hj
    obtain ⟨x, hx, hok⟩ := canEnd_bind_ok hi.canEnd
    obtain ⟨r', hr', heq⟩ := canEnd_attempt.1 hx
    cases heq
    cases x with
    | error f => cases hok
    | ok j =>
      cases hok
      obtain ⟨c, -, hsettled⟩ := canEnd_bind_ok (canEnd_lift hr')
      rw [(Instance.Held.started hsettled).id]
      unfold EngineState.store
      refine ⟨⟨i, ?_⟩, ⟨d, ?_⟩⟩ <;> rw [Dict.get?_insert, if_pos rfl]
  · refine ⟨nofun, fun hd f' hf' => ?_⟩
    cases hf'
    exact hd.malformed_of_escapes (hstart.orElseUndo _ f hf.canEnd)

/-- How a start ends that begins in the world `w`. -/
structure StartAmid (name version : Value) (given : Option String) (w : EngineState)
    (r : Except Failure Instance) (v : EngineState) : Prop where
  unknown : ∀ f, w.registry.find name version = .error f → r = .error f
  taken : ∀ d, w.registry.find name version = .ok d →
    given.getD (issuedId (w.env.issued + 1)) ∈ w.reserved →
    r = .error (idTaken (given.getD (issuedId (w.env.issued + 1))))
  free : ∀ d, w.registry.find name version = .ok d →
    given.getD (issuedId (w.env.issued + 1)) ∉ w.reserved → StartedAmid d r v

/-- **A start** fails where its workflow is not found or its id is taken; else hooks whose failures
can be told cannot make it fail in such a way. -/
theorem start_amid {name version : Value} {given : Option String} {c : Option Context}
    (h : (e.start name version c given).EndsAmid others w r v) :
    StartAmid name version given w r v := by
  rcases endsAmid_bind.1 h with ⟨d, w', hask, hgo⟩ | ⟨f, hask, rfl⟩
  rotate_left
  · obtain ⟨hfind, -⟩ := endsAmid_askRegistry.1 hask
    refine ⟨fun f' hf' => ?_, fun d hd => ?_, fun d hd => ?_⟩
    · cases hfind.trans hf'
      rfl
    · cases hfind.trans hd
    · cases hfind.trans hd
  obtain ⟨hfind, rfl⟩ := endsAmid_askRegistry.1 hask
  rcases endsAmid_bind.1 hgo with ⟨id, u, hid, hlook⟩ | ⟨f, hf, -⟩
  rotate_left
  · cases (endsAmid_idOrIssued hf).1
  obtain ⟨heq, -, hreserved⟩ := endsAmid_idOrIssued hid
  cases heq
  change Activity.EndsAmid others (if _ ∈ u.reserved then _ else _) u r v at hlook
  rw [hreserved] at hlook
  refine ⟨fun f hf => ?_, fun d' _ htaken => ?_, fun d' hd' hfree => ?_⟩
  · cases hfind.trans hf
  · rw [if_pos htaken] at hlook
    exact hlook.1
  · cases hfind.trans hd'
    rw [if_neg hfree] at hlook
    exact startReserved_amid hlook

end Engine

end Workflow

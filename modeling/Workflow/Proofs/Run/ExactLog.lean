import Mathlib.Algebra.Ring.Int.Defs
import Workflow.Proofs.Run.Log
import Workflow.Proofs.Run.Readings
import Workflow.Proofs.Time.Written

/-!
# The audit log is exact

The audit log of an instance tells, line by line, what its history and the clock say.

**Durations** (`Instant.spans`). The time between entering a state and leaving it is taken from two
texts. Both are texts of readings of the clock, since a visit is left at the reading at which the
next one begins, and the text of a reading reads back as that reading; so the difference is exact
to the microsecond, also when the clock goes backwards.

**What a line shows** (`LogLine.Shows`). Position and visit, and label and kind from the definition.

Main result: `auditLog_exact`. The log is there, has a line for each visit, and its durations are
the differences of successive readings, so they add up to the time between the first and the last
(`spans_sum`).
-/

namespace Workflow

open Activity Instance

/-- The microseconds from each instant to the next. -/
def Instant.spans : List Instant → List Int
  | [] => []
  | t :: rest =>
    match rest with
    | [] => []
    | u :: _ => (u.micros - t.micros) :: spans rest

/-- The differences add up to that of the last and the first. -/
theorem Instant.spans_sum {moments : List Instant} {first last : Instant}
    (hfirst : moments.head? = some first) (hlast : moments.getLast? = some last) :
    (spans moments).sum = last.micros - first.micros := by
  induction moments generalizing first with
  | nil => cases hfirst
  | cons t rest ih =>
    cases hfirst
    cases rest with
    | nil =>
      cases hlast
      exact (Int.sub_self _).symm
    | cons u rest =>
      rw [List.getLast?_cons_cons] at hlast
      have hrest : (spans (u :: rest)).sum = last.micros - u.micros := ih rfl hlast
      show (u.micros - t.micros) + (spans (u :: rest)).sum = last.micros - t.micros
      omega

variable {d d' : Definition} {i : Instance} {before after e : Environment} {index : Nat}

/-! ## Lines -/

/-- A line shows a visit at a position, with what the definition says about its state. -/
structure LogLine.Shows (d : Definition) (index : Nat) (v : Visit) (l : LogLine) : Prop where
  index : l.index = index
  state : l.state = v.state
  label : l.label = match d.state? v.state with | some s => s.label | none => .null
  kind : l.kind = match d.state? v.state with | some s => s.kind | none => .task
  enteredAt : l.enteredAt = v.enteredAt
  leftAt : l.leftAt = v.leftAt
  event : l.event = v.event
  transition : l.transition = v.transition

/-- A visit has its line as soon as its duration can be told. -/
theorem LogLine.ofVisit_of_duration (d : Definition) (i : Instance) (index : Nat) {v : Visit}
    {x : Option Int} (h : duration? v = .ok x) :
    ∃ l, ofVisit d i index v = .ok l ∧ l.Shows d index v ∧ l.duration = x := by
  unfold ofVisit
  rw [h]
  refine ⟨_, rfl, ⟨rfl, rfl, ?_, ?_, rfl, rfl, rfl, rfl⟩, rfl⟩
  · cases d.state? v.state <;> rfl
  · cases d.state? v.state <;> rfl

theorem LogLine.duration?_of_open {v : Visit} (h : v.leftAt = none) : duration? v = .ok none := by
  unfold duration?
  rw [h]

/-- A visit between two readings takes their difference. -/
theorem LogLine.duration?_of_left {v : Visit} {t u : Instant} (ht : t.Writable) (hu : u.Writable)
    (hentered : v.enteredAt = t.text) (hleft : v.leftAt = some u.text) :
    duration? v = .ok (some (u.micros - t.micros)) := by
  unfold duration?
  rw [hleft, hentered]
  dsimp only
  rw [Instant.read?_text ht, Instant.read?_text hu]
  dsimp only
  rw [Instant.since?_text]

/-! ## Logs -/

/-- The lines show the visits, numbered from a position on. -/
def ShowAll (d : Definition) (index : Nat) (visits : List Visit) (log : List LogLine) : Prop :=
  log.length = visits.length ∧
    ∀ k v, visits[k]? = some v → ∃ l : LogLine, log[k]? = some l ∧ l.Shows d (index + k) v

theorem ShowAll.cons {v : Visit} {rest : List Visit} {l : LogLine} {log : List LogLine}
    (hl : l.Shows d index v) (h : ShowAll d (index + 1) rest log) :
    ShowAll d index (v :: rest) (l :: log) := by
  refine ⟨congrArg (· + 1) h.1, fun k u hu => ?_⟩
  cases k with
  | zero =>
    cases hu
    exact ⟨l, rfl, hl⟩
  | succ k =>
    obtain ⟨l', hl', hshows⟩ := h.2 k u hu
    exact ⟨l', hl', Nat.add_right_comm index 1 k ▸ hshows⟩

theorem logFrom_cons_ok {v : Visit} {rest : List Visit} {l : LogLine} {log : List LogLine}
    (hl : LogLine.ofVisit d i index v = .ok l) (h : logFrom d i (index + 1) rest = .ok log) :
    logFrom d i index (v :: rest) = .ok (l :: log) := by
  unfold logFrom
  rw [hl, h]
  rfl

/-- **Visits in order, at readings that can be written, have their lines.** -/
theorem logFrom_exact {visits : List Visit} {moments : List Instant}
    (hne : visits ≠ []) (hentered : visits.map (·.enteredAt) = moments.map Instant.text)
    (hwritable : ∀ t ∈ moments, t.Writable)
    (hchain : visits.IsChain fun u v => u.leftAt = some v.enteredAt)
    (hlast : ∀ v, visits.getLast? = some v → v.leftAt = none) :
    ∃ log, logFrom d i index visits = .ok log ∧ ShowAll d index visits log ∧
      log.map (·.duration) = (Instant.spans moments).map some ++ [none] := by
  induction visits generalizing index moments with
  | nil => exact absurd rfl hne
  | cons v rest ih =>
    obtain _ | ⟨t, moments⟩ := moments
    · cases hentered
    obtain ⟨hv, hrest⟩ := List.cons.inj hentered
    obtain ⟨ht, hmoments⟩ := List.forall_mem_cons.1 hwritable
    cases rest with
    | nil =>
      obtain rfl : moments = [] := List.map_eq_nil_iff.1 hrest.symm
      have hopen : LogLine.duration? v = .ok none := LogLine.duration?_of_open (hlast v rfl)
      obtain ⟨l, hl, hshows, hduration⟩ := LogLine.ofVisit_of_duration d i index hopen
      refine ⟨[l], logFrom_cons_ok hl rfl, .cons hshows ⟨rfl, nofun⟩, ?_⟩
      rw [List.map_singleton, hduration]
      rfl
    | cons w rest =>
      obtain _ | ⟨u, moments⟩ := moments
      · cases hrest
      obtain ⟨hlink, hchain⟩ := List.isChain_cons_cons.1 hchain
      have hw : w.enteredAt = u.text := (List.cons.inj hrest).1
      have hleft : LogLine.duration? v = .ok (some (u.micros - t.micros)) :=
        LogLine.duration?_of_left ht (hmoments u List.mem_cons_self) hv (hw ▸ hlink)
      obtain ⟨l, hl, hshows, hduration⟩ := LogLine.ofVisit_of_duration d i index hleft
      obtain ⟨log, hlog, hall, hdurations⟩ := ih (List.cons_ne_nil w rest) hrest hmoments hchain
        fun v' hv' => hlast v' (List.getLast?_cons_cons.trans hv')
      refine ⟨l :: log, logFrom_cons_ok hl hlog, hall.cons hshows, ?_⟩
      rw [List.map_cons, hduration, hdurations]
      rfl

/-! ## Whole lives -/

/-- What the audit log of an instance tells, given the moments at which its visits began. -/
structure Instance.ExactLog (d : Definition) (i : Instance) (moments : List Instant)
    (log : List LogLine) : Prop where
  /-- There is a line for each visit, in order, with its position. -/
  lines : ShowAll d 0 i.history log
  /-- The last line has no duration, and each one before it has the time to the next moment. -/
  durations : log.map (·.duration) = (Instant.spans moments).map some ++ [none]
  total : ∀ first last, moments.head? = some first → moments.getLast? = some last →
    (log.filterMap (·.duration)).sum = last.micros - first.micros
  /-- The last line alone may be current, and is so as long as the run goes on. -/
  ends : i.EndsLog log

/-- **The audit log of an instance is exact.** -/
theorem auditLog_exact (h : d.LivesFrom Environment.Later before after i e)
    (hclock : ∀ n, (e.clock.reading n).Writable) :
    ∃ numbers log, i.Numbered e.clock numbers ∧ auditLog d' i = .ok log ∧
      i.ExactLog d' (numbers.map e.clock.reading) log := by
  obtain ⟨numbers, hnumbers⟩ := h.numbered
  obtain ⟨last, hlast, hopen, -⟩ := h.chronicled.last
  have hentered : i.history.map (·.enteredAt) =
      (numbers.map e.clock.reading).map Instant.text := by
    rw [hnumbers.entered, List.map_map]
    rfl
  have hne : i.history ≠ [] := by
    intro hnil
    rw [hnil] at hlast
    cases hlast
  have hwritable : ∀ t ∈ numbers.map e.clock.reading, t.Writable := by
    intro t ht
    obtain ⟨n, -, rfl⟩ := List.mem_map.1 ht
    exact hclock n
  have hends : ∀ v, i.history.getLast? = some v → v.leftAt = none := by
    intro v hv
    cases hlast.symm.trans hv
    exact hopen
  obtain ⟨log, hlog, hlines, hdurations⟩ :=
    logFrom_exact (d := d') (i := i) hne hentered hwritable h.chronicled.chained hends
  refine ⟨numbers, log, hnumbers, hlog, hlines, hdurations, ?_,
    h.chronicled.endsLog hlog⟩
  intro first last hfirst hlast
  rw [← Instant.spans_sum hfirst hlast]
  have hsome : log.filterMap (·.duration) = (log.map (·.duration)).filterMap fun x => x := by
    rw [List.filterMap_map]
    rfl
  rw [hsome, hdurations, List.filterMap_append, List.filterMap_map]
  simp

/-! ## A clock that goes backwards over a leap day -/

/-- A letter that is reviewed, and may be given back. -/
def letter : Definition where
  id := .text "letter"
  initial := "draft"
  states := Dict.ofList [
    ("draft", { id := "draft", label := .text "Draft", transitions :=
      [{ target := .text "review", event := .text "submit" }] }),
    ("review", { id := "review", transitions :=
      [{ target := .text "draft", event := .text "return" }] })]

/-- Half a second before the end of the 28th of February 2024, the beginning of March, and noon of
the day between. -/
def leapClock : Nat → Instant
  | 0 => ⟨63844761599500000⟩
  | 1 => ⟨63844848000000000⟩
  | _ => ⟨63844804800000000⟩

theorem leapClock_writable : ∀ n, (leapClock n).Writable
  | 0 => by decide
  | 1 => by decide
  | _ + 2 => show Instant.Writable ⟨63844804800000000⟩ by decide

def leapDesk : Environment := { clock := { reading := leapClock } }

def letterDraft : Instance := letter.fresh ⟨0, .null⟩ "first" (leapClock 0).text

/-- The letter in review. -/
def letterSubmitted : Instance :=
  letterDraft.moved { target := .text "review", event := .text "submit" }
    { id := "review" } (.text "submit") (leapClock 1).text

/-- The letter back in the state in which it was before. -/
def letterReturned : Instance :=
  letterSubmitted.moved { target := .text "draft", event := .text "return" }
    { id := "draft" } (.text "return") (leapClock 2).text

/-- The state that was visited twice is current in the last line only. -/
theorem auditLog_exact_letter :
    ∃ opened e, letter.LivesFrom Environment.Later leapDesk opened letterReturned e ∧
      (∀ n, (e.clock.reading n).Writable) ∧
      (∃ numbers log, letterReturned.Numbered e.clock numbers ∧
        auditLog letter letterReturned = .ok log ∧
        letterReturned.ExactLog letter (numbers.map e.clock.reading) log) ∧
      (auditLog letter letterReturned).toOption.map
        (fun log => log.map fun l => (l.state, l.duration, l.isCurrent)) =
        some [("draft", some 86400500000, false), ("review", some (-43200000000), false),
          ("draft", none, true)] := by
  let opened := (letter.start ⟨0, .null⟩ (some "first")).run leapDesk
  let submitted := (letterDraft.send letter {} "submit").run opened.world
  let returned := (letterSubmitted.send letter {} "return").run submitted.world
  have hopen : opened.answer = .ok letterDraft := rfl
  have hsubmit : submitted.answer = .ok ⟨letterSubmitted, true⟩ := rfl
  have hreturn : returned.answer = .ok ⟨letterReturned, true⟩ := rfl
  have hruns {α : Type} (t : Activity Realm.flow α) (e : Environment) :
      t.EndsAmid Environment.Later e (t.run e).answer (t.run e).world :=
    endsAmid_run Environment.Later.refl t e
  have hlast : letter.LivesFrom Environment.Later leapDesk opened.world letterReturned
      returned.world :=
    .send (.send (.start (hopen ▸ hruns _ _)) (hsubmit ▸ hruns _ _)) (hreturn ▸ hruns _ _)
  have hclock : ∀ n, (returned.world.clock.reading n).Writable := leapClock_writable
  exact ⟨opened.world, returned.world, hlast, hclock, auditLog_exact hlast hclock, by decide +kernel⟩

end Workflow

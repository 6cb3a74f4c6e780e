import Workflow.Proofs.Engine.Chronicle
import Workflow.Proofs.Engine.LeftAlone
import Workflow.Proofs.Hook.Seen
import Workflow.Proofs.Hook.TopLevel
import Workflow.Proofs.Schedule.Waiting

/-!
# Updates at work

A call that updates the context of a running instance, from the moment at which it gets the lock to
its end, while others have their turns (`Engine.Update`).

**The copy** (`Update.copied`). The updater works on a copy of the context that is put into the same
arena. It writes to no other list or object there, so all that was there before stays.

**What is left of the call** (`Update.start`, `Update.rest`). The whole work under the lock, or the
rest of the updater and the storing of the copy. The rest leads to the same end as an updater that
nobody has interrupted (`Update.OnCopy`).

**The invariant** (`Engaged`). The stored snapshot is the one that was found, its context is left
alone by the others, and whoever is engaged has the lock.

Main results: one turn of the call (`Engaged.own`), and one turn of another (`Engaged.other`).
-/

namespace Workflow

open Activity

namespace Engine

variable {α : Type}

/-- A call that updates the context of an instance, and what it finds when it gets the lock. -/
structure Update (α : Type) where
  number : Nat
  id : String
  updater : Datum → Activity Realm.hook HookAnswer
  /-- The answer, when the new snapshot is stored. -/
  reply : Instance → α
  before : Instance
  /-- The arena of its context. -/
  arena : Arena

/-- Of the snapshots at most that of the id is another one, and of the contexts at most those of one
arena. -/
structure Confined (id : String) (arena : Nat) (w w' : EngineState) : Prop where
  arenas : w.env.SameOff (· = arena) w'.env
  others : ∀ id', id' ≠ id → w'.instances.get? id' = w.instances.get? id'

theorem Confined.refl (id : String) (arena : Nat) (w : EngineState) : Confined id arena w w :=
  ⟨⟨rfl, fun _ _ => rfl⟩, fun _ _ => rfl⟩

theorem Confined.trans {id : String} {arena : Nat} {w v u : EngineState}
    (h : Confined id arena w v) (h' : Confined id arena v u) : Confined id arena w u where
  arenas := ⟨h'.arenas.size.trans h.arenas.size,
    fun n hn => (h'.arenas.arena n hn).trans (h.arenas.arena n hn)⟩
  others id' hid' := (h'.others id' hid').trans (h.others id' hid')

namespace Update

section

variable (c : Update α)

/-- The copy of the context, and the arena with it. -/
def copied : Datum × Arena := c.arena.shallowCopy c.before.ctx.root

def copy : Context := ⟨c.before.ctx.arena, c.copied.1⟩

/-- The snapshot with the copy. -/
def next : Instance := { c.before with ctx := c.copy }

/-- What comes of waiting for the updater when nothing comes between. -/
def outcome : Outcome Realm.hook HookAnswer := (c.updater c.copied.1).awaited.run c.copied.2

/-- What is left of the call when it has got the lock. -/
def start : Activity Realm.engine α :=
  critical c.id ((runningInstance c.id).bind fun i =>
    (within (updating c.updater i.ctx)).bind fun ctx =>
    .update (EngineState.setInstance c.id { i with ctx }) (.done { i with ctx }))
    fun i => .done (c.reply i)

/-- What is left of the call with this rest of the updater. -/
def rest (t : Activity Realm.hook HookAnswer) : Activity Realm.engine α :=
  critical c.id ((within ((t.lift (Realm.hookIn c.copy.arena)).bind fun _ => .done c.copy)).bind
    fun ctx => .update (EngineState.setInstance c.id { c.before with ctx })
      (.done { c.before with ctx }))
    fun i => .done (c.reply i)

/-- In its arena the rest of the updater writes to the copy only, and leads to the outcome. -/
structure OnCopy (a : Arena) (t : Activity Realm.hook HookAnswer) : Prop where
  topLevel : t.TopLevelFrom c.arena.cells.size a
  grows : c.copied.2.GrowsBut c.arena.cells.size a
  answer : (t.run a).answer = c.outcome.answer
  world : (t.run a).world = c.outcome.world

/-- The call may go on with this, when its arena is like that. -/
def Left (a : Arena) (t : Activity Realm.engine α) : Prop :=
  (t = c.start ∧ a = c.arena) ∨ ∃ t', t = c.rest t' ∧ c.OnCopy a t'

/-- The call has ended, and the outcome of the updater decides on the answer and the snapshot. -/
structure Ended (w : EngineState) (r : Except Failure α) : Prop where
  answer : r = c.outcome.answer.map fun _ => c.reply c.next
  stored : w.instances.get? c.id = some (if c.outcome.answer.isOk then c.next else c.before)
  content : w.env.arena c.before.ctx.arena = c.outcome.world
  grows : c.arena.Grows c.outcome.world

end

variable {c : Update α} {s : Schedule Realm.engine α} {t : Activity Realm.hook HookAnswer}
  {a : Arena}

/-- The copy is in a new cell. -/
theorem exists_copied (hcell : (c.arena.cell? c.before.ctx.root).isSome) :
    ∃ cell, c.copied = (.ref c.arena.cells.size, ⟨c.arena.cells.push cell⟩) := by
  obtain ⟨cell, hcell⟩ := Option.isSome_iff_exists.1 hcell
  exact ⟨cell, Arena.shallowCopy_of_cell hcell⟩

/-- The updater begins. -/
theorem onCopy_first (htop : TopLevel c.updater)
    (hcell : (c.arena.cell? c.before.ctx.root).isSome) :
    c.OnCopy c.copied.2 (c.updater c.copied.1).awaited := by
  refine ⟨?_, (Arena.Grows.refl _).but _, rfl, rfl⟩
  obtain ⟨cell, hcopied⟩ := exists_copied hcell
  rw [hcopied]
  exact (htop _ _ (by simp)).awaited

/-- All that was in the arena is still there. -/
theorem OnCopy.arena (h : c.OnCopy a t) (hcell : (c.arena.cell? c.before.ctx.root).isSome) :
    c.arena.Grows a := by
  obtain ⟨cell, hcopied⟩ := exists_copied hcell
  have hgrows := h.grows
  rw [hcopied] at hgrows
  exact (Arena.grows_push _ _).trans_but hgrows (Nat.le_refl _)

/-! ## One turn -/

theorem advance_instanceOf {β : Type} {id : String} {i : Instance} {body : Instance → Call β}
    {after : β → Activity Realm.engine α} (n : Nat) (key : String)
    (hi : s.world.instances.get? id = some i) :
    Schedule.advance n (critical key ((instanceOf id).bind body) after) s =
      Schedule.advance n (critical key (body i) after) s := by
  unfold instanceOf known critical
  simp only [Activity.bind, Activity.attempt, Schedule.advance, hi]

/-- The call finds the snapshot, and makes the copy. -/
theorem advance_start (n : Nat) (hi : s.world.instances.get? c.id = some c.before)
    (hrunning : c.before.isRunning) (ha : s.world.env.arena c.before.ctx.arena = c.arena) :
    Schedule.advance n c.start s = Schedule.advance n (c.rest (c.updater c.copied.1).awaited)
      { s with world := { s.world with
        env := s.world.env.setArena c.before.ctx.arena c.copied.2 } } := by
  unfold start runningInstance
  rw [Activity.bind_assoc, advance_instanceOf n c.id hi, if_pos hrunning]
  unfold rest copy copied
  rw [← ha]
  rfl

/-- The call has paused, and goes on with `t'`. -/
structure Pauses (c : Update α) (t' : Activity Realm.hook HookAnswer)
    (s s' : Schedule Realm.engine α) : Prop where
  ready : s'.ready = s.ready ++ [(c.number, c.rest t')]
  onCopy : c.OnCopy (s'.world.env.arena c.before.ctx.arena) t'
  waiting : s'.waiting = s.waiting
  finished : s'.finished = s.finished
  instances : s'.world.instances = s.world.instances

/-- What a turn of the call comes to: it pauses or it ends. -/
structure Turn (c : Update α) (s s' : Schedule Realm.engine α) : Prop where
  confined : Confined c.id c.before.ctx.arena s.world s'.world
  fate : (∃ t', c.Pauses t' s s') ∨
    ∃ r, s'.finished = (c.number, r) :: s.finished ∧ c.Ended s'.world r

/-- What was done in the turn before. -/
theorem Turn.after {u s' : Schedule Realm.engine α} (h : c.Turn u s')
    (hconfined : Confined c.id c.before.ctx.arena s.world u.world)
    (hinstances : u.world.instances = s.world.instances) (hready : u.ready = s.ready)
    (hwaiting : u.waiting = s.waiting) (hfinished : u.finished = s.finished) : c.Turn s s' where
  confined := hconfined.trans h.confined
  fate := by
    rw [← hfinished]
    refine h.fate.imp_left fun ⟨t', ht'⟩ => ⟨t', ?_⟩
    exact {
      ready := hready ▸ ht'.ready
      onCopy := ht'.onCopy
      waiting := ht'.waiting.trans hwaiting
      finished := ht'.finished.trans hfinished
      instances := ht'.instances.trans hinstances }

/-- The arena was changed before. -/
theorem Turn.write {s' : Schedule Realm.engine α} {b : Arena}
    (h : c.Turn { s with world := { s.world with
      env := s.world.env.setArena c.before.ctx.arena b } } s') : c.Turn s s' :=
  h.after ⟨.setArena rfl, fun _ _ => rfl⟩ rfl rfl rfl rfl

/-- The call gives its lock back and ends. -/
theorem turn_giveBack {u : Schedule Realm.engine α} {r : Except Failure α}
    (hfinished : u.finished = s.finished)
    (hconfined : Confined c.id c.before.ctx.arena s.world u.world) (hended : c.Ended u.world r) :
    c.Turn s { u.giveBack c.id with finished := (c.number, r) :: (u.giveBack c.id).finished } := by
  obtain ⟨hworld, -, hsame⟩ := Schedule.giveBack_same c.id u
  refine ⟨?_, .inr ⟨r, congrArg _ (hsame.trans hfinished), ?_⟩⟩ <;> dsimp only <;> rw [hworld]
  · exact hconfined
  · exact hended

/-- **One turn on the copy.** -/
theorem advance_rest (hcell : (c.arena.cell? c.before.ctx.root).isSome)
    (hinside : c.before.ctx.arena < s.world.env.size)
    (hi : s.world.instances.get? c.id = some c.before)
    (h : c.OnCopy (s.world.env.arena c.before.ctx.arena) t) :
    c.Turn s (Schedule.advance c.number (c.rest t) s) := by
  induction t generalizing s with
  | done answer =>
    have hanswer : c.outcome.answer = .ok answer := h.answer.symm
    have hworld : c.outcome.world = s.world.env.arena c.before.ctx.arena := h.world.symm
    refine turn_giveBack (u := { s with world := s.world.setInstance c.id c.next }) rfl
      ⟨⟨rfl, fun _ _ => rfl⟩, fun id' hid' => ?_⟩ ⟨?_, ?_, hworld.symm, hworld ▸ h.arena hcell⟩
    · exact (Dict.get?_insert ..).trans (if_neg (Ne.symm hid'))
    · rw [hanswer]
      rfl
    · rw [hanswer]
      exact (Dict.get?_insert ..).trans (if_pos rfl)
  | fail f =>
    have hanswer : c.outcome.answer = .error f := h.answer.symm
    have hworld : c.outcome.world = s.world.env.arena c.before.ctx.arena := h.world.symm
    refine turn_giveBack (u := s) rfl (.refl ..) ⟨?_, ?_, hworld.symm, hworld ▸ h.arena hcell⟩
    · rw [hanswer]
      rfl
    · rw [hanswer]
      exact hi
  | look k ih => exact ih _ hinside hi { h with }
  | update f next ih =>
    refine .write (ih (c.before.ctx.lawful.keeps hinside _) hi ?_)
    rw [Environment.arena_setArena hinside]
    exact ⟨h.topLevel.2, h.grows.trans h.topLevel.1, h.answer, h.world⟩
  | report r next ih =>
    exact Turn.after (u := { s with reported := .noted r :: s.reported })
      (ih hinside hi { h with }) (.refl ..) rfl rfl rfl rfl
  | pause k ih =>
    refine ⟨.refl .., .inl ⟨k .resume, rfl, ?_, rfl, rfl, rfl⟩⟩
    exact { h with topLevel := h.topLevel .resume }
  | acquire key next ih => exact nomatch key
  | release key next ih => exact nomatch key

/-- The first turn under the lock. -/
theorem advance_first (htop : TopLevel c.updater)
    (hcell : (c.arena.cell? c.before.ctx.root).isSome) (hrunning : c.before.isRunning)
    (hinside : c.before.ctx.arena < s.world.env.size)
    (hi : s.world.instances.get? c.id = some c.before)
    (ha : s.world.env.arena c.before.ctx.arena = c.arena) :
    c.Turn s (Schedule.advance c.number c.start s) := by
  rw [advance_start c.number hi hrunning ha]
  refine .write (advance_rest hcell (c.before.ctx.lawful.keeps hinside _) hi ?_)
  rw [Environment.arena_setArena hinside]
  exact onCopy_first htop hcell

end Update

/-! ## The lock -/

section Lock

variable {ρ : Rules Realm.engine} {β : Type} {key : String} {body : Call β}
  {after : β → Activity Realm.engine α}

/-- Whoever goes by the rules, and is to give a lock back without having asked for it, has it. -/
theorem lock_of_abides {during : ρ.Stake → Prop}
    {P : Option String → ρ.Stake → Except Failure α → EngineState → Prop} {lock : Option String}
    {x : ρ.Stake} {w : EngineState} (hbody : body.Alters fun _ _ => True)
    (h : (critical key body after).Abides ρ during P lock x w) : lock = some key := by
  induction body generalizing x w with
  | done b => exact h.1
  | fail f => exact h.1
  | look k ih => exact ih w (hbody w) h
  | update f next ih =>
    obtain ⟨x', -, hnext⟩ := h
    exact ih hbody.2 hnext
  | report r next ih => exact ih hbody h
  | pause k ih => exact ih .resume (hbody .resume) (h.2 w (ρ.seen_refl lock w) .resume)
  | acquire key next ih => exact hbody.elim
  | release key next ih => exact hbody.elim

end Lock

theorem alters_within {β : Type} (t : Activity Realm.flow β) :
    (within t).Alters fun _ _ => True :=
  .lift Empty.elim (fun _ _ => trivial) t

/-- Whatever is left of the call, it is to give the lock back. -/
theorem Update.Left.abides {c : Update α} {ρ : Rules Realm.engine} {during : ρ.Stake → Prop}
    {P : Option String → ρ.Stake → Except Failure α → EngineState → Prop} {lock : Option String}
    {x : ρ.Stake} {w : EngineState} {a : Arena} {t : Activity Realm.engine α} (ht : c.Left a t)
    (h : t.Abides ρ during P lock x w) : lock = some c.id := by
  obtain ⟨rfl, -⟩ | ⟨t', rfl, -⟩ := ht
  · refine lock_of_abides (Alters.bind ?_ fun i _ => ?_) h
    · refine (alters_known _ _).bind fun i _ => ?_
      split <;> trivial
    · exact (alters_within _).bind fun ctx _ => ⟨fun _ => trivial, trivial⟩
  · refine lock_of_abides (Alters.bind (alters_within _) fun ctx _ => ?_) h
    exact ⟨fun _ => trivial, trivial⟩

/-! ## The invariant -/

section

variable (us : List (Undertaking rules α)) (w₀ : EngineState) (c : Update α) (γ : Ghost rules)
  (s : Schedule Realm.engine α)

/-- Another call that goes on. -/
def Update.Others (m : Nat) : Prop := m ≠ c.number ∧ ∀ r, (m, r) ∉ s.finished

/-- The snapshot is stored as it was found, and its context is left alone by the others. -/
structure Safe : Prop where
  ruled : Ruled us γ { hold := .visitor } (fun _ => True) (ClaimsOf w₀) [] s
  stored : s.world.instances.get? c.id = some c.before
  grows : c.arena.Grows (s.world.env.arena c.before.ctx.arena)
  alone : LeftAlone (c.Others s) c.id c.before.ctx (s.world.env.arena c.before.ctx.arena) γ.stake
    s.world

/-- The call has the lock, and works on its copy or is about to make it. -/
structure Engaged : Prop extends Safe us w₀ c γ s where
  owner : γ.owner c.id = some c.number
  unfinished : ∀ r, (c.number, r) ∉ s.finished
  waiting : ∀ key t, (key, c.number, t) ∉ s.waiting
  ready : ∀ t, (c.number, t) ∈ s.ready → c.Left (s.world.env.arena c.before.ctx.arena) t

end

variable {us : List (Undertaking rules α)} {w₀ : EngineState} {c : Update α} {γ γ' : Ghost rules}
  {s : Schedule Realm.engine α} {place : Nat}

/-- Whoever goes on after a turn did so before. -/
theorem Update.Others.before_turn {m : Nat} (h : c.Others (s.turn place) m) : c.Others s m :=
  ⟨h.1, fun r hr => h.2 r (Schedule.finished_subset_turn place s hr)⟩

theorem Update.Left.owner {a : Arena} {t : Activity Realm.engine α} (ht : c.Left a t)
    (h : Ruled us γ { hold := .visitor } (fun _ => True) (ClaimsOf w₀) [] s)
    (hbegun : γ.begun c.number ≠ none) (hready : (c.number, t) ∈ s.ready) :
    γ.owner c.id = some c.number := by
  rcases h.ready _ hready with hfresh | ⟨lock, hlock, u, v, -, -, -, hkept⟩
  · exact absurd hfresh.1 hbegun
  · exact (hlock c.id).2 (ht.abides (hkept _ (rules.seen_refl lock s.world)))

/-- A turn of the call in which it does not end leaves the snapshot as it is. -/
theorem Safe.pauses {t' : Activity Realm.hook HookAnswer}
    {ready : List (Nat × Activity Realm.engine α)} (h : Safe us w₀ c γ s)
    (hcell : (c.arena.cell? c.before.ctx.root).isSome)
    (hruled : Ruled us γ' { hold := .visitor } (fun _ => True) (ClaimsOf w₀) [] (s.turn place))
    (hpass : γ.Passes γ' c.number s.world (s.turn place).world)
    (hconfined : Confined c.id c.before.ctx.arena s.world (s.turn place).world)
    (hpauses : c.Pauses t' { s with ready } (s.turn place)) : Safe us w₀ c γ' (s.turn place) where
  ruled := hruled
  stored := by
    rw [hpauses.instances]
    exact h.stored
  grows := hpauses.onCopy.arena hcell
  alone := {
    arena := rfl
    inside := Nat.lt_of_lt_of_eq h.alone.inside hconfined.arenas.size.symm
    others := by
      rw [hpauses.instances]
      exact h.alone.others
    hands := fun m hm => by
      rw [hpass.stakes m hm.1]
      exact h.alone.hands m hm.before_turn
    offers := fun m hm => by
      rw [hpass.stakes m hm.1]
      exact h.alone.offers m hm.before_turn }

/-- **A turn of the call.** It goes on, or it has ended. -/
theorem Safe.turn {t : Activity Realm.engine α} (h : Safe us w₀ c γ s)
    (hcell : (c.arena.cell? c.before.ctx.root).isSome)
    (hplace : s.ready[place]? = some (c.number, t))
    (hturn : c.Turn { s with ready := s.ready.eraseIdx place } (s.turn place)) :
    (∃ γ', Engaged us w₀ c γ' (s.turn place)) ∨
      ∃ r, (s.turn place).finished = (c.number, r) :: s.finished ∧
        c.Ended (s.turn place).world r := by
  refine hturn.fate.imp_left fun ⟨t', hpauses⟩ => ?_
  have hnext : s.next? place = some c.number := congrArg (Option.map Prod.fst) hplace
  obtain ⟨γ', hruled, hbegun, hpasses⟩ := h.ruled.turn_passes (upholds_claims _ w₀) place
  have hready : (c.number, c.rest t') ∈ (s.turn place).ready :=
    hpauses.ready ▸ List.mem_append_right _ (List.mem_singleton.2 rfl)
  have hbegins : γ'.begun c.number ≠ none := by
    rw [hbegun, if_pos hnext]
    cases γ.begun c.number <;> simp
  have hleft : c.Left _ (c.rest t') := .inr ⟨t', rfl, hpauses.onCopy⟩
  obtain ⟨hwaiting, hunfinished⟩ := hruled.only_ready hready
  refine ⟨γ', h.pauses hcell hruled (hpasses _ hnext) hturn.confined hpauses,
    hleft.owner hruled hbegins hready, hunfinished, hwaiting, fun t ht => ?_⟩
  rw [hpauses.ready] at ht
  rcases List.mem_append.1 ht with ht | ht
  · -- The call was ready at one place only.
    have hperm := Schedule.numbers_take [] hplace
    have hnowhere := (List.nodup_cons.1 (hperm.nodup_iff.2 h.ruled.nodup_numbers)).1
    exact absurd (Schedule.mem_numbers_of_ready ht) hnowhere
  · cases List.mem_singleton.1 ht
    exact hleft

/-- **A turn of the call** that is at work. -/
theorem Engaged.own (h : Engaged us w₀ c γ s) (htop : TopLevel c.updater)
    (hcell : (c.arena.cell? c.before.ctx.root).isSome) (hrunning : c.before.isRunning)
    (hnext : s.next? place = some c.number) :
    Confined c.id c.before.ctx.arena s.world (s.turn place).world ∧
      ((∃ γ', Engaged us w₀ c γ' (s.turn place)) ∨
        ∃ r, (s.turn place).finished = (c.number, r) :: s.finished ∧
          c.Ended (s.turn place).world r) := by
  obtain ⟨t, hplace, heq⟩ := Schedule.turn_of_next hnext
  have hturn : c.Turn { s with ready := s.ready.eraseIdx place } (s.turn place) := by
    rw [heq]
    obtain ⟨rfl, ha⟩ | ⟨t', rfl, honCopy⟩ := h.ready t (List.mem_of_getElem? hplace)
    · exact Update.advance_first htop hcell hrunning h.alone.inside h.stored ha
    · exact Update.advance_rest hcell h.alone.inside h.stored honCopy
  exact ⟨hturn.confined, h.toSafe.turn hcell hplace hturn⟩

/-- **A turn of another** changes nothing for the call. -/
theorem Engaged.other (h : Engaged us w₀ c γ s) (hnext : s.next? place ≠ some c.number) :
    ∃ γ', Engaged us w₀ c γ' (s.turn place) := by
  cases hn : s.next? place with
  | none => exact ⟨γ, (Schedule.turn_of_none hn).symm ▸ h⟩
  | some n =>
  obtain ⟨t, hplace, -⟩ := Schedule.turn_of_next hn
  have haside : Schedule.Aside c.number s (s.turn place) := Schedule.aside_turn hnext
  have hne : c.number ≠ n := fun heq => hnext (heq ▸ hn)
  obtain ⟨γ', hruled, -, hpasses⟩ := h.ruled.turn_passes (upholds_claims _ w₀) place
  have hpass := hpasses n hn
  have hlive : c.Others s n :=
    ⟨hne.symm, (h.ruled.only_ready (List.mem_of_getElem? hplace)).2⟩
  let G (g : Nat → Stake) (v : EngineState) : Prop := ClaimsOf w₀ g v ∧
    v.instances.get? c.id = some c.before ∧
    LeftAlone (c.Others s) c.id c.before.ctx (s.world.env.arena c.before.ctx.arena) g v
  have hupholds : rules.Upholds (fun _ => True) (ClaimsOf w₀) := upholds_claims _ w₀
  obtain ⟨-, hstored, halone⟩ : G γ'.stake (s.turn place).world := by
    refine hpass.keeps ⟨h.ruled.fits, h.stored, h.alone⟩ fun hlock hG hc => ?_
    obtain ⟨hclaims, hstored, halone⟩ := hG
    have hother : some c.id ≠ _ := (hlock c.id c.number hne h.owner).symm
    refine ⟨hupholds.keeps trivial hclaims hc, ?_, halone.change (fun heq => ?_) hlive hc⟩
    · exact hupholds.seen trivial hclaims hc (.inr hother) c.id rfl _ hstored
    · exact absurd heq.symm hother
  have harena : (s.turn place).world.env.arena c.before.ctx.arena =
      s.world.env.arena c.before.ctx.arena := halone.arena
  exact ⟨γ', {
    ruled := hruled
    stored := hstored
    grows := harena ▸ h.grows
    alone := harena ▸ halone.mono fun _ hm => hm.before_turn
    owner := hpass.owners _ _ hne h.owner
    unfinished := fun r hr => h.unfinished r (haside.finished r hr)
    waiting := fun key t ht => h.waiting key t (haside.waiting key t ht)
    ready := fun t ht => by
      rw [harena]
      rcases haside.ready t ht with ht | ⟨key, ht, -⟩
      · exact h.ready t ht
      · exact absurd ht (h.waiting key t) }⟩

end Engine

end Workflow

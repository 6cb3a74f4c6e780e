import Workflow.Proofs.Api.Frozen
import Workflow.Proofs.Engine.Updating

/-!
# Contexts are copied on write

An update of a context lets an updater work on a copy, and stores the copy when the updater has come
to its end. Whatever else is asked of the engine meanwhile, directly or through interfaces, and
however the turns are mixed (`Api.CopiesOnWrite`):

**While the updater is at work**, the stored snapshot is the one that was found when the update got
its lock, and the content of its context is what it was then.

**When it has come to its end**, the snapshot is replaced by one that has another context and is the
same otherwise. The new context is what the updater makes of the old one when nobody comes between.

**When it fails**, in whatever way and after whatever changes, the very snapshot stays that was
there.

**The contexts** of all snapshots that were there before keep their content, also in the end.

The updater is one that keeps to the top level, and the context belongs to the instance alone
(`Api.Unshared`).

Main result: `update_copies_on_write`.
-/

namespace Workflow.Api

open Activity
open Engine (Confined Engaged LeftAlone Safe Stake Update rules)

section

variable (e : Engine) (w : EngineState) (errands : List Errand)

/-- The turns up to the moment at which errand `n` gets its lock. In its own turn this is the first
thing that it does; else it gets the lock from the one whose turn it is. -/
def untilLock (before : List Nat) (place n : Nat) : List Nat :=
  if (underway e w errands before).next? place = some n then before else before ++ [place]

/-- The world in which errand `n` gets its lock. -/
def worldAtLock (before : List Nat) (place n : Nat) : EngineState :=
  (underway e w errands (untilLock e w errands before place n)).world

/-- An update gets its lock in the turn at `place`. What it finds is a running instance, with a list
or an object as its context that belongs to it alone. -/
structure GetsLock (before : List Nat) (place : Nat) (c : Update Reply) : Prop where
  errand : errands[c.number]? = some (.job (.request c.id (.update c.updater)))
  reply : c.reply = fun i => .result (.answered (.stored i))
  unserved : c.number ∉ (underway e w errands before).takers c.id
  served : c.number ∈ (underway e w errands (before ++ [place])).takers c.id
  stored : (worldAtLock e w errands before place c.number).instances.get? c.id = some c.before
  running : c.before.isRunning
  arena : (worldAtLock e w errands before place c.number).env.arena c.before.ctx.arena = c.arena
  outermost : (c.arena.cell? c.before.ctx.root).isSome
  unshared : Unshared e w errands (untilLock e w errands before place c.number) c.id c.before.ctx

/-- What comes of an update that gets its lock in the turn at `place`. -/
structure CopiesOnWrite (before : List Nat) (place : Nat) (c : Update Reply) : Prop where
  /-- Whoever asks for the snapshot while the update goes on is given the one that was found, with
  its content. -/
  working : ∀ after, Unfinished (underway e w errands (before ++ place :: after)) c.number →
    ((Engine.instanceOf c.id).run (underway e w errands (before ++ place :: after)).world).answer =
        .ok c.before ∧
      (worldAtLock e w errands before place c.number).env.Preserves c.before.ctx.arena
        (underway e w errands (before ++ place :: after)).world.env
  /-- In its own turns it changes no other snapshot, and no other arena. -/
  turns : ∀ earlier next, before ++ [place] <+: earlier ++ [next] →
    (underway e w errands earlier).next? next = some c.number →
      Confined c.id c.before.ctx.arena (underway e w errands earlier).world
        (underway e w errands (earlier ++ [next])).world
  /-- All contexts that are there when it gets its lock keep their content in its turns. -/
  contents : ∀ earlier next, before ++ [place] <+: earlier ++ [next] →
    (underway e w errands earlier).next? next = some c.number →
      ∀ ctx : Context, (ctx.arena = c.before.ctx.arena → c.arena.Whole ctx.root) →
        (underway e w errands (earlier ++ [next])).world.env.read ctx =
          (underway e w errands earlier).world.env.read ctx
  /-- It ends in one of its turns, as the updater does. -/
  ended : ∀ after r, (c.number, r) ∈ (underway e w errands (before ++ place :: after)).finished →
    ∃ earlier next, before ++ [place] <+: earlier ++ [next] ∧
      earlier ++ [next] <+: before ++ place :: after ∧
      (underway e w errands earlier).next? next = some c.number ∧
      c.Ended (underway e w errands (earlier ++ [next])).world r ∧
      (worldAtLock e w errands before place c.number).env.Preserves c.before.ctx.arena
        (underway e w errands (earlier ++ [next])).world.env
  /-- It does not go on for ever. -/
  finishes : ∀ after, (underway e w errands (before ++ place :: after)).ready = [] →
    ∃ r, (c.number, r) ∈ (underway e w errands (before ++ place :: after)).finished
  /-- The updater is given a copy of what was found. -/
  copy : c.arena.Whole c.before.ctx.root →
    c.copied.2.load c.copied.1 = c.arena.load c.before.ctx.root

end

variable {e : Engine} {w : EngineState} {errands : List Errand} {before : List Nat} {place : Nat}
  {c : Update Reply}

/-! ## Getting the lock -/

/-- The call looks the definition up, and then asks for its lock. -/
theorem update_asks (hreply : c.reply = fun i => .result (.answered (.stored i))) :
    ((Errand.job (.request c.id (.update c.updater))).call e).Asks c.id (· = c.start) := by
  have hcall : (Errand.job (.request c.id (.update c.updater))).call e =
      (Engine.definitionOf c.id).bind fun _ => (Activity.locked c.id
        ((Engine.runningInstance c.id).bind fun i =>
          (Engine.within (Engine.updating c.updater i.ctx)).bind fun ctx =>
          .update (EngineState.setInstance c.id { i with ctx }) (.done { i with ctx }))).bind
        fun i => .done (c.reply i) := by
    rw [hreply]
    show ((((Engine.definitionOf c.id).bind _).bind _).bind _).bind _ = _
    simp only [Activity.bind_assoc]
    rfl
  rw [hcall]
  refine ⟨_, rfl, fun w => ?_⟩
  dsimp only
  cases w.definitions.get? c.id with
  | none => exact .inl ⟨_, rfl⟩
  | some d => exact .inr ⟨c.start, locked_bind (R := Realm.engine) c.id _ _, rfl⟩

/-- The invariant of the update, at errands under way. -/
abbrev EngagedAt (e : Engine) (w : EngineState) (errands : List Errand) (c : Update Reply)
    (s : Schedule Realm.engine Reply) : Prop :=
  ∃ γ, Engaged (errands.map (Errand.undertaking e)) w c γ s

theorem GetsLock.waits (h : GetsLock e w errands before place c) :
    Schedule.Waits c.id (· = c.start) ((Errand.job (.request c.id (.update c.updater))).call e)
      c.number (underway e w errands before) := by
  refine (Schedule.waits_start ?_).turns (update_asks h.reply) before
  rw [List.getElem?_map, h.errand]
  rfl

/-- A context that is not shared is left alone by all others. -/
theorem safe_of_unshared {places : List Nat} {γ : Ghost rules}
    (hγ : Underway e w errands γ (underway e w errands places))
    (hbegun : ∀ n, γ.begun n = (underway e w errands []).begins n places)
    (hi : (underway e w errands places).world.instances.get? c.id = some c.before)
    (ha : (underway e w errands places).world.env.arena c.before.ctx.arena = c.arena)
    (hc : Unshared e w errands places c.id c.before.ctx) :
    Safe (errands.map (Errand.undertaking e)) w c γ (underway e w errands places) where
  ruled := hγ
  stored := hi
  grows := ha ▸ Arena.Grows.refl _
  alone := (leftAlone_of_unshared hγ hbegun hc).mono fun _ hm => hm.2

/-- The lock is got in the turn at `place`, and not before. -/
theorem GetsLock.taken (h : GetsLock e w errands before place c) :
    (c.id, c.number) ∉ (underway e w errands before).taken ∧
      (c.id, c.number) ∈ ((underway e w errands before).turn place).taken := by
  have hserved := h.served
  rw [underway_concat] at hserved
  exact ⟨fun hmem => h.unserved ((Schedule.mem_takers (R := Realm.engine)).2 hmem),
    (Schedule.mem_takers (R := Realm.engine)).1 hserved⟩

/-- **The lock is given by another.** -/
theorem GetsLock.given (h : GetsLock e w errands before place c) (hw : w.Tidy)
    (hother : (underway e w errands before).next? place ≠ some c.number) :
    EngagedAt e w errands c (underway e w errands (before ++ [place])) := by
  obtain ⟨hstored, harena, hshared⟩ := And.intro h.stored (And.intro h.arena h.unshared)
  unfold worldAtLock at hstored harena
  rw [untilLock, if_neg hother] at hstored harena hshared
  obtain ⟨q, rfl, hwaiting, hready⟩ := h.waits.given h.taken.1 hother h.taken.2
  obtain ⟨γ, hγ, hbegun⟩ := underway_ruled (e := e) hw errands before
  obtain ⟨γ', hγ', hbegun'⟩ := underway_ruled (e := e) hw errands (before ++ [place])
  have hbegins : γ'.begun c.number ≠ none := by
    obtain ⟨-, -, u, v, -, hv, -⟩ := hγ.waiting _ hwaiting
    rw [hbegun', Schedule.begins_append (R := Realm.engine), ← hbegun, hv]
    nofun
  rw [← underway_concat] at hready
  have hleft : c.Left c.arena c.start := .inl ⟨rfl, rfl⟩
  obtain ⟨hwaits, hunfinished⟩ := hγ'.only_ready hready
  refine ⟨γ', safe_of_unshared hγ' hbegun' hstored harena hshared,
    hleft.owner hγ' hbegins hready, hunfinished, hwaits, fun t ht => ?_⟩
  rw [harena]
  rw [underway_concat] at ht
  rcases (Schedule.aside_turn (R := Realm.engine) hother).ready t ht with ht | ⟨key, ht, -⟩
  · exact absurd hwaiting ((hγ.only_ready ht).1 _ _)
  · obtain rfl := ((h.waits.resolve_left h.taken.1).2 key t ht).2
    exact hleft

/-- **The lock is taken** in a turn of the update, which goes on or has ended then. -/
theorem GetsLock.takes (h : GetsLock e w errands before place c) (hw : w.Tidy)
    (htop : TopLevel c.updater)
    (hown : (underway e w errands before).next? place = some c.number) :
    (underway e w errands before).world.env.arena c.before.ctx.arena = c.arena ∧
      Confined c.id c.before.ctx.arena (underway e w errands before).world
        (underway e w errands (before ++ [place])).world ∧
      (EngagedAt e w errands c (underway e w errands (before ++ [place])) ∨
        ∃ r, (c.number, r) ∈ (underway e w errands (before ++ [place])).finished ∧
          c.Ended (underway e w errands (before ++ [place])).world r) := by
  obtain ⟨hstored, harena, hshared⟩ := And.intro h.stored (And.intro h.arena h.unshared)
  unfold worldAtLock at hstored harena
  rw [untilLock, if_pos hown] at hstored harena hshared
  obtain ⟨q, rfl, hadvance⟩ := h.waits.takes (update_asks h.reply) h.taken.1 hown h.taken.2
  obtain ⟨γ, hγ, hbegun⟩ := underway_ruled (e := e) hw errands before
  have hsafe := safe_of_unshared hγ hbegun hstored harena hshared
  obtain ⟨t, hplace, -⟩ := Schedule.turn_of_next hown
  have hturn : c.Turn { underway e w errands before with
      ready := (underway e w errands before).ready.eraseIdx place }
      ((underway e w errands before).turn place) := by
    rw [hadvance]
    exact .after (Update.advance_first htop h.outermost h.running hshared.inside hstored harena)
      (.refl ..) rfl rfl rfl rfl
  rw [underway_concat]
  refine ⟨harena, hturn.confined, (hsafe.turn h.outermost hplace hturn).imp_right ?_⟩
  rintro ⟨r, hfinished, hended⟩
  exact ⟨r, hfinished ▸ List.mem_cons_self, hended⟩

/-! ## All turns -/

/-- The update goes on after these turns, or it has ended in one of them. -/
def Course (e : Engine) (w : EngineState) (errands : List Errand) (before : List Nat) (place : Nat)
    (c : Update Reply) (after : List Nat) : Prop :=
  EngagedAt e w errands c (underway e w errands (before ++ place :: after)) ∨
    ∃ earlier next r, before ++ [place] <+: earlier ++ [next] ∧
      earlier ++ [next] <+: before ++ place :: after ∧
      (underway e w errands earlier).next? next = some c.number ∧
      c.Ended (underway e w errands (earlier ++ [next])).world r ∧
      (c.number, r) ∈ (underway e w errands (before ++ place :: after)).finished

theorem GetsLock.course (h : GetsLock e w errands before place c) (hw : w.Tidy)
    (htop : TopLevel c.updater) (after : List Nat) :
    Course e w errands before place c after := by
  induction after using List.reverseRecOn with
  | nil =>
    by_cases hown : (underway e w errands before).next? place = some c.number
    · refine (h.takes hw htop hown).2.2.imp_right ?_
      rintro ⟨r, hfinished, hended⟩
      exact ⟨before, place, r, List.prefix_refl _, List.prefix_refl _, hown, hended, hfinished⟩
    · exact .inl (h.given hw hown)
  | append_singleton after next ih =>
    have hconcat : before ++ place :: (after ++ [next]) = before ++ place :: after ++ [next] := by
      simp
    unfold Course
    rw [hconcat]
    obtain ⟨γ, hengaged⟩ | ⟨earlier, last, r, hfrom, hto, hown, hended, hfinished⟩ := ih
    · by_cases hown : (underway e w errands (before ++ place :: after)).next? next = some c.number
      · rw [underway_concat]
        refine (hengaged.own htop h.outermost h.running hown).2.imp_right ?_
        rintro ⟨r, hfinished, hended⟩
        refine ⟨before ++ place :: after, next, r, ?_, List.prefix_refl _, hown, ?_, ?_⟩
        · exact ⟨after ++ [next], by simp⟩
        · rw [underway_concat]
          exact hended
        · exact hfinished ▸ List.mem_cons_self
      · rw [underway_concat]
        exact .inl (hengaged.other hown)
    · refine .inr ⟨earlier, last, r, hfrom, hto.trans (List.prefix_append _ _), hown, hended, ?_⟩
      rw [underway_concat]
      exact Schedule.finished_subset_turn _ _ hfinished

/-- A turn of the update, from the one in which it gets its lock. -/
theorem GetsLock.own_turn (h : GetsLock e w errands before place c) (hw : w.Tidy)
    (htop : TopLevel c.updater) {earlier : List Nat} {next : Nat}
    (hfrom : before ++ [place] <+: earlier ++ [next])
    (hown : (underway e w errands earlier).next? next = some c.number) :
    Confined c.id c.before.ctx.arena (underway e w errands earlier).world
        (underway e w errands (earlier ++ [next])).world ∧
      c.arena.Grows ((underway e w errands earlier).world.env.arena c.before.ctx.arena) ∧
      c.arena.Grows
        ((underway e w errands (earlier ++ [next])).world.env.arena c.before.ctx.arena) := by
  rcases List.prefix_concat_iff.1 hfrom with heq | ⟨after, rfl⟩
  · obtain ⟨rfl, hplace⟩ := List.append_inj' heq rfl
    cases hplace
    obtain ⟨harena, hconfined, hcourse⟩ := h.takes hw htop hown
    refine ⟨hconfined, harena ▸ .refl _, ?_⟩
    obtain ⟨γ, hengaged⟩ | ⟨r, -, hended⟩ := hcourse
    · exact hengaged.grows
    · exact hended.content ▸ hended.grows
  rw [List.append_assoc, List.singleton_append] at hown ⊢
  obtain ⟨γ, hengaged⟩ | ⟨-, -, r, -, -, -, -, hfinished⟩ := h.course hw htop after
  · rw [underway_concat]
    obtain ⟨hconfined, hcourse⟩ := hengaged.own htop h.outermost h.running hown
    refine ⟨hconfined, hengaged.grows, ?_⟩
    obtain ⟨γ', hengaged'⟩ | ⟨r, -, hended⟩ := hcourse
    · exact hengaged'.grows
    · exact hended.content ▸ hended.grows
  · -- Whoever has ended has no more turns.
    obtain ⟨γ, hγ, -⟩ := underway_ruled (e := e) hw errands (before ++ place :: after)
    obtain ⟨t, hplace, -⟩ := Schedule.turn_of_next hown
    exact absurd hfinished ((hγ.only_ready (List.mem_of_getElem? hplace)).2 r)

/-- **Contexts are copied on write**, whatever else is asked of the engine, and however the turns
are mixed. -/
theorem update_copies_on_write (hw : w.Tidy) (h : GetsLock e w errands before place c)
    (htop : TopLevel c.updater) : CopiesOnWrite e w errands before place c where
  working after hunfinished := by
    obtain ⟨γ, hengaged⟩ | ⟨-, -, r, -, -, -, -, hfinished⟩ := h.course hw htop after
    · refine ⟨?_, Environment.preserves_of_grows (h.arena ▸ hengaged.grows)⟩
      have hstored := hengaged.stored
      unfold Engine.instanceOf Engine.known
      simp only [Activity.run, hstored]
    · exact absurd hfinished (hunfinished r)
  turns earlier next hfrom hown := (h.own_turn hw htop hfrom hown).1
  contents earlier next hfrom hown ctx hctx := by
    obtain ⟨hconfined, hgrows, hgrows'⟩ := h.own_turn hw htop hfrom hown
    by_cases hk : ctx.arena = c.before.ctx.arena
    · unfold Environment.read Contexts.read
      rw [hk]
      exact ((hctx hk).grows hgrows').2.trans ((hctx hk).grows hgrows).2.symm
    · exact congrArg (·.load ctx.root) (hconfined.arenas.arena _ hk)
  ended after r hr := by
    obtain ⟨γ, hengaged⟩ | ⟨earlier, next, r', hfrom, hto, hown, hended, hr'⟩ :=
      h.course hw htop after
    · exact absurd hr (hengaged.unfinished r)
    obtain ⟨γ, hγ, -⟩ := underway_ruled (e := e) hw errands (before ++ place :: after)
    obtain rfl := hγ.answer_unique hr hr'
    refine ⟨earlier, next, hfrom, hto, hown, hended, Environment.preserves_of_grows ?_⟩
    rw [hended.content, h.arena]
    exact hended.grows
  finishes after hready := by
    obtain ⟨γ, hγ, -⟩ := underway_ruled (e := e) hw errands (before ++ place :: after)
    refine hγ.ended hready c.number ?_
    rw [List.length_map]
    exact (List.getElem?_eq_some_iff.1 h.errand).1
  copy hwhole := by
    obtain ⟨cell, hcell⟩ := Option.isSome_iff_exists.1 h.outermost
    exact Arena.shallowCopy_load hcell hwhole

/-! ## Opening time -/

/-- A delivery that is put on the stall, and falls off again. -/
def breakage : Hook :=
  .ofSteps "breakage" true [.append (.text "vase"), .yield, .raise (.aborted "broken")]

/-- A delivery in two parts. -/
def delivery : Hook :=
  .ofSteps "delivery" true [.append (.text "rug"), .yield, .append (.text "chair")]

/-- Both come at the same time. Meanwhile somebody looks, and somebody asks. -/
def morning : List Errand :=
  [.job (.request "corner" (.update breakage.body)),
    .job (.request "corner" (.update delivery.body)), .job (.snapshot "corner"),
    .job (.request "corner" (.canFire "sell"))]

/-- The first delivery, when it gets the lock. -/
def broken : Update Reply where
  number := 0
  id := "corner"
  updater := breakage.body
  reply i := .result (.answered (.stored i))
  before := Engine.stallOpen
  arena := ⟨#[.list [.text "cup", .text "lamp"]]⟩

/-- The second one. It is given the lock by the first, and finds the same snapshot. -/
def delivered : Update Reply :=
  { broken with
    number := 1
    updater := delivery.body
    arena := ⟨#[.list [.text "cup", .text "lamp"],
      .list [.text "cup", .text "lamp", .text "vase"]]⟩ }

theorem unshared_morning {places : List Nat}
    (hkeys : (underway Engine.watched evening morning places).world.instances.keys = ["corner"])
    (hsize : 0 < (underway Engine.watched evening morning places).world.env.size) :
    Unshared Engine.watched evening morning places "corner" Engine.stallOpen.ctx where
  inside := hsize
  stored id' hid' j hj := by
    have hmem := Dict.mem_keys.2 ⟨j, hj⟩
    rw [hkeys] at hmem
    exact absurd (List.mem_singleton.1 hmem) hid'
  given n x hx _ whose h := by
    have hgift : ∀ x ∈ morning, ∀ made, x.gift made = none := by
      simp only [morning, List.forall_mem_cons]
      exact ⟨fun _ => rfl, fun _ => rfl, fun _ => rfl, fun _ => rfl, nofun⟩
    unfold giftOf at h
    rw [hgift x (List.mem_of_getElem? hx)] at h
    cases h

/-- The first delivery leaves nothing behind, and the second one is put on the stall as if it had
been the only one. -/
theorem update_copies_on_write_morning :
    evening.Tidy ∧ TopLevel breakage.body ∧ TopLevel delivery.body ∧
      GetsLock Engine.watched evening morning [] 0 broken ∧
      GetsLock Engine.watched evening morning [0, 0, 0, 0] 0 delivered ∧
      CopiesOnWrite Engine.watched evening morning [] 0 broken ∧
      CopiesOnWrite Engine.watched evening morning [0, 0, 0, 0] 0 delivered ∧
      delivered.arena.Whole delivered.before.ctx.root ∧
      let s := underway Engine.watched evening morning [0, 0, 0, 0, 0, 0, 0, 0]
      s.ready.length = 0 ∧
        s.world.env.read Engine.stallOpen.ctx = .list [.text "cup", .text "lamp"] ∧
        (s.world.instances.get? "corner").map (fun i => s.world.env.read i.ctx) =
          some (.list [.text "cup", .text "lamp", .text "rug", .text "chair"]) := by
  have hw : evening.Tidy := ⟨rfl, by decide, fun _ => Iff.rfl⟩
  have hbreakage : TopLevel breakage.body := topLevel_ofSteps _ _ (by decide)
  have hdelivery : TopLevel delivery.body := topLevel_ofSteps _ _ (by decide)
  have hbroken : GetsLock Engine.watched evening morning [] 0 broken := {
    errand := rfl
    reply := rfl
    unserved := by decide +kernel
    served := by decide +kernel
    stored := by decide +kernel
    running := by decide +kernel
    arena := by decide +kernel
    outermost := by decide +kernel
    unshared := unshared_morning (by decide +kernel) (by decide +kernel) }
  have hdelivered : GetsLock Engine.watched evening morning [0, 0, 0, 0] 0 delivered := {
    errand := rfl
    reply := rfl
    unserved := by decide +kernel
    served := by decide +kernel
    stored := by decide +kernel
    running := by decide +kernel
    arena := by decide +kernel
    outermost := by decide +kernel
    unshared := unshared_morning (by decide +kernel) (by decide +kernel) }
  refine ⟨hw, hbreakage, hdelivery, hbroken, hdelivered, ?_, ?_, ?_, ?_⟩
  · exact update_copies_on_write hw hbroken hbreakage
  · exact update_copies_on_write hw hdelivered hdelivery
  · show ∀ d ∈ [Datum.text "cup", .text "lamp"], delivered.arena.WholeWithin 1 d
    simp [Arena.WholeWithin]
  · decide +kernel

end Workflow.Api

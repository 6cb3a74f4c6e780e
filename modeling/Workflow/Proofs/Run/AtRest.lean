import Workflow.Proofs.Document.Keyed
import Workflow.Proofs.Run.Footprint
import Workflow.Proofs.Run.Guards
import Workflow.Proofs.Run.Rounds

/-!
# Instances at rest

Settling ends where nothing is left to be done, so settling once more does nothing.

**At rest** (`Instance.AtRest`). An instance that is not running, or whose state is known and has to
wait: it is no auto state, or no auto transition of it is selected. A hook that fails, a state that
is not there and a bound that is met end the run, so they leave an instance at rest as well.

**Staying put** (`Instance.StaysPut`). Settling an instance gives the very same snapshot, and calls
nothing but guards, which say no.

**Later worlds.** The guards of the definition go by a view of the context and keep it
(`Definition.JudgedBy`), so an instance stays at rest as long as its context has this view.

Main result: `settle_idempotent`. What settling, starting and settling, or a dispatch with a move
gives is at rest.
-/

namespace Workflow

open Activity

/-- The guards of a definition go by a view of the context, and keep it. -/
def Definition.JudgedBy {V : Type} (view : Arena → Datum → V) (d : Definition) : Prop :=
  ∀ {key s}, d.state? key = some s → ∀ t ∈ s.transitions, ∀ h ∈ t.guard, h.Judges view

/-- Work that changes at most the arena of a context keeps it. -/
theorem Touches.keeps_in {α : Type} {c : Context} {t : Activity Realm.flow α} (ht : Touches c t) :
    Keeps c.In t :=
  ht.keeps fun _ _ hsame hin => Nat.lt_of_lt_of_eq hin hsame.size.symm

namespace Instance

variable {d : Definition} {V : Type} {view : Arena → Datum → V} {c : Context} {i : Instance}
  {t : Transition} {ts : List Transition} {limits : Limits} {e e' : Environment}

/-! ## Rest -/

/-- Nothing is left to be done without an event: the run is over, or it is in a state that waits. -/
def AtRest (d : Definition) (i : Instance) (e : Environment) : Prop :=
  i.status = .running → ∃ source, d.state? i.current = some source ∧
    (source.kind = .auto → ((i.select source.autoTransitions).run e).answer = .ok (.ok none))

/-- Settling gives the very same snapshot, and calls nothing but guards, which say no. -/
structure StaysPut (d : Definition) (limits : Limits) (i : Instance) (e : Environment) : Prop where
  same : ((i.settle d limits).run e).answer = .ok i
  guards : ∃ cs, CallChain i.ctx e cs ((i.settle d limits).run e).world ∧
    calls ((i.settle d limits).run e).reports = cs.map (·.hook.name) ∧
    ∀ call ∈ cs, ∃ guard, call = .guard guard (.ok false)

theorem AtRest.of_ended (h : i.status ≠ .running) : AtRest d i e := fun hr => absurd hr h

/-- What is at rest stays so as long as its context has the same view. -/
theorem AtRest.congr (hd : d.JudgedBy view) (h : AtRest d i e)
    (he : Abreast view i.ctx i.ctx e e') : AtRest d i e' := by
  intro hr
  obtain ⟨source, hs, hauto⟩ := h hr
  refine ⟨source, hs, fun hk => ?_⟩
  have hguards : ∀ t ∈ source.autoTransitions, ∀ h, t.guard = some h → h.Judges view :=
    fun t ht => hd hs t (List.mem_filter.1 ht).1
  rw [(select_echoes hguards e e' he).1, hauto hk]

theorem run_rest_zero (i : Instance) (e : Environment) : (i.rest 0).run e = ⟨.ok i, e, []⟩ := by
  unfold rest
  rw [if_neg fun h => h.1 rfl]
  rfl

/-- Where nothing is selected, all guards say no. -/
theorem Selects.nothing_calls {cs : List HookCall} (h : Selects i ts cs (.ok none)) :
    cs = refusals ts := by
  cases h
  rfl

theorem mem_refusals {call : HookCall} (h : call ∈ refusals ts) :
    ∃ guard, call = .guard guard (.ok false) := by
  obtain ⟨t, -, ht⟩ := List.mem_filterMap.1 h
  obtain ⟨guard, -, rfl⟩ := Option.map_eq_some_iff.1 ht
  exact ⟨guard, rfl⟩

theorem StaysPut.of_run (h : (i.settle d limits).run e = ⟨.ok i, e, []⟩) :
    StaysPut d limits i e := by
  constructor
  · rw [h]
  · rw [h]
    exact ⟨[], .stop e, rfl, nofun⟩

/-- **What is at rest stays put**, under every bound. -/
theorem AtRest.staysPut (h : AtRest d i e) (hrounds : limits.bound = none → 0 < limits.rounds) :
    StaysPut d limits i e := by
  obtain ⟨rounds, hbudget⟩ : ∃ rounds, limits.budget = rounds + 1 := by
    unfold Limits.budget
    cases hb : limits.bound with
    | none => exact ⟨_, (Nat.succ_pred_eq_of_pos (hrounds hb)).symm⟩
    | some n => exact ⟨_, rfl⟩
  have hsettle : i.settle d limits = settleFrom d limits.bound (rounds + 1) 0 i := by
    unfold settle
    rw [hbudget]
  rw [settleFrom] at hsettle
  split at hsettle
  · exact .of_run (hsettle ▸ run_rest_zero i e)
  next hr =>
  obtain ⟨source, hs, hauto⟩ := h (by simpa using hr)
  simp only [hs] at hsettle
  split at hsettle
  · exact .of_run (hsettle ▸ run_rest_zero i e)
  next hwaits =>
  have hsel := hauto (by simp_all)
  have hrun : (i.settle d limits).run e =
      ⟨.ok i, ((i.select source.autoTransitions).run e).world,
        ((i.select source.autoTransitions).run e).reports⟩ := by
    rw [hsettle, run_bind_of_ok hsel]
    simp only [run_rest_zero, List.append_nil]
  obtain ⟨cs, hchain, hnames, hselects⟩ := select_calling i source.autoTransitions e
  rw [hsel] at hselects
  constructor
  · rw [hrun]
  · rw [hrun]
    obtain rfl : cs = _ := Selects.nothing_calls hselects
    exact ⟨_, hchain, hnames, fun _ => mem_refusals⟩

/-! ## Settling -/

theorem markFailed_gives {P : Environment → Prop} {Q : Instance → Environment → Prop} {s : Setback}
    (h : ∀ e, P e → Q ((s.reached i).failed s.cause) e) : Gives P Q (i.markFailed s) := by
  intro e he r hr
  rw [(run_markFailed i s e).1] at hr
  cases hr
  rw [(run_markFailed i s e).2]
  exact h e he

theorem rest_gives {P : Environment → Prop} {Q : Instance → Environment → Prop} {steps : Nat}
    (h : ∀ e, P e → Q i e) : Gives P Q (i.rest steps) := by
  unfold rest
  split
  · exact fun e he r hr => (Gives.done h) e he r hr
  · exact .done h

/-- Where nothing is selected, nothing would be selected again. -/
theorem select_gives (hts : ∀ t ∈ ts, ∀ h ∈ t.guard, h.Judges view) :
    Gives i.ctx.In (fun r e => i.ctx.In e ∧
      (r = .ok none → ((i.select ts).run e).answer = .ok (.ok none)) ∧
      ∀ h, r = .error h → h.reached.ctx = i.ctx) (i.select ts) := by
  intro e he r hr
  obtain ⟨hin, hview⟩ := select_keeps hts _ e ⟨he, rfl⟩
  refine ⟨hin, fun hnone => ?_, fun h hh => ?_⟩
  · rw [(select_echoes hts e _ ⟨he, hin, hview.symm⟩).1, hr, hnone]
  · rw [select_error_reached (hh ▸ hr ▸ canEnd_run (i.select ts) e)]

/-- What a move gives has the context of the instance, whether it stops or not. -/
def KeepsContext (i : Instance) (r : Except Setback Instance) (e : Environment) : Prop :=
  i.ctx.In e ∧ (∀ s, r = .error s → (s.reached i).ctx = i.ctx) ∧
    ∀ next, r = .ok next → next.ctx = i.ctx

theorem move_gives (d : Definition) (i : Instance) (t : Transition) (event : Value) :
    Gives i.ctx.In (KeepsContext i) (move d i t event) := by
  intro e he r hr
  have hend := hr ▸ canEnd_run (move d i t event) e
  refine ⟨Touches.keeps_in (touches_move d t event) e he, fun s hs => ?_, fun next hnext => ?_⟩
  · rcases move_error (hs ▸ hend) with h | ⟨target, moment, -, h⟩ <;> rw [h]
    rfl
  · exact move_ctx (hnext ▸ hend)

/-- The arena of the context is there, and the instance with it is at rest. -/
def RestsIn (d : Definition) (c : Context) (i : Instance) (e : Environment) : Prop :=
  i.ctx = c ∧ c.In e ∧ AtRest d i e

theorem RestsIn.of_failed {s : Setback} (hreached : (s.reached i).ctx = c) (hc : c.In e) :
    RestsIn d c ((s.reached i).failed s.cause) e :=
  ⟨hreached, hc, .of_ended nofun⟩

/-- **Settling ends at rest**, whatever the hooks have made of the context on the way. -/
theorem settleFrom_gives (hd : d.JudgedBy view) (bound : Option Int) (rounds steps : Nat)
    (i : Instance) : Gives i.ctx.In (RestsIn d i.ctx) (settleFrom d bound rounds steps i) := by
  induction rounds generalizing steps i with
  | zero => exact .fail _
  | succ rounds ih =>
    unfold settleFrom
    split
    next hr => exact rest_gives fun e he => ⟨rfl, he, .of_ended hr⟩
    next hr =>
    split
    next => exact markFailed_gives fun e he => .of_failed rfl he
    next source hs =>
    split
    next hwaits =>
      refine rest_gives fun e he => ⟨rfl, he, fun _ => ⟨source, hs, fun hk => ?_⟩⟩
      have hnone : source.autoTransitions = [] := by simpa [hk] using hwaits
      rw [hnone]
      rfl
    next =>
    have hguards : ∀ t ∈ source.autoTransitions, ∀ h ∈ t.guard, h.Judges view :=
      fun t ht => hd hs t (List.mem_filter.1 ht).1
    refine (select_gives hguards).bind fun r => ?_
    rcases r with f | _ | t
    · exact markFailed_gives fun e he => .of_failed (he.2.2 f rfl) he.1
    · exact rest_gives fun e he => ⟨rfl, he.1, fun _ => ⟨source, hs, fun _ => he.2.1 rfl⟩⟩
    dsimp only
    split
    · exact markFailed_gives fun e he => .of_failed rfl he.1
    refine Gives.bind (M := KeepsContext i) (fun e he => move_gives d i t .null e he.1) fun r => ?_
    rcases r with s | next
    · exact markFailed_gives fun e he => .of_failed (he.2.1 s rfl) he.1
    · intro e he
      have hnext := ih (steps + 1) next e
      rw [he.2.2 next rfl] at hnext
      exact hnext he.1

theorem settle_gives (hd : d.JudgedBy view) (limits : Limits) (i : Instance) :
    Gives i.ctx.In (RestsIn d i.ctx) (i.settle d limits) :=
  settleFrom_gives hd limits.bound limits.budget 0 i

/-- A dispatch with a move ends at rest. -/
theorem send_gives (hd : d.JudgedBy view) (limits : Limits) (i : Instance) (event : String) :
    Gives i.ctx.In (fun out e => out.transitioned = true → RestsIn d i.ctx out.reached e)
      (i.send d limits event) := by
  have hrefused : ∀ {P : Environment → Prop} (s : Setback),
      Gives P (fun out e => out.transitioned = true → RestsIn d i.ctx out.reached e)
        (i.refuseWith s) := by
    intro P s e _ out hout
    obtain ⟨failed, -, hout⟩ := run_bind_ok hout
    cases hout
    exact nofun
  obtain ⟨idle, hidle, hsend⟩ := send_eq d limits i event
  rw [hsend]
  refine Gives.bind (M := fun _ => i.ctx.In)
    (fun e he _ _ => Touches.keeps_in (touches_select _) e he) fun r => ?_
  rcases r with f | _ | t
  · exact hrefused _
  · intro e he out hout
    rw [hidle.run e] at hout
    cases hout
    exact nofun
  · refine (move_gives d i t (.text event)).bind fun r => ?_
    rcases r with s | next
    · exact hrefused s
    · refine Gives.bind (M := RestsIn d i.ctx) (fun e he => ?_) fun settled => .done fun e he _ => he
      have hnext := settle_gives hd limits next e
      rw [he.2.2 next rfl] at hnext
      exact hnext he.1

end Instance

theorem Definition.startAndSettle_gives {V : Type} {view : Arena → Datum → V} {d : Definition}
    (hd : d.JudgedBy view) (limits : Limits) (c : Context) (id : Option String) :
    Gives c.In (Instance.RestsIn d c) (d.startAndSettle limits c id) := by
  refine Gives.bind (M := fun i e => i.ctx = c ∧ c.In e) (fun e he i hi => ?_) fun i e he => ?_
  · obtain ⟨name, moment, rfl⟩ := start_ok (hi ▸ canEnd_run (d.start c id) e)
    exact ⟨rfl, Touches.keeps_in (touches_start d c id) e he⟩
  · obtain ⟨rfl, hin⟩ := he
    exact Instance.settle_gives hd limits i e hin

/-! ## Once more -/

/-- The instance stays put under every bound, now and as long as its context has the same view. -/
def Instance.Rests {V : Type} (view : Arena → Datum → V) (d : Definition) (i : Instance)
    (e : Environment) : Prop :=
  i.ctx.In e ∧ ∀ (limits : Limits) (e' : Environment), (limits.bound = none → 0 < limits.rounds) →
    Abreast view i.ctx i.ctx e e' → i.StaysPut d limits e'

variable {V : Type} {view : Arena → Datum → V} {d : Definition} {i : Instance} {c : Context}

theorem Instance.RestsIn.rests {e : Environment} (hd : d.JudgedBy view) (h : i.RestsIn d c e) :
    i.Rests view d e := by
  obtain ⟨rfl, hin, hrest⟩ := h
  exact ⟨hin, fun limits e' hrounds he => (hrest.congr hd he).staysPut hrounds⟩

/-- **Settling once more does nothing.** Whatever bound there was, and whatever the hooks other than
guards have done to the context or how they failed: what settling gives, what starting and settling
gives, and what a dispatch with a move gives stays put when it is settled again, under any bound,
and no exit hook, action or entry hook is called. -/
theorem settle_idempotent (hd : d.JudgedBy view) (limits : Limits) (e : Environment) :
    (∀ (i r : Instance), i.ctx.In e → ((i.settle d limits).run e).answer = .ok r →
      r.Rests view d ((i.settle d limits).run e).world) ∧
    (∀ (c : Context) (id : Option String) (r : Instance), c.In e →
      ((d.startAndSettle limits c id).run e).answer = .ok r →
        r.Rests view d ((d.startAndSettle limits c id).run e).world) ∧
    ∀ (i : Instance) (event : String) (out : Dispatch), i.ctx.In e →
      ((i.send d limits event).run e).answer = .ok out → out.transitioned = true →
        out.reached.Rests view d ((i.send d limits event).run e).world := by
  refine ⟨fun i r hin hr => ?_, fun c id r hin hr => ?_, fun i event out hin hout hmoved => ?_⟩
  · exact (Instance.settle_gives hd limits i e hin r hr).rests hd
  · exact (Definition.startAndSettle_gives hd limits c id e hin r hr).rests hd
  · exact (Instance.send_gives hd limits i event e hin out hout hmoved).rests hd

/-! ## A van that is unloaded -/

/-- There is something in the van. -/
def laden : Hook where
  name := "laden"
  body root := .done (.datum root)

/-- Empties the van. -/
def unload : Hook where
  name := "unload"
  body _ := .update (fun a => a.setCell 0 (.list [])) (.done (.datum .null))

/-- A van is unloaded where it arrives, and drives on only with a load. -/
def depot : Definition where
  id := .text "depot"
  initial := "arrived"
  states := Dict.ofList [
    ("arrived", { id := "arrived", kind := .auto, transitions := [
      { target := .text "unloaded", guard := some laden, action := some unload }] }),
    ("unloaded", { id := "unloaded", kind := .auto, transitions := [
      { target := .text "gone", guard := some laden }] }),
    ("gone", { id := "gone", kind := .terminal })]

/-- The world with one crate in the van. -/
def yard : Environment where
  clock := { reading := fun _ => ⟨0⟩ }
  contexts := ⟨#[⟨#[.list [.text "crate"]]⟩]⟩

theorem depot_judged : depot.JudgedBy wholeView := by
  intro key s hs t ht h hh
  have hmem := Dict.get?_ofList_mem hs
  simp only [List.mem_cons, List.not_mem_nil, or_false, Prod.mk.injEq] at hmem
  have hladen : h = laden := by
    rcases hmem with ⟨-, rfl⟩ | ⟨-, rfl⟩ | ⟨-, rfl⟩ <;> simp_all
  rw [hladen]
  exact laden.judges_whole fun _ _ => rfl

/-- The van is unloaded and stays, in an auto state: its guard, which let it in, says no now. -/
theorem settle_idempotent_van :
    depot.JudgedBy wholeView ∧ (Context.mk 0 (.ref 0)).In yard ∧
      ∃ r, ((depot.startAndSettle {} ⟨0, .ref 0⟩ none).run yard).answer = .ok r ∧
        r.current = "unloaded" ∧ r.status = .running ∧ r.Rests wholeView depot
          ((depot.startAndSettle {} ⟨0, .ref 0⟩ none).run yard).world := by
  have hin : (Context.mk 0 (.ref 0)).In yard := Nat.zero_lt_one
  refine ⟨depot_judged, hin, _, rfl, rfl, rfl, ?_⟩
  exact (settle_idempotent depot_judged {} yard).2.1 _ none _ hin rfl

end Workflow

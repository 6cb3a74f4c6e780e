import Mathlib.Data.List.Perm.Basic
import Workflow.Activity.Schedule
import Workflow.Proofs.Activity.Shape

/-!
# Calls that are served under one lock

Several calls run at the same time. Each looks at the world, takes the same lock, works, gives the
lock back, and may report and pause before it ends (`Activity.Guarded`). Then it makes no difference
how their turns are mixed: they are served one after the other, in the order in which they get the
lock.

**One after the other** (`serve`). The calls run alone, in an order, on what the calls before have
left.

**The invariant** (`Orderly`). At each moment some calls have been served, in the order in which
they got the lock; at most one is being served, and all others have not begun or wait for the lock,
or are on their way out. What has been served is the same as if these calls had run alone, and what
is left of the one that is being served leads on to the same end.

Main result: `turns_served`.
-/

namespace Workflow

open Activity

section

variable {R : Realm} {α β : Type}

/-- The calls of an order, one after the other, with their answers. -/
def serve (calls : List (Activity R α)) :
    List Nat → R.World → List (Nat × Except Failure α) × R.World
  | [], w => ([], w)
  | n :: rest, w =>
    match calls[n]? with
    | some call =>
      let o := call.run w
      ((n, o.answer) :: (serve calls rest o.world).1, (serve calls rest o.world).2)
    | none => serve calls rest w

theorem serve_append (calls : List (Activity R α)) (earlier later : List Nat) (w : R.World) :
    serve calls (earlier ++ later) w =
      ((serve calls earlier w).1 ++ (serve calls later (serve calls earlier w).2).1,
        (serve calls later (serve calls earlier w).2).2) := by
  induction earlier generalizing w with
  | nil => rfl
  | cons n rest ih =>
    simp only [List.cons_append, serve]
    cases calls[n]? with
    | none => exact ih w
    | some call => simp only [ih, List.cons_append]

theorem serve_singleton {calls : List (Activity R α)} {n : Nat} {call : Activity R α}
    (h : calls[n]? = some call) (w : R.World) :
    serve calls [n] w = ([(n, (call.run w).answer)], (call.run w).world) := by
  simp only [serve, h]

namespace Activity

/-- What is left of a call once it has got the lock. -/
def critical (key : R.Key) (body : Activity R β) (after : β → Activity R α) : Activity R α :=
  body.attempt.bind fun r => .release key ((ofExcept r).bind after)

theorem locked_bind (key : R.Key) (body : Activity R β) (after : β → Activity R α) :
    (locked key body).bind after = .acquire key (critical key body after) :=
  congrArg (Activity.acquire key) (bind_assoc body.attempt _ after)

/-- Work under the lock that keeps `I`, and a quiet end. -/
def Critical (I : R.World → Prop) (key : R.Key) (t : Activity R α) : Prop :=
  ∃ (β : Type) (body : Activity R β) (after : β → Activity R α),
    t = critical key body after ∧ body.Within I ∧ ∀ b, Quiet I (after b)

/-- A call that looks at the world and is then served under the lock. -/
def Guarded (I : R.World → Prop) (key : R.Key) (t : Activity R α) : Prop :=
  ∃ k q, t = .look k ∧ (∀ w, I w → k w = .acquire key q) ∧ Critical I key q

end Activity

namespace Schedule

variable [DecidableEq R.Key] {key : R.Key}

theorem giveBack_nil {s : Schedule R α} (h : s.waiting = []) :
    s.giveBack key = { s with held := s.held.erase key } := by
  unfold giveBack
  rw [h]
  rfl

theorem giveBack_cons {s : Schedule R α} {m : Nat} {q : Activity R α}
    {rest : List (R.Key × Nat × Activity R α)} (h : s.waiting = (key, m, q) :: rest) :
    s.giveBack key = { s with
      ready := s.ready ++ [(m, q)]
      waiting := rest
      taken := (key, m) :: s.taken } := by
  unfold giveBack
  rw [h]
  simp

theorem takers_cons (s : Schedule R α) (key : R.Key) (n : Nat) :
    ({ s with taken := (key, n) :: s.taken }).takers key = s.takers key ++ [n] := by
  unfold takers
  simp

theorem not_mem_takers_cons {s : Schedule R α} {n a : Nat} (ha : a ∉ s.takers key) (hne : a ≠ n) :
    a ∉ ({ s with taken := (key, n) :: s.taken }).takers key := by
  rw [takers_cons]
  intro hmem
  rcases List.mem_append.1 hmem with hmem | hmem
  · exact ha hmem
  · exact hne (List.mem_singleton.1 hmem)

theorem nodup_takers_cons {s : Schedule R α} {n : Nat} (h : (s.takers key).Nodup)
    (hn : n ∉ s.takers key) : (({ s with taken := (key, n) :: s.taken }).takers key).Nodup := by
  rw [takers_cons]
  refine List.nodup_append.2 ⟨h, List.pairwise_singleton _ n, fun a ha b hb hab => ?_⟩
  rw [List.mem_singleton.1 hb] at hab
  exact hn (hab ▸ ha)

end Schedule

end

/-! ## The invariant -/

section

variable {R : Realm} {α : Type} (I : R.World → Prop) (key : R.Key)
  (calls : List (Activity R α)) (w₀ : R.World)

/-- Activity `n` is what is left of its call until it gets the lock. -/
def Queued (n : Nat) (t : Activity R α) : Prop :=
  ∃ call, calls[n]? = some call ∧ Critical I key t ∧ ∀ w, I w → call.run w = t.run w

/-- Activity `n`, in the world `w`, is what is left of its call, which was begun in the world
`v`. -/
def Inside (v w : R.World) (n : Nat) (t : Activity R α) : Prop :=
  ∃ call, calls[n]? = some call ∧ Critical I key t ∧
    (t.run w).answer = (call.run v).answer ∧ (t.run w).world = (call.run v).world

variable [DecidableEq R.Key]

/-- Those of `past` have been served, `holder` is being served, and `others` are ready. -/
structure Orderly (others : List (Nat × Activity R α)) (holder : Option (Nat × Activity R α))
    (past : List Nat) (s : Schedule R α) : Prop where
  numbers : (others.map (·.1) ++ holder.toList.map (·.1) ++ s.waiting.map (·.2.1) ++
    s.finished.map (·.1)).Perm (List.range calls.length)
  taken : s.takers key = past ++ holder.toList.map (·.1)
  nodup : (s.takers key).Nodup
  world : I s.world
  others : ∀ x ∈ others, (x.1 ∉ s.takers key ∧ calls[x.1]? = some x.2) ∨
    ∃ r, x.2.EndsIn I r ∧ (x.1, r) ∈ (serve calls past w₀).1
  waiting : ∀ x ∈ s.waiting, x.1 = key ∧ x.2.1 ∉ s.takers key ∧ Queued I key calls x.2.1 x.2.2
  finished : ∀ x ∈ s.finished, x ∈ (serve calls past w₀).1
  free : holder = none → s.held = [] ∧ s.waiting = [] ∧ s.world = (serve calls past w₀).2
  inside : ∀ x ∈ holder, s.held = [key] ∧
    Inside I key calls (serve calls past w₀).2 s.world x.1 x.2

/-- The invariant between two turns. -/
def Settled (s : Schedule R α) : Prop :=
  ∃ others holder past, s.ready.Perm (others ++ holder.toList) ∧
    Orderly I key calls w₀ others holder past s

end

section

variable {R : Realm} {α β : Type} {I : R.World → Prop} {key : R.Key}
  {calls : List (Activity R α)} {w₀ : R.World} {others : List (Nat × Activity R α)}
  {holder : Option (Nat × Activity R α)} {past : List Nat} {s : Schedule R α} {n : Nat}
  {t : Activity R α} {r : Except Failure α}

theorem Queued.inside {w : R.World} (h : Queued I key calls n t) (hw : I w) :
    Inside I key calls w w n t := by
  obtain ⟨call, hn, hcritical, hrun⟩ := h
  refine ⟨call, hn, hcritical, ?_⟩
  rw [hrun w hw]
  exact ⟨rfl, rfl⟩

/-- What is left of a call when its work under the lock is done leads to one end. -/
theorem run_critical_ofExcept (key : R.Key) {after : β → Activity R α}
    (hafter : ∀ b, Quiet I (after b)) (x : Except Failure β) {w : R.World} (hw : I w) :
    ∃ r, ((ofExcept x).bind after).EndsIn I r ∧
      ((critical key (ofExcept x) after).run w).answer = r ∧
      ((critical key (ofExcept x) after).run w).world = w := by
  obtain ⟨r, hr⟩ := (Quiet.ofExcept x).bind hafter
  have hrun : ((ofExcept x).bind after).run w = (critical key (ofExcept x) after).run w := by
    cases x <;> rfl
  rw [← hrun]
  exact ⟨r, hr, hr.run hw⟩

variable [DecidableEq R.Key]

/-! ## On the way out -/

/-- Each activity is in one place only. -/
theorem Orderly.count_le (h : Orderly I key calls w₀ others holder past s) (a : Nat) :
    (others.map (·.1)).count a + (holder.toList.map (·.1)).count a +
      (s.waiting.map (·.2.1)).count a + (s.finished.map (·.1)).count a ≤ 1 := by
  have hcount := h.numbers.count_eq a
  have hone := List.nodup_iff_count.1 (List.nodup_range (n := calls.length)) a
  rw [← hcount] at hone
  simpa only [List.count_append] using hone

/-- An activity that ends leaves its answer, which is that of its call. -/
theorem Orderly.finish (h : Orderly I key calls w₀ ((n, t) :: others) holder past s)
    (hn : (n, r) ∈ (serve calls past w₀).1) :
    Orderly I key calls w₀ others holder past { s with finished := (n, r) :: s.finished } where
  numbers := by
    refine List.Perm.trans (List.perm_iff_count.2 fun a => ?_) h.numbers
    simp only [List.map_cons, List.cons_append, List.count_append, List.count_cons]
    omega
  taken := h.taken
  nodup := h.nodup
  world := h.world
  others x hx := h.others x (List.mem_cons_of_mem _ hx)
  waiting := h.waiting
  finished x hx := by
    rcases List.mem_cons.1 hx with rfl | hx
    · exact hn
    · exact h.finished x hx
  free := h.free
  inside := h.inside

/-- Reports are of no account. -/
theorem Orderly.report (h : Orderly I key calls w₀ others holder past s) (rs : List R.Report) :
    Orderly I key calls w₀ others holder past { s with reported := rs } :=
  ⟨h.numbers, h.taken, h.nodup, h.world, h.others, h.waiting, h.finished, h.free, h.inside⟩

/-- Who is ready is told by `others` and `holder`. -/
theorem Orderly.setReady (h : Orderly I key calls w₀ others holder past s)
    (ready : List (Nat × Activity R α)) :
    Orderly I key calls w₀ others holder past { s with ready } :=
  ⟨h.numbers, h.taken, h.nodup, h.world, h.others, h.waiting, h.finished, h.free, h.inside⟩

/-- An activity on its way out goes a step further. -/
theorem Orderly.leave {t' : Activity R α}
    (h : Orderly I key calls w₀ ((n, t) :: others) holder past s) (ht : t'.EndsIn I r)
    (hn : (n, r) ∈ (serve calls past w₀).1) :
    Orderly I key calls w₀ ((n, t') :: others) holder past s :=
  { h with
    others := fun x hx => by
      rcases List.mem_cons.1 hx with rfl | hx
      · exact .inr ⟨r, ht, hn⟩
      · exact h.others x (List.mem_cons_of_mem _ hx) }

/-- **An activity on its way out** changes nothing for the others. -/
theorem advance_leaving (ht : t.EndsIn I r) (hn : (n, r) ∈ (serve calls past w₀).1)
    (h : Orderly I key calls w₀ ((n, t) :: others) holder past s)
    (hready : s.ready.Perm (others ++ holder.toList)) :
    Settled I key calls w₀ (Schedule.advance n t s) := by
  induction t generalizing s with
  | done a =>
    cases ht
    exact ⟨others, holder, past, hready, h.finish hn⟩
  | fail e =>
    cases ht
    exact ⟨others, holder, past, hready, h.finish hn⟩
  | look k ih =>
    have hk := ht s.world h.world
    exact ih s.world hk (h.leave hk hn) hready
  | report rep next ih =>
    have hnext : next.EndsIn I r := ht
    exact ih hnext ((h.leave hnext hn).report _) hready
  | pause k ih =>
    have hnext : (k .resume).EndsIn I r := ht
    refine ⟨(n, k .resume) :: others, holder, past, ?_, (h.leave hnext hn).setReady _⟩
    refine List.perm_append_comm.trans ?_
    exact hready.cons (n, k .resume)
  | update f next ih => exact ht.elim
  | acquire key' next ih => exact ht.elim
  | release key' next ih => exact ht.elim

/-! ## Under the lock -/

/-- The holder of the lock is one of those that have been served as soon as it gives the lock
back. -/
theorem Orderly.served (h : Orderly I key calls w₀ others (some (n, t)) past s)
    (hanswer : (t.run s.world).answer = r) (hworld : (t.run s.world).world = s.world) :
    serve calls (past ++ [n]) w₀ = ((serve calls past w₀).1 ++ [(n, r)], s.world) := by
  obtain ⟨-, call, hn, -, ha, hw⟩ := h.inside (n, t) rfl
  rw [serve_append, serve_singleton hn, ← ha, ← hw, hanswer, hworld]

/-- When one more has been served, those that are on their way out are still so. -/
theorem Orderly.others_served {t' : Activity R α}
    (h : Orderly I key calls w₀ others holder past s) (ht : t'.EndsIn I r)
    (hserved : (serve calls (past ++ [n]) w₀).1 = (serve calls past w₀).1 ++ [(n, r)]) :
    ∀ x ∈ (n, t') :: others, (x.1 ∉ s.takers key ∧ calls[x.1]? = some x.2) ∨
      ∃ r, x.2.EndsIn I r ∧ (x.1, r) ∈ (serve calls (past ++ [n]) w₀).1 := by
  rw [hserved]
  intro x hx
  rcases List.mem_cons.1 hx with rfl | hx
  · exact .inr ⟨r, ht, List.mem_append_right _ (List.mem_singleton.2 rfl)⟩
  rcases h.others x hx with hfresh | ⟨r', hr', hx'⟩
  · exact .inl hfresh
  · exact .inr ⟨r', hr', List.mem_append_left _ hx'⟩

theorem Orderly.finished_served (h : Orderly I key calls w₀ others holder past s)
    (hserved : (serve calls (past ++ [n]) w₀).1 = (serve calls past w₀).1 ++ [(n, r)]) :
    ∀ x ∈ s.finished, x ∈ (serve calls (past ++ [n]) w₀).1 := by
  rw [hserved]
  exact fun x hx => List.mem_append_left _ (h.finished x hx)

/-- Nobody waits, and the lock becomes free. -/
theorem Orderly.giveBack_nil {t' : Activity R α}
    (h : Orderly I key calls w₀ others (some (n, t)) past s) (ht : t'.EndsIn I r)
    (hserved : serve calls (past ++ [n]) w₀ = ((serve calls past w₀).1 ++ [(n, r)], s.world))
    (hwaiting : s.waiting = []) :
    Orderly I key calls w₀ ((n, t') :: others) none (past ++ [n])
      { s with held := s.held.erase key } where
  numbers := by
    refine List.Perm.trans (List.perm_iff_count.2 fun a => ?_) h.numbers
    simp only [Option.toList, List.map_cons, List.map_nil, List.cons_append, List.count_append,
      List.count_cons, List.count_nil]
    omega
  taken := h.taken.trans (List.append_nil _).symm
  nodup := h.nodup
  world := h.world
  others := h.others_served ht (congrArg Prod.fst hserved)
  waiting := h.waiting
  finished := h.finished_served (congrArg Prod.fst hserved)
  free _ := by
    obtain ⟨hheld, -⟩ := h.inside (n, t) rfl
    refine ⟨?_, hwaiting, (congrArg Prod.snd hserved).symm⟩
    show s.held.erase key = []
    rw [hheld, List.erase_cons_head]
  inside := nofun

/-- The one that has waited longest is served next. -/
theorem Orderly.giveBack_cons {t' : Activity R α}
    (h : Orderly I key calls w₀ others (some (n, t)) past s) (ht : t'.EndsIn I r)
    (hserved : serve calls (past ++ [n]) w₀ = ((serve calls past w₀).1 ++ [(n, r)], s.world))
    {m : Nat} {q : Activity R α} {rest : List (R.Key × Nat × Activity R α)}
    (hwaiting : s.waiting = (key, m, q) :: rest) :
    Orderly I key calls w₀ ((n, t') :: others) (some (m, q)) (past ++ [n])
      { s with
        ready := s.ready ++ [(m, q)]
        waiting := rest
        taken := (key, m) :: s.taken } := by
  have hcount := h.count_le m
  rw [hwaiting, List.map_cons, List.count_cons_self] at hcount
  have hmem : (key, m, q) ∈ s.waiting := by
    rw [hwaiting]
    exact List.mem_cons_self
  obtain ⟨-, hm, hqueued⟩ := h.waiting _ hmem
  have hnext : s.takers key ++ [m] = (past ++ [n]) ++ [m] := congrArg (· ++ [m]) h.taken
  -- Nobody else has the number of the next one.
  have hothers : ∀ a ∈ ((n, t') :: others).map (·.1), a ≠ m := by
    rintro a ha rfl
    have hpos := List.count_pos_iff.2 ha
    simp only [Option.toList, List.map_cons, List.map_nil, List.count_cons, List.count_nil]
      at hcount hpos
    omega
  have hrest : ∀ a ∈ rest.map (·.2.1), a ≠ m := by
    rintro a ha rfl
    have hpos := List.count_pos_iff.2 ha
    omega
  exact {
    numbers := by
      refine List.Perm.trans (List.perm_iff_count.2 fun a => ?_) h.numbers
      simp only [hwaiting, Option.toList, List.map_cons, List.map_nil, List.cons_append,
        List.count_append, List.count_cons, List.count_nil]
      omega
    taken := (s.takers_cons key m).trans hnext
    nodup := Schedule.nodup_takers_cons h.nodup hm
    world := h.world
    others := fun x hx => by
      rcases h.others_served ht (congrArg Prod.fst hserved) x hx with ⟨hfresh, hcall⟩ | hleaving
      · have hne := hothers x.1 (List.mem_map_of_mem hx)
        exact .inl ⟨Schedule.not_mem_takers_cons hfresh hne, hcall⟩
      · exact .inr hleaving
    waiting := fun x hx => by
      obtain ⟨hkey, hfresh, hx'⟩ := h.waiting x (hwaiting ▸ List.mem_cons_of_mem _ hx)
      have hne := hrest x.2.1 (List.mem_map_of_mem hx)
      exact ⟨hkey, Schedule.not_mem_takers_cons hfresh hne, hx'⟩
    finished := h.finished_served (congrArg Prod.fst hserved)
    free := nofun
    inside := fun x hx => by
      cases hx
      rw [hserved]
      exact ⟨(h.inside (n, t) rfl).1, hqueued.inside h.world⟩ }

/-- **The end of the work under the lock.** -/
theorem advance_release {after : β → Activity R α} (hafter : ∀ b, Quiet I (after b))
    (x : Except Failure β)
    (h : Orderly I key calls w₀ others (some (n, critical key (ofExcept x) after)) past s)
    (hready : s.ready.Perm others) :
    Settled I key calls w₀ (Schedule.advance n (critical key (ofExcept x) after) s) := by
  obtain ⟨r, hr, hanswer, hworld⟩ := run_critical_ofExcept key hafter x h.world
  have hserved := h.served hanswer hworld
  have hadvance : Schedule.advance n (critical key (ofExcept x) after) s =
      Schedule.advance n ((ofExcept x).bind after) (s.giveBack key) := by
    cases x <;> rfl
  have hn : (n, r) ∈ (serve calls (past ++ [n]) w₀).1 := by
    rw [hserved]
    exact List.mem_append_right _ (List.mem_singleton.2 rfl)
  rw [hadvance]
  cases hwaiting : s.waiting with
  | nil =>
    rw [Schedule.giveBack_nil hwaiting]
    refine advance_leaving hr hn (h.giveBack_nil hr hserved hwaiting) ?_
    simpa using hready
  | cons first rest =>
    obtain ⟨key', m, q⟩ := first
    have hkey : key' = key := (h.waiting (key', m, q) (by rw [hwaiting]; exact .head _)).1
    subst hkey
    rw [Schedule.giveBack_cons hwaiting]
    exact advance_leaving hr hn (h.giveBack_cons hr hserved hwaiting) (hready.append_right _)

/-- The holder of the lock goes a step further. -/
theorem Orderly.proceed {t' : Activity R α} {w : R.World}
    (h : Orderly I key calls w₀ others (some (n, t)) past s) (hw : I w)
    (hcritical : Critical I key t') (hanswer : (t'.run w).answer = (t.run s.world).answer)
    (hworld : (t'.run w).world = (t.run s.world).world) :
    Orderly I key calls w₀ others (some (n, t')) past { s with world := w } where
  numbers := h.numbers
  taken := h.taken
  nodup := h.nodup
  world := hw
  others := h.others
  waiting := h.waiting
  finished := h.finished
  free := nofun
  inside x hx := by
    cases hx
    obtain ⟨hheld, call, hn, -, ha, hv⟩ := h.inside (n, t) rfl
    exact ⟨hheld, call, hn, hcritical, hanswer.trans ha, hworld.trans hv⟩

/-- **The holder of the lock** works on as it would alone, and then gives the lock back. -/
theorem advance_inside {rest : Activity R β} {after : β → Activity R α} (hrest : rest.Within I)
    (hafter : ∀ b, Quiet I (after b))
    (h : Orderly I key calls w₀ others (some (n, critical key rest after)) past s)
    (hready : s.ready.Perm others) :
    Settled I key calls w₀ (Schedule.advance n (critical key rest after) s) := by
  induction rest generalizing s with
  | done b => exact advance_release hafter (.ok b) h hready
  | fail e => exact advance_release hafter (.error e) h hready
  | look k ih =>
    have hk := hrest s.world h.world
    exact ih s.world hk (h.proceed h.world ⟨β, _, after, rfl, hk, hafter⟩ rfl rfl) hready
  | update f next ih =>
    have hw := hrest.1 s.world h.world
    exact ih hrest.2 (h.proceed hw ⟨β, _, after, rfl, hrest.2, hafter⟩ rfl rfl) hready
  | report rep next ih =>
    have hnext : next.Within I := hrest
    exact ih hnext ((h.proceed h.world ⟨β, _, after, rfl, hnext, hafter⟩ rfl rfl).report _) hready
  | pause k ih =>
    have hk : (k .resume).Within I := hrest
    refine ⟨others, some (n, critical key (k .resume) after), past, hready.append_right _, ?_⟩
    exact (h.proceed h.world ⟨β, _, after, rfl, hk, hafter⟩ rfl rfl).setReady _
  | acquire key' next ih => exact hrest.elim
  | release key' next ih => exact hrest.elim

/-! ## Turns -/

/-- A call that comes while another one is being served waits. -/
theorem Orderly.queue (h : Orderly I key calls w₀ ((n, t) :: others) holder past s)
    (hheld : holder ≠ none) (hn : n ∉ s.takers key) {q : Activity R α}
    (hq : Queued I key calls n q) :
    Orderly I key calls w₀ others holder past
      { s with waiting := s.waiting ++ [(key, n, q)] } where
  numbers := by
    refine List.Perm.trans (List.perm_iff_count.2 fun a => ?_) h.numbers
    simp only [List.map_append, List.map_cons, List.map_nil, List.cons_append, List.count_append,
      List.count_cons, List.count_nil]
    omega
  taken := h.taken
  nodup := h.nodup
  world := h.world
  others x hx := h.others x (List.mem_cons_of_mem _ hx)
  waiting x hx := by
    rcases List.mem_append.1 hx with hx | hx
    · exact h.waiting x hx
    · cases List.mem_singleton.1 hx
      exact ⟨rfl, hn, hq⟩
  finished := h.finished
  free hnone := absurd hnone hheld
  inside := h.inside

/-- A call that comes while the lock is free gets it. -/
theorem Orderly.enter (h : Orderly I key calls w₀ ((n, t) :: others) none past s)
    (hn : n ∉ s.takers key) {q : Activity R α} (hq : Queued I key calls n q) :
    Orderly I key calls w₀ others (some (n, q)) past
      { s with held := key :: s.held, taken := (key, n) :: s.taken } := by
  obtain ⟨hheld, hwaiting, hworld⟩ := h.free rfl
  have hcount := h.count_le n
  rw [List.map_cons, List.count_cons_self] at hcount
  have hothers : ∀ x ∈ others, x.1 ≠ n := by
    rintro x hx rfl
    have hpos := List.count_pos_iff.2 (List.mem_map_of_mem (f := fun y => y.1) hx)
    omega
  exact {
    numbers := by
      refine List.Perm.trans (List.perm_iff_count.2 fun a => ?_) h.numbers
      simp only [Option.toList, List.map_cons, List.map_nil, List.cons_append, List.count_append,
        List.count_cons, List.count_nil]
      omega
    taken := by
      have htaken := h.taken
      rw [Option.toList, List.map_nil, List.append_nil] at htaken
      exact (s.takers_cons key n).trans (congrArg (· ++ [n]) htaken)
    nodup := Schedule.nodup_takers_cons h.nodup hn
    world := h.world
    others := fun x hx => by
      rcases h.others x (List.mem_cons_of_mem _ hx) with ⟨hfresh, hcall⟩ | hleaving
      · exact .inl ⟨Schedule.not_mem_takers_cons hfresh (hothers x hx), hcall⟩
      · exact .inr hleaving
    waiting := fun x hx => by
      rw [hwaiting] at hx
      cases hx
    finished := h.finished
    free := nofun
    inside := fun x hx => by
      cases hx
      refine ⟨congrArg (key :: ·) hheld, ?_⟩
      rw [← hworld]
      exact hq.inside h.world }

/-- **A call that begins** gets the lock, or waits for it. -/
theorem advance_fresh (ht : Guarded I key t) (hn : n ∉ s.takers key) (hcall : calls[n]? = some t)
    (h : Orderly I key calls w₀ ((n, t) :: others) holder past s)
    (hready : s.ready.Perm (others ++ holder.toList)) :
    Settled I key calls w₀ (Schedule.advance n t s) := by
  obtain ⟨k, q, rfl, hk, hcritical⟩ := ht
  have hq : Queued I key calls n q := by
    refine ⟨.look k, hcall, hcritical, fun w hw => ?_⟩
    show (k w).run w = q.run w
    rw [hk w hw]
    rfl
  show Settled I key calls w₀ (Schedule.advance n (k s.world) s)
  rw [hk s.world h.world]
  unfold Schedule.advance
  cases holder with
  | some x =>
    obtain ⟨hheld, -⟩ := h.inside x rfl
    rw [if_pos (by rw [hheld]; exact List.mem_singleton.2 rfl)]
    exact ⟨others, some x, past, hready, h.queue nofun hn hq⟩
  | none =>
    obtain ⟨hheld, -⟩ := h.free rfl
    rw [if_neg (by rw [hheld]; exact List.not_mem_nil)]
    have henter := h.enter hn hq
    obtain ⟨β, body, after, rfl, hbody, hafter⟩ := hcritical
    exact advance_inside hbody hafter henter (by simpa using hready)

/-- The order in which the others are listed is of no account. -/
theorem Orderly.perm {others' : List (Nat × Activity R α)}
    (h : Orderly I key calls w₀ others holder past s) (hperm : others.Perm others') :
    Orderly I key calls w₀ others' holder past s :=
  { h with
    numbers := by
      refine List.Perm.trans ?_ h.numbers
      exact (((hperm.map _).symm.append_right _).append_right _).append_right _
    others := fun x hx => h.others x (hperm.mem_iff.2 hx) }

/-- **One turn.** -/
theorem Settled.turn (hcalls : ∀ t ∈ calls, Guarded I key t) (h : Settled I key calls w₀ s)
    (place : Nat) : Settled I key calls w₀ (s.turn place) := by
  unfold Schedule.turn
  split
  next m t hget =>
    obtain ⟨others, holder, past, hready, h⟩ := h
    obtain ⟨hlt, hget⟩ := List.getElem?_eq_some_iff.1 hget
    have hperm : ((m, t) :: s.ready.eraseIdx place).Perm (others ++ holder.toList) := by
      rw [← hget]
      exact (List.getElem_cons_eraseIdx_perm hlt).trans hready
    rcases List.mem_append.1 (hperm.mem_iff.1 List.mem_cons_self) with hmem | hmem
    · obtain ⟨before, after, rfl⟩ := List.append_of_mem hmem
      have hfront : (before ++ (m, t) :: after).Perm ((m, t) :: (before ++ after)) :=
        List.perm_middle
      have hrest : (s.ready.eraseIdx place).Perm (before ++ after ++ holder.toList) :=
        (hperm.trans (hfront.append_right _)).cons_inv
      have horder := (h.perm hfront).setReady (s.ready.eraseIdx place)
      rcases h.others (m, t) hmem with ⟨hfresh, hcall⟩ | ⟨r, hr, hserved⟩
      · exact advance_fresh (hcalls t (List.mem_of_getElem? hcall)) hfresh hcall horder hrest
      · exact advance_leaving hr hserved horder hrest
    · obtain rfl : holder = some (m, t) := Option.mem_toList.1 hmem
      obtain ⟨-, call, -, ⟨β, body, after, rfl, hbody, hafter⟩, -⟩ := h.inside (m, t) rfl
      have hrest : (s.ready.eraseIdx place).Perm others :=
        (hperm.trans List.perm_append_comm).cons_inv
      exact advance_inside hbody hafter (h.setReady _) hrest
  next => exact h

theorem Settled.turns (hcalls : ∀ t ∈ calls, Guarded I key t) (places : List Nat)
    (h : Settled I key calls w₀ s) : Settled I key calls w₀ (s.turns places) := by
  unfold Schedule.turns
  induction places generalizing s with
  | nil => exact h
  | cons place rest ih => exact ih (h.turn hcalls place)

theorem settled_start (hw : I w₀) : Settled I key calls w₀ (Schedule.start w₀ calls) := by
  refine ⟨(Schedule.start w₀ calls).ready, none, [], by simp, ?_⟩
  exact {
    numbers := by
      simp [Schedule.start, List.map_map, Function.comp_def, List.zipIdx_map_snd,
        List.range_eq_range']
    taken := rfl
    nodup := List.nodup_nil
    world := hw
    others := fun x hx => by
      obtain ⟨⟨t, n⟩, hmem, rfl⟩ := List.mem_map.1 hx
      exact .inl ⟨List.not_mem_nil, List.mk_mem_zipIdx_iff_getElem?.1 hmem⟩
    waiting := nofun
    finished := nofun
    free := fun _ => ⟨rfl, rfl, rfl⟩
    inside := nofun }

/-- **However their turns are mixed, the calls are served one after the other**, in the order in
which they get the lock. -/
theorem turns_served (hw : I w₀) (hcalls : ∀ t ∈ calls, Guarded I key t) (places : List Nat) :
    let s := (Schedule.start w₀ calls).turns places
    let served := serve calls (s.takers key) w₀
    (s.takers key).Nodup ∧ (∀ x ∈ s.finished, x ∈ served.1) ∧
      (s.ready = [] → (∀ n < calls.length, ∃ r, (n, r) ∈ s.finished) ∧ s.world = served.2) := by
  intro s served
  obtain ⟨others, holder, past, hready, h⟩ := (settled_start hw).turns hcalls places
  refine ⟨h.nodup, fun x hx => ?_, fun hnone => ?_⟩
  · have hx := h.finished x hx
    show x ∈ (serve calls (s.takers key) w₀).1
    rw [h.taken, serve_append]
    exact List.mem_append_left _ hx
  · have hempty : others ++ holder.toList = [] := by
      have hready : s.ready.Perm (others ++ holder.toList) := hready
      rw [hnone] at hready
      exact List.Perm.nil_eq hready |>.symm
    obtain ⟨rfl, hholder⟩ := List.append_eq_nil_iff.1 hempty
    obtain rfl : holder = none := Option.toList_eq_nil_iff.1 hholder
    obtain ⟨-, hwaiting, hworld⟩ := h.free rfl
    have htaken := h.taken
    rw [Option.toList, List.map_nil, List.append_nil] at htaken
    refine ⟨fun n hn => ?_, ?_⟩
    · have hnumbers := h.numbers
      rw [hwaiting] at hnumbers
      simpa using hnumbers.mem_iff.2 (List.mem_range.2 hn)
    · show s.world = (serve calls (s.takers key) w₀).2
      rw [htaken]
      exact hworld

end

end Workflow

import Workflow.Engine.Registry

/-!
# What the registry finds

**Found definitions** (`Registry.find_mem`). Whatever is asked for, a definition that is found
stands on a shelf.

**Registered** (`Registry.Registers`). A workflow is registered when a definition of it is on its
shelf, and a version of it when a definition is there under that version.

Main result: `find_notFound_iff`. A workflow that is named by a text, or a version of it, is
answered with not found exactly if it is not registered. It may be registered and not be found for
another reason: the latest of its versions, if they have no order.
-/

namespace Workflow.Registry

variable {r : Registry} {name version : Value} {d : Definition} {key : Key} {shelf : Shelf}
  {f : Failure}

/-! ## The latest version -/

/-- The latest of some versions is one of them. -/
theorem latestOf_mem {best x : Key × Edition} {rest : List (Key × Edition)}
    (h : latestOf best rest = .ok x) : x ∈ best :: rest := by
  induction rest generalizing best with
  | nil =>
    cases h
    exact List.mem_cons_self
  | cons e rest ih =>
    unfold latestOf at h
    split at h
    · cases h
    next less _ =>
    have hx : x ∈ (if less then e else best) :: rest := ih h
    cases less with
    | true => exact List.mem_cons_of_mem best hx
    | false =>
      rcases List.mem_cons.1 hx with rfl | hx
      · exact List.mem_cons_self
      · exact List.mem_cons_of_mem best (List.mem_cons_of_mem e hx)

theorem latestOf_error {best : Key × Edition} {rest : List (Key × Edition)}
    (h : latestOf best rest = .error f) : f = .malformed .unordered := by
  induction rest generalizing best with
  | nil => cases h
  | cons e rest ih =>
    unfold latestOf at h
    split at h
    · cases h
      rfl
    · exact ih h

theorem latest_mem (h : latest shelf = .ok d) : ∃ x ∈ shelf.entries, x.2.definition = d := by
  unfold latest at h
  split at h
  · cases h
  next e rest hentries =>
  cases hlatest : latestOf e rest with
  | error f =>
    rw [hlatest] at h
    cases h
  | ok x =>
    rw [hlatest] at h
    cases h
    exact ⟨x, hentries ▸ latestOf_mem hlatest, rfl⟩

/-- The latest version fails to be told only where there are no versions, or they have no order. -/
theorem latest_error (h : latest shelf = .error f) :
    ∃ m, f = .malformed m ∧ (shelf.entries ≠ [] → m = .unordered) := by
  unfold latest at h
  split at h
  next hnone =>
    cases h
    exact ⟨_, rfl, fun hsome => absurd hnone hsome⟩
  next e rest _ =>
  cases hlatest : latestOf e rest with
  | error f' =>
    rw [hlatest] at h
    cases h
    exact ⟨_, latestOf_error hlatest, fun _ => rfl⟩
  | ok x =>
    rw [hlatest] at h
    cases h

/-! ## What is found -/

theorem find_of_shelf (hname : name.key? = some key) (hshelf : r.shelves.get? key = some shelf)
    (version : Value) :
    r.find name version =
      if shelf.isEmpty then .error (.workflowNotFound name .null)
      else if version = .null then latest shelf
      else
        match keyOf version with
        | .error f => .error f
        | .ok v =>
          match shelf.get? v with
          | some edition => .ok edition.definition
          | none => .error (.workflowNotFound name version) := by
  have hkey : keyOf name = .ok key := by
    unfold keyOf
    rw [hname]
  unfold find shelf?
  rw [hkey]
  simp only [bind, Except.bind, pure, Except.pure, hshelf]
  cases keyOf version with
  | error f => rfl
  | ok v => cases hedition : shelf.get? v <;> simp only [hedition] <;> rfl

theorem find_of_no_shelf (hname : name.key? = some key) (hshelf : r.shelves.get? key = none)
    (version : Value) : r.find name version = .error (.workflowNotFound name .null) := by
  have hkey : keyOf name = .ok key := by
    unfold keyOf
    rw [hname]
  unfold find shelf?
  rw [hkey]
  simp only [bind, Except.bind, pure, Except.pure, hshelf]
  rfl

theorem find_of_no_key (hname : name.key? = none) (version : Value) :
    r.find name version = .error (.malformed .noKey) := by
  have hkey : keyOf name = .error (.malformed .noKey) := by
    unfold keyOf
    rw [hname]
  unfold find shelf?
  rw [hkey]
  rfl

/-- **What is found stands on a shelf.** -/
theorem find_mem (h : r.find name version = .ok d) :
    ∃ key shelf, r.shelves.get? key = some shelf ∧ ∃ x ∈ shelf.entries, x.2.definition = d := by
  cases hname : name.key? with
  | none =>
    rw [find_of_no_key hname] at h
    cases h
  | some key =>
  cases hshelf : r.shelves.get? key with
  | none =>
    rw [find_of_no_shelf hname hshelf] at h
    cases h
  | some shelf =>
  refine ⟨key, shelf, hshelf, ?_⟩
  rw [find_of_shelf hname hshelf] at h
  split at h
  · cases h
  split at h
  · exact latest_mem h
  split at h
  · cases h
  next v _ =>
  split at h
  next edition hedition =>
    cases h
    exact ⟨(v, edition), Dict.get?_eq_some_iff.1 hedition, rfl⟩
  · cases h

/-! ## What is registered -/

/-- A definition of the workflow is registered, under that version if one is named. -/
def Registers (r : Registry) (name version : Value) : Prop :=
  ∃ key shelf, name.key? = some key ∧ r.shelves.get? key = some shelf ∧ shelf.entries ≠ [] ∧
    (version = .null ∨ ∃ v edition, version.key? = some v ∧ shelf.get? v = some edition)

/-- **Not found is what is not registered.** Names and versions are such as can be keys. -/
theorem find_notFound_iff (hname : name.key? = some key) {v : Key}
    (hversion : version.key? = some v) :
    (∃ shown, r.find name version = .error (.workflowNotFound name shown)) ↔
      ¬ r.Registers name version := by
  have hkey : keyOf version = .ok v := by
    unfold keyOf
    rw [hversion]
  cases hshelf : r.shelves.get? key with
  | none =>
    refine iff_of_true ⟨_, find_of_no_shelf hname hshelf version⟩ ?_
    rintro ⟨key', shelf, hname', hshelf', -⟩
    cases hname.symm.trans hname'
    rw [hshelf] at hshelf'
    cases hshelf'
  | some shelf =>
    have hregisters : r.Registers name version ↔ shelf.entries ≠ [] ∧
        (version = .null ∨ ∃ edition, shelf.get? v = some edition) := by
      constructor
      · rintro ⟨key', shelf', hname', hshelf', hsome, hthere⟩
        cases hname.symm.trans hname'
        cases hshelf.symm.trans hshelf'
        refine ⟨hsome, hthere.imp_right ?_⟩
        rintro ⟨v', edition, hversion', hedition⟩
        cases hversion.symm.trans hversion'
        exact ⟨edition, hedition⟩
      · rintro ⟨hsome, hthere⟩
        exact ⟨key, shelf, hname, hshelf, hsome, hthere.imp_right fun ⟨edition, hedition⟩ =>
          ⟨v, edition, hversion, hedition⟩⟩
    rw [hregisters, find_of_shelf hname hshelf, hkey]
    by_cases hempty : shelf.isEmpty
    · rw [if_pos hempty]
      exact iff_of_true ⟨_, rfl⟩ fun h => h.1 (List.isEmpty_iff.1 hempty)
    have hsome : shelf.entries ≠ [] := fun h => hempty (List.isEmpty_iff.2 h)
    rw [if_neg hempty]
    by_cases hnull : version = .null
    · rw [if_pos hnull]
      refine iff_of_false ?_ fun h => h ⟨hsome, .inl hnull⟩
      rintro ⟨shown, h⟩
      obtain ⟨m, hm, -⟩ := latest_error h
      cases hm
    rw [if_neg hnull]
    dsimp only
    cases hedition : shelf.get? v with
    | none =>
      refine iff_of_true ⟨_, rfl⟩ fun h => ?_
      obtain ⟨edition, hthere⟩ := h.2.resolve_left hnull
      cases hthere
    | some edition =>
      refine iff_of_false ?_ fun h => h ⟨hsome, .inr ⟨edition, rfl⟩⟩
      rintro ⟨shown, h⟩
      cases h

/-- **What is registered is found**, if its versions have an order where none is named. -/
theorem find_of_registers (h : r.Registers name version) :
    (∃ d, r.find name version = .ok d) ∨
      version = .null ∧ r.find name version = .error (.malformed .unordered) := by
  obtain ⟨key, shelf, hname, hshelf, hsome, hthere⟩ := h
  have hfull : ¬ shelf.isEmpty := fun hempty => hsome (List.isEmpty_iff.1 hempty)
  rw [find_of_shelf hname hshelf, if_neg hfull]
  by_cases hnull : version = .null
  · rw [if_pos hnull]
    cases hlatest : latest shelf with
    | ok d => exact .inl ⟨d, rfl⟩
    | error f =>
      obtain ⟨m, rfl, hm⟩ := latest_error hlatest
      exact .inr ⟨hnull, by rw [hm hsome]⟩
  · obtain ⟨v, edition, hversion, hedition⟩ := hthere.resolve_left hnull
    have hkey : keyOf version = .ok v := by
      unfold keyOf
      rw [hversion]
    rw [if_neg hnull, hkey]
    dsimp only
    rw [hedition]
    exact .inl ⟨edition.definition, rfl⟩

end Workflow.Registry

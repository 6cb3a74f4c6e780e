import Workflow.Engine.Registry

/-!
# Registrations that fail

What a registration that fails does to the answers of a registry (`Registry.SameAnswers`).

**Stray shelves** (`Registry.LeavesShelf`). A valid definition with a new id gets its shelf before
its version is looked at. If the version cannot be a key, the registration fails and the shelf stays
behind, with nothing on it.

Main result: `refused_sameAnswers_iff`. A registration that fails leaves all answers as they were,
except in this one case; then the id counts as registered, and the latest definitions can no longer
be listed (`LeavesShelf.listLatest`).
-/

namespace Workflow

namespace Registry

variable {r r' : Registry} {d : Definition} {name : Key} {f : Failure}

/-- All questions to two registries have the same answers. -/
structure SameAnswers (r r' : Registry) : Prop where
  has : ∀ name version, r'.has name version = r.has name version
  find : ∀ name version, r'.find name version = r.find name version
  versions : ∀ name, r'.versions name = r.versions name
  latest : r'.listLatest = r.listLatest
  all : r'.listAll = r.listAll

theorem SameAnswers.refl (r : Registry) : r.SameAnswers r :=
  ⟨fun _ _ => rfl, fun _ _ => rfl, fun _ => rfl, rfl, rfl⟩

/-- The definition is valid and has a new id, of this name, but its version cannot be a key. -/
structure LeavesShelf (r : Registry) (d : Definition) (name : Key) : Prop where
  valid : d.check = .ok ()
  id : d.id.key? = some name
  new : r.shelves.get? name = none
  version : d.version.key? = none

/-- The registry with an empty shelf under a name. -/
def withShelf (r : Registry) (name : Key) : Registry := ⟨r.shelves.insert name {}⟩

/-! ## What a failure leaves -/

/-- A registration that fails changes nothing, or leaves an empty shelf. -/
theorem register_error (h : r.register d = (.error f, r')) :
    (r' = r ∧ ¬ ∃ name, r.LeavesShelf d name) ∨
      ∃ name, r.LeavesShelf d name ∧ r' = r.withShelf name := by
  unfold register at h
  split at h
  next e hcheck =>
    cases h
    refine .inl ⟨rfl, fun ⟨name, hl⟩ => ?_⟩
    rw [hl.valid] at hcheck
    cases hcheck
  next e _ hid =>
    cases h
    refine .inl ⟨rfl, fun ⟨name, hl⟩ => ?_⟩
    unfold keyOf at hid
    rw [hl.id] at hid
    cases hid
  next name hcheck hid =>
    have hname : d.id.key? = some name := by
      unfold keyOf at hid
      split at hid
      next k hk =>
        cases hid
        exact hk
      next => cases hid
    dsimp only at h
    split at h
    next e hversion =>
      cases h
      have hnone : d.version.key? = none := by
        unfold keyOf at hversion
        split at hversion
        · cases hversion
        next hk => exact hk
      cases hshelf : r.shelves.get? name with
      | none => exact .inr ⟨name, ⟨hcheck, hname, hshelf, hnone⟩, rfl⟩
      | some shelf =>
        refine .inl ⟨?_, fun ⟨name', hl⟩ => ?_⟩
        · rw [Option.getD_some, Dict.insert_of_get? hshelf]
        · cases hname.symm.trans hl.id
          rw [hl.new] at hshelf
          cases hshelf
    next => cases h

/-- A document is refused when it does not compile, or when its definition is refused. -/
theorem registerDocument_error {doc : Value} {hs : Handlers}
    (h : r.registerDocument doc hs = (.error f, r')) :
    ((∃ e, compileDocument doc hs = .error e) ∧ r' = r) ∨
      ∃ d, compileDocument doc hs = .ok d ∧ r.register d = (.error f, r') := by
  unfold registerDocument at h
  split at h
  next he =>
    cases h
    exact .inl ⟨⟨_, he⟩, rfl⟩
  next d hd =>
    split at h
    next e s hr =>
      cases h
      exact .inr ⟨d, hd, hr⟩
    next => cases h

/-! ## Stray shelves -/

theorem LeavesShelf.shelf? (h : r.LeavesShelf d name) :
    r.shelf? d.id = .ok none ∧ (r.withShelf name).shelf? d.id = .ok (some {}) := by
  have hkey : keyOf d.id = .ok name := by
    unfold keyOf
    rw [h.id]
  unfold Registry.shelf? withShelf
  rw [hkey]
  simp only [bind, Except.bind, pure, Except.pure, Dict.get?_insert, if_true, h.new, and_self]

/-- The id counts as registered, though it has no version. -/
theorem LeavesShelf.has (h : r.LeavesShelf d name) :
    r.has d.id .null = .ok false ∧ (r.withShelf name).has d.id .null = .ok true := by
  unfold Registry.has
  rw [h.shelf?.1, h.shelf?.2]
  exact ⟨rfl, rfl⟩

theorem LeavesShelf.versions (h : r.LeavesShelf d name) :
    (r.withShelf name).versions d.id = .ok [] := by
  unfold Registry.versions
  rw [h.shelf?.2]
  rfl

/-- The latest definitions can no longer be listed. -/
theorem LeavesShelf.listLatest (h : r.LeavesShelf d name) (ds : List Definition) :
    (r.withShelf name).listLatest ≠ .ok ds := by
  have hvalues : (r.withShelf name).shelves.values = r.shelves.values ++ [{}] := by
    unfold withShelf Dict.values
    rw [Dict.entries_insert_of_get?_none _ h.new, List.map_append]
    rfl
  unfold Registry.listLatest
  rw [hvalues, List.mapM_append]
  cases r.shelves.values.mapM latest with
  | error e => nofun
  | ok earlier => nofun

theorem LeavesShelf.not_sameAnswers (h : r.LeavesShelf d name) :
    ¬ r.SameAnswers (r.withShelf name) := by
  intro hsame
  have hhas := hsame.has d.id .null
  rw [h.has.1, h.has.2] at hhas
  cases hhas

theorem register_sameAnswers_iff (h : r.register d = (.error f, r')) :
    r.SameAnswers r' ↔ ¬ ∃ name, r.LeavesShelf d name := by
  rcases register_error h with ⟨rfl, hnot⟩ | ⟨name, hl, rfl⟩
  · exact ⟨fun _ => hnot, fun _ => .refl r'⟩
  · exact ⟨fun hsame => absurd hsame hl.not_sameAnswers, fun hnot => absurd ⟨name, hl⟩ hnot⟩

/-- **A registration that fails leaves all answers of any registry as they were**, unless the
definition is valid, its id is new and its version cannot be a key. -/
theorem refused_sameAnswers_iff (r : Registry) :
    (∀ d f r', r.register d = (.error f, r') →
      (r.SameAnswers r' ↔ ¬ ∃ name, r.LeavesShelf d name)) ∧
    ∀ doc hs f r', r.registerDocument doc hs = (.error f, r') →
      (r.SameAnswers r' ↔ ¬ ∃ d name, compileDocument doc hs = .ok d ∧ r.LeavesShelf d name) := by
  refine ⟨fun d f r' h => register_sameAnswers_iff h, fun doc hs f r' h => ?_⟩
  rcases registerDocument_error h with ⟨⟨e, he⟩, rfl⟩ | ⟨d, hd, hr⟩
  · refine ⟨fun _ ⟨d, name, hd, _⟩ => ?_, fun _ => .refl r'⟩
    rw [he] at hd
    cases hd
  · rw [register_sameAnswers_iff hr, hd]
    constructor
    · rintro hnot ⟨d', name, hd', hl⟩
      cases hd'
      exact hnot ⟨name, hl⟩
    · rintro hnot ⟨name, hl⟩
      exact hnot ⟨d, name, rfl, hl⟩

/-! ## A version that is a list -/

/-- An order form whose version is a list of numbers. -/
def datedForm : Value :=
  .object [("id", .text "order"), ("version", .list [.int 2024, .int 5]),
    ("initialState", .text "new"), ("states", .object [("new", .object [("kind", .text "task")])])]

/-- The definition that the form means. -/
def datedOrder : Definition where
  id := .text "order"
  initial := "new"
  states := Dict.ofList [("new", { id := "new" })]
  version := .list [.int 2024, .int 5]

/-- A registry that has the order form already, in its first version. -/
def orderShelf : Registry := (Registry.register {} { datedOrder with version := .int 1 }).2

/-- Where the id is known, the form is refused and nothing changes. -/
theorem refused_sameAnswers_known :
    orderShelf.registerDocument datedForm {} = (.error (.malformed .noKey), orderShelf) ∧
      orderShelf.has (.text "order") (.int 1) = .ok true ∧ orderShelf.SameAnswers orderShelf := by
  have h : orderShelf.registerDocument datedForm {} = (.error (.malformed .noKey), orderShelf) :=
    rfl
  refine ⟨h, rfl, ((refused_sameAnswers_iff orderShelf).2 _ _ _ _ h).2 ?_⟩
  rintro ⟨d, name, hd, hl⟩
  have hcompile : compileDocument datedForm {} = .ok datedOrder := rfl
  cases hcompile.symm.trans hd
  cases hl.id
  cases hl.new

/-- Where it is new, the form is refused too, and then the id is there without a version. -/
theorem refused_leaves_shelf :
    ∃ r', Registry.registerDocument {} datedForm {} = (.error (.malformed .noKey), r') ∧
      ¬ SameAnswers {} r' ∧ Registry.has {} (.text "order") .null = .ok false ∧
      r'.has (.text "order") .null = .ok true ∧ r'.versions (.text "order") = .ok [] ∧
      r'.listLatest = .error (.malformed .noVersions) := by
  have hl : LeavesShelf {} datedOrder (.text "order") := ⟨rfl, rfl, rfl, rfl⟩
  exact ⟨withShelf {} (.text "order"), rfl, hl.not_sameAnswers, rfl, rfl, rfl, rfl⟩

end Registry

end Workflow

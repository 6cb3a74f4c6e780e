import Workflow.Hook.Basic
import Workflow.Json.Compare

/-!
# Hooks written as scripts

A hook can be written as a list of steps on its context. A step changes the context, leaves a note,
pauses, or ends the script with an answer or a failure; a script that runs off its end answers null.

Steps that name a key need a context that is an object.
-/

namespace Workflow

/-- One step of a scripted hook. -/
inductive Step where
  /-- End with a value. -/
  | give (v : Value)
  /-- End with a value whose truth cannot be told. -/
  | giveUntestable (message : String)
  /-- End with the context. -/
  | giveContext
  /-- Fail. -/
  | raise (f : Failure)
  /-- Let others go on. -/
  | yield
  /-- Add a value at the end of a context that is a list. -/
  | append (v : Value)
  /-- Give a key a value. -/
  | set (key : String) (v : Value)
  /-- Add to the number under a key, zero if it is absent. -/
  | add (key : String) (amount : Value)
  /-- Add a value at the end of the list under a key, which is made if it is absent. -/
  | push (key : String) (v : Value)
  /-- Remove a key. -/
  | delete (key : String)
  /-- Note a key and its value. -/
  | note (key : String)
  /-- End with the value under a key. -/
  | get (key : String)
  /-- End with the value under a key, or a given one. -/
  | getOr (key : String) (fallback : Value)
  /-- End with whether the number under a key, zero if it is absent, is less than a given one. -/
  | less (key : String) (bound : Value)
  /-- End with whether the value under a key is of the kind of a given one and equal to it. -/
  | equals (key : String) (v : Value)
  deriving DecidableEq, Repr

/-! ## Running a script -/

/-- Goes on with the cell and the members of a context that is an object. -/
def withMembers (root : Datum)
    (k : Arena → Nat → List (String × Datum) → Activity Realm.hook HookAnswer) :
    Activity Realm.hook HookAnswer :=
  .look fun a =>
    match root, a.cell? root with
    | .ref n, some (.object members) => k a n members
    | _, _ => .fail (.type "ctx is not an object")

/-- Puts a value into the arena and replaces a cell, given the datum of the value. -/
def storeInto (a : Arena) (n : Nat) (v : Value) (cell : Datum → Cell) : Arena :=
  let (d, a) := a.store v
  a.setCell n (cell d)

/-- Ends with a value. -/
def answerWith (v : Value) : Activity Realm.hook HookAnswer :=
  .look fun a =>
    let (d, a') := a.store v
    .update (fun _ => a') (.done (.datum d))

/-- Runs steps on a context; `pauses` says whether the script can really pause. -/
def runSteps (pauses : Bool) (root : Datum) : List Step → Activity Realm.hook HookAnswer
  | [] => .done (.datum .null)
  | .give v :: _ => answerWith v
  | .giveUntestable message :: _ => .done (.untestable message)
  | .giveContext :: _ => .done (.datum root)
  | .raise f :: _ => .fail f
  | .yield :: rest =>
    if pauses then Activity.yield.bind fun _ => runSteps pauses root rest
    else runSteps pauses root rest
  | .append v :: rest =>
    .look fun a =>
      match root, a.cell? root with
      | .ref n, some (.list items) =>
        .update (fun a => storeInto a n v fun d => .list (items ++ [d])) (runSteps pauses root rest)
      | _, _ => .fail (.type "ctx is not a list")
  | .set key v :: rest =>
    withMembers root fun _ n members =>
      .update (fun a => storeInto a n v fun d => .object (Dict.put key d members))
        (runSteps pauses root rest)
  | .add key amount :: rest =>
    withMembers root fun a n members =>
      let old := ((Dict.find key members).map a.load).getD (.int 0)
      match Value.sum? old amount with
      | some v =>
        .update (fun a => storeInto a n v fun d => .object (Dict.put key d members))
          (runSteps pauses root rest)
      | none => .fail (.type "not a number")
  | .push key v :: rest =>
    withMembers root fun a n members =>
      match Dict.find key members with
      | none =>
        .update
          (fun a =>
            let (d, a) := a.store (.list [v])
            a.setCell n (.object (Dict.put key d members)))
          (runSteps pauses root rest)
      | some d =>
        match d, a.cell? d with
        | .ref m, some (.list items) =>
          .update (fun a => storeInto a m v fun d => .list (items ++ [d]))
            (runSteps pauses root rest)
        | _, _ => .fail (.type "not a list")
  | .delete key :: rest =>
    withMembers root fun _ n members =>
      if (Dict.find key members).isSome then
        .update (fun a => a.setCell n (.object (members.filter fun e => e.1 ≠ key)))
          (runSteps pauses root rest)
      else .fail (.key key)
  | .note key :: rest =>
    withMembers root fun a _ members =>
      let v := ((Dict.find key members).map a.load).getD .null
      .report (.list [.text key, v]) (runSteps pauses root rest)
  | .get key :: _ =>
    withMembers root fun _ _ members =>
      match Dict.find key members with
      | some d => .done (.datum d)
      | none => .fail (.key key)
  | .getOr key fallback :: _ =>
    withMembers root fun _ _ members =>
      match Dict.find key members with
      | some d => .done (.datum d)
      | none => answerWith fallback
  | .less key bound :: _ =>
    withMembers root fun a _ members =>
      let old := ((Dict.find key members).map a.load).getD (.int 0)
      if old.isNumber then .done (.datum (.bool (old.lessThan bound)))
      else .fail (.type "not a number")
  | .equals key v :: _ =>
    withMembers root fun a _ members =>
      let old := ((Dict.find key members).map a.load).getD .null
      .done (.datum (.bool (old.sameKind v && old.alike v)))

/-- A hook that runs steps. -/
def Hook.ofSteps (name : String) (pauses : Bool) (steps : List Step) : Hook :=
  ⟨name, fun root => runSteps pauses root steps⟩

end Workflow

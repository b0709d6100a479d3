import Mathlib
import Ros1Adapter.YamlLoading

/-!
# Recursion of the scene loader

The loader keeps the nodes it is inside of on one stack, which taking a mapping
apart and constructing a value push to and pop from at different times. Its
actions are related to those that are given the nodes around them.
-/

namespace Ros1Adapter.YamlRecursion

open SceneJson YamlLoading ActionRules

section Loader

variable {d : Document} {α β : Type}

/-- State of a loader. -/
structure LoaderState (d : Document) where
  /-- Nodes the loader is inside of, the innermost first. -/
  active : List (Fin d.count)
  /-- Texts it converted to integers. -/
  converted : List String
  deriving DecidableEq

/-- Actions of a loader. -/
abbrev Loader (d : Document) := EStateM Thrown (LoaderState d)

/-- An action that leaves the stack alone. -/
def withStack (action : Load α) : Loader d α := fun s =>
  match action s.converted with
  | .ok a converted => .ok a { s with converted }
  | .error e converted => .error e { s with converted }

section Stack

/-- The stack is searched from its top. -/
local instance onStack (node : Fin d.count) (active : List (Fin d.count)) : Decidable (node∈active) :=
  decidable_of_iff (active.contains node=true) List.contains_iff_mem

/-- Push a node unless it is on the stack. -/
def enter (node : Fin d.count) : Loader d Unit := fun s =>
  if node∈s.active then .error (.scene "Invalid scene YAML: found unconstructable recursive node") s
  else .ok () { s with active := node::s.active }

end Stack

/-- Pop a node. -/
def leave : Loader d Unit := fun s => .ok () { s with active := s.active.tail }

/-- Pairs of a merged value, given how to take a mapping apart. -/
def mergedPairs (flatten : Fin d.count → Loader d (List (Fin d.count × Fin d.count))) (source : Fin d.count) :
    Loader d (List (Fin d.count × Fin d.count)) :=
  match (d.nodes source).content with
  | .map _ => flatten source
  | .sequence maps => do
    let items ← maps.mapM (fun map =>
      match (d.nodes map).content with
      | .map _ => flatten map
      | _ => throw (.scene "Invalid scene YAML: expected a mapping for merging"))
    return items.reverse.flatten
  | _ => throw (.scene "Invalid scene YAML: expected a mapping or list of mappings for merging")

/-- Merged pairs and own pairs, in order. -/
def splitPairs (flatten : Fin d.count → Loader d (List (Fin d.count × Fin d.count))) :
    List (Fin d.count × Fin d.count) → Loader d (List (Fin d.count × Fin d.count) × List (Fin d.count × Fin d.count))
  | [] => pure ([],[])
  | (key,value)::rest => do
    let kind ← withStack (lift (nodeTag (d.nodes key)))
    if kind="merge" then
      let items ← mergedPairs flatten value
      let (merged,own) ← splitPairs flatten rest
      return (items ++ merged,own)
    else
      let (merged,own) ← splitPairs flatten rest
      return (merged,(key,value)::own)

/-- Pairs of a mapping without its merge keys. -/
def flatten : ℕ → Fin d.count → Loader d (List (Fin d.count × Fin d.count))
  | 0,_ => throw .exhausted
  | steps+1,node => do
    enter node
    match (d.nodes node).content with
    | .map pairs =>
      let (merged,own) ← splitPairs (flatten steps) pairs
      leave
      return merged ++ own
    | _ =>
      leave
      return []

variable (wide : ℕ → List ℕ → Float) (strtod : List Char → Option Float) (bytes : List Char)

/-- Value of a name of a mapping, given how to construct a node. -/
def constructKey (construct : Fin d.count → Loader d Json) (key : Fin d.count) : Loader d Json := do
  let kind ← withStack (lift (nodeTag (d.nodes key)))
  match (d.nodes key).content with
  | .scalar text =>
    if kind="str" || kind="value" then
      pure (.string (String.ofList (scalarText bytes (d.nodes key).position text)))
    else if ["timestamp","binary","set","omap","pairs"].contains kind then pure .null
    else construct key
  | _ => if ["timestamp","binary","set","omap","pairs"].contains kind then pure .null else construct key

/-- Value of a pair. -/
def constructPair (construct : Fin d.count → Loader d Json) (pair : Fin d.count × Fin d.count) : Loader d (Json × Json) := do
  let key ← constructKey bytes construct pair.1
  let value ← construct pair.2
  return (key,value)

/-- Values of a list of things, in order. -/
def constructAll (construct : α → Loader d β) : List α → Loader d (List β)
  | [] => pure []
  | first::rest => do
    let value ← construct first
    let values ← constructAll construct rest
    return value::values

/-- Value of a node. -/
def construct : ℕ → Fin d.count → Loader d Json
  | 0,_ => throw .exhausted
  | steps+1,node =>
    match (d.nodes node).content with
    | .null => pure .null
    | .scalar text => do
      let kind ← withStack (lift (nodeTag (d.nodes node)))
      withStack (constructScalar wide strtod bytes d (d.nodes node) kind text)
    | .sequence items => do
      let kind ← withStack (lift (nodeTag (d.nodes node)))
      if kind="seq" then
        enter node
        let values ← constructAll (construct steps) items
        leave
        return .array values
      else throw (unsupported d (d.nodes node))
    | .map _ => do
      let kind ← withStack (lift (nodeTag (d.nodes node)))
      if kind="map" then
        let pairs ← flatten (d.count+1) node
        enter node
        let values ← constructAll (constructPair bytes (construct steps)) pairs
        leave
        withStack (lift (uniqueObject [] values))
      else throw (unsupported d (d.nodes node))

end Loader

section Stack

variable {d : Document} {α β : Type}

/-- An action does on the stack what another one does that is given the nodes around
it, and leaves the stack as it was when it returns. -/
def Follows (action : Loader d α) (given : List (Fin d.count) → Load α) : Prop :=
  ∀ active converted,
    (∀ a after, given active converted=.ok a after → action ⟨active,converted⟩=.ok a ⟨active,after⟩) ∧
    ∀ e after, given active converted=.error e after → ∃ left, action ⟨active,converted⟩=.error e ⟨left,after⟩

/-- A sequence of actions. -/
theorem Follows.bind {first : Loader d α} {second : α → Loader d β} {given : List (Fin d.count) → Load α}
    {next : List (Fin d.count) → α → Load β} (hf : Follows first given) (hs : ∀ a, Follows (second a) (fun active => next active a)) :
    Follows (first >>= second) (fun active => given active >>= next active) := by
  intro active converted
  obtain ⟨hok,herror⟩ := hf active converted
  cases hrun : given active converted with
  | ok a after =>
    rw [bind_of_ok (hok a after hrun)]
    refine ⟨fun b later h => ?_,fun e later h => ?_⟩
    · exact (hs a active after).1 b later ((bind_of_ok hrun).symm.trans h)
    · exact (hs a active after).2 e later ((bind_of_ok hrun).symm.trans h)
  | error e after =>
    obtain ⟨left,hleft⟩ := herror e after hrun
    rw [bind_of_error hleft]
    refine ⟨fun b later h => ?_,fun f later h => ⟨left,?_⟩⟩
    · cases (bind_of_error hrun).symm.trans h
    · cases (bind_of_error hrun).symm.trans h
      rfl

/-- What is done inside of a node and after it. -/
theorem Follows.inside {body : Loader d α} {after : α → Loader d β} {given : List (Fin d.count) → Load α}
    {next : List (Fin d.count) → α → Load β} (h : Follows body given) (ha : ∀ a, Follows (after a) (fun active => next active a))
    (node : Fin d.count) :
    Follows (enter node >>= fun _ => body >>= fun a => leave >>= fun _ => after a)
      (fun active => lift (YamlLoading.enter d active node) >>= fun entered => given entered >>= next active) := by
  intro active converted
  by_cases hin : node∈active
  · have hgiven : lift (YamlLoading.enter d active node) converted=
        .error (.scene "Invalid scene YAML: found unconstructable recursive node") converted := by
      unfold YamlLoading.enter
      rw [if_pos hin]
      rfl
    have haction : enter node ⟨active,converted⟩=
        .error (.scene "Invalid scene YAML: found unconstructable recursive node") ⟨active,converted⟩ := if_pos hin
    rw [bind_of_error haction]
    refine ⟨fun b later h => ?_,fun f later h => ⟨active,?_⟩⟩
    · cases (bind_of_error hgiven).symm.trans h
    · cases (bind_of_error hgiven).symm.trans h
      rfl
  · have hgiven : lift (YamlLoading.enter d active node) converted=.ok (node::active) converted := by
      unfold YamlLoading.enter
      rw [if_neg hin]
      rfl
    have haction : enter node ⟨active,converted⟩=.ok () ⟨node::active,converted⟩ := if_neg hin
    obtain ⟨hok,herror⟩ := h (node::active) converted
    rw [bind_of_ok haction]
    cases hrun : given (node::active) converted with
    | ok a middle =>
      have hleave : leave ⟨node::active,middle⟩=.ok () ⟨active,middle⟩ := rfl
      rw [bind_of_ok (hok a middle hrun),bind_of_ok hleave]
      have hboth : (lift (YamlLoading.enter d active node) >>= fun entered => given entered >>= next active) converted=
          next active a middle := (bind_of_ok hgiven).trans (bind_of_ok hrun)
      refine ⟨fun b later hlast => ?_,fun e later hlast => ?_⟩
      · exact (ha a active middle).1 b later (hboth.symm.trans hlast)
      · exact (ha a active middle).2 e later (hboth.symm.trans hlast)
    | error e middle =>
      obtain ⟨left,hleft⟩ := herror e middle hrun
      have hboth : (lift (YamlLoading.enter d active node) >>= fun entered => given entered >>= next active) converted=
          .error e middle := (bind_of_ok hgiven).trans (bind_of_error hrun)
      rw [bind_of_error hleft]
      refine ⟨fun b later hlast => ?_,fun f later hlast => ⟨left,?_⟩⟩
      · cases hboth.symm.trans hlast
      · cases hboth.symm.trans hlast
        rfl

variable {steps : ℕ} {flat : Fin d.count → Loader d (List (Fin d.count × Fin d.count))}
variable {given : List (Fin d.count) → Fin d.count → Except Thrown (List (Fin d.count × Fin d.count))}

variable (wide : ℕ → List ℕ → Float) (strtod : List Char → Option Float) (bytes : List Char)
variable {act : Fin d.count → Loader d Json} {value : List (Fin d.count) → Fin d.count → Load Json}

end Stack

section Termination

variable (wide : ℕ → List ℕ → Float) (strtod : List Char → Option Float) (bytes : List Char)

end Termination

end Ros1Adapter.YamlRecursion

import Ros1Adapter.SceneTap

/-!
# Lidar truth is confirmed truth

The kept obstacles always stand for the obstacles of the kept definition, and
a complete state gives every moving one the placement of its first entry. A
ready scene is compiled from exactly these shapes, and the last application
confirmed exactly this revision.
-/

namespace Ros1Adapter.SceneTapTruth

open SceneFiles SceneCompile SceneProjection ActionRules SceneTap

variable {Shape Scene : Type}

section Conversions

/-- A kept obstacle stands for an obstacle of the definition. -/
structure Described (table : List (Obstacle Shape)) (o : SceneObstacle) (d : Description Shape) : Prop where
  /-- Identity. -/
  id : d.id=o.id
  /-- Parts. -/
  parts : convertParts table "snapshot geometry index out of range" o.parts=.ok d.parts
  /-- An obstacle that does not move stands at its placement. -/
  pose : o.dynamic=false → d.pose=o.pose

/-- Places of the moving obstacles in state messages. -/
structure Placed (obstacles : List SceneObstacle) (dynamic : List Moving) (slots : List (String × ℕ)) (places : ℕ) :
    Prop where
  /-- Every moving obstacle has a place. -/
  every : ∀ (k : ℕ) (o : SceneObstacle), obstacles[k]?=some o → o.dynamic=true →
    ∃ slot, ⟨k,slot⟩∈dynamic ∧ slots.lookup o.id=some slot
  /-- Places belong to moving obstacles. -/
  only : ∀ moving∈dynamic, ∃ o, obstacles[moving.description]?=some o ∧ o.dynamic=true ∧ slots.lookup o.id=some moving.state
  /-- Moving obstacles come in definition order. -/
  rising : (dynamic.map (fun moving => moving.description)).Pairwise (fun first later => first<later)
  /-- Identities have different places. -/
  apart : ∀ id id' slot, slots.lookup id=some slot → slots.lookup id'=some slot → id=id'
  /-- Places are positions. -/
  bounded : ∀ id slot, slots.lookup id=some slot → slot<places

/-- Conversion of the first obstacles of a definition. -/
structure Converted (table : List (Obstacle Shape)) (obstacles : List SceneObstacle) (c : Conversion Shape) : Prop where
  /-- Kept obstacles stand for the obstacles. -/
  described : List.Forall₂ (Described table) obstacles c.descriptions
  /-- Places of the moving ones. -/
  placed : Placed obstacles c.dynamic c.slots c.positions.length

/-- A lookup in a list with one more entry. -/
theorem lookup_append_one (slots : List (String × ℕ)) (key : String) (value : ℕ) (id : String) :
    (slots ++ [(key,value)]).lookup id=(slots.lookup id).or (if id=key then some value else none) := by
  rw [List.lookup_append]
  congr 1
  by_cases here : id=key
  · rw [if_pos here,here,List.lookup_cons_self]
  · have other : (id==key)=false := beq_eq_false_iff_ne.mpr here
    rw [if_neg here]
    simp only [List.lookup,other]

/-- Entry of a list with one more element. -/
theorem getElem_append_one {α : Type} {l : List α} {a b : α} {k : ℕ} (h : (l ++ [a])[k]?=some b) :
    l[k]?=some b ∨ (k=l.length ∧ b=a) := by
  by_cases small : k<l.length
  · rw [List.getElem?_append_left small] at h
    exact Or.inl h
  · rw [List.getElem?_append_right (by omega)] at h
    have here : k=l.length := by
      by_contra other
      have beyond : 1 ≤ k-l.length := by
        omega
      rw [List.getElem?_eq_none (by simpa using beyond)] at h
      cases h
    rw [here,Nat.sub_self] at h
    exact Or.inr ⟨here,(Option.some.inj h).symm⟩

/-- Keeping an obstacle that does not move adds no place. -/
theorem placed_still {obstacles : List SceneObstacle} {dynamic : List Moving} {slots : List (String × ℕ)} {places : ℕ}
    (h : Placed obstacles dynamic slots places) {o : SceneObstacle} (ho : o.dynamic=false) :
    Placed (obstacles ++ [o]) dynamic slots places where
  every := by
    intro k other entry moves
    rcases getElem_append_one entry with old | ⟨-,same⟩
    · exact h.every k other old moves
    · rw [same,ho] at moves
      cases moves
  only := by
    intro moving member
    obtain ⟨other,entry,rest⟩ := h.only moving member
    have inside := (List.getElem?_eq_some_iff.mp entry).1
    exact ⟨other,by rw [List.getElem?_append_left inside]; exact entry,rest⟩
  rising := h.rising
  apart := h.apart
  bounded := h.bounded

/-- Keeping a moving obstacle adds its place, which may be a known one. -/
theorem placed_moving {obstacles : List SceneObstacle} {dynamic : List Moving} {slots slots' : List (String × ℕ)}
    {places places' slot : ℕ} (h : Placed obstacles dynamic slots places) {o : SceneObstacle} (ho : o.dynamic=true)
    (here : slots'.lookup o.id=some slot) (kept : ∀ id old, slots.lookup id=some old → slots'.lookup id=some old)
    (apart : ∀ id id' k, slots'.lookup id=some k → slots'.lookup id'=some k → id=id')
    (bounded : ∀ id k, slots'.lookup id=some k → k<places') :
    Placed (obstacles ++ [o]) (dynamic ++ [⟨obstacles.length,slot⟩]) slots' places' where
  every := by
    intro k other entry moves
    rcases getElem_append_one entry with old | ⟨last,same⟩
    · obtain ⟨place,member,found⟩ := h.every k other old moves
      exact ⟨place,List.mem_append.mpr (Or.inl member),kept _ _ found⟩
    · rw [last,same]
      exact ⟨slot,List.mem_append.mpr (Or.inr (List.mem_singleton_self _)),here⟩
  only := by
    intro moving member
    rcases List.mem_append.mp member with old | new
    · obtain ⟨other,entry,moves,found⟩ := h.only moving old
      have inside := (List.getElem?_eq_some_iff.mp entry).1
      exact ⟨other,by rw [List.getElem?_append_left inside]; exact entry,moves,kept _ _ found⟩
    · rw [List.mem_singleton.mp new]
      refine ⟨o,?_,ho,here⟩
      rw [List.getElem?_append_right (Nat.le_refl _),Nat.sub_self]
      rfl
  rising := by
    rw [List.map_append]
    refine List.pairwise_append.mpr ⟨h.rising,List.pairwise_singleton ..,?_⟩
    intro first old last new
    obtain ⟨moving,member,shape⟩ := List.mem_map.mp old
    obtain ⟨other,entry,-⟩ := h.only moving member
    have inside := (List.getElem?_eq_some_iff.mp entry).1
    have end_ : last=obstacles.length := by
      simpa using new
    omega
  apart := apart
  bounded := bounded

/-- Keeping one more obstacle. -/
theorem converted_add {table : List (Obstacle Shape)} {obstacles : List SceneObstacle} {c : Conversion Shape}
    (h : Converted table obstacles c) {o : SceneObstacle} {parts : List (SceneTap.Part Shape)}
    (hp : convertParts table "snapshot geometry index out of range" o.parts=.ok parts) :
    Converted table (obstacles ++ [o]) (c.add o parts) := by
  have grown : List.Forall₂ (Described table) (obstacles ++ [o]) (c.descriptions ++ [⟨o.id,o.pose,parts⟩]) :=
    List.rel_append h.described (.cons ⟨rfl,hp,fun _ => rfl⟩ .nil)
  have same : c.descriptions.length=obstacles.length := h.described.length_eq.symm
  unfold Conversion.add
  simp only
  split
  · next moves =>
    split
    · next slot known =>
      refine ⟨grown,?_⟩
      rw [same]
      exact placed_moving h.placed moves known (fun _ _ found => found) h.placed.apart h.placed.bounded
    · next unknown =>
      refine ⟨grown,?_⟩
      have found : ∀ id, (c.slots ++ [(o.id,c.positions.length)]).lookup id=
          (c.slots.lookup id).or (if id=o.id then some c.positions.length else none) :=
        lookup_append_one c.slots o.id c.positions.length
      have cases_ : ∀ id k, (c.slots ++ [(o.id,c.positions.length)]).lookup id=some k →
          c.slots.lookup id=some k ∨ (id=o.id ∧ k=c.positions.length) := by
        intro id k entry
        rw [found] at entry
        rcases Option.or_eq_some_iff.mp entry with old | ⟨-,new⟩
        · exact Or.inl old
        · by_cases here : id=o.id
          · rw [if_pos here] at new
            exact Or.inr ⟨here,(Option.some.inj new).symm⟩
          · rw [if_neg here] at new
            cases new
      rw [same]
      refine placed_moving h.placed moves ?_ ?_ ?_ ?_
      · rw [found,unknown,if_pos rfl]
        rfl
      · intro id old entry
        rw [found,entry]
        rfl
      · intro id id' k first second
        rcases cases_ id k first with old | ⟨here,last⟩
        · rcases cases_ id' k second with old' | ⟨-,last'⟩
          · exact h.placed.apart id id' k old old'
          · have less := h.placed.bounded id k old
            omega
        · rcases cases_ id' k second with old' | ⟨here',-⟩
          · have less := h.placed.bounded id' k old'
            omega
          · rw [here,here']
      · intro id k entry
        simp only [List.length_append,List.length_singleton]
        rcases cases_ id k entry with old | ⟨-,last⟩
        · have less := h.placed.bounded id k old
          omega
        · omega
  · next still =>
    exact ⟨grown,placed_still h.placed (by simpa using still)⟩

/-- The conversion keeps every obstacle of a definition. -/
theorem convertObstacles_converted {table : List (Obstacle Shape)} {done obstacles : List SceneObstacle}
    {c result : Conversion Shape} (h : Converted table done c) (hr : convertObstacles table obstacles c=.ok result) :
    Converted table (done ++ obstacles) result := by
  induction obstacles generalizing done c with
  | nil =>
    rw [List.append_nil]
    rw [← Except.ok.inj hr]
    exact h
  | cons o rest ih =>
    unfold convertObstacles at hr
    obtain ⟨parts,converted,further⟩ := except_bind_ok.mp hr
    have later := ih (converted_add h converted) further
    rw [List.append_assoc] at later
    exact later

/-- A conversion from the start. -/
theorem converted_new (table : List (Obstacle Shape)) : Converted table [] {} where
  described := .nil
  placed := ⟨nofun,nofun,List.Pairwise.nil,nofun,nofun⟩

end Conversions

section States

/-- Positions keep their number. -/
theorem notePositions_length (slots : List (String × ℕ)) (missing : ℕ) (states : List SceneObstacleState) (index : ℕ)
    (positions : List ℕ) : (notePositions slots missing states index positions).length=positions.length := by
  induction states generalizing index positions with
  | nil => rfl
  | cons state rest ih =>
    unfold notePositions
    split
    · exact ih ..
    · split
      · rw [ih,List.length_set]
      · exact ih ..

/-- A position that was noted stays. -/
theorem notePositions_noted {slots : List (String × ℕ)} {missing slot p : ℕ} (hp : p≠missing)
    {states : List SceneObstacleState} {index : ℕ} {positions : List ℕ} (h : positions[slot]?=some p) :
    (notePositions slots missing states index positions)[slot]?=some p := by
  induction states generalizing index positions with
  | nil => exact h
  | cons state rest ih =>
    unfold notePositions
    split
    · exact ih h
    · next other found =>
      split
      · next free =>
        have apart : other≠slot := by
          intro same
          rw [same,h] at free
          exact hp (Option.some.inj free)
        refine ih ?_
        rw [List.getElem?_set_ne apart]
        exact h
      · exact ih h

/-- The position of an identity is its first entry, or after the end. -/
theorem notePositions_first {slots : List (String × ℕ)} {missing slot : ℕ} {id : String} (hs : slots.lookup id=some slot)
    (ha : ∀ other, slots.lookup other=some slot → other=id) {states : List SceneObstacleState} {index : ℕ}
    {positions : List ℕ} (h : positions[slot]?=some missing) (hm : index+states.length=missing) :
    ∃ p, (notePositions slots missing states index positions)[slot]?=some p ∧ index ≤ p ∧
      states[p-index]?=states.find? (fun state => decide (state.id=id)) := by
  induction states generalizing index positions with
  | nil =>
    refine ⟨missing,h,by simp at hm; omega,?_⟩
    rfl
  | cons state rest ih =>
    have shorter : index+1+rest.length=missing := by
      rw [List.length_cons] at hm
      omega
    have skip : ∀ {next : List ℕ}, next[slot]?=some missing → state.id≠id →
        ∃ p, (notePositions slots missing rest (index+1) next)[slot]?=some p ∧ index ≤ p ∧
          (state::rest)[p-index]?=(state::rest).find? (fun other => decide (other.id=id)) := by
      intro next same other
      obtain ⟨p,entry,after,first⟩ := ih same shorter
      refine ⟨p,entry,by omega,?_⟩
      have later : p-index=p-(index+1)+1 := by
        omega
      rw [later,List.getElem?_cons_succ,List.find?_cons_of_neg (by simpa using other)]
      exact first
    unfold notePositions
    split
    · next unknown =>
      refine skip h ?_
      intro same
      rw [same,hs] at unknown
      cases unknown
    · next place found =>
      by_cases here : state.id=id
      · have same : place=slot := by
          rw [here,hs] at found
          exact (Option.some.inj found).symm
        rw [same,if_pos h]
        have inside := (List.getElem?_eq_some_iff.mp h).1
        refine ⟨index,?_,Nat.le_refl _,?_⟩
        · refine notePositions_noted (by omega) ?_
          rw [List.getElem?_set_self inside]
        · rw [Nat.sub_self,List.find?_cons_of_pos (by simpa using here)]
          rfl
      · have apart : place≠slot := by
          intro same
          rw [same] at found
          exact here (ha state.id found)
        split
        · refine skip ?_ here
          rw [List.getElem?_set_ne apart]
          exact h
        · exact skip h here

/-- A placement is the one of a state, as the source compares them. -/
def PoseOf (message kept : Pose3) : Prop := kept=message ∨ poseDiffers message kept=false

/-- Kept obstacles that differ in placements only, and only where obstacles move. -/
def Moved (dynamic : List Moving) (before after : List (Description Shape)) : Prop :=
  after.length=before.length ∧
    ∀ (k : ℕ) (d : Description Shape), before[k]?=some d → ∃ d', after[k]?=some d' ∧ d'.id=d.id ∧ d'.parts=d.parts ∧
      ((∀ moving∈dynamic, moving.description≠k) → d'=d)

/-- Moves compose. -/
theorem Moved.trans {first second : List Moving} {a b c : List (Description Shape)} (h : Moved first a b)
    (h' : Moved second b c) : Moved (first ++ second) a c := by
  refine ⟨h'.1.trans h.1,fun k d entry => ?_⟩
  obtain ⟨d',entry',id,parts,same⟩ := h.2 k d entry
  obtain ⟨d'',entry'',id',parts',same'⟩ := h'.2 k d' entry'
  refine ⟨d'',entry'',id'.trans id,parts'.trans parts,fun still => ?_⟩
  rw [same' (fun moving member => still moving (List.mem_append.mpr (Or.inr member))),
    same (fun moving member => still moving (List.mem_append.mpr (Or.inl member)))]

/-- Nothing moved. -/
theorem moved_refl (dynamic : List Moving) (a : List (Description Shape)) : Moved dynamic a a :=
  ⟨rfl,fun _ d entry => ⟨d,entry,rfl,rfl,fun _ => rfl⟩⟩

/-- One obstacle moved. -/
theorem moved_set (moving : Moving) {a : List (Description Shape)} {d : Description Shape}
    (h : a[moving.description]?=some d) (pose : Pose3) : Moved [moving] a (a.set moving.description {d with pose := pose}) := by
  refine ⟨List.length_set ..,fun k other entry => ?_⟩
  have inside := (List.getElem?_eq_some_iff.mp h).1
  by_cases here : moving.description=k
  · rw [← here] at entry ⊢
    rw [h] at entry
    have same := Option.some.inj entry
    refine ⟨{d with pose := pose},List.getElem?_set_self inside,by rw [same],by rw [same],fun still => ?_⟩
    exact absurd rfl (still moving (List.mem_singleton_self _))
  · exact ⟨other,by rw [List.getElem?_set_ne here]; exact entry,rfl,rfl,fun _ => rfl⟩

/-- Moving obstacles changes placements only. -/
theorem moveObstacles_moved (states : List SceneObstacleState) (positions : List ℕ) (dynamic : List Moving)
    (descriptions : List (Description Shape)) (changed : Bool) :
    Moved dynamic descriptions (moveObstacles states positions dynamic descriptions changed).descriptions := by
  induction dynamic generalizing descriptions changed with
  | nil => exact moved_refl ..
  | cons moving rest ih =>
    have further : ∀ c, Moved (moving::rest) descriptions (moveObstacles states positions rest descriptions c).descriptions :=
      fun c => (moved_refl [moving] descriptions).trans (ih descriptions c)
    unfold moveObstacles
    split
    · exact further changed
    · next d entry =>
      split
      · exact moved_refl ..
      · next state found =>
        split
        · exact (moved_set moving entry state.pose).trans (ih _ true)
        · exact further changed

/-- Obstacles that did not change are the same. -/
theorem moveObstacles_unchanged {states : List SceneObstacleState} {positions : List ℕ} {dynamic : List Moving}
    {descriptions : List (Description Shape)} {changed : Bool}
    (h : (moveObstacles states positions dynamic descriptions changed).changed=false) :
    changed=false ∧ (moveObstacles states positions dynamic descriptions changed).descriptions=descriptions := by
  induction dynamic generalizing descriptions changed with
  | nil => exact ⟨h,rfl⟩
  | cons moving rest ih =>
    unfold moveObstacles at h ⊢
    split at h
    · exact ih h
    · split at h
      · exact ⟨h,rfl⟩
      · split at h
        · next differs =>
          have never := (ih h).1
          cases never
        · next same =>
          rw [if_neg same]
          exact ih h

/-- A complete move gives every moving obstacle the placement of its state. -/
theorem moveObstacles_complete {states : List SceneObstacleState} {positions : List ℕ} {dynamic : List Moving}
    {descriptions : List (Description Shape)} {changed : Bool}
    (hr : (dynamic.map (fun moving => moving.description)).Pairwise (fun first later => first<later))
    (h : (moveObstacles states positions dynamic descriptions changed).lacking=none) :
    ∀ moving∈dynamic, ∀ d, (moveObstacles states positions dynamic descriptions changed).descriptions[moving.description]?=some d →
      ∃ state, positions[moving.state]?.bind (fun position => states[position]?)=some state ∧ PoseOf state.pose d.pose := by
  induction dynamic generalizing descriptions changed with
  | nil => exact nofun
  | cons head rest ih =>
    have order := List.pairwise_cons.mp hr
    intro moving member d entry
    have away : ∀ other∈rest, other.description≠head.description := by
      intro other among
      have less : head.description<other.description := order.1 other.description (List.mem_map_of_mem among)
      omega
    unfold moveObstacles at h entry
    split at h
    · next none =>
      rw [none] at entry
      rcases List.mem_cons.mp member with here | there
      · have same := (moveObstacles_moved states positions rest descriptions changed).1
        have inside := (List.getElem?_eq_some_iff.mp entry).1
        have beyond := List.getElem?_eq_none_iff.mp none
        rw [here] at inside
        simp only at inside
        omega
      · exact ih order.2 h moving there d entry
    · next old oldEntry =>
      rw [oldEntry] at entry
      split at h
      · cases h
      · next state found =>
        simp only [found] at entry
        split at h
        · next differs =>
          rw [if_pos differs] at entry
          rcases List.mem_cons.mp member with here | there
          · have inside := (List.getElem?_eq_some_iff.mp oldEntry).1
            obtain ⟨d',entry',-,-,still⟩ := (moveObstacles_moved states positions rest
              (descriptions.set head.description {old with pose := state.pose}) true).2 head.description _
              (List.getElem?_set_self inside)
            rw [here] at entry ⊢
            rw [entry'] at entry
            have same := still away
            rw [← Option.some.inj entry,same]
            exact ⟨state,found,Or.inl rfl⟩
          · exact ih order.2 h moving there d entry
        · next agrees =>
          rw [if_neg agrees] at entry
          rcases List.mem_cons.mp member with here | there
          · obtain ⟨d',entry',-,-,still⟩ := (moveObstacles_moved states positions rest descriptions changed).2
              head.description _ oldEntry
            rw [here] at entry ⊢
            rw [entry'] at entry
            have same := still away
            rw [← Option.some.inj entry,same]
            exact ⟨state,found,Or.inr (by simpa using agrees)⟩
          · exact ih order.2 h moving there d entry

end States

section Engines

/-- Every policy has a scene that was compiled from the obstacles. -/
def Compiled (L : Optics Shape Scene) (obstacles : List (Obstacle Shape)) (e : Engine Scene) : Prop :=
  List.Forall₂ (fun policy scene => ∃ previous compiled, scene=some compiled ∧
    L.lidarScene obstacles policy previous=.ok compiled) e.policies e.scenes

/-- What an engine keeps, with its installations up to a revision. -/
structure Fits (revision : ℕ) (e : Engine Scene) : Prop where
  /-- There is no saved point cloud. -/
  plain : e.pointMap=false
  /-- Every policy has its scene. -/
  scenes : e.scenes.length=e.policies.length
  /-- Installations are numbered up to the revision. -/
  bounded : e.haveRevision=true → e.revision ≤ revision

/-- An invalidation under a current revision makes the scene unready. -/
theorem invalidateScene_fits {revision : ℕ} {e : Engine Scene} (h : Fits revision e) :
    invalidateScene revision e=(true,{e with revision := revision, haveRevision := true, ready := false}) := by
  unfold invalidateScene
  refine if_neg ?_
  intro old
  have parts := Bool.and_eq_true_iff.mp old
  have bound := h.bounded parts.1
  have less := of_decide_eq_true parts.2
  omega

/-- An engine fits after an invalidation. -/
theorem invalidated_fits {revision : ℕ} {e : Engine Scene} (h : Fits revision e) :
    Fits revision (invalidateScene revision e).2 ∧ (invalidateScene revision e).2.ready=false := by
  rw [invalidateScene_fits h]
  exact ⟨⟨h.plain,h.scenes,fun _ => Nat.le_refl _⟩,rfl⟩

/-- Prepared scenes are compiled from the obstacles. -/
theorem prepareScenes_compiled {L : Optics Shape Scene} {obstacles : List (Obstacle Shape)} {policies : List SamplingPolicy}
    {scenes : List (Option Scene)} (hl : scenes.length=policies.length) {prepared : List Scene}
    (h : prepareScenes L obstacles policies scenes=.ok prepared) :
    List.Forall₂ (fun policy scene => ∃ previous compiled, scene=some compiled ∧
      L.lidarScene obstacles policy previous=.ok compiled) policies (prepared.map some) := by
  induction policies generalizing scenes prepared with
  | nil =>
    cases scenes with
    | nil =>
      have empty : prepared=[] := (Except.ok.inj h).symm
      rw [empty]
      exact .nil
    | cons _ _ => cases hl
  | cons policy rest ih =>
    cases scenes with
    | nil => cases hl
    | cons previous others =>
      unfold prepareScenes at h
      obtain ⟨scene,compiled,h⟩ := except_bind_ok.mp h
      obtain ⟨later,prepares,h⟩ := except_bind_ok.mp h
      have shape : prepared=scene::later := (Except.ok.inj h).symm
      rw [shape]
      exact .cons ⟨previous,scene,rfl,compiled⟩ (ih (Nat.succ.inj hl) prepares)

/-- The cache installs compiled scenes, or it is unready. -/
theorem cacheScene_meets (L : Optics Shape Scene) (obstacles : List (Obstacle Shape)) {revision : ℕ} {e : Engine Scene}
    (h : Fits revision e) (hr : e.ready=false) :
    Meets (cacheScene L obstacles revision) e (fun _ t => Fits revision t ∧ t.policies=e.policies ∧ Compiled L obstacles t)
      (fun _ t => Fits revision t) := by
  have current : ¬(e.haveRevision && (decide (revision<e.revision) || (decide (revision=e.revision) && e.ready)))=true := by
    rw [hr,Bool.and_false,Bool.or_false]
    intro old
    have parts := Bool.and_eq_true_iff.mp old
    have bound := h.bounded parts.1
    have less := of_decide_eq_true parts.2
    omega
  unfold cacheScene
  rw [meets_bind,meets_get,if_neg current,meets_bind]
  show Meets _ (invalidateScene revision e).2 _ _
  rw [invalidateScene_fits h,meets_bind,meets_ofResult]
  constructor
  · intro prepared prepares
    rw [meets_bind,meets_modify,meets_pure]
    have compiled := prepareScenes_compiled h.scenes prepares
    exact ⟨⟨h.plain,compiled.length_eq.symm,fun _ => Nat.le_refl _⟩,rfl,compiled⟩
  · intro what _
    exact ⟨h.plain,h.scenes,fun _ => Nat.le_refl _⟩

/-- An engine installs compiled scenes, or it is unready or says why not. -/
theorem setScene_meets (L : Optics Shape Scene) (obstacles : List (Obstacle Shape)) {revision : ℕ} {e : Engine Scene}
    (h : Fits revision e) (hr : e.ready=false) :
    Meets (setScene L obstacles revision) e (fun _ t => Fits revision t ∧ Compiled L obstacles t)
      (fun _ t => Fits revision t) := by
  have unready : ¬(e.ready && decide (revision=e.revision))=true := by
    rw [hr]
    exact nofun
  have whole : (if e.pointMap=true then [] else obstacles)=obstacles := by
    rw [h.plain]
    rfl
  unfold setScene
  rw [meets_bind,meets_get,if_neg unready,invalidateScene_fits h]
  simp only [whole]
  rw [meets_bind]
  show Meets _ {e with revision := revision, haveRevision := true, ready := false} _ _
  rw [meets_bind]
  have fits : Fits revision {e with revision := revision, haveRevision := true, ready := false} :=
    ⟨h.plain,h.scenes,fun _ => Nat.le_refl _⟩
  refine (cacheScene_meets L obstacles fits rfl).mono ?_ (fun _ _ fits => fits)
  rintro - t ⟨fits,-,compiled⟩
  rw [meets_bind,meets_ofResult]
  exact ⟨fun _ _ => ⟨fits,compiled⟩,fun _ _ => fits⟩

end Engines

section Soundness

/-- Related lists, by their entries. -/
theorem forall2_entries {α β : Type} {R : α → β → Prop} {l : List α} {m : List β} :
    List.Forall₂ R l m ↔ m.length=l.length ∧ ∀ (k : ℕ) (a : α) (b : β), l[k]?=some a → m[k]?=some b → R a b := by
  rw [List.forall₂_iff_get]
  constructor
  · rintro ⟨same,related⟩
    refine ⟨same.symm,fun k a b first second => ?_⟩
    obtain ⟨inside,entry⟩ := List.getElem?_eq_some_iff.mp first
    obtain ⟨inside',entry'⟩ := List.getElem?_eq_some_iff.mp second
    have here := related k inside inside'
    rw [List.get_eq_getElem,List.get_eq_getElem,entry,entry'] at here
    exact here
  · rintro ⟨same,related⟩
    refine ⟨same.symm,fun k inside inside' => related k _ _ ?_ ?_⟩
    · exact List.getElem?_eq_getElem inside
    · exact List.getElem?_eq_getElem inside'

/-- Moved obstacles stand for the same obstacles of the definition. -/
theorem described_moved {table : List (Obstacle Shape)} {obstacles : List SceneObstacle} {dynamic : List Moving}
    {slots : List (String × ℕ)} {places : ℕ} (hp : Placed obstacles dynamic slots places)
    {before after : List (Description Shape)} (h : List.Forall₂ (Described table) obstacles before)
    (hm : Moved dynamic before after) : List.Forall₂ (Described table) obstacles after := by
  obtain ⟨same,related⟩ := forall2_entries.mp h
  refine forall2_entries.mpr ⟨hm.1.trans same,fun k o d' entry entry' => ?_⟩
  have inside : k<before.length := by
    have small := (List.getElem?_eq_some_iff.mp entry).1
    omega
  have old := List.getElem?_eq_getElem inside
  obtain ⟨d,found,id,parts,still⟩ := hm.2 k _ old
  rw [entry'] at found
  have here := related k o _ entry old
  rw [Option.some.inj found]
  refine ⟨id.trans here.id,by rw [parts]; exact here.parts,fun rests => ?_⟩
  have away : ∀ moving∈dynamic, moving.description≠k := by
    intro moving member same
    obtain ⟨other,found,moves,-⟩ := hp.only moving member
    rw [same,entry] at found
    rw [← Option.some.inj found,rests] at moves
    cases moves
  rw [still away]
  exact here.pose rests

/-- An accepted state places every moving obstacle of a definition. -/
def StatePlaces (m : SceneSnapshot) (message : SceneState) (o : SceneObstacle) (d : Description Shape) : Prop :=
  message.epoch=m.epoch ∧ message.revision=m.revision ∧ message.frame="world" ∧
    ∃ state, message.obstacles.find? (fun state => decide (state.id=o.id))=some state ∧ PoseOf state.pose d.pose

/-- The tap keeps a definition. -/
structure Pairs (L : Optics Shape Scene) (m : SceneSnapshot) (table : List (Obstacle Shape)) (s : Tap Shape Scene) :
    Prop where
  /-- Message. -/
  message : s.stored=some m
  /-- Epoch. -/
  epoch : m.epoch=s.epoch
  /-- Revision. -/
  revision : m.revision=s.revision
  /-- Frame. -/
  frame : m.frame="world"
  /-- Geometry table. -/
  geometries : geometryTable L m.geometries=.ok table
  /-- Ground. -/
  ground : groundOf L table m.ground=.ok s.groundShapes
  /-- Obstacles. -/
  described : List.Forall₂ (Described table) m.obstacles s.descriptions
  /-- Places of the moving ones. -/
  placed : Placed m.obstacles s.dynamic s.dynamicSlots s.statePositions.length
  /-- A complete state places the moving ones. -/
  states : s.haveState=true → ∃ message, s.accepted=some message ∧ ∀ (k : ℕ) (o : SceneObstacle) (d : Description Shape),
    m.obstacles[k]?=some o → o.dynamic=true → s.descriptions[k]?=some d → StatePlaces m message o d

/-- What the tap keeps, whether its scene is ready or not. -/
structure Kept (L : Optics Shape Scene) (s : Tap Shape Scene) : Prop where
  /-- The members of the last application. -/
  application : (s.lastApplication=none ∧ s.applied=false) ∨
    s.lastApplication=some ⟨s.applicationEpoch,s.applicationRevision,s.applied⟩
  /-- The engine fits. -/
  engine : Fits s.installation s.engine
  /-- The definition. -/
  stored : s.haveSnapshot=true → ∃ m table, Pairs L m table s

/-- The ready scene is the kept definition. -/
structure Installed (L : Optics Shape Scene) (s : Tap Shape Scene) : Prop where
  /-- There is a definition. -/
  haveSnapshot : s.haveSnapshot=true
  /-- It is confirmed. -/
  confirmed : synchronized s=true
  /-- Its state is complete. -/
  complete : s.haveState=true ∨ s.dynamic=[]
  /-- The scenes are compiled from its shapes. -/
  compiled : ∃ shapes, placeAll L s.descriptions=.ok shapes ∧ Compiled L (s.groundShapes ++ shapes) s.engine

/-- What every reachable state of the tap satisfies. -/
structure Sound (L : Optics Shape Scene) (s : Tap Shape Scene) : Prop where
  /-- What is kept. -/
  kept : Kept L s
  /-- A ready scene is installed. -/
  installed : s.engine.ready=true → Installed L s

/-- Later installations fit as well. -/
theorem Fits.next {revision : ℕ} {e : Engine Scene} (h : Fits revision e) : Fits (revision+1) e := by
  refine ⟨h.plain,h.scenes,fun known => ?_⟩
  have bound := h.bounded known
  omega

/-- An unready tap is sound when it keeps what it should. -/
theorem sound_unready {L : Optics Shape Scene} {s : Tap Shape Scene} (h : Kept L s) (hr : s.engine.ready=false) :
    Sound L s :=
  ⟨h,fun ready => by rw [hr] at ready; cases ready⟩

/-- An invalidation makes the scene unready and keeps the rest. -/
theorem kept_invalidated {L : Optics Shape Scene} {s : Tap Shape Scene} (h : Kept L s) :
    Kept L (invalidated s) ∧ (invalidated s).engine.ready=false := by
  have fits := invalidated_fits h.engine.next
  refine ⟨⟨h.application,fits.1,fun have_ => ?_⟩,fits.2⟩
  obtain ⟨m,table,pairs⟩ := h.stored have_
  exact ⟨m,table,{pairs with}⟩

/-- Both exits of an invalidation leave the invalidated tap. -/
theorem invalidate_meets (sinkThrows : Bool) (s : Tap Shape Scene) :
    Meets (invalidate sinkThrows) s (fun _ t => t=invalidated s) (fun _ t => t=invalidated s) := by
  unfold invalidate
  rw [meets_bind,meets_modify]
  cases sinkThrows with
  | true | false => exact rfl

/-- A refused scene is unready. -/
theorem refuse_sound {L : Optics Shape Scene} {s : Tap Shape Scene} (h : Kept L s) {e : Engine Scene}
    (he : Fits s.installation e) (what : String) : Sound L (refuse what e s) := by
  have fits := invalidated_fits he
  refine sound_unready ⟨h.application,fits.1,fun have_ => ?_⟩ fits.2
  obtain ⟨m,table,pairs⟩ := h.stored have_
  exact ⟨m,table,{pairs with}⟩

/-- An installation into an unready engine is sound. -/
theorem install_sound {L : Optics Shape Scene} {s : Tap Shape Scene} (h : Kept L s) (hr : s.engine.ready=false) :
    Sound L (install L s) := by
  unfold install
  split
  · exact sound_unready h hr
  · next complete =>
    split
    · next what _ => exact refuse_sound h h.engine what
    · next shapes placed =>
      have meets := setScene_meets L (s.groundShapes ++ shapes) h.engine hr
      split
      · next what e refused => exact refuse_sound h (meets.thrown refused) what
      · next installed e set_ =>
        obtain ⟨fits,compiled⟩ := meets.returned set_
        simp only [Bool.or_eq_true,Bool.not_eq_true',Bool.and_eq_true,List.isEmpty_eq_false_iff,not_or,not_and_or,
          Bool.not_eq_false,not_not] at complete
        refine ⟨⟨h.application,fits,fun have_ => ?_⟩,fun _ => ⟨complete.1.1,complete.1.2,?_,shapes,placed,compiled⟩⟩
        · obtain ⟨m,table,pairs⟩ := h.stored have_
          exact ⟨m,table,{pairs with}⟩
        · exact complete.2

end Soundness

section Calls

/-- Both exits of an action leave a sound tap. -/
def KeepsSound (L : Optics Shape Scene) (action : Act Shape Scene Unit) (s : Tap Shape Scene) : Prop :=
  Meets action s (fun _ t => Sound L t) (fun _ t => Sound L t)

/-- An invalidation followed by an action that is fine with an unready scene. -/
theorem invalidate_then {L : Optics Shape Scene} {s : Tap Shape Scene} (h : Kept L s) (sinkThrows : Bool)
    {next : Unit → Act Shape Scene Unit} (hn : KeepsSound L (next ()) (invalidated s)) :
    KeepsSound L (invalidate sinkThrows >>= next) s := by
  have unready := kept_invalidated h
  unfold KeepsSound
  rw [meets_bind]
  refine (invalidate_meets sinkThrows s).mono ?_ ?_
  · intro _ t same
    rw [same]
    exact hn
  · intro _ t same
    rw [same]
    exact sound_unready unready.1 unready.2

/-- An invalidation under a condition, followed by an action that is fine with both outcomes. -/
theorem invalidateIf_then {L : Optics Shape Scene} {s : Tap Shape Scene} (h : Kept L s) {condition sinkThrows : Bool}
    {next : Unit → Act Shape Scene Unit}
    (hu : Kept L (invalidated s) → (invalidated s).engine.ready=false → KeepsSound L (next ()) (invalidated s))
    (hn : condition=false → KeepsSound L (next ()) s) :
    Meets (invalidateIf condition sinkThrows) s (fun a t => Meets (next a) t (fun _ t => Sound L t) (fun _ t => Sound L t))
      (fun _ t => Sound L t) := by
  have unready := kept_invalidated h
  unfold invalidateIf
  rw [meets_ite]
  constructor
  · intro _
    have both := invalidate_then h sinkThrows (hu unready.1 unready.2)
    unfold KeepsSound at both
    rw [meets_bind] at both
    exact both
  · intro other
    rw [meets_pure]
    exact hn (by simpa using other)

/-- An application keeps the tap sound. -/
theorem application_sound {L : Optics Shape Scene} {s : Tap Shape Scene} (h : Sound L s) (call : Application)
    (sinkThrows : Bool) : KeepsSound L (application L call sinkThrows) s := by
  have kept : Kept L {s with
      applicationEpoch := call.epoch, applicationRevision := call.revision, applied := call.synchronized,
      lastApplication := some call} := by
    refine ⟨Or.inr rfl,h.kept.engine,fun have_ => ?_⟩
    obtain ⟨m,table,pairs⟩ := h.kept.stored have_
    exact ⟨m,table,{pairs with}⟩
  unfold application KeepsSound
  rw [meets_bind,meets_get,meets_ite]
  refine ⟨fun _ => h,fun _ => ?_⟩
  rw [meets_bind]
  show Meets _ {s with
      applicationEpoch := call.epoch, applicationRevision := call.revision, applied := call.synchronized,
      lastApplication := some call} _ _
  rw [meets_bind]
  refine invalidateIf_then kept ?_ ?_
  · intro unready ready
    unfold KeepsSound
    rw [meets_modify]
    split
    · exact install_sound unready ready
    · exact sound_unready unready ready
  · intro same
    simp only [Bool.or_eq_false_iff,decide_eq_false_iff_not,not_not,Bool.not_eq_false'] at same
    obtain ⟨⟨⟨epoch,revision⟩,applied⟩,-⟩ := same
    unfold KeepsSound
    rw [meets_modify]
    split
    · next again =>
      have unready := (Bool.and_eq_true_iff.mp again).2
      exact install_sound kept (by simpa using unready)
    · refine ⟨kept,fun ready => ?_⟩
      have installed := h.installed ready
      refine ⟨installed.haveSnapshot,?_,installed.complete,installed.compiled⟩
      have confirmed := installed.confirmed
      unfold synchronized at confirmed ⊢
      simp only [epoch,revision,← applied]
      exact confirmed

/-- A definition keeps the tap sound. -/
theorem snapshot_sound {L : Optics Shape Scene} {s : Tap Shape Scene} (h : Sound L s) (message : SceneSnapshot)
    (outputsThrow sinkThrows : Bool) : KeepsSound L (SceneTap.snapshot L message outputsThrow sinkThrows) s := by
  have unready := kept_invalidated h.kept
  unfold SceneTap.snapshot KeepsSound
  rw [meets_ite]
  refine ⟨fun _ => h,fun _ => ?_⟩
  rw [meets_bind,meets_get,meets_ite]
  refine ⟨fun _ => h,fun _ => ?_⟩
  refine invalidate_then h.kept sinkThrows ?_
  unfold KeepsSound
  rw [meets_bind,meets_modify]
  split
  · rw [meets_modify]
    exact sound_unready ⟨unready.1.application,unready.1.engine,nofun⟩ unready.2
  · next frame =>
    split
    · rw [meets_modify]
      exact sound_unready ⟨unready.1.application,unready.1.engine,nofun⟩ unready.2
    · next ground c converted =>
      rw [meets_modify]
      refine install_sound ⟨unready.1.application,unready.1.engine,fun _ => ?_⟩ unready.2
      unfold convert at converted
      obtain ⟨table,geometries,converted⟩ := except_bind_ok.mp converted
      obtain ⟨shapes,grounded,converted⟩ := except_bind_ok.mp converted
      obtain ⟨conversion,obstacles,converted⟩ := except_bind_ok.mp converted
      have both := Prod.mk.inj (Except.ok.inj converted)
      rw [both.1] at grounded
      rw [both.2] at obstacles
      have whole := convertObstacles_converted (converted_new table) obstacles
      rw [List.nil_append] at whole
      exact ⟨message,table,rfl,rfl,rfl,not_not.mp frame,geometries,grounded,whole.described,whole.placed,nofun⟩

/-- An accepted state installs unless the scene is ready. -/
theorem settleState_sound {L : Optics Shape Scene} {s : Tap Shape Scene} (h : Sound L s) : Sound L (settleState L s) := by
  unfold settleState
  split
  · exact h
  · next unready => exact install_sound h.kept (by simpa using unready)

/-- A state without its definition's placements is dropped. -/
theorem dropState_sound {L : Optics Shape Scene} {s : Tap Shape Scene} (kept : Kept L {s with haveState := false})
    (sinkThrows : Bool) (what : String) :
    KeepsSound L (do
      modify (fun t => {t with haveState := false})
      invalidate sinkThrows
      modify (fun t => {t with error := what})) s := by
  have unready := kept_invalidated kept
  unfold KeepsSound
  rw [meets_bind,meets_modify]
  refine invalidate_then kept sinkThrows ?_
  unfold KeepsSound
  rw [meets_modify]
  refine sound_unready ⟨unready.1.application,unready.1.engine,fun have_ => ?_⟩ unready.2
  obtain ⟨m,table,pairs⟩ := unready.1.stored have_
  exact ⟨m,table,{pairs with}⟩

/-- Positions of the identities in a state message. -/
def positionsIn (message : SceneState) (s : Tap Shape Scene) : List ℕ :=
  notePositions s.dynamicSlots message.obstacles.length message.obstacles 0
    (s.statePositions.map (fun _ => message.obstacles.length))

/-- Obstacles moved by a state message. -/
def movesOf (message : SceneState) (s : Tap Shape Scene) : Moves Shape :=
  moveObstacles message.obstacles (positionsIn message s) s.dynamic s.descriptions false

/-- Moved obstacles are kept. -/
theorem moved_pairs {L : Optics Shape Scene} {m : SceneSnapshot} {table : List (Obstacle Shape)} {s : Tap Shape Scene}
    (h : Pairs L m table s) (message : SceneState) :
    Pairs L m table {s with
      statePositions := positionsIn message s, descriptions := (movesOf message s).descriptions, haveState := false} where
  message := h.message
  epoch := h.epoch
  revision := h.revision
  frame := h.frame
  geometries := h.geometries
  ground := h.ground
  described := described_moved h.placed h.described (moveObstacles_moved ..)
  placed := by
    have same : (positionsIn message s).length=s.statePositions.length := by
      unfold positionsIn
      rw [notePositions_length,List.length_map]
    simp only [same]
    exact h.placed
  states := nofun

/-- A complete state places every moving obstacle. -/
theorem moved_places {L : Optics Shape Scene} {m : SceneSnapshot} {table : List (Obstacle Shape)} {s : Tap Shape Scene}
    (h : Pairs L m table s) {message : SceneState} (he : message.epoch=s.epoch) (hr : message.revision=s.revision)
    (hf : message.frame="world") (hl : (movesOf message s).lacking=none) {k : ℕ} {o : SceneObstacle} {d : Description Shape}
    (ho : m.obstacles[k]?=some o) (hd : o.dynamic=true) (hk : (movesOf message s).descriptions[k]?=some d) :
    StatePlaces m message o d := by
  obtain ⟨slot,member,found⟩ := h.placed.every k o ho hd
  obtain ⟨state,entry,pose⟩ := moveObstacles_complete h.placed.rising hl ⟨k,slot⟩ member d hk
  have inside := h.placed.bounded o.id slot found
  have start : (s.statePositions.map (fun _ => message.obstacles.length))[slot]?=some message.obstacles.length := by
    rw [List.getElem?_map,List.getElem?_eq_getElem inside]
    rfl
  obtain ⟨p,position,-,first⟩ := notePositions_first found (fun other same => h.placed.apart other o.id slot same found)
    start (Nat.zero_add _)
  have there : (positionsIn message s)[slot]?=some p := position
  rw [there,Option.bind_some] at entry
  rw [Nat.sub_zero,entry] at first
  exact ⟨he.trans h.epoch.symm,hr.trans h.revision.symm,hf,state,first.symm,pose⟩

/-- A state keeps the tap sound. -/
theorem state_sound {L : Optics Shape Scene} {s : Tap Shape Scene} (h : Sound L s) (message : SceneState)
    (outputsThrow sinkThrows : Bool) : KeepsSound L (state L message outputsThrow sinkThrows) s := by
  unfold state KeepsSound
  rw [meets_ite]
  refine ⟨fun _ => h,fun _ => ?_⟩
  rw [meets_bind,meets_get,meets_ite]
  refine ⟨fun _ => h,fun current => ?_⟩
  simp only [Bool.or_eq_true,decide_eq_true_eq,Bool.not_eq_true',not_or,not_not,Bool.not_eq_false] at current
  obtain ⟨⟨⟨-,have_⟩,epoch⟩,revision⟩ := current
  obtain ⟨m,table,pairs⟩ := h.kept.stored have_
  split
  · exact dropState_sound ⟨h.kept.application,h.kept.engine,fun _ => ⟨m,table,{pairs with states := nofun}⟩⟩ sinkThrows _
  · next frame =>
    have world := not_not.mp frame
    split
    · next none =>
      have empty : s.dynamic=[] := List.isEmpty_iff.mp none
      rw [meets_modify]
      refine settleState_sound ⟨⟨h.kept.application,h.kept.engine,fun _ => ⟨m,table,{pairs with states := ?_}⟩⟩,fun ready => ?_⟩
      · refine fun _ => ⟨message,rfl,fun k o d entry moves _ => ?_⟩
        obtain ⟨slot,member,-⟩ := pairs.placed.every k o entry moves
        rw [empty] at member
        cases member
      · have installed := h.installed ready
        exact ⟨installed.haveSnapshot,installed.confirmed,Or.inr empty,installed.compiled⟩
    · have moved := moved_pairs pairs message
      rw [meets_bind,meets_modify]
      split
      · have dropped : Kept L {s with
            statePositions := positionsIn message s, descriptions := (movesOf message s).descriptions, haveState := false} :=
          ⟨h.kept.application,h.kept.engine,fun _ => ⟨m,table,moved⟩⟩
        exact dropState_sound (s := {s with
            statePositions := positionsIn message s, descriptions := (movesOf message s).descriptions}) dropped sinkThrows _
      · next complete =>
        have kept : Kept L {s with
            statePositions := positionsIn message s, descriptions := (movesOf message s).descriptions, haveState := true,
            accepted := some message} :=
          ⟨h.kept.application,h.kept.engine,fun _ => ⟨m,table,{moved with
            states := fun _ => ⟨message,rfl,fun _ _ _ entry moves place =>
              moved_places pairs epoch revision world complete entry moves place⟩}⟩⟩
        rw [meets_bind,meets_modify,meets_bind]
        refine invalidateIf_then kept ?_ ?_
        · intro unready ready
          unfold KeepsSound
          rw [meets_modify]
          exact settleState_sound (sound_unready unready ready)
        · intro unchanged
          have same : (movesOf message s).descriptions=s.descriptions := (moveObstacles_unchanged unchanged).2
          unfold KeepsSound
          rw [meets_modify]
          refine settleState_sound ⟨kept,fun ready => ?_⟩
          have installed := h.installed ready
          refine ⟨installed.haveSnapshot,installed.confirmed,Or.inl rfl,?_⟩
          simp only [same]
          exact installed.compiled

/-- One call keeps the tap sound. -/
theorem sound_step {L : Optics Shape Scene} {s : Tap Shape Scene} (h : Sound L s) (call : Call) : Sound L (step L s call) := by
  have sound : KeepsSound L (perform L call) s := by
    cases call with
    | application call sinkThrows => exact application_sound h call sinkThrows
    | snapshot message outputsThrow sinkThrows => exact snapshot_sound h message outputsThrow sinkThrows
    | state message outputsThrow sinkThrows => exact state_sound h message outputsThrow sinkThrows
  unfold KeepsSound Meets at sound
  unfold step
  cases exit : perform L call s with
  | ok _ _ | error _ _ =>
    rw [exit] at sound
    exact sound

end Calls

section Truth

/-- A new tap on an engine without a saved point cloud. -/
def newTap (attached : Bool) (reference : Option SamplingPolicy) (policies : List SamplingPolicy) : Tap Shape Scene :=
  {attached := attached, engine := newEngine reference policies}

/-- A new tap is sound. -/
theorem sound_new (L : Optics Shape Scene) (attached : Bool) (reference : Option SamplingPolicy)
    (policies : List SamplingPolicy) : Sound L (newTap attached reference policies) := by
  have fits : Fits 0 (newEngine reference policies : Engine Scene) := by
    refine ⟨rfl,?_,nofun⟩
    exact List.length_map ..
  exact sound_unready ⟨Or.inl ⟨rfl,rfl⟩,fits,nofun⟩ rfl

/-- The installed scene is the truth: the last application confirmed exactly the
revision of the stored definition, whose frame is the world, and every policy's
scene is compiled from the ground and the parts of every obstacle, where moving
obstacles stand where the last accepted state of that revision puts them. -/
def Truth (L : Optics Shape Scene) (s : Tap Shape Scene) : Prop :=
  ∃ m table ground descriptions shapes, s.stored=some m ∧ s.lastApplication=some ⟨m.epoch,m.revision,true⟩ ∧
    m.frame="world" ∧ geometryTable L m.geometries=.ok table ∧ groundOf L table m.ground=.ok ground ∧
    List.Forall₂ (fun o d => Described table o d ∧
      (o.dynamic=true → ∃ message, s.accepted=some message ∧ StatePlaces m message o d)) m.obstacles descriptions ∧
    placeAll L descriptions=.ok shapes ∧ Compiled L (ground ++ shapes) s.engine

/-- A ready scene of a sound tap is the truth. -/
theorem sound_truth {L : Optics Shape Scene} {s : Tap Shape Scene} (h : Sound L s) (ready : s.engine.ready=true) :
    Truth L s := by
  have installed := h.installed ready
  obtain ⟨m,table,pairs⟩ := h.kept.stored installed.haveSnapshot
  obtain ⟨shapes,placed,compiled⟩ := installed.compiled
  have confirmed := installed.confirmed
  unfold synchronized at confirmed
  simp only [Bool.and_eq_true,decide_eq_true_eq] at confirmed
  obtain ⟨⟨applied,epoch⟩,revision⟩ := confirmed
  have last : s.lastApplication=some ⟨m.epoch,m.revision,true⟩ := by
    rcases h.kept.application with ⟨-,never⟩ | call
    · rw [never] at applied
      cases applied
    · rw [call,applied,epoch,revision,pairs.epoch,pairs.revision]
  refine ⟨m,table,s.groundShapes,s.descriptions,shapes,pairs.message,last,pairs.frame,pairs.geometries,pairs.ground,?_,placed,
    compiled⟩
  obtain ⟨same,related⟩ := forall2_entries.mp pairs.described
  refine forall2_entries.mpr ⟨same,fun k o d entry place => ⟨related k o d entry place,fun moves => ?_⟩⟩
  rcases installed.complete with complete | none
  · obtain ⟨message,accepted,places⟩ := pairs.states complete
    exact ⟨message,accepted,places k o d entry moves place⟩
  · obtain ⟨slot,member,-⟩ := pairs.placed.every k o entry moves
    rw [none] at member
    cases member

/-- Whatever calls a tap gets and in whatever order, a ready scene is the truth. -/
theorem ready_scene_confirmed (L : Optics Shape Scene) (attached : Bool) (reference : Option SamplingPolicy)
    (policies : List SamplingPolicy) (calls : List Call)
    (ready : (run (step L) (newTap attached reference policies) calls).engine.ready=true) :
    Truth L (run (step L) (newTap attached reference policies) calls) := by
  have sound : Sound L (run (step L) (newTap attached reference policies) calls) :=
    run_invariant (fun t call (ht : Sound L t) _ => sound_step ht call) (sound_new L attached reference policies)
      (along_true (step L) _ calls)
  exact sound_truth sound ready

/-- Mathematics that keeps shapes and placements as they are. -/
def plainOptics : Optics ℕ (List (Obstacle ℕ)) where
  obstacleFromGeometry := fun payload => .ok ⟨payload.type,{},⟨0,0,0,1⟩⟩
  normalizedQuaternion := fun q => .ok q
  rotate := fun _ p => p
  multiply := fun _ q => q
  lidarScene := fun obstacles _ _ => .ok obstacles

/-- A definition with one moving sphere. -/
def sphereSnapshot : SceneSnapshot where
  stamp := {}
  frame := "world"
  sceneId := "scene"
  epoch := "epoch"
  revision := 3
  geometries := [⟨1,[0.5]⟩]
  ground := {mode := "none"}
  obstacles := [⟨"ball","ball","circle",true,{},[⟨"part",{},0,⟨1,1,1,1⟩⟩]⟩]

/-- A state of the sphere. -/
def sphereState : SceneState where
  stamp := {}
  frame := "world"
  epoch := "epoch"
  revision := 3
  playing := true
  sceneTime := 1
  obstacles := [⟨"ball",{x := 2},{},{}⟩]

/-- A definition, its confirmation and a state. -/
def sphereCalls : List Call :=
  [.snapshot sphereSnapshot false false,.application ⟨"epoch",3,true⟩ false,.state sphereState false false]

/-- A confirmed definition with its state is installed. -/
theorem sphere_installed :
    (run (step plainOptics) (newTap true none [⟨0.1,false⟩]) sphereCalls).engine.ready=true ∧
      Truth plainOptics (run (step plainOptics) (newTap true none [⟨0.1,false⟩]) sphereCalls) := by
  have ready : (run (step plainOptics) (newTap true none [⟨0.1,false⟩]) sphereCalls).engine.ready=true := by
    decide +kernel
  exact ⟨ready,ready_scene_confirmed plainOptics true none [⟨0.1,false⟩] sphereCalls ready⟩

end Truth

end Ros1Adapter.SceneTapTruth

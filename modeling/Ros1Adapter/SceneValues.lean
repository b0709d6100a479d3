import Ros1Adapter.DoubleSums
import Ros1Adapter.SceneDocumentNormal
import Ros1Adapter.SceneFingerprint

/-!
# Values that equal themselves

A JSON value equals itself when its objects have unique keys and none of its
doubles is a value that is no number. The validators only build such values,
so a document that the store holds always equals itself.
-/

namespace Ros1Adapter.SceneValues

open SceneJson SceneDocument SceneDocumentNormal SceneFingerprint DoubleSums ActionRules

section Sane

mutual
/-- Unique keys and doubles that equal themselves, at every depth. -/
def sane : Json → Bool
  | .float x => x==x
  | .array items => saneItems items
  | .object members => decide (members.map Prod.fst).Nodup && saneMembers members
  | _ => true

/-- Every element is sane. -/
def saneItems : List Json → Bool
  | [] => true
  | item::rest => sane item && saneItems rest

/-- Every member value is sane. -/
def saneMembers : List (String × Json) → Bool
  | [] => true
  | (_,value)::rest => sane value && saneMembers rest
end

/-- Elements of a sane array. -/
theorem saneItems_iff (items : List Json) : saneItems items=true ↔ ∀ item∈items, sane item=true := by
  induction items with
  | nil => simp [saneItems]
  | cons item rest ih => simp [saneItems,ih]

/-- Member values of a sane object. -/
theorem saneMembers_iff (members : List (String × Json)) :
    saneMembers members=true ↔ ∀ m∈members, sane m.2=true := by
  induction members with
  | nil => simp [saneMembers]
  | cons m rest ih =>
    obtain ⟨key,value⟩ := m
    simp [saneMembers,ih]

/-- A sane object. -/
theorem sane_object {members : List (String × Json)} :
    sane (.object members)=true ↔ (members.map Prod.fst).Nodup ∧ ∀ m∈members, sane m.2=true := by
  rw [sane,Bool.and_eq_true,decide_eq_true_eq,saneMembers_iff]

/-- A sane array. -/
theorem sane_array {items : List Json} : sane (.array items)=true ↔ ∀ item∈items, sane item=true := by
  rw [sane,saneItems_iff]

mutual
/-- A sane value equals itself. -/
theorem equal_self : ∀ value : Json, sane value=true → value.equal value=true
  | .null,_ => by rw [Json.equal]
  | .boolean _,_ => by rw [Json.equal]; exact beq_self_eq_true _
  | .integer _,_ => by rw [Json.equal]; exact beq_self_eq_true _
  | .float x,h => by
    rw [sane] at h
    rw [Json.equal]
    exact h
  | .string _,_ => by rw [Json.equal]; exact beq_self_eq_true _
  | .array items,h => by
    rw [sane] at h
    rw [Json.equal]
    exact equalItems_self items h
  | .object members,h => by
    rw [sane,Bool.and_eq_true,decide_eq_true_eq] at h
    rw [Json.equal,Bool.and_eq_true]
    exact ⟨beq_self_eq_true _,equalMembers_self members members
      (fun m member => lookup_of_mem h.1 member) h.2⟩

/-- Sane elements equal themselves. -/
theorem equalItems_self : ∀ items : List Json, saneItems items=true → Json.equalItems items items=true
  | [],_ => by rw [Json.equalItems]
  | item::rest,h => by
    rw [saneItems,Bool.and_eq_true] at h
    rw [Json.equalItems,Bool.and_eq_true]
    exact ⟨equal_self item h.1,equalItems_self rest h.2⟩

/-- Sane members equal those found under their keys. -/
theorem equalMembers_self : ∀ (members other : List (String × Json)),
    (∀ m∈members, other.lookup m.1=some m.2) → saneMembers members=true → Json.equalMembers members other=true
  | [],_,_,_ => by rw [Json.equalMembers]
  | (key,value)::rest,other,found,h => by
    rw [saneMembers,Bool.and_eq_true] at h
    have here : other.lookup key=some value := found (key,value) (List.mem_cons_self ..)
    rw [Json.equalMembers,here,Bool.and_eq_true]
    exact ⟨equal_self value h.1,equalMembers_self rest other (fun m member => found m (List.mem_cons_of_mem _ member)) h.2⟩
end

/-- Keys that an object shares with one of the same size are all its keys. -/
theorem keys_shared {a b : List (String × Json)} (apart : (a.map Prod.fst).Nodup) (size : a.length=b.length)
    (shared : ∀ m∈a, m.1∈b.map Prod.fst) : ∀ m∈b, m.1∈a.map Prod.fst := by
  have inside : a.map Prod.fst ⊆ b.map Prod.fst := by
    intro key member
    obtain ⟨m,here,shape⟩ := List.mem_map.mp member
    exact shape ▸ shared m here
  have small : (b.map Prod.fst).length ≤ (a.map Prod.fst).length := by
    simp only [List.length_map,size]
    exact le_refl _
  have perm := (List.subperm_of_subset apart inside).perm_of_length_le small
  intro m member
  exact perm.mem_iff.mpr (List.mem_map.mpr ⟨m,member,rfl⟩)

/-- Members that an object shares are found in the other. -/
theorem equalMembers_iff (a b : List (String × Json)) : Json.equalMembers a b=true ↔
    ∀ m∈a, ∃ value, b.lookup m.1=some value ∧ m.2.equal value=true := by
  induction a with
  | nil => simp [Json.equalMembers]
  | cons m rest ih =>
    obtain ⟨key,item⟩ := m
    rw [Json.equalMembers,Bool.and_eq_true,ih,List.forall_mem_cons]
    cases found : b.lookup key with
    | none | some _ => simp [found]

mutual
/-- Equality of sane values is symmetric. -/
theorem equal_symm : ∀ a b : Json, sane a=true → sane b=true → a.equal b=true → b.equal a=true
  | .null,b,_,_,h => by cases b <;> simp_all [Json.equal]
  | .boolean _,b,_,_,h => by cases b <;> simp_all [Json.equal]
  | .string _,b,_,_,h => by cases b <;> simp_all [Json.equal]
  | .integer x,b,_,_,h => by
    cases b with
    | integer y =>
      simp only [Json.equal] at h ⊢
      exact beq_iff_eq.mpr (beq_iff_eq.mp h).symm
    | float y =>
      simp only [Json.equal] at h ⊢
      exact beq_symm h
    | _ => simp [Json.equal] at h
  | .float x,b,_,_,h => by
    cases b with
    | integer _ | float _ =>
      simp only [Json.equal] at h ⊢
      exact beq_symm h
    | _ => simp [Json.equal] at h
  | .array items,b,ha,hb,h => by
    cases b with
    | array others =>
      rw [sane] at ha hb
      rw [Json.equal] at h ⊢
      exact equalItems_symm items others ha hb h
    | _ => simp [Json.equal] at h
  | .object members,b,ha,hb,h => by
    cases b with
    | object others =>
      rw [Json.equal,Bool.and_eq_true,beq_iff_eq] at h
      obtain ⟨aparta,saneA⟩ := sane_object.mp ha
      obtain ⟨apartb,saneB⟩ := sane_object.mp hb
      have found := (equalMembers_iff members others).mp h.2
      have swapped := equalMembers_symm members others (saneMembers_iff members |>.mpr saneA) apartb saneB found
      have back : ∀ m∈others, m.1∈members.map Prod.fst := by
        refine keys_shared aparta h.1 (fun m member => ?_)
        obtain ⟨value,here,-⟩ := found m member
        exact List.mem_map.mpr ⟨(m.1,value),mem_of_lookup here,rfl⟩
      rw [Json.equal,Bool.and_eq_true,beq_iff_eq,equalMembers_iff]
      refine ⟨h.1.symm,fun m member => ?_⟩
      obtain ⟨n,here,key⟩ := List.mem_map.mp (back m member)
      refine ⟨n.2,?_,swapped n here m member key⟩
      rw [← key]
      exact lookup_of_mem aparta here
    | _ => simp [Json.equal] at h

/-- Equality of sane elements is symmetric. -/
theorem equalItems_symm : ∀ a b : List Json, saneItems a=true → saneItems b=true → Json.equalItems a b=true →
    Json.equalItems b a=true
  | [],[],_,_,_ => by rw [Json.equalItems]
  | [],_::_,_,_,h => by simp [Json.equalItems] at h
  | _::_,[],_,_,h => by simp [Json.equalItems] at h
  | a::as,b::bs,ha,hb,h => by
    rw [saneItems,Bool.and_eq_true] at ha hb
    rw [Json.equalItems,Bool.and_eq_true] at h ⊢
    exact ⟨equal_symm a b ha.1 hb.1 h.1,equalItems_symm as bs ha.2 hb.2 h.2⟩

/-- Members with equal values have them the other way round. -/
theorem equalMembers_symm : ∀ a b : List (String × Json), saneMembers a=true → (b.map Prod.fst).Nodup →
    (∀ m∈b, sane m.2=true) → (∀ m∈a, ∃ value, b.lookup m.1=some value ∧ m.2.equal value=true) →
    ∀ m∈a, ∀ n∈b, m.1=n.1 → n.2.equal m.2=true
  | [],_,_,_,_,_ => nofun
  | (key,item)::rest,b,ha,apart,hb,found => by
    rw [saneMembers,Bool.and_eq_true] at ha
    intro m member n other same
    rcases List.mem_cons.mp member with here | there
    · obtain ⟨value,at_,equal⟩ := found (key,item) (List.mem_cons_self ..)
      rw [here] at same ⊢
      have value_ : n.2=value := by
        have there := lookup_of_mem apart other
        rw [← same] at there
        exact Option.some.inj (there.symm.trans at_)
      have value_sane := hb n other
      rw [value_] at value_sane ⊢
      exact equal_symm item value ha.1 value_sane equal
    · exact equalMembers_symm rest b ha.2 apart hb (fun m member => found m (List.mem_cons_of_mem _ member)) m there n
        other same
end

end Sane

section Validators

/-- What the validators rely on in the mathematics library. -/
structure ValueLaws (math : Math) : Prop where
  /-- A normalized quaternion has finite components. -/
  unit : ∀ rotation unit, (∀ x∈rotation, Bounded x) → normalise math rotation=.ok unit → ∀ x∈unit, x.isFinite=true
  /-- A registered geometry is written with unique keys and finite numbers. -/
  registered : ∀ value result, math.geometryRoundTrip value=.ok result → sane result=true

variable {spell : Float → String} {math : Math}

/-- Text values are sane. -/
theorem sane_string (text : String) : sane (.string text)=true := by
  simp [sane]

/-- A value that equals a text is sane. -/
theorem sane_isText {value : Json} {text : String} (h : isText value text=true) : sane value=true := by
  unfold isText at h
  cases value with
  | string found => exact sane_string found
  | _ => simp [Json.equal] at h

/-- Finite numbers are sane. -/
theorem sane_float {x : Float} (h : x.isFinite=true) : sane (.float x)=true := by
  rw [sane]
  exact finite_self h

/-- Accepted numbers are sane. -/
theorem sane_number {value : Json} {label : String} {lower upper x : Float}
    (h : number value label lower upper=.ok x) : sane (.float x)=true := sane_float (number_ok h).1

/-- Lists of finite numbers are sane. -/
theorem sane_floats {values : List Float} (h : ∀ x∈values, x.isFinite=true) : sane (floats values)=true := by
  refine sane_array.mpr (fun item member => ?_)
  obtain ⟨x,here,shape⟩ := List.mem_map.mp member
  rw [← shape]
  exact sane_float (h x here)

/-- Accepted vectors are sane. -/
theorem sane_vector {value : Json} {label : String} {count : ℕ} {values : List Float}
    (h : vector value label count=.ok values) : sane (floats values)=true :=
  sane_floats (fun x member => (vector_bounded h x member).1)

/-- Accepted lists of vectors are sane. -/
theorem sane_vectors {label : String} {items : List Json} {points : List (List Float)}
    (h : vectors label items=.ok points) : sane (.array (points.map floats))=true := by
  induction items generalizing points with
  | nil =>
    have empty : points=[] := (Except.ok.inj h).symm
    rw [empty]
    exact sane_array.mpr nofun
  | cons item rest ih =>
    unfold vectors at h
    simp only [except_bind_ok] at h
    obtain ⟨head,first,tail,others,h⟩ := h
    have shape : points=head::tail := (Except.ok.inj h).symm
    have later := sane_array.mp (ih others)
    rw [shape]
    refine sane_array.mpr (fun value member => ?_)
    rcases List.mem_cons.mp member with here | there
    · rw [here]
      exact sane_vector first
    · exact later value there

/-- Placements are sane. -/
theorem sane_pose (laws : ValueLaws math) {value placed : Json} (h : pose spell math value=.ok placed) :
    sane placed=true := by
  unfold pose at h
  simp only [except_bind_ok] at h
  obtain ⟨_,_,position,hposition,rotation,hrotation,unit,hunit,h⟩ := h
  have shape := (Except.ok.inj h).symm
  have finite := laws.unit rotation unit (vector_bounded hrotation) hunit
  rw [shape,sane_object]
  refine ⟨by simp,?_⟩
  simp only [List.forall_mem_cons]
  exact ⟨sane_vector hposition,sane_floats finite,nofun⟩

/-- Geometries are sane. -/
theorem sane_geometry (laws : ValueLaws math) {value shape : Json} (h : geometry spell math value=.ok shape) :
    sane shape=true := by
  unfold geometry at h
  split at h
  · split at h
    · next kind _ =>
      split at h
      · unfold boxGeometry at h
        simp only [except_bind_ok] at h
        obtain ⟨_,_,size,hsize,h⟩ := h
        split at h
        · cases h
        rw [← Except.ok.inj h,sane_object]
        refine ⟨by simp,?_⟩
        simp only [List.forall_mem_cons]
        exact ⟨sane_string _,sane_vector hsize,nofun⟩
      · split at h
        · unfold roundGeometry at h
          split at h
          · simp only [except_bind_ok] at h
            obtain ⟨_,_,radius,hradius,h⟩ := h
            rw [← Except.ok.inj h,sane_object]
            refine ⟨by simp,?_⟩
            simp only [List.forall_mem_cons]
            exact ⟨sane_string _,sane_number hradius,nofun⟩
          · simp only [except_bind_ok] at h
            obtain ⟨_,_,radius,hradius,height,hheight,h⟩ := h
            rw [← Except.ok.inj h,sane_object]
            refine ⟨by simp,?_⟩
            simp only [List.forall_mem_cons]
            exact ⟨sane_string _,sane_number hradius,sane_number hheight,nofun⟩
        · split at h
          · unfold ringGeometry at h
            simp only [except_bind_ok] at h
            obtain ⟨_,_,raw,hraw,radii,hradii,tube,htube,h⟩ := h
            have same := ringRadii_again hradii
            split at h
            · split at h
              · cases h
              rw [← Except.ok.inj h,sane_object]
              refine ⟨by simp,?_⟩
              simp only [List.forall_mem_cons]
              rw [same]
              exact ⟨sane_string _,sane_vector hraw,sane_number htube,nofun⟩
            · cases h
          · split at h
            · simp only [except_bind_ok] at h
              obtain ⟨_,_,h⟩ := h
              unfold convex at h
              split at h
              · split at h
                · cases h
                simp only [except_bind_ok] at h
                obtain ⟨vertices,hvertices,h⟩ := h
                split at h
                · next triangles _ =>
                  rw [← Except.ok.inj h,sane_object]
                  refine ⟨by simp,?_⟩
                  simp only [List.forall_mem_cons]
                  refine ⟨sane_string _,sane_vectors hvertices,?_,nofun⟩
                  refine sane_array.mpr (fun item member => ?_)
                  obtain ⟨n,-,integer⟩ := List.mem_map.mp member
                  rw [← integer]
                  simp [sane]
                · cases h
              · cases h
            · split at h
              · unfold registeredGeometry at h
                simp only [except_bind_ok] at h
                obtain ⟨_,_,h⟩ := h
                split at h
                · next result round =>
                  rw [← Except.ok.inj h]
                  exact laws.registered _ result round
                · cases h
              · cases h
    · cases h
  · cases h

/-- Motions are sane. -/
theorem sane_motion {value movement : Json} (h : motion spell math value=.ok movement) : sane movement=true := by
  unfold motion at h
  split at h
  · split at h
    · split at h
      · simp only [except_bind_ok] at h
        obtain ⟨_,_,h⟩ := h
        rw [← Except.ok.inj h,sane_object]
        refine ⟨by simp,?_⟩
        simp only [List.forall_mem_cons]
        exact ⟨sane_string _,nofun⟩
      · split at h
        · unfold twistMotion at h
          simp only [except_bind_ok] at h
          obtain ⟨_,_,linear,hlinear,angular,hangular,h⟩ := h
          rw [← Except.ok.inj h,sane_object]
          refine ⟨by simp,?_⟩
          simp only [List.forall_mem_cons]
          exact ⟨sane_string _,sane_vector hlinear,sane_vector hangular,nofun⟩
        · split at h
          · unfold pingPongMotion at h
            simp only [except_bind_ok] at h
            obtain ⟨_,_,a,ha,b,hb,h⟩ := h
            split at h
            · cases h
            simp only [except_bind_ok] at h
            obtain ⟨speed,hspeed,h⟩ := h
            rw [← Except.ok.inj h,sane_object]
            refine ⟨by simp,?_⟩
            simp only [List.forall_mem_cons]
            exact ⟨sane_string _,sane_vector ha,sane_vector hb,sane_number hspeed,nofun⟩
          · split at h
            · unfold circleMotion at h
              simp only [except_bind_ok] at h
              obtain ⟨_,_,center,hcenter,radius,hradius,speed,hspeed,phase,hphase,h⟩ := h
              rw [← Except.ok.inj h,sane_object]
              refine ⟨by simp,?_⟩
              simp only [List.forall_mem_cons]
              exact ⟨sane_string _,sane_vector hcenter,sane_number hradius,sane_number hspeed,sane_number hphase,nofun⟩
            · split at h
              · unfold waypointMotion at h
                simp only [except_bind_ok] at h
                obtain ⟨_,_,h⟩ := h
                split at h
                · split at h
                  · cases h
                  simp only [except_bind_ok] at h
                  obtain ⟨velocity,hvelocity,orientation,_,angular,hangular,repeats,_,sin,_,positions,hpositions,h⟩ := h
                  rw [← Except.ok.inj h,sane_object]
                  refine ⟨by simp,?_⟩
                  simp only [List.forall_mem_cons]
                  exact ⟨sane_string _,sane_number hvelocity,by simp [sane],sane_number hangular,by simp [sane],
                    by simp [sane],sane_vectors hpositions,nofun⟩
                · cases h
              · cases h
    · cases h
  · cases h

/-- The one colour is sane. -/
theorem sane_amber : sane amber=true := by
  decide +kernel

/-- Parts are sane. -/
theorem sane_partList (laws : ValueLaws math) {seen : List String} {items parts : List Json}
    (h : partList spell math seen items=.ok parts) : ∀ part∈parts, sane part=true := by
  induction items generalizing seen parts with
  | nil =>
    rw [← Except.ok.inj h]
    exact List.forall_mem_nil _
  | cons item rest ih =>
    unfold partList at h
    simp only [except_bind_ok] at h
    obtain ⟨_,_,pid,_,h⟩ := h
    split at h
    · cases h
    simp only [except_bind_ok] at h
    obtain ⟨_,_,placed,hplaced,shape,hshape,tail,htail,h⟩ := h
    rw [← Except.ok.inj h]
    refine List.forall_mem_cons.mpr ⟨?_,ih htail⟩
    rw [sane_object]
    refine ⟨by simp,?_⟩
    simp only [List.forall_mem_cons]
    exact ⟨sane_string _,sane_pose laws hplaced,sane_geometry laws hshape,sane_amber,List.forall_mem_nil _⟩

/-- Normalized parts are sane. -/
theorem sane_parts (laws : ValueLaws math) {value parts : Json} (h : normalizeParts spell math value=.ok parts) :
    sane parts=true := by
  unfold normalizeParts at h
  split at h
  · split at h
    · cases h
    simp only [except_bind_ok] at h
    obtain ⟨normalized,hparts,h⟩ := h
    rw [← Except.ok.inj h]
    exact sane_array.mpr (sane_partList laws hparts)
  · cases h

/-- The shape member of an obstacle is sane and is none of its other members. -/
theorem sane_obstacleShape (laws : ValueLaws math) {value : Json} {shape : String × Json}
    (h : obstacleShape spell math value=.ok shape) : sane shape.2=true ∧ (shape.1="model" ∨ shape.1="parts") := by
  unfold obstacleShape at h
  split at h
  · simp only [except_bind_ok] at h
    obtain ⟨name,_,h⟩ := h
    rw [← Except.ok.inj h]
    exact ⟨sane_string _,Or.inl rfl⟩
  · simp only [except_bind_ok] at h
    obtain ⟨parts,hparts,h⟩ := h
    rw [← Except.ok.inj h]
    exact ⟨sane_parts laws hparts,Or.inr rfl⟩

/-- Obstacles are sane. -/
theorem sane_obstacle (laws : ValueLaws math) {value item : Json} (h : obstacle spell math value=.ok item) :
    sane item=true := by
  obtain ⟨id,name,initial,movement,shape,rfl,hinitial,hmovement,hshape⟩ := obstacle_members h
  obtain ⟨sound,key⟩ := sane_obstacleShape laws hshape
  rw [sane_object]
  refine ⟨?_,?_⟩
  · simp only [List.map_cons,List.map_nil]
    rcases key with model | parts
    · rw [model]
      decide
    · rw [parts]
      decide
  · simp only [List.forall_mem_cons]
    exact ⟨sane_string _,sane_string _,sane_pose laws hinitial,sound,sane_motion hmovement,nofun⟩

/-- Models are sane. -/
theorem sane_modelEntry (laws : ValueLaws math) {value entry : Json} (h : modelEntry spell math value=.ok entry) :
    sane entry=true := by
  unfold modelEntry at h
  simp only [except_bind_ok] at h
  obtain ⟨_,_,h⟩ := h
  split at h
  · cases h
  split at h
  · simp only [except_bind_ok] at h
    obtain ⟨reference,hreference,h⟩ := h
    rw [← Except.ok.inj h,sane_object]
    refine ⟨by simp,?_⟩
    simp only [List.forall_mem_cons]
    refine ⟨?_,List.forall_mem_nil _⟩
    unfold resourceRef at hreference
    simp only [except_bind_ok] at hreference
    obtain ⟨_,_,hreference⟩ := hreference
    split at hreference
    · cases hreference
    next known =>
    simp only [Bool.not_eq_true,Bool.not_eq_false',Bool.or_eq_true] at known
    split at hreference
    · split at hreference
      · cases hreference
      rw [← Except.ok.inj hreference,sane_object]
      refine ⟨by simp,?_⟩
      simp only [List.forall_mem_cons]
      refine ⟨?_,sane_string _,List.forall_mem_nil _⟩
      rcases known with (first | second) | third
      · exact sane_isText first
      · exact sane_isText second
      · exact sane_isText third
    · cases hreference
  · simp only [except_bind_ok] at h
    obtain ⟨parts,hparts,h⟩ := h
    rw [← Except.ok.inj h,sane_object]
    refine ⟨by simp,?_⟩
    simp only [List.forall_mem_cons]
    exact ⟨sane_parts laws hparts,List.forall_mem_nil _⟩

/-- Model tables keep their keys and are sane. -/
theorem sane_modelMembers (laws : ValueLaws math) {members defined : List (String × Json)}
    (h : modelMembers spell math members=.ok defined) :
    defined.map Prod.fst=members.map Prod.fst ∧ ∀ m∈defined, sane m.2=true := by
  induction members generalizing defined with
  | nil =>
    rw [← Except.ok.inj h]
    exact ⟨rfl,nofun⟩
  | cons m rest ih =>
    obtain ⟨key,value⟩ := m
    unfold modelMembers at h
    simp only [except_bind_ok] at h
    obtain ⟨name,hname,entry,hentry,tail,htail,h⟩ := h
    obtain ⟨keys,values⟩ := ih htail
    have same : name=key := by
      unfold identifier at hname
      simp only at hname
      split at hname
      · exact (Except.ok.inj hname).symm
      · cases hname
    rw [← Except.ok.inj h]
    refine ⟨?_,List.forall_mem_cons.mpr ⟨sane_modelEntry laws hentry,values⟩⟩
    rw [List.map_cons,List.map_cons,keys,same]

/-- Grounds are sane. -/
theorem sane_ground (laws : ValueLaws math) {value owned : Json} (h : SceneDocument.ground spell math value=.ok owned) :
    sane owned=true := by
  unfold SceneDocument.ground at h
  split at h
  · cases h
  next mode _ =>
  split at h
  · next plane =>
    simp only [except_bind_ok] at h
    obtain ⟨_,_,z,hz,h⟩ := h
    rw [← Except.ok.inj h,sane_object]
    refine ⟨by simp,?_⟩
    simp only [List.forall_mem_cons]
    exact ⟨sane_isText plane,sane_number hz,nofun⟩
  · split at h
    · next none =>
      simp only [except_bind_ok] at h
      obtain ⟨_,_,h⟩ := h
      rw [← Except.ok.inj h,sane_object]
      refine ⟨by simp,?_⟩
      simp only [List.forall_mem_cons]
      exact ⟨sane_isText none,nofun⟩
    · split at h
      · next model =>
        simp only [except_bind_ok] at h
        obtain ⟨_,_,name,_,placed,hplaced,h⟩ := h
        rw [← Except.ok.inj h,sane_object]
        refine ⟨by simp,?_⟩
        simp only [List.forall_mem_cons]
        exact ⟨sane_isText model,sane_string _,sane_pose laws hplaced,nofun⟩
      · cases h

/-- Documents of values with unique keys are sane. -/
theorem sane_document (laws : ValueLaws math) {value result : Json} (hu : uniqueKeys value=true)
    (h : SceneDocument.document spell math value=.ok result) : sane result=true := by
  unfold SceneDocument.document at h
  rw [except_bind_ok] at h
  obtain ⟨_,_,h⟩ := h
  split at h
  · cases h
  simp only [except_bind_ok] at h
  obtain ⟨id,hid,frame,hframe,h⟩ := h
  split at h
  · split at h
    · cases h
    simp only [except_bind_ok] at h
    obtain ⟨obstacles,hobstacles,_,_,modelPart,hmodels,h⟩ := h
    split at h
    · cases h
    rw [except_bind_ok] at h
    obtain ⟨groundPart,hground,h⟩ := h
    have obstaclesSane : ∀ item∈obstacles, sane item=true := by
      intro item member
      obtain ⟨source,built⟩ := obstacleList_canonical hobstacles item member
      exact sane_obstacle laws built
    have modelsSane : modelPart=[] ∨ ∃ defined, modelPart=[("models",defined)] ∧ sane defined=true := by
      unfold modelMember at hmodels
      split at hmodels
      · exact Or.inl (Except.ok.inj hmodels).symm
      · next raw found =>
        simp only [except_bind_ok] at hmodels
        obtain ⟨defined,hdefined,hmodels⟩ := hmodels
        refine Or.inr ⟨defined,(Except.ok.inj hmodels).symm,?_⟩
        have unique : uniqueKeys raw=true := by
          cases value with
          | object members =>
            rw [uniqueKeys,Bool.and_eq_true] at hu
            exact uniqueMembers_lookup hu.2 found
          | _ => cases found
        unfold SceneDocument.models at hdefined
        split at hdefined
        · simp only [except_bind_ok] at hdefined
          obtain ⟨entries,hentries,hdefined⟩ := hdefined
          obtain ⟨keys,values⟩ := sane_modelMembers laws hentries
          rw [uniqueKeys,Bool.and_eq_true,decide_eq_true_eq] at unique
          rw [← Except.ok.inj hdefined,sane_object,keys]
          exact ⟨unique.1,values⟩
        · cases hdefined
    have groundSane : groundPart=[] ∨ ∃ owned, groundPart=[("ground",owned)] ∧ sane owned=true := by
      obtain ⟨owned,shape,built⟩ := groundMember_canonical hground
      cases owned with
      | none => exact Or.inl shape
      | some owned =>
        obtain ⟨⟨source,made⟩,-⟩ := built owned rfl
        exact Or.inr ⟨owned,shape,sane_ground laws made⟩
    have array : sane (.array obstacles)=true := sane_array.mpr obstaclesSane
    rw [← Except.ok.inj h,sane_object]
    rcases modelsSane with empty | ⟨defined,shape,models⟩
    · rcases groundSane with bare | ⟨owned,made,ground⟩
      · rw [empty,bare]
        refine ⟨by simp,?_⟩
        simp only [List.append_nil,List.forall_mem_cons]
        exact ⟨sane_string _,sane_string _,sane_string _,array,nofun⟩
      · rw [empty,made]
        refine ⟨by simp,?_⟩
        simp only [List.nil_append,List.forall_mem_cons]
        exact ⟨sane_string _,sane_string _,sane_string _,array,ground,nofun⟩
    · rcases groundSane with bare | ⟨owned,made,ground⟩
      · rw [shape,bare]
        refine ⟨by simp,?_⟩
        simp only [List.append_nil,List.forall_mem_cons]
        exact ⟨sane_string _,sane_string _,sane_string _,array,models,nofun⟩
      · rw [shape,made]
        refine ⟨by simp,?_⟩
        simp only [List.cons_append,List.nil_append,List.forall_mem_cons]
        exact ⟨sane_string _,sane_string _,sane_string _,array,models,ground,nofun⟩
  · cases h

end Validators

end Ros1Adapter.SceneValues

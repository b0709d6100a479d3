import Ros1Adapter.ActionRules
import Ros1Adapter.SceneDocument

/-!
# Canonical documents are accepted again

Every validator rebuilds its value, and what it builds passes the same
validator. Numbers, texts and motions come back unchanged. Orientations,
convex meshes and registered geometry go through arithmetic or through code
outside this repository; what is known of these is a parameter, with a flag
that says whether they come back unchanged too.
-/

namespace Ros1Adapter.SceneDocumentNormal

open SceneJson SceneJsonText SceneDocument ActionRules

section Members

/-- The first member is found under its key. -/
@[simp] theorem member_here (key : String) (item : Json) (rest : List (String × Json)) :
    (Json.object ((key,item)::rest)).member key=some item := by
  simp [Json.member]

/-- Members under other keys are passed over. -/
@[simp] theorem member_next {key other : String} (h : key≠other) (item : Json)
    (rest : List (String × Json)) :
    (Json.object ((other,item)::rest)).member key=(Json.object rest).member key := by
  have hb : (key==other)=false := by simpa using h
  simp [Json.member,List.lookup_cons,hb]

/-- An empty object has no members. -/
@[simp] theorem member_empty (key : String) : (Json.object []).member key=none := rfl

/-- A sequence that starts with a result continues with it. -/
@[simp] theorem ok_bind {α β : Type} (a : α) (f : α → Except Error β) :
    (Except.ok a >>= f)=f a := rfl

/-- A pure value is a result. -/
@[simp] theorem pure_ok {α : Type} (a : α) : (pure a : Except Error α)=.ok a := rfl

end Members

section Scalars

variable (spell : Float → String)

/-- Allowed keys only, and all required ones. -/
def keysFit (keys allowed required : List String) : Bool :=
  keys.all (fun key => allowed.contains key) && required.all (fun key => keys.contains key)

/-- A member list whose keys fit passes the field check. -/
theorem fields_of_keys {members : List (String × Json)} {allowed required : List String}
    (h : keysFit (members.map Prod.fst) allowed required=true) :
    fields spell (.object members) allowed required=.ok () := by
  unfold keysFit at h
  simp only [Bool.and_eq_true,List.all_eq_true,List.contains_iff_mem] at h
  rw [fields_ok_iff]
  refine ⟨⟨members,rfl,fun m hm => h.1 m.1 (List.mem_map_of_mem hm)⟩,?_⟩
  intro key hk
  unfold Json.contains Json.member
  dsimp only
  rw [List.lookup_isSome_iff]
  obtain ⟨m,hm,rfl⟩ := List.mem_map.mp (h.2 key hk)
  exact ⟨m,hm,by simp⟩

/-- An accepted number is finite and within its bounds. -/
theorem number_ok {value : Json} {label : String} {lower upper x : Float}
    (h : number value label lower upper=.ok x) : x.isFinite=true ∧ lower≤x ∧ x≤upper := by
  unfold number at h
  split at h
  · cases h
  · rename_i result _
    split at h
    · cases h
    · rename_i hf
      split at h
      · cases h
      · rename_i hb
        cases h
        simp only [Bool.not_eq_true,Bool.not_eq_false',Bool.and_eq_true,decide_eq_true_eq] at hf hb
        exact ⟨hf,hb.1,hb.2⟩

/-- A finite double within the bounds is accepted unchanged. -/
theorem number_float {label : String} {lower upper x : Float} (hf : x.isFinite=true) (hl : lower≤x)
    (hu : x≤upper) : number (.float x) label lower upper=.ok x := by
  unfold number
  simp [Json.double?,hf,hl,hu]

/-- An accepted number is accepted again. -/
theorem number_again {value : Json} {label : String} {lower upper x : Float}
    (h : number value label lower upper=.ok x) : number (.float x) label lower upper=.ok x := by
  obtain ⟨hf,hl,hu⟩ := number_ok h
  exact number_float hf hl hu

/-- Accepted numbers are accepted again. -/
theorem numbers_again {label : String} {items : List Json} {values : List Float}
    (h : numbers label items=.ok values) :
    values.length=items.length ∧ numbers label (values.map .float)=.ok values := by
  induction items generalizing values with
  | nil =>
    cases h
    exact ⟨rfl,rfl⟩
  | cons item rest ih =>
    unfold numbers at h
    rw [except_bind_ok] at h
    obtain ⟨head,hhead,h⟩ := h
    rw [except_bind_ok] at h
    obtain ⟨tail,htail,h⟩ := h
    cases h
    obtain ⟨hlength,hagain⟩ := ih htail
    refine ⟨by rw [List.length_cons,List.length_cons,hlength],?_⟩
    have hfirst : numberDefault (.float head) label=.ok head := number_again hhead
    rw [List.map_cons,numbers,hfirst,hagain]
    rfl

/-- An accepted vector is accepted again. -/
theorem vector_again {value : Json} {label : String} {count : ℕ} {values : List Float}
    (h : vector value label count=.ok values) :
    values.length=count ∧ vector (floats values) label count=.ok values := by
  unfold vector at h
  split at h
  · rename_i items
    split at h
    · rename_i hlength
      obtain ⟨hl,hagain⟩ := numbers_again h
      refine ⟨hl.trans hlength,?_⟩
      unfold vector floats
      simp only [List.length_map]
      rw [if_pos (hl.trans hlength)]
      exact hagain
    · cases h
  · cases h

/-- Accepted vectors are accepted again. -/
theorem vectors_again {label : String} {items : List Json} {points : List (List Float)}
    (h : vectors label items=.ok points) :
    points.length=items.length ∧ vectors label (points.map floats)=.ok points := by
  induction items generalizing points with
  | nil =>
    cases h
    exact ⟨rfl,rfl⟩
  | cons item rest ih =>
    unfold vectors at h
    rw [except_bind_ok] at h
    obtain ⟨head,hhead,h⟩ := h
    rw [except_bind_ok] at h
    obtain ⟨tail,htail,h⟩ := h
    cases h
    obtain ⟨hlength,hagain⟩ := ih htail
    refine ⟨by rw [List.length_cons,List.length_cons,hlength],?_⟩
    rw [List.map_cons,vectors,(vector_again hhead).2,hagain]
    rfl

/-- An accepted identifier is a text that every label accepts. -/
theorem identifier_again {value : Json} {label other text : String}
    (h : identifier value label=.ok text) : identifier (.string text) other=.ok text := by
  unfold identifier at h
  split at h
  · split at h
    · rename_i hp
      cases h
      unfold identifier
      exact if_pos hp
    · cases h
  · cases h

end Scalars

section Motions

variable {spell : Float → String} {math : Math}

/-- A constant twist is accepted unchanged. -/
theorem twistMotion_again {value result : Json} (h : twistMotion spell value=.ok result) :
    motion spell math result=.ok result := by
  unfold twistMotion at h
  simp only [except_bind_ok] at h
  obtain ⟨_,_,linear,hlinear,angular,hangular,h⟩ := h
  cases h
  have hf : fields spell (.object [("type",.string "constant_twist"),("linear",floats linear),
      ("angular",floats angular)]) ["type","linear","angular"] []=.ok () := fields_of_keys spell rfl
  simp [motion,twistMotion,hf,Json.valueOr,(vector_again hlinear).2,(vector_again hangular).2]

/-- A motion between two points is accepted unchanged. -/
theorem pingPongMotion_again {value result : Json} (h : pingPongMotion spell math value=.ok result) :
    motion spell math result=.ok result := by
  unfold pingPongMotion at h
  simp only [except_bind_ok] at h
  obtain ⟨_,_,a,ha,b,hb,h⟩ := h
  split at h
  · cases h
  rename_i hd
  rw [except_bind_ok] at h
  obtain ⟨speed,hspeed,h⟩ := h
  cases h
  have hf : fields spell (.object [("type",.string "ping_pong"),("point_a",floats a),
      ("point_b",floats b),("speed",.float speed)]) ["type","point_a","point_b","speed"]
      ["point_a","point_b","speed"]=.ok () := fields_of_keys spell rfl
  simp [motion,pingPongMotion,hf,Json.valueOr,(vector_again ha).2,(vector_again hb).2,hd,
    number_again hspeed]

/-- A motion on a circle is accepted unchanged. -/
theorem circleMotion_again {value result : Json} (h : circleMotion spell value=.ok result) :
    motion spell math result=.ok result := by
  unfold circleMotion at h
  simp only [except_bind_ok] at h
  obtain ⟨_,_,center,hcenter,radius,hradius,speed,hspeed,phase,hphase,h⟩ := h
  cases h
  have hf : fields spell (.object [("type",.string "circle"),("center",floats center),
      ("radius",.float radius),("angular_speed",.float speed),("phase",.float phase)])
      ["type","center","radius","angular_speed","phase"] ["center","radius","angular_speed"]=.ok () :=
    fields_of_keys spell rfl
  have hp : numberDefault (.float phase) "phase"=.ok phase := number_again hphase
  simp [motion,circleMotion,hf,Json.valueOr,(vector_again hcenter).2,number_again hradius,
    number_again hspeed,hp]

/-- A motion along waypoints is accepted unchanged. -/
theorem waypointMotion_again {value result : Json} (h : waypointMotion spell value=.ok result) :
    motion spell math result=.ok result := by
  unfold waypointMotion at h
  rw [except_bind_ok] at h
  obtain ⟨_,_,h⟩ := h
  split at h
  · rename_i points _
    split at h
    · cases h
    rename_i hcount
    simp only [except_bind_ok] at h
    obtain ⟨velocity,hvelocity,orientation,_,angular,hangular,repeats,_,sin,_,positions,hpositions,h⟩ := h
    cases h
    obtain ⟨hlength,hagain⟩ := vectors_again hpositions
    have hcount' : 2≤positions.length ∧ positions.length≤4096 := by omega
    have hmore : 1<positions.length := hcount'.1
    have hf : fields spell (.object [("type",.string "waypoints"),("velocity",.float velocity),
        ("orientation",.boolean orientation),("angular_velocity",.float angular),
        ("loop",.boolean repeats),("sin",.boolean sin),("waypoints",.array (positions.map floats))])
        ["type","velocity","orientation","angular_velocity","loop","sin","waypoints"]
        ["waypoints"]=.ok () := fields_of_keys spell rfl
    simp [motion,waypointMotion,hf,Json.valueOr,hcount',hmore,number_again hvelocity,flag,
      number_again hangular,hagain]
  · cases h

/-- Every canonical motion is accepted unchanged. -/
theorem motion_again {value result : Json} (h : motion spell math value=.ok result) :
    motion spell math result=.ok result := by
  unfold motion at h
  split at h
  · split at h
    · split at h
      · rw [except_bind_ok] at h
        obtain ⟨_,_,h⟩ := h
        cases h
        have hf : fields spell (.object [("type",.string "hold")]) ["type"] []=.ok () :=
          fields_of_keys spell rfl
        simp [motion,hf,Json.valueOr]
      split at h
      · exact twistMotion_again h
      split at h
      · exact pingPongMotion_again h
      split at h
      · exact circleMotion_again h
      split at h
      · exact waypointMotion_again h
      · cases h
    · cases h
  · cases h

end Motions

section Laws

/-- A double that every component of a vector may be. -/
def Bounded (x : Float) : Prop := x.isFinite=true ∧ (-1e6 : Float)≤x ∧ x≤1e6

/-- What the validators rely on in double arithmetic and in the mathematics
library. With `unchanged`, results that are converted again come back unchanged. -/
structure MathLaws (math : Math) (unchanged : Prop) : Prop where
  /-- A normalized quaternion has bounded components and does not vanish. -/
  unit : ∀ rotation unit, (∀ x∈rotation, Bounded x) → normalise math rotation=.ok unit →
    (∀ x∈unit, Bounded x) ∧ ∃ again, normalise math unit=.ok again ∧ (unchanged → again=unit)
  /-- The triangles of a valid convex mesh index its vertices and are valid themselves. -/
  mesh : ∀ vertices indices triangles, math.validateConvexMesh vertices indices=.ok triangles →
    triangles≠[] ∧ (∀ n∈triangles, 0≤n ∧ n<(vertices.length : Int)) ∧
      ∃ again, math.validateConvexMesh vertices triangles=.ok again ∧ (unchanged → again=triangles)
  /-- A registered geometry is written with its type, declared fields only and
  no triangles for a convex shape, and can be read again. -/
  registered : ∀ kind declared value result, math.geometryFields kind=some declared →
    value.member "type"=some (.string kind) → math.geometryRoundTrip value=.ok result →
    (∃ members, result=.object members ∧ ∀ m∈members, m.1∈"type"::declared) ∧
      result.member "type"=some (.string kind) ∧ (kind="convex" → hasTriangles result=false) ∧
      ∃ again, math.geometryRoundTrip result=.ok again ∧ (unchanged → again=result)

/-- A validator accepts a value again, unchanged if conversions are exact. -/
def Settles (unchanged : Prop) (validate : Json → Except Error Json) (value : Json) : Prop :=
  ∃ again, validate value=.ok again ∧ (unchanged → again=value)

variable {spell : Float → String} {math : Math} {unchanged : Prop}

/-- Bounded numbers form an accepted list. -/
theorem numbers_of_bounded (label : String) {values : List Float} (h : ∀ x∈values, Bounded x) :
    numbers label (values.map .float)=.ok values := by
  induction values with
  | nil => rfl
  | cons x rest ih =>
    obtain ⟨hf,hl,hu⟩ := h x (List.mem_cons_self ..)
    have hx : numberDefault (.float x) label=.ok x := number_float hf hl hu
    rw [List.map_cons,numbers,hx,ih (fun y hy => h y (List.mem_cons_of_mem _ hy))]
    rfl

/-- Accepted numbers are bounded. -/
theorem numbers_bounded {label : String} {items : List Json} {values : List Float}
    (h : numbers label items=.ok values) : ∀ x∈values, Bounded x := by
  induction items generalizing values with
  | nil =>
    cases h
    simp
  | cons item rest ih =>
    unfold numbers at h
    simp only [except_bind_ok] at h
    obtain ⟨head,hhead,tail,htail,h⟩ := h
    cases h
    intro x hx
    rcases List.mem_cons.mp hx with rfl | hx
    · exact number_ok hhead
    · exact ih htail x hx

/-- Components of an accepted vector are bounded. -/
theorem vector_bounded {value : Json} {label : String} {count : ℕ} {values : List Float}
    (h : vector value label count=.ok values) : ∀ x∈values, Bounded x := by
  unfold vector at h
  split at h
  · split at h
    · exact numbers_bounded h
    · cases h
  · cases h

/-- Normalization keeps the number of components. -/
theorem normalise_length {rotation unit : List Float} (h : normalise math rotation=.ok unit) :
    unit.length=rotation.length := by
  unfold normalise at h
  dsimp only at h
  split at h
  · cases h
  · cases h
    exact List.length_map ..

/-- A canonical placement is accepted again at the same position. -/
theorem pose_again (laws : MathLaws math unchanged) {value placed : Json}
    (h : pose spell math value=.ok placed) :
    ∃ again, pose spell math placed=.ok again ∧ (unchanged → again=placed) ∧
      again.member "position"=placed.member "position" := by
  unfold pose at h
  simp only [except_bind_ok] at h
  obtain ⟨_,_,position,hposition,rotation,hrotation,unit,hunit,h⟩ := h
  cases h
  obtain ⟨hbounded,next,hnext,hexact⟩ := laws.unit rotation unit (vector_bounded hrotation) hunit
  have hlength : unit.length=4 := (normalise_length hunit).trans (vector_again hrotation).1
  have hvector : vector (floats unit) "orientation" 4=.ok unit := by
    unfold vector floats
    simp only [List.length_map]
    rw [if_pos hlength]
    exact numbers_of_bounded "orientation" hbounded
  have hf : fields spell (.object [("position",floats position),("orientation",floats unit)])
      ["position","orientation"] []=.ok () := fields_of_keys spell rfl
  refine ⟨.object [("position",floats position),("orientation",floats next)],?_,?_,?_⟩
  · simp [pose,hf,Json.valueOr,(vector_again hposition).2,hvector,hnext]
  · intro he
    rw [hexact he]
  · simp

/-- A box is accepted unchanged. -/
theorem boxGeometry_again {value shape : Json} (h : boxGeometry spell value=.ok shape) :
    geometry spell math shape=.ok shape := by
  unfold boxGeometry at h
  simp only [except_bind_ok] at h
  obtain ⟨_,_,size,hsize,h⟩ := h
  split at h
  · cases h
  rename_i hpositive
  cases h
  have hf : fields spell (.object [("type",.string "box"),("size",floats size)]) ["type","size"]
      ["size"]=.ok () := fields_of_keys spell rfl
  simp only [geometry,Json.valueOr,member_here,Option.getD_some,if_true]
  simp only [boxGeometry,hf,Json.valueOr,ok_bind,ne_eq,not_false_eq_true,String.reduceEq,
    member_next,member_here,Option.getD_some,(vector_again hsize).2,if_neg hpositive,pure_ok]

/-- Geometry of a round type is checked as such. -/
theorem geometry_round {kind : String} (hkind : kind="sphere" ∨ kind="cylinder" ∨ kind="capsule")
    (members : List (String × Json)) :
    geometry spell math (.object (("type",.string kind)::members))=
      roundGeometry spell kind (.object (("type",.string kind)::members)) := by
  have hbox : kind≠"box" := by
    rcases hkind with rfl | rfl | rfl <;> decide
  unfold geometry
  simp only [Json.valueOr,member_here,Option.getD_some]
  rw [if_neg hbox,if_pos hkind]

/-- A sphere, a cylinder or a capsule is accepted unchanged. -/
theorem roundGeometry_again {kind : String} (hkind : kind="sphere" ∨ kind="cylinder" ∨ kind="capsule")
    {value shape : Json} (h : roundGeometry spell kind value=.ok shape) :
    geometry spell math shape=.ok shape := by
  unfold roundGeometry at h
  split at h
  · rename_i hsphere
    simp only [except_bind_ok] at h
    obtain ⟨_,_,radius,hradius,h⟩ := h
    cases h
    have hf : fields spell (.object [("type",.string kind),("radius",.float radius)])
        ["type","radius"] ["type","radius"]=.ok () := fields_of_keys spell rfl
    rw [geometry_round hkind]
    unfold roundGeometry
    rw [if_pos hsphere,hf]
    simp [Json.valueOr,number_again hradius]
  · rename_i hsphere
    simp only [except_bind_ok] at h
    obtain ⟨_,_,radius,hradius,height,hheight,h⟩ := h
    cases h
    have hf : fields spell (.object [("type",.string kind),("radius",.float radius),
        ("height",.float height)]) ["type","radius","height"] ["type","radius","height"]=.ok () :=
      fields_of_keys spell rfl
    rw [geometry_round hkind]
    unfold roundGeometry
    rw [if_neg hsphere,hf]
    simp [Json.valueOr,number_again hradius,number_again hheight]

/-- Accepted ring radii are accepted again. -/
theorem ringRadii_again {raw radii : List Float} (h : ringRadii raw=.ok radii) : radii=raw := by
  induction raw generalizing radii with
  | nil =>
    cases h
    rfl
  | cons radius rest ih =>
    unfold ringRadii at h
    simp only [except_bind_ok] at h
    obtain ⟨head,hhead,tail,htail,h⟩ := h
    cases h
    rw [ih htail]
    unfold number at hhead
    dsimp only [Json.double?] at hhead
    split at hhead
    · cases hhead
    · split at hhead
      · cases hhead
      · cases hhead
        rfl

/-- A ring is accepted unchanged. -/
theorem ringGeometry_again {value shape : Json} (h : ringGeometry spell value=.ok shape) :
    geometry spell math shape=.ok shape := by
  unfold ringGeometry at h
  simp only [except_bind_ok] at h
  obtain ⟨_,_,raw,hraw,radii,hradii,tube,htube,h⟩ := h
  obtain rfl := ringRadii_again hradii
  split at h
  · rename_i first second
    split at h
    · cases h
    rename_i hfits
    cases h
    have hf : fields spell (.object [("type",.string "ring"),("radii",floats [first,second]),
        ("tubeRadius",.float tube)]) ["type","radii","tubeRadius"] ["radii","tubeRadius"]=.ok () :=
      fields_of_keys spell rfl
    simp [geometry,Json.valueOr,ringGeometry,hf,(vector_again hraw).2,hradii,number_again htube,hfits]
  · cases h

/-- Indices within the vertex table stay. -/
theorem meshIndex_again {count : ℕ} {indices : List Int}
    (h : ∀ n∈indices, 0≤n ∧ n<(count : Int)) :
    (indices.map Json.integer).map (meshIndex count)=indices := by
  rw [List.map_map]
  refine (List.map_congr_left ?_).trans (List.map_id _)
  intro n hn
  obtain ⟨hl,hu⟩ := h n hn
  have hin : ¬(n<0 ∨ (count : Int)≤n) := by omega
  show (if n<0 ∨ (count : Int)≤n then -1 else n)=n
  rw [if_neg hin]

/-- A convex mesh is accepted again. -/
theorem convex_again (laws : MathLaws math unchanged) {value shape : Json}
    (h : convex math value=.ok shape) : Settles unchanged (geometry spell math) shape := by
  unfold convex at h
  split at h
  · rename_i raw _
    split at h
    · cases h
    rename_i hcount
    rw [except_bind_ok] at h
    obtain ⟨vertices,hvertices,h⟩ := h
    dsimp only at h
    split at h
    · rename_i triangles hmesh
      cases h
      obtain ⟨hlength,hagain⟩ := vectors_again hvertices
      obtain ⟨hnonempty,hindices,next,hnext,hexact⟩ := laws.mesh _ _ _ hmesh
      have hcount' : ¬(vertices.length<4 ∨ 4096<vertices.length) := by omega
      have hf : fields spell (.object [("type",.string "convex"),("vertices",.array (vertices.map floats)),
          ("triangles",.array (triangles.map .integer))]) ["type","vertices","triangles"]
          ["vertices","triangles"]=.ok () := fields_of_keys spell rfl
      have hstates : hasTriangles (.object [("type",.string "convex"),
          ("vertices",.array (vertices.map floats)),("triangles",.array (triangles.map .integer))])=true := by
        cases triangles with
        | nil => exact absurd rfl hnonempty
        | cons n rest => simp [hasTriangles]
      refine ⟨.object [("type",.string "convex"),("vertices",.array (vertices.map floats)),
        ("triangles",.array (next.map .integer))],?_,?_⟩
      · have hconvex : convex math (.object [("type",.string "convex"),
            ("vertices",.array (vertices.map floats)),("triangles",.array (triangles.map .integer))])=
            .ok (.object [("type",.string "convex"),("vertices",.array (vertices.map floats)),
              ("triangles",.array (next.map .integer))]) := by
          have htable : (Json.object [("type",.string "convex"),("vertices",.array (vertices.map floats)),
              ("triangles",.array (triangles.map .integer))]).valueOr "vertices" .null=
              .array (vertices.map floats) := by simp [Json.valueOr]
          have hlist : ((Json.object [("type",.string "convex"),("vertices",.array (vertices.map floats)),
              ("triangles",.array (triangles.map .integer))]).valueOr "triangles" .null).items=
              triangles.map .integer := by simp [Json.valueOr,Json.items]
          unfold convex
          rw [htable,hlist]
          dsimp only
          rw [List.length_map,if_neg hcount',hagain,ok_bind,meshIndex_again hindices,hnext]
        unfold geometry
        simp only [Json.valueOr,member_here,Option.getD_some]
        rw [if_neg (by decide),if_neg (by decide),if_neg (by decide),if_pos ⟨trivial,hstates⟩,hf]
        exact hconvex
      · intro he
        rw [hexact he]
    · cases h
  · cases h

/-- A geometry of a registered type is accepted again. -/
theorem registeredGeometry_again (laws : MathLaws math unchanged) {kind : String} {declared : List String}
    {value shape : Json} (hbox : kind≠"box")
    (hround : ¬(kind="sphere" ∨ kind="cylinder" ∨ kind="capsule")) (hring : kind≠"ring")
    (hdeclared : math.geometryFields kind=some declared)
    (htype : value.member "type"=some (.string kind))
    (h : registeredGeometry spell math declared value=.ok shape) :
    Settles unchanged (geometry spell math) shape := by
  unfold registeredGeometry at h
  rw [except_bind_ok] at h
  obtain ⟨_,_,h⟩ := h
  split at h
  · rename_i result hresult
    cases h
    obtain ⟨⟨members,rfl,hkeys⟩,hkind,hconvex,next,hnext,hexact⟩ :=
      laws.registered kind declared value _ hdeclared htype hresult
    have hf : fields spell (.object members) ("type"::declared) ["type"]=.ok () := by
      rw [fields_ok_iff]
      refine ⟨⟨members,rfl,hkeys⟩,?_⟩
      intro key hk
      rw [List.mem_singleton.mp hk]
      unfold Json.contains
      rw [hkind]
      rfl
    have hplain : ¬(kind="convex" ∧ hasTriangles (.object members)=true) := by
      rintro ⟨hc,ht⟩
      rw [hconvex hc] at ht
      cases ht
    refine ⟨next,?_,hexact⟩
    unfold geometry
    simp only [Json.valueOr,hkind,Option.getD_some]
    rw [if_neg hbox,if_neg hround,if_neg hring,if_neg hplain,hdeclared]
    dsimp only
    unfold registeredGeometry
    simp only [bind,Except.bind,hf,hnext]
  · cases h

/-- Every canonical geometry is accepted again. -/
theorem geometry_again (laws : MathLaws math unchanged) {value shape : Json}
    (h : geometry spell math value=.ok shape) : Settles unchanged (geometry spell math) shape := by
  unfold geometry at h
  split at h
  · rename_i members
    split at h
    · rename_i kind hkind
      split at h
      · exact ⟨shape,boxGeometry_again h,fun _ => rfl⟩
      rename_i hbox
      split at h
      · rename_i hround
        exact ⟨shape,roundGeometry_again hround h,fun _ => rfl⟩
      rename_i hround
      split at h
      · exact ⟨shape,ringGeometry_again h,fun _ => rfl⟩
      rename_i hring
      split at h
      · rw [except_bind_ok] at h
        obtain ⟨_,_,h⟩ := h
        exact convex_again laws h
      split at h
      · rename_i declared hdeclared
        have htype : (Json.object members).member "type"=some (.string kind) := by
          unfold Json.valueOr at hkind
          cases hm : (Json.object members).member "type" with
          | none => simp [hm] at hkind
          | some found =>
            rw [hm] at hkind
            rw [←hkind]
            rfl
        exact registeredGeometry_again laws hbox hround hring hdeclared htype h
      · cases h
    · cases h
  · cases h

/-- The colour of normalized parts passes its check. -/
theorem amber_checked (id placed shape : Json) :
    colorChecked (.object [("id",id),("pose",placed),("geometry",shape),("color",amber)])=.ok () := by
  have hvector : vector amber "color" 4=.ok [1.0,0.5,0.1,1.0] := rfl
  have hchannels : ¬[(1.0 : Float),0.5,0.1,1.0].any (fun channel => channel<0 || 1<channel)=true := by
    decide +kernel
  simp only [colorChecked,ne_eq,String.reduceEq,not_false_eq_true,member_next,member_here,hvector,ok_bind]
  rw [if_neg hchannels]

/-- Canonical parts are accepted again. -/
theorem partList_again (laws : MathLaws math unchanged) {seen : List String} {items parts : List Json}
    (h : partList spell math seen items=.ok parts) :
    parts.length=items.length ∧ ∃ again, partList spell math seen parts=.ok again ∧
      again.length=parts.length ∧ (unchanged → again=parts) := by
  induction items generalizing seen parts with
  | nil =>
    cases h
    exact ⟨rfl,[],rfl,rfl,fun _ => rfl⟩
  | cons part rest ih =>
    unfold partList at h
    simp only [except_bind_ok] at h
    obtain ⟨_,_,pid,hpid,h⟩ := h
    split at h
    · cases h
    rename_i hseen
    simp only [except_bind_ok] at h
    obtain ⟨_,_,placed,hplaced,shape,hshape,tail,htail,h⟩ := h
    cases h
    obtain ⟨placed',hplaced',heplaced,_⟩ := pose_again laws hplaced
    obtain ⟨shape',hshape',heshape⟩ := geometry_again laws hshape
    obtain ⟨hlength,tail',htail',hlength',hetail⟩ := ih htail
    have hf : fields spell (.object [("id",.string pid),("pose",placed),("geometry",shape),
        ("color",amber)]) ["id","pose","geometry","color"] ["id","geometry"]=.ok () :=
      fields_of_keys spell rfl
    have hid : identifier (.string pid) "Part ID"=.ok pid := identifier_again hpid
    refine ⟨by rw [List.length_cons,List.length_cons,hlength],
      .object [("id",.string pid),("pose",placed'),("geometry",shape'),("color",amber)]::tail',?_,?_,?_⟩
    · simp [partList,hf,Json.valueOr,hid,hseen,amber_checked,hplaced',hshape',htail']
    · rw [List.length_cons,List.length_cons,hlength']
    · intro he
      rw [heplaced he,heshape he,hetail he]

/-- A canonical part array is accepted again with the same number of parts. -/
theorem normalizeParts_again (laws : MathLaws math unchanged) {value parts : Json}
    (h : normalizeParts spell math value=.ok parts) :
    ∃ again, normalizeParts spell math parts=.ok again ∧ again.size=parts.size ∧
      (unchanged → again=parts) := by
  unfold normalizeParts at h
  split at h
  · rename_i items
    split at h
    · cases h
    rename_i hcount
    rw [except_bind_ok] at h
    obtain ⟨normalized,hnormalized,h⟩ := h
    cases h
    obtain ⟨hlength,again,hagain,hsize,hexact⟩ := partList_again laws hnormalized
    have hcount' : ¬(normalized.isEmpty=true ∨ 128<normalized.length) := by
      rw [List.isEmpty_iff_length_eq_zero] at hcount ⊢
      rw [hlength]
      exact hcount
    refine ⟨.array again,?_,hsize,fun he => by rw [hexact he]⟩
    unfold normalizeParts
    dsimp only
    rw [if_neg hcount',hagain]
    rfl
  · cases h

/-- A resource reference is accepted unchanged. -/
theorem resourceRef_again {value reference : Json} (h : resourceRef spell value=.ok reference) :
    resourceRef spell reference=.ok reference := by
  unfold resourceRef at h
  rw [except_bind_ok] at h
  obtain ⟨_,_,h⟩ := h
  dsimp only at h
  generalize value.valueOr "format" .null=format at h
  split at h
  · cases h
  rename_i hformat
  split at h
  · rename_i file _
    split at h
    · cases h
    rename_i hfile
    cases h
    have hf : fields spell (.object [("format",format),("file",.string file)])
        ["format","file"] ["format","file"]=.ok () := fields_of_keys spell rfl
    unfold resourceRef
    rw [hf,ok_bind]
    simp only [Json.valueOr,ne_eq,String.reduceEq,not_false_eq_true,member_next,member_here,
      Option.getD_some]
    rw [if_neg hformat,if_neg hfile]
    rfl
  · cases h

/-- A canonical model is accepted again. -/
theorem modelEntry_again (laws : MathLaws math unchanged) {value entry : Json}
    (h : modelEntry spell math value=.ok entry) : Settles unchanged (modelEntry spell math) entry := by
  unfold modelEntry at h
  rw [except_bind_ok] at h
  obtain ⟨_,_,h⟩ := h
  split at h
  · cases h
  split at h
  · rw [except_bind_ok] at h
    obtain ⟨reference,hreference,h⟩ := h
    cases h
    have hf : fields spell (.object [("resource",reference)]) ["parts","resource"] []=.ok () :=
      fields_of_keys spell rfl
    refine ⟨.object [("resource",reference)],?_,fun _ => rfl⟩
    simp [modelEntry,hf,Json.contains,resourceRef_again hreference]
  · rw [except_bind_ok] at h
    obtain ⟨parts,hparts,h⟩ := h
    cases h
    obtain ⟨again,hagain,_,hexact⟩ := normalizeParts_again laws hparts
    have hf : fields spell (.object [("parts",parts)]) ["parts","resource"] []=.ok () :=
      fields_of_keys spell rfl
    refine ⟨.object [("parts",again)],?_,fun he => by rw [hexact he]⟩
    simp [modelEntry,hf,Json.contains,Json.valueOr,hagain]

/-- Canonical models are accepted again under the same names. -/
theorem modelMembers_again (laws : MathLaws math unchanged) {members defined : List (String × Json)}
    (h : modelMembers spell math members=.ok defined) :
    ∃ again, modelMembers spell math defined=.ok again ∧
      again.map Prod.fst=defined.map Prod.fst ∧ (unchanged → again=defined) := by
  induction members generalizing defined with
  | nil =>
    cases h
    exact ⟨[],rfl,rfl,fun _ => rfl⟩
  | cons m rest ih =>
    obtain ⟨key,value⟩ := m
    unfold modelMembers at h
    simp only [except_bind_ok] at h
    obtain ⟨name,hname,entry,hentry,tail,htail,h⟩ := h
    cases h
    obtain ⟨entry',hentry',heentry⟩ := modelEntry_again laws hentry
    obtain ⟨tail',htail',hkeys,hetail⟩ := ih htail
    have hid : identifier (.string name) "Model ID"=.ok name := identifier_again hname
    refine ⟨(name,entry')::tail',?_,?_,?_⟩
    · rw [modelMembers,hid,ok_bind,hentry',ok_bind,htail']
      rfl
    · rw [List.map_cons,List.map_cons,hkeys]
    · intro he
      rw [heentry he,hetail he]

/-- What set checks and cross references read of an obstacle is the same. -/
structure SameReferences (a b : Json) : Prop where
  /-- Same identity. -/
  id : a.member "id"=b.member "id"
  /-- Same number of inline parts. -/
  parts : (a.member "parts").map Json.size=(b.member "parts").map Json.size
  /-- Same model. -/
  model : a.member "model"=b.member "model"

/-- The start check reads only the position of a placement. -/
theorem startChecked_position {initial other : Json} (movement : Json)
    (h : other.member "position"=initial.member "position") :
    startChecked math other movement=startChecked math initial movement := by
  unfold startChecked Json.valueOr
  rw [h]

/-- A canonical obstacle shape is one of two members. -/
theorem obstacleShape_again (laws : MathLaws math unchanged) {value : Json} {shape : String × Json}
    (h : obstacleShape spell math value=.ok shape) :
    (∃ name, shape=("model",.string name) ∧ identifier (.string name) "Model ID"=.ok name) ∨
      (∃ parts again, shape=("parts",parts) ∧ normalizeParts spell math parts=.ok again ∧
        again.size=parts.size ∧ (unchanged → again=parts)) := by
  unfold obstacleShape at h
  split at h
  · rw [except_bind_ok] at h
    obtain ⟨name,hname,h⟩ := h
    cases h
    exact Or.inl ⟨name,rfl,identifier_again hname⟩
  · rw [except_bind_ok] at h
    obtain ⟨parts,hparts,h⟩ := h
    cases h
    obtain ⟨again,hagain,hsize,hexact⟩ := normalizeParts_again laws hparts
    exact Or.inr ⟨parts,again,rfl,hagain,hsize,hexact⟩

/-- A name that was accepted is accepted again. -/
theorem nameChecked_again {value : Json} {text : String} (h : nameChecked value=.ok text) :
    nameChecked (.string text)=.ok text := by
  unfold nameChecked at h
  split at h
  · split at h
    · cases h
    rename_i hname
    cases h
    unfold nameChecked
    exact if_neg hname
  · cases h

/-- A canonical obstacle is accepted again with the same references. -/
theorem obstacle_again (laws : MathLaws math unchanged) {value item : Json}
    (h : obstacle spell math value=.ok item) :
    ∃ again, obstacle spell math item=.ok again ∧ SameReferences again item ∧
      (unchanged → again=item) := by
  unfold obstacle at h
  simp only [except_bind_ok] at h
  obtain ⟨_,_,oid,hoid,h⟩ := h
  split at h
  · cases h
  rename_i hground
  rw [except_bind_ok] at h
  obtain ⟨name,hname,h⟩ := h
  split at h
  · cases h
  simp only [except_bind_ok] at h
  obtain ⟨initial,hinitial,movement,hmovement,_,hstart,shape,hshape,h⟩ := h
  cases h
  obtain ⟨initial',hinitial',heinitial,hposition⟩ := pose_again laws hinitial
  have hstart' : startChecked math initial' movement=.ok () :=
    (startChecked_position movement hposition).trans hstart
  have hid : identifier (.string oid) "Obstacle ID"=.ok oid := identifier_again hoid
  rcases obstacleShape_again laws hshape with ⟨model,rfl,hmodel⟩ | ⟨parts,again,rfl,hagain,hsize,hexact⟩
  · have hf : fields spell (.object [("id",.string oid),("name",.string name),("pose",initial),
        ("model",.string model),("motion",movement)]) ["id","name","pose","parts","motion","model"]
        ["id"]=.ok () := fields_of_keys spell rfl
    refine ⟨.object [("id",.string oid),("name",.string name),("pose",initial'),
      ("model",.string model),("motion",movement)],?_,⟨?_,?_,?_⟩,?_⟩
    · simp [obstacle,hf,Json.valueOr,Json.contains,hid,hground,nameChecked_again hname,hinitial',
        motion_again hmovement,hstart',obstacleShape,hmodel]
    · simp
    · simp
    · simp
    · intro he
      rw [heinitial he]
  · have hf : fields spell (.object [("id",.string oid),("name",.string name),("pose",initial),
        ("parts",parts),("motion",movement)]) ["id","name","pose","parts","motion","model"]
        ["id"]=.ok () := fields_of_keys spell rfl
    refine ⟨.object [("id",.string oid),("name",.string name),("pose",initial'),
      ("parts",again),("motion",movement)],?_,⟨?_,?_,?_⟩,?_⟩
    · simp [obstacle,hf,Json.valueOr,Json.contains,hid,hground,nameChecked_again hname,hinitial',
        motion_again hmovement,hstart',obstacleShape,hagain]
    · simp
    · simp [hsize]
    · simp
    · intro he
      rw [heinitial he,hexact he]

/-- A canonical ground is accepted again with the same mode and model. -/
theorem ground_again (laws : MathLaws math unchanged) {value owned : Json}
    (h : ground spell math value=.ok owned) :
    ∃ again, ground spell math owned=.ok again ∧ again.member "mode"=owned.member "mode" ∧
      again.member "model"=owned.member "model" ∧ (unchanged → again=owned) := by
  unfold ground at h
  split at h
  · cases h
  rename_i mode _
  split at h
  · rename_i hplane
    simp only [except_bind_ok] at h
    obtain ⟨_,_,z,hz,h⟩ := h
    cases h
    have hf : fields spell (.object [("mode",mode),("z",.float z)]) ["mode","z"] ["mode"]=.ok () :=
      fields_of_keys spell rfl
    have hz' : numberDefault (.float z) "ground z"=.ok z := number_again hz
    refine ⟨.object [("mode",mode),("z",.float z)],?_,rfl,rfl,fun _ => rfl⟩
    simp [ground,hplane,hf,Json.valueOr,hz']
  rename_i hplane
  split at h
  · rename_i hnone
    rw [except_bind_ok] at h
    obtain ⟨_,_,h⟩ := h
    cases h
    have hf : fields spell (.object [("mode",mode)]) ["mode"] ["mode"]=.ok () := fields_of_keys spell rfl
    refine ⟨.object [("mode",mode)],?_,rfl,rfl,fun _ => rfl⟩
    simp [ground,hplane,hnone,hf]
  rename_i hnone
  split at h
  · rename_i hmodel
    simp only [except_bind_ok] at h
    obtain ⟨_,_,name,hname,placed,hplaced,h⟩ := h
    cases h
    obtain ⟨placed',hplaced',heplaced,_⟩ := pose_again laws hplaced
    have hf : fields spell (.object [("mode",mode),("model",.string name),("pose",placed)])
        ["mode","model","pose"] ["mode","model","pose"]=.ok () := fields_of_keys spell rfl
    have hid : identifier (.string name) "Model ID"=.ok name := identifier_again hname
    refine ⟨.object [("mode",mode),("model",.string name),("pose",placed')],?_,?_,?_,?_⟩
    · simp [ground,hplane,hnone,hmodel,hf,Json.valueOr,hid,hplaced']
    · simp
    · simp
    · intro he
      rw [heplaced he]
  · cases h

end Laws

section Documents

variable (spell : Float → String) (math : Math)

/-- An obstacle as the validator builds it. -/
def CanonicalObstacle (item : Json) : Prop := ∃ value, obstacle spell math value=.ok item

variable {spell math} in
/-- An accepted obstacle has its five members, each from its own validator. -/
theorem obstacle_members {value item : Json} (h : obstacle spell math value=.ok item) :
    ∃ (id name : String) (initial movement : Json) (shape : String × Json),
      item=.object [("id",.string id),("name",.string name),("pose",initial),shape,("motion",movement)] ∧
      pose spell math (value.valueOr "pose" (.object []))=.ok initial ∧
      motion spell math (value.valueOr "motion" (.object [("type",.string "hold")]))=.ok movement ∧
      obstacleShape spell math value=.ok shape := by
  unfold obstacle at h
  simp only [except_bind_ok] at h
  obtain ⟨_,_,id,_,h⟩ := h
  split at h
  · cases h
  simp only [except_bind_ok] at h
  obtain ⟨name,_,h⟩ := h
  split at h
  · cases h
  simp only [except_bind_ok] at h
  obtain ⟨initial,hinitial,movement,hmovement,_,_,shape,hshape,h⟩ := h
  cases h
  exact ⟨id,name,initial,movement,shape,rfl,hinitial,hmovement,hshape⟩

/-- The parts of a document. -/
structure Parts where
  /-- Scene identity. -/
  id : String
  /-- Scene frame. -/
  frame : String
  /-- Obstacles in order. -/
  obstacles : List Json
  /-- Model table, if authored. -/
  models : Option Json
  /-- Ground, if authored. -/
  ground : Option Json

/-- A member that may be absent. -/
def optionalMember (key : String) (value : Option Json) : List (String × Json) :=
  (value.map (fun item => (key,item))).toList

/-- The document of its parts. -/
def Parts.document (p : Parts) : Json :=
  .object (("schema",.string kSchema)::("id",.string p.id)::("frame",.string p.frame)::
    ("obstacles",.array p.obstacles)::(optionalMember "models" p.models ++ optionalMember "ground" p.ground))

/-- The model table with its default. -/
def Parts.defined (p : Parts) : Json := p.models.getD (.object [])

/-- Everything that whole-document validation establishes. -/
structure Parts.Canonical (p : Parts) : Prop where
  /-- The identity is stable. -/
  id : identifier (.string p.id) "Scene ID"=.ok p.id
  /-- The frame is explicit. -/
  frame : frameChecked (.string p.frame)=.ok p.frame
  /-- Every obstacle is canonical. -/
  obstacles : ∀ item∈p.obstacles, CanonicalObstacle spell math item
  /-- Limits and identities of the obstacles. -/
  checked : checkObstacleSet p.obstacles=.ok ()
  /-- The model table is canonical. -/
  models : ∀ defined, p.models=some defined → ∃ value, SceneDocument.models spell math value=.ok defined
  /-- Every obstacle's model is defined. -/
  known : p.obstacles.all (modelKnown p.defined)=true
  /-- The ground is canonical and its model is defined. -/
  ground : ∀ owned, p.ground=some owned → (∃ value, SceneDocument.ground spell math value=.ok owned) ∧
    (isText (owned.valueOr "mode" .null) "model" && !modelKnown p.defined owned)=false

/-- A document as the whole-document validator builds it. -/
def Canonical (document : Json) : Prop := ∃ p : Parts, document=p.document ∧ p.Canonical spell math

variable {spell math}

/-- An accepted frame is accepted again. -/
theorem frameChecked_again {value : Json} {text : String} (h : frameChecked value=.ok text) :
    frameChecked (.string text)=.ok text := by
  unfold frameChecked at h
  split at h
  · split at h
    · cases h
    rename_i hframe
    cases h
    unfold frameChecked
    exact if_neg hframe
  · cases h

/-- Obstacles of a list are canonical one by one. -/
theorem obstacleList_canonical {items obstacles : List Json}
    (h : obstacleList spell math items=.ok obstacles) :
    ∀ item∈obstacles, CanonicalObstacle spell math item := by
  induction items generalizing obstacles with
  | nil =>
    cases h
    simp
  | cons item rest ih =>
    unfold obstacleList at h
    simp only [except_bind_ok] at h
    obtain ⟨head,hhead,tail,htail,h⟩ := h
    cases h
    intro other hother
    rcases List.mem_cons.mp hother with rfl | hother
    · exact ⟨item,hhead⟩
    · exact ih htail other hother

/-- The model member of a document is canonical. -/
theorem modelMember_canonical {value : Json} {modelPart : List (String × Json)}
    (h : modelMember spell math value=.ok modelPart) :
    ∃ models : Option Json, modelPart=optionalMember "models" models ∧
      definedModels modelPart=models.getD (.object []) ∧
      ∀ defined, models=some defined → ∃ value, SceneDocument.models spell math value=.ok defined := by
  unfold modelMember at h
  split at h
  · cases h
    exact ⟨none,rfl,rfl,fun _ hn => by cases hn⟩
  · rw [except_bind_ok] at h
    obtain ⟨defined,hdefined,h⟩ := h
    cases h
    refine ⟨some defined,rfl,rfl,?_⟩
    intro other hother
    cases hother
    exact ⟨_,hdefined⟩

/-- The ground member of a document is canonical. -/
theorem groundMember_canonical {value defined : Json} {groundPart : List (String × Json)}
    (h : groundMember spell math value defined=.ok groundPart) :
    ∃ ground : Option Json, groundPart=optionalMember "ground" ground ∧
      ∀ owned, ground=some owned → (∃ value, SceneDocument.ground spell math value=.ok owned) ∧
        (isText (owned.valueOr "mode" .null) "model" && !modelKnown defined owned)=false := by
  unfold groundMember at h
  split at h
  · cases h
    exact ⟨none,rfl,fun _ hn => by cases hn⟩
  · rw [except_bind_ok] at h
    obtain ⟨owned,howned,h⟩ := h
    split at h
    · cases h
    rename_i hmodel
    cases h
    refine ⟨some owned,rfl,?_⟩
    intro other hother
    cases hother
    exact ⟨⟨_,howned⟩,by simpa using hmodel⟩

/-- Whole-document validation builds canonical documents. -/
theorem document_canonical {value result : Json} (h : SceneDocument.document spell math value=.ok result) :
    Canonical spell math result := by
  unfold SceneDocument.document at h
  rw [except_bind_ok] at h
  obtain ⟨_,_,h⟩ := h
  split at h
  · cases h
  simp only [except_bind_ok] at h
  obtain ⟨id,hid,frame,hframe,h⟩ := h
  split at h
  · split at h
    · cases h
    simp only [except_bind_ok] at h
    obtain ⟨obstacles,hobstacles,_,hchecked,modelPart,hmodels,h⟩ := h
    split at h
    · cases h
    rename_i hknown
    rw [except_bind_ok] at h
    obtain ⟨groundPart,hground,h⟩ := h
    cases h
    obtain ⟨models,hm,hdefined,hmodels⟩ := modelMember_canonical hmodels
    obtain ⟨owned,hg,hground⟩ := groundMember_canonical hground
    refine ⟨⟨id,frame,obstacles,models,owned⟩,by rw [hm,hg]; rfl,
      ⟨identifier_again hid,frameChecked_again hframe,obstacleList_canonical hobstacles,hchecked,hmodels,?_,?_⟩⟩
    · show obstacles.all (modelKnown (models.getD (.object [])))=true
      rw [←hdefined]
      simpa using hknown
    · rw [hdefined] at hground
      exact hground
  · cases h

variable {unchanged : Prop}

/-- Canonical obstacles are accepted again with the same references. -/
theorem obstacleList_again (laws : MathLaws math unchanged) {items : List Json}
    (h : ∀ item∈items, CanonicalObstacle spell math item) :
    ∃ again, obstacleList spell math items=.ok again ∧ List.Forall₂ SameReferences again items ∧
      (unchanged → again=items) := by
  induction items with
  | nil => exact ⟨[],rfl,.nil,fun _ => rfl⟩
  | cons item rest ih =>
    obtain ⟨value,hvalue⟩ := h item (List.mem_cons_self ..)
    obtain ⟨head,hhead,hsame,hehead⟩ := obstacle_again laws hvalue
    obtain ⟨tail,htail,hsames,hetail⟩ := ih (fun other ho => h other (List.mem_cons_of_mem _ ho))
    refine ⟨head::tail,?_,.cons hsame hsames,?_⟩
    · rw [obstacleList,hhead,ok_bind,htail]
      rfl
    · intro he
      rw [hehead he,hetail he]

/-- Identities are references. -/
theorem obstacleIds_references {again items : List Json} (h : List.Forall₂ SameReferences again items) :
    obstacleIds again=obstacleIds items := by
  induction h with
  | nil => rfl
  | cons hsame _ ih =>
    unfold obstacleIds obstacleId Json.atKey
    rw [hsame.id,ih]

/-- Part counts are references. -/
theorem partCount_references {again items : List Json} (h : List.Forall₂ SameReferences again items) :
    partCount again=partCount items := by
  unfold partCount
  congr 1
  induction h with
  | nil => rfl
  | cons hsame _ ih => rw [List.map_cons,List.map_cons,hsame.parts,ih]

/-- Set checks read only the references of obstacles. -/
theorem checkObstacleSet_references {again items : List Json}
    (h : List.Forall₂ SameReferences again items) : checkObstacleSet again=checkObstacleSet items := by
  unfold checkObstacleSet
  rw [h.length_eq,obstacleIds_references h,partCount_references h]

/-- Model tables with the same names know the same models. -/
theorem modelKnown_references {defined again : Json} (hnames : ∀ name, again.contains name=defined.contains name)
    {a b : Json} (h : a.member "model"=b.member "model") : modelKnown again a=modelKnown defined b := by
  unfold modelKnown
  rw [h]
  split
  · exact hnames _
  · rfl
  · rfl

/-- Obstacles with the same references name the same models. -/
theorem all_modelKnown_references {defined again : Json}
    (hnames : ∀ name, again.contains name=defined.contains name) {settled items : List Json}
    (h : List.Forall₂ SameReferences settled items) :
    settled.all (modelKnown again)=items.all (modelKnown defined) := by
  induction h with
  | nil => rfl
  | cons hsame _ ih => rw [List.all_cons,List.all_cons,modelKnown_references hnames hsame.model,ih]

/-- Whether a key occurs depends on the keys alone. -/
theorem contains_of_keys {a b : List (String × Json)} (h : a.map Prod.fst=b.map Prod.fst) (key : String) :
    (Json.object a).contains key=(Json.object b).contains key := by
  have hiff : ∀ members : List (String × Json), (Json.object members).contains key=true ↔
      key∈members.map Prod.fst := by
    intro members
    unfold Json.contains Json.member
    dsimp only
    rw [List.lookup_isSome_iff]
    simp only [List.mem_map,beq_iff_eq]
    exact ⟨fun ⟨m,hm,hk⟩ => ⟨m,hm,hk.symm⟩,fun ⟨m,hm,hk⟩ => ⟨m,hm,hk.symm⟩⟩
  rw [Bool.eq_iff_iff,hiff,hiff,h]

/-- A canonical model table is accepted again under the same names. -/
theorem models_again (laws : MathLaws math unchanged) {value defined : Json}
    (h : SceneDocument.models spell math value=.ok defined) :
    ∃ again, SceneDocument.models spell math defined=.ok again ∧
      (∀ name, again.contains name=defined.contains name) ∧ (unchanged → again=defined) := by
  unfold SceneDocument.models at h
  split at h
  · rw [except_bind_ok] at h
    obtain ⟨members,hmembers,h⟩ := h
    cases h
    obtain ⟨again,hagain,hkeys,hexact⟩ := modelMembers_again laws hmembers
    refine ⟨.object again,?_,fun name => contains_of_keys hkeys name,fun he => by rw [hexact he]⟩
    unfold SceneDocument.models
    dsimp only
    rw [hagain]
    rfl
  · cases h

/-- The optional members of a document are found under their keys. -/
theorem Parts.members (p : Parts) :
    p.document.member "schema"=some (.string kSchema) ∧ p.document.member "id"=some (.string p.id) ∧
      p.document.member "frame"=some (.string p.frame) ∧
      p.document.member "obstacles"=some (.array p.obstacles) ∧
      p.document.member "models"=p.models ∧ p.document.member "ground"=p.ground := by
  obtain ⟨id,frame,obstacles,models,ground⟩ := p
  cases models <;> cases ground <;> simp [Parts.document,optionalMember]

/-- The keys of a document fit its field check. -/
theorem Parts.fields (p : Parts) :
    fields spell p.document ["schema","id","frame","obstacles","models","ground"]
      ["schema","id","frame","obstacles"]=.ok () := by
  obtain ⟨id,frame,obstacles,models,ground⟩ := p
  cases models <;> cases ground <;> exact fields_of_keys spell rfl

/-- The model table of a canonical document is accepted again. -/
theorem modelMember_again (laws : MathLaws math unchanged) {p : Parts} (h : p.Canonical spell math) :
    ∃ models : Option Json, modelMember spell math p.document=.ok (optionalMember "models" models) ∧
      (∀ name, (models.getD (.object [])).contains name=p.defined.contains name) ∧
      (unchanged → models=p.models) := by
  obtain ⟨_,_,_,_,hmodels,_⟩ := p.members
  unfold modelMember Parts.defined
  rw [hmodels]
  cases hp : p.models with
  | none => exact ⟨none,rfl,fun _ => rfl,fun _ => rfl⟩
  | some defined =>
    obtain ⟨value,hvalue⟩ := h.models defined hp
    obtain ⟨again,hagain,hnames,hexact⟩ := models_again laws hvalue
    refine ⟨some again,?_,hnames,fun he => by rw [hexact he]⟩
    dsimp only
    rw [hagain]
    rfl

/-- The ground of a canonical document is accepted again. -/
theorem groundMember_again (laws : MathLaws math unchanged) {p : Parts} (h : p.Canonical spell math)
    {defined : Json} (hnames : ∀ name, defined.contains name=p.defined.contains name) :
    ∃ ground : Option Json, groundMember spell math p.document defined=
        .ok (optionalMember "ground" ground) ∧ (unchanged → ground=p.ground) := by
  obtain ⟨_,_,_,_,_,hground⟩ := p.members
  unfold groundMember
  rw [hground]
  cases hp : p.ground with
  | none => exact ⟨none,rfl,fun _ => rfl⟩
  | some owned =>
    obtain ⟨⟨value,hvalue⟩,hmodel⟩ := h.ground owned hp
    obtain ⟨again,hagain,hmode,hname,hexact⟩ := ground_again laws hvalue
    refine ⟨some again,?_,fun he => by rw [hexact he]⟩
    have hmodel' : ¬(isText (again.valueOr "mode" .null) "model" && !modelKnown defined again)=true := by
      rw [modelKnown_references hnames hname]
      unfold Json.valueOr at hmodel ⊢
      rw [hmode,hmodel]
      decide
    dsimp only
    rw [hagain,ok_bind,if_neg hmodel']
    rfl

/-- A canonical document is accepted again; with exact conversions it comes back unchanged. -/
theorem canonical_again (laws : MathLaws math unchanged) {document : Json}
    (h : Canonical spell math document) : Settles unchanged (SceneDocument.document spell math) document := by
  obtain ⟨p,rfl,hp⟩ := h
  obtain ⟨hschema,hid,hframe,hobstacles,_,_⟩ := p.members
  obtain ⟨obstacles,hlist,hsame,heobstacles⟩ := obstacleList_again laws hp.obstacles
  obtain ⟨models,hmodels,hnames,hemodels⟩ := modelMember_again laws hp
  have hdefined : definedModels (optionalMember "models" models)=models.getD (.object []) := by
    cases models <;> rfl
  rw [←hdefined] at hnames
  obtain ⟨ground,hground,heground⟩ := groundMember_again laws hp hnames
  have hcount : ¬512<p.obstacles.length := by
    intro hlarge
    have hc := hp.checked
    unfold checkObstacleSet at hc
    rw [if_pos hlarge] at hc
    cases hc
  have hknown : ¬(!obstacles.all (modelKnown (definedModels (optionalMember "models" models))))=true := by
    rw [all_modelKnown_references hnames hsame,hp.known]
    decide
  have hchecked : checkObstacleSet obstacles=.ok () :=
    (checkObstacleSet_references hsame).trans hp.checked
  have htext : ¬(!isText (.string kSchema) kSchema)=true := by decide
  refine ⟨Parts.document ⟨p.id,p.frame,obstacles,models,ground⟩,?_,?_⟩
  · unfold SceneDocument.document
    simp only [Json.valueOr,hschema,hid,hframe,hobstacles,Option.getD_some]
    rw [p.fields,ok_bind,if_neg htext,hp.id,ok_bind,hp.frame,ok_bind,if_neg hcount,hlist,ok_bind,hchecked,
      ok_bind,hmodels,ok_bind,if_neg hknown,hground]
    rfl
  · intro he
    rw [heobstacles he,hemodels he,heground he]

/-- A canonical document with other canonical obstacles whose models are defined. -/
theorem canonical_set_obstacles {p : Parts} (h : p.Canonical spell math) {items : List Json}
    (hitems : ∀ item∈items, CanonicalObstacle spell math item) (hchecked : checkObstacleSet items=.ok ())
    (hknown : items.all (modelKnown p.defined)=true) :
    Canonical spell math (p.document.set "obstacles" (.array items)) := by
  refine ⟨{p with obstacles := items},?_,⟨h.id,h.frame,hitems,hchecked,h.models,hknown,h.ground⟩⟩
  simp [Parts.document,Json.set,Json.setMember]

end Documents

end Ros1Adapter.SceneDocumentNormal

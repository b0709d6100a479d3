import Ros1Adapter.CoupledRuns
import Ros1Adapter.SceneProjectionAccepts
import Ros1Adapter.SceneStore

/-!
# Cached projections

A projection shares definitions, messages and markers between documents. An
address stands for one content, and what is cached is what would be made again,
so that a projection with any history makes the snapshots, transforms and
markers of a new one. Frames are made when the epoch or the revision changes;
there the document has to be the one of that revision.
-/

namespace Ros1Adapter.SceneProjectionCaches

open SceneJson SceneDocument SceneFiles SceneCompile SceneProjection SceneProjectionAccepts CoupledRuns
  ActionRules

section Addresses

/-- Content of the addresses of a projection. -/
structure Heap where
  /-- Geometry under an address. -/
  shapes : ℕ → Json
  /-- Model under an address. -/
  models : ℕ → Model

/-- A geometry is the content of a used address. -/
structure HoldsShape (heap : Heap) (next : ℕ) (shared : Shared Json) : Prop where
  /-- The address has been used. -/
  used : shared.address<next
  /-- The content is the geometry. -/
  content : shared.value=heap.shapes shared.address

/-- A model is the content of a used address, and so are its geometries. -/
structure HoldsModel (heap : Heap) (next : ℕ) (model : Model) : Prop where
  /-- The address has been used. -/
  used : model.address<next
  /-- The content is the model. -/
  content : model=heap.models model.address
  /-- Its geometries are content as well. -/
  shapes : ∀ shared∈model.geometries, HoldsShape heap next shared

/-- Content that only adds to other content. -/
structure Adds (heap : Heap) (next : ℕ) (larger : Heap) (later : ℕ) : Prop where
  /-- Addresses grow. -/
  next_le : next ≤ later
  /-- Geometries stay. -/
  shapes : ∀ address<next, larger.shapes address=heap.shapes address
  /-- Models stay. -/
  models : ∀ address<next, larger.models address=heap.models address

variable {heap larger : Heap} {next later : ℕ}

/-- Content adds nothing to itself. -/
theorem Adds.refl (heap : Heap) (next : ℕ) : Adds heap next heap next := ⟨le_refl _,fun _ _ => rfl,fun _ _ => rfl⟩

/-- Additions follow each other. -/
theorem Adds.trans {largest : Heap} {last : ℕ} (h : Adds heap next larger later)
    (h' : Adds larger later largest last) : Adds heap next largest last := by
  refine ⟨h.next_le.trans h'.next_le,?_,?_⟩
  · intro address ha
    rw [h'.shapes address (ha.trans_le h.next_le),h.shapes address ha]
  · intro address ha
    rw [h'.models address (ha.trans_le h.next_le),h.models address ha]

/-- Geometries keep their content. -/
theorem HoldsShape.mono {shared : Shared Json} (h : HoldsShape heap next shared) (ha : Adds heap next larger later) :
    HoldsShape larger later shared :=
  ⟨h.used.trans_le ha.next_le,by rw [ha.shapes _ h.used,h.content]⟩

/-- Models keep their content. -/
theorem HoldsModel.mono {model : Model} (h : HoldsModel heap next model) (ha : Adds heap next larger later) :
    HoldsModel larger later model := by
  refine ⟨h.used.trans_le ha.next_le,?_,fun shared hs => (h.shapes shared hs).mono ha⟩
  rw [ha.models _ h.used]
  exact h.content

/-- One address, one model. -/
theorem HoldsModel.unique {first second : Model} (h : HoldsModel heap next first) (h' : HoldsModel heap next second)
    (ha : first.address=second.address) : first=second := by
  rw [h.content,h'.content,ha]

/-- Equal addresses are equal geometries. -/
theorem holdsShapes_values {first second : List (Shared Json)} (h : ∀ shared∈first, HoldsShape heap next shared)
    (h' : ∀ shared∈second, HoldsShape heap next shared) (ha : addresses first=addresses second) :
    first.map Shared.value=second.map Shared.value := by
  have hvalues : ∀ list : List (Shared Json), (∀ shared∈list, HoldsShape heap next shared) →
      list.map Shared.value=(addresses list).map heap.shapes := by
    intro list hl
    unfold addresses
    rw [List.map_map]
    exact List.map_congr_left (fun shared hs => (hl shared hs).content)
  rw [hvalues first h,hvalues second h',ha]

/-- A geometry at the next address. -/
theorem adds_shape (heap : Heap) (next : ℕ) (shape : Json) :
    ∃ larger, Adds heap next larger (next+1) ∧ HoldsShape larger (next+1) ⟨next,shape⟩ := by
  refine ⟨{heap with shapes := fun address => if address=next then shape else heap.shapes address},
    ⟨Nat.le_succ next,?_,fun _ _ => rfl⟩,⟨Nat.lt_succ_self next,(if_pos rfl).symm⟩⟩
  intro address ha
  exact if_neg ha.ne

/-- A model at the next address. -/
theorem adds_model (heap : Heap) (next : ℕ) (value : Json) {references : List (Shared Json)}
    (hr : ∀ shared∈references, HoldsShape heap next shared) :
    ∃ larger, Adds heap next larger (next+1) ∧ HoldsModel larger (next+1) ⟨next,value,references⟩ := by
  let larger : Heap := {heap with
    models := fun address => if address=next then ⟨next,value,references⟩ else heap.models address}
  have hadds : Adds heap next larger (next+1) :=
    ⟨Nat.le_succ next,fun _ _ => rfl,fun address ha => if_neg ha.ne⟩
  exact ⟨larger,hadds,⟨Nat.lt_succ_self next,(if_pos rfl).symm,fun shared hs => (hr shared hs).mono hadds⟩⟩

end Addresses

section Sharing

variable {heap : Heap} {next : ℕ}

/-- A shared table has the geometries of the document. -/
theorem shareGeometries_holds {known : List (Shared Json)} (hk : ∀ shared∈known, HoldsShape heap next shared)
    (shapes : List Json) :
    (shareGeometries known next shapes).1.map Shared.value=shapes ∧
      ∃ larger, Adds heap next larger (shareGeometries known next shapes).2 ∧
        ∀ shared∈(shareGeometries known next shapes).1,
          HoldsShape larger (shareGeometries known next shapes).2 shared := by
  induction shapes generalizing known next heap with
  | nil => exact ⟨rfl,heap,.refl heap next,by simp [shareGeometries]⟩
  | cons shape rest ih =>
    have htail : ∀ shared∈known.tail, HoldsShape heap next shared :=
      fun shared hs => hk shared (List.mem_of_mem_tail hs)
    unfold shareGeometries
    split
    · rename_i shared hshared
      rw [Option.filter_eq_some_iff] at hshared
      obtain ⟨hhead,hsame⟩ := hshared
      have hvalue := sameProjectionValue_eq hsame
      have hheld := hk shared (List.mem_of_mem_head? hhead)
      obtain ⟨hvalues,larger,hadds,hholds⟩ := ih htail
      refine ⟨?_,larger,hadds,?_⟩
      · dsimp only
        rw [List.map_cons,hvalues,hvalue]
      · intro other ho
        rcases List.mem_cons.mp ho with rfl | ho
        · exact hheld.mono hadds
        · exact hholds other ho
    · obtain ⟨middle,hmiddle,hnew⟩ := adds_shape heap next shape
      obtain ⟨hvalues,larger,hadds,hholds⟩ := ih (fun shared hs => (htail shared hs).mono hmiddle)
      refine ⟨?_,larger,hmiddle.trans hadds,?_⟩
      · dsimp only
        rw [List.map_cons,hvalues]
      · intro other ho
        rcases List.mem_cons.mp ho with rfl | ho
        · exact hnew.mono hadds
        · exact hholds other ho

/-- A part and the geometry that it refers to. -/
def PartShape (shapes : List Json) (part shape : Json) : Prop :=
  ∃ index, geometryIndex part shapes.length=.ok index ∧ shapes[index]?=some shape

/-- The geometries of parts are those of their indices. -/
theorem partReferences_shapes {definitions references : List (Shared Json)} {parts : List Json}
    (h : partReferences definitions parts=.ok references) :
    List.Forall₂ (PartShape (definitions.map Shared.value)) parts (references.map Shared.value) ∧
      ∀ shared∈references, shared∈definitions := by
  induction parts generalizing references with
  | nil =>
    cases h
    exact ⟨.nil,by simp⟩
  | cons part rest ih =>
    unfold partReferences at h
    simp only [except_bind_ok] at h
    obtain ⟨index,hindex,head,hhead,tail,htail,h⟩ := h
    cases h
    obtain ⟨hshapes,hmem⟩ := ih htail
    have hat : definitions[index]?=some head := by
      unfold orThrow at hhead
      split at hhead
      · rename_i found hfound
        cases hhead
        exact hfound
      · cases hhead
    refine ⟨?_,?_⟩
    · refine .cons ⟨index,?_,?_⟩ hshapes
      · rw [List.length_map]
        exact hindex
      · rw [List.getElem?_map,hat]
        rfl
    · intro shared hs
      rcases List.mem_cons.mp hs with rfl | hs
      · exact List.mem_of_getElem? hat
      · exact hmem shared hs

/-- Tables of the same length are referred to in the same way. -/
theorem partReferences_agree {first second : List (Shared Json)} (hl : first.length=second.length)
    (parts : List Json) :
    Agrees (fun _ _ => True) (partReferences first parts) (partReferences second parts) := by
  induction parts with
  | nil => exact trivial
  | cons part rest ih =>
    unfold partReferences
    rw [hl]
    apply Agrees.same
    intro index _
    have hlookup : Agrees (fun _ _ => True) (orThrow (sceneError "Compiled geometryIndex out of range") first[index]?)
        (orThrow (sceneError "Compiled geometryIndex out of range") second[index]?) := by
      by_cases hindex : index<first.length
      · rw [List.getElem?_eq_getElem hindex,List.getElem?_eq_getElem (hl ▸ hindex)]
        exact trivial
      · rw [List.getElem?_eq_none (by omega),List.getElem?_eq_none (by omega)]
        exact rfl
    apply hlookup.bind
    intro _ _ _ _ _
    apply ih.bind
    intro _ _ _ _ _
    exact trivial

/-- A model of a definition, with the geometries of its parts. -/
structure ModelOf (shapes : List Json) (value : Json) (model : Model) : Prop where
  /-- The definition. -/
  value_eq : model.value=value
  /-- Its parts refer to the geometries. -/
  parts : ∃ definitions, value.atKey "parts"=.ok definitions ∧
    List.Forall₂ (PartShape shapes) (elements definitions) (model.geometries.map Shared.value)

/-- A shared model is a model of its definition. -/
theorem shareModel_holds {known : Option Model} (hk : ∀ model, known=some model → HoldsModel heap next model)
    (value : Json) {references : List (Shared Json)} (hr : ∀ shared∈references, HoldsShape heap next shared) :
    (shareModel known value references next).1.value=value ∧
      (shareModel known value references next).1.geometries.map Shared.value=references.map Shared.value ∧
      ∃ larger, Adds heap next larger (shareModel known value references next).2 ∧
        HoldsModel larger (shareModel known value references next).2 (shareModel known value references next).1 := by
  unfold shareModel
  split
  · rename_i model hm
    obtain ⟨hknown,hsame⟩ := Option.filter_eq_some_iff.mp hm
    rw [Bool.and_eq_true,decide_eq_true_eq] at hsame
    have hheld := hk model hknown
    exact ⟨sameProjectionValue_eq hsame.1,holdsShapes_values hheld.shapes hr hsame.2,heap,.refl heap next,hheld⟩
  · obtain ⟨larger,hadds,hholds⟩ := adds_model heap next value hr
    exact ⟨rfl,rfl,larger,hadds,hholds⟩

/-- Models by name are models of the definitions of a table. -/
def ModelsOf (shapes : List Json) (members : List (String × Json)) (models : String → Option Model) : Prop :=
  ∀ name, Option.Rel (ModelOf shapes) (members.lookup name) (models name)

/-- Shared models are models of their definitions. -/
theorem shareModels_holds {definitions : List (Shared Json)} (hd : ∀ shared∈definitions, HoldsShape heap next shared)
    {known : String → Option Model} (hk : ∀ name model, known name=some model → HoldsModel heap next model)
    {members : List (String × Json)} {found : (String → Option Model) × ℕ}
    (h : shareModels definitions known next members=.ok found) :
    ModelsOf (definitions.map Shared.value) members found.1 ∧
      ∃ larger, Adds heap next larger found.2 ∧
        ∀ name model, found.1 name=some model → HoldsModel larger found.2 model := by
  induction members generalizing next heap found with
  | nil =>
    cases h
    exact ⟨fun _ => .none,heap,.refl heap next,fun _ _ hm => by cases hm⟩
  | cons m rest ih =>
    obtain ⟨name,value⟩ := m
    unfold shareModels at h
    simp only [except_bind_ok] at h
    obtain ⟨parts,hparts,references,hreferences,tail,htail,h⟩ := h
    cases h
    obtain ⟨hshapes,hmem⟩ := partReferences_shapes hreferences
    have hheld : ∀ shared∈references, HoldsShape heap next shared := fun shared hs => hd shared (hmem shared hs)
    obtain ⟨hvalue,hgeometries,middle,hmiddle,hmodel⟩ :=
      shareModel_holds (fun model hm => hk name model hm) value hheld
    obtain ⟨hmodels,larger,hadds,hholds⟩ := ih (fun shared hs => (hd shared hs).mono hmiddle)
      (fun other model hm => (hk other model hm).mono hmiddle) htail
    refine ⟨?_,larger,hmiddle.trans hadds,?_⟩
    · intro key
      dsimp only
      rw [List.lookup_cons]
      by_cases hkey : key=name
      · rw [if_pos hkey,hkey]
        simp only [beq_self_eq_true]
        refine .some ⟨hvalue,parts,hparts,?_⟩
        rw [hgeometries]
        exact hshapes
      · have hne : (key==name)=false := by simpa using hkey
        rw [if_neg hkey,hne]
        exact hmodels key
    · intro key model hm
      dsimp only at hm
      split at hm
      · cases hm
        exact hmodel.mono hadds
      · exact hholds key model hm

/-- Models are shared or refused whatever is known. -/
theorem shareModels_agree {first second : List (Shared Json)} (hl : first.length=second.length)
    (known other : String → Option Model) (next later : ℕ) (members : List (String × Json)) :
    Agrees (fun _ _ => True) (shareModels first known next members) (shareModels second other later members) := by
  induction members generalizing next later with
  | nil => exact trivial
  | cons m rest ih =>
    obtain ⟨name,value⟩ := m
    unfold shareModels
    apply Agrees.same
    intro parts _
    apply (partReferences_agree hl (elements parts)).bind
    intro references others _ _ _
    apply (ih _ _).bind
    intro _ _ _ _ _
    exact trivial

end Sharing

section Faithful

variable {heap larger : Heap} {next later : ℕ} {D : Drawing}

/-- A part and its geometry in a decoded table. -/
def Pictures (D : Drawing) (geometries : List Geometry) (part : ScenePart) (shape : Json) : Prop :=
  ∃ geometry payload, geometries[part.geometryIndex]?=some geometry ∧ D.geometryFromJson shape=.ok payload ∧
    D.decodeGeometry payload=.ok geometry

/-- Tables with the same geometries for the parts make the same markers. -/
theorem markersOf_pictures {first second : List Geometry} {parts : List ScenePart} {shapes : List Json}
    (hf : List.Forall₂ (Pictures D first) parts shapes) (hs : List.Forall₂ (Pictures D second) parts shapes)
    (oid frame : String) : markersOf D oid first frame parts=markersOf D oid second frame parts := by
  induction hf with
  | nil => rfl
  | cons hhead _ ih =>
    cases hs with
    | cons hhead' htail' =>
      obtain ⟨geometry,payload,hget,hpayload,hgeometry⟩ := hhead
      obtain ⟨geometry',payload',hget',hpayload',hgeometry'⟩ := hhead'
      rw [hpayload] at hpayload'
      cases hpayload'
      rw [hgeometry] at hgeometry'
      cases hgeometry'
      have htail := ih htail'
      unfold markersOf
      rw [hget,hget',htail]

/-- The parts of a model. -/
def PartsOf (value : Json) (parts : List ScenePart) : Prop :=
  ∃ definitions, value.atKey "parts"=.ok definitions ∧ partMessages (elements definitions)=.ok parts

/-- A model has one list of parts. -/
theorem PartsOf.unique {value : Json} {first second : List ScenePart} (h : PartsOf value first)
    (h' : PartsOf value second) : first=second := by
  obtain ⟨definitions,hd,hp⟩ := h
  obtain ⟨definitions',hd',hp'⟩ := h'
  rw [hd] at hd'
  cases hd'
  rw [hp] at hp'
  exact Except.ok.inj hp'

/-- The message of an obstacle has its identity and the parts of its model. -/
theorem obstacleMessage_parts {item value : Json} {message : SceneObstacle}
    (h : obstacleMessage item value=.ok message) :
    stringAt item "id"=.ok message.id ∧ PartsOf value message.parts := by
  unfold obstacleMessage at h
  simp only [except_bind_ok] at h
  obtain ⟨id,hid,name,_,type,_,placed,_,pose,_,definitions,hdefinitions,parts,hparts,h⟩ := h
  cases h
  exact ⟨hid,definitions,hdefinitions,hparts⟩

/-- Cached markers are those of the parts of their model. -/
structure Redrawn (D : Drawing) (heap : Heap) (next : ℕ) (oid : String) (m : Markers) : Prop where
  /-- The model is content. -/
  model : HoldsModel heap next m.model
  /-- The markers can be made again. -/
  drawn : ∃ parts geometries, PartsOf m.model.value parts ∧
    List.Forall₂ (Pictures D geometries) parts (m.model.geometries.map Shared.value) ∧
    markersOf D oid geometries m.frame parts=.ok m.messages

/-- Cached markers stay faithful. -/
theorem Redrawn.mono {oid : String} {m : Markers} (h : Redrawn D heap next oid m)
    (ha : Adds heap next larger later) : Redrawn D larger later oid m := ⟨h.model.mono ha,h.drawn⟩

/-- A projection whose caches hold what would be made again. -/
structure Tidy (D : Drawing) (heap : Heap) (p : Projection) : Prop where
  /-- Geometries are content. -/
  geometries : ∀ shared∈p.geometries, HoldsShape heap p.nextAddress shared
  /-- Models are content. -/
  models : ∀ name m, p.models name=some m → HoldsModel heap p.nextAddress m
  /-- Messages are those of their obstacle and model. -/
  bodies : ∀ id b, p.bodies id=some b →
    HoldsModel heap p.nextAddress b.model ∧ obstacleMessage b.value b.model.value=.ok b.message
  /-- Markers are those of their model. -/
  markers : ∀ id m, p.markers id=some m → Redrawn D heap p.nextAddress id m
  /-- Markers of the ground are those of its model. -/
  ground : ∀ m, p.groundMarkers=some m → Redrawn D heap p.nextAddress m.frame m

/-- A new projection has nothing cached. -/
theorem newProjection_tidy (D : Drawing) (heap : Heap) (X : Externals) (nameSpace : String) :
    Tidy D heap (newProjection X nameSpace) := by
  constructor
  · exact fun _ hs => by cases hs
  · exact fun _ _ hm => by cases hm
  · exact fun _ _ hb => by cases hb
  · exact fun _ _ hm => by cases hm
  · exact fun _ hm => by cases hm

end Faithful

section Preparing

variable {heap : Heap} {D : Drawing}

/-- The check of obstacles only asks which models are known. -/
theorem checkItems_known {first second : String → Option Model}
    (h : ∀ name, (first name).isNone=(second name).isNone) (items : List Json) :
    checkItems first items=checkItems second items := by
  induction items with
  | nil => rfl
  | cons item rest ih =>
    unfold checkItems
    simp only [h,ih]

/-- The check of the ground only asks which models are known. -/
theorem checkGround_known {first second : String → Option Model}
    (h : ∀ name, (first name).isNone=(second name).isNone) (ground : Json) :
    checkGround first ground=checkGround second ground := by
  unfold checkGround
  simp only [h]

/-- Geometry table of a document. -/
def shapesOf (document : Json) : List Json := (document.valueOr "geometries" .null).items

/-- Models of a document. -/
def membersOf (document : Json) : List (String × Json) := (document.valueOr "models" .null).members

/-- Obstacles of a document. -/
def itemsOf (document : Json) : List Json := (document.valueOr "obstacles" .null).items

/-- A projection that holds the definitions of a document. -/
structure Prepared (D : Drawing) (document : Json) (heap : Heap) (p : Projection) : Prop where
  /-- The caches are faithful. -/
  tidy : Tidy D heap p
  /-- The models are those of the document. -/
  models : ModelsOf (shapesOf document) (membersOf document) p.models

/-- Related options are absent together. -/
theorem rel_isNone {α β : Type} {related : α → β → Prop} {a : Option α} {b : Option β}
    (h : Option.Rel related a b) : a.isNone=b.isNone := by
  cases h with
  | some | none => rfl

/-- The known models are those of the table. -/
theorem ModelsOf.known {shapes : List Json} {members : List (String × Json)} {models : String → Option Model}
    (h : ModelsOf shapes members models) (name : String) : (members.lookup name).isNone=(models name).isNone :=
  rel_isNone (h name)

/-- Preparing a document keeps the caches faithful. -/
theorem withModels_prepared {p q : Projection} {document : Json} (hp : Tidy D heap p)
    (h : withModels p document=.ok q) :
    SameViews p q ∧ ∃ larger, Prepared D document larger q := by
  unfold withModels at h
  simp only [except_bind_ok] at h
  obtain ⟨_,_,found,hfound,_,_,ground,_,_,_,h⟩ := h
  cases h
  obtain ⟨hvalues,middle,hmiddle,hshapes⟩ := shareGeometries_holds hp.geometries (shapesOf document)
  obtain ⟨hmodels,larger,hadds,hholds⟩ := shareModels_holds hshapes
    (fun name m hm => (hp.models name m hm).mono hmiddle) hfound
  have hall := hmiddle.trans hadds
  rw [hvalues] at hmodels
  refine ⟨rfl,larger,⟨?_,?_,?_,?_,?_⟩,hmodels⟩
  · exact fun shared hs => (hshapes shared hs).mono hadds
  · exact fun name m hm => hholds name m hm
  · exact fun id b hb => ⟨(hp.bodies id b hb).1.mono hall,(hp.bodies id b hb).2⟩
  · exact fun id m hm => (hp.markers id m hm).mono hall
  · exact fun m hm => (hp.ground m hm).mono hall

/-- A document is prepared or refused whatever the caches hold. -/
theorem withModels_agree {other : Heap} {p q : Projection} (hp : Tidy D heap p) (hq : Tidy D other q)
    (document : Json) : Agrees (fun _ _ => True) (withModels p document) (withModels q document) := by
  obtain ⟨hvalues,_,_,hshapes⟩ := shareGeometries_holds hp.geometries (shapesOf document)
  obtain ⟨hvalues',_,_,hshapes'⟩ := shareGeometries_holds hq.geometries (shapesOf document)
  have hlength := congrArg List.length (hvalues.trans hvalues'.symm)
  rw [List.length_map,List.length_map] at hlength
  unfold withModels
  apply Agrees.same
  intro _ _
  apply (shareModels_agree hlength p.models q.models _ _ (membersOf document)).bind
  intro found found' hf hf' _
  have hmodels := (shareModels_holds hshapes (fun name m hm => (hp.models name m hm).mono ‹_›) hf).1
  have hmodels' := (shareModels_holds hshapes' (fun name m hm => (hq.models name m hm).mono ‹_›) hf').1
  rw [hvalues] at hmodels
  rw [hvalues'] at hmodels'
  have hknown := fun name => (hmodels.known name).symm.trans (hmodels'.known name)
  rw [checkItems_known hknown]
  apply Agrees.same
  intro _ _
  apply Agrees.same
  intro ground _
  rw [checkGround_known hknown]
  apply Agrees.same
  intro _ _
  exact trivial

end Preparing

section Snapshots

variable {heap other : Heap} {D : Drawing} {document : Json} {p q : Projection}

/-- Models by one name in two projections are models of one definition. -/
theorem modelAt_agree {shapes : List Json} {members : List (String × Json)} {first second : String → Option Model}
    (h : ModelsOf shapes members first) (h' : ModelsOf shapes members second) (name : String) :
    Agrees (fun m n => ∃ value, members.lookup name=some value ∧ ModelOf shapes value m ∧ ModelOf shapes value n)
      (modelAt first name) (modelAt second name) := by
  have hf := h name
  have hs := h' name
  unfold modelAt
  generalize first name=m at hf ⊢
  generalize second name=n at hs ⊢
  generalize members.lookup name=value at hf hs ⊢
  cases hf with
  | none =>
    cases hs with
    | none => exact rfl
  | some hm =>
    cases hs with
    | some hn => exact ⟨_,rfl,hm,hn⟩

/-- A model that was found. -/
theorem modelAt_ok {models : String → Option Model} {name : String} {m : Model} (h : modelAt models name=.ok m) :
    models name=some m := by
  unfold modelAt orThrow at h
  split at h
  · rename_i found hfound
    cases h
    exact hfound
  · cases h

/-- Message of an obstacle with the model that a table has for it. -/
def BodyOf (members : List (String × Json)) (item : Json) (message : SceneObstacle) : Prop :=
  ∃ name value, stringAt item "model"=.ok name ∧ members.lookup name=some value ∧
    obstacleMessage item value=.ok message

/-- A body that can be cached. -/
def TidyBody (heap : Heap) (next : ℕ) (b : Body) : Prop :=
  HoldsModel heap next b.model ∧ obstacleMessage b.value b.model.value=.ok b.message

/-- A cached body is the one that would be made. -/
theorem cachedBody_agrees (hp : Tidy D heap p) {m : Model} (hm : HoldsModel heap p.nextAddress m) {value : Json}
    (hv : m.value=value) (id : String) (item : Json) :
    Agrees (fun made message => made.1=id ∧ made.2.message=message ∧ TidyBody heap p.nextAddress made.2 ∧
        obstacleMessage item value=.ok message)
      (match (p.bodies id).filter (fun body => sameProjectionValue body.value item &&
          decide (body.model.address=m.address)) with
        | some body => return (id,body)
        | none => do
          let message ← obstacleMessage item m.value
          return (id,⟨item,m,message⟩)) (obstacleMessage item value) := by
  rw [←hv]
  split
  · rename_i body hbody
    obtain ⟨hcached,htest⟩ := Option.filter_eq_some_iff.mp hbody
    rw [Bool.and_eq_true,decide_eq_true_eq] at htest
    obtain ⟨hmodel,hmessage⟩ := hp.bodies id body hcached
    have hvalue := sameProjectionValue_eq htest.1
    have hsame := hmodel.unique hm htest.2
    have hmade := hmessage
    rw [hvalue,hsame] at hmade
    rw [hmade]
    exact ⟨rfl,rfl,⟨hmodel,hmessage⟩,rfl⟩
  · cases hmessage : obstacleMessage item m.value with
    | ok message => exact ⟨rfl,rfl,⟨hm,hmessage⟩,rfl⟩
    | error e => exact rfl

/-- A body is made or refused whatever the caches hold. -/
theorem obstacleBody_agree (hp : Prepared D document heap p) (hq : Prepared D document other q) (item : Json) :
    Agrees (fun a b => a.1=b.1 ∧ a.2.message=b.2.message ∧ TidyBody heap p.nextAddress a.2 ∧
      BodyOf (membersOf document) item a.2.message) (obstacleBody p item) (obstacleBody q item) := by
  unfold obstacleBody
  apply Agrees.same
  intro id _
  apply Agrees.same
  intro name hname
  apply (modelAt_agree hp.models hq.models name).bind
  rintro m n hm hn ⟨value,hlookup,hmodel,hmodel'⟩
  have hfirst := cachedBody_agrees hp.tidy (hp.tidy.models name m (modelAt_ok hm)) hmodel.value_eq id item
  have hsecond := cachedBody_agrees hq.tidy (hq.tidy.models name n (modelAt_ok hn)) hmodel'.value_eq id item
  apply (hfirst.common hsecond).mono
  rintro a b _ _ ⟨_,⟨hid,rfl,htidy,hmade⟩,hid',hbody',_⟩
  exact ⟨hid.trans hid'.symm,hbody'.symm,htidy,name,value,hname,hlookup,hmade⟩

/-- Bodies are made or refused whatever the caches hold. -/
theorem obstacleBodies_agree (hp : Prepared D document heap p) (hq : Prepared D document other q)
    (items : List Json) :
    Agrees (fun a b => a.1=b.1 ∧ (∀ id body, a.2 id=some body → TidyBody heap p.nextAddress body) ∧
      List.Forall₂ (BodyOf (membersOf document)) items a.1) (obstacleBodies p items) (obstacleBodies q items) := by
  induction items with
  | nil => exact ⟨rfl,fun _ _ hb => (by cases hb),.nil⟩
  | cons item rest ih =>
    unfold obstacleBodies
    apply (obstacleBody_agree hp hq item).bind
    rintro ⟨id,body⟩ ⟨id',body'⟩ _ _ ⟨_,hmessage,htidy,hbody⟩
    apply ih.bind
    rintro tail tail' _ _ ⟨htail,htidies,hbodies⟩
    refine ⟨?_,?_,.cons hbody hbodies⟩
    · dsimp only at hmessage ⊢
      rw [hmessage,htail]
    · intro key found hf
      rcases Option.or_eq_some_iff.mp hf with hf | ⟨_,hf⟩
      · exact htidies key found hf
      · split at hf
        · cases hf
          exact htidy
        · cases hf

/-- Message of a ground with the model that a table has for it. -/
def GroundOf (members : List (String × Json)) (owned : Json) (message : SceneGround) : Prop :=
  message.mode="model" → ∃ name value, stringAt owned "model"=.ok name ∧ members.lookup name=some value ∧
    PartsOf value message.parts

/-- The ground has one message whatever the caches hold. -/
theorem groundMessage_agree (hp : Prepared D document heap p) (hq : Prepared D document other q) (owned : Json) :
    Agrees (fun a b => a=b ∧ GroundOf (membersOf document) owned a) (groundMessage p.models owned)
      (groundMessage q.models owned) := by
  unfold groundMessage
  apply Agrees.same
  intro mode _
  by_cases hplane : mode="default_plane"
  · rw [if_pos hplane,if_pos hplane]
    apply Agrees.same
    intro _ _
    apply Agrees.same
    intro _ _
    refine ⟨rfl,?_⟩
    intro hmode
    dsimp only at hmode
    rw [hplane] at hmode
    exact absurd hmode (by decide)
  rw [if_neg hplane,if_neg hplane]
  by_cases hmodel : mode="model"
  · rw [if_pos hmodel,if_pos hmodel]
    apply Agrees.same
    intro _ _
    apply Agrees.same
    intro _ _
    apply Agrees.same
    intro name hname
    apply (modelAt_agree hp.models hq.models name).bind
    rintro m n _ _ ⟨value,hlookup,hm,hn⟩
    rw [hm.value_eq,hn.value_eq]
    apply Agrees.same
    intro definitions hdefinitions
    apply Agrees.same
    intro parts hparts
    exact ⟨rfl,fun _ => ⟨name,value,hname,hlookup,definitions,hdefinitions,hparts⟩⟩
  · rw [if_neg hmodel,if_neg hmodel]
    exact ⟨rfl,fun hmode => absurd hmode hmodel⟩

/-- An encoded table has a wire form of every shape. -/
theorem geometryMessages_encodes {shapes : List Json} {payloads : List Payload}
    (h : geometryMessages D shapes=.ok payloads) : List.Forall₂ (Encodes D) shapes payloads := by
  induction shapes generalizing payloads with
  | nil =>
    cases h
    exact .nil
  | cons shape rest ih =>
    unfold geometryMessages at h
    simp only [except_bind_ok] at h
    obtain ⟨payload,hpayload,tail,htail,h⟩ := h
    cases h
    refine .cons ?_ (ih htail)
    unfold library at hpayload
    split at hpayload
    · rename_i found hfound
      cases hpayload
      exact hfound
    · cases hpayload

/-- A snapshot that was made of a document. -/
structure MadeOf (D : Drawing) (document : Json) (message : SceneSnapshot) : Prop where
  /-- The frame of the document is a text. -/
  frame : stringAt document "frame"=.ok message.frame
  /-- Its table is the encoded one. -/
  geometries : List.Forall₂ (Encodes D) (shapesOf document) message.geometries
  /-- Its obstacles are those of the document. -/
  obstacles : List.Forall₂ (BodyOf (membersOf document)) (itemsOf document) message.obstacles
  /-- Its ground is that of the document. -/
  ground : ∃ owned, document.atKey "ground"=.ok owned ∧ GroundOf (membersOf document) owned message.ground

/-- A prepared document has one snapshot whatever the caches hold. -/
theorem snapshotMessage_agree (hp : Prepared D document heap p) (hq : Prepared D document other q)
    (epoch : String) (revision : ℕ) (stamp : Float) :
    Agrees (fun a b => a.1=b.1 ∧ MadeOf D document a.1 ∧
        ∀ id body, a.2 id=some body → TidyBody heap p.nextAddress body)
      (snapshotMessage D p document epoch revision stamp) (snapshotMessage D q document epoch revision stamp) := by
  unfold snapshotMessage
  apply Agrees.same
  intro frame hframe
  apply Agrees.same
  intro id _
  apply Agrees.same
  intro geometries hgeometries
  apply Agrees.same
  intro owned howned
  apply (groundMessage_agree hp hq owned).bind
  rintro ground _ _ _ ⟨rfl,hground⟩
  apply (obstacleBodies_agree hp hq (itemsOf document)).bind
  rintro bodies bodies' _ _ ⟨hsame,htidy,hbodies⟩
  refine ⟨?_,⟨hframe,geometryMessages_encodes hgeometries,hbodies,owned,howned,hground⟩,htidy⟩
  dsimp only
  rw [hsame]

end Snapshots

section Drawings

variable {heap other : Heap} {D : Drawing} {document : Json} {p q : Projection}

/-- Native form of a shape. -/
def Native (D : Drawing) (shape : Json) (geometry : Geometry) : Prop :=
  ∃ payload, D.geometryFromJson shape=.ok payload ∧ D.decodeGeometry payload=.ok geometry

/-- A decoded table of an encoded one has a native form of every shape. -/
theorem decodedGeometries_native {shapes : List Json} {payloads : List Payload}
    (h : List.Forall₂ (Encodes D) shapes payloads) {geometries : List Geometry}
    (hd : decodedGeometries D payloads=.ok geometries) : List.Forall₂ (Native D) shapes geometries := by
  induction h generalizing geometries with
  | nil =>
    cases hd
    exact .nil
  | cons hhead _ ih =>
    unfold decodedGeometries at hd
    simp only [except_bind_ok] at hd
    obtain ⟨geometry,hgeometry,tail,htail,hd⟩ := hd
    cases hd
    refine .cons ⟨_,hhead,?_⟩ (ih htail)
    unfold library at hgeometry
    split at hgeometry
    · rename_i found hfound
      cases hgeometry
      exact hfound
    · cases hgeometry

/-- A native table has a native form at every index of the shapes. -/
theorem native_getElem {shapes : List Json} {geometries : List Geometry}
    (h : List.Forall₂ (Native D) shapes geometries) {index : ℕ} {shape : Json} (hs : shapes[index]?=some shape) :
    ∃ geometry, geometries[index]?=some geometry ∧ Native D shape geometry := by
  induction h generalizing index with
  | nil => simp at hs
  | cons hhead _ ih =>
    cases index with
    | zero =>
      rw [List.getElem?_cons_zero] at hs
      cases hs
      exact ⟨_,rfl,hhead⟩
    | succ index =>
      rw [List.getElem?_cons_succ] at hs ⊢
      exact ih hs

/-- The message of a part keeps its index. -/
theorem partMessage_index {definition : Json} {part : ScenePart} (h : partMessage definition=.ok part)
    {count index : ℕ} (hi : geometryIndex definition count=.ok index) : part.geometryIndex=index := by
  unfold geometryIndex at hi
  rw [except_bind_ok] at hi
  obtain ⟨value,hvalue,hi⟩ := hi
  unfold partMessage at h
  simp only [except_bind_ok] at h
  obtain ⟨_,_,_,_,_,_,value',hvalue',number,hnumber,_,_,_,_,_,_,_,_,_,_,h⟩ := h
  cases h
  rw [hvalue] at hvalue'
  cases hvalue'
  split at hi
  · cases hi
  cases value with
  | integer n =>
    dsimp only at hi hnumber
    split at hi
    · cases hi
    split at hi
    · cases hi
    rename_i hrange
    cases hi
    cases hnumber
    exact Nat.mod_eq_of_lt (by omega)
  | _ => cases hi

/-- Parts of a model show their geometries. -/
theorem partMessages_pictures {shapes : List Json} {geometries : List Geometry}
    (hg : List.Forall₂ (Native D) shapes geometries) {definitions references : List Json}
    (h : List.Forall₂ (PartShape shapes) definitions references) {parts : List ScenePart}
    (hp : partMessages definitions=.ok parts) : List.Forall₂ (Pictures D geometries) parts references := by
  induction h generalizing parts with
  | nil =>
    cases hp
    exact .nil
  | cons hhead _ ih =>
    unfold partMessages at hp
    simp only [except_bind_ok] at hp
    obtain ⟨part,hpart,tail,htail,hp⟩ := hp
    cases hp
    obtain ⟨index,hindex,hshape⟩ := hhead
    obtain ⟨geometry,hget,payload,hpayload,hgeometry⟩ := native_getElem hg hshape
    refine .cons ⟨geometry,payload,?_,hpayload,hgeometry⟩ (ih htail)
    rw [partMessage_index hpart hindex]
    exact hget

/-- Parts of the message of a model show the geometries of the model. -/
theorem ModelOf.pictures {shapes : List Json} {geometries : List Geometry}
    (hg : List.Forall₂ (Native D) shapes geometries) {value : Json} {m : Model} (h : ModelOf shapes value m)
    {parts : List ScenePart} (hp : PartsOf value parts) :
    List.Forall₂ (Pictures D geometries) parts (m.geometries.map Shared.value) := by
  obtain ⟨definitions,hdefinitions,hshapes⟩ := h.parts
  obtain ⟨definitions',hdefinitions',hparts⟩ := hp
  rw [hdefinitions] at hdefinitions'
  cases hdefinitions'
  exact partMessages_pictures hg hshapes hparts

/-- Cached markers are those that would be made. -/
theorem sharedMarkers_agrees {next : ℕ} {known : Option Markers} {oid : String} (frame : String)
    (hk : ∀ m, known=some m → m.frame=frame → Redrawn D heap next oid m) (value : Json) {model : Model}
    (hm : HoldsModel heap next model) {geometries : List Geometry} {parts : List ScenePart}
    (hp : PartsOf model.value parts)
    (hg : List.Forall₂ (Pictures D geometries) parts (model.geometries.map Shared.value)) :
    Agrees (fun made messages => made.messages=messages ∧ made.frame=frame ∧ Redrawn D heap next oid made)
      (sharedMarkers D known value model frame oid geometries parts) (markersOf D oid geometries frame parts) := by
  unfold sharedMarkers
  split
  · rename_i markers hmarkers
    obtain ⟨hknown,htest⟩ := Option.filter_eq_some_iff.mp hmarkers
    rw [Bool.and_eq_true,Bool.and_eq_true,decide_eq_true_eq,decide_eq_true_eq] at htest
    obtain ⟨⟨_,haddress⟩,hframe⟩ := htest
    have hredrawn := hk markers hknown hframe
    have hsame := hredrawn.model.unique hm haddress
    obtain ⟨parts',geometries',hparts',hpictures,hdrawn⟩ := hredrawn.drawn
    rw [hsame] at hparts' hpictures
    have hequal := hparts'.unique hp
    subst hequal
    rw [markersOf_pictures hg hpictures,←hframe,hdrawn]
    exact ⟨rfl,rfl,hredrawn⟩
  · cases hdrawn : markersOf D oid geometries frame parts with
    | ok messages => exact ⟨rfl,rfl,hm,parts,geometries,hp,hg,hdrawn⟩
    | error e => exact rfl

/-- Two projections with one stage of frames. -/
structure SameStage (p q : Projection) : Prop where
  /-- Start of all frame names. -/
  namePrefix : p.namePrefix=q.namePrefix
  /-- Frame of all placements. -/
  parent : p.parent=q.parent
  /-- Obstacle frames. -/
  frames : p.frames=q.frames

/-- Kept markers are faithful when all of them are. -/
theorem keepMarkers_redrawn {next : ℕ} {kept : String → Option Markers}
    (hk : ∀ id m, kept id=some m → Redrawn D heap next id m) {oid : String} {drawn : Markers}
    (hd : Redrawn D heap next oid drawn) (id : String) (m : Markers)
    (h : (kept id).or (if id=oid then some drawn else none)=some m) : Redrawn D heap next id m := by
  rcases Option.or_eq_some_iff.mp h with hf | ⟨_,hf⟩
  · exact hk id m hf
  · split at hf
    · rename_i hid
      cases hf
      rw [hid]
      exact hd
    · cases hf

/-- Obstacles are drawn or refused whatever the caches hold. -/
theorem drawObstacles_agree (hp : Prepared D document heap p) (hq : Prepared D document other q)
    (hs : SameStage p q) {geometries : List Geometry} (hg : List.Forall₂ (Native D) (shapesOf document) geometries)
    (stamp : Stamp) {items : List Json} {bodies : List SceneObstacle}
    (h : List.Forall₂ (BodyOf (membersOf document)) items bodies) :
    Agrees (fun a b => a.fixed=b.fixed ∧ a.messages=b.messages ∧
        (∀ id m, a.cache id=some m → Redrawn D heap p.nextAddress id m) ∧
        ∀ id m, b.cache id=some m → Redrawn D other q.nextAddress id m)
      (drawObstacles D p geometries stamp items bodies) (drawObstacles D q geometries stamp items bodies) := by
  induction h with
  | nil => exact ⟨rfl,rfl,fun _ _ hm => (by cases hm),fun _ _ hm => (by cases hm)⟩
  | @cons item body rest tail hhead _ ih =>
    obtain ⟨name,value,hname,hlookup,hmessage⟩ := hhead
    have hframe : frameAt q=frameAt p := by
      unfold frameAt
      rw [hs.frames]
    have hfixed : fixedTransforms q body stamp=fixedTransforms p body stamp := by
      unfold fixedTransforms transform
      rw [hframe,hs.parent]
    unfold drawObstacles
    rw [hfixed,hframe,hname]
    apply Agrees.same
    intro fixed _
    apply Agrees.same
    intro frame _
    apply Agrees.same
    intro name' hname'
    cases hname'
    apply (modelAt_agree hp.models hq.models name).bind
    rintro m n hm hn ⟨value',hlookup',hmodel,hmodel'⟩
    rw [hlookup] at hlookup'
    cases hlookup'
    have hparts := (obstacleMessage_parts hmessage).2
    have hheld := hp.tidy.models name m (modelAt_ok hm)
    have hheld' := hq.tidy.models name n (modelAt_ok hn)
    have hfirst := sharedMarkers_agrees frame (fun known hk _ => hp.tidy.markers body.id known hk) item hheld
      (hmodel.value_eq ▸ hparts) (hmodel.pictures hg hparts)
    have hsecond := sharedMarkers_agrees frame (fun known hk _ => hq.tidy.markers body.id known hk) item hheld'
      (hmodel'.value_eq ▸ hparts) (hmodel'.pictures hg hparts)
    apply (hfirst.common hsecond).bind
    rintro drawn drawn' _ _ ⟨_,⟨rfl,_,hredrawn⟩,hsame,_,hredrawn'⟩
    apply ih.bind
    rintro others others' _ _ ⟨hfixeds,hmessages,hcache,hcache'⟩
    refine ⟨?_,?_,keepMarkers_redrawn hcache hredrawn,keepMarkers_redrawn hcache' hredrawn'⟩
    · dsimp only
      rw [hfixeds]
    · dsimp only
      rw [hmessages,hsame]

/-- A ground is drawn or refused whatever the caches hold. -/
theorem drawGround_agree (hp : Prepared D document heap p) (hq : Prepared D document other q)
    (hs : SameStage p q) {geometries : List Geometry} (hg : List.Forall₂ (Native D) (shapesOf document) geometries)
    (epoch : String) {message : SceneSnapshot} (h : MadeOf D document message) :
    Agrees (fun a b => a.1=b.1 ∧ a.2.map Markers.messages=b.2.map Markers.messages ∧
        ∀ m, a.2=some m → Redrawn D heap p.nextAddress m.frame m)
      (drawGround D p geometries document epoch message) (drawGround D q geometries document epoch message) := by
  obtain ⟨owned,howned,hground⟩ := h.ground
  unfold drawGround
  by_cases hmode : message.ground.mode="model"
  · rw [if_pos hmode,if_pos hmode,howned]
    obtain ⟨name,value,hname,hlookup,hparts⟩ := hground hmode
    apply Agrees.same
    intro owned' howned'
    cases howned'
    rw [hname]
    apply Agrees.same
    intro name' hname'
    cases hname'
    apply (modelAt_agree hp.models hq.models name).bind
    rintro m n hm hn ⟨value',hlookup',hmodel,hmodel'⟩
    rw [hlookup] at hlookup'
    cases hlookup'
    have hheld := hp.tidy.models name m (modelAt_ok hm)
    have hheld' := hq.tidy.models name n (modelAt_ok hn)
    dsimp only
    rw [hs.namePrefix,hs.parent]
    have hfirst := sharedMarkers_agrees (q.namePrefix ++ "/" ++ epoch ++ "/ground")
      (fun known hk hf => hf ▸ hp.tidy.ground known hk) owned hheld (hmodel.value_eq ▸ hparts)
      (hmodel.pictures hg hparts)
    have hsecond := sharedMarkers_agrees (q.namePrefix ++ "/" ++ epoch ++ "/ground")
      (fun known hk hf => hf ▸ hq.tidy.ground known hk) owned hheld' (hmodel'.value_eq ▸ hparts)
      (hmodel'.pictures hg hparts)
    apply (hfirst.common hsecond).bind
    rintro drawn drawn' _ _ ⟨_,⟨rfl,hframe,hredrawn⟩,hsame,_⟩
    refine ⟨rfl,congrArg some hsame.symm,?_⟩
    intro found hf
    cases hf
    rw [hframe]
    exact hredrawn
  · rw [if_neg hmode,if_neg hmode]
    exact ⟨rfl,rfl,fun _ hf => by cases hf⟩

end Drawings

section Frames

variable {D : Drawing} {document : Json}

/-- Identity of an obstacle. -/
def identity (item : Json) : String :=
  match stringAt item "id" with
  | .ok id => id
  | .error _ => ""

/-- An obstacle that does not move. -/
def heldItem (item : Json) : Bool :=
  match item.atKey "motion" >>= fun motion => motion.atKey "type" with
  | .ok type => isText type "hold"
  | .error _ => false

/-- Frames after some obstacles. -/
def framesFrom (start : Projection) : (String → Option String) → List Json → String → Option String
  | frames,[] => frames
  | frames,item::rest =>
    framesFrom start (fun key =>
      if key=identity item then some (frameName start (heldItem item) (identity item)) else frames key) rest

/-- Frames of a document in an epoch. -/
def framesOf (namePrefix epoch : String) (document : Json) : String → Option String :=
  framesFrom {namePrefix := namePrefix, epoch := epoch} (fun _ => none) (itemsOf document)

/-- An obstacle with a message has an identity and a motion type. -/
theorem BodyOf.scans {members : List (String × Json)} {item : Json} {message : SceneObstacle}
    (h : BodyOf members item message) :
    ∃ motion type, stringAt item "id"=.ok (identity item) ∧ item.atKey "motion"=.ok motion ∧
      motion.atKey "type"=.ok type ∧ heldItem item=isText type "hold" := by
  obtain ⟨_,value,_,_,hmessage⟩ := h
  unfold obstacleMessage motionType stringAt at hmessage
  simp only [except_bind_ok] at hmessage
  obtain ⟨id,⟨field,hfield,hid⟩,_,_,_,⟨motion,hmotion,_,⟨type,htype,_⟩,_⟩,_⟩ := hmessage
  have hidentity : stringAt item "id"=.ok id := by
    unfold stringAt
    rw [hfield]
    exact hid
  refine ⟨motion,type,?_,hmotion,htype,?_⟩
  · unfold identity
    rw [hidentity]
  · unfold heldItem
    rw [hmotion]
    dsimp only [bind,Except.bind]
    rw [htype]

/-- Scanning obstacles with messages gives them their frames. -/
theorem scanFrames_frames {members : List (String × Json)} {items : List Json} {messages : List SceneObstacle}
    (h : List.Forall₂ (BodyOf members) items messages) (start : Projection) (canvas : Canvas)
    (hp : canvas.projection.namePrefix=start.namePrefix) (he : canvas.projection.epoch=start.epoch) :
    ∃ entries, scanFrames items canvas=.ok () {canvas with projection := {canvas.projection with
      frames := framesFrom start canvas.projection.frames items, entries := entries}} := by
  induction h generalizing canvas with
  | nil => exact ⟨canvas.projection.entries,rfl⟩
  | @cons item _ rest _ hhead _ ih =>
    obtain ⟨motion,type,hid,hmotion,htype,hheld⟩ := hhead.scans
    have hname : frameName canvas.projection (heldItem item) (identity item)=
        frameName start (heldItem item) (identity item) := by
      unfold frameName
      rw [hp,he]
    let next (name : String) : Canvas := {canvas with projection := {canvas.projection with
      frames := fun key => if key=identity item then some name else canvas.projection.frames key,
      entries := if heldItem item then canvas.projection.entries else canvas.projection.entries ++ [item]}}
    obtain ⟨entries,hscan⟩ := ih (next (frameName start (heldItem item) (identity item))) hp he
    refine ⟨entries,?_⟩
    unfold scanFrames
    rw [hid,hmotion]
    simp only [ofResult,pure_bind,htype]
    rw [←hheld]
    exact (congrArg (fun name => scanFrames rest (next name)) hname).trans hscan

/-- A projection shows the frames of a document. -/
structure Staged (document : Json) (p : Projection) : Prop where
  /-- Frame of all placements. -/
  parent : stringAt document "frame"=.ok p.parent
  /-- Obstacle frames. -/
  frames : p.frames=framesOf p.namePrefix p.epoch document

/-- Adopting a revision of a document with a snapshot shows its frames. -/
theorem adoptRevision_staged {message : SceneSnapshot} (hm : MadeOf D document message) {epoch : String}
    {revision : ℕ} {canvas : Canvas}
    (hs : canvas.projection.epoch=epoch → canvas.projection.revision=revision → Staged document canvas.projection) :
    ∃ parent frames entries, adoptRevision document epoch revision canvas=.ok () {canvas with
        projection := {canvas.projection with
          epoch := epoch, revision := revision, parent := parent, frames := frames, entries := entries}} ∧
      stringAt document "frame"=.ok parent ∧
      frames=framesOf canvas.projection.namePrefix epoch document := by
  unfold adoptRevision
  rw [get_bind]
  by_cases hnew : canvas.projection.epoch≠epoch ∨ canvas.projection.revision≠revision
  · rw [if_pos hnew,hm.frame]
    let cleared : Canvas := {canvas with projection := {canvas.projection with
      epoch := epoch, revision := revision, parent := message.frame, frames := fun _ => none, entries := []}}
    obtain ⟨entries,hscan⟩ := scanFrames_frames hm.obstacles
      {namePrefix := canvas.projection.namePrefix, epoch := epoch} cleared rfl rfl
    exact ⟨message.frame,_,entries,hscan,rfl,rfl⟩
  · rw [if_neg hnew]
    simp only [ne_eq,not_or,not_not] at hnew
    obtain ⟨he,hr⟩ := hnew
    have hstaged := hs he hr
    subst he hr
    exact ⟨canvas.projection.parent,canvas.projection.frames,canvas.projection.entries,rfl,hstaged.parent,
      hstaged.frames⟩

end Frames

section Calls

variable (D : Drawing)

/-- Calls of a projection. -/
inductive Call where
  /-- Make a snapshot of a document. -/
  | snapshot (document : Json) (epoch : String) (revision : ℕ) (stamp : Float)
  /-- Publish a document with its snapshot. -/
  | definition (document : Json) (epoch : String) (revision : ℕ) (message : SceneSnapshot)

/-- What a call does; only a snapshot is returned. -/
def Call.action : Call → Project (Option SceneSnapshot)
  | .snapshot document epoch revision stamp => do
    let message ← SceneProjection.snapshot D document epoch revision stamp
    return some message
  | .definition document epoch revision message => do
    SceneProjection.definition D document epoch revision message
    return none

/-- Result and outputs of a call. -/
def outcome (p : Projection) (call : Call) : Except Error (Option SceneSnapshot) × List Output :=
  match call.action D ⟨p,[]⟩ with
  | .ok message canvas => (.ok message,canvas.outputs)
  | .error error canvas => (.error error,canvas.outputs)

/-- The projection after a call. -/
def after (p : Projection) (call : Call) : Projection := (stateOf (call.action D ⟨p,[]⟩)).projection

/-- Results and outputs of calls in order. -/
def outcomes : Projection → List Call → List (Except Error (Option SceneSnapshot) × List Output)
  | _,[] => []
  | p,call::rest => outcome D p call::outcomes (after D p call) rest

/-- Every definition has the snapshot that a new projection makes of its document, and an epoch and a
revision that belong to this document. -/
structure Consistent (fresh : Projection) (calls : List Call) : Prop where
  /-- Snapshots are those of the documents. -/
  made : ∀ document epoch revision message, .definition document epoch revision message∈calls →
    ∃ epoch' revision' stamp, (outcome D fresh (.snapshot document epoch' revision' stamp)).1=.ok (some message)
  /-- A definition is not published as nothing. -/
  revised : ∀ document epoch revision message, .definition document epoch revision message∈calls →
    epoch≠"" ∨ revision≠0
  /-- One epoch and revision, one document. -/
  identified : ∀ document document' epoch revision message message',
    .definition document epoch revision message∈calls → .definition document' epoch revision message'∈calls →
    document=document'

end Calls

section Coupling

variable {D : Drawing} {heap other : Heap} {document : Json} {c d : Canvas}

/-- Preparing a document succeeds or fails in both projections and only changes their definitions. -/
theorem prepareModels_couples (hp : Tidy D heap c.projection) (hq : Tidy D other d.projection)
    {throws : Canvas → Canvas → Prop} (ht : throws c d) :
    Couples (prepareModels document) (prepareModels document) c d
      (fun _ u _ v => ∃ p q, u={c with projection := p} ∧ v={d with projection := q} ∧
        SameViews c.projection p ∧ SameViews d.projection q ∧
        (∃ larger, Prepared D document larger p) ∧ ∃ larger, Prepared D document larger q) throws := by
  unfold prepareModels
  apply couples_get_bind
  apply (couples_ofResult (withModels_agree hp hq document) ht).bind
  rintro p _ q _ ⟨rfl,rfl,hp',hq',_⟩
  apply (couples_modify _ _ _ _ _).mono
  · rintro _ _ _ _ ⟨rfl,rfl⟩
    obtain ⟨hviews,hprepared⟩ := withModels_prepared hp hp'
    obtain ⟨hviews',hprepared'⟩ := withModels_prepared hq hq'
    exact ⟨p,q,rfl,rfl,hviews,hviews',hprepared,hprepared'⟩
  · exact fun _ _ h => h

/-- The frames of a projection are those of a published document, unless nothing was published. -/
def StagedBy (calls : List Call) (p : Projection) : Prop :=
  (p.epoch="" ∧ p.revision=0) ∨
    ∃ document message, .definition document p.epoch p.revision message∈calls ∧ Staged document p

/-- Outputs of both projections are the same and the first one stays faithful. -/
structure Alike (D : Drawing) (calls : List Call) (start : String) (u v : Canvas) : Prop where
  /-- The outputs are the same. -/
  outputs : u.outputs=v.outputs
  /-- The frames start alike. -/
  namePrefix : u.projection.namePrefix=start
  /-- The caches are faithful. -/
  tidy : ∃ heap, Tidy D heap u.projection
  /-- The frames are known. -/
  staged : StagedBy calls u.projection

variable {calls : List Call}

/-- Shared definitions do not show. -/
theorem SameViews.staged {p q : Projection} (h : SameViews p q) (hs : StagedBy calls p) : StagedBy calls q := by
  unfold SameViews at h
  rw [h]
  rcases hs with hs | ⟨document,message,hmem,hparent,hframes⟩
  · exact Or.inl hs
  · exact Or.inr ⟨document,message,hmem,hparent,hframes⟩

/-- Shared definitions do not change the names of frames. -/
theorem SameViews.namePrefix {p q : Projection} (h : SameViews p q) : q.namePrefix=p.namePrefix := by
  unfold SameViews at h
  rw [h]

/-- A snapshot is made or refused whatever the caches hold. -/
theorem snapshot_couples (hp : Tidy D heap c.projection) (hq : Tidy D other d.projection)
    (ho : c.outputs=d.outputs) (hs : StagedBy calls c.projection) (document : Json) (epoch : String)
    (revision : ℕ) (stamp : Float) :
    Couples (SceneProjection.snapshot D document epoch revision stamp)
      (SceneProjection.snapshot D document epoch revision stamp) c d
      (fun a u b v => a=b ∧ MadeOf D document a ∧ Alike D calls c.projection.namePrefix u v)
      (Alike D calls c.projection.namePrefix) := by
  unfold SceneProjection.snapshot
  apply (prepareModels_couples hp hq ⟨ho,rfl,⟨heap,hp⟩,hs⟩).bind
  rintro _ _ _ _ ⟨p,q,rfl,rfl,hviews,_,⟨larger,hprepared⟩,⟨larger',hprepared'⟩⟩
  have hstaged : StagedBy calls p := SameViews.staged hviews hs
  have hnames : p.namePrefix=c.projection.namePrefix := SameViews.namePrefix hviews
  apply couples_get_bind
  apply (couples_ofResult (snapshotMessage_agree hprepared hprepared' epoch revision stamp)
    ⟨ho,hnames,⟨larger,hprepared.tidy⟩,hstaged⟩).bind
  rintro made _ made' _ ⟨rfl,rfl,_,_,hsame,hmade,hbodies⟩
  refine ⟨hsame,hmade,ho,hnames,⟨larger,?_⟩,?_⟩
  · exact ⟨hprepared.tidy.geometries,hprepared.tidy.models,hbodies,hprepared.tidy.markers,hprepared.tidy.ground⟩
  · rcases hstaged with hstaged | ⟨shown,message,hmem,hparent,hframes⟩
    · exact Or.inl hstaged
    · exact Or.inr ⟨shown,message,hmem,hparent,hframes⟩

/-- Two canvases that show a document in one revision. -/
structure Shows (D : Drawing) (document : Json) (epoch : String) (revision : ℕ) (u v : Canvas) : Prop where
  /-- The outputs are the same. -/
  outputs : u.outputs=v.outputs
  /-- Both projections show the same frames. -/
  stage : SameStage u.projection v.projection
  /-- The frames are those of the document. -/
  staged : Staged document u.projection
  /-- The epoch is adopted. -/
  epoch : u.projection.epoch=epoch
  /-- The revision is adopted. -/
  revision : u.projection.revision=revision
  /-- The first projection holds the definitions of the document. -/
  first : ∃ heap, Prepared D document heap u.projection
  /-- The second projection holds them as well. -/
  second : ∃ heap, Prepared D document heap v.projection

/-- What is shown is alike. -/
theorem Shows.alike {epoch : String} {revision : ℕ} {message : SceneSnapshot} {u v : Canvas}
    (h : Shows D document epoch revision u v) (hc : .definition document epoch revision message∈calls) :
    Alike D calls u.projection.namePrefix u v := by
  obtain ⟨heap,hprepared⟩ := h.first
  refine ⟨h.outputs,rfl,⟨heap,hprepared.tidy⟩,Or.inr ⟨document,message,?_,h.staged⟩⟩
  rw [h.epoch,h.revision]
  exact hc

/-- Adopting a revision shows its document in both projections. -/
theorem adoptRevision_couples {message : SceneSnapshot} (hm : MadeOf D document message) {epoch : String}
    {revision : ℕ} (hp : Prepared D document heap c.projection) (hq : Prepared D document other d.projection)
    (ho : c.outputs=d.outputs) (hn : c.projection.namePrefix=d.projection.namePrefix)
    (hs : c.projection.epoch=epoch → c.projection.revision=revision → Staged document c.projection)
    (hs' : d.projection.epoch=epoch → d.projection.revision=revision → Staged document d.projection)
    (throws : Canvas → Canvas → Prop) :
    Couples (adoptRevision document epoch revision) (adoptRevision document epoch revision) c d
      (fun _ u _ v => u.projection.namePrefix=c.projection.namePrefix ∧
        Shows D document epoch revision u v) throws := by
  obtain ⟨parent,frames,entries,hrun,hparent,hframes⟩ := adoptRevision_staged hm hs
  obtain ⟨parent',frames',entries',hrun',hparent',hframes'⟩ := adoptRevision_staged hm hs'
  unfold Couples
  rw [hrun,hrun']
  rw [hparent] at hparent'
  cases hparent'
  refine ⟨rfl,ho,⟨hn,rfl,?_⟩,⟨hparent,hframes⟩,rfl,rfl,⟨heap,?_⟩,⟨other,?_⟩⟩
  · dsimp only
    rw [hframes,hframes',hn]
  · exact ⟨⟨hp.tidy.geometries,hp.tidy.models,hp.tidy.bodies,hp.tidy.markers,hp.tidy.ground⟩,hp.models⟩
  · exact ⟨⟨hq.tidy.geometries,hq.tidy.models,hq.tidy.bodies,hq.tidy.markers,hq.tidy.ground⟩,hq.models⟩

/-- A definition is published or refused whatever the caches hold. -/
theorem definition_couples {epoch : String} {revision : ℕ} {message : SceneSnapshot}
    (hc : .definition document epoch revision message∈calls) (hm : MadeOf D document message)
    (hp : Tidy D heap c.projection) (hq : Tidy D other d.projection) (ho : c.outputs=d.outputs)
    (hn : c.projection.namePrefix=d.projection.namePrefix) (hstaged : StagedBy calls c.projection)
    (hs : c.projection.epoch=epoch → c.projection.revision=revision → Staged document c.projection)
    (hs' : d.projection.epoch=epoch → d.projection.revision=revision → Staged document d.projection) :
    Couples (SceneProjection.definition D document epoch revision message)
      (SceneProjection.definition D document epoch revision message) c d
      (fun _ u _ v => Alike D calls c.projection.namePrefix u v) (Alike D calls c.projection.namePrefix) := by
  unfold SceneProjection.definition
  apply (prepareModels_couples hp hq ⟨ho,rfl,⟨heap,hp⟩,hstaged⟩).bind
  rintro _ _ _ _ ⟨p,q,rfl,rfl,hviews,hviews',⟨larger,hprepared⟩,⟨larger',hprepared'⟩⟩
  have hnames : p.namePrefix=q.namePrefix := by
    rw [SameViews.namePrefix hviews,SameViews.namePrefix hviews',hn]
  have hstage : p.epoch=epoch → p.revision=revision → Staged document p := by
    rw [hviews]
    intro he hr
    exact ⟨(hs he hr).parent,(hs he hr).frames⟩
  have hstage' : q.epoch=epoch → q.revision=revision → Staged document q := by
    rw [hviews']
    intro he hr
    exact ⟨(hs' he hr).parent,(hs' he hr).frames⟩
  apply (adoptRevision_couples (c := {c with projection := p}) (d := {d with projection := q}) hm hprepared
    hprepared' ho hnames hstage hstage' _).bind
  rintro _ u _ v ⟨hstart,hshows⟩
  have halike := hshows.alike hc
  rw [hstart,SameViews.namePrefix hviews] at halike
  apply (couples_ofResult (Agrees.refl (fun _ => rfl : ∀ a, (fun a b => a=b) a a) _) halike).bind
  rintro geometries u _ v ⟨rfl,rfl,hdecoded,_,rfl⟩
  have hnative := decodedGeometries_native hm.geometries hdecoded
  apply (couples_ofResult (Agrees.refl (fun _ => rfl : ∀ a, (fun a b => a=b) a a) _) halike).bind
  rintro _ u _ v ⟨rfl,rfl,_⟩
  apply (couples_modify _ _ _ _ _).bind
  rintro _ _ _ _ ⟨rfl,rfl⟩
  apply couples_get_bind
  obtain ⟨houtputs,hsame,hdocument,hepoch,hrevision,⟨first,hu⟩,⟨second,hv⟩⟩ := hshows
  have hkept : ∀ (k : String → Option Markers) (m : Option Markers) (outputs : List Output) (w : Canvas),
      outputs=w.outputs → (∀ id n, k id=some n → Redrawn D first u.projection.nextAddress id n) →
      (∀ n, m=some n → Redrawn D first u.projection.nextAddress n.frame n) →
      Alike D calls c.projection.namePrefix
        ⟨{u.projection with markers := k, groundMarkers := m},outputs⟩ w := by
    intro k m outputs w hequal hk hm'
    refine ⟨hequal,halike.namePrefix,⟨first,⟨hu.tidy.geometries,hu.tidy.models,hu.tidy.bodies,hk,hm'⟩⟩,
      Or.inr ⟨document,message,?_,hdocument.parent,hdocument.frames⟩⟩
    dsimp only
    rw [hepoch,hrevision]
    exact hc
  have hshown : Output.snapshot message::u.outputs=Output.snapshot message::v.outputs := by
    rw [houtputs]
  apply (couples_ofResult (drawObstacles_agree hu hv hsame hnative message.stamp hm.obstacles)
    (hkept _ _ _ _ hshown hu.tidy.markers hu.tidy.ground)).bind
  rintro drawn _ drawn' _ ⟨rfl,rfl,_,_,hfixed,hmessages,hcache,hcache'⟩
  apply (couples_modify _ _ _ _ _).bind
  rintro _ _ _ _ ⟨rfl,rfl⟩
  apply couples_get_bind
  have hground := drawGround_agree (p := {u.projection with markers := drawn.cache})
    (q := {v.projection with markers := drawn'.cache})
    ⟨⟨hu.tidy.geometries,hu.tidy.models,hu.tidy.bodies,hcache,hu.tidy.ground⟩,hu.models⟩
    ⟨⟨hv.tidy.geometries,hv.tidy.models,hv.tidy.bodies,hcache',hv.tidy.ground⟩,hv.models⟩
    ⟨hsame.namePrefix,hsame.parent,hsame.frames⟩ hnative epoch hm
  apply (couples_ofResult hground
    (hkept drawn.cache u.projection.groundMarkers _ _ hshown hcache hu.tidy.ground)).bind
  rintro ground _ ground' _ ⟨rfl,rfl,_,_,htransforms,hlast,hmarked⟩
  apply (couples_modify _ _ _ _ _).bind
  rintro _ _ _ _ ⟨rfl,rfl⟩
  rw [hfixed,hmessages,htransforms,hlast]
  by_cases hempty : (!(drawn'.fixed ++ ground'.1).isEmpty)=true
  · rw [if_pos hempty]
    apply (couples_modify _ _ _ _ _).bind
    rintro _ _ _ _ ⟨rfl,rfl⟩
    exact hkept drawn.cache ground.2 _ _ (by rw [houtputs]) hcache hmarked
  · rw [if_neg hempty]
    exact hkept drawn.cache ground.2 _ _ (by rw [houtputs]) hcache hmarked

end Coupling

section Runs

variable {D : Drawing} {X : Externals} {nameSpace : String} {calls : List Call} {p : Projection}

/-- A projection that only its cached content tells from a new one. -/
structure Kept (D : Drawing) (fresh : Projection) (calls : List Call) (p : Projection) : Prop where
  /-- The frames start alike. -/
  namePrefix : p.namePrefix=fresh.namePrefix
  /-- The caches are faithful. -/
  tidy : ∃ heap, Tidy D heap p
  /-- The frames are known. -/
  staged : StagedBy calls p

/-- A new projection has published nothing. -/
theorem newProjection_staged : StagedBy calls (newProjection X nameSpace) := Or.inl ⟨rfl,rfl⟩

/-- A snapshot of a new projection is made of its document. -/
theorem outcome_madeOf {document : Json} {epoch : String} {revision : ℕ} {stamp : Float} {message : SceneSnapshot}
    (h : (outcome D (newProjection X nameSpace) (.snapshot document epoch revision stamp)).1=.ok (some message)) :
    MadeOf D document message := by
  have htidy := newProjection_tidy D ⟨fun _ => .null,fun address => ⟨address,.null,[]⟩⟩ X nameSpace
  have hcouples := snapshot_couples (c := ⟨newProjection X nameSpace,[]⟩) (d := ⟨newProjection X nameSpace,[]⟩)
    htidy htidy rfl (Or.inl ⟨rfl,rfl⟩ : StagedBy [] _) document epoch revision stamp
  unfold outcome Call.action at h
  unfold Couples at hcouples
  cases hrun : SceneProjection.snapshot D document epoch revision stamp ⟨newProjection X nameSpace,[]⟩ with
  | ok made canvas =>
    dsimp only at h
    rw [bind_of_ok hrun] at h
    rw [hrun] at hcouples
    cases h
    exact hcouples.2.1
  | error e canvas =>
    dsimp only at h
    rw [bind_of_error hrun] at h
    cases h

/-- A call of a consistent run does the same with cached content as without. -/
theorem action_couples (hc : Consistent D (newProjection X nameSpace) calls)
    (hp : Kept D (newProjection X nameSpace) calls p) {call : Call} (hm : call∈calls) :
    Couples (call.action D) (call.action D) ⟨p,[]⟩ ⟨newProjection X nameSpace,[]⟩
      (fun a u b v => a=b ∧ Alike D calls p.namePrefix u v) (Alike D calls p.namePrefix) := by
  obtain ⟨heap,htidy⟩ := hp.tidy
  have hfresh := newProjection_tidy D heap X nameSpace
  cases call with
  | snapshot document epoch revision stamp =>
    have hcouples := snapshot_couples (c := ⟨p,[]⟩) (d := ⟨newProjection X nameSpace,[]⟩) htidy hfresh rfl
      hp.staged document epoch revision stamp
    apply hcouples.bind
    rintro message u _ v ⟨rfl,_,halike⟩
    exact ⟨rfl,halike⟩
  | definition document epoch revision message =>
    obtain ⟨_,_,_,hmade⟩ := hc.made document epoch revision message hm
    have hrevised := hc.revised document epoch revision message hm
    have hstaged : p.epoch=epoch → p.revision=revision → Staged document p := by
      intro he hr
      rcases hp.staged with ⟨hnone,hzero⟩ | ⟨shown,message',hshown,hstaged⟩
      · rcases hrevised with hr' | hr'
        · exact absurd (he.symm.trans hnone) hr'
        · exact absurd (hr.symm.trans hzero) hr'
      · rw [he,hr] at hshown
        rw [hc.identified document shown epoch revision message message' hm hshown]
        exact hstaged
    have hnothing : (newProjection X nameSpace).epoch=epoch → (newProjection X nameSpace).revision=revision →
        Staged document (newProjection X nameSpace) := by
      intro he hr
      rcases hrevised with hr' | hr'
      · exact absurd he.symm hr'
      · exact absurd hr.symm hr'
    have hcouples := definition_couples (c := ⟨p,[]⟩) (d := ⟨newProjection X nameSpace,[]⟩) hm
      (outcome_madeOf hmade) htidy hfresh rfl hp.namePrefix hp.staged hstaged hnothing
    apply hcouples.bind
    rintro _ u _ v halike
    exact ⟨rfl,halike⟩

/-- A call of a consistent run has the outcome of a new projection and keeps the caches faithful. -/
theorem outcome_kept (hc : Consistent D (newProjection X nameSpace) calls)
    (hp : Kept D (newProjection X nameSpace) calls p) {call : Call} (hm : call∈calls) :
    outcome D p call=outcome D (newProjection X nameSpace) call ∧
      Kept D (newProjection X nameSpace) calls (after D p call) := by
  have hcouples := action_couples hc hp hm
  unfold Couples at hcouples
  unfold outcome after
  cases hrun : call.action D ⟨p,[]⟩ with
  | ok a u =>
    cases hfresh : call.action D ⟨newProjection X nameSpace,[]⟩ with
    | ok b v =>
      rw [hrun,hfresh] at hcouples
      obtain ⟨rfl,halike⟩ := hcouples
      refine ⟨?_,halike.namePrefix.trans hp.namePrefix,halike.tidy,halike.staged⟩
      dsimp only
      rw [halike.outputs]
    | error e v =>
      rw [hrun,hfresh] at hcouples
      exact hcouples.elim
  | error e u =>
    cases hfresh : call.action D ⟨newProjection X nameSpace,[]⟩ with
    | ok b v =>
      rw [hrun,hfresh] at hcouples
      exact hcouples.elim
    | error f v =>
      rw [hrun,hfresh] at hcouples
      obtain ⟨rfl,halike⟩ := hcouples
      refine ⟨?_,halike.namePrefix.trans hp.namePrefix,halike.tidy,halike.staged⟩
      dsimp only
      rw [halike.outputs]

/-- Outcomes of a consistent run from a projection that kept its caches faithful. -/
theorem outcomes_kept (hc : Consistent D (newProjection X nameSpace) calls) {rest : List Call}
    (hr : ∀ call∈rest, call∈calls) (hp : Kept D (newProjection X nameSpace) calls p) :
    outcomes D p rest=rest.map (outcome D (newProjection X nameSpace)) := by
  induction rest generalizing p with
  | nil => rfl
  | cons call rest ih =>
    obtain ⟨hhead,hafter⟩ := outcome_kept hc hp (hr call (List.mem_cons_self ..))
    have htail := ih (fun other ho => hr other (List.mem_cons_of_mem _ ho)) hafter
    unfold outcomes
    rw [List.map_cons,hhead,htail]

/-- Cached content does not show: every call of a consistent run has the outcome of a new projection. -/
theorem outcomes_fresh (D : Drawing) (X : Externals) (nameSpace : String) (calls : List Call)
    (hc : Consistent D (newProjection X nameSpace) calls) :
    outcomes D (newProjection X nameSpace) calls=calls.map (outcome D (newProjection X nameSpace)) := by
  have hempty : Kept D (newProjection X nameSpace) calls (newProjection X nameSpace) :=
    ⟨rfl,⟨_,newProjection_tidy D ⟨fun _ => .null,fun address => ⟨address,.null,[]⟩⟩ X nameSpace⟩,
      newProjection_staged⟩
  exact outcomes_kept hc (fun _ hm => hm) hempty

/-- A library that knows boxes only. -/
def boxDrawing : Drawing where
  time := fun _ => {}
  geometryFromJson := fun _ => .ok ⟨0,[]⟩
  decodeGeometry := fun _ => .ok {type := .box}
  sampleEllipticRingSurface := fun _ _ _ => []
  finiteHalfspaces := fun _ => .error "Unsupported geometry"
  convexMeshOf := fun _ => .error "Unsupported geometry"
  rotate := fun _ point => point
  evaluateMotion := fun pose _ _ _ => (pose,{},{})

/-- A compiled scene of one crate. -/
def crateScene (id : String) : Json :=
  .object [("schema",.string kCompiledSchema),("id",.string "hall"),("frame",.string "map"),
    ("geometries",.array [.object []]),
    ("models",.object [("crate",.object [("parts",.array [partValue (.string "link") (fromPose {}) 0 amber])])]),
    ("obstacles",.array [Obstacle.value ⟨id,"Crate","crate",{},.object [("type",.string "hold")]⟩]),
    ("ground",.object [("mode",.string "none")])]

/-- A new projection of the sample node. -/
def crateProjection : Projection := newProjection SceneStore.hallExternals "hall"

/-- Snapshot of a crate in a new projection. -/
def crateSnapshot (id : String) : SceneSnapshot :=
  match (outcome boxDrawing crateProjection (.snapshot (crateScene id) "e" 1 0)).1 with
  | .ok (some message) => message
  | _ => ⟨{},"","","",0,[],{mode := "none"},[]⟩

/-- The snapshot of a crate is made. -/
theorem crateSnapshot_made (id : String)
    (h : ((outcome boxDrawing crateProjection (.snapshot (crateScene id) "e" 1 0)).1.toOption.bind fun m => m).isSome=
      true) :
    (outcome boxDrawing crateProjection (.snapshot (crateScene id) "e" 1 0)).1=.ok (some (crateSnapshot id)) := by
  unfold crateSnapshot
  split
  · rename_i message hmessage
    exact hmessage
  · rename_i hother
    cases hrun : (outcome boxDrawing crateProjection (.snapshot (crateScene id) "e" 1 0)).1 with
    | ok message =>
      cases message with
      | some message => exact absurd hrun (hother message)
      | none =>
        rw [hrun] at h
        cases h
    | error e =>
      rw [hrun] at h
      cases h

/-- Two revisions of a scene and the first one again, each with its snapshot. -/
theorem outcomes_fresh_crates :
    outcomes boxDrawing crateProjection [.snapshot (crateScene "a") "e" 1 0,
        .definition (crateScene "a") "e" 1 (crateSnapshot "a"),.definition (crateScene "b") "e" 2 (crateSnapshot "b"),
        .definition (crateScene "a") "e" 1 (crateSnapshot "a")]=
      [Call.snapshot (crateScene "a") "e" 1 0,
        .definition (crateScene "a") "e" 1 (crateSnapshot "a"),.definition (crateScene "b") "e" 2 (crateSnapshot "b"),
        .definition (crateScene "a") "e" 1 (crateSnapshot "a")].map (outcome boxDrawing crateProjection) := by
  have ha := crateSnapshot_made "a" (by decide +kernel)
  have hb := crateSnapshot_made "b" (by decide +kernel)
  apply outcomes_fresh
  constructor
  · intro document epoch revision message hm
    simp only [List.mem_cons,List.not_mem_nil,Call.definition.injEq,reduceCtorEq,false_or,or_false] at hm
    rcases hm with ⟨rfl,_,_,rfl⟩ | ⟨rfl,_,_,rfl⟩ | ⟨rfl,_,_,rfl⟩
    · exact ⟨_,_,_,ha⟩
    · exact ⟨_,_,_,hb⟩
    · exact ⟨_,_,_,ha⟩
  · intro document epoch revision message hm
    simp only [List.mem_cons,List.not_mem_nil,Call.definition.injEq,reduceCtorEq,false_or,or_false] at hm
    rcases hm with ⟨_,_,rfl,_⟩ | ⟨_,_,rfl,_⟩ | ⟨_,_,rfl,_⟩
    · exact Or.inr (by decide)
    · exact Or.inr (by decide)
    · exact Or.inr (by decide)
  · intro document document' epoch revision message message' hm hm'
    simp only [List.mem_cons,List.not_mem_nil,Call.definition.injEq,reduceCtorEq,false_or,or_false] at hm hm'
    rcases hm with ⟨rfl,_,rfl,_⟩ | ⟨rfl,_,rfl,_⟩ | ⟨rfl,_,rfl,_⟩ <;>
      rcases hm' with ⟨rfl,_,hr,_⟩ | ⟨rfl,_,hr,_⟩ | ⟨rfl,_,hr,_⟩ <;> first | rfl | cases hr

/-- Number of markers that an output shows. -/
def markerCount : Output → ℕ
  | .markers messages => messages.length
  | _ => 0

/-- Whether calls returned, and how many markers they showed. -/
def sketch (made : Except Error (Option SceneSnapshot) × List Output) : Bool × ℕ :=
  (made.1.isOk,(made.2.map markerCount).sum)

/-- A second document under one revision keeps the frames of the first, a definition without epoch and
revision keeps what was published, and cached markers ignore a snapshot that was not made of the document. -/
theorem outcomes_stale :
    outcomes boxDrawing crateProjection [.definition (crateScene "a") "e" 1 (crateSnapshot "a"),
        .definition (crateScene "b") "e" 1 (crateSnapshot "b")]≠
      [Call.definition (crateScene "a") "e" 1 (crateSnapshot "a"),
        .definition (crateScene "b") "e" 1 (crateSnapshot "b")].map (outcome boxDrawing crateProjection) ∧
    outcomes boxDrawing crateProjection [.definition (crateScene "a") "e" 1 (crateSnapshot "a"),
        .definition (crateScene "a") "" 0 (crateSnapshot "a")]≠
      [Call.definition (crateScene "a") "e" 1 (crateSnapshot "a"),
        .definition (crateScene "a") "" 0 (crateSnapshot "a")].map (outcome boxDrawing crateProjection) ∧
    outcomes boxDrawing crateProjection [.definition (crateScene "a") "e" 1 (crateSnapshot "a"),
        .definition (crateScene "a") "e" 1 {crateSnapshot "a" with
          obstacles := (crateSnapshot "a").obstacles.map fun body => {body with parts := []}}]≠
      [Call.definition (crateScene "a") "e" 1 (crateSnapshot "a"),
        .definition (crateScene "a") "e" 1 {crateSnapshot "a" with
          obstacles := (crateSnapshot "a").obstacles.map fun body => {body with parts := []}}].map
        (outcome boxDrawing crateProjection) := by
  refine ⟨?_,?_,?_⟩
  · intro h
    have hsketch := congrArg (List.map sketch) h
    revert hsketch
    decide +kernel
  · intro h
    have hsketch := congrArg (List.map sketch) h
    revert hsketch
    decide +kernel
  · intro h
    have hsketch := congrArg (List.map sketch) h
    revert hsketch
    decide +kernel

end Runs

end Ros1Adapter.SceneProjectionCaches

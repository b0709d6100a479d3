import Ros1Adapter.RequestFingerprints
import Ros1Adapter.SceneCompile
import Ros1Adapter.SceneStoreValid

/-!
# Compilation loses nothing

A document without resources always compiles. Its geometry table has one entry
for each geometry text, and putting the geometries and the models of obstacles
back in place gives the document's models and obstacles again.
-/

namespace Ros1Adapter.SceneCompileLossless

open SceneJson SceneJsonText SceneDocument SceneDocumentNormal SceneFiles SceneFingerprint SceneCompile
open SceneService SceneServicePlaces RequestFingerprints PatternResiduals PythonFloat ActionRules

section Restoring

/-- The geometry that a compiled part refers to. -/
def partGeometry (geometries : List Json) (part : Json) : Json :=
  match part.valueOr "geometryIndex" .null with
  | .integer index => (geometries[index.toNat]?).getD .null
  | _ => .null

/-- A part with its geometry in place of the index. -/
def restoredPart (geometries : List Json) (part : Json) : Json :=
  .object [("id",part.valueOr "id" .null),("pose",part.valueOr "pose" .null),
    ("geometry",partGeometry geometries part),("color",part.valueOr "color" .null)]

/-- Parts of a compiled model. -/
def modelParts (model : Json) : List Json := (model.valueOr "parts" .null).items

/-- A model with its geometries in place. -/
def restoredModel (geometries : List Json) (model : Json) : Json :=
  .object [("parts",.array ((modelParts model).map (restoredPart geometries)))]

/-- Name of a generated model. -/
def isInline (name : String) : Bool := "__inline_".toList.isPrefixOf name.toList

/-- An obstacle with the parts of its generated model, or the model that it names. -/
def restoredShape (geometries : List Json) (models : Json) (name : String) : String × Json :=
  if isInline name then ("parts",(restoredModel geometries (models.valueOr name .null)).valueOr "parts" .null)
  else ("model",.string name)

/-- An obstacle with its shape in place. -/
def restoredObstacle (geometries : List Json) (models obstacle : Json) : Json :=
  .object [("id",obstacle.valueOr "id" .null),("name",obstacle.valueOr "name" .null),
    ("pose",obstacle.valueOr "pose" .null),
    restoredShape geometries models ((obstacle.valueOr "model" .null).text?.getD ""),
    ("motion",obstacle.valueOr "motion" .null)]

/-- Authored models of a compiled table, restored. -/
def restoredModels (geometries : List Json) (models : Json) : List (String × Json) :=
  (models.members.filter (fun m => !isInline m.1)).map (fun m => (m.1,restoredModel geometries m.2))

/-- Index of a compiled part below a count. -/
def indexBelow (count : ℕ) (part : Json) : Bool :=
  match part.valueOr "geometryIndex" .null with
  | .integer index => decide (0 ≤ index ∧ index < count)
  | _ => false

/-- A compiled document from which its source can be read off. -/
structure Lossless (source compiled : Json) : Prop where
  /-- Every part of every model refers to the table. -/
  indexed : ∀ m∈(compiled.valueOr "models" .null).members, ∀ part∈modelParts m.2,
    indexBelow (compiled.valueOr "geometries" .null).items.length part=true
  /-- Models with their geometries are the source's. -/
  models : restoredModels (compiled.valueOr "geometries" .null).items (compiled.valueOr "models" .null)=
    (source.valueOr "models" (.object [])).members
  /-- Obstacles with their parts are the source's. -/
  obstacles : (compiled.valueOr "obstacles" .null).items.map
    (restoredObstacle (compiled.valueOr "geometries" .null).items (compiled.valueOr "models" .null))=
      (source.valueOr "obstacles" .null).items
  /-- No two table entries have the same text. -/
  distinct : (compiled.valueOr "geometries" .null).items.Pairwise
    (fun a b => dumpJson pythonFloat a≠dumpJson pythonFloat b)

end Restoring

section Texts

/-- Registered geometries are written with finite numbers. -/
structure RegistryLaws (math : Math) : Prop where
  /-- Numbers of a converted geometry are finite. -/
  finite : ∀ value result, math.geometryRoundTrip value=.ok result → finite result=true

/-- Finite elements make a finite array. -/
theorem finiteItems_iff (items : List Json) : finiteItems items=true ↔ ∀ item∈items, finite item=true := by
  induction items with
  | nil => simp [finiteItems]
  | cons item rest ih => simp [finiteItems,ih]

/-- An array of finite doubles is finite. -/
theorem finite_floats {values : List Float} (h : ∀ x∈values, x.isFinite=true) : finite (floats values)=true := by
  refine (finiteItems_iff _).mpr ?_
  intro item hi
  obtain ⟨x,hx,rfl⟩ := List.mem_map.mp hi
  exact h x hx

/-- Components of a checked vector are finite. -/
theorem vector_finite {value : Json} {label : String} {count : ℕ} {values : List Float}
    (h : vector value label count=.ok values) : ∀ x∈values, x.isFinite=true :=
  fun x hx => (vector_bounded h x hx).1

/-- Components of checked vectors are finite. -/
theorem vectors_finite {label : String} {items : List Json} {points : List (List Float)}
    (h : vectors label items=.ok points) : ∀ point∈points, finite (floats point)=true := by
  induction items generalizing points with
  | nil =>
    cases h
    simp
  | cons item rest ih =>
    unfold vectors at h
    simp only [except_bind_ok] at h
    obtain ⟨head,hhead,tail,htail,h⟩ := h
    cases h
    intro point hp
    rcases List.mem_cons.mp hp with rfl | hp
    · exact finite_floats (vector_finite hhead)
    · exact ih htail point hp

variable {spell : Float → String} {math : Math}

/-- A convex mesh has finite numbers. -/
theorem convex_finite {value shape : Json} (h : convex math value=.ok shape) : finite shape=true := by
  unfold convex at h
  split at h
  · split at h
    · cases h
    rw [except_bind_ok] at h
    obtain ⟨vertices,hvertices,h⟩ := h
    dsimp only at h
    split at h
    · rename_i triangles _
      cases h
      have hv : finiteItems (vertices.map floats)=true := by
        rw [finiteItems_iff]
        intro item hi
        obtain ⟨point,hp,rfl⟩ := List.mem_map.mp hi
        exact vectors_finite hvertices point hp
      have ht : finiteItems (triangles.map .integer)=true := by
        rw [finiteItems_iff]
        intro item hi
        obtain ⟨n,_,rfl⟩ := List.mem_map.mp hi
        rfl
      simp [finite,finiteMembers,hv,ht]
    · cases h
  · cases h

/-- A round body has finite numbers. -/
theorem roundGeometry_finite {kind : String} {value shape : Json} (h : roundGeometry spell kind value=.ok shape) :
    finite shape=true := by
  unfold roundGeometry at h
  split at h
  · simp only [except_bind_ok] at h
    obtain ⟨_,_,radius,hr,h⟩ := h
    cases h
    have hradius := (number_ok hr).1
    simp [finite,finiteMembers,hradius]
  · simp only [except_bind_ok] at h
    obtain ⟨_,_,radius,hr,height,hh,h⟩ := h
    cases h
    have hradius := (number_ok hr).1
    have hheight := (number_ok hh).1
    simp [finite,finiteMembers,hradius,hheight]

/-- A ring has finite numbers. -/
theorem ringGeometry_finite {value shape : Json} (h : ringGeometry spell value=.ok shape) :
    finite shape=true := by
  unfold ringGeometry at h
  simp only [except_bind_ok] at h
  obtain ⟨_,_,raw,hraw,radii,hradii,tube,htube,h⟩ := h
  split at h
  · split at h
    · cases h
    cases h
    have htube' := (number_ok htube).1
    have hfinite := finite_floats (vector_finite hraw)
    rw [←ringRadii_again hradii] at hfinite
    simp [finite,finiteMembers] at hfinite ⊢
    exact ⟨hfinite,htube'⟩
  · cases h

/-- A validated geometry has finite numbers. -/
theorem geometry_finite (laws : RegistryLaws math) {value shape : Json} (h : geometry spell math value=.ok shape) :
    finite shape=true := by
  unfold geometry at h
  split at h
  · split at h
    · split at h
      · unfold boxGeometry at h
        simp only [except_bind_ok] at h
        obtain ⟨_,_,size,hsize,h⟩ := h
        split at h
        · cases h
        cases h
        have hfinite := finite_floats (vector_finite hsize)
        simp [finite,finiteMembers] at hfinite ⊢
        exact hfinite
      split at h
      · exact roundGeometry_finite h
      split at h
      · exact ringGeometry_finite h
      split at h
      · rw [except_bind_ok] at h
        obtain ⟨_,_,h⟩ := h
        exact convex_finite h
      split at h
      · unfold registeredGeometry at h
        rw [except_bind_ok] at h
        obtain ⟨_,_,h⟩ := h
        split at h
        · rename_i result hresult
          cases h
          exact laws.finite _ _ hresult
        · cases h
      · cases h
    · cases h
  · cases h

/-- A value of finite numbers has a JSON text. -/
theorem dumpJson_finite {value : Json} (h : finite value=true) : ∃ text, dumpJson pythonFloat value=.ok text := by
  obtain ⟨characters,hcharacters⟩ := dumpCharacters_finite pythonFloat value h
  unfold dumpJson
  rw [hcharacters]
  exact ⟨_,rfl⟩

end Texts

section Interning

/-- The externals with the spelling of the source. -/
def python (X : Externals) : Externals := {X with spell := pythonFloat}

/-- A compilation whose index list gives the position of each geometry text. -/
structure Interned (compiler : Compiler) : Prop where
  /-- Texts of the table, each with its position. -/
  indexed : ∃ keys : List String, compiler.indexes=keys.zipIdx ∧ keys.Nodup ∧
    compiler.geometries.map (dumpJson pythonFloat)=keys.map Except.ok

/-- A table behind another one. -/
def Extends (before after : Compiler) : Prop :=
  Interned after ∧ before.geometries <+: after.geometries

/-- Extensions follow each other. -/
theorem Extends.trans {first middle last : Compiler} (h : Extends first middle) (h' : Extends middle last) :
    Extends first last := ⟨h'.1,h.2.trans h'.2⟩

/-- A table extends itself. -/
theorem Extends.refl {compiler : Compiler} (h : Interned compiler) : Extends compiler compiler :=
  ⟨h,List.prefix_rfl⟩

/-- A position found by its key holds the key. -/
theorem lookup_zipIdx {keys : List String} {key : String} {start index : ℕ}
    (h : (keys.zipIdx start).lookup key=some index) : ∃ offset, index=start+offset ∧ keys[offset]?=some key := by
  induction keys generalizing start with
  | nil => simp at h
  | cons first rest ih =>
    rw [List.zipIdx_cons,List.lookup_cons] at h
    split at h
    · rename_i heq
      rw [beq_iff_eq] at heq
      cases h
      exact ⟨0,by omega,by simp [heq]⟩
    · obtain ⟨offset,hindex,hoffset⟩ := ih h
      exact ⟨offset+1,by omega,by simpa using hoffset⟩

/-- A key without a position is new. -/
theorem lookup_zipIdx_none {keys : List String} {key : String} {start : ℕ}
    (h : (keys.zipIdx start).lookup key=none) : key∉keys := by
  induction keys generalizing start with
  | nil => simp
  | cons first rest ih =>
    rw [List.zipIdx_cons,List.lookup_cons] at h
    split at h
    · cases h
    · rename_i hne
      have hrest := ih h
      simp only [beq_eq_false_iff_ne] at hne
      simp [hne,hrest]

variable {X : Externals}

/-- Interning a finite geometry returns a position that holds it. -/
theorem intern_holds {shape : Json} (hs : finite shape=true) {compiler : Compiler} (h : Interned compiler) :
    Meets (intern (python X) shape) compiler
      (fun index after => Extends compiler after ∧ after.geometries[index]?=some shape) (fun _ _ => False) := by
  obtain ⟨keys,hkeys,hnodup,htexts⟩ := h.indexed
  obtain ⟨key,hkey⟩ := dumpJson_finite hs
  have hlength : compiler.geometries.length=keys.length := by
    have hl := congrArg List.length htexts
    simpa using hl
  unfold intern
  rw [meets_bind,meets_ofResult]
  have hdump : dumpJson (python X).spell shape=.ok key := hkey
  rw [hdump]
  refine ⟨?_,fun _ he => by cases he⟩
  intro other hother
  cases hother
  rw [meets_bind,meets_get]
  dsimp only
  cases hl : compiler.indexes.lookup key with
  | some index =>
    rw [hkeys] at hl
    obtain ⟨offset,hindex,hoffset⟩ := lookup_zipIdx hl
    rw [Nat.zero_add] at hindex
    subst hindex
    have hat := congrArg (fun texts => texts[index]?) htexts
    simp only [List.getElem?_map,hoffset,Option.map_some] at hat
    cases hg : compiler.geometries[index]? with
    | none => simp [hg] at hat
    | some found =>
      rw [hg] at hat
      have hsame := dumpJson_injective pythonFloat_laws (Option.some.inj hat) hkey
      refine ⟨.refl h,?_⟩
      rw [hg,hsame]
  | none =>
    rw [hkeys] at hl
    have hnew := lookup_zipIdx_none hl
    refine ⟨⟨⟨keys ++ [key],?_,?_,?_⟩,List.prefix_append ..⟩,by simp⟩
    · simp [hkeys,List.zipIdx_append,hlength]
    · rw [List.nodup_append]
      refine ⟨hnodup,List.nodup_singleton key,?_⟩
      intro a ha b hb
      rw [List.mem_singleton.mp hb]
      rintro rfl
      exact hnew ha
    · simp [htexts,hkey]

/-- Distinct keys make texts pairwise different. -/
theorem Interned.distinct {compiler : Compiler} (h : Interned compiler) :
    compiler.geometries.Pairwise (fun a b => dumpJson pythonFloat a≠dumpJson pythonFloat b) := by
  obtain ⟨keys,_,hnodup,htexts⟩ := h.indexed
  have hmapped : (keys.map (Except.ok (ε := Error))).Nodup :=
    hnodup.map (fun _ _ heq => Except.ok.inj heq)
  rw [←htexts] at hmapped
  exact List.pairwise_map.mp hmapped

/-- An empty compilation has an empty index. -/
theorem interned_empty : Interned {} := ⟨[],rfl,List.nodup_nil,rfl⟩

end Interning

section Models

variable {X : Externals} {assets : Assets}

/-- Compiled parts that a table turns back into parts. -/
structure Restores (geometries : List Json) (compiled parts : List Json) : Prop where
  /-- The parts come back in order. -/
  restored : compiled.map (restoredPart geometries)=parts
  /-- Every part refers to the table. -/
  indexed : ∀ part∈compiled, indexBelow geometries.length part=true

/-- Parts that every larger table turns back. -/
def RestoredBy (compiler : Compiler) (compiled parts : List Json) : Prop :=
  ∀ geometries, compiler.geometries <+: geometries → Restores geometries compiled parts

/-- A larger table restores the same parts. -/
theorem RestoredBy.mono {before after : Compiler} {compiled parts : List Json} (h : RestoredBy before compiled parts)
    (he : Extends before after) : RestoredBy after compiled parts :=
  fun geometries hg => h geometries (he.2.trans hg)

/-- A part with the position of its geometry is restored. -/
theorem partValue_restored {compiler : Compiler} {index : ℕ} {shape : Json} (id placed color : Json)
    (h : compiler.geometries[index]?=some shape) :
    RestoredBy compiler [partValue id placed index color]
      [.object [("id",id),("pose",placed),("geometry",shape),("color",color)]] := by
  intro geometries hg
  have hat : geometries[index]?=some shape := by
    obtain ⟨more,rfl⟩ := hg
    have hlength := (List.getElem?_eq_some_iff.mp h).1
    rw [List.getElem?_append_left hlength]
    exact h
  have hlength : index<geometries.length := (List.getElem?_eq_some_iff.mp hat).1
  constructor
  · simp [restoredPart,partGeometry,partValue,Json.valueOr,hat]
  · intro part hp
    rw [List.mem_singleton.mp hp]
    simp [indexBelow,partValue,Json.valueOr,hlength]

/-- Restored parts in a row. -/
theorem RestoredBy.append {compiler : Compiler} {first second parts more : List Json}
    (h : RestoredBy compiler first parts) (h' : RestoredBy compiler second more) :
    RestoredBy compiler (first ++ second) (parts ++ more) := by
  intro geometries hg
  have hfirst := h geometries hg
  have hsecond := h' geometries hg
  constructor
  · rw [List.map_append,hfirst.restored,hsecond.restored]
  · intro part hp
    rcases List.mem_append.mp hp with hp | hp
    · exact hfirst.indexed part hp
    · exact hsecond.indexed part hp

/-- Compiled parts are restored. -/
theorem partsFromAnalytic_restored (laws : RegistryLaws X.math) {parts : List Json}
    (hp : ∀ part∈parts, CanonicalPart (python X) part) {compiler : Compiler} (h : Interned compiler) :
    Meets (partsFromAnalytic (python X) parts) compiler
      (fun found after => Extends compiler after ∧ RestoredBy after found parts) (fun _ _ => False) := by
  induction parts generalizing compiler with
  | nil => exact ⟨.refl h,fun _ _ => ⟨rfl,by simp⟩⟩
  | cons part rest ih =>
    obtain ⟨id,placed,shape,_,rfl,_,value,hshape⟩ := hp part (List.mem_cons_self ..)
    have hmembers : ∀ key item, (Json.object [("id",.string id),("pose",placed),("geometry",shape),
        ("color",amber)]).member key=some item → (Json.object [("id",.string id),("pose",placed),
        ("geometry",shape),("color",amber)]).valueOr key .null=item := by
      intro key item hk
      simp [Json.valueOr,hk]
    unfold partsFromAnalytic
    rw [hmembers "geometry" shape (by simp)]
    apply (intern_holds (geometry_finite laws hshape) h).bind
    rintro index middle ⟨hextends,hindex⟩
    have hrest : ∀ other∈rest, CanonicalPart (python X) other := fun other ho => hp other (List.mem_cons_of_mem _ ho)
    apply (ih hrest hextends.1).bind
    rintro tail after ⟨hafter,htail⟩
    rw [hmembers "id" (.string id) (by simp),hmembers "pose" placed (by simp),hmembers "color" amber (by simp)]
    have hhead := partValue_restored (.string id) placed amber hindex
    exact ⟨hextends.trans hafter,(hhead.mono hafter).append htail⟩

/-- A compiled model that is restored. -/
def ModelRestored (compiler : Compiler) (model parts : Json) : Prop :=
  ∃ compiled, model=.object [("parts",.array compiled)] ∧ RestoredBy compiler compiled parts.items

/-- The parts of a model are restored. -/
theorem analyticModel_restored (laws : RegistryLaws X.math) {value parts raw : Json}
    (hv : value.member "parts"=some parts)
    (hp : normalizeParts (python X).spell (python X).math raw=.ok parts) {compiler : Compiler} (h : Interned compiler) :
    Meets (analyticModel (python X) value) compiler
      (fun model after => Extends compiler after ∧ ModelRestored after model parts) (fun _ _ => False) := by
  have hvalue : value.valueOr "parts" .null=parts := by
    unfold Json.valueOr
    rw [hv]
    rfl
  unfold analyticModel
  rw [hvalue]
  apply (partsFromAnalytic_restored laws (normalizeParts_canonical hp) h).bind
  rintro found after ⟨hextends,hfound⟩
  exact ⟨hextends,found,rfl,hfound⟩

/-- Normalized parts are an array. -/
theorem normalizeParts_array {spell : Float → String} {math : Math} {raw parts : Json}
    (h : normalizeParts spell math raw=.ok parts) : parts=.array parts.items := by
  unfold normalizeParts at h
  split at h
  · split at h
    · cases h
    · rw [except_bind_ok] at h
      obtain ⟨normalized,_,h⟩ := h
      cases h
      rfl
  · cases h

/-- Restored parts make the model again. -/
theorem ModelRestored.value {compiler : Compiler} {model parts : Json} {geometries : List Json}
    (h : ModelRestored compiler model parts) (ha : parts=.array parts.items)
    (hg : compiler.geometries <+: geometries) : restoredModel geometries model=.object [("parts",parts)] := by
  obtain ⟨compiled,rfl,hrestored⟩ := h
  unfold restoredModel modelParts
  have hparts : (Json.object [("parts",.array compiled)]).valueOr "parts" .null=.array compiled := by
    simp [Json.valueOr]
  rw [hparts]
  show Json.object [("parts",.array (compiled.map (restoredPart geometries)))]=_
  rw [(hrestored geometries hg).restored,←ha]

/-- Parts of a restored model refer to the table. -/
theorem ModelRestored.indexed {compiler : Compiler} {model parts : Json} {geometries : List Json}
    (h : ModelRestored compiler model parts) (hg : compiler.geometries <+: geometries) :
    ∀ part∈modelParts model, indexBelow geometries.length part=true := by
  obtain ⟨compiled,rfl,hrestored⟩ := h
  have hparts : modelParts (.object [("parts",.array compiled)])=compiled := by
    simp [modelParts,Json.valueOr,Json.items]
  rw [hparts]
  exact (hrestored geometries hg).indexed

/-- A larger table restores the same model. -/
theorem ModelRestored.mono {before after : Compiler} {model parts : Json} (h : ModelRestored before model parts)
    (he : Extends before after) : ModelRestored after model parts := by
  obtain ⟨compiled,rfl,hrestored⟩ := h
  exact ⟨compiled,rfl,hrestored.mono he⟩

end Models

section Names

/-- An identifier starts with a letter or a digit. -/
theorem identifier_head {value : Json} {label text : String} (h : identifier value label=.ok text) :
    ∃ first rest, text.toList=first::rest ∧ (isLetter first || isDigit first)=true := by
  unfold identifier at h
  split at h
  · split at h
    · rename_i other hmatch
      cases h
      unfold Pattern.matchesText identifierPattern at hmatch
      simp only [Pattern.residuals] at hmatch
      cases ht : text.toList with
      | nil => simp [ht] at hmatch
      | cons first rest =>
        rw [ht] at hmatch
        refine ⟨first,rest,rfl,?_⟩
        by_contra hne
        rw [Bool.not_eq_true] at hne
        simp [hne] at hmatch
    · cases h
  · cases h

/-- An identifier is not the name of a generated model. -/
theorem identifier_not_inline {value : Json} {label text : String} (h : identifier value label=.ok text) :
    isInline text=false := by
  obtain ⟨first,rest,htext,hfirst⟩ := identifier_head h
  unfold isInline
  rw [htext]
  cases hinline : "__inline_".toList.isPrefixOf (first::rest) with
  | false => rfl
  | true =>
    have hhead : '_'=first := by
      have hlist : "__inline_".toList= '_' :: "_inline_".toList := by decide
      rw [hlist,List.isPrefixOf_cons_cons,Bool.and_eq_true,beq_iff_eq] at hinline
      exact hinline.1
    rw [←hhead] at hfirst
    revert hfirst
    decide

/-- A generated name is recognised. -/
theorem isInline_name (text : String) : isInline ("__inline_" ++ text)=true := by
  unfold isInline
  rw [String.toList_append,List.isPrefixOf_iff_prefix]
  exact List.prefix_append _ _

/-- Generated names differ when the identities do. -/
theorem inline_injective {first second : String} (h : "__inline_" ++ first="__inline_" ++ second) : first=second := by
  have hlists := congrArg String.toList h
  rw [String.toList_append,String.toList_append] at hlists
  exact String.toList_inj.mp (List.append_cancel_left hlists)

/-- A name is found where it stands first. -/
theorem member_append_here {members more : List (String × Json)} {name : String} (item : Json)
    (h : name∉members.map Prod.fst) : (Json.object (members ++ (name,item)::more)).member name=some item := by
  show (members ++ (name,item)::more).lookup name=some item
  induction members with
  | nil => simp
  | cons m rest ih =>
    obtain ⟨key,value⟩ := m
    rw [List.map_cons,List.mem_cons,not_or] at h
    have hne : (name==key)=false := by simpa using h.1
    rw [List.cons_append,List.lookup_cons,hne]
    exact ih h.2

/-- Assigning a new name appends a member. -/
theorem setMember_new {members : List (String × Json)} {name : String} (item : Json)
    (h : name∉members.map Prod.fst) : Json.setMember name item members=members ++ [(name,item)] := by
  induction members with
  | nil => rfl
  | cons m rest ih =>
    obtain ⟨key,value⟩ := m
    rw [List.map_cons,List.mem_cons,not_or] at h
    unfold Json.setMember
    rw [if_neg (Ne.symm h.1),ih h.2,List.cons_append]

/-- A table contains the names of its members. -/
theorem contains_iff {members : List (String × Json)} {name : String} :
    (Json.object members).contains name=true ↔ name∈members.map Prod.fst := by
  unfold Json.contains
  show (members.lookup name).isSome=true ↔ _
  induction members with
  | nil => simp
  | cons m rest ih =>
    obtain ⟨key,value⟩ := m
    rw [List.lookup_cons]
    by_cases hkey : name=key
    · simp [hkey]
    · have hne : (name==key)=false := by simpa using hkey
      rw [hne]
      simp only [List.map_cons,List.mem_cons,hkey,false_or]
      exact ih

end Names

section Tables

variable {X : Externals} {assets : Assets}

/-- A compiled model under its authored name. -/
structure AuthoredModel (compiler : Compiler) (compiled authored : String × Json) : Prop where
  /-- The name stays. -/
  name : compiled.1=authored.1
  /-- The name is not generated. -/
  plain : isInline authored.1=false
  /-- The parts are restored. -/
  parts : ∃ parts, parts=.array parts.items ∧ authored.2=.object [("parts",parts)] ∧
    ModelRestored compiler compiled.2 parts

/-- A larger table restores the same authored model. -/
theorem AuthoredModel.mono {before after : Compiler} {compiled authored : String × Json}
    (h : AuthoredModel before compiled authored) (he : Extends before after) :
    AuthoredModel after compiled authored := by
  obtain ⟨parts,harray,hauthored,hrestored⟩ := h.parts
  exact ⟨h.name,h.plain,parts,harray,hauthored,hrestored.mono he⟩

/-- Compiled models are restored in order. -/
theorem compileModels_restored (laws : RegistryLaws X.math) (root : Path) {members defined : List (String × Json)}
    (hm : modelMembers (python X).spell (python X).math members=.ok defined)
    (hr : ∀ m∈defined, m.2.contains "resource"=false) {compiler : Compiler} (h : Interned compiler) :
    Meets (compileModels (python X) assets root defined) compiler
      (fun found after => Extends compiler after ∧ List.Forall₂ (AuthoredModel after) found defined)
      (fun _ _ => False) := by
  induction members generalizing defined compiler with
  | nil =>
    cases hm
    exact ⟨.refl h,.nil⟩
  | cons m rest ih =>
    obtain ⟨key,value⟩ := m
    unfold modelMembers at hm
    simp only [except_bind_ok] at hm
    obtain ⟨name,hname,entry,hentry,tail,htail,hm⟩ := hm
    cases hm
    have hplain := hr (name,entry) (List.mem_cons_self ..)
    have hparts : ∃ raw parts, normalizeParts (python X).spell (python X).math raw=.ok parts ∧
        entry=.object [("parts",parts)] := by
      unfold modelEntry at hentry
      rw [except_bind_ok] at hentry
      obtain ⟨_,_,hentry⟩ := hentry
      split at hentry
      · cases hentry
      split at hentry
      · rw [except_bind_ok] at hentry
        obtain ⟨reference,_,hentry⟩ := hentry
        cases hentry
        simp [Json.contains] at hplain
      · rw [except_bind_ok] at hentry
        obtain ⟨parts,hparts,hentry⟩ := hentry
        exact ⟨_,parts,hparts,(Except.ok.inj hentry).symm⟩
    obtain ⟨raw,parts,hraw,rfl⟩ := hparts
    unfold compileModels compileModel
    have hnone : (Json.object [("parts",parts)]).member "resource"=none := by simp
    rw [hnone]
    apply (analyticModel_restored laws (member_here ..) hraw h).bind
    rintro model middle ⟨hextends,hmodel⟩
    have hrest : ∀ other∈tail, other.2.contains "resource"=false := fun other ho => hr other (List.mem_cons_of_mem _ ho)
    apply (ih htail hrest hextends.1).bind
    rintro found after ⟨hafter,hfound⟩
    have hhead : AuthoredModel middle (name,model) (name,.object [("parts",parts)]) :=
      ⟨rfl,identifier_not_inline hname,parts,normalizeParts_array hraw,rfl,hmodel⟩
    exact ⟨hextends.trans hafter,.cons (hhead.mono hafter) hfound⟩

/-- Identity text of an obstacle. -/
def idText (item : Json) : String := (item.valueOr "id" .null).text?.getD ""

/-- Compiled obstacles with the models generated for them. -/
structure ObstaclesRestored (members : List (String × Json)) (items : List Json) (found : Json × List Json)
    (added : List (String × Json)) (after : Compiler) : Prop where
  /-- Generated models stand behind the others. -/
  table : found.1=.object (members ++ added)
  /-- Generated models are recognised by their names and restored. -/
  generated : ∀ m∈added, isInline m.1=true ∧ ∃ parts, ModelRestored after m.2 parts
  /-- The obstacles come back in order. -/
  restored : ∀ geometries, after.geometries <+: geometries →
    found.2.map (restoredObstacle geometries found.1)=items

/-- Compiled obstacles are restored. -/
theorem compileObstacles_restored (laws : RegistryLaws X.math) {items : List Json}
    (hi : ∀ item∈items, CanonicalObstacle (python X).spell (python X).math item)
    (hn : (items.map idText).Nodup) {members : List (String × Json)}
    (hf : ∀ item∈items, inlineName item∉members.map Prod.fst) {compiler : Compiler} (h : Interned compiler) :
    Meets (compileObstacles (python X) (.object members) items) compiler
      (fun found after => Extends compiler after ∧ ∃ added, ObstaclesRestored members items found added after)
      (fun _ _ => False) := by
  induction items generalizing members compiler with
  | nil => exact ⟨.refl h,[],by simp,by simp,fun _ _ => rfl⟩
  | cons item rest ih =>
    rw [List.map_cons,List.nodup_cons] at hn
    have hirest : ∀ other∈rest, CanonicalObstacle (python X).spell (python X).math other :=
      fun other ho => hi other (List.mem_cons_of_mem _ ho)
    obtain ⟨value,hv⟩ := hi item (List.mem_cons_self ..)
    obtain ⟨id,name,initial,movement,shape,rfl,_,_,hshape⟩ := obstacle_members hv
    have hfresh := hf _ (List.mem_cons_self ..)
    unfold compileObstacles obstacleModel
    unfold obstacleShape at hshape
    split at hshape
    · rw [except_bind_ok] at hshape
      obtain ⟨model,hmodel,hshape⟩ := hshape
      cases hshape
      have hmember : (Json.object [("id",.string id),("name",.string name),("pose",initial),
          ("model",.string model),("motion",movement)]).member "model"=some (.string model) := by simp
      have hplain := identifier_not_inline hmodel
      rw [hmember]
      apply (ih hirest hn.2 (fun other ho => hf other (List.mem_cons_of_mem _ ho)) h).bind
      rintro tail after ⟨hextends,added,htail⟩
      refine ⟨hextends,added,htail.table,htail.generated,?_⟩
      intro geometries hg
      rw [List.map_cons,htail.restored geometries hg]
      simp [restoredObstacle,restoredShape,compiledObstacle,Json.valueOr,Json.text?,hplain]
    · rw [except_bind_ok] at hshape
      obtain ⟨parts,hparts,hshape⟩ := hshape
      cases hshape
      have hnone : (Json.object [("id",.string id),("name",.string name),("pose",initial),
          ("parts",parts),("motion",movement)]).member "model"=none := by simp
      have hid : idText (Json.object [("id",.string id),("name",.string name),("pose",initial),
          ("parts",parts),("motion",movement)])=id := by simp [idText,Json.valueOr,Json.text?]
      have hname : inlineName (Json.object [("id",.string id),("name",.string name),("pose",initial),
          ("parts",parts),("motion",movement)])="__inline_" ++ id := congrArg ("__inline_" ++ ·) hid
      rw [hname] at hfresh
      rw [hid] at hn
      have habsent : (Json.object members).contains ("__inline_" ++ id)=false := by
        rw [←Bool.not_eq_true,contains_iff]
        exact hfresh
      rw [hnone,hname]
      dsimp only
      rw [habsent,if_neg Bool.false_ne_true,meets_bind,meets_bind]
      refine (analyticModel_restored laws (by simp) hparts h).mono ?_ (fun _ _ hfalse => hfalse)
      rintro model middle ⟨hextends,hmodel⟩
      have htable : (Json.object members).set ("__inline_" ++ id) model=
          .object (members ++ [("__inline_" ++ id,model)]) := congrArg Json.object (setMember_new model hfresh)
      have hfrest : ∀ other∈rest, inlineName other∉(members ++ [("__inline_" ++ id,model)]).map Prod.fst := by
        intro other ho hin
        rw [List.map_append,List.mem_append] at hin
        rcases hin with hin | hin
        · exact hf other (List.mem_cons_of_mem _ ho) hin
        · have hsame := inline_injective (List.mem_singleton.mp hin)
          exact hn.1 (List.mem_map.mpr ⟨other,ho,hsame⟩)
      show Meets (do
        let tail ← compileObstacles (python X) ((Json.object members).set ("__inline_" ++ id) model) rest
        return (tail.1,_::tail.2)) middle _ _
      rw [htable]
      apply (ih hirest hn.2 hfrest hextends.1).bind
      rintro tail after ⟨hafter,added,htail⟩
      have hwhole : tail.1=.object (members ++ ("__inline_" ++ id,model)::added) := by
        rw [htail.table,List.append_assoc,List.singleton_append]
      refine ⟨hextends.trans hafter,("__inline_" ++ id,model)::added,hwhole,?_,?_⟩
      · intro m hm
        rcases List.mem_cons.mp hm with rfl | hm
        · exact ⟨isInline_name id,parts,hmodel.mono hafter⟩
        · exact htail.generated m hm
      · intro geometries hg
        have hlookup : tail.1.valueOr ("__inline_" ++ id) .null=model := by
          unfold Json.valueOr
          rw [hwhole,member_append_here model hfresh]
          rfl
        have hmodelback := (hmodel.mono hafter).value (normalizeParts_array hparts) hg
        have hpartsback : (Json.object [("parts",parts)]).valueOr "parts" .null=parts := by simp [Json.valueOr]
        rw [List.map_cons,htail.restored geometries hg]
        have hshapeback : restoredShape geometries tail.1 ("__inline_" ++ id)=("parts",parts) := by
          unfold restoredShape
          rw [if_pos (isInline_name id),hlookup,hmodelback,hpartsback]
        simp [restoredObstacle,compiledObstacle,Json.valueOr,Json.text?,hshapeback]

end Tables

section Documents

variable {X : Externals} (assets : Assets)

/-- Identities of obstacles are their texts. -/
theorem obstacleIds_text {items : List Json} {ids : List String} (h : obstacleIds items=.ok ids) :
    ids=items.map idText := by
  induction items generalizing ids with
  | nil =>
    cases h
    rfl
  | cons item rest ih =>
    unfold obstacleIds at h
    simp only [except_bind_ok] at h
    obtain ⟨id,hid,tail,htail,h⟩ := h
    cases h
    have hhead : idText item=id := by
      unfold obstacleId Json.atKey at hid
      unfold idText Json.valueOr
      cases hm : item.member "id" with
      | none => simp [hm] at hid
      | some found =>
        rw [hm] at hid
        cases found with
        | string text => exact Except.ok.inj hid
        | _ => cases hid
    rw [ih htail,List.map_cons,hhead]

/-- Checked obstacles have distinct identities. -/
theorem checked_nodup {items : List Json} (h : checkObstacleSet items=.ok ()) : (items.map idText).Nodup := by
  obtain ⟨_,⟨ids,hids,hnodup⟩,_⟩ := (SceneStoreValid.checkObstacleSet_iff items).mp h
  rw [←obstacleIds_text hids]
  exact hnodup

/-- The model table of a document comes from the validator. -/
theorem Parts.defined_members {p : Parts} {spell : Float → String} {math : Math} (hp : p.Canonical spell math) :
    ∃ members defined, modelMembers spell math members=.ok defined ∧ p.defined=.object defined := by
  cases hm : p.models with
  | none => exact ⟨[],[],rfl,by unfold Parts.defined; rw [hm]; rfl⟩
  | some table =>
    obtain ⟨value,hv⟩ := hp.models table hm
    unfold SceneDocument.models at hv
    split at hv
    · rw [except_bind_ok] at hv
      obtain ⟨defined,hd,hv⟩ := hv
      cases hv
      exact ⟨_,defined,hd,by unfold Parts.defined; rw [hm]; rfl⟩
    · cases hv

/-- Authored models have no generated names. -/
theorem authored_plain {compiler : Compiler} {found defined : List (String × Json)}
    (h : List.Forall₂ (AuthoredModel compiler) found defined) : ∀ name∈found.map Prod.fst, isInline name=false := by
  induction h with
  | nil => simp
  | cons hm _ ih =>
    intro name hname
    rw [List.map_cons,List.mem_cons] at hname
    rcases hname with rfl | hname
    · rw [hm.name,hm.plain]
    · exact ih name hname

/-- Parts of authored models refer to the table. -/
theorem authored_indexed {compiler : Compiler} {found defined : List (String × Json)} {geometries : List Json}
    (h : List.Forall₂ (AuthoredModel compiler) found defined) (hg : compiler.geometries <+: geometries) :
    ∀ m∈found, ∀ part∈modelParts m.2, indexBelow geometries.length part=true := by
  induction h with
  | nil => simp
  | cons hm _ ih =>
    obtain ⟨parts,_,_,hrestored⟩ := hm.parts
    intro m hmem
    rcases List.mem_cons.mp hmem with rfl | hmem
    · exact hrestored.indexed hg
    · exact ih m hmem

/-- Authored models come back under their names, in front of the generated ones. -/
theorem restoredModels_authored {compiler : Compiler} {found defined added : List (String × Json)}
    {geometries : List Json} (h : List.Forall₂ (AuthoredModel compiler) found defined)
    (ha : ∀ m∈added, isInline m.1=true) (hg : compiler.geometries <+: geometries) :
    restoredModels geometries (.object (found ++ added))=defined := by
  have hadded : added.filter (fun m => !isInline m.1)=[] := by
    rw [List.filter_eq_nil_iff]
    intro m hm
    simp [ha m hm]
  unfold restoredModels
  show ((found ++ added).filter (fun m => !isInline m.1)).map (fun m => (m.1,restoredModel geometries m.2))=defined
  rw [List.filter_append,hadded,List.append_nil]
  induction h with
  | nil => rfl
  | @cons compiled authored found defined hm hrest ih =>
    obtain ⟨parts,harray,hauthored,hrestored⟩ := hm.parts
    have hplain : isInline compiled.1=false := by rw [hm.name,hm.plain]
    rw [List.filter_cons_of_pos (by simp [hplain]),List.map_cons,ih,hm.name,hrestored.value harray hg,←hauthored]

/-- Compilation of a canonical document without resources loses nothing. -/
theorem compileSource_lossless (laws : RegistryLaws X.math) (root : Path) {p : Parts}
    (hp : p.Canonical (python X).spell (python X).math) (hr : usesResource p.defined=false) :
    Meets (compileSource (python X) assets root p.document) {}
      (fun compiled _ => Lossless p.document compiled) (fun _ _ => False) := by
  obtain ⟨members,defined,hmembers,hdefined⟩ := Parts.defined_members hp
  have hplain : ∀ m∈defined, m.2.contains "resource"=false := by
    unfold usesResource at hr
    rw [hdefined] at hr
    intro m hm
    rw [←Bool.not_eq_true]
    exact (List.any_eq_false.mp hr) m hm
  have hobstacles : p.document.valueOr "obstacles" .null=.array p.obstacles := by simp [Parts.document,Json.valueOr]
  unfold compileSource
  rw [Parts.valueOr_models,hdefined,hobstacles]
  apply (compileModels_restored laws root hmembers hplain interned_empty).bind
  rintro authored middle ⟨hextends,hauthored⟩
  have hnames := authored_plain hauthored
  have hfresh : ∀ item∈p.obstacles, inlineName item∉authored.map Prod.fst := by
    intro item _ hin
    have hinline : isInline (inlineName item)=true := isInline_name _
    rw [hnames _ hin] at hinline
    cases hinline
  apply (compileObstacles_restored laws hp.obstacles (checked_nodup hp.checked) hfresh hextends.1).bind
  rintro ⟨table,obstacles⟩ after ⟨hafter,added,htable,hgenerated,hrestored⟩
  have hnow := List.prefix_rfl (l := after.geometries)
  have hauthored' : List.Forall₂ (AuthoredModel after) authored defined :=
    hauthored.imp (fun _ _ h => h.mono hafter)
  have hmodels : ∀ {id frame ground : Json}, ((Json.object [("schema",.string kCompiledSchema),("id",id),
      ("frame",frame),("ground",ground),("geometries",.array after.geometries),("models",table),
      ("obstacles",.array obstacles)]).valueOr "models" .null)=.object (authored ++ added) := by
    intro id frame ground
    rw [←htable]
    simp [Json.valueOr]
  have hgeometries : ∀ {id frame ground : Json}, ((Json.object [("schema",.string kCompiledSchema),("id",id),
      ("frame",frame),("ground",ground),("geometries",.array after.geometries),("models",table),
      ("obstacles",.array obstacles)]).valueOr "geometries" .null).items=after.geometries := by
    intro id frame ground
    simp [Json.valueOr,Json.items]
  rw [meets_bind,meets_get]
  constructor
  · rw [hmodels,hgeometries]
    intro m hm
    rcases List.mem_append.mp hm with hm | hm
    · exact authored_indexed hauthored' hnow m hm
    · obtain ⟨_,_,hparts⟩ := hgenerated m hm
      exact hparts.indexed hnow
  · rw [hmodels,hgeometries,Parts.valueOr_models,hdefined]
    exact restoredModels_authored hauthored' (fun m hm => (hgenerated m hm).1) hnow
  · rw [hmodels,hgeometries,hobstacles,←htable]
    have hlist := hrestored after.geometries hnow
    simpa [Json.valueOr,Json.items] using hlist
  · rw [hgeometries]
    exact hafter.1.distinct

/-- A document without resources compiles, and nothing of it is lost. -/
theorem compile_lossless (laws : RegistryLaws X.math) (root : Option Path) {value source : Json}
    (hs : SceneDocument.document pythonFloat X.math value=.ok source)
    (hr : usesResource (source.valueOr "models" (.object []))=false) :
    ∃ compiled, compile (python X) assets root value=.ok compiled ∧ Lossless source compiled := by
  obtain ⟨p,rfl,hp⟩ := document_canonical hs
  have hroot : assetRoot assets root (p.document.valueOr "models" (.object []))=.ok (root.getD []) := by
    unfold assetRoot
    rw [hr]
    rfl
  rw [Parts.valueOr_models] at hr
  have hsource := compileSource_lossless assets laws (root.getD []) hp hr
  unfold Meets at hsource
  have hdocument : SceneDocument.document (python X).spell (python X).math value=.ok p.document := hs
  unfold compile
  rw [hdocument]
  simp only [bind,Except.bind,hroot]
  split at hsource
  · rename_i compiled after hcompiled
    rw [hcompiled]
    exact ⟨compiled,rfl,hsource⟩
  · exact hsource.elim

/-- Asset directories without files. -/
def emptyAssets : Assets :=
  ⟨fun _ => false,fun _ => false,fun _ => none,fun _ => .missing,fun outer _ => outer⟩

/-- Parts with one unit box. -/
def boxParts : Json :=
  .array [.object [("id",.string "body"),("geometry",.object [("type",.string "box"),
    ("size",.array [.integer 1,.float 0.5,.float 2])])]]

/-- A scene with a model, an obstacle of that model and an obstacle of the same shape. -/
def boxScene : Json :=
  .object [("schema",.string kSchema),("id",.string "hall"),("frame",.string "map"),
    ("obstacles",.array [.object [("id",.string "first"),("model",.string "crate")],
      .object [("id",.string "second"),("parts",boxParts)]]),
    ("models",.object [("crate",.object [("parts",boxParts)])])]

/-- The sample scene compiles without loss. -/
theorem compile_lossless_boxes :
    ∃ source compiled, SceneDocument.document pythonFloat SceneStore.hallExternals.math boxScene=.ok source ∧
      compile (python SceneStore.hallExternals) emptyAssets none boxScene=.ok compiled ∧ Lossless source compiled := by
  have laws : RegistryLaws SceneStore.hallExternals.math := ⟨fun _ _ h => by cases h⟩
  have hvalid : (SceneDocument.document pythonFloat SceneStore.hallExternals.math boxScene).isOk=true := by decide +kernel
  have hplain : (SceneDocument.document pythonFloat SceneStore.hallExternals.math boxScene).toOption.all
      (fun source => !usesResource (source.valueOr "models" (.object [])))=true := by decide +kernel
  cases hs : SceneDocument.document pythonFloat SceneStore.hallExternals.math boxScene with
  | error error =>
    rw [hs] at hvalid
    cases hvalid
  | ok source =>
    rw [hs] at hplain
    have hunused : usesResource (source.valueOr "models" (.object []))=false := Bool.not_eq_true' _ ▸ hplain
    obtain ⟨compiled,hcompiled,hlossless⟩ := compile_lossless emptyAssets laws none hs hunused
    exact ⟨source,compiled,rfl,hcompiled,hlossless⟩

end Documents

end Ros1Adapter.SceneCompileLossless

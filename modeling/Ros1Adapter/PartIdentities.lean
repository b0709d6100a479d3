import Ros1Adapter.SceneCompileLossless

/-!
# Identities of compiled parts

A part of an SDF model is called after the models around it, its link and its
collision, joined by underscores, and the pieces of a mesh after the first one
add their number. Two pieces share an identity exactly when their names fall
into the same words at the underscores.
-/

namespace Ros1Adapter.PartIdentities

open SceneJson SceneDocument SceneDocumentNormal SceneFiles SceneCompile SceneFingerprint ActionRules

section Words

/-- Words of a text between underscores. -/
def wordsOf (text : String) : List (List Char) := text.toList.splitOn '_'

/-- A piece of a collision by its names and its number. -/
structure Piece where
  /-- Names of the models around its link. -/
  models : List String
  /-- Name of its link. -/
  link : String
  /-- Name of its collision. -/
  collision : String
  /-- Number in its mesh. -/
  number : ℕ

/-- Words of the names of a piece and of its number; the first piece of a mesh has none. -/
def Piece.words (p : Piece) : List (List Char) :=
  p.models.flatMap wordsOf ++ wordsOf p.link ++ wordsOf p.collision ++
    if p.number=0 then [] else [(toString p.number).toList]

/-- Text in front of the parts of a nested model. -/
def modelsText (models : List String) : String := models.foldl (fun text name => text ++ name ++ "_") ""

/-- Identity of a piece. -/
def Piece.id (p : Piece) : String := pieceId (modelsText p.models ++ p.link ++ "_" ++ p.collision) p.number

/-- Texts joined by an underscore fall into the words of both. -/
theorem wordsOf_join (first second : String) : wordsOf (first ++ "_" ++ second)=wordsOf first ++ wordsOf second := by
  have htext : (first ++ "_" ++ second).toList=first.toList ++ '_' :: second.toList := by
    rw [String.toList_append,String.toList_append]
    simp
  unfold wordsOf
  rw [htext]
  exact List.splitOnP_append_cons _ _ (by decide)

/-- A text is known by its words. -/
theorem wordsOf_injective {first second : String} (h : wordsOf first=wordsOf second) : first=second := by
  have hjoined := congrArg (['_'].intercalate) h
  unfold wordsOf at hjoined
  rw [List.intercalate_splitOn,List.intercalate_splitOn] at hjoined
  exact String.toList_inj.mp hjoined

/-- A number is one word. -/
theorem wordsOf_number (n : ℕ) : wordsOf (toString n)=[(toString n).toList] := by
  have hdigits : ∀ word∈[(toString n).toList], '_'∉word := by
    intro word hw hmem
    rw [List.mem_singleton.mp hw] at hmem
    rcases SceneFingerprint.integer_characters (n : Int) '_' hmem with hdigit | hsign
    · exact absurd hdigit (by decide)
    · exact absurd hsign (by decide)
  have hsplit := List.splitOn_intercalate '_' hdigits (List.cons_ne_nil _ _)
  rw [List.intercalate_singleton] at hsplit
  exact hsplit

/-- Words behind the text of some models. -/
theorem wordsOf_models (models : List String) (text rest : String) :
    wordsOf (models.foldl (fun text name => text ++ name ++ "_") text ++ rest)=
      match models with
      | [] => wordsOf (text ++ rest)
      | name::others => wordsOf (text ++ name) ++ others.flatMap wordsOf ++ wordsOf rest := by
  induction models generalizing text with
  | nil => rfl
  | cons name others ih =>
    rw [List.foldl_cons,ih]
    cases others with
    | nil => simp [wordsOf_join]
    | cons next others =>
      dsimp only
      rw [wordsOf_join]
      simp [List.append_assoc]

/-- The identity of a piece falls into its words. -/
theorem Piece.id_words (p : Piece) : wordsOf p.id=p.words := by
  have hbase : wordsOf (modelsText p.models ++ p.link ++ "_" ++ p.collision)=
      p.models.flatMap wordsOf ++ wordsOf p.link ++ wordsOf p.collision := by
    rw [wordsOf_join]
    unfold modelsText
    rw [wordsOf_models]
    cases p.models with
    | nil | cons _ _ => simp
  unfold Piece.id Piece.words pieceId
  by_cases hn : p.number=0
  · rw [if_pos hn,if_pos hn,hbase,List.append_nil]
  · rw [if_neg hn,if_neg hn,wordsOf_join,hbase,wordsOf_number]

/-- Pieces share an identity exactly when they share their words. -/
theorem Piece.id_eq_iff (p q : Piece) : p.id=q.id ↔ p.words=q.words := by
  rw [←p.id_words,←q.id_words]
  exact ⟨congrArg wordsOf,wordsOf_injective⟩

/-- Identities are pairwise different exactly when the words are. -/
theorem ids_nodup_iff (pieces : List Piece) : (pieces.map Piece.id).Nodup ↔ (pieces.map Piece.words).Nodup := by
  unfold List.Nodup
  rw [List.pairwise_map,List.pairwise_map]
  constructor
  · intro h
    exact h.imp (fun hne he => hne ((Piece.id_eq_iff _ _).mpr he))
  · intro h
    exact h.imp (fun hne he => hne ((Piece.id_eq_iff _ _).mp he))

end Words

section Pieces

variable (assets : Assets) (root sdfDirectory : Path)

/-- Number of pieces of a mesh file. -/
def meshCount (path : Path) : ℕ := ((assets.meshes path).map List.length).getD 0

/-- Number of pieces of a collision shape. -/
def pieceCount : SdfGeometry → ℕ
  | .mesh uri _ _ _ =>
    match insideRoot assets root sdfDirectory uri with
    | .ok file => meshCount assets file
    | .error _ => 0
  | _ => 1

/-- Pieces of a collision. -/
def collisionPieces (models : List String) (link : String) (collision : SdfCollision) : List Piece :=
  match collision.geometry with
  | some body => (List.range (pieceCount assets root sdfDirectory body)).map
      (fun number => ⟨models,link,collision.name,number⟩)
  | none => []

/-- Pieces of a link. -/
def linkPieces (models : List String) (link : SdfLink) : List Piece :=
  link.collisions.flatMap (collisionPieces assets root sdfDirectory models link.name)

mutual
/-- Pieces of a model and of the models inside it. -/
def modelPieces (outer : List String) : SdfModel → List Piece
  | .mk _ _ _ links models =>
    links.flatMap (linkPieces assets root sdfDirectory outer) ++ nestedPieces outer models

/-- Pieces of nested models. -/
def nestedPieces (outer : List String) : List SdfModel → List Piece
  | [] => []
  | .mk name elements pose links models::rest =>
    modelPieces (outer ++ [name]) (.mk name elements pose links models) ++ nestedPieces outer rest
end

end Pieces

section Collecting

variable {X : Externals} {assets : Assets} {root sdfDirectory : Path}

/-- Identity of a compiled part. -/
def partId (part : Json) : String := (part.valueOr "id" .null).text?.getD ""

/-- The identity of a part value. -/
theorem partId_value (id : String) (pose : Json) (index : ℕ) (color : Json) :
    partId (partValue (.string id) pose index color)=id := by
  simp [partId,partValue,Json.valueOr,Json.text?]

/-- Read mesh files have as many pieces as meshes. -/
def Counted (assets : Assets) (compiler : Compiler) : Prop :=
  ∀ entry∈compiler.files, entry.2.length=meshCount assets entry.1

/-- Interning reads no file. -/
theorem intern_files (shape : Json) (compiler : Compiler) :
    Meets (intern X shape) compiler (fun _ after => after.files=compiler.files) (fun _ _ => True) := by
  unfold intern
  rw [meets_bind,meets_ofResult]
  refine ⟨?_,fun _ _ => trivial⟩
  intro key _
  rw [meets_bind,meets_get]
  cases compiler.indexes.lookup key with
  | some _ | none => exact rfl

/-- A mesh piece reads no file. -/
theorem pieceGeometry_files (key : MeshKey) (piece : Json) (compiler : Compiler) :
    Meets (pieceGeometry X key piece) compiler (fun _ after => after.files=compiler.files) (fun _ _ => True) := by
  unfold pieceGeometry
  rw [meets_bind,meets_get]
  cases cachedMesh compiler key with
  | some index => exact rfl
  | none =>
    dsimp only
    rw [meets_bind,meets_ofResult]
    exact ⟨fun _ _ => rfl,fun _ _ => trivial⟩

/-- Every mesh gives one piece. -/
theorem meshPieces_length {meshes : List RawMesh} {pieces : List Json} (h : meshPieces X meshes=.ok pieces) :
    pieces.length=meshes.length := by
  induction meshes generalizing pieces with
  | nil =>
    cases h
    rfl
  | cons mesh rest ih =>
    unfold meshPieces at h
    simp only [except_bind_ok] at h
    obtain ⟨head,_,tail,htail,h⟩ := h
    cases h
    rw [List.length_cons,List.length_cons,ih htail]

/-- Mesh files are counted when they are read. -/
theorem readMeshFile_counted (path : Path) {compiler : Compiler} (h : Counted assets compiler) :
    Meets (readMeshFile X assets path) compiler
      (fun pieces after => Counted assets after ∧ pieces.length=meshCount assets path) (fun _ _ => True) := by
  unfold readMeshFile
  rw [meets_bind,meets_get]
  cases hl : compiler.files.lookup path with
  | some pieces => exact ⟨h,h (path,pieces) (mem_of_lookup hl)⟩
  | none =>
    dsimp only
    rw [meets_bind]
    show Meets _ {compiler with reads := compiler.reads+1} _ _
    cases hmeshes : assets.meshes path with
    | none => exact trivial
    | some meshes =>
      dsimp only
      rw [meets_bind,meets_ofResult]
      refine ⟨?_,fun _ _ => trivial⟩
      intro pieces hpieces
      have hcount : pieces.length=meshCount assets path := by
        unfold meshCount
        rw [hmeshes,Option.map_some,Option.getD_some]
        exact meshPieces_length hpieces
      rw [meets_ite]
      refine ⟨fun _ => trivial,fun _ => ⟨?_,hcount⟩⟩
      intro entry he
      rcases List.mem_append.mp he with he | he
      · exact h entry he
      · rw [List.mem_singleton.mp he]
        exact hcount

/-- Parts of mesh pieces carry their identities. -/
theorem meshParts_ids (path : Path) (id : ℕ → String) (pose : Pose3) (sx sy sz : Float) (pieces : List Json)
    (index : ℕ) (compiler : Compiler) :
    Meets (meshParts X path id pose sx sy sz index pieces) compiler
      (fun parts after => after.files=compiler.files ∧
        parts.map partId=(List.range' index pieces.length).map id) (fun _ _ => True) := by
  induction pieces generalizing index compiler with
  | nil => exact ⟨rfl,rfl⟩
  | cons piece rest ih =>
    unfold meshParts
    rw [meets_bind]
    refine (pieceGeometry_files _ piece compiler).mono ?_ (fun _ _ _ => trivial)
    intro found middle hmiddle
    rw [meets_bind]
    refine (ih (index+1) middle).mono ?_ (fun _ _ _ => trivial)
    rintro tail after ⟨hfiles,hids⟩
    refine ⟨hfiles.trans hmiddle,?_⟩
    rw [List.map_cons,hids,partId_value,List.length_cons,List.range'_succ,List.map_cons]

/-- Parts with the identities of some pieces. -/
def Named (assets : Assets) (ids : List String) (parts : List Json) (after : Compiler) : Prop :=
  Counted assets after ∧ parts.map partId=ids

/-- Parts built one after the other carry the identities one after the other. -/
theorem Named.append {ids more : List String} {parts others : List Json} {middle after : Compiler}
    (h : Named assets ids parts middle) (h' : Named assets more others after) :
    Named assets (ids ++ more) (parts ++ others) after := by
  refine ⟨h'.1,?_⟩
  rw [List.map_append,h.2,h'.2]

/-- A part with an interned geometry carries its identity. -/
theorem compiledPart_named (id : String) (pose : Pose3) (shape : Json) {compiler : Compiler}
    (h : Counted assets compiler) :
    Meets (compiledPart X id pose shape) compiler (fun part after => Named assets [id] [part] after)
      (fun _ _ => True) := by
  unfold compiledPart
  rw [meets_bind]
  refine (intern_files shape compiler).mono ?_ (fun _ _ _ => trivial)
  intro index after hfiles
  refine ⟨?_,?_⟩
  · unfold Counted
    rw [hfiles]
    exact h
  · rw [List.map_singleton,partId_value]

/-- Parts of a collision carry the identities of its pieces. -/
theorem collisionGeometry_named (body : SdfGeometry) (id : String) (pose : Pose3) {compiler : Compiler}
    (h : Counted assets compiler) :
    Meets (collisionGeometry X assets root sdfDirectory body id pose) compiler
      (Named assets ((List.range (pieceCount assets root sdfDirectory body)).map (pieceId id))) (fun _ _ => True) := by
  have hsingle : ∀ raw : Except Error Json, Meets (do
      let shape ← ofResult raw
      let part ← compiledPart X id pose shape
      return [part]) compiler (Named assets ((List.range 1).map (pieceId id))) (fun _ _ => True) := by
    intro raw
    rw [meets_bind,meets_ofResult]
    refine ⟨?_,fun _ _ => trivial⟩
    intro shape _
    rw [meets_bind]
    exact (compiledPart_named id pose shape h).mono (fun _ _ hn => hn) (fun _ _ _ => trivial)
  cases body with
  | box _ | sphere _ | cylinder _ _ => exact hsingle _
  | unsupported => exact trivial
  | mesh uri sx sy sz =>
    unfold collisionGeometry
    dsimp only
    rw [meets_bind,meets_ofResult]
    refine ⟨?_,fun _ _ => trivial⟩
    intro file hfile
    rw [meets_bind]
    refine (readMeshFile_counted file h).mono ?_ (fun _ _ _ => trivial)
    rintro pieces middle ⟨hcounted,hlength⟩
    refine (meshParts_ids file (pieceId id) pose sx sy sz pieces 0 middle).mono ?_ (fun _ _ _ => trivial)
    rintro parts after ⟨hfiles,hids⟩
    refine ⟨?_,?_⟩
    · unfold Counted
      rw [hfiles]
      exact hcounted
    · unfold pieceCount
      dsimp only
      rw [hids,hfile,hlength,List.range_eq_range']

/-- Parts of the collisions of a link carry the identities of its pieces. -/
theorem collectCollisions_named (models : List String) (link : String) (place : Pose3 → Pose3)
    (collisions : List SdfCollision) {compiler : Compiler} (h : Counted assets compiler) :
    Meets (collectCollisions X assets root sdfDirectory (modelsText models ++ link) place collisions) compiler
      (Named assets ((collisions.flatMap (collisionPieces assets root sdfDirectory models link)).map Piece.id))
      (fun _ _ => True) := by
  induction collisions generalizing compiler with
  | nil => exact ⟨h,rfl⟩
  | cons collision rest ih =>
    unfold collectCollisions
    cases hbody : collision.geometry with
    | none => exact trivial
    | some body =>
      dsimp only
      rw [meets_bind,meets_ofResult]
      refine ⟨?_,fun _ _ => trivial⟩
      intro pose _
      rw [meets_bind]
      refine (collisionGeometry_named body _ (place pose) h).mono ?_ (fun _ _ _ => trivial)
      intro parts middle hparts
      rw [meets_bind]
      refine (ih hparts.1).mono ?_ (fun _ _ _ => trivial)
      intro tail after htail
      have hall := hparts.append htail
      rw [List.flatMap_cons,List.map_append]
      unfold collisionPieces
      rw [hbody]
      dsimp only
      rw [List.map_map]
      exact hall

/-- Parts of links carry the identities of their pieces. -/
theorem collectLinks_named (models : List String) (place : Pose3 → Pose3) (links : List SdfLink)
    {compiler : Compiler} (h : Counted assets compiler) :
    Meets (collectLinks X assets root sdfDirectory (modelsText models) place links) compiler
      (Named assets ((links.flatMap (linkPieces assets root sdfDirectory models)).map Piece.id))
      (fun _ _ => True) := by
  induction links generalizing compiler with
  | nil => exact ⟨h,rfl⟩
  | cons link rest ih =>
    unfold collectLinks
    rw [meets_bind]
    refine (collectCollisions_named models link.name place link.collisions h).mono ?_ (fun _ _ _ => trivial)
    intro parts middle hparts
    rw [meets_bind]
    refine (ih hparts.1).mono ?_ (fun _ _ _ => trivial)
    intro tail after htail
    rw [List.flatMap_cons,List.map_append]
    exact hparts.append htail

mutual
/-- Parts of a model carry the identities of its pieces. -/
theorem collectModel_named (outer : List String) (parent : Option Pose3) :
    ∀ (model : SdfModel) {compiler : Compiler}, Counted assets compiler →
      Meets (collectModel X assets root sdfDirectory (modelsText outer) parent model) compiler
        (fun found => Named assets ((modelPieces assets root sdfDirectory outer model).map Piece.id) found.1)
        (fun _ _ => True)
  | .mk _ elements _ links models,compiler,h => by
    unfold collectModel modelPieces
    dsimp only
    rw [meets_bind]
    refine (collectLinks_named outer _ links h).mono ?_ (fun _ _ _ => trivial)
    intro parts middle hparts
    rw [meets_bind]
    refine (collectModels_named outer _ models hparts.1).mono ?_ (fun _ _ _ => trivial)
    intro nested after hnested
    rw [List.map_append]
    exact hparts.append hnested

/-- Parts of nested models carry the identities of their pieces. -/
theorem collectModels_named (outer : List String) (place : Pose3 → Pose3) :
    ∀ (models : List SdfModel) {compiler : Compiler}, Counted assets compiler →
      Meets (collectModels X assets root sdfDirectory (modelsText outer) place models) compiler
        (fun found => Named assets ((nestedPieces assets root sdfDirectory outer models).map Piece.id) found.1)
        (fun _ _ => True)
  | [],compiler,h => by
    unfold collectModels nestedPieces
    exact ⟨h,rfl⟩
  | .mk name elements pose links models::rest,compiler,h => by
    unfold collectModels nestedPieces
    rw [meets_bind,meets_ofResult]
    refine ⟨?_,fun _ _ => trivial⟩
    intro nested _
    have htext : modelsText outer ++ name ++ "_"=modelsText (outer ++ [name]) := by
      unfold modelsText
      rw [List.foldl_append]
      rfl
    rw [meets_bind,htext]
    refine (collectModel_named (outer ++ [name]) (some (place nested)) (.mk name elements pose links models)
      h).mono ?_ (fun _ _ _ => trivial)
    intro head middle hhead
    rw [meets_bind]
    refine (collectModels_named outer place rest hhead.1).mono ?_ (fun _ _ _ => trivial)
    intro tail after htail
    rw [List.map_append]
    exact hhead.append htail
end

end Collecting

section Models

variable {X : Externals} {assets : Assets} {root : Path}

/-- Identities of the parts of a compiled model. -/
def partIds (model : Json) : List String := (model.valueOr "parts" .null).items.map partId

/-- The pieces of an SDF resource have pairwise different words. -/
def ResourceApart (assets : Assets) (root : Path) (resource : Json) : Prop :=
  ∀ path model, (resource.valueOr "format" .null).text?.getD ""="sdformat-model" →
    insideRoot assets root root ((resource.valueOr "file" .null).text?.getD "")=.ok path →
    assets.sdf path=.root 0 [model] → ((modelPieces assets root path.parent [] model).map Piece.words).Nodup

/-- The resource of a model, if it has one, has pieces with pairwise different words. -/
def ModelApart (assets : Assets) (root : Path) (entry : Json) : Prop :=
  ∀ resource, entry.member "resource"=some resource → ResourceApart assets root resource

/-- Numbers have different texts. -/
theorem toString_injective {m n : ℕ} (h : toString m=toString n) : m=n := by
  have hm := Nat.toNat?_repr m
  have hn := Nat.toNat?_repr n
  have hrepr : Nat.repr m=Nat.repr n := h
  rw [hrepr,hn] at hm
  exact (Option.some.inj hm).symm

/-- Parts of a plain mesh have different identities. -/
theorem meshIds_nodup (count : ℕ) :
    ((List.range' 0 count).map (fun index => "mesh_" ++ toString index)).Nodup := by
  refine List.Nodup.map ?_ List.nodup_range'
  intro m n h
  have hlists := congrArg String.toList h
  rw [String.toList_append,String.toList_append] at hlists
  exact toString_injective (String.toList_inj.mp (List.append_cancel_left hlists))

/-- Parts of a resource have different identities exactly when its pieces have different words. -/
theorem resourceParts_apart (path : Path) (format : String) {compiler : Compiler} (h : Counted assets compiler) :
    Meets (resourceParts X assets root path format) compiler
      (fun found after => Counted assets after ∧ ((found.1.map partId).Nodup ↔
        ∀ model, format="sdformat-model" → assets.sdf path=.root 0 [model] →
          ((modelPieces assets root path.parent [] model).map Piece.words).Nodup)) (fun _ _ => True) := by
  unfold resourceParts
  rw [meets_ite]
  constructor
  · intro hformat
    rw [meets_bind]
    refine (readMeshFile_counted path h).mono ?_ (fun _ _ _ => trivial)
    rintro pieces middle ⟨hcounted,_⟩
    rw [meets_bind]
    refine (meshParts_ids path _ {} 1 1 1 pieces 0 middle).mono ?_ (fun _ _ _ => trivial)
    rintro parts after ⟨hfiles,hids⟩
    refine ⟨?_,?_⟩
    · unfold Counted
      rw [hfiles]
      exact hcounted
    · dsimp only
      rw [hids]
      refine iff_of_true (meshIds_nodup _) ?_
      intro model hsdf
      rcases hformat with hf | hf
      · rw [hf] at hsdf
        exact absurd hsdf (by decide)
      · rw [hf] at hsdf
        exact absurd hsdf (by decide)
  · intro _
    rw [meets_ite]
    refine ⟨fun hformat => ?_,fun _ => trivial⟩
    rw [meets_bind]
    show Meets _ {compiler with reads := compiler.reads+1} _ _
    cases hsdf : assets.sdf path with
    | missing | malformed _ | includes | refused _ => exact trivial
    | root worlds models =>
      dsimp only
      rw [meets_ite]
      refine ⟨fun _ => trivial,fun hworlds => ?_⟩
      rw [ne_eq,not_not] at hworlds
      split
      · rename_i model
        have hread : Counted assets {compiler with reads := compiler.reads+1} := h
        have hnamed : Meets (collectModel X assets root path.parent "" none model) _ _ _ :=
          collectModel_named [] none model hread
        refine hnamed.mono ?_ (fun _ _ _ => trivial)
        rintro found after ⟨hcounted,hids⟩
        refine ⟨hcounted,?_⟩
        rw [hids,ids_nodup_iff]
        constructor
        · intro hnodup other _ hother
          cases hother
          exact hnodup
        · intro hall
          exact hall model hformat (by rw [hworlds])
      · exact trivial

/-- A baked resource has parts with different identities exactly when its pieces have different words. -/
theorem bakeResource_apart (resource : Json) {compiler : Compiler} (h : Counted assets compiler) :
    Meets (bakeResource X assets root resource) compiler
      (fun model after => Counted assets after ∧ ((partIds model).Nodup ↔ ResourceApart assets root resource))
      (fun _ _ => True) := by
  unfold bakeResource
  rw [meets_bind,meets_ofResult]
  refine ⟨?_,fun _ _ => trivial⟩
  intro path hpath
  dsimp only
  rw [meets_bind]
  refine (resourceParts_apart path _ h).mono ?_ (fun _ _ _ => trivial)
  rintro baked after ⟨hcounted,happart⟩
  rw [meets_ite]
  refine ⟨fun _ => trivial,fun _ => ⟨hcounted,?_⟩⟩
  have hids : partIds (.object (("parts",Json.array baked.1)::("resource",.object [("format",.string
      ((resource.valueOr "format" .null).text?.getD "")),("file",.string path.text)])::
      (if baked.2.isEmpty then [] else [("unparsed",Json.array baked.2)])))=baked.1.map partId := by
    simp [partIds,Json.valueOr,Json.items]
  rw [hids,happart]
  constructor
  · intro hall path' model hformat hpath' hsdf
    rw [hpath] at hpath'
    cases hpath'
    exact hall model hformat hsdf
  · intro hall model hformat hsdf
    exact hall path model hformat hpath hsdf

/-- Analytic parts keep their identities. -/
theorem partsFromAnalytic_ids (parts : List Json) {compiler : Compiler} (h : Counted assets compiler) :
    Meets (partsFromAnalytic X parts) compiler (Named assets (parts.map partId)) (fun _ _ => True) := by
  induction parts generalizing compiler with
  | nil => exact ⟨h,rfl⟩
  | cons part rest ih =>
    unfold partsFromAnalytic
    rw [meets_bind]
    refine (intern_files _ compiler).mono ?_ (fun _ _ _ => trivial)
    intro index middle hfiles
    have hmiddle : Counted assets middle := by
      unfold Counted
      rw [hfiles]
      exact h
    rw [meets_bind]
    refine (ih hmiddle).mono ?_ (fun _ _ _ => trivial)
    rintro tail after ⟨hcounted,hids⟩
    refine ⟨hcounted,?_⟩
    rw [List.map_cons,List.map_cons,hids]
    simp [partId,partValue,Json.valueOr]

/-- Validated parts have different identities. -/
theorem partList_nodup {seen : List String} {items parts : List Json}
    (h : partList X.spell X.math seen items=.ok parts) :
    (parts.map partId).Nodup ∧ ∀ id∈parts.map partId, id∉seen := by
  induction items generalizing seen parts with
  | nil =>
    cases h
    simp
  | cons item rest ih =>
    unfold partList at h
    simp only [except_bind_ok] at h
    obtain ⟨_,_,id,_,h⟩ := h
    split at h
    · cases h
    rename_i hseen
    simp only [except_bind_ok] at h
    obtain ⟨_,_,placed,_,shape,_,tail,htail,h⟩ := h
    cases h
    obtain ⟨hnodup,hfresh⟩ := ih htail
    have hid : partId (.object [("id",.string id),("pose",placed),("geometry",shape),("color",amber)])=id := by
      simp [partId,Json.valueOr,Json.text?]
    rw [List.map_cons,hid]
    refine ⟨List.nodup_cons.mpr ⟨fun hm => hfresh id hm (List.mem_cons_self ..),hnodup⟩,?_⟩
    intro other ho
    rcases List.mem_cons.mp ho with rfl | ho
    · exact hseen
    · exact fun hm => hfresh other ho (List.mem_cons_of_mem _ hm)

/-- Normalized parts have different identities. -/
theorem normalizeParts_nodup {value parts : Json} (h : normalizeParts X.spell X.math value=.ok parts) :
    (parts.items.map partId).Nodup := by
  unfold normalizeParts at h
  split at h
  · split at h
    · cases h
    · rw [except_bind_ok] at h
      obtain ⟨normalized,hn,h⟩ := h
      cases h
      exact (partList_nodup hn).1
  · cases h

/-- A model of validated parts has parts with different identities. -/
theorem analyticModel_nodup {value parts raw : Json} (hv : value.member "parts"=some parts)
    (hp : normalizeParts X.spell X.math raw=.ok parts) {compiler : Compiler} (h : Counted assets compiler) :
    Meets (analyticModel X value) compiler (fun model after => Counted assets after ∧ (partIds model).Nodup)
      (fun _ _ => True) := by
  unfold analyticModel
  have hvalue : value.valueOr "parts" .null=parts := by
    unfold Json.valueOr
    rw [hv]
    rfl
  rw [hvalue,meets_bind]
  refine (partsFromAnalytic_ids parts.items h).mono ?_ (fun _ _ _ => trivial)
  rintro found after ⟨hcounted,hids⟩
  refine ⟨hcounted,?_⟩
  have hfound : partIds (.object [("parts",.array found)])=found.map partId := by
    simp [partIds,Json.valueOr,Json.items]
  rw [hfound,hids]
  exact normalizeParts_nodup hp

/-- A validated model has parts with different identities exactly when its pieces have different words. -/
theorem compileModel_apart {value entry : Json} (he : modelEntry X.spell X.math value=.ok entry)
    {compiler : Compiler} (h : Counted assets compiler) :
    Meets (compileModel X assets root entry) compiler
      (fun model after => Counted assets after ∧ ((partIds model).Nodup ↔ ModelApart assets root entry))
      (fun _ _ => True) := by
  unfold modelEntry at he
  rw [except_bind_ok] at he
  obtain ⟨_,_,he⟩ := he
  split at he
  · cases he
  split at he
  · rw [except_bind_ok] at he
    obtain ⟨reference,_,he⟩ := he
    cases he
    have hmember : (Json.object [("resource",reference)]).member "resource"=some reference := member_here ..
    unfold compileModel ModelApart
    rw [hmember]
    refine (bakeResource_apart reference h).mono ?_ (fun _ _ _ => trivial)
    rintro model after ⟨hcounted,happart⟩
    refine ⟨hcounted,happart.trans ?_⟩
    constructor
    · intro hall other ho
      cases ho
      exact hall
    · exact fun hall => hall reference rfl
  · rw [except_bind_ok] at he
    obtain ⟨parts,hparts,he⟩ := he
    cases he
    have hnone : (Json.object [("parts",parts)]).member "resource"=none := by simp
    unfold compileModel ModelApart
    rw [hnone]
    refine (analyticModel_nodup (member_here ..) hparts h).mono ?_ (fun _ _ _ => trivial)
    rintro model after ⟨hcounted,hnodup⟩
    exact ⟨hcounted,iff_of_true hnodup (fun _ ho => by cases ho)⟩

/-- Compiled models have parts with different identities exactly when the pieces of each have different words. -/
theorem compileModels_apart {members defined : List (String × Json)}
    (hm : modelMembers X.spell X.math members=.ok defined) {compiler : Compiler} (h : Counted assets compiler) :
    Meets (compileModels X assets root defined) compiler
      (fun found after => Counted assets after ∧
        ((∀ m∈found, (partIds m.2).Nodup) ↔ ∀ m∈defined, ModelApart assets root m.2)) (fun _ _ => True) := by
  induction members generalizing defined compiler with
  | nil =>
    cases hm
    exact ⟨h,by simp⟩
  | cons m rest ih =>
    obtain ⟨key,value⟩ := m
    unfold modelMembers at hm
    simp only [except_bind_ok] at hm
    obtain ⟨name,_,entry,hentry,tail,htail,hm⟩ := hm
    cases hm
    unfold compileModels
    rw [meets_bind]
    refine (compileModel_apart hentry h).mono ?_ (fun _ _ _ => trivial)
    rintro model middle ⟨hmiddle,hmodel⟩
    rw [meets_bind]
    refine (ih htail hmiddle).mono ?_ (fun _ _ _ => trivial)
    rintro found after ⟨hafter,hfound⟩
    refine ⟨hafter,?_⟩
    rw [List.forall_mem_cons,List.forall_mem_cons,hfound,hmodel]

/-- Models of obstacles stand behind the authored ones and have parts with different identities. -/
theorem compileObstacles_apart {items : List Json} (hi : ∀ item∈items, CanonicalObstacle X.spell X.math item)
    (members : List (String × Json)) {compiler : Compiler} (h : Counted assets compiler) :
    Meets (compileObstacles X (.object members) items) compiler
      (fun found _ => ∃ inlined, found.1=.object (members ++ inlined) ∧ ∀ m∈inlined, (partIds m.2).Nodup)
      (fun _ _ => True) := by
  induction items generalizing members compiler with
  | nil => exact ⟨[],by rw [List.append_nil],by simp⟩
  | cons item rest ih =>
    obtain ⟨value,hv⟩ := hi item (List.mem_cons_self ..)
    obtain ⟨id,name,initial,movement,shape,rfl,_,_,hshape⟩ := obstacle_members hv
    have hrest := fun members compiler (hc : Counted assets compiler) =>
      ih (fun other ho => hi other (List.mem_cons_of_mem _ ho)) members hc
    unfold compileObstacles
    rw [meets_bind]
    unfold obstacleShape at hshape
    unfold obstacleModel
    split at hshape
    · rw [except_bind_ok] at hshape
      obtain ⟨model,_,hshape⟩ := hshape
      cases hshape
      have hmodel : (Json.object [("id",.string id),("name",.string name),("pose",initial),
          ("model",.string model),("motion",movement)]).member "model"=some (.string model) := by simp
      rw [hmodel]
      dsimp only
      rw [meets_pure,meets_bind]
      exact (hrest members compiler h).mono (fun _ _ hf => hf) (fun _ _ _ => trivial)
    · rw [except_bind_ok] at hshape
      obtain ⟨parts,hparts,hshape⟩ := hshape
      cases hshape
      have hnone : (Json.object [("id",.string id),("name",.string name),("pose",initial),
          ("parts",parts),("motion",movement)]).member "model"=none := by simp
      rw [hnone]
      dsimp only
      generalize inlineName _=generated
      rw [meets_ite]
      refine ⟨fun _ => trivial,fun hnew => ?_⟩
      rw [meets_bind]
      refine (analyticModel_nodup (by simp) hparts h).mono ?_ (fun _ _ _ => trivial)
      rintro model middle ⟨hmiddle,hnodup⟩
      rw [SceneCompileLossless.contains_iff] at hnew
      have hset := SceneCompileLossless.setMember_new model hnew
      dsimp only [Json.set]
      rw [meets_pure,meets_bind,hset]
      refine (hrest _ middle hmiddle).mono ?_ (fun _ _ _ => trivial)
      rintro found after ⟨inlined,hfound,hinlined⟩
      refine ⟨(generated,model)::inlined,?_,List.forall_mem_cons.mpr ⟨hnodup,hinlined⟩⟩
      dsimp only
      rw [hfound,List.append_assoc]
      rfl

/-- Compiled models have parts with different identities exactly when the pieces of each resource have
different words. -/
theorem compile_apart {directory : Option Path} {value source compiled : Json}
    (hs : SceneDocument.document X.spell X.math value=.ok source)
    (hc : compile X assets directory value=.ok compiled) :
    (∀ m∈(compiled.valueOr "models" .null).members, (partIds m.2).Nodup) ↔
      ∀ m∈(source.valueOr "models" (.object [])).members, ModelApart assets (directory.getD []) m.2 := by
  unfold compile at hc
  simp only [except_bind_ok] at hc
  obtain ⟨source',hs',base,hbase,hc⟩ := hc
  rw [hs] at hs'
  cases hs'
  have hroot : base=directory.getD [] := by
    unfold assetRoot at hbase
    split at hbase
    · cases hbase
    · exact (Except.ok.inj hbase).symm
  obtain ⟨p,rfl,hp⟩ := document_canonical hs
  obtain ⟨members,defined,hmembers,hdefined⟩ := SceneCompileLossless.Parts.defined_members hp
  have hspec : Meets (compileSource X assets base p.document) {}
      (fun compiled _ => (∀ m∈(compiled.valueOr "models" .null).members, (partIds m.2).Nodup) ↔
        ∀ m∈defined, ModelApart assets base m.2) (fun _ _ => True) := by
    have hempty : Counted assets {} := by
      intro entry he
      cases he
    have hitems : (p.document.valueOr "obstacles" .null).items=p.obstacles := by
      simp [Parts.document,Json.valueOr,Json.items]
    unfold compileSource
    rw [Parts.valueOr_models,hdefined,meets_bind]
    refine (compileModels_apart hmembers hempty).mono ?_ (fun _ _ _ => trivial)
    rintro authored middle ⟨hmiddle,hauthored⟩
    rw [meets_bind,hitems]
    refine (compileObstacles_apart hp.obstacles authored hmiddle).mono ?_ (fun _ _ _ => trivial)
    rintro ⟨models,obstacles⟩ after ⟨inlined,hmodels,hinlined⟩
    rw [meets_bind,meets_get,meets_pure,←hauthored]
    dsimp only at hmodels
    rw [hmodels]
    have hvalue : ∀ schema id frame ground geometries obstacles : Json,
        ((Json.object [("schema",schema),("id",id),("frame",frame),("ground",ground),("geometries",geometries),
          ("models",.object (authored ++ inlined)),("obstacles",obstacles)]).valueOr "models" .null).members=
          authored ++ inlined := by
      intro _ _ _ _ _ _
      simp [Json.valueOr,Json.members]
    rw [hvalue]
    constructor
    · exact fun hall m hm => hall m (List.mem_append_left _ hm)
    · intro hall m hm
      rcases List.mem_append.mp hm with hm | hm
      · exact hall m hm
      · exact hinlined m hm
  rw [Parts.valueOr_models,hdefined,←hroot]
  unfold Meets at hspec
  split at hc
  · rename_i result after hrun
    rw [hrun] at hspec
    cases hc
    exact hspec
  · cases hc

end Models

end Ros1Adapter.PartIdentities

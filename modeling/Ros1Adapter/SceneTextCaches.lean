import Ros1Adapter.SceneStoreReopen

/-!
# Cached texts equal plain texts

The YAML writer and the JSON encoder keep texts of obstacles, and the encoder
the text of a whole document. A text is kept only together with the value it
was made from, and it is used again only for that value, so every answer is
the plain one, whatever was written before and whatever failed.
-/

namespace Ros1Adapter.SceneTextCaches

open SceneJson SceneJsonText SceneDocument SceneDocumentNormal SceneYaml SceneFingerprint SceneStoreReopen ActionRules

section Yaml

variable {spell : Float → String} {math : Math}

/-- A writer that has written some documents, with the texts in order. -/
def dumpAll (spell : Float → String) : DocumentYaml → List Json → List String
  | _,[] => []
  | yaml,value::rest => (yaml.dump spell value).1::dumpAll spell (yaml.dump spell value).2 rest

/-- A document that validation accepts, as it was given or as it is returned. -/
def AcceptedDocument (spell : Float → String) (math : Math) (value : Json) : Prop :=
  (uniqueKeys value=true ∧ ∃ result, document spell math value=.ok result) ∨ ∃ given, document spell math given=.ok value

/-- Validation requires the members that the writer relies on. -/
theorem accepted_members {value result : Json} (hu : uniqueKeys value=true) (h : document spell math value=.ok result) :
    (value.members.map Prod.fst).Nodup ∧ (∃ m∈value.members, m.1≠"obstacles") ∧
      ∃ items, value.valueOr "obstacles" .null=.array items := by
  unfold document at h
  rw [except_bind_ok] at h
  obtain ⟨_,known,h⟩ := h
  cases value with
  | object members =>
    rw [uniqueKeys,Bool.and_eq_true,decide_eq_true_eq] at hu
    split at h
    · cases h
    · next schema =>
      refine ⟨hu.1,?_,?_⟩
      · cases found : members.lookup "schema" with
        | none =>
          have never : isText ((Json.object members).valueOr "schema" .null) kSchema=false := by
            simp only [Json.valueOr,Json.member,found]
            rfl
          rw [never] at schema
          exact absurd rfl schema
        | some item => exact ⟨("schema",item),mem_of_lookup found,by simp⟩
      · simp only [except_bind_ok] at h
        obtain ⟨_,_,_,_,h⟩ := h
        split at h
        · next items shape => exact ⟨items,shape⟩
        · cases h
  | _ => cases known

/-- Every document of any sequence gets its plain text. -/
theorem dumpAll_plain (math : Math) {documents : List Json} (h : ∀ value∈documents, AcceptedDocument spell math value) :
    dumpAll spell emptyYaml documents=documents.map (dumpYaml spell) := by
  have general : ∀ {yaml : DocumentYaml}, CacheValid spell yaml → ∀ {documents : List Json},
      (∀ value∈documents, AcceptedDocument spell math value) →
      dumpAll spell yaml documents=documents.map (dumpYaml spell) := by
    intro yaml valid documents accepted
    induction documents generalizing yaml with
    | nil => rfl
    | cons value rest ih =>
      have one : (yaml.dump spell value).1=dumpYaml spell value ∧ CacheValid spell (yaml.dump spell value).2 := by
        rcases accepted value (List.mem_cons_self ..) with ⟨unique,result,given⟩ | ⟨given,returned⟩
        · obtain ⟨keys,other,array⟩ := accepted_members unique given
          exact dump_text spell valid keys other array
        · exact dump_canonical valid (document_canonical returned)
      rw [dumpAll,one.1,ih one.2 (fun v member => accepted v (List.mem_cons_of_mem _ member)),List.map_cons]
  exact general (emptyYaml_valid spell) h

/-- A scene with a crate and its obstacles last. -/
def crateDocument (id : String) : Json :=
  .object [("schema",.string kSchema),("id",.string "hall"),("frame",.string "map"),
    ("models",.object [("crate",.object [("resource",.object [("format",.string "gltf"),("file",.string "crate.glb")])])]),
    ("obstacles",.array [.object [("id",.string id),("model",.string "crate")]])]

/-- A crate is written, renamed and renamed back. -/
theorem dumpAll_plain_crate : dumpAll (fun _ => "0.0") emptyYaml [crateDocument "a",crateDocument "b",crateDocument "a"]=
    [crateDocument "a",crateDocument "b",crateDocument "a"].map (dumpYaml (fun _ => "0.0")) := by
  have accepted : ∀ id : String, id="a" ∨ id="b" →
      AcceptedDocument (fun _ => "0.0") SceneStoreValid.unitMath (crateDocument id) := by
    intro id names
    have checked : uniqueKeys (crateDocument id)=true ∧
        (document (fun _ => "0.0") SceneStoreValid.unitMath (crateDocument id)).isOk=true := by
      rcases names with name | name
      · rw [name]
        constructor <;> decide +kernel
      · rw [name]
        constructor <;> decide +kernel
    cases found : document (fun _ => "0.0") SceneStoreValid.unitMath (crateDocument id) with
    | ok result => exact Or.inl ⟨checked.1,result,found⟩
    | error e =>
      rw [found] at checked
      cases checked.2
  refine dumpAll_plain SceneStoreValid.unitMath (fun value member => ?_)
  simp only [List.mem_cons,List.not_mem_nil,or_false] at member
  rcases member with rfl | rfl | rfl
  · exact accepted "a" (Or.inl rfl)
  · exact accepted "b" (Or.inr rfl)
  · exact accepted "a" (Or.inl rfl)

end Yaml

section Encoder

variable (spell : Float → String)

/-- Members of the JSON encoder: the last document with its text, and the texts of obstacles. -/
structure EnvelopeJson where
  /-- Last document. -/
  document : Option Json := none
  /-- Its text. -/
  documentText : String := ""
  /-- Texts of the obstacles of the last list. -/
  obstacles : String → Option CachedItem := fun _ => none
  /-- Encodings of obstacles so far. -/
  emitted : ℕ := 0

/-- Actions of the encoder. -/
abbrev Encode := EStateM Error EnvelopeJson

/-- Encode an obstacle. -/
def encodeItem (obstacle : Json) : Encode CachedItem := do
  let text ← ofResult (dumpJson spell obstacle)
  modify fun e => {e with emitted := e.emitted+1}
  return ⟨obstacle,text⟩

/-- The kept item of an obstacle, or a new one. -/
def cachedItem (key : String) (obstacle : Json) : Encode CachedItem := do
  let e ← get
  match e.obstacles key with
  | some item => if sameTextValue item.value obstacle then return item else encodeItem spell obstacle
  | none => encodeItem spell obstacle

/-- Join the texts of obstacles while the next table is built. -/
def listObstacles : ℕ → List Json → String → (String → Option CachedItem) →
    Encode (String × (String → Option CachedItem))
  | _,[],listed,items => return (listed,items)
  | index,obstacle::rest,listed,items => do
    let key := itemKey obstacle index
    let item ← cachedItem spell key obstacle
    listObstacles (index+1) rest ((if index=0 then listed else listed ++ ", ") ++ item.text)
      (fun k => if k=key then some item else items k)

/-- Join the members of an object under a way to encode their values. -/
def memberTexts (encode : String → Json → Encode String) : Bool → List (String × Json) → String → Encode String
  | _,[],text => return text
  | first,(key,value)::rest,text => do
    let name ← ofResult (dumpJson spell (.string key))
    let body ← encode key value
    memberTexts encode false rest ((if first then text else text ++ ", ") ++ name ++ ": " ++ body)

/-- Text of a document whose obstacles are kept. -/
def encodeDocument (value : Json) : Encode String :=
  match value.member "obstacles" with
  | some (.array obstacles) => do
    let listed ← listObstacles spell 0 obstacles "[" (fun _ => none)
    let text ← memberTexts spell (fun key item =>
      if key="obstacles" then return listed.1 ++ "]" else ofResult (dumpJson spell item)) true value.members "\x7b"
    modify fun e => {e with obstacles := listed.2}
    return text ++ "\x7d"
  | _ => ofResult (dumpJson spell value)

/-- Text of a document, the kept one when it is the same. -/
def documentLocked (value : Json) : Encode String := do
  let e ← get
  if e.document.any (fun kept => sameTextValue kept value) then return e.documentText
  else
    let text ← encodeDocument spell value
    modify fun e => {e with document := some value, documentText := text}
    return text

/-- Text of an envelope; its document goes through the cache. -/
def dumps (value : Json) : Encode String :=
  match value.member "document" with
  | some (.object _) => do
    let text ← memberTexts spell (fun key item =>
      if key="document" then documentLocked spell item else ofResult (dumpJson spell item)) true value.members "\x7b"
    return text ++ "\x7d"
  | _ => ofResult (dumpJson spell value)

/-- One call of the encoder. -/
inductive EncoderCall where
  | document (value : Json)
  | dumps (value : Json)

/-- Value of a call. -/
def EncoderCall.value : EncoderCall → Json
  | .document value => value
  | .dumps value => value

/-- Perform a call. -/
def EncoderCall.perform : EncoderCall → Encode String
  | .document value => documentLocked spell value
  | .dumps value => SceneTextCaches.dumps spell value

/-- Result of an action without the state. -/
def resultOf {ε σ α : Type} : EStateM.Result ε σ α → Except ε α
  | .ok a _ => .ok a
  | .error e _ => .error e

/-- Results of calls in order; a call that throws keeps what it changed. -/
def performAll : EnvelopeJson → List EncoderCall → List (Except Error String)
  | _,[] => []
  | e,call::rest => resultOf (call.perform spell e)::performAll (stateOf (call.perform spell e)) rest

end Encoder

section Plain

variable {spell : Float → String}

mutual
/-- A value without a text has a nonfinite number. -/
theorem dumpCharacters_error : ∀ (value : Json) {error : Error}, dumpCharacters spell value=.error error → error=nonfiniteError
  | .null,_,h => by simp [dumpCharacters] at h
  | .boolean _,_,h => by simp [dumpCharacters] at h
  | .integer _,_,h => by simp [dumpCharacters] at h
  | .float x,_,h => by
    rw [dumpCharacters] at h
    split at h
    · cases h
    · exact (Except.error.inj h).symm
  | .string _,_,h => by simp [dumpCharacters] at h
  | .array items,error,h => by
    rw [dumpCharacters] at h
    cases listed : dumpItems spell items with
    | ok chars =>
      rw [listed] at h
      cases h
    | error other =>
      rw [listed] at h
      rw [← Except.error.inj h]
      exact dumpItems_error items listed
  | .object members,error,h => by
    rw [dumpCharacters] at h
    cases listed : dumpMembers spell members with
    | ok chars =>
      rw [listed] at h
      cases h
    | error other =>
      rw [listed] at h
      rw [← Except.error.inj h]
      exact dumpMembers_error members listed

/-- Elements without a text have a nonfinite number. -/
theorem dumpItems_error : ∀ (items : List Json) {error : Error}, dumpItems spell items=.error error → error=nonfiniteError
  | [],_,h => by simp [dumpItems] at h
  | [only],_,h => by
    rw [dumpItems] at h
    exact dumpCharacters_error only h
  | first::second::rest,error,h => by
    rw [dumpItems] at h
    cases head : dumpCharacters spell first with
    | error other =>
      rw [head] at h
      rw [← Except.error.inj h]
      exact dumpCharacters_error first head
    | ok chars =>
      cases tail : dumpItems spell (second::rest) with
      | error other =>
        rw [head,tail] at h
        rw [← Except.error.inj h]
        exact dumpItems_error (second::rest) tail
      | ok more =>
        rw [head,tail] at h
        cases h

/-- Members without a text have a nonfinite number. -/
theorem dumpMembers_error : ∀ (members : List (String × Json)) {error : Error}, dumpMembers spell members=.error error →
    error=nonfiniteError
  | [],_,h => by simp [dumpMembers] at h
  | [(key,value)],_,h => by
    rw [dumpMembers] at h
    cases item : dumpCharacters spell value with
    | error other =>
      rw [item] at h
      rw [← Except.error.inj h]
      exact dumpCharacters_error value item
    | ok chars =>
      rw [item] at h
      cases h
  | (key,value)::second::rest,error,h => by
    rw [dumpMembers] at h
    cases item : dumpCharacters spell value with
    | error other =>
      rw [item] at h
      rw [← Except.error.inj h]
      exact dumpCharacters_error value item
    | ok chars =>
      cases tail : dumpMembers spell (second::rest) with
      | error other =>
        rw [item,tail] at h
        rw [← Except.error.inj h]
        exact dumpMembers_error (second::rest) tail
      | ok more =>
        rw [item,tail] at h
        cases h
end

/-- Elements are encoded one after another. -/
theorem dumpItems_cons (item : Json) (rest : List Json) : dumpItems spell (item::rest)=(do
    let head ← dumpCharacters spell item
    let tail ← dumpItems spell rest
    return head ++ (if rest=[] then [] else [',',' ']) ++ tail) := by
  cases rest with
  | nil =>
    rw [dumpItems,dumpItems]
    cases dumpCharacters spell item with
    | error e => rfl
    | ok chars => simp [bind,Except.bind,pure,Except.pure]
  | cons second rest =>
    rw [dumpItems]
    simp

/-- Members are encoded one after another. -/
theorem dumpMembers_cons (key : String) (value : Json) (rest : List (String × Json)) :
    dumpMembers spell ((key,value)::rest)=(do
      let item ← dumpCharacters spell value
      let tail ← dumpMembers spell rest
      return quoteText key ++ [':',' '] ++ item ++ (if rest=[] then [] else [',',' ']) ++ tail) := by
  cases rest with
  | nil =>
    rw [dumpMembers,dumpMembers]
    cases dumpCharacters spell value with
    | error e => rfl
    | ok chars => simp [bind,Except.bind,pure,Except.pure]
  | cons second rest =>
    obtain ⟨k,v⟩ := second
    rw [dumpMembers]
    simp

/-- Whatever a value without a text belongs to has no text. -/
theorem dumpMembers_of_mem {members : List (String × Json)} {m : String × Json} (member : m∈members) {error : Error}
    (h : dumpCharacters spell m.2=.error error) : dumpMembers spell members=.error nonfiniteError := by
  have failed : ∃ other, dumpMembers spell members=.error other := by
    induction members with
    | nil => cases member
    | cons first rest ih =>
      obtain ⟨key,value⟩ := first
      rw [dumpMembers_cons]
      cases item : dumpCharacters spell value with
      | error other => exact ⟨other,rfl⟩
      | ok chars =>
        rcases List.mem_cons.mp member with here | there
        · rw [here,item] at h
          cases h
        · obtain ⟨other,tail⟩ := ih there
          rw [tail]
          exact ⟨other,rfl⟩
  obtain ⟨other,shape⟩ := failed
  rw [shape,dumpMembers_error members shape]

/-- The text of a value from its characters. -/
theorem dumpJson_ok {value : Json} {text : String} :
    dumpJson spell value=.ok text ↔ ∃ chars, dumpCharacters spell value=.ok chars ∧ text=String.ofList chars := by
  unfold dumpJson
  rw [except_bind_ok]
  constructor
  · rintro ⟨chars,found,shape⟩
    exact ⟨chars,found,(Except.ok.inj shape).symm⟩
  · rintro ⟨chars,found,shape⟩
    exact ⟨chars,found,by rw [shape]; rfl⟩

/-- A value without a text. -/
theorem dumpJson_error {value : Json} {error : Error} :
    dumpJson spell value=.error error ↔ dumpCharacters spell value=.error error := by
  unfold dumpJson
  cases dumpCharacters spell value with
  | ok chars => simp [bind,Except.bind,pure,Except.pure]
  | error other => simp [bind,Except.bind]

end Plain

section Caches

variable {spell : Float → String}

/-- Every kept text is the text of its value. -/
structure KeepsTexts (spell : Float → String) (e : EnvelopeJson) : Prop where
  /-- The document. -/
  document : ∀ value, e.document=some value → dumpJson spell value=.ok e.documentText
  /-- The obstacles. -/
  obstacles : ∀ key item, e.obstacles key=some item → dumpJson spell item.value=.ok item.text

/-- An action returns the plain text of a value or fails as the plain encoding does. -/
def Encodes (spell : Float → String) (value : Json) (action : Encode String) : Prop :=
  ∀ e, KeepsTexts spell e → Meets action e (fun text t => dumpJson spell value=.ok text ∧ KeepsTexts spell t)
    (fun error t => dumpJson spell value=.error error ∧ KeepsTexts spell t)

/-- The plain encoding. -/
theorem encodes_plain (value : Json) : Encodes spell value (ofResult (dumpJson spell value)) := by
  intro e kept
  rw [meets_ofResult]
  exact ⟨fun text same => ⟨same,kept⟩,fun error same => ⟨same,kept⟩⟩

/-- Kept and new items have the text of their obstacle. -/
theorem cachedItem_spec (key : String) (obstacle : Json) {e : EnvelopeJson} (kept : KeepsTexts spell e) :
    Meets (cachedItem spell key obstacle) e
      (fun item t => item.value=obstacle ∧ dumpJson spell obstacle=.ok item.text ∧ KeepsTexts spell t)
      (fun error t => dumpJson spell obstacle=.error error ∧ KeepsTexts spell t) := by
  have fresh : Meets (encodeItem spell obstacle) e
      (fun item t => item.value=obstacle ∧ dumpJson spell obstacle=.ok item.text ∧ KeepsTexts spell t)
      (fun error t => dumpJson spell obstacle=.error error ∧ KeepsTexts spell t) := by
    unfold encodeItem
    rw [meets_bind,meets_ofResult]
    refine ⟨fun text same => ?_,fun error same => ⟨same,kept⟩⟩
    rw [meets_bind,meets_modify,meets_pure]
    exact ⟨rfl,same,kept.document,kept.obstacles⟩
  unfold cachedItem
  rw [meets_bind,meets_get]
  split
  · next item found =>
    rw [meets_ite]
    refine ⟨fun same => ?_,fun _ => fresh⟩
    rw [meets_pure]
    have value : item.value=obstacle := sameTextValue_eq _ _ same
    refine ⟨value,?_,kept⟩
    rw [← value]
    exact kept.obstacles key item found
  · exact fresh

/-- The joined texts of obstacles are those of the plain list. -/
theorem listObstacles_spec (obstacles : List Json) (index : ℕ) (listed : String) (items : String → Option CachedItem)
    {e : EnvelopeJson} (kept : KeepsTexts spell e)
    (hi : ∀ key item, items key=some item → dumpJson spell item.value=.ok item.text) :
    Meets (listObstacles spell index obstacles listed items) e
      (fun result t => (∃ chars, dumpItems spell obstacles=.ok chars ∧
          result.1=listed ++ String.ofList ((if index=0 ∨ obstacles=[] then [] else [',',' ']) ++ chars)) ∧
        (∀ key item, result.2 key=some item → dumpJson spell item.value=.ok item.text) ∧ KeepsTexts spell t)
      (fun error t => dumpItems spell obstacles=.error error ∧ KeepsTexts spell t) := by
  induction obstacles generalizing index listed items e with
  | nil =>
    rw [listObstacles,meets_pure]
    exact ⟨⟨[],by simp [dumpItems],by simp⟩,hi,kept⟩
  | cons obstacle rest ih =>
    rw [listObstacles,meets_bind]
    refine (cachedItem_spec (itemKey obstacle index) obstacle kept).mono (fun item t ht => ?_) (fun error t ht => ?_)
    · obtain ⟨value,text,keptT⟩ := ht
      obtain ⟨head,headed,shape⟩ := dumpJson_ok.mp text
      have next : ∀ key other, (fun k => if k=itemKey obstacle index then some item else items k) key=some other →
          dumpJson spell other.value=.ok other.text := by
        intro key other found
        dsimp only at found
        split at found
        · rw [← Option.some.inj found,value]
          exact text
        · exact hi key other found
      refine (ih (index+1) _ _ keptT next).mono (fun result u hu => ?_) (fun error u hu => ?_)
      · obtain ⟨⟨tail,tailed,joined⟩,rest_⟩ := hu
        refine ⟨⟨head ++ (if rest=[] then [] else [',',' ']) ++ tail,?_,?_⟩,rest_⟩
        · rw [dumpItems_cons,headed,tailed]
          rfl
        · rw [joined,shape]
          refine String.toList_injective ?_
          have separator : ", ".toList=[',',' '] := rfl
          by_cases first : index=0
          · simp [first,String.toList_append,String.toList_ofList]
          · simp [first,String.toList_append,String.toList_ofList,separator]
      · refine ⟨?_,hu.2⟩
        rw [dumpItems_cons,headed,hu.1]
        rfl
    · refine ⟨?_,ht.2⟩
      rw [dumpItems_cons,dumpJson_error.mp ht.1]
      rfl

/-- The joined texts of members are those of the plain object. -/
theorem memberTexts_spec {encode : String → Json → Encode String} (members : List (String × Json))
    (he : ∀ m∈members, Encodes spell m.2 (encode m.1 m.2)) (first : Bool) (text : String) {e : EnvelopeJson}
    (kept : KeepsTexts spell e) :
    Meets (memberTexts spell encode first members text) e
      (fun result t => (∃ chars, dumpMembers spell members=.ok chars ∧
          result=text ++ String.ofList ((if first=true ∨ members=[] then [] else [',',' ']) ++ chars)) ∧ KeepsTexts spell t)
      (fun error t => dumpMembers spell members=.error error ∧ KeepsTexts spell t) := by
  induction members generalizing first text e with
  | nil =>
    rw [memberTexts,meets_pure]
    exact ⟨⟨[],by simp [dumpMembers],by simp⟩,kept⟩
  | cons m rest ih =>
    obtain ⟨key,value⟩ := m
    rw [memberTexts,meets_bind,meets_ofResult]
    have named : dumpJson spell (.string key)=.ok (String.ofList (quoteText key)) := by
      rw [dumpJson_ok]
      exact ⟨quoteText key,by rw [dumpCharacters],rfl⟩
    refine ⟨fun name given => ?_,fun error given => ?_⟩
    · rw [named] at given
      have name_ : name=String.ofList (quoteText key) := (Except.ok.inj given).symm
      rw [meets_bind]
      refine (he (key,value) (List.mem_cons_self ..) e kept).mono (fun body t ht => ?_) (fun error t ht => ?_)
      · obtain ⟨chars,encoded,shape⟩ := dumpJson_ok.mp ht.1
        refine (ih (fun m member => he m (List.mem_cons_of_mem _ member)) false _ ht.2).mono (fun result u hu => ?_)
          (fun error u hu => ?_)
        · obtain ⟨⟨tail,tailed,joined⟩,keptU⟩ := hu
          refine ⟨⟨quoteText key ++ [':',' '] ++ chars ++ (if rest=[] then [] else [',',' ']) ++ tail,?_,?_⟩,keptU⟩
          · rw [dumpMembers_cons,encoded,tailed]
            rfl
          · rw [joined,shape,name_]
            refine String.toList_injective ?_
            have colon : ": ".toList=[':',' '] := rfl
            have separator : ", ".toList=[',',' '] := rfl
            cases first with
            | true => simp [String.toList_append,String.toList_ofList,colon]
            | false => simp [String.toList_append,String.toList_ofList,colon,separator]
        · refine ⟨?_,hu.2⟩
          rw [dumpMembers_cons,encoded,hu.1]
          rfl
      · refine ⟨?_,ht.2⟩
        rw [dumpMembers_cons,dumpJson_error.mp ht.1]
        rfl
    · rw [named] at given
      cases given

/-- A document with kept obstacles is encoded plainly. -/
theorem encodeDocument_encodes {value : Json} (hu : uniqueKeys value=true) : Encodes spell value (encodeDocument spell value) := by
  intro e kept
  unfold encodeDocument
  split
  · next obstacles found =>
    cases value with
    | object members =>
      have apart : (members.map Prod.fst).Nodup := by
        rw [uniqueKeys,Bool.and_eq_true,decide_eq_true_eq] at hu
        exact hu.1
      have here : ("obstacles",Json.array obstacles)∈members := mem_of_lookup found
      rw [meets_bind]
      refine (listObstacles_spec obstacles 0 "[" (fun _ => none) kept nofun).mono (fun listed t ht => ?_) (fun error t ht => ?_)
      · obtain ⟨⟨chars,encoded,shape⟩,texts,keptT⟩ := ht
        have list : dumpJson spell (.array obstacles)=.ok (listed.1 ++ "]") := by
          rw [dumpJson_ok]
          refine ⟨'[' :: (chars ++ [']']),?_,?_⟩
          · rw [dumpCharacters,encoded]
            rfl
          · rw [shape]
            refine String.toList_injective ?_
            have opened : "[".toList=['['] := rfl
            have closed : "]".toList=[']'] := rfl
            simp [String.toList_append,String.toList_ofList,opened,closed]
        have each : ∀ m∈members, Encodes spell m.2 ((fun key item =>
            if key="obstacles" then return listed.1 ++ "]" else ofResult (dumpJson spell item)) m.1 m.2) := by
          intro m member
          dsimp only
          split
          · next name =>
            have same : m.2=.array obstacles := by
              have first := lookup_of_mem apart member
              have second := lookup_of_mem apart here
              rw [name,second] at first
              exact (Option.some.inj first).symm
            intro d keptD
            rw [meets_pure,same]
            exact ⟨list,keptD⟩
          · exact encodes_plain m.2
        rw [meets_bind]
        refine (memberTexts_spec members each true "\x7b" keptT).mono (fun text u hu => ?_) (fun error u hu => ?_)
        · obtain ⟨⟨all,encodedAll,joined⟩,keptU⟩ := hu
          rw [meets_bind,meets_modify,meets_pure]
          refine ⟨?_,keptU.document,texts⟩
          rw [dumpJson_ok]
          refine ⟨'\x7b' :: (all ++ ['\x7d']),?_,?_⟩
          · rw [dumpCharacters,encodedAll]
            rfl
          · rw [joined]
            refine String.toList_injective ?_
            have opened : "\x7b".toList=['\x7b'] := rfl
            have closed : "\x7d".toList=['\x7d'] := rfl
            simp [String.toList_append,String.toList_ofList,opened,closed]
        · refine ⟨?_,hu.2⟩
          rw [dumpJson_error,dumpCharacters,hu.1]
          rfl
      · refine ⟨?_,ht.2⟩
        have failed : dumpCharacters spell (.array obstacles)=.error error := by
          rw [dumpCharacters,ht.1]
          rfl
        have first : error=nonfiniteError := dumpCharacters_error _ failed
        rw [dumpJson_error,dumpCharacters,dumpMembers_of_mem here failed,first]
        rfl
    | _ => cases found
  · exact encodes_plain value e kept

/-- A document is encoded plainly, kept or not. -/
theorem documentLocked_encodes {value : Json} (hu : uniqueKeys value=true) : Encodes spell value (documentLocked spell value) := by
  intro e kept
  unfold documentLocked
  rw [meets_bind,meets_get,meets_ite]
  constructor
  · intro same
    rw [meets_pure]
    cases held : e.document with
    | none =>
      rw [held] at same
      cases same
    | some document =>
      rw [held] at same
      have value_ : document=value := sameTextValue_eq _ _ same
      rw [← value_]
      exact ⟨kept.document document held,kept⟩
  · intro _
    rw [meets_bind]
    refine (encodeDocument_encodes hu e kept).mono (fun text t ht => ?_) (fun _ _ ht => ht)
    rw [meets_bind,meets_modify,meets_pure]
    refine ⟨ht.1,fun document held => ?_,ht.2.obstacles⟩
    rw [← Option.some.inj held]
    exact ht.1

/-- An envelope is encoded plainly. -/
theorem dumps_encodes {value : Json} (hu : uniqueKeys value=true) : Encodes spell value (dumps spell value) := by
  intro e kept
  unfold dumps
  split
  · next found =>
    cases value with
    | object members =>
      have inner : ∀ m∈members, uniqueKeys m.2=true := by
        rw [uniqueKeys,Bool.and_eq_true,decide_eq_true_eq] at hu
        exact fun m member => uniqueMembers_lookup hu.2 (lookup_of_mem hu.1 member)
      have each : ∀ m∈members, Encodes spell m.2 ((fun key item =>
          if key="document" then documentLocked spell item else ofResult (dumpJson spell item)) m.1 m.2) := by
        intro m member
        dsimp only
        split
        · exact documentLocked_encodes (inner m member)
        · exact encodes_plain m.2
      rw [meets_bind]
      refine (memberTexts_spec members each true "\x7b" kept).mono (fun text u hu => ?_) (fun error u hu => ?_)
      · obtain ⟨⟨all,encodedAll,joined⟩,keptU⟩ := hu
        rw [meets_pure]
        refine ⟨?_,keptU⟩
        rw [dumpJson_ok]
        refine ⟨'\x7b' :: (all ++ ['\x7d']),?_,?_⟩
        · rw [dumpCharacters,encodedAll]
          rfl
        · rw [joined]
          refine String.toList_injective ?_
          have opened : "\x7b".toList=['\x7b'] := rfl
          have closed : "\x7d".toList=['\x7d'] := rfl
          simp [String.toList_append,String.toList_ofList,opened,closed]
      · refine ⟨?_,hu.2⟩
        rw [dumpJson_error,dumpCharacters,hu.1]
        rfl
    | _ => cases found
  · exact encodes_plain value e kept

/-- Every call of any sequence returns the plain text or fails as the plain
encoding does. -/
theorem performAll_plain {calls : List EncoderCall} (h : ∀ call∈calls, uniqueKeys call.value=true) :
    performAll spell {} calls=calls.map (fun call => dumpJson spell call.value) := by
  have general : ∀ {e : EnvelopeJson}, KeepsTexts spell e → ∀ {calls : List EncoderCall},
      (∀ call∈calls, uniqueKeys call.value=true) →
      performAll spell e calls=calls.map (fun call => dumpJson spell call.value) := by
    intro e kept calls unique
    induction calls generalizing e with
    | nil => rfl
    | cons call rest ih =>
      have encodes : Encodes spell call.value (call.perform spell) := by
        cases call with
        | document value => exact documentLocked_encodes (unique (.document value) (List.mem_cons_self ..))
        | dumps value => exact dumps_encodes (unique (.dumps value) (List.mem_cons_self ..))
      have one := encodes e kept
      unfold Meets at one
      have later := fun c member => unique c (List.mem_cons_of_mem call member)
      rw [performAll,List.map_cons]
      cases performed : call.perform spell e with
      | ok text t =>
        rw [performed] at one
        rw [one.1]
        exact congrArg (List.cons _) (ih one.2 later)
      | error error t =>
        rw [performed] at one
        rw [one.1]
        exact congrArg (List.cons _) (ih one.2 later)
  have new : KeepsTexts spell {} := by
    refine ⟨fun value held => ?_,fun key item found => ?_⟩
    · cases held
    · cases found
  exact general new h

/-- A document, an envelope with a number that has no text, and the document again. -/
theorem performAll_plain_nonfinite :
    performAll (fun _ => "0.0") {} [.document SceneStore.emptyScene,
        .dumps (.object [("document",SceneStore.emptyRoom),("time",.float (0/0))]),.document SceneStore.emptyScene]=
      [dumpJson (fun _ => "0.0") SceneStore.emptyScene,
        dumpJson (fun _ => "0.0") (.object [("document",SceneStore.emptyRoom),("time",.float (0/0))]),
        dumpJson (fun _ => "0.0") SceneStore.emptyScene] := by
  refine performAll_plain (fun call member => ?_)
  simp only [List.mem_cons,List.not_mem_nil,or_false] at member
  rcases member with rfl | rfl | rfl
  · decide
  · decide
  · decide

end Caches

end Ros1Adapter.SceneTextCaches

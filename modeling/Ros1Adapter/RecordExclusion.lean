import Mathlib
import Ros1Adapter.Regexes

/-!
# Topics a recording leaves out

A recording of all topics leaves out the topics that are excluded by name and the
derived copies below one namespace, except for copies that are selected. One
regular expression says so to the recorder, which matches it as a whole.
-/

namespace Ros1Adapter.RecordExclusion

open Regexes

section Pattern

/-- A topic that is left out by name. -/
structure ExcludedTopic where
  /-- Topic. -/
  topic : List Char
  /-- Why. -/
  reason : List Char
  deriving DecidableEq

/-- Root of the derived copies. -/
def displayRoot : List Char := ['/','x','g','c','/','d','i','s','p','l','a','y']

/-- Selected topics below the root of the derived copies. -/
def explicitCopies (topics : List (List Char)) : List (List Char) :=
  topics.filter (fun topic => (displayRoot ++ ['/']).isPrefixOf topic)

/-- Pattern of the derived copies. -/
def derivedPattern (topics : List (List Char)) : List Char :=
  let derived := displayRoot ++ ['(','?',':','/','.','*',')','?']
  let copies := explicitCopies topics
  if copies≠[] then ['(','?','!','(','?',':'] ++ bars (copies.map escape) ++ [')','$',')'] ++ derived else derived

/-- Bytes of a text in UTF-8. -/
def utf8Length (text : List Char) : ℕ := (text.map Char.utf8Size).sum

/-- Pattern of the topics that are left out; an empty one unless all topics are
recorded. -/
def exclusionPattern (topics : List (List Char)) (excluded : List ExcludedTopic) (recordAllTopics : Bool) :
    Except String (List Char) :=
  if topics=[] ∨ ¬topics.all (·.head?==some '/') then .error "trusted ROS bag topic list is invalid"
  else if ¬excluded.all (fun item => item.topic.head?==some '/' && item.reason≠[]) then
    .error "trusted ROS bag excludedTopics are invalid"
  else if excluded.any (fun item => topics.contains item.topic) then
    .error "trusted ROS bag topic list contains an excluded topic"
  else if ¬recordAllTopics then .ok []
  else
    let pattern := ['^','(','?',':'] ++ bars (excluded.map (escape ·.topic) ++ [derivedPattern topics]) ++ [')','$']
    if 96*1024<utf8Length pattern then .error "ROS bag exclusion pattern exceeds 96KiB" else .ok pattern

/-- What the recorder is told to record. -/
def selectionArguments (topics : List (List Char)) (recordAllTopics : Bool) (pattern : List Char) : List (List Char) :=
  if recordAllTopics then ["--all".toList,"--exclude".toList,pattern] else topics

end Pattern

section Meaning

/-- Expression of the derived copies without exceptions. -/
def displayRegex : Regex := .seq (word displayRoot) (.opt (.group (.seq (.char '/') .anyRun)))

/-- Expression of the derived copies. -/
def derivedRegex (topics : List (List Char)) : Regex :=
  let copies := explicitCopies topics
  if copies≠[] then .seq (.notAhead (.seq (.group (oneOf (copies.map word))) .lineEnd)) displayRegex else displayRegex

/-- Expression of the topics that are left out. -/
def exclusionRegex (topics : List (List Char)) (excluded : List ExcludedTopic) : Regex :=
  .seq .lineStart (.seq (.group (oneOf (excluded.map (word ·.topic) ++ [derivedRegex topics]))) .lineEnd)

/-- Names of topics: a slash, then letters, digits, underscores and slashes. -/
def rosTopicName (t : List Char) : Bool :=
  t.head?==some '/' && t.all (fun c => c.isAlphanum || c== '_' || c== '/')

/-- Whether a topic is the root of the derived copies or below it. -/
def Derived (t : List Char) : Prop := t=displayRoot ∨ displayRoot ++ ['/'] <+: t

/-- The pattern of the derived copies is the text of their expression. -/
theorem derivedRegex_render (topics : List (List Char)) : (derivedRegex topics).render=derivedPattern topics := by
  have hdisplay : displayRegex.render=displayRoot ++ ['(','?',':','/','.','*',')','?'] := by decide
  unfold derivedRegex derivedPattern
  simp only
  split
  · have hwords : ((explicitCopies topics).map word).map Regex.render=(explicitCopies topics).map escape := by
      rw [List.map_map]
      exact List.map_congr_left (fun text _ => word_render text)
    simp only [Regex.render,oneOf_render,hwords,hdisplay,List.append_assoc,List.cons_append,List.nil_append]
  · exact hdisplay

/-- An accepted pattern is the text of the expression. -/
theorem exclusionRegex_render {topics : List (List Char)} {excluded : List ExcludedTopic} {pattern : List Char}
    (h : exclusionPattern topics excluded true=.ok pattern) :
    (exclusionRegex topics excluded).render=pattern ∧ ∀ item∈excluded, item.topic∉topics := by
  unfold exclusionPattern at h
  split at h
  · cases h
  split at h
  · cases h
  split at h
  · cases h
  rename_i hdisjoint
  rw [if_neg (by simp)] at h
  simp only at h
  split at h
  · cases h
  cases h
  constructor
  · have hwords : (excluded.map (word ·.topic)).map Regex.render=excluded.map (escape ·.topic) := by
      rw [List.map_map]
      exact List.map_congr_left (fun item _ => word_render item.topic)
    unfold exclusionRegex
    simp only [Regex.render,oneOf_render,List.map_append,hwords,List.map_cons,List.map_nil,derivedRegex_render,List.append_assoc,
      List.cons_append,List.nil_append]
  · intro item hitem hin
    exact hdisjoint (List.any_eq_true.mpr ⟨item,hitem,List.contains_iff_mem.mpr hin⟩)

/-- Continuation of the whole match behind the last anchor. -/
def atEnd : Option Char → List Char → Bool := fun before rest => Regex.lineEnd.run before rest (fun _ rest => rest.isEmpty)

/-- It accepts the end of the text only. -/
theorem atEnd_iff (before : Option Char) (rest : List Char) : atEnd before rest=true ↔ rest=[] := by
  unfold atEnd
  rw [Regex.run,Bool.and_eq_true,List.isEmpty_iff]
  constructor
  · exact fun h => h.2
  · rintro rfl
    exact ⟨rfl,rfl⟩

/-- The expression of the derived copies without exceptions matches their names. -/
theorem displayRegex_run (before : Option Char) (t : List Char) : displayRegex.run before t atEnd=true ↔ Derived t := by
  unfold displayRegex Derived
  rw [Regex.run,word_run]
  constructor
  · rintro ⟨tail,rfl,h⟩
    rw [Regex.run,Bool.or_eq_true,Regex.run,Regex.run,atEnd_iff] at h
    rcases h with h | rfl
    · cases tail with
      | nil => cases h
      | cons c tail =>
        rw [Regex.run,Bool.and_eq_true,beq_iff_eq] at h
        rw [h.1]
        exact Or.inr ⟨tail,by rw [List.append_assoc]; rfl⟩
    · exact Or.inl (List.append_nil displayRoot)
  · rintro (rfl | ⟨tail,rfl⟩)
    · refine ⟨[],(List.append_nil displayRoot).symm,?_⟩
      rw [Regex.run,Bool.or_eq_true,atEnd_iff]
      exact Or.inr rfl
    · refine ⟨'/'::tail,by rw [List.append_assoc]; rfl,?_⟩
      rw [Regex.run,Bool.or_eq_true,Regex.run,Regex.run,Regex.run,Bool.and_eq_true,Regex.run]
      exact Or.inl ⟨rfl,anyTails_of_nil tail (fun before => (atEnd_iff before []).mpr rfl) _⟩

/-- The exception of the expression matches the selected copies. -/
theorem copies_run {copies : List (List Char)} (hne : copies≠[]) {t : List Char} (ht : '\n'∉t) (before : Option Char) :
    (Regex.seq (.group (oneOf (copies.map word))) .lineEnd).run before t (fun _ _ => true)=true ↔ t∈copies := by
  rw [Regex.run,Regex.run,oneOf_run (by rwa [ne_eq,List.map_eq_nil_iff])]
  constructor
  · rintro ⟨p,hp,h⟩
    obtain ⟨copy,hcopy,rfl⟩ := List.mem_map.mp hp
    obtain ⟨tail,rfl,hend⟩ := (word_run copy before t _).mp h
    rw [Regex.run,Bool.and_true,Bool.or_eq_true,beq_iff_eq,beq_iff_eq] at hend
    rcases hend with rfl | hend
    · rwa [List.append_nil]
    · exact absurd (List.mem_append_right copy (List.mem_of_head? hend)) ht
  · intro h
    refine ⟨word t,List.mem_map_of_mem h,(word_run t before t _).mpr ⟨[],(List.append_nil t).symm,rfl⟩⟩

/-- The expression matches the topics excluded by name, and the derived copies that
are not selected below the root. -/
theorem exclusionRegex_matches (topics : List (List Char)) (excluded : List ExcludedTopic) {t : List Char} (ht : '\n'∉t) :
    (exclusionRegex topics excluded).matchesWhole t=true ↔
      (∃ item∈excluded, item.topic=t) ∨ (Derived t ∧ t∉explicitCopies topics) := by
  have hwhole : (exclusionRegex topics excluded).matchesWhole t=
      (oneOf (excluded.map (word ·.topic) ++ [derivedRegex topics])).run none t atEnd := rfl
  have hderived : (derivedRegex topics).run none t atEnd=true ↔ Derived t ∧ t∉explicitCopies topics := by
    unfold derivedRegex
    simp only
    split
    · rename_i hne
      rw [Regex.run,Regex.run,Bool.and_eq_true,displayRegex_run,Bool.not_eq_true',←Bool.not_eq_true,copies_run hne ht,and_comm]
    · rename_i hempty
      rw [displayRegex_run,not_not.mp hempty]
      exact ⟨fun h => ⟨h,List.not_mem_nil⟩,And.left⟩
  rw [hwhole,oneOf_run (List.append_ne_nil_of_right_ne_nil _ (List.cons_ne_nil _ _)),←hderived]
  constructor
  · rintro ⟨p,hp,h⟩
    rcases List.mem_append.mp hp with hp | hp
    · obtain ⟨item,hitem,rfl⟩ := List.mem_map.mp hp
      obtain ⟨tail,rfl,hend⟩ := (word_run item.topic none t atEnd).mp h
      rw [atEnd_iff] at hend
      rw [hend,List.append_nil]
      exact Or.inl ⟨item,hitem,rfl⟩
    · rw [List.mem_singleton.mp hp] at h
      exact Or.inr h
  · rintro (⟨item,hitem,rfl⟩ | h)
    · refine ⟨word item.topic,List.mem_append_left _ (List.mem_map_of_mem (f := (word ·.topic)) hitem),?_⟩
      exact (word_run _ none _ atEnd).mpr ⟨[],(List.append_nil _).symm,(atEnd_iff _ []).mpr rfl⟩
    · exact ⟨_,List.mem_append_right _ (List.mem_singleton_self _),h⟩

/-- A name of a topic has no line break. -/
theorem rosTopicName_line {t : List Char} (h : rosTopicName t=true) : '\n'∉t := by
  intro hin
  unfold rosTopicName at h
  rw [Bool.and_eq_true] at h
  have hc := List.all_eq_true.mp h.2 '\n' hin
  revert hc
  decide

/-- For every accepted selection of a recording of all topics, the recorder is told to
leave out what one expression matches, and it matches
just the topics excluded by name and the derived copies that are not selected, for
all names of topics, if and only if the root of the derived copies is not selected. -/
theorem exclusion_exact {topics : List (List Char)} {excluded : List ExcludedTopic} {pattern : List Char}
    (h : exclusionPattern topics excluded true=.ok pattern) :
    selectionArguments topics true pattern=["--all".toList,"--exclude".toList,(exclusionRegex topics excluded).render] ∧
    ((∀ t, rosTopicName t=true → ((exclusionRegex topics excluded).matchesWhole t=true ↔
      (∃ item∈excluded, item.topic=t) ∨ (Derived t ∧ t∉topics))) ↔ displayRoot∉topics) := by
  obtain ⟨hrender,hdisjoint⟩ := exclusionRegex_render h
  refine ⟨by rw [hrender]; rfl,fun hall hroot => ?_,fun hroot t ht => ?_⟩
  · -- the root is selected and matched
    have hnot : displayRoot∉explicitCopies topics := fun hin => by
      have hbelow := (List.mem_filter.mp hin).2
      revert hbelow
      decide
    have hmatch := (exclusionRegex_matches topics excluded (rosTopicName_line (t := displayRoot) rfl)).mpr
      (Or.inr ⟨Or.inl rfl,hnot⟩)
    rcases (hall displayRoot rfl).mp hmatch with ⟨item,hitem,htopic⟩ | hselected
    · exact hdisjoint item hitem (htopic ▸ hroot)
    · exact hselected.2 hroot
  · have hcopies : Derived t → (t∈explicitCopies topics ↔ t∈topics) := by
      intro hderived
      unfold explicitCopies
      rw [List.mem_filter]
      refine ⟨And.left,fun hin => ⟨hin,?_⟩⟩
      rcases hderived with rfl | hbelow
      · exact absurd hin hroot
      · exact List.isPrefixOf_iff_prefix.mpr hbelow
    rw [exclusionRegex_matches topics excluded (rosTopicName_line ht)]
    refine or_congr Iff.rfl (and_congr_right (fun hderived => not_congr (hcopies hderived)))

/-- The root of the derived copies is selected and excluded. -/
theorem selected_root_excluded :
    ∃ pattern, exclusionPattern [displayRoot] [] true=.ok pattern ∧ (exclusionRegex [displayRoot] []).render=pattern ∧
      rosTopicName displayRoot=true ∧ (exclusionRegex [displayRoot] []).matchesWhole displayRoot=true ∧
      displayRoot∈[displayRoot] := by
  refine ⟨_,rfl,?_,?_,?_,List.mem_singleton_self _⟩
  · decide
  · decide
  · decide

/-- A selected copy and an excluded topic. -/
theorem exclusion_exact_pair :
    (exclusionRegex [displayRoot ++ ['/','a']] [⟨['/','b'],['r']⟩]).matchesWhole (displayRoot ++ ['/','a'])=true ↔
      (∃ item∈[(⟨['/','b'],['r']⟩ : ExcludedTopic)], item.topic=displayRoot ++ ['/','a']) ∨
        (Derived (displayRoot ++ ['/','a']) ∧ displayRoot ++ ['/','a']∉[displayRoot ++ ['/','a']]) := by
  have haccept : ∃ pattern, exclusionPattern [displayRoot ++ ['/','a']] [⟨['/','b'],['r']⟩] true=.ok pattern := ⟨_,rfl⟩
  obtain ⟨pattern,h⟩ := haccept
  exact (exclusion_exact h).2.mpr (by decide) _ rfl

end Meaning

end Ros1Adapter.RecordExclusion

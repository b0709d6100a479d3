import Mathlib.Tactic.Common
import Ros1Adapter.PatternResiduals

/-!
# Languages of patterns

The texts of a pattern, by its structure. The residuals of a pattern are
exactly what is left behind its texts, so that whole-text matching decides
membership.
-/

namespace Ros1Adapter.PatternLanguage

open PatternResiduals

/-- Texts of a pattern. -/
def Matches : Pattern → List Char → Prop
  | .oneOf accepts,text => ∃ c, text=[c] ∧ accepts c=true
  | .nothing,text => text=[]
  | .seq first second,text => ∃ head tail, text=head ++ tail ∧ Matches first head ∧ Matches second tail
  | .alt first second,text => Matches first text ∨ Matches second text
  | .repeated body least extra,text =>
    ∃ pieces : List (List Char), text=pieces.flatten ∧ (∀ piece∈pieces, Matches body piece) ∧
      least ≤ pieces.length ∧ pieces.length ≤ least+extra
  | .star body,text => ∃ pieces : List (List Char), text=pieces.flatten ∧ ∀ piece∈pieces, Matches body piece

section Runs

variable {run : List Char → List (List Char)} {accepted : List Char → Prop}

/-- A residual function leaves what is behind accepted texts. -/
def Leaves (run : List Char → List (List Char)) (accepted : List Char → Prop) : Prop :=
  ∀ text rest, rest∈run text ↔ ∃ used, text=used ++ rest ∧ accepted used

/-- Exactly so many runs use exactly so many accepted texts. -/
theorem exactly_iff (h : Leaves run accepted) (count : ℕ) (text rest : List Char) :
    rest∈Pattern.exactly run count text ↔
      ∃ pieces : List (List Char), text=pieces.flatten ++ rest ∧ pieces.length=count ∧
        ∀ piece∈pieces, accepted piece := by
  induction count generalizing text with
  | zero =>
    unfold Pattern.exactly
    rw [List.mem_singleton]
    constructor
    · rintro rfl
      exact ⟨[],rfl,rfl,by simp⟩
    · rintro ⟨pieces,htext,hlength,_⟩
      rw [List.length_eq_zero_iff] at hlength
      rw [htext,hlength]
      rfl
  | succ count ih =>
    unfold Pattern.exactly
    rw [List.mem_flatMap]
    constructor
    · rintro ⟨middle,hmiddle,hrest⟩
      obtain ⟨used,htext,hused⟩ := (h text middle).mp hmiddle
      obtain ⟨pieces,hsplit,hlength,hall⟩ := (ih middle).mp hrest
      refine ⟨used::pieces,?_,by rw [List.length_cons,hlength],List.forall_mem_cons.mpr ⟨hused,hall⟩⟩
      rw [htext,hsplit,List.flatten_cons,List.append_assoc]
    · rintro ⟨pieces,htext,hlength,hall⟩
      cases pieces with
      | nil => cases hlength
      | cons used pieces =>
        obtain ⟨hused,hall⟩ := List.forall_mem_cons.mp hall
        rw [List.flatten_cons,List.append_assoc] at htext
        refine ⟨pieces.flatten ++ rest,(h text _).mpr ⟨used,htext,hused⟩,(ih _).mpr ⟨pieces,rfl,?_,hall⟩⟩
        rw [List.length_cons] at hlength
        omega

/-- At most so many runs use at most so many accepted texts that are not empty. -/
theorem upTo_iff (h : Leaves run accepted) (count : ℕ) (text rest : List Char) :
    rest∈Pattern.upTo run count text ↔
      ∃ pieces : List (List Char), text=pieces.flatten ++ rest ∧ pieces.length ≤ count ∧
        ∀ piece∈pieces, accepted piece ∧ piece≠[] := by
  induction count generalizing text with
  | zero =>
    unfold Pattern.upTo
    rw [List.mem_singleton]
    constructor
    · rintro rfl
      exact ⟨[],rfl,Nat.le_refl _,by simp⟩
    · rintro ⟨pieces,htext,hlength,_⟩
      rw [Nat.le_zero,List.length_eq_zero_iff] at hlength
      rw [htext,hlength]
      rfl
  | succ count ih =>
    unfold Pattern.upTo
    rw [List.mem_cons,List.mem_flatMap]
    constructor
    · rintro (rfl | ⟨middle,hmiddle,hrest⟩)
      · exact ⟨[],rfl,Nat.zero_le _,by simp⟩
      · obtain ⟨hmem,hshorter⟩ := List.mem_filter.mp hmiddle
        obtain ⟨used,htext,hused⟩ := (h text middle).mp hmem
        obtain ⟨pieces,hsplit,hlength,hall⟩ := (ih middle).mp hrest
        have hne : used≠[] := by
          rintro rfl
          rw [List.nil_append] at htext
          rw [htext,decide_eq_true_eq] at hshorter
          omega
        refine ⟨used::pieces,?_,?_,List.forall_mem_cons.mpr ⟨⟨hused,hne⟩,hall⟩⟩
        · rw [htext,hsplit,List.flatten_cons,List.append_assoc]
        · rw [List.length_cons]
          omega
    · rintro ⟨pieces,htext,hlength,hall⟩
      cases pieces with
      | nil => exact Or.inl (by simpa using htext.symm)
      | cons used pieces =>
        obtain ⟨⟨hused,hne⟩,hall⟩ := List.forall_mem_cons.mp hall
        rw [List.flatten_cons,List.append_assoc] at htext
        have hpositive := List.length_pos_iff.mpr hne
        refine Or.inr ⟨pieces.flatten ++ rest,List.mem_filter.mpr ⟨(h text _).mpr ⟨used,htext,hused⟩,?_⟩,
          (ih _).mpr ⟨pieces,rfl,?_,hall⟩⟩
        · rw [decide_eq_true_eq,htext]
          simp only [List.length_append]
          omega
        · rw [List.length_cons] at hlength
          omega

/-- Empty texts can be left out of a list of accepted ones. -/
theorem drop_empty {pieces : List (List Char)} (h : ∀ piece∈pieces, accepted piece) :
    ∃ kept : List (List Char), kept.flatten=pieces.flatten ∧ kept.length ≤ pieces.length ∧
      ∀ piece∈kept, accepted piece ∧ piece≠[] := by
  induction pieces with
  | nil => exact ⟨[],rfl,Nat.le_refl _,by simp⟩
  | cons piece rest ih =>
    obtain ⟨hpiece,hrest⟩ := List.forall_mem_cons.mp h
    obtain ⟨kept,hflatten,hlength,hall⟩ := ih hrest
    by_cases hempty : piece=[]
    · refine ⟨kept,?_,?_,hall⟩
      · rw [hflatten,hempty,List.flatten_cons,List.nil_append]
      · rw [List.length_cons]
        omega
    · refine ⟨piece::kept,?_,?_,List.forall_mem_cons.mpr ⟨⟨hpiece,hempty⟩,hall⟩⟩
      · rw [List.flatten_cons,List.flatten_cons,hflatten]
      · rw [List.length_cons,List.length_cons]
        omega

/-- Texts that are not empty are at most as many as their characters. -/
theorem length_le_flatten {pieces : List (List Char)} (h : ∀ piece∈pieces, piece≠[]) :
    pieces.length ≤ pieces.flatten.length := by
  induction pieces with
  | nil => exact Nat.le_refl _
  | cons piece rest ih =>
    obtain ⟨hpiece,hrest⟩ := List.forall_mem_cons.mp h
    have hpositive := List.length_pos_iff.mpr hpiece
    have htail := ih hrest
    rw [List.length_cons,List.flatten_cons,List.length_append]
    omega

end Runs

/-- The residuals of a pattern are what its texts leave. -/
theorem residuals_iff (pattern : Pattern) : Leaves pattern.residuals (Matches pattern) := by
  induction pattern with
  | oneOf accepts =>
    intro text rest
    unfold Pattern.residuals Matches
    cases text with
    | nil =>
      constructor
      · intro h
        cases h
      · rintro ⟨used,htext,c,rfl,_⟩
        cases htext
    | cons c tail =>
      dsimp only
      constructor
      · intro h
        split at h
        · rename_i haccepts
          rw [List.mem_singleton.mp h]
          exact ⟨[c],rfl,c,rfl,haccepts⟩
        · cases h
      · rintro ⟨used,htext,d,rfl,haccepts⟩
        rw [List.singleton_append,List.cons.injEq] at htext
        obtain ⟨rfl,rfl⟩ := htext
        rw [if_pos haccepts]
        exact List.mem_singleton_self _
  | nothing =>
    intro text rest
    unfold Pattern.residuals Matches
    rw [List.mem_singleton]
    constructor
    · rintro rfl
      exact ⟨[],rfl,rfl⟩
    · rintro ⟨used,htext,rfl⟩
      exact htext.symm
  | seq first second ihf ihs =>
    intro text rest
    unfold Pattern.residuals Matches
    rw [List.mem_flatMap]
    constructor
    · rintro ⟨middle,hmiddle,hrest⟩
      obtain ⟨head,htext,hhead⟩ := (ihf text middle).mp hmiddle
      obtain ⟨tail,hsplit,htail⟩ := (ihs middle rest).mp hrest
      refine ⟨head ++ tail,?_,head,tail,rfl,hhead,htail⟩
      rw [htext,hsplit,List.append_assoc]
    · rintro ⟨used,htext,head,tail,rfl,hhead,htail⟩
      rw [List.append_assoc] at htext
      exact ⟨tail ++ rest,(ihf text _).mpr ⟨head,htext,hhead⟩,(ihs _ rest).mpr ⟨tail,rfl,htail⟩⟩
  | alt first second ihf ihs =>
    intro text rest
    unfold Pattern.residuals Matches
    rw [List.mem_append,ihf text rest,ihs text rest]
    constructor
    · rintro (⟨used,htext,hused⟩ | ⟨used,htext,hused⟩)
      · exact ⟨used,htext,Or.inl hused⟩
      · exact ⟨used,htext,Or.inr hused⟩
    · rintro ⟨used,htext,hused | hused⟩
      · exact Or.inl ⟨used,htext,hused⟩
      · exact Or.inr ⟨used,htext,hused⟩
  | repeated body least extra ih =>
    intro text rest
    unfold Pattern.residuals Matches
    rw [List.mem_flatMap]
    constructor
    · rintro ⟨middle,hmiddle,hrest⟩
      obtain ⟨pieces,htext,hlength,hall⟩ := (exactly_iff ih least text middle).mp hmiddle
      obtain ⟨more,hsplit,hmore,hothers⟩ := (upTo_iff ih extra middle rest).mp hrest
      refine ⟨(pieces ++ more).flatten,?_,pieces ++ more,rfl,?_,?_,?_⟩
      · rw [htext,hsplit,List.flatten_append,List.append_assoc]
      · intro piece hp
        rcases List.mem_append.mp hp with hp | hp
        · exact hall piece hp
        · exact (hothers piece hp).1
      · rw [List.length_append]
        omega
      · rw [List.length_append]
        omega
    · rintro ⟨used,htext,pieces,rfl,hall,hleast,hmost⟩
      have hsplit := List.take_append_drop least pieces
      obtain ⟨kept,hflatten,hlength,hkept⟩ := drop_empty
        (fun piece hp => hall piece (List.mem_of_mem_drop hp) : ∀ piece∈pieces.drop least, Matches body piece)
      rw [List.length_drop] at hlength
      refine ⟨(pieces.drop least).flatten ++ rest,(exactly_iff ih least text _).mpr
        ⟨pieces.take least,?_,?_,fun piece hp => hall piece (List.mem_of_mem_take hp)⟩,
        (upTo_iff ih extra _ rest).mpr ⟨kept,by rw [hflatten],by omega,hkept⟩⟩
      · rw [htext,←List.append_assoc,←List.flatten_append,hsplit]
      · rw [List.length_take]
        omega
  | star body ih =>
    intro text rest
    unfold Pattern.residuals Matches
    rw [upTo_iff ih]
    constructor
    · rintro ⟨pieces,htext,_,hall⟩
      exact ⟨pieces.flatten,htext,pieces,rfl,fun piece hp => (hall piece hp).1⟩
    · rintro ⟨used,htext,pieces,rfl,hall⟩
      obtain ⟨kept,hflatten,_,hkept⟩ := drop_empty hall
      have hbound := length_le_flatten (fun piece hp => (hkept piece hp).2)
      refine ⟨kept,by rw [htext,hflatten],?_,hkept⟩
      rw [htext,←hflatten,List.length_append]
      omega

/-- Whole-text matching decides membership. -/
theorem matchesText_iff (pattern : Pattern) (text : String) :
    pattern.matchesText text=true ↔ Matches pattern text.toList := by
  unfold Pattern.matchesText
  rw [List.any_eq_true]
  constructor
  · rintro ⟨rest,hrest,hempty⟩
    obtain ⟨used,htext,hused⟩ := (residuals_iff pattern _ _).mp hrest
    rw [List.isEmpty_iff.mp hempty,List.append_nil] at htext
    rw [htext]
    exact hused
  · intro h
    exact ⟨[],(residuals_iff pattern _ _).mpr ⟨text.toList,(List.append_nil _).symm,h⟩,rfl⟩

section Characters

/-- Every character that a pattern reads is of a class. -/
def Within (allowed : Char → Prop) : Pattern → Prop
  | .oneOf accepts => ∀ c, accepts c=true → allowed c
  | .nothing => True
  | .seq first second => Within allowed first ∧ Within allowed second
  | .alt first second => Within allowed first ∧ Within allowed second
  | .repeated body _ _ => Within allowed body
  | .star body => Within allowed body

/-- Characters of a text are of the class of its pattern. -/
theorem Matches.within {allowed : Char → Prop} {pattern : Pattern} (hw : Within allowed pattern) {text : List Char}
    (h : Matches pattern text) : ∀ c∈text, allowed c := by
  induction pattern generalizing text with
  | oneOf accepts =>
    obtain ⟨d,rfl,haccepts⟩ := h
    intro c hc
    rw [List.mem_singleton.mp hc]
    exact hw d haccepts
  | nothing =>
    intro c hc
    rw [h] at hc
    cases hc
  | seq first second ihf ihs =>
    obtain ⟨head,tail,rfl,hhead,htail⟩ := h
    intro c hc
    rcases List.mem_append.mp hc with hc | hc
    · exact ihf hw.1 hhead c hc
    · exact ihs hw.2 htail c hc
  | alt first second ihf ihs =>
    rcases h with h | h
    · exact ihf hw.1 h
    · exact ihs hw.2 h
  | repeated body least extra ih =>
    obtain ⟨pieces,rfl,hall,_⟩ := h
    intro c hc
    obtain ⟨piece,hp,hc⟩ := List.mem_flatten.mp hc
    exact ih hw (hall piece hp) c hc
  | star body ih =>
    obtain ⟨pieces,rfl,hall⟩ := h
    intro c hc
    obtain ⟨piece,hp,hc⟩ := List.mem_flatten.mp hc
    exact ih hw (hall piece hp) c hc

/-- Characters of a literal. -/
theorem within_literal {allowed : Char → Prop} {text : String} (h : ∀ c∈text.toList, allowed c) :
    Within allowed (Pattern.literal text) := by
  unfold Pattern.literal
  generalize text.toList=characters at h
  induction characters with
  | nil => exact trivial
  | cons c rest ih =>
    obtain ⟨hc,hrest⟩ := List.forall_mem_cons.mp h
    refine ⟨?_,ih hrest⟩
    intro d hd
    rw [eq_of_beq hd]
    exact hc

/-- Characters of literals. -/
theorem within_anyLiteral {allowed : Char → Prop} {texts : List String}
    (h : ∀ text∈texts, ∀ c∈text.toList, allowed c) : Within allowed (Pattern.anyLiteral texts) := by
  induction texts with
  | nil =>
    intro c hc
    cases hc
  | cons text rest ih =>
    obtain ⟨htext,hrest⟩ := List.forall_mem_cons.mp h
    cases rest with
    | nil => exact within_literal htext
    | cons next others => exact ⟨within_literal htext,ih hrest⟩

/-- A character that every text of a pattern has. -/
def Needs (needed : Char) : Pattern → Prop
  | .oneOf accepts => ∀ c, accepts c=true → c=needed
  | .nothing => False
  | .seq first second => Needs needed first ∨ Needs needed second
  | .alt first second => Needs needed first ∧ Needs needed second
  | .repeated body least _ => 0<least ∧ Needs needed body
  | .star _ => False

/-- A needed character is in every text. -/
theorem Matches.needs {needed : Char} {pattern : Pattern} (hn : Needs needed pattern) {text : List Char}
    (h : Matches pattern text) : needed∈text := by
  induction pattern generalizing text with
  | oneOf accepts =>
    obtain ⟨c,rfl,haccepts⟩ := h
    rw [hn c haccepts]
    exact List.mem_singleton_self _
  | nothing | star _ _ => exact hn.elim
  | seq first second ihf ihs =>
    obtain ⟨head,tail,rfl,hhead,htail⟩ := h
    rw [List.mem_append]
    exact hn.imp (fun hf => ihf hf hhead) (fun hs => ihs hs htail)
  | alt first second ihf ihs =>
    rcases h with h | h
    · exact ihf hn.1 h
    · exact ihs hn.2 h
  | repeated body least extra ih =>
    obtain ⟨pieces,rfl,hall,hleast,_⟩ := h
    obtain ⟨hpositive,hbody⟩ := hn
    obtain ⟨piece,hp⟩ := List.exists_mem_of_length_pos (Nat.lt_of_lt_of_le hpositive hleast)
    exact List.mem_flatten.mpr ⟨piece,hp,ih hbody (hall piece hp)⟩

end Characters

section Texts

/-- Characters of a class one after another. -/
theorem matches_star {accepts : Char → Bool} {text : List Char} (h : ∀ c∈text, accepts c=true) :
    Matches (.star (.oneOf accepts)) text := by
  refine ⟨text.map (fun c => [c]),?_,?_⟩
  · induction text with
    | nil => rfl
    | cons c rest ih =>
      have hrest := ih (fun d hd => h d (List.mem_cons_of_mem c hd))
      rw [List.map_cons,List.flatten_cons,←hrest,List.singleton_append]
  · intro piece hp
    obtain ⟨c,hc,rfl⟩ := List.mem_map.mp hp
    exact ⟨c,rfl,h c hc⟩

/-- At least one character of a class. -/
theorem matches_plus {accepts : Char → Bool} {text : List Char} (hne : text≠[])
    (h : ∀ c∈text, accepts c=true) : Matches (Pattern.plus (.oneOf accepts)) text := by
  cases text with
  | nil => exact absurd rfl hne
  | cons c rest =>
    obtain ⟨hc,hrest⟩ := List.forall_mem_cons.mp h
    exact ⟨[c],rest,rfl,⟨c,rfl,hc⟩,matches_star hrest⟩

/-- An optional text that is absent. -/
theorem matches_absent (body : Pattern) : Matches (Pattern.optional body) [] :=
  ⟨[],rfl,by simp,Nat.le_refl _,Nat.zero_le _⟩

/-- An optional text that is present. -/
theorem matches_present {body : Pattern} {text : List Char} (h : Matches body text) :
    Matches (Pattern.optional body) text := by
  refine ⟨[text],?_,?_,Nat.zero_le _,Nat.le_refl _⟩
  · rw [List.flatten_cons,List.flatten_nil,List.append_nil]
  · intro piece hp
    rw [List.mem_singleton.mp hp]
    exact h

/-- A single character. -/
theorem matches_char {accepts : Char → Bool} {c : Char} (h : accepts c=true) : Matches (.oneOf accepts) [c] :=
  ⟨c,rfl,h⟩

/-- Texts of a sequence, part by part. -/
theorem matches_sequence {part : Pattern} {parts : List Pattern} {head tail : List Char}
    (hh : Matches part head) (ht : Matches (Pattern.sequence parts) tail) :
    Matches (Pattern.sequence (part::parts)) (head ++ tail) :=
  ⟨head,tail,rfl,hh,ht⟩

/-- The empty sequence has the empty text. -/
theorem matches_done : Matches (Pattern.sequence []) [] := rfl

end Texts

end Ros1Adapter.PatternLanguage

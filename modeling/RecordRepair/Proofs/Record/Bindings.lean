import RecordRepair.Proofs.Descriptor.Rendering
import RecordRepair.Proofs.Signature.Trails
import RecordRepair.Record.Bindings

/-! # What bindings list

A member adds to the bindings the type variables that its signature uses without declaring them.

* `Bindings.collect_of_walk`: the names that an accepted signature adds are its free type variables
  (`IsFree`).
* `Bindings.mem_entries_collect` says where an entry comes from, whether the signature is accepted
  or not.
* `Bindings.HasProperNames`: the names of type variables are names as the grammar has them.
* `Bindings.HasPlainBounds`: no bound has a `;`.  This is all that a descriptor promises about the
  name of a class. -/

namespace RecordRepair

open Signature

variable {kind : Kind} {text name n : String} {declared : List String}

theorem exists_of_bind_eq_ok {ε α β : Type} {x : Except ε α} {f : α → Except ε β} {b : β}
    (h : x >>= f = .ok b) : ∃ a, x = .ok a ∧ f a = .ok b := by
  cases x with
  | error error => cases h
  | ok a => exact ⟨a, rfl, h⟩

/-! ### The names of bindings -/

/-- A variable is free if its signature does not declare it.  That a place knows some type
parameters makes no difference, since all of them are known from the start. -/
theorem Member.freeVariable?_eq {step : Signature.Event × Place}
    (hd : declaredParameters kind text = .ok declared) (hs : step ∈ (trail kind text).steps) :
    freeVariable? declared step =
      step.1.reference?.filter fun name => !declared.contains name := by
  unfold freeVariable?
  congr 1
  funext name
  cases hp : step.2.declares name with
  | false => simp
  | true =>
      rw [Place.declares, List.contains_iff_mem] at hp
      rw [trail_steps] at hs
      have hn : name ∈ declared := by
        rcases Place.declared_of_mem_along hs hp with hp | hp
        · cases hp
        · exact (mem_declaredParameters_iff hd).2 hp
      simp [hn]

/-- What a trail observes are the free type variables. -/
theorem mem_observations_iff {evidence : Evidence}
    (hd : declaredParameters kind text = .ok declared) :
    n ∈ (Member.observations evidence declared (trail kind text).steps).map Prod.fst ↔
      IsFree kind text n := by
  have hmem : n ∈ (Member.observations evidence declared (trail kind text).steps).map Prod.fst ↔
      ∃ step ∈ (trail kind text).steps, Member.freeVariable? declared step = some n := by
    simp [Member.observations, List.mem_filterMap]
  have hevents : (trail kind text).steps.map Prod.fst = (walk kind text).events := by
    rw [trail_steps, Place.map_fst_along]
  rw [hmem, IsFree, ← mem_declaredParameters_iff hd, ← hevents]
  constructor
  · rintro ⟨step, hs, hf⟩
    rw [Member.freeVariable?_eq hd hs] at hf
    obtain ⟨hr, hn⟩ := Option.filter_eq_some_iff.1 hf
    refine ⟨?_, by simpa using hn⟩
    rw [← Event.reference?_eq_some_iff.1 hr]
    exact List.mem_map_of_mem hs
  · rintro ⟨hm, hn⟩
    obtain ⟨step, hs, he⟩ := List.mem_map.1 hm
    refine ⟨step, hs, ?_⟩
    rw [Member.freeVariable?_eq hd hs, Event.reference?_eq_some_iff.2 he]
    simp [Option.filter, hn]

namespace Bindings

variable {bindings : Bindings}

theorem mem_names_observe {erasure : Option String} :
    n ∈ (bindings.observe name erasure).names ↔ n ∈ bindings.names ∨ n = name := by
  obtain ⟨entries⟩ := bindings
  rw [observe, names, names]
  induction entries with
  | nil => simp [observeIn]
  | cons entry rest ih =>
      obtain ⟨m, bound⟩ := entry
      rw [observeIn]
      split
      · next hm => simp [hm, or_comm]
      · simp only [List.map_cons, List.mem_cons, or_assoc] at ih ⊢
        rw [ih]

theorem mem_names_foldl_observe {found : List (String × Option String)} :
    n ∈ (found.foldl (fun b o => b.observe o.1 o.2) bindings).names ↔
      n ∈ bindings.names ∨ n ∈ found.map Prod.fst := by
  induction found generalizing bindings with
  | nil => simp
  | cons o found ih =>
      rw [List.foldl_cons, ih, mem_names_observe, List.map_cons, List.mem_cons, or_assoc]

theorem collect_snd (bindings : Bindings) (member : Member) :
    (bindings.collect member).2 = validate member.kind member.signature := by
  rw [collect]
  split
  · next error hd => exact (validate_eq_error_iff.2 (error_of_declaredParameters hd)).symm
  · rfl

theorem collect_of_walk (member : Member) (h : (walk member.kind member.signature).error = none) :
    (bindings.collect member).2 = .ok () ∧ ∀ n, n ∈ (bindings.collect member).1.names ↔
      n ∈ bindings.names ∨ IsFree member.kind member.signature n := by
  have hd := declaredParameters_of_walk h
  refine ⟨(collect_snd bindings member).trans (validate_eq_ok_iff.2 h), fun n => ?_⟩
  rw [collect, hd]
  exact mem_names_foldl_observe.trans (or_congr_right (mem_observations_iff hd))

theorem walk_of_collect {member : Member} (h : (bindings.collect member).2 = .ok ()) :
    (walk member.kind member.signature).error = none :=
  validate_eq_ok_iff.1 ((collect_snd bindings member).symm.trans h)

end Bindings

/-! ### The entries of bindings -/

namespace Bindings

variable {bindings : Bindings} {entry : String × Bound}

theorem mem_entries_observe {erasure : Option String}
    (h : entry ∈ (bindings.observe name erasure).entries) :
    entry ∈ bindings.entries ∨ entry = (name, .ofErasure? erasure) := by
  obtain ⟨entries⟩ := bindings
  rw [observe] at h
  induction entries with
  | nil => exact Or.inr (List.mem_singleton.1 h)
  | cons first rest ih =>
      obtain ⟨m, bound⟩ := first
      rw [observeIn] at h
      split at h
      · next hm =>
          rcases List.mem_cons.1 h with rfl | h
          · cases bound with
            | erased e => exact Or.inl List.mem_cons_self
            | unresolved => exact Or.inr (by rw [hm]; rfl)
          · exact Or.inl (List.mem_cons_of_mem _ h)
      · rcases List.mem_cons.1 h with rfl | h
        · exact Or.inl List.mem_cons_self
        · exact (ih h).imp_left (List.mem_cons_of_mem _)

theorem mem_entries_foldl_observe {found : List (String × Option String)}
    (h : entry ∈ (found.foldl (fun b o => b.observe o.1 o.2) bindings).entries) :
    entry ∈ bindings.entries ∨ ∃ o ∈ found, entry = (o.1, .ofErasure? o.2) := by
  induction found generalizing bindings with
  | nil => exact Or.inl h
  | cons o found ih =>
      rcases ih h with h | ⟨o', hm, he⟩
      · rcases mem_entries_observe h with h | he
        · exact Or.inl h
        · exact Or.inr ⟨o, List.mem_cons_self, he⟩
      · exact Or.inr ⟨o', List.mem_cons_of_mem o hm, he⟩

/-- Where an entry comes from, whether the signature is accepted or not. -/
theorem mem_entries_collect {member : Member} (h : entry ∈ (bindings.collect member).1.entries) :
    entry ∈ bindings.entries ∨
      (.typeVariable entry.1 ∈ (walk member.kind member.signature).events ∧
        ∃ place, entry.2 = .ofErasure? (member.evidence.at? place)) := by
  rw [collect] at h
  split at h
  · exact Or.inl h
  · rcases mem_entries_foldl_observe h with h | ⟨o, ho, rfl⟩
    · exact Or.inl h
    · obtain ⟨step, hs, hf⟩ := List.mem_filterMap.1 ho
      obtain ⟨m, hv, rfl⟩ := Option.map_eq_some_iff.1 hf
      have hr := Event.reference?_eq_some_iff.1 (Option.filter_eq_some_iff.1 hv).1
      refine Or.inr ⟨?_, step.2, rfl⟩
      have hm := List.mem_map_of_mem (f := Prod.fst) hs
      rwa [trail_steps, Place.map_fst_along, hr] at hm

/-- The names of the type variables are names as the grammar has them. -/
def HasProperNames (bindings : Bindings) : Prop :=
  ∀ entry ∈ bindings.entries, isName endsName entry.1 = true

/-- No bound has a `;`. -/
def HasPlainBounds (bindings : Bindings) : Prop :=
  ∀ entry ∈ bindings.entries, ∀ bound, entry.2 = .erased bound → ';' ∉ bound.toList

theorem HasProperNames.collect (h : bindings.HasProperNames) (member : Member) :
    (bindings.collect member).1.HasProperNames := by
  intro entry hm
  rcases mem_entries_collect hm with hm | ⟨hm, -⟩
  · exact h entry hm
  · exact hasProperName_of_walk hm

end Bindings

namespace Evidence

/-- The class names in the descriptor of a member are not empty and have no `;`. -/
def HasProperNames : Evidence → Prop
  | .field type => type.HasProperName
  | .method descriptor => descriptor.HasProperNames
  | .unknown => True

theorem hasProperName_of_type? {evidence : Evidence} {part : Part} {type : FieldType}
    (hp : evidence.HasProperNames) (h : evidence.type? part = some type) : type.HasProperName := by
  unfold type? at h
  split at h
  · cases h
    exact hp
  · next descriptor =>
      obtain ⟨-, hr⟩ := hp
      cases hres : descriptor.result with
      | void =>
          rw [hres] at h
          cases h
      | type t =>
          rw [hres] at h hr
          cases h
          exact hr
  · exact hp.1 _ (List.mem_of_getElem? h)
  · cases h

theorem semicolon_not_mem_of_at? {evidence : Evidence} {place : Place}
    (hp : evidence.HasProperNames) (h : evidence.at? place = some name) : ';' ∉ name.toList := by
  unfold at? at h
  split at h
  · obtain ⟨element, he, hn⟩ := Option.bind_eq_some_iff.1 h
    obtain ⟨type, ht, he⟩ := Option.bind_eq_some_iff.1 he
    have hproper := FieldType.hasProperName_of_element? (hasProperName_of_type? hp ht) he
    cases element with
    | object m =>
        obtain rfl := Option.some.inj hn
        exact hproper.2
    | base _ => cases hn
    | array _ => cases hn
  · cases h

end Evidence

theorem Bindings.HasPlainBounds.collect {bindings : Bindings} {member : Member}
    (h : bindings.HasPlainBounds) (hp : member.evidence.HasProperNames) :
    (bindings.collect member).1.HasPlainBounds := by
  intro entry hm bound hb
  rcases mem_entries_collect hm with hm | ⟨-, place, he⟩
  · exact h entry hm bound hb
  · rw [he] at hb
    cases hat : member.evidence.at? place with
    | none =>
        rw [hat] at hb
        cases hb
    | some name =>
        rw [hat, Bound.ofErasure?] at hb
        split at hb
        · cases hb
        · cases hb
          exact Evidence.semicolon_not_mem_of_at? hp hat

end RecordRepair

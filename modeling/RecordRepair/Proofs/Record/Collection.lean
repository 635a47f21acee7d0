import Mathlib.Data.List.Induction
import Mathlib.Data.List.Nodup
import RecordRepair.Proofs.Record.Bindings

/-! # What collecting computes

Members are collected one after the other into the same bindings.  What comes of it can be said of
all members at once, with no word on the order in which bounds were entered and refined.

* `Member.occurrences` lists the free occurrences of type variables in a signature: the references
  to names that the signature does not declare anywhere.  A fault cuts the list off, or leaves
  nothing of it if it comes before the type parameters of the signature are known (`ListsFormals`).
* `Bindings.ofOccurrences` binds each name where it occurs first, to the first erased type that one
  of its occurrences stands for.
* `Bindings.observe_ofOccurrences` takes one more occurrence into account, and
  `Bindings.collect_ofOccurrences` one more member.
* `Bindings.collectAll_eq_ofOccurrences`: any sequence of members, refused ones among them, is
  collected into the bindings of its occurrences.
* `Bindings.get?_ofOccurrences`: what they say of one name. -/

namespace RecordRepair

open Signature

variable {name : String} {declared : List String}

/-! ### Free occurrences -/

/-- A reference to a type variable that its signature does not declare. -/
structure Occurrence where
  name : String
  /-- The erased type that the variable stands for there, if it says anything about its bound. -/
  evidence : Option String
deriving DecidableEq, Repr

/-- The erased type of a place if it says anything about a bound: not within a type argument, and
not if it is the one that every type has. -/
def Evidence.usable? (evidence : Evidence) (place : Place) : Option String :=
  if place.depth = 0 then
    (evidence.erasure? place.part place.dims).filter fun erasure => erasure != objectClass
  else none

namespace Member

/-- The free occurrence of a type variable at a step of a signature. -/
def occurrence? (member : Member) (step : Signature.Event × Place) : Option Occurrence :=
  let declared := declaredNames member.kind member.signature
  (step.1.reference?.filter fun name => !declared.contains name).map fun name =>
    ⟨name, member.evidence.usable? step.2⟩

/-- The free occurrences of type variables in a signature, as far as it can be read. -/
def occurrences (member : Member) : List Occurrence :=
  if ListsFormals member.kind member.signature then
    ((Place.start member.kind).along (walk member.kind member.signature).events).filterMap
      member.occurrence?
  else []

end Member

/-! ### Bindings of occurrences -/

/-- The bound that is known from the evidence for it, if there is any. -/
def Bound.ofEvidence? : Option String → Bound
  | some erasure => erased erasure
  | none => unresolved

/-- The first evidence among some occurrences for the bound of a name. -/
def firstEvidence? (found : List Occurrence) (name : String) : Option String :=
  found.findSome? fun o => if o.name = name then o.evidence else none

namespace Bindings

/-- Each name that occurs, in the order of first occurrences, with the first evidence for its
bound. -/
def ofOccurrences (found : List Occurrence) : Bindings :=
  ⟨(found.map Occurrence.name).eraseDups.map fun name =>
    (name, .ofEvidence? (firstEvidence? found name))⟩

/-- Collects members one after the other, whether their signatures are accepted or not. -/
def collectAll (members : List Member) : Bindings :=
  members.foldl (fun bindings member => (bindings.collect member).1) empty

end Bindings

/-! ### Lists without repetitions -/

theorem eraseDups_concat (names : List String) (name : String) :
    (names ++ [name]).eraseDups =
      if name ∈ names then names.eraseDups else names.eraseDups ++ [name] := by
  rw [List.eraseDups_append]
  by_cases h : name ∈ names
  · have hr : [name].removeAll names = [] := by simp [List.removeAll, h]
    rw [if_pos h, hr, List.eraseDups_nil, List.append_nil]
  · have hr : [name].removeAll names = [name] := by simp [List.removeAll, h]
    rw [if_neg h, hr]
    rfl

theorem nodup_eraseDups (names : List String) : names.eraseDups.Nodup := by
  induction names using List.reverseRecOn with
  | nil => exact List.nodup_nil
  | append_singleton names name ih =>
      rw [eraseDups_concat]
      split
      · exact ih
      · next h =>
          have hn : name ∉ names.eraseDups := fun hm => h (List.mem_eraseDups.1 hm)
          rw [← List.concat_eq_append]
          exact List.Nodup.concat hn ih

/-! ### One more occurrence -/

/-- What is observed with an erased type is an occurrence with evidence, unless the type is one that
says nothing. -/
def Occurrence.ofObservation (o : String × Option String) : Occurrence :=
  ⟨o.1, o.2.filter fun erasure => erasure != objectClass⟩

theorem Bound.ofErasure?_eq (erasure : Option String) :
    ofErasure? erasure = ofEvidence? (erasure.filter fun e => e != objectClass) := by
  cases erasure with
  | none => rfl
  | some e =>
      by_cases h : e = objectClass
      · simp [ofErasure?, ofEvidence?, h, Option.filter]
      · simp [ofErasure?, ofEvidence?, h, Option.filter]

/-- Evidence that comes later refines a bound only if there was none. -/
theorem Bound.refine_ofEvidence? (before erasure : Option String) :
    (ofEvidence? before).refine erasure =
      ofEvidence? (before <|> erasure.filter fun e => e != objectClass) := by
  cases before with
  | none => exact ofErasure?_eq erasure
  | some e => rfl

theorem firstEvidence?_concat (found : List Occurrence) (o : Occurrence) (name : String) :
    firstEvidence? (found ++ [o]) name =
      if o.name = name then (firstEvidence? found name <|> o.evidence)
      else firstEvidence? found name := by
  unfold firstEvidence?
  rw [List.findSome?_append, List.findSome?_cons, List.findSome?_nil]
  by_cases h : o.name = name
  · simp only [if_pos h]
    cases o.evidence <;> simp
  · simp [if_neg h]

theorem firstEvidence?_of_not_mem {found : List Occurrence}
    (h : name ∉ found.map Occurrence.name) : firstEvidence? found name = none := by
  unfold firstEvidence?
  refine List.findSome?_eq_none_iff.2 fun o ho => ?_
  refine if_neg fun hn => h ?_
  exact hn ▸ List.mem_map_of_mem ho

namespace Bindings

/-- What is observed of a name is entered at its place, or else at the end. -/
theorem observeIn_map (bound : String → Bound) (names : List String) (erasure : Option String)
    (h : names.Nodup) :
    observeIn name erasure (names.map fun n => (n, bound n)) =
      if name ∈ names then
        names.map fun n => (n, if name = n then (bound n).refine erasure else bound n)
      else names.map (fun n => (n, bound n)) ++ [(name, .ofErasure? erasure)] := by
  induction names with
  | nil => simp [observeIn]
  | cons first rest ih =>
      obtain ⟨hfirst, hrest⟩ := List.nodup_cons.1 h
      rw [List.map_cons, observeIn]
      by_cases hn : first = name
      · subst hn
        have hsame :
            rest.map (fun n => (n, if first = n then (bound n).refine erasure else bound n)) =
              rest.map fun n => (n, bound n) := by
          refine List.map_congr_left fun n hm => ?_
          rw [if_neg]
          rintro rfl
          exact hfirst hm
        rw [if_pos rfl, if_pos List.mem_cons_self, List.map_cons, if_pos rfl, hsame]
      · have hmem : name ∈ first :: rest ↔ name ∈ rest := by
          rw [List.mem_cons]
          exact or_iff_right fun he => hn he.symm
        have hne : ¬ name = first := fun he => hn he.symm
        rw [if_neg hn, ih hrest]
        by_cases hm : name ∈ rest
        · rw [if_pos hm, if_pos (hmem.2 hm), List.map_cons, if_neg hne]
        · rw [if_neg hm, if_neg fun h => hm (hmem.1 h), List.cons_append]

/-- **One more occurrence.**  Its name keeps the place that it has, and its evidence counts if there
was none before. -/
theorem observe_ofOccurrences (found : List Occurrence) (name : String) (erasure : Option String) :
    (ofOccurrences found).observe name erasure =
      ofOccurrences (found ++ [.ofObservation (name, erasure)]) := by
  have hnodup := nodup_eraseDups (found.map Occurrence.name)
  have hmem : name ∈ (found.map Occurrence.name).eraseDups ↔ name ∈ found.map Occurrence.name :=
    List.mem_eraseDups
  have hnames :
      ((found ++ [Occurrence.ofObservation (name, erasure)]).map Occurrence.name).eraseDups =
        if name ∈ found.map Occurrence.name then (found.map Occurrence.name).eraseDups
        else (found.map Occurrence.name).eraseDups ++ [name] := by
    rw [List.map_append]
    exact eraseDups_concat _ name
  have hfirst : ∀ n, firstEvidence? (found ++ [.ofObservation (name, erasure)]) n =
      if name = n then (firstEvidence? found n <|> erasure.filter fun e => e != objectClass)
      else firstEvidence? found n := firstEvidence?_concat found _
  rw [observe, ofOccurrences, observeIn_map _ _ _ hnodup, ofOccurrences, hnames]
  simp only [hfirst]
  by_cases hm : name ∈ found.map Occurrence.name
  · rw [if_pos (hmem.2 hm), if_pos hm]
    congr 1
    refine List.map_congr_left fun n _ => ?_
    by_cases hn : name = n
    · rw [if_pos hn, if_pos hn, Bound.refine_ofEvidence?]
    · rw [if_neg hn, if_neg hn]
  · have hnone := firstEvidence?_of_not_mem hm
    rw [if_neg fun h => hm (hmem.1 h), if_neg hm, List.map_append, List.map_singleton, if_pos rfl,
      hnone, Bound.ofErasure?_eq]
    congr 2
    refine List.map_congr_left fun n hn => ?_
    have hne : ¬ name = n := by
      rintro rfl
      exact hm (List.mem_eraseDups.1 hn)
    rw [if_neg hne]

theorem foldl_observe_ofOccurrences (found : List Occurrence)
    (observed : List (String × Option String)) :
    observed.foldl (fun bindings o => bindings.observe o.1 o.2) (ofOccurrences found) =
      ofOccurrences (found ++ observed.map .ofObservation) := by
  induction observed generalizing found with
  | nil => simp
  | cons o observed ih =>
      rw [List.foldl_cons, observe_ofOccurrences, ih, List.map_cons, List.append_assoc,
        List.singleton_append]

end Bindings

/-! ### One more member -/

namespace Member

theorem ofObservation_at? (evidence : Evidence) (place : Place) :
    Occurrence.ofObservation (name, evidence.at? place) = ⟨name, evidence.usable? place⟩ := by
  unfold Occurrence.ofObservation Evidence.at? Evidence.usable?
  split <;> rfl

theorem observations_eq_occurrences (member : Member)
    (hd : declaredParameters member.kind member.signature = .ok declared) :
    (observations member.evidence declared
      (trail member.kind member.signature).steps).map .ofObservation = member.occurrences := by
  have hlists := (declaredParameters_eq_ok_iff.1 hd).1
  rw [occurrences, if_pos hlists, ← trail_steps, observations, List.map_filterMap]
  refine List.filterMap_congr fun step hs => ?_
  rw [occurrence?, declaredNames_of_declaredParameters hd, freeVariable?_eq hd hs, Option.map_map]
  congr 1
  funext n
  exact ofObservation_at? member.evidence step.2

theorem map_name_occurrences (member : Member)
    (h : ListsFormals member.kind member.signature) :
    member.occurrences.map Occurrence.name =
      ((walk member.kind member.signature).events.filterMap Event.reference?).filter fun name =>
        !(declaredNames member.kind member.signature).contains name := by
  have hname : ∀ step, (member.occurrence? step).map Occurrence.name =
      step.1.reference?.filter fun name =>
        !(declaredNames member.kind member.signature).contains name := by
    intro step
    rw [occurrence?, Option.map_map]
    exact Option.map_id'
  have hevents : ((Place.start member.kind).along
      (walk member.kind member.signature).events).map Prod.fst =
        (walk member.kind member.signature).events := Place.map_fst_along
  rw [occurrences, if_pos h, List.map_filterMap, List.filter_filterMap]
  simp only [hname]
  conv_rhs => rw [← hevents]
  rw [List.filterMap_map]
  rfl

theorem mem_names_occurrences_iff {member : Member} {n : String}
    (h : (walk member.kind member.signature).error = none) :
    n ∈ member.occurrences.map Occurrence.name ↔ IsFree member.kind member.signature n := by
  have hd := declaredParameters_of_walk h
  rw [map_name_occurrences member (Or.inr (Or.inl h)), declaredNames_of_declaredParameters hd,
    IsFree, ← mem_declaredParameters_iff hd, List.mem_filter, List.mem_filterMap]
  simp [Event.reference?_eq_some_iff]

end Member

namespace Bindings

theorem collect_ofOccurrences (found : List Occurrence) (member : Member) :
    ((ofOccurrences found).collect member).1 = ofOccurrences (found ++ member.occurrences) := by
  rw [collect]
  cases hd : declaredParameters member.kind member.signature with
  | error error =>
      have hlists : ¬ ListsFormals member.kind member.signature := by
        intro h
        rw [declaredParameters_of_listsFormals h] at hd
        cases hd
      rw [Member.occurrences, if_neg hlists, List.append_nil]
  | ok declared =>
      dsimp only
      rw [foldl_observe_ofOccurrences, member.observations_eq_occurrences hd]

theorem foldl_collect_ofOccurrences (found : List Occurrence) (members : List Member) :
    members.foldl (fun bindings member => (bindings.collect member).1) (ofOccurrences found) =
      ofOccurrences (found ++ members.flatMap Member.occurrences) := by
  induction members generalizing found with
  | nil => simp
  | cons member members ih =>
      rw [List.foldl_cons, collect_ofOccurrences, ih, List.flatMap_cons, List.append_assoc]

/-- **Collecting finds the first good evidence.**  After any sequence of members, the names are
those of the free occurrences in the order of their first ones.  The bound of a name is the first
erased type that one of its occurrences stands for, and unresolved if there is none. -/
theorem collectAll_eq_ofOccurrences (members : List Member) :
    collectAll members = ofOccurrences (members.flatMap Member.occurrences) :=
  foldl_collect_ofOccurrences [] members

-- the bound that comes late is found, and the one that comes later still is not
example : collectAll [⟨"TT;", .fieldKind, .unknown⟩, ⟨"TU;", .fieldKind, .unknown⟩,
    ⟨"TT;", .fieldKind, .field (.object "p/A")⟩, ⟨"TT;", .fieldKind, .field (.object "p/B")⟩] =
      ⟨[("T", .erased "p/A"), ("U", .unresolved)]⟩ := by rfl

end Bindings

/-! ### What is known of a name -/

namespace Bindings

variable {found : List Occurrence} {n e : String}

theorem lookup_map_of_names (bound : String → Bound) (names : List String) (n : String) :
    (names.map fun name => (name, bound name)).lookup n =
      if n ∈ names then some (bound n) else none := by
  induction names with
  | nil => rfl
  | cons name names ih =>
      rw [List.map_cons, List.lookup_cons, ih]
      by_cases hn : n = name
      · simp [hn]
      · simp [hn, beq_eq_false_iff_ne.2 hn]

theorem get?_ofOccurrences (found : List Occurrence) (n : String) : (ofOccurrences found).get? n =
    if n ∈ found.map Occurrence.name then some (.ofEvidence? (firstEvidence? found n)) else none := by
  rw [get?, ofOccurrences, lookup_map_of_names]
  simp only [List.mem_eraseDups]

theorem get?_eq_none_iff :
    (ofOccurrences found).get? n = none ↔ n ∉ found.map Occurrence.name := by
  rw [get?_ofOccurrences]
  split <;> simp_all

theorem get?_eq_erased_iff :
    (ofOccurrences found).get? n = some (.erased e) ↔ firstEvidence? found n = some e := by
  rw [get?_ofOccurrences]
  split
  · cases firstEvidence? found n <;> simp [Bound.ofEvidence?]
  · next hn => simp [firstEvidence?_of_not_mem hn]

theorem get?_eq_unresolved_iff : (ofOccurrences found).get? n = some .unresolved ↔
    n ∈ found.map Occurrence.name ∧ firstEvidence? found n = none := by
  rw [get?_ofOccurrences]
  split
  · next hn => cases firstEvidence? found n <;> simp [Bound.ofEvidence?, hn]
  · next hn => simp [hn]

end Bindings

end RecordRepair

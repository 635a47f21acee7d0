import Mathlib.Data.List.Basic
import RecordRepair.Proofs.Record.Bindings
import RecordRepair.Proofs.Signature.Renaming

/-! # The names of local type parameters

What a member adds to the bindings does not depend on the names that its signature gives to its own
type parameters.

* `IsLocal`: a map of names that leaves the free type variables of a signature alone, and gives none
  of their names to a type parameter.
* `observations_rename`: under such a map the free type variables stay, each with its evidence.  All
  type parameters are known from the start, so this holds of one that is used ahead of its
  declaration as well.
* `Bindings.collect_of_rename`: so the bindings come out equal.
* `collect_local_name_free`: this is so of one name in the place of another. -/

namespace RecordRepair

open Signature

variable {f : String → String} {kind : Kind} {text text' old new : String}
  {declared : List String} {es : List Signature.Event} {step : Signature.Event × Place}

/-! ### Maps of local names -/

/-- A map of names that leaves the type variables alone that are not declared, and gives none of
their names to a type parameter. -/
def IsLocal (f : String → String) (declared : List String) (es : List Signature.Event) : Prop :=
  ∀ n, .typeVariable n ∈ es → n ∉ declared → f n = n ∧ n ∉ declared.map f

theorem IsLocal.mem_map_iff {n : String} (hf : IsLocal f declared es)
    (hm : .typeVariable n ∈ es) : f n ∈ declared.map f ↔ n ∈ declared := by
  constructor
  · intro h
    by_contra hn
    obtain ⟨hfix, hout⟩ := hf n hm hn
    exact hout (hfix ▸ h)
  · exact List.mem_map_of_mem

/-- A type parameter may be given any name that no type variable has. -/
theorem isLocal_replacing (ho : old ∈ declared) (hn : .typeVariable new ∉ es) :
    IsLocal (replacing old new) declared es := by
  intro n hm hfree
  have hold : n ≠ old := by
    rintro rfl
    exact hfree ho
  refine ⟨if_neg hold, fun hmem => ?_⟩
  obtain ⟨m, hdeclared, he⟩ := List.mem_map.1 hmem
  rw [replacing] at he
  split at he
  · exact hn (he ▸ hm)
  · exact hfree (he ▸ hdeclared)

/-! ### Observations under other names -/

/-- A step with its names replaced. -/
def renameStep (f : String → String) : Signature.Event × Place → Signature.Event × Place :=
  Prod.map (Event.rename f) (Place.rename f)

theorem steps_rename (h : (walk kind text').events = (walk kind text).events.map (Event.rename f)) :
    (trail kind text').steps = (trail kind text).steps.map (renameStep f) := by
  have hstart : (Place.start kind).rename f = Place.start kind := rfl
  rw [trail_steps, trail_steps, h, renameStep, ← Place.along_rename, hstart]

theorem declaredParameters_rename
    (h : walk kind text' = ⟨(walk kind text).events.map (Event.rename f), none⟩)
    (hd : declaredParameters kind text = .ok declared) :
    declaredParameters kind text' = .ok (declared.map f) := by
  have herror : (walk kind text').error = none := by rw [h]
  rw [declaredParameters_of_walk herror, h, (declaredParameters_eq_ok_iff.1 hd).2,
    List.filterMap_map, List.map_filterMap]
  congr 2
  funext e
  exact e.formal?_rename

theorem freeVariable?_rename (hf : IsLocal f declared (walk kind text).events)
    (hd : declaredParameters kind text = .ok declared)
    (hd' : declaredParameters kind text' = .ok (declared.map f))
    (hs : step ∈ (trail kind text).steps) (hs' : renameStep f step ∈ (trail kind text').steps) :
    Member.freeVariable? (declared.map f) (renameStep f step) =
      Member.freeVariable? declared step := by
  rw [Member.freeVariable?_eq hd hs, Member.freeVariable?_eq hd' hs']
  rw [renameStep, Prod.map_fst, Event.reference?_rename]
  cases hr : step.1.reference? with
  | none => rfl
  | some n =>
      have hm : .typeVariable n ∈ (walk kind text).events := by
        rw [trail_steps] at hs
        have hfst := List.mem_map_of_mem (f := Prod.fst) hs
        rwa [Place.map_fst_along, Event.reference?_eq_some_iff.1 hr] at hfst
      rw [Option.map_some]
      have hcontains : (declared.map f).contains (f n) = declared.contains n := by
        rw [Bool.eq_iff_iff, List.contains_iff_mem, List.contains_iff_mem]
        exact hf.mem_map_iff hm
      rw [Option.filter_some, Option.filter_some, hcontains]
      -- a declared variable counts on neither side, and a free one keeps its name
      by_cases hn : n ∈ declared
      · simp [hn]
      · rw [(hf n hm hn).1]

theorem observations_rename (evidence : Evidence)
    (hf : IsLocal f declared (walk kind text).events)
    (h : walk kind text' = ⟨(walk kind text).events.map (Event.rename f), none⟩)
    (hd : declaredParameters kind text = .ok declared) :
    Member.observations evidence (declared.map f) (trail kind text').steps =
      Member.observations evidence declared (trail kind text).steps := by
  have hsteps : (trail kind text').steps = (trail kind text).steps.map (renameStep f) :=
    steps_rename (by rw [h])
  have hd' := declaredParameters_rename h hd
  rw [Member.observations, Member.observations, hsteps, List.filterMap_map]
  refine List.filterMap_congr fun step hs => ?_
  have hs' : renameStep f step ∈ (trail kind text').steps := by
    rw [hsteps]
    exact List.mem_map_of_mem hs
  have hplace : evidence.at? (renameStep f step).2 = evidence.at? step.2 := rfl
  rw [Function.comp_apply, freeVariable?_rename hf hd hd' hs hs', hplace]

/-! ### Bindings under other names -/

theorem Bindings.collect_of_rename (bindings : Bindings) (evidence : Evidence)
    (haccepted : (walk kind text).error = none)
    (hf : IsLocal f (declaredNames kind text) (walk kind text).events)
    (h : walk kind text' = ⟨(walk kind text).events.map (Event.rename f), none⟩) :
    bindings.collect ⟨text', kind, evidence⟩ = bindings.collect ⟨text, kind, evidence⟩ := by
  have hd := declaredParameters_of_walk haccepted
  rw [declaredNames_of_declaredParameters hd] at hf
  have haccepted' : (walk kind text').error = none := by rw [h]
  refine Prod.ext ?_ ?_
  · rw [collect, collect, declaredParameters_rename h hd, hd]
    dsimp only
    rw [observations_rename evidence hf h hd]
  · rw [collect_snd, collect_snd]
    exact (validate_eq_ok_iff.2 haccepted').trans (validate_eq_ok_iff.2 haccepted).symm

/-- **Local type parameters do not leak.**  Let an accepted signature declare a type parameter, and
let its events name it differently, by a name that does not look like a bound and that no type
variable of the signature has.  The text of these events is accepted again, and it is read as just
these events.  Whatever has been collected before, it leaves the same bindings as the signature
itself: the type variables that this refers to without declaring them are added, and no others.
The new name may even be that of another type parameter. -/
theorem collect_local_name_free (kind : Kind) (text old new : String)
    (haccepted : validate kind text = .ok ()) (hdeclared : Declares kind text old)
    (hname : isName endsName new = true)
    (hL : new.toList.head? ≠ some 'L') (hT : new.toList.head? ≠ some 'T')
    (hfresh : .typeVariable new ∉ (walk kind text).events) :
    ∃ text', printAll ((walk kind text).events.map (Event.rename (replacing old new))) =
        .ok text' ∧
      walk kind text' =
        ⟨(walk kind text).events.map (Event.rename (replacing old new)), none⟩ ∧
      validate kind text' = .ok () ∧
      ∀ (bindings : Bindings) (evidence : Evidence),
        bindings.collect ⟨text', kind, evidence⟩ = bindings.collect ⟨text, kind, evidence⟩ ∧
        ∀ n, n ∈ (bindings.collect ⟨text', kind, evidence⟩).1.names ↔
          n ∈ bindings.names ∨ IsFree kind text n := by
  have hwalk := validate_eq_ok_iff.1 haccepted
  have hr : IsRenaming (replacing old new) := isRenaming_replacing hname hL hT
  obtain ⟨text', hprint, h⟩ := exists_text_rename hr hwalk
  have hf := isLocal_replacing (mem_declaredNames_iff.2 hdeclared) hfresh
  refine ⟨text', hprint, h, validate_eq_ok_iff.2 (by rw [h]), fun bindings evidence => ?_⟩
  have hsame := bindings.collect_of_rename evidence hwalk hf h
  refine ⟨hsame, ?_⟩
  rw [hsame]
  exact (Bindings.collect_of_walk ⟨text, kind, evidence⟩ hwalk).2

/-- The method declares a `B` behind its first use, and the class has another one. -/
theorem collect_local_name_free_shadowing :
    let method : MethodDescriptor :=
      ⟨[.object "java/lang/Object", .object "p/E"], .type (.object "java/lang/Object")⟩
    let found := Bindings.collect ⟨[("B", .unresolved)]⟩
      ⟨"<A:TB;B:Ljava/lang/Object;>(TB;TE;)TA;", .methodKind, .method method⟩
    found = Bindings.collect ⟨[("B", .unresolved)]⟩
      ⟨"<A:TX;X:Ljava/lang/Object;>(TX;TE;)TA;", .methodKind, .method method⟩ ∧
    found.1.entries = [("B", .unresolved), ("E", .erased "p/E")] := by
  have hdeclared : Declares .methodKind "<A:TB;B:Ljava/lang/Object;>(TB;TE;)TA;" "B" :=
    mem_declaredNames_iff.1 (by decide)
  obtain ⟨text', hprint, -, -, h⟩ := collect_local_name_free .methodKind
    "<A:TB;B:Ljava/lang/Object;>(TB;TE;)TA;" "B" "X" (by rfl) hdeclared (by decide) (by decide)
    (by decide) (by decide)
  obtain rfl : "<A:TX;X:Ljava/lang/Object;>(TX;TE;)TA;" = text' := by
    refine Except.ok.inj (Eq.trans ?_ hprint)
    rfl
  exact ⟨(h _ _).1.symm, rfl⟩

end RecordRepair

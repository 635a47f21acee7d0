import RecordRepair.Proofs.Signature.Depths

/-! # Declared type parameters

The type parameters of a signature can be told in three ways: by reading no further than their list,
by the events of the whole walk, and by the place behind the whole walk.

* `Place.declared_foldl`: the places of a walk keep the names of all type parameters.
* `declaredParameters_eq_error_iff`: the list cannot be told if a fault comes before everything that
  ends it.
* `declaredParameters_agree`: the three ways agree, and a fault behind the list is not seen. -/

namespace RecordRepair.Signature

variable {es before after : List Event} {event : Event} {kind : Kind} {text : String}
  {place : Place} {error : FormatError}

theorem Place.declared_foldl (place : Place) (es : List Event) :
    (es.foldl Place.advance place).declared =
      (es.filterMap Event.formal?).reverse ++ place.declared := by
  induction es generalizing place with
  | nil => rfl
  | cons e es ih =>
      rw [List.foldl_cons, ih, advance_declared, List.filterMap_cons]
      cases e.formal? <;> simp

theorem exists_place_of_walk (kind : Kind) (text : String) : ∃ place,
    (walk kind text).events.foldlM (Place.apply text) (.start kind) = .ok place ∧
      ∀ name, place.declares name = true ↔
        name ∈ (walk kind text).events.filterMap Event.formal? := by
  obtain ⟨n, hl⟩ := exists_level?_of_walk kind text
  refine ⟨_, (foldlM_apply_eq_ok text (.start kind) hl).1, fun name => ?_⟩
  rw [Place.declares, Place.declared_foldl]
  simp [Place.start]

theorem declaredParameters_eq_error_iff (hk : kind ≠ .fieldKind)
    (h : (walk kind text).error = some error) :
    declaredParameters kind text = .error error ↔
      ∀ event ∈ (walk kind text).events, event.endsFormals = false := by
  constructor
  · intro hd event he
    by_contra hends
    have hlists : ListsFormals kind text := Or.inr (Or.inr ⟨event, he, by simpa using hends⟩)
    rw [declaredParameters_of_listsFormals hlists] at hd
    cases hd
  · intro hall
    have hnot : ¬ ListsFormals kind text := by
      rintro (hf | hnone | ⟨event, he, hends⟩)
      · exact hk hf
      · rw [h] at hnone
        cases hnone
      · rw [hall event he] at hends
        cases hends
    obtain ⟨first, hd⟩ := exists_error_of_not_listsFormals hnot
    obtain rfl := Option.some.inj (h.symm.trans (error_of_declaredParameters hd))
    exact hd

theorem FormalsFirst.filterMap_before (h : FormalsFirst (before ++ event :: after))
    (hb : ∀ e ∈ before, e.endsFormals = false) (he : event.endsFormals = true) :
    before.filterMap Event.formal? = (before ++ event :: after).filterMap Event.formal? := by
  -- the events that a list is read from end at the first one that ends it
  have htake : (before ++ event :: after).takeWhile (fun e => !e.endsFormals) = before := by
    rw [List.takeWhile_append_of_pos (by simpa using hb),
      List.takeWhile_cons_of_neg (by simp [he]), List.append_nil]
  rw [← h.filterMap_takeWhile, htake]

/-- **The ways to tell the declared type parameters agree.**  Of an accepted signature they are the
names of all type parameter events of its walk, in order and with repetitions, and the place behind
the walk declares the same names.  Of a class or method signature that is refused they cannot be
told if and only if its walk stops before the first event behind their list, and then for the error
of the walk.  Otherwise they are the names ahead of that event, and the walk names no others. -/
theorem declaredParameters_agree (kind : Kind) (text : String) :
    ((walk kind text).error = none →
      declaredParameters kind text = .ok ((walk kind text).events.filterMap Event.formal?) ∧
        ∃ place, (walk kind text).events.foldlM (Place.apply text) (.start kind) = .ok place ∧
          ∀ name, place.declares name = true ↔
            name ∈ (walk kind text).events.filterMap Event.formal?) ∧
      (kind ≠ .fieldKind → ∀ error, (walk kind text).error = some error →
        (declaredParameters kind text = .error error ↔
          ∀ event ∈ (walk kind text).events, event.endsFormals = false) ∧
        ∀ before event after, (walk kind text).events = before ++ event :: after →
          (∀ e ∈ before, e.endsFormals = false) → event.endsFormals = true →
          declaredParameters kind text = .ok (before.filterMap Event.formal?) ∧
            before.filterMap Event.formal? =
              (walk kind text).events.filterMap Event.formal?) := by
  refine ⟨fun h => ⟨declaredParameters_of_walk h, exists_place_of_walk kind text⟩,
    fun hk error h => ⟨declaredParameters_eq_error_iff hk h, fun before event after hs hb he => ?_⟩⟩
  have hlists : ListsFormals kind text := Or.inr (Or.inr ⟨event, by simp [hs], he⟩)
  have hfirst := formalsFirst_of_walk kind text
  rw [hs] at hfirst
  have hnames := hfirst.filterMap_before hb he
  rw [← hs] at hnames
  exact ⟨by rw [hnames, declaredParameters_of_listsFormals hlists], hnames⟩

/-- A name declared twice, a fault ahead of the parameters of a method, and one behind them. -/
theorem declaredParameters_agree_twice :
    declaredParameters .classKind "<T:Lp/A;T::Lp/I;>Lp/R;" = .ok ["T", "T"] ∧
      declaredParameters .methodKind "<T:Lp/A;>" =
        .error (.invalidSignature "<T:Lp/A;>" 9 .endOfText) ∧
      declaredParameters .methodKind "<T:Lp/A;>(X" = .ok ["T"] := by
  have haccepted : walk .classKind "<T:Lp/A;T::Lp/I;>Lp/R;" =
      ⟨[.formalParameter "T", .classBound, .classType "p/A", .close, .formalParameter "T",
        .interfaceBound, .classType "p/I", .close, .superclass, .classType "p/R", .close],
        none⟩ := by
    decide
  have hearly : walk .methodKind "<T:Lp/A;>" =
      ⟨[.formalParameter "T", .classBound, .classType "p/A", .close],
        some (.invalidSignature "<T:Lp/A;>" 9 .endOfText)⟩ := by
    decide
  have hlate : walk .methodKind "<T:Lp/A;>(X" =
      ⟨[.formalParameter "T", .classBound, .classType "p/A", .close, .parameterType],
        some (.invalidSignature "<T:Lp/A;>(X" 10 .referenceType)⟩ := by
    decide
  refine ⟨?_, ?_, ?_⟩
  · have h := ((declaredParameters_agree .classKind "<T:Lp/A;T::Lp/I;>Lp/R;").1
      (by rw [haccepted])).1
    rw [h, haccepted]
    rfl
  · have h := ((declaredParameters_agree .methodKind "<T:Lp/A;>").2 (by decide) _
      (by rw [hearly])).1
    exact h.2 (by rw [hearly]; decide)
  · have h := ((declaredParameters_agree .methodKind "<T:Lp/A;>(X").2 (by decide) _
      (by rw [hlate])).2
    have hnames := (h [.formalParameter "T", .classBound, .classType "p/A", .close]
      .parameterType [] (by rw [hlate]; rfl) (by decide) rfl).1
    rw [hnames]
    rfl

end RecordRepair.Signature
